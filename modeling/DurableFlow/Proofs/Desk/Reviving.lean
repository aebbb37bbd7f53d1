import DurableFlow.Proofs.Desk.Apart
import DurableFlow.Proofs.Desk.CrashSafety
import DurableFlow.Proofs.Desk.Leftovers

/-!
# What restoring can bring back

Restoring looks up the stored runs first and makes them pending later, and others may take
their turns in between. A run that has been pending and is so no more is brought back if its
row was still there when restoring looked. `Site.Underway` follows all others while one errand
restores: without that errand they keep to what holds of an office that restores nothing.
-/

namespace DurableFlow

/-- An errand that restores and has not looked up the stored runs yet. -/
structure Errand.IsRestoring (errand : Errand) : Prop where
  delivery : errand.delivery = none
  acts : ∀ act ∈ errand.acts, ∃ provider handler, act = .register provider handler
  decision : errand.decision = .restore ∨
    (∃ subscriptions, errand.decision = .adoptSubscriptions subscriptions) ∨
      errand.decision = .recallSuspended

/-- An errand that has looked up the stored runs, or is not going to. -/
structure Errand.HasRead (errand : Errand) : Prop where
  delivery : errand.delivery = none
  acts : errand.acts = []
  decision : (∃ states, errand.decision = .adoptSuspended states) ∨
    ∃ answer, errand.decision = .answer answer

/-- Two offices differ in their deployments, their switchboards and in the ids that are still
to be given at most. -/
structure Office.Rewires (office other : Office) : Prop extends Office.SamePauses office other where
  errands : other.errands = office.errands
  nextErrand_le : office.nextErrand ≤ other.nextErrand
  definitions : other.desk.definitions = office.desk.definitions

namespace Stride

variable {errand : Errand} (engine : Engine) (office : Office)

/-- Until it has looked up the stored runs, an errand that restores leaves all but the
deployments alone. -/
theorem step_restoring (restoring : errand.IsRestoring) :
    let stride := step engine office errand
    stride.engine = engine ∧ office.Rewires stride.office ∧ stride.signal = .proceed ∧
      (stride.errand.IsRestoring ∨ stride.errand.HasRead) ∧ errand.deed = .nothing := by
  obtain ⟨delivery, registers, decisions⟩ := restoring
  have refl : office.Rewires office := ⟨⟨rfl, rfl, rfl⟩, rfl, Nat.le_refl _, rfl⟩
  cases acts : errand.acts with
  | cons act rest =>
    rw [acts] at registers
    obtain ⟨provider, handler, rfl⟩ := registers act List.mem_cons_self
    simp only [step, acts, Stride.act, Errand.deed]
    refine ⟨trivial, ⟨⟨rfl, rfl, rfl⟩, rfl, Nat.le_refl _, rfl⟩, trivial,
      .inl ⟨delivery, ?_, decisions⟩, trivial⟩
    intro other among
    exact registers other (List.mem_cons_of_mem _ among)
  | nil =>
    have answers : ∀ answer, (errand.go [] (.answer answer)).HasRead :=
      fun answer => ⟨delivery, rfl, .inr ⟨answer, rfl⟩⟩
    have decides := decide_decides engine office errand
    simp only [step, acts, Errand.deed]
    generalize decide engine office errand = stride at decides ⊢
    rcases decisions with decision | ⟨subscriptions, decision⟩ | decision
    · rw [decision] at decides ⊢
      cases decides with
      | restoresNothing | restoreFailed => exact ⟨rfl, refl, rfl, .inr (answers _), rfl⟩
      | restores =>
        exact ⟨rfl, refl, rfl, .inl ⟨delivery, List.forall_mem_nil _, .inr (.inl ⟨_, rfl⟩)⟩, rfl⟩
    · rw [decision] at decides ⊢
      cases decides with
      | adopted =>
        exact ⟨rfl, refl, rfl, .inl ⟨delivery, List.forall_mem_nil _, .inr (.inr rfl)⟩, rfl⟩
      | passesOver =>
        exact ⟨rfl, refl, rfl, .inl ⟨delivery, List.forall_mem_nil _, .inr (.inl ⟨_, rfl⟩)⟩, rfl⟩
      | adopts =>
        exact ⟨rfl, ⟨⟨rfl, rfl, rfl⟩, rfl, Nat.le_refl _, rfl⟩, rfl,
          .inl ⟨delivery, by simp [Errand.go], .inr (.inl ⟨_, rfl⟩)⟩, rfl⟩
    · rw [decision] at decides ⊢
      cases decides with
      | recallsNothing | recallFailed => exact ⟨rfl, refl, rfl, .inr (answers _), rfl⟩
      | @recalls ledger states =>
        exact ⟨rfl, refl, rfl, .inr ⟨delivery, rfl, .inl ⟨states, rfl⟩⟩, rfl⟩

/-- Then nothing is looked up any more. -/
theorem step_hasRead (read : errand.HasRead) : (step engine office errand).errand.HasRead := by
  obtain ⟨delivery, acts, decisions⟩ := read
  rcases decisions with ⟨states, decision⟩ | ⟨answer, decision⟩
  · simp only [step, acts, decide, decision, adoptSuspended]
    exact ⟨delivery, rfl, .inr ⟨_, rfl⟩⟩
  · simp only [step, acts, decide, decision, delivery]
    exact ⟨delivery, acts, .inr ⟨answer, decision⟩⟩

end Stride

namespace Site

variable {site after : Site} {lives : String → Life} {told : String → List Passage}

/-- What changes the deployments and the switchboard at most keeps the runs where they are. -/
theorem Kept.rewire (kept : site.Kept lives) (engine : after.engine = site.engine)
    (rewires : site.office.Rewires after.office) : after.Kept lives := by
  obtain ⟨engine', office⟩ := after
  obtain rfl : engine' = site.engine := engine
  have errands : office.errands = site.office.errands := rewires.errands
  refine ⟨kept.numbered, rewires.orderly kept.orderly, ?_, ?_, ?_, ?_, ?_, ?_, ?_, kept.issued⟩
  · exact (congrArg Table.ids errands).symm ▸ kept.unique
  · intro entry member
    exact (kept.below entry (errands ▸ member)).trans_le rewires.nextErrand_le
  · exact fun entry member => kept.managed entry (errands ▸ member)
  · intro execution state alarm
    rw [← kept.pending, Site.pending?, rewires.pending?]
    rfl
  · exact fun entry member => kept.charged entry (errands ▸ member)
  · exact fun entry member other among =>
      kept.exclusive entry (errands ▸ member) other (errands ▸ among)
  · exact fun entry member => kept.issued_of_charge entry (errands ▸ member)

theorem Filed.rewire (filed : site.Filed told) (kept : site.Kept lives)
    (engine : after.engine = site.engine) (rewires : site.office.Rewires after.office) :
    after.Filed told := by
  have calm : Deed.nothing.IsCalm := trivial
  have pending : ∀ execution, after.pending? execution = site.pending? execution :=
    rewires.pending?
  have knowing : after.office.desk.Knowing := by
    refine filed.knowing.of_subset rewires.definitions fun execution held found => ?_
    exact (pending execution).symm.trans found
  have aside := filed.aside kept after calm (engine ▸ .refl _) (engine ▸ kept.numbered.extends_refl)
    (congrArg Engine.ledger engine) knowing pending
    fun entry member => .inl (rewires.errands ▸ member)
  simpa [Deed.tells, pending, calm.passages_self] using aside

theorem Tidy.rewire {old : String → Prop} (tidy : site.Tidy old)
    (engine : after.engine = site.engine) (rewires : site.office.Rewires after.office) :
    after.Tidy old :=
  tidy.aside (congrArg Engine.ledger engine) rewires.pending?
    fun _ member => rewires.errands.symm ▸ member

theorem IsOver.rewire {execution : String} (ended : site.IsOver execution) (kept : site.Kept lives)
    (engine : after.engine = site.engine) (rewires : site.office.Rewires after.office) :
    after.IsOver execution :=
  ended.aside kept (engine ▸ kept.numbered.extends_refl) (rewires.pending? execution)
    fun _ member => .inl (rewires.errands ▸ member)

/-- While one errand restores: the site without this errand has each run in the one place that its
passages have led it to and stored states that agree with them, and what else is stored is of runs
of earlier processes, of which nothing is told. -/
structure Underway (old : String → Prop) (id : Nat) (site : Site) (errand : Errand)
    (log : String → List Passage) : Prop where
  found : site.office.errand? id = some errand
  used : id < site.office.nextErrand
  kept : ∃ lives, (site.without id).Kept lives
  filed : ∃ told, (site.without id).Filed told
  tidy : (site.without id).Tidy old
  ended : ∀ execution, old execution → (site.without id).IsOver execution ∧ log execution = []

/-- The errand that restored has looked up the stored runs, or has come to its end. -/
structure Past (site : Site) (id : Nat) : Prop where
  used : id < site.office.nextErrand
  read : ∀ errand, site.office.errand? id = some errand → errand.HasRead

/-- What has been looked up stays so. -/
theorem Past.move {id : Nat} (past : site.Past id) (m : Move) : (site.move m).Past id := by
  refine ⟨past.used.trans_le (nextErrand_le_move site m), fun errand found => ?_⟩
  by_cases own : m = .turn id
  · subst own
    cases there : site.office.errand? id with
    | none =>
      have same : site.move (.turn id) = site := by simp only [Site.move, turn, there]
      rw [same, there] at found
      contradiction
    | some earlier =>
      have read := Stride.step_hasRead site.engine site.office (past.read earlier there)
      rw [move_turn there] at found
      rw [eq_of_mem_land (Table.mem_of_lookup found)]
      exact read
  · rw [errand?_move past.used own] at found
    exact past.read errand found

theorem Past.play {id : Nat} (past : site.Past id) (schedule : List Move) :
    (site.play schedule).Past id := by
  induction schedule generalizing site with
  | nil => exact past
  | cons m rest ih => exact ih (past.move m)

namespace Underway

variable {old : String → Prop} {id : Nat} {log : String → List Passage} {errand : Errand}

/-- Another errand takes a turn, or something else happens. -/
theorem move (underway : Underway old id site errand log) {m : Move} (other : m ≠ .turn id) :
    Underway old id (site.move m) errand
      fun execution => log execution ++ site.passages m execution := by
  obtain ⟨lives, kept⟩ := underway.kept
  obtain ⟨lives', accounts⟩ := kept.accounts_move m
  obtain ⟨told, filed⟩ := underway.filed
  have same := move_without underway.used other
  refine ⟨(errand?_move underway.used other).trans underway.found,
    underway.used.trans_le (nextErrand_le_move site m), ⟨lives', same ▸ accounts.kept⟩,
    ⟨_, same ▸ filed.move kept m⟩, same ▸ underway.tidy.move kept filed m, fun execution was => ?_⟩
  obtain ⟨ended, untold⟩ := underway.ended execution was
  obtain ⟨still, nothing⟩ := ended.move kept m
  rw [passages_without underway.used other] at nothing
  exact ⟨same ▸ still, by rw [untold, nothing, List.append_nil]⟩

/-- The errand that restores takes a turn. -/
theorem own (underway : Underway old id site errand log) (restoring : errand.IsRestoring) :
    Underway old id (site.move (.turn id)) (Stride.step site.engine site.office errand).errand
      fun execution => log execution ++ site.passages (.turn id) execution := by
  obtain ⟨engine, rewires, goes, _, does⟩ :=
    Stride.step_restoring site.engine site.office restoring
  obtain ⟨lives, kept⟩ := underway.kept
  obtain ⟨told, filed⟩ := underway.filed
  have deed : site.deed (.turn id) = .nothing := by simp [Site.deed, underway.found, does]
  have moved : site.move (.turn id) =
      ⟨(Stride.step site.engine site.office errand).engine,
        (Stride.step site.engine site.office errand).office.setErrand id
          (Stride.step site.engine site.office errand).errand⟩ := by
    rw [move_turn underway.found]
    simp only [land, goes, reduceCtorEq, if_false]
  generalize Stride.step site.engine site.office errand = stride at *
  have still : ((site.move (.turn id)).without id).engine = (site.without id).engine := by
    rw [moved]
    exact engine
  have rewired : (site.without id).office.Rewires ((site.move (.turn id)).without id).office := by
    rw [moved, without, without]
    dsimp only
    rw [dropErrand_setErrand_self]
    refine ⟨⟨rewires.pending, rewires.alarms, rewires.nextAlarm⟩, ?_, rewires.nextErrand_le,
      rewires.definitions⟩
    exact congrArg (List.filter (·.1 != id)) rewires.errands
  have nothing : ∀ execution, site.passages (.turn id) execution = [] := by
    intro execution
    have same : (site.move (.turn id)).pending? execution = site.pending? execution :=
      rewired.pending? execution
    have calm : (site.deed (.turn id)).IsCalm := deed ▸ trivial
    rw [passages, Deed.tells, same]
    exact calm.passages_self execution _
  simp only [nothing, List.append_nil]
  refine ⟨?_, underway.used.trans_le (nextErrand_le_move site _),
    ⟨lives, kept.rewire still rewired⟩, ⟨told, filed.rewire kept still rewired⟩,
      underway.tidy.rewire still rewired,
    fun execution was => ?_⟩
  · have found : stride.office.errand? id = some errand := by
      rw [Office.errand?, rewires.errands]
      exact underway.found
    rw [moved]
    exact errand?_setErrand found
  · obtain ⟨ended, untold⟩ := underway.ended execution was
    exact ⟨ended.rewire kept still rewired, untold⟩

/-- Any schedule, up to where the errand that restores looks up the stored runs. -/
theorem play (underway : Underway old id site errand log) (restoring : errand.IsRestoring)
    (schedule : List Move) :
    (∃ errand : Errand, errand.IsRestoring ∧ Underway old id (site.play schedule) errand
        fun execution => log execution ++ site.log execution schedule) ∨
      (site.play schedule).Past id := by
  induction schedule generalizing site log errand with
  | nil => exact .inl ⟨errand, restoring, by simpa [Site.log] using underway⟩
  | cons m rest ih =>
    simp only [Site.log, play_cons, ← List.append_assoc]
    by_cases own : m = .turn id
    · subst own
      have next := underway.own restoring
      rcases (Stride.step_restoring site.engine site.office restoring).2.2.2.1 with
        still | read
      · exact ih next still
      · refine .inr (Past.play ⟨next.used, fun errand found => ?_⟩ rest)
        cases next.found.symm.trans found
        exact read
    · exact ih (underway.move own) restoring

/-- While the errand that restores takes no turns, it stays what it is. -/
theorem wait (underway : Underway old id site errand log) {schedule : List Move}
    (waits : .turn id ∉ schedule) :
    Underway old id (site.play schedule) errand
      fun execution => log execution ++ site.log execution schedule := by
  induction schedule generalizing site log with
  | nil => simpa [Site.log] using underway
  | cons m rest ih =>
    simp only [Site.log, play_cons, ← List.append_assoc]
    rw [List.mem_cons, not_or] at waits
    exact ih (underway.move (Ne.symm waits.1)) waits.2

end Underway

/-- Where no errand restores, a stored state of a run that is not pending is going to be deleted or
made pending by an errand, or the run is over. -/
theorem Filed.tidy (filed : site.Filed told) : site.Tidy site.IsOver := by
  intro execution row
  by_cases waits : (site.pending? execution).isSome
  · exact .inr (.inl waits)
  by_cases owed : ∃ entry ∈ site.office.errands, entry.2.Owes execution
  · exact .inr (.inr owed)
  refine .inl ⟨filed.issued execution row, by simpa using waits, ?_⟩
  rintro entry member charge charged rfl
  obtain ⟨paper, stage, stored⟩ := filed.errands entry member
  have kept := stored charge charged
  apply owed
  refine ⟨entry, member, ?_⟩
  cases stage with
  | free | forgetting | saving => exact absurd kept row
  | releasing state plain forgets claims fits =>
    rw [Stride.charges_of_plain plain, Option.mem_toList] at charged
    have own := Decision.execution_of_inHand? claims charged
    exact .inl (List.mem_append_left _ (by rw [forgets, own]; exact List.mem_singleton_self _))
  | arming d state acts own answer answers =>
    rw [Stride.charges_of_answer entry.2 answers, acts] at charged
    rw [List.mem_singleton.mp charged]
    exact .inr ⟨d, state, acts, rfl⟩

/-- A process is asked to restore, at some point of its work or first thing, with the passages that
have been told by then. -/
inductive Begins (catalog : Catalog) (limit : Nat) (epoch : Instant) :
    Site → Nat → (String → List Passage) → Prop where
  | working {site : Site} {told : String → List Passage}
      (lived : Lived catalog limit epoch site told) (schedule : List Move) :
      Begins catalog limit epoch
        { site.play schedule with
          office := ((site.play schedule).office.takeOn { decision := .restore }).2 }
        (site.play schedule).office.nextErrand fun execution => site.log execution schedule
  | afresh {site : Site} {told : String → List Passage}
      (lived : Lived catalog limit epoch site told) (policy : TimeoutPolicy) :
      Begins catalog limit epoch (site.restarted policy) 0 fun _ => []

/-- What there is besides the errand that restores first thing is inherited. -/
theorem inherits_restarted (site : Site) (policy : TimeoutPolicy) :
    site.Inherits ((site.restarted policy).without 0) := by
  have begins : Restoring (site.restarted policy) { decision := .restore }
      (site.restarted policy) := ⟨rfl, rfl, rfl, rfl, rfl⟩
  obtain ⟨orderly, nothing⟩ := begins.orderly
  have same : (site.restarted policy).office.SamePauses
      ((site.restarted policy).without 0).office := ⟨rfl, rfl, rfl⟩
  have absent : ∀ execution state alarm,
      ((site.restarted policy).without 0).pending? execution ≠ some ⟨state, alarm⟩ := by
    intro execution state alarm found
    cases (nothing execution).symm.trans found
  exact ⟨rfl, rfl, rfl, Nat.le_refl _, rfl, same.orderly orderly,
    fun execution state alarm found => absurd found (absent execution state alarm),
    fun execution state alarm found => absurd found (absent execution state alarm)⟩

/-- A step of a new errand that changes the errand alone. -/
theorem Kept.move_taken (kept : site.Kept lives) {errand next : Errand} {requests : List Request}
    (steps : Stride.step site.engine (site.office.takeOn errand).2 errand =
      ⟨site.engine, (site.office.takeOn errand).2, next, .proceed, requests⟩) :
    ({ site with office := (site.office.takeOn errand).2 } : Site).move
        (.turn site.office.nextErrand) =
      { site with office := (site.office.takeOn next).2 } := by
  have others : ∀ entry ∈ site.office.errands, (if entry.1 = site.office.nextErrand then
      (site.office.nextErrand, next) else entry) = entry := by
    intro entry member
    rw [if_neg (kept.below entry member).ne]
  have set : (site.office.takeOn errand).2.setErrand site.office.nextErrand next =
      (site.office.takeOn next).2 := by
    simp only [Office.takeOn, Office.setErrand, List.map_append, List.map_congr_left others]
    simp
  rw [move_turn (kept.errand?_taken errand), steps]
  simp only [land, set, reduceCtorEq, if_false]

/-- An errand that has only been taken on leaves the rest as it was. -/
theorem Kept.rewires_takeOn (kept : site.Kept lives) (errand : Errand) :
    site.office.Rewires
      ((site.office.takeOn errand).2.dropErrand site.office.nextErrand) := by
  refine ⟨⟨rfl, rfl, rfl⟩, ?_, Nat.le_succ _, rfl⟩
  have others : site.office.errands.filter (·.1 != site.office.nextErrand) =
      site.office.errands := by
    rw [List.filter_eq_self]
    intro entry member
    simpa using (kept.below entry member).ne
  show List.filter _ (site.office.errands ++ [_]) = _
  rw [List.filter_append, others]
  simp

/-- Where restoring begins. -/
theorem Begins.underway {catalog : Catalog} {limit : Nat} {epoch : Instant} {begun : Site}
    {id : Nat} {log : String → List Passage} (begins : Begins catalog limit epoch begun id log) :
    ∃ old, Underway old id begun { decision := .restore } log := by
  cases begins with
  | @working site told lived schedule =>
    obtain ⟨⟨lives, kept⟩, filed⟩ := lived.invariant
    obtain ⟨lives', accounts⟩ := kept.accounts_play schedule
    obtain ⟨tidy, files⟩ := filed.tidy.play kept filed schedule
    have rewires := accounts.kept.rewires_takeOn { decision := .restore }
    refine ⟨site.IsOver, accounts.kept.errand?_taken _, Nat.lt_succ_self _,
      ⟨lives', accounts.kept.rewire rfl rewires⟩, ⟨_, files.rewire accounts.kept rfl rewires⟩,
      tidy.rewire rfl rewires, fun execution was => ?_⟩
    obtain ⟨ended, untold⟩ := was.play kept schedule
    exact ⟨ended.rewire accounts.kept rfl rewires, untold⟩
  | @afresh site told lived policy =>
    obtain ⟨_, filed⟩ := lived.invariant
    have inherits := site.inherits_restarted policy
    have files := inherits.filed filed
    exact ⟨_, rfl, Nat.one_pos, inherits.kept filed, ⟨_, files⟩, files.tidy,
      fun _ ended => ⟨ended, rfl⟩⟩

/-- Where the stored runs are looked up, all that can be read are going to be taken over. -/
theorem step_recallSuspended (serves : site.engine.Serves)
    (rereads : ∀ state ∈ site.engine.rows, state.reread = .ok state) :
    ∃ states, states.Perm site.engine.rows ∧
      Stride.step site.engine site.office { decision := .recallSuspended } =
        ⟨site.engine, site.office, { decision := .adoptSuspended states }, .proceed, []⟩ := by
  obtain ⟨ledger, known, working⟩ := serves
  have rows : site.engine.rows = ledger.suspended := by simp only [Engine.rows, known]
  refine ⟨ledger.suspendedRuns, rows ▸ Ordered.sort_perm _ _, ?_⟩
  have listed := listSuspended_of_reread working (rows ▸ rereads)
  simp only [Stride.step, Stride.decide, Stride.recallSuspended, known, listed]
  rfl

/-- Where what has been looked up is taken over, a run that is not pending becomes pending if it
has been found and its workflow is known. -/
theorem pending?_adopt {id : Nat} {states : List Suspended}
    (found : site.office.errand? id = some { decision := .adoptSuspended states })
    (orderly : site.office.Orderly) {execution : String}
    (absent : site.pending? execution = none) (state : Suspended)
    (single : ∀ first ∈ states, ∀ second ∈ states,
      first.execution = second.execution → first = second) :
    (∃ alarm, (site.move (.turn id)).pending? execution = some ⟨state, alarm⟩) ↔
      (state ∈ states ∧ state.execution = execution) ∧
        (site.office.desk.definition? state.workflow).isSome := by
  have adopted : ∀ execution, (site.move (.turn id)).pending? execution =
      ((Stride.adoptable site.office.desk states).foldl Office.arm site.office).desk.pending?
        execution := by
    intro execution
    rw [move_turn found, Site.pending?, desk_land, ← Stride.armedAll_office site.engine]
    rfl
  simp only [adopted]
  rw [Stride.pending?_adopted orderly absent]
  obtain ⟨only, _⟩ := Stride.adoptable_spec site.office.desk states
  constructor
  · rintro ⟨taken, own⟩
    obtain ⟨among, _, known⟩ := only state taken
    exact ⟨⟨among, own⟩, known⟩
  · rintro ⟨⟨among, rfl⟩, known⟩
    obtain ⟨other, taken, own⟩ := Stride.exists_adoptable among absent known
    rw [single other (only other taken).1 state among own] at taken
    exact ⟨taken, rfl⟩

/-- Restoring makes a run pending that is not exactly if its row was there when restoring looked
and its workflow is known. Such a row is one of an earlier process of which nothing has been
told in this one, or its run was still pending when restoring looked, or the row was to be
forgotten, or its run about to be pending. So a pause that was over and forgotten by then is
not brought back. -/
theorem restored_iff_stored {catalog : Catalog} {limit : Nat} {epoch : Instant} {begun : Site}
    {id : Nat} {log : String → List Passage} (begins : Begins catalog limit epoch begun id log)
    (before between : List Move)
    (looks : (begun.play before).office.errand? id = some { decision := .recallSuspended })
    (rereads : ∀ state ∈ (begun.play before).engine.rows, state.reread = .ok state)
    (waits : .turn id ∉ between) {execution : String}
    (absent : (begun.play (before ++ .turn id :: between)).pending? execution = none)
    (state : Suspended) :
    let read := begun.play before
    let late := begun.play (before ++ .turn id :: between)
    ((∃ alarm, (late.move (.turn id)).pending? execution = some ⟨state, alarm⟩) ↔
        state ∈ read.engine.stored execution ∧
          (late.office.desk.definition? state.workflow).isSome) ∧
      (state ∈ read.engine.stored execution →
        log execution ++ begun.log execution (before ++ .turn id :: between) = [] ∨
          (∃ alarm, read.pending? execution = some ⟨state, alarm⟩) ∨
            ∃ entry ∈ read.office.errands, entry.2.Owes execution) := by
  intro read late
  obtain ⟨old, start⟩ := begins.underway
  have restoring : Errand.IsRestoring { decision := .restore } :=
    ⟨rfl, List.forall_mem_nil _, .inl rfl⟩
  rcases start.play restoring before with ⟨errand, still, underway⟩ | past
  · obtain rfl := Option.some.inj (underway.found.symm.trans looks)
    obtain ⟨told, filed⟩ := underway.filed
    have serves : read.engine.Serves := filed.serves
    obtain ⟨states, rows, recalls⟩ := step_recallSuspended serves rereads
    have played : late = (read.move (.turn id)).play between := play_append begun before _
    have waiting := (underway.own still).wait waits
    rw [recalls, ← played] at waiting
    obtain ⟨_, kept⟩ := waiting.kept
    have same : (late.without id).office.SamePauses late.office := ⟨rfl, rfl, rfl⟩
    have single : ∀ first ∈ states, ∀ second ∈ states,
        first.execution = second.execution → first = second := by
      intro first among second further own
      have one : first ∈ read.engine.stored first.execution :=
        Engine.mem_stored.mpr ⟨rows.mem_iff.mp among, rfl⟩
      have two : second ∈ read.engine.stored first.execution :=
        Engine.mem_stored.mpr ⟨rows.mem_iff.mp further, own.symm⟩
      have alone : read.engine.stored first.execution = [first] := filed.stored_of_mem one
      rw [alone, List.mem_singleton] at two
      exact two.symm
    constructor
    · rw [pending?_adopt waiting.found (same.orderly kept.orderly) absent state single,
        rows.mem_iff, Engine.mem_stored]
    · intro row
      rcases underway.tidy execution (List.ne_nil_of_mem row) with was | pending | owed
      · left
        have untold := (waiting.ended execution was).2
        simpa [log_append, Site.log] using untold
      · right; left
        obtain ⟨⟨held, alarm⟩, found⟩ := Option.isSome_iff_exists.mp pending
        have stored : read.engine.stored execution = [held] :=
          filed.pending execution held alarm found
        rw [stored, List.mem_singleton] at row
        exact ⟨alarm, row ▸ found⟩
      · right; right
        obtain ⟨entry, member, owes⟩ := owed
        exact ⟨entry, List.mem_of_mem_filter member, owes⟩
  · obtain ⟨_, _, ⟨states, adopts⟩ | ⟨answer, answers⟩⟩ := past.read _ looks
    · contradiction
    · contradiction

/-- A run waits, and its process restores. -/
def twiceRestoring : Site :=
  { twiceWaiting with office := (twiceWaiting.office.takeOn { decision := .restore }).2 }

theorem begins_twiceRestoring : Begins [] 10 ⟨0, 0⟩ twiceRestoring 1 fun execution =>
    (opened [] 10 (some {}) ⟨0, 0⟩ .drop).log execution
      (.order (.run twice .null) :: List.replicate 20 (.turn 0)) :=
  .working (.opened {} .drop rfl rfl) _

theorem play_twiceRestoring :
    twiceRestoring.play [.turn 1, .turn 1] = { twiceWaiting with
        office := (twiceWaiting.office.takeOn { decision := .recallSuspended }).2 } ∧
      twiceRestoring.play [.turn 1, .turn 1, .turn 1] = { twiceWaiting with
        office := (twiceWaiting.office.takeOn { decision := .adoptSuspended [firstWait] }).2 } := by
  obtain ⟨⟨lives, kept⟩, filed⟩ := lived_twiceWaiting.invariant
  have restores : Stride.step twiceWaiting.engine
      (twiceWaiting.office.takeOn { decision := .restore }).2 { decision := .restore } =
        ⟨twiceWaiting.engine, (twiceWaiting.office.takeOn { decision := .restore }).2,
          { decision := .adoptSubscriptions [] }, .proceed, []⟩ := by
    rfl
  have passes : Stride.step twiceWaiting.engine
      (twiceWaiting.office.takeOn { decision := .adoptSubscriptions [] }).2
        { decision := .adoptSubscriptions [] } =
        ⟨twiceWaiting.engine, (twiceWaiting.office.takeOn { decision := .adoptSubscriptions [] }).2,
          { decision := .recallSuspended }, .proceed, []⟩ := by
    rfl
  have first : twiceRestoring.play [.turn 1, .turn 1] = { twiceWaiting with
      office := (twiceWaiting.office.takeOn { decision := .recallSuspended }).2 } := by
    have one := kept.move_taken restores
    have two := kept.move_taken passes
    rw [← one] at two
    exact two
  obtain ⟨states, rows, recalls⟩ := @step_recallSuspended { twiceWaiting with
    office := (twiceWaiting.office.takeOn { decision := .recallSuspended }).2 }
    filed.serves rereads_twiceWaiting
  obtain rfl := List.perm_singleton.mp (rows_twiceWaiting ▸ rows)
  refine ⟨first, ?_⟩
  have three := kept.move_taken recalls
  rw [← first] at three
  exact three

/-- What comes after restoring has looked up the run. -/
theorem play_looked (later : List Move) :
    twiceRestoring.play (.turn 1 :: .turn 1 :: .turn 1 :: later) =
      Site.play { twiceWaiting with office := (twiceWaiting.office.takeOn
        { decision := .adoptSuspended [firstWait] }).2 } later := by
  rw [← play_twiceRestoring.2]
  exact play_append _ [.turn 1, .turn 1, .turn 1] later

/-- An event takes the run out of the pending ones after restoring has looked, and the row that
is yet to be forgotten brings it back. -/
theorem restored_iff_stored_overtaken :
    (∃ alarm, twiceRestoring.pending? (Id.fresh 0) = some ⟨firstWait, alarm⟩) ∧
      (twiceRestoring.play [.turn 1, .turn 1, .turn 1, .order (.handle twice going),
        .turn 2]).pending? (Id.fresh 0) = none ∧
      ∃ alarm, (twiceRestoring.play [.turn 1, .turn 1, .turn 1, .order (.handle twice going),
        .turn 2, .turn 1]).pending? (Id.fresh 0) = some ⟨firstWait, alarm⟩ := by
  obtain ⟨looks, _⟩ := play_twiceRestoring
  have absent : (twiceRestoring.play [.turn 1, .turn 1, .turn 1, .order (.handle twice going),
      .turn 2]).pending? (Id.fresh 0) = none := by
    rw [play_looked]
    decide +kernel
  have known : ((twiceRestoring.play [.turn 1, .turn 1, .turn 1, .order (.handle twice going),
      .turn 2]).office.desk.definition? "twice").isSome = true := by
    rw [play_looked]
    decide +kernel
  have stored :
      firstWait ∈ (twiceRestoring.play [.turn 1, .turn 1]).engine.stored (Id.fresh 0) := by
    have row : firstWait ∈ twiceWaiting.engine.rows :=
      rows_twiceWaiting ▸ List.mem_singleton_self _
    rw [looks]
    exact Engine.mem_stored.mpr ⟨row, rfl⟩
  have rereads : ∀ state ∈ (twiceRestoring.play [.turn 1, .turn 1]).engine.rows,
      state.reread = .ok state := by
    rw [looks]
    exact rereads_twiceWaiting
  have asks : (twiceRestoring.play [.turn 1, .turn 1]).office.errand? 1 =
      some { decision := .recallSuspended } := by
    rw [looks]
    rfl
  have restored := restored_iff_stored begins_twiceRestoring [.turn 1, .turn 1]
    [.order (.handle twice going), .turn 2] asks rereads (by simp) absent firstWait
  exact ⟨⟨some 0, by decide +kernel⟩, absent, restored.1.mpr ⟨stored, known⟩⟩

/-- What happens after restoring has looked: an event claims the run, restoring takes it over,
the next event claims it once more, and both let it go on. -/
def overtaken : List Move :=
  [.order (.handle twice going), .turn 2, .turn 1, .order (.handle twice going), .turn 3] ++
    List.replicate 4 (.turn 2) ++ List.replicate 4 (.turn 3)

/-- A pause that an event has ended is brought back, and its run goes on from it twice. -/
theorem resumed_twice_overtaken :
    (twiceRestoring.play [.turn 1, .turn 1, .turn 1]).pending? (Id.fresh 0) =
        some ⟨firstWait, some 0⟩ ∧
      (twiceRestoring.play ([.turn 1, .turn 1, .turn 1] ++ overtaken.take 2)).pending?
        (Id.fresh 0) = none ∧
      (twiceRestoring.play ([.turn 1, .turn 1, .turn 1] ++ overtaken.take 3)).pending?
        (Id.fresh 0) = some ⟨firstWait, some 1⟩ ∧
      (twiceRestoring.play [.turn 1, .turn 1, .turn 1]).log (Id.fresh 0) overtaken =
        [.left .event, .left .event, .resumed firstWait, .resumed firstWait] := by
  simp only [List.cons_append, List.nil_append, play_looked]
  decide +kernel

end Site

end DurableFlow
