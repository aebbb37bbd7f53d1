import DurableFlow.Proofs.Desk.Recording
import DurableFlow.Proofs.Desk.Safekeeping

/-!
# The records of executions follow their states

Records are written by whoever starts a run, lets it go on, sees its pass end, ends its wait,
cancels it or fails to resume it. All of them write over the record of a run only while they
have the run in their hands. `Site.Recorded` is the invariant: no two errands are about one
run, none is about a pending one, and each is in order, so that every write carries the career
of its record on. `Site.Covered` says where the runs are whose records are not final: pending,
in the hands of an errand, or dropped.
-/

namespace DurableFlow

/-- The last pause of the run has been left in a way that drops the run. -/
def Passage.Dropped (policy : TimeoutPolicy) (told : List Passage) : Prop :=
  ∃ before state alarm exit, told = before ++ [.entered state alarm, .left exit] ∧
    exit.Drops policy state

namespace Site

/-- The execution whose record a move writes. -/
def writes? (site : Site) : Move → Option String
  | .turn id => (site.office.errand? id).bind Errand.writes?
  | _ => none

/-- What a move writes over an execution. -/
def written (site : Site) (m : Move) (execution : String) : List RunRecord :=
  if site.writes? m = some execution then ((site.move m).engine.book execution).toList else []

/-- What a schedule writes over an execution. -/
def entries (site : Site) (execution : String) : List Move → List RunRecord
  | [] => []
  | m :: rest => site.written m execution ++ (site.move m).entries execution rest

/-- No errand has broken down. -/
def Whole (site : Site) : Prop :=
  ∀ entry ∈ site.office.errands, entry.2.decision.isBroken = false

instance (site : Site) : Decidable site.Whole :=
  inferInstanceAs (Decidable (∀ entry ∈ site.office.errands, entry.2.decision.isBroken = false))

/-- No errand breaks down in a schedule. -/
def Unbroken (site : Site) : List Move → Prop
  | [] => site.Whole
  | m :: rest => site.Whole ∧ (site.move m).Unbroken rest

instance decidableUnbroken (site : Site) : (schedule : List Move) →
    Decidable (site.Unbroken schedule)
  | [] => inferInstanceAs (Decidable site.Whole)
  | m :: rest =>
    let _ := decidableUnbroken (site.move m) rest
    inferInstanceAs (Decidable (site.Whole ∧ (site.move m).Unbroken rest))

/-- The records are those that have been written last, those of pending runs have the status
`paused`, and errands are in order, each about runs of its own. Nothing is said of records that were
there from the beginning. -/
structure Recorded (site : Site) (old : Book) (entries : String → List RunRecord) : Prop where
  serves : site.engine.Serves
  unused : ∀ n, site.engine.moments ≤ n → site.engine.book (Id.fresh n) = none
  entered : ∀ execution, old execution = none →
    site.engine.book execution = (entries execution).getLast?
  career : ∀ execution, old execution = none → Career execution (entries execution)
  pending : ∀ execution state alarm, site.pending? execution = some ⟨state, alarm⟩ →
    site.engine.book.Paused state
  knowing : site.office.desk.Knowing
  inOrder : ∀ entry ∈ site.office.errands, entry.2.InOrder site.engine site.engine.book
  alone : ∀ entry ∈ site.office.errands, ∀ execution ∈ entry.2.about site.engine,
    site.engine.Issued execution ∧ site.pending? execution = none ∧
      ∀ other ∈ site.office.errands, execution ∈ other.2.about site.engine → other.1 = entry.1

/-- A run whose record is not final is pending, or an errand is about it, or it has been dropped. -/
def Covered (site : Site) (old : Book) (told : String → List Passage) : Prop :=
  ∀ execution record, old execution = none → site.engine.book execution = some record →
    record.status.isTerminal = false →
      (site.pending? execution).isSome ∨
      (∃ entry ∈ site.office.errands, execution ∈ entry.2.about site.engine) ∨
      record.status = .paused ∧ Passage.Dropped site.office.desk.policy (told execution)

variable {site after : Site} {lives : String → Life} {old : Book}
  {told : String → List Passage} {entries : String → List RunRecord}

/-- An errand of a site takes a step, and all others stay what they are. -/
structure Strides (site : Site) (id : Nat) (errand : Errand) (stride : Stride) : Prop where
  mine : ∀ before, (id, before) ∈ site.office.errands → before = errand
  stays : ∀ entry ∈ site.office.errands, entry.1 ≠ id → entry ∈ (land stride id).office.errands
  others : ∀ entry ∈ (land stride id).office.errands,
    entry = (id, stride.errand) ∨ entry ∈ site.office.errands ∧ entry.1 ≠ id
  /-- An errand that has come to its end has had nothing left but its answer. -/
  here : (id, stride.errand) ∈ (land stride id).office.errands ∨
    stride.errand = errand ∧ errand.acts = [] ∧ ∃ answer, errand.decision = .answer answer

/-- An errand was going to do something that had not come about. After a step of any errand, some
errand is still going to do it, or it has come about, if this is so for the errand that has taken
the step. -/
theorem Strides.exists_land {id : Nat} {errand : Errand} {stride : Stride}
    (strides : site.Strides id errand stride) (task : Errand → Prop) {done done' : Prop}
    (idle : ∀ answer, errand.acts = [] → errand.decision = .answer answer → ¬ task errand)
    (keeps : done ∨ task errand → done' ∨ task stride.errand)
    (before : done ∨ ∃ entry ∈ site.office.errands, task entry.2) :
    done' ∨ ∃ entry ∈ (land stride id).office.errands, task entry.2 := by
  have goesOn : done ∨ task errand →
      done' ∨ ∃ entry ∈ (land stride id).office.errands, task entry.2 := by
    intro had
    refine (keeps had).imp_right fun left => ?_
    rcases strides.here with member | ⟨same, acts, answer, decision⟩
    · exact ⟨_, member, left⟩
    · rw [same] at left
      exact absurd left (idle answer acts decision)
  rcases before with had | ⟨⟨other, entry⟩, member, left⟩
  · exact goesOn (.inl had)
  · by_cases same : other = id
    · obtain rfl : entry = errand := strides.mine entry (same ▸ member)
      exact goesOn (.inr left)
    · exact .inr ⟨_, strides.stays _ member same, left⟩

theorem Kept.strides_turn (kept : site.Kept lives) {id : Nat} {errand : Errand}
    (found : site.office.errand? id = some errand) :
    site.Strides id errand (Stride.step site.engine site.office errand) := by
  have member : (id, errand) ∈ site.office.errands := Table.mem_of_lookup found
  obtain ⟨_, deals, lands⟩ := kept.deal_turn found
  have errands := deals.dealing.errands
  refine ⟨?_, ?_, lands.alters.others, ?_⟩
  · intro before there
    exact Option.some.inj (((Table.lookup_eq_some_iff kept.unique).mpr there).symm.trans found)
  · intro entry among different
    exact mem_land_of_ne (errands ▸ among) different
  · by_cases ends : (Stride.step site.engine site.office errand).signal = .finished
    · obtain ⟨⟨answer, acts, decision⟩, same⟩ := Stride.step_finished ends
      exact .inr ⟨same, acts, answer, decision⟩
    · exact .inl (mem_land_self (errands ▸ member) ends)

theorem Kept.strides_ring (kept : site.Kept lives) {alarm : Alarm}
    (found : site.office.alarms.find? (·.id == alarm.id) = some alarm) :
    let errand : Errand := { decision := .expire alarm.execution }
    let taken := ((site.office.silence (some alarm.id)).takeOn errand).2
    site.Strides site.office.nextErrand errand
      (Stride.expire site.engine taken errand alarm.execution) := by
  intro errand taken
  obtain ⟨_, deals, lands⟩ := kept.deal_ring found
  have errands := deals.dealing.errands
  refine ⟨?_, ?_, lands.alters.others, .inl ?_⟩
  · intro before there
    exact absurd (List.mem_map_of_mem there) kept.nextErrand_not_mem
  · intro entry among different
    exact mem_land_of_ne (errands ▸ List.mem_append_left _ among) different
  · have new : (site.office.nextErrand, errand) ∈
        (Stride.expire site.engine taken errand alarm.execution).office.errands := by
      rw [errands]
      exact List.mem_append_right _ (List.mem_singleton_self _)
    refine mem_land_self new ?_
    rw [Stride.expire]
    split <;> simp

/-- What the step of an errand does about pauses and about records. -/
structure Enters (site after : Site) (id : Nat) (office : Office) (errand : Errand) (deed : Deed)
    (stride : Stride) : Prop where
  takes : site.Takes id office errand
  /-- It is one of the errands of the site, or a new one. -/
  own : (id, errand) ∈ site.office.errands ∨ errand.about site.engine = [] ∧ errand.run? = none
  mine : ∀ before, (id, before) ∈ site.office.errands → before = errand
  deals : Stride.Deals site.engine office errand deed stride
  records : Stride.Records site.engine office errand deed stride
  lands : site.Lands after id stride
  desk : after.office.desk = stride.office.desk
  policy : office.desk.policy = site.office.desk.policy
  does : ∀ state, deed = .pause state → errand.deed = .pause state
  stays : ∀ entry ∈ site.office.errands, entry.1 ≠ id → entry ∈ after.office.errands
  here : (id, stride.errand) ∈ after.office.errands ∨
    errand.about site.engine = [] ∧ stride.errand.about stride.engine = []

namespace Enters

variable {id : Nat} {office : Office} {errand : Errand} {deed : Deed} {stride : Stride}

variable (enters : site.Enters after id office errand deed stride)

include enters

/-- A run that the errand is about is not pending, and no other errand is about it. -/
theorem alone (recorded : site.Recorded old entries) {execution : String}
    (about : execution ∈ errand.about site.engine) :
    site.engine.Issued execution ∧ site.pending? execution = none ∧
      ∀ other ∈ site.office.errands, execution ∈ other.2.about site.engine → other.1 = id := by
  rcases enters.own with member | ⟨nothing, _⟩
  · exact recorded.alone _ member execution about
  · rw [nothing] at about
    contradiction

theorem extending : site.engine.Extends after.engine := by
  rw [enters.lands.engine]
  exact enters.deals.extending

theorem policy_eq : after.office.desk.policy = site.office.desk.policy := by
  rw [enters.desk, enters.records.policy, enters.policy]

theorem book_eq {execution : String} (elsewhere : errand.writes? ≠ some execution) :
    after.engine.book execution = site.engine.book execution := by
  rw [enters.lands.engine, enters.records.book]
  exact Errand.entered_of_ne elsewhere

/-- What is recorded of a run changes only if the errand is about the run. -/
theorem book_of_not_about {execution : String}
    (foreign : execution ∉ errand.about site.engine) :
    after.engine.book execution = site.engine.book execution :=
  enters.book_eq fun writes => foreign (Errand.about_of_writes? writes)

/-- Other errands stay in order, and about the same runs. -/
theorem other (recorded : site.Recorded old entries) (kept : site.Kept lives)
    {entry : Nat × Errand} (member : entry ∈ site.office.errands) (different : entry.1 ≠ id) :
    entry.2.InOrder after.engine after.engine.book ∧
      entry.2.about after.engine = entry.2.about site.engine := by
  have spares : site.engine.Spares after.engine errand.run? := by
    rw [enters.lands.engine]
    exact enters.records.spares
  have unclosed : ∀ purpose run,
      entry.2.decision = .drive purpose run ∨ entry.2.decision = .conclude purpose run →
        errand.run? ≠ some run := by
    -- two errands that drive one pass would be about the run of that pass
    intro purpose run drives closes
    obtain ⟨execution, owner, about⟩ :=
      (recorded.inOrder entry member).about_of_pass drives
    rcases enters.own with there | ⟨_, idle⟩
    · have allowed := (kept.managed _ there).decision
      have inOrder := recorded.inOrder _ there
      have both : ∃ purpose, errand.decision = .drive purpose run ∨
          errand.decision = .conclude purpose run := by
        rw [Errand.run?] at closes
        split at closes <;> rename_i decision <;> cases closes
        · exact ⟨_, .inl decision⟩
        · exact ⟨_, .inr decision⟩
        · rw [decision] at allowed
          exact allowed.elim
      obtain ⟨purpose', drives'⟩ := both
      obtain ⟨execution', owner', about'⟩ := inOrder.about_of_pass drives'
      cases owner.symm.trans owner'
      exact different ((recorded.alone _ there execution about').2.2 entry member about)
    · rw [idle] at closes
      contradiction
  obtain ⟨inOrder, about⟩ := (recorded.inOrder entry member).spared spares unclosed
  refine ⟨inOrder.congr ?_, about⟩
  intro execution among
  rw [about] at among
  apply enters.book_of_not_about
  intro touched
  exact different ((enters.alone recorded touched).2.2 entry member among)

/-- Which runs come to be pending or cease to be. -/
theorem pending_source (execution : String) :
    after.pending? execution = site.pending? execution ∨ after.pending? execution = none ∨
      ∃ state alarm, deed = .pause state ∧ state.execution = execution ∧
        after.pending? execution = some ⟨state, alarm⟩ := by
  have there : after.pending? execution = stride.office.desk.pending? execution := by
    rw [Site.pending?, enters.desk]
  rw [there, ← enters.takes.pending?]
  rcases Site.pending_source enters.deals enters.takes.orderly execution with
    same | gone | ⟨state, paused, own, _, alarm, set⟩
  · exact .inl same
  · exact .inr (.inl gone)
  · exact .inr (.inr ⟨state, alarm, paused, own, set⟩)

/-- Whatever a step of an errand does, the ledger and the errands agree about the records. -/
theorem recorded (recorded : site.Recorded old entries) (kept : site.Kept lives)
    {more : String → List RunRecord} (writes : ∀ execution, more execution =
      if errand.writes? = some execution then (after.engine.book execution).toList else []) :
    after.Recorded old fun execution => entries execution ++ more execution := by
  have engine := enters.lands.engine
  have moments := enters.extending.moments_le
  -- what one write adds
  have adds : ∀ execution, errand.writes? = some execution → old execution = none →
      ∃ record, after.engine.book execution = some record ∧
        Career execution (entries execution ++ [record]) := by
    intro execution wrote new
    obtain ⟨act, first, own⟩ := Option.bind_eq_some_iff.mp wrote
    obtain ⟨rest, acts⟩ := List.head?_eq_some_iff.mp first
    have inOrder : errand.InOrder site.engine site.engine.book := by
      rcases enters.own with member | ⟨nothing, _⟩
      · exact recorded.inOrder _ member
      · have about : execution ∈ errand.about site.engine := Errand.about_of_writes? wrote
        rw [nothing] at about
        contradiction
    have proper := inOrder.acts
    rw [acts] at proper
    rw [engine, enters.records.book, Errand.entered, acts]
    exact proper.1.career own (recorded.career execution new) (recorded.entered execution new)
  refine ⟨engine ▸ enters.records.serves, ?_, ?_, ?_, ?_, enters.desk ▸ enters.records.knowing,
    ?_, ?_⟩
  · intro n later
    rw [enters.book_of_not_about, recorded.unused n (by omega)]
    intro about
    obtain ⟨m, earlier, same⟩ := (enters.alone recorded about).1
    have equal := Id.fresh_injective same
    omega
  · intro execution new
    rw [writes]
    split
    · rename_i wrote
      obtain ⟨record, written, _⟩ := adds execution wrote new
      simp [written]
    · rename_i silent
      rw [enters.book_eq silent, List.append_nil]
      exact recorded.entered execution new
  · intro execution new
    rw [writes]
    split
    · rename_i wrote
      obtain ⟨record, written, career⟩ := adds execution wrote new
      rw [written]
      exact career
    · rw [List.append_nil]
      exact recorded.career execution new
  · intro execution state alarm found
    rcases enters.pending_source execution with same | gone | ⟨paused, set, does, rfl, there⟩
    · rw [same] at found
      have key : state.execution = execution := kept.orderly.keyed _ _ found
      refine (recorded.pending execution state alarm found).congr ?_
      apply enters.book_of_not_about
      intro about
      rw [key] at about
      rw [(enters.alone recorded about).2.1] at found
      contradiction
    · rw [gone] at found
      contradiction
    · cases there.symm.trans found
      obtain ⟨is, _, silent, _⟩ := enters.records.pauses state does
      exact is.congr (enters.book_eq (by simp [silent]))
  · intro entry member
    rcases enters.lands.alters.others entry member with rfl | ⟨before, different⟩
    · rw [engine]
      exact enters.records.inOrder
    · exact (enters.other recorded kept before different).1
  · have alone : site.Alone Errand.about := recorded.alone
    refine alone.step kept (enters.own.imp_right And.left) enters.lands.alters enters.extending
      (fun entry member different => (enters.other recorded kept member different).2) ?_ ?_
    · intro execution about
      rw [engine] at about ⊢
      refine (enters.records.about execution about).imp_right (Or.imp_left ?_)
      rintro ⟨there, left⟩
      rw [enters.takes.pending?] at there
      exact ⟨there, by rw [Site.pending?, enters.desk, left]⟩
    · intro execution
      rcases enters.pending_source execution with same | gone | ⟨state, _, does, rfl, _⟩
      · exact .inl same
      · exact .inr (.inl gone)
      · obtain ⟨_, mine, _, nothing⟩ := enters.records.pauses state does
        exact .inr (.inr ⟨mine, engine ▸ nothing⟩)

/-- What a step tells of a run that is not pending and that no errand is about. -/
theorem tells_nothing {execution : String}
    (absent : site.pending? execution = none)
    (nobody : ∀ entry ∈ site.office.errands, execution ∉ entry.2.about site.engine) :
    deed.tells site after execution = [] := by
  have foreign : execution ∉ errand.about site.engine := by
    rcases enters.own with member | ⟨nothing, _⟩
    · exact nobody _ member
    · rw [nothing]
      exact List.not_mem_nil
  unfold Deed.tells Deed.passages
  rw [absent]
  cases does : deed with
  | pause state =>
    have mine := (enters.records.pauses state does).2.1
    have apart : state.execution ≠ execution := by
      rintro rfl
      exact foreign mine
    simp [apart]
  | resume state =>
    have charged : { execution := state.execution, claimed := some state } ∈
        errand.charges site.engine := by
      have dealing := enters.deals.dealing
      rw [does] at dealing
      cases dealing with
      | keep calm agrees charges => exact calm.elim
      | resume _ charge agrees charges => exact charge
    have apart : state.execution ≠ execution := by
      rintro rfl
      exact foreign (Errand.about_of_charge charged)
    simp [apart]
  | _ => simp

/-- Whatever a step of an errand does, unless it breaks down, every run whose record is not
final is somewhere. -/
theorem covered (recorded : site.Recorded old entries) (kept : site.Kept lives)
    (follow : ∀ execution, Life.away.follow (told execution) = some (lives execution))
    (covered : site.Covered old told) (whole : after.Whole) :
    after.Covered old fun execution => told execution ++ deed.tells site after execution := by
  have engine := enters.lands.engine
  have policy := enters.policy_eq
  have inHand : ∀ execution, execution ∈ stride.errand.about stride.engine →
      ∃ entry ∈ after.office.errands, execution ∈ entry.2.about after.engine := by
    intro execution about
    rcases enters.here with member | ⟨_, nothing⟩
    · exact ⟨_, member, engine ▸ about⟩
    · rw [nothing] at about
      contradiction
  intro execution record new known unclosed
  cases there : site.pending? execution with
  | some pending =>
    obtain ⟨state, alarm⟩ := pending
    have foreign : execution ∉ errand.about site.engine := by
      intro about
      rw [(enters.alone recorded about).2.1] at there
      contradiction
    cases now : after.pending? execution with
    | some _ => exact .inl rfl
    | none =>
      right
      have gone : stride.office.desk.pending? execution = none := by
        rw [← enters.desk]
        exact now
      have held : office.desk.pending? execution = some ⟨state, alarm⟩ := by
        rw [enters.takes.pending?, there]
      rcases enters.records.releases execution state alarm held gone with about | drops
      · exact .inl (inHand execution about)
      · right
        rw [enters.book_of_not_about foreign] at known
        have key : state.execution = execution := kept.orderly.keyed _ _ there
        obtain ⟨before, is, paused, _⟩ := recorded.pending execution state alarm there
        rw [key] at is
        cases known.symm.trans is
        have last : (told execution).getLast? = some (.entered state alarm) :=
          (Life.waiting_iff_of_follow (follow execution)).mp ((kept.pending _ _ _).mp there)
        obtain ⟨earlier, split⟩ := List.getLast?_eq_some_iff.mp last
        refine ⟨paused, earlier, state, alarm, deed.exit, ?_, ?_⟩
        · have tells : deed.tells site after execution = [.left deed.exit] := by
            unfold Deed.tells Deed.passages
            rw [there, now]
            cases does : deed with
            | release exit => simp
            | nothing | pause | resume =>
              rw [does] at drops
              exact drops.elim
          dsimp only
          rw [tells, split, List.append_assoc, List.singleton_append]
        · rw [policy, ← enters.policy]
          exact drops
  | none =>
    by_cases held : ∃ entry ∈ site.office.errands, execution ∈ entry.2.about site.engine
    · obtain ⟨⟨other, entry⟩, member, about⟩ := held
      by_cases same : other = id
      · obtain rfl : entry = errand := enters.mine entry (same ▸ member)
        rcases enters.here with stays | ⟨nothing, _⟩
        · rcases enters.records.covers (whole _ stays) execution about with
            still | waits | ⟨final, is, ended⟩
          · exact .inr (.inl (inHand execution still))
          · left
            rw [Site.pending?, enters.desk]
            exact waits
          · rw [← engine] at is
            cases known.symm.trans is
            rw [ended] at unclosed
            contradiction
        · rw [nothing] at about
          contradiction
      · right; left
        refine ⟨(other, entry), enters.stays _ member same, ?_⟩
        rw [(enters.other recorded kept member same).2]
        exact about
    · have nobody : ∀ entry ∈ site.office.errands, execution ∉ entry.2.about site.engine :=
        fun entry member about => held ⟨entry, member, about⟩
      have before := enters.tells_nothing there nobody
      have foreign : execution ∉ errand.about site.engine := by
        rcases enters.own with member | ⟨nothing, _⟩
        · exact nobody _ member
        · rw [nothing]
          exact List.not_mem_nil
      rw [enters.book_of_not_about foreign] at known
      rcases covered execution record new known unclosed with waits | hands | ⟨paused, dropped⟩
      · rw [there] at waits
        contradiction
      · exact absurd hands held
      · right; right
        dsimp only
        rw [before, List.append_nil, policy]
        exact ⟨paused, dropped⟩

end Enters

/-- What is given to a step of an errand. -/
theorem Recorded.given (recorded : site.Recorded old entries) {id : Nat} {office : Office}
    {errand : Errand} (takes : site.Takes id office errand)
    (desk : office.desk = site.office.desk)
    (inOrder : errand.InOrder site.engine site.engine.book) :
    Stride.Recorded site.engine office errand where
  serves := recorded.serves
  unused := recorded.unused _ (Nat.le_refl _)
  pending execution state alarm found :=
    recorded.pending execution state alarm (takes.pending? execution ▸ found)
  knowing := desk ▸ recorded.knowing
  inOrder := inOrder

/-- An errand takes its turn. -/
theorem Recorded.enters_turn (recorded : site.Recorded old entries) (kept : site.Kept lives)
    {id : Nat} {errand : Errand} (found : site.office.errand? id = some errand) :
    site.Enters (land (Stride.step site.engine site.office errand) id) id site.office errand
      errand.deed (Stride.step site.engine site.office errand) := by
  have member : (id, errand) ∈ site.office.errands := Table.mem_of_lookup found
  obtain ⟨takes, deals, lands⟩ := kept.deal_turn found
  have records := Stride.step_records kept.numbered kept.orderly (kept.managed _ member)
    (recorded.given takes rfl (recorded.inOrder _ member))
  have strides := kept.strides_turn found
  refine ⟨takes, .inl member, strides.mine, deals, records, lands, desk_land _ id, rfl,
    fun _ same => same, strides.stays, strides.here.imp_right ?_⟩
  rintro ⟨same, acts, answer, decision⟩
  have nothing : ∀ engine, errand.about engine = [] := by
    intro engine
    rw [Stride.about_of_rest acts, decision]
    rfl
  rw [same]
  exact ⟨nothing _, nothing _⟩

/-- An alarm rings, and a new errand takes its only step at once. -/
theorem Recorded.enters_ring (recorded : site.Recorded old entries) (kept : site.Kept lives)
    {alarm : Alarm} (found : site.office.alarms.find? (·.id == alarm.id) = some alarm) :
    let errand : Errand := { decision := .expire alarm.execution }
    let taken := ((site.office.silence (some alarm.id)).takeOn errand).2
    let stride := Stride.expire site.engine taken errand alarm.execution
    site.Enters (land stride site.office.nextErrand) site.office.nextErrand taken errand
      (.release (.expiry alarm.id)) stride := by
  intro errand taken stride
  obtain ⟨takes, deals, lands⟩ := kept.deal_ring found
  obtain ⟨state, paused⟩ := kept.orderly.alarms alarm (List.mem_of_find?_eq_some found)
  have inOrder : errand.InOrder site.engine site.engine.book :=
    Stride.inOrder_of_plain (List.forall_mem_nil _) trivial
  have records : Stride.Records site.engine taken errand (.release (.expiry alarm.id)) stride :=
    Stride.expire_records takes.orderly (recorded.given takes rfl inOrder) rfl rfl paused alarm.id
  have strides := kept.strides_ring found
  refine ⟨takes, .inr ⟨rfl, rfl⟩, strides.mine, deals, records, lands, desk_land _ _, rfl, by simp,
    strides.stays, strides.here.imp_right fun ⟨_, _, _, decision⟩ => ?_⟩
  simp at decision

/-- Neither the ledger nor the pending runs change, no pass is closed, and no errand is added that
is about a run. -/
structure Aside (site after : Site) : Prop where
  ledger : after.engine.ledger = site.engine.ledger
  spares : site.engine.Spares after.engine none
  extending : site.engine.Extends after.engine
  knowing : site.office.desk.Knowing → after.office.desk.Knowing
  policy : after.office.desk.policy = site.office.desk.policy
  pending : ∀ execution, after.pending? execution = site.pending? execution
  stays : ∀ entry ∈ site.office.errands, entry ∈ after.office.errands
  errands : ∀ entry ∈ after.office.errands, entry ∈ site.office.errands ∨
    (∀ book, entry.2.InOrder after.engine book) ∧ entry.2.about after.engine = []

namespace Aside

variable (aside : site.Aside after)

include aside

/-- The errands that have been there are in order and about the same runs. -/
theorem other (recorded : site.Recorded old entries) {entry : Nat × Errand}
    (member : entry ∈ site.office.errands) :
    entry.2.InOrder after.engine after.engine.book ∧
      entry.2.about after.engine = entry.2.about site.engine := by
  rw [Engine.book_of_ledger aside.ledger]
  exact (recorded.inOrder entry member).spared aside.spares fun _ run _ =>
    (Option.some_ne_none run).symm

theorem recorded (recorded : site.Recorded old entries) : after.Recorded old entries := by
  have same := Engine.book_of_ledger aside.ledger
  have moments := aside.extending.moments_le
  refine ⟨recorded.serves.of_ledger aside.ledger, ?_, same ▸ recorded.entered, recorded.career,
    ?_, aside.knowing recorded.knowing, ?_, ?_⟩
  · intro n later
    rw [same]
    exact recorded.unused n (by omega)
  · intro execution state alarm found
    rw [same]
    exact recorded.pending execution state alarm (aside.pending execution ▸ found)
  · intro entry member
    rcases aside.errands entry member with before | ⟨inOrder, _⟩
    · exact (aside.other recorded before).1
    · exact inOrder _
  · intro entry member execution about
    rcases aside.errands entry member with before | ⟨_, nothing⟩
    · rw [(aside.other recorded before).2] at about
      obtain ⟨issued, absent, others⟩ := recorded.alone entry before execution about
      refine ⟨aside.extending.issued issued, (aside.pending execution).trans absent, ?_⟩
      intro other among touches
      rcases aside.errands other among with earlier | ⟨_, nothing⟩
      · rw [(aside.other recorded earlier).2] at touches
        exact others other earlier touches
      · rw [nothing] at touches
        contradiction
    · rw [nothing] at about
      contradiction

theorem covered (recorded : site.Recorded old entries) (covered : site.Covered old told) :
    after.Covered old told := by
  intro execution record new known unclosed
  rw [Engine.book_of_ledger aside.ledger] at known
  rw [aside.pending, aside.policy]
  rcases covered execution record new known unclosed with waits | ⟨entry, member, about⟩ | dropped
  · exact .inl waits
  · refine .inr (.inl ⟨entry, aside.stays entry member, ?_⟩)
    rw [(aside.other recorded member).2]
    exact about
  · exact .inr (.inr dropped)

/-- Nothing is told of what leaves the pending runs alone. -/
theorem passages {deed : Deed} (calm : deed.IsCalm) (execution : String) :
    deed.tells site after execution = [] := by
  rw [Deed.tells, aside.pending]
  exact calm.passages_self execution _

end Aside

theorem Aside.refl (kept : site.Kept lives) : site.Aside site :=
  ⟨rfl, .of_runs rfl, kept.numbered.extends_refl, fun knowing => knowing, rfl, fun _ => rfl,
    fun _ member => member, fun _ member => .inl member⟩

/-- A move is a step of an errand or has nothing to do with records. -/
theorem Recorded.move (recorded : site.Recorded old entries) (kept : site.Kept lives) (m : Move) :
    ((∃ id office errand stride, site.Enters (site.move m) id office errand (site.deed m) stride ∧
        site.writes? m = errand.writes?) ∨
      site.Aside (site.move m) ∧ (site.deed m).IsCalm ∧ site.writes? m = none) := by
  have still := kept.numbered.extends_refl
  have moved := kept.moves m
  generalize site.move m = after at moved ⊢
  cases moved with
  | order order =>
    refine .inr ⟨⟨rfl, .of_runs rfl, still, fun knowing => knowing, rfl, fun _ => rfl, ?_, ?_⟩,
      trivial, rfl⟩
    · intro entry member
      exact List.mem_append_left _ member
    · intro entry member
      rcases List.mem_append.mp member with before | new
      · exact .inl before
      · rw [List.mem_singleton.mp new]
        have placed : ∀ book, order.decision.Placed site.engine book ∧
            order.decision.about? site.engine = none := by
          intro book
          cases order <;> first | exact ⟨trivial, rfl⟩ | exact ⟨⟨rfl, rfl⟩, rfl⟩
        refine .inr
          ⟨fun book => Stride.inOrder_of_plain (List.forall_mem_nil _) (placed book).1, ?_⟩
        rw [Stride.about_of_rest rfl]
        exact congrArg Option.toList (placed site.engine.book).2
  | @turn id errand found =>
    have does : site.deed (.turn id) = errand.deed := by simp [deed, found]
    rw [does]
    exact .inl ⟨id, site.office, errand, _, recorded.enters_turn kept found,
      by simp [writes?, found]⟩
  | @noErrand id absent =>
    have nothing : site.deed (.turn id) = .nothing := by simp [deed, absent]
    exact .inr ⟨.refl kept, nothing ▸ trivial, by simp [writes?, absent]⟩
  | branch run id =>
    obtain ⟨_, ledger⟩ := site.engine.stepRun_keeps run (.branch id)
    exact .inr ⟨⟨ledger, site.engine.spares_stepRun run _ _,
      kept.numbered.stepRun run (.branch id), fun knowing => knowing, rfl, fun _ => rfl,
      fun _ member => member, fun _ member => .inl member⟩, trivial, rfl⟩
  | ring found => exact .inl ⟨_, _, _, _, recorded.enters_ring kept found, rfl⟩
  | closed found =>
    exact .inr ⟨⟨rfl, .of_runs rfl, still, fun knowing => knowing, rfl, fun _ => rfl,
      fun _ member => member, fun _ member => .inl member⟩, trivial, rfl⟩
  | noAlarm id => exact .inr ⟨.refl kept, trivial, rfl⟩
  | learn d =>
    exact .inr ⟨⟨rfl, .of_runs rfl, still, fun knowing => knowing.learn d, rfl, fun _ => rfl,
      fun _ member => member, fun _ member => .inl member⟩, trivial, rfl⟩
  | pass clock =>
    exact .inr ⟨⟨rfl, .of_runs rfl, kept.numbered.extends_of_runs rfl rfl (Nat.le_refl _),
      fun knowing => knowing, rfl, fun _ => rfl, fun _ member => member,
      fun _ member => .inl member⟩, trivial, rfl⟩

/-- After every move, what has been written last is what is recorded. -/
theorem Recorded.step (recorded : site.Recorded old entries) (kept : site.Kept lives) (m : Move) :
    (site.move m).Recorded old fun execution => entries execution ++ site.written m execution := by
  rcases recorded.move kept m with ⟨id, office, errand, stride, enters, writes⟩ | ⟨aside, _, writes⟩
  · refine enters.recorded recorded kept fun execution => ?_
    rw [written, writes]
  · have nothing : ∀ execution, site.written m execution = [] := by
      intro execution
      rw [written, writes]
      exact if_neg (Option.some_ne_none execution).symm
    simp only [nothing, List.append_nil]
    exact aside.recorded recorded

/-- The policy stays as it is. -/
theorem Recorded.policy_move (recorded : site.Recorded old entries) (kept : site.Kept lives)
    (m : Move) : (site.move m).office.desk.policy = site.office.desk.policy := by
  rcases recorded.move kept m with ⟨id, office, errand, stride, enters, _⟩ | ⟨aside, _⟩
  · exact enters.policy_eq
  · exact aside.policy

/-- After every move that breaks no errand down, every run whose record is not final is
somewhere. -/
theorem Covered.step (covered : site.Covered old told) (recorded : site.Recorded old entries)
    (kept : site.Kept lives)
    (follow : ∀ execution, Life.away.follow (told execution) = some (lives execution))
    (m : Move) (whole : (site.move m).Whole) :
    (site.move m).Covered old fun execution => told execution ++ site.passages m execution := by
  rcases recorded.move kept m with ⟨id, office, errand, stride, enters, _⟩ | ⟨aside, calm, _⟩
  · exact enters.covered recorded kept follow covered whole
  · have nothing : ∀ execution, site.passages m execution = [] := aside.passages calm
    simp only [nothing, List.append_nil]
    exact aside.covered recorded covered

theorem Unbroken.whole_play {schedule : List Move} (unbroken : site.Unbroken schedule) :
    site.Whole := by
  cases schedule with
  | nil => exact unbroken
  | cons m rest => exact unbroken.1

/-- Over any schedule, what has been written last is what is recorded, and if no errand breaks
down, every run whose record is not final is somewhere. -/
theorem Recorded.play (recorded : site.Recorded old entries) (kept : site.Kept lives)
    (follow : ∀ execution, Life.away.follow (told execution) = some (lives execution))
    (schedule : List Move) :
    ((site.play schedule).Recorded old fun execution =>
        entries execution ++ site.entries execution schedule) ∧
      (site.play schedule).office.desk.policy = site.office.desk.policy ∧
      (site.Covered old told → site.Unbroken schedule →
        (site.play schedule).Covered old fun execution =>
          told execution ++ site.log execution schedule) := by
  induction schedule generalizing site lives told entries with
  | nil => simpa [Site.entries, Site.log] using ⟨recorded, fun covered _ => covered⟩
  | cons m rest ih =>
    obtain ⟨middle, accounts⟩ := kept.accounts_move m
    have followed : ∀ execution, Life.away.follow (told execution ++ site.passages m execution) =
        some (middle execution) := by
      intro execution
      rw [Life.follow_append, follow, Option.bind_some, accounts.follow]
    obtain ⟨records, policy, covers⟩ := ih (recorded.step kept m) accounts.kept followed
    simp only [List.append_assoc] at records covers
    refine ⟨records, policy.trans (recorded.policy_move kept m), fun covered unbroken => ?_⟩
    exact covers (covered.step recorded kept follow m unbroken.2.whole_play) unbroken.2

/-- At first nothing is recorded but what has been in the ledger. -/
theorem Recorded.opened (catalog : Catalog) (limit : Nat) (ledger : Ledger) (epoch : Instant)
    (policy : TimeoutPolicy) (works : ledger.failing = [])
    (fresh : ∀ n, ledger.book (Id.fresh n) = none) :
    (Site.opened catalog limit (some ledger) epoch policy).Recorded ledger.book fun _ => [] := by
  refine ⟨⟨ledger, rfl, works⟩, fun n _ => fresh n, ?_, fun execution _ => .nil execution, ?_,
    ?_, ?_, ?_⟩
  · intro execution new
    exact new
  · intro execution state alarm found
    contradiction
  · intro execution state alarm found
    contradiction
  all_goals exact fun entry member => absurd member List.not_mem_nil

/-- Over any schedule, what is written of an execution is a career: its record begins as
running, follows its states with a history that only grows, tells of an end and of an error
exactly when it has come to one, and is never written again after its end. What has been
written last is what is recorded. If no errand breaks down and none is under way any more,
nothing is recorded as running, and a run that is recorded as paused is pending or has been
dropped. -/
theorem records_follow_states (catalog : Catalog) (limit : Nat) (ledger : Ledger)
    (epoch : Instant) (policy : TimeoutPolicy) (works : ledger.failing = [])
    (fresh : ∀ n, ledger.book (Id.fresh n) = none) (schedule : List Move) (execution : String)
    (new : ledger.book execution = none) :
    let site := opened catalog limit (some ledger) epoch policy
    let entries := site.entries execution schedule
    let after := site.play schedule
    Career execution entries ∧
      (∀ before record later, entries = before ++ record :: later →
        record.status.isTerminal = true → later = []) ∧
      after.engine.book execution = entries.getLast? ∧
      (site.Unbroken schedule → after.office.errands = [] →
        ∀ record, after.engine.book execution = some record → record.status ≠ .running ∧
          (record.status = .paused → (after.pending? execution).isSome ∨
            Passage.Dropped policy (site.log execution schedule))) := by
  intro site entries after
  have kept : site.Kept fun _ => .away := Kept.opened catalog limit (some ledger) epoch policy
  have begins : site.Recorded ledger.book fun _ => [] :=
    .opened catalog limit ledger epoch policy works fresh
  have untold : ∀ execution, Life.away.follow ((fun _ => [] : String → List Passage) execution) =
      some .away := fun _ => rfl
  obtain ⟨recorded, policy_eq, covers⟩ := begins.play kept untold schedule
  obtain ⟨_, accounts⟩ := kept.accounts_play schedule
  simp only [List.nil_append] at recorded covers
  have career := recorded.career execution new
  refine ⟨career, fun before record later split ended => career.final split ended,
    recorded.entered execution new, ?_⟩
  intro unbroken idle record known
  have nothing : site.Covered ledger.book fun _ => [] := by
    intro execution record new known
    rw [show site.engine.book execution = none from new] at known
    contradiction
  have covered := covers nothing unbroken execution record new known
  rw [idle, policy_eq] at covered
  have unclosed : record.status.isTerminal = false → record.status = .paused ∧
      ((after.pending? execution).isSome ∨
        Passage.Dropped policy (site.log execution schedule)) := by
    intro further
    rcases covered further with waits | ⟨entry, member, _⟩ | ⟨paused, dropped⟩
    · obtain ⟨⟨state, alarm⟩, found⟩ := Option.isSome_iff_exists.mp waits
      obtain ⟨other, is, paused, _⟩ := recorded.pending execution state alarm found
      have key : state.execution = execution := accounts.kept.orderly.keyed _ _ found
      rw [key] at is
      cases known.symm.trans is
      exact ⟨paused, .inl waits⟩
    · contradiction
    · exact ⟨paused, .inr dropped⟩
  refine ⟨fun running => ?_, fun paused => (unclosed (by rw [paused]; rfl)).2⟩
  have paused := (unclosed (by rw [running]; rfl)).1
  rw [running] at paused
  contradiction

/-- A run waits, is answered, waits again and is dropped when that wait is over. -/
def answering : List Move :=
  .order (.run twice .null) :: List.replicate 22 (.turn 0) ++
    .order (.handle twice going) :: List.replicate 26 (.turn 1) ++
    .ring 1 :: List.replicate 4 (.turn 2)

set_option maxRecDepth 4000 in
/-- What is recorded of the run that was dropped is its second wait. -/
theorem records_follow_states_answering :
    ∃ record, ((opened [] 10 (some {}) ⟨0, 0⟩ .drop).play answering).engine.book (Id.fresh 0) =
        some record ∧ record.status = .paused ∧ record.history = ["first", "second"] ∧
      Passage.Dropped .drop ((opened [] 10 (some {}) ⟨0, 0⟩ .drop).log (Id.fresh 0) answering) := by
  have unbroken : (opened [] 10 (some {}) ⟨0, 0⟩ .drop).Unbroken answering := by decide +kernel
  obtain ⟨_, _, _, ends⟩ := records_follow_states [] 10 {} ⟨0, 0⟩ .drop rfl (fun _ => rfl)
    answering (Id.fresh 0) rfl
  have paused := (ends unbroken rfl _ rfl).2 rfl
  exact ⟨_, rfl, rfl, rfl, paused.resolve_left (by decide +kernel)⟩

end Site

end DurableFlow
