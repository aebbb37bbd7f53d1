import DurableFlow.Proofs.Desk.CrashSafety
import DurableFlow.Proofs.Engine.Book

/-!
# An event that comes twice

Nobody remembers which events have come. An event that comes once more is handled like any
other: no pause is claimed a second time, but a later pause of the same run may be what the
event is meant for now, or another run, or nothing, and then it may start a run. `IsVain` says
what is left of an errand that does nothing of this kind, and `redelivery_resumes_once` when
the second delivery is such an errand.
-/

namespace DurableFlow

/-- An errand that handles an event and has come, or will come, to nothing. -/
structure Errand.IsVain (engine : Engine) (desk : Desk) (errand : Errand) : Prop where
  delivery : errand.delivery = none
  acts : ∀ act ∈ errand.acts, ∃ tally, act = .count tally
  decision : match errand.decision with
    | .claim d event => desk.match? d.id event = none ∧
        (d.trigger.all event.allowedBy = false ∨ ∃ failure, engine.validate d = .error failure)
    | .start (.started _) d _ _ => ∃ failure, engine.validate d = .error failure
    | .finish (.started _) (.error _) => True
    | .answer _ => True
    | _ => False

namespace Stride

variable {engine : Engine} {office : Office} {errand : Errand}

/-- Such an errand changes nothing but what is counted, and it does not change its nature. -/
theorem step_vain (vain : errand.IsVain engine office.desk) :
    let stride := step engine office errand
    stride.office = office ∧ stride.engine.ledger = engine.ledger ∧ errand.deed.IsCalm ∧
      stride.errand.IsVain stride.engine office.desk := by
  obtain ⟨delivery, counts, decides⟩ := vain
  cases acts : errand.acts with
  | cons act rest =>
    rw [acts] at counts
    obtain ⟨tally, rfl⟩ := counts act List.mem_cons_self
    simp only [step, acts, Stride.act, Errand.deed]
    refine ⟨trivial, rfl, trivial, delivery, ?_, decides⟩
    intro other among
    exact counts other (List.mem_cons_of_mem _ among)
  | nil =>
    have answers : ∀ answer, (errand.go [] (.answer answer)).IsVain engine office.desk :=
      fun answer => ⟨delivery, List.forall_mem_nil _, trivial⟩
    simp only [step, acts, decide, Errand.deed]
    split at decides
    · rename_i d event decision
      obtain ⟨unmeant, unwelcome⟩ := decides
      simp only [decision, claim, unmeant]
      split
      · rename_i allowed
        refine ⟨rfl, rfl, trivial, delivery, by simp [Errand.go], ?_⟩
        exact unwelcome.resolve_left (by simp [allowed])
      · exact ⟨rfl, rfl, trivial, delivery, by simp [Errand.go], trivial⟩
    · rename_i own d input execution decision
      obtain ⟨failure, invalid⟩ := decides
      simp only [decision, start, invalid]
      exact ⟨trivial, trivial, trivial, delivery, List.forall_mem_nil _, trivial⟩
    · rename_i own failure decision
      simp only [decision, finish]
      exact ⟨trivial, trivial, trivial, answers _⟩
    · rename_i answer decision
      simp only [decision, delivery]
      exact ⟨trivial, trivial, trivial, delivery, by simp [acts], by simp [decision]⟩
    · exact decides.elim

/-- Whether a run can go on or not, its errand goes on in the same office. -/
theorem step_resume (engine : Engine) (office : Office) (errand : Errand)
    (acts : errand.acts = []) {purpose : Purpose} {d : Definition} {state : Suspended}
    {node : Option String} {delta : Fields Data}
    (decision : errand.decision = .resume purpose d state node delta) :
    ∃ after next requests,
      step engine office errand = ⟨after, office, next, .proceed, requests⟩ := by
  simp only [step, acts, decide, decision, resume]
  split <;> exact ⟨_, _, _, rfl⟩

end Stride

namespace Site

variable {site : Site} {told : String → List Passage} {lives : String → Life}

/-- An event comes, and is handled for a number of steps while nothing else happens. -/
def delivery (site : Site) (d : Definition) (event : Event) (turns : Nat) : List Move :=
  .order (.handle d event) :: List.replicate turns (.turn site.office.nextErrand)

/-- The pending runs, the stored runs and the records are the same. -/
structure Unmoved (site after : Site) : Prop where
  pending : after.office.desk.pending = site.office.desk.pending
  rows : after.engine.rows = site.engine.rows
  book : after.engine.book = site.engine.book

/-- A turn of an errand that comes to nothing. -/
theorem move_vain {id : Nat}
    (vain : ∀ errand, site.office.errand? id = some errand →
      errand.IsVain site.engine site.office.desk) :
    let after := site.move (.turn id)
    after.office.desk = site.office.desk ∧ after.engine.ledger = site.engine.ledger ∧
      (∀ execution, site.passages (.turn id) execution = []) ∧
      ∀ errand, after.office.errand? id = some errand →
        errand.IsVain after.engine after.office.desk := by
  cases found : site.office.errand? id with
  | none =>
    have same : site.move (.turn id) = site := by simp only [Site.move, turn, found]
    have calm : (site.deed (.turn id)).IsCalm := by simp [deed, found, Deed.IsCalm]
    refine ⟨by rw [same], by rw [same], fun execution => ?_, fun errand there => ?_⟩
    · rw [passages, Deed.tells, same]
      exact calm.passages_self execution _
    · rw [same, found] at there
      contradiction
  | some errand =>
    obtain ⟨office, ledger, calm, still⟩ := Stride.step_vain (vain errand found)
    have moved := move_turn found
    have desk : (site.move (.turn id)).office.desk = site.office.desk := by
      rw [moved, desk_land, office]
    have engine : (site.move (.turn id)).engine =
        (Stride.step site.engine site.office errand).engine := by
      rw [moved]
      rfl
    refine ⟨desk, by rw [engine, ledger], fun execution => ?_, fun next there => ?_⟩
    · have pending : (site.move (.turn id)).pending? execution = site.pending? execution := by
        rw [Site.pending?, desk, Site.pending?]
      have does : site.deed (.turn id) = errand.deed := by simp [deed, found]
      rw [passages, Deed.tells, pending, does]
      exact calm.passages_self execution _
    · rw [moved] at there
      rw [eq_of_mem_land (Table.mem_of_lookup there), engine, desk]
      exact still

theorem play_vain {id : Nat}
    (vain : ∀ errand, site.office.errand? id = some errand →
      errand.IsVain site.engine site.office.desk) (turns : Nat) :
    let schedule := List.replicate turns (Move.turn id)
    (site.play schedule).office.desk = site.office.desk ∧
      (site.play schedule).engine.ledger = site.engine.ledger ∧
      ∀ execution, site.log execution schedule = [] := by
  induction turns generalizing site with
  | zero => exact ⟨rfl, rfl, fun _ => rfl⟩
  | succ turns ih =>
    obtain ⟨desk, ledger, untold, still⟩ := move_vain vain
    obtain ⟨desk', ledger', untold'⟩ := ih still
    refine ⟨desk'.trans desk, ledger'.trans ledger, fun execution => ?_⟩
    rw [List.replicate_succ, log, untold, untold']
    rfl

/-- A step after which an errand goes on. -/
theorem turn_goes {id : Nat} {errand next : Errand} {engine : Engine} {office : Office}
    {requests : List Request} (found : site.office.errand? id = some errand)
    (steps : Stride.step site.engine site.office errand =
      ⟨engine, office, next, .proceed, requests⟩)
    (errands : office.errands = site.office.errands) :
    let after := site.move (.turn id)
    after.engine = engine ∧ after.office.desk = office.desk ∧
      after.office.errand? id = some next ∧
      ∀ execution, site.passages (.turn id) execution = errand.deed.passages execution
        (site.pending? execution) (after.pending? execution) := by
  have moved : site.move (.turn id) = ⟨engine, office.setErrand id next⟩ := by
    rw [move_turn found, steps]
    simp only [land, reduceCtorEq, if_false]
  have there : office.errand? id = some errand := by
    rw [Office.errand?, errands]
    exact found
  have does : site.deed (.turn id) = errand.deed := by simp [deed, found]
  rw [passages, does, moved]
  exact ⟨rfl, rfl, errand?_setErrand there, fun execution => rfl⟩

/-- Nothing is told of a run that is not pending, while nothing goes on. -/
theorem turn_silent {id : Nat} {errand next : Errand} {engine : Engine} {requests : List Request}
    (found : site.office.errand? id = some errand)
    (steps : Stride.step site.engine site.office errand =
      ⟨engine, site.office, next, .proceed, requests⟩) (calm : errand.deed.IsCalm)
    (execution : String) :
    site.passages (.turn id) execution = [] ∧
      (site.move (.turn id)).pending? execution = site.pending? execution ∧
        (site.move (.turn id)).office.errand? id = some next := by
  obtain ⟨_, desk, there, told⟩ := turn_goes found steps rfl
  have same : (site.move (.turn id)).pending? execution = site.pending? execution := by
    rw [Site.pending?, desk, Site.pending?]
  refine ⟨?_, same, there⟩
  rw [told, same]
  exact calm.passages_self execution _

section Claim

variable {id : Nat} {d : Definition} {event : Event}
  (found : site.office.errand? id = some { decision := .claim d event })

include found

/-- The pending run that an event is meant for is claimed. -/
theorem turn_claim {state : Suspended}
    (meant : site.office.desk.match? d.id event = some state) :
    (site.move (.turn id)).pending? state.execution = none ∧
      (site.move (.turn id)).office.errand? id =
        some { acts := [.count (.event .resumed), .deleteSuspended state.execution]
               decision := .resume (.resumed d state) d state none event.delta } := by
  have claims : Stride.step site.engine site.office { decision := .claim d event } =
      ⟨Stride.showPending site.engine (site.office.release state.execution),
        site.office.release state.execution,
        { acts := [.count (.event .resumed), .deleteSuspended state.execution]
          decision := .resume (.resumed d state) d state none event.delta },
        .proceed, []⟩ := by
    simp only [Stride.step, Stride.decide, Stride.claim, meant]
    rfl
  obtain ⟨_, desk, goes, _⟩ := turn_goes found claims (Office.release_errands ..)
  refine ⟨?_, goes⟩
  rw [Site.pending?, desk, Office.pending?_release, if_pos rfl]

/-- It is forgotten and let go on. -/
theorem log_claim (orderly : site.office.Orderly) {state : Suspended}
    (meant : site.office.desk.match? d.id event = some state) :
    site.log state.execution (List.replicate 4 (.turn id)) = [.left .event, .resumed state] := by
  obtain ⟨alarm, waits⟩ := orderly.pending?_of_match? meant
  obtain ⟨absent₁, found₁⟩ := turn_claim found meant
  have told₁ : site.passages (.turn id) state.execution = [.left .event] := by
    have does : site.deed (.turn id) = .release .event := by simp [deed, found, Errand.deed]
    rw [passages, Deed.tells, does, absent₁, Site.pending?, waits]
    rfl
  show site.log state.execution [.turn id, .turn id, .turn id, .turn id] = _
  simp only [log]
  rw [told₁]
  generalize site.move (.turn id) = one at *
  obtain ⟨told₂, same₂, found₂⟩ := turn_silent found₁ rfl trivial state.execution
  rw [told₂]
  generalize one.move (.turn id) = two at *
  obtain ⟨told₃, same₃, found₃⟩ := turn_silent found₂ rfl trivial state.execution
  rw [told₃]
  generalize two.move (.turn id) = three at *
  have absent₃ : three.pending? state.execution = none := by rw [same₃, same₂, absent₁]
  obtain ⟨engine, next, requests, resumes⟩ := Stride.step_resume three.engine three.office
    { decision := .resume (.resumed d state) d state none event.delta } rfl rfl
  obtain ⟨_, desk₄, _, told₄⟩ := turn_goes found₃ resumes rfl
  have absent₄ : (three.move (.turn id)).pending? state.execution = none := by
    rw [Site.pending?, desk₄]
    exact absent₃
  rw [told₄, absent₃, absent₄]
  simp [Deed.passages, Errand.deed]

/-- An event that starts a run has it recorded under a new id. -/
theorem book_start (serves : site.engine.Serves)
    (fresh : site.engine.book (Id.fresh site.engine.moments) = none)
    (unmeant : site.office.desk.match? d.id event = none)
    (allowed : d.trigger.all event.allowedBy = true) (valid : site.engine.validate d = .ok ()) :
    (site.play (List.replicate 5 (.turn id))).engine.book (Id.fresh site.engine.moments) =
      some (.started (Id.fresh site.engine.moments) d.id site.engine.moment.now) := by
  have claims : Stride.step site.engine site.office { decision := .claim d event } =
      ⟨site.engine, site.office,
        { acts := [.count (.event .started)]
          decision := .start (.started d) d event.input none }, .proceed, []⟩ := by
    simp only [Stride.step, Stride.decide, Stride.claim, unmeant, allowed, if_true]
    rfl
  have starts : ∀ (engine : Engine) office, engine.validate d = .ok () →
      engine.moment = site.engine.moment → Stride.step engine office
          { decision := .start (.started d) d event.input none } =
        Stride.enter engine.tick office { decision := .start (.started d) d event.input none }
          (.started d) (.start d (Context.start d.id (Id.fresh site.engine.moments)
            (Context.bindInput d.vars event.input) site.engine.moment.now) engine.limit [d.start])
          [.publish ⟨d.id, Id.fresh site.engine.moments, .started⟩,
            .saveRun (.started (Id.fresh site.engine.moments) d.id site.engine.moment.now)] := by
    intro engine office passes same
    simp only [Stride.step, Stride.decide, Stride.start, passes, same]
    rfl
  show (((((site.move (.turn id)).move (.turn id)).move (.turn id)).move (.turn id)).move
    (.turn id)).engine.book _ = _
  obtain ⟨engine₁, _, found₁, _⟩ := turn_goes found claims rfl
  generalize site.move (.turn id) = one at *
  obtain ⟨engine₂, _, found₂, _⟩ := turn_goes found₁ rfl rfl
  generalize one.move (.turn id) = two at *
  have counted : two.engine = site.engine.count (.event .started) := by rw [engine₂, engine₁]
  obtain ⟨engine₃, _, found₃, _⟩ := turn_goes found₂
    (starts two.engine two.office (by rw [counted]; exact valid) (by rw [counted]; rfl)) rfl
  generalize two.move (.turn id) = three at *
  obtain ⟨engine₄, _, found₄, _⟩ := turn_goes found₃ rfl rfl
  generalize three.move (.turn id) = four at *
  have ledger : four.engine.ledger = site.engine.ledger := by
    rw [engine₄, engine₃, counted]
    rfl
  obtain ⟨engine₅, _⟩ := turn_goes found₄ rfl rfl
  rw [engine₅, (Engine.saveRun_book (serves.of_ledger ledger) _).2, Book.enter,
    Engine.book_of_ledger ledger]
  simp [RunRecord.started, fresh]

end Claim

section Delivery

variable {d : Definition} {event : Event} (kept : site.Kept lives) (filed : site.Filed told)

include kept in
theorem errand?_delivered :
    (site.move (.order (.handle d event))).office.errand? site.office.nextErrand =
      some { decision := .claim d event } :=
  kept.errand?_taken _

theorem play_delivery (site : Site) (d : Definition) (event : Event) (turns : Nat) :
    site.play (site.delivery d event turns) = (site.move (.order (.handle d event))).play
      (List.replicate turns (.turn site.office.nextErrand)) := rfl

/-- That the event comes tells nothing. -/
theorem log_delivery (site : Site) (d : Definition) (event : Event) (turns : Nat)
    (execution : String) : site.log execution (site.delivery d event turns) =
      (site.move (.order (.handle d event))).log execution
        (List.replicate turns (.turn site.office.nextErrand)) := by
  have calm : (site.deed (.order (.handle d event))).IsCalm := trivial
  have nothing : site.passages (.order (.handle d event)) execution = [] :=
    calm.passages_self execution (site.pending? execution)
  rw [delivery, log, nothing, List.nil_append]

include kept in
/-- A delivery lets the pending run go on that the event is meant for. -/
theorem log_delivery_of_match {state : Suspended}
    (meant : site.office.desk.match? d.id event = some state) :
    site.log state.execution (site.delivery d event 4) = [.left .event, .resumed state] := by
  have same : site.office.SamePauses (site.move (.order (.handle d event))).office :=
    ⟨rfl, rfl, rfl⟩
  rw [log_delivery]
  exact log_claim (errand?_delivered kept) (same.orderly kept.orderly) meant

include kept filed

/-- A delivery may start a run. -/
theorem book_delivery (fresh : site.engine.book (Id.fresh site.engine.moments) = none)
    (unmeant : site.office.desk.match? d.id event = none)
    (allowed : d.trigger.all event.allowedBy = true) (valid : site.engine.validate d = .ok ()) :
    (site.play (site.delivery d event 5)).engine.book (Id.fresh site.engine.moments) =
      some (.started (Id.fresh site.engine.moments) d.id site.engine.moment.now) := by
  have serves : (site.move (.order (.handle d event))).engine.Serves := filed.serves
  rw [play_delivery]
  exact book_start (errand?_delivered kept) serves fresh unmeant allowed valid

/-- A delivery leaves everything as it is exactly if there is no pending run that the event is
meant for, and the workflow asks for events of another type or is not valid. -/
theorem delivery_vain_iff (fresh : site.engine.book (Id.fresh site.engine.moments) = none) :
    (∀ turns, site.Unmoved (site.play (site.delivery d event turns)) ∧
        ∀ execution, site.log execution (site.delivery d event turns) = []) ↔
      site.office.desk.match? d.id event = none ∧
        (d.trigger.all event.allowedBy = false ∨
          ∃ failure, site.engine.validate d = .error failure) := by
  constructor
  · intro unmoved
    have unmeant : site.office.desk.match? d.id event = none := by
      by_contra meets
      obtain ⟨state, meets⟩ := Option.ne_none_iff_exists'.mp meets
      have told := (unmoved 4).2 state.execution
      rw [log_delivery_of_match kept meets] at told
      contradiction
    refine ⟨unmeant, ?_⟩
    by_contra welcome
    rw [not_or, Bool.not_eq_false, not_exists] at welcome
    obtain ⟨allowed, valid⟩ := welcome
    cases validates : site.engine.validate d with
    | error failure => exact valid failure validates
    | ok =>
      have started := book_delivery kept filed fresh unmeant allowed validates
      rw [(unmoved 5).1.book, fresh] at started
      contradiction
  · rintro ⟨unmeant, unwelcome⟩ turns
    have vain : ∀ errand, (site.move (.order (.handle d event))).office.errand?
        site.office.nextErrand = some errand →
          errand.IsVain site.engine site.office.desk := by
      intro errand there
      obtain rfl := Option.some.inj ((errand?_delivered kept).symm.trans there)
      exact ⟨rfl, List.forall_mem_nil _, unmeant, unwelcome⟩
    obtain ⟨desk, ledger, untold⟩ := play_vain vain turns
    rw [play_delivery]
    refine ⟨⟨congrArg Desk.pending desk, Engine.rows_of_ledger ledger,
      Engine.book_of_ledger ledger⟩, fun execution => ?_⟩
    rw [log_delivery, untold]

end Delivery

/-- An event has come, and whatever else has happened since: when it comes once more, no pause
goes on a second time. Its second delivery leaves the pending runs, the stored runs and the
records as they are exactly if there is no pending run that it is meant for, and the workflow
asks for events of another type or is not valid. Otherwise it lets the pending run go on that
it is meant for, or starts a run. -/
theorem redelivery_vain_iff {catalog : Catalog} {limit : Nat} {epoch : Instant}
    (lived : Lived catalog limit epoch site told) (d : Definition) (event : Event)
    (schedule : List Move) :
    let first := .order (.handle d event) :: schedule
    let after := site.play first
    let meant := after.office.desk.match? d.id event
    (∀ turns execution, ((told execution ++ site.log execution
        (first ++ after.delivery d event turns)).filterMap Passage.resumed?).Nodup) ∧
      (after.engine.book (Id.fresh after.engine.moments) = none →
        ((∀ turns, after.Unmoved (after.play (after.delivery d event turns)) ∧
            ∀ execution, after.log execution (after.delivery d event turns) = []) ↔
          meant = none ∧ (d.trigger.all event.allowedBy = false ∨
            ∃ failure, after.engine.validate d = .error failure))) ∧
      (∀ state, meant = some state →
        after.log state.execution (after.delivery d event 4) = [.left .event, .resumed state]) ∧
      (meant = none → d.trigger.all event.allowedBy = true → after.engine.validate d = .ok () →
        after.engine.book (Id.fresh after.engine.moments) = none →
          (after.play (after.delivery d event 5)).engine.book (Id.fresh after.engine.moments) =
            some (.started (Id.fresh after.engine.moments) d.id after.engine.moment.now)) := by
  intro first after meant
  obtain ⟨⟨lives, kept⟩, filed⟩ := (lived.play first).invariant
  refine ⟨fun turns execution => ?_, delivery_vain_iff kept filed,
    fun state => log_delivery_of_match kept,
    fun unmeant allowed valid fresh => book_delivery kept filed fresh unmeant allowed valid⟩
  obtain ⟨_, later⟩ := (lived.play (first ++ after.delivery d event turns)).invariant
  refine (later.rising execution).imp fun earlier => ?_
  exact ne_of_apply_ne (fun state => state.pausedAt.nanos) earlier.ne

/-- Only events of another type start the workflow. -/
def expectant : Definition :=
  { twice with
    trigger := some { provider := "any", procedure := "watch", eventType := some "come" } }

/-- The run that has been waiting has been let go on by an event, and waits once more. -/
def twiceAnswered : Site :=
  twiceWaiting.play (.order (.handle twice going) :: List.replicate 26 (.turn 1))

/-- What the run waits for then. -/
def secondWait : Suspended :=
  { firstWait with
    node := "second"
    vars := [("event", going.toVariables)]
    history := ["first", "second"]
    deadline := some ⟨1, 15⟩
    pausedAt := ⟨0, 15⟩ }

theorem match?_twiceAnswered :
    twiceAnswered.office.desk.match? twice.id going = some secondWait := by
  decide +kernel

/-- When the event comes once more, a workflow that it does not start has nothing done, and the
run that it has let go on goes on from its next wait. -/
theorem redelivery_vain_iff_expectant :
    (let after := (opened [] 10 (some {}) ⟨0, 0⟩ .drop).play [.order (.handle expectant going)]
      ∀ turns, after.Unmoved (after.play (after.delivery expectant going turns))) ∧
    twiceAnswered.log secondWait.execution (twiceAnswered.delivery twice going 4) =
      [.left .event, .resumed secondWait] := by
  have begins : Lived [] 10 ⟨0, 0⟩ (opened [] 10 (some {}) ⟨0, 0⟩ .drop) fun _ => [] :=
    .opened {} .drop rfl rfl
  obtain ⟨_, vain, _⟩ := redelivery_vain_iff begins expectant going []
  obtain ⟨_, _, resumes, _⟩ := redelivery_vain_iff lived_twiceWaiting twice going
    (List.replicate 26 (.turn 1))
  rw [← twiceAnswered] at resumes
  refine ⟨fun turns => ?_, resumes secondWait match?_twiceAnswered⟩
  exact ((vain (by decide +kernel)).mpr ⟨by decide +kernel, .inl (by decide +kernel)⟩ turns).1

/-- An event that comes twice lets one run go on from two pauses: the first delivery has come to
its end, and the second one takes the run out of the pending ones, changes what is stored and
lets the run go on. -/
theorem resumed_by_both_deliveries :
    twiceWaiting.log (Id.fresh 0) (.order (.handle twice going) :: List.replicate 26 (.turn 1)) =
        [.left .event, .resumed firstWait, .entered secondWait (some 1)] ∧
      (twiceAnswered.office.errand? 1).isNone = true ∧
      twiceAnswered.log (Id.fresh 0) (twiceAnswered.delivery twice going 4) =
        [.left .event, .resumed secondWait] ∧
      ¬ twiceAnswered.Unmoved (twiceAnswered.play (twiceAnswered.delivery twice going 4)) := by
  refine ⟨by decide +kernel, by decide +kernel, by decide +kernel, fun unmoved => ?_⟩
  have pending : (twiceAnswered.play (twiceAnswered.delivery twice going 4)).office.desk.pending ≠
      twiceAnswered.office.desk.pending := by
    decide +kernel
  exact pending unmoved.pending

end Site

end DurableFlow
