import DurableFlow.Proofs.Desk.Routing

/-!
# A call to deploy a workflow that fails leaves no trace

A call to deploy a workflow looks twice whether it is deployed: before its trigger procedure is
called, and when the procedure has replied. At the second look it enters the deployment at once.
Up to then it changes nothing but itself (`Errand.Tries`), and from then on it cannot fail any more
(`Errand.Grants`). So whatever it fails for, none of its turns has changed anything.
-/

namespace DurableFlow

namespace Errand

/-- A call to deploy a workflow that has entered nothing, and may still fail. -/
def Tries (errand : Errand) : Prop :=
  errand.acts = [] ∧ errand.delivery = none ∧
    match errand.decision with
    | .deploy .. | .awaitDeploy .. | .install .. | .answer (.failed _) => True
    | _ => False

/-- A call that has entered a deployment and is going to return its subscription. -/
def Grants (errand : Errand) (subscription : Subscription) : Prop :=
  errand.delivery = none ∧ errand.decision = .answer (.subscription subscription)

theorem Grants.answer {errand : Errand} {subscription : Subscription}
    (grants : errand.Grants subscription) {answer : Answer}
    (answers : errand.answer? = some answer) : answer = .subscription subscription := by
  rw [answer?, grants.1, grants.2] at answers
  cases acts : errand.acts with
  | nil =>
    rw [acts] at answers
    exact (Option.some.inj answers).symm
  | cons act rest =>
    rw [acts] at answers
    contradiction

end Errand

namespace Stride

variable (engine : Engine) (office : Office) {errand : Errand}

/-- As long as a call has entered nothing, it leaves everything as it is. -/
theorem step_tries (tries : errand.Tries) :
    let stride := step engine office errand
    (stride.office = office ∧ stride.engine.ledger = engine.ledger ∧ stride.errand.Tries) ∨
      ∃ subscription, stride.errand.Grants subscription ∧ stride.signal = .proceed := by
  obtain ⟨acts, alone, stage⟩ := tries
  have decides := decide_decides engine office errand
  intro stride
  simp only [stride, step, acts]
  generalize decide engine office errand = decided at decides ⊢
  generalize decision : errand.decision = tried at decides stage
  cases decides with
  | ends | awaitsReply => exact .inl ⟨rfl, rfl, acts, alone, decision ▸ stage⟩
  | handsOn more => cases alone.symm.trans more
  | deployRefused | callsTrigger | subscribeRefused | subscribes | installRefused =>
    exact .inl ⟨rfl, rfl, rfl, alone, trivial⟩
  | @installs d subscription => exact .inr ⟨subscription, ⟨alone, rfl⟩, rfl⟩
  | _ => exact stage.elim

/-- A call that has entered a deployment returns its subscription in the end. -/
theorem step_grants {subscription : Subscription} (grants : errand.Grants subscription) :
    (step engine office errand).errand.Grants subscription := by
  obtain ⟨alone, decision⟩ := grants
  cases acts : errand.acts with
  | nil =>
    simp only [step, acts, decide, decision, alone]
    exact ⟨alone, decision⟩
  | cons act rest =>
    simp only [step, acts, act_errand]
    exact ⟨alone, decision⟩

end Stride

namespace Site

/-- The errand that comes to its end at an occurrence, and what it has come to. -/
def ended (site : Site) : Occurrence → List (Nat × Answer)
  | .demand demand => site.answered demand
  | _ => []

/-- What the errands come to in a history, in the order of their ends. -/
def returned (site : Site) : List Occurrence → List (Nat × Answer)
  | [] => []
  | occurrence :: rest => site.ended occurrence ++ (site.occur occurrence).returned rest

/-- The definitions, the deployments and the pending runs, the registered handlers, and all that is
stored are as they were. -/
structure Untouched (site after : Site) : Prop where
  desk : after.office.desk = site.office.desk
  board : after.office.board = site.office.board
  ledger : after.engine.ledger = site.engine.ledger

variable {site : Site} {id : Nat} {errand : Errand}

theorem Untouched.refl (site : Site) : site.Untouched site := ⟨rfl, rfl, rfl⟩

theorem Untouched.trans {middle after : Site} (first : site.Untouched middle)
    (second : middle.Untouched after) : site.Untouched after :=
  ⟨second.desk.trans first.desk, second.board.trans first.board,
    second.ledger.trans first.ledger⟩

/-- What is untouched at each step is untouched after all of them. -/
theorem untouched_undergo {history : List Occurrence}
    (steps : ∀ before occurrence rest, history = before ++ occurrence :: rest →
      (site.undergo before).Untouched ((site.undergo before).occur occurrence)) :
    site.Untouched (site.undergo history) := by
  induction history generalizing site with
  | nil => exact .refl site
  | cons occurrence rest ih =>
    refine (steps [] occurrence rest rfl).trans (ih fun before other later split => ?_)
    exact steps (occurrence :: before) other later (congrArg (occurrence :: ·) split)

section Turns

/-- What the turn of an errand makes of a site. -/
structure TakesTurn (site after : Site) (id : Nat) (stride : Stride) : Prop where
  engine : after.engine = stride.engine
  desk : after.office.desk = stride.office.desk
  board : after.office.board = stride.office.board
  goes : stride.signal ≠ .finished → after.office.errand? id = some stride.errand
  ends : stride.signal = .finished → after.office.errand? id = none
  others : ∀ entry ∈ after.office.errands,
    entry = (id, stride.errand) ∧ stride.signal ≠ .finished ∨
      entry ∈ site.office.errands ∧ entry.1 ≠ id

theorem takesTurn (found : site.office.errand? id = some errand) :
    site.TakesTurn (site.turn id) id (Stride.step site.engine site.office errand) := by
  have errands := (Stride.step_errands site.engine site.office errand).1
  have turned : site.turn id = land (Stride.step site.engine site.office errand) id := by
    simp only [turn, found]
  rw [turned]
  generalize Stride.step site.engine site.office errand = stride at *
  have there : stride.office.errand? id = some errand := by
    rw [Office.errand?, errands]
    exact found
  refine ⟨rfl, desk_land stride id, ?_, fun goes => ?_, fun ends => ?_, fun entry member => ?_⟩
  · unfold land
    dsimp only
    split <;> rfl
  · simp only [land, if_neg goes]
    exact errand?_setErrand there
  · simp only [land, if_pos ends]
    rw [dropErrand_setErrand_self]
    exact Table.lookup_eq_none_of_not_mem (by simp [Office.dropErrand, Table.ids])
  · simp only [land] at member
    split at member
    · obtain ⟨set, other⟩ := List.mem_filter.mp member
      have different : entry.1 ≠ id := by simpa using other
      rcases mem_setErrand set with rfl | old
      · exact absurd rfl different
      · exact .inr (errands ▸ old)
    · rename_i goes
      exact (mem_setErrand member).imp (⟨·, goes⟩) (errands ▸ ·)

/-- An errand ends at its own turn. -/
theorem eq_turn_of_ended {occurrence : Occurrence} {answer : Answer}
    (ends : (id, answer) ∈ site.ended occurrence) : occurrence = .demand (.move (.turn id)) := by
  cases occurrence with
  | demand demand =>
    cases demand with
    | move m =>
      cases m with
      | turn other =>
        simp only [ended, answered] at ends
        split at ends
        · contradiction
        · split at ends
          · obtain ⟨_, _, same⟩ := Option.map_eq_some_iff.mp (Option.mem_toList.mp ends)
            cases same
            rfl
          · contradiction
      | order | branch | ring | learn | pass => contradiction
    | execute | resume | cancelRun => contradiction
  | restore | outage => contradiction

/-- What an errand comes to at its turn is its answer then. -/
theorem answer_of_ended (found : site.office.errand? id = some errand) {answer : Answer}
    (ends : (id, answer) ∈ site.ended (.demand (.move (.turn id)))) :
    (Stride.step site.engine site.office errand).signal = .finished ∧
      (Stride.step site.engine site.office errand).errand.answer? = some answer := by
  simp only [ended, answered, found] at ends
  split at ends
  · rename_i finished
    obtain ⟨given, answers, same⟩ := Option.map_eq_some_iff.mp (Option.mem_toList.mp ends)
    cases same
    exact ⟨finished, answers⟩
  · contradiction

theorem nextErrand_le_occur (site : Site) (occurrence : Occurrence) :
    site.office.nextErrand ≤ (site.occur occurrence).office.nextErrand := by
  cases occurrence with
  | demand demand =>
    cases demand with
    | move m => exact nextErrand_le_move site m
    | execute | resume => exact Nat.le_succ _
    | cancelRun asked =>
      simp only [occur, meet, cancelRun]
      repeat' split
      all_goals exact Nat.le_refl _
  | restore => exact Nat.le_succ _
  | outage => exact Nat.le_refl _

/-- Until its turn an errand stays what it is, but that its run may have been asked to be
cancelled. -/
theorem errand?_occur (used : id < site.office.nextErrand) {occurrence : Occurrence}
    (other : occurrence ≠ .demand (.move (.turn id))) :
    ∃ change : Bool → Bool, (site.occur occurrence).office.errand? id =
      (site.office.errand? id).map fun errand =>
        { errand with isCancelled := change errand.isCancelled } := by
  have still : ∀ after : Office, after.errand? id = site.office.errand? id →
      ∃ change : Bool → Bool, after.errand? id = (site.office.errand? id).map fun errand =>
        { errand with isCancelled := change errand.isCancelled } :=
    fun after same => ⟨fun asked => asked, same.trans Option.map_id'.symm⟩
  cases occurrence with
  | demand demand =>
    cases demand with
    | move m => exact still _ (errand?_move used fun same => other (same ▸ rfl))
    | execute | resume => exact still _ (errand?_takeOn site.office _ used)
    | cancelRun asked =>
      simp only [occur, meet, cancelRun]
      split
      · exact still _ rfl
      · rename_i errand found
        have set (next : Errand) : (site.office.setErrand asked next).errand? id =
            if id = asked then (site.office.errand? asked).map fun _ => next
            else site.office.errand? id :=
          Table.lookup_update asked id (fun _ => next) site.office.errands
        by_cases same : id = asked
        · subst same
          have cancelled : (site.office.setErrand id { errand with isCancelled := true }).errand?
              id = (site.office.errand? id).map fun errand =>
                { errand with isCancelled := true } := by
            rw [set, if_pos rfl, found]
            rfl
          refine ⟨fun _ => true, ?_⟩
          split <;> exact cancelled
        · have kept := (set { errand with isCancelled := true }).trans (if_neg same)
          split <;> exact still _ kept
  | restore => exact still _ (errand?_takeOn site.office _ used)
  | outage => exact still _ rfl

theorem errand?_undergo (used : id < site.office.nextErrand)
    (found : site.office.errand? id = some errand) {history : List Occurrence}
    (others : ∀ occurrence ∈ history, occurrence ≠ .demand (.move (.turn id))) :
    ∃ isCancelled, (site.undergo history).office.errand? id = some { errand with isCancelled } := by
  induction history generalizing site errand with
  | nil => exact ⟨errand.isCancelled, found⟩
  | cons occurrence rest ih =>
    obtain ⟨other, others⟩ := List.forall_mem_cons.mp others
    obtain ⟨change, still⟩ := errand?_occur used other
    rw [found] at still
    have later := ih (used.trans_le (nextErrand_le_occur site occurrence)) still others
    exact later

end Turns

section Failing

variable (used : id < site.office.nextErrand)
include used

/-- An errand that is there no more comes to nothing more, and its turns are over. -/
theorem gone_undergo (gone : site.office.errand? id = none) (history : List Occurrence) :
    (site.undergo history).office.errand? id = none := by
  induction history generalizing site with
  | nil => exact gone
  | cons occurrence rest ih =>
    refine ih (used.trans_le (nextErrand_le_occur site occurrence)) ?_
    by_cases turns : occurrence = .demand (.move (.turn id))
    · have still : site.turn id = site := by simp only [turn, gone]
      rw [turns]
      exact (congrArg (fun after : Site => after.office.errand? id) still).trans gone
    · obtain ⟨change, same⟩ := errand?_occur used turns
      rw [same, gone]
      rfl

theorem not_returned_of_gone (gone : site.office.errand? id = none) (history : List Occurrence)
    (answer : Answer) : (id, answer) ∉ site.returned history := by
  induction history generalizing site with
  | nil => exact List.not_mem_nil
  | cons occurrence rest ih =>
    rw [returned, List.mem_append, not_or]
    refine ⟨fun ended => ?_, ih (used.trans_le (nextErrand_le_occur site occurrence))
      (gone_undergo used gone [occurrence])⟩
    have turns := eq_turn_of_ended ended
    subst turns
    simp only [Site.ended, answered, gone] at ended
    contradiction

/-- A call that has entered a deployment does not fail. -/
theorem not_failed_of_grants (found : site.office.errand? id = some errand)
    {subscription : Subscription} (grants : errand.Grants subscription)
    (history : List Occurrence) (failure : Failure) :
    (id, .failed failure) ∉ site.returned history := by
  induction history generalizing site errand with
  | nil => exact List.not_mem_nil
  | cons occurrence rest ih =>
    have later := used.trans_le (nextErrand_le_occur site occurrence)
    rw [returned, List.mem_append, not_or]
    by_cases turns : occurrence = .demand (.move (.turn id))
    · subst turns
      have turn := takesTurn found
      have still := Stride.step_grants site.engine site.office grants
      refine ⟨fun ended => ?_, ?_⟩
      · have told := still.answer (answer_of_ended found ended).2
        contradiction
      · by_cases finished : (Stride.step site.engine site.office errand).signal = .finished
        · exact not_returned_of_gone later (turn.ends finished) rest _
        · exact ih later (turn.goes finished) still
    · obtain ⟨change, same⟩ := errand?_occur used turns
      rw [found] at same
      exact ⟨fun ended => turns (eq_turn_of_ended ended), ih later same grants⟩

/-- When a call to deploy a workflow fails, none of its turns has changed anything. -/
theorem untouched_of_failed (found : site.office.errand? id = some errand) (tries : errand.Tries)
    {history : List Occurrence} {failure : Failure}
    (fails : (id, .failed failure) ∈ site.returned history) {before rest : List Occurrence}
    (split : history = before ++ .demand (.move (.turn id)) :: rest) :
    (site.undergo before).Untouched ((site.undergo before).turn id) := by
  induction before generalizing site errand history with
  | nil =>
    subst split
    have turn := takesTurn found
    show site.Untouched (site.turn id)
    rcases Stride.step_tries site.engine site.office tries with
      ⟨office, ledger, _⟩ | ⟨subscription, grants, proceeds⟩
    · exact ⟨turn.desk.trans (congrArg Office.desk office),
        turn.board.trans (congrArg Office.board office),
        (congrArg Engine.ledger turn.engine).trans ledger⟩
    · have goes := turn.goes (by rw [proceeds]; exact Signal.noConfusion)
      have later := used.trans_le
        (nextErrand_le_occur site (.demand (.move (.turn id))))
      rcases List.mem_append.mp fails with ended | further
      · have finished := (answer_of_ended found ended).1
        rw [proceeds] at finished
        contradiction
      · exact absurd further (not_failed_of_grants later goes grants rest failure)
  | cons occurrence before ih =>
    subst split
    have later := used.trans_le (nextErrand_le_occur site occurrence)
    show ((site.occur occurrence).undergo before).Untouched
      (((site.occur occurrence).undergo before).turn id)
    by_cases turns : occurrence = .demand (.move (.turn id))
    · subst turns
      have turn := takesTurn found
      by_cases finished : (Stride.step site.engine site.office errand).signal = .finished
      · have gone := gone_undergo later (turn.ends finished) before
        have still : ((site.occur (.demand (.move (.turn id)))).undergo before).turn id =
            (site.occur (.demand (.move (.turn id)))).undergo before := by
          simp only [Site.turn, gone]
        rw [still]
        exact .refl _
      · have goes := turn.goes finished
        have further := (List.mem_append.mp fails).resolve_left fun ended =>
          finished (answer_of_ended found ended).1
        rcases Stride.step_tries site.engine site.office tries with
          ⟨_, _, still⟩ | ⟨subscription, grants, _⟩
        · exact ih later goes still further rfl
        · exact absurd further (not_failed_of_grants later goes grants _ failure)
    · obtain ⟨change, same⟩ := errand?_occur used turns
      rw [found] at same
      have further := (List.mem_append.mp fails).resolve_left fun ended =>
        turns (eq_turn_of_ended ended)
      exact ih later same tries further rfl

end Failing

end Site

end DurableFlow
