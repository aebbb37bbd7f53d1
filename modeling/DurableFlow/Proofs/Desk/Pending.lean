import DurableFlow.Desk.Errand
import DurableFlow.Proofs.Event.Answering

/-!
# Pending runs and their alarms

What arming, releasing and detaching do to the pending runs of an office. All of them keep
the office orderly: an alarm that can still ring is the one that was set for the pause that
is pending now, so no alarm outlives its pause.
-/

namespace DurableFlow

namespace Desk

variable {desk : Desk} {workflow : String} {state : Suspended}

theorem pending?_take (desk : Desk) (execution other : String) :
    (desk.take execution).pending? other =
      if other = execution then none else desk.pending? other :=
  Fields.get?_erase desk.pending execution other

theorem pending?_hold (desk : Desk) (state : Suspended) (alarm : Option Nat) (other : String) :
    (desk.hold state alarm).pending? other =
      if other = state.execution then some ⟨state, alarm⟩ else desk.pending? other :=
  Fields.get?_insert desk.pending state.execution other ⟨state, alarm⟩

/-- The pending runs of a workflow are dropped, all others stay. -/
theorem pending?_detach (sorted : Fields.Sorted desk.pending) (workflow execution : String) :
    (desk.detach workflow).pending? execution =
      (desk.pending? execution).filter (·.state.workflow != workflow) := by
  apply Option.ext
  intro pending
  rw [pending?, detach, (sorted.filter _).get?_eq_some_iff, List.mem_filter,
    Option.filter_eq_some_iff, pending?, sorted.get?_eq_some_iff]

theorem exists_of_mem_pendingOf (sorted : Fields.Sorted desk.pending)
    (member : state ∈ desk.pendingOf workflow) :
    ∃ execution alarm, desk.pending? execution = some ⟨state, alarm⟩ := by
  obtain ⟨among, _⟩ := List.mem_filter.mp member
  obtain ⟨⟨held, alarm⟩, value, rfl⟩ := List.mem_map.mp among
  obtain ⟨⟨execution, _⟩, entry, rfl⟩ := List.mem_map.mp value
  exact ⟨execution, alarm, sorted.get?_eq_some_iff.mpr entry⟩

end Desk

namespace Office

variable {office : Office} {execution workflow : String} {state : Suspended}

/-- Each pending run is kept under its own id, and an alarm that can ring is the one that was set
for the pause of its run. -/
structure Orderly (office : Office) : Prop where
  sorted : Fields.Sorted office.desk.pending
  keyed : ∀ execution pending, office.desk.pending? execution = some pending →
    pending.state.execution = execution
  alarms : ∀ alarm ∈ office.alarms, ∃ state,
    office.desk.pending? alarm.execution = some ⟨state, some alarm.id⟩
  issued : ∀ execution state alarm, office.desk.pending? execution = some ⟨state, some alarm⟩ →
    alarm < office.nextAlarm

/-- Two offices have the same pending runs and alarms. -/
structure SamePauses (office other : Office) : Prop where
  pending : other.desk.pending = office.desk.pending
  alarms : other.alarms = office.alarms
  nextAlarm : other.nextAlarm = office.nextAlarm

theorem SamePauses.pending? {other : Office} (same : SamePauses office other)
    (execution : String) : other.desk.pending? execution = office.desk.pending? execution := by
  rw [Desk.pending?, Desk.pending?, same.pending]

theorem SamePauses.orderly {other : Office} (same : SamePauses office other)
    (orderly : office.Orderly) : other.Orderly where
  sorted := same.pending ▸ orderly.sorted
  keyed execution pending found := orderly.keyed execution pending (same.pending? _ ▸ found)
  alarms alarm member := by
    rw [same.pending?]
    exact orderly.alarms alarm (same.alarms ▸ member)
  issued execution state alarm found := by
    rw [same.nextAlarm]
    exact orderly.issued execution state alarm (same.pending? _ ▸ found)

/-- Two offices have the same pending runs, alarms and errands. -/
structure Agrees (office other : Office) : Prop extends SamePauses office other where
  errands : other.errands = office.errands
  nextErrand : other.nextErrand = office.nextErrand

theorem Agrees.refl (office : Office) : Agrees office office := ⟨⟨rfl, rfl, rfl⟩, rfl, rfl⟩

/-- The run that an event is meant for is pending. -/
theorem Orderly.pending?_of_match? (orderly : office.Orderly) {event : Event}
    (h : office.desk.match? workflow event = some state) :
    ∃ alarm, office.desk.pending? state.execution = some ⟨state, alarm⟩ := by
  obtain ⟨execution, alarm, found⟩ :=
    Desk.exists_of_mem_pendingOf orderly.sorted (Event.mem_of_findMatch h)
  obtain rfl := orderly.keyed _ _ found
  exact ⟨alarm, found⟩

section Silence

@[simp] theorem silence_desk (office : Office) (alarm : Option Nat) :
    (office.silence alarm).desk = office.desk := by
  cases alarm <;> rfl

@[simp] theorem silence_errands (office : Office) (alarm : Option Nat) :
    (office.silence alarm).errands = office.errands := by
  cases alarm <;> rfl

@[simp] theorem silence_nextErrand (office : Office) (alarm : Option Nat) :
    (office.silence alarm).nextErrand = office.nextErrand := by
  cases alarm <;> rfl

@[simp] theorem silence_nextAlarm (office : Office) (alarm : Option Nat) :
    (office.silence alarm).nextAlarm = office.nextAlarm := by
  cases alarm <;> rfl

theorem mem_silence {alarm : Alarm} {stopped : Option Nat} :
    alarm ∈ (office.silence stopped).alarms ↔
      alarm ∈ office.alarms ∧ stopped ≠ some alarm.id := by
  cases stopped with
  | none => simp [silence]
  | some id =>
    have different : (alarm.id != id) = true ↔ some id ≠ some alarm.id := by
      rw [bne_iff_ne, ne_eq, ne_eq, Option.some.injEq, eq_comm]
    rw [silence, List.mem_filter, different]

theorem Orderly.silence (orderly : office.Orderly) (alarm : Option Nat) :
    (office.silence alarm).Orderly where
  sorted := by
    rw [silence_desk]
    exact orderly.sorted
  keyed := by
    rw [silence_desk]
    exact orderly.keyed
  alarms other member := by
    rw [silence_desk]
    exact orderly.alarms other (mem_silence.mp member).1
  issued := by
    rw [silence_desk, silence_nextAlarm]
    exact orderly.issued

end Silence

section Release

@[simp] theorem release_errands (office : Office) (execution : String) :
    (office.release execution).errands = office.errands := by
  rw [release]
  split <;> simp

@[simp] theorem release_nextErrand (office : Office) (execution : String) :
    (office.release execution).nextErrand = office.nextErrand := by
  rw [release]
  split <;> simp

@[simp] theorem release_nextAlarm (office : Office) (execution : String) :
    (office.release execution).nextAlarm = office.nextAlarm := by
  rw [release]
  split <;> simp

theorem pending?_release (office : Office) (execution other : String) :
    (office.release execution).desk.pending? other =
      if other = execution then none else office.desk.pending? other := by
  rw [release]
  split
  · rename_i absent
    split
    · rename_i same
      rw [same, absent]
    · rfl
  · exact Desk.pending?_take office.desk execution other

theorem Orderly.release (orderly : office.Orderly) (execution : String) :
    (office.release execution).Orderly where
  sorted := by
    rw [Office.release]
    split
    · exact orderly.sorted
    · exact orderly.sorted.erase execution
  keyed other pending found := by
    rw [pending?_release] at found
    split at found
    · contradiction
    · exact orderly.keyed other pending found
  alarms alarm member := by
    cases known : office.desk.pending? execution with
    | none =>
      have same : office.release execution = office := by simp [Office.release, known]
      rw [same] at member ⊢
      exact orderly.alarms alarm member
    | some pending =>
      have stopped : (office.release execution).alarms = (office.silence pending.alarm).alarms := by
        simp [Office.release, known]
      rw [stopped, mem_silence] at member
      obtain ⟨state, found⟩ := orderly.alarms alarm member.1
      rw [pending?_release, if_neg, found]
      · exact ⟨state, rfl⟩
      · rintro rfl
        rw [known] at found
        cases found
        exact member.2 rfl
  issued other state alarm found := by
    rw [pending?_release] at found
    rw [release_nextAlarm]
    split at found
    · contradiction
    · exact orderly.issued other state alarm found

end Release

section Arm

/-- The alarm that is set when a run is made pending. -/
def nextAlarm? (office : Office) (state : Suspended) : Option Nat :=
  state.deadline.map fun _ => office.nextAlarm

@[simp] theorem arm_errands (office : Office) (state : Suspended) :
    (office.arm state).errands = office.errands := by
  rw [arm]
  split <;> simp

@[simp] theorem arm_nextErrand (office : Office) (state : Suspended) :
    (office.arm state).nextErrand = office.nextErrand := by
  rw [arm]
  split <;> simp

theorem nextAlarm_le_arm (office : Office) (state : Suspended) :
    office.nextAlarm ≤ (office.arm state).nextAlarm := by
  rw [arm]
  split <;> simp

theorem pending?_arm (office : Office) (state : Suspended) (other : String) :
    (office.arm state).desk.pending? other =
      if other = state.execution then some ⟨state, office.nextAlarm? state⟩
      else office.desk.pending? other := by
  rw [arm]
  split <;> rename_i deadline <;> simp [Desk.pending?_hold, nextAlarm?, deadline]

/-- Arming a run is nothing but a change of the pending runs and alarms. -/
theorem Agrees.arm {other : Office} (agrees : Agrees office other) (state : Suspended) :
    Agrees (office.arm state) (other.arm state) := by
  have silenced : ∀ alarm, (other.silence alarm).alarms = (office.silence alarm).alarms := by
    intro alarm
    cases alarm <;> simp [Office.silence, agrees.alarms]
  unfold Office.arm
  split <;> refine ⟨⟨?_, ?_, ?_⟩, ?_, ?_⟩ <;>
    simp [Desk.hold, agrees.pending?, agrees.pending, agrees.nextAlarm, agrees.errands,
      agrees.nextErrand, silenced]

/-- The alarm of a pause is not used again. -/
theorem lt_arm_of_nextAlarm? {alarm : Nat} (h : office.nextAlarm? state = some alarm) :
    office.nextAlarm ≤ alarm ∧ alarm < (office.arm state).nextAlarm := by
  cases deadline : state.deadline with
  | none => simp [nextAlarm?, deadline] at h
  | some _ =>
    obtain rfl : office.nextAlarm = alarm := by simpa [nextAlarm?, deadline] using h
    simp [arm, deadline]

theorem Orderly.arm (orderly : office.Orderly)
    (absent : office.desk.pending? state.execution = none) : (office.arm state).Orderly where
  sorted := by
    rw [Office.arm]
    split <;> simp only [silence_desk] <;> exact orderly.sorted.insert _ _
  keyed other pending found := by
    rw [pending?_arm] at found
    split at found
    · rename_i same
      cases found
      exact same.symm
    · exact orderly.keyed other pending found
  alarms alarm member := by
    have set : alarm ∈ office.alarms ∨
        alarm.execution = state.execution ∧ office.nextAlarm? state = some alarm.id := by
      rw [Office.arm] at member
      split at member <;> rename_i deadline <;>
        simp only [absent, Option.bind_none, Office.silence, List.mem_append,
          List.mem_singleton] at member
      · exact .inl member
      · rcases member with old | rfl
        · exact .inl old
        · exact .inr ⟨rfl, by simp [nextAlarm?, deadline]⟩
    rcases set with old | ⟨same, new⟩
    · obtain ⟨held, found⟩ := orderly.alarms alarm old
      rw [pending?_arm, if_neg, found]
      · exact ⟨held, rfl⟩
      · intro same
        rw [same, absent] at found
        contradiction
    · rw [pending?_arm, if_pos same, new]
      exact ⟨state, rfl⟩
  issued other held alarm found := by
    rw [pending?_arm] at found
    split at found
    · simp only [Option.some.injEq, Pending.mk.injEq] at found
      exact (lt_arm_of_nextAlarm? found.2).2
    · exact (orderly.issued other held alarm found).trans_le (nextAlarm_le_arm office state)

end Arm

section Detach

/-- An office that has stopped some alarms is the same otherwise. -/
theorem foldl_silence (dropped : List Pending) (office : Office) :
    let after := dropped.foldl (fun office pending => office.silence pending.alarm) office
    after.desk = office.desk ∧ after.errands = office.errands ∧
      after.nextErrand = office.nextErrand ∧ after.nextAlarm = office.nextAlarm ∧
      ∀ alarm, alarm ∈ after.alarms ↔
        alarm ∈ office.alarms ∧ ∀ pending ∈ dropped, pending.alarm ≠ some alarm.id := by
  induction dropped generalizing office with
  | nil => simp
  | cons pending rest ih =>
    simp only [List.foldl_cons]
    obtain ⟨desk, errands, nextErrand, nextAlarm, alarms⟩ := ih (office.silence pending.alarm)
    refine ⟨by simp [desk], by simp [errands], by simp [nextErrand], by simp [nextAlarm],
      fun alarm => ?_⟩
    rw [alarms, mem_silence, List.forall_mem_cons, and_assoc]

@[simp] theorem detach_errands (office : Office) (workflow : String) :
    (office.detach workflow).errands = office.errands :=
  (foldl_silence _ office).2.1

@[simp] theorem detach_nextErrand (office : Office) (workflow : String) :
    (office.detach workflow).nextErrand = office.nextErrand :=
  (foldl_silence _ office).2.2.1

@[simp] theorem detach_nextAlarm (office : Office) (workflow : String) :
    (office.detach workflow).nextAlarm = office.nextAlarm :=
  (foldl_silence _ office).2.2.2.1

theorem detach_pending (office : Office) (workflow : String) :
    (office.detach workflow).desk.pending =
      office.desk.pending.filter fun entry => entry.2.state.workflow != workflow := by
  have same := (foldl_silence ((Fields.values office.desk.pending).filter
    (·.state.workflow == workflow)) office).1
  simp only [detach, same, Desk.detach]

theorem Orderly.pending?_detach (orderly : office.Orderly) (workflow execution : String) :
    (office.detach workflow).desk.pending? execution =
      (office.desk.pending? execution).filter (·.state.workflow != workflow) := by
  rw [Desk.pending?, detach_pending]
  exact Desk.pending?_detach orderly.sorted workflow execution

theorem Orderly.detach (orderly : office.Orderly) (workflow : String) :
    (office.detach workflow).Orderly where
  sorted := by
    rw [detach_pending]
    exact orderly.sorted.filter _
  keyed execution pending found := by
    rw [orderly.pending?_detach, Option.filter_eq_some_iff] at found
    exact orderly.keyed execution pending found.1
  alarms alarm member := by
    obtain ⟨ringing, kept⟩ := ((foldl_silence _ office).2.2.2.2 alarm).mp member
    obtain ⟨state, found⟩ := orderly.alarms alarm ringing
    have stays : state.workflow ≠ workflow := by
      intro same
      refine kept ⟨state, some alarm.id⟩ (List.mem_filter.mpr ⟨?_, by simpa using same⟩) rfl
      exact Fields.mem_values_of_get? found
    exact ⟨state, by simp [orderly.pending?_detach, found, stays]⟩
  issued execution state alarm found := by
    rw [orderly.pending?_detach, Option.filter_eq_some_iff] at found
    rw [detach_nextAlarm]
    exact orderly.issued execution state alarm found.1

end Detach

end Office

end DurableFlow
