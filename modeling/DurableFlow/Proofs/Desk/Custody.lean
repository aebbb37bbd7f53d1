import DurableFlow.Proofs.Desk.Dealing
import DurableFlow.Proofs.Desk.Schedule
import DurableFlow.Proofs.Id

/-!
# Every run is in one place

At any time a run is pending, or in the charge of one errand, or neither, and that agrees with the
passages of the run. The alarms that can ring belong to pauses that are not over. `Kept` is this
invariant.

`Kept.carry` shows it for any move that changes one errand, puts runs in its charge that were
pending or in its charge before, and makes runs pending that were so or were in its charge. A step
of an errand is of this kind, whatever all others do in between.
-/

namespace DurableFlow

/-- Where the run of a charge stands, going by its passages. -/
def Charge.life (charge : Charge) : Life :=
  match charge.claimed with
  | none => .away
  | some state => .claimed state

theorem Charge.life_ne_waiting (charge : Charge) (state : Suspended) (alarm : Option Nat) :
    charge.life ≠ .waiting state alarm := by
  rw [life]
  split <;> simp

/-- The id has been given out. -/
def Engine.Issued (engine : Engine) (execution : String) : Prop :=
  ∃ n < engine.moments, execution = Id.fresh n

theorem Engine.Extends.issued {engine after : Engine} (extending : engine.Extends after)
    {execution : String} (issued : engine.Issued execution) : after.Issued execution := by
  obtain ⟨n, old, rfl⟩ := issued
  exact ⟨n, Nat.lt_of_lt_of_le old extending.moments_le, rfl⟩

namespace Site

variable {site after : Site} {lives : String → Life}

/-- The run is pending or in the charge of the errand with this id. -/
def Holds (site : Site) (id : Nat) (execution : String) : Prop :=
  (site.pending? execution).isSome ∨
    ∃ errand, (id, errand) ∈ site.office.errands ∧
      ∃ charge ∈ errand.charges site.engine, charge.execution = execution

/-- The errands and the pending runs agree with where the passages of each run have led it, and no
run is in the charge of two errands. -/
structure Kept (site : Site) (lives : String → Life) : Prop where
  numbered : site.engine.Numbered
  orderly : site.office.Orderly
  unique : (Table.ids site.office.errands).Nodup
  below : ∀ entry ∈ site.office.errands, entry.1 < site.office.nextErrand
  managed : ∀ entry ∈ site.office.errands, entry.2.IsManaged site.engine
  pending : ∀ execution state alarm,
    site.pending? execution = some ⟨state, alarm⟩ ↔ lives execution = .waiting state alarm
  charged : ∀ entry ∈ site.office.errands, ∀ charge ∈ entry.2.charges site.engine,
    lives charge.execution = charge.life
  exclusive : ∀ entry ∈ site.office.errands, ∀ other ∈ site.office.errands,
    ∀ charge ∈ entry.2.charges site.engine, ∀ more ∈ other.2.charges site.engine,
      charge.execution = more.execution → entry.1 = other.1
  issued_of_charge : ∀ entry ∈ site.office.errands, ∀ charge ∈ entry.2.charges site.engine,
    site.engine.Issued charge.execution
  issued : ∀ execution, lives execution ≠ .away → site.engine.Issued execution

/-- The errands are the same, but that one of them may have changed, be new or be gone. -/
structure Alters (site after : Site) (id : Nat) (errand : Errand) : Prop where
  others : ∀ entry ∈ after.office.errands,
    entry = (id, errand) ∨ entry ∈ site.office.errands ∧ entry.1 ≠ id
  unique : (Table.ids after.office.errands).Nodup
  below : ∀ entry ∈ after.office.errands, entry.1 < after.office.nextErrand

namespace Kept

theorem waiting_of_isSome (kept : site.Kept lives) {execution : String}
    (there : (site.pending? execution).isSome) :
    ∃ state alarm, lives execution = .waiting state alarm := by
  obtain ⟨⟨state, alarm⟩, found⟩ := Option.isSome_iff_exists.mp there
  exact ⟨state, alarm, (kept.pending _ _ _).mp found⟩

theorem pending?_eq_none (kept : site.Kept lives) {execution : String}
    (elsewhere : ∀ state alarm, lives execution ≠ .waiting state alarm) :
    site.pending? execution = none := by
  rw [← Option.not_isSome_iff_eq_none]
  intro there
  obtain ⟨state, alarm, waits⟩ := kept.waiting_of_isSome there
  exact elsewhere state alarm waits

theorem issued_of_holds (kept : site.Kept lives) {id : Nat} {execution : String}
    (holds : site.Holds id execution) : site.engine.Issued execution := by
  rcases holds with there | ⟨errand, member, charge, charged, rfl⟩
  · obtain ⟨state, alarm, waits⟩ := kept.waiting_of_isSome there
    exact kept.issued execution (by simp [waits])
  · exact kept.issued_of_charge _ member charge charged

/-- What another errand has in its charge is neither pending nor in the charge of this one. -/
theorem not_holds (kept : site.Kept lives) {id : Nat} {entry : Nat × Errand}
    (member : entry ∈ site.office.errands) (different : entry.1 ≠ id) {charge : Charge}
    (charged : charge ∈ entry.2.charges site.engine) : ¬ site.Holds id charge.execution := by
  rintro (there | ⟨errand, other, more, held, same⟩)
  · obtain ⟨state, alarm, waits⟩ := kept.waiting_of_isSome there
    rw [kept.charged entry member charge charged] at waits
    exact charge.life_ne_waiting state alarm waits
  · exact different (kept.exclusive entry member _ other charge charged more held same.symm)

/-- Changing one errand keeps every run in one place when the runs that change hands have
been pending or in the charge of that errand, or are new. -/
theorem carry (kept : site.Kept lives) {lives' : String → Life} (id : Nat) (errand : Errand)
    (alters : site.Alters after id errand) (extending : site.engine.Extends after.engine)
    (orderly : after.office.Orderly) (managed : errand.IsManaged after.engine)
    (pending : ∀ execution state alarm,
      after.pending? execution = some ⟨state, alarm⟩ ↔ lives' execution = .waiting state alarm)
    (charged : ∀ charge ∈ errand.charges after.engine, lives' charge.execution = charge.life)
    (frame : ∀ execution, lives' execution = lives execution ∨ site.Holds id execution)
    (taken : ∀ charge ∈ errand.charges after.engine, site.Holds id charge.execution ∨
      ∃ n, site.engine.moments ≤ n ∧ n < after.engine.moments ∧ charge.execution = Id.fresh n) :
    after.Kept lives' := by
  have old : ∀ entry ∈ site.office.errands,
      (entry.2.charges after.engine).Sublist (entry.2.charges site.engine) :=
    fun entry member => (kept.managed entry member).charges_extends extending
  have apart : ∀ charge ∈ errand.charges after.engine, ∀ entry ∈ site.office.errands,
      entry.1 ≠ id → ∀ more ∈ entry.2.charges after.engine,
        charge.execution ≠ more.execution := by
    intro charge new entry member different more held same
    have before := (old entry member).subset held
    rcases taken charge new with holds | ⟨n, later, _, fresh⟩
    · exact kept.not_holds member different before (same ▸ holds)
    · obtain ⟨m, earlier, issued⟩ := kept.issued_of_charge entry member more before
      have equal : n = m := Id.fresh_injective (by rw [← fresh, ← issued, same])
      omega
  have others := alters.others
  refine ⟨extending.numbered, orderly, alters.unique, alters.below, ?_, pending, ?_, ?_, ?_, ?_⟩
  · intro entry member
    rcases others entry member with rfl | ⟨before, _⟩
    · exact managed
    · exact (kept.managed entry before).extending extending
  · intro entry member charge held
    rcases others entry member with rfl | ⟨before, different⟩
    · exact charged charge held
    · have already := (old entry before).subset held
      rcases frame charge.execution with same | holds
      · rw [same]
        exact kept.charged entry before charge already
      · exact absurd holds (kept.not_holds before different already)
  · intro entry member other among charge held more further same
    rcases others entry member with rfl | ⟨before, different⟩ <;>
      rcases others other among with rfl | ⟨earlier, distinct⟩
    · rfl
    · exact absurd same (apart charge held other earlier distinct more further)
    · exact absurd same.symm (apart more further entry before different charge held)
    · exact kept.exclusive entry before other earlier charge ((old entry before).subset held)
        more ((old other earlier).subset further) same
  · intro entry member charge held
    rcases others entry member with rfl | ⟨before, _⟩
    · rcases taken charge held with holds | ⟨n, _, within, fresh⟩
      · exact extending.issued (kept.issued_of_holds holds)
      · exact ⟨n, within, fresh⟩
    · exact extending.issued
        (kept.issued_of_charge entry before charge ((old entry before).subset held))
  · intro execution further
    rcases frame execution with same | holds
    · exact extending.issued (kept.issued execution (same ▸ further))
    · exact extending.issued (kept.issued_of_holds holds)

end Kept

section Alone

variable {held : Engine → Errand → List String}

/-- No run that errands hold, going by `held`, is held by two of them or pending, and its id has
been given out. -/
def Alone (held : Engine → Errand → List String) (site : Site) : Prop :=
  ∀ entry ∈ site.office.errands, ∀ execution ∈ held site.engine entry.2,
    site.engine.Issued execution ∧ site.pending? execution = none ∧
      ∀ other ∈ site.office.errands, execution ∈ held site.engine other.2 → other.1 = entry.1

/-- After a step of one errand no run is held by two, if the runs that the errand holds then were
held by it before, were pending or are new, and if it holds nothing more once it has made a run
pending. -/
theorem Alone.step (alone : site.Alone held) (kept : site.Kept lives) {id : Nat}
    {errand errand' : Errand} (own : (id, errand) ∈ site.office.errands ∨
      held site.engine errand = [])
    (alters : site.Alters after id errand') (extending : site.engine.Extends after.engine)
    (same : ∀ entry ∈ site.office.errands, entry.1 ≠ id →
      held after.engine entry.2 = held site.engine entry.2)
    (gets : ∀ execution ∈ held after.engine errand', execution ∈ held site.engine errand ∨
      (site.pending? execution).isSome ∧ after.pending? execution = none ∨
        execution = Id.fresh site.engine.moments ∧ site.engine.moments < after.engine.moments)
    (pending : ∀ execution, after.pending? execution = site.pending? execution ∨
      after.pending? execution = none ∨
        execution ∈ held site.engine errand ∧ held after.engine errand' = []) :
    after.Alone held := by
  have before : ∀ execution ∈ held site.engine errand, site.engine.Issued execution ∧
      site.pending? execution = none ∧ ∀ other ∈ site.office.errands,
        execution ∈ held site.engine other.2 → other.1 = id := by
    intro execution had
    rcases own with member | nothing
    · exact alone _ member execution had
    · rw [nothing] at had
      contradiction
  have mine : ∀ execution ∈ held after.engine errand', after.engine.Issued execution ∧
      after.pending? execution = none ∧ ∀ other ∈ site.office.errands, other.1 ≠ id →
        execution ∉ held site.engine other.2 := by
    intro execution has
    have stays : site.pending? execution = none → after.pending? execution = none := by
      intro absent
      rcases pending execution with still | gone | ⟨_, nothing⟩
      · exact still.trans absent
      · exact gone
      · rw [nothing] at has
        contradiction
    rcases gets execution has with had | ⟨there, left⟩ | ⟨rfl, later⟩
    · obtain ⟨issued, absent, others⟩ := before execution had
      exact ⟨extending.issued issued, stays absent, fun other member different among =>
        different (others other member among)⟩
    · obtain ⟨state, alarm, waits⟩ := kept.waiting_of_isSome there
      refine ⟨extending.issued (kept.issued execution (by simp [waits])), left, ?_⟩
      intro other member _ among
      rw [(alone other member execution among).2.1] at there
      contradiction
    · have new : ¬ site.engine.Issued (Id.fresh site.engine.moments) := by
        rintro ⟨n, earlier, equal⟩
        exact absurd (Id.fresh_injective equal) (Nat.ne_of_gt earlier)
      have absent : site.pending? (Id.fresh site.engine.moments) = none :=
        kept.pending?_eq_none fun state alarm waits => new (kept.issued _ (by simp [waits]))
      exact ⟨⟨_, later, rfl⟩, stays absent, fun other member _ among =>
        new (alone other member _ among).1⟩
  intro entry member execution has
  rcases alters.others entry member with rfl | ⟨earlier, different⟩
  · obtain ⟨issued, absent, others⟩ := mine execution has
    refine ⟨issued, absent, fun other among touches => ?_⟩
    rcases alters.others other among with rfl | ⟨old, distinct⟩
    · rfl
    · rw [same other old distinct] at touches
      exact absurd touches (others other old distinct)
  · rw [same entry earlier different] at has
    obtain ⟨issued, absent, others⟩ := alone entry earlier execution has
    refine ⟨extending.issued issued, ?_, fun other among touches => ?_⟩
    · rcases pending execution with still | gone | ⟨had, _⟩
      · exact still.trans absent
      · exact gone
      · exact absurd ((before execution had).2.2 entry earlier has) different
    · rcases alters.others other among with rfl | ⟨old, distinct⟩
      · exact absurd has ((mine execution touches).2.2 entry earlier different)
      · rw [same other old distinct] at touches
        exact others other old touches

end Alone

end Site

end DurableFlow
