import DurableFlow.Proofs.Desk.Accounts

/-!
# Every pause is left at most once

However orders, events, alarms, cancellations, stops and the steps of errands and branches
are interleaved, a pause that has begun is left at most once, in one way, and the engine is
asked at most once to let its run go on. An alarm ends no pause but the one that it was set
for.
-/

namespace DurableFlow

theorem Order.decision_isManaged (order : Order) (engine : Engine) :
    order.decision.IsManaged engine := by
  cases order <;> first | exact trivial | exact rfl

theorem Order.charge?_decision (order : Order) (engine : Engine) :
    order.decision.charge? engine = none := by
  cases order <;> rfl

namespace Site

variable {site after : Site} {lives : String → Life}

theorem mem_setErrand {office : Office} {id : Nat} {errand : Errand} {entry : Nat × Errand}
    (h : entry ∈ (office.setErrand id errand).errands) :
    entry = (id, errand) ∨ entry ∈ office.errands ∧ entry.1 ≠ id := by
  obtain ⟨old, member, rfl⟩ := List.mem_map.mp h
  by_cases same : old.1 = id
  · exact .inl (if_pos same)
  · rw [if_neg same]
    exact .inr ⟨member, same⟩

/-- A stride leaves all errands but one as they have been. -/
theorem lands_of_errands {id : Nat} {stride : Stride}
    (known : ∀ entry ∈ stride.office.errands, entry.1 ≠ id → entry ∈ site.office.errands)
    (unique : (Table.ids stride.office.errands).Nodup)
    (below : ∀ entry ∈ stride.office.errands, entry.1 < stride.office.nextErrand)
    (here : id < stride.office.nextErrand) : site.Lands (land stride id) id stride := by
  have kept : (Table.ids (stride.office.setErrand id stride.errand).errands).Nodup := by
    have same : Table.ids (stride.office.setErrand id stride.errand).errands =
        Table.ids stride.office.errands :=
      Table.ids_update id (fun _ => stride.errand) stride.office.errands
    rw [same]
    exact unique
  have set : site.Alters ⟨stride.engine, stride.office.setErrand id stride.errand⟩ id
      stride.errand := by
    refine ⟨fun entry member => ?_, kept, fun entry member => ?_⟩
    · exact (mem_setErrand member).imp_right fun ⟨old, different⟩ =>
        ⟨known entry old different, different⟩
    · rcases mem_setErrand member with rfl | ⟨old, _⟩
      · exact here
      · exact below entry old
  have dropped : site.Alters
      ⟨stride.engine, (stride.office.setErrand id stride.errand).dropErrand id⟩ id
      stride.errand :=
    ⟨fun entry member => set.others entry (List.mem_of_mem_filter member),
      Table.nodup_filter kept _,
      fun entry member => set.below entry (List.mem_of_mem_filter member)⟩
  unfold land
  dsimp only
  split
  · exact ⟨dropped, rfl, ⟨rfl, rfl, rfl⟩⟩
  · exact ⟨set, rfl, ⟨rfl, rfl, rfl⟩⟩

theorem move_turn {id : Nat} {errand : Errand} (found : site.office.errand? id = some errand) :
    site.move (.turn id) = land (Stride.step site.engine site.office errand) id := by
  simp only [move, turn, found]

section Land

variable {stride : Stride} {id : Nat} {errand : Errand}

theorem mem_land_of_ne {entry : Nat × Errand} (member : entry ∈ stride.office.errands)
    (different : entry.1 ≠ id) : entry ∈ (land stride id).office.errands := by
  have set : entry ∈ (stride.office.setErrand id stride.errand).errands :=
    List.mem_map.mpr ⟨entry, member, if_neg different⟩
  unfold land
  dsimp only
  split
  · exact List.mem_filter.mpr ⟨set, by simpa using different⟩
  · exact set

theorem mem_land_self (member : (id, errand) ∈ stride.office.errands)
    (goes : stride.signal ≠ .finished) : (id, stride.errand) ∈ (land stride id).office.errands := by
  unfold land
  dsimp only
  rw [if_neg goes]
  exact List.mem_map.mpr ⟨_, member, if_pos rfl⟩

/-- After its stride an errand is what the stride has made of it. -/
theorem eq_of_mem_land (member : (id, errand) ∈ (land stride id).office.errands) :
    errand = stride.errand := by
  have set : (id, errand) ∈ (stride.office.setErrand id stride.errand).errands := by
    unfold land at member
    dsimp only at member
    split at member
    · exact List.mem_of_mem_filter member
    · exact member
  rcases mem_setErrand set with same | ⟨_, different⟩
  · exact (Prod.ext_iff.mp same).2
  · exact absurd rfl different

theorem errand?_setErrand {office : Office} (found : office.errand? id = some errand)
    {next : Errand} : (office.setErrand id next).errand? id = some next := by
  show (Table.update id (fun _ => next) office.errands).lookup id = some next
  rw [Table.lookup_update, if_pos rfl]
  exact congrArg (Option.map fun _ => next) found

end Land

/-- What a move does to a site: an errand is taken on, an errand takes a step, or something happens
that changes no errand. -/
inductive Moves (site : Site) : Move → Site → Prop where
  | order (order : Order) : Moves site (.order order)
      { site with office := (site.office.takeOn { decision := order.decision }).2 }
  | turn {id : Nat} {errand : Errand} (found : site.office.errand? id = some errand) :
      Moves site (.turn id) (land (Stride.step site.engine site.office errand) id)
  | noErrand {id : Nat} (absent : site.office.errand? id = none) : Moves site (.turn id) site
  | branch (run id : Nat) : Moves site (.branch run id)
      { site with engine := (site.engine.stepRun run (.branch id)).1 }
  /-- A new errand takes its only step at once. -/
  | ring {alarm : Alarm} (found : site.office.alarms.find? (·.id == alarm.id) = some alarm) :
      Moves site (.ring alarm.id)
        (land (Stride.expire site.engine
          ((site.office.silence (some alarm.id)).takeOn { decision := .expire alarm.execution }).2
          { decision := .expire alarm.execution } alarm.execution) site.office.nextErrand)
  | closed {alarm : Alarm} (found : site.office.alarms.find? (·.id == alarm.id) = some alarm) :
      Moves site (.ring alarm.id) ⟨site.engine, site.office.silence (some alarm.id)⟩
  | noAlarm (id : Nat) : Moves site (.ring id) site
  | learn (d : Definition) : Moves site (.learn d)
      { site with office := { site.office with desk := site.office.desk.learn d } }
  | pass (clock : Nat) : Moves site (.pass clock) { site with engine := { site.engine with clock } }

/-- The errand that is taken on next is a new one. -/
theorem Kept.nextErrand_not_mem (kept : site.Kept lives) :
    site.office.nextErrand ∉ Table.ids site.office.errands := by
  intro used
  obtain ⟨entry, member, same⟩ := List.mem_map.mp used
  have := kept.below entry member
  omega

theorem Kept.errand?_taken (kept : site.Kept lives) (errand : Errand) :
    (site.office.takeOn errand).2.errand? site.office.nextErrand = some errand := by
  have unused : site.office.errands.lookup site.office.nextErrand = none :=
    Table.lookup_eq_none_of_not_mem kept.nextErrand_not_mem
  simp [Office.errand?, Office.takeOn, List.lookup_append, unused]

theorem Kept.nodup_takeOn (kept : site.Kept lives) (errand : Errand) :
    (Table.ids (site.office.takeOn errand).2.errands).Nodup := by
  have apart : ∀ id, ∀ old, (id, old) ∈ site.office.errands → id ≠ site.office.nextErrand := by
    rintro id old member rfl
    exact kept.nextErrand_not_mem (List.mem_map_of_mem member)
  simpa [Office.takeOn, List.nodup_append] using ⟨kept.unique, apart⟩

theorem Kept.below_takeOn (kept : site.Kept lives) (errand : Errand) {entry : Nat × Errand}
    (member : entry ∈ (site.office.takeOn errand).2.errands) :
    entry.1 < (site.office.takeOn errand).2.nextErrand := by
  rcases List.mem_append.mp member with old | new
  · exact Nat.lt_succ_of_lt (kept.below entry old)
  · rw [List.mem_singleton.mp new]
    exact Nat.lt_succ_self _

namespace Kept

/-- What changes neither the pending runs nor the errands. Alarms may be stopped. -/
theorem accounts_aside (kept : site.Kept lives) {deed : Deed}
    (calm : deed.IsCalm)
    (extending : site.engine.Extends after.engine) (orderly : after.office.Orderly)
    (pending : after.office.desk.pending = site.office.desk.pending)
    (nextAlarm : after.office.nextAlarm = site.office.nextAlarm)
    (errands : after.office.errands = site.office.errands)
    (nextErrand : after.office.nextErrand = site.office.nextErrand) :
    Accounts site lives after lives (deed.tells site after) := by
  have alters : site.Alters after site.office.nextErrand { decision := .answer .nothing } := by
    refine ⟨fun entry member => .inr ⟨errands ▸ member, ?_⟩, errands ▸ kept.unique,
      fun entry member => ?_⟩
    · have := kept.below entry (errands ▸ member)
      omega
    · rw [nextErrand]
      exact kept.below entry (errands ▸ member)
  have same : ∀ execution, after.pending? execution = site.pending? execution := by
    intro execution
    rw [Site.pending?, Site.pending?, Desk.pending?, Desk.pending?, pending]
  exact kept.accounts_still alters extending orderly ⟨trivial, Nat.zero_le _⟩ same nextAlarm
    (fun _ charged => absurd charged List.not_mem_nil) calm

/-- A move that changes nothing. -/
theorem accounts_of_move_eq (kept : site.Kept lives) {m : Move} (still : site.move m = site)
    (calm : (site.deed m).IsCalm) :
    Accounts site lives (site.move m) lives (site.passages m) := by
  rw [Site.passages, still]
  exact kept.accounts_aside calm kept.numbered.extends_refl kept.orderly rfl rfl rfl rfl

/-- The step that an errand takes at its turn. -/
theorem deal_turn (kept : site.Kept lives) {id : Nat} {errand : Errand}
    (found : site.office.errand? id = some errand) :
    let stride := Stride.step site.engine site.office errand
    site.Takes id site.office errand ∧
      Stride.Deals site.engine site.office errand errand.deed stride ∧
        site.Lands (land stride id) id stride := by
  have member : (id, errand) ∈ site.office.errands := Table.mem_of_lookup found
  have managed := kept.managed _ member
  have deals := Stride.step_deals kept.numbered kept.orderly managed
  have errands := deals.dealing.errands
  have nextErrand := deals.dealing.nextErrand
  refine ⟨⟨rfl, rfl, kept.orderly, managed.charges,
    fun charge charged => ⟨errand, member, charged⟩⟩, deals, ?_⟩
  refine lands_of_errands (fun entry old _ => errands ▸ old) (errands ▸ kept.unique)
    (fun entry old => ?_) ?_
  · rw [nextErrand]
    exact kept.below entry (errands ▸ old)
  · rw [nextErrand]
    exact kept.below _ member

/-- A step of an errand is accounted for. -/
theorem accounts_turn (kept : site.Kept lives) (id : Nat) :
    ∃ lives', Accounts site lives (site.move (.turn id)) lives' (site.passages (.turn id)) := by
  cases found : site.office.errand? id with
  | none =>
    have still : site.move (.turn id) = site := by simp only [move, turn, found]
    have nothing : site.deed (.turn id) = .nothing := by simp [deed, found]
    exact ⟨lives, kept.accounts_of_move_eq still (nothing ▸ trivial)⟩
  | some errand =>
    obtain ⟨takes, deals, lands⟩ := kept.deal_turn found
    have does : site.deed (.turn id) = errand.deed := by simp [deed, found]
    obtain ⟨lives', accounts⟩ := kept.accounts_deal takes deals lands
    rw [Site.passages, move_turn found, does]
    exact ⟨lives', accounts⟩

theorem accounts_order (kept : site.Kept lives) (order : Order) :
    Accounts site lives (site.move (.order order)) lives (site.passages (.order order)) := by
  have alters : site.Alters (site.move (.order order)) site.office.nextErrand
      { decision := order.decision } := by
    refine ⟨fun entry member => ?_, kept.nodup_takeOn _, fun entry => kept.below_takeOn _⟩
    rcases List.mem_append.mp member with old | new
    · have := kept.below entry old
      exact .inr ⟨old, by omega⟩
    · exact .inl (List.mem_singleton.mp new)
  have none_yet : ({ decision := order.decision } : Errand).charges site.engine = [] := by
    simp [Errand.charges, order.charge?_decision]
  have same : site.office.SamePauses (site.move (.order order)).office := ⟨rfl, rfl, rfl⟩
  exact kept.accounts_still alters kept.numbered.extends_refl (same.orderly kept.orderly)
    ⟨order.decision_isManaged _, by simp [none_yet, move]⟩ (fun _ => rfl) rfl
    (fun charge charged => absurd (none_yet ▸ charged) List.not_mem_nil) trivial

/-- The time of an alarm has come that can ring. -/
theorem ring_of_mem (kept : site.Kept lives) {alarm : Alarm}
    (found : site.office.alarms.find? (·.id == alarm.id) = some alarm)
    (opened : (site.office.silence (some alarm.id)).isOpen = true) :
    let errand : Errand := { decision := .expire alarm.execution }
    site.ring alarm.id =
      land (Stride.expire site.engine ((site.office.silence (some alarm.id)).takeOn errand).2
        errand alarm.execution) site.office.nextErrand := by
  intro errand
  have new : ((site.office.silence (some alarm.id)).takeOn errand).2.errand?
      site.office.nextErrand = some errand := by
    have unused : site.office.errands.lookup site.office.nextErrand = none :=
      Table.lookup_eq_none_of_not_mem kept.nextErrand_not_mem
    simp [Office.errand?, Office.takeOn, List.lookup_append, unused]
  have turned : turn ⟨site.engine, ((site.office.silence (some alarm.id)).takeOn errand).2⟩
      site.office.nextErrand = land (Stride.expire site.engine
        ((site.office.silence (some alarm.id)).takeOn errand).2 errand alarm.execution)
        site.office.nextErrand := by
    simp only [turn, new]
    rfl
  simp only [ring, found]
  rw [if_pos opened]
  exact turned

/-- The step that the new errand takes at once when an alarm rings. -/
theorem deal_ring (kept : site.Kept lives) {alarm : Alarm}
    (found : site.office.alarms.find? (·.id == alarm.id) = some alarm) :
    let errand : Errand := { decision := .expire alarm.execution }
    let taken := ((site.office.silence (some alarm.id)).takeOn errand).2
    let stride := Stride.expire site.engine taken errand alarm.execution
    site.Takes site.office.nextErrand taken errand ∧
      Stride.Deals site.engine taken errand (.release (.expiry alarm.id)) stride ∧
        site.Lands (land stride site.office.nextErrand) site.office.nextErrand stride := by
  intro errand taken stride
  obtain ⟨state, paused⟩ := kept.orderly.alarms alarm (List.mem_of_find?_eq_some found)
  have orderly : taken.Orderly := by
    have same : (site.office.silence (some alarm.id)).SamePauses taken := ⟨rfl, rfl, rfl⟩
    exact same.orderly (kept.orderly.silence (some alarm.id))
  have deals : Stride.Deals site.engine taken errand (.release (.expiry alarm.id)) stride :=
    Stride.expire_deals kept.numbered orderly paused
  have errands : stride.office.errands = (site.office.takeOn errand).2.errands :=
    deals.dealing.errands
  have nextErrand : stride.office.nextErrand = (site.office.takeOn errand).2.nextErrand :=
    deals.dealing.nextErrand
  refine ⟨⟨rfl, rfl, orderly, Nat.zero_le _, fun _ charged => absurd charged List.not_mem_nil⟩,
    deals, ?_⟩
  refine lands_of_errands (fun entry member different => ?_)
    (errands ▸ kept.nodup_takeOn errand) (fun entry member => ?_) ?_
  · rw [errands] at member
    refine (List.mem_append.mp member).resolve_right fun new => different ?_
    rw [List.mem_singleton.mp new]
  · rw [nextErrand]
    exact kept.below_takeOn errand (errands ▸ member)
  · rw [nextErrand]
    exact Nat.lt_succ_self _

theorem ring_of_closed {alarm : Alarm}
    (found : site.office.alarms.find? (·.id == alarm.id) = some alarm)
    (closed : ¬ (site.office.silence (some alarm.id)).isOpen = true) :
    site.move (.ring alarm.id) = ⟨site.engine, site.office.silence (some alarm.id)⟩ := by
  simp only [move, ring, found]
  exact if_neg closed

/-- All that a move can come to. -/
theorem moves (kept : site.Kept lives) (m : Move) : site.Moves m (site.move m) := by
  cases m with
  | order order => exact .order order
  | branch run id => exact .branch run id
  | learn d => exact .learn d
  | pass clock => exact .pass clock
  | turn id =>
    cases found : site.office.errand? id with
    | none =>
      have still : site.move (.turn id) = site := by simp only [move, turn, found]
      exact still.symm ▸ .noErrand found
    | some errand => exact move_turn found ▸ .turn found
  | ring id =>
    cases found : site.office.alarms.find? (·.id == id) with
    | none =>
      have still : site.move (.ring id) = site := by simp only [move, ring, found]
      exact still.symm ▸ .noAlarm id
    | some alarm =>
      obtain rfl : alarm.id = id := by simpa using List.find?_some found
      by_cases opened : (site.office.silence (some alarm.id)).isOpen = true
      · have rings := Moves.ring found
        rw [← kept.ring_of_mem found opened] at rings
        exact rings
      · exact ring_of_closed found opened ▸ .closed found

/-- An alarm that can ring ends the pause that it was set for. -/
theorem accounts_ring (kept : site.Kept lives) (id : Nat) :
    ∃ lives', Accounts site lives (site.move (.ring id)) lives' (site.passages (.ring id)) := by
  cases found : site.office.alarms.find? (·.id == id) with
  | none =>
    have still : site.move (.ring id) = site := by simp only [move, ring, found]
    exact ⟨lives, kept.accounts_of_move_eq still trivial⟩
  | some alarm =>
    obtain rfl : alarm.id = id := by simpa using List.find?_some found
    by_cases opened : (site.office.silence (some alarm.id)).isOpen = true
    · have moved := kept.ring_of_mem found opened
      obtain ⟨takes, deals, lands⟩ := kept.deal_ring found
      obtain ⟨lives', accounts⟩ := kept.accounts_deal takes deals lands
      rw [Site.passages, Site.move, moved]
      exact ⟨lives', accounts⟩
    · refine ⟨lives, ?_⟩
      rw [Site.passages, ring_of_closed found opened]
      exact kept.accounts_aside trivial kept.numbered.extends_refl
        (kept.orderly.silence (some alarm.id)) rfl rfl rfl rfl

/-- Every move is accounted for. -/
theorem accounts_move (kept : site.Kept lives) (m : Move) :
    ∃ lives', Accounts site lives (site.move m) lives' (site.passages m) := by
  have still := kept.numbered.extends_refl
  cases m with
  | order order => exact ⟨lives, kept.accounts_order order⟩
  | turn id => exact kept.accounts_turn id
  | branch run id =>
    exact ⟨lives, kept.accounts_aside trivial (kept.numbered.stepRun run (.branch id))
      kept.orderly rfl rfl rfl rfl⟩
  | ring id => exact kept.accounts_ring id
  | learn d =>
    have same : site.office.SamePauses (site.move (.learn d)).office := ⟨rfl, rfl, rfl⟩
    exact ⟨lives, kept.accounts_aside trivial still (same.orderly kept.orderly) rfl rfl rfl rfl⟩
  | pass clock =>
    exact ⟨lives, kept.accounts_aside trivial
      (kept.numbered.extends_of_runs rfl rfl (Nat.le_refl _)) kept.orderly rfl rfl rfl rfl⟩

/-- Every schedule is accounted for. -/
theorem accounts_play (kept : site.Kept lives) (schedule : List Move) :
    ∃ lives', Accounts site lives (site.play schedule) lives'
      fun execution => site.log execution schedule := by
  induction schedule generalizing site lives with
  | nil => exact ⟨lives, .refl kept⟩
  | cons m rest ih =>
    obtain ⟨middle, first⟩ := kept.accounts_move m
    obtain ⟨lives', later⟩ := ih first.kept
    exact ⟨lives', first.trans later⟩

/-- At first no run is anywhere. -/
theorem opened (catalog : Catalog) (limit : Nat) (ledger : Option Ledger) (epoch : Instant)
    (policy : TimeoutPolicy) :
    (Site.opened catalog limit ledger epoch policy).Kept fun _ => .away := by
  refine ⟨⟨List.nodup_nil, by simp [Site.opened]⟩, ⟨List.Pairwise.nil, ?_, ?_, ?_⟩, List.nodup_nil,
    ?_, ?_, ?_, ?_, ?_, ?_, ?_⟩ <;>
    simp [Site.opened, Site.pending?, Desk.pending?]

end Kept

/-- Over any schedule, what is told of an execution is a history: every pause that begins is
left at most once, by an event, by the alarm that was set for it, by a cancellation or with
its workflow, and the engine is asked to let the run go on at most once for each pause, after
an event or the alarm. The alarms of its pauses all differ, and the run is pending exactly
while its last pause has not been left. -/
theorem pauses_left_once (catalog : Catalog) (limit : Nat) (ledger : Option Ledger)
    (epoch : Instant) (policy : TimeoutPolicy) (schedule : List Move) (execution : String) :
    let site := opened catalog limit ledger epoch policy
    let log := site.log execution schedule
    Passage.History log ∧ (log.filterMap Passage.alarm?).Nodup ∧
      ∀ state alarm, (site.play schedule).pending? execution = some ⟨state, alarm⟩ ↔
        log.getLast? = some (.entered state alarm) := by
  intro site log
  obtain ⟨lives', accounts⟩ :=
    (Kept.opened catalog limit ledger epoch policy).accounts_play schedule
  have follows := accounts.follow execution
  refine ⟨Life.history_of_follow follows, accounts.nodup execution, fun state alarm => ?_⟩
  rw [accounts.kept.pending, Life.waiting_iff_of_follow follows]

/-- A workflow that waits twice, and not for ever. -/
def twice : Definition where
  id := "twice"
  name := "twice"
  start := "first"
  nodes := [
    { id := "first", kind := .await ["go"] none (some ⟨1000, none⟩), next := some (.one "second") },
    { id := "second", kind := .await ["go"] none (some ⟨1000, none⟩) }]

/-- The event that both waits are for. -/
def going : Event := { id := "going", provider := "any", type := some "go", timestamp := ⟨0, 0⟩ }

/-- Two events and an alarm are after the first pause, and an alarm that has been stopped is
after the second one. -/
def racing : List Move :=
  .order (.run twice .null) :: List.replicate 20 (.turn 0) ++
    [.order (.handle twice going), .order (.handle twice going), .turn 2, .turn 1, .ring 0] ++
    List.replicate 25 (.turn 2) ++ [.ring 0, .ring 1]

set_option maxRecDepth 4000 in
theorem pauses_left_once_racing :
    ∃ first second,
      (opened [] 10 none ⟨0, 0⟩ .drop).log (Id.fresh 0) racing =
        [.entered first (some 0), .left .event, .resumed first, .entered second (some 1),
          .left (.expiry 1)] ∧
      Passage.History [.entered first (some 0), .left .event, .resumed first,
        .entered second (some 1), .left (.expiry 1)] :=
  ⟨_, _, rfl, (pauses_left_once [] 10 none ⟨0, 0⟩ .drop racing (Id.fresh 0)).1⟩

end Site

end DurableFlow
