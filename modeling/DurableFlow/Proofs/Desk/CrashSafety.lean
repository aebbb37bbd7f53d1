import DurableFlow.Proofs.Data.Text
import DurableFlow.Proofs.Desk.Restoring

/-!
# Pending runs survive the death of the process

A process lives through any schedule, may die after any step of it, and may be followed by a
fresh one that knows the same definitions and restores before anything else happens.
`Lived` are the sites that come about in this way, with all that has been told over all lives.
In each of them the ledger has the states of the pending runs, nothing of a pause from which
a run has gone on, and no pause is gone on from twice.
-/

namespace DurableFlow

namespace Site

variable {site after : Site} {told : String → List Passage}

/-- The sites that come about, and what is told until then. What is stored can be read
whenever a process restores. -/
inductive Lived (catalog : Catalog) (limit : Nat) (epoch : Instant) :
    Site → (String → List Passage) → Prop where
  | opened (ledger : Ledger) (policy : TimeoutPolicy) (serves : ledger.failing = [])
      (empty : ledger.suspended = []) :
      Lived catalog limit epoch (opened catalog limit (some ledger) epoch policy) fun _ => []
  | move {site : Site} {told : String → List Passage}
      (lived : Lived catalog limit epoch site told) (m : Move) :
      Lived catalog limit epoch (site.move m) fun execution =>
        told execution ++ site.passages m execution
  | restart {site : Site} {told : String → List Passage}
      (lived : Lived catalog limit epoch site told) (policy : TimeoutPolicy)
      (subscriptions : ∀ ledger, site.engine.ledger = some ledger →
        ∃ listed, ledger.listSubscriptions = .ok listed)
      (rereads : ∀ state ∈ site.engine.rows, state.reread = .ok state) (turns : Nat)
      (restored : ((site.restarted policy).alone turns).office.errands = []) :
      Lived catalog limit epoch ((site.restarted policy).alone turns) told

/-- What comes about by a schedule. -/
theorem Lived.play {catalog : Catalog} {limit : Nat} {epoch : Instant}
    (lived : Lived catalog limit epoch site told) (schedule : List Move) :
    Lived catalog limit epoch (site.play schedule) fun execution =>
      told execution ++ site.log execution schedule := by
  induction schedule generalizing site told with
  | nil => simpa [log] using lived
  | cons m rest ih =>
    have later := ih (lived.move m)
    simp only [List.append_assoc] at later
    exact later

/-- There is one row of a run at most. -/
theorem Filed.stored_of_mem (filed : site.Filed told) {execution : String} {state : Suspended}
    (member : state ∈ site.engine.stored execution) :
    site.engine.stored execution = [state] := by
  obtain ⟨only, alone⟩ : ∃ only, site.engine.stored execution = [only] :=
    List.length_eq_one_iff.mp (le_antisymm (filed.single execution) (List.length_pos_of_mem member))
  rw [alone, List.mem_singleton] at member
  rw [alone, member]

namespace Inherits

variable (inherits : Inherits site after)

include inherits

theorem stored_eq : after.engine.stored = site.engine.stored :=
  Engine.stored_of_ledger inherits.ledger

theorem issued {execution : String} (issued : site.engine.Issued execution) :
    after.engine.Issued execution := by
  obtain ⟨n, old, rfl⟩ := issued
  exact ⟨n, Nat.lt_of_lt_of_le old inherits.moments_le, rfl⟩

theorem now_le : site.engine.now ≤ after.engine.now := by
  have later := inherits.moments_le
  rw [Engine.now_eq, Engine.now_eq, inherits.epoch]
  omega

/-- What is pending again is what is stored. -/
theorem stored_of_pending (filed : site.Filed told) {execution : String} {state : Suspended}
    {alarm : Option Nat} (found : after.pending? execution = some ⟨state, alarm⟩) :
    site.engine.stored execution = [state] := by
  exact filed.stored_of_mem (inherits.stored execution state alarm found)

/-- The runs that are pending again wait, and all others that have ever begun are gone. -/
theorem kept (filed : site.Filed told) : ∃ lives', after.Kept lives' := by
  classical
  refine ⟨fun execution =>
    match after.pending? execution with
    | some pending => .waiting pending.state pending.alarm
    | none => if after.engine.Issued execution then .gone else .away, ?_⟩
  have nobody : ∀ entry, entry ∉ after.office.errands := by
    rw [inherits.errands]
    exact fun _ => List.not_mem_nil
  refine ⟨?_, inherits.orderly, ?_, fun entry member => absurd member (nobody entry),
    fun entry member => absurd member (nobody entry), fun execution state alarm => ?_,
    fun entry member => absurd member (nobody entry),
    fun entry member => absurd member (nobody entry),
    fun entry member => absurd member (nobody entry), fun execution further => ?_⟩
  · constructor
    · rw [inherits.runs]
      exact List.nodup_nil
    · rw [inherits.runs]
      exact List.forall_mem_nil _
  · rw [inherits.errands]
    exact List.nodup_nil
  · cases found : after.pending? execution with
    | none =>
      dsimp only
      split <;> simp
    | some pending =>
      obtain ⟨held, set⟩ := pending
      simp
  · cases found : after.pending? execution with
    | none =>
      simp only [found] at further
      by_contra unissued
      exact further (if_neg unissued)
    | some pending =>
      have row := inherits.stored_of_pending filed found
      exact inherits.issued (filed.issued execution (by simp [row]))

/-- The ledger has what it had, and so it has the runs that are pending again. -/
theorem filed (filed : site.Filed told) : after.Filed told := by
  have nobody : ∀ entry, entry ∉ after.office.errands := by
    rw [inherits.errands]
    exact fun _ => List.not_mem_nil
  refine ⟨filed.serves.of_ledger inherits.ledger, inherits.stored_eq ▸ filed.single,
    fun execution there => ?_, fun execution state alarm found => ?_, inherits.knowing,
    fun entry member => absurd member (nobody entry),
    fun entry member => absurd member (nobody entry), fun execution state member => ?_,
    fun entry member => absurd member (nobody entry), fun execution state member => ?_,
    filed.rising⟩
  · exact inherits.issued (filed.issued execution (inherits.stored_eq ▸ there))
  · rw [inherits.stored_eq]
    exact inherits.stored_of_pending filed found
  · obtain ⟨past, later⟩ := filed.stored execution state (inherits.stored_eq ▸ member)
    exact ⟨past.trans_le inherits.now_le, later⟩
  · obtain ⟨own, past⟩ := filed.past execution state member
    exact ⟨own, past.trans_le inherits.now_le⟩

end Inherits

/-- Whatever was pending is pending again, in the same state. -/
theorem Restored.pending_again (restored : Restored site after) (filed : site.Filed told)
    {execution : String} {state : Suspended} {alarm : Option Nat}
    (found : site.pending? execution = some ⟨state, alarm⟩) :
    ∃ alarm, after.pending? execution = some ⟨state, alarm⟩ := by
  have row := filed.pending execution state alarm found
  have there := restored.pending execution state (by rw [row]; exact List.mem_singleton_self _)
    (filed.knowing execution state alarm found)
  obtain ⟨⟨other, set⟩, again⟩ := Option.isSome_iff_exists.mp there
  have same := restored.stored_of_pending filed again
  rw [row, List.cons.injEq] at same
  rw [again, same.1]
  exact ⟨set, rfl⟩

theorem Filed.opened (catalog : Catalog) (limit : Nat) (ledger : Ledger) (epoch : Instant)
    (policy : TimeoutPolicy) (serves : ledger.failing = []) (empty : ledger.suspended = []) :
    (Site.opened catalog limit (some ledger) epoch policy).Filed fun _ => [] := by
  have nothing : ∀ execution,
      (Site.opened catalog limit (some ledger) epoch policy).engine.stored execution = [] := by
    simp [Engine.stored, Engine.rows, Site.opened, empty]
  refine ⟨⟨ledger, rfl, serves⟩, by simp [nothing], by simp [nothing], ?_, ?_, ?_, ?_,
    by simp [nothing], ?_, by simp, by simp⟩
  · intro execution state alarm found
    contradiction
  · intro execution state alarm found
    contradiction
  all_goals exact fun entry member => absurd member List.not_mem_nil

/-- In all that comes about, every run is in one place and the ledger keeps up with it. -/
theorem Lived.invariant {catalog : Catalog} {limit : Nat} {epoch : Instant}
    (lived : Lived catalog limit epoch site told) :
    (∃ lives, site.Kept lives) ∧ site.Filed told := by
  induction lived with
  | opened ledger policy serves empty =>
    exact ⟨⟨_, Kept.opened ..⟩, Filed.opened _ _ _ _ _ serves empty⟩
  | move lived m ih =>
    obtain ⟨⟨lives, kept⟩, filed⟩ := ih
    obtain ⟨lives', accounts⟩ := kept.accounts_move m
    exact ⟨⟨lives', accounts.kept⟩, filed.move kept m⟩
  | restart lived policy subscriptions rereads turns idle ih =>
    obtain ⟨⟨lives, kept⟩, filed⟩ := ih
    obtain ⟨enough, restored⟩ :=
      exists_restored _ policy filed.serves subscriptions rereads
    rw [alone_eq_of_idle idle restored.errands]
    exact ⟨restored.kept filed, restored.filed filed⟩

/-- After every step of every life, the ledger has exactly the state of each pending run, and
of a run that the engine has been asked to let go on it no longer has the state it goes on
from. Should the process die now, a fresh one that knows the same definitions and restores
has each of these runs pending again in the same state, and over all lives together the
engine is never asked to go on twice from the same pause. -/
theorem pending_crash_safe {catalog : Catalog} {limit : Nat} {epoch : Instant}
    (lived : Lived catalog limit epoch site told) :
    (∀ execution state alarm, site.pending? execution = some ⟨state, alarm⟩ →
        site.engine.stored execution = [state]) ∧
      (∀ execution state, .resumed state ∈ told execution → state ∉ site.engine.rows) ∧
      (∀ execution, ((told execution).filterMap Passage.resumed?).Nodup) ∧
      ∀ policy : TimeoutPolicy,
        (∀ ledger, site.engine.ledger = some ledger →
          ∃ listed, ledger.listSubscriptions = .ok listed) →
        (∀ state ∈ site.engine.rows, state.reread = .ok state) →
        ∃ turns, ((site.restarted policy).alone turns).office.errands = [] ∧
          ∀ execution state alarm, site.pending? execution = some ⟨state, alarm⟩ →
            ∃ alarm, ((site.restarted policy).alone turns).pending? execution =
              some ⟨state, alarm⟩ := by
  obtain ⟨_, filed⟩ := lived.invariant
  refine ⟨filed.pending, fun execution state resumed stored => ?_, fun execution => ?_,
    fun policy subscriptions rereads => ?_⟩
  · obtain ⟨own, _⟩ := filed.past execution state resumed
    obtain ⟨_, later⟩ := filed.stored state.execution state (Engine.mem_stored.mpr ⟨stored, rfl⟩)
    exact lt_irrefl state.pausedAt.nanos (later state (own ▸ resumed))
  · exact (filed.rising execution).imp fun earlier =>
      ne_of_apply_ne (fun state => state.pausedAt.nanos) earlier.ne
  · obtain ⟨turns, restored⟩ := exists_restored site policy filed.serves subscriptions rereads
    exact ⟨turns, restored.errands, fun execution state alarm => restored.pending_again filed⟩

/-- The process has begun to run a workflow that waits twice, and has come to its first wait. -/
def twiceWaiting : Site :=
  (opened [] 10 (some {}) ⟨0, 0⟩ .drop).play
    (.order (.run twice .null) :: List.replicate 20 (.turn 0))

theorem lived_twiceWaiting : Lived [] 10 ⟨0, 0⟩ twiceWaiting fun execution =>
    (opened [] 10 (some {}) ⟨0, 0⟩ .drop).log execution
      (.order (.run twice .null) :: List.replicate 20 (.turn 0)) := by
  have begins : Lived [] 10 ⟨0, 0⟩ (opened [] 10 (some {}) ⟨0, 0⟩ .drop) fun _ => [] :=
    .opened {} .drop rfl rfl
  have lived := begins.play (.order (.run twice .null) :: List.replicate 20 (.turn 0))
  simp only [List.nil_append] at lived
  exact lived

/-- What is stored of the run. -/
def firstWait : Suspended where
  workflow := "twice"
  execution := "00000000-0000-4000-8000-000000000000"
  node := "first"
  vars := []
  outputs := []
  history := ["first"]
  wait := { names := ["go"], filter := none }
  reason := "awaiting go"
  deadline := some ⟨1, 7⟩
  pausedAt := ⟨0, 7⟩
  startedAt := ⟨0, 0⟩

/-- What is stored of the run as a text. -/
def firstWaitText : String :=
  "\x7b\"currentNodeId\":\"first\"," ++
    "\"executionId\":\"00000000-0000-4000-8000-000000000000\",\"nodeOutputs\":\x7b\x7d," ++
    "\"nodesExecuted\":[\"first\"],\"pausedAt\":\"1970-01-01T00:00:00.000000007Z\"," ++
    "\"reason\":\"awaiting go\",\"startedAt\":\"1970-01-01T00:00:00Z\"," ++
    "\"timeoutAt\":\"1970-01-01T00:00:01.000000007Z\",\"variables\":\x7b\x7d," ++
    "\"waitingFor\":\x7b\"procedures\":[\"go\"]\x7d,\"workflowId\":\"twice\"\x7d"

theorem compact_firstWait : firstWait.toData.compact = firstWaitText := by
  have data : firstWait.toData = .obj [("currentNodeId", .str "first"),
      ("executionId", .str "00000000-0000-4000-8000-000000000000"), ("nodeOutputs", .obj []),
      ("nodesExecuted", .arr [.str "first"]), ("pausedAt", .str "1970-01-01T00:00:00.000000007Z"),
      ("reason", .str "awaiting go"), ("startedAt", .str "1970-01-01T00:00:00Z"),
      ("timeoutAt", .str "1970-01-01T00:00:01.000000007Z"), ("variables", .obj []),
      ("waitingFor", .obj [("procedures", .arr [.str "go"])]), ("workflowId", .str "twice")] := by
    rfl
  rw [data]
  simp (disch := decide) only [Data.compact, Data.compactFields, Data.compactItems,
    Data.quoted_of_plain, -String.reduceAppend]
  decide +kernel

/-- The text as it stands. -/
def firstWaitSource : Source :=
  .obj [("currentNodeId", .str "first"),
    ("executionId", .str "00000000-0000-4000-8000-000000000000"), ("nodeOutputs", .obj [] none),
    ("nodesExecuted", .arr [.str "first"] none),
    ("pausedAt", .str "1970-01-01T00:00:00.000000007Z"), ("reason", .str "awaiting go"),
    ("startedAt", .str "1970-01-01T00:00:00Z"),
    ("timeoutAt", .str "1970-01-01T00:00:01.000000007Z"), ("variables", .obj [] none),
    ("waitingFor", .obj [("procedures", .arr [.str "go"] none)] none),
    ("workflowId", .str "twice")] none

set_option maxRecDepth 4000 in
theorem read_firstWaitText : Source.read firstWaitText = (firstWaitSource, none) := by
  have joined : ∀ first second third fourth fifth sixth : List Char,
      String.ofList first ++ String.ofList second ++ String.ofList third ++
          String.ofList fourth ++ String.ofList fifth ++ String.ofList sixth =
        String.ofList (first ++ second ++ third ++ fourth ++ fifth ++ sixth) := by
    intros
    simp only [String.ofList_append]
  exact (congrArg Source.read (joined _ _ _ _ _ _)).trans
    ((Source.read_eq String.toList_ofList).trans rfl)

theorem reread_firstWait : firstWait.reread = .ok firstWait := by
  have decoded : Suspended.decode firstWait.startedAt firstWaitSource = .ok firstWait := by
    decide +kernel
  simp only [Suspended.reread, compact_firstWait, Source.decodeText, read_firstWaitText, decoded]
  rfl

theorem rows_twiceWaiting : twiceWaiting.engine.rows = [firstWait] := by
  rfl

theorem rereads_twiceWaiting : ∀ state ∈ twiceWaiting.engine.rows, state.reread = .ok state := by
  intro state member
  rw [rows_twiceWaiting, List.mem_singleton] at member
  rw [member, reread_firstWait]

/-- The process dies while the run waits, and the next one has the run. -/
theorem pending_crash_safe_twice :
    ∃ turns, ((twiceWaiting.restarted .drop).alone turns).office.errands = [] ∧
      ∃ alarm, ((twiceWaiting.restarted .drop).alone turns).pending? (Id.fresh 0) =
        some ⟨firstWait, alarm⟩ := by
  have subscriptions : ∀ ledger, twiceWaiting.engine.ledger = some ledger →
      ∃ listed, ledger.listSubscriptions = .ok listed := by
    intro ledger known
    cases known
    exact ⟨[], rfl⟩
  obtain ⟨_, _, _, again⟩ := pending_crash_safe lived_twiceWaiting
  obtain ⟨turns, idle, pending⟩ := again .drop subscriptions rereads_twiceWaiting
  exact ⟨turns, idle, pending _ _ (some 0) rfl⟩

end Site

end DurableFlow
