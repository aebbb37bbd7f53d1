import DurableFlow.Procedure.Builtin
import DurableFlow.Proofs.Data.Except
import DurableFlow.Proofs.Data.Merging
import DurableFlow.Proofs.Engine.Stored

/-!
# The ends of waits

An instant that a clock shows is a point of the time line, and as long as the calendar goes that
far, adding a duration to it adds on the time line. The duration of a wait counts as a signed
number of 64 bits: from `2 ^ 63` milliseconds on it is taken for a negative one. Such a wait is
over before it begins, and a wait whose end no calendar has cannot be begun at all.
-/

namespace DurableFlow

namespace Instant

variable {t u : Instant}

/-- An instant that a clock may show: a second of the calendar, with a part of a second. -/
structure Regular (t : Instant) : Prop where
  second : inCalendar t.second = true
  nano : t.nano < 10 ^ (9 : Nat)

/-- The calendar goes as far as this many nanoseconds after the start of 1970. -/
def Reached (nanos : Int) : Prop := ∃ t : Instant, t.Regular ∧ t.nanos = nanos

theorem Regular.eq (regular : t.Regular) (regular' : u.Regular) (same : t.nanos = u.nanos) :
    t = u := by
  have low := regular.nano
  have low' := regular'.nano
  obtain ⟨second, nano⟩ := t
  obtain ⟨second', nano'⟩ := u
  dsimp only [nanos] at *
  have seconds : second = second' := by omega
  have nanos : nano = nano' := by omega
  rw [seconds, nanos]

/-- Nanoseconds are added on the time line, as far as the calendar goes. -/
theorem Regular.addNanos? (regular : t.Regular) (n : Int) :
    (∃ u, t.addNanos? n = some u ∧ u.Regular ∧ u.nanos = t.nanos + n) ∨
      t.addNanos? n = none ∧ ¬ Reached (t.nanos + n) := by
  have low := regular.nano
  have leapless : ¬ 10 ^ (9 : Nat) ≤ t.nano := by omega
  obtain ⟨second, nano⟩ := t
  have parts := Int.mul_fdiv_add_fmod ((nano : Int) + n) (10 ^ (9 : Nat))
  have least : 0 ≤ ((nano : Int) + n).fmod (10 ^ (9 : Nat)) := Int.fmod_nonneg_of_pos _ (by decide)
  have less : ((nano : Int) + n).fmod (10 ^ (9 : Nat)) < 10 ^ (9 : Nat) :=
    Int.fmod_lt_of_pos _ (by decide)
  simp only [Instant.addNanos?, leapless, false_and, if_false]
  generalize ((nano : Int) + n).fdiv (10 ^ (9 : Nat)) = whole at *
  generalize ((nano : Int) + n).fmod (10 ^ (9 : Nat)) = part at *
  by_cases inside : inCalendar (second + whole) = true
  · left
    refine ⟨⟨second + whole, part.toNat⟩, by rw [if_pos inside], ⟨inside, ?_⟩, ?_⟩
    · show part.toNat < 10 ^ (9 : Nat)
      omega
    · show (second + whole) * 10 ^ (9 : Nat) + (part.toNat : Int) =
        second * 10 ^ (9 : Nat) + nano + n
      omega
  · right
    refine ⟨by rw [if_neg inside], ?_⟩
    rintro ⟨⟨second', nano'⟩, ⟨reaches, low'⟩, same⟩
    apply inside
    dsimp only [nanos] at *
    have is : second + whole = second' := by omega
    rw [is]
    exact reaches

/-- Milliseconds are added on the time line, as far as the calendar goes. -/
theorem Regular.addMillis? (regular : t.Regular) (millis : Int) :
    (∃ u, t.addMillis? millis = some u ∧ u.Regular ∧ u.nanos = t.nanos + millis * 10 ^ (6 : Nat)) ∨
      t.addMillis? millis = none ∧ ¬ Reached (t.nanos + millis * 10 ^ (6 : Nat)) :=
  regular.addNanos? _

theorem Regular.nanosUntil (regular : t.Regular) (regular' : u.Regular) :
    t.nanosUntil u = u.nanos - t.nanos := by
  have low := regular.nano
  have low' := regular'.nano
  have leap : ¬ 10 ^ (9 : Nat) ≤ t.nano := by omega
  have leap' : ¬ 10 ^ (9 : Nat) ≤ u.nano := by omega
  simp only [Instant.nanosUntil, leap, leap', if_false, ite_self, nanos]
  omega

/-- What one instant of the calendar lies after another one. -/
theorem Regular.span (regular : t.Regular) (regular' : u.Regular) :
    u.nanos - t.nanos < 2 ^ (63 : Nat) * 10 ^ (6 : Nat) ∧
      -(2 ^ (63 : Nat) * 10 ^ (6 : Nat)) < u.nanos - t.nanos := by
  have first : minSecond = -8334601228800 := by decide
  have last : maxSecond = 8210266876799 := by decide
  have inside := regular.second
  have inside' := regular'.second
  have low := regular.nano
  have low' := regular'.nano
  simp only [inCalendar, Bool.and_eq_true, decide_eq_true_eq, first, last] at inside inside'
  dsimp only [nanos]
  omega

end Instant

namespace AwaitTimeout

/-- The milliseconds that a duration counts as: a signed number of 64 bits. -/
def counted (timeout : AwaitTimeout) : Int := Int.bmod timeout.durationMs (2 ^ (64 : Nat))

variable {timeout : AwaitTimeout}

theorem two_pow_64 : ((2 ^ (64 : Nat) : Nat) : Int) = 18446744073709551616 := Int.natCast_pow 2 64

theorem bmod_of_lt {duration : Nat} (short : duration < 2 ^ (63 : Nat)) :
    Int.bmod duration (2 ^ (64 : Nat)) = duration := by
  rw [Int.bmod_def, two_pow_64]
  split <;> omega

theorem bmod_of_ge {duration : Nat} (long : 2 ^ (63 : Nat) ≤ duration)
    (held : duration < 2 ^ (64 : Nat)) :
    Int.bmod duration (2 ^ (64 : Nat)) = duration - 2 ^ (64 : Nat) := by
  rw [Int.bmod_def, two_pow_64]
  split <;> omega

/-- A duration below `2 ^ 63` counts as it is. -/
theorem counted_of_lt (short : timeout.durationMs < 2 ^ (63 : Nat)) :
    timeout.counted = timeout.durationMs :=
  bmod_of_lt short

/-- Other durations count as less than nothing. -/
theorem counted_of_ge (long : 2 ^ (63 : Nat) ≤ timeout.durationMs)
    (held : timeout.durationMs < 2 ^ (64 : Nat)) :
    timeout.counted = timeout.durationMs - 2 ^ (64 : Nat) :=
  bmod_of_ge long held

end AwaitTimeout

namespace Suspended

variable {now : Instant} {context : Context} {node : String} {pause : Pause}
  {timeout : AwaitTimeout} {state : Suspended}

/-- The wait of a run that pauses now ends this many milliseconds later, and what remains of it
at any instant is what lies between the instant and its end. -/
structure EndsAfter (state : Suspended) (now : Instant) (millis : Int) : Prop where
  pausedAt : state.pausedAt = now
  deadline : ∃ deadline, state.deadline = some deadline ∧ deadline.Regular ∧
    deadline.nanos = now.nanos + millis * 10 ^ (6 : Nat)
  remaining : ∀ later : Instant, later.Regular → ∃ left : Nat,
    state.remaining later = some left ∧
      (left : Int) = max 0 (now.nanos + millis * 10 ^ (6 : Nat) - later.nanos)

theorem remaining_of_deadline {deadline later : Instant} (ends : state.deadline = some deadline)
    (regular : deadline.Regular) (shown : later.Regular) :
    ∃ left : Nat, state.remaining later = some left ∧
      (left : Int) = max 0 (deadline.nanos - later.nanos) := by
  refine ⟨(deadline.nanos - later.nanos).toNat, ?_, ?_⟩
  · rw [remaining, ends, Option.map_some, shown.nanosUntil regular]
  · generalize deadline.nanos - later.nanos = between
    omega

/-- The wait of a run that pauses ends after as many milliseconds as its duration counts as, and
there is no suspended run where the calendar does not go so far. -/
theorem capture?_counted (context : Context) (node : String) (regular : now.Regular)
    (limited : pause.timeout = some timeout) :
    (∃ state, capture? now context node pause = some state ∧
        state.EndsAfter now timeout.counted ∧ timeout.counted ≠ -(2 ^ (63 : Nat))) ∨
      capture? now context node pause = none ∧
        (timeout.counted = -(2 ^ (63 : Nat)) ∨
          ¬ Instant.Reached (now.nanos + timeout.counted * 10 ^ (6 : Nat))) := by
  have deadlines : deadlineOf? now timeout =
      if timeout.counted = -(2 ^ (63 : Nat)) then none else now.addMillis? timeout.counted := rfl
  by_cases least : timeout.counted = -(2 ^ (63 : Nat))
  · right
    refine ⟨?_, .inl least⟩
    simp only [capture?, limited, deadlines, if_pos least, Option.map_none]
  rw [if_neg least] at deadlines
  rcases regular.addMillis? timeout.counted with
    ⟨deadline, added, inside, nanos⟩ | ⟨missing, beyond⟩
  · left
    rw [added] at deadlines
    refine ⟨_, by rw [capture?, limited]; simp only [deadlines, Option.map_some]; rfl, ?_, least⟩
    refine ⟨rfl, ⟨deadline, rfl, inside, nanos⟩, fun later shown => ?_⟩
    rw [← nanos]
    exact remaining_of_deadline rfl inside shown
  · right
    rw [missing] at deadlines
    refine ⟨?_, .inr beyond⟩
    simp only [capture?, limited, deadlines, Option.map_none]

/-- A pass whose run cannot be suspended has no result. -/
theorem result_of_capture? :
    (Conclusion.suspended node pause).result now context = .error .dateRange ↔
      capture? now context node pause = none := by
  rw [Conclusion.result]
  cases capture? now context node pause with
  | none => simp
  | some state => simp

end Suspended

namespace Builtin

variable {moment : Moment} {input : Data} {url : String} {ttl : Int}

/-- The end of a channel lies on the time line, as far as the calendar goes. -/
theorem expiration?_iff (ttl : Int) (regular : moment.now.Regular) :
    (∃ expiry, expiration? moment.now ttl = some expiry ∧ expiry.Regular ∧
        expiry.nanos = moment.now.nanos + ttl * 10 ^ (9 : Nat)) ∨
      expiration? moment.now ttl = none ∧
        ¬ Instant.Reached (moment.now.nanos + ttl * 10 ^ (9 : Nat)) := by
  have seconds : ttl * 1000 * 10 ^ (6 : Nat) = ttl * 10 ^ (9 : Nat) := by omega
  by_cases counts : -(2 ^ (63 : Nat)) < ttl * 1000 ∧ ttl * 1000 < 2 ^ (63 : Nat)
  · have added := regular.addMillis? (ttl * 1000)
    rw [seconds] at added
    rw [expiration?, if_pos counts]
    exact added
  · right
    refine ⟨by rw [expiration?, if_neg counts], ?_⟩
    rintro ⟨reached, inside, nanos⟩
    have span := regular.span inside
    omega

/-- A channel that lives for some seconds is not set up exactly where the calendar does not go as
far as its end; otherwise the end is told. -/
theorem watch_reply (invocation : Invocation) (regular : moment.now.Regular)
    (callback : text? input "webhookUrl" = some url)
    (lives : input.field? "ttlSeconds" = some (.num (.int ttl))) (held : ttl < 2 ^ (63 : Nat)) :
    (∃ (expiry : Instant) (value : Data), watch.reply moment invocation input = .output value ∧
        value.field? "expiration" = some (.str expiry.offsetText) ∧ expiry.Regular ∧
        expiry.nanos = moment.now.nanos + ttl * 10 ^ (9 : Nat)) ∨
      watch.reply moment invocation input = .dateRange ∧
        ¬ Instant.Reached (moment.now.nanos + ttl * 10 ^ (9 : Nat)) := by
  have whole : (Number.int ttl).toInt64? = some ttl := by rw [Number.toInt64?, if_pos held]
  rcases expiration?_iff ttl regular with ⟨expiry, found, inside, nanos⟩ | ⟨missing, beyond⟩
  · left
    refine ⟨expiry, _, by simp only [watch, callback, lives, whole, found]; rfl, ?_, inside, nanos⟩
    show Fields.get? (Fields.merge [] (_ ++ [_])) "expiration" = _
    rw [Fields.merge_merge, Fields.merge_cons, Fields.merge_nil, Fields.get?_insert_self]
  · right
    exact ⟨by simp only [watch, callback, lives, whole, missing], beyond⟩

end Builtin

section Waits

variable {now : Instant} {timeout : AwaitTimeout}

/-- When a wait ends. One of less than `2 ^ 63` milliseconds ends when it says, unless the calendar
ends before it. A longer one ends before it begins, by what its duration falls short of `2 ^ 64`,
so nothing of it ever remains. Where that is no date either, the pass of the run breaks off
without a result, as it does at `2 ^ 63` milliseconds exactly. A channel ends when it says, unless
the calendar ends before it, and then the procedure breaks down. -/
theorem waits_end_as_counted (context : Context) (node : String) (pause : Pause)
    (regular : now.Regular) (limited : pause.timeout = some timeout)
    (held : timeout.durationMs < 2 ^ (64 : Nat)) :
    (timeout.durationMs < 2 ^ (63 : Nat) →
        (Instant.Reached (now.nanos + timeout.durationMs * 10 ^ (6 : Nat)) →
          ∃ state, Suspended.capture? now context node pause = some state ∧
            state.EndsAfter now timeout.durationMs) ∧
        (¬ Instant.Reached (now.nanos + timeout.durationMs * 10 ^ (6 : Nat)) →
          (Conclusion.suspended node pause).result now context = .error .dateRange)) ∧
      (timeout.durationMs = 2 ^ (63 : Nat) →
        (Conclusion.suspended node pause).result now context = .error .dateRange) ∧
      (2 ^ (63 : Nat) < timeout.durationMs →
        (Instant.Reached (now.nanos - (2 ^ (64 : Nat) - timeout.durationMs) * 10 ^ (6 : Nat)) →
          ∃ state, Suspended.capture? now context node pause = some state ∧
            state.EndsAfter now (timeout.durationMs - 2 ^ (64 : Nat)) ∧
            ∀ later : Instant, later.Regular → now.nanos ≤ later.nanos →
              state.remaining later = some 0) ∧
        (¬ Instant.Reached (now.nanos - (2 ^ (64 : Nat) - timeout.durationMs) * 10 ^ (6 : Nat)) →
          (Conclusion.suspended node pause).result now context = .error .dateRange)) ∧
      ∀ (moment : Moment) (invocation : Invocation) (input : Data) (url : String) (ttl : Int),
        moment.now.Regular → Builtin.text? input "webhookUrl" = some url →
        input.field? "ttlSeconds" = some (.num (.int ttl)) → ttl < 2 ^ (63 : Nat) →
        (Builtin.watch.reply moment invocation input = .dateRange ↔
            ¬ Instant.Reached (moment.now.nanos + ttl * 10 ^ (9 : Nat))) ∧
          ∀ value, Builtin.watch.reply moment invocation input = .output value →
            ∃ last : Instant, value.field? "expiration" = some (.str last.offsetText) ∧
              last.Regular ∧ last.nanos = moment.now.nanos + ttl * 10 ^ (9 : Nat) := by
  have captured := Suspended.capture?_counted context node regular limited
  refine ⟨fun short => ?within, fun least => ?bound, fun long => ?beyond, ?channels⟩
  case within =>
    rw [AwaitTimeout.counted_of_lt short] at captured
    rcases captured with ⟨state, found, ends, -⟩ | ⟨missing, least | unreached⟩
    · refine ⟨fun _ => ⟨state, found, ends⟩, fun unreached => ?_⟩
      obtain ⟨deadline, -, inside, nanos⟩ := ends.deadline
      exact absurd ⟨deadline, inside, nanos⟩ unreached
    · omega
    · exact ⟨fun reached => absurd reached unreached,
        fun _ => Suspended.result_of_capture?.mpr missing⟩
  case bound =>
    rw [AwaitTimeout.counted_of_ge (by omega) held] at captured
    rcases captured with ⟨state, -, -, other⟩ | ⟨missing, -⟩
    · omega
    · exact Suspended.result_of_capture?.mpr missing
  case beyond =>
    rw [AwaitTimeout.counted_of_ge (by omega) held] at captured
    have back : now.nanos - (2 ^ (64 : Nat) - (timeout.durationMs : Int)) * 10 ^ (6 : Nat) =
        now.nanos + ((timeout.durationMs : Int) - 2 ^ (64 : Nat)) * 10 ^ (6 : Nat) := by omega
    rw [back]
    rcases captured with ⟨state, found, ends, -⟩ | ⟨missing, least | unreached⟩
    · refine ⟨fun _ => ⟨state, found, ends, fun later shown after => ?_⟩, fun unreached => ?_⟩
      · obtain ⟨left, remains, least⟩ := ends.remaining later shown
        have nothing : left = 0 := by omega
        rw [remains, nothing]
      · obtain ⟨deadline, -, inside, nanos⟩ := ends.deadline
        exact absurd ⟨deadline, inside, nanos⟩ unreached
    · omega
    · exact ⟨fun reached => absurd reached unreached,
        fun _ => Suspended.result_of_capture?.mpr missing⟩
  case channels =>
    intro moment invocation input url ttl shown callback lives small
    rcases Builtin.watch_reply invocation shown callback lives small with
      ⟨last, value, replies, told, inside, nanos⟩ | ⟨replies, unreached⟩
    · refine ⟨?_, fun other is => ?_⟩
      · rw [replies]
        exact iff_of_false nofun fun unreached => unreached ⟨last, inside, nanos⟩
      · rw [replies] at is
        cases is
        exact ⟨last, told, inside, nanos⟩
    · refine ⟨iff_of_true replies unreached, fun value is => ?_⟩
      rw [replies] at is
      cases is

/-- A workflow that waits for an event as long as it is told. -/
def enduring (durationMs : Nat) : Definition where
  id := "enduring"
  name := "enduring"
  start := "hold"
  nodes := [{ id := "hold", kind := .await ["go"] none (some ⟨durationMs, none⟩) }]

/-- How a run of it pauses. -/
def holding (durationMs : Nat) : Pause := .awaiting ["go"] none (some ⟨durationMs, none⟩)

/-- What a channel is asked for that lives for some seconds. -/
def callback (ttl : Int) : Data :=
  .obj [("ttlSeconds", .num (.int ttl)), ("webhookUrl", .str "http://host/")]

/-- A run that has come there. -/
def arrived : Context := .start "enduring" "run" [] ⟨0, 0⟩

/-- A wait of a second ends after it, one of all but a millisecond of `2 ^ 64` milliseconds is over
when it begins, and a channel of a minute ends after it. -/
theorem waits_end_as_counted_holding :
    (∃ state, Suspended.capture? ⟨0, 0⟩ arrived "hold" (holding 1000) = some state ∧
        state.EndsAfter ⟨0, 0⟩ 1000) ∧
      (∃ state,
        Suspended.capture? ⟨0, 0⟩ arrived "hold" (holding (2 ^ (64 : Nat) - 1)) = some state ∧
          state.remaining ⟨0, 0⟩ = some 0) ∧
      Builtin.watch.reply ⟨⟨0, 0⟩, 0⟩ ⟨"enduring", "run", none⟩ (callback 60) ≠ .dateRange := by
  have origin : (Instant.mk 0 0).Regular := ⟨by decide, by decide⟩
  obtain ⟨short, -, -, channels⟩ :=
    waits_end_as_counted arrived "hold" (holding 1000) origin rfl (by decide)
  obtain ⟨-, -, long, -⟩ :=
    waits_end_as_counted arrived "hold" (holding (2 ^ (64 : Nat) - 1)) origin rfl (by decide)
  refine ⟨?_, ?_, ?_⟩
  · exact (short (by decide)).1 ⟨⟨1, 0⟩, ⟨by decide, by decide⟩, by decide⟩
  · obtain ⟨state, found, -, passed⟩ :=
      (long (by decide)).1 ⟨⟨-1, 999000000⟩, ⟨by decide, by decide⟩, by decide⟩
    exact ⟨state, found, passed ⟨0, 0⟩ origin (Int.le_refl _)⟩
  · intro breaks
    obtain ⟨broken, -⟩ := channels ⟨⟨0, 0⟩, 0⟩ ⟨"enduring", "run", none⟩ (callback 60)
      "http://host/" 60 origin rfl rfl (by decide)
    exact broken.mp breaks ⟨⟨60, 0⟩, ⟨by decide, by decide⟩, by decide⟩

/-- Definitions without problems whose runs pause with a wait that is over before it begins, and
break off where they should pause; and a channel that cannot be set up. -/
theorem overlong_waits :
    (enduring (2 ^ (64 : Nat) - 1)).Valid (fun _ => false) ∧
      (enduring (2 ^ (63 : Nat))).Valid (fun _ => false) ∧
      (∀ durationMs : Nat, ((Run.start (enduring durationMs)
          (.start "enduring" "run" [] ⟨1, 0⟩) 10 ["hold"]).play []
            (List.replicate 6 (.step .driver ⟨⟨1, 0⟩, 0⟩ 0))).drive =
        .concluded (.suspended "hold" (holding durationMs))) ∧
      (∃ state, Suspended.capture? ⟨1, 0⟩ (.start "enduring" "run" [] ⟨1, 0⟩) "hold"
          (holding (2 ^ (64 : Nat) - 1)) = some state ∧
        state.deadline = some ⟨0, 999000000⟩ ∧ state.remaining ⟨1, 0⟩ = some 0) ∧
      (Conclusion.suspended "hold" (holding (2 ^ (63 : Nat)))).result ⟨1, 0⟩
          (.start "enduring" "run" [] ⟨1, 0⟩) = .error .dateRange ∧
      Builtin.watch.reply ⟨⟨1, 0⟩, 0⟩ ⟨"enduring", "run", none⟩ (callback (2 ^ (63 : Nat) - 1)) =
        .dateRange := by
  refine ⟨by decide +kernel, by decide +kernel, fun _ => rfl, ?_, ?_, ?_⟩
  · exact ⟨_, rfl, by decide +kernel, by decide +kernel⟩
  · rfl
  · rfl

end Waits

end DurableFlow
