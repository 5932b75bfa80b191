import FieldCalculus.Proofs.Precision
import FieldCalculus.Retry
import Mathlib.Algebra.BigOperators.Group.Finset.Basic

/-!
Retrying, from the first call to the last. The calls carry the numbers from zero on, they end with
the first success or when the retries are used up, and each comes when all pauses before it have
been slept through. That a pause can be computed at all needs a bound on the first one: it is doubled in floating
point before it is cut, and the product must still be a time span.
-/

namespace FieldCalculus

namespace Backoff

variable {b : Backoff} {t times : Nat}

/-! ## Pauses -/

theorem atMost_seconds (ht : t < 2 ^ 33 * perSecond) : (seconds t).AtMost (2 ^ 33) := by
  have hwhole : t / perSecond < 2 ^ 33 := (Nat.div_lt_iff_lt_mul (by decide)).mpr ht
  have hrest : t % perSecond < perSecond := Nat.mod_lt t (by decide)
  have hsecond : perSecond = 1000000000 := rfl
  have hfraction := (Number.atMost_ofNat (by omega : t % perSecond ≤ 2 ^ 53)).div_ofNat
    (by omega : perSecond ≤ 2 ^ 53) (by omega) (by decide : 0 < 1024) (by omega)
  exact (Number.atMost_ofNat (by omega)).add hfraction (by decide) (by omega)

/-- Thirty doublings lead from less than `2 ^ 33` seconds to no more than `2 ^ 63`. -/
theorem exists_doubled (ht : t < 2 ^ 33 * perSecond) (htimes : times ≤ mostDoublings) :
    ∃ long, doubled? t times = some long := by
  have hfactor : 1 <<< times ≤ 2 ^ 30 := by
    rw [Nat.shiftLeft_eq, Nat.one_mul]
    exact Nat.pow_le_pow_right (by decide) htimes
  have hproduct := (Number.atMost_ofNat (by omega : 1 <<< times ≤ 2 ^ 53)).mul (atMost_seconds ht)
    (by decide : 63 < 1024) (by omega)
  have hlimit : 2 ^ 63 * Number.unitsPerOne < secondsLimit * Number.unitsPerOne :=
    Nat.mul_lt_mul_of_pos_right (by decide) Number.unitsPerOne_pos
  refine ⟨_, if_pos ?_⟩
  exact hproduct.units_le.trans_lt hlimit

/-- A pause is cut to the longest one. -/
theorem exists_pause (hbase : b.baseDelay < 2 ^ 33 * perSecond) (attempt : Nat) :
    ∃ pause ≤ b.maxDelay, b.pause? attempt = some pause := by
  obtain ⟨long, hlong⟩ := exists_doubled hbase (Nat.min_le_right attempt mostDoublings)
  refine ⟨min long b.maxDelay, Nat.min_le_right _ _, ?_⟩
  simp [pause?, hlong]

theorem not_jittered (hjitter : b.jitter.isNaN = false ∧
    (b.jitter.isNegative = true ∨ b.jitter.isZero = true)) : b.isJittered = false := by
  obtain ⟨hnumber, hnegative | hzero⟩ := hjitter
  · simp [isJittered, hnumber, hnegative]
  · simp [isJittered, hnumber, hzero]

/-- Without jitter the pauses depend on the attempts alone. -/
theorem exists_delays (hjitter : b.isJittered = false)
    (hbase : b.baseDelay < 2 ^ 33 * perSecond) :
    ∃ delay : Nat → Nanoseconds, ∀ attempt,
      delay attempt ≤ b.maxDelay ∧ ∀ draw, b.delay? attempt draw = some (delay attempt) := by
  choose delay hmost hpause using exists_pause hbase
  refine ⟨delay, fun attempt => ⟨hmost attempt, fun draw => ?_⟩⟩
  simp [delay?, hpause, hjitter]

end Backoff

/-! ## What an operation comes to -/

namespace Operation

variable {σ ε α : Type}

/-- What is left behind when the first attempts have been made in order. -/
def stateAt (operation : Operation σ ε α) (s : σ) : Nat → σ
  | 0 => s
  | attempts + 1 => ((operation attempts).run (stateAt operation s attempts)).2

/-- What an attempt comes to when all before it have been made in order. -/
def answerAt (operation : Operation σ ε α) (s : σ) (attempt : Nat) : Except ε α :=
  ((operation attempt).run (operation.stateAt s attempt)).1

theorem run_stateAt (operation : Operation σ ε α) (s : σ) (attempt : Nat) :
    (operation attempt).run (operation.stateAt s attempt) =
      (operation.answerAt s attempt, operation.stateAt s (attempt + 1)) := rfl

end Operation

/-! ## The loop -/

namespace Retried

variable {σ ε α : Type} {sleep : Nanoseconds → Nanoseconds} {delay? : Nat → Option Nanoseconds}
  {operation : Operation σ ε α} {s : σ} {retries attempt : Nat} {time : Nanoseconds}

theorem run_last :
    (startingAt sleep delay? operation 0 attempt time).run (operation.stateAt s attempt) =
      (⟨[⟨attempt, time⟩], some (operation.answerAt s attempt)⟩,
        operation.stateAt s (attempt + 1)) := rfl

/-- A success ends the loop. -/
theorem run_ok {a : α} (hanswer : operation.answerAt s attempt = .ok a) :
    (startingAt sleep delay? operation (retries + 1) attempt time).run
        (operation.stateAt s attempt) =
      (⟨[⟨attempt, time⟩], some (.ok a)⟩, operation.stateAt s (attempt + 1)) := by
  have hrun := operation.run_stateAt s attempt
  rw [hanswer] at hrun
  rw [startingAt, StateT.run_bind, hrun]
  rfl

/-- After a failure the loop goes on with the next attempt when the timer has slept. -/
theorem run_error {e : ε} {pause : Nanoseconds} (hanswer : operation.answerAt s attempt = .error e)
    (hpause : delay? attempt = some pause) :
    (startingAt sleep delay? operation (retries + 1) attempt time).run
        (operation.stateAt s attempt) =
      let rest := (startingAt sleep delay? operation retries (attempt + 1) (time + sleep pause)).run
        (operation.stateAt s (attempt + 1))
      ({ rest.1 with calls := ⟨attempt, time⟩ :: rest.1.calls }, rest.2) := by
  have hrun := operation.run_stateAt s attempt
  rw [hanswer] at hrun
  rw [startingAt, StateT.run_bind, hrun]
  simp only [hpause]
  rfl

/-- The time at which an attempt is made, given how long each pause lasts: all before it are
over. -/
def startTime (lasts : Nat → Nanoseconds) (attempt : Nat) : Nanoseconds :=
  ∑ earlier ∈ Finset.range attempt, lasts earlier

theorem startTime_succ (lasts : Nat → Nanoseconds) (attempt : Nat) :
    startTime lasts (attempt + 1) = startTime lasts attempt + lasts attempt :=
  Finset.sum_range_succ lasts attempt

theorem startTime_congr {lasts lasts' : Nat → Nanoseconds} {attempt : Nat}
    (h : ∀ earlier < attempt, lasts earlier = lasts' earlier) :
    startTime lasts attempt = startTime lasts' attempt :=
  Finset.sum_congr rfl fun earlier hearlier => h earlier (Finset.mem_range.mp hearlier)

/-- From an attempt on, made at its time, the calls go up to one that succeeds or is the last. -/
theorem run_startingAt (operation : Operation σ ε α) (s : σ) {delay : Nat → Nanoseconds}
    (hdelay : ∀ attempt, delay? attempt = some (delay attempt))
    (retries attempt : Nat) :
    let lasts := fun k => sleep (delay k)
    ∃ more ≤ retries,
      (startingAt sleep delay? operation retries attempt (startTime lasts attempt)).run
          (operation.stateAt s attempt) =
        (⟨(List.range' attempt (more + 1)).map fun k => ⟨k, startTime lasts k⟩,
          some (operation.answerAt s (attempt + more))⟩,
          operation.stateAt s (attempt + more + 1)) ∧
      (∀ k, attempt ≤ k → k < attempt + more → ∃ e, operation.answerAt s k = .error e) ∧
      ((∃ a, operation.answerAt s (attempt + more) = .ok a) ∨ more = retries) := by
  intro lasts
  induction retries generalizing attempt with
  | zero => exact ⟨0, Nat.le_refl 0, run_last, by omega, Or.inr rfl⟩
  | succ retries ih =>
      cases hanswer : operation.answerAt s attempt with
      | ok a =>
          refine ⟨0, Nat.zero_le _, ?_, by omega, Or.inl ⟨a, hanswer⟩⟩
          simp [run_ok hanswer, hanswer]
      | error e =>
          obtain ⟨more, hmore, hrun, hfailed, hended⟩ := ih (attempt + 1)
          have hnext : attempt + (more + 1) = attempt + 1 + more := by omega
          refine ⟨more + 1, Nat.succ_le_succ hmore, ?_, ?_, ?_⟩
          · rw [run_error hanswer (hdelay attempt), ← startTime_succ lasts, hrun, hnext]
            rfl
          · intro k hfrom hbelow
            rcases Nat.eq_or_lt_of_le hfrom with rfl | hlater
            · exact ⟨e, hanswer⟩
            · exact hfailed k hlater (by omega)
          · rw [hnext]
            exact hended.imp_right fun heq => congrArg (· + 1) heq

end Retried

/-- Without jitter, and with a first pause below `2 ^ 33` seconds, every pause is known before and
no longer than the longest one. Suppose that the timer sleeps for exactly the pauses that it is asked
for, as it does for whole milliseconds. Whatever the operation comes to and leaves behind, it is
called with the attempts from zero on, each when the pauses before it are over, and at most once
more than there are retries. All calls but the last one fail; the last one succeeds or uses up the
retries, and what it comes to is the outcome. -/
theorem Backoff.retry_until_success_or_spent {σ ε α : Type} (b : Backoff)
    (sleep : Nanoseconds → Nanoseconds) (draw : Nat → Int) (operation : Operation σ ε α) (s : σ)
    (hjitter : b.jitter.isNaN = false ∧ (b.jitter.isNegative = true ∨ b.jitter.isZero = true))
    (hbase : b.baseDelay < 2 ^ 33 * perSecond)
    (hsleep : ∀ attempt < b.maxRetries, ∀ pause,
      b.delay? attempt (draw attempt) = some pause → sleep pause = pause) :
    ∃ delay : Nat → Nanoseconds,
      (∀ attempt, delay attempt ≤ b.maxDelay ∧
        ∀ draw, b.delay? attempt draw = some (delay attempt)) ∧
      ∃ last ≤ b.maxRetries,
        (b.retry sleep draw operation).run s =
          (⟨(List.range (last + 1)).map fun k => ⟨k, Retried.startTime delay k⟩,
            some (operation.answerAt s last)⟩, operation.stateAt s (last + 1)) ∧
        (∀ k < last, ∃ e, operation.answerAt s k = .error e) ∧
        ((∃ a, operation.answerAt s last = .ok a) ∨ last = b.maxRetries) := by
  obtain ⟨delay, hdelay⟩ := exists_delays (not_jittered hjitter) hbase
  obtain ⟨last, hlast, hrun, hfailed, hended⟩ := Retried.run_startingAt operation s
    (fun attempt => (hdelay attempt).2 (draw attempt)) b.maxRetries 0
  rw [Nat.zero_add] at hrun hfailed hended
  refine ⟨delay, hdelay, last, hlast, ?_, fun k => hfailed k k.zero_le, hended⟩
  have htimes : ∀ k ∈ List.range' 0 (last + 1),
      Call.mk k (Retried.startTime (fun k => sleep (delay k)) k) =
        ⟨k, Retried.startTime delay k⟩ := by
    intro k hk
    rw [Retried.startTime_congr fun earlier hearlier => ?_]
    have hretried : earlier < b.maxRetries := by
      have hbelow := (List.mem_range'_1.mp hk).2
      omega
    exact hsleep earlier hretried _ ((hdelay earlier).2 (draw earlier))
  rw [List.range_eq_range', ← List.map_congr_left htimes]
  exact hrun

/-- A timer that sleeps for whole milliseconds, as many as a pause has begun. -/
def Backoff.wholeMillis (pause : Nanoseconds) : Nanoseconds :=
  (pause + perMillisecond - 1) / perMillisecond * perMillisecond

/-- What stays down fails with the number of calls before. -/
def Operation.down : Operation Nat Nat Unit := fun _ => do
  let calls ← get
  set (calls + 1)
  return .error calls

/-- Two retries lead to three calls, and the third error is told. -/
theorem Backoff.retry_down :
    let b : Backoff := ⟨2, 200 * perMillisecond, 5 * perSecond, .zero⟩
    (∀ attempt < 2, ∀ pause, b.delay? attempt 0 = some pause → wholeMillis pause = pause) ∧
      (b.retry wholeMillis (fun _ => 0) Operation.down).run 0 =
        (⟨[⟨0, 0⟩, ⟨1, 200 * perMillisecond⟩, ⟨2, 600 * perMillisecond⟩], some (.error 2)⟩, 3) := by
  intro b
  have hcomputed : b.delay? 0 0 = some (200 * perMillisecond) ∧
      b.delay? 1 0 = some (400 * perMillisecond) := by decide +kernel
  have hsleep : ∀ attempt < 2, ∀ pause, b.delay? attempt 0 = some pause →
      wholeMillis pause = pause := by
    intro attempt hattempt pause hpause
    interval_cases attempt
    · rw [hcomputed.1, Option.some.injEq] at hpause
      rw [← hpause]
      rfl
    · rw [hcomputed.2, Option.some.injEq] at hpause
      rw [← hpause]
      rfl
  obtain ⟨delay, hdelay, last, _, hrun, _, hended⟩ := Backoff.retry_until_success_or_spent b
    wholeMillis (fun _ => 0) Operation.down 0 (by decide +kernel) (by decide +kernel) hsleep
  have hlast : last = 2 := hended.resolve_left fun ⟨_, hsuccess⟩ => nomatch hsuccess
  have hfirst : delay 0 = 200 * perMillisecond :=
    Option.some.inj (((hdelay 0).2 0).symm.trans hcomputed.1)
  have hsecond : delay 1 = 400 * perMillisecond :=
    Option.some.inj (((hdelay 1).2 0).symm.trans hcomputed.2)
  have hthird : Operation.down.answerAt 0 2 = .error 2 ∧ Operation.down.stateAt 0 3 = 3 :=
    ⟨rfl, rfl⟩
  refine ⟨hsleep, ?_⟩
  subst hlast
  rw [hrun, hthird.1, hthird.2]
  simp [List.range_succ, Retried.startTime, Finset.sum_range_succ, hfirst, hsecond, perMillisecond]

end FieldCalculus
