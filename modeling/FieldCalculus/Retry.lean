import FieldCalculus.Number

/-!
Retrying what failed, with pauses that double from try to try up to a longest one. A
share of each pause may be added or removed at random; the draw is an argument, and so is
how long the timer sleeps when it is asked for a pause. The first pause is doubled before it
is cut, and a time span too long to be told ends the program.
-/

namespace FieldCalculus

/-- A time span of whole nanoseconds. -/
abbrev Nanoseconds := Nat

/-- How often to try again and how long to pause. -/
structure Backoff where
  maxRetries : Nat
  baseDelay : Nanoseconds
  maxDelay : Nanoseconds
  /-- The share of a pause by which it may become longer or shorter. -/
  jitter : Number
deriving Inhabited

namespace Backoff

def perSecond : Nat := 1000000000
def perMillisecond : Nat := 1000000

/-- Eight retries, pauses from a fifth of a second to five seconds, a fifth of jitter. -/
def standard : Backoff := ⟨8, 200 * perMillisecond, 5 * perSecond, .ofRatio false 1 5⟩

/-- A time span in seconds, as a number. -/
def seconds (t : Nanoseconds) : Number :=
  (Number.ofNat (t / perSecond)).add ((Number.ofNat (t % perSecond)).div (.ofNat perSecond))

/-- Time spans have 64 bits for their seconds. -/
def secondsLimit : Nat := UInt64.size

/-- The time span nearest to a number of seconds that is not negative; none if they are too many. -/
def ofSeconds? (n : Number) : Option Nanoseconds :=
  if n.units < secondsLimit * Number.unitsPerOne then
    some (Number.roundDiv (n.units * perSecond) Number.unitsPerOne)
  else none

/-- Doubling ends after this many tries. -/
def mostDoublings : Nat := 30

/-- A time span doubled so many times, computed in seconds; none if it becomes too long. -/
def doubled? (t : Nanoseconds) (times : Nat) : Option Nanoseconds :=
  ofSeconds? ((Number.ofNat (1 <<< times)).mul (seconds t))

/-- The pause after a failed attempt, jitter aside; none if it cannot be computed. -/
def pause? (b : Backoff) (attempt : Nat) : Option Nanoseconds :=
  (doubled? b.baseDelay (min attempt mostDoublings)).map (min · b.maxDelay)

/-- Whether pauses are drawn at random: the jitter is not zero or less. -/
def isJittered (b : Backoff) : Bool := b.jitter.isNaN || (!b.jitter.isNegative && !b.jitter.isZero)

/-- By how many milliseconds a draw may move a pause either way. -/
def spread (b : Backoff) (pause : Nanoseconds) : Nat :=
  let most := Int64.maxValue.toNatClampNeg
  let product := (Number.ofNat (pause / perMillisecond)).mul b.jitter
  if product.isNaN then 0
  else if product.isInfinite then most
  else min (product.units / Number.unitsPerOne) most

/-- A pause moved by a draw within its spread, in whole milliseconds. -/
def moved (b : Backoff) (pause : Nanoseconds) (draw : Int) : Nanoseconds :=
  let spread : Int := b.spread pause
  let millis := (pause / perMillisecond : Nat) + max (-spread) (min draw spread)
  millis.toNat * perMillisecond

/-- The pause after a failed attempt; none if it cannot be computed, which ends the program. -/
def delay? (b : Backoff) (attempt : Nat) (draw : Int) : Option Nanoseconds :=
  (b.pause? attempt).map fun pause => if b.isJittered then b.moved pause draw else pause

end Backoff

/-- A call of an operation that is retried. -/
structure Call where
  attempt : Nat
  /-- Time since the first call. -/
  time : Nanoseconds
deriving DecidableEq

/-- An operation that can be tried again. What it comes to may depend on the number of the attempt
and on what earlier calls left behind. -/
abbrev Operation (σ ε α : Type) := Nat → StateM σ (Except ε α)

/-- The calls that were made and what came of the last one; nothing came of it if the pause after it
could not be computed. -/
structure Retried (ε α : Type) where
  calls : List Call
  outcome : Option (Except ε α)

namespace Retried

variable {σ ε α : Type}

/-- Calls an operation with the attempts from `attempt` on, until it succeeds or no retry is left.
Asked for a pause, the timer sleeps for `sleep pause`; the calls themselves take no time. -/
def startingAt (sleep : Nanoseconds → Nanoseconds) (delay? : Nat → Option Nanoseconds)
    (operation : Operation σ ε α) : Nat → Nat → Nanoseconds → StateM σ (Retried ε α)
  | 0, attempt, time => return ⟨[⟨attempt, time⟩], some (← operation attempt)⟩
  | retries + 1, attempt, time => do
    match ← operation attempt with
    | .ok a => return ⟨[⟨attempt, time⟩], some (.ok a)⟩
    | .error _ =>
      match delay? attempt with
      | none => return ⟨[⟨attempt, time⟩], none⟩
      | some pause =>
        let rest ← startingAt sleep delay? operation retries (attempt + 1) (time + sleep pause)
        return { rest with calls := ⟨attempt, time⟩ :: rest.calls }

end Retried

/-- Calls an operation until it succeeds or all retries are used up. -/
def Backoff.retry {σ ε α : Type} (b : Backoff) (sleep : Nanoseconds → Nanoseconds)
    (draw : Nat → Int) (operation : Operation σ ε α) : StateM σ (Retried ε α) :=
  Retried.startingAt sleep (fun attempt => b.delay? attempt (draw attempt)) operation
    b.maxRetries 0 0

end FieldCalculus
