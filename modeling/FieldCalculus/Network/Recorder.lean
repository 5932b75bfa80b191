import FieldCalculus.Network.Device

/-!
The outcomes of rounds, kept for inspection: the latest of each device, and counters
of what happened in the whole network.
-/

namespace FieldCalculus

/-- The latest outcome of one device. -/
structure DeviceView where
  round : Nat
  value : Option Value
  failures : Nat
  lastError : Option String
deriving Inhabited

/-- The views of all devices that completed or failed a round. -/
structure Recorder where
  views : Dict DeviceId DeviceView
deriving Inhabited

namespace Recorder

def empty : Recorder := ⟨.empty⟩

def view? (r : Recorder) (id : DeviceId) : Option DeviceView := r.views.find? id

/-- The last value of a device. -/
def value? (r : Recorder) (id : DeviceId) : Option Value := (r.view? id).bind DeviceView.value

/-- The last values of all devices that have one. -/
def field (r : Recorder) : List (DeviceId × Value) :=
  r.views.entries.filterMap fun (id, v) => v.value.map fun value => (id, value)

/-- Takes note of a round. A failure keeps the last value and is counted. -/
def record (r : Recorder) (outcome : RoundOutcome) : Recorder :=
  match outcome with
  | .ok report =>
    ⟨r.views.upsert report.device ⟨0, none, 0, none⟩ fun v =>
      { v with round := report.round, value := some report.value }⟩
  | .error failure =>
    ⟨r.views.upsert failure.device ⟨0, none, 0, none⟩ fun v =>
      { v with
        round := failure.round
        failures := v.failures + 1
        lastError := some failure.message }⟩

end Recorder

/-- Counters of a network. -/
structure Counters where
  /-- Rounds completed. -/
  rounds : Nat
  /-- Exports that the exchange took. -/
  published : Nat
  /-- Unchanged exports that were not offered. -/
  suppressed : Nat
  /-- Messages stored in a table. -/
  received : Nat
  /-- Table entries dropped for staleness. -/
  evicted : Nat
  /-- Evaluations, failed ones included. -/
  evaluations : Nat
  /-- Rounds abandoned, by the label of the cause. -/
  failures : Dict String Nat
deriving Inhabited

namespace Counters

def zero : Counters := ⟨0, 0, 0, 0, 0, 0, .empty⟩

/-- Rounds abandoned for causes of one label. -/
def failed (c : Counters) (label : String) : Nat := (c.failures.find? label).getD 0

/-- Counts what happened between the tables and the exchange. -/
def addTraffic (c : Counters) (received evicted : Nat) : Counters :=
  { c with received := c.received + received, evicted := c.evicted + evicted }

/-- Counts a failed round. -/
def addFailure (c : Counters) (fault : Fault) : Counters :=
  { c with
    evaluations := c.evaluations + 1
    failures := c.failures.upsert fault.label 0 (· + 1) }

/-- Counts a completed round. -/
def addRound (c : Counters) (offered published : Bool) : Counters :=
  { c with
    evaluations := c.evaluations + 1
    rounds := c.rounds + 1
    published := c.published + published.toNat
    suppressed := c.suppressed + (!offered).toNat }

end Counters

end FieldCalculus
