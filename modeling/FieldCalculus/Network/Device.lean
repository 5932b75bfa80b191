import FieldCalculus.Eval
import FieldCalculus.Network.Message
import FieldCalculus.Network.Pacing
import FieldCalculus.Network.Phase

/-!
The rounds of one device. A round is attempted on a snapshot of the neighbors' exports.
A failed attempt leaves the state as it was; a successful one offers its export to the
exchange, unless it has not changed and the neighbors still remember it. Whether the
exchange takes the offer is learned afterwards, so a refused offer is made again.
-/

namespace FieldCalculus

/-- A device between two rounds. -/
structure Device where
  id : DeviceId
  program : Expr
  pacing : Pacing
  state : DeviceState
  /-- Rounds attempted so far, failed ones included. -/
  rounds : Nat
  phases : PhaseTracker
  /-- The export that the exchange took last. -/
  lastExport : Option Export
  /-- Rounds whose offer was suppressed since then. -/
  quietRounds : Nat
deriving Inhabited

/-- A round that failed. -/
structure RoundFailure where
  device : DeviceId
  round : Nat
  error : EvalError
deriving DecidableEq

/-- A round that succeeded. -/
structure RoundReport where
  device : DeviceId
  round : Nat
  value : Value
  exported : Export
  /-- How many neighbors' exports took part. -/
  neighbors : Nat
  published : Bool

/-- What a round came to. -/
abbrev RoundOutcome := Except RoundFailure RoundReport

/-- A round evaluated but not concluded. -/
structure Attempt where
  round : Nat
  evaluation : Evaluation
  neighbors : Nat
  /-- The message for the exchange; `none` if the export need not be sent. -/
  offer : Option Message

/-- The failure in words. -/
def RoundFailure.message (f : RoundFailure) : String :=
  "round " ++ toString f.round ++ " of " ++ f.device.name ++ " failed: " ++ f.error.message

namespace Device

/-- A device that has not run yet. -/
def start (id : DeviceId) (program : Expr) (pacing : Pacing) : Device :=
  ⟨id, program, pacing, .empty, 0, .start, none, 0⟩

/-- Whether an export differs from the one that the neighbors were sent last. -/
def isChanged (d : Device) (exported : Export) : Bool :=
  match d.lastExport with
  | some last => !last.equals exported
  | none => true

/-- Whether an unchanged export is sent all the same. -/
def isDue (d : Device) : Bool := d.pacing.period ≤ d.quietRounds + 1

/-- Evaluates one round. The round number is used up whether or not it succeeds. -/
def attempt (d : Device) (sensors : Sensors) (snapshot : NeighborSnapshot) (now : Nat) :
    Device × Except RoundFailure Attempt :=
  let round := d.rounds
  let evaluating := { d with rounds := round + 1, phases := d.phases.advance.advance }
  match evaluate d.program ⟨d.id, sensors, d.state, snapshot⟩ with
  | .error e =>
    ({ evaluating with phases := evaluating.phases.abort }, .error ⟨d.id, round, e⟩)
  | .ok evaluation =>
    let exported := evaluation.exported
    let message : Message := ⟨d.id, UInt64.ofNat round, .ofMillis now, exported⟩
    let publishing := { evaluating with
      phases := evaluating.phases.advance
      state := d.state.absorb exported }
    let offer := if d.isChanged exported || d.isDue then some message else none
    (publishing, .ok ⟨round, evaluation, snapshot.size, offer⟩)

/-- Concludes a round, knowing whether the exchange took the offer. -/
def conclude (d : Device) (a : Attempt) (accepted : Bool) : Device × RoundReport :=
  let published := a.offer.isSome && accepted
  let idle := { d with phases := d.phases.advance }
  let settled :=
    if a.offer.isNone then { idle with quietRounds := d.quietRounds + 1 }
    else if accepted then { idle with lastExport := some a.evaluation.exported, quietRounds := 0 }
    else idle
  (settled, ⟨d.id, a.round, a.evaluation.value, a.evaluation.exported, a.neighbors, published⟩)

end Device

end FieldCalculus
