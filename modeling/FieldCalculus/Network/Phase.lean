/-!
The phases of a round. A device cycles from idle through collecting, evaluating and
publishing; it can be stopped only while idle.
-/

namespace FieldCalculus

/-- What a device is doing. -/
inductive Phase where
  | idle | collecting | evaluating | publishing | stopped
deriving DecidableEq, Inhabited

namespace Phase

def name : Phase → String
  | idle => "Idle"
  | collecting => "Collecting"
  | evaluating => "Evaluating"
  | publishing => "Publishing"
  | stopped => "Stopped"

/-- The phase that follows in the cycle. What is stopped stays stopped. -/
def next : Phase → Phase
  | idle => collecting
  | collecting => evaluating
  | evaluating => publishing
  | publishing => idle
  | stopped => stopped

end Phase

/-- The current phase, and the phases left since the last time of being idle. -/
structure PhaseTracker where
  phase : Phase
  passed : List Phase
deriving DecidableEq, Inhabited

namespace PhaseTracker

def start : PhaseTracker := ⟨.idle, []⟩

/-- Moves to a phase. Leaving the idle phase begins a new account. -/
def enter (t : PhaseTracker) (phase : Phase) : PhaseTracker :=
  ⟨phase, if t.phase = .idle then [] else t.passed ++ [t.phase]⟩

/-- Moves on in the cycle. -/
def advance (t : PhaseTracker) : PhaseTracker := t.enter t.phase.next

/-- Gives the round up. -/
def abort (t : PhaseTracker) : PhaseTracker :=
  if t.phase = .stopped then t else t.enter .idle

/-- Whether a request to stop is honored now. -/
def canStop (t : PhaseTracker) : Bool := t.phase = .idle || t.phase = .stopped

/-- Stops if that is possible now. -/
def stop (t : PhaseTracker) : PhaseTracker :=
  if t.phase = .idle then t.enter .stopped else t

end PhaseTracker

end FieldCalculus
