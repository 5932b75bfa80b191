import FieldCalculus.Network.Phase
import Mathlib.Data.List.Basic

/-!
What a phase tracker lists. While a device has not stopped, the phases listed are the first of a
round in their order, whichever rounds were given up before. Once it has stopped it stays so, but
moving on all the same lists the stop itself, each time once more; so the list describes a round
exactly when nobody moves on after the stop.
-/

namespace FieldCalculus

/-- The phases of a round in their order. -/
def Phase.round : List Phase := [.collecting, .evaluating, .publishing]

namespace PhaseTracker

/-- What can be asked of a tracker. -/
inductive Act where
  | advance | abort | stop
deriving DecidableEq

/-- The tracker after an act. -/
def perform (t : PhaseTracker) : Act → PhaseTracker
  | .advance => t.advance
  | .abort => t.abort
  | .stop => t.stop

def run (t : PhaseTracker) (acts : List Act) : PhaseTracker := acts.foldl perform t

/-- How often it is asked to move on when it has stopped already. -/
def overruns (t : PhaseTracker) : List Act → Nat
  | [] => 0
  | act :: rest =>
    (if t.phase = .stopped ∧ act = .advance then 1 else 0) + (t.perform act).overruns rest

/-- What is listed in a phase, after so many overruns. -/
inductive Lists : PhaseTracker → Nat → Prop
  | idle {passed : List Phase} (h : passed <+: Phase.round) : Lists ⟨.idle, passed⟩ 0
  | collecting : Lists ⟨.collecting, []⟩ 0
  | evaluating : Lists ⟨.evaluating, [.collecting]⟩ 0
  | publishing : Lists ⟨.publishing, [.collecting, .evaluating]⟩ 0
  | stopped (overruns : Nat) : Lists ⟨.stopped, List.replicate overruns .stopped⟩ overruns

variable {t : PhaseTracker} {overruns : Nat}

namespace Lists

theorem perform (h : Lists t overruns) (act : Act) :
    Lists (t.perform act)
      (overruns + if t.phase = .stopped ∧ act = .advance then 1 else 0) := by
  cases h with
  | idle h =>
      cases act with
      | advance => exact .collecting
      | abort => exact .idle List.nil_prefix
      | stop => exact .stopped 0
  | collecting =>
      cases act with
      | advance => exact .evaluating
      | abort => exact .idle (by decide)
      | stop => exact .collecting
  | evaluating =>
      cases act with
      | advance => exact .publishing
      | abort => exact .idle (by decide)
      | stop => exact .evaluating
  | publishing =>
      cases act with
      | advance => exact .idle (by decide)
      | abort => exact .idle (by decide)
      | stop => exact .publishing
  | stopped =>
      cases act with
      | advance => simpa [PhaseTracker.perform, advance, enter, Phase.next, List.replicate_succ']
          using stopped (overruns + 1)
      | abort => exact .stopped overruns
      | stop => exact .stopped overruns

theorem run (h : Lists t overruns) (acts : List Act) :
    Lists (t.run acts) (overruns + t.overruns acts) := by
  induction acts generalizing t overruns with
  | nil => exact h
  | cons act rest ih =>
      have hrest := ih (h.perform act)
      rwa [Nat.add_assoc] at hrest

/-- The list begins a round unless being stopped is on it. -/
theorem prefix_iff (h : Lists t overruns) : t.passed <+: Phase.round ↔ overruns = 0 := by
  cases h with
  | idle h => simpa using h
  | collecting => decide
  | evaluating => decide
  | publishing => decide
  | stopped =>
      cases overruns with
      | zero => simp
      | succ more => simp [Phase.round, List.replicate_succ, List.cons_prefix_cons]

/-- A tracker that has stopped lists the overruns and nothing else. -/
theorem passed_of_stopped (h : Lists t overruns) (hstopped : t.phase = .stopped) :
    t.passed = List.replicate overruns .stopped := by
  cases h with
  | stopped => rfl
  | _ => cases hstopped

/-- One that has not stopped was never overrun. -/
theorem overruns_eq_zero (h : Lists t overruns) (hgoing : t.phase ≠ .stopped) : overruns = 0 := by
  cases h with
  | stopped => exact absurd rfl hgoing
  | _ => rfl

end Lists

/-- A tracker that has stopped stays so. -/
theorem stopped_run (h : t.phase = .stopped) (acts : List Act) : (t.run acts).phase = .stopped := by
  induction acts generalizing t with
  | nil => exact h
  | cons act rest ih =>
      apply ih
      cases act <;> simp [perform, advance, abort, stop, enter, Phase.next, h]

theorem canStop_iff : t.canStop = true ↔ t.phase = .idle ∨ t.phase = .stopped := by
  simp [canStop]

/-- A tracker stops when it can and is left as it is when it cannot. -/
theorem stop_eq : (t.canStop = true → t.stop.phase = .stopped) ∧ (t.canStop = false → t.stop = t) := by
  cases hphase : t.phase <;> simp [canStop, stop, enter, hphase]

/-- Whatever was asked of a tracker, it lists the first phases of a round in their order if and only
if it was not asked to move on after it had stopped; while it has not stopped this is so, and
afterwards it lists being stopped once for each time of moving on. A request to stop is honored
exactly if the tracker is idle or has stopped, and from then on it stays stopped. -/
theorem passed_describes_round (acts : List Act) :
    let t := start.run acts
    (t.passed <+: Phase.round ↔ start.overruns acts = 0) ∧
    (t.phase ≠ .stopped → t.passed <+: Phase.round) ∧
    (t.phase = .stopped → t.passed = List.replicate (start.overruns acts) .stopped) ∧
    (t.canStop = true ↔ t.phase = .idle ∨ t.phase = .stopped) ∧
    (t.canStop = true → ∀ later, (t.stop.run later).phase = .stopped) ∧
    (t.canStop = false → t.stop = t) ∧
    (t.phase = .stopped → ∀ later, (t.run later).phase = .stopped) := by
  intro t
  have hstart : Lists start 0 := .idle List.nil_prefix
  have hlists : Lists t (start.overruns acts) := by
    have hrun := hstart.run acts
    rwa [Nat.zero_add] at hrun
  refine ⟨hlists.prefix_iff, ?_, hlists.passed_of_stopped, canStop_iff, ?_, stop_eq.2, stopped_run⟩
  · intro hgoing
    exact hlists.prefix_iff.mpr (hlists.overruns_eq_zero hgoing)
  · intro hcan
    exact stopped_run (stop_eq.1 hcan)

/-- One request to move on after the stop, and the list describes no round. -/
theorem stopped_listed : ¬(start.run [.stop, .advance]).passed <+: Phase.round := by decide

end PhaseTracker

end FieldCalculus
