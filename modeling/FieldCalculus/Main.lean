import FieldCalculus.Simulator

/-!
The simulator as a program. It takes its settings from the environment, prints the field
after every round, and tells on the error output why there is nothing to simulate.
-/

open FieldCalculus

/-- The variables that tell a scenario. -/
def scenarioVariables : List String :=
  ["topology", "width", "height", "rounds", "program", "source"].map fun key =>
    Scenario.scope ++ Settings.separator ++ key.toUpper

def main : IO UInt32 := do
  let env ← scenarioVariables.filterMapM fun name => do
    return (← IO.getEnv name).map fun value => (name, value)
  match Scenario.run env with
  | .ok text =>
    IO.print text
    return 0
  | .error fault =>
    IO.eprintln ("Error: " ++ fault.message)
    return 1
