import FieldCalculus.Proofs.Scoping.Evaluation

/-!
Well-scoped programs in a network. Each device may run a program of its own, and calls closures
that others have made. No order of events makes one of them miss a variable.
-/

namespace FieldCalculus

/-- The program has no free variables and its literals are well scoped. -/
abbrev Expr.WellScoped (program : Expr) : Prop := program.scopedIn []

/-- An act that brings only well-scoped programs and readings into a network. -/
abbrev Network.Act.WellScoped (act : Network.Act) : Prop :=
  act.Admits Expr.WellScoped fun v => v.scoped

/-- No round of the run has missed a variable, and all values that it has made or that the network
still holds are well scoped. -/
structure Network.RunsScoped (net : Network) (acts : List Network.Act) : Prop where
  bound : ∀ r ∈ net.history acts, ∀ failure, r.outcome = .error failure →
    ∀ name, failure.error.fault ≠ .unboundVariable name
  reports : ∀ r ∈ net.history acts, ∀ report, r.outcome = .ok report →
    report.value.scoped ∧ report.exported.Scoped
  states : ∀ id node, (net.run acts).nodes.find? id = some node →
    node.device.state.All fun v => v.scoped
  sent : ∀ id node, (net.run acts).nodes.find? id = some node →
    ∀ exported, node.device.lastExport = some exported → exported.Scoped
  received : (net.run acts).hub.Each fun _ e => e.All fun v => v.scoped

/-- Devices that join with well-scoped programs, and whose sensors read well-scoped values, never
miss a variable, whatever the topology and the hub and in whatever order things happen. -/
theorem well_scoped_network (program : Expr) (pacing : Pacing) (delivery : Delivery)
    (topology : Topology) (neighborhood : Neighborhood) (acts : List Network.Act)
    (hacts : ∀ act ∈ acts, act.WellScoped) :
    (Network.empty program pacing delivery topology neighborhood).RunsScoped acts := by
  obtain ⟨hnet, hrounds⟩ := Network.All.run passesOn_scoped
    (Network.All.empty program pacing delivery topology neighborhood) hacts
  constructor
  case bound =>
    intro r hr failure hfailure
    obtain ⟨hprogram, hinputs⟩ := (hrounds r hr).inputs
    exact (evaluate_scoped hprogram hinputs).2 _ ((hrounds r hr).evaluated_of_error hfailure)
  case reports =>
    intro r hr report hreport
    exact (hrounds r hr).reported passesOn_scoped hreport
  case states => exact fun id node hnode => (hnet.devices id node hnode).1.state
  case sent => exact fun id node hnode => (hnet.devices id node hnode).1.lastExport
  case received => exact hnet.endpoints

/-- Tells the neighbors a function of no arguments that answers what it has captured. -/
def tellsCaptured : Expr :=
  .foldPlus (.literal .unit) (.literal (.builtin .tuple))
    (.nbr (.letIn "own" .selfId (.lambda ⟨"answer"⟩ [] (.var "own"))))

/-- Calls the functions that the neighbors tell, and tells one itself. -/
def callsTold : Expr :=
  .foldPlus (.literal .unit) (.literal (.builtin .tuple))
    (.apply (.nbr (.lambda ⟨"answer"⟩ [] .selfId)) [])

/-- One device tells a function and the other one calls it. -/
def calledElsewhere : List Network.Act :=
  [.join ⟨"a"⟩ tellsCaptured default, .join ⟨"b"⟩ callsTold default, .link ⟨"a"⟩ ⟨"b"⟩,
    .step ⟨"a"⟩, .step ⟨"b"⟩, .step ⟨"a"⟩]

/-- The function answers what it captured on the device that made it. -/
theorem calledElsewhere_scoped :
    let net := Network.empty default default .queued .empty .topology
    net.RunsScoped calledElsewhere ∧
      ((net.history calledElsewhere)[1]?.bind Network.RoundRecord.report?).any
        (fun report => report.value.equals (.tuple [.unit, .text "a"])) := by
  refine ⟨well_scoped_network default default .queued .empty .topology calledElsewhere ?_, ?_⟩
  · simp only [calledElsewhere, List.mem_cons, List.not_mem_nil, or_false, forall_eq_or_imp,
      forall_eq, Network.Act.WellScoped, Network.Act.Admits, and_true]
    exact ⟨rfl, rfl⟩
  · decide +kernel

end FieldCalculus
