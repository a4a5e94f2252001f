import DalvikFlow.Exec.Program
import DalvikFlow.Proofs.Exec.Creation
import DalvikFlow.Proofs.Graph.CaseTargets
import DalvikFlow.Proofs.Graph.Report

/-! Distinct case targets change nothing but parallel edges: the questions to a graph have the same
answers, the operations are the same, and so are the steps. -/
namespace DalvikFlow

namespace FlowGraph

theorem site_withFirstCases (g : FlowGraph) (n : Node) :
    g.withFirstCases.site n.withFirstCases = g.site n := by
  rw [site, site, nextAddresses_withFirstCases]
  rfl

namespace Shows

variable {g : FlowGraph} {code : List Instruction} (h : g.Shows false code)

include h

theorem casesAt?_withFirstCases : g.withFirstCases.casesAt? = g.casesAt? := by
  funext address
  rw [casesAt?, casesAt?, h.nodeAt?_withFirstCases]
  cases g.nodeAt? address with
  | none => rfl
  | some l =>
      simp only [Option.bind_some, node?_withFirstCases]
      cases g.node? l <;> rfl

theorem create_withFirstCases (r : Registry) (n : Node) :
    r.create g.withFirstCases n.withFirstCases = r.create g n :=
  Registry.create_congr (g.site_withFirstCases n) h.casesAt?_withFirstCases

theorem ofGraph_withFirstCases (r : Registry) :
    Program.ofGraph r g.withFirstCases = Program.ofGraph r g := by
  have hnodes : g.withFirstCases.nodes.toList = g.nodes.toList.map Node.withFirstCases := by
    rw [FlowGraph.withFirstCases, nodes_ofNodes, Array.toList_map]
  have hexecuted : (fun n : Node => !n.isPayload) ∘ Node.withFirstCases =
      fun n : Node => !n.isPayload := rfl
  have hcreate : r.create g.withFirstCases ∘ Node.withFirstCases = r.create g :=
    funext (h.create_withFirstCases r)
  rw [Program.ofGraph, Program.ofGraph, hnodes, List.filter_map, hexecuted, List.mapM_map, hcreate]

end Shows

end FlowGraph

/-- The second graph has of the cases of a switch with one target only the first, and differs in nothing
else that can be asked: where nodes are, what they lead to and come from, in which order they are
visited, what their operations are, and how they are executed. -/
structure FlowGraph.AgreesButCases (g g' : FlowGraph) : Prop where
  node? : ∀ l, g'.node? l = (g.node? l).map Node.withFirstCases
  address? : ∀ l, g'.address? l = g.address? l
  nodeAt? : ∀ a, g'.nodeAt? a = g.nodeAt? a
  nextAddresses : ∀ l, g'.nextAddresses l = g.nextAddresses l
  predecessors : ∀ l, g'.predecessors l = g.predecessors l
  childrenAt : ∀ l addresses, g'.childrenAt l addresses = g.childrenAt l addresses
  reversePostorder : g'.reversePostorder = g.reversePostorder
  mem_reachable : ∀ l, l ∈ g'.reachable ↔ l ∈ g.reachable
  ofGraph : ∀ r, Program.ofGraph r g' = Program.ofGraph r g
  step : ∀ (α : Type) [Operation α] (p : Program α) l f, p.step g' l f = p.step g l f

theorem Program.step_withFirstCases {α : Type} [Operation α] (p : Program α) (g : FlowGraph)
    (l : Nat) (f : RegisterFile) : p.step g.withFirstCases l f = p.step g l f := by
  unfold step
  rw [FlowGraph.node?_withFirstCases]
  cases g.node? l with
  | none => rfl
  | some n =>
      simp only [Option.map_some, FlowGraph.childrenAt_withFirstCases]
      rfl

theorem FlowGraph.Shows.agreesButCases {g : FlowGraph} {code : List Instruction}
    (h : g.Shows false code) : g.AgreesButCases g.withFirstCases where
  node? := g.node?_withFirstCases
  address? := g.address?_withFirstCases
  nodeAt? := h.nodeAt?_withFirstCases
  nextAddresses := g.nextAddresses_withFirstCases
  predecessors := h.predecessors_withFirstCases
  childrenAt := g.childrenAt_withFirstCases
  reversePostorder := g.reversePostorder_withFirstCases
  mem_reachable _ := g.mem_reachable_withFirstCases
  ofGraph := h.ofGraph_withFirstCases
  step _ _ p l f := p.step_withFirstCases g l f

namespace FlowGraph

/-- With distinct case targets the construction reports the same and fails with the same error, or it
succeeds as well and gives the same graph less the cases that repeat a target. -/
theorem distinct_case_targets_agree (code : List Instruction) :
    (ofCode ⟨true⟩ code).notices = (ofCode ⟨false⟩ code).notices ∧
      ((∃ e, (ofCode ⟨false⟩ code).result = .error e ∧ (ofCode ⟨true⟩ code).result = .error e) ∨
        ∃ g g', (ofCode ⟨false⟩ code).result = .ok g ∧ (ofCode ⟨true⟩ code).result = .ok g' ∧
          g.AgreesButCases g') := by
  refine ⟨notices_ofCode ⟨true⟩ code, ?_⟩
  have hdistinct := result_distinct code
  cases hplain : (ofCode ⟨false⟩ code).result with
  | error e =>
      rw [hplain] at hdistinct
      exact .inl ⟨e, rfl, hdistinct⟩
  | ok g =>
      rw [hplain] at hdistinct
      exact .inr ⟨g, _, rfl, hdistinct, (shows_of_result hplain).agreesButCases⟩

end FlowGraph

end DalvikFlow
