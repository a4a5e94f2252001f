import DalvikFlow.Proofs.Body.Relabel
import DalvikFlow.Proofs.Graph.Predecessors

/-! The graph of a body under other locations: the same nodes at the same addresses, under their new
names. -/
namespace DalvikFlow

open Body

variable {σ : Equiv.Perm Nat}

/-- The node under its new name, with its edges to the new names of their targets. -/
def Node.relabel (σ : Equiv.Perm Nat) (n : Node) : Node :=
  ⟨σ n.id, n.address, n.instruction.relabel σ, n.edges.map (Edge.relabel σ)⟩

theorem Node.children_relabel (n : Node) : (n.relabel σ).children = n.children.map σ := by
  rw [children, children, relabel, List.map_map, List.map_map]
  rfl

namespace FlowGraph

/-- Two graphs that differ in the names of their nodes alone. -/
def Relabeled (σ : Equiv.Perm Nat) (g g' : FlowGraph) : Prop :=
  ∀ l, g'.node? (σ l) = (g.node? l).map (Node.relabel σ)

variable {g g' : FlowGraph} {distinct : Bool} {code : List Instruction}

theorem Shows.relabeled (h : g.Shows distinct code) (h' : g'.Shows distinct (relabel σ code))
    (hσ : ∀ l, σ l < code.length ↔ l < code.length) : g.Relabeled σ g' := by
  intro l
  cases hn : g.node? l with
  | none =>
      have hl : code.length ≤ l := h.size_eq ▸ Array.getElem?_eq_none_iff.mp hn
      refine node?_eq_none ?_
      rw [h'.size_eq, length_relabel]
      exact Nat.le_of_not_lt (mt (hσ l).mp (Nat.not_lt_of_le hl))
  | some n =>
      obtain ⟨p, i, refs, hi, hloc, hrefs, rfl⟩ := (h.node?_iff l n).mp hn
      refine (h'.node?_iff _ _).mpr ⟨p, i.relabel σ, refs.map (Edge.relabel σ), ?_, ?_, ?_, ?_⟩
      · exact getElem?_relabel_of_eq hi
      · exact congrArg σ hloc
      · rw [start_relabel]
        exact hrefs.relabel
      · rw [start_relabel, continuation_relabel, ← List.map_append]
        rfl

namespace Relabeled

variable (h : g.Relabeled σ g')

include h

theorem node?_of_eq {l : Nat} {n : Node} (hn : g.node? l = some n) :
    g'.node? (σ l) = some (n.relabel σ) := by
  rw [h l, hn, Option.map_some]

theorem address? (l : Nat) : g'.address? (σ l) = g.address? l := by
  rw [FlowGraph.address?, FlowGraph.address?, h l, Option.map_map]
  rfl

theorem children (l : Nat) : g'.children (σ l) = (g.children l).map σ := by
  rw [FlowGraph.children, FlowGraph.children, h l]
  cases g.node? l with
  | none => rfl
  | some n => exact n.children_relabel

theorem nextAddresses (l : Nat) : g'.nextAddresses (σ l) = g.nextAddresses l := by
  have haddress : g'.address? ∘ σ = g.address? := funext h.address?
  rw [FlowGraph.nextAddresses, FlowGraph.nextAddresses, h.children, List.filterMap_map, haddress]

theorem childrenAt (l : Nat) (addresses : List Nat) :
    g'.childrenAt (σ l) addresses = (g.childrenAt l addresses).map σ := by
  rw [FlowGraph.childrenAt, FlowGraph.childrenAt, h.children, List.filter_map,
    eraseDups_map σ.injective]
  congr 2
  refine List.filter_congr fun c _ => ?_
  rw [Function.comp_apply, h.address?]

theorem mem_predecessors_iff {code' : List Instruction} (hg : g.Shows distinct code)
    (hg' : g'.Shows distinct code') {l k : Nat} :
    σ k ∈ g'.predecessors (σ l) ↔ k ∈ g.predecessors l := by
  rw [hg.mem_predecessors_iff, hg'.mem_predecessors_iff, h.children]
  exact List.mem_map_of_injective σ.injective

theorem nodeAt? {code' : List Instruction} (hg : g.Shows distinct code)
    (hg' : g'.Shows distinct code') (a : Nat) : g'.nodeAt? a = (g.nodeAt? a).map σ := by
  ext k
  rw [hg'.nodeAt?_eq_some_iff, Option.map_eq_some_iff]
  simp only [hg.nodeAt?_eq_some_iff]
  constructor
  · rintro ⟨n', hn', ha⟩
    rw [← σ.apply_symm_apply k, h] at hn'
    obtain ⟨n, hn, rfl⟩ := Option.map_eq_some_iff.mp hn'
    exact ⟨σ.symm k, ⟨n, hn, ha⟩, σ.apply_symm_apply k⟩
  · rintro ⟨l, ⟨n, hn, ha⟩, rfl⟩
    exact ⟨_, h.node?_of_eq hn, ha⟩

end Relabeled

end FlowGraph

end DalvikFlow
