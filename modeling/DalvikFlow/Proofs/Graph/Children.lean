import DalvikFlow.Proofs.Graph.Nodes

/-! Where the edges of a graph that shows a body lead: to nodes that are executed, and for all addresses
of children to all of them. -/
namespace DalvikFlow.FlowGraph

open Body

/-- A node that is executed. -/
def Executable (g : FlowGraph) (l : Nat) : Prop :=
  ∃ n, g.node? l = some n ∧ n.isPayload = false

theorem Executable.lt_size {g : FlowGraph} {l : Nat} (h : g.Executable l) : l < g.size := by
  obtain ⟨n, hn, -⟩ := h
  exact (Array.getElem?_eq_some_iff.mp hn).1

theorem not_executable_of_isPayload {g : FlowGraph} {l : Nat} {n : Node} (hn : g.node? l = some n)
    (hp : n.isPayload = true) : ¬ g.Executable l := by
  rintro ⟨m, hm, hcode⟩
  obtain rfl := Option.some.inj (hn.symm.trans hm)
  rw [hp] at hcode
  cases hcode

/-- Whichever addresses are asked for, the children at them are in edge order, each once. -/
theorem childrenAt_sublist_children (g : FlowGraph) (l : Nat) (addresses : List Nat) :
    (g.childrenAt l addresses).Sublist (g.children l).eraseDups := by
  rw [childrenAt, eraseDups_filter]
  exact List.filter_sublist

namespace Shows

variable {g : FlowGraph} {distinct : Bool} {code : List Instruction} (h : g.Shows distinct code)

include h

/-- Every edge leads to a node that is executed. -/
theorem exists_target {l : Nat} {n : Node} (hn : g.node? l = some n) {e : Edge}
    (he : e ∈ n.edges) : ∃ m, g.node? e.target = some m ∧ m.isPayload = false := by
  obtain ⟨p, refs, -, -, -, -, hrefs, hedges⟩ := h.node_spec hn
  rw [hedges] at he
  rcases List.mem_append.mp he with he | he
  · obtain ⟨-, a, t, ht, hcode, htarget⟩ := hrefs.lands he
    obtain ⟨m, hm, rfl, -⟩ := h.exists_node_of_startsAt ht
    exact ⟨m, htarget ▸ hm, hcode⟩
  · obtain ⟨-, next, hnext, hcode, rfl⟩ := mem_continuation_iff.mp he
    obtain ⟨m, hm, rfl, -⟩ := h.exists_node hnext
    exact ⟨m, hm, hcode⟩

theorem executable_of_mem_children {l c : Nat} (hc : c ∈ g.children l) : g.Executable c := by
  cases hn : g.node? l with
  | none =>
      rw [children, hn] at hc
      cases hc
  | some n =>
      obtain ⟨e, he, rfl⟩ := (mem_children_iff hn).mp hc
      exact h.exists_target hn he

theorem exists_address?_of_mem_children {l c : Nat} (hc : c ∈ g.children l) :
    ∃ a, g.address? c = some a := by
  obtain ⟨m, hm, -⟩ := h.executable_of_mem_children hc
  exact ⟨m.address, address?_of_node? hm⟩

/-- All addresses of children have all children at them. -/
theorem childrenAt_nextAddresses (l : Nat) :
    g.childrenAt l (g.nextAddresses l) = (g.children l).eraseDups := by
  have hall : ∀ c ∈ g.children l, (g.address? c).any (g.nextAddresses l).contains = true := by
    intro c hc
    obtain ⟨a, ha⟩ := h.exists_address?_of_mem_children hc
    rw [ha, Option.any_some]
    exact List.contains_iff_mem.mpr (mem_nextAddresses hc ha)
  rw [childrenAt, List.filter_eq_self.mpr hall]

end Shows

end DalvikFlow.FlowGraph
