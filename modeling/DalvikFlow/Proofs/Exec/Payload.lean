import DalvikFlow.Proofs.Exec.Run
import DalvikFlow.Proofs.Graph.Postorder
import DalvikFlow.Proofs.Graph.Predecessors

/-! Payloads are data between the instructions. No edge leads to one, so that execution can only start
with a payload, never come to one. -/
namespace DalvikFlow.FlowGraph

namespace Shows

variable {g : FlowGraph} {distinct : Bool} {code : List Instruction} (h : g.Shows distinct code)

include h

section

variable {l : Nat} {n : Node} (hn : g.node? l = some n) (hp : n.isPayload = true)

include hn hp

theorem not_mem_children_of_isPayload (k : Nat) : l ∉ g.children k :=
  fun hl => not_executable_of_isPayload hn hp (h.executable_of_mem_children hl)

theorem not_mem_childrenAt_of_isPayload (k : Nat) (addresses : List Nat) :
    l ∉ g.childrenAt k addresses := by
  intro hl
  have hchild := (g.childrenAt_sublist_children k addresses).subset hl
  exact h.not_mem_children_of_isPayload hn hp k (List.mem_eraseDups.mp hchild)

theorem predecessors_eq_nil_of_isPayload : g.predecessors l = [] :=
  List.eq_nil_iff_forall_not_mem.mpr fun k hk =>
    h.not_mem_children_of_isPayload hn hp k (h.mem_predecessors_iff.mp hk)

/-- No child starts where the payload does, since nothing else starts there. -/
theorem address_not_mem_nextAddresses (k : Nat) : n.address ∉ g.nextAddresses k := by
  intro ha
  obtain ⟨c, hc, hca⟩ := List.mem_filterMap.mp (List.mem_eraseDups.mp ha)
  obtain ⟨m, hm, hma⟩ := Option.map_eq_some_iff.mp hca
  obtain rfl := h.address_injective hm hn hma
  exact not_executable_of_isPayload hm hp (h.executable_of_mem_children hc)

end

/-- What is reached by an edge is executed, so this can only fail for the root. -/
theorem eq_root_or_executable {l : Nat} (hl : l ∈ g.reachable) : l = g.root ∨ g.Executable l := by
  obtain ⟨-, hpath⟩ := mem_reachable_iff.mp hl
  rcases hpath.cases_tail with hroot | ⟨k, -, hchild⟩
  · exact .inl hroot
  · exact .inr (h.executable_of_mem_children hchild)

theorem mem_reachable_iff_of_isPayload {l : Nat} {n : Node} (hn : g.node? l = some n)
    (hp : n.isPayload = true) : l ∈ g.reachable ↔ l = g.root := by
  constructor
  · intro hl
    exact (h.eq_root_or_executable hl).resolve_right (not_executable_of_isPayload hn hp)
  · rintro rfl
    exact root_mem_reachable h.root_lt_size

theorem executable_root_iff : g.Executable g.root ↔ ∀ l ∈ g.reachable, g.Executable l := by
  constructor
  · intro hroot l hl
    rcases h.eq_root_or_executable hl with rfl | hexecutable
    · exact hroot
    · exact hexecutable
  · intro hall
    exact hall g.root (root_mem_reachable h.root_lt_size)

end Shows

/-- Every edge leads to code, so no query that follows edges answers with a payload. -/
theorem no_edge_enters_payload {options : GraphOptions} {code : List Instruction} {g : FlowGraph}
    (hg : (ofCode options code).result = .ok g) :
    (∀ k m, g.node? k = some m → ∀ e ∈ m.edges,
      ∃ n, g.node? e.target = some n ∧ n.isPayload = false) ∧
    ∀ l n, g.node? l = some n → n.isPayload = true →
      g.predecessors l = [] ∧
      (∀ k, n.address ∉ g.nextAddresses k) ∧
      (∀ k addresses, l ∉ g.childrenAt k addresses) ∧
      ∀ (α : Type) [Operation α] (p : Program α) k f next, p.step g k f = .ok next →
        ∀ s ∈ next, s.1 ≠ l := by
  have h := shows_of_result hg
  refine ⟨fun k m hm e he => h.exists_target hm he, ?_⟩
  intro l n hn hp
  refine ⟨h.predecessors_eq_nil_of_isPayload hn hp, h.address_not_mem_nextAddresses hn hp,
    h.not_mem_childrenAt_of_isPayload hn hp, ?_⟩
  rintro α _ p k f next hstep s hs rfl
  exact h.not_mem_children_of_isPayload hn hp k (Program.mem_children_of_step hstep hs)

theorem exists_payload_of_sampleBody :
    ∃ g n, (ofCode ⟨true⟩ sampleBody).result = .ok g ∧ g.node? 2 = some n ∧ n.isPayload = true := by
  obtain ⟨g, hg⟩ : ∃ g, (ofCode ⟨true⟩ sampleBody).result = .ok g := ⟨_, rfl⟩
  obtain ⟨n, hn, hp⟩ : ∃ n, g.node? 2 = some n ∧ n.isPayload = true := by
    cases hg
    exact ⟨_, rfl, rfl⟩
  exact ⟨g, n, hg, hn, hp⟩

theorem no_edge_enters_payload_of_sampleBody :
    ∃ g n, (ofCode ⟨true⟩ sampleBody).result = .ok g ∧ g.node? 2 = some n ∧ n.isPayload = true ∧
      g.predecessors 2 = [] ∧ ∀ k addresses, 2 ∉ g.childrenAt k addresses := by
  obtain ⟨g, n, hg, hn, hp⟩ := exists_payload_of_sampleBody
  obtain ⟨hpredecessors, -, hchildren, -⟩ := (no_edge_enters_payload hg).2 2 n hn hp
  exact ⟨g, n, hg, hn, hp, hpredecessors, hchildren⟩

/-- A body can begin with data. Then the root is a payload, the only one in the orders, whatever else
the body holds. -/
theorem payloads_reached_only_as_root {options : GraphOptions} {code : List Instruction}
    {g : FlowGraph} (hg : (ofCode options code).result = .ok g) :
    (∀ l n, g.node? l = some n → n.isPayload = true →
      (l ∈ g.reachable ↔ l = g.root) ∧ (l ∈ g.reversePostorder ↔ l = g.root)) ∧
    (g.Executable g.root ↔ ∀ l ∈ g.reachable, g.Executable l) ∧
    (g.Executable g.root ↔ ∀ l ∈ g.reversePostorder, g.Executable l) := by
  have h := shows_of_result hg
  simp only [mem_reversePostorder_iff, and_self]
  exact ⟨fun l n => h.mem_reachable_iff_of_isPayload, h.executable_root_iff⟩

theorem payloads_reached_only_as_root_of_sampleBody :
    ∃ g n, (ofCode ⟨true⟩ sampleBody).result = .ok g ∧ g.node? 2 = some n ∧ n.isPayload = true ∧
      2 ∉ g.reachable ∧ 2 ∉ g.reversePostorder := by
  obtain ⟨g, n, hg, hn, hp⟩ := exists_payload_of_sampleBody
  obtain ⟨hreachable, horder⟩ := (payloads_reached_only_as_root hg).1 2 n hn hp
  refine ⟨g, n, hg, hn, hp, ?_, ?_⟩
  · rw [hreachable]
    exact nofun
  · rw [horder]
    exact nofun

/-- A body that is one empty array. -/
def arrayBody : List Instruction := [.arrayData 0 1 []]

theorem payload_reached_in_arrayBody :
    ¬ ∀ (options : GraphOptions) (code : List Instruction) (g : FlowGraph),
      (ofCode options code).result = .ok g → ∀ l n, g.node? l = some n → n.isPayload = true →
      l ∉ g.reachable ∧ l ∉ g.reversePostorder := by
  intro hall
  obtain ⟨g, hg⟩ : ∃ g, (ofCode ⟨false⟩ arrayBody).result = .ok g := ⟨_, rfl⟩
  obtain ⟨n, hn, hp⟩ : ∃ n, g.node? g.root = some n ∧ n.isPayload = true := by
    cases hg
    exact ⟨_, rfl, rfl⟩
  obtain ⟨hreachable, -⟩ := hall ⟨false⟩ arrayBody g hg g.root n hn hp
  exact hreachable (root_mem_reachable (shows_of_result hg).root_lt_size)

end DalvikFlow.FlowGraph
