import DalvikFlow.Proofs.Exec.Creation
import DalvikFlow.Proofs.Graph.Children

/-! The addresses that are computed from an instruction, and the edges of its node. -/
namespace DalvikFlow

open Body

theorem Node.site_children {g : FlowGraph} {l : Nat} {n : Node} (h : n.id = l) :
    (g.site n).children = g.nextAddresses l := by
  rw [FlowGraph.site, h]

/-- The nominal addresses of an operation are those of the children of its node. -/
theorem Registry.create_children {r : Registry} {g : FlowGraph} {l : Nat} {n : Node} {op : Op}
    (h : r.create g n = .ok op) (hid : n.id = l) : op.children = g.nextAddresses l := by
  rw [← Node.site_children hid, ← create_site h]
  rfl

namespace FlowGraph.Shows

variable {g : FlowGraph} {distinct : Bool} {code : List Instruction} {n : Node}
  (h : g.Shows distinct code)

include h

theorem branchTarget_eq_ok {d : Int32} {t : Instruction}
    (hd : n.instruction.offset? = some d) (ht : StartsAt code (n.address + d.toInt) t) :
    ∃ m, n.branchTarget = .ok m.address ∧ g.node? t.location = some m ∧ m.instruction = t := by
  obtain ⟨m, hm, hmt, hma⟩ := h.exists_node_of_startsAt ht
  refine ⟨m, ?_, hm, hmt⟩
  have hrange := h.startsAt_range ht
  rw [← hma] at hrange
  exact Node.branchTarget_eq_ok_iff.mpr ⟨Int.ofNat_le.mp hrange.2, d, hd, hma⟩

/-- No address after an instruction has to be cut off. -/
theorem addressAfter_eq {p : Nat} (hi : code[p]? = some n.instruction)
    (ha : n.address = start code p) : n.addressAfter = start code (p + 1) := by
  have hle := Nat.le_trans (start_le_width code (p + 1)) h.fits
  rw [Node.addressAfter, ha, ← start_succ hi]
  exact Nat.min_eq_left hle

section Edges

variable {l : Nat} (hn : g.node? l = some n)

include hn

theorem addressAfter_eq_add : n.addressAfter = n.address + n.instruction.units.toNat := by
  obtain ⟨p, refs, hi, -, -, ha, -⟩ := h.node_spec hn
  rw [h.addressAfter_eq hi ha, start_succ hi, ha]

/-- The edge to the next instruction leads to the address after this one. -/
theorem address?_of_fallthrough {e : Edge} (he : e ∈ n.edges) (hvia : e.via = .fallthrough) :
    g.address? e.target = some n.addressAfter := by
  obtain ⟨p, refs, hi, -, -, ha, hrefs, hedges⟩ := h.node_spec hn
  rw [hedges] at he
  rcases List.mem_append.mp he with he | he
  · exact absurd hvia (hrefs.lands he).1
  · obtain ⟨-, next, hnext, -, rfl⟩ := mem_continuation_iff.mp he
    obtain ⟨m, hm, -, hma⟩ := h.exists_node hnext
    rw [address?_of_node? hm, hma, h.addressAfter_eq hi ha]

/-- A child at the address after an instruction that can continue is where it continues. -/
theorem exists_fallthrough (hcontinue : n.opcode.canContinue = true) {c : Nat}
    (hc : c ∈ g.children l) (hafter : g.address? c = some n.addressAfter) :
    ∃ e ∈ n.edges, e.via = .fallthrough := by
  obtain ⟨p, refs, hi, -, -, ha, -, hedges⟩ := h.node_spec hn
  have hp := (List.getElem?_eq_some_iff.mp hi).1
  obtain ⟨e, he, rfl⟩ := (mem_children_iff hn).mp hc
  obtain ⟨m, hm, hcode⟩ := h.exists_target hn he
  obtain ⟨q, -, hq, -, -, hqa, -⟩ := h.node_spec hm
  rw [address?_of_node? hm, Option.some.injEq, h.addressAfter_eq hi ha] at hafter
  -- what starts there is the next instruction, and an edge leads only to code
  have hstarts : StartsAt code (start code (p + 1)) m.instruction :=
    ⟨q, hq, congrArg Int.ofNat (hqa.symm.trans hafter)⟩
  have hnext := (h.wide.startsAt_start_iff hp).mp hstarts
  refine ⟨⟨m.instruction.location, .fallthrough⟩, ?_, rfl⟩
  rw [hedges]
  apply List.mem_append_right
  exact mem_continuation_iff.mpr ⟨hcontinue, m.instruction, hnext, hcode, rfl⟩

theorem addressAfter_mem_nextAddresses_iff (hcontinue : n.opcode.canContinue = true) :
    n.addressAfter ∈ g.nextAddresses l ↔ ∃ e ∈ n.edges, e.via = .fallthrough := by
  constructor
  · intro hmem
    obtain ⟨c, hc, hafter⟩ := List.mem_filterMap.mp (List.mem_eraseDups.mp hmem)
    exact h.exists_fallthrough hn hcontinue hc hafter
  · rintro ⟨e, he, hvia⟩
    apply mem_nextAddresses
    · exact (mem_children_iff hn).mpr ⟨e, he, rfl⟩
    · exact h.address?_of_fallthrough hn he hvia

/-- After an instruction that can continue there is a child exactly if it does continue. -/
theorem childrenAt_next (hcontinue : n.opcode.canContinue = true) :
    (∀ e ∈ n.edges, e.via = .fallthrough → g.childrenAt l [n.addressAfter] = [e.target]) ∧
    ((∀ e ∈ n.edges, e.via ≠ .fallthrough) → g.childrenAt l [n.addressAfter] = []) := by
  constructor
  · intro e he hvia
    apply h.childrenAt_singleton
    · exact (mem_children_iff hn).mpr ⟨e, he, rfl⟩
    · exact h.address?_of_fallthrough hn he hvia
  · intro hnone
    apply childrenAt_eq_nil
    intro c hc hafter
    obtain ⟨e, he, hvia⟩ := h.exists_fallthrough hn hcontinue hc hafter
    exact hnone e he hvia

end Edges

end FlowGraph.Shows

end DalvikFlow
