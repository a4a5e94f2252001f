import DalvikFlow.Proofs.Graph.Nodes

/-! Which transfers of control leave an instruction. The operand decides about branches, so that every
opcode may have one, and the opcode about everything else. -/
namespace DalvikFlow

namespace Opcode

def isExit (op : Opcode) : Bool := op.isReturn || op = .throw

/-- What ends the method, or is no code, neither goes on nor refers to data. -/
theorem stops_of_end {op : Opcode} (h : op.isExit = true ∨ op.isPayload = true) :
    op.canContinue = false ∧ op.refersToData = false := by
  revert h; cases op <;> decide

end Opcode

/-- What an instruction must be for control to leave it in a given way. -/
def Transfer.Leaves (i : Instruction) : Transfer → Prop
  | branch => i.offset?.isSome = true ∧ i.opcode.refersToData = false
  | fallthrough => i.opcode.canContinue = true
  | switchCase _ => i.opcode.isSwitch = true

namespace Body

theorem continuation_eq_nil {code : List Instruction} {p : Nat} {i : Instruction}
    (h : i.opcode.canContinue = false) : continuation code p i = [] := by
  rw [List.eq_nil_iff_forall_not_mem]
  intro e he
  have hcontinue := (mem_continuation_iff.mp he).1
  rw [h] at hcontinue
  cases hcontinue

theorem ReferenceEdges.leaves {code : List Instruction} {distinct : Bool} {source : Nat}
    {i : Instruction} {refs : List Edge} (h : ReferenceEdges code distinct source i refs)
    {e : Edge} (he : e ∈ refs) : e.via.Leaves i := by
  cases h with
  | absent => cases he
  | switch _ _ honto hcases =>
      obtain ⟨c, -, t, -, -, rfl⟩ := exists_caseEdge_of_mem_kept hcases he
      exact honto.isSwitch
  | data => cases he
  | branch hd _ hn hnd hm =>
      cases List.mem_singleton.mp he
      refine ⟨hd ▸ rfl, Opcode.refersToData_eq_false_iff.mpr ?_⟩
      rcases mayRefer_iff.mp hm with honto | hdata | ⟨hs, hf, -⟩
      · exact absurd honto hn
      · exact absurd hdata hnd
      · exact ⟨hs, hf⟩

end Body

namespace FlowGraph.Shows

open Body

variable {g : FlowGraph} {distinct : Bool} {code : List Instruction} (h : g.Shows distinct code)
  {l : Nat} {n : Node} (hn : g.node? l = some n)

include h hn

theorem leaves {e : Edge} (he : e ∈ n.edges) : e.via.Leaves n.instruction := by
  obtain ⟨p, refs, -, -, -, -, hrefs, hedges⟩ := h.node_spec hn
  rw [hedges] at he
  rcases List.mem_append.mp he with he | he
  · exact hrefs.leaves he
  · obtain ⟨hcontinue, next, -, -, rfl⟩ := mem_continuation_iff.mp he
    exact hcontinue

theorem exists_branch_iff :
    (∃ e ∈ n.edges, e.via = .branch) ↔ Transfer.branch.Leaves n.instruction := by
  constructor
  · rintro ⟨e, he, hvia⟩
    exact hvia ▸ h.leaves hn he
  · rintro ⟨hsome, hcode⟩
    obtain ⟨p, refs, -, -, -, -, hrefs, hedges⟩ := h.node_spec hn
    rcases hrefs.of_code hcode with ⟨hnone, -⟩ | ⟨d, t, -, -, rfl⟩
    · rw [hnone] at hsome
      cases hsome
    · rw [hedges]
      exact ⟨_, List.mem_append_left _ List.mem_cons_self, rfl⟩

/-- There is the branch of the offset and no other edge. -/
theorem edges_of_end (hends : n.opcode.isExit = true ∨ n.isPayload = true) :
    (n.instruction.offset? = none ∧ n.edges = []) ∨
      ∃ d m, n.instruction.offset? = some d ∧ g.node? m.id = some m ∧
        (m.address : Int) = n.address + d.toInt ∧ n.edges = [⟨m.id, .branch⟩] := by
  obtain ⟨hstop, hcode⟩ := Opcode.stops_of_end hends
  obtain ⟨p, refs, -, -, -, -, hrefs, hedges⟩ := h.node_spec hn
  rw [continuation_eq_nil hstop, List.append_nil] at hedges
  rcases hrefs.of_code hcode with ⟨hnone, rfl⟩ | ⟨d, t, hd, ht, rfl⟩
  · exact .inl ⟨hnone, hedges⟩
  · obtain ⟨m, hm, hi, ha⟩ := h.exists_node_of_startsAt ht
    have hid := h.node_id hm
    refine .inr ⟨d, m, hd, hid.symm ▸ hm, ha, ?_⟩
    rw [hedges, hid]

end FlowGraph.Shows

end DalvikFlow
