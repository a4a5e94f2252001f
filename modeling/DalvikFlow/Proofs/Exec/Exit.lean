import DalvikFlow.Proofs.Exec.Footprint
import DalvikFlow.Proofs.Exec.Program
import DalvikFlow.Proofs.Exec.Target
import DalvikFlow.Proofs.Graph.Transfer

/-! The ends of a method: where a return or a throw goes to. -/
namespace DalvikFlow

open Body

theorem Opcode.of_isExit {op : Opcode} (h : op.isExit = true) :
    op.isPayload = false ∧ op.family? = some .flow := by
  revert h; cases op <;> decide

namespace Program

variable {g : FlowGraph} {p : Program Op} {distinct : Bool} {code : List Instruction}

/-- What leaves the registers alone goes to all children. -/
theorem step_flow (hg : g.Shows distinct code) (hp : ofGraph Registry.builtin g = .ok p) {l : Nat}
    {n : Node} (hn : g.node? l = some n) (hcode : n.isPayload = false)
    (hflow : n.opcode.family? = some .flow) (f : RegisterFile) :
    p.step g l f = .ok (n.children.eraseDups.map fun c => (c, f)) := by
  obtain ⟨op, hop⟩ := exists_op hg hp hn hcode
  have hcreate := ((get?_eq_some_iff hg hp hn).mp hop).2
  have hchildren := Registry.create_children hcreate (hg.node_id hn)
  have heffect : op.effect f = .ok (g.nextAddresses l, f) := by
    obtain ⟨family, hmakes⟩ := Registry.builtin_create_eq_ok_iff.mp hcreate
    rw [← hchildren]
    cases hflow.symm.trans hmakes.family?_eq
    cases hmakes with
    | flow => rfl
  refine step_eq_ok_iff.mpr ⟨n, op, _, f, hn, hop, heffect, ?_⟩
  rw [hg.childrenAt_nextAddresses, FlowGraph.children, hn]
  rfl

/-- Each edge suits the opcode that it leaves, but a branch needs no more than an offset. So a return, a
throw and a payload have no edge if they have no offset, and otherwise the branch to where it leads. A
step from a return or a throw goes the same way. -/
theorem exits_of_result {options : GraphOptions} {code : List Instruction} {g : FlowGraph}
    (hg : (FlowGraph.ofCode options code).result = .ok g) :
    (∀ l n, g.node? l = some n →
      (∀ e ∈ n.edges, e.via.Leaves n.instruction) ∧
        ((∃ e ∈ n.edges, e.via = .branch) ↔ Transfer.branch.Leaves n.instruction)) ∧
    (∀ l n, g.node? l = some n → n.opcode.isExit = true ∨ n.isPayload = true →
      (n.instruction.offset? = none ∧ n.edges = []) ∨
        ∃ d m, n.instruction.offset? = some d ∧ g.node? m.id = some m ∧
          (m.address : Int) = n.address + d.toInt ∧ n.edges = [⟨m.id, .branch⟩]) ∧
    ∀ p, ofGraph Registry.builtin g = .ok p → ∀ l n f, g.node? l = some n →
      n.opcode.isExit = true → p.step g l f = .ok (n.children.map fun c => (c, f)) := by
  have hshows := FlowGraph.shows_of_result hg
  refine ⟨?_, fun l n hn hends => hshows.edges_of_end hn hends, ?_⟩
  · intro l n hn
    exact ⟨fun e he => hshows.leaves hn he, hshows.exists_branch_iff hn⟩
  · intro p hp l n f hn hexit
    have hdistinct : n.children.eraseDups = n.children := by
      rcases hshows.edges_of_end hn (.inl hexit) with ⟨-, hedges⟩ | ⟨d, m, -, -, -, hedges⟩
      · rw [Node.children, hedges]
        rfl
      · rw [Node.children, hedges]
        rfl
    obtain ⟨hcode, hflow⟩ := Opcode.of_isExit hexit
    rw [step_flow hshows hp hn hcode hflow, hdistinct]

/-- Returns, with an offset all the same. -/
def returningBranch : List Instruction := [(Instruction.ofOpcode .returnVoid 0).withOffset 0]

theorem exists_returningBranch :
    ∃ g p n, (FlowGraph.ofCode {} returningBranch).result = .ok g ∧
      ofGraph Registry.builtin g = .ok p ∧ g.node? 0 = some n ∧ n.opcode = .returnVoid ∧
      n.edges = [⟨0, .branch⟩] := by
  obtain ⟨g, hg⟩ : ∃ g, (FlowGraph.ofCode {} returningBranch).result = .ok g := ⟨_, rfl⟩
  obtain ⟨p, hp⟩ : ∃ p, ofGraph Registry.builtin g = .ok p := by
    cases hg
    exact ⟨_, rfl⟩
  obtain ⟨n, hn⟩ : ∃ n, g.node? 0 = some n := by
    cases hg
    exact ⟨_, rfl⟩
  refine ⟨g, p, n, hg, hp, hn, ?_⟩
  cases hg
  cases hn
  exact ⟨rfl, rfl⟩

theorem exits_of_returningBranch :
    ∃ g p, (FlowGraph.ofCode {} returningBranch).result = .ok g ∧
      ofGraph Registry.builtin g = .ok p ∧ ∀ f, p.step g 0 f = .ok [(0, f)] := by
  obtain ⟨g, p, n, hg, hp, hn, hreturn, hedges⟩ := exists_returningBranch
  obtain ⟨-, -, hstep⟩ := exits_of_result hg
  refine ⟨g, p, hg, hp, ?_⟩
  intro f
  rw [hstep p hp 0 n f hn (hreturn ▸ rfl), Node.children, hedges]
  rfl

/-- A return with an offset goes on. -/
theorem exit_continues_in_returningBranch :
    ¬ ∀ (options : GraphOptions) (code : List Instruction) (g : FlowGraph),
      (FlowGraph.ofCode options code).result = .ok g →
      (∀ l n, g.node? l = some n →
        (∀ e ∈ n.edges, e.via = .branch →
          n.opcode.isGoto = true ∨ n.opcode.isConditionalBranch = true) ∧
        (∀ e ∈ n.edges, e.via.isSwitchCase = true → n.opcode.isSwitch = true) ∧
        (n.opcode.isReturn = true ∨ n.opcode = .throw ∨ n.isPayload = true → n.edges = [])) ∧
      ∀ p, ofGraph Registry.builtin g = .ok p → ∀ l n f, g.node? l = some n →
        n.opcode.isReturn = true ∨ n.opcode = .throw → p.step g l f = .ok [] := by
  intro hall
  obtain ⟨g, p, n, hg, -, hn, hreturn, hedges⟩ := exists_returningBranch
  obtain ⟨hleaves, -⟩ := hall {} returningBranch g hg
  obtain ⟨-, -, hends⟩ := hleaves 0 n hn
  have hnone : n.edges = [] := hends (.inl (hreturn ▸ rfl))
  rw [hedges] at hnone
  cases hnone

end Program

end DalvikFlow
