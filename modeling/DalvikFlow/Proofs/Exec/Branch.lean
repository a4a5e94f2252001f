import DalvikFlow.Proofs.Exec.Effect
import DalvikFlow.Proofs.Exec.Program
import DalvikFlow.Proofs.Exec.Target

/-! The operation of a conditional branch and the edges of its node: the target is where the branch
edge leads, and the address after the instruction is where it goes on, if it does. -/
namespace DalvikFlow

open Body

/-- An opcode with a condition is executed, may go on, and refers to no data. -/
theorem Opcode.of_condition? {op : Opcode} {c : Condition} (h : op.condition? = some c) :
    op.canContinue = true ∧ op.isPayload = false ∧ op.isSwitch = false ∧
      op ≠ .fillArrayData := by
  unfold condition? at h
  split at h
  all_goals first
    | cases h; exact ⟨rfl, rfl, rfl, nofun⟩
    | cases h

namespace FlowGraph.Shows

variable {g : FlowGraph} {distinct : Bool} {code : List Instruction} {l : Nat} {n : Node}
  {condition : Condition} {d : Int32} (h : g.Shows distinct code) (hn : g.node? l = some n)
  (hc : n.opcode.condition? = some condition) (hd : n.instruction.offset? = some d)

include h hn hc hd

theorem branch_edges :
    ∃ p t, StartsAt code (n.address + d.toInt) t ∧
      n.edges = ⟨t.location, .branch⟩ :: continuation code p n.instruction := by
  obtain ⟨-, -, hswitch, hdata⟩ := Opcode.of_condition? hc
  have hcode := Opcode.refersToData_eq_false_iff.mpr ⟨hswitch, hdata⟩
  obtain ⟨p, refs, -, -, -, -, hrefs, hedges⟩ := h.node_spec hn
  rcases hrefs.of_code hcode with ⟨hnone, -⟩ | ⟨d', t, hd', ht, rfl⟩
  · rw [hd] at hnone
    cases hnone
  · cases hd.symm.trans hd'
    exact ⟨p, t, ht, hedges⟩

theorem branch_edge {target : Nat} (ht : n.branchTarget = .ok target) :
    ∃ e ∈ n.edges, (n.edges.filter fun e => e.via = .branch) = [e] ∧
      g.address? e.target = some target := by
  obtain ⟨p, t, hstarts, hedges⟩ := h.branch_edges hn hc hd
  obtain ⟨m, hm, -, hma⟩ := h.exists_node_of_startsAt hstarts
  obtain ⟨-, d', hd', ha⟩ := Node.branchTarget_eq_ok_iff.mp ht
  cases hd.symm.trans hd'
  have hnone : (continuation code p n.instruction).filter (fun e => e.via = .branch) = [] := by
    rw [List.filter_eq_nil_iff]
    intro e he
    obtain ⟨-, next, -, -, rfl⟩ := mem_continuation_iff.mp he
    simp
  refine ⟨⟨t.location, .branch⟩, ?_, ?_, ?_⟩
  · rw [hedges]
    exact List.mem_cons_self
  · rw [hedges, List.filter_cons_of_pos (by simp), hnone]
  · rw [address?_of_node? hm, Int.ofNat.inj (hma.trans ha.symm)]

end FlowGraph.Shows

namespace Program

theorem step_branch {g : FlowGraph} {p : Program Op} {l : Nat} {n : Node} {op : Op}
    {relation : Relation} {lhs : UInt16} {rhs? : Option UInt16} {target next : Nat}
    {f : RegisterFile} {a b : Item} (hn : g.node? l = some n) (hop : p.get? n.address = some op)
    (haction : op.action = .branch relation lhs rhs? target next) (ha : f.read lhs = .ok a)
    (hb : (rhs?.map f.read).getD (.ok (.ofInt 0)) = .ok b) :
    p.step g l f =
      .ok ((g.childrenAt l (op.branchNext relation target next a b)).map fun c => (c, f)) :=
  step_eq_ok_iff.mpr ⟨n, op, _, f, hn, hop, Op.effect_branch haction ha hb, rfl⟩

/-- The operation of a conditional branch leads where the edges of its node do. A step goes along
the edge that the operands decide for, and along all of them if they do not decide. -/
theorem branch_agrees_with_edges {options : GraphOptions} {code : List Instruction}
    {g : FlowGraph} {l : Nat} {n : Node} {op : Op}
    (hg : (FlowGraph.ofCode options code).result = .ok g) (hn : g.node? l = some n)
    (hop : Family.branch.create g n = .ok op) :
    ∃ relation lhs rhs? target e,
      op.action = .branch relation lhs rhs? target n.addressAfter ∧
      n.opcode.condition? = some ⟨relation, rhs?.isNone⟩ ∧
      (n.edges.filter fun e => e.via = .branch) = [e] ∧ g.address? e.target = some target ∧
      n.addressAfter = n.address + n.instruction.units.toNat ∧
      (∀ c ∈ n.edges, c.via = .fallthrough → g.address? c.target = some n.addressAfter) ∧
      ((∀ c ∈ n.edges, c.via ≠ .fallthrough) →
        ∀ c ∈ g.children l, g.address? c ≠ some n.addressAfter) ∧
      (∀ p, ofGraph Registry.builtin g = .ok p → p.get? n.address = some op) ∧
      ∀ (p : Program Op) (f : RegisterFile) (a b : Item), p.get? n.address = some op →
        f.read lhs = .ok a → (rhs?.map f.read).getD (.ok (.ofInt 0)) = .ok b →
        (relation.decideItems? a b = some true → p.step g l f = .ok [(e.target, f)]) ∧
        (relation.decideItems? a b = some false →
          (∀ c ∈ n.edges, c.via = .fallthrough → p.step g l f = .ok [(c.target, f)]) ∧
          ((∀ c ∈ n.edges, c.via ≠ .fallthrough) → p.step g l f = .ok [])) ∧
        (relation.decideItems? a b = none →
          p.step g l f = .ok ((g.children l).eraseDups.map fun c => (c, f))) := by
  have hshows := FlowGraph.shows_of_result hg
  have hid := hshows.node_id hn
  -- both forms of a branch have a target, the address after them and the children of the node
  obtain ⟨relation, lhs, rhs?, target, hc, ht, rfl⟩ : ∃ relation lhs rhs? target,
      n.opcode.condition? = some ⟨relation, rhs?.isNone⟩ ∧ n.branchTarget = .ok target ∧
      op = ⟨g.site n, .branch relation lhs rhs? target n.addressAfter⟩ := by
    cases Family.create_eq_ok_iff.mp hop with
    | branch hc _ _ ht => exact ⟨_, _, _, _, hc, ht, rfl⟩
    | branchZero hc _ ht => exact ⟨_, _, _, _, hc, ht, rfl⟩
  obtain ⟨hcontinue, hcode, -, -⟩ := Opcode.of_condition? hc
  obtain ⟨-, d, hd, -⟩ := Node.branchTarget_eq_ok_iff.mp ht
  obtain ⟨e, he, hsingle, htarget⟩ := hshows.branch_edge hn hc hd ht
  obtain ⟨hon, hoff⟩ := hshows.childrenAt_next hn hcontinue
  refine ⟨relation, lhs, rhs?, target, e, rfl, hc, hsingle, htarget,
    hshows.addressAfter_eq_add hn, ?_, ?_, ?_, ?_⟩
  · intro c hmem hvia
    exact hshows.address?_of_fallthrough hn hmem hvia
  · intro hnone c hchild hafter
    obtain ⟨c', hmem, hvia⟩ := hshows.exists_fallthrough hn hcontinue hchild hafter
    exact hnone c' hmem hvia
  · intro p hp
    refine (get?_eq_some_iff hshows hp hn).mpr ⟨hcode, ?_⟩
    exact Registry.builtin_create_eq_ok_iff.mpr ⟨.branch, Family.create_eq_ok_iff.mp hop⟩
  · intro p f a b hget ha hb
    have hstep := step_branch hn hget rfl ha hb
    rw [Op.branchNext] at hstep
    refine ⟨?_, ?_, ?_⟩
    · intro hdecided
      have hchild := hshows.childrenAt_singleton
        ((FlowGraph.mem_children_iff hn).mpr ⟨e, he, rfl⟩) htarget
      simp only [hdecided, hchild] at hstep
      exact hstep
    · intro hdecided
      simp only [hdecided] at hstep
      constructor
      · intro c hmem hvia
        rw [hon c hmem hvia] at hstep
        exact hstep
      · intro hnone
        rw [hoff hnone] at hstep
        exact hstep
    · intro hundecided
      simp only [hundecided, Op.children, Node.site_children hid,
        hshows.childrenAt_nextAddresses] at hstep
      exact hstep

/-- A branch to itself that ends the body. -/
def lastBranch : List Instruction :=
  [((Instruction.ofOpcode .ifEqz 0).withRegisters [0]).withOffset 0]

/-- It stays where it is while its condition holds, and then there is nowhere to go. -/
theorem branch_agrees_in_lastBranch :
    ∃ g p, (FlowGraph.ofCode {} lastBranch).result = .ok g ∧
      ofGraph Registry.builtin g = .ok p ∧
      p.step g 0 (.mk 1 [(0, .ofInt 0)]) = .ok [(0, .mk 1 [(0, .ofInt 0)])] ∧
      p.step g 0 (.mk 1 [(0, .ofInt 1)]) = .ok [] := by
  obtain ⟨g, hg⟩ : ∃ g, (FlowGraph.ofCode {} lastBranch).result = .ok g := ⟨_, rfl⟩
  obtain ⟨p, hp⟩ : ∃ p, ofGraph Registry.builtin g = .ok p := by
    cases hg
    exact ⟨_, rfl⟩
  have hn : g.node? 0 = some
      ⟨0, 0, ((Instruction.ofOpcode .ifEqz 0).withRegisters [0]).withOffset 0, [⟨0, .branch⟩]⟩ := by
    cases hg
    rfl
  have hop : Family.branch.create g
      ⟨0, 0, ((Instruction.ofOpcode .ifEqz 0).withRegisters [0]).withOffset 0, [⟨0, .branch⟩]⟩ =
      .ok ⟨⟨0, .ifEqz, [0]⟩, .branch .eq 0 none 0 2⟩ := by
    cases hg
    rfl
  obtain ⟨relation, lhs, rhs?, target, e, haction, -, hsingle, -, -, -, -, hprogram, hsteps⟩ :=
    branch_agrees_with_edges hg hn hop
  cases haction
  cases hsingle
  obtain ⟨htaken, -, -⟩ := hsteps p (.mk 1 [(0, .ofInt 0)]) _ _ (hprogram p hp) rfl rfl
  obtain ⟨-, hpassed, -⟩ := hsteps p (.mk 1 [(0, .ofInt 1)]) _ _ (hprogram p hp) rfl rfl
  refine ⟨g, p, hg, hp, htaken rfl, (hpassed rfl).2 ?_⟩
  intro c hc
  cases List.mem_singleton.mp hc
  exact nofun

end Program

end DalvikFlow
