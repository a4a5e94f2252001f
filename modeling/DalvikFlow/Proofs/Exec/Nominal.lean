import DalvikFlow.Proofs.Exec.Branch
import DalvikFlow.Proofs.Exec.Switch

/-! Where an operation goes next, against the nominal addresses: those of the children of its node. A
decision names the address after its instruction even if the body does not go on there. -/
namespace DalvikFlow

open Body

/-- The addresses that a decision can be made for. -/
def Action.decided : Action → List Nat
  | .branch _ _ _ target next => [target, next]
  | .switch _ cases next => next :: cases.map Prod.snd
  | .compare .. | .move .. | .constant .. | .flow .. => []

theorem Opcode.canContinue_of_isSwitch {op : Opcode} (h : op.isSwitch = true) :
    op.canContinue = true := by
  unfold isSwitch at h
  split at h
  next => rfl
  next => rfl
  next => cases h

theorem selectCase_mem (cases : List (Int32 × Nat)) (next : Nat) (key : Int32) :
    selectCase cases next key ∈ next :: cases.map Prod.snd := by
  unfold selectCase
  cases hfind : cases.find? fun c => c.1 = key with
  | none => exact List.mem_cons_self
  | some c =>
      apply List.mem_cons_of_mem
      exact List.mem_map_of_mem (List.mem_of_find?_eq_some hfind)

namespace Op

variable {op : Op} {f after : RegisterFile} {next : List Nat}

/-- An operation goes to all children, or to one address that it decides for. -/
theorem next_of_effect (h : op.effect f = .ok (next, after)) :
    next = op.children ∨ ∃ a ∈ op.action.decided, next = [a] := by
  obtain ⟨site, action⟩ := op
  cases action with
  | compare =>
      simp only [effect, bind_eq_ok_iff, pure_eq_ok_iff] at h
      obtain ⟨_, -, _, -, _, -, _, -, h⟩ := h
      cases h
      exact .inl rfl
  | branch relation lhs rhs? target next =>
      simp only [effect, bind_eq_ok_iff, pure_eq_ok_iff] at h
      obtain ⟨a, -, b, -, h⟩ := h
      cases h
      unfold branchNext
      cases relation.decideItems? a b with
      | none => exact .inl rfl
      | some holds =>
          right
          cases holds with
          | true => exact ⟨target, List.mem_cons_self, rfl⟩
          | false => exact ⟨next, List.mem_cons_of_mem _ List.mem_cons_self, rfl⟩
  | switch selector cases next =>
      simp only [effect, bind_eq_ok_iff, pure_eq_ok_iff] at h
      obtain ⟨item, -, h⟩ := h
      cases h
      unfold switchNext
      split
      next key _ => exact .inr ⟨_, selectCase_mem cases next key, rfl⟩
      next => exact .inl rfl
  | move =>
      simp only [effect, bind_eq_ok_iff, pure_eq_ok_iff] at h
      obtain ⟨_, -, _, -, h⟩ := h
      cases h
      exact .inl rfl
  | constant =>
      simp only [effect, bind_eq_ok_iff, pure_eq_ok_iff] at h
      obtain ⟨_, -, h⟩ := h
      cases h
      exact .inl rfl
  | flow =>
      cases h
      exact .inl rfl

end Op

namespace FlowGraph.Shows

variable {g : FlowGraph} {distinct : Bool} {code : List Instruction} {l : Nat} {n : Node}
  (h : g.Shows distinct code) (hn : g.node? l = some n)

include h hn

/-- Every case of a table is one of the children. -/
theorem table_mem_nextAddresses {target : Nat} {cs : List SwitchCase} {a : Nat}
    (hs : n.opcode.isSwitch = true) (ht : n.branchTarget = .ok target)
    (hcases : g.casesAt? target = some cs) (ha : a ∈ (cs.filterMap n.caseTarget?).map Prod.snd) :
    a ∈ g.nextAddresses l := by
  obtain ⟨-, d, hd, htarget⟩ := Node.branchTarget_eq_ok_iff.mp ht
  obtain ⟨m, hm, hcs⟩ := Option.bind_eq_some_iff.mp hcases
  obtain ⟨k, hk, hm⟩ := Option.bind_eq_some_iff.mp hm
  obtain ⟨m', hm', hma⟩ := h.nodeAt?_eq_some_iff.mp hk
  cases hm.symm.trans hm'
  obtain ⟨p, -, hi, -, -, hstart, -⟩ := h.node_spec hm
  have hstarts : StartsAt code (n.address + d.toInt) m.instruction := by
    refine ⟨p, hi, ?_⟩
    rw [← hstart, hma, htarget]
  have hcs : m.instruction.cases? = some cs := by
    split at hcs
    next => exact hcs
    next => cases hcs
  obtain ⟨-, -, haddresses⟩ := h.table_edges hn hs hd hstarts hcs
  obtain ⟨e, he, -, hae⟩ := (haddresses a).mp ha
  exact mem_nextAddresses ((mem_children_iff hn).mpr ⟨e, he, rfl⟩) hae

theorem branchTarget_mem_nextAddresses {condition : Condition} {target : Nat}
    (hc : n.opcode.condition? = some condition) (ht : n.branchTarget = .ok target) :
    target ∈ g.nextAddresses l := by
  obtain ⟨-, d, hd, -⟩ := Node.branchTarget_eq_ok_iff.mp ht
  obtain ⟨e, he, -, htarget⟩ := h.branch_edge hn hc hd ht
  exact mem_nextAddresses ((mem_children_iff hn).mpr ⟨e, he, rfl⟩) htarget

/-- Only branches and switches decide, for children or for the address after the instruction. -/
theorem decided_cases {r : Registry} {op : Op} (hop : r.create g n = .ok op) {a : Nat}
    (ha : a ∈ op.action.decided) :
    (n.opcode.condition?.isSome = true ∨ n.opcode.isSwitch = true) ∧
      n.opcode.canContinue = true ∧ (a ∈ op.children ∨ a = n.addressAfter) := by
  rw [Registry.create_children hop (h.node_id hn)]
  obtain ⟨family, -, hmakes⟩ := Registry.create_eq_ok_iff.mp hop
  cases hmakes with
  | compare | move | constant | flow => cases ha
  | branch hc _ _ ht | branchZero hc _ ht =>
      refine ⟨.inl (Option.isSome_of_mem hc), (Opcode.of_condition? hc).1, ?_⟩
      rcases List.mem_cons.mp ha with rfl | ha
      · exact .inl (h.branchTarget_mem_nextAddresses hn hc ht)
      · exact .inr (List.mem_singleton.mp ha)
  | switch hs ht hcases _ =>
      refine ⟨.inr hs, Opcode.canContinue_of_isSwitch hs, ?_⟩
      rcases List.mem_cons.mp ha with rfl | ha
      · exact .inr rfl
      · exact .inl (h.table_mem_nextAddresses hn hs ht hcases ha)

end FlowGraph.Shows

namespace Op

/-- What an operation returns are distinct addresses: all nominal ones, or one that a decision is made
for. That one is nominal too, unless the decision is to go on and the body does not. -/
theorem next_nominal {options : GraphOptions} {code : List Instruction} {g : FlowGraph} {l : Nat}
    {n : Node} {op : Op} {f after : RegisterFile} {next : List Nat}
    (hg : (FlowGraph.ofCode options code).result = .ok g) (hn : g.node? l = some n)
    (hop : Registry.builtin.create g n = .ok op) (hrun : op.run f = (.ok next, after)) :
    op.children = g.nextAddresses l ∧ next.Nodup ∧
      (next = op.children ∨
        (n.opcode.condition?.isSome = true ∨ n.opcode.isSwitch = true) ∧
          ∃ a, next = [a] ∧
            (a ∈ op.children ∨
              a ∉ op.children ∧ a = n.address + n.instruction.units.toNat ∧
                ∀ e ∈ n.edges, e.via ≠ .fallthrough)) := by
  have hshows := FlowGraph.shows_of_result hg
  have hchildren := Registry.create_children hop (hshows.node_id hn)
  refine ⟨hchildren, ?_⟩
  rcases next_of_effect (run_eq_ok_iff.mp hrun) with rfl | ⟨a, ha, rfl⟩
  · refine ⟨?_, .inl rfl⟩
    rw [hchildren]
    exact nodup_eraseDups _
  · obtain ⟨hdecides, hcontinue, hcases⟩ := hshows.decided_cases hn hop ha
    refine ⟨List.nodup_singleton a, .inr ⟨hdecides, a, rfl, ?_⟩⟩
    rcases hcases with hmem | rfl
    · exact .inl hmem
    · have hiff := hshows.addressAfter_mem_nextAddresses_iff hn hcontinue
      rw [hchildren, ← hshows.addressAfter_eq_add hn]
      by_cases hmem : n.addressAfter ∈ g.nextAddresses l
      · exact .inl hmem
      · refine .inr ⟨hmem, rfl, ?_⟩
        intro e he hvia
        exact hmem (hiff.mpr ⟨e, he, hvia⟩)

theorem create_lastBranch :
    ∃ g n, (FlowGraph.ofCode {} Program.lastBranch).result = .ok g ∧ g.node? 0 = some n ∧
      Registry.builtin.create g n = .ok ⟨⟨0, .ifEqz, [0]⟩, .branch .eq 0 none 0 2⟩ := by
  obtain ⟨g, hg⟩ : ∃ g, (FlowGraph.ofCode {} Program.lastBranch).result = .ok g := ⟨_, rfl⟩
  obtain ⟨n, hn⟩ : ∃ n, g.node? 0 = some n := by
    cases hg
    exact ⟨_, rfl⟩
  refine ⟨g, n, hg, hn, ?_⟩
  cases hg
  cases hn
  rfl

theorem next_nominal_of_lastBranch :
    ∃ g n op, (FlowGraph.ofCode {} Program.lastBranch).result = .ok g ∧ g.node? 0 = some n ∧
      Registry.builtin.create g n = .ok op ∧
      op.run (.mk 1 [(0, .ofInt 0)]) = (.ok [0], .mk 1 [(0, .ofInt 0)]) ∧
      g.nextAddresses 0 = [0] ∧ [0].Nodup := by
  obtain ⟨g, n, hg, hn, hop⟩ := create_lastBranch
  obtain ⟨hchildren, hnodup, -⟩ := next_nominal (f := (.mk 1 [(0, .ofInt 0)])) hg hn hop rfl
  exact ⟨g, n, _, hg, hn, hop, rfl, hchildren.symm, hnodup⟩

/-- A branch that ends the body and whose condition fails goes to the end of the body. -/
theorem next_not_nominal_of_lastBranch :
    ¬ ∀ (options : GraphOptions) (code : List Instruction) (g : FlowGraph) (l : Nat) (n : Node)
      (op : Op) (f after : RegisterFile) (next : List Nat),
      (FlowGraph.ofCode options code).result = .ok g → g.node? l = some n →
      Registry.builtin.create g n = .ok op → op.run f = (.ok next, after) →
      next.Nodup ∧ ∀ a ∈ next, a ∈ op.children := by
  intro hall
  obtain ⟨g, n, hg, hn, hop⟩ := create_lastBranch
  obtain ⟨-, hmem⟩ := hall {} Program.lastBranch g 0 n _ (.mk 1 [(0, .ofInt 1)]) _ [2] hg hn hop rfl
  have hend : 2 ∈ [0] := hmem 2 List.mem_cons_self
  exact absurd hend (by decide)

end Op

end DalvikFlow
