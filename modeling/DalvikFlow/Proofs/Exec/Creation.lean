import DalvikFlow.Exec.Registry
import DalvikFlow.Proofs.Sequence

/-! The operations that the families make, family by family, and what a node has to provide for them. -/
namespace DalvikFlow

namespace Family

def supports : Family → Opcode → Bool
  | compare, op => op.comparison?.isSome
  | branch, op => op.condition?.isSome
  | switch, op => op.isSwitch
  | move, op => op.isMove
  | constant, op => op.constant?.isSome
  | flow, op => op.isFlow

/-- What a family asks of the opcodes that it is registered for. -/
def expected : Family → Expectation
  | compare => .comparison
  | branch => .conditionalBranch
  | switch => .switch
  | move => .move
  | constant => .numericConstant
  | flow => .controlFlow

end Family

/-- No opcode is supported by two families. -/
theorem Opcode.family?_eq_some_iff {op : Opcode} {family : Family} :
    op.family? = some family ↔ family.supports op = true := by
  constructor
  · cases op <;> rintro ⟨⟩ <;> rfl
  · intro h
    cases family with
    | compare => exact if_pos h
    | branch =>
        change op.condition?.isSome = true at h
        unfold condition? at h
        split at h
        all_goals first | rfl | cases h
    | switch =>
        change op.isSwitch = true at h
        unfold isSwitch at h
        split at h
        all_goals first | rfl | cases h
    | move =>
        change op.isMove = true at h
        unfold isMove at h
        split at h
        all_goals first | rfl | cases h
    | constant =>
        change op.constant?.isSome = true at h
        unfold constant? at h
        split at h
        all_goals first | rfl | cases h
    | flow =>
        change op.isFlow = true at h
        unfold isFlow at h
        split at h
        all_goals first | rfl | cases h

namespace Node

variable {n : Node}

theorem require_eq_ok_iff {α : Type} {expected : Expectation} {found : Option α} {a : α} :
    n.require expected found = .ok a ↔ found = some a := by
  cases found <;> simp [require]

theorem requireThat_eq_ok_iff {expected : Expectation} {holds : Bool} {u : Unit} :
    n.requireThat expected holds = .ok u ↔ holds = true := by
  cases holds <;> simp [requireThat]

theorem register_eq_ok_iff {index : Nat} {r : UInt16} :
    n.register index = .ok r ↔ n.instruction.register? index = some r := require_eq_ok_iff

theorem require_eq_error_iff {α : Type} {expected : Expectation} {found : Option α} {e : Error} :
    n.require expected found = .error e ↔
      found = none ∧ e = .invalidOperand n.opcode expected := by
  cases found <;> simp [require, eq_comm]

theorem requireThat_eq_error_iff {expected : Expectation} {holds : Bool} {e : Error} :
    n.requireThat expected holds = .error e ↔
      holds = false ∧ e = .invalidOperand n.opcode expected := by
  cases holds <;> simp [requireThat, eq_comm]

theorem register_eq_error_iff {index : Nat} {e : Error} :
    n.register index = .error e ↔
      n.instruction.registers.length ≤ index ∧ e = .invalidOperand n.opcode .register := by
  rw [register, require_eq_error_iff, Instruction.register?, List.getElem?_eq_none_iff]

theorem branchTarget_eq_ok_iff {a : Nat} :
    n.branchTarget = .ok a ↔ a ≤ maxAddress ∧
      ∃ d, n.instruction.offset? = some d ∧ (a : Int) = n.address + d.toInt := by
  simp only [branchTarget, bind_eq_ok_iff, require_eq_ok_iff]
  constructor
  · rintro ⟨d, hd, h⟩
    split at h
    next hrange =>
      have ha := pure_eq_ok_iff.mp h
      refine ⟨?_, d, hd, ?_⟩ <;> omega
    next => cases h
  · rintro ⟨hle, d, hd, ha⟩
    refine ⟨d, hd, ?_⟩
    rw [if_pos ⟨by omega, by omega⟩, pure_eq_ok_iff]
    omega

end Node

/-- What the families make of a node. A branch without a second register compares with zero. -/
inductive Family.Makes (g : FlowGraph) (n : Node) : Family → Op → Prop
  | compare {comparison dest lhs rhs} : n.opcode.comparison? = some comparison →
      n.instruction.register? 0 = some dest → n.instruction.register? 1 = some lhs →
      n.instruction.register? 2 = some rhs →
      Makes g n .compare ⟨g.site n, .compare comparison dest lhs rhs⟩
  | branch {relation lhs rhs target} : n.opcode.condition? = some ⟨relation, false⟩ →
      n.instruction.register? 0 = some lhs → n.instruction.register? 1 = some rhs →
      n.branchTarget = .ok target →
      Makes g n .branch ⟨g.site n, .branch relation lhs (some rhs) target n.addressAfter⟩
  | branchZero {relation lhs target} : n.opcode.condition? = some ⟨relation, true⟩ →
      n.instruction.register? 0 = some lhs → n.branchTarget = .ok target →
      Makes g n .branch ⟨g.site n, .branch relation lhs none target n.addressAfter⟩
  | switch {selector target cs} : n.opcode.isSwitch = true → n.branchTarget = .ok target →
      g.casesAt? target = some cs → n.instruction.register? 0 = some selector →
      Makes g n .switch
        ⟨g.site n, .switch selector (cs.filterMap n.caseTarget?) n.addressAfter⟩
  | move {dest source} : n.opcode.isMove = true → n.instruction.register? 0 = some dest →
      n.instruction.register? 1 = some source → Makes g n .move ⟨g.site n, .move dest source⟩
  | constant {item literal dest} : n.opcode.constant? = some item →
      n.instruction.literal? = some literal → n.instruction.register? 0 = some dest →
      Makes g n .constant ⟨g.site n, .constant dest (item literal)⟩
  | flow : n.opcode.isFlow = true → Makes g n .flow ⟨g.site n, .flow n.instruction.registers⟩

namespace Family

variable {family : Family} {g : FlowGraph} {n : Node} {op : Op}

theorem createBranch_eq_ok_iff : createBranch g n = .ok op ↔ Makes g n .branch op := by
  simp only [createBranch, bind_eq_ok_iff, Node.require_eq_ok_iff]
  constructor
  · rintro ⟨⟨relation, withZero⟩, hcondition, h⟩
    cases withZero with
    | true =>
        simp only [if_true, bind_eq_ok_iff, pure_eq_ok_iff, Node.register_eq_ok_iff] at h
        obtain ⟨_, rfl, lhs, hl, target, ht, rfl⟩ := h
        exact .branchZero hcondition hl ht
    | false =>
        simp only [Bool.false_eq_true, if_false, bind_eq_ok_iff, pure_eq_ok_iff,
          Node.register_eq_ok_iff] at h
        obtain ⟨_, hr, lhs, hl, target, ht, rfl⟩ := h
        obtain ⟨rhs, hrhs, rfl⟩ := map_eq_ok_iff.mp hr
        exact .branch hcondition hl (Node.register_eq_ok_iff.mp hrhs) ht
  · intro h
    cases h with
    | branch hcondition hl hr ht =>
        refine ⟨_, hcondition, ?_⟩
        simp only [Bool.false_eq_true, if_false, bind_eq_ok_iff, pure_eq_ok_iff,
          Node.register_eq_ok_iff]
        refine ⟨_, ?_, _, hl, _, ht, rfl⟩
        exact map_eq_ok_iff.mpr ⟨_, Node.register_eq_ok_iff.mpr hr, rfl⟩
    | branchZero hcondition hl ht =>
        refine ⟨_, hcondition, ?_⟩
        simp only [if_true, bind_eq_ok_iff, pure_eq_ok_iff, Node.register_eq_ok_iff]
        exact ⟨_, rfl, _, hl, _, ht, rfl⟩

theorem createSwitch_eq_ok_iff : createSwitch g n = .ok op ↔ Makes g n .switch op := by
  simp only [createSwitch, bind_eq_ok_iff, Node.requireThat_eq_ok_iff]
  constructor
  · rintro ⟨_, hs, target, ht, h⟩
    cases hcases : g.casesAt? target with
    | none => simp [hcases] at h
    | some cs =>
        simp only [hcases, bind_eq_ok_iff, pure_eq_ok_iff, Node.register_eq_ok_iff] at h
        obtain ⟨selector, hr, rfl⟩ := h
        exact .switch hs ht hcases hr
  · intro h
    cases h with
    | switch hs ht hcases hr =>
        refine ⟨(), hs, _, ht, ?_⟩
        simp only [hcases, bind_eq_ok_iff, pure_eq_ok_iff, Node.register_eq_ok_iff]
        exact ⟨_, hr, rfl⟩

/-- A family makes an operation exactly if the node has what the operation needs. -/
theorem create_eq_ok_iff : family.create g n = .ok op ↔ Makes g n family op := by
  cases family with
  | compare =>
      simp only [create, createCompare, bind_eq_ok_iff, pure_eq_ok_iff, Node.require_eq_ok_iff,
        Node.register_eq_ok_iff]
      constructor
      · rintro ⟨comparison, hc, dest, hd, lhs, hl, rhs, hr, rfl⟩
        exact .compare hc hd hl hr
      · intro h
        cases h with
        | compare hc hd hl hr => exact ⟨_, hc, _, hd, _, hl, _, hr, rfl⟩
  | branch => exact createBranch_eq_ok_iff
  | switch => exact createSwitch_eq_ok_iff
  | move =>
      simp only [create, createMove, bind_eq_ok_iff, pure_eq_ok_iff, Node.requireThat_eq_ok_iff,
        Node.register_eq_ok_iff]
      constructor
      · rintro ⟨_, hm, dest, hd, source, hs, rfl⟩
        exact .move hm hd hs
      · intro h
        cases h with
        | move hm hd hs => exact ⟨(), hm, _, hd, _, hs, rfl⟩
  | constant =>
      simp only [create, createConstant, bind_eq_ok_iff, pure_eq_ok_iff, Node.require_eq_ok_iff,
        Node.register_eq_ok_iff]
      constructor
      · rintro ⟨item, hi, literal, hl, dest, hd, rfl⟩
        exact .constant hi hl hd
      · intro h
        cases h with
        | constant hi hl hd => exact ⟨_, hi, _, hl, _, hd, rfl⟩
  | flow =>
      simp only [create, createFlow, bind_eq_ok_iff, pure_eq_ok_iff, Node.requireThat_eq_ok_iff]
      constructor
      · rintro ⟨_, hf, rfl⟩
        exact .flow hf
      · intro h
        cases h with
        | flow hf => exact ⟨(), hf, rfl⟩

/-- The opcode is the first thing that is looked at. -/
theorem create_of_foreign (h : n.opcode.family? ≠ some family) :
    family.create g n = .error (.invalidOperand n.opcode family.expected) := by
  have hs : ¬ family.supports n.opcode = true := mt Opcode.family?_eq_some_iff.mpr h
  cases family with
  | compare =>
      have hnone : n.opcode.comparison? = none := Option.not_isSome_iff_eq_none.mp hs
      simp only [create, createCompare, hnone]
      rfl
  | branch =>
      have hnone : n.opcode.condition? = none := Option.not_isSome_iff_eq_none.mp hs
      simp only [create, createBranch, hnone]
      rfl
  | switch =>
      have hfalse : n.opcode.isSwitch = false := Bool.eq_false_iff.mpr hs
      simp only [create, createSwitch, hfalse]
      rfl
  | move =>
      have hfalse : n.opcode.isMove = false := Bool.eq_false_iff.mpr hs
      simp only [create, createMove, hfalse]
      rfl
  | constant =>
      have hnone : n.opcode.constant? = none := Option.not_isSome_iff_eq_none.mp hs
      simp only [create, createConstant, hnone]
      rfl
  | flow =>
      have hfalse : n.opcode.isFlow = false := Bool.eq_false_iff.mpr hs
      simp only [create, createFlow, hfalse]
      rfl

/-- Nothing is made of an opcode that belongs to another family. -/
theorem Makes.family?_eq (h : Makes g n family op) : n.opcode.family? = some family := by
  refine Classical.byContradiction fun hne => ?_
  have hok := create_eq_ok_iff.mpr h
  rw [create_of_foreign hne] at hok
  cases hok

/-- Whatever its family, an operation stands at its node. -/
theorem create_site (h : family.create g n = .ok op) : op.site = g.site n := by
  cases create_eq_ok_iff.mp h <;> rfl

/-- Of the graph only the site of the operation and the cases of payloads are looked at, and of the node
neither its name nor its location nor its edges. -/
theorem create_congr {g' : FlowGraph} {id location : Nat} {edges : List Edge}
    (hsite : g'.site ⟨id, n.address, { n.instruction with location }, edges⟩ = g.site n)
    (hcases : g'.casesAt? = g.casesAt?) (family : Family) :
    family.create g' ⟨id, n.address, { n.instruction with location }, edges⟩ =
      family.create g n := by
  cases family with
  | compare =>
      simp only [create, createCompare, hsite]
      rfl
  | branch =>
      simp only [create, createBranch, hsite]
      rfl
  | switch =>
      simp only [create, createSwitch, hsite, hcases]
      rfl
  | move =>
      simp only [create, createMove, hsite]
      rfl
  | constant =>
      simp only [create, createConstant, hsite]
      rfl
  | flow =>
      simp only [create, createFlow, hsite]
      rfl

end Family

namespace Registry

variable {r : Registry} {g : FlowGraph} {n : Node} {op : Op}

theorem create_eq_ok_iff :
    r.create g n = .ok op ↔ ∃ family, r.find? n.opcode = some family ∧ family.Makes g n op := by
  unfold create
  cases r.find? n.opcode with
  | none => simp
  | some family =>
      refine Family.create_eq_ok_iff.trans ?_
      simp

/-- The built-in registry has the family of every opcode, so whatever can be made is made. -/
theorem builtin_create_eq_ok_iff :
    builtin.create g n = .ok op ↔ ∃ family : Family, family.Makes g n op := by
  rw [create_eq_ok_iff]
  constructor
  · rintro ⟨family, -, hmakes⟩
    exact ⟨family, hmakes⟩
  · rintro ⟨family, hmakes⟩
    exact ⟨family, (find?_builtin n.opcode).trans hmakes.family?_eq, hmakes⟩

theorem create_site (h : r.create g n = .ok op) : op.site = g.site n := by
  obtain ⟨family, -, hmakes⟩ := create_eq_ok_iff.mp h
  exact Family.create_site (Family.create_eq_ok_iff.mpr hmakes)

theorem create_address (h : r.create g n = .ok op) : op.address = n.address :=
  congrArg Site.address (create_site h)

theorem create_congr {g' : FlowGraph} {id location : Nat} {edges : List Edge}
    (hsite : g'.site ⟨id, n.address, { n.instruction with location }, edges⟩ = g.site n)
    (hcases : g'.casesAt? = g.casesAt?) :
    r.create g' ⟨id, n.address, { n.instruction with location }, edges⟩ = r.create g n := by
  have hopcode : Node.opcode ⟨id, n.address, { n.instruction with location }, edges⟩ =
      n.opcode := rfl
  rw [create, create, hopcode]
  cases r.find? n.opcode with
  | none => rfl
  | some family => exact Family.create_congr hsite hcases family

end Registry

end DalvikFlow
