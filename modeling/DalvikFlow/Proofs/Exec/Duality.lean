import DalvikFlow.Proofs.Exec.Decision

/-! The conditions of branches come in pairs: one holds where the other does not, or with its operands
exchanged. The pairs are decided alike, and left undecided alike. -/
namespace DalvikFlow

namespace Relation

/-- Holds where the relation does not. -/
def negated : Relation → Relation
  | eq => ne
  | ne => eq
  | lt => ge
  | ge => lt
  | gt => le
  | le => gt

/-- The relation seen from its other side. -/
def swapped : Relation → Relation
  | eq => eq
  | ne => ne
  | lt => gt
  | ge => le
  | gt => lt
  | le => ge

variable (r : Relation)

theorem holds_negated (m n : Int) : r.negated.holds m n = !r.holds m n := by
  cases r <;> simp only [negated, holds, ← decide_not, decide_eq_decide] <;> omega

theorem holds_swapped (m n : Int) : r.swapped.holds m n = r.holds n m := by
  cases r <;> simp only [swapped, holds, decide_eq_decide] <;> omega

/-- A negated relation is settled by equality as far as the relation is. -/
theorem ofEquality?_negated (e : Bool) : r.negated.ofEquality? e = (r.ofEquality? e).map not := by
  cases r <;> simp [negated, ofEquality?]

theorem ofEquality?_swapped (e : Bool) : r.swapped.ofEquality? e = r.ofEquality? e := by
  cases r <;> rfl

end Relation

namespace Comparand

theorem equal?_reference_number (isNull : Bool) (n : Int) :
    (reference isNull).equal? (number n) = (number n).equal? (reference isNull) := by
  by_cases hn : n = 0
  · subst hn
    cases isNull <;> rfl
  · simp [equal?, hn]

theorem equal?_comm (a b : Comparand) : a.equal? b = b.equal? a := by
  cases a with
  | number m =>
      cases b with
      | number n => exact congrArg some (decide_eq_decide.mpr eq_comm)
      | reference isNull => exact (equal?_reference_number isNull m).symm
  | reference isNull =>
      cases b with
      | number n => exact equal?_reference_number isNull n
      | reference isNull' => cases isNull <;> cases isNull' <;> rfl

end Comparand

namespace Relation

variable (r : Relation)

theorem decide?_negated (a b : Comparand) : r.negated.decide? a b = (r.decide? a b).map not := by
  unfold decide?
  split
  next m n => exact congrArg some (r.holds_negated m n)
  next =>
    cases a.equal? b with
    | none => rfl
    | some e => exact r.ofEquality?_negated e

theorem decide?_swapped (a b : Comparand) : r.swapped.decide? a b = r.decide? b a := by
  unfold decide?
  split
  next m n => exact congrArg some (r.holds_swapped m n)
  next hnumbers =>
    split
    next m n => exact (hnumbers n m rfl rfl).elim
    next =>
      rw [Comparand.equal?_comm]
      cases b.equal? a with
      | none => rfl
      | some e => exact r.ofEquality?_swapped e

theorem decideItems?_negated (a b : Item) :
    r.negated.decideItems? a b = (r.decideItems? a b).map not := by
  unfold decideItems?
  cases a.comparand? with
  | none => rfl
  | some x =>
      cases b.comparand? with
      | none => rfl
      | some y => exact r.decide?_negated x y

theorem decideItems?_swapped (a b : Item) : r.swapped.decideItems? a b = r.decideItems? b a := by
  unfold decideItems?
  cases a.comparand? with
  | none => cases b.comparand? <;> rfl
  | some x =>
      cases b.comparand? with
      | none => rfl
      | some y => exact r.decide?_swapped x y

end Relation

namespace Condition

def negated (c : Condition) : Condition := { c with relation := c.relation.negated }

def swapped (c : Condition) : Condition := { c with relation := c.relation.swapped }

/-- With zero in place of the second operand. -/
def onZero (c : Condition) : Condition := { c with withZero := true }

end Condition

namespace Opcode

/-- Branches whose conditions exclude each other. -/
def opposites : List (Opcode × Opcode) :=
  [(ifEq, ifNe), (ifLt, ifGe), (ifGt, ifLe), (ifEqz, ifNez), (ifLtz, ifGez), (ifGtz, ifLez)]

/-- Branches on two registers with the same condition on exchanged operands. -/
def mirrored : List (Opcode × Opcode) :=
  [(ifEq, ifEq), (ifNe, ifNe), (ifLt, ifGt), (ifLe, ifGe)]

/-- Branches on two registers, and on one register and zero. -/
def zeroForms : List (Opcode × Opcode) :=
  [(ifEq, ifEqz), (ifNe, ifNez), (ifLt, ifLtz), (ifGe, ifGez), (ifGt, ifGtz), (ifLe, ifLez)]

theorem condition?_opposites :
    ∀ p ∈ opposites, p.2.condition? = p.1.condition?.map Condition.negated := by
  decide

theorem condition?_mirrored :
    ∀ p ∈ mirrored, p.2.condition? = p.1.condition?.map Condition.swapped ∧
      p.1.condition?.any Condition.withZero = false := by
  decide

theorem condition?_zeroForms :
    ∀ p ∈ zeroForms, p.2.condition? = p.1.condition?.map Condition.onZero := by
  decide

section Decision

variable {op op' : Opcode} (a b : Item)

theorem decision?_negated (h : op'.condition? = op.condition?.map Condition.negated) :
    op'.decision? a b = (op.decision? a b).map not := by
  rw [decision?, decision?, h]
  cases op.condition? with
  | none => rfl
  | some c => exact c.relation.decideItems?_negated a _

/-- A branch on zero has no second operand to exchange the first with. -/
theorem decision?_swapped (h : op'.condition? = op.condition?.map Condition.swapped)
    (hregisters : op.condition?.any Condition.withZero = false) :
    op'.decision? b a = op.decision? a b := by
  rw [decision?, decision?, h]
  cases hc : op.condition? with
  | none => rfl
  | some c =>
      obtain ⟨relation, withZero⟩ := c
      rw [hc] at hregisters
      cases hregisters
      exact relation.decideItems?_swapped b a

/-- The type tag of the zero makes no difference. -/
theorem decision?_onZero (h : op'.condition? = op.condition?.map Condition.onZero) (tag : String) :
    op'.decision? a b = op.decision? a (.known (.int 0) tag) := by
  rw [decision?, decision?, h]
  cases op.condition? with
  | none => rfl
  | some c =>
      show c.relation.decideItems? a (.ofInt 0) =
        c.relation.decideItems? a (if c.withZero then .ofInt 0 else .known (.int 0) tag)
      cases c.withZero <;> rfl

end Decision

/-- Opposite branches are decided for opposite outcomes or both undecided, mirrored ones are decided alike
on exchanged operands, and a branch on zero is decided as if a second register held zero. -/
theorem branch_dualities :
    (∀ p ∈ opposites, ∀ a b, p.2.decision? a b = (p.1.decision? a b).map not) ∧
    (∀ p ∈ mirrored, ∀ a b, p.2.decision? b a = p.1.decision? a b) ∧
    (∀ p ∈ zeroForms, ∀ a b tag, p.2.decision? a b = p.1.decision? a (.known (.int 0) tag)) ∧
    ∀ g n o, Family.branch.create g n = .ok o → o.FollowsDecision n := by
  refine ⟨?_, ?_, ?_, fun g n o => Op.followsDecision_of_create⟩
  · intro p hp a b
    exact decision?_negated a b (condition?_opposites p hp)
  · intro p hp a b
    obtain ⟨hswapped, hregisters⟩ := condition?_mirrored p hp
    exact decision?_swapped a b hswapped hregisters
  · intro p hp a b tag
    exact decision?_onZero a b (condition?_zeroForms p hp) tag

/-- From the decision on three and five, those of the other orders. -/
theorem branch_dualities_of_small :
    ifLt.decision? (.ofInt 3) (.ofInt 5) = some true ∧
      ifGe.decision? (.ofInt 3) (.ofInt 5) = some false ∧
      ifGt.decision? (.ofInt 5) (.ofInt 3) = some true ∧
      ∀ b, ifLtz.decision? (.ofInt 3) b = some false := by
  obtain ⟨hopposite, hmirrored, hzero, -⟩ := branch_dualities
  have hlt : ifLt.decision? (.ofInt 3) (.ofInt 5) = some true := rfl
  refine ⟨hlt, ?_, ?_, fun b => ?_⟩
  · rw [hopposite (ifLt, ifGe) (by decide), hlt]
    rfl
  · rw [hmirrored (ifLt, ifGt) (by decide), hlt]
  · rw [hzero (ifLt, ifLtz) (by decide) _ b "int"]
    rfl

end Opcode

end DalvikFlow
