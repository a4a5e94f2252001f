import DalvikFlow.Item
import DalvikFlow.Opcode.Basic

/-! The conditions of conditional branches, as far as the operands decide them. -/
namespace DalvikFlow

inductive Relation where
  | eq | ne | lt | ge | gt | le
  deriving DecidableEq, Repr

structure Condition where
  relation : Relation
  withZero : Bool
  deriving DecidableEq, Repr

def Opcode.condition? : Opcode → Option Condition
  | ifEq => some ⟨.eq, false⟩
  | ifNe => some ⟨.ne, false⟩
  | ifLt => some ⟨.lt, false⟩
  | ifGe => some ⟨.ge, false⟩
  | ifGt => some ⟨.gt, false⟩
  | ifLe => some ⟨.le, false⟩
  | ifEqz => some ⟨.eq, true⟩
  | ifNez => some ⟨.ne, true⟩
  | ifLtz => some ⟨.lt, true⟩
  | ifGez => some ⟨.ge, true⟩
  | ifGtz => some ⟨.gt, true⟩
  | ifLez => some ⟨.le, true⟩
  | _ => none

inductive Comparand where
  | number (n : Int)
  | reference (isNull : Bool)
  deriving DecidableEq, Repr

/-- A boolean is zero or one. Nothing is known of what does not fit a register or is unknown. -/
def Item.comparand? (i : Item) : Option Comparand :=
  match i.value? with
  | some (.int v) => some (.number v.toInt)
  | some (.boolean b) => some (.number (if b then 1 else 0))
  | some .null => some (.reference true)
  | some (.string _) => some (.reference false)
  | _ => none

/-- Whether two operands are equal, unless both are references that are not null or one is compared
with a number that null is not. -/
def Comparand.equal? : Comparand → Comparand → Option Bool
  | number a, number b => some (a = b)
  | reference true, reference true => some true
  | reference false, reference false => none
  | reference _, reference _ => some false
  | reference isNull, number 0 | number 0, reference isNull => some isNull
  | _, _ => none

namespace Relation

def holds : Relation → Int → Int → Bool
  | eq, a, b => a = b
  | ne, a, b => a ≠ b
  | lt, a, b => a < b
  | ge, a, b => a ≥ b
  | gt, a, b => a > b
  | le, a, b => a ≤ b

/-- Equality decides two of the relations. -/
def ofEquality? : Relation → Bool → Option Bool
  | eq, e => some e
  | ne, e => some !e
  | _, _ => none

/-- Numbers decide every relation, references at most equality. -/
def decide? (r : Relation) : Comparand → Comparand → Option Bool
  | .number a, .number b => some (r.holds a b)
  | a, b => (a.equal? b).bind r.ofEquality?

def decideItems? (r : Relation) (lhs rhs : Item) : Option Bool := do
  r.decide? (← lhs.comparand?) (← rhs.comparand?)

end Relation

end DalvikFlow
