import DalvikFlow.Error

/-! Three-way comparison of two items. -/
namespace DalvikFlow

/-- The representation in which operands are compared, and what comes out if one of them is not a
number. -/
inductive Comparison where
  | single (unordered : Ordering)
  | double (unordered : Ordering)
  | long
  deriving DecidableEq, Repr

def Opcode.comparison? : Opcode → Option Comparison
  | cmplFloat => some (.single .lt)
  | cmpgFloat => some (.single .gt)
  | cmplDouble => some (.double .lt)
  | cmpgDouble => some (.double .gt)
  | cmpLong => some .long
  | _ => none

def orderingWord : Ordering → Int32
  | .lt => -1
  | .eq => 0
  | .gt => 1

namespace Comparison

/-- A comparison of longs counts what is not a number as less. -/
def unordered : Comparison → Ordering
  | single o | double o => o
  | long => .lt

def order? : Comparison → Value → Value → Option Ordering
  | single _, a, b => do (← a.toSingle?).order? (← b.toSingle?)
  | double _, a, b => do (← a.toDouble?).order? (← b.toDouble?)
  | long, a, b => do return compare (← a.toInt64?).toInt (← b.toInt64?).toInt

/-- Known operands have to be numbers, of one kind and with one type tag. -/
def compareValues (c : Comparison) (lhs rhs : Value) (lhsTag rhsTag : String) :
    Except Violation Ordering :=
  if !lhs.isNumeric || !rhs.isNumeric then .error (.nonNumeric lhs.kind rhs.kind)
  else if lhs.kind ≠ rhs.kind then .error (.kindsDiffer lhs.kind rhs.kind)
  else if lhsTag ≠ rhsTag then .error (.typesDiffer lhsTag rhsTag)
  else if lhs.isNaN || rhs.isNaN then .ok c.unordered
  else
    match c.order? lhs rhs with
    | some o => .ok o
    | none => .error .incomparable

def compareItems (c : Comparison) (lhs rhs : Item) : Except Violation Ordering :=
  match lhs.value?, rhs.value? with
  | some a, some b => c.compareValues a b lhs.typeTag rhs.typeTag
  | _, _ => .error .unknownOperands

/-- What is compared with an unknown item gives an unknown number. -/
def result (c : Comparison) (lhs rhs : Item) : Except Violation Item :=
  if lhs.isUnknown || rhs.isUnknown then .ok (.unknown Kind.int.typeTag)
  else do
    let o ← c.compareItems lhs rhs
    return .ofInt (orderingWord o)

end Comparison

end DalvikFlow
