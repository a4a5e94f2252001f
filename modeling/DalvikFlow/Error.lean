import DalvikFlow.Text.Numeral
import DalvikFlow.Item
import DalvikFlow.Opcode.Basic

/-! Everything that can go wrong, and how it is reported. -/
namespace DalvikFlow

inductive TargetKind where
  | branch
  | switchCase
  deriving DecidableEq, Repr

/-- A method body or a reference that no decoder should have produced. -/
inductive Defect where
  | locationOutOfRange (location count : Nat)
  | duplicateLocation (location : Nat)
  | missingLocation (location : Nat)
  | zeroWidth (op : Opcode) (location : Nat)
  | bodyTooLong
  | badReference (op : Opcode) (address : Nat) (target : Opcode)
  | caseOntoPayload (key : Int32) (address : Nat) (target : Opcode)
  /-- A switch whose offset leads to no payload with cases. -/
  | noSwitchPayload (op : Opcode) (address payloadAddress : Nat)
  | foreignNode (node : Nat)
  deriving DecidableEq, Repr

/-- Operands that a three-way comparison cannot compare. -/
inductive Violation where
  | unknownOperands
  | nonNumeric (lhs rhs : Kind)
  | kindsDiffer (lhs rhs : Kind)
  | typesDiffer (lhs rhs : String)
  | incomparable
  deriving DecidableEq, Repr

/-- What an operation needs of the instruction that it is made from. -/
inductive Expectation where
  | comparison | conditionalBranch | switch | move | numericConstant | controlFlow
  | branchOffset | literal | register
  deriving DecidableEq, Repr

inductive Error where
  | emptyBody
  | malformed (defect : Defect)
  | unresolvedTarget (kind : TargetKind) (source : Nat) (target : Int)
  | unsupportedOpcode (op : Opcode)
  | missingOp (address : Nat)
  | unassignedRegister (register : UInt16)
  | registerOutOfBounds (register count : UInt16)
  | invariantViolation (op : Opcode) (violation : Violation)
  | invalidOperand (op : Opcode) (expected : Expectation)
  deriving DecidableEq, Repr

def TargetKind.name : TargetKind → String
  | branch => "branch"
  | switchCase => "switch case"

def Defect.message : Defect → String
  | locationOutOfRange location count =>
    "Location index " ++ Text.natural location ++ " out of range for " ++ Text.natural count ++
      " instructions"
  | duplicateLocation location => "Duplicate location index " ++ Text.natural location
  | missingLocation location => "Missing location index " ++ Text.natural location
  | zeroWidth op location =>
    "Instruction " ++ op.name ++ " at location " ++ Text.natural location ++ " has zero width"
  | bodyTooLong => "Method body exceeds the addressable range"
  | badReference op address target =>
    op.name ++ " at " ++ Text.address address ++ " cannot reference " ++ target.name
  | caseOntoPayload key address target =>
    "Switch case " ++ Text.integer key.toInt ++ " at " ++ Text.address address ++ " targets " ++
      target.name
  | noSwitchPayload op address payloadAddress =>
    op.name ++ " at " ++ Text.address address ++ " references no switch payload at " ++
      Text.address payloadAddress
  | foreignNode node => "Node " ++ nodeText node ++ " is not part of the graph"

def Violation.message : Violation → String
  | unknownOperands => "comparison of unknown operands"
  | nonNumeric lhs rhs => "non-numeric operands " ++ lhs.name ++ " and " ++ rhs.name
  | kindsDiffer lhs rhs => "operand representations differ: " ++ lhs.name ++ " vs " ++ rhs.name
  | typesDiffer lhs rhs => "operand types differ: " ++ lhs ++ " vs " ++ rhs
  | incomparable => "operands are not comparable"

def Expectation.name : Expectation → String
  | comparison => "comparison opcode"
  | conditionalBranch => "conditional branch"
  | switch => "switch opcode"
  | move => "move opcode"
  | numericConstant => "numeric constant"
  | controlFlow => "control flow opcode"
  | branchOffset => "branch offset"
  | literal => "literal"
  | register => "register operand"

def Error.message : Error → String
  | emptyBody => "Provided input was empty"
  | malformed defect => defect.message
  | unresolvedTarget kind source target =>
    "Unresolved " ++ kind.name ++ " target at offset " ++ Text.integer target ++
      " (from instruction at " ++ Text.address source ++ ")"
  | unsupportedOpcode op => "No op implementation registered for '" ++ op.name ++ "'"
  | missingOp address => "No op found for address " ++ Text.address address
  | unassignedRegister register =>
    "register v" ++ Text.natural register.toNat ++ " read before assignment"
  | registerOutOfBounds register count =>
    "register v" ++ Text.natural register.toNat ++ " out of bounds (count: " ++
      Text.natural count.toNat ++ ")"
  | invariantViolation op violation =>
    "invariant violated in " ++ op.name ++ ": " ++ violation.message
  | invalidOperand op expected =>
    "invalid operand for " ++ op.name ++ ": expected " ++ expected.name

end DalvikFlow
