import DalvikFlow.Exec.Comparison
import DalvikFlow.Exec.Condition

/-! Operations: what execution does at one instruction, resolved against the graph. -/
namespace DalvikFlow

/-- Where an operation stands. -/
structure Site where
  address : Nat
  opcode : Opcode
  /-- The addresses of the children of its node: all that can come next. -/
  children : List Nat
  deriving DecidableEq, Repr

inductive Action where
  /-- Leaves the order of two registers in a third. -/
  | compare (comparison : Comparison) (dest lhs rhs : UInt16)
  /-- Goes to the target if the condition holds, and on if not. Without a second register the first
  is compared with zero. -/
  | branch (relation : Relation) (lhs : UInt16) (rhs? : Option UInt16) (target next : Nat)
  /-- Goes to the first case whose key is in the register, and on if there is none. -/
  | switch (selector : UInt16) (cases : List (Int32 × Nat)) (next : Nat)
  | move (dest source : UInt16)
  | constant (dest : UInt16) (item : Item)
  /-- Leaves the registers alone. -/
  | flow (registers : List UInt16)
  deriving DecidableEq, Repr

structure Op where
  site : Site
  action : Action
  deriving DecidableEq, Repr

namespace Op

def address (op : Op) : Nat := op.site.address

def opcode (op : Op) : Opcode := op.site.opcode

def children (op : Op) : List Nat := op.site.children

def registerText (r : UInt16) : String := "r" ++ Text.natural r.toNat

def targetText (address : Nat) : String := "#" ++ Text.natural address

def caseText (c : Int32 × Nat) : String := Text.integer c.1.toInt ++ ": " ++ targetText c.2

def listText (parts : List String) : String := ", ".intercalate parts

/-- What follows the mnemonic. A jump names where it goes to. -/
def operandText (op : Op) : String :=
  match op.action with
  | .compare _ dest lhs rhs => " " ++ listText [registerText dest, registerText lhs, registerText rhs]
  | .branch _ lhs rhs? target _ =>
    " " ++ listText (registerText lhs :: rhs?.toList.map registerText ++ [targetText target])
  | .switch selector cases _ =>
    " " ++ registerText selector ++ ", \x7b" ++ listText (cases.map caseText) ++ "\x7d"
  | .move dest source => " " ++ listText [registerText dest, registerText source]
  | .constant dest item => " " ++ listText [registerText dest, item.text]
  | .flow registers =>
    let operands := if registers.isEmpty then "" else " " ++ listText (registers.map registerText)
    let target := if op.opcode.isGoto then op.children.head? else none
    operands ++ ((target.map fun t => " " ++ targetText t).getD "")

def text (op : Op) : String := op.opcode.name ++ op.operandText

end Op

end DalvikFlow
