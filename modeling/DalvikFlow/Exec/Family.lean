import DalvikFlow.Exec.Op
import DalvikFlow.Graph.Basic
import DalvikFlow.Graph.Layout

/-! How operations are made from the nodes of a graph. -/
namespace DalvikFlow

namespace Opcode

def isMove : Opcode → Bool
  | move | moveFrom16 | move16 | moveWide | moveWideFrom16 | moveWide16
  | moveObject | moveObjectFrom16 | moveObject16 => true
  | _ => false

/-- Control passes on and no register changes. -/
def isFlow : Opcode → Bool
  | nop | goto | goto16 | goto32
  | returnVoid | returnSingle | returnWide | returnObject | throw => true
  | _ => false

/-- The item that a numeric constant leaves in its register: a long, or the low word of the
literal. -/
def constant? : Opcode → Option (Int64 → Item)
  | const4 | const16 | const | constHigh16 => some fun v => .ofInt v.toInt32
  | constWide16 | constWide32 | constWide | constWideHigh16 => some .ofLong
  | _ => none

end Opcode

/-- Opcodes whose operations are made alike. -/
inductive Family where
  | compare | branch | switch | move | constant | flow
  deriving DecidableEq, Repr

def Opcode.family? (op : Opcode) : Option Family :=
  if op.comparison?.isSome then some .compare
  else if op.condition?.isSome then some .branch
  else if op.isSwitch then some .switch
  else if op.isMove then some .move
  else if op.constant?.isSome then some .constant
  else if op.isFlow then some .flow
  else none

namespace Node

def require {α : Type} (n : Node) (expected : Expectation) (found : Option α) : Except Error α :=
  match found with
  | some a => .ok a
  | none => .error (.invalidOperand n.opcode expected)

def requireThat (n : Node) (expected : Expectation) (holds : Bool) : Except Error Unit :=
  if holds then .ok () else .error (.invalidOperand n.opcode expected)

def register (n : Node) (index : Nat) : Except Error UInt16 :=
  n.require .register (n.instruction.register? index)

/-- The address that the offset leads to, if there is such an address. -/
def branchTarget (n : Node) : Except Error Nat := do
  let distance ← n.require .branchOffset n.instruction.offset?
  let target := (n.address : Int) + distance.toInt
  if 0 ≤ target ∧ target ≤ maxAddress then return target.toNat
  else .error (.unresolvedTarget .branch n.address target)

/-- The address after the instruction, or the last one. -/
def addressAfter (n : Node) : Nat := min (n.address + n.instruction.units.toNat) maxAddress

/-- The address that a case leads to. -/
def caseTarget? (n : Node) (c : SwitchCase) : Option (Int32 × Nat) :=
  let target := (n.address : Int) + c.offset.toInt
  if 0 ≤ target ∧ target ≤ maxAddress then some (c.key, target.toNat) else none

end Node

namespace FlowGraph

def site (g : FlowGraph) (n : Node) : Site := ⟨n.address, n.opcode, g.nextAddresses n.id⟩

/-- The cases of the switch payload at an address. -/
def casesAt? (g : FlowGraph) (address : Nat) : Option (List SwitchCase) := do
  let payload ← (g.nodeAt? address).bind g.node?
  if payload.opcode.isSwitchPayload then payload.instruction.cases? else none

end FlowGraph

namespace Family

def createCompare (g : FlowGraph) (n : Node) : Except Error Op := do
  let comparison ← n.require .comparison n.opcode.comparison?
  let dest ← n.register 0
  let lhs ← n.register 1
  let rhs ← n.register 2
  return ⟨g.site n, .compare comparison dest lhs rhs⟩

def createBranch (g : FlowGraph) (n : Node) : Except Error Op := do
  let condition ← n.require .conditionalBranch n.opcode.condition?
  let rhs? ← if condition.withZero then pure none else some <$> n.register 1
  let lhs ← n.register 0
  let target ← n.branchTarget
  return ⟨g.site n, .branch condition.relation lhs rhs? target n.addressAfter⟩

def createSwitch (g : FlowGraph) (n : Node) : Except Error Op := do
  n.requireThat .switch n.opcode.isSwitch
  let target ← n.branchTarget
  match g.casesAt? target with
  | none => .error (.malformed (.noSwitchPayload n.opcode n.address target))
  | some cases =>
    let selector ← n.register 0
    return ⟨g.site n, .switch selector (cases.filterMap n.caseTarget?) n.addressAfter⟩

def createMove (g : FlowGraph) (n : Node) : Except Error Op := do
  n.requireThat .move n.opcode.isMove
  let dest ← n.register 0
  let source ← n.register 1
  return ⟨g.site n, .move dest source⟩

def createConstant (g : FlowGraph) (n : Node) : Except Error Op := do
  let item ← n.require .numericConstant n.opcode.constant?
  let literal ← n.require .literal n.instruction.literal?
  let dest ← n.register 0
  return ⟨g.site n, .constant dest (item literal)⟩

def createFlow (g : FlowGraph) (n : Node) : Except Error Op := do
  n.requireThat .controlFlow n.opcode.isFlow
  return ⟨g.site n, .flow n.instruction.registers⟩

/-- The operation of a node. A family refuses the opcodes of the others. -/
def create : Family → FlowGraph → Node → Except Error Op
  | compare => createCompare
  | branch => createBranch
  | switch => createSwitch
  | move => createMove
  | constant => createConstant
  | flow => createFlow

end Family

end DalvikFlow
