import DalvikFlow.Opcode.Basic

/-! Decoded instructions. -/
namespace DalvikFlow

/-- One case of a switch payload. The offset counts from the switch that refers to the payload. -/
structure SwitchCase where
  key : Int32
  offset : Int32
  deriving DecidableEq, Repr

inductive Operand where
  | none
  /-- A literal, sign-extended. -/
  | literal (value : Int64)
  /-- A distance in code units from the instruction to its branch target or its payload. -/
  | offset (distance : Int32)
  | cases (cases : List SwitchCase)
  | data (elementWidth : UInt16) (bytes : List UInt8)
  deriving DecidableEq, Repr

/-- An instruction of a method body. Its location is its index in the decoded body, which need not
agree with its place in code order. -/
structure Instruction where
  opcode : Opcode
  location : Nat
  registers : List UInt16
  /-- Width in code units. -/
  units : UInt16
  operand : Operand
  deriving DecidableEq, Repr

namespace Operand

def offset? : Operand → Option Int32
  | offset d => some d
  | _ => Option.none

def literal? : Operand → Option Int64
  | literal v => some v
  | _ => Option.none

def cases? : Operand → Option (List SwitchCase)
  | cases cs => some cs
  | _ => Option.none

end Operand

/-- The cases of a packed switch have consecutive keys. Keys are words, so they run on from the
largest to the smallest. -/
def packedCases (firstKey : Int32) (offsets : List Int32) : List SwitchCase :=
  offsets.mapIdx fun i offset => ⟨firstKey + Int32.ofNat i, offset⟩

def maxUnits : Nat := 65535

namespace Instruction

/-- An instruction without operands, as wide as its format says. A payload has no width of its own
and starts with none. -/
def ofOpcode (op : Opcode) (location : Nat) : Instruction :=
  ⟨op, location, [], op.format.units?.getD 0, .none⟩

private def payload (op : Opcode) (location : Nat) (encodedUnits : Nat) (operand : Operand) :
    Instruction :=
  ⟨op, location, [], UInt16.ofNat (min encodedUnits maxUnits), operand⟩

/-- A marker, a count, the first key in two units and an offset in two units per case. -/
def packedSwitch (location : Nat) (firstKey : Int32) (offsets : List Int32) : Instruction :=
  payload .packedSwitchPayload location (4 + 2 * offsets.length)
    (.cases (packedCases firstKey offsets))

/-- A marker, a count, and per case a key and an offset in two units each. -/
def sparseSwitch (location : Nat) (cases : List SwitchCase) : Instruction :=
  payload .sparseSwitchPayload location (2 + 4 * cases.length) (.cases cases)

/-- A marker, the element width, the element count in two units, and two bytes per unit. -/
def arrayData (location : Nat) (elementWidth : UInt16) (bytes : List UInt8) : Instruction :=
  payload .arrayPayload location (4 + (bytes.length + 1) / 2) (.data elementWidth bytes)

def withRegisters (i : Instruction) (registers : List UInt16) : Instruction := { i with registers }

def withLiteral (i : Instruction) (value : Int64) : Instruction :=
  { i with operand := .literal value }

def withOffset (i : Instruction) (distance : Int32) : Instruction :=
  { i with operand := .offset distance }

/-- The width that a decoder has found, in place of that of the format. -/
def withUnits (i : Instruction) (units : UInt16) : Instruction := { i with units }

def offset? (i : Instruction) : Option Int32 := i.operand.offset?

def literal? (i : Instruction) : Option Int64 := i.operand.literal?

def cases? (i : Instruction) : Option (List SwitchCase) := i.operand.cases?

def register? (i : Instruction) (index : Nat) : Option UInt16 := i.registers[index]?

end Instruction

@[simp] theorem length_packedCases (firstKey : Int32) (offsets : List Int32) :
    (packedCases firstKey offsets).length = offsets.length := by
  simp [packedCases]

end DalvikFlow
