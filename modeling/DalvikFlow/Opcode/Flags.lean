/-! What an opcode may do to control flow and registers. -/
namespace DalvikFlow

inductive Flag where
  /-- The instruction may throw. -/
  | canThrow
  /-- Execution may go on with the next instruction in code order. -/
  | canContinue
  /-- The instruction sets the result that a following `move-result` reads. -/
  | setsResult
  /-- The instruction writes its first register operand. -/
  | setsRegister
  /-- The register it writes is a pair. -/
  | setsWideRegister
  deriving DecidableEq, Repr

namespace Flag

/-- In ascending order of their bits. -/
def all : List Flag := [.canThrow, .canContinue, .setsResult, .setsRegister, .setsWideRegister]

def name : Flag → String
  | canThrow => "CAN_THROW"
  | canContinue => "CAN_CONTINUE"
  | setsResult => "SETS_RESULT"
  | setsRegister => "SETS_REGISTER"
  | setsWideRegister => "SETS_WIDE_REGISTER"

/-- The second bit is not in use. -/
def bit : Flag → Nat
  | canThrow => 0x01
  | canContinue => 0x04
  | setsResult => 0x08
  | setsRegister => 0x10
  | setsWideRegister => 0x20

end Flag

/-- A set of flags. -/
structure Flags where
  canThrow : Bool := false
  canContinue : Bool := false
  setsResult : Bool := false
  setsRegister : Bool := false
  setsWideRegister : Bool := false
  deriving DecidableEq, Repr

namespace Flags

def has (s : Flags) : Flag → Bool
  | .canThrow => s.canThrow
  | .canContinue => s.canContinue
  | .setsResult => s.setsResult
  | .setsRegister => s.setsRegister
  | .setsWideRegister => s.setsWideRegister

def toList (s : Flags) : List Flag := Flag.all.filter s.has

/-- The sum of the bits of the flags that are set. -/
def bits (s : Flags) : Nat := s.toList.foldl (fun n f => n + f.bit) 0

/-! The nine sets that occur. -/

def stop : Flags := {}
def next : Flags := { canContinue := true }
def write : Flags := { canContinue := true, setsRegister := true }
def writeWide : Flags := { canContinue := true, setsRegister := true, setsWideRegister := true }
def raise : Flags := { canThrow := true }
def tryNext : Flags := { next with canThrow := true }
def tryWrite : Flags := { write with canThrow := true }
def tryWriteWide : Flags := { writeWide with canThrow := true }
def invoke : Flags := { canThrow := true, canContinue := true, setsResult := true }

end Flags

end DalvikFlow
