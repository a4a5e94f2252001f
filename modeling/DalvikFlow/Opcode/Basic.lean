import DalvikFlow.Opcode.Table

/-! Look-ups in the instruction set and the classes of opcodes. There is one mnemonic for each opcode, in
letters, digits and two marks. -/
namespace DalvikFlow.Opcode

/-- The mnemonic. -/
def name (op : Opcode) : String := op.info.name

def value (op : Opcode) : UInt16 := op.info.value

def format (op : Opcode) : Format := op.info.format

def flags (op : Opcode) : Flags := op.info.flags

def ofName? (s : String) : Option Opcode := all.find? (·.name == s)

def ofValue? (v : UInt16) : Option Opcode := all.find? (·.value == v)

def canContinue (op : Opcode) : Bool := op.flags.canContinue

def canThrow (op : Opcode) : Bool := op.flags.canThrow

def setsRegister (op : Opcode) : Bool := op.flags.setsRegister

def setsWideRegister (op : Opcode) : Bool := op.flags.setsWideRegister

/-- A data block, never executed. -/
def isPayload (op : Opcode) : Bool := op.format.isPayload

def isSwitchPayload : Opcode → Bool
  | packedSwitchPayload | sparseSwitchPayload => true
  | _ => false

def isSwitch : Opcode → Bool
  | packedSwitch | sparseSwitch => true
  | _ => false

/-- `if-*` with two registers or with one. -/
def isConditionalBranch (op : Opcode) : Bool := op.format = .f22t || op.format = .f21t

def isGoto : Opcode → Bool
  | goto | goto16 | goto32 => true
  | _ => false

def isReturn : Opcode → Bool
  | returnVoid | returnSingle | returnWide | returnObject => true
  | _ => false

/-- The kind of payload a switch has to refer to. -/
def switchPayload? : Opcode → Option Opcode
  | packedSwitch => some packedSwitchPayload
  | sparseSwitch => some sparseSwitchPayload
  | _ => none

theorem ofName?_name (op : Opcode) : ofName? op.name = some op := by
  have hall : all.all (fun op => ofName? op.name == some op) = true := by decide +kernel
  exact beq_iff_eq.mp (List.all_eq_true.mp hall op (mem_all op))

/-- An opcode can be told by its mnemonic. -/
theorem name_inj {op op' : Opcode} : op.name = op'.name ↔ op = op' := by
  constructor
  · intro h
    have hname := op.ofName?_name
    rw [h, op'.ofName?_name] at hname
    exact (Option.some.inj hname).symm
  · rintro rfl
    rfl

def isMnemonicChar (c : Char) : Bool := c.isAlphanum || c == '-' || c == '/'

theorem isMnemonicChar_of_mem_name {op : Opcode} {c : Char} (hc : c ∈ op.name.toList) :
    isMnemonicChar c = true := by
  have hall : all.all (fun op => op.name.toList.all isMnemonicChar) = true := by decide +kernel
  exact List.all_eq_true.mp (List.all_eq_true.mp hall op (mem_all op)) c hc

end DalvikFlow.Opcode
