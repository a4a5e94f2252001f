import DalvikFlow.Instruction.Basic
import DalvikFlow.Text.Numeral

/-! Instructions as they stand in a listing: the mnemonic, then the operands, separated by commas. -/
namespace DalvikFlow

/-- A case reads `key -> offset`, the offset with its sign. -/
def SwitchCase.text (c : SwitchCase) : String :=
  Text.integer c.key.toInt ++ " -> " ++ Text.signed c.offset.toInt

/-- The listed parts of an operand. A payload without cases lists nothing. -/
def Operand.parts : Operand → List String
  | none => []
  | literal v => [Text.signedHex v.toInt]
  | offset d => [Text.signed d.toInt]
  | cases cs => cs.map SwitchCase.text
  | data width bytes =>
    ["width " ++ Text.natural width.toNat ++ ", " ++ Text.natural bytes.length ++ " bytes"]

namespace Instruction

def registerText (r : UInt16) : String := "v" ++ Text.natural r.toNat

def parts (i : Instruction) : List String := i.registers.map registerText ++ i.operand.parts

/-- A space stands only before a first operand. -/
def text (i : Instruction) : String :=
  if i.parts.isEmpty then i.opcode.name else i.opcode.name ++ " " ++ ", ".intercalate i.parts

end Instruction

end DalvikFlow
