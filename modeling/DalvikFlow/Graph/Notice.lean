import DalvikFlow.Diagnostic
import DalvikFlow.Opcode.Basic

/-! What the construction of a graph reports. -/
namespace DalvikFlow

inductive Notice where
  | begun (count : Nat)
  | switchResolved (address : Nat) (op payload : Opcode) (cases : Nat)
  | dataReferenced (address location : Nat)
  /-- An instruction would continue into data. -/
  | fallthroughDropped (address : Nat) (op next : Opcode)
  deriving DecidableEq, Repr

namespace Notice

def severity : Notice → Severity
  | begun _ | switchResolved .. | dataReferenced .. => .debug
  | fallthroughDropped .. => .warning

def address? : Notice → Option Nat
  | begun _ => none
  | switchResolved a .. | dataReferenced a _ | fallthroughDropped a .. => some a

def message : Notice → String
  | begun count => "building method graph from " ++ Text.natural count ++ " instructions"
  | switchResolved _ op payload cases =>
    op.name ++ " resolved " ++ payload.name ++ " with " ++ Text.natural cases ++ " cases"
  | dataReferenced _ location =>
    "fill-array-data references data at location " ++ Text.natural location
  | fallthroughDropped _ op next =>
    op.name ++ " falls through into " ++ next.name ++ ", edge dropped"

def diagnostic (n : Notice) : Diagnostic := ⟨n.severity, n.address?, n.message⟩

end Notice

end DalvikFlow
