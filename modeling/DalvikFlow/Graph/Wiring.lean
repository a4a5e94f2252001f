import DalvikFlow.Graph.Basic
import DalvikFlow.Graph.Layout
import DalvikFlow.Graph.Notice

/-! The edges that leave one instruction: those its operand implies, then the one to the next
instruction. -/
namespace DalvikFlow

/-- What the offset of an instruction leads to. -/
inductive Link where
  | branch (target : Placed)
  | switch (payload : Placed)
  | data (payload : Placed)
  deriving DecidableEq, Repr

/-- Switches refer to payloads of their own kind, arrays to array payloads, and all else to
instructions. -/
def Link.between (source target : Placed) : Except Error Link :=
  if source.opcode.switchPayload? = some target.opcode then .ok (.switch target)
  else if source.opcode = .fillArrayData && target.opcode = .arrayPayload then .ok (.data target)
  else if source.opcode.isSwitch || source.opcode = .fillArrayData || target.opcode.isPayload then
    .error (.malformed (.badReference source.opcode source.address target.opcode))
  else .ok (.branch target)

def Link.notices (source : Placed) : Link → List Notice
  | .branch _ => []
  | .switch payload =>
    let cases := payload.instruction.cases?.getD []
    [.switchResolved source.address source.opcode payload.opcode cases.length]
  | .data payload => [.dataReferenced source.address payload.location]

namespace Layout

def link? (l : Layout) (source : Placed) : Except Error (Option Link) :=
  match source.instruction.offset? with
  | none => .ok none
  | some distance => do
    let target ← l.target? .branch source.address distance
    return some (← Link.between source target)

/-- The edge of one case. Its offset counts from the switch, and it must lead to an instruction. -/
def caseEdge (l : Layout) (source : Placed) (c : SwitchCase) : Except Error Edge := do
  let target ← l.target? .switchCase source.address c.offset
  if target.opcode.isPayload then
    .error (.malformed (.caseOntoPayload c.key source.address target.opcode))
  else
    .ok ⟨target.location, .switchCase c.key⟩

/-- The edges that a link implies. A payload that carries no cases has none. With `distinct` only the
first of several cases with one target has an edge. -/
def linkEdges (l : Layout) (distinct : Bool) (source : Placed) : Link → Except Error (List Edge)
  | .branch target => .ok [⟨target.location, .branch⟩]
  | .switch payload => do
    let edges ← (payload.instruction.cases?.getD []).mapM (l.caseEdge source)
    return if distinct then edges.eraseDupsBy fun a b => a.target == b.target else edges
  | .data _ => .ok []

end Layout

def Placed.fallthroughEdges (source : Placed) : Option Placed → List Edge
  | some next =>
    if source.opcode.canContinue && !next.opcode.isPayload then [⟨next.location, .fallthrough⟩]
    else []
  | none => []

def Placed.fallthroughNotices (source : Placed) : Option Placed → List Notice
  | some next =>
    if source.opcode.canContinue && next.opcode.isPayload then
      [.fallthroughDropped source.address source.opcode next.opcode]
    else []
  | none => []

/-- What one instruction contributes: what is reported about it, and its edges or the reason why it
has none. -/
structure Wiring where
  notices : List Notice
  edges : Except Error (List Edge)

namespace Wiring

def isOk (w : Wiring) : Bool := w.edges.isOk

def reported (ws : List Wiring) : List Notice :=
  let (good, rest) := ws.span isOk
  (good ++ rest.take 1).flatMap notices

end Wiring

/-- Nothing more is reported about an instruction after its first error. -/
def Layout.wire (l : Layout) (distinct : Bool) (source : Placed) (next? : Option Placed) : Wiring :=
  match l.link? source with
  | .error e => ⟨[], .error e⟩
  | .ok none => ⟨source.fallthroughNotices next?, .ok (source.fallthroughEdges next?)⟩
  | .ok (some link) =>
    match l.linkEdges distinct source link with
    | .error e => ⟨link.notices source, .error e⟩
    | .ok edges =>
      ⟨link.notices source ++ source.fallthroughNotices next?,
        .ok (edges ++ source.fallthroughEdges next?)⟩

end DalvikFlow
