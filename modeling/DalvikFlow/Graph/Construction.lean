import DalvikFlow.Graph.Wiring

/-! From a method body to its graph. The checks are made in turn, and the first that fails decides:
locations, then widths, then what the instructions refer to, in code order. -/
namespace DalvikFlow

structure GraphOptions where
  /-- Several cases of a switch with one target have one edge, that of the first case. -/
  distinctCaseTargets : Bool := false
  deriving DecidableEq, Repr

/-- The result of a construction, and what was reported on the way to it. -/
structure Outcome where
  notices : List Notice
  result : Except Error FlowGraph

namespace Layout

def wirings (l : Layout) (distinct : Bool) : List Wiring :=
  (l.placed.mapIdx fun position p => l.wire distinct p l.placed[position + 1]?).toList

def node? (l : Layout) (edges : Array (List Edge)) (position location : Nat) : Option Node := do
  let p ← l.placed[position]?
  return ⟨location, p.address, p.instruction, ← edges[position]?⟩

def nodes (l : Layout) (edges : Array (List Edge)) (positions : List Nat) : List Node :=
  positions.zipIdx.filterMap fun (position, location) => l.node? edges position location

end Layout

namespace FlowGraph

/-- The graph of a body that is given in code order. -/
def ofCode (options : GraphOptions) (code : List Instruction) : Outcome :=
  if code.isEmpty then ⟨[], .error .emptyBody⟩
  else
    let begun := Notice.begun code.length
    match Location.positions code with
    | .error d => ⟨[begun], .error (.malformed d)⟩
    | .ok positions =>
      let layout := Layout.ofCode code
      match layout.defect? with
      | some d => ⟨[begun], .error (.malformed d)⟩
      | none =>
        let ws := layout.wirings options.distinctCaseTargets
        let result := do
          let edges ← ws.mapM Wiring.edges
          return ofNodes (layout.nodes edges.toArray positions).toArray
        ⟨begun :: Wiring.reported ws, result⟩

end FlowGraph

end DalvikFlow
