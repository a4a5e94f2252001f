import DalvikFlow.Error
import DalvikFlow.Graph.Basic
import DalvikFlow.Instruction.Text
import DalvikFlow.Text.Label

/-! A graph as a DOT document, one statement a line. -/
namespace DalvikFlow

namespace Transfer

def label : Transfer → String
  | branch => "branch"
  | fallthrough => ""
  | switchCase key => "case " ++ Text.integer key.toInt

def colour : Transfer → String
  | branch => "green"
  | fallthrough => "black"
  | switchCase _ => "blue"

end Transfer

/-- A text between quotes that do not occur bare in it. -/
def labelText (escaped : String) : String := "\"" ++ escaped ++ "\""

/-- The root is filled, a payload is dashed. -/
def Node.dotStyle (root : Nat) (n : Node) : String :=
  if n.id = root then ", style=filled, fillcolor=lightgreen"
  else if n.isPayload then ", style=dashed"
  else ""

/-- A node is labelled with its address in at least four digits and its instruction. -/
def Node.dotStatement (root : Nat) (n : Node) : String :=
  let label := Text.hexPadded 4 n.address ++ ": " ++ Text.Label.escape n.instruction.text
  "    " ++ nodeText n.id ++ " [label=" ++ labelText label ++ n.dotStyle root ++ "];"

def Edge.dotStatement (source : Nat) (e : Edge) : String :=
  "    " ++ nodeText source ++ " -> " ++ nodeText e.target ++ " [label=" ++ labelText e.via.label ++
    ", color=" ++ e.via.colour ++ "];"

namespace FlowGraph

/-- A title is drawn at the top. -/
def dotTitle : Option String → List String
  | none => []
  | some title =>
    ["    label=" ++ labelText (Text.Label.escape title) ++ ";", "    labelloc=t;"]

def dotLines (g : FlowGraph) (title? : Option String) : List String :=
  ["digraph CFG \x7b"] ++ dotTitle title? ++
    ["    node [shape=box, fontname=\"Courier\", fontsize=10];",
     "    edge [fontname=\"Courier\", fontsize=9];", ""] ++
    g.nodes.toList.map (Node.dotStatement g.root) ++ [""] ++
    g.nodes.toList.flatMap (fun n => n.edges.map (Edge.dotStatement n.id)) ++ ["\x7d"]

def dot (g : FlowGraph) (title? : Option String) : String :=
  String.join ((g.dotLines title?).map (· ++ "\n"))

end FlowGraph

end DalvikFlow
