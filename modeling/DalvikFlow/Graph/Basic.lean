import DalvikFlow.Graph.AddressIndex
import DalvikFlow.Graph.Traversal
import DalvikFlow.Instruction.Basic

/-! The control-flow graph of a method body. There is one node per instruction, named by the
location of the instruction; the root has location zero. -/
namespace DalvikFlow

/-- How control passes along an edge. -/
inductive Transfer where
  | branch
  | fallthrough
  | switchCase (key : Int32)
  deriving DecidableEq, Repr

def Transfer.isSwitchCase : Transfer → Bool
  | switchCase _ => true
  | _ => false

def Transfer.isFallthrough : Transfer → Bool
  | fallthrough => true
  | _ => false

structure Edge where
  target : Nat
  via : Transfer
  deriving DecidableEq, Repr

structure Node where
  id : Nat
  address : Nat
  instruction : Instruction
  edges : List Edge
  deriving DecidableEq, Repr

namespace Node

def opcode (n : Node) : Opcode := n.instruction.opcode

def isPayload (n : Node) : Bool := n.opcode.isPayload

/-- In edge order, with repetitions. -/
def children (n : Node) : List Nat := n.edges.map Edge.target

end Node

structure FlowGraph where
  /-- In the order of their ids. -/
  nodes : Array Node
  /-- From the address of a node to its id. -/
  index : AddressIndex
  /-- The nodes with an edge to each node. -/
  sources : Array (Array Nat)

namespace FlowGraph

/-- Notes an edge, unless the last one noted for its target has the same source. -/
def noteSource (sources : Array (Array Nat)) (source target : Nat) : Array (Array Nat) :=
  sources.modify target fun list => if list.back? = some source then list else list.push source

def noteSources (sources : Array (Array Nat)) (n : Node) : Array (Array Nat) :=
  n.children.foldl (fun sources target => noteSource sources n.id target) sources

/-- Edges are noted in the order of their sources. -/
def collectSources (nodes : Array Node) : Array (Array Nat) :=
  nodes.foldl noteSources (Array.replicate nodes.size #[])

def ofNodes (nodes : Array Node) : FlowGraph :=
  ⟨nodes, .ofList (nodes.toList.map Node.address), collectSources nodes⟩

/-- The entry of the method. -/
def root (_ : FlowGraph) : Nat := 0

def size (g : FlowGraph) : Nat := g.nodes.size

def node? (g : FlowGraph) (id : Nat) : Option Node := g.nodes[id]?

def address? (g : FlowGraph) (id : Nat) : Option Nat := (g.node? id).map Node.address

/-- The node that starts at an address. -/
def nodeAt? (g : FlowGraph) (address : Nat) : Option Nat := g.index.find? address

/-- In edge order, with repetitions. What is no node has no children. -/
def children (g : FlowGraph) (id : Nat) : List Nat := ((g.node? id).map Node.children).getD []

/-- The addresses of the children, each once, in the order in which the edges first name them. -/
def nextAddresses (g : FlowGraph) (id : Nat) : List Nat :=
  ((g.children id).filterMap g.address?).eraseDups

/-- The nodes with an edge to this one, ascending. -/
def predecessors (g : FlowGraph) (id : Nat) : List Nat :=
  ((g.sources[id]?).map Array.toList).getD []

/-- The children that start at one of the addresses, each once, in edge order. -/
def childrenAt (g : FlowGraph) (id : Nat) (addresses : List Nat) : List Nat :=
  ((g.children id).filter fun c => (g.address? c).any addresses.contains).eraseDups

def adjacency (g : FlowGraph) : Adjacency := ⟨g.nodes.map Node.children⟩

/-- What execution from the root can come to, in depth-first order. -/
def reachable (g : FlowGraph) : List Nat := g.adjacency.depthFirst g.root

/-- The same nodes, each before those that are first found through it, cycles apart. -/
def reversePostorder (g : FlowGraph) : List Nat := g.adjacency.reversePostorder g.root

@[simp] theorem root_eq (g : FlowGraph) : g.root = 0 := rfl

@[simp] theorem nodes_ofNodes (nodes : Array Node) : (ofNodes nodes).nodes = nodes := rfl

@[simp] theorem size_adjacency (g : FlowGraph) : g.adjacency.size = g.size := by
  simp [adjacency, Adjacency.size, size]

@[simp] theorem succ_adjacency (g : FlowGraph) (id : Nat) :
    g.adjacency.succ id = g.children id := by
  simp [adjacency, Adjacency.succ, children, node?]

theorem node?_eq_none {g : FlowGraph} {id : Nat} (h : g.size ≤ id) : g.node? id = none :=
  Array.getElem?_eq_none h

theorem children_eq_nil {g : FlowGraph} {id : Nat} (h : g.size ≤ id) : g.children id = [] := by
  simp [children, node?_eq_none h]

theorem size_noteSource (sources : Array (Array Nat)) (source target : Nat) :
    (noteSource sources source target).size = sources.size := by
  simp [noteSource]

theorem size_noteSources (sources : Array (Array Nat)) (n : Node) :
    (noteSources sources n).size = sources.size := by
  unfold noteSources
  induction n.children generalizing sources with
  | nil => rfl
  | cons target rest ih => rw [List.foldl_cons, ih, size_noteSource]

end FlowGraph

end DalvikFlow
