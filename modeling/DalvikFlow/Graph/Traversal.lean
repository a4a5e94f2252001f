import DalvikFlow.Graph.Marks

/-! Depth-first orders of a graph. Both searches keep their pending nodes on an explicit stack. -/
namespace DalvikFlow

/-- A finite graph: the successors of each node, in edge order and with repetitions. -/
structure Adjacency where
  successors : Array (List Nat)

namespace Adjacency

def size (g : Adjacency) : Nat := g.successors.size

def succ (g : Adjacency) (v : Nat) : List Nat := g.successors[v]?.getD []

end Adjacency

/-- A search whose nodes are marked when they are put on the stack, so that each is put there once. -/
structure Frontier where
  marks : Marks
  stack : List Nat

namespace Frontier

def push (f : Frontier) (v : Nat) : Frontier :=
  if f.marks.isFree v then ⟨f.marks.mark v, v :: f.stack⟩ else f

/-- The last node is put on the stack first, so that the first one is taken first. -/
def pushAll (f : Frontier) (vs : List Nat) : Frontier := vs.foldr (fun v f => f.push v) f

/-- What the search can still take from the stack. -/
def pending (f : Frontier) : Nat := f.marks.free + f.stack.length

@[simp] theorem pending_push (f : Frontier) (v : Nat) : (f.push v).pending = f.pending := by
  unfold push
  split
  next h =>
    have hm := Marks.free_mark h
    simp only [pending, List.length_cons]
    omega
  next => rfl

@[simp] theorem pending_pushAll (f : Frontier) (vs : List Nat) :
    (f.pushAll vs).pending = f.pending := by
  induction vs with
  | nil => rfl
  | cons v vs ih => simpa [pushAll] using ih

end Frontier

namespace Adjacency

/-- Takes nodes from the stack until it is empty, and puts the free successors of each in its
place. -/
def drain (g : Adjacency) : Frontier → Array Nat → Array Nat
  | ⟨_, []⟩, order => order
  | ⟨marks, v :: rest⟩, order =>
    g.drain (Frontier.pushAll ⟨marks, rest⟩ (g.succ v)) (order.push v)
termination_by f => f.pending
decreasing_by
  rw [Frontier.pending_pushAll]
  simp only [Frontier.pending, List.length_cons]
  omega

/-- The nodes that can be reached, in the order in which a depth-first search takes them from its
stack. None if the start is no node. -/
def depthFirst (g : Adjacency) (start : Nat) : List Nat :=
  (g.drain (Frontier.push ⟨.clear g.size, []⟩ start) #[]).toList

inductive Visit where
  /-- Go into a node, unless it is marked by then. -/
  | enter (v : Nat)
  /-- Leave a node: all that was first found through it is done. -/
  | leave (v : Nat)
  deriving DecidableEq, Repr

/-- Makes the pending visits. A node is marked on entry, and put into the order when it is left. -/
def visit (g : Adjacency) (marks : Marks) (pending : List Visit) (order : Array Nat) : Array Nat :=
  match pending with
  | [] => order
  | .leave v :: rest => g.visit marks rest (order.push v)
  | .enter v :: rest =>
    if h : marks.isFree v then
      let marked := marks.mark v
      let next := (g.succ v).filter marked.isFree
      g.visit marked (next.map .enter ++ .leave v :: rest) order
    else g.visit marks rest order
termination_by (marks.free, pending.length)
decreasing_by
  · exact Prod.Lex.right _ (Nat.lt_succ_self _)
  · exact Prod.Lex.left _ _ (by have hm := Marks.free_mark h; omega)
  · exact Prod.Lex.right _ (Nat.lt_succ_self _)

def postorder (g : Adjacency) (start : Nat) : List Nat :=
  (g.visit (.clear g.size) [.enter start] #[]).toList

def reversePostorder (g : Adjacency) (start : Nat) : List Nat := (g.postorder start).reverse

end Adjacency

end DalvikFlow
