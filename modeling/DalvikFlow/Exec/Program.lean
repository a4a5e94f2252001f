import DalvikFlow.Exec.Execute
import DalvikFlow.Exec.Registry
import Std.Data.TreeMap

/-! Programs: operations by address, and execution from node to node. -/
namespace DalvikFlow

/-- Operations of any kind, each under its own address. -/
structure Program (α : Type) [Operation α] where
  ops : Std.TreeMap Nat α
  address_eq : ∀ a op, ops[a]? = some op → Operation.address op = a

namespace Program

section Table

variable {α : Type} [Operation α]

def empty : Program α := ⟨∅, by simp⟩

def size (p : Program α) : Nat := p.ops.size

def get? (p : Program α) (address : Nat) : Option α := p.ops[address]?

/-- By ascending address. -/
def toList (p : Program α) : List α := p.ops.toList.map Prod.snd

/-- In place of the operation that was at the same address. -/
def insert (p : Program α) (op : α) : Program α where
  ops := p.ops.insert (Operation.address op) op
  address_eq := by
    intro a op' h
    rw [Std.TreeMap.getElem?_insert] at h
    split at h
    next heq =>
      cases h
      exact Nat.compare_eq_eq.mp heq
    next => exact p.address_eq a op' h

def ofList (ops : List α) : Program α := ops.foldl insert empty

@[simp] theorem get?_empty (address : Nat) : (empty : Program α).get? address = none := by
  simp [empty, get?]

theorem get?_insert (p : Program α) (op : α) (address : Nat) :
    (p.insert op).get? address =
      if Operation.address op = address then some op else p.get? address := by
  simp [insert, get?, Std.TreeMap.getElem?_insert]

/-- Executes a node: its children that come next, each with the registers afterwards. -/
def step (p : Program α) (g : FlowGraph) (node : Nat) (f : RegisterFile) :
    Except Error (List (Nat × RegisterFile)) :=
  match g.node? node with
  | none => .error (.malformed (.foreignNode node))
  | some n =>
    match p.get? n.address with
    | none => .error (.missingOp n.address)
    | some op =>
      match Operation.run op f with
      | (.error e, _) => .error e
      | (.ok next, after) => .ok ((g.childrenAt node next).map fun child => (child, after))

end Table

/-- The operations of all nodes that can be executed, or the error of the first node by location that
has none. -/
def ofGraph (r : Registry) (g : FlowGraph) : Except Error (Program Op) := do
  let ops ← (g.nodes.toList.filter fun n => !n.isPayload).mapM (r.create g)
  return ofList ops

end Program

end DalvikFlow
