import DalvikFlow.Exec.Program

/-! Exploration of all that execution can come to, breadth first. -/
namespace DalvikFlow

/-- A node that was executed, with the registers before it and the nodes after it. -/
structure Executed where
  node : Nat
  entry : RegisterFile
  next : List Nat
  deriving DecidableEq, Repr

inductive Halt where
  | done
  | limit
  | failed (node : Nat) (error : Error)
  deriving DecidableEq, Repr

namespace Program

variable {α : Type} [Operation α]

/-- Executes what is pending in turn, at most `limit` times. -/
def exploreFrom (p : Program α) (g : FlowGraph) :
    Nat → List (Nat × RegisterFile) → List Executed × Halt
  | _, [] => ([], .done)
  | 0, _ :: _ => ([], .limit)
  | limit + 1, (node, f) :: pending =>
    match p.step g node f with
    | .error e => ([], .failed node e)
    | .ok next =>
      let (trace, halt) := p.exploreFrom g limit (pending ++ next)
      (⟨node, f, next.map Prod.fst⟩ :: trace, halt)

def explore (p : Program α) (g : FlowGraph) (limit : Nat) (f : RegisterFile) :
    List Executed × Halt :=
  p.exploreFrom g limit [(g.root, f)]

end Program

end DalvikFlow
