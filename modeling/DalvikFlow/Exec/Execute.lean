import DalvikFlow.Exec.Op
import DalvikFlow.Exec.RegisterFile

/-! The effect of an operation on the registers, and where it goes next. -/
namespace DalvikFlow

/-- A computation on registers. What it has assigned before an error stays assigned. -/
abbrev Exec := ExceptT Error (StateM RegisterFile)

namespace Exec

/-- The result, and the registers afterwards. -/
def run {α : Type} (x : Exec α) (f : RegisterFile) : Except Error α × RegisterFile :=
  StateT.run (ExceptT.run x) f

def ofExcept {α : Type} (r : Except Error α) : Exec α := ExceptT.mk (pure r)

def read (r : UInt16) : Exec Item := do
  let f ← get
  ofExcept (f.read r)

def assign (r : UInt16) (i : Item) : Exec Unit := do
  let f ← get
  set (← ofExcept (f.assign r i))

@[simp] theorem run_pure {α : Type} (a : α) (f : RegisterFile) :
    run (pure a) f = (.ok a, f) := rfl

/-- Nothing follows an error. -/
theorem run_bind {α β : Type} (x : Exec α) (k : α → Exec β) (f : RegisterFile) :
    run (x >>= k) f =
      match run x f with
      | (.ok a, g) => run (k a) g
      | (.error e, g) => (.error e, g) := by
  show StateT.run (ExceptT.run (x >>= k)) f = _
  rw [ExceptT.run_bind, StateT.run_bind]
  unfold run
  rcases StateT.run (ExceptT.run x) f with ⟨_ | _, _⟩ <;> rfl

@[simp] theorem run_ofExcept {α : Type} (r : Except Error α) (f : RegisterFile) :
    run (ofExcept r) f = (r, f) := rfl

@[simp] theorem run_read (r : UInt16) (f : RegisterFile) : run (read r) f = (f.read r, f) := rfl

/-- An assignment that fails changes nothing. -/
theorem run_assign (r : UInt16) (i : Item) (f : RegisterFile) :
    run (assign r i) f =
      match f.assign r i with
      | .ok g => (.ok (), g)
      | .error e => (.error e, f) := by
  have hg : run (get : Exec RegisterFile) f = (.ok f, f) := rfl
  unfold assign
  rw [run_bind, hg]
  dsimp only
  rw [run_bind, run_ofExcept]
  cases f.assign r i <;> rfl

end Exec

/-- What a step asks of an operation: where it stands, and what it does. It may leave the registers in
any way, and name any addresses to go to next. -/
class Operation (α : Type) where
  address : α → Nat
  execute : α → Exec (List Nat)

def Operation.run {α : Type} [Operation α] (op : α) (f : RegisterFile) :
    Except Error (List Nat) × RegisterFile :=
  (execute op).run f

/-- The address of the first case with a key. -/
def selectCase (cases : List (Int32 × Nat)) (next : Nat) (key : Int32) : Nat :=
  ((cases.find? fun c => c.1 = key).map Prod.snd).getD next

namespace Op

/-- The addresses to go to next: all children, or for a decision that can be made the one address
that it is made for. -/
def execute (op : Op) : Exec (List Nat) := do
  match op.action with
  | .compare comparison dest lhs rhs =>
    let a ← Exec.read lhs
    let b ← Exec.read rhs
    let item ← Exec.ofExcept ((comparison.result a b).mapError (Error.invariantViolation op.opcode))
    Exec.assign dest item
    return op.children
  | .branch relation lhs rhs? target next =>
    let a ← Exec.read lhs
    let b ←
      match rhs? with
      | some rhs => Exec.read rhs
      | none => pure (.ofInt 0)
    match relation.decideItems? a b with
    | some true => return [target]
    | some false => return [next]
    | none => return op.children
  | .switch selector cases next =>
    let item ← Exec.read selector
    match item.value? with
    | some (.int key) => return [selectCase cases next key]
    | _ => return op.children
  | .move dest source =>
    let item ← Exec.read source
    Exec.assign dest item
    return op.children
  | .constant dest item =>
    Exec.assign dest item
    return op.children
  | .flow _ => return op.children

/-- The result, and the registers afterwards. -/
def run (op : Op) (f : RegisterFile) : Except Error (List Nat) × RegisterFile :=
  op.execute.run f

instance : Operation Op := ⟨address, execute⟩

theorem operation_run (op : Op) (f : RegisterFile) : Operation.run op f = op.run f := rfl

end Op

end DalvikFlow
