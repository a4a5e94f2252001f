import DalvikFlow.Proofs.Exec.Step

/-! The effect of an operation as a function of the registers. Every operation assigns last, so one
that fails has changed nothing. -/
namespace DalvikFlow

namespace RegisterFile

variable {f g : RegisterFile}

theorem read_eq (f : RegisterFile) (r : UInt16) :
    f.read r =
      if r < f.count then
        match f.find? r with
        | some i => .ok i
        | none => .error (.unassignedRegister r)
      else .error (.registerOutOfBounds r f.count) := by
  unfold read checkBounds
  split <;> rfl

theorem assign_eq (f : RegisterFile) (r : UInt16) (i : Item) :
    f.assign r i =
      if h : r < f.count then .ok (f.set r i h) else .error (.registerOutOfBounds r f.count) := by
  unfold assign checkBounds
  split <;> rfl

theorem read_eq_ok_iff {r : UInt16} {i : Item} :
    f.read r = .ok i ↔ r < f.count ∧ f.find? r = some i := by
  rw [read_eq]
  by_cases hr : r < f.count
  · rw [if_pos hr]
    cases f.find? r <;> simp [hr]
  · rw [if_neg hr]
    simp [hr]

/-- Bounds come first: a register that does not exist is out of bounds, never unassigned. -/
theorem read_eq_error_iff {r : UInt16} {e : Error} :
    f.read r = .error e ↔
      (¬ r < f.count ∧ e = .registerOutOfBounds r f.count) ∨
        (r < f.count ∧ f.find? r = none ∧ e = .unassignedRegister r) := by
  rw [read_eq]
  by_cases hr : r < f.count
  · rw [if_pos hr]
    cases f.find? r <;> simp [hr, eq_comm]
  · rw [if_neg hr]
    simp [hr, eq_comm]

theorem assign_eq_ok_iff {r : UInt16} {i : Item} :
    f.assign r i = .ok g ↔ ∃ h : r < f.count, g = f.set r i h := by
  rw [assign_eq]
  by_cases hr : r < f.count
  · rw [dif_pos hr, Except.ok.injEq, eq_comm]
    exact ⟨fun h => ⟨hr, h⟩, fun ⟨_, h⟩ => h⟩
  · rw [dif_neg hr]
    exact ⟨nofun, fun ⟨h, _⟩ => absurd h hr⟩

theorem assign_eq_error_iff {r : UInt16} {i : Item} {e : Error} :
    f.assign r i = .error e ↔ ¬ r < f.count ∧ e = .registerOutOfBounds r f.count := by
  rw [assign_eq]
  by_cases hr : r < f.count
  · rw [dif_pos hr]
    exact ⟨nofun, fun h => absurd hr h.1⟩
  · rw [dif_neg hr, Except.error.injEq, eq_comm]
    exact (and_iff_right hr).symm

@[simp] theorem count_set (f : RegisterFile) (r : UInt16) (i : Item) (h : r < f.count) :
    (f.set r i h).count = f.count := rfl

theorem find?_set (f : RegisterFile) (r s : UInt16) (i : Item) (h : r < f.count) :
    (f.set r i h).find? s = if s = r then some i else f.find? s :=
  lookup_insertCell r s i f.cells

theorem exists_assign {r : UInt16} (h : r < f.count) (i : Item) : ∃ g, f.assign r i = .ok g :=
  ⟨_, assign_eq_ok_iff.mpr ⟨h, rfl⟩⟩

section Assigned

variable {r s : UInt16} {i : Item} (h : f.assign r i = .ok g)

include h

theorem count_of_assign : g.count = f.count := by
  obtain ⟨-, rfl⟩ := assign_eq_ok_iff.mp h
  rfl

theorem find?_of_assign : g.find? s = if s = r then some i else f.find? s := by
  obtain ⟨hr, rfl⟩ := assign_eq_ok_iff.mp h
  exact find?_set f r s i hr

theorem read_of_assign : g.read r = .ok i := by
  obtain ⟨hr, rfl⟩ := assign_eq_ok_iff.mp h
  refine read_eq_ok_iff.mpr ⟨hr, ?_⟩
  rw [find?_set, if_pos rfl]

theorem read_of_assign_of_ne (hne : s ≠ r) : g.read s = f.read s := by
  obtain ⟨-, rfl⟩ := assign_eq_ok_iff.mp h
  rw [read_eq, read_eq, count_set, find?_set, if_neg hne]

end Assigned

end RegisterFile

namespace Exec

variable {α β : Type}

theorem run_ofExcept_bind (x : Except Error α) (k : α → Exec β) (f : RegisterFile) :
    run (ofExcept x >>= k) f =
      match x with
      | .ok a => run (k a) f
      | .error e => (.error e, f) := by
  rw [run_bind, run_ofExcept]
  cases x <;> rfl

theorem run_read_bind (r : UInt16) (k : Item → Exec β) (f : RegisterFile) :
    run (read r >>= k) f =
      match f.read r with
      | .ok a => run (k a) f
      | .error e => (.error e, f) := by
  rw [run_bind, run_read]
  cases f.read r <;> rfl

theorem run_assign_bind (r : UInt16) (i : Item) (k : Unit → Exec β) (f : RegisterFile) :
    run (assign r i >>= k) f =
      match f.assign r i with
      | .ok g => run (k ()) g
      | .error e => (.error e, f) := by
  rw [run_bind, run_assign]
  cases f.assign r i <;> rfl

end Exec

namespace Op

def branchNext (op : Op) (relation : Relation) (target next : Nat) (a b : Item) : List Nat :=
  match relation.decideItems? a b with
  | some true => [target]
  | some false => [next]
  | none => op.children

def switchNext (op : Op) (cases : List (Int32 × Nat)) (next : Nat) (item : Item) : List Nat :=
  match item.value? with
  | some (.int key) => [selectCase cases next key]
  | _ => op.children

/-- The addresses to go to next, and the registers afterwards. -/
def effect (op : Op) (f : RegisterFile) : Except Error (List Nat × RegisterFile) :=
  match op.action with
  | .compare comparison dest lhs rhs => do
    let a ← f.read lhs
    let b ← f.read rhs
    let item ← (comparison.result a b).mapError (Error.invariantViolation op.opcode)
    let after ← f.assign dest item
    return (op.children, after)
  | .branch relation lhs rhs? target next => do
    let a ← f.read lhs
    let b ← (rhs?.map f.read).getD (.ok (.ofInt 0))
    return (op.branchNext relation target next a b, f)
  | .switch selector cases next => do
    let item ← f.read selector
    return (op.switchNext cases next item, f)
  | .move dest source => do
    let item ← f.read source
    let after ← f.assign dest item
    return (op.children, after)
  | .constant dest item => do
    let after ← f.assign dest item
    return (op.children, after)
  | .flow _ => return (op.children, f)

theorem run_eq_effect (op : Op) (f : RegisterFile) :
    op.run f =
      match op.effect f with
      | .ok (next, after) => (.ok next, after)
      | .error e => (.error e, f) := by
  obtain ⟨site, action⟩ := op
  cases action with
  | compare comparison dest lhs rhs =>
      simp only [run, execute, effect, Exec.run_read_bind, Exec.run_ofExcept_bind,
        Exec.run_assign_bind, Exec.run_pure]
      cases f.read lhs with
      | error e => rfl
      | ok a =>
          cases f.read rhs with
          | error e => rfl
          | ok b =>
              simp only [bind, Except.bind]
              cases comparison.result a b with
              | error v => rfl
              | ok item =>
                  simp only [Except.mapError]
                  cases f.assign dest item <;> rfl
  | branch relation lhs rhs? target next =>
      simp only [run, execute, effect, Exec.run_read_bind]
      cases f.read lhs with
      | error e => rfl
      | ok a =>
          cases rhs? with
          | none =>
              show Exec.run (match relation.decideItems? a (.ofInt 0) with
                | some true => _ | some false => _ | none => _) f = _
              simp only [branchNext, Option.map_none, Option.getD_none, bind, Except.bind]
              rcases relation.decideItems? a (.ofInt 0) with _ | _ | _ <;> rfl
          | some rhs =>
              simp only [Exec.run_read_bind, branchNext, Option.map_some, Option.getD_some]
              cases f.read rhs with
              | error e => rfl
              | ok b =>
                  simp only [bind, Except.bind]
                  rcases relation.decideItems? a b with _ | _ | _ <;> rfl
  | switch selector cases next =>
      simp only [run, execute, effect, Exec.run_read_bind]
      cases f.read selector with
      | error e => rfl
      | ok item =>
          simp only [switchNext, bind, Except.bind]
          rcases item.value? with _ | _ | _ <;> rfl
  | move dest source =>
      simp only [run, execute, effect, Exec.run_read_bind, Exec.run_assign_bind, Exec.run_pure]
      cases f.read source with
      | error e => rfl
      | ok item =>
          simp only [bind, Except.bind]
          cases f.assign dest item <;> rfl
  | constant dest item =>
      simp only [run, execute, effect, Exec.run_assign_bind, Exec.run_pure]
      cases f.assign dest item <;> rfl
  | flow registers => rfl

theorem run_eq_ok_iff {op : Op} {f after : RegisterFile} {next : List Nat} :
    op.run f = (.ok next, after) ↔ op.effect f = .ok (next, after) := by
  rw [run_eq_effect]
  cases op.effect f with
  | ok r => simp [Prod.ext_iff]
  | error e => simp

theorem run_eq_error_iff {op : Op} {f after : RegisterFile} {e : Error} :
    op.run f = (.error e, after) ↔ op.effect f = .error e ∧ after = f := by
  rw [run_eq_effect]
  cases op.effect f with
  | ok r => simp
  | error d => simp [eq_comm]

theorem fst_run_eq_error_iff {op : Op} {f : RegisterFile} {e : Error} :
    (op.run f).1 = .error e ↔ op.effect f = .error e := by
  rw [run_eq_effect]
  cases op.effect f <;> simp

theorem eq_of_run_error {op : Op} {f after : RegisterFile} {e : Error}
    (h : op.run f = (.error e, after)) : after = f := (run_eq_error_iff.mp h).2

section Outcome

variable {op : Op} {f after : RegisterFile} {dest lhs rhs : UInt16} {a b item : Item}

theorem effect_compare {comparison : Comparison}
    (haction : op.action = .compare comparison dest lhs rhs) (ha : f.read lhs = .ok a)
    (hb : f.read rhs = .ok b) (hresult : comparison.result a b = .ok item)
    (h : f.assign dest item = .ok after) : op.effect f = .ok (op.children, after) := by
  simp only [effect, haction, ha, hb, hresult, h, Except.mapError, bind, Except.bind]
  rfl

theorem effect_compare_of_violation {comparison : Comparison} {violation : Violation}
    (haction : op.action = .compare comparison dest lhs rhs) (ha : f.read lhs = .ok a)
    (hb : f.read rhs = .ok b) (hresult : comparison.result a b = .error violation) :
    op.effect f = .error (.invariantViolation op.opcode violation) := by
  simp only [effect, haction, ha, hb, hresult, Except.mapError, bind, Except.bind]

theorem effect_branch {relation : Relation} {rhs? : Option UInt16} {target next : Nat}
    (haction : op.action = .branch relation lhs rhs? target next) (ha : f.read lhs = .ok a)
    (hb : (rhs?.map f.read).getD (.ok (.ofInt 0)) = .ok b) :
    op.effect f = .ok (op.branchNext relation target next a b, f) := by
  simp only [effect, haction, ha, hb, bind, Except.bind]
  rfl

theorem effect_switch {selector : UInt16} {cases : List (Int32 × Nat)} {next : Nat}
    (haction : op.action = .switch selector cases next) (h : f.read selector = .ok item) :
    op.effect f = .ok (op.switchNext cases next item, f) := by
  simp only [effect, haction, h, bind, Except.bind]
  rfl

theorem effect_switch_of_known {selector : UInt16} {cases : List (Int32 × Nat)} {next : Nat}
    {k : Int32} (haction : op.action = .switch selector cases next)
    (h : f.read selector = .ok item) (hk : item.value? = some (.int k)) :
    op.effect f = .ok ([selectCase cases next k], f) := by
  rw [effect_switch haction h, switchNext, hk]

theorem effect_move {source : UInt16} (haction : op.action = .move dest source)
    (hitem : f.read source = .ok item) (h : f.assign dest item = .ok after) :
    op.effect f = .ok (op.children, after) := by
  simp only [effect, haction, hitem, h, bind, Except.bind]
  rfl

theorem effect_constant (haction : op.action = .constant dest item)
    (h : f.assign dest item = .ok after) : op.effect f = .ok (op.children, after) := by
  simp only [effect, haction, h, bind, Except.bind]
  rfl

end Outcome

end Op

namespace Program

variable {p : Program Op} {g : FlowGraph} {node : Nat} {f : RegisterFile}

theorem step_eq_ok_iff {next : List (Nat × RegisterFile)} :
    p.step g node f = .ok next ↔
      ∃ n op addresses after, g.node? node = some n ∧ p.get? n.address = some op ∧
        op.effect f = .ok (addresses, after) ∧
        next = (g.childrenAt node addresses).map fun child => (child, after) := by
  simp only [step_eq_ok_iff_run, Op.operation_run, Op.run_eq_ok_iff]

theorem step_eq_error_iff {e : Error} :
    p.step g node f = .error e ↔
      (g.node? node = none ∧ e = .malformed (.foreignNode node)) ∨
        ∃ n, g.node? node = some n ∧
          ((p.get? n.address = none ∧ e = .missingOp n.address) ∨
            ∃ op, p.get? n.address = some op ∧ op.effect f = .error e) := by
  simp only [step_eq_error_iff_run, Op.operation_run, Op.fst_run_eq_error_iff]

end Program

end DalvikFlow
