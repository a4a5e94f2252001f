import DalvikFlow.Graph.Construction
import DalvikFlow.Proofs.Exec.Creation
import DalvikFlow.Proofs.Exec.Effect

/-! What an operation reads and what it writes. It takes nothing from the registers but the items of its
sources, and changes nothing but its destination, as the flags of its opcode say. -/
namespace DalvikFlow

namespace Action

/-- The registers that are read. -/
def sources : Action → List UInt16
  | compare _ _ lhs rhs => [lhs, rhs]
  | branch _ lhs rhs? _ _ => lhs :: rhs?.toList
  | switch selector _ _ => [selector]
  | move _ source => [source]
  | constant .. | flow _ => []

/-- The register that is written. -/
def dest? : Action → Option UInt16
  | compare _ dest _ _ | move dest _ | constant dest _ => some dest
  | branch .. | switch .. | flow _ => none

end Action

namespace RegisterFile

/-- An assignment, or none. -/
def assign? (f : RegisterFile) : Option (UInt16 × Item) → Except Error RegisterFile
  | some (r, i) => f.assign r i
  | none => .ok f

variable {f f' after : RegisterFile} {write? : Option (UInt16 × Item)}

theorem read_congr (hcount : f.count = f'.count) {r : UInt16} (h : f.find? r = f'.find? r) :
    f.read r = f'.read r := by
  rw [read_eq, read_eq, hcount, h]

theorem assign?_eq_ok (h : f.assign? write? = .ok after) :
    (write? = none ∧ after = f) ∨ ∃ r i, write? = some (r, i) ∧ f.assign r i = .ok after := by
  cases write? with
  | none => exact .inl ⟨rfl, (Except.ok.inj h).symm⟩
  | some w => exact .inr ⟨w.1, w.2, rfl, h⟩

theorem find?_of_assign? (h : f.assign? write? = .ok after) {r : UInt16}
    (hr : write?.map Prod.fst ≠ some r) : after.find? r = f.find? r := by
  rcases assign?_eq_ok h with ⟨-, rfl⟩ | ⟨s, i, rfl, h⟩
  · rfl
  · rw [find?_of_assign h, if_neg fun hrs => hr (congrArg some hrs.symm)]

theorem count_of_assign? (h : f.assign? write? = .ok after) : after.count = f.count := by
  rcases assign?_eq_ok h with ⟨-, rfl⟩ | ⟨r, i, rfl, h⟩
  · rfl
  · exact count_of_assign h

/-- Whether an assignment is made depends on the number of registers alone. -/
theorem assign?_congr (hcount : f.count = f'.count) (write? : Option (UInt16 × Item)) :
    (∃ e, f.assign? write? = .error e ∧ f'.assign? write? = .error e) ∨
      ∃ after after', f.assign? write? = .ok after ∧ f'.assign? write? = .ok after' ∧
        ∀ r, write?.map Prod.fst = some r → after.find? r = after'.find? r := by
  cases write? with
  | none => exact .inr ⟨f, f', rfl, rfl, nofun⟩
  | some w =>
      obtain ⟨r, i⟩ := w
      by_cases hr : r < f.count
      · obtain ⟨after, hafter⟩ := exists_assign hr i
        obtain ⟨after', hafter'⟩ := exists_assign (hcount ▸ hr) i
        refine .inr ⟨after, after', hafter, hafter', ?_⟩
        rintro _ ⟨⟩
        rw [find?_of_assign hafter, find?_of_assign hafter', if_pos rfl, if_pos rfl]
      · refine .inl ⟨.registerOutOfBounds r f.count, ?_, ?_⟩
        · exact assign_eq_error_iff.mpr ⟨hr, rfl⟩
        · rw [hcount] at hr ⊢
          exact assign_eq_error_iff.mpr ⟨hr, rfl⟩

end RegisterFile

namespace Op

/-- Where an operation goes next, and which item it leaves in which register, from the items that it
reads. -/
def evaluate (op : Op) (read : UInt16 → Except Error Item) :
    Except Error (List Nat × Option (UInt16 × Item)) :=
  match op.action with
  | .compare comparison dest lhs rhs => do
    let a ← read lhs
    let b ← read rhs
    let item ← (comparison.result a b).mapError (Error.invariantViolation op.opcode)
    return (op.children, some (dest, item))
  | .branch relation lhs rhs? target next => do
    let a ← read lhs
    let b ← (rhs?.map read).getD (.ok (.ofInt 0))
    return (op.branchNext relation target next a b, none)
  | .switch selector cases next => do
    let item ← read selector
    return (op.switchNext cases next item, none)
  | .move dest source => do
    let item ← read source
    return (op.children, some (dest, item))
  | .constant dest item => return (op.children, some (dest, item))
  | .flow _ => return (op.children, none)

variable {op : Op}

/-- All reading comes before the one assignment. -/
theorem effect_eq_evaluate (op : Op) (f : RegisterFile) :
    op.effect f = do
      let (next, write?) ← op.evaluate f.read
      let after ← f.assign? write?
      return (next, after) := by
  obtain ⟨site, action⟩ := op
  cases action with
  | compare comparison dest lhs rhs =>
      simp only [effect, evaluate, bind_assoc, pure_bind]
      rfl
  | branch relation lhs rhs? target next =>
      simp only [effect, evaluate, bind_assoc, pure_bind]
      rfl
  | switch selector cases next =>
      simp only [effect, evaluate, bind_assoc, pure_bind]
      rfl
  | move dest source =>
      simp only [effect, evaluate, bind_assoc, pure_bind]
      rfl
  | constant dest item => rfl
  | flow registers => rfl

theorem evaluate_congr {read read' : UInt16 → Except Error Item}
    (h : ∀ r ∈ op.action.sources, read r = read' r) : op.evaluate read = op.evaluate read' := by
  obtain ⟨site, action⟩ := op
  cases action with
  | compare comparison dest lhs rhs =>
      have hl : read lhs = read' lhs := h lhs List.mem_cons_self
      have hr : read rhs = read' rhs := h rhs (List.mem_cons_of_mem _ List.mem_cons_self)
      simp only [evaluate, hl, hr]
  | branch relation lhs rhs? target next =>
      have hl : read lhs = read' lhs := h lhs List.mem_cons_self
      cases rhs? with
      | none => simp only [evaluate, hl, Option.map_none]
      | some rhs =>
          have hr : read rhs = read' rhs := h rhs (List.mem_cons_of_mem _ List.mem_cons_self)
          simp only [evaluate, hl, hr, Option.map_some]
  | switch selector cases next =>
      have hs : read selector = read' selector := h selector List.mem_cons_self
      simp only [evaluate, hs]
  | move dest source =>
      have hs : read source = read' source := h source List.mem_cons_self
      simp only [evaluate, hs]
  | constant dest item => rfl
  | flow registers => rfl

/-- What is written is the destination, whatever was read. -/
theorem dest?_of_evaluate {read : UInt16 → Except Error Item} {next : List Nat}
    {write? : Option (UInt16 × Item)} (h : op.evaluate read = .ok (next, write?)) :
    write?.map Prod.fst = op.action.dest? := by
  obtain ⟨site, action⟩ := op
  cases action with
  | compare =>
      simp only [evaluate, bind_eq_ok_iff, pure_eq_ok_iff] at h
      obtain ⟨_, -, _, -, _, -, h⟩ := h
      cases h
      rfl
  | branch =>
      simp only [evaluate, bind_eq_ok_iff, pure_eq_ok_iff] at h
      obtain ⟨_, -, _, -, h⟩ := h
      cases h
      rfl
  | switch =>
      simp only [evaluate, bind_eq_ok_iff, pure_eq_ok_iff] at h
      obtain ⟨_, -, h⟩ := h
      cases h
      rfl
  | move =>
      simp only [evaluate, bind_eq_ok_iff, pure_eq_ok_iff] at h
      obtain ⟨_, -, h⟩ := h
      cases h
      rfl
  | constant | flow =>
      cases h
      rfl

/-- Only what is read can make it fail, by being absent or by not being comparable. -/
theorem error_of_evaluate {read : UInt16 → Except Error Item} {e : Error}
    (h : op.evaluate read = .error e) :
    (∃ r ∈ op.action.sources, read r = .error e) ∨ ∃ v, e = .invariantViolation op.opcode v := by
  obtain ⟨site, action⟩ := op
  cases action with
  | compare comparison dest lhs rhs =>
      simp only [evaluate, bind_eq_error_iff, pure_ne_error, and_false, exists_false, or_false] at h
      rcases h with h | ⟨a, -, h | ⟨b, -, h⟩⟩
      · exact .inl ⟨lhs, List.mem_cons_self, h⟩
      · exact .inl ⟨rhs, List.mem_cons_of_mem _ List.mem_cons_self, h⟩
      · obtain ⟨v, -, rfl⟩ := mapError_eq_error_iff.mp h
        exact .inr ⟨v, rfl⟩
  | branch relation lhs rhs? target next =>
      simp only [evaluate, bind_eq_error_iff, pure_ne_error, and_false, exists_false, or_false] at h
      rcases h with h | ⟨a, -, h⟩
      · exact .inl ⟨lhs, List.mem_cons_self, h⟩
      · cases rhs? with
        | none => cases h
        | some rhs => exact .inl ⟨rhs, List.mem_cons_of_mem _ List.mem_cons_self, h⟩
  | switch selector cases next =>
      simp only [evaluate, bind_eq_error_iff, pure_ne_error, and_false, exists_false, or_false] at h
      exact .inl ⟨selector, List.mem_cons_self, h⟩
  | move dest source =>
      simp only [evaluate, bind_eq_error_iff, pure_ne_error, and_false, exists_false, or_false] at h
      exact .inl ⟨source, List.mem_cons_self, h⟩
  | constant dest item => cases h
  | flow registers => cases h

theorem effect_eq_ok_iff {f after : RegisterFile} {next : List Nat} :
    op.effect f = .ok (next, after) ↔
      ∃ write?, op.evaluate f.read = .ok (next, write?) ∧ f.assign? write? = .ok after := by
  simp only [effect_eq_evaluate, bind_eq_ok_iff, pure_eq_ok_iff, Prod.exists]
  constructor
  · rintro ⟨next', write?, heval, after', hafter, h⟩
    cases h
    exact ⟨write?, heval, hafter⟩
  · rintro ⟨write?, heval, hafter⟩
    exact ⟨next, write?, heval, after, hafter, rfl⟩

theorem error_of_effect {f : RegisterFile} {e : Error} (h : op.effect f = .error e) :
    (∃ r ∈ op.action.sources, f.read r = .error e) ∨
      (∃ v, e = .invariantViolation op.opcode v) ∨ ∃ r, e = .registerOutOfBounds r f.count := by
  simp only [effect_eq_evaluate, bind_eq_error_iff, pure_ne_error, and_false, exists_false,
    or_false] at h
  rcases h with h | ⟨⟨next, write?⟩, -, h⟩
  · rcases error_of_evaluate h with h | h
    · exact .inl h
    · exact .inr (.inl h)
  · cases write? with
    | none => cases h
    | some w => exact .inr (.inr ⟨w.1, (RegisterFile.assign_eq_error_iff.mp h).2⟩)

/-- With the same items in its sources an operation does the same: it fails alike, or it goes to the same
addresses and leaves the same item in its destination. -/
theorem effect_congr {f f' : RegisterFile} (hcount : f.count = f'.count)
    (hsources : ∀ r ∈ op.action.sources, f.find? r = f'.find? r) :
    (∃ e, op.effect f = .error e ∧ op.effect f' = .error e) ∨
      ∃ next after after', op.effect f = .ok (next, after) ∧ op.effect f' = .ok (next, after') ∧
        ∀ r, op.action.dest? = some r → after.find? r = after'.find? r := by
  have heval : op.evaluate f.read = op.evaluate f'.read := evaluate_congr fun r hr =>
    RegisterFile.read_congr hcount (hsources r hr)
  rw [effect_eq_evaluate, effect_eq_evaluate, ← heval]
  cases hresult : op.evaluate f.read with
  | error e => exact .inl ⟨e, rfl, rfl⟩
  | ok result =>
      obtain ⟨next, write?⟩ := result
      rw [← dest?_of_evaluate hresult]
      simp only [bind, Except.bind]
      rcases RegisterFile.assign?_congr hcount write? with
        ⟨e, he, he'⟩ | ⟨after, after', hafter, hafter', hsame⟩
      · rw [he, he']
        exact .inl ⟨e, rfl, rfl⟩
      · rw [hafter, hafter']
        exact .inr ⟨next, after, after', rfl, rfl, hsame⟩

section Frame

variable {f after : RegisterFile} {next : List Nat} (h : op.effect f = .ok (next, after))

include h

theorem count_of_effect : after.count = f.count := by
  obtain ⟨write?, -, hafter⟩ := effect_eq_ok_iff.mp h
  exact RegisterFile.count_of_assign? hafter

theorem find?_of_effect {r : UInt16} (hr : op.action.dest? ≠ some r) :
    after.find? r = f.find? r := by
  obtain ⟨write?, heval, hafter⟩ := effect_eq_ok_iff.mp h
  rw [← dest?_of_evaluate heval] at hr
  exact RegisterFile.find?_of_assign? hafter hr

theorem eq_of_effect (hdest : op.action.dest? = none) : after = f := by
  obtain ⟨write?, heval, hafter⟩ := effect_eq_ok_iff.mp h
  rw [← dest?_of_evaluate heval, Option.map_eq_none_iff] at hdest
  subst hdest
  exact (Except.ok.inj hafter).symm

theorem exists_assign_of_effect {r : UInt16} (hdest : op.action.dest? = some r) :
    ∃ i, f.assign r i = .ok after := by
  obtain ⟨write?, heval, hafter⟩ := effect_eq_ok_iff.mp h
  rw [← dest?_of_evaluate heval] at hdest
  obtain ⟨w, rfl, rfl⟩ := Option.map_eq_some_iff.mp hdest
  exact ⟨w.2, hafter⟩

end Frame

end Op

/-- Families whose operations leave an item in a register. -/
def Family.writes : Family → Bool
  | compare | move | constant => true
  | branch | switch | flow => false

namespace Opcode

/-- The flag of an opcode says what its family does. -/
theorem setsRegister_of_family? {op : Opcode} {family : Family} (h : op.family? = some family) :
    op.setsRegister = family.writes := by
  revert h
  cases op <;> rintro ⟨⟩ <;> rfl

/-- Which register operands are read. A branch on zero has only one. -/
def sourceOperands (op : Opcode) : List Nat :=
  match op.family? with
  | some .compare => [1, 2]
  | some .branch => if op.condition?.any Condition.withZero then [0] else [0, 1]
  | some .switch => [0]
  | some .move => [1]
  | some .constant | some .flow | none => []

end Opcode

/-- The registers that the instruction of a node reads. -/
def Node.sources (n : Node) : List UInt16 :=
  n.opcode.sourceOperands.filterMap n.instruction.register?

section Creation

variable {g : FlowGraph} {n : Node} {op : Op}

theorem Family.Makes.sources {family : Family} (h : family.Makes g n op) :
    op.action.sources = n.sources := by
  rw [Node.sources, Opcode.sourceOperands, h.family?_eq]
  cases h with
  | compare _ _ hl hr => simp [hl, hr, Action.sources]
  | branch hc hl hr _ => simp [hc, hl, hr, Action.sources]
  | branchZero hc hl _ => simp [hc, hl, Action.sources]
  | switch _ _ _ hs => simp [hs, Action.sources]
  | move _ _ hs => simp [hs, Action.sources]
  | constant | flow => rfl

theorem Family.Makes.dest? {family : Family} (h : family.Makes g n op) :
    op.action.dest? = if n.opcode.setsRegister then n.instruction.register? 0 else none := by
  rw [Opcode.setsRegister_of_family? h.family?_eq]
  cases h with
  | compare _ hd _ _ => exact hd.symm
  | move _ hd _ => exact hd.symm
  | constant _ _ hd => exact hd.symm
  | branch | branchZero | switch | flow => rfl

theorem Family.Makes.exists_dest {family : Family} (h : family.Makes g n op)
    (hwrites : family.writes = true) : ∃ r, n.instruction.register? 0 = some r := by
  cases h with
  | compare _ hd _ _ => exact ⟨_, hd⟩
  | move _ hd _ => exact ⟨_, hd⟩
  | constant _ _ hd => exact ⟨_, hd⟩
  | branch | branchZero | switch | flow => cases hwrites

theorem Op.sources_of_builtin (h : Registry.builtin.create g n = .ok op) :
    op.action.sources = n.sources := by
  obtain ⟨family, hmakes⟩ := Registry.builtin_create_eq_ok_iff.mp h
  exact hmakes.sources

theorem Op.dest?_of_builtin (h : Registry.builtin.create g n = .ok op) :
    op.action.dest? = if n.opcode.setsRegister then n.instruction.register? 0 else none := by
  obtain ⟨family, hmakes⟩ := Registry.builtin_create_eq_ok_iff.mp h
  exact hmakes.dest?

theorem Op.exists_dest_of_builtin (h : Registry.builtin.create g n = .ok op)
    (hsets : n.opcode.setsRegister = true) : ∃ r, n.instruction.register? 0 = some r := by
  obtain ⟨family, hmakes⟩ := Registry.builtin_create_eq_ok_iff.mp h
  rw [Opcode.setsRegister_of_family? hmakes.family?_eq] at hsets
  exact hmakes.exists_dest hsets

end Creation

namespace Op

/-- The footprint of an operation: its result and the item that it leaves depend on its sources alone, it
leaves all but its first operand as it was and that one too unless its opcode is flagged to set it, and
an operation that fails leaves everything. -/
theorem footprint_of_builtin {g : FlowGraph} {n : Node} {op : Op}
    (hop : Registry.builtin.create g n = .ok op) :
    (∀ f f' : RegisterFile, f.count = f'.count → (∀ r ∈ n.sources, f.find? r = f'.find? r) →
      (op.run f).1 = (op.run f').1 ∧
        ∀ next r, (op.run f).1 = .ok next → n.opcode.setsRegister = true →
          n.instruction.register? 0 = some r →
          (op.run f).2.find? r = (op.run f').2.find? r) ∧
    (∀ f next after, op.run f = (.ok next, after) →
      after.count = f.count ∧
      (∀ r, n.instruction.register? 0 ≠ some r → after.find? r = f.find? r) ∧
      (n.opcode.setsRegister = false → after = f) ∧
      (n.opcode.setsRegister = true →
        ∃ r, n.instruction.register? 0 = some r ∧ after.isAssigned r = true)) ∧
    ∀ f e after, op.run f = (.error e, after) → after = f := by
  have hdest := dest?_of_builtin hop
  refine ⟨?_, ?_, ?_⟩
  · intro f f' hcount hsources
    rw [← sources_of_builtin hop] at hsources
    rw [run_eq_effect, run_eq_effect]
    rcases effect_congr hcount hsources with
      ⟨e, he, he'⟩ | ⟨next, after, after', hafter, hafter', hsame⟩
    · rw [he, he']
      exact ⟨rfl, nofun⟩
    · rw [hafter, hafter']
      refine ⟨rfl, fun _ r _ hsets hr => hsame r ?_⟩
      rw [hdest, if_pos hsets, hr]
  · intro f next after hrun
    have heffect := run_eq_ok_iff.mp hrun
    refine ⟨count_of_effect heffect, ?_, ?_, ?_⟩
    · intro r hr
      apply find?_of_effect heffect
      rw [hdest]
      split
      · exact hr
      · exact nofun
    · intro hsets
      apply eq_of_effect heffect
      rw [hdest, hsets]
      rfl
    · intro hsets
      rw [if_pos hsets] at hdest
      obtain ⟨r, hr⟩ := exists_dest_of_builtin hop hsets
      obtain ⟨i, hi⟩ := exists_assign_of_effect heffect (hdest.trans hr)
      refine ⟨r, hr, ?_⟩
      rw [RegisterFile.isAssigned, RegisterFile.find?_of_assign hi, if_pos rfl]
      rfl
  · intro f e after hrun
    exact eq_of_run_error hrun

/-- Reads and overwrites its first register. -/
def accumulatingBody : List Instruction :=
  [(Instruction.ofOpcode .cmpLong 0).withRegisters [0, 0, 1], .ofOpcode .returnVoid 1]

theorem create_accumulatingBody :
    ∃ g n, (FlowGraph.ofCode {} accumulatingBody).result = .ok g ∧ g.node? 0 = some n ∧
      n.sources = [0, 1] ∧ n.instruction.register? 0 = some 0 ∧
      Registry.builtin.create g n = .ok ⟨⟨0, .cmpLong, [2]⟩, .compare .long 0 0 1⟩ := by
  obtain ⟨g, hg⟩ : ∃ g, (FlowGraph.ofCode {} accumulatingBody).result = .ok g := ⟨_, rfl⟩
  obtain ⟨n, hn⟩ : ∃ n, g.node? 0 = some n := by
    cases hg
    exact ⟨_, rfl⟩
  refine ⟨g, n, hg, hn, ?_⟩
  cases hg
  cases hn
  exact ⟨rfl, rfl, rfl⟩

/-- Two register files that differ in the third register, before and after. -/
theorem footprint_of_accumulatingBody :
    ∃ g n op, (FlowGraph.ofCode {} accumulatingBody).result = .ok g ∧ g.node? 0 = some n ∧
      Registry.builtin.create g n = .ok op ∧
      (op.run (.mk 3 [(0, .ofLong 4), (1, .ofLong 5), (2, .ofInt 6)])).1 =
        (op.run (.mk 3 [(0, .ofLong 4), (1, .ofLong 5)])).1 ∧
      (op.run (.mk 3 [(0, .ofLong 4), (1, .ofLong 5), (2, .ofInt 6)])).2.find? 2 = some (.ofInt 6) ∧
      (op.run (.mk 3 [(0, .ofLong 4)])).2 = (.mk 3 [(0, .ofLong 4)]) := by
  obtain ⟨g, n, hg, hn, hsources, hdest, hop⟩ := create_accumulatingBody
  obtain ⟨hsame, hframe, hfail⟩ := footprint_of_builtin hop
  refine ⟨g, n, _, hg, hn, hop, ?_, ?_, ?_⟩
  · refine (hsame _ _ rfl ?_).1
    rw [hsources]
    exact List.forall_mem_cons.mpr ⟨rfl, List.forall_mem_singleton.mpr rfl⟩
  · obtain ⟨-, hother, -⟩ := hframe (.mk 3 [(0, .ofLong 4), (1, .ofLong 5), (2, .ofInt 6)]) [2] _ rfl
    refine (hother 2 ?_).trans rfl
    rw [hdest]
    decide
  · exact hfail _ (.unassignedRegister 1) _ rfl

end Op

end DalvikFlow
