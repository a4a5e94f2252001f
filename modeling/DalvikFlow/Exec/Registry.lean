import DalvikFlow.Exec.Family

/-! Which family makes the operations of an opcode. Main statements: the last registration of an
opcode counts, and the built-in registry knows exactly the opcodes that have a family. -/
namespace DalvikFlow

/-- At most one family for each opcode. -/
structure Registry where
  entries : List (Opcode × Family)
  nodup : (entries.map Prod.fst).Nodup
  deriving DecidableEq, Repr

namespace Registry

def empty : Registry := ⟨[], .nil⟩

def size (r : Registry) : Nat := r.entries.length

def find? (r : Registry) (op : Opcode) : Option Family := r.entries.lookup op

def contains (r : Registry) (op : Opcode) : Bool := (r.find? op).isSome

/-- In place of the family that was registered before. -/
def register (r : Registry) (op : Opcode) (f : Family) : Registry where
  entries := (op, f) :: r.entries.filter fun e => e.1 ≠ op
  nodup := by
    refine List.nodup_cons.mpr ⟨?_, r.nodup.sublist (List.filter_sublist.map _)⟩
    intro hmem
    obtain ⟨e, he, heq⟩ := List.mem_map.mp hmem
    exact of_decide_eq_true (List.mem_filter.mp he).2 heq

/-- The entry of an opcode under the family that it belongs to. -/
def ownFamily? (op : Opcode) : Option (Opcode × Family) := op.family?.map fun f => (op, f)

theorem sublist_filterMap_ownFamily? (ops : List Opcode) :
    ((ops.filterMap ownFamily?).map Prod.fst).Sublist ops := by
  induction ops with
  | nil => exact .slnil
  | cons op ops ih =>
    rw [List.filterMap_cons, ownFamily?]
    cases op.family? with
    | none => exact ih.cons op
    | some f => exact ih.cons_cons op

/-- Every opcode that has a family, under that family. -/
def builtin : Registry where
  entries := Opcode.all.filterMap ownFamily?
  nodup := Opcode.nodup_all.sublist (sublist_filterMap_ownFamily? Opcode.all)

def create (r : Registry) (g : FlowGraph) (n : Node) : Except Error Op :=
  match r.find? n.opcode with
  | some f => f.create g n
  | none => .error (.unsupportedOpcode n.opcode)

theorem lookup_filter_ne {op op' : Opcode} (h : op' ≠ op) (entries : List (Opcode × Family)) :
    (entries.filter fun e => e.1 ≠ op).lookup op' = entries.lookup op' := by
  induction entries with
  | nil => rfl
  | cons e entries ih =>
    obtain ⟨o, f⟩ := e
    by_cases ho : o = op
    · rw [List.filter_cons_of_neg (by simp [ho]), ih, List.lookup_cons,
        beq_false_of_ne (ho ▸ h)]
    · rw [List.filter_cons_of_pos (by simp [ho]), List.lookup_cons, List.lookup_cons, ih]

theorem find?_register (r : Registry) (op op' : Opcode) (f : Family) :
    (r.register op f).find? op' = if op' = op then some f else r.find? op' := by
  unfold find? register
  by_cases h : op' = op
  · rw [if_pos h, h, List.lookup_cons_self]
  · rw [if_neg h, List.lookup_cons, beq_false_of_ne h]
    exact lookup_filter_ne h r.entries

theorem lookup_filterMap_ownFamily? (ops : List Opcode) (op : Opcode) :
    (ops.filterMap ownFamily?).lookup op = if op ∈ ops then op.family? else none := by
  induction ops with
  | nil => rfl
  | cons o ops ih =>
    rw [List.filterMap_cons]
    by_cases h : op = o
    · subst h
      cases hf : op.family? with
      | none => simp [ownFamily?, hf, ih]
      | some f => simp [ownFamily?, hf]
    · cases hf : o.family? with
      | none => simp [ownFamily?, hf, ih, h]
      | some f => simp [ownFamily?, hf, List.lookup_cons, beq_false_of_ne h, ih, h]

@[simp] theorem find?_builtin (op : Opcode) : builtin.find? op = op.family? := by
  rw [show builtin.find? op = _ from lookup_filterMap_ownFamily? Opcode.all op,
    if_pos (Opcode.mem_all op)]

end Registry

end DalvikFlow
