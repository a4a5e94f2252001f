import DalvikFlow.Error

/-! The registers of one method call. -/
namespace DalvikFlow

namespace RegisterFile

section Cells

/-- In its place, or in place of what the register held. -/
def insertCell (r : UInt16) (i : Item) : List (UInt16 × Item) → List (UInt16 × Item)
  | [] => [(r, i)]
  | (s, j) :: rest =>
    if r < s then (r, i) :: (s, j) :: rest
    else if r = s then (r, i) :: rest
    else (s, j) :: insertCell r i rest

variable {r : UInt16} {i : Item} {c : UInt16 × Item} {cells : List (UInt16 × Item)}

theorem mem_insertCell (h : c ∈ insertCell r i cells) : c = (r, i) ∨ c ∈ cells := by
  induction cells with
  | nil => exact .inl (List.mem_singleton.mp h)
  | cons d cells ih =>
    unfold insertCell at h
    split at h
    next => exact List.mem_cons.mp h
    next =>
      split at h
      next =>
        rcases List.mem_cons.mp h with h | h
        · exact .inl h
        · exact .inr (List.mem_cons_of_mem _ h)
      next =>
        rcases List.mem_cons.mp h with rfl | h
        · exact .inr List.mem_cons_self
        · exact (ih h).imp_right (List.mem_cons_of_mem _)

/-- A register goes in front of the first that is larger, so the order stays. -/
theorem ascending_insertCell (h : cells.Pairwise fun c d => c.1 < d.1) :
    (insertCell r i cells).Pairwise fun c d => c.1 < d.1 := by
  induction cells with
  | nil => exact List.pairwise_singleton _ _
  | cons d cells ih =>
    obtain ⟨hhead, htail⟩ := List.pairwise_cons.mp h
    unfold insertCell
    split
    next hlt =>
      refine List.pairwise_cons.mpr ⟨?_, h⟩
      intro c hc
      rcases List.mem_cons.mp hc with rfl | hc
      · exact hlt
      · exact UInt16.lt_trans hlt (hhead c hc)
    next hlt =>
      split
      next heq =>
        subst heq
        exact List.pairwise_cons.mpr ⟨hhead, htail⟩
      next heq =>
        -- the head stays in front, of the rest and of what goes into the rest
        refine List.pairwise_cons.mpr ⟨?_, ih htail⟩
        intro c hc
        rcases mem_insertCell hc with rfl | hc
        · exact UInt16.lt_of_le_of_ne (UInt16.not_lt.mp hlt) (Ne.symm heq)
        · exact hhead c hc

theorem lookup_cons_ite (s t : UInt16) (j : Item) (cells : List (UInt16 × Item)) :
    ((t, j) :: cells).lookup s = if s = t then some j else cells.lookup s := by
  rw [List.lookup_cons]
  by_cases h : s = t
  · rw [if_pos h, beq_iff_eq.mpr h]
  · rw [if_neg h, beq_eq_false_iff_ne.mpr h]

theorem lookup_insertCell (r s : UInt16) (i : Item) (cells : List (UInt16 × Item)) :
    (insertCell r i cells).lookup s = if s = r then some i else cells.lookup s := by
  induction cells with
  | nil => exact lookup_cons_ite s r i []
  | cons c cells ih =>
    obtain ⟨t, j⟩ := c
    unfold insertCell
    split
    next => exact lookup_cons_ite s r i _
    next =>
      split
      next hrt =>
        rw [lookup_cons_ite, lookup_cons_ite, hrt]
        split <;> rfl
      next hrt =>
        rw [lookup_cons_ite, lookup_cons_ite, ih]
        by_cases hst : s = t
        · rw [if_pos hst, if_pos hst, if_neg (fun h => hrt (h.symm.trans hst))]
        · rw [if_neg hst, if_neg hst]

end Cells

end RegisterFile

/-- The assigned registers, each with its item. They are in order and they exist. -/
structure RegisterFile where
  count : UInt16
  cells : List (UInt16 × Item)
  ascending : cells.Pairwise (fun c d => c.1 < d.1) := by decide
  below : ∀ c ∈ cells, c.1 < count := by decide
  deriving DecidableEq, Repr

namespace RegisterFile

/-- No register is assigned. -/
def empty (count : UInt16) : RegisterFile := ⟨count, [], .nil, nofun⟩

def find? (f : RegisterFile) (r : UInt16) : Option Item := f.cells.lookup r

def isAssigned (f : RegisterFile) (r : UInt16) : Bool := (f.find? r).isSome

def assigned (f : RegisterFile) : List UInt16 := f.cells.map Prod.fst

/-- A register that exists gets an item. -/
def set (f : RegisterFile) (r : UInt16) (i : Item) (h : r < f.count) : RegisterFile where
  count := f.count
  cells := insertCell r i f.cells
  ascending := ascending_insertCell f.ascending
  below := by
    intro c hc
    rcases mem_insertCell hc with rfl | hc
    · exact h
    · exact f.below c hc

/-- The register, if it exists. -/
def checkBounds (f : RegisterFile) (r : UInt16) : Except Error {s // s < f.count} :=
  if h : r < f.count then .ok ⟨r, h⟩ else .error (.registerOutOfBounds r f.count)

/-- A register that does not exist is never an unassigned one. -/
def read (f : RegisterFile) (r : UInt16) : Except Error Item := do
  let s ← f.checkBounds r
  match f.find? s with
  | some i => .ok i
  | none => .error (.unassignedRegister s)

def assign (f : RegisterFile) (r : UInt16) (i : Item) : Except Error RegisterFile := do
  let s ← f.checkBounds r
  return f.set s i s.property

/-- One assignment after the other, up to the first that fails. -/
def assignAll (f : RegisterFile) (cells : List (UInt16 × Item)) : Except Error RegisterFile :=
  cells.foldlM (fun f (r, i) => f.assign r i) f

end RegisterFile

end DalvikFlow
