import DalvikFlow.Instruction.Basic

/-! Where the instructions of a body start: each after the code units of all before it. -/
namespace DalvikFlow.Body

/-- The code units that instructions take together. -/
def width : List Instruction → Nat
  | [] => 0
  | i :: rest => i.units.toNat + width rest

/-- The address of the instruction at a position. After the last one it is the end of the body. -/
def start (code : List Instruction) (position : Nat) : Nat := width (code.take position)

/-- An instruction of the body starts at an address, which may be any number. -/
def StartsAt (code : List Instruction) (address : Int) (i : Instruction) : Prop :=
  ∃ p, code[p]? = some i ∧ (start code p : Int) = address

/-- No instruction is empty. -/
def Wide (code : List Instruction) : Prop := ∀ i ∈ code, 0 < i.units.toNat

@[simp] theorem width_nil : width [] = 0 := rfl

@[simp] theorem width_cons (i : Instruction) (rest : List Instruction) :
    width (i :: rest) = i.units.toNat + width rest := rfl

@[simp] theorem start_zero (code : List Instruction) : start code 0 = 0 := by
  rw [start, List.take_zero, width_nil]

@[simp] theorem start_cons_succ (i : Instruction) (rest : List Instruction) (p : Nat) :
    start (i :: rest) (p + 1) = i.units.toNat + start rest p := rfl

@[simp] theorem start_length (code : List Instruction) : start code code.length = width code := by
  rw [start, List.take_length]

theorem start_succ {code : List Instruction} {p : Nat} {i : Instruction} (h : code[p]? = some i) :
    start code (p + 1) = start code p + i.units.toNat := by
  induction code generalizing p with
  | nil => cases h
  | cons j rest ih =>
      cases p with
      | zero =>
          cases h
          simp only [start_cons_succ, start_zero, Nat.add_zero, Nat.zero_add]
      | succ p =>
          have hrest := ih h
          simp only [start_cons_succ, hrest, Nat.add_assoc]

theorem start_le_start (code : List Instruction) {p q : Nat} (h : p ≤ q) :
    start code p ≤ start code q := by
  induction code generalizing p q with
  | nil => simp [start]
  | cons i rest ih =>
      cases p with
      | zero => simp
      | succ p =>
          cases q with
          | zero => exact absurd h (Nat.not_succ_le_zero p)
          | succ q => exact Nat.add_le_add_left (ih (Nat.le_of_succ_le_succ h)) _

/-- No instruction reaches into a later one. -/
theorem start_add_units_le {code : List Instruction} {p q : Nat} {i : Instruction}
    (hi : code[p]? = some i) (h : p < q) : start code p + i.units.toNat ≤ start code q := by
  rw [← start_succ hi]
  exact start_le_start code h

theorem start_le_width (code : List Instruction) (p : Nat) : start code p ≤ width code := by
  by_cases h : p ≤ code.length
  · exact start_length code ▸ start_le_start code h
  · exact Nat.le_of_eq (congrArg width (List.take_of_length_le (Nat.le_of_not_le h)))

/-- The code units below the width are those of the instructions, without gaps. -/
theorem lt_width_iff {code : List Instruction} {a : Nat} :
    a < width code ↔ ∃ (p : Nat) (i : Instruction),
      code[p]? = some i ∧ start code p ≤ a ∧ a < start code p + i.units.toNat := by
  constructor
  · intro ha
    induction code generalizing a with
    | nil => cases ha
    | cons i rest ih =>
        by_cases hi : a < i.units.toNat
        · exact ⟨0, i, rfl, by simp, by simpa using hi⟩
        · have hrest : a - i.units.toNat < width rest := by
            rw [width_cons] at ha
            omega
          obtain ⟨p, j, hj, hle, hlt⟩ := ih hrest
          refine ⟨p + 1, j, hj, ?_, ?_⟩
          · rw [start_cons_succ]
            omega
          · rw [start_cons_succ]
            omega
  · rintro ⟨p, i, hi, -, hlt⟩
    rw [← start_succ hi] at hlt
    exact Nat.lt_of_lt_of_le hlt (start_le_width code (p + 1))

theorem Wide.start_lt_start {code : List Instruction} (hw : Wide code) {p q : Nat} (h : p < q)
    (hp : p < code.length) : start code p < start code q := by
  have hpos := hw code[p] (List.getElem_mem hp)
  have hle := start_add_units_le (List.getElem?_eq_getElem hp) h
  omega

theorem Wide.start_injective {code : List Instruction} (hw : Wide code) {p q : Nat}
    (hp : p < code.length) (hq : q < code.length) (h : start code p = start code q) : p = q := by
  rcases Nat.lt_trichotomy p q with hlt | rfl | hgt
  · exact absurd h (Nat.ne_of_lt (hw.start_lt_start hlt hp))
  · rfl
  · exact absurd h.symm (Nat.ne_of_lt (hw.start_lt_start hgt hq))

theorem startsAt_start {code : List Instruction} {p : Nat} {i : Instruction}
    (h : code[p]? = some i) : StartsAt code (start code p) i := ⟨p, h, rfl⟩

/-- What starts where a position does is at that position. The end of the body is such a place too,
and nothing starts there. -/
theorem Wide.startsAt_start_iff {code : List Instruction} (hw : Wide code) {p : Nat}
    (hp : p ≤ code.length) {i : Instruction} :
    StartsAt code (start code p) i ↔ code[p]? = some i := by
  constructor
  · rintro ⟨q, hq, hqp⟩
    have hlt := (List.getElem?_eq_some_iff.mp hq).1
    rcases Nat.lt_trichotomy q p with h | rfl | h
    · exact absurd (Int.ofNat.inj hqp) (Nat.ne_of_lt (hw.start_lt_start h hlt))
    · exact hq
    · have hpl : p < code.length := Nat.lt_trans h hlt
      exact absurd (Int.ofNat.inj hqp) (Nat.ne_of_gt (hw.start_lt_start h hpl))
  · exact startsAt_start

theorem Wide.startsAt_unique {code : List Instruction} (hw : Wide code) {a : Int}
    {i j : Instruction} (hi : StartsAt code a i) (hj : StartsAt code a j) : i = j := by
  obtain ⟨p, hp, rfl⟩ := hi
  obtain ⟨q, hq, hpq⟩ := hj
  have hpl := (List.getElem?_eq_some_iff.mp hp).1
  have hql := (List.getElem?_eq_some_iff.mp hq).1
  have heq := hw.start_injective hql hpl (Int.ofNat.inj hpq)
  subst heq
  exact Option.some.inj (hp.symm.trans hq)

end DalvikFlow.Body
