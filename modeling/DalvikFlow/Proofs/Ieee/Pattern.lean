import DalvikFlow.Proofs.Ieee.Rounding

/-! A bit pattern as a number, and as an integer in two's complement that is rounded to a number. The
two readings order patterns alike as long as one of them has no sign and rounding keeps them apart. -/
namespace DalvikFlow.Ieee

variable {p : Precision}

/-- The number whose bits a literal has: all of them, or as many of the lowest as there are. -/
def ofLiteral (p : Precision) (v : Int64) : Ieee p := ⟨BitVec.ofInt _ v.toInt⟩

/-- The integer that the bits are in two's complement. -/
def asInt (x : Ieee p) : Int := x.bits.toInt

/-- The number nearest to the integer that the bits are. -/
def nearestToBits (x : Ieee p) : Ieee p := ofInt p x.asInt

theorem asInt_eq_ite (x : Ieee p) :
    x.asInt = if x.bits.toNat < p.signBit then (x.bits.toNat : Int)
      else x.bits.toNat - 2 * p.signBit := by
  have hwidth := p.two_pow_width
  rw [asInt, BitVec.toInt_eq_toNat_cond, hwidth]
  split <;> split <;> omega

theorem asInt_range (x : Ieee p) : -(p.signBit : Int) ≤ x.asInt ∧ x.asInt < p.signBit := by
  have hlt : x.bits.toNat < 2 * p.signBit := p.two_pow_width ▸ x.bits.isLt
  rw [asInt_eq_ite]
  split <;> omega

theorem asInt_injective {x y : Ieee p} (h : x.asInt = y.asInt) : x = y := by
  obtain ⟨a⟩ := x
  obtain ⟨b⟩ := y
  rw [show a = b from BitVec.eq_of_toInt_eq h]

/-- Below zero the integer descends while the number behind the sign ascends. -/
theorem key_eq_asInt (x : Ieee p) :
    x.key = if x.asInt < 0 then -x.asInt - p.signBit else x.asInt := by
  have hlt : x.bits.toNat < 2 * p.signBit := p.two_pow_width ▸ x.bits.isLt
  rw [key_eq_ite, asInt_eq_ite]
  split <;> split <;> omega

theorem asInt_ofLiteral_single (v : Int64) : (ofLiteral .single v).asInt = v.toInt32.toInt := by
  rw [asInt, ofLiteral, BitVec.toInt_ofInt, Int64.toInt_toInt32]
  rfl

theorem asInt_ofLiteral_double (v : Int64) : (ofLiteral .double v).asInt = v.toInt := by
  rw [asInt, ofLiteral, BitVec.toInt_ofInt]
  exact Int64.toInt_bmod v

theorem compare_eq_compare_iff {a b c d : Int} :
    compare a b = compare c d ↔ (a < b ↔ c < d) ∧ (b < a ↔ d < c) := by
  constructor
  · intro h
    rw [← Int.compare_eq_lt, ← Int.compare_eq_lt, ← Int.compare_eq_gt, ← Int.compare_eq_gt, h]
    exact ⟨Iff.rfl, Iff.rfl⟩
  · rintro ⟨hlt, hgt⟩
    rcases Int.lt_trichotomy a b with h | rfl | h
    · rw [Int.compare_eq_lt.mpr h, Int.compare_eq_lt.mpr (hlt.mp h)]
    · have hcd : c = d := by omega
      rw [hcd, Int.compare_eq_eq.mpr rfl, Int.compare_eq_eq.mpr rfl]
    · rw [Int.compare_eq_gt.mpr h, Int.compare_eq_gt.mpr (hgt.mp h)]

section Nearest

variable (x y : Ieee p)

/-- Rounding may make integers equal, and never puts them in the wrong order. -/
theorem compare_nearestToBits_ne_gt (h : x.asInt ≤ y.asInt) :
    compare x.nearestToBits.key y.nearestToBits.key ≠ .gt :=
  Int.compare_ne_gt.mpr (key_ofInt_mono h)

theorem compare_nearestToBits_ne_lt (h : y.asInt ≤ x.asInt) :
    compare x.nearestToBits.key y.nearestToBits.key ≠ .lt :=
  Int.compare_ne_lt.mpr (key_ofInt_mono h)

theorem compare_nearestToBits_of_small (hx : x.asInt.natAbs ≤ 2 * p.leadingOne)
    (hy : y.asInt.natAbs ≤ 2 * p.leadingOne) :
    compare x.nearestToBits.key y.nearestToBits.key = compare x.asInt y.asInt := by
  have hmono : x.asInt ≤ y.asInt → x.nearestToBits.key ≤ y.nearestToBits.key := key_ofInt_mono
  have hmono' : y.asInt ≤ x.asInt → y.nearestToBits.key ≤ x.nearestToBits.key := key_ofInt_mono
  have hlt : x.asInt < y.asInt → x.nearestToBits.key < y.nearestToBits.key := fun h =>
    key_ofInt_lt h hx hy
  have hlt' : y.asInt < x.asInt → y.nearestToBits.key < x.nearestToBits.key := fun h =>
    key_ofInt_lt h hy hx
  rw [compare_eq_compare_iff]
  omega

/-- The two readings agree on equal patterns, and on patterns that are not both below zero, not the two
zeros and not rounded to one number. -/
theorem order?_eq_compare_nearestToBits_iff (hx : x.isNaN = false) (hy : y.isNaN = false) :
    x.order? y = some (compare x.nearestToBits.key y.nearestToBits.key) ↔
      x = y ∨ (0 ≤ x.asInt ∨ 0 ≤ y.asInt) ∧ ¬ (x.key = 0 ∧ y.key = 0) ∧
        x.nearestToBits.key ≠ y.nearestToBits.key := by
  have hxy : x = y ↔ x.asInt = y.asInt := ⟨congrArg asInt, asInt_injective⟩
  have hmono : x.asInt ≤ y.asInt → x.nearestToBits.key ≤ y.nearestToBits.key := key_ofInt_mono
  have hmono' : y.asInt ≤ x.asInt → y.nearestToBits.key ≤ x.nearestToBits.key := key_ofInt_mono
  have hxneg : x.nearestToBits.key < 0 ↔ x.asInt < 0 := key_ofInt_neg_iff
  have hyneg : y.nearestToBits.key < 0 ↔ y.asInt < 0 := key_ofInt_neg_iff
  have hxkey := key_eq_asInt x
  have hykey := key_eq_asInt y
  have hxrange := asInt_range x
  have hyrange := asInt_range y
  rw [order?, hx, hy, Bool.or_false, if_neg Bool.false_ne_true, Option.some.injEq,
    compare_eq_compare_iff, hxy]
  split at hxkey <;> split at hykey <;> omega

end Nearest

end DalvikFlow.Ieee
