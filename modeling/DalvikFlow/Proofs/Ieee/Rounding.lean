import DalvikFlow.Ieee.Basic
import Mathlib.Algebra.Group.Nat.Defs

/-! The number nearest to an integer ascends with the integer, and strictly as long as a significand
can hold the integer. Numbers are compared by their keys. -/
namespace DalvikFlow

namespace Precision

variable (p : Precision)

theorem leadingOne_eq : p.leadingOne = 2 ^ p.fractionBits := Nat.one_shiftLeft _

theorem leadingOne_pos : 0 < p.leadingOne := by
  rw [leadingOne_eq]
  exact Nat.two_pow_pos _

theorem two_pow_width : 2 ^ p.width = 2 * p.signBit := by
  cases p <;> rfl

theorem infinity_lt_signBit : p.infinity < p.signBit := by
  cases p <;> decide

theorem minExponent_le : p.minExponent ≤ -p.fractionBits := by
  cases p <;> decide

end Precision

namespace Ieee

variable {p : Precision}

/-- The sign is the first bit, and the rest of the bits ascends with it cleared. -/
theorem key_eq_ite (x : Ieee p) :
    x.key = if x.bits.toNat < p.signBit then (x.bits.toNat : Int)
      else p.signBit - (x.bits.toNat : Int) := by
  have hlt : x.bits.toNat < 2 * p.signBit := p.two_pow_width ▸ x.bits.isLt
  have hmsb : x.isNegative = decide (p.signBit ≤ x.bits.toNat) := by
    rw [isNegative, BitVec.msb_eq_decide, Precision.signBit, Nat.one_shiftLeft]
  rw [key, hmsb, magnitude]
  by_cases h : x.bits.toNat < p.signBit
  · rw [if_pos h, Nat.mod_eq_of_lt h, decide_eq_false (Nat.not_le_of_lt h)]
    rfl
  · have hle := Nat.le_of_not_lt h
    rw [if_neg h, Nat.mod_eq_sub_mod hle, Nat.mod_eq_of_lt (by omega), decide_eq_true hle, if_pos rfl]
    omega

theorem toNat_assemble {negative : Bool} {m : Nat} (h : m < p.signBit) :
    (assemble negative m : Ieee p).bits.toNat = if negative then p.signBit + m else m := by
  rw [assemble, ofNat, BitVec.toNat_ofNat, p.two_pow_width, Nat.mod_eq_of_lt]
  split <;> omega

theorem key_assemble {negative : Bool} {m : Nat} (h : m < p.signBit) :
    (assemble negative m : Ieee p).key = if negative then -(m : Int) else m := by
  rw [key_eq_ite, toNat_assemble h]
  cases negative with
  | true =>
      rw [if_pos rfl, if_pos rfl, if_neg (by omega)]
      omega
  | false => exact if_pos h

theorem magnitude_assemble {negative : Bool} {m : Nat} (h : m < p.signBit) :
    (assemble negative m : Ieee p).magnitude = m := by
  rw [magnitude, toNat_assemble h]
  cases negative with
  | true => rw [if_pos rfl, Nat.add_mod_left, Nat.mod_eq_of_lt h]
  | false => exact Nat.mod_eq_of_lt h

section NaN

variable {q : Precision}

theorem isNaN_assemble {negative : Bool} {m : Nat} (h : m ≤ p.infinity) :
    (assemble negative m : Ieee p).isNaN = false := by
  rw [isNaN, magnitude_assemble (Nat.lt_of_le_of_lt h p.infinity_lt_signBit)]
  exact decide_eq_false (Nat.not_lt_of_le h)

/-- Rounding ends at infinity at the latest. -/
theorem isNaN_ofScaled (p : Precision) (negative : Bool) (m : Nat) (e : Int) :
    (ofScaled p negative m e).isNaN = false := by
  unfold ofScaled
  split
  · exact isNaN_assemble (Nat.zero_le _)
  · exact isNaN_assemble (Nat.min_le_right _ _)

theorem isNaN_ofInt (p : Precision) (i : Int) : (ofInt p i).isNaN = false :=
  isNaN_ofScaled p _ _ _

theorem isNaN_convert {x : Ieee p} (h : x.isNaN = false) : (x.convert q).isNaN = false := by
  rw [convert, h, if_neg Bool.false_ne_true]
  split
  · exact isNaN_assemble (Nat.le_refl _)
  · exact isNaN_ofScaled q _ _ _

theorem order?_of_not_isNaN {x y : Ieee p} (hx : x.isNaN = false) (hy : y.isNaN = false) :
    x.order? y = some (compare x.key y.key) := by
  rw [order?, hx, hy, Bool.or_false, if_neg Bool.false_ne_true]

end NaN

section RoundShift

theorem roundShift_eq (n k : Nat) :
    roundShift n k = if 2 * (n % 2 ^ k) < 2 ^ k ∨ 2 * (n % 2 ^ k) = 2 ^ k ∧ n / 2 ^ k % 2 = 0 then
      n / 2 ^ k else n / 2 ^ k + 1 := by
  simp only [roundShift, Nat.shiftRight_eq_div_pow, Nat.one_shiftLeft, Bool.or_eq_true,
    Bool.and_eq_true, decide_eq_true_eq]

theorem div_le_roundShift (n k : Nat) : n / 2 ^ k ≤ roundShift n k := by
  rw [roundShift_eq]
  split <;> omega

theorem roundShift_le_succ (n k : Nat) : roundShift n k ≤ n / 2 ^ k + 1 := by
  rw [roundShift_eq]
  split <;> omega

@[simp] theorem roundShift_zero_right (n : Nat) : roundShift n 0 = n := by
  rw [roundShift_eq, if_pos] <;> simp [Nat.mod_one]

theorem roundShift_mono {n m : Nat} (k : Nat) (h : n ≤ m) : roundShift n k ≤ roundShift m k := by
  have hdiv : n / 2 ^ k ≤ m / 2 ^ k := Nat.div_le_div_right h
  rcases Nat.lt_or_eq_of_le hdiv with hlt | heq
  · calc roundShift n k ≤ n / 2 ^ k + 1 := roundShift_le_succ n k
      _ ≤ m / 2 ^ k := hlt
      _ ≤ roundShift m k := div_le_roundShift m k
  · -- with equal quotients the remainders are in order, so one that goes up takes the other along
    have hn := Nat.div_add_mod n (2 ^ k)
    have hm := Nat.div_add_mod m (2 ^ k)
    rw [heq] at hn
    rw [roundShift_eq, roundShift_eq, heq]
    split <;> split <;> omega

end RoundShift

/-- The significand of the number nearest to `n`. -/
def places (p : Precision) (n : Nat) : Nat :=
  roundShift (n <<< (p.fractionBits - n.log2)) (n.log2 - p.fractionBits)

/-- How often a leading one fits below the significand of the number nearest to `n`. -/
def scale (p : Precision) (n : Nat) : Nat := (n.log2 - p.fractionBits - p.minExponent : Int).toNat

/-- The key of the number nearest to `n`, if the numbers had no end. -/
def openKey (p : Precision) (n : Nat) : Nat :=
  if n = 0 then 0 else scale p n * p.leadingOne + places p n

theorem ofInt_eq_assemble (p : Precision) (i : Int) :
    ofInt p i = assemble (i < 0) (min (openKey p i.natAbs) p.infinity) := by
  unfold ofInt ofScaled openKey
  by_cases h : i.natAbs = 0
  · rw [if_pos h, if_pos h, Nat.zero_min]
  · have hmin := p.minExponent_le
    have hup : (0 - (i.natAbs.log2 - p.fractionBits : Int)).toNat =
        p.fractionBits - i.natAbs.log2 := by omega
    have hdown : (i.natAbs.log2 - p.fractionBits - 0 : Int).toNat =
        i.natAbs.log2 - p.fractionBits := by omega
    rw [if_neg h, if_neg h, Int.zero_add, Int.max_eq_left (by omega)]
    dsimp only
    rw [hup, hdown, places, scale]

theorem places_of_le {n : Nat} (h : n.log2 ≤ p.fractionBits) :
    places p n = n * 2 ^ (p.fractionBits - n.log2) := by
  rw [places, Nat.sub_eq_zero_of_le h, roundShift_zero_right, Nat.shiftLeft_eq]

theorem places_of_ge {n : Nat} (h : p.fractionBits ≤ n.log2) :
    places p n = roundShift n (n.log2 - p.fractionBits) := by
  rw [places, Nat.sub_eq_zero_of_le h, Nat.shiftLeft_zero]

/-- A significand that is not rounded stays below the next power of two. -/
theorem places_lt {n : Nat} (h : n.log2 ≤ p.fractionBits) : places p n < 2 * p.leadingOne := by
  rw [places_of_le h, p.leadingOne_eq]
  calc n * 2 ^ (p.fractionBits - n.log2)
      < 2 ^ (n.log2 + 1) * 2 ^ (p.fractionBits - n.log2) :=
        Nat.mul_lt_mul_of_pos_right Nat.lt_log2_self (Nat.two_pow_pos _)
    _ = 2 ^ (p.fractionBits + 1) := by
        rw [← Nat.pow_add]
        congr 1
        omega
    _ = 2 * 2 ^ p.fractionBits := Nat.pow_succ'

theorem places_le (p : Precision) (n : Nat) : places p n ≤ 2 * p.leadingOne := by
  rcases Nat.le_total n.log2 p.fractionBits with hle | hge
  · exact Nat.le_of_lt (places_lt hle)
  · have hdiv : n / 2 ^ (n.log2 - p.fractionBits) < 2 * p.leadingOne := by
      rw [Nat.div_lt_iff_lt_mul (Nat.two_pow_pos _), p.leadingOne_eq, ← Nat.pow_succ', ← Nat.pow_add]
      have hexp : p.fractionBits + 1 + (n.log2 - p.fractionBits) = n.log2 + 1 := by omega
      exact hexp ▸ Nat.lt_log2_self
    rw [places_of_ge hge]
    exact Nat.le_trans (roundShift_le_succ _ _) hdiv

theorem le_places {n : Nat} (h : n ≠ 0) : p.leadingOne ≤ places p n := by
  have hlow := Nat.log2_self_le h
  rw [p.leadingOne_eq]
  rcases Nat.le_total n.log2 p.fractionBits with hle | hge
  · rw [places_of_le hle]
    calc 2 ^ p.fractionBits = 2 ^ n.log2 * 2 ^ (p.fractionBits - n.log2) := by
          rw [← Nat.pow_add, Nat.add_sub_of_le hle]
      _ ≤ n * 2 ^ (p.fractionBits - n.log2) := Nat.mul_le_mul_right _ hlow
  · rw [places_of_ge hge]
    refine Nat.le_trans ?_ (div_le_roundShift _ _)
    rw [Nat.le_div_iff_mul_le (Nat.two_pow_pos _), ← Nat.pow_add, Nat.add_sub_of_le hge]
    exact hlow

theorem places_mono {n m : Nat} (hlog : n.log2 = m.log2) (h : n ≤ m) : places p n ≤ places p m := by
  rcases Nat.le_total n.log2 p.fractionBits with hle | hge
  · rw [places_of_le hle, places_of_le (hlog ▸ hle), hlog]
    exact Nat.mul_le_mul_right _ h
  · rw [places_of_ge hge, places_of_ge (hlog ▸ hge), hlog]
    exact roundShift_mono _ h

theorem log2_le_log2 {n m : Nat} (h : n ≤ m) : n.log2 ≤ m.log2 := by
  by_cases hn : n = 0
  · subst hn
    exact Nat.zero_le _
  · exact (Nat.le_log2 (by omega)).mpr (Nat.le_trans (Nat.log2_self_le hn) h)

theorem scale_lt_scale {n m : Nat} (h : n.log2 < m.log2) : scale p n < scale p m := by
  have hmin := p.minExponent_le
  unfold scale
  omega

/-- From one power of two to the next the place of the significand makes up for its carry. -/
theorem openKey_mono {n m : Nat} (h : n ≤ m) : openKey p n ≤ openKey p m := by
  unfold openKey
  by_cases hn : n = 0
  · rw [if_pos hn]
    exact Nat.zero_le _
  rw [if_neg hn, if_neg (by omega)]
  rcases Nat.lt_or_eq_of_le (log2_le_log2 h) with hlt | heq
  · have hscale := Nat.mul_le_mul_right p.leadingOne (scale_lt_scale (p := p) hlt)
    have hhigh := places_le p n
    have hlow := le_places (p := p) (n := m) (by omega)
    rw [Nat.succ_mul] at hscale
    omega
  · have hplaces := places_mono (p := p) heq h
    rw [scale, scale, heq]
    omega

/-- What fits a significand, and the power of two after that. -/
theorem openKey_lt {n m : Nat} (h : n < m) (hm : m ≤ 2 * p.leadingOne) :
    openKey p n < openKey p m := by
  have hlow := le_places (p := p) (n := m) (by omega)
  have hpos := p.leadingOne_pos
  unfold openKey
  rw [if_neg (c := m = 0) (by omega)]
  by_cases hn : n = 0
  · rw [if_pos hn]
    omega
  rw [if_neg hn]
  -- what is below the power of two after the significands is not rounded
  have hexact : n.log2 ≤ p.fractionBits := by
    refine Nat.le_of_lt_succ ((Nat.log2_lt hn).mpr ?_)
    rw [Nat.pow_succ', ← p.leadingOne_eq]
    omega
  rcases Nat.lt_or_eq_of_le (log2_le_log2 (Nat.le_of_lt h)) with hlt | heq
  · have hscale := Nat.mul_le_mul_right p.leadingOne (scale_lt_scale (p := p) hlt)
    have hhigh := places_lt (p := p) hexact
    rw [Nat.succ_mul] at hscale
    omega
  · have hplaces : places p n < places p m := by
      rw [places_of_le hexact, places_of_le (heq ▸ hexact), heq]
      exact Nat.mul_lt_mul_of_pos_right h (Nat.two_pow_pos _)
    rw [scale, scale, heq]
    omega

theorem openKey_le_infinity {n : Nat} (h : n ≤ 2 * p.leadingOne) : openKey p n ≤ p.infinity := by
  refine Nat.le_trans (openKey_mono h) ?_
  cases p <;> decide

/-- The key of the number nearest to `n`. -/
def nearestKey (p : Precision) (n : Nat) : Nat := min (openKey p n) p.infinity

theorem nearestKey_mono {n m : Nat} (h : n ≤ m) : nearestKey p n ≤ nearestKey p m := by
  have hopen := openKey_mono (p := p) h
  unfold nearestKey
  omega

theorem nearestKey_lt {n m : Nat} (h : n < m) (hm : m ≤ 2 * p.leadingOne) :
    nearestKey p n < nearestKey p m := by
  have hopen := openKey_lt h hm
  have hle := openKey_le_infinity hm
  unfold nearestKey
  omega

theorem nearestKey_pos {n : Nat} (h : 0 < n) : 0 < nearestKey p n := by
  have hone : nearestKey p 0 < nearestKey p 1 := by
    apply nearestKey_lt Nat.zero_lt_one
    have hpos := p.leadingOne_pos
    omega
  exact Nat.lt_of_lt_of_le (Nat.lt_of_le_of_lt (Nat.zero_le _) hone) (nearestKey_mono h)

theorem nearestKey_lt_signBit (p : Precision) (n : Nat) : nearestKey p n < p.signBit :=
  Nat.lt_of_le_of_lt (Nat.min_le_right _ _) p.infinity_lt_signBit

theorem key_ofInt (p : Precision) (i : Int) :
    (ofInt p i).key = if i < 0 then -(nearestKey p i.natAbs : Int) else nearestKey p i.natAbs := by
  rw [ofInt_eq_assemble, ← nearestKey, key_assemble (nearestKey_lt_signBit p _)]
  simp only [decide_eq_true_eq]

theorem key_ofInt_mono {i j : Int} (h : i ≤ j) : (ofInt p i).key ≤ (ofInt p j).key := by
  rw [key_ofInt, key_ofInt]
  by_cases hi : i < 0
  · rw [if_pos hi]
    by_cases hj : j < 0
    · have hmono := nearestKey_mono (p := p) (show j.natAbs ≤ i.natAbs by omega)
      rw [if_pos hj]
      omega
    · rw [if_neg hj]
      omega
  · have hmono := nearestKey_mono (p := p) (show i.natAbs ≤ j.natAbs by omega)
    rw [if_neg hi, if_neg (by omega)]
    omega

/-- Integers that a significand can hold are told apart. -/
theorem key_ofInt_lt {i j : Int} (h : i < j) (hi : i.natAbs ≤ 2 * p.leadingOne)
    (hj : j.natAbs ≤ 2 * p.leadingOne) : (ofInt p i).key < (ofInt p j).key := by
  rw [key_ofInt, key_ofInt]
  by_cases hineg : i < 0
  · rw [if_pos hineg]
    by_cases hjneg : j < 0
    · have hlt := nearestKey_lt (p := p) (show j.natAbs < i.natAbs by omega) hi
      rw [if_pos hjneg]
      omega
    · have hpos := nearestKey_pos (p := p) (show 0 < i.natAbs by omega)
      rw [if_neg hjneg]
      omega
  · have hlt := nearestKey_lt (p := p) (show i.natAbs < j.natAbs by omega) hj
    rw [if_neg hineg, if_neg (by omega)]
    omega

theorem key_ofInt_neg_iff {i : Int} : (ofInt p i).key < 0 ↔ i < 0 := by
  rw [key_ofInt]
  split
  next h =>
    have hpos := nearestKey_pos (p := p) (show 0 < i.natAbs by omega)
    omega
  next h => omega

end Ieee

end DalvikFlow
