import DalvikFlow.Text.Numeral

/-! Numbers can be read back from their texts, and the texts hold digits and signs only. -/
namespace DalvikFlow.Text

variable {P : Char → Prop}

/-- What holds of all digits holds of all characters of a numeral. -/
theorem forall_mem_toDigits {b : Nat} (hb : 1 < b) (h : ∀ d < b, P d.digitChar) (n : Nat) :
    ∀ c ∈ Nat.toDigits b n, P c := by
  induction n using Nat.strongRecOn with
  | _ n ih =>
      intro c hc
      rw [Nat.toDigits_eq_if hb] at hc
      split at hc
      case isTrue hlt =>
        rw [List.mem_singleton.mp hc]
        exact h n hlt
      case isFalse hge =>
        rcases List.mem_append.mp hc with hc | hc
        · exact ih (n / b) (Nat.div_lt_self (by omega) hb) c hc
        · rw [List.mem_singleton.mp hc]
          exact h (n % b) (Nat.mod_lt n (by omega))

@[simp] theorem toList_natural (n : Nat) : (natural n).toList = Nat.toDigits 10 n :=
  String.toList_ofList

@[simp] theorem toList_hex (n : Nat) : (hex n).toList = Nat.toDigits 16 n := String.toList_ofList

section Hexadecimal

def hexDigitValue (c : Char) : Nat :=
  if c.isDigit then c.toNat - '0'.toNat else 10 + (c.toNat - 'a'.toNat)

def hexValue (digits : List Char) : Nat := digits.foldl (fun v c => 16 * v + hexDigitValue c) 0

theorem hexDigitValue_digitChar : ∀ d < 16, hexDigitValue d.digitChar = d := by decide

theorem hexValue_toDigits (n : Nat) : hexValue (Nat.toDigits 16 n) = n := by
  induction n using Nat.strongRecOn with
  | _ n ih =>
      rw [Nat.toDigits_eq_if (by decide)]
      split
      case isTrue hlt => exact (Nat.zero_add _).trans (hexDigitValue_digitChar n hlt)
      case isFalse hge =>
        have hquot := ih (n / 16) (by omega)
        rw [hexValue] at hquot ⊢
        rw [List.foldl_append, hquot, List.foldl_cons, List.foldl_nil,
          hexDigitValue_digitChar (n % 16) (Nat.mod_lt n (by decide))]
        exact Nat.div_add_mod n 16

/-- Zeros in front do not change the number. -/
theorem hexValue_replicate_append (k : Nat) (digits : List Char) :
    hexValue (List.replicate k '0' ++ digits) = hexValue digits := by
  induction k with
  | zero => rfl
  | succ k ih => exact ih

theorem hexValue_hexPadded (width n : Nat) : hexValue (hexPadded width n).toList = n := by
  rw [hexPadded, String.toList_ofList, List.leftpad, hexValue_replicate_append, hexValue_toDigits]

theorem hexPadded_inj {width m n : Nat} : hexPadded width m = hexPadded width n ↔ m = n := by
  constructor
  · intro h
    rw [← hexValue_hexPadded width m, h, hexValue_hexPadded]
  · rintro rfl
    rfl

theorem forall_mem_hexPadded (h : ∀ d < 16, P d.digitChar) (width n : Nat) :
    ∀ c ∈ (hexPadded width n).toList, P c := by
  rw [hexPadded, String.toList_ofList, List.leftpad, List.forall_mem_append]
  refine ⟨?_, forall_mem_toDigits (by decide) h n⟩
  intro c hc
  rw [List.eq_of_mem_replicate hc]
  exact h 0 (by decide)

end Hexadecimal

section Signed

/-- With a sign or without one. -/
def integerValue : List Char → Int
  | '-' :: digits => -(Nat.ofDigitChars 10 digits 0 : Int)
  | '+' :: digits => (Nat.ofDigitChars 10 digits 0 : Int)
  | digits => (Nat.ofDigitChars 10 digits 0 : Int)

/-- The sign stands before the `0x`. -/
def hexIntegerValue : List Char → Int
  | '-' :: digits => -(hexValue (digits.drop 2) : Int)
  | digits => (hexValue (digits.drop 2) : Int)

theorem integerValue_toDigits (n : Nat) : integerValue (Nat.toDigits 10 n) = n := by
  have hdigits : ∀ c ∈ Nat.toDigits 10 n, c ≠ '-' ∧ c ≠ '+' :=
    forall_mem_toDigits (by decide) (by decide) n
  rw [integerValue, Nat.ofDigitChars_ten_toDigits]
  · intro digits heq
    exact (hdigits '-' (heq ▸ List.mem_cons_self)).1 rfl
  · intro digits heq
    exact (hdigits '+' (heq ▸ List.mem_cons_self)).2 rfl

theorem toList_integer (i : Int) :
    (integer i).toList =
      if i < 0 then '-' :: Nat.toDigits 10 i.natAbs else Nat.toDigits 10 i.natAbs := by
  rw [integer]
  split <;> simp

theorem toList_signed (i : Int) :
    (signed i).toList = (if i < 0 then '-' else '+') :: Nat.toDigits 10 i.natAbs := by
  rw [signed]
  split <;> simp

theorem toList_signedHex (i : Int) :
    (signedHex i).toList =
      (if i < 0 then ['-'] else []) ++ '0' :: 'x' :: Nat.toDigits 16 i.natAbs := by
  rw [signedHex]
  split <;> simp

theorem integerValue_integer (i : Int) : integerValue (integer i).toList = i := by
  rw [toList_integer]
  split
  case isTrue hneg =>
    rw [integerValue, Nat.ofDigitChars_ten_toDigits]
    omega
  case isFalse hpos =>
    rw [integerValue_toDigits]
    omega

theorem integerValue_signed (i : Int) : integerValue (signed i).toList = i := by
  rw [toList_signed]
  split
  all_goals
    rw [integerValue, Nat.ofDigitChars_ten_toDigits]
    omega

theorem hexIntegerValue_signedHex (i : Int) : hexIntegerValue (signedHex i).toList = i := by
  rw [toList_signedHex]
  split
  case isTrue hneg =>
    change -(hexValue (Nat.toDigits 16 i.natAbs) : Int) = i
    rw [hexValue_toDigits]
    omega
  case isFalse hpos =>
    change (hexValue (Nat.toDigits 16 i.natAbs) : Int) = i
    rw [hexValue_toDigits]
    omega

theorem forall_mem_integer (hminus : P '-') (h : ∀ d < 10, P d.digitChar) (i : Int) :
    ∀ c ∈ (integer i).toList, P c := by
  have hdigits := forall_mem_toDigits (by decide) h i.natAbs
  rw [toList_integer]
  split
  · exact List.forall_mem_cons.mpr ⟨hminus, hdigits⟩
  · exact hdigits

theorem forall_mem_signed (hminus : P '-') (hplus : P '+') (h : ∀ d < 10, P d.digitChar)
    (i : Int) : ∀ c ∈ (signed i).toList, P c := by
  have hdigits := forall_mem_toDigits (by decide) h i.natAbs
  rw [toList_signed]
  split
  · exact List.forall_mem_cons.mpr ⟨hminus, hdigits⟩
  · exact List.forall_mem_cons.mpr ⟨hplus, hdigits⟩

theorem forall_mem_signedHex (hminus : P '-') (hx : P 'x') (h : ∀ d < 16, P d.digitChar)
    (i : Int) : ∀ c ∈ (signedHex i).toList, P c := by
  have hdigits := forall_mem_toDigits (by decide) h i.natAbs
  have hbody : ∀ c ∈ '0' :: 'x' :: Nat.toDigits 16 i.natAbs, P c :=
    List.forall_mem_cons.mpr ⟨h 0 (by decide), List.forall_mem_cons.mpr ⟨hx, hdigits⟩⟩
  rw [toList_signedHex]
  split
  · exact List.forall_mem_cons.mpr ⟨hminus, hbody⟩
  · exact hbody

end Signed

end DalvikFlow.Text
