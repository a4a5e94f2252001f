import DalvikFlow.Proofs.Exec.Creation
import DalvikFlow.Proofs.Exec.Effect
import DalvikFlow.Proofs.Ieee.Rounding

/-! Comparisons as orders of the numbers. A comparison gives every number a rank, and what it leaves is
the sign of the difference of two ranks. Only what is not a number has none. -/
namespace DalvikFlow

theorem orderingWord_sign (o : Ordering) :
    orderingWord o = -1 ∨ orderingWord o = 0 ∨ orderingWord o = 1 := by
  cases o <;> decide

theorem orderingWord_swap (o : Ordering) : orderingWord o.swap = -orderingWord o := by
  cases o <;> decide

theorem orderingWord_le_zero_iff {o : Ordering} : orderingWord o ≤ 0 ↔ o ≠ .gt := by
  cases o <;> decide

/-- The laws of an order of numbers whose outcome for two of them is a sign. -/
structure OrdersBySign {α : Type} (isNumber : α → Prop) (r : α → α → Int32) : Prop where
  sign : ∀ {a b}, isNumber a → isNumber b → r a b = -1 ∨ r a b = 0 ∨ r a b = 1
  self : ∀ {a}, isNumber a → r a a = 0
  swap : ∀ {a b}, isNumber a → isNumber b → r a b = -r b a
  trans : ∀ {a b c}, isNumber a → isNumber b → isNumber c → r a b ≤ 0 → r b c ≤ 0 → r a c ≤ 0

/-- Whatever compares ranks is such an order. -/
theorem OrdersBySign.of_rank {α : Type} {isNumber : α → Prop} {r : α → α → Int32} (rank : α → Int)
    (h : ∀ a b, isNumber a → isNumber b → r a b = orderingWord (compare (rank a) (rank b))) :
    OrdersBySign isNumber r where
  sign ha hb := by
    rw [h _ _ ha hb]
    exact orderingWord_sign _
  self ha := by
    rw [h _ _ ha ha, Int.compare_eq_eq.mpr rfl]
    rfl
  swap ha hb := by
    rw [h _ _ ha hb, h _ _ hb ha, ← orderingWord_swap, Int.compare_swap]
  trans ha hb hc hab hbc := by
    rw [h _ _ ha hb, orderingWord_le_zero_iff, Int.compare_ne_gt] at hab
    rw [h _ _ hb hc, orderingWord_le_zero_iff, Int.compare_ne_gt] at hbc
    rw [h _ _ ha hc, orderingWord_le_zero_iff, Int.compare_ne_gt]
    exact Int.le_trans hab hbc

namespace Value

variable {v : Value}

/-- Rounding to another representation does not make a number into something else. -/
theorem exists_toSingle? (hv : v.isNumeric = true) (hnan : v.isNaN = false) :
    ∃ x, v.toSingle? = some x ∧ x.isNaN = false := by
  cases v with
  | int v => exact ⟨_, rfl, Ieee.isNaN_ofInt .single v.toInt⟩
  | long v => exact ⟨_, rfl, Ieee.isNaN_ofInt .single v.toInt⟩
  | float x => exact ⟨x, rfl, hnan⟩
  | double x => exact ⟨_, rfl, Ieee.isNaN_convert hnan⟩
  | boolean | null | string => cases hv

theorem exists_toDouble? (hv : v.isNumeric = true) (hnan : v.isNaN = false) :
    ∃ x, v.toDouble? = some x ∧ x.isNaN = false := by
  cases v with
  | int v => exact ⟨_, rfl, Ieee.isNaN_ofInt .double v.toInt⟩
  | long v => exact ⟨_, rfl, Ieee.isNaN_ofInt .double v.toInt⟩
  | float x => exact ⟨_, rfl, Ieee.isNaN_convert hnan⟩
  | double x => exact ⟨x, rfl, hnan⟩
  | boolean | null | string => cases hv

theorem exists_toInt64? (hv : v.isNumeric = true) : ∃ x, v.toInt64? = some x := by
  cases v with
  | int | long | float | double => exact ⟨_, rfl⟩
  | boolean | null | string => cases hv

end Value

namespace Comparison

/-- The place of a number in the order of a comparison. Both zeros have one place, and so do numbers that
are rounded to the same. -/
def rank : Comparison → Value → Int
  | single _, v => (v.toSingle?.map Ieee.key).getD 0
  | double _, v => (v.toDouble?.map Ieee.key).getD 0
  | long, v => (v.toInt64?.map Int64.toInt).getD 0

/-- What a comparison of two numbers leaves. -/
def word (c : Comparison) (v w : Value) : Int32 :=
  orderingWord (if v.isNaN || w.isNaN then c.unordered else compare (c.rank v) (c.rank w))

variable {c : Comparison} {v w : Value} {a b : Item}

theorem order?_eq_compare_rank (hv : v.isNumeric = true) (hw : w.isNumeric = true)
    (hvnan : v.isNaN = false) (hwnan : w.isNaN = false) :
    c.order? v w = some (compare (c.rank v) (c.rank w)) := by
  cases c with
  | single =>
      obtain ⟨x, hx, hxnan⟩ := Value.exists_toSingle? hv hvnan
      obtain ⟨y, hy, hynan⟩ := Value.exists_toSingle? hw hwnan
      simp only [order?, rank, hx, hy]
      exact Ieee.order?_of_not_isNaN hxnan hynan
  | double =>
      obtain ⟨x, hx, hxnan⟩ := Value.exists_toDouble? hv hvnan
      obtain ⟨y, hy, hynan⟩ := Value.exists_toDouble? hw hwnan
      simp only [order?, rank, hx, hy]
      exact Ieee.order?_of_not_isNaN hxnan hynan
  | long =>
      obtain ⟨x, hx⟩ := Value.exists_toInt64? hv
      obtain ⟨y, hy⟩ := Value.exists_toInt64? hw
      simp only [order?, rank, hx, hy]
      rfl

theorem word_of_not_isNaN (c : Comparison) (hv : v.isNaN = false) (hw : w.isNaN = false) :
    c.word v w = orderingWord (compare (c.rank v) (c.rank w)) := by
  rw [word, hv, hw, Bool.or_false, if_neg Bool.false_ne_true]

theorem word_of_isNaN (c : Comparison) (h : v.isNaN = true ∨ w.isNaN = true) :
    c.word v w = orderingWord c.unordered := by
  rw [word, if_pos (Bool.or_eq_true_iff.mpr h)]

theorem word_ordersBySign (c : Comparison) (kind : Kind) :
    OrdersBySign (fun v : Value => v.kind = kind ∧ v.isNaN = false) c.word :=
  .of_rank c.rank fun _ _ hv hw => c.word_of_not_isNaN hv.2 hw.2

/-- Integers that single precision does not tell apart. -/
example : (single .lt).word (.int 16777216) (.int 16777217) = 0 := by decide

/-- Longs are compared as the integers that they are. -/
theorem word_long (x y : Int64) :
    long.word (.long x) (.long y) = if x < y then -1 else if x = y then 0 else 1 := by
  rw [word_of_not_isNaN long rfl rfl]
  show orderingWord (compare x.toInt y.toInt) = _
  rcases Int.lt_trichotomy x.toInt y.toInt with h | h | h
  · rw [Int.compare_eq_lt.mpr h, if_pos (Int64.lt_iff_toInt_lt.mpr h)]
    rfl
  · rw [Int.compare_eq_eq.mpr h, if_neg (fun hlt => ?_), if_pos (Int64.toInt_inj.mp h)]
    · rfl
    · exact Int.ne_of_lt (Int64.lt_iff_toInt_lt.mp hlt) h
  · rw [Int.compare_eq_gt.mpr h, if_neg (fun hlt => ?_), if_neg (fun heq => ?_)]
    · rfl
    · exact Int.ne_of_gt h (Int64.toInt_inj.mpr heq)
    · exact Int.lt_asymm h (Int64.lt_iff_toInt_lt.mp hlt)

theorem compareValues_eq_ok (hv : v.isNumeric = true) (hkind : v.kind = w.kind) (tag : String) :
    c.compareValues v w tag tag =
      .ok (if v.isNaN || w.isNaN then c.unordered else compare (c.rank v) (c.rank w)) := by
  have hw : w.isNumeric = true := by
    rw [Value.isNumeric, ← hkind]
    exact hv
  rw [compareValues, hv, hw, Bool.not_true, Bool.or_false, if_neg Bool.false_ne_true,
    if_neg (not_not_intro hkind), if_neg (not_not_intro rfl)]
  split
  next => rfl
  next hnan =>
    -- a number is one in every representation, so there is always an order
    obtain ⟨hvnan, hwnan⟩ := Bool.or_eq_false_iff.mp (Bool.eq_false_iff.mpr hnan)
    rw [order?_eq_compare_rank hv hw hvnan hwnan]

/-- Known numbers of one kind and with one tag are always compared. -/
theorem result_known (c : Comparison) (hv : v.isNumeric = true) (hkind : v.kind = w.kind)
    (tag : String) : c.result (.known v tag) (.known w tag) = .ok (.ofInt (c.word v w)) := by
  show (do
    let o ← c.compareValues v w tag tag
    return Item.ofInt (orderingWord o)) = _
  rw [compareValues_eq_ok hv hkind tag]
  rfl

theorem result_of_isUnknown (c : Comparison) (h : a.isUnknown = true ∨ b.isUnknown = true) :
    c.result a b = .ok (.unknown "int") :=
  if_pos (Bool.or_eq_true_iff.mpr h)

/-- Nothing unknown comes of known items. -/
theorem isUnknown_result {i : Item} (h : c.result a b = .ok i) :
    i.isUnknown = true ↔ a.isUnknown = true ∨ b.isUnknown = true := by
  by_cases hunknown : a.isUnknown = true ∨ b.isUnknown = true
  · rw [result_of_isUnknown c hunknown] at h
    cases h
    exact iff_of_true rfl hunknown
  · rw [result, if_neg (mt Bool.or_eq_true_iff.mp hunknown)] at h
    obtain ⟨o, -, ho⟩ := bind_eq_ok_iff.mp h
    cases pure_eq_ok_iff.mp ho
    exact iff_of_false Bool.false_ne_true hunknown

end Comparison

namespace Op

/-- The operation of a comparison leaves the result of its second and third register in the first, which
has to exist, or fails with the violation and leaves the registers as they are. -/
def LeavesResult (op : Op) (n : Node) (c : Comparison) : Prop :=
  ∃ dest lhs rhs, n.instruction.register? 0 = some dest ∧ n.instruction.register? 1 = some lhs ∧
    n.instruction.register? 2 = some rhs ∧
    ∀ f a b, dest < f.count → f.read lhs = .ok a → f.read rhs = .ok b →
      match c.result a b with
      | .ok item => ∃ after, f.assign dest item = .ok after ∧ op.run f = (.ok op.children, after)
      | .error violation => op.run f = (.error (.invariantViolation op.opcode violation), f)

theorem leavesResult_of_create {g : FlowGraph} {n : Node} {op : Op} {c : Comparison}
    (hc : n.opcode.comparison? = some c) (h : Family.compare.create g n = .ok op) :
    op.LeavesResult n c := by
  cases Family.create_eq_ok_iff.mp h with
  | compare hcomparison hdest hlhs hrhs =>
      cases hc.symm.trans hcomparison
      refine ⟨_, _, _, hdest, hlhs, hrhs, fun f a b hcount ha hb => ?_⟩
      cases hresult : c.result a b with
      | ok item =>
          obtain ⟨after, hafter⟩ := RegisterFile.exists_assign hcount item
          exact ⟨after, hafter, run_eq_ok_iff.mpr (effect_compare rfl ha hb hresult hafter)⟩
      | error violation =>
          show run _ f = _
          rw [run_eq_effect, effect_compare_of_violation rfl ha hb hresult]

end Op

namespace Opcode

/-- Comparisons in the same representation that differ in what is not a number: for the first it is less
than everything, for the second greater. -/
def biased : List (Opcode × Opcode) := [(cmplFloat, cmpgFloat), (cmplDouble, cmpgDouble)]

/-- What a comparison leaves for two numbers. -/
def word (op : Opcode) (v w : Value) : Int32 := (op.comparison?.map fun c => c.word v w).getD 0

theorem word_of_comparison? {op : Opcode} {c : Comparison} (h : op.comparison? = some c) :
    op.word = c.word := by
  funext v w
  rw [word, h]
  rfl

theorem comparison?_biased : ∀ p ∈ biased, ∃ c c', p.1.comparison? = some c ∧
    p.2.comparison? = some c' ∧ c.rank = c'.rank ∧ c.unordered = .lt ∧ c'.unordered = .gt := by
  intro p hp
  simp only [biased, List.mem_cons, List.not_mem_nil, or_false] at hp
  obtain rfl | rfl := hp
  · exact ⟨_, _, rfl, rfl, rfl, rfl, rfl⟩
  · exact ⟨_, _, rfl, rfl, rfl, rfl, rfl⟩

/-- Known numbers of one kind are always compared, and the outcome is the sign of an order that knows all
numbers. What is not a number decides the outcome by itself, and what is not known leaves it unknown. -/
theorem comparisons_order_numbers :
    ∃ r : Opcode → Value → Value → Int32,
      (∀ op, op.family? = some .compare → ∃ c, op.comparison? = some c ∧
        (∀ v w tag, v.isNumeric = true → v.kind = w.kind →
          c.result (.known v tag) (.known w tag) = .ok (.ofInt (r op v w))) ∧
        (∀ kind, kind.isNumeric = true →
          OrdersBySign (fun v : Value => v.kind = kind ∧ v.isNaN = false) (r op)) ∧
        (∀ a b, a.isUnknown = true ∨ b.isUnknown = true → c.result a b = .ok (.unknown "int")) ∧
        (∀ a b i, c.result a b = .ok i →
          (i.isUnknown = true ↔ a.isUnknown = true ∨ b.isUnknown = true)) ∧
        ∀ g n o, n.opcode = op → Family.compare.create g n = .ok o → o.LeavesResult n c) ∧
      (∀ x y, r .cmpLong (.long x) (.long y) = if x < y then -1 else if x = y then 0 else 1) ∧
      ∀ p ∈ biased, ∀ v w, v.isNumeric = true → v.kind = w.kind →
        (v.isNaN = false → w.isNaN = false → r p.1 v w = r p.2 v w) ∧
        (v.isNaN = true ∨ w.isNaN = true → r p.1 v w = -1 ∧ r p.2 v w = 1) := by
  refine ⟨word, ?_, Comparison.word_long, ?_⟩
  · intro op hop
    obtain ⟨c, hc⟩ := Option.isSome_iff_exists.mp (family?_eq_some_iff.mp hop)
    rw [word_of_comparison? hc]
    refine ⟨c, hc, ?_, ?_, ?_, ?_, ?_⟩
    · exact fun v w tag hv hkind => c.result_known hv hkind tag
    · exact fun kind _ => c.word_ordersBySign kind
    · exact fun a b => c.result_of_isUnknown
    · exact fun a b i => Comparison.isUnknown_result
    · rintro g n o rfl hcreate
      exact Op.leavesResult_of_create hc hcreate
  · intro p hp v w _ _
    obtain ⟨c, c', hc, hc', hrank, hless, hgreater⟩ := comparison?_biased p hp
    rw [word_of_comparison? hc, word_of_comparison? hc']
    constructor
    · intro hv hw
      rw [c.word_of_not_isNaN hv hw, c'.word_of_not_isNaN hv hw, hrank]
    · intro hnan
      rw [c.word_of_isNaN hnan, c'.word_of_isNaN hnan, hless, hgreater]
      exact ⟨rfl, rfl⟩

/-- Not a number is below one for the first kind of comparison, and above it for the second. -/
theorem comparisons_order_numbers_of_nan :
    (Comparison.single .lt).result (.ofValue (.float .quietNaN)) (.ofValue (.float (.ofInt _ 1))) =
        .ok (.ofInt (-1)) ∧
      (Comparison.single .gt).result (.ofValue (.float .quietNaN)) (.ofValue (.float (.ofInt _ 1))) =
        .ok (.ofInt 1) ∧
      Comparison.long.result (.ofLong 3) (.ofLong 5) = .ok (.ofInt (-1)) ∧
      Comparison.long.result (.unknown "long") (.ofLong 5) = .ok (.unknown "int") := by
  obtain ⟨r, horder, hlong, hbiased⟩ := comparisons_order_numbers
  obtain ⟨-, hnan⟩ := hbiased (cmplFloat, cmpgFloat) (by decide) (.float .quietNaN)
    (.float (.ofInt _ 1)) rfl rfl
  obtain ⟨hless, hgreater⟩ := hnan (.inl (by decide))
  obtain ⟨c, hc, hresult, -⟩ := horder .cmplFloat rfl
  obtain rfl := Option.some.inj hc
  obtain ⟨c, hc, hresult', -⟩ := horder .cmpgFloat rfl
  obtain rfl := Option.some.inj hc
  obtain ⟨c, hc, hresult'', -, hunknown, -⟩ := horder .cmpLong rfl
  obtain rfl := Option.some.inj hc
  refine ⟨?_, ?_, ?_, hunknown _ _ (.inl rfl)⟩
  · rw [← hless]
    exact hresult _ _ "float" rfl rfl
  · rw [← hgreater]
    exact hresult' _ _ "float" rfl rfl
  · have hword : r cmpLong (.long 3) (.long 5) = -1 := hlong 3 5
    rw [← hword]
    exact hresult'' _ _ "long" rfl rfl

end Opcode

end DalvikFlow
