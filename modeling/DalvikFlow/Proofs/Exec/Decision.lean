import DalvikFlow.Proofs.Exec.Creation
import DalvikFlow.Proofs.Exec.Effect

/-! What a conditional branch decides. A decision is right for all words that the operands may stand for,
and numbers are always decided. -/
namespace DalvikFlow

/-- A word that an item may stand for. Null is zero, and a string is a reference to something. Of what
does not fit a register, or is not known, it may be any. -/
def Item.MayBe (i : Item) (w : Int32) : Prop :=
  match i.value? with
  | some (.int v) => w = v
  | some (.boolean b) => w = if b then 1 else 0
  | some .null => w = 0
  | some (.string _) => w ≠ 0
  | some (.long _) | some (.float _) | some (.double _) | none => True

/-- A number that a register can hold. -/
def Item.IsWord (i : Item) : Prop :=
  ∃ v, i.value? = some v ∧ (v.kind = .int ∨ v.kind = .boolean)

namespace Opcode

/-- The test of a conditional branch on two words. A branch on zero does not look at the second. -/
def wordTest? : Opcode → Option (Int32 → Int32 → Bool)
  | ifEq => some fun v w => v = w
  | ifNe => some fun v w => v ≠ w
  | ifLt => some fun v w => v < w
  | ifGe => some fun v w => v ≥ w
  | ifGt => some fun v w => v > w
  | ifLe => some fun v w => v ≤ w
  | ifEqz => some fun v _ => v = 0
  | ifNez => some fun v _ => v ≠ 0
  | ifLtz => some fun v _ => v < 0
  | ifGez => some fun v _ => v ≥ 0
  | ifGtz => some fun v _ => v > 0
  | ifLez => some fun v _ => v ≤ 0
  | _ => none

/-- What a conditional branch makes of two items. A branch on zero compares the first with zero. -/
def decision? (op : Opcode) (a b : Item) : Option Bool :=
  op.condition?.bind fun c => c.relation.decideItems? a (if c.withZero then .ofInt 0 else b)

theorem decision?_eq {op : Opcode} {c : Condition} (h : op.condition? = some c) (a b : Item) :
    op.decision? a b = c.relation.decideItems? a (if c.withZero then .ofInt 0 else b) := by
  rw [decision?, h, Option.bind_some]

/-- Words are compared as the integers that they are. -/
theorem wordTest?_of_condition? {op : Opcode} {c : Condition} (h : op.condition? = some c) :
    ∃ test, op.wordTest? = some test ∧
      ∀ v w, test v w = c.relation.holds v.toInt (if c.withZero then 0 else w).toInt := by
  unfold condition? at h
  split at h
  all_goals first
    | cases h
      refine ⟨_, rfl, fun v w => ?_⟩
      simp [Relation.holds, Int32.lt_iff_toInt_lt, Int32.le_iff_toInt_le, ← Int32.toInt_inj]
    | cases h

end Opcode

/-- A word that an operand may be. -/
def Comparand.MayBe : Comparand → Int32 → Prop
  | number n, w => w.toInt = n
  | reference isNull, w => w = 0 ↔ isNull = true

namespace Item

variable {i : Item} {w : Int32}

theorem mayBe_ofInt (v : Int32) : (ofInt v).MayBe v := rfl

theorem MayBe.comparand {c : Comparand} (h : i.MayBe w) (hc : i.comparand? = some c) :
    c.MayBe w := by
  obtain ⟨_ | v, tag⟩ := i
  · cases hc
  cases v with
  | int v =>
      cases hc
      exact congrArg Int32.toInt h
  | boolean b =>
      cases hc
      cases b <;> exact congrArg Int32.toInt h
  | null =>
      cases hc
      exact iff_of_true h rfl
  | string s =>
      cases hc
      exact iff_of_false h Bool.false_ne_true
  | long | float | double => cases hc

theorem isWord_ofInt (v : Int32) : (ofInt v).IsWord := ⟨.int v, rfl, .inl rfl⟩

theorem IsWord.exists_number (h : i.IsWord) : ∃ n, i.comparand? = some (.number n) := by
  obtain ⟨v, hv, hkind⟩ := h
  unfold comparand?
  rw [hv]
  cases v with
  | int v => exact ⟨v.toInt, rfl⟩
  | boolean b => exact ⟨_, rfl⟩
  | long | float | double | null | string => simp [Value.kind] at hkind

end Item

/-- Of two operands that are equal or not, it is known which only if all words agree on it. -/
theorem Comparand.equal?_sound {a b : Comparand} {v w : Int32} {e : Bool} (ha : a.MayBe v)
    (hb : b.MayBe w) (h : a.equal? b = some e) : e = decide (v = w) := by
  unfold equal? at h
  split at h
  next n m =>
    cases h
    rw [show n = v.toInt from ha.symm, show m = w.toInt from hb.symm]
    exact decide_eq_decide.mpr Int32.toInt_inj
  next =>
    cases h
    rw [ha.mpr rfl, hb.mpr rfl, decide_eq_true rfl]
  next => cases h
  next isNull isNull' htrue hfalse =>
    -- of two references one is null and the other is not, so no word is both
    cases h
    refine (decide_eq_false fun hvw => ?_).symm
    have hsame : isNull = true ↔ isNull' = true := ha.symm.trans (hvw ▸ hb)
    cases isNull with
    | true => exact htrue rfl (hsame.mp rfl)
    | false => exact hfalse rfl (Bool.eq_false_iff.mpr fun h => Bool.false_ne_true (hsame.mpr h))
  next isNull =>
    cases h
    obtain rfl : w = 0 := Int32.toInt_inj.mp hb
    rw [Bool.eq_iff_iff, decide_eq_true_iff]
    exact ha.symm
  next isNull =>
    cases h
    obtain rfl : v = 0 := Int32.toInt_inj.mp ha
    rw [Bool.eq_iff_iff, decide_eq_true_iff, eq_comm (a := 0)]
    exact hb.symm
  next => cases h

namespace Relation

variable {r : Relation} {v w : Int32} {d : Bool}

theorem ofEquality?_sound (h : r.ofEquality? (decide (v = w)) = some d) :
    r.holds v.toInt w.toInt = d := by
  cases r with
  | eq =>
      cases h
      exact decide_eq_decide.mpr Int32.toInt_inj
  | ne =>
      cases h
      rw [holds, ← decide_not, decide_eq_decide]
      exact not_congr Int32.toInt_inj
  | lt | ge | gt | le => cases h

theorem decide?_sound {a b : Comparand} (ha : a.MayBe v) (hb : b.MayBe w)
    (h : r.decide? a b = some d) : r.holds v.toInt w.toInt = d := by
  unfold decide? at h
  split at h
  next n m =>
    cases h
    rw [show n = v.toInt from ha.symm, show m = w.toInt from hb.symm]
  next =>
    obtain ⟨e, he, hd⟩ := Option.bind_eq_some_iff.mp h
    rw [Comparand.equal?_sound ha hb he] at hd
    exact ofEquality?_sound hd

theorem decideItems?_sound {a b : Item} (ha : a.MayBe v) (hb : b.MayBe w)
    (h : r.decideItems? a b = some d) : r.holds v.toInt w.toInt = d := by
  obtain ⟨x, hx, h⟩ := Option.bind_eq_some_iff.mp h
  obtain ⟨y, hy, h⟩ := Option.bind_eq_some_iff.mp h
  exact decide?_sound (ha.comparand hx) (hb.comparand hy) h

theorem decideItems?_of_isWord (r : Relation) {a b : Item} (ha : a.IsWord) (hb : b.IsWord) :
    ∃ d, r.decideItems? a b = some d := by
  obtain ⟨n, hn⟩ := ha.exists_number
  obtain ⟨m, hm⟩ := hb.exists_number
  refine ⟨r.holds n m, ?_⟩
  rw [decideItems?, hn, hm]
  rfl

end Relation

/-- The items that a branch compares. A branch on zero reads only one. -/
structure Node.BranchesOn (n : Node) (f : RegisterFile) (a b : Item) : Prop where
  left : ∃ r, n.instruction.register? 0 = some r ∧ f.read r = .ok a
  right : ∀ relation, n.opcode.condition? = some ⟨relation, false⟩ →
    ∃ r, n.instruction.register? 1 = some r ∧ f.read r = .ok b

/-- The operation of a branch goes where the decision on the items says, and leaves the registers as they
are: to its target, to the address after it, or to all children if there is no decision. -/
def Op.FollowsDecision (op : Op) (n : Node) : Prop :=
  ∃ target, n.branchTarget = .ok target ∧
    ∀ f a b, n.BranchesOn f a b → op.run f = (.ok (match n.opcode.decision? a b with
      | some true => [target]
      | some false => [n.addressAfter]
      | none => op.children), f)

theorem Op.followsDecision_of_create {g : FlowGraph} {n : Node} {op : Op}
    (h : Family.branch.create g n = .ok op) : op.FollowsDecision n := by
  cases Family.create_eq_ok_iff.mp h with
  | @branch relation lhs rhs target hc hl hr ht =>
      refine ⟨target, ht, fun f a b hread => ?_⟩
      obtain ⟨r, hr', ha⟩ := hread.left
      obtain ⟨s, hs, hb⟩ := hread.right relation hc
      cases hl.symm.trans hr'
      cases hr.symm.trans hs
      rw [Opcode.decision?_eq hc]
      exact run_eq_ok_iff.mpr (effect_branch rfl ha hb)
  | @branchZero relation lhs target hc hl ht =>
      refine ⟨target, ht, fun f a b hread => ?_⟩
      obtain ⟨r, hr', ha⟩ := hread.left
      cases hl.symm.trans hr'
      rw [Opcode.decision?_eq hc]
      exact run_eq_ok_iff.mpr (effect_branch rfl ha rfl)

namespace Opcode

/-- Where a branch is decided, its test has that outcome for all words that its operands may be, so that
no way that can be taken is left out. Two numbers are always decided. -/
theorem decided_soundly {op : Opcode} (hop : op.family? = some .branch) :
    ∃ test, op.wordTest? = some test ∧
      (∀ a b d, op.decision? a b = some d → ∀ v w, a.MayBe v → b.MayBe w → test v w = d) ∧
      (∀ a b, a.IsWord → b.IsWord → ∃ d, op.decision? a b = some d) ∧
      ∀ g n o, n.opcode = op → Family.branch.create g n = .ok o → o.FollowsDecision n := by
  obtain ⟨c, hc⟩ := Option.isSome_iff_exists.mp (family?_eq_some_iff.mp hop)
  obtain ⟨test, htest, hholds⟩ := wordTest?_of_condition? hc
  refine ⟨test, htest, ?_, ?_, fun g n o _ hcreate => Op.followsDecision_of_create hcreate⟩
  · intro a b d hdecided v w hv hw
    rw [decision?_eq hc] at hdecided
    rw [hholds]
    refine Relation.decideItems?_sound hv ?_ hdecided
    split
    · exact Item.mayBe_ofInt 0
    · exact hw
  · intro a b ha hb
    rw [decision?_eq hc]
    refine Relation.decideItems?_of_isWord c.relation ha ?_
    split
    · exact Item.isWord_ofInt 0
    · exact hb

/-- A branch on zero, to itself. -/
def loneBranch : Node :=
  ⟨0, 0, ((Instruction.ofOpcode .ifEqz 0).withRegisters [0]).withOffset 0, [⟨0, .branch⟩]⟩

/-- A string is not zero, whichever reference it is, so the branch on zero goes on. -/
theorem decided_soundly_for_string :
    ∃ test o, ifEqz.wordTest? = some test ∧ (∀ v, v ≠ 0 → test v 0 = false) ∧
      Family.branch.create (.ofNodes #[]) loneBranch = .ok o ∧
      o.run (.mk 1 [(0, .ofValue (.string "a"))]) =
        (.ok [2], .mk 1 [(0, .ofValue (.string "a"))]) := by
  have hop : ifEqz.family? = some .branch := rfl
  obtain ⟨test, htest, hsound, -, hfollows⟩ := decided_soundly hop
  obtain ⟨o, ho⟩ : ∃ o, Family.branch.create (.ofNodes #[]) loneBranch = .ok o := ⟨_, rfl⟩
  obtain ⟨target, -, hrun⟩ := hfollows (.ofNodes #[]) loneBranch o rfl ho
  refine ⟨test, o, htest, fun v hv => ?_, ho, ?_⟩
  · exact hsound (.ofValue (.string "a")) (.ofInt 0) false rfl v 0 hv rfl
  · exact hrun _ (.ofValue (.string "a")) (.ofInt 0) ⟨⟨0, rfl, rfl⟩, nofun⟩

end Opcode

end DalvikFlow
