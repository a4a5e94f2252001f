import DalvikFlow.Proofs.Exec.Comparison
import DalvikFlow.Proofs.Exec.Footprint

/-! When a comparison fails: two known items have to be numbers, of one kind and with one type tag. What
else could go wrong with them does not. -/
namespace DalvikFlow

/-- Two known items are refused for the first of the reasons that apply. -/
inductive Refused : Item → Item → Violation → Prop
  | nonNumeric {v w s t} : v.isNumeric = false ∨ w.isNumeric = false →
      Refused (.known v s) (.known w t) (.nonNumeric v.kind w.kind)
  | kindsDiffer {v w s t} : v.isNumeric = true → w.isNumeric = true → v.kind ≠ w.kind →
      Refused (.known v s) (.known w t) (.kindsDiffer v.kind w.kind)
  | typesDiffer {v w s t} : v.isNumeric = true → w.isNumeric = true → v.kind = w.kind → s ≠ t →
      Refused (.known v s) (.known w t) (.typesDiffer s t)

/-- Both are known, and they are not two numbers of one kind with one type tag. -/
def Item.Incompatible (a b : Item) : Prop :=
  ∃ v w, a.value? = some v ∧ b.value? = some w ∧
    (v.isNumeric = false ∨ w.isNumeric = false ∨ v.kind ≠ w.kind ∨ a.typeTag ≠ b.typeTag)

section

variable {a b : Item} {violation : Violation}

theorem Refused.incompatible (h : Refused a b violation) : a.Incompatible b := by
  cases h with
  | nonNumeric hnumeric => exact ⟨_, _, rfl, rfl, hnumeric.imp_right .inl⟩
  | kindsDiffer _ _ hkind => exact ⟨_, _, rfl, rfl, .inr (.inr (.inl hkind))⟩
  | typesDiffer _ _ _ htag => exact ⟨_, _, rfl, rfl, .inr (.inr (.inr htag))⟩

theorem Refused.isKnown (h : Refused a b violation) : a.isUnknown = false ∧ b.isUnknown = false := by
  cases h <;> exact ⟨rfl, rfl⟩

/-- Known items are refused, or they are two numbers of one kind and with one tag. -/
theorem refused_cases (v w : Value) (s t : String) :
    (∃ violation, Refused (.known v s) (.known w t) violation) ∨
      v.isNumeric = true ∧ v.kind = w.kind ∧ s = t := by
  by_cases hnumeric : v.isNumeric = true ∧ w.isNumeric = true
  · by_cases hkind : v.kind = w.kind
    · by_cases htag : s = t
      · exact .inr ⟨hnumeric.1, hkind, htag⟩
      · exact .inl ⟨_, .typesDiffer hnumeric.1 hnumeric.2 hkind htag⟩
    · exact .inl ⟨_, .kindsDiffer hnumeric.1 hnumeric.2 hkind⟩
  · rw [not_and_or, Bool.not_eq_true, Bool.not_eq_true] at hnumeric
    exact .inl ⟨_, .nonNumeric hnumeric⟩

theorem exists_refused_iff : (∃ violation, Refused a b violation) ↔ a.Incompatible b := by
  constructor
  · rintro ⟨violation, h⟩
    exact h.incompatible
  · obtain ⟨a?, s⟩ := a
    obtain ⟨b?, t⟩ := b
    rintro ⟨v, w, rfl, rfl, h⟩
    rcases refused_cases v w s t with hrefused | ⟨hnumeric, hkind, rfl⟩
    · exact hrefused
    · have hw : w.isNumeric = true := by
        rw [Value.isNumeric, ← hkind]
        exact hnumeric
      simp [hnumeric, hw, hkind] at h

end

namespace Comparison

variable {c : Comparison} {a b : Item} {violation : Violation}

theorem result_of_refused (h : Refused a b violation) : c.result a b = .error violation := by
  rw [result, h.isKnown.1, h.isKnown.2, Bool.or_false, if_neg Bool.false_ne_true]
  cases h with
  | @nonNumeric v w s t hnumeric =>
      have hvalues : c.compareValues v w s t = .error (.nonNumeric v.kind w.kind) :=
        if_pos (by simpa using hnumeric)
      exact congrArg (· >>= _) hvalues
  | @kindsDiffer v w s t hv hw hkind =>
      have hvalues : c.compareValues v w s t = .error (.kindsDiffer v.kind w.kind) := by
        rw [compareValues, if_neg (by simp [hv, hw]), if_pos hkind]
      exact congrArg (· >>= _) hvalues
  | @typesDiffer v w s t hv hw hkind htag =>
      have hvalues : c.compareValues v w s t = .error (.typesDiffer s t) := by
        rw [compareValues, if_neg (by simp [hv, hw]), if_neg (not_not_intro hkind), if_pos htag]
      exact congrArg (· >>= _) hvalues

/-- What is not refused has a result: an unknown one if an item is unknown, and else an outcome, since
numbers have an order in the representation of every comparison. -/
theorem exists_result_of_not_refused (c : Comparison) (h : ∀ violation, ¬ Refused a b violation) :
    ∃ item, c.result a b = .ok item := by
  obtain ⟨a?, s⟩ := a
  obtain ⟨b?, t⟩ := b
  cases a? with
  | none => exact ⟨_, result_of_isUnknown c (.inl rfl)⟩
  | some v =>
      cases b? with
      | none => exact ⟨_, result_of_isUnknown c (.inr rfl)⟩
      | some w =>
          rcases refused_cases v w s t with ⟨violation, hrefused⟩ | ⟨hnumeric, hkind, rfl⟩
          · exact absurd hrefused (h violation)
          · exact ⟨_, result_known c hnumeric hkind s⟩

theorem result_eq_error_iff : c.result a b = .error violation ↔ Refused a b violation := by
  constructor
  · intro h
    by_cases hrefused : ∃ violation', Refused a b violation'
    · obtain ⟨violation', hrefused⟩ := hrefused
      cases h.symm.trans (result_of_refused hrefused)
      exact hrefused
    · obtain ⟨item, hitem⟩ := exists_result_of_not_refused c (not_exists.mp hrefused)
      cases h.symm.trans hitem
  · exact result_of_refused

end Comparison

/-- A text that begins differently is another text. -/
theorem append_ne_of_getElem? {start rest other : String} {k : Nat}
    (hk : k < start.toList.length) (h : start.toList[k]? ≠ other.toList[k]?) :
    start ++ rest ≠ other := by
  rintro rfl
  apply h
  rw [String.toList_append, List.getElem?_append_left hk]

/-- How the reasons to refuse items begin. -/
def refusals : List String :=
  ["non-numeric operands ", "operand representations differ: ", "operand types differ: "]

namespace Refused

variable {a b : Item} {violation : Violation} (h : Refused a b violation)

include h

theorem exists_message : ∃ start ∈ refusals, ∃ rest, violation.message = start ++ rest := by
  have hassoc : ∀ w x y z : String, w ++ x ++ y ++ z = w ++ (x ++ (y ++ z)) := by
    intro w x y z
    rw [String.append_assoc, String.append_assoc]
  cases h with
  | nonNumeric => exact ⟨"non-numeric operands ", by decide, _, hassoc _ _ _ _⟩
  | kindsDiffer => exact ⟨"operand representations differ: ", by decide, _, hassoc _ _ _ _⟩
  | typesDiffer => exact ⟨"operand types differ: ", by decide, _, hassoc _ _ _ _⟩

/-- No reason to refuse items reads like the two that would be mistakes of the comparison itself. -/
theorem message_ne :
    violation.message ≠ "comparison of unknown operands" ∧
      violation.message ≠ "operands are not comparable" := by
  obtain ⟨start, hstart, rest, hmessage⟩ := h.exists_message
  -- the eighth letter tells them apart
  have hlength : ∀ s ∈ refusals, 7 < s.toList.length := by decide
  have hunknown : ∀ s ∈ refusals, s.toList[7]? ≠ "comparison of unknown operands".toList[7]? := by
    decide
  have horder : ∀ s ∈ refusals, s.toList[7]? ≠ "operands are not comparable".toList[7]? := by
    decide
  rw [hmessage]
  constructor
  · exact append_ne_of_getElem? (hlength start hstart) (hunknown start hstart)
  · exact append_ne_of_getElem? (hlength start hstart) (horder start hstart)

end Refused

namespace Op

theorem exists_compare_of_create {g : FlowGraph} {n : Node} {op : Op}
    (h : Family.compare.create g n = .ok op) :
    ∃ c dest lhs rhs, n.instruction.register? 0 = some dest ∧
      n.instruction.register? 1 = some lhs ∧ n.instruction.register? 2 = some rhs ∧
      op.action = .compare c dest lhs rhs := by
  cases Family.create_eq_ok_iff.mp h with
  | compare _ hdest hlhs hrhs => exact ⟨_, _, _, _, hdest, hlhs, hrhs, rfl⟩

section Compare

variable {op : Op} {c : Comparison} {dest lhs rhs : UInt16} {f after : RegisterFile} {a b : Item}
  {e : Error} (haction : op.action = .compare c dest lhs rhs)

include haction

/-- An operation that compares fails if a register cannot be read, if the items are refused, or if the
register for the outcome does not exist. -/
theorem effect_compare_eq_error_iff :
    op.effect f = .error e ↔
      f.read lhs = .error e ∨ ∃ a, f.read lhs = .ok a ∧
        (f.read rhs = .error e ∨ ∃ b, f.read rhs = .ok b ∧
          ((∃ violation, Refused a b violation ∧ .invariantViolation op.opcode violation = e) ∨
            ∃ item, c.result a b = .ok item ∧ f.assign dest item = .error e)) := by
  simp only [effect, haction, bind_eq_error_iff, mapError_eq_error_iff, mapError_eq_ok_iff,
    pure_ne_error, and_false, exists_false, or_false, Comparison.result_eq_error_iff]

/-- Only items that are refused are the fault of the comparison. -/
theorem refused_of_invariantViolation {opcode : Opcode} {violation : Violation}
    (h : op.effect f = .error (.invariantViolation opcode violation)) :
    ∃ a b, Refused a b violation := by
  have hread : ∀ r, f.read r ≠ .error (.invariantViolation opcode violation) := by
    intro r hr
    rcases RegisterFile.read_eq_error_iff.mp hr with ⟨-, h⟩ | ⟨-, -, h⟩ <;> cases h
  rcases (effect_compare_eq_error_iff haction).mp h with h | ⟨a, -, h | ⟨b, -, h | ⟨item, -, h⟩⟩⟩
  · exact absurd h (hread lhs)
  · exact absurd h (hread rhs)
  · obtain ⟨violation', hrefused, heq⟩ := h
    cases heq
    exact ⟨a, b, hrefused⟩
  · cases (RegisterFile.assign_eq_error_iff.mp h).2

variable (hcount : dest < f.count) (ha : f.read lhs = .ok a) (hb : f.read rhs = .ok b)

include hcount ha hb

theorem run_compare_eq_error_iff :
    op.run f = (.error e, after) ↔
      ∃ violation, Refused a b violation ∧ e = .invariantViolation op.opcode violation ∧
        after = f := by
  rw [run_eq_error_iff, effect_compare_eq_error_iff haction]
  constructor
  · rintro ⟨h | ⟨a', ha', h | ⟨b', hb', h | ⟨item, -, h⟩⟩⟩, rfl⟩
    · cases ha.symm.trans h
    · cases hb.symm.trans h
    · cases ha.symm.trans ha'
      cases hb.symm.trans hb'
      obtain ⟨violation, hrefused, rfl⟩ := h
      exact ⟨violation, hrefused, rfl, rfl⟩
    · exact absurd hcount (RegisterFile.assign_eq_error_iff.mp h).1
  · rintro ⟨violation, hrefused, rfl, rfl⟩
    exact ⟨.inr ⟨a, ha, .inr ⟨b, hb, .inl ⟨violation, hrefused, rfl⟩⟩⟩, rfl⟩

theorem exists_run_compare (h : ¬ a.Incompatible b) :
    ∃ item after, f.assign dest item = .ok after ∧ op.run f = (.ok op.children, after) := by
  rw [← exists_refused_iff, not_exists] at h
  obtain ⟨item, hitem⟩ := c.exists_result_of_not_refused h
  obtain ⟨after, hafter⟩ := RegisterFile.exists_assign hcount item
  exact ⟨item, after, hafter, run_eq_ok_iff.mpr (effect_compare haction ha hb hitem hafter)⟩

end Compare

/-- A comparison of registers that can be read, into one that exists, fails exactly if their items are
incompatible: with the first reason for that, and with the registers as they were. In all other cases it
leaves an item in its register. Whatever the registers hold, it is never said to be a comparison of
unknown operands, or one of operands that have no order. -/
theorem comparison_fails_iff {g : FlowGraph} {n : Node} {op : Op}
    (hop : Family.compare.create g n = .ok op) :
    ∃ dest lhs rhs, n.instruction.register? 0 = some dest ∧ n.instruction.register? 1 = some lhs ∧
      n.instruction.register? 2 = some rhs ∧
      (∀ f a b, dest < f.count → f.read lhs = .ok a → f.read rhs = .ok b →
        ((∃ e after, op.run f = (.error e, after)) ↔ a.Incompatible b) ∧
        (∀ e after, op.run f = (.error e, after) ↔
          ∃ violation, Refused a b violation ∧ e = .invariantViolation n.opcode violation ∧
            after = f) ∧
        (¬ a.Incompatible b →
          ∃ item after, f.assign dest item = .ok after ∧ op.run f = (.ok op.children, after))) ∧
      ∀ f opcode violation after, op.run f = (.error (.invariantViolation opcode violation), after) →
        violation.message ≠ "comparison of unknown operands" ∧
          violation.message ≠ "operands are not comparable" := by
  obtain ⟨c, dest, lhs, rhs, hdest, hlhs, hrhs, haction⟩ := exists_compare_of_create hop
  have hopcode : op.opcode = n.opcode := congrArg Site.opcode (Family.create_site hop)
  refine ⟨dest, lhs, rhs, hdest, hlhs, hrhs, ?_, ?_⟩
  · intro f a b hcount ha hb
    have hfails : ∀ e after, op.run f = (.error e, after) ↔
        ∃ violation, Refused a b violation ∧ e = .invariantViolation n.opcode violation ∧
          after = f := by
      rw [← hopcode]
      exact fun _ _ => run_compare_eq_error_iff haction hcount ha hb
    refine ⟨?_, hfails, exists_run_compare haction hcount ha hb⟩
    rw [← exists_refused_iff]
    constructor
    · rintro ⟨e, after, hrun⟩
      obtain ⟨violation, hrefused, -⟩ := (hfails e after).mp hrun
      exact ⟨violation, hrefused⟩
    · rintro ⟨violation, hrefused⟩
      exact ⟨_, _, (hfails _ _).mpr ⟨violation, hrefused, rfl, rfl⟩⟩
  · intro f opcode violation after hrun
    obtain ⟨heffect, -⟩ := run_eq_error_iff.mp hrun
    obtain ⟨a, b, hrefused⟩ := refused_of_invariantViolation haction heffect
    exact hrefused.message_ne

/-- A long and an int in the sources. -/
theorem comparison_fails_in_accumulatingBody :
    ∃ g n op, (FlowGraph.ofCode {} accumulatingBody).result = .ok g ∧ g.node? 0 = some n ∧
      Family.compare.create g n = .ok op ∧
      op.run (.mk 2 [(0, .ofLong 4), (1, .ofInt 5)]) =
        (.error (.invariantViolation .cmpLong (.kindsDiffer .long .int)),
          (.mk 2 [(0, .ofLong 4), (1, .ofInt 5)])) := by
  obtain ⟨g, hg⟩ : ∃ g, (FlowGraph.ofCode {} accumulatingBody).result = .ok g := ⟨_, rfl⟩
  obtain ⟨n, hn⟩ : ∃ n, g.node? 0 = some n := by
    cases hg
    exact ⟨_, rfl⟩
  obtain ⟨op, hop⟩ : ∃ op, Family.compare.create g n = .ok op := by
    cases hg
    cases hn
    exact ⟨_, rfl⟩
  refine ⟨g, n, op, hg, hn, hop, ?_⟩
  obtain ⟨dest, lhs, rhs, hdest, hlhs, hrhs, hfails, -⟩ := comparison_fails_iff hop
  cases hg
  cases hn
  cases hdest
  cases hlhs
  cases hrhs
  obtain ⟨-, herror, -⟩ := hfails (.mk 2 [(0, .ofLong 4), (1, .ofInt 5)]) (.ofLong 4) (.ofInt 5)
    (by decide) rfl rfl
  exact (herror _ _).mpr ⟨_, .kindsDiffer rfl rfl (by decide), rfl, rfl⟩

end Op

end DalvikFlow
