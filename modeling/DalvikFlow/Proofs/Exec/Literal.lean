import DalvikFlow.Proofs.Exec.Comparison
import DalvikFlow.Proofs.Ieee.Pattern

/-! Constants that are loaded and then compared as floating point numbers. A constant is an integer, so
what is compared are the numbers nearest to the integers, not those whose bits the literals have. -/
namespace DalvikFlow

namespace Precision

/-- The item of a constant that is as wide as a number. -/
def constant : Precision → Int64 → Item
  | single => fun v => .ofInt v.toInt32
  | double => .ofLong

def comparison : Precision → Ordering → Comparison
  | single => .single
  | double => .double

end Precision

namespace Comparison

theorem result_ofInt (unordered : Ordering) (v w : Int32) :
    (single unordered).result (.ofInt v) (.ofInt w) = .ok (.ofInt (orderingWord
      (compare (Ieee.ofInt .single v.toInt).key (Ieee.ofInt .single w.toInt).key))) :=
  result_known (v := .int v) (w := .int w) _ rfl rfl "int"

theorem result_ofLong (unordered : Ordering) (v w : Int64) :
    (double unordered).result (.ofLong v) (.ofLong w) = .ok (.ofInt (orderingWord
      (compare (Ieee.ofInt .double v.toInt).key (Ieee.ofInt .double w.toInt).key))) :=
  result_known (v := .long v) (w := .long w) _ rfl rfl "long"

/-- Integers of one width are compared by the numbers nearest to them. None of these is not a number,
so it makes no difference what would come out then. -/
theorem result_constant (p : Precision) (unordered : Ordering) (a b : Int64) :
    (p.comparison unordered).result (p.constant a) (p.constant b) =
      .ok (.ofInt (orderingWord (compare (Ieee.ofLiteral p a).nearestToBits.key
        (Ieee.ofLiteral p b).nearestToBits.key))) := by
  unfold Ieee.nearestToBits
  cases p with
  | single =>
      rw [Ieee.asInt_ofLiteral_single, Ieee.asInt_ofLiteral_single]
      exact result_ofInt unordered a.toInt32 b.toInt32
  | double =>
      rw [Ieee.asInt_ofLiteral_double, Ieee.asInt_ofLiteral_double]
      exact result_ofLong unordered a b

end Comparison

theorem ofInt_orderingWord_injective {o o' : Ordering}
    (h : Item.ofInt (orderingWord o) = .ofInt (orderingWord o')) : o = o' := by
  revert h
  cases o <;> cases o' <;> decide

namespace Node

/-- A constant that loads a literal into a register, as wide as a number of this precision. -/
structure Loads (n : Node) (p : Precision) (r : UInt16) (v : Int64) : Prop where
  constant : n.opcode.constant? = some p.constant
  literal : n.instruction.literal? = some v
  register : n.instruction.register? 0 = some r

/-- A comparison of two registers as numbers of this precision. -/
structure Compares (n : Node) (p : Precision) (unordered : Ordering) (dest lhs rhs : UInt16) :
    Prop where
  comparison : n.opcode.comparison? = some (p.comparison unordered)
  dest : n.instruction.register? 0 = some dest
  lhs : n.instruction.register? 1 = some lhs
  rhs : n.instruction.register? 2 = some rhs

end Node

namespace Registry

variable {g : FlowGraph} {n : Node} {p : Precision}

theorem create_loads {r : UInt16} {v : Int64} (h : n.Loads p r v) :
    builtin.create g n = .ok ⟨g.site n, .constant r (p.constant v)⟩ :=
  builtin_create_eq_ok_iff.mpr ⟨.constant, .constant h.constant h.literal h.register⟩

theorem create_compares {unordered : Ordering} {dest lhs rhs : UInt16}
    (h : n.Compares p unordered dest lhs rhs) :
    builtin.create g n = .ok ⟨g.site n, .compare (p.comparison unordered) dest lhs rhs⟩ :=
  builtin_create_eq_ok_iff.mpr ⟨.compare, .compare h.comparison h.dest h.lhs h.rhs⟩

end Registry

namespace Op

/-- Operations one after the other, whichever nodes they name as next. -/
def runAll : List Op → RegisterFile → Except Error RegisterFile
  | [], f => .ok f
  | op :: rest, f =>
    match op.run f with
    | (.ok _, after) => runAll rest after
    | (.error e, _) => .error e

variable {f after : RegisterFile} {dest lhs rhs : UInt16}

theorem runAll_cons {op : Op} {rest : List Op} {next : List Nat}
    (h : op.effect f = .ok (next, after)) : runAll (op :: rest) f = runAll rest after := by
  rw [runAll, run_eq_ok_iff.mpr h]

section Literals

variable {g : FlowGraph} {p : Precision} {unordered : Ordering} {first second third : Node} {a b : Int64}

theorem exists_run_literals (hfirst : first.Loads p lhs a) (hsecond : second.Loads p rhs b)
    (hthird : third.Compares p unordered dest lhs rhs) (hne : lhs ≠ rhs) (hlhs : lhs < f.count)
    (hrhs : rhs < f.count) (hdest : dest < f.count) :
    ∃ ops after, [first, second, third].mapM (Registry.builtin.create g) = .ok ops ∧
      runAll ops f = .ok after ∧ after.read dest = .ok (.ofInt (orderingWord
        (compare (Ieee.ofLiteral p a).nearestToBits.key (Ieee.ofLiteral p b).nearestToBits.key))) := by
  obtain ⟨f₁, h₁⟩ := RegisterFile.exists_assign hlhs (p.constant a)
  have hcount₁ := RegisterFile.count_of_assign h₁
  obtain ⟨f₂, h₂⟩ := RegisterFile.exists_assign (hcount₁ ▸ hrhs) (p.constant b)
  have hcount₂ := (RegisterFile.count_of_assign h₂).trans hcount₁
  have ha : f₂.read lhs = .ok (p.constant a) := by
    rw [RegisterFile.read_of_assign_of_ne h₂ hne]
    exact RegisterFile.read_of_assign h₁
  have hb : f₂.read rhs = .ok (p.constant b) := RegisterFile.read_of_assign h₂
  have hresult := Comparison.result_constant p unordered a b
  obtain ⟨f₃, h₃⟩ := RegisterFile.exists_assign (hcount₂ ▸ hdest) (.ofInt (orderingWord
    (compare (Ieee.ofLiteral p a).nearestToBits.key (Ieee.ofLiteral p b).nearestToBits.key)))
  refine ⟨[⟨g.site first, .constant lhs (p.constant a)⟩, ⟨g.site second, .constant rhs (p.constant b)⟩,
    ⟨g.site third, .compare (p.comparison unordered) dest lhs rhs⟩], f₃, ?_, ?_,
    RegisterFile.read_of_assign h₃⟩
  · rw [mapM_eq_ok_iff]
    exact .cons (Registry.create_loads hfirst) (.cons (Registry.create_loads hsecond)
      (.cons (Registry.create_compares hthird) .nil))
  · rw [runAll_cons (effect_constant rfl h₁), runAll_cons (effect_constant rfl h₂),
      runAll_cons (effect_compare rfl ha hb hresult h₃), runAll]

/-- Two constants and a comparison of them give the order of the numbers nearest to the constants as
integers. That is the order of the integers, save that rounding may make them equal, and it is the
order of the numbers whose bits they are exactly where the two readings agree. -/
theorem literals_compared_as_integers {x y : Ieee p} (hfirst : first.Loads p lhs a)
    (hsecond : second.Loads p rhs b) (hthird : third.Compares p unordered dest lhs rhs)
    (hne : lhs ≠ rhs) (hlhs : lhs < f.count) (hrhs : rhs < f.count) (hdest : dest < f.count)
    (hx : x = .ofLiteral p a) (hy : y = .ofLiteral p b) :
    ∃ ops after o, [first, second, third].mapM (Registry.builtin.create g) = .ok ops ∧
      runAll ops f = .ok after ∧ after.read dest = .ok (.ofInt (orderingWord o)) ∧
      o = compare x.nearestToBits.key y.nearestToBits.key ∧
      (x.asInt ≤ y.asInt → o ≠ .gt) ∧ (y.asInt ≤ x.asInt → o ≠ .lt) ∧
      (x.asInt.natAbs ≤ 2 * p.leadingOne → y.asInt.natAbs ≤ 2 * p.leadingOne →
        o = compare x.asInt y.asInt) ∧
      (x.isNaN = false → y.isNaN = false →
        (x.order? y = some o ↔
          x = y ∨ (0 ≤ x.asInt ∨ 0 ≤ y.asInt) ∧ ¬ (x.key = 0 ∧ y.key = 0) ∧ o ≠ .eq)) := by
  subst hx hy
  obtain ⟨ops, after, hops, hrun, hread⟩ :=
    exists_run_literals (g := g) hfirst hsecond hthird hne hlhs hrhs hdest
  refine ⟨ops, after, _, hops, hrun, hread, rfl, ?_, ?_, ?_, ?_⟩
  · exact Ieee.compare_nearestToBits_ne_gt _ _
  · exact Ieee.compare_nearestToBits_ne_lt _ _
  · exact Ieee.compare_nearestToBits_of_small _ _
  · intro hx hy
    rw [Ieee.order?_eq_compare_nearestToBits_iff _ _ hx hy, ne_eq (compare _ _), Int.compare_eq_eq]

end Literals

def loadNode (op : Opcode) (location : Nat) (r : UInt16) (v : Int64) : Node :=
  ⟨location, 0, ((Instruction.ofOpcode op location).withRegisters [r]).withLiteral v, []⟩

def compareNode (op : Opcode) (location : Nat) (registers : List UInt16) : Node :=
  ⟨location, 0, (Instruction.ofOpcode op location).withRegisters registers, []⟩

/-- The literals one and two have the bits of numbers close to zero, which are in the same order. -/
theorem literals_compared_of_small :
    ∃ ops after, [loadNode .const4 0 0 1, loadNode .const16 1 1 2,
        compareNode .cmpgFloat 2 [2, 0, 1]].mapM (Registry.builtin.create (.ofNodes #[])) = .ok ops ∧
      runAll ops (.empty 3) = .ok after ∧ after.read 2 = .ok (.ofInt (-1)) ∧
      (Ieee.ofLiteral .single 1).order? (Ieee.ofLiteral .single 2) = some .lt := by
  have hfirst : (loadNode .const4 0 0 1).Loads .single 0 1 := ⟨rfl, rfl, rfl⟩
  have hsecond : (loadNode .const16 1 1 2).Loads .single 1 2 := ⟨rfl, rfl, rfl⟩
  have hthird : (compareNode .cmpgFloat 2 [2, 0, 1]).Compares .single .gt 2 0 1 :=
    ⟨rfl, rfl, rfl, rfl⟩
  obtain ⟨ops, after, o, hops, hrun, hread, -, -, -, hsmall, hagree⟩ :=
    literals_compared_as_integers (g := .ofNodes #[]) (f := .empty 3) hfirst hsecond hthird
      (by decide) (by decide) (by decide) (by decide) rfl rfl
  have ho : o = .lt := hsmall (by decide) (by decide)
  subst ho
  refine ⟨ops, after, hops, hrun, hread, (hagree (by decide) (by decide)).mpr ?_⟩
  exact .inr ⟨by decide, by decide, by decide⟩

/-- The bits of minus one and of minus two. As integers they are in the other order. -/
theorem literals_not_compared_as_bits :
    ¬ ∀ (g : FlowGraph) (p : Precision) (unordered : Ordering) (first second third : Node)
      (dest lhs rhs : UInt16) (a b : Int64) (f : RegisterFile), first.Loads p lhs a →
      second.Loads p rhs b → third.Compares p unordered dest lhs rhs → lhs ≠ rhs → lhs < f.count →
      rhs < f.count → dest < f.count →
      ∃ ops after, [first, second, third].mapM (Registry.builtin.create g) = .ok ops ∧
        runAll ops f = .ok after ∧ after.read dest = .ok (.ofInt (orderingWord
          (((Ieee.ofLiteral p a).order? (Ieee.ofLiteral p b)).getD unordered))) := by
  intro hall
  have hfirst : (loadNode .constWide 0 0 (-4616189618054758400)).Loads .double 0
      (-4616189618054758400) := ⟨rfl, rfl, rfl⟩
  have hsecond : (loadNode .constWide 1 2 (-4611686018427387904)).Loads .double 2
      (-4611686018427387904) := ⟨rfl, rfl, rfl⟩
  have hthird : (compareNode .cmplDouble 2 [4, 0, 2]).Compares .double .lt 4 0 2 :=
    ⟨rfl, rfl, rfl, rfl⟩
  obtain ⟨ops, after, hops, hrun, hread⟩ := exists_run_literals (g := .ofNodes #[]) (f := .empty 6)
    hfirst hsecond hthird (by decide) (by decide) (by decide) (by decide)
  obtain ⟨ops', after', hops', hrun', hread'⟩ := hall (.ofNodes #[]) _ _ _ _ _ _ _ _ _ _ (.empty 6)
    hfirst hsecond hthird (by decide) (by decide) (by decide) (by decide)
  cases hops.symm.trans hops'
  cases hrun.symm.trans hrun'
  have horder : (Ieee.ofLiteral .double (-4616189618054758400)).order?
      (.ofLiteral .double (-4611686018427387904)) = some .gt := by decide
  rw [horder] at hread'
  have hgt := ofInt_orderingWord_injective (Except.ok.inj (hread.symm.trans hread'))
  exact Ieee.compare_nearestToBits_ne_gt _ _ (by decide) hgt

end Op

end DalvikFlow
