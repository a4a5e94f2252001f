import DalvikFlow.Proofs.Exec.Footprint
import DalvikFlow.Proofs.Exec.Switch

/-! What a node must have for its operation, and what becomes of a graph in which one lacks it. -/
namespace DalvikFlow

open Body

/-- How many registers the operation of an opcode names. A branch on zero has only one. -/
def Opcode.registerCount (op : Opcode) : Nat :=
  match op.family? with
  | some .compare => 3
  | some .branch => if op.condition?.any Condition.withZero then 1 else 2
  | some .switch => 1
  | some .move => 2
  | some .constant => 1
  | some .flow | none => 0

namespace Node

/-- The offset leads to an instruction of the body that carries cases. -/
def RefersToCases (code : List Instruction) (n : Node) : Prop :=
  ∃ d t, n.instruction.offset? = some d ∧ StartsAt code (n.address + d.toInt) t ∧
    t.cases?.isSome = true

/-- The opcode belongs to a family, and the instruction has the operands that this family needs. -/
structure Equipped (code : List Instruction) (n : Node) : Prop where
  supported : n.opcode.family?.isSome = true
  registers : n.opcode.registerCount ≤ n.instruction.registers.length
  offset : n.opcode.family? = some .branch → n.instruction.offset?.isSome = true
  cases : n.opcode.family? = some .switch → n.RefersToCases code
  literal : n.opcode.family? = some .constant → n.instruction.literal?.isSome = true

/-- The error of what a node lacks. Of several things that it lacks, registers come first for a branch
and last for a switch and a constant. -/
inductive Lacks (code : List Instruction) (n : Node) : Error → Prop
  | support : n.opcode.family? = none → Lacks code n (.unsupportedOpcode n.opcode)
  | registers : n.instruction.registers.length < n.opcode.registerCount →
      (n.opcode.family? = some .switch → n.RefersToCases code) →
      (n.opcode.family? = some .constant → n.instruction.literal?.isSome = true) →
      Lacks code n (.invalidOperand n.opcode .register)
  | branchOffset : n.opcode.family? = some .branch →
      n.opcode.registerCount ≤ n.instruction.registers.length → n.instruction.offset? = none →
      Lacks code n (.invalidOperand n.opcode .branchOffset)
  | payloadOffset : n.opcode.family? = some .switch → n.instruction.offset? = none →
      Lacks code n (.invalidOperand n.opcode .branchOffset)
  | cases {d t} {a : Nat} : n.opcode.family? = some .switch → n.instruction.offset? = some d →
      StartsAt code (n.address + d.toInt) t → t.cases? = none →
      (a : Int) = n.address + d.toInt →
      Lacks code n (.malformed (.noSwitchPayload n.opcode n.address a))
  | literal : n.opcode.family? = some .constant → n.instruction.literal? = none →
      Lacks code n (.invalidOperand n.opcode .literal)

section

variable {code : List Instruction} {n : Node} {e e' : Error}

/-- Offsets are unique, and so is what starts at an address. -/
theorem RefersToCases.isSome (h : n.RefersToCases code) (hw : Wide code) {d : Int32}
    {t : Instruction} (hd : n.instruction.offset? = some d)
    (ht : StartsAt code (n.address + d.toInt) t) : t.cases?.isSome = true := by
  obtain ⟨d', t', hd', ht', hcases⟩ := h
  cases hd.symm.trans hd'
  cases hw.startsAt_unique ht ht'
  exact hcases

theorem RefersToCases.offset?_ne_none (h : n.RefersToCases code) :
    n.instruction.offset? ≠ none := by
  obtain ⟨d, t, hd, -⟩ := h
  simp [hd]

/-- Whichever of the registers is missing, the error is the same. -/
theorem Lacks.of_register {family : Family} (hf : n.opcode.family? = some family)
    (hswitch : family = .switch → n.RefersToCases code)
    (hconstant : family = .constant → n.instruction.literal?.isSome = true) {k : Nat}
    (hk : k < n.opcode.registerCount) (he : n.register k = .error e) : n.Lacks code e := by
  obtain ⟨hlt, rfl⟩ := register_eq_error_iff.mp he
  refine .registers (Nat.lt_of_le_of_lt hlt hk) ?_ ?_
  · intro hs
    exact hswitch (Option.some.inj (hf.symm.trans hs))
  · intro hc
    exact hconstant (Option.some.inj (hf.symm.trans hc))

theorem Lacks.not_equipped (h : n.Lacks code e) (hw : Wide code) : ¬ n.Equipped code := by
  rintro ⟨hs, hr, ho, hc, hl⟩
  cases h with
  | support hnone => simp [hnone] at hs
  | registers hlt _ _ => exact Nat.not_lt_of_le hr hlt
  | branchOffset hf _ hnone => simpa [hnone] using ho hf
  | payloadOffset hf hnone => exact (hc hf).offset?_ne_none hnone
  | cases hf hd ht hnone _ => simpa [hnone] using (hc hf).isSome hw hd ht
  | literal hf hnone => simpa [hnone] using hl hf

theorem Lacks.unique (h : n.Lacks code e) (hw : Wide code) (h' : n.Lacks code e') : e = e' := by
  -- two errors would need two families, or the same thing both there and missing
  cases h with
  | support hnone =>
      cases h' with
      | support => rfl
      | registers hlt => simp [Opcode.registerCount, hnone] at hlt
      | branchOffset hf | payloadOffset hf | cases hf | literal hf => cases hnone.symm.trans hf
  | registers hlt hswitch hconstant =>
      cases h' with
      | support hnone => simp [Opcode.registerCount, hnone] at hlt
      | registers => rfl
      | branchOffset _ hle => exact absurd hlt (Nat.not_lt_of_le hle)
      | payloadOffset hf hd => exact absurd hd (hswitch hf).offset?_ne_none
      | cases hf hd ht hcs => simpa [hcs] using (hswitch hf).isSome hw hd ht
      | literal hf hl => simpa [hl] using hconstant hf
  | branchOffset hf hle =>
      cases h' with
      | support hnone => cases hnone.symm.trans hf
      | registers hlt => exact absurd hlt (Nat.not_lt_of_le hle)
      | branchOffset => rfl
      | payloadOffset hf' | cases hf' | literal hf' => cases hf.symm.trans hf'
  | payloadOffset hf hd =>
      cases h' with
      | support hnone => cases hnone.symm.trans hf
      | registers _ hswitch => exact absurd hd (hswitch hf).offset?_ne_none
      | payloadOffset => rfl
      | cases _ hd' => cases hd.symm.trans hd'
      | branchOffset hf' | literal hf' => cases hf.symm.trans hf'
  | cases hf hd ht hcs ha =>
      cases h' with
      | support hnone => cases hnone.symm.trans hf
      | registers _ hswitch => simpa [hcs] using (hswitch hf).isSome hw hd ht
      | payloadOffset _ hd' => cases hd'.symm.trans hd
      | cases _ hd' _ _ ha' =>
          cases hd.symm.trans hd'
          rw [Int.ofNat.inj (ha.trans ha'.symm)]
      | branchOffset hf' | literal hf' => cases hf.symm.trans hf'
  | literal hf hl =>
      cases h' with
      | support hnone => cases hnone.symm.trans hf
      | registers _ _ hconstant => simpa [hl] using hconstant hf
      | literal => rfl
      | branchOffset hf' | payloadOffset hf' | cases hf' => cases hf.symm.trans hf'

end

end Node

namespace FlowGraph.Shows

variable {g : FlowGraph} {distinct : Bool} {code : List Instruction} {l : Nat} {n : Node}
  (h : g.Shows distinct code) (hn : g.node? l = some n)

include h hn

/-- A graph is shown only if the offsets of its body lead to instructions. -/
theorem exists_startsAt {d : Int32} (hd : n.instruction.offset? = some d) :
    ∃ t, StartsAt code (n.address + d.toInt) t := by
  obtain ⟨p, refs, -, -, -, -, hrefs, -⟩ := h.node_spec hn
  cases hrefs with
  | absent hnone => cases hnone.symm.trans hd
  | switch hd' ht _ _ | data hd' ht _ _ | branch hd' ht _ _ _ =>
      cases hd.symm.trans hd'
      exact ⟨_, ht⟩

theorem branchTarget_eq_error {e : Error} (he : n.branchTarget = .error e) :
    n.instruction.offset? = none ∧ e = .invalidOperand n.opcode .branchOffset := by
  cases hd : n.instruction.offset? with
  | none =>
      rw [Node.branchTarget, hd] at he
      cases he
      exact ⟨rfl, rfl⟩
  | some d =>
      obtain ⟨t, ht⟩ := h.exists_startsAt hn hd
      obtain ⟨m, hm, -⟩ := h.branchTarget_eq_ok hd ht
      cases hm.symm.trans he

section Family

variable {e : Error}

theorem lacks_of_createBranch (hf : n.opcode.family? = some .branch)
    (he : Family.createBranch g n = .error e) : n.Lacks code e := by
  obtain ⟨⟨relation, withZero⟩, hc⟩ :=
    Option.isSome_iff_exists.mp (Opcode.family?_eq_some_iff.mp hf)
  have hcount : n.opcode.registerCount = if withZero then 1 else 2 := by
    rw [Opcode.registerCount, hf, hc]
    rfl
  -- the target comes last, and registers have been found by then
  have htarget : n.opcode.registerCount ≤ n.instruction.registers.length →
      n.branchTarget = .error e → n.Lacks code e := by
    intro hregisters ht
    obtain ⟨hnone, rfl⟩ := h.branchTarget_eq_error hn ht
    exact .branchOffset hf hregisters hnone
  have hlength : ∀ {k r}, n.register k = .ok r → k < n.instruction.registers.length := by
    intro k r hr
    exact (List.getElem?_eq_some_iff.mp (Node.register_eq_ok_iff.mp hr)).1
  simp only [Family.createBranch, hc, bind_eq_error_iff, Node.require_eq_error_iff,
    Node.require_eq_ok_iff, Option.some.injEq, exists_eq_left', reduceCtorEq, false_and,
    false_or] at he
  cases withZero with
  | true =>
      simp only [if_true, bind_eq_error_iff, pure_ne_error, and_false, exists_false, or_false,
        false_or] at he hcount
      obtain ⟨_, -, he | ⟨_, hr, ht⟩⟩ := he
      · exact .of_register hf (by simp) (by simp) (by omega) he
      · have hlt := hlength hr
        exact htarget (by omega) ht
  | false =>
      simp only [Bool.false_eq_true, if_false, bind_eq_error_iff, pure_ne_error, and_false,
        exists_false, or_false] at he hcount
      rcases he with he | ⟨_, hr, he | ⟨_, -, ht⟩⟩
      · exact .of_register hf (by simp) (by simp) (by omega) (map_eq_error_iff.mp he)
      · exact .of_register hf (by simp) (by simp) (by omega) he
      · obtain ⟨_, hr, -⟩ := map_eq_ok_iff.mp hr
        have hlt := hlength hr
        exact htarget (by omega) ht

theorem lacks_of_createSwitch (hf : n.opcode.family? = some .switch)
    (he : Family.createSwitch g n = .error e) : n.Lacks code e := by
  have hs : n.opcode.isSwitch = true := Opcode.family?_eq_some_iff.mp hf
  have hcount : n.opcode.registerCount = 1 := by rw [Opcode.registerCount, hf]
  simp only [Family.createSwitch, bind_eq_error_iff, Node.requireThat_eq_error_iff, hs,
    Bool.true_eq_false, false_and, false_or] at he
  obtain ⟨_, -, he | ⟨a, ha, he⟩⟩ := he
  · obtain ⟨hnone, rfl⟩ := h.branchTarget_eq_error hn he
    exact .payloadOffset hf hnone
  · obtain ⟨-, d, hd, -⟩ := Node.branchTarget_eq_ok_iff.mp ha
    obtain ⟨t, ht⟩ := h.exists_startsAt hn hd
    obtain ⟨a', ha', haddress, hcases⟩ := h.casesAt?_branchTarget hn hs hd ht
    cases ha.symm.trans ha'
    rw [hcases] at he
    cases hcs : t.cases? with
    | none =>
        rw [hcs] at he
        cases he
        exact .cases hf hd ht hcs haddress
    | some cs =>
        simp only [hcs, bind_eq_error_iff, pure_ne_error, and_false, exists_false, or_false] at he
        exact .of_register hf (fun _ => ⟨d, t, hd, ht, by simp [hcs]⟩) (by simp) (by omega) he

theorem lacks_of_create {family : Family} (hf : n.opcode.family? = some family)
    (he : family.create g n = .error e) : n.Lacks code e := by
  have hs := Opcode.family?_eq_some_iff.mp hf
  cases family with
  | compare =>
      obtain ⟨c, hc⟩ := Option.isSome_iff_exists.mp hs
      have hcount : n.opcode.registerCount = 3 := by rw [Opcode.registerCount, hf]
      simp only [Family.create, Family.createCompare, hc, bind_eq_error_iff,
        Node.require_eq_error_iff, pure_ne_error, reduceCtorEq, false_and, and_false,
        exists_false, or_false, false_or] at he
      rcases he with ⟨_, -, he | ⟨_, -, he | ⟨_, -, he⟩⟩⟩
      all_goals exact .of_register hf (by simp) (by simp) (by omega) he
  | branch => exact h.lacks_of_createBranch hn hf he
  | switch => exact h.lacks_of_createSwitch hn hf he
  | move =>
      have hcount : n.opcode.registerCount = 2 := by rw [Opcode.registerCount, hf]
      simp only [Family.create, Family.createMove, bind_eq_error_iff,
        Node.requireThat_eq_error_iff, pure_ne_error, and_false, exists_false, or_false] at he
      rcases he with ⟨hm, -⟩ | ⟨_, -, he | ⟨_, -, he⟩⟩
      · cases hm.symm.trans hs
      all_goals exact .of_register hf (by simp) (by simp) (by omega) he
  | constant =>
      obtain ⟨item, hi⟩ := Option.isSome_iff_exists.mp hs
      have hcount : n.opcode.registerCount = 1 := by rw [Opcode.registerCount, hf]
      simp only [Family.create, Family.createConstant, hi, bind_eq_error_iff,
        Node.require_eq_error_iff, Node.require_eq_ok_iff, pure_ne_error, reduceCtorEq,
        false_and, and_false, exists_false, or_false, false_or] at he
      rcases he with ⟨_, -, ⟨hnone, rfl⟩ | ⟨literal, hl, he⟩⟩
      · exact .literal hf hnone
      · exact .of_register hf (by simp) (fun _ => by simp [hl]) (by omega) he
  | flow =>
      simp only [Family.create, Family.createFlow, bind_eq_error_iff,
        Node.requireThat_eq_error_iff, pure_ne_error, and_false, exists_false, or_false] at he
      cases he.1.symm.trans hs

theorem equipped_of_makes {family : Family} {op : Op} (hmakes : family.Makes g n op) :
    n.Equipped code := by
  have hf := hmakes.family?_eq
  have hlength : ∀ {k r}, n.instruction.register? k = some r →
      k < n.instruction.registers.length := fun hr => (List.getElem?_eq_some_iff.mp hr).1
  have hoffset : ∀ {a}, n.branchTarget = .ok a → n.instruction.offset?.isSome = true := by
    intro a ha
    obtain ⟨-, d, hd, -⟩ := Node.branchTarget_eq_ok_iff.mp ha
    rw [hd]
    rfl
  -- nothing is asked of a node for the families that it does not belong to
  have hother : ∀ {family'} {P : Prop}, family ≠ family' → n.opcode.family? = some family' → P := by
    intro family' P hne hf'
    exact absurd (Option.some.inj (hf.symm.trans hf')) hne
  have hsupported : n.opcode.family?.isSome = true := by
    rw [hf]
    rfl
  cases hmakes with
  | compare _ _ _ hr =>
      refine ⟨hsupported, ?_, hother nofun, hother nofun, hother nofun⟩
      rw [Opcode.registerCount, hf]
      exact hlength hr
  | branch hc _ hr ht =>
      refine ⟨hsupported, ?_, fun _ => hoffset ht, hother nofun, hother nofun⟩
      rw [Opcode.registerCount, hf, hc]
      exact hlength hr
  | branchZero hc hl ht =>
      refine ⟨hsupported, ?_, fun _ => hoffset ht, hother nofun, hother nofun⟩
      rw [Opcode.registerCount, hf, hc]
      exact hlength hl
  | switch hs ht hcs hr =>
      obtain ⟨d, hd⟩ := Option.isSome_iff_exists.mp (hoffset ht)
      obtain ⟨t, hstart⟩ := h.exists_startsAt hn hd
      obtain ⟨a, ha, -, hcases⟩ := h.casesAt?_branchTarget hn hs hd hstart
      cases ht.symm.trans ha
      have hsome : t.cases?.isSome = true := by
        rw [← hcases, hcs]
        rfl
      refine ⟨hsupported, ?_, hother nofun, fun _ => ⟨d, t, hd, hstart, hsome⟩, hother nofun⟩
      rw [Opcode.registerCount, hf]
      exact hlength hr
  | move _ _ hs =>
      refine ⟨hsupported, ?_, hother nofun, hother nofun, hother nofun⟩
      rw [Opcode.registerCount, hf]
      exact hlength hs
  | constant _ hl hd =>
      refine ⟨hsupported, ?_, hother nofun, hother nofun, fun _ => ?_⟩
      · rw [Opcode.registerCount, hf]
        exact hlength hd
      · rw [hl]
        rfl
  | flow _ =>
      refine ⟨hsupported, ?_, hother nofun, hother nofun, hother nofun⟩
      rw [Opcode.registerCount, hf]
      exact Nat.zero_le _

end Family

theorem create_eq_error_iff {e : Error} :
    Registry.builtin.create g n = .error e ↔ n.Lacks code e := by
  have hof : ∀ {d}, Registry.builtin.create g n = .error d → n.Lacks code d := by
    intro d hd
    rw [Registry.create, Registry.find?_builtin] at hd
    cases hf : n.opcode.family? with
    | none =>
        rw [hf] at hd
        cases hd
        exact .support hf
    | some family =>
        rw [hf] at hd
        exact h.lacks_of_create hn hf hd
  refine ⟨hof, fun hlacks => ?_⟩
  cases hc : Registry.builtin.create g n with
  | ok op =>
      obtain ⟨family, hmakes⟩ := Registry.builtin_create_eq_ok_iff.mp hc
      exact absurd (h.equipped_of_makes hn hmakes) (hlacks.not_equipped h.wide)
  | error d => rw [(hof hc).unique h.wide hlacks]

theorem exists_create_iff :
    (∃ op, Registry.builtin.create g n = .ok op) ↔ n.Equipped code := by
  constructor
  · rintro ⟨op, hop⟩
    obtain ⟨family, hmakes⟩ := Registry.builtin_create_eq_ok_iff.mp hop
    exact h.equipped_of_makes hn hmakes
  · intro hequipped
    cases hc : Registry.builtin.create g n with
    | ok op => exact ⟨op, rfl⟩
    | error e => exact absurd hequipped (((h.create_eq_error_iff hn).mp hc).not_equipped h.wide)

end FlowGraph.Shows

namespace Program

open FlowGraph

/-- Which graphs have a program: those whose nodes have what their operations need. Otherwise the error is
that of the node with the lowest location among those that lack something, and no target is unresolved, as
the construction of a graph has resolved them all. -/
theorem built_iff_equipped {options : GraphOptions} {code : List Instruction} {g : FlowGraph}
    (hg : (ofCode options code).result = .ok g) :
    Registry.builtin.size = 45 ∧
    (∀ op, Registry.builtin.contains op = op.family?.isSome) ∧
    ((∃ p, ofGraph Registry.builtin g = .ok p) ↔
      ∀ l n, g.node? l = some n → n.isPayload = false → n.Equipped code) ∧
    (∀ e, ofGraph Registry.builtin g = .error e ↔
      First (fun l d => ∃ n, g.node? l = some n ∧ n.isPayload = false ∧ n.Lacks code d) e) ∧
    ∀ kind source target,
      ofGraph Registry.builtin g ≠ .error (.unresolvedTarget kind source target) := by
  have h := shows_of_result hg
  have herror : ∀ e, ofGraph Registry.builtin g = .error e ↔
      First (fun l d => ∃ n, g.node? l = some n ∧ n.isPayload = false ∧ n.Lacks code d) e := by
    intro e
    refine ofGraph_eq_error_iff.trans (First.congr ?_ e)
    intro l d
    constructor
    · rintro ⟨n, hn, hpay, hd⟩
      exact ⟨n, hn, hpay, (h.create_eq_error_iff hn).mp hd⟩
    · rintro ⟨n, hn, hpay, hd⟩
      exact ⟨n, hn, hpay, (h.create_eq_error_iff hn).mpr hd⟩
  refine ⟨by decide, ?_, ?_, herror, ?_⟩
  · intro op
    rw [Registry.contains, Registry.find?_builtin]
  · rw [exists_ofGraph_iff]
    constructor
    · intro hall l n hn hpay
      exact (h.exists_create_iff hn).mp (hall l n hn hpay)
    · intro hall l n hn hpay
      exact (h.exists_create_iff hn).mpr (hall l n hn hpay)
  · intro kind source target he
    obtain ⟨l, ⟨n, -, -, hlacks⟩, -⟩ := (herror _).mp he
    cases hlacks

/-- An addition, which no family makes, before a move without registers. -/
def unequippedBody : List Instruction := [.ofOpcode .addInt 1, .ofOpcode .move 0]

/-- The move stands second, but has the lower location. -/
theorem not_built_of_unequippedBody :
    ∃ g, (ofCode ⟨true⟩ unequippedBody).result = .ok g ∧
      ofGraph Registry.builtin g = .error (.invalidOperand .move .register) := by
  obtain ⟨g, hg⟩ : ∃ g, (ofCode ⟨true⟩ unequippedBody).result = .ok g := ⟨_, rfl⟩
  obtain ⟨n, hn, hi⟩ : ∃ n, g.node? 0 = some n ∧ n.instruction = .ofOpcode .move 0 := by
    cases hg
    exact ⟨_, rfl, rfl⟩
  have hopcode : n.opcode = .move := congrArg Instruction.opcode hi
  have hlacks : n.Lacks unequippedBody (.invalidOperand n.opcode .register) := by
    refine .registers ?_ ?_ ?_
    · rw [hopcode, hi]
      decide
    all_goals
      rw [hopcode]
      exact nofun
  rw [hopcode] at hlacks
  have hpay : n.isPayload = false := by
    rw [Node.isPayload, hopcode]
    rfl
  refine ⟨g, hg, ((built_iff_equipped hg).2.2.2.1 _).mpr ⟨0, ⟨n, hn, hpay, hlacks⟩, ?_⟩⟩
  exact fun q hq => absurd hq (Nat.not_lt_zero q)

end Program

end DalvikFlow
