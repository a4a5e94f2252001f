import DalvikFlow.Graph.Basic
import DalvikFlow.Proofs.Body.Fault

/-! The edges that leave an instruction of a body, read off the body alone. -/
namespace DalvikFlow

namespace Opcode

/-- Its offset leads to data. -/
def refersToData (op : Opcode) : Bool := op.isSwitch || op = .fillArrayData

theorem refersToData_eq_false_iff {op : Opcode} :
    op.refersToData = false ↔ op.isSwitch = false ∧ op ≠ .fillArrayData := by
  simp [refersToData]

end Opcode

namespace Body

/-- The edge of one case of a switch that starts at an address. -/
def CaseEdge (code : List Instruction) (source : Nat) (c : SwitchCase) (e : Edge) : Prop :=
  ∃ t, StartsAt code (source + c.offset.toInt) t ∧ t.opcode.isPayload = false ∧
    e = ⟨t.location, .switchCase c.key⟩

/-- Without the edges whose target is seen before, or has an edge before them. -/
def firstPerTarget (seen : List Nat) : List Edge → List Edge
  | [] => []
  | e :: rest =>
    if e.target ∈ seen then firstPerTarget seen rest
    else e :: firstPerTarget (e.target :: seen) rest

/-- What is kept of the edges of all cases: with `distinct` one for each target. -/
def kept (distinct : Bool) (edges : List Edge) : List Edge :=
  if distinct then firstPerTarget [] edges else edges

/-- The edges that the operand of an instruction that starts at an address implies. -/
inductive ReferenceEdges (code : List Instruction) (distinct : Bool) (source : Nat)
    (i : Instruction) : List Edge → Prop
  | absent : i.offset? = none → ReferenceEdges code distinct source i []
  | switch {d t edges} : i.offset? = some d → StartsAt code (source + d.toInt) t →
      SwitchOnto i.opcode t.opcode → List.Forall₂ (CaseEdge code source) (casesOf t) edges →
      ReferenceEdges code distinct source i (kept distinct edges)
  | data {d t} : i.offset? = some d → StartsAt code (source + d.toInt) t →
      i.opcode = .fillArrayData → t.opcode = .arrayPayload →
      ReferenceEdges code distinct source i []
  | branch {d t} : i.offset? = some d → StartsAt code (source + d.toInt) t →
      ¬ SwitchOnto i.opcode t.opcode → ¬ (i.opcode = .fillArrayData ∧ t.opcode = .arrayPayload) →
      MayRefer i.opcode t.opcode →
      ReferenceEdges code distinct source i [⟨t.location, .branch⟩]

/-- The edge to the next instruction in code order, for one that can continue into code. -/
def continuation (code : List Instruction) (p : Nat) (i : Instruction) : List Edge :=
  match code[p + 1]? with
  | some next =>
    if i.opcode.canContinue = true ∧ next.opcode.isPayload = false then
      [⟨next.location, .fallthrough⟩]
    else []
  | none => []

theorem switchOnto_iff {s t : Opcode} : SwitchOnto s t ↔ s.switchPayload? = some t := by
  constructor
  · intro h
    cases h <;> rfl
  · intro h
    unfold Opcode.switchPayload? at h
    split at h
    next => cases h; exact .packed
    next => cases h; exact .sparse
    next => cases h

theorem SwitchOnto.isSwitch {s t : Opcode} (h : SwitchOnto s t) : s.isSwitch = true := by
  cases h <;> rfl

theorem SwitchOnto.isPayload_left {s t : Opcode} (h : SwitchOnto s t) : s.isPayload = false := by
  cases h <;> rfl

theorem SwitchOnto.isSwitchPayload {s t : Opcode} (h : SwitchOnto s t) :
    t.isSwitchPayload = true := by
  cases h <;> rfl

theorem SwitchOnto.canContinue {s t : Opcode} (h : SwitchOnto s t) : s.canContinue = true := by
  cases h <;> rfl

theorem mayRefer_iff {s t : Opcode} :
    MayRefer s t ↔ SwitchOnto s t ∨ (s = .fillArrayData ∧ t = .arrayPayload) ∨
      (s.isSwitch = false ∧ s ≠ .fillArrayData ∧ t.isPayload = false) := by
  constructor
  · intro h
    cases h with
    | switch h => exact .inl h
    | data => exact .inr (.inl ⟨rfl, rfl⟩)
    | code hs hd ht => exact .inr (.inr ⟨hs, hd, ht⟩)
  · rintro (h | ⟨rfl, rfl⟩ | ⟨hs, hd, ht⟩)
    · exact .switch h
    · exact .data
    · exact .code hs hd ht

theorem CaseEdge.isSwitchCase {code : List Instruction} {source : Nat} {c : SwitchCase} {e : Edge}
    (h : CaseEdge code source c e) : e.via.isSwitchCase = true := by
  obtain ⟨t, -, -, rfl⟩ := h
  rfl

theorem ReferenceEdges.of_switch {code : List Instruction} (hw : Wide code) {distinct : Bool}
    {source : Nat} {i t : Instruction} {d : Int32} {refs : List Edge}
    (h : ReferenceEdges code distinct source i refs) (hs : i.opcode.isSwitch = true)
    (hd : i.offset? = some d) (ht : StartsAt code (source + d.toInt) t) :
    SwitchOnto i.opcode t.opcode ∧
      ∃ edges, List.Forall₂ (CaseEdge code source) (casesOf t) edges ∧
        refs = kept distinct edges := by
  cases h with
  | absent habsent =>
      rw [hd] at habsent
      cases habsent
  | switch hd' ht' honto hcases =>
      cases hd.symm.trans hd'
      cases hw.startsAt_unique ht ht'
      exact ⟨honto, _, hcases, rfl⟩
  | data hd' ht' hi hp =>
      rw [hi] at hs
      cases hs
  | branch hd' ht' hn hnd hm =>
      rcases mayRefer_iff.mp hm with honto | hdata | ⟨hcode, -⟩
      · exact absurd honto hn
      · exact absurd hdata hnd
      · rw [hs] at hcode
        cases hcode

/-- An instruction that refers to code has a branch if it has an offset. -/
theorem ReferenceEdges.of_code {code : List Instruction} {distinct : Bool} {source : Nat}
    {i : Instruction} {refs : List Edge} (h : ReferenceEdges code distinct source i refs)
    (hcode : i.opcode.refersToData = false) :
    (i.offset? = none ∧ refs = []) ∨
      ∃ d t, i.offset? = some d ∧ StartsAt code (source + d.toInt) t ∧
        refs = [⟨t.location, .branch⟩] := by
  obtain ⟨hs, hf⟩ := Opcode.refersToData_eq_false_iff.mp hcode
  cases h with
  | absent hd => exact .inl ⟨hd, rfl⟩
  | switch _ _ honto _ =>
      rw [honto.isSwitch] at hs
      cases hs
  | data _ _ hi _ => exact absurd hi hf
  | branch hd ht _ _ _ => exact .inr ⟨_, _, hd, ht, rfl⟩

theorem mem_continuation_iff {code : List Instruction} {p : Nat} {i : Instruction} {e : Edge} :
    e ∈ continuation code p i ↔ i.opcode.canContinue = true ∧
      ∃ next, code[p + 1]? = some next ∧ next.opcode.isPayload = false ∧
        e = ⟨next.location, .fallthrough⟩ := by
  unfold continuation
  cases code[p + 1]? with
  | none => simp
  | some next =>
      by_cases h : i.opcode.canContinue = true ∧ next.opcode.isPayload = false
      · simp [h]
      · dsimp only
        rw [if_neg h]
        constructor
        · intro he
          cases he
        · rintro ⟨hi, _, hnext, hcode, -⟩
          cases hnext
          exact absurd ⟨hi, hcode⟩ h

theorem mem_firstPerTarget {seen : List Nat} {edges : List Edge} {e : Edge}
    (h : e ∈ firstPerTarget seen edges) : e ∈ edges := by
  induction edges generalizing seen with
  | nil => exact h
  | cons d rest ih =>
      unfold firstPerTarget at h
      split at h
      next => exact List.mem_cons_of_mem _ (ih h)
      next =>
        rcases List.mem_cons.mp h with rfl | h
        · exact List.mem_cons_self
        · exact List.mem_cons_of_mem _ (ih h)

theorem exists_mem_firstPerTarget {seen : List Nat} {edges : List Edge} {e : Edge}
    (h : e ∈ edges) (hseen : e.target ∉ seen) :
    ∃ d ∈ firstPerTarget seen edges, d.target = e.target := by
  induction edges generalizing seen with
  | nil => cases h
  | cons d rest ih =>
      unfold firstPerTarget
      rcases List.mem_cons.mp h with rfl | hrest
      · rw [if_neg hseen]
        exact ⟨e, List.mem_cons_self, rfl⟩
      · split
        next => exact ih hrest hseen
        next =>
          by_cases heq : e.target = d.target
          · exact ⟨d, List.mem_cons_self, heq.symm⟩
          · obtain ⟨b, hb, hbt⟩ := ih hrest (List.not_mem_cons_of_ne_of_not_mem heq hseen)
            exact ⟨b, List.mem_cons_of_mem _ hb, hbt⟩

theorem mem_of_mem_kept {distinct : Bool} {edges : List Edge} {e : Edge}
    (h : e ∈ kept distinct edges) : e ∈ edges := by
  cases distinct with
  | false => exact h
  | true => exact mem_firstPerTarget h

theorem exists_mem_kept (distinct : Bool) {edges : List Edge} {e : Edge} (h : e ∈ edges) :
    ∃ d ∈ kept distinct edges, d.target = e.target := by
  cases distinct with
  | false => exact ⟨e, h, rfl⟩
  | true => exact exists_mem_firstPerTarget h List.not_mem_nil

theorem exists_caseEdge_of_mem_kept {code : List Instruction} {source : Nat} {distinct : Bool}
    {cs : List SwitchCase} {edges : List Edge} {e : Edge}
    (h : List.Forall₂ (CaseEdge code source) cs edges) (he : e ∈ kept distinct edges) :
    ∃ c ∈ cs, CaseEdge code source c e :=
  exists_mem_of_forall₂ h.flip (mem_of_mem_kept he)

/-- What an operand refers to is executed, and is not what merely comes next. -/
theorem ReferenceEdges.lands {code : List Instruction} {distinct : Bool} {source : Nat}
    {i : Instruction} {refs : List Edge} (h : ReferenceEdges code distinct source i refs) {e : Edge}
    (he : e ∈ refs) :
    e.via ≠ .fallthrough ∧
      ∃ a t, StartsAt code a t ∧ t.opcode.isPayload = false ∧ e.target = t.location := by
  cases h with
  | absent => cases he
  | switch _ _ _ hcases =>
      obtain ⟨c, -, t, ht, hcode, rfl⟩ := exists_caseEdge_of_mem_kept hcases he
      exact ⟨nofun, _, t, ht, hcode, rfl⟩
  | data => cases he
  | @branch d t _ ht hs hd hm =>
      obtain rfl := List.mem_singleton.mp he
      refine ⟨nofun, _, t, ht, ?_, rfl⟩
      rcases mayRefer_iff.mp hm with honto | hdata | ⟨-, -, hcode⟩
      · exact absurd honto hs
      · exact absurd hdata hd
      · exact hcode

theorem eraseDupsBy_eq_firstPerTarget (edges : List Edge) (seen : List Nat) :
    (edges.filter fun e => !seen.contains e.target).eraseDupsBy (fun a b => a.target == b.target) =
      firstPerTarget seen edges := by
  induction edges generalizing seen with
  | nil => rfl
  | cons e rest ih =>
      unfold firstPerTarget
      by_cases h : e.target ∈ seen
      · rw [if_pos h, ← ih, List.filter_cons_of_neg (by simp [h])]
      · rw [if_neg h, ← ih, List.filter_cons_of_pos (by simp [h]), List.eraseDupsBy_cons,
          List.filter_filter]
        congr 2
        refine List.filter_congr fun b _ => ?_
        simp [Bool.not_or, Bool.beq_eq_decide_eq]

end Body

end DalvikFlow
