import DalvikFlow.Proofs.Body.Edge
import DalvikFlow.Proofs.Body.WellFormed
import Mathlib.Logic.Equiv.Basic

/-! Bodies under other locations. Nothing that is looked up in a body depends on what its locations are,
and what is found there has its own location changed alike. -/
namespace DalvikFlow

/-- Errors of a reference, to no instruction or to the wrong kind. -/
inductive Error.OfReference : Error → Prop
  | unresolved {kind source target} : OfReference (.unresolvedTarget kind source target)
  | wrongKind {op source target} : OfReference (.malformed (.badReference op source target))
  | ontoPayload {key source target} : OfReference (.malformed (.caseOntoPayload key source target))

variable (σ : Equiv.Perm Nat)

def Instruction.relabel (i : Instruction) : Instruction := { i with location := σ i.location }

def Edge.relabel (e : Edge) : Edge := { e with target := σ e.target }

namespace Body

/-- The body with each location replaced, in the same order. -/
def relabel (code : List Instruction) : List Instruction := code.map (Instruction.relabel σ)

@[simp] theorem casesOf_relabel (i : Instruction) : casesOf (i.relabel σ) = casesOf i := rfl

@[simp] theorem length_relabel (code : List Instruction) :
    (relabel σ code).length = code.length := List.length_map _

@[simp] theorem getElem?_relabel (code : List Instruction) (p : Nat) :
    (relabel σ code)[p]? = code[p]?.map (Instruction.relabel σ) := List.getElem?_map

@[simp] theorem width_relabel (code : List Instruction) : width (relabel σ code) = width code := by
  induction code with
  | nil => rfl
  | cons i rest ih => exact congrArg (i.units.toNat + ·) ih

@[simp] theorem start_relabel (code : List Instruction) (p : Nat) :
    start (relabel σ code) p = start code p := by
  rw [start, relabel, ← List.map_take]
  exact width_relabel σ (code.take p)

@[simp] theorem wide_relabel {code : List Instruction} : Wide (relabel σ code) ↔ Wide code :=
  List.forall_mem_map

variable {σ} {code : List Instruction}

theorem getElem?_relabel_of_eq {p : Nat} {i : Instruction} (h : code[p]? = some i) :
    (relabel σ code)[p]? = some (i.relabel σ) := by
  rw [getElem?_relabel, h, Option.map_some]

/-- What starts at an address is what started there, under its new location. -/
theorem startsAt_relabel {a : Int} {i' : Instruction} :
    StartsAt (relabel σ code) a i' ↔ ∃ i, StartsAt code a i ∧ i.relabel σ = i' := by
  simp only [StartsAt, getElem?_relabel, Option.map_eq_some_iff, start_relabel]
  constructor
  · rintro ⟨p, ⟨i, hi, hii'⟩, ha⟩
    exact ⟨i, ⟨p, hi, ha⟩, hii'⟩
  · rintro ⟨i, ⟨p, hi, ha⟩, hii'⟩
    exact ⟨p, ⟨i, hi, hii'⟩, ha⟩

theorem StartsAt.relabel {a : Int} {i : Instruction} (h : StartsAt code a i) :
    StartsAt (relabel σ code) a (i.relabel σ) := startsAt_relabel.mpr ⟨i, h, rfl⟩

/-- Only for a replacement within the locations. -/
theorem Located.relabel (h : Located code) (hσ : ∀ l, σ l < code.length ↔ l < code.length) :
    Located (relabel σ code) := by
  have hmap : (Body.relabel σ code).map Instruction.location =
      (code.map Instruction.location).map σ := by
    rw [Body.relabel, List.map_map, List.map_map]
    rfl
  -- the numbers below the length go to each other, and each is reached from one of them
  have hrange : ((List.range code.length).map σ).Perm (List.range code.length) := by
    refine (List.perm_ext_iff_of_nodup ?_ List.nodup_range).mpr ?_
    · exact List.nodup_range.map σ.injective
    · intro k
      rw [List.mem_map, List.mem_range]
      constructor
      · rintro ⟨l, hl, rfl⟩
        exact (hσ l).mpr (List.mem_range.mp hl)
      · intro hk
        refine ⟨σ.symm k, List.mem_range.mpr ((hσ _).mp ?_), σ.apply_symm_apply k⟩
        rwa [σ.apply_symm_apply]
  rw [Located, hmap, length_relabel]
  exact (h.map σ).trans hrange

section Fault

variable {source : Nat} {e : Error}

theorem caseFault_relabel {c : SwitchCase} :
    CaseFault (relabel σ code) source c e ↔ CaseFault code source c e := by
  constructor
  · intro h
    cases h with
    | unresolved hnone => exact .unresolved fun t ht => hnone _ ht.relabel
    | ontoPayload ht hp =>
        obtain ⟨t, hu, rfl⟩ := startsAt_relabel.mp ht
        exact .ontoPayload (t := t) hu hp
  · intro h
    cases h with
    | unresolved hnone =>
        refine .unresolved ?_
        intro t' ht
        obtain ⟨t, ht, -⟩ := startsAt_relabel.mp ht
        exact hnone t ht
    | @ontoPayload t ht hp => exact .ontoPayload (t := t.relabel σ) ht.relabel hp

theorem caseFaultAt_relabel {payload : Instruction} {k : Nat} :
    CaseFaultAt (relabel σ code) source (payload.relabel σ) k e ↔
      CaseFaultAt code source payload k e := by
  simp only [CaseFaultAt, casesOf_relabel, caseFault_relabel]

theorem referenceFault_relabel {i : Instruction} :
    ReferenceFault (relabel σ code) source (i.relabel σ) e ↔ ReferenceFault code source i e := by
  constructor
  · intro h
    cases h with
    | unresolved hd hnone => exact .unresolved hd fun t ht => hnone _ ht.relabel
    | wrongKind hd ht hm =>
        obtain ⟨t, hu, rfl⟩ := startsAt_relabel.mp ht
        exact .wrongKind (t := t) hd hu hm
    | case hd ht hs hfirst =>
        obtain ⟨t, hu, rfl⟩ := startsAt_relabel.mp ht
        exact .case hd hu hs ((First.congr (fun _ _ => caseFaultAt_relabel) e).mp hfirst)
  · intro h
    cases h with
    | unresolved hd hnone =>
        refine .unresolved hd ?_
        intro t' ht
        obtain ⟨t, ht, -⟩ := startsAt_relabel.mp ht
        exact hnone t ht
    | @wrongKind d t hd ht hm => exact .wrongKind (t := t.relabel σ) hd ht.relabel hm
    | case hd ht hs hfirst =>
        exact .case hd ht.relabel hs ((First.congr (fun _ _ => caseFaultAt_relabel) e).mpr hfirst)

theorem referenceFaultAt_relabel {p : Nat} :
    ReferenceFaultAt (relabel σ code) p e ↔ ReferenceFaultAt code p e := by
  simp only [ReferenceFaultAt, getElem?_relabel, Option.map_eq_some_iff, start_relabel,
    exists_exists_and_eq_and, referenceFault_relabel]

/-- Such an error comes after all locations and widths are found to be right. -/
theorem firstFault_iff_of_reference (he : e.OfReference) :
    FirstFault code e ↔
      Located code ∧ (Wide code ∧ width code ≤ maxAddress) ∧ First (ReferenceFaultAt code) e := by
  rw [located_iff, wide_and_fits_iff]
  constructor
  · intro h
    cases h with
    | empty => cases he
    | location hfirst =>
        obtain ⟨p, hf, -⟩ := hfirst
        cases hf <;> cases he
    | width _ hfirst =>
        obtain ⟨p, hf, -⟩ := hfirst
        cases hf <;> cases he
    | reference hlocations hwidths hfirst => exact ⟨hlocations, hwidths, hfirst⟩
  · rintro ⟨hlocations, hwidths, hfirst⟩
    exact .reference hlocations hwidths hfirst

theorem firstFault_relabel (hlocated : Located code)
    (hσ : ∀ l, σ l < code.length ↔ l < code.length) (he : e.OfReference) :
    FirstFault (relabel σ code) e ↔ FirstFault code e := by
  have hfirst : First (ReferenceFaultAt (relabel σ code)) e ↔ First (ReferenceFaultAt code) e :=
    First.congr (fun _ _ => referenceFaultAt_relabel) e
  rw [firstFault_iff_of_reference he, firstFault_iff_of_reference he, wide_relabel, width_relabel,
    hfirst, iff_true_intro hlocated, iff_true_intro (hlocated.relabel hσ)]

end Fault

theorem wellFormed_relabel (hlocated : Located code)
    (hσ : ∀ l, σ l < code.length ↔ l < code.length) :
    WellFormed (relabel σ code) ↔ WellFormed code := by
  constructor
  · intro h
    have hw := (wide_relabel σ).mp h.wide
    refine ⟨?_, hlocated, hw, width_relabel σ code ▸ h.fits, (forall_refers_iff hw).mpr ?_⟩
    · rintro rfl
      exact h.nonempty rfl
    · intro p e hf
      exact (forall_refers_iff h.wide).mp h.refers p e (referenceFaultAt_relabel.mpr hf)
  · intro h
    have hw := (wide_relabel σ).mpr h.wide
    refine ⟨?_, hlocated.relabel hσ, hw, (width_relabel σ code).symm ▸ h.fits,
      (forall_refers_iff hw).mpr ?_⟩
    · exact fun hnil => h.nonempty (List.map_eq_nil_iff.mp hnil)
    · intro p e hf
      exact (forall_refers_iff h.wide).mp h.refers p e (referenceFaultAt_relabel.mp hf)

section Edges

/-- Different targets stay different, so the same edges are left out. -/
theorem firstPerTarget_relabel (seen : List Nat) (edges : List Edge) :
    firstPerTarget (seen.map σ) (edges.map (Edge.relabel σ)) =
      (firstPerTarget seen edges).map (Edge.relabel σ) := by
  induction edges generalizing seen with
  | nil => rfl
  | cons e rest ih =>
      have hseen : (e.relabel σ).target ∈ seen.map σ ↔ e.target ∈ seen :=
        List.mem_map_of_injective σ.injective
      rw [List.map_cons, firstPerTarget, firstPerTarget]
      by_cases h : e.target ∈ seen
      · rw [if_pos h, if_pos (hseen.mpr h), ih]
      · rw [if_neg h, if_neg (mt hseen.mp h), List.map_cons]
        exact congrArg _ (ih (e.target :: seen))

theorem kept_relabel (distinct : Bool) (edges : List Edge) :
    kept distinct (edges.map (Edge.relabel σ)) = (kept distinct edges).map (Edge.relabel σ) := by
  cases distinct with
  | false => rfl
  | true => exact firstPerTarget_relabel [] edges

theorem CaseEdge.relabel {source : Nat} {c : SwitchCase} {e : Edge}
    (h : CaseEdge code source c e) : CaseEdge (relabel σ code) source c (e.relabel σ) := by
  obtain ⟨t, ht, hp, rfl⟩ := h
  exact ⟨_, ht.relabel, hp, rfl⟩

theorem ReferenceEdges.relabel {distinct : Bool} {source : Nat} {i : Instruction}
    {refs : List Edge} (h : ReferenceEdges code distinct source i refs) :
    ReferenceEdges (relabel σ code) distinct source (i.relabel σ) (refs.map (Edge.relabel σ)) := by
  cases h with
  | absent hd => exact .absent hd
  | switch hd ht honto hcases =>
      rw [← kept_relabel]
      refine .switch hd ht.relabel honto ?_
      rw [List.forall₂_map_right_iff]
      exact hcases.imp fun _ _ => CaseEdge.relabel
  | data hd ht hi hp => exact .data hd ht.relabel hi hp
  | @branch d t hd ht hn hnd hm =>
      exact .branch (t := t.relabel σ) hd ht.relabel hn hnd hm

theorem continuation_relabel (p : Nat) (i : Instruction) :
    continuation (relabel σ code) p (i.relabel σ) =
      (continuation code p i).map (Edge.relabel σ) := by
  unfold continuation
  rw [getElem?_relabel]
  cases code[p + 1]? with
  | none => rfl
  | some next =>
      dsimp only [Option.map_some]
      by_cases h : i.opcode.canContinue = true ∧ next.opcode.isPayload = false
      · have h' : (i.relabel σ).opcode.canContinue = true ∧
            (next.relabel σ).opcode.isPayload = false := h
        rw [if_pos h', if_pos h]
        rfl
      · have h' : ¬ ((i.relabel σ).opcode.canContinue = true ∧
            (next.relabel σ).opcode.isPayload = false) := h
        rw [if_neg h', if_neg h]
        rfl

end Edges

end Body

end DalvikFlow
