import DalvikFlow.Proofs.Body.Fault
import Mathlib.Data.List.Perm.Subperm

/-! A body is well formed exactly if it has no fault. -/
namespace DalvikFlow.Body

variable {code : List Instruction}

theorem Located.location_lt (h : Located code) {p : Nat} {i : Instruction}
    (hi : code[p]? = some i) : i.location < code.length := by
  have hmem := h.subset (List.mem_map_of_mem (List.mem_of_getElem? hi))
  exact List.mem_range.mp hmem

theorem Located.position_unique (h : Located code) {p q : Nat} {i j : Instruction}
    (hi : code[p]? = some i) (hj : code[q]? = some j) (hloc : i.location = j.location) : p = q := by
  have hnodup : (code.map Instruction.location).Nodup := h.nodup_iff.mpr List.nodup_range
  have hp : p < (code.map Instruction.location).length := by
    rw [List.length_map]
    exact (List.getElem?_eq_some_iff.mp hi).1
  refine (List.getElem?_inj hp hnodup).mp ?_
  rw [List.getElem?_map, List.getElem?_map, hi, hj, Option.map_some, Option.map_some, hloc]

theorem Located.exists_position (h : Located code) {l : Nat} (hl : l < code.length) :
    ∃ (p : Nat) (i : Instruction), code[p]? = some i ∧ i.location = l := by
  obtain ⟨i, hmem, hloc⟩ := List.mem_map.mp (h.symm.subset (List.mem_range.mpr hl))
  obtain ⟨p, hp⟩ := List.mem_iff_getElem?.mp hmem
  exact ⟨p, i, hp, hloc⟩

/-- As many different numbers below the length as there are instructions are all of them. -/
theorem located_iff_nodup :
    Located code ↔ (code.map Instruction.location).Nodup ∧
      ∀ l ∈ code.map Instruction.location, l < code.length := by
  constructor
  · intro h
    exact ⟨h.nodup_iff.mpr List.nodup_range, fun l hl => List.mem_range.mp (h.subset hl)⟩
  · rintro ⟨hnodup, hin⟩
    have hsub : code.map Instruction.location ⊆ List.range code.length := fun l hl =>
      List.mem_range.mpr (hin l hl)
    refine (List.subperm_of_subset hnodup hsub).perm_of_length_le ?_
    exact Nat.le_of_eq (List.length_range.trans (List.length_map _).symm)

theorem located_iff : Located code ↔ ∀ p d, ¬ LocationFault code p d := by
  constructor
  · intro h p d hf
    cases hf with
    | outOfRange hi hle => exact absurd (h.location_lt hi) (Nat.not_lt_of_le hle)
    | duplicate hi hlt hq hj hloc => exact Nat.ne_of_lt hq (h.position_unique hj hi hloc)
  · intro h
    have hin : ∀ (p : Nat) (i : Instruction), code[p]? = some i → i.location < code.length := by
      intro p i hi
      exact Nat.lt_of_not_le fun hle => h p _ (.outOfRange hi hle)
    have hnodup : (code.map Instruction.location).Nodup := by
      refine nodup_map_of_getElem? fun p q i j hi hj hloc => ?_
      rcases Nat.lt_trichotomy p q with hlt | heq | hgt
      · exact absurd (.duplicate hj (hin q j hj) hlt hi hloc) (h q _)
      · exact heq
      · exact absurd (.duplicate hi (hin p i hi) hgt hj hloc.symm) (h p _)
    refine located_iff_nodup.mpr ⟨hnodup, ?_⟩
    intro l hl
    obtain ⟨i, hmem, rfl⟩ := List.mem_map.mp hl
    obtain ⟨p, hi⟩ := List.mem_iff_getElem?.mp hmem
    exact hin p i hi

/-- The whole body fits as soon as its last instruction does. -/
theorem wide_and_fits_iff :
    Wide code ∧ width code ≤ maxAddress ↔ ∀ p d, ¬ WidthFault code p d := by
  constructor
  · rintro ⟨hw, hfits⟩ p d hf
    cases hf with
    | zero hi hz => exact absurd (hw _ (List.mem_of_getElem? hi)) (hz ▸ Nat.lt_irrefl 0)
    | overflow hi _ hend =>
        exact absurd (Nat.le_trans (start_le_width code _) hfits) (Nat.not_le_of_lt hend)
  · intro h
    have hw : Wide code := by
      intro i hmem
      obtain ⟨p, hi⟩ := List.mem_iff_getElem?.mp hmem
      exact Nat.pos_of_ne_zero fun hz => h p _ (.zero hi hz)
    refine ⟨hw, ?_⟩
    rcases List.eq_nil_or_concat code with rfl | ⟨before, i, rfl⟩
    · exact Nat.zero_le _
    · have hi : (before.concat i)[before.length]? = some i := by simp
      refine Nat.le_of_not_lt fun hend => h before.length _ (.overflow hi ?_ ?_)
      · exact hw i (List.mem_of_getElem? hi)
      · rwa [← start_length, List.length_concat] at hend

theorem refers_iff (hw : Wide code) {p : Nat} {i : Instruction} :
    (∀ d, i.offset? = some d →
      ∃ t, StartsAt code (start code p + d.toInt) t ∧ MayRefer i.opcode t.opcode ∧
        (SwitchOnto i.opcode t.opcode → ∀ c ∈ casesOf t, CaseLands code (start code p) c)) ↔
      ∀ e, ¬ ReferenceFault code (start code p) i e := by
  constructor
  · intro h e hf
    cases hf with
    | unresolved hd hnone =>
        obtain ⟨t, ht, -⟩ := h _ hd
        exact hnone t ht
    | wrongKind hd ht hm =>
        obtain ⟨t, ht', hm', -⟩ := h _ hd
        cases hw.startsAt_unique ht ht'
        exact hm hm'
    | case hd ht hs hfirst =>
        obtain ⟨t, ht', -, hcases⟩ := h _ hd
        cases hw.startsAt_unique ht ht'
        obtain ⟨k, ⟨c, hc, hcf⟩, -⟩ := hfirst
        obtain ⟨u, hu, hcode⟩ := hcases hs c (List.mem_of_getElem? hc)
        cases hcf with
        | unresolved hnone => exact hnone u hu
        | ontoPayload hu' hp =>
            cases hw.startsAt_unique hu hu'
            rw [hcode] at hp
            cases hp
  · intro h d hd
    by_cases hstart : ∃ t, StartsAt code (start code p + d.toInt) t
    · obtain ⟨t, ht⟩ := hstart
      refine ⟨t, ht, ?_, ?_⟩
      · by_contra hm
        exact h _ (.wrongKind hd ht hm)
      · intro hs c hc
        obtain ⟨k, hk⟩ := List.mem_iff_getElem?.mp hc
        by_contra hlands
        -- a case that does not land has a fault, so there is a first one
        have hcf : ∃ e, CaseFault code (start code p) c e := by
          by_cases hu : ∃ u, StartsAt code (start code p + c.offset.toInt) u
          · obtain ⟨u, hu⟩ := hu
            refine ⟨_, .ontoPayload hu ?_⟩
            by_contra hp
            exact hlands ⟨u, hu, Bool.eq_false_iff.mpr hp⟩
          · exact ⟨_, .unresolved (not_exists.mp hu)⟩
        obtain ⟨e, he⟩ := hcf
        have hat : CaseFaultAt code (start code p) t k e := ⟨c, hk, he⟩
        obtain ⟨e', hfirst⟩ := First.of_fault hat
        exact h e' (.case hd ht hs hfirst)
    · exact absurd (.unresolved hd (not_exists.mp hstart)) (h _)

theorem forall_refers_iff (hw : Wide code) :
    (∀ p i d, code[p]? = some i → i.offset? = some d →
      ∃ t, StartsAt code (start code p + d.toInt) t ∧ MayRefer i.opcode t.opcode ∧
        (SwitchOnto i.opcode t.opcode → ∀ c ∈ casesOf t, CaseLands code (start code p) c)) ↔
      ∀ p e, ¬ ReferenceFaultAt code p e := by
  constructor
  · rintro h p e ⟨i, hi, hf⟩
    exact (refers_iff hw).mp (fun d hd => h p i d hi hd) e hf
  · intro h p i d hi hd
    exact (refers_iff hw).mpr (fun e hf => h p e ⟨i, hi, hf⟩) d hd

theorem wellFormed_iff : WellFormed code ↔ ∀ e, ¬ FirstFault code e := by
  constructor
  · intro h e hf
    cases hf with
    | empty hnil => exact h.nonempty hnil
    | location hfirst =>
        obtain ⟨p, hp, -⟩ := hfirst
        exact located_iff.mp h.located p _ hp
    | width _ hfirst =>
        obtain ⟨p, hp, -⟩ := hfirst
        exact wide_and_fits_iff.mp ⟨h.wide, h.fits⟩ p _ hp
    | reference _ _ hfirst =>
        obtain ⟨p, hp, -⟩ := hfirst
        exact (forall_refers_iff h.wide).mp h.refers p e hp
  · intro h
    have hlocations : ∀ p d, ¬ LocationFault code p d := by
      intro p d hf
      obtain ⟨d', hfirst⟩ := First.of_fault hf
      exact h _ (.location hfirst)
    have hwidths : ∀ p d, ¬ WidthFault code p d := by
      intro p d hf
      obtain ⟨d', hfirst⟩ := First.of_fault hf
      exact h _ (.width hlocations hfirst)
    obtain ⟨hwide, hfits⟩ := wide_and_fits_iff.mpr hwidths
    refine ⟨fun hnil => h _ (.empty hnil), located_iff.mpr hlocations, hwide, hfits, ?_⟩
    refine (forall_refers_iff hwide).mpr ?_
    intro p e hf
    obtain ⟨e', hfirst⟩ := First.of_fault hf
    exact h e' (.reference hlocations hwidths hfirst)

end DalvikFlow.Body
