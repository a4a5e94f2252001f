import DalvikFlow.Graph.Layout
import DalvikFlow.Proofs.Body.WellFormed

/-! The check of the locations. It fails with the first fault, and otherwise gives the inverse of
the order of the locations. -/
namespace DalvikFlow

namespace Location

open Body

/-- The slots hold the positions of the instructions looked at so far. -/
structure Filled (slots : Array (Option Nat)) (count : Nat) (seen : List Instruction) : Prop where
  size : slots.size = count
  holds : ∀ l p, slots[l]? = some (some p) ↔ l < count ∧ ∃ i, seen[p]? = some i ∧ i.location = l

theorem Filled.empty (count : Nat) : Filled (Array.replicate count none) count [] := by
  refine ⟨Array.size_replicate, ?_⟩
  intro l p
  simp [Array.getElem?_replicate]

theorem Filled.push {slots : Array (Option Nat)} {count : Nat} {seen : List Instruction}
    {i : Instruction} (h : Filled slots count seen) (hfree : slots[i.location]? = some none) :
    Filled (slots.setIfInBounds i.location (some seen.length)) count (seen ++ [i]) := by
  have hlt : i.location < slots.size := (Array.getElem?_eq_some_iff.mp hfree).1
  refine ⟨by rw [Array.size_setIfInBounds, h.size], ?_⟩
  intro l p
  rw [Array.getElem?_setIfInBounds]
  by_cases hl : i.location = l
  · subst hl
    have hnone : ∀ (q : Nat) (j : Instruction), seen[q]? = some j → j.location ≠ i.location := by
      intro q j hj hloc
      have hs := (h.holds i.location q).mpr ⟨h.size ▸ hlt, j, hj, hloc⟩
      rw [hfree] at hs
      cases hs
    simp only [if_true, hlt, Option.some.injEq, getElem?_concat_eq_some_iff]
    constructor
    · rintro rfl
      exact ⟨h.size ▸ hlt, i, .inr ⟨rfl, rfl⟩, rfl⟩
    · rintro ⟨-, j, hj | ⟨hp, -⟩, hloc⟩
      · exact absurd hloc (hnone p j hj)
      · exact hp.symm
  · rw [if_neg hl, h.holds]
    simp only [getElem?_concat_eq_some_iff]
    refine and_congr_right fun _ => exists_congr fun j => and_congr_left fun hloc => ?_
    constructor
    · exact .inl
    · rintro (hj | ⟨-, rfl⟩)
      · exact hj
      · exact absurd hloc hl

theorem locationFault_iff {code : List Instruction} {p : Nat} {i : Instruction} {d : Defect}
    (h : code[p]? = some i) :
    LocationFault code p d ↔
      (code.length ≤ i.location ∧ d = .locationOutOfRange i.location code.length) ∨
      (i.location < code.length ∧ (∃ q < p, ∃ j, code[q]? = some j ∧ j.location = i.location) ∧
        d = .duplicateLocation i.location) := by
  constructor
  · intro hf
    cases hf with
    | outOfRange hi hle =>
        cases h.symm.trans hi
        exact .inl ⟨hle, rfl⟩
    | duplicate hi hlt hq hj hloc =>
        cases h.symm.trans hi
        exact .inr ⟨hlt, ⟨_, hq, _, hj, hloc⟩, rfl⟩
  · rintro (⟨hle, rfl⟩ | ⟨hlt, ⟨q, hq, j, hj, hloc⟩, rfl⟩)
    · exact .outOfRange h hle
    · exact .duplicate h hlt hq hj hloc

/-- Filling the slots from some point on either finds the first fault from there on, or none. -/
theorem fillSlots_cases (rest seen : List Instruction) {slots : Array (Option Nat)}
    (h : Filled slots (seen ++ rest).length seen) :
    (∃ d, fillSlots slots seen.length rest = .error d ∧
      First (fun p => LocationFault (seen ++ rest) (seen.length + p)) d) ∨
    (∃ filled, fillSlots slots seen.length rest = .ok filled ∧
      Filled filled (seen ++ rest).length (seen ++ rest) ∧
      ∀ p d, ¬ LocationFault (seen ++ rest) (seen.length + p) d) := by
  induction rest generalizing seen slots with
  | nil =>
      refine .inr ⟨slots, rfl, by simpa using h, ?_⟩
      intro p d hf
      cases hf <;> simp_all
  | cons i rest ih =>
      have hi : (seen ++ i :: rest)[seen.length]? = some i := by simp
      unfold fillSlots
      split
      next hnone =>
        refine .inl ⟨_, rfl, 0, ?_, fun q hq => absurd hq (Nat.not_lt_zero q)⟩
        rw [h.size]
        exact .outOfRange hi (h.size ▸ Array.getElem?_eq_none_iff.mp hnone)
      next q hq =>
        obtain ⟨hlt, j, hj, hloc⟩ := (h.holds i.location q).mp hq
        have hql := (List.getElem?_eq_some_iff.mp hj).1
        refine .inl ⟨_, rfl, 0, ?_, fun q hq => absurd hq (Nat.not_lt_zero q)⟩
        exact .duplicate hi hlt hql (List.getElem?_append_left hql ▸ hj) hloc
      next hfree =>
        have hlt : i.location < (seen ++ i :: rest).length :=
          h.size ▸ (Array.getElem?_eq_some_iff.mp hfree).1
        -- the slot is free, so this instruction has no fault
        have hgood : ∀ d, ¬ LocationFault (seen ++ i :: rest) (seen.length + 0) d := by
          intro d hf
          rcases (locationFault_iff hi).mp hf with ⟨hle, -⟩ | ⟨-, ⟨q, hq, j, hj, hloc⟩, -⟩
          · exact absurd hlt (Nat.not_lt_of_le hle)
          · have hs := (h.holds i.location q).mpr
              ⟨hlt, j, List.getElem?_append_left hq ▸ hj, hloc⟩
            rw [hfree] at hs
            cases hs
        have hsplit : seen ++ i :: rest = (seen ++ [i]) ++ rest := by simp
        have hnext := ih (seen ++ [i]) (hsplit ▸ h.push hfree)
        rw [← hsplit, List.length_append, List.length_singleton] at hnext
        simp only [Nat.add_assoc, Nat.add_comm 1] at hnext
        rcases hnext with ⟨d, hd, hfirst⟩ | ⟨filled, hok, hfilled, hnone⟩
        · exact .inl ⟨d, hd, First.succ_iff.mpr (.inr ⟨hgood, hfirst⟩)⟩
        · refine .inr ⟨filled, hok, hfilled, ?_⟩
          intro p d
          cases p with
          | zero => exact hgood d
          | succ p => exact hnone p d

section Positions

variable {code : List Instruction}

theorem filledSlot_eq_ok_iff {s : Option Nat × Nat} {p : Nat} :
    filledSlot s = .ok p ↔ s.1 = some p := by
  obtain ⟨_ | q, l⟩ := s <;> simp [filledSlot]

/-- A body without faults fills all slots, so none of them is missing. -/
theorem positions_of_filled {filled : Array (Option Nat)} (hlocated : Located code)
    (hok : fillSlots (Array.replicate code.length none) 0 code = .ok filled)
    (hfilled : Filled filled code.length code) :
    ∃ ps, positions code = .ok ps ∧
      ∀ l p, ps[l]? = some p ↔ ∃ i : Instruction, code[p]? = some i ∧ i.location = l := by
  cases hps : filled.toList.zipIdx.mapM filledSlot with
  | error d =>
      obtain ⟨l, ⟨s, hs, hd⟩, -⟩ := mapM_eq_error_iff.mp hps
      obtain ⟨slot, hslot, rfl⟩ : ∃ slot, filled[l]? = some slot ∧ (slot, l) = s := by
        simpa [List.getElem?_zipIdx] using hs
      have hl : l < code.length := hfilled.size ▸ (Array.getElem?_eq_some_iff.mp hslot).1
      obtain ⟨p, i, hi, hloc⟩ := hlocated.exists_position hl
      rw [(hfilled.holds l p).mpr ⟨hl, i, hi, hloc⟩] at hslot
      cases hslot
      cases hd
  | ok ps =>
      refine ⟨ps, by rw [positions, hok]; exact hps, ?_⟩
      intro l p
      rw [getElem?_eq_some_iff_of_mapM hps]
      simp only [filledSlot_eq_ok_iff]
      constructor
      · rintro ⟨s, hs, hp⟩
        obtain ⟨slot, hslot, rfl⟩ : ∃ slot, filled[l]? = some slot ∧ (slot, l) = s := by
          simpa [List.getElem?_zipIdx] using hs
        cases hp
        exact ((hfilled.holds l p).mp hslot).2
      · rintro ⟨i, hi, hloc⟩
        have hslot := (hfilled.holds l p).mpr ⟨hloc ▸ hlocated.location_lt hi, i, hi, hloc⟩
        refine ⟨(some p, l), ?_, rfl⟩
        simpa [List.getElem?_zipIdx] using hslot

/-- Either the check finds the first fault, or it gives the position of each location. -/
theorem positions_cases (code : List Instruction) :
    (∃ d, positions code = .error d ∧ First (LocationFault code) d) ∨
    (∃ ps, positions code = .ok ps ∧ Located code ∧
      ∀ l p, ps[l]? = some p ↔ ∃ i : Instruction, code[p]? = some i ∧ i.location = l) := by
  rcases fillSlots_cases code [] (Filled.empty code.length) with
    ⟨d, hd, hfirst⟩ | ⟨filled, hok, hfilled, hnone⟩
  · refine .inl ⟨d, ?_, ?_⟩
    · exact bind_eq_error_iff.mpr (.inl hd)
    · simpa only [List.nil_append, List.length_nil, Nat.zero_add] using hfirst
  · have hlocated : Located code := located_iff.mpr (by simpa using hnone)
    obtain ⟨ps, hps, hinv⟩ := positions_of_filled hlocated hok hfilled
    exact .inr ⟨ps, hps, hlocated, hinv⟩

theorem positions_eq_error_iff {d : Defect} :
    positions code = .error d ↔ First (LocationFault code) d := by
  have hunique : ∀ p d d', LocationFault code p d → LocationFault code p d' → d = d' := by
    intro p d d' hd hd'
    obtain ⟨i, hi⟩ := hd.exists_instruction
    rcases (locationFault_iff hi).mp hd with ⟨hle, rfl⟩ | ⟨hlt, -, rfl⟩ <;>
      rcases (locationFault_iff hi).mp hd' with ⟨hle', rfl⟩ | ⟨hlt', -, rfl⟩
    · rfl
    · exact absurd hlt' (Nat.not_lt_of_le hle)
    · exact absurd hlt (Nat.not_lt_of_le hle')
    · rfl
  rcases positions_cases code with ⟨d', hd', hfirst⟩ | ⟨ps, hps, hlocated, -⟩
  · rw [hd', Except.error.injEq]
    constructor
    · rintro rfl
      exact hfirst
    · exact First.unique hunique hfirst
  · rw [hps]
    refine ⟨nofun, fun ⟨p, hp, _⟩ => ?_⟩
    exact absurd hp (located_iff.mp hlocated p d)

theorem exists_positions_iff : (∃ ps, positions code = .ok ps) ↔ Located code := by
  constructor
  · rintro ⟨ps, hps⟩
    rcases positions_cases code with ⟨d, hd, -⟩ | ⟨-, -, hlocated, -⟩
    · cases hd.symm.trans hps
    · exact hlocated
  · intro hlocated
    rcases positions_cases code with ⟨d, -, p, hp, -⟩ | ⟨ps, hps, -⟩
    · exact absurd hp (located_iff.mp hlocated p d)
    · exact ⟨ps, hps⟩

theorem positions_eq_ok_iff {ps : List Nat} :
    positions code = .ok ps ↔
      Located code ∧
        ∀ l p : Nat, ps[l]? = some p ↔ (code.map Instruction.location)[p]? = some l := by
  simp only [List.getElem?_map, Option.map_eq_some_iff]
  constructor
  · intro hps
    rcases positions_cases code with ⟨d, hd, -⟩ | ⟨ps', hps', hlocated, hinverse⟩
    · cases hd.symm.trans hps
    · cases hps'.symm.trans hps
      exact ⟨hlocated, hinverse⟩
  · rintro ⟨hlocated, hinverse⟩
    obtain ⟨ps', hps'⟩ := exists_positions_iff.mpr hlocated
    rcases positions_cases code with ⟨d, hd, -⟩ | ⟨ps'', hps'', -, hinverse'⟩
    · cases hd.symm.trans hps'
    · rw [hps'', Except.ok.injEq]
      refine List.ext_getElem? fun l => Option.ext fun p => ?_
      rw [hinverse, hinverse']

/-- The check accepts exactly the permutations of the numbers below the length, and what it gives is
the inverse permutation. That a location is missing is never found out, since then another one is
out of range or used twice. -/
theorem positions_invert (code : List Instruction) :
    ((∃ ps, positions code = .ok ps) ↔
      (code.map Instruction.location).Nodup ∧
        ∀ l ∈ code.map Instruction.location, l < code.length) ∧
    (∀ ps, positions code = .ok ps ↔
      (code.map Instruction.location).Perm (List.range code.length) ∧
        ∀ l p : Nat, ps[l]? = some p ↔ (code.map Instruction.location)[p]? = some l) ∧
    ∀ l, positions code ≠ .error (.missingLocation l) := by
  refine ⟨exists_positions_iff.trans located_iff_nodup, fun ps => positions_eq_ok_iff, ?_⟩
  intro l hl
  obtain ⟨p, hf, -⟩ := positions_eq_error_iff.mp hl
  cases hf

end Positions

end Location

end DalvikFlow
