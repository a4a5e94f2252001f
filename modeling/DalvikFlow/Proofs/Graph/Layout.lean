import DalvikFlow.Graph.Layout
import DalvikFlow.Proofs.Body.Fault

/-! A body laid out: where each instruction is placed, what the check of the widths finds, and what
an offset leads to. -/
namespace DalvikFlow

open Body

namespace Placed

/-- The instruction at a position of a body, where it starts. -/
def at? (code : List Instruction) (p : Nat) : Option Placed :=
  code[p]?.map fun i => ⟨start code p, i⟩

theorem at?_eq_some_iff {code : List Instruction} {p : Nat} {q : Placed} :
    at? code p = some q ↔ code[p]? = some q.instruction ∧ q.address = start code p := by
  obtain ⟨a, i⟩ := q
  rw [at?, Option.map_eq_some_iff]
  constructor
  · rintro ⟨j, hj, h⟩
    cases h
    exact ⟨hj, rfl⟩
  · rintro ⟨hj, rfl⟩
    exact ⟨i, hj, rfl⟩

end Placed

namespace Layout

variable {code : List Instruction}

theorem getElem?_placeFrom (address : Nat) (code : List Instruction) (p : Nat) :
    (placeFrom #[] address code).toList[p]? =
      code[p]?.map fun i => ⟨address + start code p, i⟩ := by
  induction code generalizing address p with
  | nil => simp [placeFrom]
  | cons i rest ih =>
      rw [toList_placeFrom_cons]
      cases p with
      | zero => simp
      | succ p =>
          simp only [List.getElem?_cons_succ, start_cons_succ]
          rw [ih]
          simp only [Nat.add_assoc]

theorem getElem?_placed (code : List Instruction) (p : Nat) :
    (ofCode code).placed[p]? = Placed.at? code p := by
  have h := getElem?_placeFrom 0 code p
  simp only [Nat.zero_add] at h
  rw [Placed.at?, ← h]
  exact Array.getElem?_toList.symm

theorem widthFault_iff {p : Nat} {d : Defect} :
    WidthFault code p d ↔ ∃ q, Placed.at? code p = some q ∧ q.defect? = some d := by
  constructor
  · intro hf
    cases hf with
    | @zero i hi hz =>
        refine ⟨⟨start code p, i⟩, Placed.at?_eq_some_iff.mpr ⟨hi, rfl⟩, ?_⟩
        exact if_pos (UInt16.toNat_inj.mp hz)
    | @overflow i hi hpos hend =>
        refine ⟨⟨start code p, i⟩, Placed.at?_eq_some_iff.mpr ⟨hi, rfl⟩, ?_⟩
        rw [start_succ hi] at hend
        have hne : i.units ≠ 0 := fun h => Nat.ne_of_gt hpos (UInt16.toNat_inj.mpr h)
        exact (if_neg hne).trans (if_pos hend)
  · rintro ⟨⟨a, i⟩, hq, hd⟩
    obtain ⟨hi, rfl⟩ := Placed.at?_eq_some_iff.mp hq
    unfold Placed.defect? at hd
    split at hd
    next hz =>
      cases hd
      exact .zero hi (UInt16.toNat_inj.mpr hz)
    next hz =>
      split at hd
      next hend =>
        cases hd
        refine .overflow hi (Nat.pos_of_ne_zero fun h => hz (UInt16.toNat_inj.mp h)) ?_
        rw [start_succ hi]
        exact hend
      next => cases hd

theorem defect?_eq_some_iff {d : Defect} :
    (ofCode code).defect? = some d ↔ First (WidthFault code) d := by
  rw [defect?, findSome?_eq_some_iff]
  refine First.congr (fun p e => ?_) d
  rw [widthFault_iff, Array.getElem?_toList, getElem?_placed]

theorem defect?_eq_none_iff :
    (ofCode code).defect? = none ↔ ∀ p d, ¬ WidthFault code p d := by
  constructor
  · intro h p d hf
    obtain ⟨d', hfirst⟩ := First.of_fault hf
    rw [← defect?_eq_some_iff, h] at hfirst
    cases hfirst
  · intro h
    cases hdef : (ofCode code).defect? with
    | none => rfl
    | some d =>
        obtain ⟨p, hp, -⟩ := defect?_eq_some_iff.mp hdef
        exact absurd hp (h p d)

section Target

variable (hw : Wide code)

include hw

theorem nodup_addresses : ((ofCode code).placed.toList.map Placed.address).Nodup := by
  refine nodup_map_of_getElem? fun p q a b ha hb hab => ?_
  rw [Array.getElem?_toList, getElem?_placed, Placed.at?_eq_some_iff] at ha hb
  have hp := (List.getElem?_eq_some_iff.mp ha.1).1
  have hq := (List.getElem?_eq_some_iff.mp hb.1).1
  exact hw.start_injective hp hq (ha.2.symm.trans (hab.trans hb.2))

theorem startingAt?_eq_some_iff {a : Nat} {q : Placed} :
    (ofCode code).startingAt? a = some q ↔ StartsAt code a q.instruction ∧ q.address = a := by
  have hfind : ∀ p, (ofCode code).index.find? a = some p ↔
      ∃ r, Placed.at? code p = some r ∧ r.address = a := by
    intro p
    refine (AddressIndex.find?_ofList_eq_some_iff (nodup_addresses hw)).trans ?_
    rw [List.getElem?_map, Option.map_eq_some_iff, Array.getElem?_toList, getElem?_placed]
  rw [startingAt?, Option.bind_eq_some_iff]
  constructor
  · rintro ⟨p, hp, hq⟩
    obtain ⟨r, hr, rfl⟩ := (hfind p).mp hp
    rw [getElem?_placed, hr] at hq
    cases hq
    obtain ⟨hi, ha⟩ := Placed.at?_eq_some_iff.mp hr
    exact ⟨⟨p, hi, congrArg Int.ofNat ha.symm⟩, rfl⟩
  · rintro ⟨⟨p, hi, ha⟩, rfl⟩
    have hq := Placed.at?_eq_some_iff.mpr ⟨hi, (Int.ofNat.inj ha).symm⟩
    exact ⟨p, (hfind p).mpr ⟨q, hq, rfl⟩, (getElem?_placed code p).trans hq⟩

/-- No instruction starts below zero, and none is found there. -/
theorem bind_startingAt?_eq_some_iff {a : Int} {q : Placed} :
    a.toNat?.bind (ofCode code).startingAt? = some q ↔
      StartsAt code a q.instruction ∧ (q.address : Int) = a := by
  cases a with
  | ofNat a =>
      refine (startingAt?_eq_some_iff hw).trans (and_congr_right fun _ => ?_)
      exact ⟨congrArg Int.ofNat, Int.ofNat.inj⟩
  | negSucc a =>
      constructor
      · intro h
        cases h
      · rintro ⟨-, h⟩
        cases h

theorem target?_eq_ok_iff {kind : TargetKind} {source : Nat} {distance : Int32} {q : Placed} :
    (ofCode code).target? kind source distance = .ok q ↔
      StartsAt code (source + distance.toInt) q.instruction ∧
        (q.address : Int) = source + distance.toInt := by
  rw [← bind_startingAt?_eq_some_iff hw, target?]
  split
  next h => rw [h, Except.ok.injEq, Option.some.injEq]
  next h => rw [h]; exact ⟨nofun, nofun⟩

theorem exists_target?_eq_ok (kind : TargetKind) {source : Nat} {distance : Int32}
    {t : Instruction} (h : StartsAt code (source + distance.toInt) t) :
    ∃ a, (ofCode code).target? kind source distance = .ok ⟨a, t⟩ := by
  have hpos := h
  obtain ⟨p, -, ha⟩ := hpos
  exact ⟨start code p, (target?_eq_ok_iff hw).mpr ⟨h, ha⟩⟩

theorem target?_eq_error_iff {kind : TargetKind} {source : Nat} {distance : Int32} {e : Error} :
    (ofCode code).target? kind source distance = .error e ↔
      (∀ t, ¬ StartsAt code (source + distance.toInt) t) ∧
        e = .unresolvedTarget kind source (source + distance.toInt) := by
  rw [target?]
  split
  next q h =>
    have hq := (bind_startingAt?_eq_some_iff hw).mp h
    exact ⟨nofun, fun hn => absurd hq.1 (hn.1 q.instruction)⟩
  next h =>
    have hnone : ∀ t, ¬ StartsAt code (source + distance.toInt) t := by
      rintro t ⟨p, hi, ha⟩
      have hsome := (bind_startingAt?_eq_some_iff hw (q := ⟨start code p, t⟩)).mpr
        ⟨⟨p, hi, ha⟩, ha⟩
      rw [h] at hsome
      cases hsome
    rw [Except.error.injEq]
    exact ⟨fun he => ⟨hnone, he.symm⟩, fun he => he.2.symm⟩

end Target

end Layout

end DalvikFlow
