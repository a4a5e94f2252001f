import Mathlib.Data.List.Forall2
import Mathlib.Data.List.Nodup

/-! Computations made in turn, where the first that fails decides, and lists without repetitions. -/
namespace DalvikFlow

/-- A fault at the first position that has one. -/
def First {ε : Type} (fault : Nat → ε → Prop) (e : ε) : Prop :=
  ∃ p, fault p e ∧ ∀ q < p, ∀ d, ¬ fault q d

theorem First.congr {ε : Type} {fault fault' : Nat → ε → Prop}
    (h : ∀ p e, fault p e ↔ fault' p e) (e : ε) : First fault e ↔ First fault' e := by
  simp only [First, h]

theorem First.unique {ε : Type} {fault : Nat → ε → Prop} {d e : ε}
    (hunique : ∀ p d e, fault p d → fault p e → d = e) (hd : First fault d) (he : First fault e) :
    d = e := by
  obtain ⟨p, hp, hbefore⟩ := hd
  obtain ⟨q, hq, hbefore'⟩ := he
  rcases Nat.lt_trichotomy p q with hlt | rfl | hgt
  · exact absurd hp (hbefore' p hlt d)
  · exact hunique p d e hp hq
  · exact absurd hq (hbefore q hgt e)

theorem First.of_fault {ε : Type} {fault : Nat → ε → Prop} {p : Nat} {e : ε} (h : fault p e) :
    ∃ d, First fault d := by
  induction p using Nat.strongRecOn generalizing e with
  | _ p ih =>
      by_cases earlier : ∃ q, q < p ∧ ∃ d, fault q d
      · obtain ⟨q, hq, d, hd⟩ := earlier
        exact ih q hq hd
      · refine ⟨e, p, h, ?_⟩
        intro q hq d hd
        exact earlier ⟨q, hq, d, hd⟩

/-- The position at the head is the first one, or has no fault. -/
theorem First.succ_iff {ε : Type} {fault : Nat → ε → Prop} {e : ε} :
    First fault e ↔ fault 0 e ∨ (∀ d, ¬ fault 0 d) ∧ First (fun p => fault (p + 1)) e := by
  constructor
  · rintro ⟨p, hp, hq⟩
    cases p with
    | zero => exact .inl hp
    | succ p =>
        refine .inr ⟨hq 0 (Nat.zero_lt_succ p), p, hp, ?_⟩
        intro q hlt
        exact hq (q + 1) (Nat.succ_lt_succ hlt)
  · rintro (h | ⟨h, p, hp, hq⟩)
    · exact ⟨0, h, fun q hq => absurd hq (Nat.not_lt_zero q)⟩
    · refine ⟨p + 1, hp, ?_⟩
      intro q hlt
      cases q with
      | zero => exact h
      | succ q => exact hq q (Nat.lt_of_succ_lt_succ hlt)

section Except

variable {α β ε : Type}

theorem bind_eq_ok_iff {x : Except ε α} {k : α → Except ε β} {b : β} :
    (x >>= k) = .ok b ↔ ∃ a, x = .ok a ∧ k a = .ok b := by
  cases x <;> simp [bind, Except.bind]

theorem bind_eq_error_iff {x : Except ε α} {k : α → Except ε β} {e : ε} :
    (x >>= k) = .error e ↔ x = .error e ∨ ∃ a, x = .ok a ∧ k a = .error e := by
  cases x <;> simp [bind, Except.bind]

theorem pure_eq_ok_iff {a b : α} : (pure a : Except ε α) = .ok b ↔ a = b := by
  simp [pure, Except.pure]

theorem pure_ne_error {a : α} {e : ε} : (pure a : Except ε α) ≠ .error e := nofun

theorem map_eq_ok_iff {x : Except ε α} {k : α → β} {b : β} :
    x.map k = .ok b ↔ ∃ a, x = .ok a ∧ k a = b := by
  cases x <;> simp [Except.map]

theorem map_eq_error_iff {x : Except ε α} {k : α → β} {e : ε} :
    x.map k = .error e ↔ x = .error e := by
  cases x <;> simp [Except.map]

theorem mapError_eq_ok_iff {ε' : Type} {x : Except ε α} {k : ε → ε'} {a : α} :
    x.mapError k = .ok a ↔ x = .ok a := by
  cases x <;> simp [Except.mapError]

theorem mapError_eq_error_iff {ε' : Type} {x : Except ε α} {k : ε → ε'} {e : ε'} :
    x.mapError k = .error e ↔ ∃ d, x = .error d ∧ k d = e := by
  cases x <;> simp [Except.mapError]

theorem mapError_bind {ε' : Type} {x : Except ε α} {k : α → Except ε β} {f : ε → ε'} :
    (x >>= k).mapError f = x.mapError f >>= fun a => (k a).mapError f := by
  cases x <;> rfl

theorem mapError_mapM {ε' : Type} {l : List α} {k : α → Except ε β} {f : ε → ε'} :
    (l.mapM k).mapError f = l.mapM fun a => (k a).mapError f := by
  induction l with
  | nil => rfl
  | cons a l ih =>
      simp only [List.mapM_cons, mapError_bind, ih]
      rfl

theorem mapM_eq_ok_iff {f : α → Except ε β} {l : List α} {r : List β} :
    l.mapM f = .ok r ↔ List.Forall₂ (fun a b => f a = .ok b) l r := by
  induction l generalizing r with
  | nil =>
      rw [List.mapM_nil, pure_eq_ok_iff, List.forall₂_nil_left_iff]
      exact eq_comm
  | cons a l ih =>
      simp only [List.mapM_cons, bind_eq_ok_iff, pure_eq_ok_iff, ih, List.forall₂_cons_left_iff]
      constructor
      · rintro ⟨b, hb, bs, hbs, rfl⟩
        exact ⟨b, bs, hb, hbs, rfl⟩
      · rintro ⟨b, bs, hb, hbs, rfl⟩
        exact ⟨b, hb, bs, hbs, rfl⟩

theorem getElem?_eq_some_iff_of_mapM {f : α → Except ε β} {l : List α} {r : List β}
    (h : l.mapM f = .ok r) {p : Nat} {b : β} :
    r[p]? = some b ↔ ∃ a, l[p]? = some a ∧ f a = .ok b := by
  have hall := mapM_eq_ok_iff.mp h
  clear h
  induction hall generalizing p with
  | nil => simp
  | cons hab _ ih =>
      cases p with
      | zero => simp [hab]
      | succ p => simpa using ih

theorem exists_mapM_eq_ok_iff {f : α → Except ε β} {l : List α} :
    (∃ r, l.mapM f = .ok r) ↔ ∀ a ∈ l, ∃ b, f a = .ok b := by
  simp only [mapM_eq_ok_iff]
  induction l with
  | nil => simp
  | cons a l ih =>
      simp only [List.forall₂_cons_left_iff, List.forall_mem_cons, ← ih]
      constructor
      · rintro ⟨_, b, bs, hb, hbs, rfl⟩
        exact ⟨⟨b, hb⟩, bs, hbs⟩
      · rintro ⟨⟨b, hb⟩, bs, hbs⟩
        exact ⟨_, b, bs, hb, hbs, rfl⟩

/-- The error is that of the first element that fails. -/
theorem mapM_eq_error_iff {f : α → Except ε β} {l : List α} {e : ε} :
    l.mapM f = .error e ↔ First (fun p d => ∃ a, l[p]? = some a ∧ f a = .error d) e := by
  induction l with
  | nil => simp [First, pure, Except.pure]
  | cons a l ih =>
      rw [List.mapM_cons, bind_eq_error_iff, First.succ_iff]
      simp only [bind_eq_error_iff, pure_ne_error, and_false, exists_false, or_false, ih,
        List.getElem?_cons_zero, List.getElem?_cons_succ, Option.some.injEq, exists_eq_left']
      cases f a <;> simp

/-- Elements that are left out have no error. -/
theorem mapM_filter_eq_error_iff {f : α → Except ε β} {p : α → Bool} {l : List α} {e : ε} :
    (l.filter p).mapM f = .error e ↔
      First (fun k d => ∃ a, l[k]? = some a ∧ p a = true ∧ f a = .error d) e := by
  induction l with
  | nil => simp [First, pure, Except.pure]
  | cons a l ih =>
      rw [First.succ_iff]
      simp only [List.getElem?_cons_zero, List.getElem?_cons_succ, Option.some.injEq,
        exists_eq_left', ← ih]
      by_cases hp : p a = true
      · rw [List.filter_cons_of_pos hp, List.mapM_cons, bind_eq_error_iff]
        simp only [bind_eq_error_iff, pure_ne_error, and_false, exists_false, or_false, hp]
        cases f a <;> simp
      · rw [List.filter_cons_of_neg hp]
        simp [hp]

theorem mapM_eq_ok_filterMap {f : α → Except ε β} {g : α → Option β} {l : List α}
    (h : ∀ a ∈ l, ∃ b, f a = .ok b ∧ g a = some b) : l.mapM f = .ok (l.filterMap g) := by
  induction l with
  | nil => rfl
  | cons a l ih =>
      obtain ⟨b, hf, hg⟩ := h a List.mem_cons_self
      rw [List.mapM_cons, hf, ih fun c hc => h c (List.mem_cons_of_mem a hc),
        List.filterMap_cons_some hg]
      rfl

end Except

theorem findSome?_eq_some_iff {α ε : Type} {f : α → Option ε} {l : List α} {e : ε} :
    l.findSome? f = some e ↔ First (fun p d => ∃ a, l[p]? = some a ∧ f a = some d) e := by
  induction l with
  | nil => simp [First]
  | cons a l ih =>
      rw [List.findSome?_cons, First.succ_iff]
      simp only [List.getElem?_cons_zero, List.getElem?_cons_succ, Option.some.injEq,
        exists_eq_left', ← ih]
      cases f a <;> simp

theorem getElem?_concat_eq_some_iff {α : Type} {l : List α} {a b : α} {p : Nat} :
    (l ++ [a])[p]? = some b ↔ l[p]? = some b ∨ p = l.length ∧ a = b := by
  rcases Nat.lt_trichotomy p l.length with hp | rfl | hp
  · rw [List.getElem?_append_left hp]
    simp [Nat.ne_of_lt hp]
  · simp
  · have hle : (l ++ [a]).length ≤ p := by
      rw [List.length_append]
      exact hp
    rw [List.getElem?_eq_none hle, List.getElem?_eq_none (Nat.le_of_lt hp)]
    simp [Nat.ne_of_gt hp]

theorem exists_mem_of_forall₂ {α β : Type} {R : α → β → Prop} {l : List α} {r : List β}
    (h : List.Forall₂ R l r) {a : α} (ha : a ∈ l) : ∃ b ∈ r, R a b := by
  induction h with
  | nil => cases ha
  | @cons a' b l r hab _ ih =>
      rcases List.mem_cons.mp ha with rfl | ha
      · exact ⟨b, List.mem_cons_self, hab⟩
      · obtain ⟨c, hc, hac⟩ := ih ha
        exact ⟨c, List.mem_cons_of_mem b hc, hac⟩

/-- A view that tells positions apart repeats nothing. -/
theorem nodup_map_of_getElem? {α β : Type} {l : List α} {f : α → β}
    (h : ∀ (p q : Nat) (a b : α), l[p]? = some a → l[q]? = some b → f a = f b → p = q) :
    (l.map f).Nodup := by
  rw [List.nodup_iff_getElem?_ne_getElem?]
  intro p q hpq hq heq
  rw [List.length_map] at hq
  have ha : l[p]? = some l[p] := List.getElem?_eq_getElem (Nat.lt_trans hpq hq)
  have hb : l[q]? = some l[q] := List.getElem?_eq_getElem hq
  rw [List.getElem?_map, List.getElem?_map, ha, hb] at heq
  exact Nat.ne_of_lt hpq (h p q _ _ ha hb (Option.some.inj heq))

/-- Where a view repeats nothing, the search for what an element looks like finds that element. -/
theorem find?_of_nodup_map {α β : Type} [DecidableEq β] {l : List α} {f : α → β} {a : α}
    (hnodup : (l.map f).Nodup) (ha : a ∈ l) : l.find? (fun b => f b = f a) = some a := by
  cases hfind : l.find? (fun b => f b = f a) with
  | none => exact absurd (decide_eq_true rfl) (List.find?_eq_none.mp hfind a ha)
  | some b =>
      have hfb : f b = f a := of_decide_eq_true (List.find?_some (p := fun b => f b = f a) hfind)
      rw [List.inj_on_of_nodup_map hnodup (List.mem_of_find?_eq_some hfind) ha hfb]

/-- Where only one row of several has any of what is kept, nothing else is kept. -/
theorem filter_flatten_of_getElem? {α : Type} {keep : α → Bool} {rows : List (List α)} {p : Nat}
    {row : List α} (hp : rows[p]? = some row)
    (hother : ∀ q other, rows[q]? = some other → q ≠ p → ∀ a ∈ other, keep a = false) :
    rows.flatten.filter keep = row.filter keep := by
  have hnone : ∀ other : List α, (∀ a ∈ other, keep a = false) → other.filter keep = [] := by
    intro other h
    exact List.filter_eq_nil_iff.mpr fun a ha => Bool.eq_false_iff.mp (h a ha)
  induction rows generalizing p with
  | nil => cases hp
  | cons first rest ih =>
      rw [List.flatten_cons, List.filter_append]
      cases p with
      | zero =>
          cases hp
          have hrest : rest.flatten.filter keep = [] := by
            apply hnone
            intro a ha
            obtain ⟨other, hmem, ha⟩ := List.mem_flatten.mp ha
            obtain ⟨q, hq⟩ := List.mem_iff_getElem?.mp hmem
            exact hother (q + 1) other hq (Nat.succ_ne_zero q) a ha
          rw [hrest, List.append_nil]
      | succ p =>
          rw [hnone first (hother 0 first rfl (Nat.succ_ne_zero p).symm), List.nil_append]
          apply ih hp
          intro q other hq hne
          exact hother (q + 1) other hq fun heq => hne (Nat.succ.inj heq)

theorem getElem?_filterMap_of_isSome {α β : Type} {f : α → Option β} {l : List α}
    (h : ∀ a ∈ l, (f a).isSome) (p : Nat) : (l.filterMap f)[p]? = l[p]?.bind f := by
  induction l generalizing p with
  | nil => rfl
  | cons a l ih =>
      obtain ⟨b, hb⟩ := Option.isSome_iff_exists.mp (h a List.mem_cons_self)
      rw [List.filterMap_cons_some hb]
      cases p with
      | zero => exact hb.symm
      | succ p => exact ih (fun c hc => h c (List.mem_cons_of_mem a hc)) p

theorem concat_prefix_concat_iff {α : Type} {before l : List α} {a b : α} :
    before ++ [b] <+: l ++ [a] ↔ (before = l ∧ b = a) ∨ before ++ [b] <+: l := by
  rw [List.prefix_concat_iff, ← List.concat_eq_append, ← List.concat_eq_append, List.concat_inj]

section Option

variable {α β : Type}

theorem mapM_eq_some_filterMap {f : α → Option β} {l : List α} (h : ∀ a ∈ l, (f a).isSome) :
    l.mapM f = some (l.filterMap f) := by
  induction l with
  | nil => rfl
  | cons a l ih =>
      obtain ⟨b, hb⟩ := Option.isSome_iff_exists.mp (h a List.mem_cons_self)
      rw [List.mapM_cons, hb, ih fun c hc => h c (List.mem_cons_of_mem a hc),
        List.filterMap_cons_some hb]
      rfl

/-- What is kept if every question has an answer, from the last one to the first. -/
def filter? (p : α → Option Bool) (l : List α) : Option (List α) :=
  l.foldrM (fun a kept => do return if ← p a then a :: kept else kept) []

theorem filter?_eq_some {p : α → Option Bool} {q : α → Bool} {l : List α}
    (h : ∀ a ∈ l, p a = some (q a)) : filter? p l = some (l.filter q) := by
  induction l with
  | nil => rfl
  | cons a l ih =>
      have hrest : filter? p l = some (l.filter q) := ih fun b hb => h b (List.mem_cons_of_mem a hb)
      rw [filter?] at hrest
      rw [filter?, List.foldrM_cons, hrest, Option.bind_eq_bind, Option.bind_some,
        h a List.mem_cons_self, List.filter_cons]
      rfl

end Option

section Repetition

variable {α : Type} [BEq α] [LawfulBEq α]

/-- What is dropped before or after repetitions are is the same. -/
theorem eraseDups_filter (p : α → Bool) (l : List α) :
    (l.filter p).eraseDups = l.eraseDups.filter p := by
  induction h : l.length using Nat.strongRecOn generalizing l with
  | _ n ih =>
      cases l with
      | nil => simp
      | cons a l =>
          have hlen : (l.filter fun b => !b == a).length < n := by
            have hle := List.length_filter_le (fun b => !b == a) l
            simp only [List.length_cons] at h
            omega
          have hrest := ih _ hlen (l.filter fun b => !b == a) rfl
          rw [List.eraseDups_cons]
          by_cases ha : p a = true
          · rw [List.filter_cons_of_pos ha, List.filter_cons_of_pos ha, List.eraseDups_cons,
              ← hrest, List.filter_filter, List.filter_filter]
            simp only [Bool.and_comm]
          · rw [List.filter_cons_of_neg ha, List.filter_cons_of_neg ha, ← hrest,
              List.filter_filter]
            congr 1
            refine List.filter_congr fun b _ => ?_
            by_cases hb : b = a
            · simp [hb, ha]
            · simp [hb]

theorem nodup_eraseDups (l : List α) : l.eraseDups.Nodup := by
  induction l with
  | nil => simp
  | cons a l ih =>
      rw [List.eraseDups_cons, eraseDups_filter, List.nodup_cons]
      refine ⟨?_, ih.filter _⟩
      simp

theorem filter_of_notMem {a : α} {l : List α} (ha : a ∉ l) : (l.filter fun b => !b == a) = l := by
  refine List.filter_eq_self.mpr fun b hb => ?_
  have hne : b ≠ a := fun heq => ha (heq ▸ hb)
  simp [hne]

theorem eraseDups_of_nodup {l : List α} (h : l.Nodup) : l.eraseDups = l := by
  induction l with
  | nil => rfl
  | cons a l ih =>
      obtain ⟨ha, hl⟩ := List.nodup_cons.mp h
      rw [List.eraseDups_cons, filter_of_notMem ha, ih hl]

/-- A view of a list without repetitions may repeat some, but nothing new. -/
theorem eraseDups_filterMap_eraseDups {β : Type} [BEq β] [LawfulBEq β] (f : α → Option β)
    (l : List α) : (l.eraseDups.filterMap f).eraseDups = (l.filterMap f).eraseDups := by
  induction l with
  | nil => simp
  | cons a l ih =>
      rw [List.eraseDups_cons, eraseDups_filter]
      cases ha : f a with
      | none =>
          rw [List.filterMap_cons_none ha, List.filterMap_cons_none ha, ← ih,
            List.filterMap_filter]
          congr 1
          refine List.filterMap_congr fun b _ => ?_
          by_cases hb : b = a
          · simp [hb, ha]
          · simp [hb]
      | some c =>
          rw [List.filterMap_cons_some ha, List.filterMap_cons_some ha, List.eraseDups_cons,
            List.eraseDups_cons, eraseDups_filter _ (l.filterMap f), ← ih,
            ← eraseDups_filter _ (l.eraseDups.filterMap f), List.filter_filterMap,
            List.filter_filterMap, List.filterMap_filter]
          congr 2
          refine List.filterMap_congr fun b _ => ?_
          by_cases hb : b = a
          · simp [hb, ha, Option.filter]
          · simp [hb]

theorem eraseDups_map {β : Type} [BEq β] [LawfulBEq β] {f : α → β} (hf : Function.Injective f)
    (l : List α) : (l.map f).eraseDups = l.eraseDups.map f := by
  induction l with
  | nil => rfl
  | cons a l ih =>
      rw [List.map_cons, List.eraseDups_cons, List.eraseDups_cons, List.map_cons, eraseDups_filter,
        eraseDups_filter, ih, List.filter_map]
      congr 2
      refine List.filter_congr fun b _ => ?_
      rw [Function.comp_apply, Bool.eq_iff_iff]
      simp [hf.eq_iff]

theorem eraseDups_eq_singleton {a : α} {l : List α} (hmem : a ∈ l) (h : ∀ b ∈ l, b = a) :
    l.eraseDups = [a] := by
  cases l with
  | nil => cases hmem
  | cons b rest =>
      obtain rfl := h b List.mem_cons_self
      have hrest : rest.filter (fun c => !c == b) = [] := by
        rw [List.filter_eq_nil_iff]
        intro c hc
        simp [h c (List.mem_cons_of_mem b hc)]
      rw [List.eraseDups_cons, hrest, List.eraseDups_nil]

end Repetition

end DalvikFlow
