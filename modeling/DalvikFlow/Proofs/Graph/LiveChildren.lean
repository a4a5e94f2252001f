import DalvikFlow.Proofs.Graph.Children

/-! The children of a node at some addresses: which they are, and in which order they come. Asked for by
the addresses of all children, they are the distinct children with one address each. -/
namespace DalvikFlow

section Selection

variable {α : Type} [BEq α]

/-- The elements of a list that are kept, each once, in the order in which the list first has them. -/
structure Selects (l : List α) (keep : α → Prop) (selected : List α) : Prop where
  mem_iff : ∀ a, a ∈ selected ↔ a ∈ l ∧ keep a
  ordered : selected.Pairwise fun a b => l.idxOf a < l.idxOf b

/-- Dropping repetitions leaves each element where the list first has it. -/
theorem pairwise_idxOf_eraseDups [LawfulBEq α] (l : List α) :
    l.eraseDups.Pairwise fun a b => l.idxOf a < l.idxOf b := by
  induction l with
  | nil => simp
  | cons a l ih =>
      rw [List.eraseDups_cons, eraseDups_filter, List.pairwise_cons]
      have hne : ∀ b ∈ l.eraseDups.filter fun b => !b == a, a ≠ b := by
        rintro b hb rfl
        simp at hb
      constructor
      · intro b hb
        rw [List.idxOf_cons_self, List.idxOf_cons_ne l (hne b hb)]
        exact Nat.succ_pos _
      · -- in front of others, an element moves their first places by one
        refine (ih.filter _).imp_of_mem fun {b c} hb hc hlt => ?_
        rw [List.idxOf_cons_ne l (hne b hb), List.idxOf_cons_ne l (hne c hc)]
        exact Nat.succ_lt_succ hlt

theorem selects_filter [LawfulBEq α] (l : List α) (p : α → Bool) :
    Selects l (fun a => p a = true) (l.filter p).eraseDups := by
  refine ⟨fun a => ?_, ?_⟩
  · rw [List.mem_eraseDups, List.mem_filter]
  · rw [eraseDups_filter]
    exact (pairwise_idxOf_eraseDups l).filter p

namespace Selects

variable {l selected selected' : List α} {keep keep' : α → Prop}

theorem congr (h : Selects l keep selected) (hkeep : ∀ a ∈ l, keep a ↔ keep' a) :
    Selects l keep' selected := by
  refine ⟨fun a => ?_, h.ordered⟩
  rw [h.mem_iff]
  exact and_congr_right (hkeep a)

theorem nodup (h : Selects l keep selected) : selected.Nodup :=
  h.ordered.imp fun hlt heq => Nat.ne_of_lt hlt (congrArg l.idxOf heq)

/-- What is kept determines the list. -/
theorem unique [LawfulBEq α] (h : Selects l keep selected) (h' : Selects l keep selected') :
    selected = selected' := by
  refine List.Perm.eq_of_pairwise (fun a b _ _ hab hba => ?_) h.ordered h'.ordered ?_
  · exact absurd hba (Nat.lt_asymm hab)
  · refine (List.perm_ext_iff_of_nodup h.nodup h'.nodup).mpr fun a => ?_
    rw [h.mem_iff, h'.mem_iff]

end Selects

end Selection

namespace FlowGraph

/-- A node starts at one of the addresses. -/
def StartsAmong (g : FlowGraph) (addresses : List Nat) (id : Nat) : Prop :=
  ∃ a ∈ addresses, g.address? id = some a

theorem startsAmong_append {g : FlowGraph} {addresses more : List Nat} {id : Nat} :
    g.StartsAmong (addresses ++ more) id ↔ g.StartsAmong addresses id ∨ g.StartsAmong more id := by
  simp only [StartsAmong, List.mem_append, or_and_right, exists_or]

theorem childrenAt_selects (g : FlowGraph) (l : Nat) (addresses : List Nat) :
    Selects (g.children l) (g.StartsAmong addresses) (g.childrenAt l addresses) := by
  refine (selects_filter (g.children l) _).congr fun c _ => ?_
  rw [Option.any_eq_true]
  constructor
  · rintro ⟨a, ha, hmem⟩
    exact ⟨a, List.contains_iff_mem.mp hmem, ha⟩
  · rintro ⟨a, hmem, ha⟩
    exact ⟨a, ha, List.contains_iff_mem.mpr hmem⟩

/-- Neither the order of the addresses nor repetitions among them matter. -/
theorem childrenAt_congr (g : FlowGraph) (l : Nat) {addresses addresses' : List Nat}
    (h : ∀ a, a ∈ addresses ↔ a ∈ addresses') :
    g.childrenAt l addresses = g.childrenAt l addresses' := by
  refine ((g.childrenAt_selects l addresses).congr fun c _ => ?_).unique
    (g.childrenAt_selects l addresses')
  simp only [StartsAmong, h]

theorem mem_childrenAt_append {g : FlowGraph} {l c : Nat} {addresses more : List Nat} :
    c ∈ g.childrenAt l (addresses ++ more) ↔
      c ∈ g.childrenAt l addresses ∨ c ∈ g.childrenAt l more := by
  rw [(g.childrenAt_selects l _).mem_iff, (g.childrenAt_selects l _).mem_iff,
    (g.childrenAt_selects l _).mem_iff, startsAmong_append, and_or_left]

namespace Shows

variable {g : FlowGraph} {distinct : Bool} {code : List Instruction} (h : g.Shows distinct code)

include h

/-- Children that differ have addresses that differ, so it makes no difference which of the two are
freed of repetitions. -/
theorem nextAddresses_eq (l : Nat) :
    g.nextAddresses l = (g.children l).eraseDups.filterMap g.address? := by
  rw [nextAddresses, ← eraseDups_filterMap_eraseDups]
  refine eraseDups_of_nodup ((nodup_eraseDups (g.children l)).filterMap ?_)
  intro c d a hc hd
  exact h.address?_injective hc hd

theorem map_address?_eraseDups_children (l : Nat) :
    (g.children l).eraseDups.map g.address? = (g.nextAddresses l).map some := by
  rw [h.nextAddresses_eq, List.map_filterMap_some_eq_filter_map_isSome, List.filter_eq_self.mpr]
  intro a ha
  obtain ⟨c, hc, rfl⟩ := List.mem_map.mp ha
  obtain ⟨a, ha⟩ := h.exists_address?_of_mem_children (List.mem_eraseDups.mp hc)
  rw [ha]
  rfl

/-- All addresses of children select every child. -/
theorem childrenAt_nextAddresses_selects (l : Nat) :
    Selects (g.children l) (fun _ => True) (g.childrenAt l (g.nextAddresses l)) := by
  refine (g.childrenAt_selects l _).congr fun c hc => iff_true_intro ?_
  obtain ⟨a, ha⟩ := h.exists_address?_of_mem_children hc
  exact ⟨a, mem_nextAddresses hc ha, ha⟩

end Shows

/-- The children at some addresses are the distinct children that start there, in the order of the edges.
With all addresses of children they are all distinct children, and the addresses are theirs in turn. -/
theorem childrenAt_in_edge_order {options : GraphOptions} {code : List Instruction} {g : FlowGraph}
    (hg : (ofCode options code).result = .ok g) (l : Nat) :
    (∀ addresses,
      Selects (g.children l) (g.StartsAmong addresses) (g.childrenAt l addresses)) ∧
    (∀ addresses addresses', (∀ a, a ∈ addresses ↔ a ∈ addresses') →
      g.childrenAt l addresses = g.childrenAt l addresses') ∧
    (∀ addresses more c, c ∈ g.childrenAt l (addresses ++ more) ↔
      c ∈ g.childrenAt l addresses ∨ c ∈ g.childrenAt l more) ∧
    Selects (g.children l) (fun _ => True) (g.childrenAt l (g.nextAddresses l)) ∧
    (g.childrenAt l (g.nextAddresses l)).map g.address? = (g.nextAddresses l).map some := by
  have h := shows_of_result hg
  refine ⟨g.childrenAt_selects l, fun _ _ => g.childrenAt_congr l, fun _ _ _ => mem_childrenAt_append,
    h.childrenAt_nextAddresses_selects l, ?_⟩
  rw [h.childrenAt_nextAddresses]
  exact h.map_address?_eraseDups_children l

/-- Four edges leave the switch, three of them to one node. -/
theorem childrenAt_in_edge_order_of_sampleBody :
    ∃ g, (ofCode ⟨false⟩ sampleBody).result = .ok g ∧ g.children 1 = [0, 3, 0, 0] ∧
      g.nextAddresses 1 = [3, 4] ∧
      (g.childrenAt 1 (g.nextAddresses 1)).map g.address? = [some 3, some 4] ∧
      g.childrenAt 1 [4, 9, 3, 4] = g.childrenAt 1 [3, 4, 9] := by
  obtain ⟨g, hg⟩ : ∃ g, (ofCode ⟨false⟩ sampleBody).result = .ok g := ⟨_, rfl⟩
  obtain ⟨-, hcongr, -, -, haddresses⟩ := childrenAt_in_edge_order hg 1
  have hnext : g.nextAddresses 1 = [3, 4] := by
    cases hg
    rfl
  rw [hnext] at haddresses
  refine ⟨g, hg, ?_, hnext, hnext ▸ haddresses, hcongr _ _ fun a => ?_⟩
  · cases hg
    rfl
  · simp only [List.mem_cons, List.not_mem_nil, or_false]
    omega

end FlowGraph

end DalvikFlow
