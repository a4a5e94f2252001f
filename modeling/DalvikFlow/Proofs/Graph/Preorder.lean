import DalvikFlow.Proofs.Graph.Topological
import Mathlib.Data.List.Induction

/-! The recursive pre-order, and how to tell that an order is this one: it goes on with the first new
successor of the last node that has one. -/
namespace DalvikFlow

/-- Each element of both lists is what those before it call for. -/
theorem eq_of_called {α : Type} {next : List α → Option α} {xs ys : List α}
    (hlength : xs.length = ys.length)
    (hxs : ∀ before v, before ++ [v] <+: xs → next before = some v)
    (hys : ∀ before v, before ++ [v] <+: ys → next before = some v) : xs = ys := by
  have hpre : ∀ before, before <+: xs → before <+: ys := by
    intro before
    induction before using List.reverseRecOn with
    | nil => exact fun _ => List.nil_prefix
    | append_singleton before v ih =>
        intro h
        obtain ⟨after, rfl⟩ := ih ((List.prefix_append before [v]).trans h)
        cases after with
        | nil =>
            have hle := h.length_le
            simp only [List.length_append, List.length_cons, List.length_nil] at hle hlength
            omega
        | cons w after =>
            have hw : before ++ [w] <+: before ++ w :: after := ⟨after, by simp⟩
            cases (hxs before v h).symm.trans (hys before w hw)
            exact hw
  exact (hpre xs List.prefix_rfl).eq_of_length hlength

theorem prefix_append_cases {α : Type} {before xs ys : List α} {v : α}
    (h : before ++ [v] <+: xs ++ ys) :
    before ++ [v] <+: xs ∨ ∃ rest, before = xs ++ rest ∧ rest ++ [v] <+: ys := by
  rcases List.prefix_or_prefix_of_prefix h (List.prefix_append xs ys) with hxs | hxs
  · exact .inl hxs
  · rcases List.prefix_concat_iff.mp hxs with rfl | ⟨rest, rfl⟩
    · exact .inl List.prefix_rfl
    · rw [List.append_assoc, List.prefix_append_right_inj] at h
      exact .inr ⟨rest, rfl, h⟩

/-- What a descent leaves behind: its marks, and the nodes in the order in which it came to them. -/
structure Descended where
  marks : Marks
  order : List Nat

namespace Adjacency

/-- Descends into one node after the other. A node with a mark is skipped. Any other is marked and put into
the order, and then its successors are descended into in edge order. -/
def descend (g : Adjacency) (marks : Marks) :
    List Nat → { r : Descended // r.marks.free ≤ marks.free }
  | [] => ⟨⟨marks, []⟩, Nat.le_refl _⟩
  | v :: rest =>
    if h : marks.isFree v = true then
      have hm := Marks.free_mark h
      match g.descend (marks.mark v) (g.succ v) with
      | ⟨inner, hinner⟩ =>
        match g.descend inner.marks rest with
        | ⟨later, hlater⟩ =>
          ⟨⟨later.marks, v :: (inner.order ++ later.order)⟩, by dsimp only; omega⟩
    else g.descend marks rest
termination_by vs => (marks.free, vs.length)
decreasing_by
  · exact Prod.Lex.left _ _ (by omega)
  · exact Prod.Lex.left _ _ (by omega)
  · exact Prod.Lex.right _ (Nat.lt_succ_self _)

def recursivePreorder (g : Adjacency) (start : Nat) : List Nat :=
  (g.descend (.clear g.size) [start]).1.order

variable {g : Adjacency} {start : Nat}

theorem explore_of_free {marks : Marks} {v : Nat} {rest : List Nat} (hv : marks.isFree v = true) :
    (g.explore marks (v :: rest)).1 =
      ⟨(g.explore (g.explore (marks.mark v) (g.succ v)).1.marks rest).1.marks,
        (g.explore (marks.mark v) (g.succ v)).1.order ++
          v :: (g.explore (g.explore (marks.mark v) (g.succ v)).1.marks rest).1.order⟩ := by
  rw [explore, dif_pos hv]

/-- The nodes come earlier than in an exploration, but they are the same. -/
theorem descend_explore (g : Adjacency) (marks : Marks) (vs : List Nat) :
    (g.descend marks vs).1.marks = (g.explore marks vs).1.marks ∧
      (g.descend marks vs).1.order.Perm (g.explore marks vs).1.order := by
  fun_induction g.descend marks vs with
  | case1 marks =>
      rw [explore]
      exact ⟨rfl, .nil⟩
  | case2 marks v rest hv _ inner hinner he later hlater hl ihinner ihlater =>
      rw [he] at ihinner
      rw [hl] at ihlater
      obtain ⟨hmarks, hinnerOrder⟩ := ihinner
      obtain ⟨hlaterMarks, hlaterOrder⟩ := ihlater
      have hmarks : inner.marks = (g.explore (marks.mark v) (g.succ v)).1.marks := hmarks
      rw [explore_of_free hv, ← hmarks]
      refine ⟨hlaterMarks, ?_⟩
      exact ((hinnerOrder.append hlaterOrder).cons v).trans List.perm_middle.symm
  | case3 marks v rest hv ih =>
      rw [explore, dif_neg hv]
      exact ih

/-- What a node calls for: the first new successor of the last node that has one. The start comes after
all successors. -/
def following (g : Adjacency) (start : Nat) (order : List Nat) : Option Nat :=
  (order.reverse.flatMap g.succ ++ [start]).find? fun w => !order.contains w

theorem settled_descend (g : Adjacency) (marks : Marks) (vs : List Nat) :
    (∀ w, (g.descend marks vs).1.marks.isFree w = true ↔
      marks.isFree w = true ∧ w ∉ (g.descend marks vs).1.order) ∧
    ∀ v, v ∈ vs ∨ (∃ u ∈ (g.descend marks vs).1.order, v ∈ g.succ u) →
      (g.descend marks vs).1.marks.isFree v = false := by
  have hsettled := g.settled_explore marks vs
  obtain ⟨hmarks, horder⟩ := g.descend_explore marks vs
  simp only [hmarks, horder.mem_iff]
  refine ⟨hsettled.isFree_iff, ?_⟩
  rintro v (hv | ⟨u, hu, hv⟩)
  · exact hsettled.marked v hv
  · exact hsettled.marked_of_mem_succ hu hv

/-- A descent that is to go into some nodes. What is looked at ahead of them, when the next node is looked
for, is in the order. -/
structure Resumes (g : Adjacency) (start : Nat) (marks : Marks) (order vs : List Nat) : Prop where
  isFree_iff : ∀ w, marks.isFree w = true ↔ w < g.size ∧ w ∉ order
  lt_size : ∀ w ∈ vs, w < g.size
  ahead : ∃ done later, order.reverse.flatMap g.succ ++ [start] = done ++ vs ++ later ∧
    ∀ w ∈ done, w ∈ order

namespace Resumes

variable {marks : Marks} {order rest : List Nat} {v : Nat}

theorem following_eq (h : g.Resumes start marks order (v :: rest)) (hv : marks.isFree v = true) :
    g.following start order = some v := by
  obtain ⟨done, later, heq, hdone⟩ := h.ahead
  have hnew := ((h.isFree_iff v).mp hv).2
  rw [following, heq, List.find?_eq_some_iff_append]
  refine ⟨by simpa using hnew, done, rest ++ later, by simp, ?_⟩
  intro w hw
  simpa using hdone w hw

theorem skip (h : g.Resumes start marks order (v :: rest)) (hv : ¬ marks.isFree v = true) :
    g.Resumes start marks order rest := by
  have hold : v ∈ order := by
    refine Classical.byContradiction fun hnew => hv ?_
    exact (h.isFree_iff v).mpr ⟨h.lt_size v List.mem_cons_self, hnew⟩
  obtain ⟨done, later, heq, hdone⟩ := h.ahead
  refine ⟨h.isFree_iff, fun w hw => h.lt_size w (List.mem_cons_of_mem v hw), ?_⟩
  refine ⟨done ++ [v], later, by simp [heq], ?_⟩
  intro w hw
  rcases List.mem_append.mp hw with hw | hw
  · exact hdone w hw
  · rwa [List.mem_singleton.mp hw]

/-- The node is new, so its successors are looked at first. -/
theorem inner (hg : g.InRange) (h : g.Resumes start marks order (v :: rest)) :
    g.Resumes start (marks.mark v) (order ++ [v]) (g.succ v) := by
  obtain ⟨done, later, heq, -⟩ := h.ahead
  refine ⟨?_, hg v, [], done ++ v :: rest ++ later, by simp [heq], nofun⟩
  intro w
  rw [Marks.isFree_mark_eq_true_iff, h.isFree_iff, List.mem_append, List.mem_singleton, not_or,
    and_assoc, ne_comm]

/-- Nothing new is found any more through the node and through those that were found by it. -/
theorem later (hg : g.InRange) (h : g.Resumes start marks order (v :: rest)) :
    g.Resumes start (g.descend (marks.mark v) (g.succ v)).1.marks
      (order ++ v :: (g.descend (marks.mark v) (g.succ v)).1.order) rest := by
  obtain ⟨hfree, hmarked⟩ := g.settled_descend (marks.mark v) (g.succ v)
  have hmarks : ∀ w, (g.descend (marks.mark v) (g.succ v)).1.marks.isFree w = true ↔
      w < g.size ∧ w ∉ order ++ v :: (g.descend (marks.mark v) (g.succ v)).1.order := by
    intro w
    rw [hfree, (h.inner hg).isFree_iff, and_assoc, ← not_or, ← List.mem_append,
      ← List.append_cons]
  have hclosed : ∀ w, w ∈ g.succ v ∨ (∃ u ∈ (g.descend (marks.mark v) (g.succ v)).1.order,
      w ∈ g.succ u) → w ∈ order ++ v :: (g.descend (marks.mark v) (g.succ v)).1.order := by
    intro w hw
    refine Classical.byContradiction fun hnew => ?_
    have hlt : w < g.size := by
      rcases hw with hw | ⟨u, -, hw⟩
      · exact hg v w hw
      · exact hg u w hw
    exact Bool.eq_false_iff.mp (hmarked w hw) ((hmarks w).mpr ⟨hlt, hnew⟩)
  obtain ⟨done, later, heq, hdone⟩ := h.ahead
  refine ⟨hmarks, fun w hw => h.lt_size w (List.mem_cons_of_mem v hw), ?_⟩
  refine ⟨(g.descend (marks.mark v) (g.succ v)).1.order.reverse.flatMap g.succ ++ g.succ v ++
    (done ++ [v]), later, by simp [heq], ?_⟩
  intro w hw
  simp only [List.mem_append, List.mem_flatMap, List.mem_reverse, List.mem_singleton] at hw
  rcases hw with (⟨u, hu, hw⟩ | hw) | hw | rfl
  · exact hclosed w (.inr ⟨u, hu, hw⟩)
  · exact hclosed w (.inl hw)
  · exact List.mem_append_left _ (hdone w hw)
  · exact List.mem_append_right _ List.mem_cons_self

end Resumes

/-- A descent goes on with the first new successor of the last node that has one. -/
theorem following_descend (hg : g.InRange) {marks : Marks} {vs order : List Nat}
    (h : g.Resumes start marks order vs) :
    ∀ before v, before ++ [v] <+: (g.descend marks vs).1.order →
      g.following start (order ++ before) = some v := by
  fun_induction g.descend marks vs generalizing order with
  | case1 marks =>
      intro before v hpre
      simp at hpre
  | case2 marks v rest hv _ inner hinner he later hlater hl ihinner ihlater =>
      have hrest := h.later hg
      simp only [he] at ihinner hrest
      simp only [hl] at ihlater
      intro before w hpre
      cases before with
      | nil =>
          obtain rfl := (List.cons_prefix_cons.mp hpre).1
          rw [List.append_nil]
          exact h.following_eq hv
      | cons x before =>
          obtain ⟨rfl, hbelow⟩ := List.cons_prefix_cons.mp hpre
          rcases prefix_append_cases hbelow with hfound | ⟨after, rfl, hbeyond⟩
          · rw [List.append_cons]
            exact ihinner (h.inner hg) before w hfound
          · rw [← List.cons_append, ← List.append_assoc]
            exact ihlater hrest after w hbeyond
  | case3 marks v rest hv ih => exact ih (h.skip hv)

theorem following_recursivePreorder (hg : g.InRange) (hstart : start < g.size) {before : List Nat}
    {v : Nat} (h : before ++ [v] <+: g.recursivePreorder start) :
    g.following start before = some v := by
  have hinitial : g.Resumes start (.clear g.size) [] [start] := by
    refine ⟨?_, ?_, [], [], rfl, nofun⟩
    · intro w
      simp
    · intro w hw
      rwa [List.mem_singleton.mp hw]
  exact following_descend hg hinitial before v h

theorem recursivePreorder_perm (hstart : start < g.size) :
    (g.recursivePreorder start).Perm (g.postorder start) := by
  refine (g.descend_explore (.clear g.size) [start]).2.trans ?_
  rw [explore_of_free (isFree_clear_of_lt hstart), explore, postorder_eq_concat hstart]

/-- An order of the nodes that can be reached is the recursive one if each node is the one that those before
it call for. -/
theorem eq_recursivePreorder_iff (hg : g.InRange) (hstart : start < g.size) {order : List Nat}
    (hnodup : order.Nodup) (hmem : ∀ v, v ∈ order ↔ g.Reaches start v) :
    order = g.recursivePreorder start ↔
      ∀ before v, before ++ [v] <+: order → g.following start before = some v := by
  constructor
  · rintro rfl before v h
    exact following_recursivePreorder hg hstart h
  · intro h
    have hperm : order.Perm (g.recursivePreorder start) := by
      refine List.Perm.trans ?_ (recursivePreorder_perm hstart).symm
      rw [List.perm_ext_iff_of_nodup hnodup (nodup_postorder hstart)]
      intro v
      rw [hmem, hg.mem_postorder_iff hstart]
    exact eq_of_called hperm.length_eq h fun _ _ => following_recursivePreorder hg hstart

end Adjacency

end DalvikFlow
