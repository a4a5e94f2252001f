import DalvikFlow.Proofs.Graph.DepthFirst
import DalvikFlow.Proofs.Graph.Recursion
import DalvikFlow.Proofs.Graph.Repetition

/-! The reverse postorder goes along all edges that lie on no cycle. -/
namespace DalvikFlow.Adjacency

variable {g : Adjacency} {start : Nat}

/-- What an exploration from some nodes does with the nodes that were free. A node that it leaves has all
its successors marked: those that are not left before are still to be left, as they lead back to it. -/
structure Settled (g : Adjacency) (marks : Marks) (vs : List Nat) (r : Explored) : Prop where
  isFree_iff : ∀ w, r.marks.isFree w = true ↔ marks.isFree w = true ∧ w ∉ r.order
  marked : ∀ v ∈ vs, r.marks.isFree v = false
  fresh : ∀ u ∈ r.order, marks.isFree u = true
  nodup : r.order.Nodup
  reached : ∀ u ∈ r.order, ∃ v ∈ vs, g.Reaches v u
  before : ∀ u ∈ r.order, ∀ w ∈ g.succ u,
    marks.isFree w = false ∨ [w, u].Sublist r.order ∨ w ∈ r.order ∧ g.Reaches w u

namespace Settled

variable {marks : Marks} {v : Nat} {rest : List Nat} {inner later r : Explored}

theorem nil (g : Adjacency) (marks : Marks) : Settled g marks [] ⟨marks, []⟩ :=
  ⟨fun _ => ⟨fun h => ⟨h, List.not_mem_nil⟩, And.left⟩, nofun, nofun, .nil, nofun, nofun⟩

theorem skip (h : Settled g marks rest r) (hv : marks.isFree v = false) :
    Settled g marks (v :: rest) r := by
  refine ⟨h.isFree_iff, ?_, h.fresh, h.nodup, ?_, h.before⟩
  · refine List.forall_mem_cons.mpr ⟨?_, h.marked⟩
    refine Bool.eq_false_iff.mpr fun hfree => ?_
    rw [((h.isFree_iff v).mp hfree).1] at hv
    cases hv
  · intro u hu
    obtain ⟨w, hw, hreach⟩ := h.reached u hu
    exact ⟨w, List.mem_cons_of_mem v hw, hreach⟩

theorem marked_or_mem (h : Settled g marks rest r) {w : Nat} (hw : r.marks.isFree w = false) :
    marks.isFree w = false ∨ w ∈ r.order := by
  by_cases hmem : w ∈ r.order
  · exact .inr hmem
  · refine .inl (Bool.eq_false_iff.mpr fun hfree => ?_)
    rw [(h.isFree_iff w).mpr ⟨hfree, hmem⟩] at hw
    cases hw

theorem marked_of_mem_succ (h : Settled g marks rest r) {u w : Nat} (hu : u ∈ r.order)
    (hw : w ∈ g.succ u) : r.marks.isFree w = false := by
  refine Bool.eq_false_iff.mpr fun hfree => ?_
  obtain ⟨hfree, hnew⟩ := (h.isFree_iff w).mp hfree
  rcases h.before u hu w hw with hmarked | hsub | ⟨hmem, -⟩
  · rw [hfree] at hmarked
    cases hmarked
  · exact hnew (hsub.subset List.mem_cons_self)
  · exact hnew hmem

theorem marked_cases (h : Settled g (marks.mark v) rest r) {w : Nat} (hw : r.marks.isFree w = false) :
    marks.isFree w = false ∨ w = v ∨ w ∈ r.order := by
  rcases h.marked_or_mem hw with hmarked | hmem
  · rcases Marks.isFree_mark_eq_false_iff.mp hmarked with hmarked | rfl
    · exact .inl hmarked
    · exact .inr (.inl rfl)
  · exact .inr (.inr hmem)

/-- An edge from a node that was left inside of `v`. If it leads to `v`, it leads back. -/
theorem before_of_inner (h : Settled g (marks.mark v) (g.succ v) inner) (after : List Nat) {u w : Nat}
    (hu : u ∈ inner.order) (hw : w ∈ g.succ u) :
    marks.isFree w = false ∨ [w, u].Sublist (inner.order ++ v :: after) ∨
      w ∈ inner.order ++ v :: after ∧ g.Reaches w u := by
  rcases h.before u hu w hw with hmarked | hsub | ⟨hmem, hreach⟩
  · rcases Marks.isFree_mark_eq_false_iff.mp hmarked with hmarked | rfl
    · exact .inl hmarked
    · obtain ⟨x, hx, hreach⟩ := h.reached u hu
      exact .inr (.inr ⟨by simp, .head hx hreach⟩)
  · exact .inr (.inl (hsub.trans (List.sublist_append_left _ _)))
  · exact .inr (.inr ⟨List.mem_append_left _ hmem, hreach⟩)

/-- An edge from `v`. If it does not lead to `v` again, it leads to a node that was left inside. -/
theorem before_of_node (h : Settled g (marks.mark v) (g.succ v) inner) (after : List Nat) {w : Nat}
    (hw : w ∈ g.succ v) :
    marks.isFree w = false ∨ [w, v].Sublist (inner.order ++ v :: after) ∨
      w ∈ inner.order ++ v :: after ∧ g.Reaches w v := by
  rcases h.marked_cases (h.marked w hw) with hmarked | rfl | hmem
  · exact .inl hmarked
  · exact .inr (.inr ⟨by simp, .refl⟩)
  · refine .inr (.inl (List.Sublist.append (List.singleton_sublist.mpr hmem) ?_))
    exact List.singleton_sublist.mpr List.mem_cons_self

/-- An edge from a node that was left after `v`. Neither `v` nor a node that was left inside comes later. -/
theorem before_of_later (hinner : Settled g (marks.mark v) (g.succ v) inner)
    (hlater : Settled g inner.marks rest later) {u w : Nat} (hu : u ∈ later.order)
    (hw : w ∈ g.succ u) :
    marks.isFree w = false ∨ [w, u].Sublist (inner.order ++ v :: later.order) ∨
      w ∈ inner.order ++ v :: later.order ∧ g.Reaches w u := by
  have hearly : ∀ x ∈ inner.order ++ [v], [x, u].Sublist (inner.order ++ v :: later.order) := by
    intro x hx
    rw [List.append_cons]
    exact List.Sublist.append (List.singleton_sublist.mpr hx) (List.singleton_sublist.mpr hu)
  rcases hlater.before u hu w hw with hmarked | hsub | ⟨hmem, hreach⟩
  · rcases hinner.marked_cases hmarked with hmarked | rfl | hmem
    · exact .inl hmarked
    · exact .inr (.inl (hearly w (by simp)))
    · exact .inr (.inl (hearly w (List.mem_append_left _ hmem)))
  · refine .inr (.inl (hsub.trans ?_))
    exact (List.sublist_cons_self v _).trans (List.sublist_append_right _ _)
  · exact .inr (.inr ⟨List.mem_append_right _ (List.mem_cons_of_mem v hmem), hreach⟩)

/-- A node is left after its successors and before the nodes that come after it. -/
theorem node (hv : marks.isFree v = true) (hinner : Settled g (marks.mark v) (g.succ v) inner)
    (hlater : Settled g inner.marks rest later) :
    Settled g marks (v :: rest) ⟨later.marks, inner.order ++ v :: later.order⟩ := by
  have hinnerv : ∀ u ∈ inner.order, marks.isFree u = true ∧ v ≠ u := fun u hu =>
    Marks.isFree_mark_eq_true_iff.mp (hinner.fresh u hu)
  have hlaterv : ∀ u ∈ later.order, marks.isFree u = true ∧ v ≠ u ∧ u ∉ inner.order := by
    intro u hu
    obtain ⟨hfree, hnew⟩ := (hinner.isFree_iff u).mp (hlater.fresh u hu)
    obtain ⟨hfree, hne⟩ := Marks.isFree_mark_eq_true_iff.mp hfree
    exact ⟨hfree, hne, hnew⟩
  have hcases : ∀ u ∈ inner.order ++ v :: later.order,
      u ∈ inner.order ∨ u = v ∨ u ∈ later.order := fun u hu => by
    rwa [List.mem_append, List.mem_cons] at hu
  refine ⟨?_, ?_, ?_, ?_, ?_, ?_⟩
  · intro w
    rw [hlater.isFree_iff, hinner.isFree_iff, Marks.isFree_mark_eq_true_iff, List.mem_append,
      List.mem_cons]
    tauto
  · refine List.forall_mem_cons.mpr ⟨?_, hlater.marked⟩
    refine Bool.eq_false_iff.mpr fun hfree => ?_
    have hfree := (hinner.isFree_iff v).mp ((hlater.isFree_iff v).mp hfree).1
    exact (Marks.isFree_mark_eq_true_iff.mp hfree.1).2 rfl
  · intro u hu
    rcases hcases u hu with hu | rfl | hu
    · exact (hinnerv u hu).1
    · exact hv
    · exact (hlaterv u hu).1
  · refine hinner.nodup.append (List.nodup_cons.mpr ⟨?_, hlater.nodup⟩) ?_
    · exact fun hmem => (hlaterv v hmem).2.1 rfl
    · intro u hu hu'
      rcases List.mem_cons.mp hu' with rfl | hu'
      · exact (hinnerv u hu).2 rfl
      · exact (hlaterv u hu').2.2 hu
  · intro u hu
    rcases hcases u hu with hu | rfl | hu
    · obtain ⟨w, hw, hreach⟩ := hinner.reached u hu
      exact ⟨v, List.mem_cons_self, .head hw hreach⟩
    · exact ⟨u, List.mem_cons_self, .refl⟩
    · obtain ⟨w, hw, hreach⟩ := hlater.reached u hu
      exact ⟨w, List.mem_cons_of_mem v hw, hreach⟩
  · intro u hu w hw
    rcases hcases u hu with hu | rfl | hu
    · exact hinner.before_of_inner later.order hu hw
    · exact hinner.before_of_node later.order hw
    · exact hinner.before_of_later hlater hu hw

end Settled

theorem settled_explore (g : Adjacency) (marks : Marks) (vs : List Nat) :
    Settled g marks vs (g.explore marks vs).1 := by
  fun_induction g.explore marks vs with
  | case1 marks => exact .nil g marks
  | case2 marks v rest hv _ inner hinner he later hlater hl ihinner ihlater =>
      rw [he] at ihinner
      rw [hl] at ihlater
      exact .node hv ihinner ihlater
  | case3 marks v rest hv ih => exact ih.skip (Bool.eq_false_iff.mpr hv)

/-- The start is left last. -/
theorem postorder_eq_concat (hstart : start < g.size) :
    g.postorder start =
      (g.explore ((Marks.clear g.size).mark start) (g.succ start)).1.order ++ [start] := by
  rw [postorder, visit_enter_of_free g [] #[] (isFree_clear_of_lt hstart),
    visit_explore _ _ _ (fun _ hw => hw) [.leave start] #[], visit, visit]
  simp

theorem nodup_postorder (hstart : start < g.size) : (g.postorder start).Nodup := by
  have h := g.settled_explore ((Marks.clear g.size).mark start) (g.succ start)
  rw [postorder_eq_concat hstart]
  refine h.nodup.append (List.nodup_singleton start) ?_
  intro u hu hstart
  obtain rfl := List.mem_singleton.mp hstart
  exact (Marks.isFree_mark_eq_true_iff.mp (h.fresh u hu)).2 rfl

/-- An edge that lies on no cycle. -/
theorem sublist_postorder (hg : g.InRange) (hstart : start < g.size) {u v : Nat}
    (hu : g.Reaches start u) (hv : v ∈ g.succ u) (hback : ¬ g.Reaches v u) :
    [v, u].Sublist (g.postorder start) := by
  have h := g.settled_explore ((Marks.clear g.size).mark start) (g.succ start)
  have hmem : ∀ w, g.Reaches start w → w = start ∨
      w ∈ (g.explore ((Marks.clear g.size).mark start) (g.succ start)).1.order := by
    intro w hw
    have hw := (hg.mem_postorder_iff hstart).mpr hw
    rw [postorder_eq_concat hstart, List.mem_append, List.mem_singleton] at hw
    exact hw.symm
  have hne : v ≠ start := by
    rintro rfl
    exact hback hu
  rw [postorder_eq_concat hstart]
  rcases hmem u hu with rfl | hinner
  · have hv := (hmem v (hu.tail hv)).resolve_left hne
    exact List.Sublist.append (List.singleton_sublist.mpr hv) (List.Sublist.refl _)
  · rcases h.before u hinner v hv with hmarked | hsub | ⟨-, hreach⟩
    · rcases Marks.isFree_mark_eq_false_iff.mp hmarked with hmarked | rfl
      · rw [Marks.isFree_clear, decide_eq_false_iff_not] at hmarked
        exact absurd (hg u v hv) hmarked
      · exact absurd rfl hne
    · exact hsub.trans (List.sublist_append_left _ _)
    · exact absurd hreach hback

/-- An edge that lies on no cycle leads to a later node. So does every edge if there are no cycles. -/
theorem reversePostorder_respects_edges (hg : g.InRange) (hstart : start < g.size) :
    (g.reversePostorder start).Nodup ∧
    (∀ v, v ∈ g.reversePostorder start ↔ g.Reaches start v) ∧
    (g.reversePostorder start).head? = some start ∧
    (∀ u v, g.Reaches start u → v ∈ g.succ u → ¬ g.Reaches v u →
      [u, v].Sublist (g.reversePostorder start)) ∧
    ((∀ u, g.Reaches start u → ¬ Relation.TransGen (fun v w => w ∈ g.succ v) u u) →
      ∀ u ∈ g.reversePostorder start, ∀ v ∈ g.succ u,
        [u, v].Sublist (g.reversePostorder start)) := by
  have hmem : ∀ v, v ∈ g.reversePostorder start ↔ g.Reaches start v := fun v =>
    List.mem_reverse.trans (hg.mem_postorder_iff hstart)
  have hedge : ∀ u v, g.Reaches start u → v ∈ g.succ u → ¬ g.Reaches v u →
      [u, v].Sublist (g.reversePostorder start) := fun u v hu hv hback =>
    (sublist_postorder hg hstart hu hv hback).reverse
  refine ⟨List.nodup_reverse.mpr (nodup_postorder hstart), hmem, ?_, hedge, ?_⟩
  · rw [reversePostorder, postorder_eq_concat hstart, List.reverse_append]
    rfl
  · intro hacyclic u hu v hv
    have hreach := (hmem u).mp hu
    exact hedge u v hreach hv fun hback => hacyclic u hreach (.head' hv hback)

/-- The root leads into a cycle, by an edge and by a later edge through another node. -/
def knot : Adjacency := ⟨#[[2, 1], [2], [3], [2]]⟩

theorem reversePostorder_respects_knot :
    knot.InRange ∧ ¬ knot.Reaches 2 1 ∧ [1, 2].Sublist (knot.reversePostorder 0) ∧
      (knot.reversePostorder 0).head? = some 0 := by
  have hrange : knot.InRange := inRange_iff.mpr (by decide)
  have hstart : 0 < knot.size := by decide
  obtain ⟨-, -, hhead, hedge, -⟩ := reversePostorder_respects_edges hrange hstart
  have hback : ¬ knot.Reaches 2 1 := by
    intro hreach
    have hmem : 1 ∈ knot.depthFirst 2 := mem_depthFirst_iff.mpr ⟨by decide, hreach⟩
    have horder : knot.depthFirst 2 = [2, 3] := by cbv
    rw [horder] at hmem
    revert hmem
    decide
  have hreach : knot.Reaches 0 1 := .single (show 1 ∈ knot.succ 0 by decide)
  exact ⟨hrange, hback, hedge 1 2 hreach (by decide) hback, hhead⟩

end DalvikFlow.Adjacency
