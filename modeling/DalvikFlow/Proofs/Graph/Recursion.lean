import DalvikFlow.Proofs.Graph.Postorder

/-! The postorder is that of the recursive search: its stack of visits does what the calls do. -/
namespace DalvikFlow

/-- What an exploration leaves behind: its marks, and the nodes in the order in which it left them. -/
structure Explored where
  marks : Marks
  order : List Nat

namespace Adjacency

/-- Explores from one node after the other. A node with a mark is skipped. Any other is marked on
entry, then its successors are explored in edge order, and then it is left. -/
def explore (g : Adjacency) (marks : Marks) :
    List Nat → { r : Explored // r.marks.free ≤ marks.free }
  | [] => ⟨⟨marks, []⟩, Nat.le_refl _⟩
  | v :: rest =>
    if h : marks.isFree v = true then
      have hm := Marks.free_mark h
      match g.explore (marks.mark v) (g.succ v) with
      | ⟨inner, hinner⟩ =>
        match g.explore inner.marks rest with
        | ⟨later, hlater⟩ =>
          ⟨⟨later.marks, inner.order ++ v :: later.order⟩, by dsimp only; omega⟩
    else g.explore marks rest
termination_by vs => (marks.free, vs.length)
decreasing_by
  · exact Prod.Lex.left _ _ (by omega)
  · exact Prod.Lex.left _ _ (by omega)
  · exact Prod.Lex.right _ (Nat.lt_succ_self _)

def recursivePostorder (g : Adjacency) (start : Nat) : List Nat :=
  (g.explore (.clear g.size) [start]).1.order

variable {g : Adjacency}

theorem isFree_of_explore {marks : Marks} {vs : List Nat} {w : Nat}
    (h : (g.explore marks vs).1.marks.isFree w = true) : marks.isFree w = true := by
  fun_induction g.explore marks vs with
  | case1 => exact h
  | case2 marks v rest hv _ inner hinner he later hlater hl ihinner ihlater =>
      rw [hl] at ihlater
      rw [he] at ihinner
      exact (Marks.isFree_mark_eq_true_iff.mp (ihinner (ihlater h))).1
  | case3 marks v rest hv ih => exact ih h

/-- Visits that enter the nodes of a list in turn come to what the exploration comes to. Nodes with a
mark may be missing, since they would be skipped. -/
theorem visit_explore (marks : Marks) (vs : List Nat) (offered : Nat → Bool)
    (hoffered : ∀ w, marks.isFree w = true → offered w = true) (rest : List Visit)
    (order : Array Nat) :
    g.visit marks ((vs.filter offered).map .enter ++ rest) order =
      g.visit (g.explore marks vs).1.marks rest
        (order ++ (g.explore marks vs).1.order.toArray) := by
  fun_induction g.explore marks vs generalizing offered rest order with
  | case1 marks => simp
  | case2 marks v vs hv _ inner hinner he later hlater hl ihinner ihlater =>
      rw [he] at ihinner
      rw [hl] at ihlater
      have hmarked : ∀ w, inner.marks.isFree w = true → offered w = true := by
        intro w hw
        apply hoffered
        have hback : (g.explore (marks.mark v) (g.succ v)).1.marks.isFree w = true := by
          rw [he]
          exact hw
        exact (Marks.isFree_mark_eq_true_iff.mp (isFree_of_explore hback)).1
      rw [List.filter_cons_of_pos (hoffered v hv), List.map_cons, List.cons_append,
        visit, dif_pos hv, ihinner _ (fun w hw => hw), visit, ihlater offered hmarked]
      simp
  | case3 marks v vs hv ih =>
      by_cases hv' : offered v = true
      · rw [List.filter_cons_of_pos hv', List.map_cons, List.cons_append, visit, dif_neg hv]
        exact ih offered hoffered rest order
      · rw [List.filter_cons_of_neg hv']
        exact ih offered hoffered rest order

/-- Both searches leave the nodes in the same order, in any graph and from any start. What is no node is
not left. -/
theorem postorder_eq_recursivePostorder (g : Adjacency) (start : Nat) :
    g.postorder start = g.recursivePostorder start ∧
      (g.size ≤ start → g.postorder start = []) := by
  have heq : g.postorder start = g.recursivePostorder start := by
    have hvisit := visit_explore (g := g) (.clear g.size) [start] (fun _ => true)
      (fun _ _ => rfl) [] #[]
    rw [List.filter_eq_self.mpr (fun _ _ => rfl), List.append_nil] at hvisit
    rw [postorder, List.map_singleton.symm, hvisit, visit, recursivePostorder]
    simp
  refine ⟨heq, ?_⟩
  intro hle
  have hmarked : ¬ (Marks.clear g.size).isFree start = true := by
    simpa using hle
  rw [heq, recursivePostorder, explore, dif_neg hmarked, explore]

/-- A loop, two edges to the same node and one back. There is no third node. -/
theorem postorder_of_twoNodes :
    (⟨#[[0, 1, 1], [0]]⟩ : Adjacency).recursivePostorder 0 = [1, 0] ∧
      (⟨#[[0, 1, 1], [0]]⟩ : Adjacency).postorder 2 = [] := by
  have hpost : (⟨#[[0, 1, 1], [0]]⟩ : Adjacency).postorder 0 = [1, 0] := by cbv
  obtain ⟨heq, -⟩ := postorder_eq_recursivePostorder ⟨#[[0, 1, 1], [0]]⟩ 0
  refine ⟨heq.symm.trans hpost, ?_⟩
  exact (postorder_eq_recursivePostorder ⟨#[[0, 1, 1], [0]]⟩ 2).2 (by decide)

end Adjacency

end DalvikFlow
