import DalvikFlow.Proofs.Graph.Nodes
import DalvikFlow.Proofs.Graph.Preorder
import Mathlib.Tactic.IntervalCases

/-! The depth-first order. A search marks all free successors of a node when it takes the node, so that
they wait for their turn even if a node taken before leads to them as well. -/
namespace DalvikFlow

namespace Marks

variable {m : Marks} {vs : List Nat}

theorem isFree_markAll {w : Nat} :
    (m.markAll vs).isFree w = true ↔ m.isFree w = true ∧ w ∉ vs := by
  induction vs with
  | nil => simp [markAll]
  | cons v vs ih =>
      show ((m.markAll vs).mark v).isFree w = true ↔ _
      rw [isFree_mark_eq_true_iff, ih, List.mem_cons, not_or, and_assoc, ne_comm,
        and_comm (a := w ∉ vs)]

theorem free_markAll (hnodup : vs.Nodup) (hfree : ∀ v ∈ vs, m.isFree v = true) :
    (m.markAll vs).free + vs.length = m.free := by
  induction vs with
  | nil => rfl
  | cons v vs ih =>
      obtain ⟨hnew, hnodup⟩ := List.nodup_cons.mp hnodup
      obtain ⟨hv, hvs⟩ := List.forall_mem_cons.mp hfree
      have hmark := free_mark (isFree_markAll.mpr ⟨hv, hnew⟩)
      have hrest := ih hnodup hvs
      show ((m.markAll vs).mark v).free + (vs.length + 1) = m.free
      omega

end Marks

namespace Adjacency

/-- The free successors of a node, each where its last edge stands. -/
def freeSuccessors (g : Adjacency) (marks : Marks) (v : Nat) : List Nat :=
  ((g.succ v).filter marks.isFree).dedup

theorem free_markAll_freeSuccessors (g : Adjacency) (marks : Marks) (v : Nat) :
    (marks.markAll (g.freeSuccessors marks v)).free + (g.freeSuccessors marks v).length = marks.free :=
  Marks.free_markAll (List.nodup_dedup _) fun _ hw => List.of_mem_filter (List.mem_dedup.mp hw)

/-- Goes into one node after the other. They are marked already. The free successors of a node are marked
all at once, and then gone into. -/
def spread (g : Adjacency) (marks : Marks) :
    List Nat → { r : Descended // r.marks.free ≤ marks.free }
  | [] => ⟨⟨marks, []⟩, Nat.le_refl _⟩
  | v :: rest =>
    have hm := g.free_markAll_freeSuccessors marks v
    match g.spread (marks.markAll (g.freeSuccessors marks v)) (g.freeSuccessors marks v) with
    | ⟨inner, hinner⟩ =>
      match g.spread inner.marks rest with
      | ⟨later, hlater⟩ =>
        ⟨⟨later.marks, v :: (inner.order ++ later.order)⟩, by dsimp only; omega⟩
termination_by vs => marks.free + vs.length
decreasing_by
  · simp only [List.length_cons]
    omega
  · simp only [List.length_cons]
    omega

def spreadingPreorder (g : Adjacency) (start : Nat) : List Nat :=
  (g.spread ((Marks.clear g.size).mark start) [start]).1.order

variable {g : Adjacency} {start : Nat}

/-- What waits on the stack is not looked at until what was put above it is done. -/
theorem drain_spread (g : Adjacency) (marks : Marks) (vs rest : List Nat) (order : Array Nat) :
    g.drain ⟨marks, vs ++ rest⟩ order =
      g.drain ⟨(g.spread marks vs).1.marks, rest⟩
        (order ++ (g.spread marks vs).1.order.toArray) := by
  fun_induction g.spread marks vs generalizing rest order with
  | case1 marks => simp
  | case2 marks v vs hm inner hinner he later hlater hl ihinner ihlater =>
      rw [he] at ihinner
      rw [hl] at ihlater
      rw [List.cons_append, drain, Frontier.pushAll_eq]
      show g.drain ⟨marks.markAll (g.freeSuccessors marks v),
        g.freeSuccessors marks v ++ (vs ++ rest)⟩ _ = _
      rw [ihinner, ihlater]
      simp

theorem depthFirst_eq_spreadingPreorder (hstart : start < g.size) :
    g.depthFirst start = g.spreadingPreorder start := by
  have hdrain := g.drain_spread ((Marks.clear g.size).mark start) [start] [] #[]
  rw [List.append_nil] at hdrain
  rw [depthFirst, Frontier.push, if_pos (isFree_clear_of_lt hstart), hdrain, drain, spreadingPreorder]
  simp

/-- By edges that neither come from a given node nor lead to it. -/
def ReachesAround (g : Adjacency) (p : Nat) : Nat → Nat → Prop :=
  Relation.ReflTransGen fun v w => w ∈ g.succ v ∧ v ≠ p ∧ w ≠ p

/-- No node repeats a successor, and no successor leads to a later one unless through the node. -/
def Uncrossed (g : Adjacency) (start : Nat) : Prop :=
  ∀ p, g.Reaches start p →
    (g.succ p).Nodup ∧ ∀ a b, [a, b].Sublist (g.succ p) → ¬ g.ReachesAround p a b

/-- What a recursive search in progress would still look at, without what is in the order. -/
def toVisit (g : Adjacency) (start : Nat) (order : List Nat) : List Nat :=
  (order.reverse.flatMap g.succ ++ [start]).filter fun w => !order.contains w

theorem toVisit_concat (g : Adjacency) (start : Nat) (order : List Nat) (v : Nat) :
    g.toVisit start (order ++ [v]) =
      ((g.succ v).filter fun w => !(order ++ [v]).contains w) ++
        (g.toVisit start order).filter fun w => !w == v := by
  have hlast : (fun w => !(order ++ [v]).contains w) = fun w => !w == v && !order.contains w := by
    funext w
    rw [Bool.eq_iff_iff]
    simp [and_comm]
  rw [toVisit, toVisit, List.filter_filter, ← hlast, ← List.filter_append]
  simp

theorem following_eq_head? (g : Adjacency) (start : Nat) (order : List Nat) :
    g.following start order = (g.toVisit start order).eraseDups.head? := by
  rw [following, ← List.head?_filter, ← toVisit]
  cases g.toVisit start order with
  | nil => rfl
  | cons v rest =>
      rw [List.eraseDups_cons]
      rfl

/-- A search in progress in which each node waits where a recursive search would look at it: a node that
waits below another one was marked together with a node that leads to that one. -/
structure Straight (g : Adjacency) (start : Nat) (f : Frontier) (order : List Nat) : Prop
    extends Traced g start f order where
  sibling : f.stack.Pairwise fun x y =>
    ∃ p ∈ order, ∃ a, [a, y].Sublist (g.succ p) ∧ g.ReachesAround p a x
  stack_eq : f.stack = (g.toVisit start order).eraseDups
  called : ∀ before v, before ++ [v] <+: order → g.following start before = some v

namespace Straight

variable {marks : Marks} {v : Nat} {rest order : List Nat}

theorem initial (hstart : start < g.size) : Straight g start (g.frontierAt start) [] := by
  have hstack : (g.frontierAt start).stack = [start] := by
    rw [frontierAt, Frontier.push, if_pos (isFree_clear_of_lt hstart)]
  refine ⟨.initial g start, ?_, ?_, ?_⟩
  · rw [hstack]
    exact List.pairwise_singleton _ start
  · rw [hstack]
    rfl
  · intro before v h
    simp at h

theorem not_mem_rest (h : Straight g start ⟨marks, v :: rest⟩ order) (hg : g.Uncrossed start)
    {w : Nat} (hw : w ∈ g.succ v) : w ∉ rest := by
  intro hrest
  obtain ⟨p, hp, a, hsub, hpath⟩ := (List.pairwise_cons.mp h.sibling).1 w hrest
  refine (hg p (h.found p (.inr hp)).2).2 a w hsub (hpath.tail ⟨hw, ?_, ?_⟩)
  · exact h.ne_of_mem List.mem_cons_self hp
  · exact h.ne_of_mem (List.mem_cons_of_mem v hrest) hp

theorem filter_succ (h : Straight g start ⟨marks, v :: rest⟩ order) (hg : g.InRange)
    (hu : g.Uncrossed start) :
    ((g.succ v).filter fun w => !(order ++ [v]).contains w) = (g.succ v).filter marks.isFree := by
  refine List.filter_congr fun w hw => ?_
  have hfree := h.isFree_iff w
  have hrest := h.not_mem_rest hu hw
  have hlt := hg v w hw
  rw [Bool.eq_iff_iff, hfree]
  simp only [Bool.not_eq_true', List.contains_eq_mem, decide_eq_false_iff_not, List.mem_append,
    List.mem_cons, List.not_mem_nil, or_false]
  tauto

theorem take (h : Straight g start ⟨marks, v :: rest⟩ order) (hg : g.InRange)
    (hu : g.Uncrossed start) :
    Straight g start (Frontier.pushAll ⟨marks, rest⟩ (g.succ v)) (order ++ [v]) := by
  have hreach := (h.found v (.inl List.mem_cons_self)).2
  have hnodup : ((g.succ v).filter marks.isFree).Nodup := (hu v hreach).1.filter _
  have hstack := Frontier.stack_pushAll ⟨marks, rest⟩ (g.succ v)
  rw [hnodup.dedup] at hstack
  have hfree : ∀ w ∈ (g.succ v).filter marks.isFree, w ∉ v :: rest ∧ w ∉ order := fun w hw =>
    ((h.isFree_iff w).mp (List.of_mem_filter hw)).2
  obtain ⟨habove, hbelow⟩ := List.pairwise_cons.mp h.sibling
  refine ⟨h.toTraced.take, ?_, ?_, ?_⟩
  · rw [hstack, List.pairwise_append]
    refine ⟨?_, ?_, ?_⟩
    · rw [List.pairwise_iff_forall_sublist]
      intro a b hsub
      exact ⟨v, by simp, a, hsub.trans List.filter_sublist, .refl⟩
    · refine hbelow.imp ?_
      rintro x y ⟨p, hp, hsibling⟩
      exact ⟨p, List.mem_append_left _ hp, hsibling⟩
    · intro x hx y hy
      obtain ⟨p, hp, a, hsub, hpath⟩ := habove y hy
      refine ⟨p, List.mem_append_left _ hp, a, hsub,
        hpath.tail ⟨List.mem_of_mem_filter hx, ?_, ?_⟩⟩
      · exact h.ne_of_mem List.mem_cons_self hp
      · rintro rfl
        exact (hfree x hx).2 hp
  · have hv : v ∉ rest := (List.nodup_cons.mp (List.nodup_append.mp h.nodup).1).1
    have hapart : rest.removeAll ((g.succ v).filter marks.isFree) = rest := by
      refine List.filter_eq_self.mpr fun w hw => ?_
      have hnew : w ∉ (g.succ v).filter marks.isFree := fun hmem =>
        (hfree w hmem).1 (List.mem_cons_of_mem v hw)
      rw [List.elem_eq_contains, Bool.not_eq_true', List.contains_eq_mem,
        decide_eq_false_iff_not]
      exact hnew
    rw [hstack, toVisit_concat, h.filter_succ hg hu, List.eraseDups_append,
      eraseDups_of_nodup hnodup, List.removeAll, eraseDups_filter, eraseDups_filter, ← h.stack_eq,
      List.filter_cons_of_neg (by simp), filter_of_notMem hv, ← List.removeAll, hapart]
  · intro before w hpre
    rcases concat_prefix_concat_iff.mp hpre with ⟨rfl, rfl⟩ | hpre
    · rw [following_eq_head?, ← h.stack_eq, List.head?_cons]
    · exact h.called before w hpre

end Straight

/-- In which order a search takes the nodes, and when it is the recursive pre-order: exactly if it goes on
with the first new successor of the last node that has one, so at least if edges do not cross. -/
theorem depthFirst_marks_early (hg : g.InRange) (hstart : start < g.size) :
    g.depthFirst start = g.spreadingPreorder start ∧
    (g.depthFirst start = g.recursivePreorder start ↔
      ∀ before v, before ++ [v] <+: g.depthFirst start → g.following start before = some v) ∧
    (g.Uncrossed start → g.depthFirst start = g.recursivePreorder start) := by
  have hiff := eq_recursivePreorder_iff hg hstart (g.nodup_depthFirst start)
    fun v => hg.mem_depthFirst_iff hstart
  refine ⟨depthFirst_eq_spreadingPreorder hstart, hiff, ?_⟩
  intro hu
  obtain ⟨marks, h⟩ := drain_invariant (fun h => h.take hg hu) #[] (Straight.initial hstart)
  exact hiff.mpr h.called

/-- A loop before the second successor. -/
def loopBeforeExit : Adjacency := ⟨#[[1, 2], [0], []]⟩

theorem depthFirst_of_loopBeforeExit :
    loopBeforeExit.Uncrossed 0 ∧
      loopBeforeExit.depthFirst 0 = loopBeforeExit.recursivePreorder 0 := by
  have hrange : loopBeforeExit.InRange := inRange_iff.mpr (by decide)
  have hu : loopBeforeExit.Uncrossed 0 := by
    intro p hp
    have hlt : p < 3 := hrange.lt_size_of_reaches (by decide) hp
    interval_cases p
    · refine ⟨by decide, ?_⟩
      intro a b hsub hpath
      cases hsub.eq_of_length rfl
      -- the only way on from the first successor leads back
      rcases hpath.cases_head with heq | ⟨c, ⟨hc, -, hne⟩, -⟩
      · cases heq
      · exact hne (List.mem_singleton.mp hc)
    · exact ⟨by decide, fun a b hsub => absurd hsub.length_le (show ¬ 2 ≤ 1 by decide)⟩
    · exact ⟨by decide, fun a b hsub => absurd hsub.length_le (show ¬ 2 ≤ 0 by decide)⟩
  exact ⟨hu, (depthFirst_marks_early hrange (by decide)).2.2 hu⟩

end Adjacency

namespace FlowGraph

/-- Two branches one after the other, the second one to the node after the first. -/
def crossingBranch : List Instruction :=
  [((Instruction.ofOpcode .ifEqz 0).withRegisters [0]).withOffset 3,
    .ofOpcode .returnVoid 1,
    ((Instruction.ofOpcode .ifEqz 2).withRegisters [0]).withOffset (-1),
    .ofOpcode .returnVoid 3]

/-- In the first graph the successor with two edges is taken at the place of the second one. In the second
the node after the first branch waits although the second branch leads to it. -/
theorem depthFirst_not_recursive :
    (¬ ∀ g : Adjacency, g.InRange → ∀ start < g.size,
      g.depthFirst start = g.recursivePreorder start) ∧
    ¬ ∀ (options : GraphOptions) (code : List Instruction) (g : FlowGraph),
      (ofCode options code).result = .ok g →
        g.reachable = g.adjacency.recursivePreorder g.root := by
  constructor
  · intro hall
    have heq := hall ⟨#[[1, 2, 1], [], []]⟩ (Adjacency.inRange_iff.mpr (by decide)) 0 (by decide)
    have hsearch : (⟨#[[1, 2, 1], [], []]⟩ : Adjacency).depthFirst 0 = [0, 2, 1] := by cbv
    have hdescent : (⟨#[[1, 2, 1], [], []]⟩ : Adjacency).recursivePreorder 0 = [0, 1, 2] := by cbv
    rw [hsearch, hdescent] at heq
    cases heq
  · intro hall
    obtain ⟨g, hg, hadjacency⟩ : ∃ g, (ofCode ⟨false⟩ crossingBranch).result = .ok g ∧
        g.adjacency = ⟨#[[2, 1], [], [1, 3], []]⟩ := by
      refine ⟨ofNodes #[
        ⟨0, 0, ((Instruction.ofOpcode .ifEqz 0).withRegisters [0]).withOffset 3,
          [⟨2, .branch⟩, ⟨1, .fallthrough⟩]⟩,
        ⟨1, 2, .ofOpcode .returnVoid 1, []⟩,
        ⟨2, 3, ((Instruction.ofOpcode .ifEqz 2).withRegisters [0]).withOffset (-1),
          [⟨1, .branch⟩, ⟨3, .fallthrough⟩]⟩,
        ⟨3, 5, .ofOpcode .returnVoid 3, []⟩], rfl, ?_⟩
      simp [adjacency, Node.children]
    have heq := hall ⟨false⟩ crossingBranch g hg
    have hsearch : (⟨#[[2, 1], [], [1, 3], []]⟩ : Adjacency).depthFirst 0 = [0, 2, 3, 1] := by cbv
    have hdescent : (⟨#[[2, 1], [], [1, 3], []]⟩ : Adjacency).recursivePreorder 0 = [0, 2, 1, 3] := by
      cbv
    rw [reachable, hadjacency, root_eq, hsearch, hdescent] at heq
    cases heq

end FlowGraph

end DalvikFlow
