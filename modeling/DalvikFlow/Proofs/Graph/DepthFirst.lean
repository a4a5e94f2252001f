import DalvikFlow.Proofs.Graph.CheckedSearch
import Mathlib.Data.List.Dedup

/-! Depth-first iteration, a node at a time. It names each node that can be reached once, and then comes
to an end. -/
namespace DalvikFlow

namespace Marks

def markAll (m : Marks) (vs : List Nat) : Marks := vs.foldr (fun v m => m.mark v) m

end Marks

namespace Frontier

/-- Of the edges to a free node the last one decides about its place. -/
theorem pushAll_eq (f : Frontier) (vs : List Nat) :
    f.pushAll vs =
      ⟨f.marks.markAll (vs.filter f.marks.isFree).dedup,
        (vs.filter f.marks.isFree).dedup ++ f.stack⟩ := by
  induction vs with
  | nil => rfl
  | cons v vs ih =>
      have hpush : f.pushAll (v :: vs) = (f.pushAll vs).push v := rfl
      have hfree := isFree_pushAll f vs v
      rw [hpush, push]
      by_cases hv : f.marks.isFree v = true
      · rw [List.filter_cons_of_pos hv]
        by_cases hmem : v ∈ vs
        · rw [if_neg fun h => (hfree.mp h).2 hmem, ih,
            List.dedup_cons_of_mem (List.mem_filter.mpr ⟨hmem, hv⟩)]
        · rw [if_pos (hfree.mpr ⟨hv, hmem⟩), ih,
            List.dedup_cons_of_notMem fun h => hmem (List.mem_of_mem_filter h)]
          rfl
      · rw [if_neg fun h => hv (hfree.mp h).1, ih, List.filter_cons_of_neg hv]

theorem stack_pushAll (f : Frontier) (vs : List Nat) :
    (f.pushAll vs).stack = (vs.filter f.marks.isFree).dedup ++ f.stack := by
  rw [pushAll_eq]

end Frontier

namespace Adjacency

variable {g : Adjacency} {start : Nat}

theorem inRange_iff : g.InRange ↔ ∀ vs ∈ g.successors.toList, ∀ w ∈ vs, w < g.size := by
  constructor
  · intro hg vs hvs w hw
    obtain ⟨v, hv⟩ := List.mem_iff_getElem?.mp hvs
    rw [Array.getElem?_toList] at hv
    refine hg v w ?_
    rwa [succ, hv, Option.getD_some]
  · intro hrows v w hw
    rw [succ] at hw
    cases hv : g.successors[v]? with
    | none =>
        rw [hv] at hw
        cases hw
    | some vs =>
        rw [hv, Option.getD_some] at hw
        exact hrows vs (Array.mem_toList_iff.mpr (Array.mem_of_getElem? hv)) w hw

theorem InRange.lt_size_of_reaches (hg : g.InRange) (hstart : start < g.size) {v : Nat}
    (h : g.Reaches start v) : v < g.size := by
  rcases h.cases_tail with rfl | ⟨u, -, hv⟩
  · exact hstart
  · exact hg u v hv

theorem InRange.mem_depthFirst_iff (hg : g.InRange) (hstart : start < g.size) {v : Nat} :
    v ∈ g.depthFirst start ↔ g.Reaches start v := by
  rw [Adjacency.mem_depthFirst_iff]
  exact ⟨And.right, fun h => ⟨hg.lt_size_of_reaches hstart h, h⟩⟩

theorem InRange.mem_postorder_iff (hg : g.InRange) (hstart : start < g.size) {v : Nat} :
    v ∈ g.postorder start ↔ g.Reaches start v := by
  rw [Adjacency.mem_postorder_iff, ← Adjacency.mem_depthFirst_iff, hg.mem_depthFirst_iff hstart]

theorem isFree_clear_of_lt (hstart : start < g.size) :
    (Marks.clear g.size).isFree start = true := by
  rwa [Marks.isFree_clear, decide_eq_true_iff]

def frontierAt (g : Adjacency) (start : Nat) : Frontier := Frontier.push ⟨.clear g.size, []⟩ start

/-- The node on top of the stack, and the search that has its free successors in its place. -/
def next? (g : Adjacency) : Frontier → Option (Nat × Frontier)
  | ⟨_, []⟩ => none
  | ⟨marks, v :: rest⟩ => some (v, Frontier.pushAll ⟨marks, rest⟩ (g.succ v))

/-- Asked for the next node again and again, the search names these, and then none. -/
inductive Yields (g : Adjacency) : Frontier → List Nat → Prop
  | done {f : Frontier} : g.next? f = none → g.Yields f []
  | next {f f' : Frontier} {v : Nat} {vs : List Nat} :
      g.next? f = some (v, f') → g.Yields f' vs → g.Yields f (v :: vs)

theorem yields_drain (g : Adjacency) (f : Frontier) (order : Array Nat) :
    ∃ vs, g.Yields f vs ∧ (g.drain f order).toList = order.toList ++ vs := by
  fun_induction g.drain f order with
  | case1 marks order => exact ⟨[], .done rfl, (List.append_nil _).symm⟩
  | case2 marks v rest order ih =>
      obtain ⟨vs, hvs, hdrain⟩ := ih
      refine ⟨v :: vs, .next rfl hvs, ?_⟩
      rw [hdrain, Array.toList_push, List.append_assoc, List.singleton_append]

theorem yields_depthFirst (g : Adjacency) (start : Nat) :
    g.Yields (g.frontierAt start) (g.depthFirst start) := by
  obtain ⟨vs, hvs, hdrain⟩ := g.yields_drain (g.frontierAt start) #[]
  rw [List.nil_append] at hdrain
  rwa [depthFirst, ← frontierAt, hdrain]

/-- A search in progress: no node was named or waits twice, and all but the start are successors of nodes
named before. -/
structure Traced (g : Adjacency) (start : Nat) (f : Frontier) (order : List Nat) : Prop
    extends Searched g start f order where
  nodup : (f.stack ++ order).Nodup
  waiting : ∀ v ∈ f.stack, (order = [] ∧ v = start) ∨ ∃ u ∈ order, v ∈ g.succ u
  named : ∀ before v, before ++ [v] <+: order →
    (before = [] ∧ v = start) ∨ ∃ u ∈ before, v ∈ g.succ u

namespace Traced

theorem initial (g : Adjacency) (start : Nat) : Traced g start (g.frontierAt start) [] := by
  have hstack : (g.frontierAt start).stack = [start] ∨ (g.frontierAt start).stack = [] := by
    rw [frontierAt, Frontier.push]
    split
    next => exact .inl rfl
    next => exact .inr rfl
  refine ⟨Searched.initial g start, ?_, ?_, ?_⟩
  · rcases hstack with h | h <;> simp [h]
  · intro v hv
    rcases hstack with h | h <;> rw [h] at hv
    · exact .inl ⟨rfl, List.mem_singleton.mp hv⟩
    · cases hv
  · intro before v hpre
    simp at hpre

/-- What waits was not named. -/
theorem ne_of_mem {f : Frontier} {order : List Nat} (h : Traced g start f order) {v u : Nat}
    (hv : v ∈ f.stack) (hu : u ∈ order) : v ≠ u :=
  (List.nodup_append.mp h.nodup).2.2 v hv u hu

theorem take {marks : Marks} {v : Nat} {rest order : List Nat}
    (h : Traced g start ⟨marks, v :: rest⟩ order) :
    Traced g start (Frontier.pushAll ⟨marks, rest⟩ (g.succ v)) (order ++ [v]) := by
  have hstack := Frontier.stack_pushAll ⟨marks, rest⟩ (g.succ v)
  refine ⟨h.toSearched.take, ?_, ?_, ?_⟩
  · have hold : (rest ++ (order ++ [v])).Nodup := by
      refine (List.Perm.nodup_iff ?_).mp h.nodup
      rw [← List.append_assoc]
      exact (List.perm_append_singleton v (rest ++ order)).symm
    rw [hstack, List.append_assoc]
    refine (List.nodup_dedup _).append hold ?_
    -- what is put on the stack was free, so it neither waits nor was named
    intro w hnew hseen
    obtain ⟨-, hwaiting, hnamed⟩ :=
      (h.isFree_iff w).mp (List.of_mem_filter (List.mem_dedup.mp hnew))
    simp only [List.mem_append, List.mem_cons] at hseen hwaiting
    tauto
  · intro w hw
    rw [hstack, List.mem_append, List.mem_dedup, List.mem_filter] at hw
    rcases hw with ⟨hw, -⟩ | hw
    · exact .inr ⟨v, List.mem_append_right _ List.mem_cons_self, hw⟩
    · rcases h.waiting w (List.mem_cons_of_mem v hw) with ⟨rfl, rfl⟩ | ⟨u, hu, hwu⟩
      · rcases h.waiting v List.mem_cons_self with ⟨-, rfl⟩ | ⟨u, hu, -⟩
        · have honce := h.nodup
          rw [List.append_nil] at honce
          exact absurd hw (List.nodup_cons.mp honce).1
        · cases hu
      · exact .inr ⟨u, List.mem_append_left _ hu, hwu⟩
  · intro before w hpre
    rcases concat_prefix_concat_iff.mp hpre with ⟨rfl, rfl⟩ | hpre
    · exact h.waiting w List.mem_cons_self
    · exact h.named before w hpre

end Traced

theorem exists_traced_depthFirst (g : Adjacency) (start : Nat) :
    ∃ marks, Traced g start ⟨marks, []⟩ (g.depthFirst start) :=
  drain_invariant (fun h => h.take) #[] (Traced.initial g start)

theorem nodup_depthFirst (g : Adjacency) (start : Nat) : (g.depthFirst start).Nodup := by
  obtain ⟨marks, h⟩ := g.exists_traced_depthFirst start
  exact h.nodup

/-- The first of the order is the start, any other a successor of one before it. -/
theorem named_depthFirst {before : List Nat} {v : Nat}
    (h : before ++ [v] <+: g.depthFirst start) :
    (before = [] ∧ v = start) ∨ ∃ u ∈ before, v ∈ g.succ u := by
  obtain ⟨marks, htraced⟩ := g.exists_traced_depthFirst start
  exact htraced.named before v h

theorem head?_depthFirst (hstart : start < g.size) : (g.depthFirst start).head? = some start := by
  have hmem : start ∈ g.depthFirst start := mem_depthFirst_iff.mpr ⟨hstart, .refl⟩
  cases horder : g.depthFirst start with
  | nil =>
      rw [horder] at hmem
      cases hmem
  | cons v rest =>
      have hpre : [] ++ [v] <+: g.depthFirst start := by
        rw [horder]
        exact ⟨rest, rfl⟩
      rcases named_depthFirst hpre with ⟨-, rfl⟩ | ⟨u, hu, -⟩
      · rfl
      · cases hu

theorem length_depthFirst_le (g : Adjacency) (start : Nat) :
    (g.depthFirst start).length ≤ g.size := by
  have hsubset : g.depthFirst start ⊆ List.range g.size := by
    intro v hv
    exact List.mem_range.mpr (mem_depthFirst_iff.mp hv).1
  rw [← List.length_range (n := g.size)]
  exact ((g.nodup_depthFirst start).subperm hsubset).length_le

/-- The iteration ends after one more call than there are nodes to name. All orders hold the same nodes. -/
theorem depthFirst_visits_reachable (hg : g.InRange) (hstart : start < g.size) :
    g.Yields (g.frontierAt start) (g.depthFirst start) ∧
    (g.depthFirst start).length ≤ g.size ∧
    (g.depthFirst start).head? = some start ∧
    (g.depthFirst start).Nodup ∧
    (∀ v, v ∈ g.depthFirst start ↔ g.Reaches start v) ∧
    (∀ before v, before ++ [v] <+: g.depthFirst start → before ≠ [] →
      ∃ u ∈ before, v ∈ g.succ u) ∧
    (∀ v, v ∈ g.depthFirst start ↔ v ∈ g.postorder start) ∧
    ∀ v, v ∈ g.depthFirst start ↔ v ∈ g.reversePostorder start := by
  refine ⟨g.yields_depthFirst start, g.length_depthFirst_le start, head?_depthFirst hstart,
    g.nodup_depthFirst start, fun v => hg.mem_depthFirst_iff hstart, ?_, ?_, ?_⟩
  · intro before v hpre hne
    exact (named_depthFirst hpre).resolve_left fun h => hne h.1
  · intro v
    rw [hg.mem_depthFirst_iff hstart, hg.mem_postorder_iff hstart]
  · intro v
    rw [hg.mem_depthFirst_iff hstart, reversePostorder, List.mem_reverse,
      hg.mem_postorder_iff hstart]

/-- A loop, two edges to one node with another edge in between, and an edge back. No edge leads to the
last node. -/
def loops : Adjacency := ⟨#[[0, 1, 2, 1], [2], [0], [1]]⟩

theorem depthFirst_visits_loops :
    loops.InRange ∧ loops.depthFirst 0 = [0, 2, 1] ∧ ¬ loops.Reaches 0 3 := by
  have hrange : loops.InRange := inRange_iff.mpr (by decide)
  have hstart : 0 < loops.size := by decide
  have horder : loops.depthFirst 0 = [0, 2, 1] := by cbv
  obtain ⟨-, -, -, -, hmem, -⟩ := depthFirst_visits_reachable hrange hstart
  refine ⟨hrange, horder, ?_⟩
  rw [← hmem, horder]
  decide

end Adjacency

end DalvikFlow
