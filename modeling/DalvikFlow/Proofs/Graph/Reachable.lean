import DalvikFlow.Graph.Basic
import Mathlib.Logic.Relation
import Mathlib.Tactic.Tauto

/-! A depth-first search takes from its stack exactly the nodes that can be reached. -/
namespace DalvikFlow

namespace Frontier

variable (f : Frontier)

theorem isFree_push (v w : Nat) :
    (f.push v).marks.isFree w = true ↔ f.marks.isFree w = true ∧ w ≠ v := by
  unfold push
  split
  next => rw [Marks.isFree_mark, Bool.and_eq_true, decide_eq_true_iff, ne_comm]
  next hv =>
    refine ⟨fun hw => ⟨hw, ?_⟩, And.left⟩
    rintro rfl
    exact hv hw

theorem mem_push (v w : Nat) :
    w ∈ (f.push v).stack ↔ w ∈ f.stack ∨ w = v ∧ f.marks.isFree w = true := by
  unfold push
  split
  next hv =>
    rw [List.mem_cons, or_comm]
    refine or_congr_right ⟨?_, And.left⟩
    rintro rfl
    exact ⟨rfl, hv⟩
  next hv =>
    refine ⟨.inl, ?_⟩
    rintro (hw | ⟨rfl, hw⟩)
    · exact hw
    · exact absurd hw hv

theorem isFree_pushAll (vs : List Nat) (w : Nat) :
    (f.pushAll vs).marks.isFree w = true ↔ f.marks.isFree w = true ∧ w ∉ vs := by
  induction vs with
  | nil => simp [pushAll]
  | cons v vs ih =>
      show ((f.pushAll vs).push v).marks.isFree w = true ↔ _
      rw [isFree_push, ih, List.mem_cons, not_or, and_assoc, and_comm (a := w ∉ vs)]

theorem mem_pushAll (vs : List Nat) (w : Nat) :
    w ∈ (f.pushAll vs).stack ↔ w ∈ f.stack ∨ w ∈ vs ∧ f.marks.isFree w = true := by
  induction vs with
  | nil => simp [pushAll]
  | cons v vs ih =>
      show w ∈ ((f.pushAll vs).push v).stack ↔ _
      rw [mem_push, isFree_pushAll, ih, List.mem_cons]
      by_cases hw : w ∈ vs
      · simp [hw]
      · simp [hw]

end Frontier

namespace Adjacency

/-- By edges, any number of them. -/
def Reaches (g : Adjacency) : Nat → Nat → Prop :=
  Relation.ReflTransGen fun v w => w ∈ g.succ v

variable {g : Adjacency} {start : Nat}

theorem lt_size_of_mem_succ {v w : Nat} (h : w ∈ g.succ v) : v < g.size := by
  refine Nat.lt_of_not_le fun hle => ?_
  rw [succ, Array.getElem?_eq_none hle] at h
  cases h

/-- What holds of a search, and still does when the node on top is taken and its free successors are put in
its place, holds when the stack is empty. -/
theorem drain_invariant {motive : Frontier → List Nat → Prop}
    (htake : ∀ {marks v rest order}, motive ⟨marks, v :: rest⟩ order →
      motive (Frontier.pushAll ⟨marks, rest⟩ (g.succ v)) (order ++ [v]))
    {f : Frontier} (order : Array Nat) (h : motive f order.toList) :
    ∃ marks, motive ⟨marks, []⟩ (g.drain f order).toList := by
  fun_induction g.drain f order with
  | case1 marks order => exact ⟨marks, h⟩
  | case2 marks v rest order ih =>
      apply ih
      rw [Array.toList_push]
      exact htake h

/-- A search in progress: the nodes that are not free are those on its stack and those taken from it.
They are reached, and of those taken all successors are among them. -/
structure Searched (g : Adjacency) (start : Nat) (f : Frontier) (order : List Nat) : Prop where
  isFree_iff : ∀ v, f.marks.isFree v = true ↔ v < g.size ∧ v ∉ f.stack ∧ v ∉ order
  found : ∀ v, v ∈ f.stack ∨ v ∈ order → v < g.size ∧ g.Reaches start v
  closed : ∀ v ∈ order, ∀ w ∈ g.succ v, w < g.size → w ∈ f.stack ∨ w ∈ order
  start_mem : start < g.size → start ∈ f.stack ∨ start ∈ order

namespace Searched

theorem initial (g : Adjacency) (start : Nat) :
    Searched g start (Frontier.push ⟨.clear g.size, []⟩ start) [] := by
  have hmem : ∀ v, v ∈ (Frontier.push ⟨.clear g.size, []⟩ start).stack ↔
      v = start ∧ v < g.size := by
    intro v
    simp [Frontier.mem_push]
  refine ⟨?_, ?_, nofun, ?_⟩
  · intro v
    rw [Frontier.isFree_push, hmem]
    simp
    omega
  · rintro v (hv | hv)
    · obtain ⟨rfl, hlt⟩ := (hmem v).mp hv
      exact ⟨hlt, .refl⟩
    · cases hv
  · intro hlt
    exact .inl ((hmem start).mpr ⟨rfl, hlt⟩)

/-- The node on top is taken, and its free successors are put in its place. -/
theorem take {marks : Marks} {v : Nat} {rest order : List Nat}
    (h : Searched g start ⟨marks, v :: rest⟩ order) :
    Searched g start (Frontier.pushAll ⟨marks, rest⟩ (g.succ v)) (order ++ [v]) := by
  have hfree : ∀ w, marks.isFree w = true ↔ w < g.size ∧ w ∉ v :: rest ∧ w ∉ order := h.isFree_iff
  have hmem : ∀ w, w ∈ (Frontier.pushAll ⟨marks, rest⟩ (g.succ v)).stack ↔
      w ∈ rest ∨ w ∈ g.succ v ∧ marks.isFree w = true := Frontier.mem_pushAll _ _
  have hv := h.found v (.inl List.mem_cons_self)
  -- nothing that was seen is lost: the node that leaves the stack enters the order
  have hseen : ∀ w, w ∈ v :: rest ∨ w ∈ order →
      w ∈ (Frontier.pushAll ⟨marks, rest⟩ (g.succ v)).stack ∨ w ∈ order ++ [v] := by
    intro w hw
    rw [hmem, List.mem_append, List.mem_singleton]
    rw [List.mem_cons] at hw
    tauto
  refine ⟨?_, ?_, ?_, ?_⟩
  · intro w
    rw [Frontier.isFree_pushAll, hmem, List.mem_append, List.mem_singleton, hfree, List.mem_cons]
    tauto
  · intro w hw
    rw [hmem, List.mem_append, List.mem_singleton] at hw
    rcases hw with (hw | ⟨hw, hnew⟩) | hw | rfl
    · exact h.found w (.inl (List.mem_cons_of_mem v hw))
    · exact ⟨((hfree w).mp hnew).1, hv.2.tail hw⟩
    · exact h.found w (.inr hw)
    · exact hv
  · intro u hu w hw hlt
    rcases List.mem_append.mp hu with hu | hu
    · exact hseen w (h.closed u hu w hw hlt)
    · obtain rfl := List.mem_singleton.mp hu
      by_cases hnew : marks.isFree w = true
      · exact .inl ((hmem w).mpr (.inr ⟨hw, hnew⟩))
      · apply hseen
        refine Classical.byContradiction fun hunseen => ?_
        rw [not_or] at hunseen
        exact hnew ((hfree w).mpr ⟨hlt, hunseen⟩)
  · intro hlt
    exact hseen start (h.start_mem hlt)

/-- The search ends with an empty stack. -/
theorem drain {f : Frontier} {order : Array Nat} (h : Searched g start f order.toList) :
    ∃ marks, Searched g start ⟨marks, []⟩ (g.drain f order).toList :=
  drain_invariant (fun h => h.take) order h

end Searched

theorem mem_depthFirst_iff {v : Nat} :
    v ∈ g.depthFirst start ↔ v < g.size ∧ g.Reaches start v := by
  obtain ⟨marks, h⟩ := (Searched.initial g start).drain
  constructor
  · intro hv
    exact h.found v (.inr hv)
  · rintro ⟨hlt, hreach⟩
    induction hreach with
    | refl => exact (h.start_mem hlt).resolve_left List.not_mem_nil
    | tail _ hstep ih =>
        have hu := ih (lt_size_of_mem_succ hstep)
        exact (h.closed _ hu _ hstep hlt).resolve_left List.not_mem_nil

end Adjacency

namespace FlowGraph

variable {g : FlowGraph}

/-- A node is reachable if a chain of children leads to it from the root. -/
theorem mem_reachable_iff {l : Nat} :
    l ∈ g.reachable ↔
      l < g.size ∧ Relation.ReflTransGen (fun v w => w ∈ g.children v) g.root l := by
  have hreaches : g.adjacency.Reaches = Relation.ReflTransGen fun v w => w ∈ g.children v := by
    simp only [Adjacency.Reaches, succ_adjacency]
  rw [reachable, Adjacency.mem_depthFirst_iff, size_adjacency, hreaches]

theorem root_mem_reachable (h : g.root < g.size) : g.root ∈ g.reachable :=
  mem_reachable_iff.mpr ⟨h, .refl⟩

theorem child_mem_reachable {l c : Nat} (hl : l ∈ g.reachable) (hc : c ∈ g.children l)
    (hsize : c < g.size) : c ∈ g.reachable :=
  mem_reachable_iff.mpr ⟨hsize, (mem_reachable_iff.mp hl).2.tail hc⟩

end FlowGraph

end DalvikFlow
