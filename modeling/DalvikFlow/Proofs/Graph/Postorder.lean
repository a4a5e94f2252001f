import DalvikFlow.Proofs.Graph.Reachable

/-! The postorder holds exactly the nodes that can be reached. -/
namespace DalvikFlow

namespace Marks

variable {m : Marks} {v w : Nat}

theorem isFree_mark_eq_true_iff :
    (m.mark v).isFree w = true ↔ m.isFree w = true ∧ v ≠ w := by
  rw [isFree_mark, Bool.and_eq_true, decide_eq_true_iff]

theorem isFree_mark_eq_false_iff :
    (m.mark v).isFree w = false ↔ m.isFree w = false ∨ v = w := by
  rw [isFree_mark, Bool.and_eq_false_iff, decide_eq_false_iff_not, ne_eq, not_not]

end Marks

namespace Adjacency

variable {g : Adjacency} {start : Nat}

/-- Visits in progress: the nodes in the order and those still to be left are the marked ones. They
are reached, and their successors are marked or still to be entered. -/
structure Visited (g : Adjacency) (start : Nat) (marks : Marks) (pending : List Visit)
    (order : List Nat) : Prop where
  free_lt : ∀ v, marks.isFree v = true → v < g.size
  marked_iff : ∀ v, .leave v ∈ pending ∨ v ∈ order ↔ v < g.size ∧ marks.isFree v = false
  found : ∀ v, .enter v ∈ pending ∨ v < g.size ∧ marks.isFree v = false → g.Reaches start v
  closed : ∀ v < g.size, marks.isFree v = false →
    ∀ w ∈ g.succ v, .enter w ∈ pending ∨ marks.isFree w = false
  start_mem : .enter start ∈ pending ∨ marks.isFree start = false

namespace Visited

variable {marks : Marks} {v : Nat} {rest : List Visit} {order : List Nat}

theorem initial (g : Adjacency) (start : Nat) :
    Visited g start (.clear g.size) [.enter start] [] := by
  refine ⟨?_, ?_, ?_, ?_, .inl List.mem_cons_self⟩
  · intro v hv
    simpa using hv
  · intro v
    simp
  · rintro v (hv | ⟨hlt, hmarked⟩)
    · cases List.mem_singleton.mp hv
      exact .refl
    · simp [hlt] at hmarked
  · intro v hlt hmarked
    simp [hlt] at hmarked

theorem leave (h : Visited g start marks (.leave v :: rest) order) :
    Visited g start marks rest (order ++ [v]) := by
  refine ⟨h.free_lt, ?_, ?_, ?_, ?_⟩
  · intro w
    rw [← h.marked_iff w]
    simp only [List.mem_append, List.mem_cons, List.not_mem_nil, or_false, Visit.leave.injEq]
    tauto
  · intro w hw
    exact h.found w (hw.imp_left (List.mem_cons_of_mem _))
  · intro u hlt hu w hw
    simpa using h.closed u hlt hu w hw
  · simpa using h.start_mem

theorem skip (h : Visited g start marks (.enter v :: rest) order) (hv : marks.isFree v = false) :
    Visited g start marks rest order := by
  -- what is no longer to be entered is marked
  have hpending : ∀ w, .enter w ∈ Visit.enter v :: rest ∨ marks.isFree w = false →
      .enter w ∈ rest ∨ marks.isFree w = false := by
    rintro w (hw | hw)
    · rcases List.mem_cons.mp hw with hw | hw
      · cases hw
        exact .inr hv
      · exact .inl hw
    · exact .inr hw
  refine ⟨h.free_lt, ?_, ?_, ?_, hpending _ h.start_mem⟩
  · intro w
    simpa using h.marked_iff w
  · intro w hw
    exact h.found w (hw.imp_left (List.mem_cons_of_mem _))
  · intro u hlt hu w hw
    exact hpending w (h.closed u hlt hu w hw)

/-- The node is marked, and its free successors are to be entered before it is left. -/
theorem enter (h : Visited g start marks (.enter v :: rest) order) (hv : marks.isFree v = true) :
    Visited g start (marks.mark v)
      (((g.succ v).filter (marks.mark v).isFree).map .enter ++ .leave v :: rest) order := by
  have henter : ∀ w, .enter w ∈ ((g.succ v).filter (marks.mark v).isFree).map Visit.enter ++
      .leave v :: rest ↔ (w ∈ g.succ v ∧ (marks.mark v).isFree w = true) ∨ .enter w ∈ rest := by
    intro w
    simp
  have hleave : ∀ w, .leave w ∈ ((g.succ v).filter (marks.mark v).isFree).map Visit.enter ++
      .leave v :: rest ↔ w = v ∨ .leave w ∈ rest := by
    intro w
    simp
  have hreach : g.Reaches start v := h.found v (.inl List.mem_cons_self)
  have hpending : ∀ w, .enter w ∈ Visit.enter v :: rest ∨ marks.isFree w = false →
      .enter w ∈ ((g.succ v).filter (marks.mark v).isFree).map Visit.enter ++ .leave v :: rest ∨
        (marks.mark v).isFree w = false := by
    rintro w (hw | hw)
    · rcases List.mem_cons.mp hw with hw | hw
      · cases hw
        exact .inr (Marks.isFree_mark_eq_false_iff.mpr (.inr rfl))
      · exact .inl ((henter w).mpr (.inr hw))
    · exact .inr (Marks.isFree_mark_eq_false_iff.mpr (.inl hw))
  refine ⟨?_, ?_, ?_, ?_, hpending _ h.start_mem⟩
  · intro w hw
    exact h.free_lt w (Marks.isFree_mark_eq_true_iff.mp hw).1
  · intro w
    have hold : .leave w ∈ rest ∨ w ∈ order ↔ w < g.size ∧ marks.isFree w = false := by
      simpa using h.marked_iff w
    have hlt := h.free_lt v hv
    rw [hleave, Marks.isFree_mark_eq_false_iff, or_assoc, hold]
    constructor
    · rintro (rfl | ⟨hw, hmarked⟩)
      · exact ⟨hlt, .inr rfl⟩
      · exact ⟨hw, .inl hmarked⟩
    · rintro ⟨hw, hmarked | rfl⟩
      · exact .inr ⟨hw, hmarked⟩
      · exact .inl rfl
  · rintro w (hw | ⟨hlt, hmarked⟩)
    · rcases (henter w).mp hw with ⟨hsucc, -⟩ | hw
      · exact hreach.tail hsucc
      · exact h.found w (.inl (List.mem_cons_of_mem _ hw))
    · rcases Marks.isFree_mark_eq_false_iff.mp hmarked with hmarked | rfl
      · exact h.found w (.inr ⟨hlt, hmarked⟩)
      · exact hreach
  · intro u hlt hu w hw
    rcases Marks.isFree_mark_eq_false_iff.mp hu with hu | rfl
    · exact hpending w (h.closed u hlt hu w hw)
    · cases hfree : (marks.mark v).isFree w with
      | true => exact .inl ((henter w).mpr (.inl ⟨hw, hfree⟩))
      | false => exact .inr rfl

/-- The visits end with nothing pending. -/
theorem visit {pending : List Visit} {order : Array Nat}
    (h : Visited g start marks pending order.toList) :
    ∃ marks', Visited g start marks' [] (g.visit marks pending order).toList := by
  fun_induction g.visit marks pending order with
  | case1 marks order => exact ⟨marks, h⟩
  | case2 marks order v rest ih =>
      apply ih
      rw [Array.toList_push]
      exact h.leave
  | case3 marks order v rest hv marked next ih => exact ih (h.enter hv)
  | case4 marks order v rest hv ih => exact ih (h.skip (Bool.eq_false_iff.mpr hv))

end Visited

theorem mem_postorder_iff {v : Nat} :
    v ∈ g.postorder start ↔ v < g.size ∧ g.Reaches start v := by
  obtain ⟨marks, h⟩ := (Visited.initial g start).visit
  have hmem : v ∈ g.postorder start ↔ v < g.size ∧ marks.isFree v = false := by
    rw [← h.marked_iff v, postorder]
    simp
  have hmarked : ∀ w, g.Reaches start w → marks.isFree w = false := by
    intro w hreach
    induction hreach with
    | refl => exact h.start_mem.resolve_left List.not_mem_nil
    | tail _ hstep ih =>
        exact (h.closed _ (lt_size_of_mem_succ hstep) ih _ hstep).resolve_left List.not_mem_nil
  rw [hmem]
  refine and_congr_right fun hlt => ⟨?_, hmarked v⟩
  intro hv
  exact h.found v (.inr ⟨hlt, hv⟩)

theorem mem_reversePostorder_iff {v : Nat} :
    v ∈ g.reversePostorder start ↔ v < g.size ∧ g.Reaches start v := by
  rw [reversePostorder, List.mem_reverse, mem_postorder_iff]

end Adjacency

/-- Both orders hold the same nodes. -/
theorem FlowGraph.mem_reversePostorder_iff {g : FlowGraph} {l : Nat} :
    l ∈ g.reversePostorder ↔ l ∈ g.reachable := by
  rw [reversePostorder, Adjacency.mem_reversePostorder_iff, reachable,
    Adjacency.mem_depthFirst_iff]

end DalvikFlow
