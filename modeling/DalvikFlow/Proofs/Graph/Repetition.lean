import DalvikFlow.Proofs.Graph.Postorder
import DalvikFlow.Proofs.Sequence

/-! Orders of a graph do not see that a successor is repeated. For the postorder this holds of the
list, for the depth-first order of its members only: there the last of the repeated successors counts. -/
namespace DalvikFlow.Adjacency

variable {g : Adjacency}

/-- Each successor once, where it comes first. -/
def distinct (g : Adjacency) : Adjacency := ⟨g.successors.map List.eraseDups⟩

@[simp] theorem size_distinct (g : Adjacency) : g.distinct.size = g.size := Array.size_map

@[simp] theorem succ_distinct (g : Adjacency) (v : Nat) :
    g.distinct.succ v = (g.succ v).eraseDups := by
  rw [distinct, succ, succ, Array.getElem?_map]
  cases g.successors[v]? <;> simp

/-- The second list lacks some visits that enter nodes marked by the time they are made. -/
inductive Thinned : Marks → List Visit → List Visit → Prop
  | nil {marks} : Thinned marks [] []
  | leave {marks v rest rest'} : Thinned marks rest rest' →
      Thinned marks (.leave v :: rest) (.leave v :: rest')
  | enter {marks v rest rest'} : Thinned (marks.mark v) rest rest' →
      Thinned marks (.enter v :: rest) (.enter v :: rest')
  | skip {marks v rest rest'} : marks.isFree v = false → Thinned marks rest rest' →
      Thinned marks (.enter v :: rest) rest'

namespace Thinned

variable {marks : Marks} {pending pending' : List Visit}

/-- More marks do no harm. -/
theorem mono (h : Thinned marks pending pending') {marks' : Marks}
    (hle : ∀ w, marks.isFree w = false → marks'.isFree w = false) :
    Thinned marks' pending pending' := by
  induction h generalizing marks' with
  | nil => exact .nil
  | leave _ ih => exact .leave (ih hle)
  | enter _ ih =>
      refine .enter (ih fun w hw => ?_)
      rw [Marks.isFree_mark_eq_false_iff] at hw ⊢
      exact hw.imp_left (hle w)
  | skip hv _ ih => exact .skip (hle _ hv) (ih hle)

theorem of_mark {v : Nat} (h : Thinned (marks.mark v) pending pending')
    (hv : marks.isFree v = false) : Thinned marks pending pending' := by
  refine h.mono fun w hw => ?_
  rcases Marks.isFree_mark_eq_false_iff.mp hw with hw | rfl
  · exact hw
  · exact hv

/-- Nodes that are entered in turn can be entered once each. -/
theorem enterAll (h : Thinned marks pending pending') (vs : List Nat) :
    Thinned marks (vs.map .enter ++ pending)
      ((vs.eraseDups.filter marks.isFree).map .enter ++ pending') := by
  induction vs generalizing marks with
  | nil => exact h
  | cons v vs ih =>
      rw [List.eraseDups_cons, eraseDups_filter]
      by_cases hv : marks.isFree v = true
      · have hfilter : (vs.eraseDups.filter fun w => !w == v).filter marks.isFree =
            vs.eraseDups.filter (marks.mark v).isFree := by
          rw [List.filter_filter]
          refine List.filter_congr fun w _ => ?_
          by_cases hw : v = w
          · simp [Marks.isFree_mark, hw]
          · simp [Marks.isFree_mark, hw, Ne.symm hw]
        rw [List.filter_cons_of_pos hv, hfilter]
        refine .enter (ih (h.mono fun w hw => ?_))
        exact Marks.isFree_mark_eq_false_iff.mpr (.inl hw)
      · have hfilter : (vs.eraseDups.filter fun w => !w == v).filter marks.isFree =
            vs.eraseDups.filter marks.isFree := by
          rw [List.filter_filter]
          refine List.filter_congr fun w _ => ?_
          by_cases hw : w = v
          · simp [hw, hv]
          · simp [hw]
        rw [List.filter_cons_of_neg hv, hfilter]
        exact .skip (Bool.eq_false_iff.mpr hv) (ih h)

end Thinned

theorem visit_enter_of_free (g : Adjacency) {marks : Marks} {v : Nat} (rest : List Visit)
    (order : Array Nat) (hv : marks.isFree v = true) :
    g.visit marks (.enter v :: rest) order =
      g.visit (marks.mark v)
        (((g.succ v).filter (marks.mark v).isFree).map .enter ++ .leave v :: rest) order := by
  rw [visit, dif_pos hv]

theorem visit_distinct (marks : Marks) (pending : List Visit) (order : Array Nat) :
    ∀ pending', Thinned marks pending pending' →
      g.distinct.visit marks pending' order = g.visit marks pending order := by
  fun_induction g.visit marks pending order with
  | case1 marks order =>
      intro pending' h
      cases h
      rw [visit]
  | case2 marks order v rest ih =>
      intro pending' h
      cases h with
      | leave h =>
          rw [visit]
          exact ih _ h
  | case3 marks order v rest hv marked next ih =>
      intro pending' h
      cases h with
      | skip hmarked => exact absurd hv (Bool.eq_false_iff.mp hmarked)
      | enter h =>
          have hnext : (g.succ v).eraseDups.filter marked.isFree =
              next.eraseDups.filter marked.isFree := by
            rw [eraseDups_filter, List.filter_filter]
            simp only [Bool.and_self]
          rw [visit_enter_of_free _ _ _ hv, succ_distinct, hnext]
          exact ih _ ((Thinned.leave h).enterAll next)
  | case4 marks order v rest hv ih =>
      intro pending' h
      cases h with
      | skip _ h => exact ih _ h
      | enter h =>
          rw [visit, dif_neg hv]
          exact ih _ (h.of_mark (Bool.eq_false_iff.mpr hv))

/-- A node that is entered again is marked by then. -/
theorem postorder_distinct (g : Adjacency) (start : Nat) :
    g.distinct.postorder start = g.postorder start := by
  rw [postorder, postorder, size_distinct, visit_distinct _ _ _ _ (.enter .nil)]

theorem reversePostorder_distinct (g : Adjacency) (start : Nat) :
    g.distinct.reversePostorder start = g.reversePostorder start := by
  rw [reversePostorder, reversePostorder, postorder_distinct]

theorem mem_depthFirst_distinct {start v : Nat} :
    v ∈ g.distinct.depthFirst start ↔ v ∈ g.depthFirst start := by
  have hreaches : g.distinct.Reaches = g.Reaches := by
    simp only [Reaches, succ_distinct, List.mem_eraseDups]
  rw [mem_depthFirst_iff, mem_depthFirst_iff, size_distinct, hreaches]

end DalvikFlow.Adjacency
