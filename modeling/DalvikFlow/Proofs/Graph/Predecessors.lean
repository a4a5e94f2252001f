import DalvikFlow.Proofs.Graph.Children

/-! The predecessors of a node, collected edge by edge, are the nodes that have it as a child. -/
namespace DalvikFlow.FlowGraph

/-- What is noted for a target. -/
def sourcesOf (sources : Array (Array Nat)) (target : Nat) : List Nat :=
  ((sources[target]?).map Array.toList).getD []

section Collect

variable {sources : Array (Array Nat)} {t : Nat} (ht : t < sources.size)

include ht

theorem sourcesOf_noteSource (source target : Nat) :
    sourcesOf (noteSource sources source target) t =
      if target = t ∧ (sourcesOf sources t).getLast? ≠ some source then
        sourcesOf sources t ++ [source]
      else sourcesOf sources t := by
  have hrow : sources[t]? = some sources[t] := Array.getElem?_eq_getElem ht
  simp only [sourcesOf, noteSource, Array.getElem?_modify, hrow, Option.map_some,
    Option.getD_some, Array.getLast?_toList]
  by_cases htarget : target = t
  · by_cases hlast : sources[t].back? = some source
    · simp [htarget, hlast]
    · simp [htarget, hlast]
  · simp [htarget]

/-- A source that is noted last is not noted again. -/
theorem sourcesOf_foldl_of_last {source : Nat}
    (hlast : (sourcesOf sources t).getLast? = some source) (targets : List Nat) :
    sourcesOf (targets.foldl (fun s target => noteSource s source target) sources) t =
      sourcesOf sources t := by
  induction targets generalizing sources with
  | nil => rfl
  | cons target rest ih =>
      have hnote : sourcesOf (noteSource sources source target) t = sourcesOf sources t := by
        rw [sourcesOf_noteSource ht, if_neg fun h => h.2 hlast]
      rw [List.foldl_cons, ih ?_ ?_, hnote]
      · rw [size_noteSource]
        exact ht
      · rw [hnote]
        exact hlast

/-- However many edges a node has to a target, it is noted once. -/
theorem sourcesOf_foldl {source : Nat} (hnew : source ∉ sourcesOf sources t)
    (targets : List Nat) :
    sourcesOf (targets.foldl (fun s target => noteSource s source target) sources) t =
      sourcesOf sources t ++ if t ∈ targets then [source] else [] := by
  induction targets generalizing sources with
  | nil => simp
  | cons target rest ih =>
      have hsize : t < (noteSource sources source target).size := by
        rw [size_noteSource]
        exact ht
      have hlast : (sourcesOf sources t).getLast? ≠ some source := fun h =>
        hnew (List.mem_of_getLast? h)
      have hnote := sourcesOf_noteSource ht source target
      rw [List.foldl_cons]
      by_cases htarget : target = t
      · rw [if_pos ⟨htarget, hlast⟩] at hnote
        rw [sourcesOf_foldl_of_last hsize (by rw [hnote]; simp), hnote, if_pos (by simp [htarget])]
      · rw [if_neg fun h => htarget h.1] at hnote
        rw [ih hsize (by rw [hnote]; exact hnew), hnote]
        simp [Ne.symm htarget]

theorem sourcesOf_foldl_noteSources {nodes : List Node} (hnodup : (nodes.map Node.id).Nodup)
    (hnew : ∀ n ∈ nodes, n.id ∉ sourcesOf sources t) :
    sourcesOf (nodes.foldl noteSources sources) t =
      sourcesOf sources t ++ (nodes.filter fun n => n.children.contains t).map Node.id := by
  induction nodes generalizing sources with
  | nil => simp
  | cons n nodes ih =>
      obtain ⟨hid, hnodup⟩ := List.nodup_cons.mp hnodup
      have hnote : sourcesOf (noteSources sources n) t =
          sourcesOf sources t ++ if t ∈ n.children then [n.id] else [] :=
        sourcesOf_foldl ht (hnew n List.mem_cons_self) n.children
      have hnew' : ∀ m ∈ nodes, m.id ∉ sourcesOf (noteSources sources n) t := by
        intro m hm hmem
        rw [hnote, List.mem_append] at hmem
        rcases hmem with hmem | hmem
        · exact hnew m (List.mem_cons_of_mem n hm) hmem
        · split at hmem
          next =>
            rw [← List.mem_singleton.mp hmem] at hid
            exact hid (List.mem_map_of_mem hm)
          next => cases hmem
      rw [List.foldl_cons, ih (by rw [size_noteSources]; exact ht) hnodup hnew', hnote]
      by_cases hchild : t ∈ n.children
      · simp [hchild]
      · simp [hchild]

end Collect

theorem predecessors_ofNodes {nodes : Array Node} (hnodup : (nodes.toList.map Node.id).Nodup)
    {t : Nat} (ht : t < nodes.size) :
    (ofNodes nodes).predecessors t =
      (nodes.toList.filter fun n => n.children.contains t).map Node.id := by
  have hempty : sourcesOf (Array.replicate nodes.size #[]) t = [] := by
    simp [sourcesOf, ht]
  have hlt : t < (Array.replicate nodes.size (#[] : Array Nat)).size := by
    rwa [Array.size_replicate]
  have hcollect := sourcesOf_foldl_noteSources hlt hnodup (by simp [hempty])
  rw [hempty, List.nil_append] at hcollect
  rw [← hcollect, Array.foldl_toList]
  rfl

theorem size_sources_ofNodes (nodes : Array Node) : (ofNodes nodes).sources.size = nodes.size := by
  have hfold : ∀ (rest : List Node) (sources : Array (Array Nat)),
      (rest.foldl noteSources sources).size = sources.size := by
    intro rest
    induction rest with
    | nil => exact fun _ => rfl
    | cons n rest ih =>
        intro sources
        rw [List.foldl_cons, ih, size_noteSources]
  rw [ofNodes, collectSources, ← Array.foldl_toList, hfold, Array.size_replicate]

namespace Shows

variable {g : FlowGraph} {distinct : Bool} {code : List Instruction} (h : g.Shows distinct code)

include h

theorem map_id_nodes : g.nodes.toList.map Node.id = List.range g.size := by
  apply List.ext_getElem
  · simp [size]
  · intro l hl _
    rw [List.length_map, Array.length_toList] at hl
    have hn : g.node? l = some g.nodes[l] := Array.getElem?_eq_getElem hl
    simpa using h.node_id hn

theorem children_id {n : Node} (hn : n ∈ g.nodes.toList) : g.children n.id = n.children := by
  obtain ⟨l, hl⟩ := List.mem_iff_getElem?.mp hn
  rw [Array.getElem?_toList] at hl
  have hl : g.node? l = some n := hl
  rw [h.node_id hl, children, hl, Option.map_some, Option.getD_some]

/-- The nodes with an edge to this one, ascending. -/
theorem predecessors_eq (t : Nat) :
    g.predecessors t = (List.range g.size).filter fun l => (g.children l).contains t := by
  by_cases ht : t < g.size
  · have hnodup : (g.nodes.toList.map Node.id).Nodup := by
      rw [h.map_id_nodes]
      exact List.nodup_range
    have hcollect := predecessors_ofNodes hnodup ht
    rw [← h.indexed] at hcollect
    rw [hcollect, ← h.map_id_nodes, List.filter_map]
    congr 1
    refine List.filter_congr fun n hn => ?_
    rw [Function.comp_apply, h.children_id hn]
  · have hsources : g.sources[t]? = none := by
      rw [h.indexed]
      apply Array.getElem?_eq_none
      rw [size_sources_ofNodes]
      exact Nat.le_of_not_lt ht
    have hnone : ∀ l ∈ List.range g.size, ¬ (g.children l).contains t = true := by
      intro l _ hc
      exact ht (h.executable_of_mem_children (List.contains_iff_mem.mp hc)).lt_size
    rw [predecessors, hsources, List.filter_eq_nil_iff.mpr hnone]
    rfl

theorem mem_predecessors_iff {t l : Nat} : l ∈ g.predecessors t ↔ t ∈ g.children l := by
  rw [h.predecessors_eq, List.mem_filter, List.mem_range, List.contains_iff_mem]
  refine ⟨And.right, fun hc => ⟨?_, hc⟩⟩
  refine Nat.lt_of_not_le fun hle => ?_
  rw [children_eq_nil hle] at hc
  cases hc

theorem pairwise_predecessors (t : Nat) : (g.predecessors t).Pairwise (· < ·) := by
  rw [h.predecessors_eq]
  exact List.pairwise_lt_range.filter _

theorem predecessors_eq_nil {t : Nat} (ht : g.size ≤ t) : g.predecessors t = [] := by
  rw [List.eq_nil_iff_forall_not_mem]
  intro l hl
  have hc := h.mem_predecessors_iff.mp hl
  exact Nat.not_lt_of_le ht (h.executable_of_mem_children hc).lt_size

end Shows

/-- The last entry is all that is looked at before an edge is noted. That suffices, since the edges come
in the order of their sources. -/
theorem predecessors_converse {options : GraphOptions} {code : List Instruction} {g : FlowGraph}
    (hg : (ofCode options code).result = .ok g) :
    (∀ u v, u ∈ g.predecessors v ↔ v ∈ g.children u) ∧
    (∀ v, (g.predecessors v).Pairwise (· < ·) ∧ (g.predecessors v).Nodup) ∧
    ∀ v, g.size ≤ v → g.predecessors v = [] ∧ g.children v = [] := by
  have h := shows_of_result hg
  refine ⟨fun u v => h.mem_predecessors_iff, ?_, ?_⟩
  · intro v
    have hascending := h.pairwise_predecessors v
    exact ⟨hascending, hascending.imp Nat.ne_of_lt⟩
  · intro v hv
    exact ⟨h.predecessors_eq_nil hv, children_eq_nil hv⟩

/-- Three edges from the switch to the node after it, with one to another node in between. -/
theorem predecessors_of_sampleBody :
    ∃ g, (ofCode ⟨false⟩ sampleBody).result = .ok g ∧ g.children 1 = [0, 3, 0, 0] ∧
      1 ∈ g.predecessors 0 ∧ (g.predecessors 0).Nodup ∧ g.predecessors 4 = [] := by
  obtain ⟨g, hg⟩ : ∃ g, (ofCode ⟨false⟩ sampleBody).result = .ok g := ⟨_, rfl⟩
  obtain ⟨hconverse, hascending, houtside⟩ := predecessors_converse hg
  have hchildren : g.children 1 = [0, 3, 0, 0] := by
    cases hg
    rfl
  have hsize : g.size = 4 := by
    cases hg
    rfl
  refine ⟨g, hg, hchildren, ?_, (hascending 0).2, (houtside 4 (Nat.le_of_eq hsize)).1⟩
  rw [hconverse, hchildren]
  exact List.mem_cons_self

end DalvikFlow.FlowGraph
