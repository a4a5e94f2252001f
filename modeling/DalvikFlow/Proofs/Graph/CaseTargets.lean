import DalvikFlow.Proofs.Graph.Predecessors
import DalvikFlow.Proofs.Graph.Repetition

/-! With distinct case targets the graph of a body is its plain graph without some parallel edges, and
the plain graph with all cases tells no more about control flow. -/
namespace DalvikFlow

open Body

namespace Edge

/-- A case whose target has a case among the edges before it. -/
def repeatsCase (before : List Edge) (e : Edge) : Bool :=
  e.via.isSwitchCase && before.any fun d => d.via.isSwitchCase && d.target = e.target

/-- Without the cases whose target has an earlier case, in the list or among the edges before it. -/
def firstCases (before : List Edge) : List Edge → List Edge
  | [] => []
  | e :: rest =>
    if e.repeatsCase before then firstCases (e :: before) rest
    else e :: firstCases (e :: before) rest

variable {before edges : List Edge}

theorem firstCases_eq_self (h : ∀ e ∈ edges, e.via.isSwitchCase = false) :
    firstCases before edges = edges := by
  induction edges generalizing before with
  | nil => rfl
  | cons e rest ih =>
      have he : ¬ e.repeatsCase before = true := by
        simp [repeatsCase, h e List.mem_cons_self]
      rw [firstCases, if_neg he, ih fun d hd => h d (List.mem_cons_of_mem e hd)]

/-- The first case of each target, and then what is no case. -/
theorem firstCases_append {others : List Edge} {seen : List Nat}
    (hseen : ∀ t, t ∈ seen ↔ ∃ d ∈ before, d.via.isSwitchCase = true ∧ d.target = t)
    (hcases : ∀ e ∈ edges, e.via.isSwitchCase = true)
    (hothers : ∀ e ∈ others, e.via.isSwitchCase = false) :
    firstCases before (edges ++ others) = firstPerTarget seen edges ++ others := by
  induction edges generalizing before seen with
  | nil => exact firstCases_eq_self hothers
  | cons e rest ih =>
      have he := hcases e List.mem_cons_self
      have hrest : ∀ d ∈ rest, d.via.isSwitchCase = true := fun d hd =>
        hcases d (List.mem_cons_of_mem e hd)
      have hrepeats : e.repeatsCase before = true ↔ e.target ∈ seen := by
        rw [hseen]
        simp [repeatsCase, he]
      have hseen' : ∀ t, t ∈ e.target :: seen ↔
          ∃ d ∈ e :: before, d.via.isSwitchCase = true ∧ d.target = t := by
        intro t
        rw [List.mem_cons, hseen, List.exists_mem_cons_iff, he, @eq_comm _ t]
        simp
      rw [List.cons_append, firstCases, firstPerTarget]
      by_cases h : e.target ∈ seen
      · rw [if_pos h, if_pos (hrepeats.mpr h)]
        refine ih (fun t => ?_) hrest
        rw [← hseen', List.mem_cons]
        refine ⟨.inr, ?_⟩
        rintro (rfl | ht)
        · exact h
        · exact ht
      · rw [if_neg h, if_neg (mt hrepeats.mp h), List.cons_append, ih hseen' hrest]

example : firstCases []
    [⟨0, .switchCase 5⟩, ⟨3, .switchCase 6⟩, ⟨0, .switchCase 7⟩, ⟨0, .fallthrough⟩] =
      [⟨0, .switchCase 5⟩, ⟨3, .switchCase 6⟩, ⟨0, .fallthrough⟩] := by decide

theorem target_mem_of_repeatsCase {e : Edge} (h : e.repeatsCase before = true) :
    e.target ∈ before.map target := by
  simp only [repeatsCase, Bool.and_eq_true, List.any_eq_true, decide_eq_true_eq] at h
  obtain ⟨-, d, hd, -, htarget⟩ := h
  exact htarget ▸ List.mem_map_of_mem hd

/-- The targets of edges to which none of the edges before them leads. -/
def newTargets (before edges : List Edge) : List Nat :=
  (edges.map target).filter fun t => !(before.map target).contains t

section

variable {e : Edge}

theorem newTargets_cons_of_mem (h : e.target ∈ before.map target) (edges : List Edge) :
    newTargets before (e :: edges) = newTargets before edges := by
  simp only [newTargets, List.map_cons]
  exact List.filter_cons_of_neg (by simp [h])

theorem newTargets_cons_of_notMem (h : e.target ∉ before.map target) (edges : List Edge) :
    newTargets before (e :: edges) = e.target :: newTargets before edges := by
  simp only [newTargets, List.map_cons]
  exact List.filter_cons_of_pos (by simp [h])

theorem newTargets_cons (e : Edge) (before edges : List Edge) :
    newTargets (e :: before) edges =
      (newTargets before edges).filter fun t => !t == e.target := by
  rw [newTargets, newTargets, List.filter_filter]
  refine List.filter_congr fun t _ => ?_
  by_cases ht : t = e.target
  · simp [ht]
  · simp [ht]

theorem newTargets_eq_of_mem (h : e.target ∈ before.map target) (edges : List Edge) :
    newTargets (e :: before) edges = newTargets before edges := by
  rw [newTargets_cons, List.filter_eq_self]
  intro t ht
  have hnew : t ∉ before.map target := by simpa using (List.mem_filter.mp ht).2
  have hne : t ≠ e.target := fun heq => hnew (heq ▸ h)
  simp [hne]

end

/-- An edge that is left out leads where an edge before it does. -/
theorem eraseDups_newTargets_firstCases (before edges : List Edge) :
    (newTargets before (firstCases before edges)).eraseDups =
      (newTargets before edges).eraseDups := by
  induction edges generalizing before with
  | nil => rfl
  | cons e rest ih =>
      have hrest := ih (e :: before)
      rw [firstCases]
      by_cases h : e.target ∈ before.map target
      · rw [newTargets_eq_of_mem h, newTargets_eq_of_mem h] at hrest
        rw [newTargets_cons_of_mem h, ← hrest]
        split
        next => rfl
        next => rw [newTargets_cons_of_mem h]
      · rw [if_neg (mt target_mem_of_repeatsCase h), newTargets_cons_of_notMem h,
          newTargets_cons_of_notMem h, List.eraseDups_cons, List.eraseDups_cons,
          ← newTargets_cons, ← newTargets_cons, hrest]

end Edge

/-- Without the cases whose target has an earlier case. -/
def Node.withFirstCases (n : Node) : Node := { n with edges := Edge.firstCases [] n.edges }

theorem Node.eraseDups_children_withFirstCases (n : Node) :
    n.withFirstCases.children.eraseDups = n.children.eraseDups := by
  simpa [withFirstCases, children, Edge.newTargets] using
    Edge.eraseDups_newTargets_firstCases [] n.edges

namespace Body

variable {code : List Instruction} {source p : Nat} {i : Instruction} {refs : List Edge}

/-- What an instruction has with distinct targets is what it has without, less the cases that repeat
a target. -/
theorem ReferenceEdges.withFirstCases (h : ReferenceEdges code false source i refs) :
    ∃ refs', ReferenceEdges code true source i refs' ∧
      refs' ++ continuation code p i = Edge.firstCases [] (refs ++ continuation code p i) := by
  have hcontinue : ∀ e ∈ continuation code p i, e.via.isSwitchCase = false := by
    intro e he
    obtain ⟨-, next, -, -, rfl⟩ := mem_continuation_iff.mp he
    rfl
  cases h with
  | absent hd =>
      refine ⟨[], .absent hd, ?_⟩
      exact (Edge.firstCases_eq_self hcontinue).symm
  | @switch d t edges hd ht honto hcases =>
      refine ⟨_, .switch hd ht honto hcases, ?_⟩
      have hkind : ∀ e ∈ edges, e.via.isSwitchCase = true := by
        intro e he
        obtain ⟨c, -, hc⟩ := exists_mem_of_forall₂ hcases.flip he
        exact CaseEdge.isSwitchCase hc
      exact (Edge.firstCases_append (by simp) hkind hcontinue).symm
  | data hd ht hi hp =>
      refine ⟨[], .data hd ht hi hp, ?_⟩
      exact (Edge.firstCases_eq_self hcontinue).symm
  | branch hd ht hs hn hm =>
      refine ⟨_, .branch hd ht hs hn hm, ?_⟩
      refine (Edge.firstCases_eq_self fun e he => ?_).symm
      rcases List.mem_append.mp he with he | he
      · cases List.mem_singleton.mp he
        rfl
      · exact hcontinue e he

end Body

namespace FlowGraph

/-- The graph without the cases whose target has an earlier case of the same switch. -/
def withFirstCases (g : FlowGraph) : FlowGraph := ofNodes (g.nodes.map Node.withFirstCases)

variable {g : FlowGraph} {code : List Instruction}

@[simp] theorem node?_withFirstCases (g : FlowGraph) (l : Nat) :
    g.withFirstCases.node? l = (g.node? l).map Node.withFirstCases := by
  rw [node?, withFirstCases, nodes_ofNodes, Array.getElem?_map]
  rfl

theorem Shows.withFirstCases (h : g.Shows false code) : g.withFirstCases.Shows true code := by
  refine ⟨h.nonempty, h.located, h.wide, h.fits, rfl, ?_, ?_⟩
  · intro p i hi
    obtain ⟨refs, hrefs⟩ := h.edges p i hi
    obtain ⟨refs', hrefs', -⟩ := hrefs.withFirstCases (p := p)
    exact ⟨refs', hrefs'⟩
  · intro l n
    rw [node?_withFirstCases, Option.map_eq_some_iff]
    simp only [h.node?_iff]
    constructor
    · rintro ⟨_, ⟨p, i, refs, hi, hloc, hrefs, rfl⟩, rfl⟩
      obtain ⟨refs', hrefs', hedges⟩ := hrefs.withFirstCases (p := p)
      refine ⟨p, i, refs', hi, hloc, hrefs', ?_⟩
      rw [Node.withFirstCases, hedges]
    · rintro ⟨p, i, refs', hi, hloc, hrefs', rfl⟩
      obtain ⟨refs, hrefs⟩ := h.edges p i hi
      obtain ⟨refs'', hrefs'', hedges⟩ := hrefs.withFirstCases (p := p)
      cases hrefs'.unique h.wide hrefs''
      refine ⟨_, ⟨p, i, refs, hi, hloc, hrefs, rfl⟩, ?_⟩
      rw [Node.withFirstCases, hedges]

/-- A body has one graph. -/
theorem Shows.unique {g' : FlowGraph} {distinct : Bool} (h : g.Shows distinct code)
    (h' : g'.Shows distinct code) : g = g' := by
  have hnodes : g.nodes = g'.nodes := by
    apply Array.ext_getElem?
    intro l
    apply Option.ext
    intro n
    exact (h.node?_iff l n).trans (h'.node?_iff l n).symm
  rw [h.indexed, h'.indexed, hnodes]

/-- Distinct targets change no error, and of a graph only the edges. -/
theorem result_distinct (code : List Instruction) :
    (ofCode ⟨true⟩ code).result = (ofCode ⟨false⟩ code).result.map FlowGraph.withFirstCases := by
  cases hplain : (ofCode ⟨false⟩ code).result with
  | error e => exact result_of_firstFault (firstFault_of_result hplain)
  | ok g =>
      cases hdistinct : (ofCode ⟨true⟩ code).result with
      | error e =>
          have herror : (ofCode ⟨false⟩ code).result = .error e :=
            result_of_firstFault (firstFault_of_result hdistinct)
          cases hplain.symm.trans herror
      | ok g' =>
          have hshows := (shows_of_result hplain).withFirstCases
          rw [(shows_of_result hdistinct).unique hshows]
          rfl

section Queries

variable (g)

theorem address?_withFirstCases (l : Nat) : g.withFirstCases.address? l = g.address? l := by
  rw [address?, address?, node?_withFirstCases, Option.map_map]
  rfl

theorem eraseDups_children_withFirstCases (l : Nat) :
    (g.withFirstCases.children l).eraseDups = (g.children l).eraseDups := by
  rw [children, children, node?_withFirstCases]
  cases g.node? l with
  | none => rfl
  | some n => exact n.eraseDups_children_withFirstCases

theorem mem_children_withFirstCases {l c : Nat} :
    c ∈ g.withFirstCases.children l ↔ c ∈ g.children l := by
  rw [← List.mem_eraseDups, eraseDups_children_withFirstCases, List.mem_eraseDups]

theorem nextAddresses_withFirstCases (l : Nat) :
    g.withFirstCases.nextAddresses l = g.nextAddresses l := by
  have haddress : g.withFirstCases.address? = g.address? := funext g.address?_withFirstCases
  rw [nextAddresses, nextAddresses, haddress, ← eraseDups_filterMap_eraseDups,
    eraseDups_children_withFirstCases, eraseDups_filterMap_eraseDups]

theorem childrenAt_withFirstCases (l : Nat) (addresses : List Nat) :
    g.withFirstCases.childrenAt l addresses = g.childrenAt l addresses := by
  simp only [childrenAt, eraseDups_filter, eraseDups_children_withFirstCases,
    address?_withFirstCases]

theorem distinct_adjacency_withFirstCases :
    g.withFirstCases.adjacency.distinct = g.adjacency.distinct := by
  simp only [adjacency, Adjacency.distinct, withFirstCases, nodes_ofNodes, Array.map_map]
  congr 1
  refine Array.map_congr_left fun n _ => ?_
  exact n.eraseDups_children_withFirstCases

theorem reversePostorder_withFirstCases :
    g.withFirstCases.reversePostorder = g.reversePostorder := by
  rw [reversePostorder, reversePostorder, ← Adjacency.reversePostorder_distinct,
    distinct_adjacency_withFirstCases, Adjacency.reversePostorder_distinct]
  rfl

theorem mem_reachable_withFirstCases {l : Nat} :
    l ∈ g.withFirstCases.reachable ↔ l ∈ g.reachable := by
  rw [reachable, reachable, ← Adjacency.mem_depthFirst_distinct,
    distinct_adjacency_withFirstCases, Adjacency.mem_depthFirst_distinct]
  rfl

end Queries

theorem Shows.nodeAt?_withFirstCases (h : g.Shows false code) (a : Nat) :
    g.withFirstCases.nodeAt? a = g.nodeAt? a := by
  apply Option.ext
  intro l
  rw [h.withFirstCases.nodeAt?_eq_some_iff, h.nodeAt?_eq_some_iff]
  simp only [node?_withFirstCases, Option.map_eq_some_iff, exists_exists_and_eq_and]
  rfl

theorem Shows.predecessors_withFirstCases (h : g.Shows false code) (t : Nat) :
    g.withFirstCases.predecessors t = g.predecessors t := by
  rw [h.withFirstCases.predecessors_eq, h.predecessors_eq, h.withFirstCases.size_eq, h.size_eq]
  refine List.filter_congr fun l _ => ?_
  rw [Bool.eq_iff_iff, List.contains_iff_mem, List.contains_iff_mem, mem_children_withFirstCases]

end FlowGraph

end DalvikFlow
