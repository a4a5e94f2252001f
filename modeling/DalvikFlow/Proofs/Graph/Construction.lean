import DalvikFlow.Graph.Construction
import DalvikFlow.Proofs.Graph.Location
import DalvikFlow.Proofs.Graph.Wiring

/-! The graph of a body: when there is one, and its nodes. -/
namespace DalvikFlow

open Body

namespace Layout

variable {code : List Instruction}

theorem getElem?_wirings (distinct : Bool) (p : Nat) :
    ((ofCode code).wirings distinct)[p]? =
      (Placed.at? code p).map fun q =>
        (ofCode code).wire distinct q (Placed.at? code (p + 1)) := by
  rw [wirings, Array.getElem?_toList, Array.getElem?_mapIdx, getElem?_placed, getElem?_placed]

theorem length_wirings (distinct : Bool) :
    ((ofCode code).wirings distinct).length = code.length := by
  have h := congrArg List.length (map_instruction_placeFrom 0 code)
  rw [List.length_map, Array.length_toList] at h
  rw [wirings, Array.length_toList, Array.size_mapIdx]
  exact h

theorem mapM_wirings_eq_error_iff (hw : Wide code) {distinct : Bool} {e : Error} :
    ((ofCode code).wirings distinct).mapM Wiring.edges = .error e ↔
      First (ReferenceFaultAt code) e := by
  rw [mapM_eq_error_iff]
  refine First.congr (fun p d => ?_) e
  simp only [getElem?_wirings, Placed.at?, Option.map_map, Option.map_eq_some_iff,
    Function.comp_apply, ReferenceFaultAt]
  constructor
  · rintro ⟨w, ⟨i, hi, rfl⟩, hd⟩
    exact ⟨i, hi, (edges_wire_eq_error_iff hw).mp hd⟩
  · rintro ⟨i, hi, hd⟩
    exact ⟨_, ⟨i, hi, rfl⟩, (edges_wire_eq_error_iff hw).mpr hd⟩

theorem getElem?_of_mapM_wirings (hw : Wide code) {distinct : Bool} {edges : List (List Edge)}
    (h : ((ofCode code).wirings distinct).mapM Wiring.edges = .ok edges) {p : Nat}
    {es : List Edge} :
    edges[p]? = some es ↔ ∃ i refs, code[p]? = some i ∧
      ReferenceEdges code distinct (start code p) i refs ∧
      es = refs ++ continuation code p i := by
  rw [getElem?_eq_some_iff_of_mapM h]
  simp only [getElem?_wirings, Placed.at?, Option.map_map, Option.map_eq_some_iff,
    Function.comp_apply]
  constructor
  · rintro ⟨w, ⟨i, hi, rfl⟩, hes⟩
    obtain ⟨refs, hrefs, rfl⟩ := (edges_wire_eq_ok_iff hw).mp hes
    exact ⟨i, refs, hi, hrefs, rfl⟩
  · rintro ⟨i, refs, hi, hrefs, rfl⟩
    exact ⟨_, ⟨i, hi, rfl⟩, (edges_wire_eq_ok_iff hw).mpr ⟨refs, hrefs, rfl⟩⟩

/-- The nodes stand in the order of the locations, whatever the order of the code. -/
theorem getElem?_nodes {positions : List Nat} {edges : List (List Edge)}
    (hpos : ∀ l p, positions[l]? = some p ↔ ∃ i : Instruction, code[p]? = some i ∧ i.location = l)
    (hlen : edges.length = code.length) {l : Nat} {n : Node} :
    ((ofCode code).nodes edges.toArray positions)[l]? = some n ↔
      ∃ p i es, code[p]? = some i ∧ i.location = l ∧ edges[p]? = some es ∧
        n = ⟨l, start code p, i, es⟩ := by
  have hnode : ∀ p i l, code[p]? = some i → ∀ es, edges[p]? = some es →
      (ofCode code).node? edges.toArray p l = some ⟨l, start code p, i, es⟩ := by
    intro p i l hi es hes
    rw [node?, getElem?_placed, Placed.at?, hi, List.getElem?_toArray, hes]
    rfl
  have hedges : ∀ (p : Nat) (i : Instruction), code[p]? = some i → ∃ es, edges[p]? = some es := by
    intro p i hi
    exact ⟨_, List.getElem?_eq_getElem (hlen ▸ (List.getElem?_eq_some_iff.mp hi).1)⟩
  rw [nodes, getElem?_filterMap_of_isSome]
  · rw [List.getElem?_zipIdx, Option.bind_map, Option.bind_eq_some_iff]
    simp only [hpos, Function.comp_apply, Nat.zero_add]
    constructor
    · rintro ⟨p, ⟨i, hi, hloc⟩, hn⟩
      obtain ⟨es, hes⟩ := hedges p i hi
      rw [hnode p i l hi es hes] at hn
      exact ⟨p, i, es, hi, hloc, hes, (Option.some.inj hn).symm⟩
    · rintro ⟨p, i, es, hi, hloc, hes, rfl⟩
      exact ⟨p, ⟨i, hi, hloc⟩, hnode p i l hi es hes⟩
  · rintro ⟨p, l⟩ hmem
    obtain ⟨k, hk⟩ := List.mem_iff_getElem?.mp hmem
    rw [List.getElem?_zipIdx, Option.map_eq_some_iff] at hk
    obtain ⟨q, hq, heq⟩ := hk
    cases heq
    obtain ⟨i, hi, -⟩ := (hpos k p).mp hq
    obtain ⟨es, hes⟩ := hedges p i hi
    exact Option.isSome_iff_exists.mpr ⟨_, hnode p i _ hi es hes⟩

end Layout

namespace FlowGraph

/-- The graph shows the body: one node for each instruction, under its location, with its address
and with the edges that the body gives it. -/
structure Shows (g : FlowGraph) (distinct : Bool) (code : List Instruction) : Prop where
  nonempty : code ≠ []
  located : Located code
  wide : Wide code
  fits : width code ≤ maxAddress
  indexed : g = ofNodes g.nodes
  edges : ∀ p i, code[p]? = some i → ∃ refs, ReferenceEdges code distinct (start code p) i refs
  node?_iff : ∀ l n, g.node? l = some n ↔ ∃ p i refs, code[p]? = some i ∧ i.location = l ∧
    ReferenceEdges code distinct (start code p) i refs ∧
    n = ⟨l, start code p, i, refs ++ continuation code p i⟩

variable {options : GraphOptions} {code : List Instruction} {g : FlowGraph}

/-- Three checks, each made only if the one before it passes. -/
theorem result_ofCode (options : GraphOptions) (hne : code ≠ []) :
    (ofCode options code).result =
      match Location.positions code, (Layout.ofCode code).defect? with
      | .error d, _ => .error (.malformed d)
      | .ok _, some d => .error (.malformed d)
      | .ok positions, none =>
        (((Layout.ofCode code).wirings options.distinctCaseTargets).mapM Wiring.edges).map
          fun edges => ofNodes ((Layout.ofCode code).nodes edges.toArray positions).toArray := by
  have hempty : ¬ (code.isEmpty = true) := by
    rw [List.isEmpty_iff]
    exact hne
  rw [ofCode, if_neg hempty]
  cases hps : Location.positions code with
  | error d => rfl
  | ok positions =>
      dsimp only
      cases hdef : (Layout.ofCode code).defect? with
      | some d => rfl
      | none =>
          dsimp only
          cases ((Layout.ofCode code).wirings options.distinctCaseTargets).mapM Wiring.edges <;> rfl

/-- A graph is what the last of the checks leads to. -/
theorem exists_edges_of_result (h : (ofCode options code).result = .ok g) :
    code ≠ [] ∧ ∃ positions edges, Location.positions code = .ok positions ∧
      (Layout.ofCode code).defect? = none ∧
      ((Layout.ofCode code).wirings options.distinctCaseTargets).mapM Wiring.edges = .ok edges ∧
      g = ofNodes ((Layout.ofCode code).nodes edges.toArray positions).toArray := by
  have hne : code ≠ [] := by
    rintro rfl
    cases h
  rw [result_ofCode options hne] at h
  cases hps : Location.positions code with
  | error d =>
      rw [hps] at h
      cases h
  | ok positions =>
      rw [hps] at h
      cases hdef : (Layout.ofCode code).defect? with
      | some d =>
          rw [hdef] at h
          cases h
      | none =>
          rw [hdef] at h
          obtain ⟨edges, hedges, rfl⟩ := map_eq_ok_iff.mp h
          exact ⟨hne, positions, edges, rfl, rfl, hedges, rfl⟩

theorem shows_of_result (h : (ofCode options code).result = .ok g) :
    g.Shows options.distinctCaseTargets code := by
  obtain ⟨hne, positions, edges, hpositions, hdef, hedges, rfl⟩ := exists_edges_of_result h
  rcases Location.positions_cases code with ⟨d, hd, -⟩ | ⟨ps, hps, hlocated, hpos⟩
  · cases hd.symm.trans hpositions
  cases hps.symm.trans hpositions
  obtain ⟨hwide, hfits⟩ := wide_and_fits_iff.mpr (Layout.defect?_eq_none_iff.mp hdef)
  have hlen : edges.length = code.length := by
    rw [← (mapM_eq_ok_iff.mp hedges).length_eq, Layout.length_wirings]
  refine ⟨hne, hlocated, hwide, hfits, rfl, ?_, ?_⟩
  · intro p i hi
    have hp : p < edges.length := hlen ▸ (List.getElem?_eq_some_iff.mp hi).1
    obtain ⟨j, refs, hj, hrefs, -⟩ := (Layout.getElem?_of_mapM_wirings hwide hedges).mp
      (List.getElem?_eq_getElem hp)
    cases hi.symm.trans hj
    exact ⟨refs, hrefs⟩
  · intro l n
    rw [node?, nodes_ofNodes, List.getElem?_toArray, Layout.getElem?_nodes hpos hlen]
    simp only [Layout.getElem?_of_mapM_wirings hwide hedges]
    constructor
    · rintro ⟨p, i, es, hi, hloc, ⟨j, refs, hj, hrefs, rfl⟩, rfl⟩
      cases hi.symm.trans hj
      exact ⟨p, i, refs, hi, hloc, hrefs, rfl⟩
    · rintro ⟨p, i, refs, hi, hloc, hrefs, rfl⟩
      exact ⟨p, i, _, hi, hloc, ⟨i, refs, hi, hrefs, rfl⟩, rfl⟩

theorem firstFault_of_result {e : Error} (h : (ofCode options code).result = .error e) :
    FirstFault code e := by
  by_cases hne : code = []
  · subst hne
    cases h
    exact .empty rfl
  rw [result_ofCode options hne] at h
  rcases Location.positions_cases code with ⟨d, hd, hfirst⟩ | ⟨ps, hps, hlocated, -⟩
  · rw [hd] at h
    cases h
    exact .location hfirst
  rw [hps] at h
  have hlocations := located_iff.mp hlocated
  cases hdef : (Layout.ofCode code).defect? with
  | some d =>
      rw [hdef] at h
      cases h
      exact .width hlocations (Layout.defect?_eq_some_iff.mp hdef)
  | none =>
      have hwidths := Layout.defect?_eq_none_iff.mp hdef
      have hwide := (wide_and_fits_iff.mpr hwidths).1
      rw [hdef] at h
      dsimp only at h
      rw [map_eq_error_iff, Layout.mapM_wirings_eq_error_iff hwide] at h
      exact .reference hlocations hwidths h

theorem result_of_firstFault {e : Error} (h : FirstFault code e) :
    (ofCode options code).result = .error e := by
  have hne : ∀ (p : Nat) (i : Instruction), code[p]? = some i → code ≠ [] := fun p i hi =>
    List.ne_nil_of_mem (List.mem_of_getElem? hi)
  have hpositions : (∀ p d, ¬ LocationFault code p d) → ∃ ps, Location.positions code = .ok ps := by
    intro hnone
    rcases Location.positions_cases code with ⟨d, -, p, hf, -⟩ | ⟨ps, hps, -, -⟩
    · exact absurd hf (hnone p d)
    · exact ⟨ps, hps⟩
  cases h with
  | empty hnil =>
      subst hnil
      rfl
  | location hfirst =>
      have hd := Location.positions_eq_error_iff.mpr hfirst
      obtain ⟨p, hf, -⟩ := hfirst
      obtain ⟨i, hi⟩ := hf.exists_instruction
      rw [result_ofCode options (hne p i hi), hd]
  | width hnone hfirst =>
      obtain ⟨ps, hps⟩ := hpositions hnone
      have hd := Layout.defect?_eq_some_iff.mpr hfirst
      obtain ⟨p, hf, -⟩ := hfirst
      obtain ⟨i, hi⟩ := hf.exists_instruction
      rw [result_ofCode options (hne p i hi), hps, hd]
  | reference hlocations hwidths hfirst =>
      obtain ⟨ps, hps⟩ := hpositions hlocations
      have hwide := (wide_and_fits_iff.mpr hwidths).1
      have he : ((Layout.ofCode code).wirings options.distinctCaseTargets).mapM Wiring.edges =
          .error e := (Layout.mapM_wirings_eq_error_iff hwide).mpr hfirst
      obtain ⟨p, ⟨i, hi, -⟩, -⟩ := hfirst
      rw [result_ofCode options (hne p i hi), hps, Layout.defect?_eq_none_iff.mpr hwidths]
      dsimp only
      rw [he]
      rfl

/-- Exactly the well-formed bodies have a graph, and every other one has the error of its first
fault. -/
theorem result_iff (options : GraphOptions) (code : List Instruction) :
    ((∃ g, (ofCode options code).result = .ok g) ↔ WellFormed code) ∧
      ∀ e, (ofCode options code).result = .error e ↔ FirstFault code e := by
  have herror : ∀ e, (ofCode options code).result = .error e ↔ FirstFault code e := fun e =>
    ⟨firstFault_of_result, result_of_firstFault⟩
  refine ⟨?_, herror⟩
  rw [wellFormed_iff]
  constructor
  · rintro ⟨g, hg⟩ e hf
    rw [(herror e).mpr hf] at hg
    cases hg
  · intro h
    cases hres : (ofCode options code).result with
    | ok g => exact ⟨g, rfl⟩
    | error e => exact absurd ((herror e).mp hres) (h e)

end FlowGraph

end DalvikFlow
