import DalvikFlow.Proofs.Graph.CheckedSearch

/-! The construction of a graph with every index checked. It gives the same graph or the same error:
what comes from the locations, from the look-up by address and from the edges is always in range. -/
namespace DalvikFlow

open Body

/-- Why a construction stops that checks its indices. -/
inductive Stop where
  | error (e : Error)
  | outOfRange
  deriving DecidableEq, Repr

def fetch {α : Type} (a : Array α) (index : Nat) : Except Stop α :=
  match a[index]? with
  | some x => .ok x
  | none => .error .outOfRange

theorem fetch_eq_ok {α : Type} {a : Array α} {index : Nat} {x : α} (h : a[index]? = some x) :
    fetch a index = .ok x := by
  rw [fetch, h]

namespace Layout

/-- The position that the look-up has for the target must be one of the body. -/
def checkedTarget (l : Layout) (kind : TargetKind) (source : Nat) (distance : Int32) :
    Except Stop Placed :=
  let target := (source : Int) + distance.toInt
  match target.toNat?.bind l.index.find? with
  | some position => fetch l.placed position
  | none => .error (.error (.unresolvedTarget kind source target))

def checkedCaseEdge (l : Layout) (source : Placed) (c : SwitchCase) : Except Stop Edge := do
  let target ← l.checkedTarget .switchCase source.address c.offset
  if target.opcode.isPayload then
    .error (.error (.malformed (.caseOntoPayload c.key source.address target.opcode)))
  else
    .ok ⟨target.location, .switchCase c.key⟩

def checkedLinkEdges (l : Layout) (distinct : Bool) (source : Placed) :
    Link → Except Stop (List Edge)
  | .branch target => .ok [⟨target.location, .branch⟩]
  | .switch payload => do
    let edges ← (payload.instruction.cases?.getD []).mapM (l.checkedCaseEdge source)
    return if distinct then edges.eraseDupsBy fun a b => a.target == b.target else edges
  | .data _ => .ok []

def checkedReferences (l : Layout) (distinct : Bool) (source : Placed) :
    Except Stop (List Edge) :=
  match source.instruction.offset? with
  | none => .ok []
  | some distance => do
    let target ← l.checkedTarget .branch source.address distance
    let link ← (Link.between source target).mapError .error
    l.checkedLinkEdges distinct source link

/-- The edges of the instruction at a position are stored under its location. -/
def storeEdges (l : Layout) (distinct : Bool) (stored : Array (List Edge)) (position : Nat) :
    Except Stop (Array (List Edge)) := do
  let source ← fetch l.placed position
  let begun ← fetch stored source.location
  let edges ← l.checkedReferences distinct source
  return stored.setIfInBounds source.location
    (begun ++ edges ++ source.fallthroughEdges l.placed[position + 1]?)

def checkedNode (l : Layout) (stored : Array (List Edge)) (position location : Nat) :
    Except Stop Node := do
  let p ← fetch l.placed position
  return ⟨location, p.address, p.instruction, ← fetch stored location⟩

def checkedNodes (l : Layout) (stored : Array (List Edge)) (positions : List Nat) :
    Except Stop (List Node) :=
  positions.zipIdx.mapM fun (position, location) => l.checkedNode stored position location

variable {code : List Instruction}

section Wide

variable (hw : Wide code)

include hw

theorem checkedTarget_eq (kind : TargetKind) (source : Nat) (distance : Int32) :
    (ofCode code).checkedTarget kind source distance =
      ((ofCode code).target? kind source distance).mapError .error := by
  rw [checkedTarget, target?]
  cases ((source : Int) + distance.toInt).toNat? with
  | none => rfl
  | some a =>
      simp only [Option.bind_some, startingAt?]
      cases hfind : (ofCode code).index.find? a with
      | none => rfl
      | some position =>
          -- addresses are distinct, so the look-up has the position of the address
          have ha := (AddressIndex.find?_ofList_eq_some_iff (nodup_addresses hw)).mp hfind
          rw [List.getElem?_map, Option.map_eq_some_iff, Array.getElem?_toList] at ha
          obtain ⟨p, hp, -⟩ := ha
          have hp : (ofCode code).placed[position]? = some p := hp
          simp only [Option.bind_some, hp, fetch_eq_ok hp]
          rfl

theorem checkedCaseEdge_eq (source : Placed) (c : SwitchCase) :
    (ofCode code).checkedCaseEdge source c =
      ((ofCode code).caseEdge source c).mapError .error := by
  rw [checkedCaseEdge, caseEdge, mapError_bind, checkedTarget_eq hw]
  congr 1
  funext target
  split <;> rfl

theorem checkedLinkEdges_eq (distinct : Bool) (source : Placed) (link : Link) :
    (ofCode code).checkedLinkEdges distinct source link =
      ((ofCode code).linkEdges distinct source link).mapError .error := by
  cases link with
  | branch target => rfl
  | data payload => rfl
  | switch payload =>
      have hcases : (ofCode code).checkedCaseEdge source =
          fun c => ((ofCode code).caseEdge source c).mapError .error := by
        funext c
        exact checkedCaseEdge_eq hw source c
      rw [checkedLinkEdges, linkEdges, mapError_bind, mapError_mapM, hcases]
      rfl

theorem checkedReferences_eq (distinct : Bool) (source : Placed) :
    (ofCode code).checkedReferences distinct source =
      ((ofCode code).references distinct source).mapError .error := by
  rw [checkedReferences]
  cases hd : source.instruction.offset? with
  | none =>
      rw [references_of_absent hd]
      rfl
  | some d =>
      have hlink : (ofCode code).checkedLinkEdges distinct source =
          fun link => ((ofCode code).linkEdges distinct source link).mapError .error := by
        funext link
        exact checkedLinkEdges_eq hw distinct source link
      simp only [references_of_offset hd, mapError_bind, checkedTarget_eq hw, hlink, bind_assoc]

end Wide

/-- The edges stored so far, by location: those of the positions that have had their turn. -/
def stored (positions : List Nat) (edges : List (List Edge)) : Array (List Edge) :=
  (positions.map fun p => edges[p]?.getD []).toArray

section Positions

variable {positions : List Nat} (hpos : ∀ l p, positions[l]? = some p ↔
  ∃ i : Instruction, code[p]? = some i ∧ i.location = l)

include hpos

theorem length_positions (hlocated : Located code) : positions.length = code.length := by
  apply Nat.le_antisymm
  · refine Nat.le_of_not_lt fun hlt => ?_
    obtain ⟨i, hi, hloc⟩ := (hpos code.length _).mp (List.getElem?_eq_getElem hlt)
    exact Nat.ne_of_lt (hlocated.location_lt hi) hloc
  · refine Nat.le_of_not_lt fun hlt => ?_
    obtain ⟨p, i, hi, hloc⟩ := hlocated.exists_position hlt
    have hp := (hpos positions.length p).mpr ⟨i, hi, hloc⟩
    exact Nat.lt_irrefl _ (List.getElem?_eq_some_iff.mp hp).1

variable {k : Nat} {i : Instruction} (hi : code[k]? = some i)

include hi

theorem getElem?_stored (edges : List (List Edge)) :
    (stored positions edges)[i.location]? = some (edges[k]?.getD []) := by
  rw [stored, List.getElem?_toArray, List.getElem?_map, (hpos i.location k).mpr ⟨i, hi, rfl⟩,
    Option.map_some]

variable {edges : List (List Edge)} (hlen : edges.length = k)

include hlen

/-- No other position has the location. -/
theorem stored_concat (es : List Edge) :
    (stored positions edges).setIfInBounds i.location es = stored positions (edges ++ [es]) := by
  apply Array.ext_getElem?
  intro l
  rw [Array.getElem?_setIfInBounds, stored, stored]
  simp only [List.getElem?_toArray, List.getElem?_map, List.size_toArray, List.length_map]
  by_cases hl : i.location = l
  · have hp := (hpos l k).mpr ⟨i, hi, hl⟩
    rw [if_pos hl, if_pos (hl ▸ (List.getElem?_eq_some_iff.mp hp).1), hp, Option.map_some,
      ← hlen, List.getElem?_concat_length, Option.getD_some]
  · rw [if_neg hl]
    cases hp : positions[l]? with
    | none => rfl
    | some p =>
        obtain ⟨j, hj, hloc⟩ := (hpos l p).mp hp
        have hne : p ≠ edges.length := by
          rintro rfl
          rw [hlen, hi] at hj
          cases hj
          exact hl hloc
        rw [Option.map_some, Option.map_some]
        rcases Nat.lt_or_gt_of_ne hne with hlt | hgt
        · rw [List.getElem?_append_left hlt]
        · rw [List.getElem?_eq_none (Nat.le_of_lt hgt), List.getElem?_eq_none]
          rw [List.length_append]
          exact hgt

theorem storeEdges_stored (hw : Wide code) (distinct : Bool) :
    (ofCode code).storeEdges distinct (stored positions edges) k =
      (((ofCode code).wire distinct ⟨start code k, i⟩ (Placed.at? code (k + 1))).edges.mapError
        .error).map fun es => stored positions (edges ++ [es]) := by
  have hsource : (ofCode code).placed[k]? = some ⟨start code k, i⟩ := by
    rw [getElem?_placed, Placed.at?, hi, Option.map_some]
  have hbegun := getElem?_stored hpos hi edges
  rw [List.getElem?_eq_none (Nat.le_of_eq hlen), Option.getD_none] at hbegun
  have hfetch : fetch (stored positions edges) (Placed.location ⟨start code k, i⟩) = .ok [] :=
    fetch_eq_ok hbegun
  simp only [storeEdges, fetch_eq_ok hsource, edges_wire, getElem?_placed, bind, Except.bind,
    hfetch, checkedReferences_eq hw]
  cases (ofCode code).references distinct ⟨start code k, i⟩ with
  | error e => rfl
  | ok refs =>
      refine congrArg Except.ok ?_
      rw [List.nil_append]
      exact stored_concat hpos hi hlen _

end Positions

section Rounds

variable {positions : List Nat} (hpos : ∀ l p, positions[l]? = some p ↔
  ∃ i : Instruction, code[p]? = some i ∧ i.location = l)

include hpos

/-- After each round, what is stored are the edges of the positions up to there. -/
theorem foldlM_storeEdges (hlocated : Located code) (hw : Wide code) (distinct : Bool) {k : Nat}
    (hk : k ≤ code.length) :
    (List.range k).foldlM ((ofCode code).storeEdges distinct) (Array.replicate code.length []) =
      ((((ofCode code).wirings distinct).take k).mapM Wiring.edges |>.mapError .error).map
        (stored positions) := by
  induction k with
  | zero =>
      refine congrArg Except.ok ?_
      rw [stored, ← length_positions hpos hlocated]
      simp
  | succ k ih =>
      have hi : code[k]? = some code[k] := List.getElem?_eq_getElem hk
      have hwire : ((ofCode code).wirings distinct)[k]? = some
          ((ofCode code).wire distinct ⟨start code k, code[k]⟩ (Placed.at? code (k + 1))) := by
        have hplaced : Placed.at? code k = some ⟨start code k, code[k]⟩ :=
          Placed.at?_eq_some_iff.mpr ⟨hi, rfl⟩
        rw [getElem?_wirings, hplaced, Option.map_some]
      rw [List.range_succ, List.foldlM_append, ih (Nat.le_of_succ_le hk), List.take_add_one, hwire,
        List.mapM_append]
      cases hedges : (((ofCode code).wirings distinct).take k).mapM Wiring.edges with
      | error e => rfl
      | ok edges =>
          have hlen : edges.length = k := by
            rw [← (mapM_eq_ok_iff.mp hedges).length_eq, List.length_take, length_wirings]
            exact Nat.min_eq_left (Nat.le_of_succ_le hk)
          show ((ofCode code).storeEdges distinct (stored positions edges) k >>= pure) = _
          rw [bind_pure, storeEdges_stored hpos hi hlen hw, Option.toList_some,
            List.mapM_cons, List.mapM_nil]
          cases ((ofCode code).wire distinct ⟨start code k, code[k]⟩
            (Placed.at? code (k + 1))).edges <;> rfl

/-- Every position is one of the body, and every location has its edges. -/
theorem checkedNodes_stored {edges : List (List Edge)} (hlen : edges.length = code.length) :
    (ofCode code).checkedNodes (stored positions edges) positions =
      .ok ((ofCode code).nodes edges.toArray positions) := by
  rw [checkedNodes, nodes]
  apply mapM_eq_ok_filterMap
  rintro ⟨p, l⟩ hmem
  have hp : positions[l]? = some p := List.mk_mem_zipIdx_iff_getElem?.mp hmem
  obtain ⟨i, hi, rfl⟩ := (hpos l p).mp hp
  obtain ⟨es, hes⟩ : ∃ es, edges[p]? = some es :=
    ⟨_, List.getElem?_eq_getElem (hlen ▸ (List.getElem?_eq_some_iff.mp hi).1)⟩
  have hplaced : (ofCode code).placed[p]? = some ⟨start code p, i⟩ := by
    rw [getElem?_placed, Placed.at?, hi, Option.map_some]
  have hstored := getElem?_stored hpos hi edges
  rw [hes, Option.getD_some] at hstored
  refine ⟨⟨i.location, start code p, i, es⟩, ?_, ?_⟩
  · simp only [checkedNode, fetch_eq_ok hplaced, fetch_eq_ok hstored]
    rfl
  · show (ofCode code).node? edges.toArray p i.location = _
    rw [node?, hplaced, List.getElem?_toArray, hes]
    rfl

end Rounds

end Layout

namespace FlowGraph

/-- The construction with every index checked. -/
def checkedOfCode (options : GraphOptions) (code : List Instruction) : Except Stop FlowGraph :=
  if code.isEmpty then .error (.error .emptyBody)
  else do
    let positions ← (Location.positions code).mapError fun d => .error (.malformed d)
    let layout := Layout.ofCode code
    match layout.defect? with
    | some d => .error (.error (.malformed d))
    | none =>
      let stored ← (List.range code.length).foldlM
        (layout.storeEdges options.distinctCaseTargets) (Array.replicate code.length [])
      return ofNodes (← layout.checkedNodes stored positions).toArray

theorem checkedOfCode_eq (options : GraphOptions) (code : List Instruction) :
    checkedOfCode options code = (ofCode options code).result.mapError .error := by
  by_cases hne : code = []
  · subst hne
    rfl
  rw [result_ofCode options hne, checkedOfCode, if_neg (by simpa using hne)]
  rcases Location.positions_cases code with ⟨d, hd, -⟩ | ⟨positions, hps, hlocated, hpos⟩
  · rw [hd]
    rfl
  rw [hps]
  cases hdef : (Layout.ofCode code).defect? with
  | some d =>
      show (match (Layout.ofCode code).defect? with
        | some d => _
        | none => _) = _
      rw [hdef]
      rfl
  | none =>
      obtain ⟨hw, -⟩ := wide_and_fits_iff.mpr (Layout.defect?_eq_none_iff.mp hdef)
      have hstore := Layout.foldlM_storeEdges hpos hlocated hw options.distinctCaseTargets
        (Nat.le_refl code.length)
      rw [List.take_of_length_le (Nat.le_of_eq (Layout.length_wirings _))] at hstore
      show (match (Layout.ofCode code).defect? with
        | some d => _
        | none => _) = _
      rw [hdef]
      dsimp only
      rw [hstore]
      cases hedges : ((Layout.ofCode code).wirings options.distinctCaseTargets).mapM
          Wiring.edges with
      | error e => rfl
      | ok edges =>
          have hlen : edges.length = code.length := by
            rw [← (mapM_eq_ok_iff.mp hedges).length_eq, Layout.length_wirings]
          show ((Layout.ofCode code).checkedNodes (Layout.stored positions edges) positions >>=
            fun nodes => pure (ofNodes nodes.toArray)) = _
          rw [Layout.checkedNodes_stored hpos hlen]
          rfl

/-- No index is ever out of range: not in the construction, whatever the body, and not in a graph, whatever
is asked of it. -/
theorem indices_in_range (options : GraphOptions) (code : List Instruction) :
    checkedOfCode options code = (ofCode options code).result.mapError .error ∧
    checkedOfCode options code ≠ .error .outOfRange ∧
    ∀ g, (ofCode options code).result = .ok g →
      (∀ l n, g.node? l = some n → ∀ e ∈ n.edges, e.target < g.size) ∧
      (∀ l, g.predecessors? l = some (g.predecessors l)) ∧
      g.reachable? = some g.reachable ∧
      g.reversePostorder? = some g.reversePostorder ∧
      (∀ l, g.nextAddresses? l = some (g.nextAddresses l)) ∧
      ∀ l addresses, g.childrenAt? l addresses = some (g.childrenAt l addresses) := by
  have hchecked := checkedOfCode_eq options code
  refine ⟨hchecked, ?_, ?_⟩
  · intro hout
    rw [hchecked] at hout
    obtain ⟨e, -, he⟩ := mapError_eq_error_iff.mp hout
    cases he
  · intro g hg
    have h := shows_of_result hg
    have hrange := h.inRange
    exact ⟨hrange, h.predecessors?_eq_some, hrange.reachable?_eq_some,
      hrange.reversePostorder?_eq_some, hrange.nextAddresses?_eq_some, hrange.childrenAt?_eq_some⟩

/-- No node has the location 4. -/
theorem indices_in_range_of_sampleBody :
    ∃ g, checkedOfCode ⟨true⟩ sampleBody = .ok g ∧ g.predecessors? 4 = some [] ∧
      g.childrenAt? 1 [3, 3, 5] = some [0] ∧ g.reachable? = some g.reachable := by
  obtain ⟨g, hg⟩ : ∃ g, (ofCode ⟨true⟩ sampleBody).result = .ok g := ⟨_, rfl⟩
  obtain ⟨hchecked, -, hsearch⟩ := indices_in_range ⟨true⟩ sampleBody
  obtain ⟨-, hpredecessors, hreachable, -, -, hchildren⟩ := hsearch g hg
  refine ⟨g, ?_, ?_, ?_, hreachable⟩
  · rw [hchecked, hg]
    rfl
  · rw [hpredecessors]
    cases hg
    rfl
  · rw [hchildren]
    cases hg
    rfl

end FlowGraph

end DalvikFlow
