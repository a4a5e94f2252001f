import DalvikFlow.Proofs.Graph.Construction
import Mathlib.Data.List.TakeDrop

/-! What the construction of a graph reports. Distinct case targets are dropped in silence. -/
namespace DalvikFlow

namespace Wiring

/-- All that the report takes from what an instruction contributes. -/
def report (w : Wiring) : List Notice × Bool := (w.notices, w.isOk)

theorem reported_cons (w : Wiring) (ws : List Wiring) :
    reported (w :: ws) = if w.isOk then w.notices ++ reported ws else w.notices := by
  unfold reported
  rw [List.span_eq_takeWhile_dropWhile, List.span_eq_takeWhile_dropWhile]
  by_cases h : w.isOk = true
  · simp [h]
  · simp [h]

theorem reported_congr {ws ws' : List Wiring} (h : ws.map report = ws'.map report) :
    reported ws = reported ws' := by
  induction ws generalizing ws' with
  | nil =>
      rw [List.map_nil, eq_comm, List.map_eq_nil_iff] at h
      rw [h]
  | cons w ws ih =>
      cases ws' with
      | nil => cases h
      | cons w' ws' =>
          simp only [List.map_cons, List.cons.injEq, report, Prod.mk.injEq] at h
          obtain ⟨⟨hnotices, hok⟩, hrest⟩ := h
          rw [reported_cons, reported_cons, hnotices, hok, ih hrest]

end Wiring

namespace Layout

variable (l : Layout) (source : Placed)

/-- Edges are dropped only after all of them are found. -/
theorem linkEdges_distinct (link : Link) :
    l.linkEdges true source link =
      (l.linkEdges false source link).map
        fun edges => edges.eraseDupsBy fun a b => a.target == b.target := by
  cases link with
  | branch target => rfl
  | data payload => rfl
  | switch payload =>
      simp only [linkEdges]
      cases (payload.instruction.cases?.getD []).mapM (l.caseEdge source) <;> rfl

theorem report_wire (distinct : Bool) (next? : Option Placed) :
    (l.wire distinct source next?).report = (l.wire false source next?).report := by
  cases distinct with
  | false => rfl
  | true =>
      unfold wire
      rcases l.link? source with e | _ | link
      · rfl
      · rfl
      · dsimp only
        rw [linkEdges_distinct]
        cases l.linkEdges false source link <;> rfl

end Layout

theorem Layout.report_wirings (l : Layout) (distinct : Bool) :
    (l.wirings distinct).map Wiring.report = (l.wirings false).map Wiring.report := by
  apply List.ext_getElem?
  intro p
  simp only [wirings, List.getElem?_map, Array.getElem?_toList, Array.getElem?_mapIdx,
    Option.map_map, Function.comp_def, report_wire l _ distinct]

namespace FlowGraph

/-- What is reported does not depend on the options. -/
theorem notices_ofCode (options : GraphOptions) (code : List Instruction) :
    (ofCode options code).notices = (ofCode {} code).notices := by
  unfold ofCode
  split
  next => rfl
  next =>
    cases Location.positions code with
    | error d => rfl
    | ok positions =>
        dsimp only
        cases (Layout.ofCode code).defect? with
        | some d => rfl
        | none =>
            dsimp only
            rw [Wiring.reported_congr (Layout.report_wirings _ options.distinctCaseTargets)]

end FlowGraph

end DalvikFlow
