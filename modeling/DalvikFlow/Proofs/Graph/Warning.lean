import DalvikFlow.Proofs.Graph.Nodes
import DalvikFlow.Proofs.Graph.Report

/-! What is reported about a body that has a graph. An instruction that can continue has an edge to the
next one, or a warning instead. -/
namespace DalvikFlow

namespace Body

/-- What is reported about the offset of an instruction that starts at an address: nothing, unless it
leads to data. -/
inductive ReferenceReport (code : List Instruction) (source : Nat) (i : Instruction) :
    Option Diagnostic → Prop
  | silent : i.offset? = none ∨ i.opcode.refersToData = false →
      ReferenceReport code source i none
  | switch {d t} : i.offset? = some d → StartsAt code (source + d.toInt) t →
      SwitchOnto i.opcode t.opcode →
      ReferenceReport code source i (some ⟨.debug, some source,
        i.opcode.name ++ " resolved " ++ t.opcode.name ++ " with " ++
          Text.natural (casesOf t).length ++ " cases"⟩)
  | data {d t} : i.offset? = some d → StartsAt code (source + d.toInt) t →
      i.opcode = .fillArrayData → t.opcode = .arrayPayload →
      ReferenceReport code source i (some ⟨.debug, some source,
        "fill-array-data references data at location " ++ Text.natural t.location⟩)

/-- The warning about an instruction that can continue, and has data after it. -/
def warning? (code : List Instruction) (p : Nat) (i : Instruction) : Option Diagnostic :=
  match code[p + 1]? with
  | some next =>
    if i.opcode.canContinue = true ∧ next.opcode.isPayload = true then
      some ⟨.warning, some (start code p),
        i.opcode.name ++ " falls through into " ++ next.opcode.name ++ ", edge dropped"⟩
    else none
  | none => none

/-- What is reported about the instruction at a position. -/
def ReportAt (code : List Instruction) (p : Nat) (i : Instruction) (ds : List Diagnostic) : Prop :=
  ∃ reference?, ReferenceReport code (start code p) i reference? ∧
    ds = reference?.toList ++ (warning? code p i).toList

/-- All that is reported about a body: that its graph is being built, then what there is to say about
each instruction, in code order. -/
def Reported (code : List Instruction) (ds : List Diagnostic) : Prop :=
  ∃ about : List (List Diagnostic), about.length = code.length ∧
    (∀ p row, about[p]? = some row → ∃ i, code[p]? = some i ∧ ReportAt code p i row) ∧
    ds = ⟨.debug, none,
      "building method graph from " ++ Text.natural code.length ++ " instructions"⟩ :: about.flatten

variable {code : List Instruction}

theorem ReferenceReport.attributes {source : Nat} {i : Instruction} {r? : Option Diagnostic}
    (h : ReferenceReport code source i r?) {d : Diagnostic} (hd : d ∈ r?) :
    d.severity = .debug ∧ d.address? = some source := by
  cases h with
  | silent => cases hd
  | switch => cases hd; exact ⟨rfl, rfl⟩
  | data => cases hd; exact ⟨rfl, rfl⟩

theorem warning?_attributes {p : Nat} {i : Instruction} {d : Diagnostic}
    (hd : d ∈ warning? code p i) : d.severity = .warning ∧ d.address? = some (start code p) := by
  unfold warning? at hd
  split at hd
  next next _ =>
    split at hd
    next => cases hd; exact ⟨rfl, rfl⟩
    next => cases hd
  next => cases hd

theorem warning?_of_code {p : Nat} {i next : Instruction} (hnext : code[p + 1]? = some next)
    (hcode : next.opcode.isPayload = false) : warning? code p i = none := by
  simp [warning?, hnext, hcode]

theorem exists_warning?_of_payload {p : Nat} {i next : Instruction}
    (hnext : code[p + 1]? = some next) (hi : i.opcode.canContinue = true)
    (hpayload : next.opcode.isPayload = true) : ∃ d, warning? code p i = some d := by
  simp [warning?, hnext, hi, hpayload]

namespace ReportAt

variable {p : Nat} {i : Instruction} {ds : List Diagnostic}

theorem address?_eq (h : ReportAt code p i ds) {d : Diagnostic} (hd : d ∈ ds) :
    d.address? = some (start code p) := by
  obtain ⟨r?, hr, rfl⟩ := h
  rcases List.mem_append.mp hd with hd | hd
  · exact (hr.attributes (Option.mem_toList.mp hd)).2
  · exact (warning?_attributes (Option.mem_toList.mp hd)).2

/-- Of what is reported about an instruction just the warning is more than a debug message. -/
theorem filter_severity (h : ReportAt code p i ds) :
    ds.filter (fun d => Severity.warning.rank ≤ d.severity.rank) = (warning? code p i).toList := by
  obtain ⟨r?, hr, rfl⟩ := h
  have hreference : r?.toList.filter (fun d => Severity.warning.rank ≤ d.severity.rank) = [] := by
    refine List.filter_eq_nil_iff.mpr fun d hd => ?_
    rw [(hr.attributes (Option.mem_toList.mp hd)).1]
    decide
  have hwarning : (warning? code p i).toList.filter
      (fun d => Severity.warning.rank ≤ d.severity.rank) = (warning? code p i).toList := by
    refine List.filter_eq_self.mpr fun d hd => ?_
    rw [(warning?_attributes (Option.mem_toList.mp hd)).1]
    rfl
  rw [List.filter_append, hreference, hwarning, List.nil_append]

end ReportAt

namespace Reported

variable {ds : List Diagnostic}

/-- Rows stand in code order, and a row has one address only. -/
theorem pairwise_addresses (h : Reported code ds) :
    (ds.filterMap Diagnostic.address?).Pairwise (· ≤ ·) := by
  obtain ⟨about, -, hat, rfl⟩ := h
  have haddress : ∀ p row, about[p]? = some row → ∀ d ∈ row, d.address? = some (start code p) := by
    intro p row hrow d hd
    obtain ⟨i, -, hreport⟩ := hat p row hrow
    exact hreport.address?_eq hd
  rw [List.filterMap_cons_none rfl, List.pairwise_filterMap, List.pairwise_flatten]
  constructor
  · intro row hrow
    obtain ⟨p, hp⟩ := List.mem_iff_getElem?.mp hrow
    refine List.pairwise_of_forall_mem_list fun d hd e he a ha b hb => ?_
    cases ha.symm.trans (haddress p row hp d hd)
    cases hb.symm.trans (haddress p row hp e he)
    exact Nat.le_refl _
  · rw [List.pairwise_iff_getElem]
    intro p q hp hq hpq d hd e he a ha b hb
    cases ha.symm.trans (haddress p _ (List.getElem?_eq_getElem hp) d hd)
    cases hb.symm.trans (haddress q _ (List.getElem?_eq_getElem hq) e he)
    exact start_le_start code (Nat.le_of_lt hpq)

/-- The warnings at the address of an instruction are those about it. -/
theorem warnings_at (h : Reported code ds) (hw : Wide code) {p : Nat} {i : Instruction}
    (hi : code[p]? = some i) :
    (ds.filter fun d => Severity.warning.rank ≤ d.severity.rank).filter
      (fun d => d.address? = some (start code p)) = (warning? code p i).toList := by
  obtain ⟨about, hlen, hat, rfl⟩ := h
  have hp : p < code.length := (List.getElem?_eq_some_iff.mp hi).1
  obtain ⟨row, hrow⟩ : ∃ row, about[p]? = some row := ⟨_, List.getElem?_eq_getElem (hlen ▸ hp)⟩
  obtain ⟨j, hj, hreport⟩ := hat p row hrow
  cases hi.symm.trans hj
  rw [List.filter_filter, List.filter_cons_of_neg (by simp)]
  rw [filter_flatten_of_getElem? hrow, ← List.filter_filter, hreport.filter_severity,
    List.filter_eq_self]
  · intro d hd
    exact decide_eq_true (warning?_attributes (Option.mem_toList.mp hd)).2
  · -- no two instructions start at one address
    intro q other hother hne d hd
    obtain ⟨k, hk, hreport⟩ := hat q other hother
    have haddress := hreport.address?_eq hd
    have hq := (List.getElem?_eq_some_iff.mp hk).1
    have hstart : start code q ≠ start code p := fun heq => hne (hw.start_injective hq hp heq)
    simp [haddress, hstart]

end Reported

end Body

open Body

theorem Wiring.reported_eq_flatMap {ws : List Wiring} (h : ∀ w ∈ ws, w.isOk = true) :
    reported ws = ws.flatMap notices := by
  induction ws with
  | nil => rfl
  | cons w ws ih =>
      rw [List.forall_mem_cons] at h
      rw [reported_cons, if_pos h.1, ih h.2, List.flatMap_cons]

namespace Layout

variable {code : List Instruction} {source : Placed}

theorem map_fallthroughNotices (code : List Instruction) (p : Nat) (i : Instruction) :
    (Placed.fallthroughNotices ⟨start code p, i⟩ (Placed.at? code (p + 1))).map Notice.diagnostic =
      (warning? code p i).toList := by
  rw [Placed.at?, warning?]
  cases code[p + 1]? with
  | none => rfl
  | some next =>
      simp only [Option.map_some, Placed.fallthroughNotices, Placed.opcode, Bool.and_eq_true]
      split <;> rfl

theorem offset?_of_link?_none {l : Layout} (h : l.link? source = .ok none) :
    source.instruction.offset? = none := by
  unfold link? at h
  split at h
  next hd => exact hd
  next d hd =>
    simp only [bind_eq_ok_iff] at h
    obtain ⟨t, -, link, -, h⟩ := h
    cases h

/-- A link is reported as what the offset refers to is. -/
theorem referenceReport_of_link? (hw : Wide code) {link : Link}
    (h : (ofCode code).link? source = .ok (some link)) :
    ∃ r?, ReferenceReport code source.address source.instruction r? ∧
      (link.notices source).map Notice.diagnostic = r?.toList := by
  unfold link? at h
  split at h
  next => cases h
  next d hd =>
    simp only [bind_eq_ok_iff, target?_eq_ok_iff hw] at h
    obtain ⟨t, ⟨ht, -⟩, found, hfound, h⟩ := h
    cases h
    rcases Link.between_cases source t with hs | ⟨hi, hp⟩ | ⟨hs, hn, hm⟩ | hm
    · cases hfound.symm.trans (Link.between_switch hs)
      exact ⟨_, .switch hd ht hs, rfl⟩
    · cases hfound.symm.trans (Link.between_data hi hp)
      exact ⟨_, .data hd ht hi hp, rfl⟩
    · cases hfound.symm.trans (Link.between_branch hs hn hm)
      refine ⟨none, .silent (.inr ?_), rfl⟩
      rcases mayRefer_iff.mp hm with honto | hdata | ⟨hswitch, hfill, -⟩
      · exact absurd honto hs
      · exact absurd hdata hn
      · exact Opcode.refersToData_eq_false_iff.mpr ⟨hswitch, hfill⟩
    · cases hfound.symm.trans (Link.between_wrongKind hm)

/-- An instruction without an error is reported as the body has it. -/
theorem reportAt_wire (hw : Wide code) {distinct : Bool} {p : Nat} {i : Instruction}
    {edges : List Edge}
    (h : ((ofCode code).wire distinct ⟨start code p, i⟩ (Placed.at? code (p + 1))).edges =
      .ok edges) :
    ReportAt code p i
      (((ofCode code).wire distinct ⟨start code p, i⟩ (Placed.at? code (p + 1))).notices.map
        Notice.diagnostic) := by
  unfold wire at h ⊢
  cases hlink : (ofCode code).link? ⟨start code p, i⟩ with
  | error e =>
      rw [hlink] at h
      cases h
  | ok link? =>
      rw [hlink] at h
      cases link? with
      | none =>
          exact ⟨none, .silent (.inl (offset?_of_link?_none hlink)),
            map_fallthroughNotices code p i⟩
      | some link =>
          obtain ⟨r?, hr, hnotices⟩ := referenceReport_of_link? hw hlink
          dsimp only at h ⊢
          cases hedges : (ofCode code).linkEdges distinct ⟨start code p, i⟩ link with
          | error e =>
              rw [hedges] at h
              cases h
          | ok edges =>
              refine ⟨r?, hr, ?_⟩
              rw [List.map_append, hnotices, map_fallthroughNotices]

end Layout

/-- What was reported on the way to a result, in a collector that was empty. -/
def Outcome.collected (o : Outcome) : Collector :=
  ((o.notices.map Notice.diagnostic).foldl Sink.collecting.deliver Reports.empty).collected

/-- The warnings about the instruction at an address. -/
def Collector.warningsAt (c : Collector) (address : Nat) : List Diagnostic :=
  (c.atLeast .warning).filter fun d => d.address? = some address

theorem Sink.toList_collected_foldl (r : Reports) (ds : List Diagnostic) :
    (ds.foldl Sink.collecting.deliver r).collected.toList = r.collected.toList ++ ds := by
  induction ds generalizing r with
  | nil => rw [List.foldl_nil, List.append_nil]
  | cons d ds ih =>
      rw [List.foldl_cons, ih, Sink.deliver, Collector.toList_report, List.append_assoc,
        List.singleton_append]

@[simp] theorem Outcome.toList_collected (o : Outcome) :
    o.collected.toList = o.notices.map Notice.diagnostic := by
  rw [collected, Sink.toList_collected_foldl]
  rfl

namespace FlowGraph

variable {options : GraphOptions} {code : List Instruction} {g : FlowGraph}

/-- No instruction has an error, so nothing cuts the report short. -/
theorem notices_of_result (h : (ofCode options code).result = .ok g) :
    let ws := (Layout.ofCode code).wirings options.distinctCaseTargets
    (∀ w ∈ ws, ∃ edges, w.edges = .ok edges) ∧
      (ofCode options code).notices = .begun code.length :: ws.flatMap Wiring.notices := by
  intro ws
  obtain ⟨hne, positions, edges, hpositions, hdef, hedges, -⟩ := exists_edges_of_result h
  have hok : ∀ w ∈ ws, ∃ edges, w.edges = .ok edges := exists_mapM_eq_ok_iff.mp ⟨edges, hedges⟩
  refine ⟨hok, ?_⟩
  rw [ofCode, if_neg (mt List.isEmpty_iff.mp hne), hpositions]
  dsimp only
  rw [hdef]
  dsimp only
  rw [Wiring.reported_eq_flatMap]
  intro w hw
  obtain ⟨es, hes⟩ := hok w hw
  rw [Wiring.isOk, hes]
  rfl

theorem reported_of_result (h : (ofCode options code).result = .ok g) :
    Reported code (ofCode options code).collected.toList := by
  obtain ⟨hok, hnotices⟩ := notices_of_result h
  have hw := (shows_of_result h).wide
  rw [Outcome.toList_collected, hnotices, List.map_cons, List.map_flatMap, List.flatMap_def]
  refine ⟨_, ?_, ?_, rfl⟩
  · rw [List.length_map, Layout.length_wirings]
  · intro p row hrow
    obtain ⟨w, hw?, rfl⟩ := Option.map_eq_some_iff.mp ((List.getElem?_map ..).symm.trans hrow)
    obtain ⟨edges, hedges⟩ := hok w (List.mem_of_getElem? hw?)
    rw [Layout.getElem?_wirings, Option.map_eq_some_iff] at hw?
    obtain ⟨⟨a, i⟩, hq, rfl⟩ := hw?
    obtain ⟨hi, rfl⟩ := Placed.at?_eq_some_iff.mp hq
    exact ⟨i, hi, Layout.reportAt_wire hw hedges⟩

/-- Each instruction that can continue and is not the last one has either an edge to the next one,
after all its other edges, or a warning at its address, and the warning exactly if data comes next.
All that is reported besides are debug messages, in code order. -/
theorem fallthrough_or_warning (h : (ofCode options code).result = .ok g) :
    Reported code (ofCode options code).collected.toList ∧
    ((ofCode options code).collected.toList.filterMap Diagnostic.address?).Pairwise (· ≤ ·) ∧
    ∀ p i next, code[p]? = some i → code[p + 1]? = some next → i.opcode.canContinue = true →
      ∃ n, g.node? i.location = some n ∧ n.instruction = i ∧ n.address = start code p ∧
        ((next.opcode.isPayload = false ∧
            (ofCode options code).collected.warningsAt n.address = [] ∧
            ∃ before, n.edges = before ++ [⟨next.location, .fallthrough⟩] ∧
              ∀ e ∈ before, e.via ≠ .fallthrough) ∨
          (next.opcode.isPayload = true ∧ (∀ e ∈ n.edges, e.via ≠ .fallthrough) ∧
            ∃ d, (ofCode options code).collected.warningsAt n.address = [d])) := by
  have hreported := reported_of_result h
  refine ⟨hreported, hreported.pairwise_addresses, ?_⟩
  intro p i next hi hnext hcontinue
  have hshows := shows_of_result h
  obtain ⟨refs, hrefs⟩ := hshows.edges p i hi
  have hn := (hshows.node?_iff i.location _).mpr ⟨p, i, refs, hi, rfl, hrefs, rfl⟩
  have hrefs_via : ∀ e ∈ refs, e.via ≠ .fallthrough := fun e he => (hrefs.lands he).1
  have hwarnings : (ofCode options code).collected.warningsAt (start code p) =
      (warning? code p i).toList := hreported.warnings_at hshows.wide hi
  refine ⟨_, hn, rfl, rfl, ?_⟩
  dsimp only
  rw [hwarnings]
  cases hpayload : next.opcode.isPayload with
  | false =>
      refine .inl ⟨rfl, ?_, refs, ?_, hrefs_via⟩
      · rw [warning?_of_code hnext hpayload, Option.toList_none]
      · simp [continuation, hnext, hcontinue, hpayload]
  | true =>
      obtain ⟨d, hd⟩ := exists_warning?_of_payload hnext hcontinue hpayload
      refine .inr ⟨rfl, ?_, d, ?_⟩
      · simpa [continuation, hnext, hpayload] using hrefs_via
      · rw [hd, Option.toList_some]

/-- A reference to data, and an instruction that would continue into that data. -/
def fillBody : List Instruction :=
  [((Instruction.ofOpcode .fillArrayData 0).withRegisters [0]).withOffset 4,
    .ofOpcode .nop 1,
    .arrayData 2 1 [7]]

theorem warning_in_fillBody :
    ∃ g n d, (ofCode {} fillBody).result = .ok g ∧ g.node? 1 = some n ∧
      (∀ e ∈ n.edges, e.via ≠ .fallthrough) ∧
      (ofCode {} fillBody).collected.warningsAt n.address = [d] := by
  obtain ⟨g, hg⟩ : ∃ g, (ofCode {} fillBody).result = .ok g := ⟨_, rfl⟩
  obtain ⟨-, -, hedge⟩ := fallthrough_or_warning hg
  obtain ⟨n, hn, -, -, ⟨hcode, -⟩ | ⟨-, hnone, d, hd⟩⟩ := hedge 1 _ _ rfl rfl rfl
  · cases hcode
  · exact ⟨g, n, d, hg, hn, hnone, hd⟩

end FlowGraph

end DalvikFlow
