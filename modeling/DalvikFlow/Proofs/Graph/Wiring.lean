import DalvikFlow.Graph.Wiring
import DalvikFlow.Proofs.Body.Edge
import DalvikFlow.Proofs.Graph.Layout

/-! What one instruction contributes to the graph: the edges that the body gives it, or its first
fault. -/
namespace DalvikFlow

open Body

namespace Link

variable {s t : Placed}

theorem between_switch (h : SwitchOnto s.opcode t.opcode) : between s t = .ok (.switch t) :=
  if_pos (switchOnto_iff.mp h)

theorem between_data (hs : s.opcode = .fillArrayData) (ht : t.opcode = .arrayPayload) :
    between s t = .ok (.data t) := by
  rw [between, hs, ht]
  rfl

theorem between_branch (hs : ¬ SwitchOnto s.opcode t.opcode)
    (hd : ¬ (s.opcode = .fillArrayData ∧ t.opcode = .arrayPayload))
    (hm : MayRefer s.opcode t.opcode) : between s t = .ok (.branch t) := by
  rcases mayRefer_iff.mp hm with h | h | ⟨hswitch, hdata, hcode⟩
  · exact absurd h hs
  · exact absurd h hd
  · rw [between, if_neg (fun h => hs (switchOnto_iff.mpr h)), if_neg (by simpa using hd)]
    exact if_neg (by simp [hswitch, hdata, hcode])

theorem between_wrongKind (h : ¬ MayRefer s.opcode t.opcode) :
    between s t = .error (.malformed (.badReference s.opcode s.address t.opcode)) := by
  rw [mayRefer_iff] at h
  simp only [not_or, not_and] at h
  obtain ⟨hs, hd, hc⟩ := h
  rw [between, if_neg (fun h => hs (switchOnto_iff.mpr h)), if_neg (by simpa using hd)]
  refine if_pos ?_
  by_cases hswitch : s.opcode.isSwitch = true
  · simp [hswitch]
  · by_cases hdata : s.opcode = .fillArrayData
    · simp [hdata]
    · simp [hc (Bool.eq_false_iff.mpr hswitch) hdata]

theorem between_cases (s t : Placed) :
    SwitchOnto s.opcode t.opcode ∨ (s.opcode = .fillArrayData ∧ t.opcode = .arrayPayload) ∨
    (¬ SwitchOnto s.opcode t.opcode ∧ ¬ (s.opcode = .fillArrayData ∧ t.opcode = .arrayPayload) ∧
      MayRefer s.opcode t.opcode) ∨
    ¬ MayRefer s.opcode t.opcode := by
  by_cases hs : SwitchOnto s.opcode t.opcode
  · exact .inl hs
  · by_cases hd : s.opcode = .fillArrayData ∧ t.opcode = .arrayPayload
    · exact .inr (.inl hd)
    · by_cases hm : MayRefer s.opcode t.opcode
      · exact .inr (.inr (.inl ⟨hs, hd, hm⟩))
      · exact .inr (.inr (.inr hm))

end Link

namespace Layout

variable {code : List Instruction}

/-- The edges that come from the operand of an instruction. -/
def references (l : Layout) (distinct : Bool) (source : Placed) : Except Error (List Edge) := do
  match ← l.link? source with
  | none => return []
  | some link => l.linkEdges distinct source link

theorem edges_wire (l : Layout) (distinct : Bool) (source : Placed) (next? : Option Placed) :
    (l.wire distinct source next?).edges =
      (l.references distinct source).map (· ++ source.fallthroughEdges next?) := by
  unfold wire references
  cases l.link? source with
  | error e => rfl
  | ok link? =>
      cases link? with
      | none => rfl
      | some link =>
          simp only [bind, Except.bind]
          cases l.linkEdges distinct source link <;> rfl

theorem references_of_absent {l : Layout} {distinct : Bool} {source : Placed}
    (h : source.instruction.offset? = none) : l.references distinct source = .ok [] := by
  rw [references, link?, h]
  rfl

theorem references_of_offset {l : Layout} {distinct : Bool} {source : Placed} {d : Int32}
    (h : source.instruction.offset? = some d) :
    l.references distinct source =
      (l.target? .branch source.address d >>= Link.between source) >>=
        l.linkEdges distinct source := by
  rw [references, link?, h]
  simp only [bind, Except.bind]
  cases l.target? .branch source.address d with
  | error e => rfl
  | ok t =>
      dsimp only
      cases Link.between source t <;> rfl

theorem fallthroughEdges_at? (code : List Instruction) (p a : Nat) (i : Instruction) :
    Placed.fallthroughEdges ⟨a, i⟩ (Placed.at? code (p + 1)) = continuation code p i := by
  rw [Placed.at?, continuation]
  cases code[p + 1]? with
  | none => rfl
  | some next =>
      simp only [Option.map_some, Placed.fallthroughEdges, Placed.opcode, Placed.location,
        Bool.and_eq_true, Bool.not_eq_true']

section Wide

variable (hw : Wide code)

include hw

theorem caseEdge_eq_ok_iff {source : Placed} {c : SwitchCase} {e : Edge} :
    (ofCode code).caseEdge source c = .ok e ↔ CaseEdge code source.address c e := by
  rw [caseEdge, bind_eq_ok_iff]
  simp only [target?_eq_ok_iff hw]
  constructor
  · rintro ⟨t, ⟨ht, -⟩, h⟩
    split at h
    next => cases h
    next hp => exact ⟨t.instruction, ht, Bool.eq_false_iff.mpr hp, (Except.ok.inj h).symm⟩
  · rintro ⟨t, ht, hp, rfl⟩
    obtain ⟨a, ha⟩ := exists_target?_eq_ok hw .switchCase ht
    exact ⟨⟨a, t⟩, (target?_eq_ok_iff hw).mp ha, if_neg (Bool.eq_false_iff.mp hp)⟩

theorem caseEdge_eq_error_iff {source : Placed} {c : SwitchCase} {e : Error} :
    (ofCode code).caseEdge source c = .error e ↔ CaseFault code source.address c e := by
  rw [caseEdge, bind_eq_error_iff, target?_eq_error_iff hw]
  simp only [target?_eq_ok_iff hw]
  constructor
  · rintro (⟨hnone, rfl⟩ | ⟨t, ⟨ht, -⟩, h⟩)
    · exact .unresolved hnone
    · split at h
      next hp => cases h; exact .ontoPayload ht hp
      next => cases h
  · intro h
    cases h with
    | unresolved hnone => exact .inl ⟨hnone, rfl⟩
    | @ontoPayload t ht hp =>
        obtain ⟨a, ha⟩ := exists_target?_eq_ok hw .switchCase ht
        exact .inr ⟨⟨a, t⟩, (target?_eq_ok_iff hw).mp ha, if_pos hp⟩

theorem switchEdges_eq_ok_iff {distinct : Bool} {source payload : Placed} {edges : List Edge} :
    (ofCode code).linkEdges distinct source (.switch payload) = .ok edges ↔
      ∃ all, List.Forall₂ (CaseEdge code source.address) (casesOf payload.instruction) all ∧
        edges = kept distinct all := by
  have herase : ∀ all : List Edge,
      all.eraseDupsBy (fun a b => a.target == b.target) = firstPerTarget [] all := by
    intro all
    rw [← eraseDupsBy_eq_firstPerTarget, List.filter_eq_self.mpr (by simp)]
  simp only [linkEdges, bind_eq_ok_iff, pure_eq_ok_iff, mapM_eq_ok_iff, caseEdge_eq_ok_iff hw,
    herase]
  exact exists_congr fun all => and_congr_right fun _ => eq_comm

theorem switchEdges_eq_error_iff {distinct : Bool} {source payload : Placed} {e : Error} :
    (ofCode code).linkEdges distinct source (.switch payload) = .error e ↔
      First (CaseFaultAt code source.address payload.instruction) e := by
  simp only [linkEdges, bind_eq_error_iff, pure_ne_error, and_false, exists_false, or_false,
    mapM_eq_error_iff, caseEdge_eq_error_iff hw]
  rfl

variable {source : Placed} {d : Int32} {t : Instruction}

theorem references_of_target (distinct : Bool) (hd : source.instruction.offset? = some d)
    (ht : StartsAt code (source.address + d.toInt) t) :
    ∃ a, (ofCode code).references distinct source =
      Link.between source ⟨a, t⟩ >>= (ofCode code).linkEdges distinct source := by
  obtain ⟨a, ha⟩ := exists_target?_eq_ok hw .branch ht
  refine ⟨a, ?_⟩
  rw [references_of_offset hd, ha]
  rfl

/-- The operand of an instruction gives its edges exactly as the body has them. -/
theorem references_eq_ok_iff {distinct : Bool} {edges : List Edge} :
    (ofCode code).references distinct source = .ok edges ↔
      ReferenceEdges code distinct source.address source.instruction edges := by
  constructor
  · intro h
    cases hd : source.instruction.offset? with
    | none =>
        rw [references_of_absent hd] at h
        cases h
        exact .absent hd
    | some d =>
        rw [references_of_offset hd] at h
        simp only [bind_eq_ok_iff, target?_eq_ok_iff hw] at h
        obtain ⟨link, ⟨t, ⟨ht, -⟩, hlink⟩, hedges⟩ := h
        rcases Link.between_cases source t with hs | ⟨hi, hp⟩ | ⟨hs, hn, hm⟩ | hm
        · cases hlink.symm.trans (Link.between_switch hs)
          obtain ⟨all, hall, rfl⟩ := (switchEdges_eq_ok_iff hw).mp hedges
          exact .switch hd ht hs hall
        · cases hlink.symm.trans (Link.between_data hi hp)
          cases hedges
          exact .data hd ht hi hp
        · cases hlink.symm.trans (Link.between_branch hs hn hm)
          cases hedges
          exact .branch hd ht hs hn hm
        · cases hlink.symm.trans (Link.between_wrongKind hm)
  · intro h
    cases h with
    | absent hd => exact references_of_absent hd
    | switch hd ht hs hall =>
        obtain ⟨a, ha⟩ := references_of_target hw distinct hd ht
        rw [ha, Link.between_switch (s := source) (t := ⟨a, _⟩) hs]
        exact (switchEdges_eq_ok_iff hw).mpr ⟨_, hall, rfl⟩
    | data hd ht hi hp =>
        obtain ⟨a, ha⟩ := references_of_target hw distinct hd ht
        rw [ha, Link.between_data (s := source) (t := ⟨a, _⟩) hi hp]
        rfl
    | branch hd ht hs hn hm =>
        obtain ⟨a, ha⟩ := references_of_target hw distinct hd ht
        rw [ha, Link.between_branch (s := source) (t := ⟨a, _⟩) hs hn hm]
        rfl

theorem references_eq_error_iff {distinct : Bool} {e : Error} :
    (ofCode code).references distinct source = .error e ↔
      ReferenceFault code source.address source.instruction e := by
  constructor
  · intro h
    cases hd : source.instruction.offset? with
    | none =>
        rw [references_of_absent hd] at h
        cases h
    | some d =>
        rw [references_of_offset hd] at h
        simp only [bind_eq_error_iff, bind_eq_ok_iff, target?_eq_error_iff hw,
          target?_eq_ok_iff hw] at h
        rcases h with (⟨hnone, rfl⟩ | ⟨t, ⟨ht, -⟩, hlink⟩) | ⟨link, ⟨t, ⟨ht, -⟩, hlink⟩, hedges⟩
        · exact .unresolved hd hnone
        · rcases Link.between_cases source t with hs | ⟨hi, hp⟩ | ⟨hs, hn, hm⟩ | hm
          · cases hlink.symm.trans (Link.between_switch hs)
          · cases hlink.symm.trans (Link.between_data hi hp)
          · cases hlink.symm.trans (Link.between_branch hs hn hm)
          · cases hlink.symm.trans (Link.between_wrongKind hm)
            exact .wrongKind hd ht hm
        · cases link with
          | branch => cases hedges
          | data => cases hedges
          | switch payload =>
              have hfirst := (switchEdges_eq_error_iff hw).mp hedges
              rcases Link.between_cases source t with hs | ⟨hi, hp⟩ | ⟨hs, hn, hm⟩ | hm
              · cases hlink.symm.trans (Link.between_switch hs)
                exact .case hd ht hs hfirst
              · cases hlink.symm.trans (Link.between_data hi hp)
              · cases hlink.symm.trans (Link.between_branch hs hn hm)
              · cases hlink.symm.trans (Link.between_wrongKind hm)
  · intro h
    cases h with
    | unresolved hd hnone =>
        rw [references_of_offset hd, (target?_eq_error_iff hw).mpr ⟨hnone, rfl⟩]
        rfl
    | wrongKind hd ht hm =>
        obtain ⟨a, ha⟩ := references_of_target hw distinct hd ht
        rw [ha, Link.between_wrongKind (s := source) (t := ⟨a, _⟩) hm]
        rfl
    | case hd ht hs hfirst =>
        obtain ⟨a, ha⟩ := references_of_target hw distinct hd ht
        rw [ha, Link.between_switch (s := source) (t := ⟨a, _⟩) hs]
        exact (switchEdges_eq_error_iff hw).mpr hfirst

variable {p : Nat} {i : Instruction} {next? : Option Placed}

theorem edges_wire_eq_ok_iff {distinct : Bool} {edges : List Edge} :
    ((ofCode code).wire distinct ⟨start code p, i⟩ (Placed.at? code (p + 1))).edges = .ok edges ↔
      ∃ refs, ReferenceEdges code distinct (start code p) i refs ∧
        edges = refs ++ continuation code p i := by
  simp only [edges_wire, fallthroughEdges_at?, map_eq_ok_iff, references_eq_ok_iff hw]
  exact exists_congr fun refs => and_congr_right fun _ => eq_comm

theorem edges_wire_eq_error_iff {distinct : Bool} {e : Error} :
    ((ofCode code).wire distinct ⟨start code p, i⟩ next?).edges = .error e ↔
      ReferenceFault code (start code p) i e := by
  rw [edges_wire, map_eq_error_iff, references_eq_error_iff hw]

end Wide

end Layout

theorem Body.ReferenceEdges.unique {code : List Instruction} (hw : Wide code) {distinct : Bool}
    {source : Nat} {i : Instruction} {edges edges' : List Edge}
    (h : ReferenceEdges code distinct source i edges)
    (h' : ReferenceEdges code distinct source i edges') : edges = edges' := by
  have hok : (Layout.ofCode code).references distinct ⟨source, i⟩ = .ok edges :=
    (Layout.references_eq_ok_iff hw).mpr h
  have hok' : (Layout.ofCode code).references distinct ⟨source, i⟩ = .ok edges' :=
    (Layout.references_eq_ok_iff hw).mpr h'
  exact Except.ok.inj (hok.symm.trans hok')

end DalvikFlow
