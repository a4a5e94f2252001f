import DalvikFlow.Proofs.Exec.Effect
import DalvikFlow.Proofs.Exec.Program
import DalvikFlow.Proofs.Exec.Target

/-! The operation of a switch and the edges of its node lead to the same instructions, although the
one goes by addresses and the other by the layout of the body. -/
namespace DalvikFlow

open Body

/-- The key of a case, and the address that its offset leads to. -/
def RowOf (source : Nat) (c : SwitchCase) (r : Int32 × Nat) : Prop :=
  r.1 = c.key ∧ (r.2 : Int) = source + c.offset.toInt

def FlowGraph.RowEdge (g : FlowGraph) (r : Int32 × Nat) (e : Edge) : Prop :=
  e.via = .switchCase r.1 ∧ g.address? e.target = some r.2

/-- The rows of a table are searched in the order of the cases. -/
theorem selectCase_rows {source : Nat} {cs : List SwitchCase} {table : List (Int32 × Nat)}
    (h : List.Forall₂ (RowOf source) cs table) (next : Nat) (k : Int32) :
    (∀ c, cs.find? (fun c => c.key = k) = some c →
      (selectCase table next k : Int) = source + c.offset.toInt) ∧
    (cs.find? (fun c => c.key = k) = none → selectCase table next k = next) := by
  unfold selectCase
  induction h with
  | nil => exact ⟨nofun, fun _ => rfl⟩
  | @cons c r cs table hrow _ ih =>
      by_cases hk : c.key = k
      · have hr : r.1 = k := hrow.1.trans hk
        rw [List.find?_cons_of_pos (by simp [hk]), List.find?_cons_of_pos (by simp [hr])]
        refine ⟨?_, nofun⟩
        intro d hd
        cases hd
        exact hrow.2
      · have hr : ¬ r.1 = k := fun hr => hk (hrow.1.symm.trans hr)
        rw [List.find?_cons_of_neg (by simp [hk]), List.find?_cons_of_neg (by simp [hr])]
        exact ih

namespace FlowGraph.Shows

variable {g : FlowGraph} {distinct : Bool} {code : List Instruction}

section

variable (h : g.Shows distinct code)

include h

/-- No case of a switch is left out of its table, and each row stands for the edge of its case. -/
theorem table_rows {n : Node} {cs : List SwitchCase} {edges : List Edge}
    (hcases : List.Forall₂ (CaseEdge code n.address) cs edges) :
    List.Forall₂ (RowOf n.address) cs (cs.filterMap n.caseTarget?) ∧
      List.Forall₂ g.RowEdge (cs.filterMap n.caseTarget?) edges := by
  induction hcases with
  | nil => exact ⟨.nil, .nil⟩
  | @cons c e cs edges hedge _ ih =>
      obtain ⟨t, ht, -, rfl⟩ := hedge
      obtain ⟨m, hm, -, hma⟩ := h.exists_node_of_startsAt ht
      have hrow : n.caseTarget? c = some (c.key, m.address) := by
        have hrange := h.startsAt_range ht
        rw [← hma] at hrange
        rw [Node.caseTarget?, ← hma]
        exact if_pos hrange
      rw [List.filterMap_cons_some hrow]
      exact ⟨.cons ⟨rfl, hma⟩ ih.1, .cons ⟨rfl, address?_of_node? hm⟩ ih.2⟩

section Switch

variable {l : Nat} {n : Node} {d : Int32} {t : Instruction} (hn : g.node? l = some n)
  (hs : n.opcode.isSwitch = true) (hd : n.instruction.offset? = some d)
  (ht : StartsAt code (n.address + d.toInt) t)

include hn hs hd ht

theorem switch_edges :
    SwitchOnto n.opcode t.opcode ∧ ∃ p edges, code[p]? = some n.instruction ∧
      n.address = start code p ∧ List.Forall₂ (CaseEdge code n.address) (casesOf t) edges ∧
      n.edges = kept distinct edges ++ continuation code p n.instruction := by
  obtain ⟨p, refs, hi, -, -, ha, hrefs, hedges⟩ := h.node_spec hn
  obtain ⟨honto, edges, hcases, rfl⟩ := hrefs.of_switch h.wide hs hd ht
  exact ⟨honto, p, edges, hi, ha, hcases, hedges⟩

/-- The operation of a switch has the cases of the payload that its offset leads to, if it has any. -/
theorem casesAt?_branchTarget :
    ∃ a, n.branchTarget = .ok a ∧ (a : Int) = n.address + d.toInt ∧ g.casesAt? a = t.cases? := by
  obtain ⟨honto, -⟩ := h.switch_edges hn hs hd ht
  obtain ⟨m, htarget, hm, rfl⟩ := h.branchTarget_eq_ok hd ht
  obtain ⟨-, d', hd', ha⟩ := Node.branchTarget_eq_ok_iff.mp htarget
  cases hd.symm.trans hd'
  have hfind : g.nodeAt? m.address = some m.instruction.location :=
    h.nodeAt?_eq_some_iff.mpr ⟨m, hm, rfl⟩
  have hpayload : m.opcode.isSwitchPayload = true := honto.isSwitchPayload
  refine ⟨m.address, htarget, ha, ?_⟩
  rw [casesAt?, hfind]
  show (g.node? m.instruction.location >>= fun payload =>
    if payload.opcode.isSwitchPayload = true then payload.instruction.cases? else none) = _
  rw [hm]
  exact if_pos hpayload

theorem createSwitch_eq_ok {selector : UInt16} {cs : List SwitchCase}
    (hr : n.instruction.register? 0 = some selector) (hcs : t.cases? = some cs) :
    Family.switch.create g n =
      .ok ⟨g.site n, .switch selector (cs.filterMap n.caseTarget?) n.addressAfter⟩ := by
  obtain ⟨a, htarget, -, hcases⟩ := h.casesAt?_branchTarget hn hs hd ht
  exact Family.create_eq_ok_iff.mpr (.switch hs htarget (hcases.trans hcs) hr)

/-- Where a case leads there is one child, whichever of the edges to it is kept. -/
theorem childrenAt_case {c : SwitchCase} (hc : c ∈ casesOf t) {a : Nat}
    (ha : (a : Int) = n.address + c.offset.toInt) :
    ∃ u, StartsAt code (n.address + c.offset.toInt) u ∧ g.childrenAt l [a] = [u.location] := by
  obtain ⟨-, p, edges, -, -, hcases, hedges⟩ := h.switch_edges hn hs hd ht
  obtain ⟨e, he, u, hu, -, rfl⟩ := exists_mem_of_forall₂ hcases hc
  obtain ⟨e', he', htarget⟩ := exists_mem_kept distinct he
  have hmem : e' ∈ n.edges := by
    rw [hedges]
    exact List.mem_append_left _ he'
  refine ⟨u, hu, ?_⟩
  apply h.childrenAt_singleton
  · exact (mem_children_iff hn).mpr ⟨e', hmem, htarget⟩
  · obtain ⟨m, hm, -, hma⟩ := h.exists_node_of_startsAt hu
    rw [address?_of_node? hm, Int.ofNat.inj (hma.trans ha.symm)]

/-- After a switch there is a child exactly if the switch goes on: no case leads there otherwise. -/
theorem childrenAt_addressAfter :
    (∀ e ∈ n.edges, e.via = .fallthrough → g.childrenAt l [n.addressAfter] = [e.target]) ∧
    ((∀ e ∈ n.edges, e.via ≠ .fallthrough) → g.childrenAt l [n.addressAfter] = []) := by
  obtain ⟨honto, -⟩ := h.switch_edges hn hs hd ht
  exact h.childrenAt_next hn honto.canContinue

theorem table_edges {cs : List SwitchCase} (hcs : t.cases? = some cs) :
    List.Forall₂ (RowOf n.address) cs (cs.filterMap n.caseTarget?) ∧
    (distinct = false → List.Forall₂ g.RowEdge (cs.filterMap n.caseTarget?)
      (n.edges.filter fun e => e.via.isSwitchCase)) ∧
    ∀ a, a ∈ (cs.filterMap n.caseTarget?).map Prod.snd ↔
      ∃ e ∈ n.edges, e.via.isSwitchCase = true ∧ g.address? e.target = some a := by
  obtain ⟨-, p, edges, -, -, hcases, hedges⟩ := h.switch_edges hn hs hd ht
  rw [casesOf, hcs, Option.getD_some] at hcases
  obtain ⟨hrows, hrowEdges⟩ := h.table_rows hcases
  have hkind : ∀ e ∈ kept distinct edges, e.via.isSwitchCase = true := by
    intro e he
    obtain ⟨c, -, hc⟩ := exists_caseEdge_of_mem_kept hcases he
    exact hc.isSwitchCase
  have hcontinue : ∀ e ∈ continuation code p n.instruction, ¬ e.via.isSwitchCase = true := by
    intro e he
    obtain ⟨-, next, -, -, rfl⟩ := mem_continuation_iff.mp he
    exact Bool.false_ne_true
  have hfilter : (n.edges.filter fun e => e.via.isSwitchCase) = kept distinct edges := by
    rw [hedges, List.filter_append, List.filter_eq_self.mpr hkind,
      List.filter_eq_nil_iff.mpr hcontinue, List.append_nil]
  refine ⟨hrows, ?_, ?_⟩
  · intro hall
    rw [hfilter, hall]
    exact hrowEdges
  · intro a
    have hmem : ∀ e, e ∈ n.edges ∧ e.via.isSwitchCase = true ↔ e ∈ kept distinct edges := by
      intro e
      rw [← hfilter, List.mem_filter]
    simp only [← and_assoc, hmem, List.mem_map]
    constructor
    · rintro ⟨r, hr, rfl⟩
      obtain ⟨e, he, -, ha⟩ := exists_mem_of_forall₂ hrowEdges hr
      obtain ⟨e', he', htarget⟩ := exists_mem_kept distinct he
      refine ⟨e', he', ?_⟩
      rw [htarget]
      exact ha
    · rintro ⟨e, he, ha⟩
      obtain ⟨r, hr, -, hra⟩ := exists_mem_of_forall₂ hrowEdges.flip (mem_of_mem_kept he)
      exact ⟨r, hr, Option.some.inj (hra.symm.trans ha)⟩

end Switch

end

end FlowGraph.Shows

namespace Program

variable {g : FlowGraph} {p : Program Op} {l : Nat} {n : Node} {site : Site} {selector : UInt16}
  {table : List (Int32 × Nat)} {next : Nat} {f : RegisterFile}

theorem step_switch (hn : g.node? l = some n)
    (hop : p.get? n.address = some ⟨site, .switch selector table next⟩) {item : Item} {k : Int32}
    (hf : f.read selector = .ok item) (hk : item.value? = some (.int k)) :
    p.step g l f =
      .ok ((g.childrenAt l [selectCase table next k]).map fun child => (child, f)) := by
  exact step_eq_ok_iff.mpr ⟨n, _, _, f, hn, hop, Op.effect_switch_of_known rfl hf hk, rfl⟩

theorem eq_of_step_switch (hn : g.node? l = some n)
    (hop : p.get? n.address = some ⟨site, .switch selector table next⟩)
    {successors : List (Nat × RegisterFile)} (h : p.step g l f = .ok successors) :
    ∀ s ∈ successors, s.2 = f := by
  obtain ⟨n', op, addresses, after, hn', hop', heffect, rfl⟩ := step_eq_ok_iff.mp h
  cases hn.symm.trans hn'
  cases hop.symm.trans hop'
  simp only [Op.effect, bind_eq_ok_iff, pure_eq_ok_iff] at heffect
  obtain ⟨item, -, heffect⟩ := heffect
  cases heffect
  intro s hmem
  obtain ⟨child, -, rfl⟩ := List.mem_map.mp hmem
  rfl

/-- The operation of a switch can be made, has a row for every case of the payload and agrees with
the edges of the node. A step with a known selector goes to the first case for it, or else on. -/
theorem switch_agrees_with_edges {options : GraphOptions} {code : List Instruction}
    {g : FlowGraph} {l : Nat} {n : Node} {d : Int32} {t : Instruction} {selector : UInt16}
    {cs : List SwitchCase} (hg : (FlowGraph.ofCode options code).result = .ok g)
    (hn : g.node? l = some n) (hs : n.opcode.isSwitch = true)
    (hd : n.instruction.offset? = some d) (hr : n.instruction.register? 0 = some selector)
    (ht : StartsAt code (n.address + d.toInt) t) (hcs : t.cases? = some cs) :
    ∃ table op, Family.switch.create g n = .ok op ∧
      op.action = .switch selector table n.addressAfter ∧
      List.Forall₂ (RowOf n.address) cs table ∧
      (options.distinctCaseTargets = false →
        List.Forall₂ g.RowEdge table (n.edges.filter fun e => e.via.isSwitchCase)) ∧
      (∀ a, a ∈ table.map Prod.snd ↔
        ∃ e ∈ n.edges, e.via.isSwitchCase = true ∧ g.address? e.target = some a) ∧
      (∀ p, ofGraph Registry.builtin g = .ok p → p.get? n.address = some op) ∧
      ∀ (p : Program Op) (f : RegisterFile), p.get? n.address = some op →
        (∀ item k, f.read selector = .ok item → item.value? = some (.int k) →
          (∀ c, cs.find? (fun c => c.key = k) = some c →
            ∃ u, StartsAt code (n.address + c.offset.toInt) u ∧
              p.step g l f = .ok [(u.location, f)]) ∧
          (cs.find? (fun c => c.key = k) = none →
            (∀ e ∈ n.edges, e.via = .fallthrough → p.step g l f = .ok [(e.target, f)]) ∧
            ((∀ e ∈ n.edges, e.via ≠ .fallthrough) → p.step g l f = .ok []))) ∧
        ∀ next, p.step g l f = .ok next → ∀ s ∈ next, s.2 = f := by
  have hshows := FlowGraph.shows_of_result hg
  have hcreate := hshows.createSwitch_eq_ok hn hs hd ht hr hcs
  obtain ⟨hrows, hall, haddresses⟩ := hshows.table_edges hn hs hd ht hcs
  refine ⟨_, _, hcreate, rfl, hrows, hall, haddresses, ?_, ?_⟩
  · intro p hp
    obtain ⟨honto, -⟩ := hshows.switch_edges hn hs hd ht
    refine (get?_eq_some_iff hshows hp hn).mpr ⟨honto.isPayload_left, ?_⟩
    exact Registry.builtin_create_eq_ok_iff.mpr ⟨.switch, Family.create_eq_ok_iff.mp hcreate⟩
  · intro p f hop
    refine ⟨?_, fun next h => eq_of_step_switch hn hop h⟩
    intro item k hf hk
    obtain ⟨hsome, hnone⟩ := selectCase_rows hrows n.addressAfter k
    have hstep := step_switch hn hop hf hk
    constructor
    · intro c hc
      have hmem : c ∈ casesOf t := by
        rw [casesOf, hcs]
        exact List.mem_of_find?_eq_some hc
      obtain ⟨u, hu, hchild⟩ := hshows.childrenAt_case hn hs hd ht hmem (hsome c hc)
      rw [hchild] at hstep
      exact ⟨u, hu, hstep⟩
    · intro hc
      rw [hnone hc] at hstep
      obtain ⟨hon, hoff⟩ := hshows.childrenAt_addressAfter hn hs hd ht
      constructor
      · intro e he hvia
        rw [hon e he hvia] at hstep
        exact hstep
      · intro he
        rw [hoff he] at hstep
        exact hstep

/-- The third case has no edge of its own. -/
theorem switch_agrees_in_sampleBody :
    ∃ g p u, (FlowGraph.ofCode ⟨true⟩ FlowGraph.sampleBody).result = .ok g ∧
      ofGraph Registry.builtin g = .ok p ∧ StartsAt FlowGraph.sampleBody 3 u ∧
      p.step g 1 (.mk 1 [(0, .ofInt 7)]) = .ok [(u.location, .mk 1 [(0, .ofInt 7)])] := by
  obtain ⟨g, hg⟩ : ∃ g, (FlowGraph.ofCode ⟨true⟩ FlowGraph.sampleBody).result = .ok g := ⟨_, rfl⟩
  obtain ⟨p, hp⟩ : ∃ p, ofGraph Registry.builtin g = .ok p := by
    cases hg
    exact ⟨_, rfl⟩
  have hn : g.node? 1 = some ⟨1, 0,
      ((Instruction.ofOpcode .packedSwitch 1).withRegisters [0]).withOffset 5,
      [⟨0, .switchCase 5⟩, ⟨3, .switchCase 6⟩, ⟨0, .fallthrough⟩]⟩ := by
    cases hg
    rfl
  have ht : StartsAt FlowGraph.sampleBody ((0 : Nat) + (5 : Int32).toInt)
      (.packedSwitch 2 5 [3, 4, 3]) := ⟨3, rfl, rfl⟩
  obtain ⟨table, op, -, -, -, -, -, hprogram, hsteps⟩ :=
    switch_agrees_with_edges hg hn rfl rfl rfl ht rfl
  obtain ⟨hknown, -⟩ := hsteps p (.mk 1 [(0, .ofInt 7)]) (hprogram p hp)
  obtain ⟨u, hu, hstep⟩ := (hknown (.ofInt 7) 7 rfl rfl).1 ⟨7, 3⟩ rfl
  exact ⟨g, p, u, hg, hp, hu, hstep⟩

end Program

end DalvikFlow
