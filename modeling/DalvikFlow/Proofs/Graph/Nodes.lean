import DalvikFlow.Proofs.Graph.Construction

/-! The nodes of a graph that shows a body, and their children. -/
namespace DalvikFlow.FlowGraph

open Body

theorem address?_of_node? {g : FlowGraph} {l : Nat} {n : Node} (hn : g.node? l = some n) :
    g.address? l = some n.address := by
  rw [address?, hn, Option.map_some]

theorem mem_children_iff {g : FlowGraph} {l c : Nat} {n : Node} (hn : g.node? l = some n) :
    c ∈ g.children l ↔ ∃ e ∈ n.edges, e.target = c := by
  rw [children, hn, Option.map_some, Option.getD_some, Node.children, List.mem_map]

namespace Shows

variable {g : FlowGraph} {distinct : Bool} {code : List Instruction}

section

variable (h : g.Shows distinct code)

include h

theorem node_spec {l : Nat} {n : Node} (hn : g.node? l = some n) :
    ∃ p refs, code[p]? = some n.instruction ∧ n.instruction.location = l ∧ n.id = l ∧
      n.address = start code p ∧ ReferenceEdges code distinct n.address n.instruction refs ∧
      n.edges = refs ++ continuation code p n.instruction := by
  obtain ⟨p, i, refs, hi, hloc, hrefs, rfl⟩ := (h.node?_iff l n).mp hn
  exact ⟨p, refs, hi, hloc, rfl, rfl, hrefs, rfl⟩

theorem exists_node {p : Nat} {i : Instruction} (hi : code[p]? = some i) :
    ∃ n, g.node? i.location = some n ∧ n.instruction = i ∧ n.address = start code p := by
  obtain ⟨refs, hrefs⟩ := h.edges p i hi
  exact ⟨_, (h.node?_iff i.location _).mpr ⟨p, i, refs, hi, rfl, hrefs, rfl⟩, rfl, rfl⟩

theorem node_id {l : Nat} {n : Node} (hn : g.node? l = some n) : n.id = l := by
  obtain ⟨p, refs, -, -, hid, -⟩ := h.node_spec hn
  exact hid

theorem size_eq : g.size = code.length := by
  apply Nat.le_antisymm
  · refine Nat.le_of_not_lt fun hlt => ?_
    obtain ⟨n, hn⟩ : ∃ n, g.node? code.length = some n := ⟨_, Array.getElem?_eq_getElem hlt⟩
    obtain ⟨p, refs, hi, hloc, -⟩ := h.node_spec hn
    have hl := h.located.location_lt hi
    rw [hloc] at hl
    exact Nat.lt_irrefl _ hl
  · refine Nat.le_of_not_lt fun hlt => ?_
    obtain ⟨p, i, hi, hloc⟩ := h.located.exists_position hlt
    obtain ⟨n, hn, -⟩ := h.exists_node hi
    rw [hloc, node?_eq_none (Nat.le_refl _)] at hn
    cases hn

theorem root_lt_size : g.root < g.size := by
  rw [h.size_eq]
  exact List.length_pos_iff.mpr h.nonempty

theorem address_injective {l k : Nat} {n m : Node} (hn : g.node? l = some n)
    (hm : g.node? k = some m) (heq : n.address = m.address) : n = m := by
  obtain ⟨p, -, hp, hpl, -, hpa, -⟩ := h.node_spec hn
  obtain ⟨q, -, hq, hqk, -, hqa, -⟩ := h.node_spec hm
  have hpq : p = q := by
    refine h.wide.start_injective ?_ ?_ (hpa.symm.trans (heq.trans hqa))
    · exact (List.getElem?_eq_some_iff.mp hp).1
    · exact (List.getElem?_eq_some_iff.mp hq).1
  subst hpq
  have hloc := congrArg Instruction.location (Option.some.inj (hp.symm.trans hq))
  rw [hpl, hqk] at hloc
  subst hloc
  exact Option.some.inj (hn.symm.trans hm)

theorem address?_injective {l k a : Nat} (hl : g.address? l = some a) (hk : g.address? k = some a) :
    l = k := by
  obtain ⟨n, hn, hna⟩ := Option.map_eq_some_iff.mp hl
  obtain ⟨m, hm, hma⟩ := Option.map_eq_some_iff.mp hk
  rw [← h.node_id hn, ← h.node_id hm, h.address_injective hn hm (hna.trans hma.symm)]

theorem nodup_addresses : (g.nodes.toList.map Node.address).Nodup := by
  refine nodup_map_of_getElem? fun l k n m hn hm heq => ?_
  rw [Array.getElem?_toList] at hn hm
  have hnm := h.address_injective hn hm heq
  rw [← h.node_id hn, ← h.node_id hm, hnm]

theorem nodeAt?_eq_some_iff {a l : Nat} :
    g.nodeAt? a = some l ↔ ∃ n, g.node? l = some n ∧ n.address = a := by
  rw [h.indexed]
  refine (AddressIndex.find?_ofList_eq_some_iff h.nodup_addresses).trans ?_
  rw [List.getElem?_map, Option.map_eq_some_iff, Array.getElem?_toList]
  rfl

theorem childrenAt_singleton {l c a : Nat} (hc : c ∈ g.children l) (ha : g.address? c = some a) :
    g.childrenAt l [a] = [c] := by
  rw [childrenAt]
  apply eraseDups_eq_singleton
  · exact List.mem_filter.mpr ⟨hc, by simp [ha]⟩
  · intro b hb
    have hba : g.address? b = some a := by
      obtain ⟨-, hb⟩ := List.mem_filter.mp hb
      simpa [Option.any_eq_true] using hb
    exact h.address?_injective hba ha

theorem exists_node_of_startsAt {a : Int} {t : Instruction} (ht : StartsAt code a t) :
    ∃ n, g.node? t.location = some n ∧ n.instruction = t ∧ (n.address : Int) = a := by
  obtain ⟨p, hp, ha⟩ := ht
  obtain ⟨n, hn, hi, hna⟩ := h.exists_node hp
  exact ⟨n, hn, hi, hna ▸ ha⟩

theorem startsAt_range {a : Int} {t : Instruction} (ht : StartsAt code a t) :
    0 ≤ a ∧ a ≤ maxAddress := by
  obtain ⟨p, -, rfl⟩ := ht
  have hle := Nat.le_trans (start_le_width code p) h.fits
  exact ⟨Int.natCast_nonneg _, Int.ofNat_le.mpr hle⟩

end

end Shows

theorem childrenAt_eq_nil {g : FlowGraph} {l a : Nat}
    (h : ∀ c ∈ g.children l, g.address? c ≠ some a) : g.childrenAt l [a] = [] := by
  have hfilter : (g.children l).filter (fun c => (g.address? c).any [a].contains) = [] := by
    rw [List.filter_eq_nil_iff]
    intro c hc hany
    exact h c hc (by simpa [Option.any_eq_true] using hany)
  rw [childrenAt, hfilter, List.eraseDups_nil]

theorem mem_nextAddresses {g : FlowGraph} {l c a : Nat} (hc : c ∈ g.children l)
    (ha : g.address? c = some a) : a ∈ g.nextAddresses l :=
  List.mem_eraseDups.mpr (List.mem_filterMap.mpr ⟨c, hc, ha⟩)

/-- All addresses of children have all children at them, so fewer have some of them, in order. -/
theorem childrenAt_sublist (g : FlowGraph) (l : Nat) (addresses : List Nat) :
    (g.childrenAt l addresses).Sublist (g.childrenAt l (g.nextAddresses l)) := by
  have hfilter : (g.children l).filter (fun c => (g.address? c).any addresses.contains) =
      ((g.children l).filter fun c => (g.address? c).any (g.nextAddresses l).contains).filter
        fun c => (g.address? c).any addresses.contains := by
    rw [List.filter_filter]
    refine List.filter_congr fun c hc => ?_
    cases ha : g.address? c with
    | none => rfl
    | some a =>
        have hmem : (g.nextAddresses l).contains a = true :=
          List.contains_iff_mem.mpr (mem_nextAddresses hc ha)
        rw [Option.any_some, Option.any_some, hmem, Bool.and_true]
  rw [childrenAt, hfilter, eraseDups_filter]
  exact List.filter_sublist

/-- The node of a location wraps the instruction of that location. Its edges are those that its
operand implies, followed by the one to the next instruction. -/
theorem nodes_of_result {options : GraphOptions} {code : List Instruction} {g : FlowGraph}
    (h : (ofCode options code).result = .ok g) :
    g.size = code.length ∧
    (∀ l n, g.node? l = some n →
      ∃ p refs, code[p]? = some n.instruction ∧ n.instruction.location = l ∧ n.id = l ∧
        n.address = start code p ∧
        (∀ edges, ReferenceEdges code options.distinctCaseTargets n.address n.instruction edges ↔
          edges = refs) ∧
        n.edges = refs ++ continuation code p n.instruction) ∧
    ∀ (p : Nat) (i : Instruction), code[p]? = some i →
      ∃ n, g.node? i.location = some n ∧ n.instruction = i := by
  have hshows := shows_of_result h
  refine ⟨hshows.size_eq, ?_, ?_⟩
  · intro l n hn
    obtain ⟨p, refs, hi, hloc, hid, ha, hrefs, hedges⟩ := hshows.node_spec hn
    refine ⟨p, refs, hi, hloc, hid, ha, ?_, hedges⟩
    intro edges
    constructor
    · intro hr
      exact hr.unique hshows.wide hrefs
    · rintro rfl
      exact hrefs
  · intro p i hi
    obtain ⟨n, hn, hni, -⟩ := hshows.exists_node hi
    exact ⟨n, hn, hni⟩

/-- A switch with two cases for one target. The locations are out of order. -/
def sampleBody : List Instruction :=
  [((Instruction.ofOpcode .packedSwitch 1).withRegisters [0]).withOffset 5,
    .ofOpcode .nop 0,
    .ofOpcode .returnVoid 3,
    .packedSwitch 2 5 [3, 4, 3]]

theorem nodes_of_sampleBody :
    ∃ g, (ofCode ⟨true⟩ sampleBody).result = .ok g ∧ g.size = 4 ∧
      (g.node? 1).map Node.edges =
        some [⟨0, .switchCase 5⟩, ⟨3, .switchCase 6⟩, ⟨0, .fallthrough⟩] := by
  have h : (ofCode ⟨true⟩ sampleBody).result = .ok (ofNodes #[
      ⟨0, 3, .ofOpcode .nop 0, [⟨3, .fallthrough⟩]⟩,
      ⟨1, 0, ((Instruction.ofOpcode .packedSwitch 1).withRegisters [0]).withOffset 5,
        [⟨0, .switchCase 5⟩, ⟨3, .switchCase 6⟩, ⟨0, .fallthrough⟩]⟩,
      ⟨2, 5, .packedSwitch 2 5 [3, 4, 3], []⟩,
      ⟨3, 4, .ofOpcode .returnVoid 3, []⟩]) := rfl
  exact ⟨_, h, (nodes_of_result h).1, rfl⟩

end DalvikFlow.FlowGraph
