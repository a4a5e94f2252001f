import DalvikFlow.Proofs.Exec.Program
import DalvikFlow.Proofs.Graph.Relabel

/-! Locations are names and nothing else: with other locations a body has the same graph under other
names, and the same operations. -/
namespace DalvikFlow

open Body

variable {σ : Equiv.Perm Nat} {g g' : FlowGraph} {distinct : Bool}
  {code code' : List Instruction}

namespace FlowGraph.Relabeled

variable (h : g.Relabeled σ g') (hg : g.Shows distinct code)

include h hg

theorem site {l : Nat} {n : Node} (hn : g.node? l = some n) :
    g'.site (n.relabel σ) = g.site n := by
  have hid := hg.node_id hn
  rw [FlowGraph.site, FlowGraph.site, hid, ← h.nextAddresses l, ← hid]
  rfl

variable (hg' : g'.Shows distinct code')

include hg'

theorem casesAt? : g'.casesAt? = g.casesAt? := by
  funext a
  rw [FlowGraph.casesAt?, FlowGraph.casesAt?, h.nodeAt? hg hg']
  cases g.nodeAt? a with
  | none => rfl
  | some l =>
      simp only [Option.map_some, Option.bind_some, h l]
      cases g.node? l <;> rfl

theorem create (r : Registry) {l : Nat} {n : Node} (hn : g.node? l = some n) :
    r.create g' (n.relabel σ) = r.create g n :=
  Registry.create_congr (h.site hg hn) (h.casesAt? hg hg')

theorem exists_ofGraph_iff (r : Registry) :
    (∃ p', Program.ofGraph r g' = .ok p') ↔ ∃ p, Program.ofGraph r g = .ok p := by
  rw [Program.exists_ofGraph_iff, Program.exists_ofGraph_iff]
  constructor
  · intro hall l n hn hpay
    obtain ⟨op, hop⟩ := hall _ _ (h.node?_of_eq hn) hpay
    exact ⟨op, (h.create hg hg' r hn).symm.trans hop⟩
  · intro hall k n' hn' hpay
    rw [← σ.apply_symm_apply k, h] at hn'
    obtain ⟨n, hn, rfl⟩ := Option.map_eq_some_iff.mp hn'
    obtain ⟨op, hop⟩ := hall _ n hn hpay
    exact ⟨op, (h.create hg hg' r hn).trans hop⟩

/-- Operations stand at addresses and go to addresses, so none of them changes. -/
theorem get? {r : Registry} {p p' : Program Op} (hp : Program.ofGraph r g = .ok p)
    (hp' : Program.ofGraph r g' = .ok p') (a : Nat) : p'.get? a = p.get? a := by
  ext op
  rw [Program.get?_eq_some_iff_exists hg hp, Program.get?_eq_some_iff_exists hg' hp']
  constructor
  · rintro ⟨k, n', hn', ha, hpay, hop⟩
    rw [← σ.apply_symm_apply k, h] at hn'
    obtain ⟨n, hn, rfl⟩ := Option.map_eq_some_iff.mp hn'
    exact ⟨_, n, hn, ha, hpay, (h.create hg hg' r hn).symm.trans hop⟩
  · rintro ⟨l, n, hn, ha, hpay, hop⟩
    exact ⟨_, _, h.node?_of_eq hn, ha, hpay, (h.create hg hg' r hn).trans hop⟩

end FlowGraph.Relabeled

/-- What is asked of the second graph under the new names has the answers of the first. The operations
are those of the first, at the same addresses. -/
structure FlowGraph.AgreesUpToNames (σ : Equiv.Perm Nat) (g g' : FlowGraph) : Prop where
  node? : ∀ l, g'.node? (σ l) = (g.node? l).map (Node.relabel σ)
  mem_predecessors_iff : ∀ l k, σ k ∈ g'.predecessors (σ l) ↔ k ∈ g.predecessors l
  nextAddresses : ∀ l, g'.nextAddresses (σ l) = g.nextAddresses l
  childrenAt : ∀ l addresses, g'.childrenAt (σ l) addresses = (g.childrenAt l addresses).map σ
  exists_ofGraph_iff : ∀ r, (∃ p', Program.ofGraph r g' = .ok p') ↔
    ∃ p, Program.ofGraph r g = .ok p
  get? : ∀ r p p', Program.ofGraph r g = .ok p → Program.ofGraph r g' = .ok p' →
    ∀ a, p'.get? a = p.get? a

namespace FlowGraph

theorem Relabeled.agreesUpToNames (h : g.Relabeled σ g') (hg : g.Shows distinct code)
    (hg' : g'.Shows distinct code') : g.AgreesUpToNames σ g' where
  node? := h
  mem_predecessors_iff _ _ := h.mem_predecessors_iff hg hg'
  nextAddresses := h.nextAddresses
  childrenAt := h.childrenAt
  exists_ofGraph_iff := h.exists_ofGraph_iff hg hg'
  get? _ _ _ hp hp' := h.get? hg hg' hp hp'

/-- A body with its locations permuted is accepted if it was before, and has the same errors of
references. Its graph is the same up to the names of the nodes. -/
theorem locations_are_names (options : GraphOptions) {code : List Instruction}
    (hlocated : Located code) {σ : Equiv.Perm Nat}
    (hσ : ∀ l, σ l < code.length ↔ l < code.length) :
    ((∃ g', (ofCode options (relabel σ code)).result = .ok g') ↔
      ∃ g, (ofCode options code).result = .ok g) ∧
    (∀ e : Error, e.OfReference →
      ((ofCode options (relabel σ code)).result = .error e ↔
        (ofCode options code).result = .error e)) ∧
    ∀ g g', (ofCode options code).result = .ok g →
      (ofCode options (relabel σ code)).result = .ok g' → g.AgreesUpToNames σ g' := by
  obtain ⟨haccepted, herror⟩ := result_iff options code
  obtain ⟨haccepted', herror'⟩ := result_iff options (relabel σ code)
  refine ⟨?_, ?_, ?_⟩
  · rw [haccepted, haccepted']
    exact wellFormed_relabel hlocated hσ
  · intro e he
    rw [herror, herror']
    exact firstFault_relabel hlocated hσ he
  · intro g g' hg hg'
    have hshows := shows_of_result hg
    have hshows' := shows_of_result hg'
    exact (hshows.relabeled hshows' hσ).agreesUpToNames hshows hshows'

/-- The first and the last of the nodes change places. -/
theorem locations_are_names_in_sampleBody :
    ∃ g g', (ofCode ⟨true⟩ sampleBody).result = .ok g ∧
      (ofCode ⟨true⟩ (relabel (Equiv.swap 0 3) sampleBody)).result = .ok g' ∧
      g.AgreesUpToNames (Equiv.swap 0 3) g' ∧
      g.childrenAt 1 [4, 3] = [0, 3] ∧ g'.childrenAt 1 [4, 3] = [3, 0] := by
  have hlocated : Located sampleBody := by
    unfold Located
    decide
  have hσ : ∀ l, Equiv.swap 0 3 l < sampleBody.length ↔ l < sampleBody.length := by
    intro l
    show Equiv.swap 0 3 l < 4 ↔ l < 4
    rw [Equiv.swap_apply_def]
    split_ifs <;> omega
  obtain ⟨g, hg⟩ : ∃ g, (ofCode ⟨true⟩ sampleBody).result = .ok g := ⟨_, rfl⟩
  obtain ⟨haccepted, -, hagrees⟩ := locations_are_names ⟨true⟩ hlocated hσ
  obtain ⟨g', hg'⟩ := haccepted.mpr ⟨g, hg⟩
  have hnames := hagrees g g' hg hg'
  have hchildren : g.childrenAt 1 [4, 3] = [0, 3] := by
    cases hg
    rfl
  refine ⟨g, g', hg, hg', hnames, hchildren, ?_⟩
  have hchildren' := hnames.childrenAt 1 [4, 3]
  rwa [hchildren] at hchildren'

end FlowGraph

end DalvikFlow
