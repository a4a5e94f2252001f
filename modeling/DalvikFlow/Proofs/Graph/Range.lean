import DalvikFlow.Proofs.Graph.Nodes

/-! The nodes of a graph lie one after the other, in the order of the code whatever their ids are. -/
namespace DalvikFlow

open Body

/-- The code units of a node. -/
def Node.Covers (n : Node) (a : Nat) : Prop :=
  n.address ≤ a ∧ a < n.address + n.instruction.units.toNat

namespace FlowGraph

/-- The nodes are the instructions of a body, laid out in its order. They share no code unit and leave
none out, and a look-up by address finds exactly where they start. -/
structure LaidOut (g : FlowGraph) (code : List Instruction) : Prop where
  size_eq : g.size = code.length
  node_spec : ∀ l n, g.node? l = some n →
    n.id = l ∧ n.instruction.location = l ∧ n.instruction ∈ code
  /-- An instruction starts after all those before it. -/
  exists_node : ∀ (p : Nat) (i : Instruction), code[p]? = some i →
    ∃ n, g.node? i.location = some n ∧ n.instruction = i ∧ n.address = width (code.take p)
  disjoint : ∀ l k n m a, g.node? l = some n → g.node? k = some m → n.Covers a → m.Covers a → l = k
  exists_covers_iff : ∀ a, (∃ l n, g.node? l = some n ∧ n.Covers a) ↔ a < width code
  width_le : width code ≤ maxAddress
  nodeAt?_eq_some_iff : ∀ a l, g.nodeAt? a = some l ↔ ∃ n, g.node? l = some n ∧ n.address = a
  nodeAt?_inside : ∀ l n a, g.node? l = some n → n.Covers a → a ≠ n.address → g.nodeAt? a = none
  nodeAt?_outside : ∀ a, width code ≤ a → g.nodeAt? a = none

namespace Shows

variable {g : FlowGraph} {distinct : Bool} {code : List Instruction}

section

variable (h : g.Shows distinct code)

include h

theorem covers_address {l : Nat} {n : Node} (hn : g.node? l = some n) : n.Covers n.address := by
  obtain ⟨p, -, hi, -⟩ := h.node_spec hn
  have hpos := h.wide n.instruction (List.mem_of_getElem? hi)
  exact ⟨Nat.le_refl _, Nat.lt_add_of_pos_right hpos⟩

theorem eq_of_covers {l k a : Nat} {n m : Node} (hn : g.node? l = some n)
    (hm : g.node? k = some m) (hna : n.Covers a) (hma : m.Covers a) : l = k := by
  obtain ⟨p, -, hp, hpl, -, hpa, -⟩ := h.node_spec hn
  obtain ⟨q, -, hq, hqk, -, hqa, -⟩ := h.node_spec hm
  obtain ⟨hnle, hnlt⟩ := hna
  obtain ⟨hmle, hmlt⟩ := hma
  rcases Nat.lt_trichotomy p q with hlt | rfl | hgt
  · have hend := start_add_units_le hp hlt
    omega
  · rw [← hpl, ← hqk, Option.some.inj (hp.symm.trans hq)]
  · have hend := start_add_units_le hq hgt
    omega

theorem exists_covers_iff {a : Nat} :
    (∃ l n, g.node? l = some n ∧ n.Covers a) ↔ a < width code := by
  rw [lt_width_iff]
  constructor
  · rintro ⟨l, n, hn, hle, hlt⟩
    obtain ⟨p, -, hi, -, -, ha, -⟩ := h.node_spec hn
    exact ⟨p, n.instruction, hi, ha ▸ hle, ha ▸ hlt⟩
  · rintro ⟨p, i, hi, hle, hlt⟩
    obtain ⟨n, hn, rfl, ha⟩ := h.exists_node hi
    exact ⟨_, n, hn, ha ▸ hle, ha ▸ hlt⟩

/-- Where nothing starts, nothing is found. -/
theorem nodeAt?_eq_none {a : Nat} (ha : ∀ l n, g.node? l = some n → n.address ≠ a) :
    g.nodeAt? a = none := by
  refine Option.eq_none_iff_forall_ne_some.mpr fun l hl => ?_
  obtain ⟨n, hn, hna⟩ := h.nodeAt?_eq_some_iff.mp hl
  exact ha l n hn hna

theorem nodeAt?_inside {l a : Nat} {n : Node} (hn : g.node? l = some n) (hna : n.Covers a)
    (hne : a ≠ n.address) : g.nodeAt? a = none := by
  apply h.nodeAt?_eq_none
  rintro k m hm rfl
  have hlk := h.eq_of_covers hn hm hna (h.covers_address hm)
  subst hlk
  exact hne (congrArg Node.address (Option.some.inj (hm.symm.trans hn)))

theorem nodeAt?_outside {a : Nat} (ha : width code ≤ a) : g.nodeAt? a = none := by
  apply h.nodeAt?_eq_none
  rintro k m hm rfl
  exact Nat.not_lt_of_le ha (h.exists_covers_iff.mp ⟨k, m, hm, h.covers_address hm⟩)

end

end Shows

theorem laidOut_of_result {options : GraphOptions} {code : List Instruction} {g : FlowGraph}
    (h : (ofCode options code).result = .ok g) : g.LaidOut code := by
  have hshows := shows_of_result h
  exact {
    size_eq := hshows.size_eq
    node_spec := by
      intro l n hn
      obtain ⟨p, -, hi, hloc, hid, -⟩ := hshows.node_spec hn
      exact ⟨hid, hloc, List.mem_of_getElem? hi⟩
    exists_node := fun _ _ => hshows.exists_node
    disjoint := fun _ _ _ _ _ => hshows.eq_of_covers
    exists_covers_iff := fun _ => hshows.exists_covers_iff
    width_le := hshows.fits
    nodeAt?_eq_some_iff := fun _ _ => hshows.nodeAt?_eq_some_iff
    nodeAt?_inside := fun _ _ _ => hshows.nodeAt?_inside
    nodeAt?_outside := fun _ => hshows.nodeAt?_outside }

theorem laidOut_of_sampleBody :
    ∃ g, (ofCode ⟨false⟩ sampleBody).result = .ok g ∧ g.LaidOut sampleBody ∧
      (g.node? 1).map Node.address = some 0 ∧ (g.node? 2).map Node.address = some 5 := by
  obtain ⟨g, hg⟩ : ∃ g, (ofCode ⟨false⟩ sampleBody).result = .ok g := ⟨_, rfl⟩
  refine ⟨g, hg, laidOut_of_result hg, ?_⟩
  cases hg
  exact ⟨rfl, rfl⟩

end FlowGraph

end DalvikFlow
