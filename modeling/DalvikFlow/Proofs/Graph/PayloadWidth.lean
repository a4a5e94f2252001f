import DalvikFlow.Proofs.Graph.Nodes

/-! The room that payloads have in a graph. An instruction states its width in sixteen bits, and a payload
that needs more is laid out as if it ended there. -/
namespace DalvikFlow

open Body

/-- The code units of a payload in a dex file. The bytes of an array fill up whole units. -/
inductive EncodedUnits : Instruction → Nat → Prop
  | packed (location : Nat) (firstKey : Int32) (offsets : List Int32) :
      EncodedUnits (.packedSwitch location firstKey offsets) (4 + 2 * offsets.length)
  | sparse (location : Nat) (cases : List SwitchCase) :
      EncodedUnits (.sparseSwitch location cases) (2 + 4 * cases.length)
  | array (location : Nat) (elementWidth : UInt16) (bytes : List UInt8) :
      EncodedUnits (.arrayData location elementWidth bytes) (4 + (bytes.length + 1) / 2)

theorem toNat_ofNat_min_maxUnits (w : Nat) : (UInt16.ofNat (min w maxUnits)).toNat = min w maxUnits :=
  UInt16.toNat_ofNat_of_lt' (Nat.lt_succ_of_le (Nat.min_le_right w maxUnits))

theorem EncodedUnits.toNat_units {i : Instruction} {w : Nat} (h : EncodedUnits i w) :
    i.units.toNat = min w maxUnits := by
  cases h <;> exact toNat_ofNat_min_maxUnits _

theorem EncodedUnits.offset?_eq_none {i : Instruction} {w : Nat} (h : EncodedUnits i w) :
    i.offset? = none := by
  cases h <;> rfl

namespace FlowGraph

theorem Shows.address_next {g : FlowGraph} {distinct : Bool} {code : List Instruction}
    (h : g.Shows distinct code) {p : Nat} {i next : Instruction} (hi : code[p]? = some i)
    (hnext : code[p + 1]? = some next) :
    ∃ n m, g.node? i.location = some n ∧ n.instruction = i ∧ g.node? next.location = some m ∧
      m.instruction = next ∧ m.address = n.address + i.units.toNat := by
  obtain ⟨n, hn, hni, hna⟩ := h.exists_node hi
  obtain ⟨m, hm, hmi, hma⟩ := h.exists_node hnext
  refine ⟨n, m, hn, hni, hm, hmi, ?_⟩
  rw [hma, hna, start_succ hi]

/-- What follows a payload stands after as many units as the payload is encoded in, up to the largest
width there is. So exactly the payloads up to that width take the room that they are encoded in. -/
theorem address_after_payload {options : GraphOptions} {code : List Instruction} {g : FlowGraph}
    {p w : Nat} {i next : Instruction} (hg : (ofCode options code).result = .ok g)
    (hi : code[p]? = some i) (hw : EncodedUnits i w) (hnext : code[p + 1]? = some next) :
    ∃ n m, g.node? i.location = some n ∧ n.instruction = i ∧ g.node? next.location = some m ∧
      m.instruction = next ∧ m.address = n.address + min w 65535 ∧
      (m.address = n.address + w ↔ w ≤ 65535) := by
  obtain ⟨n, m, hn, hni, hm, hmi, haddress⟩ := (shows_of_result hg).address_next hi hnext
  rw [hw.toNat_units, maxUnits] at haddress
  refine ⟨n, m, hn, hni, hm, hmi, haddress, ?_⟩
  omega

/-- Three bytes of data between two instructions. -/
def dataBody : List Instruction :=
  [.ofOpcode .returnVoid 0, .arrayData 1 1 [1, 2, 3], .ofOpcode .returnVoid 2]

theorem address_after_payload_in_dataBody :
    ∃ g n m, (ofCode {} dataBody).result = .ok g ∧ g.node? 1 = some n ∧ g.node? 2 = some m ∧
      m.address = n.address + 6 := by
  obtain ⟨g, hg⟩ : ∃ g, (ofCode {} dataBody).result = .ok g := ⟨_, rfl⟩
  obtain ⟨n, m, hn, -, hm, -, -, hencoded⟩ :=
    address_after_payload (p := 1) hg rfl (.array 1 1 [1, 2, 3]) rfl
  exact ⟨g, n, m, hg, hn, hm, hencoded.mpr (by decide)⟩

/-- One case more than the largest width has room for. -/
def wideBody : List Instruction :=
  [.ofOpcode .returnVoid 0, .packedSwitch 1 0 (List.replicate 32766 0), .ofOpcode .returnVoid 2]

theorem encodedUnits_widePayload :
    EncodedUnits (.packedSwitch 1 0 (List.replicate 32766 0)) 65536 := by
  have h := EncodedUnits.packed 1 0 (List.replicate 32766 0)
  rw [List.length_replicate] at h
  exact h

theorem wellFormed_wideBody : WellFormed wideBody where
  nonempty := List.cons_ne_nil _ _
  located := by
    show [0, 1, 2].Perm (List.range 3)
    decide
  wide := by
    simp only [Wide, wideBody, List.forall_mem_cons, encodedUnits_widePayload.toNat_units]
    exact ⟨by decide, by decide, by decide, List.forall_mem_nil _⟩
  fits := by
    rw [wideBody, width_cons, width_cons, encodedUnits_widePayload.toNat_units]
    decide
  refers := by
    have hnone : ∀ i ∈ wideBody, i.offset? = none := by
      simp only [wideBody, List.forall_mem_cons]
      exact ⟨rfl, encodedUnits_widePayload.offset?_eq_none, rfl, List.forall_mem_nil _⟩
    intro p i d hi hd
    rw [hnone i (List.mem_of_getElem? hi)] at hd
    cases hd

/-- A payload with a number of cases that a dex file can state takes one unit less than it is encoded in,
and everything after it stands too low. -/
theorem encoded_width_exceeded_in_wideBody :
    ¬ ∀ options code g p w i next n m, (ofCode options code).result = .ok g →
      code[p]? = some i → EncodedUnits i w → (∀ cs, i.cases? = some cs → cs.length ≤ 65535) →
      code[p + 1]? = some next → g.node? i.location = some n → g.node? next.location = some m →
      m.address = n.address + w := by
  intro hall
  obtain ⟨g, hg⟩ := (result_iff {} wideBody).1.mpr wellFormed_wideBody
  obtain ⟨n, m, hn, -, hm, -, haddress⟩ :=
    (shows_of_result hg).address_next (p := 1) rfl rfl
  have hcount : ∀ cs, (Instruction.packedSwitch 1 0 (List.replicate 32766 0)).cases? = some cs →
      cs.length ≤ 65535 := by
    intro cs hcs
    rw [← Option.some.inj hcs, length_packedCases, List.length_replicate]
    decide
  have hclaim := hall {} wideBody g 1 _ _ _ n m hg rfl encodedUnits_widePayload hcount rfl hn hm
  rw [haddress, encodedUnits_widePayload.toNat_units, Nat.add_left_cancel_iff] at hclaim
  exact absurd hclaim (by decide)

end FlowGraph

end DalvikFlow
