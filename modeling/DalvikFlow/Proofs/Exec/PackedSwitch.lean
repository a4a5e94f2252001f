import DalvikFlow.Proofs.Exec.Switch
import Mathlib.Algebra.Group.Int.Defs
import Mathlib.Algebra.Group.Nat.Defs

/-! A packed switch searches consecutive keys for its selector. That is to count from the first key, around
the end of the words where the keys go around it. -/
namespace DalvikFlow

open Body

/-- How far a key is from the first one, upwards and around the end of the words. -/
def packedIndex (firstKey key : Int32) : Nat := ((key.toInt - firstKey.toInt) % 2 ^ 32).toNat

theorem packedIndex_eq_iff {firstKey key : Int32} {i : Nat} (h : i < 2 ^ 32) :
    packedIndex firstKey key = i ↔ firstKey + Int32.ofNat i = key := by
  have hlow := key.le_toInt
  have hhigh := key.toInt_lt
  have hsum : (firstKey + Int32.ofNat i).toInt = (firstKey.toInt + i).bmod (2 ^ 32) := by
    rw [Int32.toInt_add, Int32.toInt_ofNat']
    exact Int.add_bmod_bmod
  rw [packedIndex, ← Int32.toInt_inj, hsum, Int.bmod_eq_iff (by decide)]
  omega

section Keys

variable {firstKey : Int32} {offsets : List Int32}

theorem getElem?_packedCases (i : Nat) :
    (packedCases firstKey offsets)[i]? =
      offsets[i]?.map fun offset => ⟨firstKey + Int32.ofNat i, offset⟩ := by
  rw [packedCases, List.getElem?_mapIdx]

variable (hlength : offsets.length ≤ 2 ^ 32)

include hlength

/-- A case stands where its key says. -/
theorem packedIndex_key {i : Nat} {c : SwitchCase} (h : (packedCases firstKey offsets)[i]? = some c) :
    packedIndex firstKey c.key = i ∧ offsets[i]? = some c.offset := by
  rw [getElem?_packedCases, Option.map_eq_some_iff] at h
  obtain ⟨offset, hoffset, rfl⟩ := h
  have hi := (List.getElem?_eq_some_iff.mp hoffset).1
  exact ⟨(packedIndex_eq_iff (Nat.lt_of_lt_of_le hi hlength)).mpr rfl, hoffset⟩

theorem nodup_keys_packedCases : ((packedCases firstKey offsets).map SwitchCase.key).Nodup := by
  refine nodup_map_of_getElem? fun i j c d hc hd hkey => ?_
  rw [← (packedIndex_key hlength hc).1, ← (packedIndex_key hlength hd).1, hkey]

/-- The search for a key finds the case at its index, or nothing if the cases end before. -/
theorem find?_packedCases (key : Int32) :
    (packedCases firstKey offsets).find? (fun c => c.key = key) =
      offsets[packedIndex firstKey key]?.map fun offset => ⟨key, offset⟩ := by
  cases hoffset : offsets[packedIndex firstKey key]? with
  | some offset =>
      have hi := (List.getElem?_eq_some_iff.mp hoffset).1
      have hkey := (packedIndex_eq_iff (Nat.lt_of_lt_of_le hi hlength)).mp rfl
      have hmem : (⟨key, offset⟩ : SwitchCase) ∈ packedCases firstKey offsets := by
        refine List.mem_of_getElem? (i := packedIndex firstKey key) ?_
        rw [getElem?_packedCases, hoffset, Option.map_some, hkey]
      exact find?_of_nodup_map (nodup_keys_packedCases hlength) hmem
  | none =>
      rw [Option.map_none, List.find?_eq_none]
      intro c hc hkey
      obtain ⟨i, hi⟩ := List.mem_iff_getElem?.mp hc
      obtain ⟨hindex, hsome⟩ := packedIndex_key hlength hi
      rw [of_decide_eq_true hkey] at hindex
      rw [hindex, hsome] at hoffset
      cases hoffset

end Keys

namespace Op

/-- The keys of a packed payload are distinct, and its switch is an index into the offsets: a known selector
goes where the offset at its distance from the first key leads, or on if the offsets end before. -/
theorem packed_switch_indexes :
    (∀ location firstKey offsets, offsets.length ≤ 2 ^ 32 →
      ∃ cs, (Instruction.packedSwitch location firstKey offsets).cases? = some cs ∧
        cs.map SwitchCase.offset = offsets ∧ (cs.map SwitchCase.key).Nodup) ∧
    ∀ options code g l n d t location firstKey offsets selector,
      (FlowGraph.ofCode options code).result = .ok g → g.node? l = some n →
      n.opcode = .packedSwitch → n.instruction.offset? = some d →
      n.instruction.register? 0 = some selector → StartsAt code (n.address + d.toInt) t →
      t.cases? = (Instruction.packedSwitch location firstKey offsets).cases? →
      offsets.length ≤ 2 ^ 32 →
      ∃ op, Family.switch.create g n = .ok op ∧
        ∀ (f : RegisterFile) item k, f.read selector = .ok item → item.value? = some (.int k) →
          ∃ a : Nat, op.run f = (.ok [a], f) ∧
            (∀ offset, offsets[packedIndex firstKey k]? = some offset →
              (a : Int) = n.address + offset.toInt) ∧
            (offsets.length ≤ packedIndex firstKey k →
              a = n.address + n.instruction.units.toNat) := by
  constructor
  · intro location firstKey offsets hlength
    refine ⟨_, rfl, ?_, nodup_keys_packedCases hlength⟩
    apply List.ext_getElem?
    intro i
    rw [List.getElem?_map, getElem?_packedCases, Option.map_map]
    exact Option.map_id'
  · intro options code g l n d t location firstKey offsets selector hg hn hop hd hr ht hcs hlength
    have hshows := FlowGraph.shows_of_result hg
    have hs : n.opcode.isSwitch = true := by
      rw [hop]
      rfl
    have hcreate := hshows.createSwitch_eq_ok hn hs hd ht hr hcs
    obtain ⟨hrows, -⟩ := hshows.table_edges hn hs hd ht hcs
    refine ⟨_, hcreate, fun f item k hf hk => ?_⟩
    obtain ⟨hcase, hnext⟩ := selectCase_rows hrows n.addressAfter k
    have hfind : (packedCases firstKey offsets).find? (fun c => c.key = k) = _ :=
      find?_packedCases hlength k
    refine ⟨_, run_eq_ok_iff.mpr (effect_switch_of_known rfl hf hk), ?_, ?_⟩
    · intro offset hoffset
      rw [hoffset] at hfind
      exact hcase _ hfind
    · intro hle
      rw [List.getElem?_eq_none hle] at hfind
      exact (hnext hfind).trans (hshows.addressAfter_eq_add hn)

/-- The keys go on from the largest word to the smallest. -/
def wrappingBody : List Instruction :=
  [((Instruction.ofOpcode .packedSwitch 0).withRegisters [0]).withOffset 5,
    .ofOpcode .nop 1,
    .ofOpcode .returnVoid 2,
    .packedSwitch 3 2147483647 [3, 4]]

example : packedCases 2147483647 [3, 4] = [⟨2147483647, 3⟩, ⟨-2147483648, 4⟩] := by decide

theorem packed_switch_indexes_wrappingBody :
    ∃ g n op, (FlowGraph.ofCode {} wrappingBody).result = .ok g ∧ g.node? 0 = some n ∧
      Family.switch.create g n = .ok op ∧
      op.run (.mk 1 [(0, .ofInt (-2147483648))]) = (.ok [4], .mk 1 [(0, .ofInt (-2147483648))]) ∧
      op.run (.mk 1 [(0, .ofInt 0)]) = (.ok [3], .mk 1 [(0, .ofInt 0)]) := by
  obtain ⟨g, hg⟩ : ∃ g, (FlowGraph.ofCode {} wrappingBody).result = .ok g := ⟨_, rfl⟩
  have hn : g.node? 0 = some ⟨0, 0,
      ((Instruction.ofOpcode .packedSwitch 0).withRegisters [0]).withOffset 5,
      [⟨1, .switchCase 2147483647⟩, ⟨2, .switchCase (-2147483648)⟩, ⟨1, .fallthrough⟩]⟩ := by
    cases hg
    rfl
  have ht : StartsAt wrappingBody ((0 : Nat) + (5 : Int32).toInt)
      (.packedSwitch 3 2147483647 [3, 4]) := ⟨3, rfl, rfl⟩
  obtain ⟨-, hindexes⟩ := packed_switch_indexes
  obtain ⟨op, hop, hruns⟩ := hindexes {} _ g 0 _ 5 _ 3 2147483647 [3, 4] 0 hg hn rfl rfl rfl ht rfl
    (by decide)
  refine ⟨g, _, op, hg, hn, hop, ?_, ?_⟩
  · obtain ⟨a, hrun, hcase, -⟩ := hruns (.mk 1 [(0, .ofInt (-2147483648))]) _ (-2147483648) rfl rfl
    obtain rfl : a = 4 := Int.ofNat.inj (hcase 4 (by decide))
    exact hrun
  · obtain ⟨a, hrun, -, hnext⟩ := hruns (.mk 1 [(0, .ofInt 0)]) _ 0 rfl rfl
    obtain rfl : a = 3 := hnext (by decide)
    exact hrun

end Op

end DalvikFlow
