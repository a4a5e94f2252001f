import DalvikFlow.Exec.Program
import DalvikFlow.Proofs.Exec.Creation
import DalvikFlow.Proofs.Graph.Nodes

/-! The operations of a graph: one for each node that is no payload, made from that node. -/
namespace DalvikFlow

open Body

namespace Program

section Entries

variable {α : Type} [Operation α] {p : Program α} {ops : List α} {op : α} {a : Nat}

theorem address_of_get? (h : p.get? a = some op) : Operation.address op = a := p.address_eq a op h

theorem mem_toList_iff_exists : op ∈ p.toList ↔ ∃ a, p.get? a = some op := by
  simp only [toList, List.mem_map, Prod.exists, exists_eq_right, get?,
    Std.TreeMap.mem_toList_iff_getElem?_eq_some]

theorem mem_toList_iff : op ∈ p.toList ↔ p.get? (Operation.address op) = some op := by
  rw [mem_toList_iff_exists]
  constructor
  · rintro ⟨a, ha⟩
    rw [address_of_get? ha]
    exact ha
  · intro hop
    exact ⟨Operation.address op, hop⟩

theorem length_toList (p : Program α) : p.toList.length = p.size := by
  rw [toList, List.length_map, Std.TreeMap.length_toList, size]

theorem pairwise_toList (p : Program α) :
    p.toList.Pairwise fun x y => Operation.address x < Operation.address y := by
  have haddress : ∀ e ∈ p.ops.toList, Operation.address e.2 = e.1 := fun e he =>
    address_of_get? (Std.TreeMap.mem_toList_iff_getElem?_eq_some.mp he)
  rw [toList, List.pairwise_map]
  refine (Std.TreeMap.ordered_keys_toList (t := p.ops)).imp_of_mem ?_
  intro x y hx hy hlt
  rw [haddress x hx, haddress y hy]
  exact Nat.compare_eq_lt.mp hlt

/-- The last operation at an address is the one that is kept. -/
theorem get?_ofList (ops : List α) (a : Nat) :
    (ofList ops).get? a = ops.reverse.find? fun op => Operation.address op = a := by
  rw [ofList, List.foldl_eq_foldr_reverse]
  induction ops.reverse with
  | nil => exact get?_empty a
  | cons op rest ih =>
      rw [List.foldr_cons, get?_insert, List.find?_cons, ih]
      by_cases h : Operation.address op = a
      · rw [if_pos h, decide_eq_true h]
      · rw [if_neg h, decide_eq_false h]

theorem mem_of_get?_ofList (h : (ofList ops).get? a = some op) : op ∈ ops := by
  rw [get?_ofList] at h
  exact List.mem_reverse.mp (List.mem_of_find?_eq_some h)

theorem get?_address_of_mem (hnodup : (ops.map Operation.address).Nodup) (h : op ∈ ops) :
    (ofList ops).get? (Operation.address op) = some op := by
  rw [get?_ofList]
  apply find?_of_nodup_map
  · rw [List.map_reverse, List.nodup_reverse]
    exact hnodup
  · exact List.mem_reverse.mpr h

/-- Operations with addresses of their own are all kept, in another order. -/
theorem toList_ofList_perm (hnodup : (ops.map Operation.address).Nodup) :
    (ofList ops).toList.Perm ops := by
  have hsorted : (ofList ops).toList.Nodup :=
    (ofList ops).pairwise_toList.imp fun hlt heq =>
      Nat.ne_of_lt hlt (congrArg Operation.address heq)
  refine (List.perm_ext_iff_of_nodup hsorted (.of_map _ hnodup)).mpr fun op => ?_
  rw [mem_toList_iff]
  exact ⟨mem_of_get?_ofList, get?_address_of_mem hnodup⟩

end Entries

variable {r : Registry} {g : FlowGraph} {p : Program Op} {distinct : Bool} {code : List Instruction}

theorem mem_executed_iff {n : Node} :
    n ∈ (g.nodes.toList.filter fun n => !n.isPayload) ↔
      n.isPayload = false ∧ ∃ l, g.node? l = some n := by
  rw [List.mem_filter, and_comm, List.mem_iff_getElem?]
  simp only [FlowGraph.node?, Array.getElem?_toList, Bool.not_eq_eq_eq_not, Bool.not_true]

/-- One operation is made for each node that is executed, and stands at its address. -/
theorem ofGraph_eq_ok (hg : g.Shows distinct code) (hp : ofGraph r g = .ok p) :
    ∃ ops, p = ofList ops ∧
      ops.map Op.address = (g.nodes.toList.filter fun n => !n.isPayload).map Node.address ∧
      (ops.map Op.address).Nodup ∧
      ∀ op, op ∈ ops ↔ ∃ n l, g.node? l = some n ∧ n.isPayload = false ∧ r.create g n = .ok op := by
  obtain ⟨ops, hops, hlist⟩ := bind_eq_ok_iff.mp hp
  cases hlist
  have haddresses : ops.map Op.address =
      (g.nodes.toList.filter fun n => !n.isPayload).map Node.address := by
    rw [← List.forall₂_eq_eq_eq, List.forall₂_map_left_iff, List.forall₂_map_right_iff]
    have hmade := mapM_eq_ok_iff.mp hops
    exact (hmade.imp fun _ _ => Registry.create_address).flip
  refine ⟨ops, rfl, haddresses, ?_, ?_⟩
  · rw [haddresses]
    exact hg.nodup_addresses.sublist (List.filter_sublist.map _)
  intro op
  constructor
  · intro hop
    obtain ⟨k, hk⟩ := List.mem_iff_getElem?.mp hop
    obtain ⟨n, hn, hcreate⟩ := (getElem?_eq_some_iff_of_mapM hops).mp hk
    obtain ⟨hpay, l, hl⟩ := mem_executed_iff.mp (List.mem_of_getElem? hn)
    exact ⟨n, l, hl, hpay, hcreate⟩
  · rintro ⟨n, l, hn, hpay, hcreate⟩
    obtain ⟨k, hk⟩ := List.mem_iff_getElem?.mp (mem_executed_iff.mpr ⟨hpay, l, hn⟩)
    exact List.mem_of_getElem? ((getElem?_eq_some_iff_of_mapM hops).mpr ⟨n, hk, hcreate⟩)

/-- There are no operations but those of nodes. -/
theorem get?_eq_some_iff_exists (hg : g.Shows distinct code) (hp : ofGraph r g = .ok p) {a : Nat}
    {op : Op} :
    p.get? a = some op ↔
      ∃ l n, g.node? l = some n ∧ n.address = a ∧ n.isPayload = false ∧ r.create g n = .ok op := by
  obtain ⟨ops, rfl, -, hnodup, hops⟩ := ofGraph_eq_ok hg hp
  constructor
  · intro h
    obtain ⟨n, l, hn, hpay, hcreate⟩ := (hops op).mp (mem_of_get?_ofList h)
    refine ⟨l, n, hn, ?_, hpay, hcreate⟩
    exact (Registry.create_address hcreate).symm.trans (address_of_get? h)
  · rintro ⟨l, n, hn, rfl, hpay, hcreate⟩
    have hop := (hops op).mpr ⟨n, l, hn, hpay, hcreate⟩
    rw [← Registry.create_address hcreate]
    exact get?_address_of_mem hnodup hop

/-- At the address of a node stands the operation of this node and of no other. -/
theorem get?_eq_some_iff (hg : g.Shows distinct code) (hp : ofGraph r g = .ok p) {l : Nat}
    {n : Node} (hn : g.node? l = some n) {op : Op} :
    p.get? n.address = some op ↔ n.isPayload = false ∧ r.create g n = .ok op := by
  rw [get?_eq_some_iff_exists hg hp]
  constructor
  · rintro ⟨k, m, hm, ha, hpay, hcreate⟩
    cases hg.address_injective hm hn ha
    exact ⟨hpay, hcreate⟩
  · rintro ⟨hpay, hcreate⟩
    exact ⟨l, n, hn, rfl, hpay, hcreate⟩

theorem exists_ofGraph_iff :
    (∃ p, ofGraph r g = .ok p) ↔
      ∀ l n, g.node? l = some n → n.isPayload = false → ∃ op, r.create g n = .ok op := by
  have hops : (∃ p, ofGraph r g = .ok p) ↔
      ∃ ops, (g.nodes.toList.filter fun n => !n.isPayload).mapM (r.create g) = .ok ops := by
    constructor
    · rintro ⟨p, hp⟩
      obtain ⟨ops, hops, -⟩ := bind_eq_ok_iff.mp hp
      exact ⟨ops, hops⟩
    · rintro ⟨ops, hops⟩
      exact ⟨ofList ops, bind_eq_ok_iff.mpr ⟨ops, hops, rfl⟩⟩
  rw [hops, exists_mapM_eq_ok_iff]
  constructor
  · intro h l n hn hpay
    exact h n (mem_executed_iff.mpr ⟨hpay, l, hn⟩)
  · intro h n hn
    obtain ⟨hpay, l, hl⟩ := mem_executed_iff.mp hn
    exact h l n hl hpay

/-- The error is that of the node with the lowest location, wherever it stands in the code. -/
theorem ofGraph_eq_error_iff {e : Error} :
    ofGraph r g = .error e ↔
      First (fun l d => ∃ n, g.node? l = some n ∧ n.isPayload = false ∧ r.create g n = .error d)
        e := by
  rw [ofGraph, bind_eq_error_iff]
  simp only [pure_ne_error, and_false, exists_false, or_false, mapM_filter_eq_error_iff,
    Array.getElem?_toList, Bool.not_eq_eq_eq_not, Bool.not_true]
  rfl

theorem exists_op (hg : g.Shows distinct code) (hp : ofGraph r g = .ok p) {l : Nat} {n : Node}
    (hn : g.node? l = some n) (hcode : n.isPayload = false) : ∃ op, p.get? n.address = some op := by
  obtain ⟨ops, hops, -⟩ := bind_eq_ok_iff.mp hp
  obtain ⟨op, -, hcreate⟩ :=
    exists_mem_of_forall₂ (mapM_eq_ok_iff.mp hops) (mem_executed_iff.mpr ⟨hcode, l, hn⟩)
  exact ⟨op, (get?_eq_some_iff hg hp hn).mpr ⟨hcode, hcreate⟩⟩

end Program

end DalvikFlow
