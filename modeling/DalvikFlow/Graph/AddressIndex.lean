import Std.Data.TreeMap

/-! A look-up by start address. Main statement: with distinct addresses, looking one up inverts
reading the list. -/
namespace DalvikFlow

/-- Addresses and what starts there. -/
structure AddressIndex where
  table : Std.TreeMap Nat Nat

namespace AddressIndex

/-- Each address leads to its place in the list, counted from `next`. -/
def insertAll (table : Std.TreeMap Nat Nat) (next : Nat) : List Nat → Std.TreeMap Nat Nat
  | [] => table
  | a :: rest => insertAll (table.insert a next) (next + 1) rest

def ofList (addresses : List Nat) : AddressIndex := ⟨insertAll ∅ 0 addresses⟩

def find? (x : AddressIndex) (address : Nat) : Option Nat := x.table[address]?

theorem getElem?_insertAll_of_notMem {addresses : List Nat} {a : Nat} (h : a ∉ addresses)
    (table : Std.TreeMap Nat Nat) (next : Nat) :
    (insertAll table next addresses)[a]? = table[a]? := by
  induction addresses generalizing table next with
  | nil => rfl
  | cons b rest ih =>
    have hne : b ≠ a := fun hb => h (hb ▸ List.mem_cons_self)
    rw [insertAll, ih (fun hr => h (List.mem_cons_of_mem b hr))]
    simp [Std.TreeMap.getElem?_insert, hne]

theorem getElem?_insertAll {addresses : List Nat} (h : addresses.Nodup)
    (table : Std.TreeMap Nat Nat) (next k : Nat) (hk : k < addresses.length) :
    (insertAll table next addresses)[addresses[k]]? = some (next + k) := by
  induction addresses generalizing table next k with
  | nil => exact absurd hk (Nat.not_lt_zero k)
  | cons b rest ih =>
    obtain ⟨hb, hrest⟩ := List.nodup_cons.mp h
    cases k with
    | zero =>
      simp only [List.getElem_cons_zero, insertAll]
      rw [getElem?_insertAll_of_notMem hb]
      simp
    | succ k =>
      simp only [List.getElem_cons_succ, insertAll]
      rw [ih hrest]
      congr 1
      omega

theorem find?_ofList_eq_some_iff {addresses : List Nat} (h : addresses.Nodup) {a k : Nat} :
    (ofList addresses).find? a = some k ↔ addresses[k]? = some a := by
  constructor
  · intro hf
    by_cases ha : a ∈ addresses
    · obtain ⟨j, hj, rfl⟩ := List.getElem_of_mem ha
      have hjf := getElem?_insertAll h ∅ 0 j hj
      rw [show (ofList addresses).find? addresses[j] = _ from hjf] at hf
      obtain rfl : 0 + j = k := Option.some.inj hf
      simp [hj]
    · have hn := getElem?_insertAll_of_notMem ha ∅ 0
      rw [show (ofList addresses).find? a = _ from hn] at hf
      simp at hf
  · intro hk
    obtain ⟨hlt, rfl⟩ := List.getElem?_eq_some_iff.mp hk
    exact (getElem?_insertAll h ∅ 0 k hlt).trans (by rw [Nat.zero_add])

end AddressIndex

end DalvikFlow
