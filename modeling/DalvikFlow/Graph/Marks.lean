/-! Marks on the nodes of a graph, each set at most once. The number of free nodes bounds every
search. -/
namespace DalvikFlow

/-- One mark per node. -/
structure Marks where
  seen : Array Bool

namespace Marks

/-- No node of `n` is marked. -/
def clear (n : Nat) : Marks := ⟨Array.replicate n false⟩

/-- A node of the graph without a mark. What is no node is never free. -/
def isFree (m : Marks) (v : Nat) : Bool := m.seen[v]? == some false

def mark (m : Marks) (v : Nat) : Marks := ⟨m.seen.setIfInBounds v true⟩

/-- How many nodes are free. -/
def free (m : Marks) : Nat := m.seen.count false

@[simp] theorem isFree_clear (n v : Nat) : (clear n).isFree v = decide (v < n) := by
  by_cases h : v < n <;> simp [clear, isFree, h]

theorem isFree_mark (m : Marks) (v w : Nat) :
    (m.mark v).isFree w = (m.isFree w && decide (v ≠ w)) := by
  by_cases h : v = w
  · subst h
    by_cases hv : v < m.seen.size <;> simp [mark, isFree, hv]
  · simp [mark, isFree, h]

theorem free_mark {m : Marks} {v : Nat} (h : m.isFree v = true) :
    (m.mark v).free + 1 = m.free := by
  obtain ⟨hv, hb⟩ : ∃ hv : v < m.seen.size, m.seen[v] = false := by
    simpa [isFree, Array.getElem?_eq_some_iff] using h
  have hpos : 0 < m.seen.count false := by
    rw [Array.count_pos_iff, ← hb]
    exact Array.getElem_mem hv
  simp only [free, mark, Array.setIfInBounds, hv, dif_pos, Array.count_set, hb]
  simp
  omega

end Marks

end DalvikFlow
