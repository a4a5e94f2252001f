import DalvikFlow.Proofs.Exec.Run

/-! Which registers are assigned, through all that can happen to a register file. -/
namespace DalvikFlow

namespace RegisterFile

theorem isSome_lookup_iff {r : UInt16} {cells : List (UInt16 × Item)} :
    (cells.lookup r).isSome = true ↔ r ∈ cells.map Prod.fst := by
  induction cells with
  | nil => simp
  | cons c cells ih =>
      obtain ⟨t, j⟩ := c
      rw [lookup_cons_ite, List.map_cons, List.mem_cons, ← ih]
      split_ifs with h
      · simp [h]
      · simp [h]

variable {f g : RegisterFile} {r s : UInt16}

theorem mem_assigned_iff : r ∈ f.assigned ↔ f.isAssigned r = true := isSome_lookup_iff.symm

theorem pairwise_assigned (f : RegisterFile) : f.assigned.Pairwise (· < ·) :=
  List.pairwise_map.mpr f.ascending

theorem lt_count_of_mem_assigned (h : r ∈ f.assigned) : r < f.count := by
  obtain ⟨c, hc, rfl⟩ := List.mem_map.mp h
  exact f.below c hc

/-- What is assigned exists, so it can be read. -/
theorem isAssigned_iff : f.isAssigned r = true ↔ ∃ i, f.read r = .ok i := by
  constructor
  · intro h
    obtain ⟨i, hi⟩ := Option.isSome_iff_exists.mp h
    exact ⟨i, read_eq_ok_iff.mpr ⟨lt_count_of_mem_assigned (mem_assigned_iff.mpr h), hi⟩⟩
  · rintro ⟨i, hi⟩
    exact Option.isSome_iff_exists.mpr ⟨i, (read_eq_ok_iff.mp hi).2⟩

theorem isAssigned_of_assign {i : Item} (h : f.assign r i = .ok g)
    (hs : f.isAssigned s = true) : g.isAssigned s = true := by
  rw [isAssigned, find?_of_assign h]
  split_ifs with heq
  · rfl
  · exact hs

theorem read_ne_unassigned (h : f.isAssigned r = true) (s : UInt16) :
    f.read s ≠ .error (.unassignedRegister r) := by
  intro hread
  rcases read_eq_error_iff.mp hread with ⟨-, h'⟩ | ⟨-, hnone, h'⟩
  · cases h'
  · cases h'
    rw [isAssigned, hnone] at h
    cases h

/-- What can happen to a register file: an assignment, also one that fails, a copy, and a step, which
leaves registers to each of the nodes that it goes to. -/
inductive Change : RegisterFile → RegisterFile → Prop
  | assign (before : RegisterFile) (r : UInt16) (i : Item) :
      Change before (Exec.run (Exec.assign r i) before).2
  | copy (before : RegisterFile) : Change before before
  | step {p : Program Op} {graph : FlowGraph} {l : Nat} {before : RegisterFile}
      {next : List (Nat × RegisterFile)} {s : Nat × RegisterFile} :
      p.step graph l before = .ok next → s ∈ next → Change before s.2

/-- Whatever happens, it is one assignment or none. -/
theorem Change.eq_or_assign (h : Change f g) : g = f ∨ ∃ r i, f.assign r i = .ok g := by
  cases h with
  | assign _ r i =>
      rw [Exec.run_assign]
      cases hassign : f.assign r i with
      | error e => exact .inl rfl
      | ok after => exact .inr ⟨r, i, hassign⟩
  | copy => exact .inl rfl
  | step hstep hs =>
      obtain ⟨n, op, addresses, after, -, -, heffect, rfl⟩ := Program.step_eq_ok_iff.mp hstep
      obtain ⟨c, -, rfl⟩ := List.mem_map.mp hs
      obtain ⟨write?, -, hafter⟩ := Op.effect_eq_ok_iff.mp heffect
      rcases assign?_eq_ok hafter with ⟨-, h⟩ | ⟨r, i, -, h⟩
      · exact .inl h
      · exact .inr ⟨r, i, h⟩

/-- What a register file becomes in the course of time. -/
def History : RegisterFile → RegisterFile → Prop := Relation.ReflTransGen Change

/-- What each assignment preserves is preserved. -/
theorem History.preserves {P : RegisterFile → Prop}
    (hassign : ∀ f r i g, P f → f.assign r i = .ok g → P g) (h : History f g) (hf : P f) : P g := by
  induction h with
  | refl => exact hf
  | tail _ hchange ih =>
      rcases hchange.eq_or_assign with rfl | ⟨r, i, hi⟩
      · exact ih
      · exact hassign _ r i _ ih hi

theorem History.count_eq (h : History f g) : g.count = f.count :=
  h.preserves (P := fun k => k.count = f.count) (fun _ _ _ _ hk hi => (count_of_assign hi).trans hk) rfl

theorem History.isAssigned (h : History f g) (hr : f.isAssigned r = true) :
    g.isAssigned r = true :=
  h.preserves (P := fun k => k.isAssigned r = true)
    (fun _ _ _ _ hk hi => isAssigned_of_assign hi hk) hr

end RegisterFile

namespace Program

variable {p : Program Op} {g : FlowGraph} {l : Nat} {f : RegisterFile} {r : UInt16}

theorem step_ne_unassigned (h : f.isAssigned r = true) :
    p.step g l f ≠ .error (.unassignedRegister r) := by
  intro hstep
  rcases step_eq_error_iff.mp hstep with ⟨-, h'⟩ | ⟨n, -, ⟨-, h'⟩ | ⟨op, -, heffect⟩⟩
  · cases h'
  · cases h'
  · rcases Op.error_of_effect heffect with ⟨s, -, hread⟩ | ⟨v, h'⟩ | ⟨s, h'⟩
    · exact RegisterFile.read_ne_unassigned h s hread
    · cases h'
    · cases h'

/-- The registers at a point of a run come from those at each earlier one. -/
theorem Path.history {path : List (Nat × RegisterFile)} (h : Path p g l f path) :
    ((l, f) :: path).Pairwise fun s t => s.2.History t.2 := by
  induction h with
  | nil => exact List.pairwise_singleton _ _
  | cons hstep hmem _ ih =>
      refine List.pairwise_cons.mpr ⟨?_, ih⟩
      have hchange := RegisterFile.Change.step hstep hmem
      intro t ht
      rcases List.mem_cons.mp ht with rfl | ht
      · exact .single hchange
      · exact .head hchange ((List.pairwise_cons.mp ih).1 t ht)

end Program

namespace RegisterFile

/-- Registers that start with none assigned keep their number, and those assigned are listed in order,
exist, and can be read. They stay assigned whatever happens later, in particular along a run. -/
theorem registers_of_history {count : UInt16} {f : RegisterFile}
    (h : (RegisterFile.empty count).History f) :
    f.count = count ∧ (∀ r ∈ f.assigned, r < count) ∧ f.assigned.Pairwise (· < ·) ∧
      (∀ r, (r ∈ f.assigned ↔ f.isAssigned r = true) ∧
        (r ∈ f.assigned ↔ ∃ i, f.read r = .ok i)) ∧
      (∀ f', f.History f' → ∀ r ∈ f.assigned, r ∈ f'.assigned ∧
        f'.read r ≠ .error (.unassignedRegister r) ∧
        ∀ (p : Program Op) g l, p.step g l f' ≠ .error (.unassignedRegister r)) ∧
      ∀ (p : Program Op) g l path, p.Path g l f path →
        ((l, f) :: path).Pairwise fun s t => ∀ r ∈ s.2.assigned, r ∈ t.2.assigned ∧
          t.2.read r ≠ .error (.unassignedRegister r) ∧
          p.step g t.1 t.2 ≠ .error (.unassignedRegister r) := by
  have hcount : f.count = count := h.count_eq
  have hlater : ∀ k k' : RegisterFile, k.History k' → ∀ r ∈ k.assigned, r ∈ k'.assigned ∧
      k'.read r ≠ .error (.unassignedRegister r) ∧
      ∀ (p : Program Op) g l, p.step g l k' ≠ .error (.unassignedRegister r) := by
    intro k k' hk r hr
    have hassigned := hk.isAssigned (mem_assigned_iff.mp hr)
    refine ⟨mem_assigned_iff.mpr hassigned, read_ne_unassigned hassigned r, ?_⟩
    intro p g l
    exact Program.step_ne_unassigned hassigned
  refine ⟨hcount, ?_, f.pairwise_assigned, ?_, hlater f, ?_⟩
  · intro r hr
    exact hcount ▸ lt_count_of_mem_assigned hr
  · intro r
    exact ⟨mem_assigned_iff, mem_assigned_iff.trans isAssigned_iff⟩
  · intro p g l path hpath
    refine hpath.history.imp ?_
    intro s t hst r hr
    obtain ⟨hmem, hread, hstep⟩ := hlater s.2 t.2 hst r hr
    exact ⟨hmem, hread, hstep p g t.1⟩

/-- An assignment that fails, one that succeeds, and a step that branches to itself. -/
theorem registers_of_lastBranch :
    ∃ f, (RegisterFile.empty 1).History f ∧ f = .mk 1 [(0, .ofInt 0)] ∧ f.count = 1 ∧
      f.assigned.Pairwise (· < ·) ∧ ∀ r ∈ f.assigned, r < 1 := by
  obtain ⟨g, hg⟩ : ∃ g, (FlowGraph.ofCode {} Program.lastBranch).result = .ok g := ⟨_, rfl⟩
  obtain ⟨p, hp⟩ : ∃ p, Program.ofGraph Registry.builtin g = .ok p := by
    cases hg
    exact ⟨_, rfl⟩
  have hstep : p.step g 0 (.mk 1 [(0, .ofInt 0)]) = .ok [(0, .mk 1 [(0, .ofInt 0)])] := by
    cases hg
    cases hp
    rfl
  have hfails : Change (.empty 1) (.empty 1) := .assign (.empty 1) 1 (.ofInt 0)
  have hassigns : Change (.empty 1) (.mk 1 [(0, .ofInt 0)]) := .assign (.empty 1) 0 (.ofInt 0)
  have hhistory : (RegisterFile.empty 1).History (.mk 1 [(0, .ofInt 0)]) :=
    .head hfails (.head hassigns (.single (.step hstep List.mem_cons_self)))
  obtain ⟨hcount, hbelow, hascending, -⟩ := registers_of_history hhistory
  exact ⟨_, hhistory, rfl, hcount, hascending, hbelow⟩

end RegisterFile

end DalvikFlow
