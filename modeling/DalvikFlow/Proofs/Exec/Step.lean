import DalvikFlow.Exec.Program
import DalvikFlow.Proofs.Graph.Children
import DalvikFlow.Proofs.Graph.Reachable

/-! Steps and runs, whatever the operations are. A step looks for nothing in an operation but what it
does, and only the edges of the graph decide where it can lead. -/
namespace DalvikFlow

namespace Program

variable {α : Type} [Operation α] {p : Program α} {g : FlowGraph} {l : Nat} {f : RegisterFile}

/-- A step finds the node and its operation, and goes to the children that the operation names. -/
theorem step_eq_ok_iff_run {next : List (Nat × RegisterFile)} :
    p.step g l f = .ok next ↔
      ∃ n op addresses after, g.node? l = some n ∧ p.get? n.address = some op ∧
        Operation.run op f = (.ok addresses, after) ∧
        next = (g.childrenAt l addresses).map fun child => (child, after) := by
  unfold step
  constructor
  · intro h
    cases hn : g.node? l with
    | none => simp [hn] at h
    | some n =>
        cases hop : p.get? n.address with
        | none => simp [hn, hop] at h
        | some op =>
            simp only [hn, hop] at h
            rcases hrun : Operation.run op f with ⟨_ | addresses, after⟩
            · simp [hrun] at h
            · simp only [hrun, Except.ok.injEq] at h
              exact ⟨n, op, addresses, after, rfl, hop, hrun, h.symm⟩
  · rintro ⟨n, op, addresses, after, hn, hop, hrun, rfl⟩
    simp only [hn, hop, hrun]

theorem step_eq_error_iff_run {e : Error} :
    p.step g l f = .error e ↔
      (g.node? l = none ∧ e = .malformed (.foreignNode l)) ∨
        ∃ n, g.node? l = some n ∧
          ((p.get? n.address = none ∧ e = .missingOp n.address) ∨
            ∃ op, p.get? n.address = some op ∧ (Operation.run op f).1 = .error e) := by
  unfold step
  cases hn : g.node? l with
  | none => simp [eq_comm]
  | some n =>
      cases hop : p.get? n.address with
      | none => simp [hop, eq_comm]
      | some op => rcases hrun : Operation.run op f with ⟨_ | _, _⟩ <;> simp [hop, hrun]

/-- What a step has in common for all operations: it goes to children of the node, each with the
registers that the operation leaves. -/
theorem step_contained {next : List (Nat × RegisterFile)} (h : p.step g l f = .ok next) :
    (next.map Prod.fst).Nodup ∧ (next.map Prod.fst).Sublist (g.children l).eraseDups ∧
      ∃ n op addresses after, g.node? l = some n ∧ p.get? n.address = some op ∧
        Operation.run op f = (.ok addresses, after) ∧ ∀ s ∈ next, s.2 = after := by
  obtain ⟨n, op, addresses, after, hn, hop, hrun, rfl⟩ := step_eq_ok_iff_run.mp h
  rw [List.map_map]
  simp only [Function.comp_def, List.map_id']
  refine ⟨nodup_eraseDups _, g.childrenAt_sublist_children l addresses, n, op, addresses, after,
    hn, hop, hrun, ?_⟩
  intro s hs
  obtain ⟨c, -, rfl⟩ := List.mem_map.mp hs
  rfl

theorem mem_children_of_step {next : List (Nat × RegisterFile)} (h : p.step g l f = .ok next)
    {s : Nat × RegisterFile} (hs : s ∈ next) : s.1 ∈ g.children l := by
  obtain ⟨-, hsub, -⟩ := step_contained h
  exact List.mem_eraseDups.mp (hsub.subset (List.mem_map_of_mem hs))

/-- The nodes after a node, and the registers on entry to each, along one path of steps. -/
inductive Path (p : Program α) (g : FlowGraph) :
    Nat → RegisterFile → List (Nat × RegisterFile) → Prop
  | nil {node f} : Path p g node f []
  | cons {node f next child after rest} : p.step g node f = .ok next → (child, after) ∈ next →
      Path p g child after rest → Path p g node f ((child, after) :: rest)

namespace Path

variable {path : List (Nat × RegisterFile)}

/-- What holds at the start and is passed on to children holds along a run. -/
theorem forall_of_children {P : Nat → Prop} (hchild : ∀ l c, P l → c ∈ g.children l → P c)
    (h : Path p g l f path) (hl : P l) : ∀ s ∈ (l, f) :: path, P s.1 := by
  induction h with
  | nil =>
      intro s hs
      cases List.mem_singleton.mp hs
      exact hl
  | cons hstep hmem _ ih =>
      intro s hs
      rcases List.mem_cons.mp hs with rfl | hs
      · exact hl
      · exact ih (hchild _ _ hl (mem_children_of_step hstep hmem)) s hs

variable {distinct : Bool} {code : List Instruction} (hg : g.Shows distinct code)

include hg

theorem executable (h : Path p g l f path) (hl : g.Executable l) :
    ∀ s ∈ (l, f) :: path, g.Executable s.1 :=
  h.forall_of_children (fun _ _ _ hc => hg.executable_of_mem_children hc) hl

theorem mem_reachable (h : Path p g g.root f path) : ∀ s ∈ (g.root, f) :: path, s.1 ∈ g.reachable := by
  refine h.forall_of_children ?_ (FlowGraph.root_mem_reachable hg.root_lt_size)
  intro l c hl hc
  exact FlowGraph.child_mem_reachable hl hc (hg.executable_of_mem_children hc).lt_size

end Path

end Program

end DalvikFlow
