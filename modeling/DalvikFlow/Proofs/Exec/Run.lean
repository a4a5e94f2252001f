import DalvikFlow.Proofs.Exec.Branch
import DalvikFlow.Proofs.Exec.Footprint
import DalvikFlow.Proofs.Exec.Information

/-! Runs from the root: they stay among the reachable nodes, and only what the registers hold can stop
them. -/
namespace DalvikFlow

/-- Errors that depend on the registers at the time of execution. -/
inductive Error.OfRegisters : Error → Prop
  | unassigned {r} : OfRegisters (.unassignedRegister r)
  | outOfBounds {r count} : OfRegisters (.registerOutOfBounds r count)
  | violation {op v} : OfRegisters (.invariantViolation op v)

theorem Op.effect_error {op : Op} {f : RegisterFile} {e : Error} (h : op.effect f = .error e) :
    e.OfRegisters := by
  rcases error_of_effect h with ⟨r, -, h⟩ | ⟨v, rfl⟩ | ⟨r, rfl⟩
  · rcases RegisterFile.read_eq_error_iff.mp h with ⟨-, rfl⟩ | ⟨-, -, rfl⟩
    · exact .outOfBounds
    · exact .unassigned
  · exact .violation
  · exact .outOfBounds

namespace Program

section Builtin

variable {g : FlowGraph} {p : Program Op} {distinct : Bool} {code : List Instruction} {r : Registry}
  (hg : g.Shows distinct code) (hp : ofGraph r g = .ok p)

include hg hp

/-- A node that is executed can fail only for what the registers hold. -/
theorem step_error {l : Nat} (hl : g.Executable l) {f : RegisterFile} {e : Error}
    (h : p.step g l f = .error e) : e.OfRegisters := by
  obtain ⟨n, hn, hcode⟩ := hl
  obtain ⟨op, hop⟩ := exists_op hg hp hn hcode
  rcases step_eq_error_iff.mp h with ⟨hnone, -⟩ | ⟨m, hm, ⟨hnone, -⟩ | ⟨op', -, heffect⟩⟩
  · rw [hn] at hnone
    cases hnone
  · cases hn.symm.trans hm
    rw [hop] at hnone
    cases hnone
  · exact Op.effect_error heffect

theorem Path.step_error {l : Nat} (hl : g.Executable l) {f : RegisterFile}
    {path : List (Nat × RegisterFile)} (h : Path p g l f path) {s : Nat × RegisterFile}
    (hs : s ∈ (l, f) :: path) {e : Error} (hstep : p.step g s.1 s.2 = .error e) : e.OfRegisters :=
  Program.step_error hg hp (h.executable hg hl s hs) hstep

end Builtin

/-- Whatever the operations are, a step goes to distinct children in edge order and a run from the root
stays among the reachable nodes. With the operations of the graph itself, and an entry that is
executed, no run fails for any other reason than what its registers hold. -/
theorem runs_contained_and_safe {options : GraphOptions} {code : List Instruction} {g : FlowGraph}
    (hg : (FlowGraph.ofCode options code).result = .ok g) :
    (∀ (α : Type) [Operation α] (p : Program α) l f next, p.step g l f = .ok next →
      (next.map Prod.fst).Nodup ∧ (next.map Prod.fst).Sublist (g.children l).eraseDups ∧
        ∃ n op addresses after, g.node? l = some n ∧ p.get? n.address = some op ∧
          Operation.run op f = (.ok addresses, after) ∧ ∀ s ∈ next, s.2 = after) ∧
    (∀ (α : Type) [Operation α] (p : Program α) f path, Path p g g.root f path →
      ∀ s ∈ (g.root, f) :: path, s.1 ∈ g.reachable) ∧
    ∀ p n, ofGraph Registry.builtin g = .ok p → g.node? g.root = some n → n.isPayload = false →
      ∀ f path, Path p g g.root f path → ∀ s ∈ (g.root, f) :: path, ∀ e,
        p.step g s.1 s.2 = .error e → e.OfRegisters := by
  have hshows := FlowGraph.shows_of_result hg
  refine ⟨?_, ?_, ?_⟩
  · intro α _ p l f next hstep
    exact step_contained hstep
  · intro α _ p f path hpath
    exact hpath.mem_reachable hshows
  · intro p n hp hn hcode f path hpath s hs e hstep
    exact hpath.step_error hshows hp ⟨n, hn, hcode⟩ hs hstep

/-- Any operation, without what a step does not ask for. In this form operations of all kinds fit into
one program. -/
structure AnyOperation where
  address : Nat
  execute : Exec (List Nat)

instance : Operation AnyOperation := ⟨AnyOperation.address, AnyOperation.execute⟩

/-- No family makes it: it assigns two registers, and names an address twice and one that no node has. -/
def assignsTwice : AnyOperation where
  address := 0
  execute := do
    Exec.assign 0 (.ofInt 1)
    Exec.assign 1 (.ofLong 2)
    return [7, 0, 0]

/-- A branch to itself runs on as long as its register is assigned, and so does another operation in
its place. -/
theorem runs_of_lastBranch :
    ∃ g p, (FlowGraph.ofCode {} lastBranch).result = .ok g ∧
      ofGraph Registry.builtin g = .ok p ∧
      Path p g 0 (.mk 1 [(0, .ofInt 0)]) [(0, .mk 1 [(0, .ofInt 0)]), (0, .mk 1 [(0, .ofInt 0)])] ∧
      0 ∈ g.reachable ∧ p.step g 0 (.empty 1) = .error (.unassignedRegister 0) ∧
      (Error.unassignedRegister 0).OfRegisters ∧
      (ofList [assignsTwice]).step g 0 (.empty 2) =
        .ok [(0, .mk 2 [(0, .ofInt 1), (1, .ofLong 2)])] ∧
      [0].Sublist (g.children 0).eraseDups := by
  obtain ⟨g, hg⟩ : ∃ g, (FlowGraph.ofCode {} lastBranch).result = .ok g := ⟨_, rfl⟩
  obtain ⟨p, hp⟩ : ∃ p, ofGraph Registry.builtin g = .ok p := by
    cases hg
    exact ⟨_, rfl⟩
  obtain ⟨n, hn, hcode⟩ : ∃ n, g.node? g.root = some n ∧ n.isPayload = false := by
    cases hg
    exact ⟨_, rfl, rfl⟩
  have hstep : p.step g 0 (.mk 1 [(0, .ofInt 0)]) = .ok [(0, .mk 1 [(0, .ofInt 0)])] := by
    cases hg
    cases hp
    rfl
  have hfail : p.step g 0 (.empty 1) = .error (.unassignedRegister 0) := by
    cases hg
    cases hp
    rfl
  have hother : (ofList [assignsTwice]).step g 0 (.empty 2) =
      .ok [(0, .mk 2 [(0, .ofInt 1), (1, .ofLong 2)])] := by
    cases hg
    rfl
  have hpath : Path p g 0 (.mk 1 [(0, .ofInt 0)])
      [(0, .mk 1 [(0, .ofInt 0)]), (0, .mk 1 [(0, .ofInt 0)])] :=
    .cons hstep List.mem_cons_self (.cons hstep List.mem_cons_self .nil)
  obtain ⟨hsteps, hcontained, hsafe⟩ := runs_contained_and_safe hg
  obtain ⟨-, hchildren, -⟩ := hsteps _ _ _ _ _ hother
  exact ⟨g, p, hg, hp, hpath,
    hcontained _ p _ _ hpath _ (List.mem_cons_of_mem _ List.mem_cons_self), hfail,
    hsafe p n hp hn hcode (.empty 1) [] .nil _ List.mem_cons_self _ hfail, hother, hchildren⟩

end Program

end DalvikFlow
