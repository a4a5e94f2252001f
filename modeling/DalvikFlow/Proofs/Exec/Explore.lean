import DalvikFlow.Exec.Explore
import DalvikFlow.Proofs.Exec.Run

/-! Explorations and runs. All that an exploration executes lies on runs, and one that has nothing left
to execute has executed all that lies on them. -/
namespace DalvikFlow.Program

variable {α : Type} [Operation α] {p : Program α} {g : FlowGraph} {l limit : Nat}
  {f : RegisterFile} {next pending : List (Nat × RegisterFile)} {t : Nat × RegisterFile}

/-- A run from one of several starts comes to a node, with these registers on entry. -/
def Meets (p : Program α) (g : FlowGraph) (starts : List (Nat × RegisterFile))
    (t : Nat × RegisterFile) : Prop :=
  ∃ s ∈ starts, ∃ path, Path p g s.1 s.2 path ∧ t ∈ s :: path

theorem meets_singleton_iff :
    Meets p g [(l, f)] t ↔ ∃ path, Path p g l f path ∧ t ∈ (l, f) :: path := by
  constructor
  · rintro ⟨s, hs, path, hpath, ht⟩
    cases List.mem_singleton.mp hs
    exact ⟨path, hpath, ht⟩
  · rintro ⟨path, hpath, ht⟩
    exact ⟨(l, f), List.mem_singleton_self _, path, hpath, ht⟩

theorem not_meets_nil : ¬ Meets p g [] t := by
  rintro ⟨s, hs, -⟩
  cases hs

/-- Runs from a node go on from the nodes after it, so these can take its place. -/
theorem meets_cons_iff (hstep : p.step g l f = .ok next) :
    Meets p g ((l, f) :: pending) t ↔ t = (l, f) ∨ Meets p g (pending ++ next) t := by
  constructor
  · rintro ⟨s, hs, path, hpath, ht⟩
    rcases List.mem_cons.mp hs with rfl | hs
    · rcases List.mem_cons.mp ht with rfl | ht
      · exact .inl rfl
      · cases hpath with
        | nil => cases ht
        | cons hstep' hmem hrest =>
            cases hstep'.symm.trans hstep
            exact .inr ⟨_, List.mem_append_right _ hmem, _, hrest, ht⟩
    · exact .inr ⟨s, List.mem_append_left _ hs, path, hpath, ht⟩
  · rintro (rfl | ⟨s, hs, path, hpath, ht⟩)
    · exact ⟨_, List.mem_cons_self, [], .nil, List.mem_cons_self⟩
    · rcases List.mem_append.mp hs with hs | hs
      · exact ⟨s, List.mem_cons_of_mem _ hs, path, hpath, ht⟩
      · exact ⟨_, List.mem_cons_self, s :: path, .cons hstep hs hpath, List.mem_cons_of_mem _ ht⟩

/-- What an exploration of pending nodes tells about the runs from them. -/
structure Explores (p : Program α) (g : FlowGraph) (limit : Nat)
    (pending : List (Nat × RegisterFile)) (trace : List Executed) (halt : Halt) : Prop where
  met : ∀ e ∈ trace, Meets p g pending (e.node, e.entry)
  next_eq : ∀ e ∈ trace, ∃ next, p.step g e.node e.entry = .ok next ∧ e.next = next.map Prod.fst
  complete : halt = .done → ∀ t, Meets p g pending t → ∃ e ∈ trace, (e.node, e.entry) = t
  failed : ∀ l e, halt = .failed l e → ∃ f, Meets p g pending (l, f) ∧ p.step g l f = .error e
  length_le : trace.length ≤ limit
  length_eq : halt = .limit → trace.length = limit

namespace Explores

theorem done : Explores p g limit [] [] .done where
  met := List.forall_mem_nil _
  next_eq := List.forall_mem_nil _
  complete _ _ ht := absurd ht not_meets_nil
  failed _ _ h := nomatch h
  length_le := Nat.zero_le limit
  length_eq h := nomatch h

theorem stopped : Explores p g 0 pending [] .limit where
  met := List.forall_mem_nil _
  next_eq := List.forall_mem_nil _
  complete h := nomatch h
  failed _ _ h := nomatch h
  length_le := Nat.le_refl 0
  length_eq _ := rfl

theorem fail {e : Error} (hstep : p.step g l f = .error e) :
    Explores p g limit ((l, f) :: pending) [] (.failed l e) where
  met := List.forall_mem_nil _
  next_eq := List.forall_mem_nil _
  complete h := nomatch h
  failed _ _ heq := by
    cases heq
    exact ⟨f, ⟨(l, f), List.mem_cons_self, [], .nil, List.mem_cons_self⟩, hstep⟩
  length_le := Nat.zero_le limit
  length_eq h := nomatch h

theorem cons {trace : List Executed} {halt : Halt} (hstep : p.step g l f = .ok next)
    (h : Explores p g limit (pending ++ next) trace halt) :
    Explores p g (limit + 1) ((l, f) :: pending) (⟨l, f, next.map Prod.fst⟩ :: trace) halt where
  met := by
    simp only [meets_cons_iff hstep]
    exact List.forall_mem_cons.mpr ⟨.inl rfl, fun e he => .inr (h.met e he)⟩
  next_eq := List.forall_mem_cons.mpr ⟨⟨next, hstep, rfl⟩, h.next_eq⟩
  complete := by
    intro hdone t ht
    rcases (meets_cons_iff hstep).mp ht with rfl | ht
    · exact ⟨_, List.mem_cons_self, rfl⟩
    · obtain ⟨e, he, heq⟩ := h.complete hdone t ht
      exact ⟨e, List.mem_cons_of_mem _ he, heq⟩
  failed := by
    intro l' e heq
    obtain ⟨f', hmeets, herror⟩ := h.failed l' e heq
    exact ⟨f', (meets_cons_iff hstep).mpr (.inr hmeets), herror⟩
  length_le := Nat.succ_le_succ h.length_le
  length_eq hlimit := congrArg (· + 1) (h.length_eq hlimit)

end Explores

theorem explores_exploreFrom (p : Program α) (g : FlowGraph) (limit : Nat)
    (pending : List (Nat × RegisterFile)) :
    Explores p g limit pending (p.exploreFrom g limit pending).1
      (p.exploreFrom g limit pending).2 := by
  induction limit generalizing pending with
  | zero =>
      cases pending with
      | nil => exact .done
      | cons s pending => exact .stopped
  | succ limit ih =>
      cases pending with
      | nil => exact .done
      | cons s pending =>
          unfold exploreFrom
          cases hstep : p.step g s.1 s.2 with
          | error e => exact .fail hstep
          | ok next => exact .cons hstep (ih (pending ++ next))

theorem explores_explore (p : Program α) (g : FlowGraph) (limit : Nat) (f : RegisterFile) :
    Explores p g limit [(g.root, f)] (p.explore g limit f).1 (p.explore g limit f).2 :=
  explores_exploreFrom p g limit [(g.root, f)]

/-- What is executed can be reached, and with the operations of the graph itself an exploration of a root
that is executed fails only for what the registers hold. -/
theorem explore_contained_and_safe {options : GraphOptions} {code : List Instruction}
    {g : FlowGraph} (hg : (FlowGraph.ofCode options code).result = .ok g) :
    (∀ (α : Type) [Operation α] (p : Program α) limit f, ∀ e ∈ (p.explore g limit f).1,
      e.node ∈ g.reachable ∧ e.next.Sublist (g.children e.node).eraseDups) ∧
    ∀ p limit f, ofGraph Registry.builtin g = .ok p → g.Executable g.root →
      ∀ l e, (p.explore g limit f).2 = .failed l e → e.OfRegisters := by
  have hshows := FlowGraph.shows_of_result hg
  refine ⟨?_, ?_⟩
  · intro α _ p limit f e he
    have h := explores_explore p g limit f
    obtain ⟨path, hpath, hmem⟩ := meets_singleton_iff.mp (h.met e he)
    obtain ⟨next, hstep, hnext⟩ := h.next_eq e he
    obtain ⟨-, hsub, -⟩ := step_contained hstep
    exact ⟨hpath.mem_reachable hshows _ hmem, hnext ▸ hsub⟩
  · intro p limit f hp hroot l e hfailed
    obtain ⟨f', hmeets, hstep⟩ := (explores_explore p g limit f).failed l e hfailed
    obtain ⟨path, hpath, hmem⟩ := meets_singleton_iff.mp hmeets
    exact hpath.step_error hshows hp hroot hmem hstep

end DalvikFlow.Program
