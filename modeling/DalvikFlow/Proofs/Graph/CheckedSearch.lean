import DalvikFlow.Proofs.Graph.Reachable
import DalvikFlow.Proofs.Graph.Postorder
import DalvikFlow.Proofs.Graph.Predecessors

/-! The searches with every index checked: none as soon as one is out of range. As long as the
successors of a graph are its nodes, that does not happen. -/
namespace DalvikFlow

namespace Marks

def isFree? (m : Marks) (v : Nat) : Option Bool := m.seen[v]?.map (!·)

def mark? (m : Marks) (v : Nat) : Option Marks :=
  if v < m.seen.size then some (m.mark v) else none

variable {m : Marks} {v : Nat}

@[simp] theorem size_seen_clear (n : Nat) : (clear n).seen.size = n := by
  simp [clear]

@[simp] theorem size_seen_mark (m : Marks) (v : Nat) : (m.mark v).seen.size = m.seen.size := by
  simp [mark]

theorem isFree?_eq_some_iff {b : Bool} :
    m.isFree? v = some b ↔ v < m.seen.size ∧ b = m.isFree v := by
  rw [isFree?, isFree]
  by_cases hv : v < m.seen.size
  · simp [hv, eq_comm]
  · simp [hv]

theorem isFree?_eq_some (hv : v < m.seen.size) : m.isFree? v = some (m.isFree v) :=
  isFree?_eq_some_iff.mpr ⟨hv, rfl⟩

theorem mark?_eq_some (hv : v < m.seen.size) : m.mark? v = some (m.mark v) := if_pos hv

/-- The free ones among some nodes. -/
def free? (m : Marks) (vs : List Nat) : Option (List Nat) := filter? m.isFree? vs

theorem free?_eq_some {vs : List Nat} (hvs : ∀ v ∈ vs, v < m.seen.size) :
    m.free? vs = some (vs.filter m.isFree) :=
  filter?_eq_some fun v hv => isFree?_eq_some (hvs v hv)

end Marks

namespace Frontier

def push? (f : Frontier) (v : Nat) : Option Frontier := do
  if ← f.marks.isFree? v then return ⟨← f.marks.mark? v, v :: f.stack⟩ else return f

def pushAll? (f : Frontier) (vs : List Nat) : Option Frontier := vs.foldrM (fun v f => f.push? v) f

variable {f f' : Frontier} {v : Nat} {vs : List Nat}

@[simp] theorem size_seen_push (f : Frontier) (v : Nat) :
    (f.push v).marks.seen.size = f.marks.seen.size := by
  unfold push
  split
  next => exact Marks.size_seen_mark f.marks v
  next => rfl

@[simp] theorem size_seen_pushAll (f : Frontier) (vs : List Nat) :
    (f.pushAll vs).marks.seen.size = f.marks.seen.size := by
  induction vs with
  | nil => rfl
  | cons v vs ih => exact (size_seen_push (f.pushAll vs) v).trans ih

theorem push?_eq_some_iff :
    f.push? v = some f' ↔ v < f.marks.seen.size ∧ f' = f.push v := by
  by_cases hv : v < f.marks.seen.size
  · rw [push?, push, Marks.isFree?_eq_some hv, Marks.mark?_eq_some hv]
    cases f.marks.isFree v <;> simp [hv, eq_comm]
  · have hnone : f.marks.isFree? v = none := by
      rw [Marks.isFree?, Array.getElem?_eq_none (Nat.le_of_not_lt hv), Option.map_none]
    rw [push?, hnone]
    simp [hv]

theorem pushAll?_eq_some_iff :
    f.pushAll? vs = some f' ↔ (∀ v ∈ vs, v < f.marks.seen.size) ∧ f' = f.pushAll vs := by
  induction vs generalizing f' with
  | nil => simp [pushAll?, pushAll, eq_comm]
  | cons v vs ih =>
      have hfirst : f.pushAll? (v :: vs) = (f.pushAll? vs).bind fun f => f.push? v :=
        List.foldrM_cons
      have hpush : f.pushAll (v :: vs) = (f.pushAll vs).push v := rfl
      simp only [hfirst, hpush, Option.bind_eq_some_iff, ih, push?_eq_some_iff,
        List.forall_mem_cons]
      constructor
      · rintro ⟨f₁, ⟨hvs, rfl⟩, hv, hf⟩
        rw [size_seen_pushAll] at hv
        exact ⟨⟨hv, hvs⟩, hf⟩
      · rintro ⟨⟨hv, hvs⟩, hf⟩
        refine ⟨_, ⟨hvs, rfl⟩, ?_, hf⟩
        rwa [size_seen_pushAll]

end Frontier

namespace Adjacency

/-- Every successor is a node. -/
def InRange (g : Adjacency) : Prop := ∀ v, ∀ w ∈ g.succ v, w < g.size

def succ? (g : Adjacency) (v : Nat) : Option (List Nat) := g.successors[v]?

def drain? (g : Adjacency) : Frontier → Array Nat → Option (Array Nat)
  | ⟨_, []⟩, order => some order
  | ⟨marks, v :: rest⟩, order =>
    match _ : (g.succ? v).bind (Frontier.pushAll? ⟨marks, rest⟩) with
    | none => none
    | some f => g.drain? f (order.push v)
termination_by f => f.pending
decreasing_by
  obtain ⟨vs, -, hvs⟩ := Option.bind_eq_some_iff.mp ‹_ = some f›
  rw [(Frontier.pushAll?_eq_some_iff.mp hvs).2, Frontier.pending_pushAll]
  simp only [Frontier.pending, List.length_cons]
  omega

/-- A start that is no node is not marked. -/
def depthFirst? (g : Adjacency) (start : Nat) : Option (List Nat) :=
  if start < g.size then do
    let marks ← (Marks.clear g.size).mark? start
    return (← g.drain? ⟨marks, [start]⟩ #[]).toList
  else some []

def visit? (g : Adjacency) (marks : Marks) (pending : List Visit) (order : Array Nat) :
    Option (Array Nat) :=
  match pending with
  | [] => some order
  | .leave v :: rest => g.visit? marks rest (order.push v)
  | .enter v :: rest =>
    match _ : marks.isFree? v with
    | none => none
    | some false => g.visit? marks rest order
    | some true =>
      -- marking uses the index once more
      match (marks.mark? v).bind fun marked => (g.succ? v).bind marked.free? with
      | none => none
      | some next => g.visit? (marks.mark v) (next.map .enter ++ .leave v :: rest) order
termination_by (marks.free, pending.length)
decreasing_by
  · exact Prod.Lex.right _ (Nat.lt_succ_self _)
  · exact Prod.Lex.right _ (Nat.lt_succ_self _)
  · have hm := Marks.free_mark (Marks.isFree?_eq_some_iff.mp ‹_ = some true›).2.symm
    exact Prod.Lex.left _ _ (by omega)

def postorder? (g : Adjacency) (start : Nat) : Option (List Nat) :=
  if start < g.size then do
    return (← g.visit? (.clear g.size) [.enter start] #[]).toList
  else some []

variable {g : Adjacency}

theorem succ?_eq_some {v : Nat} (hv : v < g.size) : g.succ? v = some (g.succ v) := by
  have hrow : g.successors[v]? = some g.successors[v] := Array.getElem?_eq_getElem hv
  rw [succ?, succ, hrow, Option.getD_some]

/-- What is put on the stack are successors, and so nodes. -/
theorem drain?_eq_some (hg : g.InRange) {f : Frontier} {order : Array Nat}
    (hsize : f.marks.seen.size = g.size) (hstack : ∀ v ∈ f.stack, v < g.size) :
    g.drain? f order = some (g.drain f order) := by
  fun_induction g.drain f order with
  | case1 => rw [drain?]
  | case2 marks v rest order ih =>
      have hpush : (g.succ? v).bind (Frontier.pushAll? ⟨marks, rest⟩) =
          some (Frontier.pushAll ⟨marks, rest⟩ (g.succ v)) := by
        rw [succ?_eq_some (hstack v List.mem_cons_self), Option.bind_some,
          Frontier.pushAll?_eq_some_iff]
        exact ⟨fun w hw => hsize ▸ hg v w hw, rfl⟩
      rw [drain?]
      split
      next h => cases h.symm.trans hpush
      next f h =>
        cases h.symm.trans hpush
        apply ih
        · rw [Frontier.size_seen_pushAll]
          exact hsize
        · intro w hw
          rcases (Frontier.mem_pushAll _ _ w).mp hw with hw | ⟨hw, -⟩
          · exact hstack w (List.mem_cons_of_mem v hw)
          · exact hg v w hw

theorem depthFirst?_eq_some (hg : g.InRange) (start : Nat) :
    g.depthFirst? start = some (g.depthFirst start) := by
  have hfree : (Marks.clear g.size).isFree start = decide (start < g.size) :=
    Marks.isFree_clear g.size start
  rw [depthFirst?, depthFirst, Frontier.push, hfree]
  by_cases hstart : start < g.size
  · rw [if_pos hstart, if_pos (decide_eq_true hstart), Marks.mark?_eq_some (by simpa using hstart)]
    simp only [Option.bind_eq_bind, Option.bind_some]
    rw [drain?_eq_some hg (by simp) (by simpa using hstart)]
    rfl
  · rw [if_neg hstart, if_neg (by simpa using hstart), drain]

/-- Only nodes are entered. -/
theorem visit?_eq_some (hg : g.InRange) {marks : Marks} {pending : List Visit}
    {order : Array Nat} (hsize : marks.seen.size = g.size)
    (hpending : ∀ v, .enter v ∈ pending → v < g.size) :
    g.visit? marks pending order = some (g.visit marks pending order) := by
  fun_induction g.visit marks pending order with
  | case1 => rw [visit?]
  | case2 marks order v rest ih =>
      rw [visit?]
      exact ih hsize fun w hw => hpending w (List.mem_cons_of_mem _ hw)
  | case3 marks order v rest hv marked next ih =>
      have hlt := hpending v List.mem_cons_self
      have hnext : ((marks.mark? v).bind fun marked => (g.succ? v).bind marked.free?) =
          some next := by
        rw [Marks.mark?_eq_some (hsize ▸ hlt), Option.bind_some, succ?_eq_some hlt,
          Option.bind_some]
        apply Marks.free?_eq_some
        intro w hw
        rw [Marks.size_seen_mark, hsize]
        exact hg v w hw
      have hfree := Marks.isFree?_eq_some (m := marks) (hsize ▸ hlt)
      rw [hv] at hfree
      rw [visit?]
      split
      next h => cases h.symm.trans hfree
      next h => cases h.symm.trans hfree
      next =>
        rw [hnext]
        apply ih
        · rw [Marks.size_seen_mark]
          exact hsize
        · intro w hw
          rcases List.mem_append.mp hw with hw | hw
          · obtain ⟨u, hu, heq⟩ := List.mem_map.mp hw
            cases heq
            exact hg v w (List.mem_of_mem_filter hu)
          · rcases List.mem_cons.mp hw with heq | hw
            · cases heq
            · exact hpending w (List.mem_cons_of_mem _ hw)
  | case4 marks order v rest hv ih =>
      have hlt := hpending v List.mem_cons_self
      have hfree := Marks.isFree?_eq_some (m := marks) (hsize ▸ hlt)
      rw [Bool.eq_false_iff.mpr hv] at hfree
      rw [visit?]
      split
      next h => cases h.symm.trans hfree
      next => exact ih hsize fun w hw => hpending w (List.mem_cons_of_mem _ hw)
      next h => cases h.symm.trans hfree

theorem postorder?_eq_some (hg : g.InRange) (start : Nat) :
    g.postorder? start = some (g.postorder start) := by
  rw [postorder?, postorder]
  by_cases hstart : start < g.size
  · rw [if_pos hstart, visit?_eq_some hg (by simp) (by simpa using hstart)]
    rfl
  · have hmarked : ¬ (Marks.clear g.size).isFree start = true := by simpa using hstart
    rw [if_neg hstart, visit, dif_neg hmarked, visit]

end Adjacency

namespace FlowGraph

def noteSource? (sources : Array (Array Nat)) (source target : Nat) :
    Option (Array (Array Nat)) :=
  sources[target]?.map fun _ => noteSource sources source target

def noteSources? (sources : Array (Array Nat)) (n : Node) : Option (Array (Array Nat)) :=
  n.children.foldlM (fun sources target => noteSource? sources n.id target) sources

def collectSources? (nodes : Array Node) : Option (Array (Array Nat)) :=
  nodes.toList.foldlM noteSources? (Array.replicate nodes.size #[])

variable {g : FlowGraph}

/-- Every edge leads to a node. -/
def InRange (g : FlowGraph) : Prop :=
  ∀ l n, g.node? l = some n → ∀ e ∈ n.edges, e.target < g.size

def predecessors? (g : FlowGraph) (id : Nat) : Option (List Nat) :=
  (collectSources? g.nodes).map fun sources => ((sources[id]?).map Array.toList).getD []

def reachable? (g : FlowGraph) : Option (List Nat) := g.adjacency.depthFirst? g.root

def reversePostorder? (g : FlowGraph) : Option (List Nat) :=
  (g.adjacency.postorder? g.root).map List.reverse

def nextAddresses? (g : FlowGraph) (id : Nat) : Option (List Nat) :=
  ((g.children id).mapM g.address?).map List.eraseDups

def childrenAt? (g : FlowGraph) (id : Nat) (addresses : List Nat) : Option (List Nat) :=
  (filter? (fun c => (g.address? c).map addresses.contains) (g.children id)).map List.eraseDups

theorem foldlM_noteSource? {sources : Array (Array Nat)} (source : Nat) {targets : List Nat}
    (htargets : ∀ t ∈ targets, t < sources.size) :
    targets.foldlM (fun sources target => noteSource? sources source target) sources =
      some (targets.foldl (fun sources target => noteSource sources source target) sources) := by
  induction targets generalizing sources with
  | nil => rfl
  | cons target rest ih =>
      have hrow : noteSource? sources source target = some (noteSource sources source target) := by
        rw [noteSource?, Array.getElem?_eq_getElem (htargets target List.mem_cons_self),
          Option.map_some]
      rw [List.foldlM_cons, hrow, Option.bind_eq_bind, Option.bind_some, List.foldl_cons]
      apply ih
      intro t ht
      rw [size_noteSource]
      exact htargets t (List.mem_cons_of_mem target ht)

namespace InRange

variable (h : g.InRange)

include h

theorem lt_size_of_mem_children {l c : Nat} (hc : c ∈ g.children l) : c < g.size := by
  cases hn : g.node? l with
  | none =>
      rw [children, hn] at hc
      cases hc
  | some n =>
      obtain ⟨e, he, rfl⟩ := (mem_children_iff hn).mp hc
      exact h l n hn e he

theorem adjacency : g.adjacency.InRange := by
  intro v w hw
  rw [succ_adjacency] at hw
  rw [size_adjacency]
  exact h.lt_size_of_mem_children hw

theorem reachable?_eq_some : g.reachable? = some g.reachable :=
  Adjacency.depthFirst?_eq_some h.adjacency g.root

theorem reversePostorder?_eq_some : g.reversePostorder? = some g.reversePostorder := by
  rw [reversePostorder?, Adjacency.postorder?_eq_some h.adjacency]
  rfl

theorem collectSources?_eq_some : collectSources? g.nodes = some (collectSources g.nodes) := by
  have hfold : ∀ (rest : List Node) (sources : Array (Array Nat)), sources.size = g.size →
      (∀ n ∈ rest, n ∈ g.nodes.toList) →
      rest.foldlM noteSources? sources = some (rest.foldl noteSources sources) := by
    intro rest
    induction rest with
    | nil => exact fun _ _ _ => rfl
    | cons n rest ih =>
        intro sources hsize hrest
        obtain ⟨l, hl⟩ := List.mem_iff_getElem?.mp (hrest n List.mem_cons_self)
        rw [Array.getElem?_toList] at hl
        have hnote : noteSources? sources n = some (noteSources sources n) := by
          apply foldlM_noteSource?
          intro c hc
          obtain ⟨e, he, rfl⟩ := List.mem_map.mp hc
          rw [hsize]
          exact h l n hl e he
        rw [List.foldlM_cons, hnote, Option.bind_eq_bind, Option.bind_some, List.foldl_cons]
        apply ih
        · rw [size_noteSources]
          exact hsize
        · exact fun m hm => hrest m (List.mem_cons_of_mem n hm)
  rw [collectSources?, collectSources, ← Array.foldl_toList]
  exact hfold _ _ Array.size_replicate fun n hn => hn

theorem isSome_address? {l c : Nat} (hc : c ∈ g.children l) : (g.address? c).isSome = true := by
  have hn : g.node? c = some _ := Array.getElem?_eq_getElem (h.lt_size_of_mem_children hc)
  rw [address?_of_node? hn]
  rfl

theorem nextAddresses?_eq_some (l : Nat) : g.nextAddresses? l = some (g.nextAddresses l) := by
  rw [nextAddresses?, mapM_eq_some_filterMap fun c => h.isSome_address?]
  rfl

theorem childrenAt?_eq_some (l : Nat) (addresses : List Nat) :
    g.childrenAt? l addresses = some (g.childrenAt l addresses) := by
  have hanswer : ∀ c ∈ g.children l, (g.address? c).map addresses.contains =
      some ((g.address? c).any addresses.contains) := by
    intro c hc
    obtain ⟨a, ha⟩ := Option.isSome_iff_exists.mp (h.isSome_address? hc)
    rw [ha]
    rfl
  rw [childrenAt?, filter?_eq_some hanswer]
  rfl

end InRange

namespace Shows

variable {distinct : Bool} {code : List Instruction} (h : g.Shows distinct code)

include h

theorem inRange : g.InRange := by
  intro l n hn e he
  obtain ⟨m, hm, -⟩ := h.exists_target hn he
  exact (Array.getElem?_eq_some_iff.mp hm).1

theorem predecessors?_eq_some (l : Nat) : g.predecessors? l = some (g.predecessors l) := by
  have hsources : g.sources = collectSources g.nodes := by rw [h.indexed, nodes_ofNodes, ofNodes]
  rw [predecessors?, h.inRange.collectSources?_eq_some, predecessors, hsources]
  rfl

end Shows

end FlowGraph

end DalvikFlow
