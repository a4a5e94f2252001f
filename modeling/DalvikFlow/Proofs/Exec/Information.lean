import DalvikFlow.Proofs.Exec.Effect
import DalvikFlow.Proofs.Exec.Program

/-! Execution with less information: what is known less goes at least everywhere, and is known less
there. -/
namespace DalvikFlow

/-- Nothing is known of the second item, or it is the first. -/
def Item.Below (a b : Item) : Prop := b.isUnknown = true ∨ b = a

namespace RegisterFile

/-- The same registers are assigned, each with an item that is known no better. -/
structure Below (f g : RegisterFile) : Prop where
  count : g.count = f.count
  assigned : ∀ r, g.isAssigned r = f.isAssigned r
  items : ∀ r a b, f.find? r = some a → g.find? r = some b → a.Below b

end RegisterFile

namespace Item

theorem Below.refl (a : Item) : a.Below a := .inr rfl

theorem value?_eq_none_of_isUnknown {a : Item} (h : a.isUnknown = true) : a.value? = none :=
  Option.isNone_iff_eq_none.mp h

theorem comparand?_eq_none_of_isUnknown {a : Item} (h : a.isUnknown = true) :
    a.comparand? = none := by
  rw [comparand?, value?_eq_none_of_isUnknown h]

end Item

/-- A comparison that loses an operand gives an unknown number. -/
theorem Comparison.result_below {c : Comparison} {a a' b b' i : Item} (ha : a.Below a')
    (hb : b.Below b') (h : c.result a b = .ok i) :
    ∃ i', c.result a' b' = .ok i' ∧ i.Below i' := by
  by_cases hunknown : (a'.isUnknown || b'.isUnknown) = true
  · exact ⟨.unknown Kind.int.typeTag, if_pos hunknown, .inl rfl⟩
  · rw [Bool.or_eq_true, not_or] at hunknown
    obtain rfl := ha.resolve_left hunknown.1
    obtain rfl := hb.resolve_left hunknown.2
    exact ⟨i, h, .refl i⟩

/-- A condition that loses an operand is not decided. -/
theorem Relation.decideItems?_below {r : Relation} {a a' b b' : Item} (ha : a.Below a')
    (hb : b.Below b') :
    r.decideItems? a' b' = none ∨ r.decideItems? a' b' = r.decideItems? a b := by
  rcases ha with ha | rfl
  · left
    rw [decideItems?, Item.comparand?_eq_none_of_isUnknown ha]
    rfl
  · rcases hb with hb | rfl
    · left
      rw [decideItems?, Item.comparand?_eq_none_of_isUnknown hb]
      cases a'.comparand? <;> rfl
    · right
      rfl

namespace RegisterFile

variable {f g : RegisterFile}

theorem Below.refl (f : RegisterFile) : f.Below f := by
  refine ⟨rfl, fun _ => rfl, ?_⟩
  intro r a b ha hb
  cases ha.symm.trans hb
  exact .refl a

theorem Below.read (h : f.Below g) {r : UInt16} {a : Item} (hr : f.read r = .ok a) :
    ∃ b, g.read r = .ok b ∧ a.Below b := by
  obtain ⟨hlt, hfind⟩ := read_eq_ok_iff.mp hr
  have hassigned := h.assigned r
  rw [isAssigned, isAssigned, hfind] at hassigned
  obtain ⟨b, hb⟩ := Option.isSome_iff_exists.mp hassigned
  exact ⟨b, read_eq_ok_iff.mpr ⟨h.count ▸ hlt, hb⟩, h.items r a b hfind hb⟩

theorem Below.assign (h : f.Below g) {r : UInt16} {a b : Item} (hab : a.Below b)
    {f' : RegisterFile} (hf : f.assign r a = .ok f') :
    ∃ g', g.assign r b = .ok g' ∧ f'.Below g' := by
  obtain ⟨hlt, rfl⟩ := assign_eq_ok_iff.mp hf
  refine ⟨_, assign_eq_ok_iff.mpr ⟨h.count ▸ hlt, rfl⟩, h.count, ?_, ?_⟩
  · intro s
    rw [isAssigned, isAssigned, find?_set, find?_set]
    by_cases hs : s = r
    · rw [if_pos hs, if_pos hs]
      rfl
    · rw [if_neg hs, if_neg hs]
      exact h.assigned s
  · intro s x y hx hy
    rw [find?_set] at hx hy
    by_cases hs : s = r
    · rw [if_pos hs] at hx hy
      cases hx
      cases hy
      exact hab
    · rw [if_neg hs] at hx hy
      exact h.items s x y hx hy

end RegisterFile

namespace Op

variable {op : Op}

theorem branchNext_below {relation : Relation} {target next : Nat} {a a' b b' : Item}
    (ha : a.Below a') (hb : b.Below b') :
    op.branchNext relation target next a' b' = op.children ∨
      op.branchNext relation target next a' b' = op.branchNext relation target next a b := by
  rcases Relation.decideItems?_below (r := relation) ha hb with h | h
  · left
    rw [branchNext, h]
  · right
    rw [branchNext, h, branchNext]

theorem switchNext_below {cases : List (Int32 × Nat)} {next : Nat} {a b : Item} (h : a.Below b) :
    op.switchNext cases next b = op.children ∨
      op.switchNext cases next b = op.switchNext cases next a := by
  rcases h with h | rfl
  · left
    rw [switchNext, Item.value?_eq_none_of_isUnknown h]
  · right
    rfl

/-- With less information an operation goes to all children, or where it would go anyway. -/
theorem effect_below {f g after : RegisterFile} {next : List Nat} (hfg : f.Below g)
    (h : op.effect f = .ok (next, after)) :
    ∃ next' after', op.effect g = .ok (next', after') ∧ (next' = op.children ∨ next' = next) ∧
      after.Below after' := by
  obtain ⟨site, action⟩ := op
  cases action with
  | compare comparison dest lhs rhs =>
      simp only [effect, bind_eq_ok_iff, pure_eq_ok_iff, mapError_eq_ok_iff] at h
      obtain ⟨a, ha, b, hb, item, hitem, after, hafter, h⟩ := h
      cases h
      obtain ⟨a', ha', haa⟩ := hfg.read ha
      obtain ⟨b', hb', hbb⟩ := hfg.read hb
      obtain ⟨item', hitem', hii⟩ := Comparison.result_below haa hbb hitem
      obtain ⟨after', hafter', hbelow⟩ := hfg.assign hii hafter
      exact ⟨_, after', effect_compare rfl ha' hb' hitem' hafter', .inl rfl, hbelow⟩
  | branch relation lhs rhs? target next =>
      simp only [effect, bind_eq_ok_iff, pure_eq_ok_iff] at h
      obtain ⟨a, ha, b, hb, h⟩ := h
      cases h
      obtain ⟨a', ha', haa⟩ := hfg.read ha
      have hread : ∃ b', (rhs?.map g.read).getD (.ok (.ofInt 0)) = .ok b' ∧ b.Below b' := by
        cases rhs? with
        | none =>
            cases hb
            exact ⟨_, rfl, .refl _⟩
        | some rhs => exact hfg.read hb
      obtain ⟨b', hb', hbb⟩ := hread
      exact ⟨_, g, effect_branch rfl ha' hb', branchNext_below haa hbb, hfg⟩
  | switch selector cases next =>
      simp only [effect, bind_eq_ok_iff, pure_eq_ok_iff] at h
      obtain ⟨item, hitem, h⟩ := h
      cases h
      obtain ⟨item', hitem', hii⟩ := hfg.read hitem
      exact ⟨_, g, effect_switch rfl hitem', switchNext_below hii, hfg⟩
  | move dest source =>
      simp only [effect, bind_eq_ok_iff, pure_eq_ok_iff] at h
      obtain ⟨item, hitem, after, hafter, h⟩ := h
      cases h
      obtain ⟨item', hitem', hii⟩ := hfg.read hitem
      obtain ⟨after', hafter', hbelow⟩ := hfg.assign hii hafter
      exact ⟨_, after', effect_move rfl hitem' hafter', .inl rfl, hbelow⟩
  | constant dest item =>
      simp only [effect, bind_eq_ok_iff, pure_eq_ok_iff] at h
      obtain ⟨after, hafter, h⟩ := h
      cases h
      obtain ⟨after', hafter', hbelow⟩ := hfg.assign (.refl item) hafter
      exact ⟨_, after', effect_constant rfl hafter', .inl rfl, hbelow⟩
  | flow registers =>
      cases h
      exact ⟨_, g, rfl, .inl rfl, hfg⟩

end Op

namespace Program

/-- The same node, and less information there. -/
def Weaker (a b : Nat × RegisterFile) : Prop := a.1 = b.1 ∧ a.2.Below b.2

variable {g : FlowGraph} {p : Program Op} {distinct : Bool} {code : List Instruction}

theorem step_below (hg : g.Shows distinct code) {r : Registry} (hp : ofGraph r g = .ok p)
    {node : Nat} {f f' : RegisterFile} {next : List (Nat × RegisterFile)} (hf : f.Below f')
    (h : p.step g node f = .ok next) :
    ∃ next', p.step g node f' = .ok next' ∧ (next.map Prod.fst).Sublist (next'.map Prod.fst) ∧
      ∀ child after after', (child, after) ∈ next → (child, after') ∈ next' →
        after.Below after' := by
  obtain ⟨n, op, addresses, after, hn, hop, heffect, rfl⟩ := step_eq_ok_iff.mp h
  obtain ⟨addresses', after', heffect', hnext, hafter⟩ := Op.effect_below hf heffect
  refine ⟨_, step_eq_ok_iff.mpr ⟨n, op, addresses', after', hn, hop, heffect', rfl⟩, ?_, ?_⟩
  · rw [List.map_map, List.map_map]
    simp only [Function.comp_def, List.map_id']
    rcases hnext with rfl | rfl
    · -- the operation stands at this node, so its addresses are those of all children
      have hsite := Registry.create_site ((get?_eq_some_iff hg hp hn).mp hop).2
      have hchildren : op.children = g.nextAddresses node := by
        rw [← hg.node_id hn]
        exact congrArg Site.children hsite
      rw [hchildren]
      exact g.childrenAt_sublist node addresses
    · exact List.Sublist.refl _
  · intro child x y hx hy
    obtain ⟨c, -, hc⟩ := List.mem_map.mp hx
    obtain ⟨d, -, hd⟩ := List.mem_map.mp hy
    cases hc
    cases hd
    exact hafter

theorem path_below (hg : g.Shows distinct code) {r : Registry} (hp : ofGraph r g = .ok p)
    {node : Nat} {f f' : RegisterFile} {path : List (Nat × RegisterFile)} (hf : f.Below f')
    (h : Path p g node f path) :
    ∃ path', Path p g node f' path' ∧ List.Forall₂ Weaker path path' := by
  induction h generalizing f' with
  | nil => exact ⟨[], .nil, .nil⟩
  | @cons node f next child after rest hstep hmem _ ih =>
      obtain ⟨next', hstep', hsub, hbelow⟩ := step_below hg hp hf hstep
      have hchild : child ∈ next'.map Prod.fst := hsub.subset (List.mem_map_of_mem hmem)
      obtain ⟨⟨c, after'⟩, hmem', hc⟩ := List.mem_map.mp hchild
      have hc' : c = child := hc
      rw [hc'] at hmem'
      have hafter := hbelow child after after' hmem hmem'
      obtain ⟨rest', hrest, hall⟩ := ih hafter
      exact ⟨_, .cons hstep' hmem' hrest, .cons ⟨rfl, hafter⟩ hall⟩

/-- Execution is sound under loss of information, in each step and along each path from the root. -/
theorem information_loss_sound {options : GraphOptions} {code : List Instruction} {g : FlowGraph}
    {p : Program Op} (hg : (FlowGraph.ofCode options code).result = .ok g)
    (hp : ofGraph Registry.builtin g = .ok p) :
    (∀ node f f' next, f.Below f' → p.step g node f = .ok next →
      ∃ next', p.step g node f' = .ok next' ∧ (next.map Prod.fst).Sublist (next'.map Prod.fst) ∧
        ∀ child after after', (child, after) ∈ next → (child, after') ∈ next' →
          after.Below after') ∧
    ∀ f f' path, f.Below f' → Path p g g.root f path →
      ∃ path', Path p g g.root f' path' ∧ List.Forall₂ Weaker path path' := by
  have hshows := FlowGraph.shows_of_result hg
  refine ⟨?_, ?_⟩
  · intro node f f' next hf h
    exact step_below hshows hp hf h
  · intro f f' path hf h
    exact path_below hshows hp hf h

/-- A switch that knows its selector goes to one case, and one that does not goes there as well. -/
theorem information_loss_sampleBody :
    ∃ g p next, (FlowGraph.ofCode ⟨true⟩ FlowGraph.sampleBody).result = .ok g ∧
      ofGraph Registry.builtin g = .ok p ∧
      p.step g 1 (.mk 1 [(0, .unknown "int")]) = .ok next ∧ [3].Sublist (next.map Prod.fst) := by
  obtain ⟨g, hg⟩ : ∃ g, (FlowGraph.ofCode ⟨true⟩ FlowGraph.sampleBody).result = .ok g := ⟨_, rfl⟩
  obtain ⟨p, hp⟩ : ∃ p, ofGraph Registry.builtin g = .ok p := by
    cases hg
    exact ⟨_, rfl⟩
  have hbelow : RegisterFile.Below (.mk 1 [(0, .ofInt 6)]) (.mk 1 [(0, .unknown "int")]) := by
    have hitem : (Item.ofInt 6).Below (.unknown "int") := .inl rfl
    have hassign : (RegisterFile.empty 1).assign 0 (.ofInt 6) = .ok (.mk 1 [(0, .ofInt 6)]) := rfl
    obtain ⟨f, hf, hbelow⟩ := (RegisterFile.Below.refl _).assign hitem hassign
    cases hf
    exact hbelow
  have hstep : p.step g 1 (.mk 1 [(0, .ofInt 6)]) = .ok [(3, .mk 1 [(0, .ofInt 6)])] := by
    cases hg
    cases hp
    rfl
  obtain ⟨next, hnext, hsub, -⟩ := (information_loss_sound hg hp).1 1 _ _ _ hbelow hstep
  exact ⟨g, p, next, hg, hp, hnext, hsub⟩

end Program

end DalvikFlow
