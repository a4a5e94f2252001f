import DalvikFlow.Proofs.Exec.Program
import DalvikFlow.Proofs.Exec.Target

/-! Registries with any history of registrations, and what their programs hold: one operation for each
node of the graph that is no payload, under the address of the node. -/
namespace DalvikFlow

open Body

namespace Registry

def registerAll (r : Registry) (entries : List (Opcode × Family)) : Registry :=
  entries.foldl (fun r e => r.register e.1 e.2) r

/-- The family of the last entry that has the mnemonic of the opcode. -/
def lastFamily? (entries : List (Opcode × Family)) (op : Opcode) : Option Family :=
  (entries.reverse.find? fun e => e.1.name = op.name).map Prod.snd

theorem find?_registerAll (r : Registry) (entries : List (Opcode × Family)) (op : Opcode) :
    (r.registerAll entries).find? op = (lastFamily? entries op).or (r.find? op) := by
  rw [registerAll, lastFamily?, List.foldl_eq_foldr_reverse]
  induction entries.reverse with
  | nil => rfl
  | cons e rest ih =>
      rw [List.foldr_cons, find?_register, ih]
      by_cases h : op = e.1
      · rw [if_pos h, List.find?_cons_of_pos (by simp [h])]
        rfl
      · have hname : ¬ e.1.name = op.name := fun hn => h (Opcode.name_inj.mp hn).symm
        rw [if_neg h, List.find?_cons_of_neg (by simpa using hname)]

end Registry

def Action.family : Action → Family
  | compare .. => .compare
  | branch .. => .branch
  | switch .. => .switch
  | move .. => .move
  | constant .. => .constant
  | flow .. => .flow

theorem Family.Makes.action_family {family : Family} {g : FlowGraph} {n : Node} {op : Op}
    (h : family.Makes g n op) : op.action.family = family := by
  cases h <;> rfl

namespace Program

/-- One operation for each node that is executed. It stands at the address of the node, has the children
of the node, and is made by the family that the registry has for the opcode of the node. -/
structure Mirrors (p : Program Op) (r : Registry) (g : FlowGraph) : Prop where
  isSome_get?_iff : ∀ a, (p.get? a).isSome = true ↔
    ∃ l n, g.node? l = some n ∧ n.isPayload = false ∧ n.address = a
  op_of_node : ∀ l n, g.node? l = some n → n.isPayload = false →
    ∃ family op, r.find? n.opcode = some family ∧ family.create g n = .ok op ∧
      p.get? n.address = some op ∧ op.address = n.address ∧ op.opcode = n.opcode ∧
      op.children = g.nextAddresses l ∧ op.action.family = family ∧
      family.supports n.opcode = true
  size_eq : p.size = g.nodes.toList.countP fun n => !n.isPayload
  ascending : p.toList.Pairwise fun x y => x.address < y.address
  mem_toList_iff : ∀ op, op ∈ p.toList ↔ p.get? op.address = some op

open FlowGraph

variable {r : Registry} {g : FlowGraph} {p : Program Op} {distinct : Bool} {code : List Instruction}

theorem mirrors_of_ofGraph (hg : g.Shows distinct code) (hp : ofGraph r g = .ok p) :
    p.Mirrors r g := by
  obtain ⟨ops, rfl, haddresses, hnodup, -⟩ := ofGraph_eq_ok hg hp
  constructor
  case isSome_get?_iff =>
    intro a
    rw [Option.isSome_iff_exists]
    constructor
    · rintro ⟨op, hop⟩
      obtain ⟨l, n, hn, ha, hpay, -⟩ := (get?_eq_some_iff_exists hg hp).mp hop
      exact ⟨l, n, hn, hpay, ha⟩
    · rintro ⟨l, n, hn, hpay, rfl⟩
      exact exists_op hg hp hn hpay
  case op_of_node =>
    intro l n hn hpay
    obtain ⟨op, hop⟩ := exists_op hg hp hn hpay
    obtain ⟨-, hcreate⟩ := (get?_eq_some_iff hg hp hn).mp hop
    obtain ⟨family, hfind, hmakes⟩ := Registry.create_eq_ok_iff.mp hcreate
    have hsite := Registry.create_site hcreate
    exact ⟨family, op, hfind, Family.create_eq_ok_iff.mpr hmakes, hop,
      congrArg Site.address hsite, congrArg Site.opcode hsite,
      Registry.create_children hcreate (hg.node_id hn), hmakes.action_family,
      Opcode.family?_eq_some_iff.mp hmakes.family?_eq⟩
  case size_eq =>
    rw [← length_toList, (toList_ofList_perm hnodup).length_eq, ← List.length_map Op.address,
      haddresses, List.length_map, List.countP_eq_length_filter]
  case ascending => exact pairwise_toList _
  case mem_toList_iff => exact fun _ => mem_toList_iff

/-- Whatever has been registered, a program mirrors its graph, or there is none. An opcode under a family
that does not support it leaves no program in which it could be made wrongly. -/
theorem tables_of_history {options : GraphOptions} (hg : (ofCode options code).result = .ok g)
    (start : Registry) (history : List (Opcode × Family)) :
    (∀ op, (start.registerAll history).find? op =
      (Registry.lastFamily? history op).or (start.find? op)) ∧
    (∀ p, ofGraph (start.registerAll history) g = .ok p →
      p.Mirrors (start.registerAll history) g) ∧
    ∀ l n family, g.node? l = some n → n.isPayload = false →
      (start.registerAll history).find? n.opcode = some family →
      family.supports n.opcode = false →
      family.create g n = .error (.invalidOperand n.opcode family.expected) ∧
      ∃ e, ofGraph (start.registerAll history) g = .error e := by
  have h := shows_of_result hg
  refine ⟨start.find?_registerAll history, fun p => mirrors_of_ofGraph h, ?_⟩
  intro l n family hn hpay hfind hsupports
  have hforeign : n.opcode.family? ≠ some family := by
    rw [Ne, Opcode.family?_eq_some_iff, hsupports]
    exact Bool.false_ne_true
  refine ⟨Family.create_of_foreign hforeign, ?_⟩
  cases hp : ofGraph (start.registerAll history) g with
  | error e => exact ⟨e, rfl⟩
  | ok p =>
      obtain ⟨family', op, hfind', -, -, -, -, -, -, hsupports'⟩ :=
        (mirrors_of_ofGraph h hp).op_of_node l n hn hpay
      cases hfind.symm.trans hfind'
      cases hsupports.symm.trans hsupports'

/-- A wrong registration does no harm if a right one follows, and a right one is of no use before it. -/
theorem tables_of_history_sampleBody :
    ∃ g p, (ofCode ⟨true⟩ sampleBody).result = .ok g ∧
      ofGraph (Registry.builtin.registerAll [(.nop, .compare), (.nop, .flow)]) g = .ok p ∧
      p.size = 3 ∧
      ∃ e, ofGraph (Registry.builtin.registerAll [(.nop, .flow), (.nop, .compare)]) g = .error e := by
  obtain ⟨g, hg⟩ : ∃ g, (ofCode ⟨true⟩ sampleBody).result = .ok g := ⟨_, rfl⟩
  obtain ⟨n, hn, hi⟩ : ∃ n, g.node? 0 = some n ∧ n.instruction = .ofOpcode .nop 0 := by
    cases hg
    exact ⟨_, rfl, rfl⟩
  have hopcode : n.opcode = .nop := congrArg Instruction.opcode hi
  obtain ⟨p, hp⟩ : ∃ p,
      ofGraph (Registry.builtin.registerAll [(.nop, .compare), (.nop, .flow)]) g = .ok p := by
    cases hg
    exact ⟨_, rfl⟩
  have hmirrors := (tables_of_history hg Registry.builtin _).2.1 p hp
  refine ⟨g, p, hg, hp, ?_, ?_⟩
  · rw [hmirrors.size_eq]
    cases hg
    rfl
  · refine ((tables_of_history hg Registry.builtin _).2.2 0 n .compare hn ?_ ?_ ?_).2
    · rw [Node.isPayload, hopcode]
      rfl
    · rw [hopcode]
      rfl
    · rw [hopcode]
      rfl

end Program

end DalvikFlow
