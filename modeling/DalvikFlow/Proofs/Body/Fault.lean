import DalvikFlow.Graph.Layout
import DalvikFlow.Proofs.Body.Start
import DalvikFlow.Proofs.Sequence

/-! Well-formed bodies, and what is wrong with the others. A body is looked at as a list in code
order; nothing here refers to the construction of a graph. -/
namespace DalvikFlow.Body

/-- The cases that a payload carries. It may carry something else, and then has none. -/
def casesOf (payload : Instruction) : List SwitchCase := payload.cases?.getD []

inductive SwitchOnto : Opcode → Opcode → Prop
  | packed : SwitchOnto .packedSwitch .packedSwitchPayload
  | sparse : SwitchOnto .sparseSwitch .sparseSwitchPayload

/-- What the offset of an instruction may lead to. -/
inductive MayRefer : Opcode → Opcode → Prop
  | switch {s t} : SwitchOnto s t → MayRefer s t
  | data : MayRefer .fillArrayData .arrayPayload
  | code {s t} : s.isSwitch = false → s ≠ .fillArrayData → t.isPayload = false → MayRefer s t

/-- The offset of a case counts from its switch and leads to an instruction that is executed. -/
def CaseLands (code : List Instruction) (source : Nat) (c : SwitchCase) : Prop :=
  ∃ t, StartsAt code (source + c.offset.toInt) t ∧ t.opcode.isPayload = false

/-- The locations are the numbers below the length, in any order. -/
def Located (code : List Instruction) : Prop :=
  (code.map Instruction.location).Perm (List.range code.length)

structure WellFormed (code : List Instruction) : Prop where
  nonempty : code ≠ []
  located : Located code
  wide : Wide code
  fits : width code ≤ maxAddress
  refers : ∀ p i d, code[p]? = some i → i.offset? = some d →
    ∃ t, StartsAt code (start code p + d.toInt) t ∧ MayRefer i.opcode t.opcode ∧
      (SwitchOnto i.opcode t.opcode →
        ∀ c ∈ casesOf t, CaseLands code (start code p) c)

inductive LocationFault (code : List Instruction) (p : Nat) : Defect → Prop
  | outOfRange {i} : code[p]? = some i → code.length ≤ i.location →
      LocationFault code p (.locationOutOfRange i.location code.length)
  | duplicate {i j q} : code[p]? = some i → i.location < code.length →
      q < p → code[q]? = some j → j.location = i.location →
      LocationFault code p (.duplicateLocation i.location)

inductive WidthFault (code : List Instruction) (p : Nat) : Defect → Prop
  | zero {i} : code[p]? = some i → i.units.toNat = 0 →
      WidthFault code p (.zeroWidth i.opcode i.location)
  | overflow {i} : code[p]? = some i → 0 < i.units.toNat → maxAddress < start code (p + 1) →
      WidthFault code p .bodyTooLong

inductive CaseFault (code : List Instruction) (source : Nat) (c : SwitchCase) : Error → Prop
  | unresolved : (∀ t, ¬ StartsAt code (source + c.offset.toInt) t) →
      CaseFault code source c (.unresolvedTarget .switchCase source (source + c.offset.toInt))
  | ontoPayload {t} : StartsAt code (source + c.offset.toInt) t → t.opcode.isPayload = true →
      CaseFault code source c (.malformed (.caseOntoPayload c.key source t.opcode))

def CaseFaultAt (code : List Instruction) (source : Nat) (payload : Instruction) (k : Nat)
    (e : Error) : Prop :=
  ∃ c, (casesOf payload)[k]? = some c ∧ CaseFault code source c e

/-- The reference of an instruction that starts at an address leads to no instruction, or to the
wrong kind, or to a payload one of whose cases has a fault: then the first of them decides. -/
inductive ReferenceFault (code : List Instruction) (source : Nat) (i : Instruction) : Error → Prop
  | unresolved {d} : i.offset? = some d → (∀ t, ¬ StartsAt code (source + d.toInt) t) →
      ReferenceFault code source i (.unresolvedTarget .branch source (source + d.toInt))
  | wrongKind {d t} : i.offset? = some d → StartsAt code (source + d.toInt) t →
      ¬ MayRefer i.opcode t.opcode →
      ReferenceFault code source i (.malformed (.badReference i.opcode source t.opcode))
  | case {d t e} : i.offset? = some d → StartsAt code (source + d.toInt) t →
      SwitchOnto i.opcode t.opcode →
      First (CaseFaultAt code source t) e →
      ReferenceFault code source i e

def ReferenceFaultAt (code : List Instruction) (p : Nat) (e : Error) : Prop :=
  ∃ i, code[p]? = some i ∧ ReferenceFault code (start code p) i e

/-- Locations come before widths and widths before references, each in code order. An empty body has
no position and a fault of its own. -/
inductive FirstFault (code : List Instruction) : Error → Prop
  | empty : code = [] → FirstFault code .emptyBody
  | location {d} : First (LocationFault code) d → FirstFault code (.malformed d)
  | width {d} : (∀ p d', ¬ LocationFault code p d') → First (WidthFault code) d →
      FirstFault code (.malformed d)
  | reference {e} : (∀ p d, ¬ LocationFault code p d) → (∀ p d, ¬ WidthFault code p d) →
      First (ReferenceFaultAt code) e → FirstFault code e

theorem LocationFault.exists_instruction {code : List Instruction} {p : Nat} {d : Defect}
    (h : LocationFault code p d) : ∃ i, code[p]? = some i := by
  cases h with
  | outOfRange hi => exact ⟨_, hi⟩
  | duplicate hi => exact ⟨_, hi⟩

theorem WidthFault.exists_instruction {code : List Instruction} {p : Nat} {d : Defect}
    (h : WidthFault code p d) : ∃ i, code[p]? = some i := by
  cases h with
  | zero hi => exact ⟨_, hi⟩
  | overflow hi => exact ⟨_, hi⟩

end DalvikFlow.Body
