import DalvikFlow.Error
import DalvikFlow.Graph.AddressIndex
import DalvikFlow.Instruction.Basic

/-! Where the instructions of a body stand: their positions in code order, by location, and their
addresses. -/
namespace DalvikFlow

namespace Location

def fillSlots (slots : Array (Option Nat)) (position : Nat) :
    List Instruction → Except Defect (Array (Option Nat))
  | [] => .ok slots
  | i :: rest =>
    match slots[i.location]? with
    | none => .error (.locationOutOfRange i.location slots.size)
    | some (some _) => .error (.duplicateLocation i.location)
    | some none => fillSlots (slots.setIfInBounds i.location (some position)) (position + 1) rest

def filledSlot : Option Nat × Nat → Except Defect Nat
  | (some position, _) => .ok position
  | (none, location) => .error (.missingLocation location)

/-- The positions of the instructions in code order, by location. The locations have to be the
numbers below the length, each once. -/
def positions (code : List Instruction) : Except Defect (List Nat) := do
  let slots ← fillSlots (Array.replicate code.length none) 0 code
  slots.toList.zipIdx.mapM filledSlot

end Location

/-- The last address, and with it the largest width of a body. -/
def maxAddress : Nat := 0xFFFFFFFF

structure Placed where
  address : Nat
  instruction : Instruction
  deriving DecidableEq, Repr

namespace Placed

def opcode (p : Placed) : Opcode := p.instruction.opcode

def location (p : Placed) : Nat := p.instruction.location

def limit (p : Placed) : Nat := p.address + p.instruction.units.toNat

/-- An instruction has a width and ends within the addresses. -/
def defect? (p : Placed) : Option Defect :=
  if p.instruction.units = 0 then some (.zeroWidth p.opcode p.location)
  else if maxAddress < p.limit then some .bodyTooLong
  else none

end Placed

/-- A body in code order, with a look-up by address. -/
structure Layout where
  placed : Array Placed
  index : AddressIndex

namespace Layout

/-- Each instruction starts where the one before it ends. -/
def placeFrom (placed : Array Placed) (address : Nat) : List Instruction → Array Placed
  | [] => placed
  | i :: rest => placeFrom (placed.push ⟨address, i⟩) (address + i.units.toNat) rest

def ofCode (code : List Instruction) : Layout :=
  let placed := placeFrom #[] 0 code
  ⟨placed, .ofList (placed.toList.map Placed.address)⟩

/-- What is wrong with the first instruction in code order that has something wrong with it. -/
def defect? (l : Layout) : Option Defect := l.placed.toList.findSome? Placed.defect?

def startingAt? (l : Layout) (address : Nat) : Option Placed :=
  (l.index.find? address).bind (l.placed[·]?)

def target? (l : Layout) (kind : TargetKind) (source : Nat) (distance : Int32) :
    Except Error Placed :=
  let target := (source : Int) + distance.toInt
  match target.toNat?.bind l.startingAt? with
  | some p => .ok p
  | none => .error (.unresolvedTarget kind source target)

theorem placeFrom_eq_append (placed : Array Placed) (address : Nat) (code : List Instruction) :
    placeFrom placed address code = placed ++ placeFrom #[] address code := by
  induction code generalizing placed address with
  | nil => simp [placeFrom]
  | cons i rest ih =>
    rw [placeFrom, ih, placeFrom, ih (#[].push ⟨address, i⟩)]
    simp [← Array.append_assoc]

theorem toList_placeFrom_cons (address : Nat) (i : Instruction) (rest : List Instruction) :
    (placeFrom #[] address (i :: rest)).toList =
      ⟨address, i⟩ :: (placeFrom #[] (address + i.units.toNat) rest).toList := by
  rw [placeFrom, placeFrom_eq_append]
  simp

/-- Nothing is lost or moved. -/
theorem map_instruction_placeFrom (address : Nat) (code : List Instruction) :
    (placeFrom #[] address code).toList.map Placed.instruction = code := by
  induction code generalizing address with
  | nil => rfl
  | cons i rest ih => rw [toList_placeFrom_cons, List.map_cons, ih]

end Layout

end DalvikFlow
