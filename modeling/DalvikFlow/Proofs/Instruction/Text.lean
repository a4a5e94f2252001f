import DalvikFlow.Instruction.Text
import DalvikFlow.Proofs.Text.Numeral

/-! A listed instruction can be read back. Its text is the mnemonic and then the parts, each after a
space, with commas between them; no register, number or case holds a comma. -/
namespace DalvikFlow

namespace SwitchCase

/-- A case has three words: its key, the arrow and its offset. -/
def ofText (t : List Char) : SwitchCase :=
  match t.splitOn ' ' with
  | [key, _, offset] =>
    ⟨Int32.ofInt (Text.integerValue key), Int32.ofInt (Text.integerValue offset)⟩
  | _ => ⟨0, 0⟩

theorem toList_text (c : SwitchCase) :
    c.text.toList =
      (Text.integer c.key.toInt).toList ++
        ' ' :: ['-', '>'] ++ ' ' :: (Text.signed c.offset.toInt).toList := by
  simp [text]

theorem ofText_text (c : SwitchCase) : ofText c.text.toList = c := by
  have hkey : ' ' ∉ (Text.integer c.key.toInt).toList :=
    List.forall_mem_ne'.mp (Text.forall_mem_integer (by decide) (by decide) _)
  have hoffset : ' ' ∉ (Text.signed c.offset.toInt).toList :=
    List.forall_mem_ne'.mp (Text.forall_mem_signed (by decide) (by decide) (by decide) _)
  have hsplit : c.text.toList.splitOn ' ' = [(Text.integer c.key.toInt).toList, ['-', '>'],
      (Text.signed c.offset.toInt).toList] := by
    rw [toList_text, List.append_assoc, List.cons_append,
      List.splitOn_append_cons_self_of_not_mem hkey,
      List.splitOn_append_cons_self_of_not_mem (by decide), List.splitOn_eq_singleton hoffset]
  rw [ofText, hsplit]
  simp only [Text.integerValue_integer, Text.integerValue_signed, Int32.ofInt_toInt]

end SwitchCase

namespace Operand

/-- The operands that are listed in full. Of an array payload only the sizes are listed, and of a
payload without cases nothing. -/
def isListed : Operand → Bool
  | none | literal _ | offset _ => true
  | cases cs => !cs.isEmpty
  | data .. => false

/-- Cases are told by their arrows, and a literal from an offset by its `0x`. -/
def ofParts : List (List Char) → Operand
  | [] => none
  | t :: rest =>
    if '>' ∈ t then cases ((t :: rest).map SwitchCase.ofText)
    else if 'x' ∈ t then literal (Int64.ofInt (Text.hexIntegerValue t))
    else offset (Int32.ofInt (Text.integerValue t))

theorem ofParts_parts {o : Operand} (h : o.isListed = true) :
    ofParts (o.parts.map String.toList) = o := by
  cases o with
  | none => rfl
  | literal v =>
      have harrow : '>' ∉ (Text.signedHex v.toInt).toList :=
        List.forall_mem_ne'.mp (Text.forall_mem_signedHex (by decide) (by decide) (by decide) _)
      have hx : 'x' ∈ (Text.signedHex v.toInt).toList := by
        rw [Text.toList_signedHex]
        simp
      change (if _ then _ else _) = _
      rw [if_neg harrow, if_pos hx, Text.hexIntegerValue_signedHex, Int64.ofInt_toInt]
  | offset d =>
      have harrow : '>' ∉ (Text.signed d.toInt).toList :=
        List.forall_mem_ne'.mp (Text.forall_mem_signed (by decide) (by decide) (by decide) _)
      have hx : 'x' ∉ (Text.signed d.toInt).toList :=
        List.forall_mem_ne'.mp (Text.forall_mem_signed (by decide) (by decide) (by decide) _)
      change (if _ then _ else _) = _
      rw [if_neg harrow, if_neg hx, Text.integerValue_signed, Int32.ofInt_toInt]
  | cases cs =>
      cases cs with
      | nil => cases h
      | cons c rest =>
          have harrow : '>' ∈ c.text.toList := by
            rw [SwitchCase.toList_text]
            simp
          change (if _ then _ else _) = _
          rw [if_pos harrow]
          simp [Function.comp_def, SwitchCase.ofText_text]
  | data w bytes => cases h

/-- An array payload is listed with words, all others with marks and digits. -/
theorem forall_mem_parts {P : Char → Prop} {o : Operand} (hdigits : ∀ d < 16, P d.digitChar)
    (hmarks : ∀ c ∈ ['+', '-', '>', 'x', ' '], P c)
    (hwords : o.isListed = true ∨
      ∀ c ∈ ['w', 'i', 'd', 't', 'h', ' ', ',', 'b', 'y', 'e', 's'], P c) :
    ∀ p ∈ o.parts, ∀ c ∈ p.toList, P c := by
  have hten : ∀ d < 10, P d.digitChar := fun d hd => hdigits d (Nat.lt_trans hd (by decide))
  have hplus : P '+' := hmarks '+' (by decide)
  have hminus : P '-' := hmarks '-' (by decide)
  intro p hp
  cases o with
  | none => cases hp
  | literal v =>
      obtain rfl := List.mem_singleton.mp hp
      exact Text.forall_mem_signedHex hminus (hmarks 'x' (by decide)) hdigits _
  | offset d =>
      obtain rfl := List.mem_singleton.mp hp
      exact Text.forall_mem_signed hminus hplus hten _
  | cases cs =>
      obtain ⟨c, -, rfl⟩ := List.mem_map.mp hp
      have hkey := Text.forall_mem_integer hminus hten c.key.toInt
      have hoffset := Text.forall_mem_signed hminus hplus hten c.offset.toInt
      have hsub : ' ' :: ['-', '>'] ⊆ ['+', '-', '>', 'x', ' '] := by decide
      have harrow : ∀ a ∈ ' ' :: ['-', '>'], P a := fun a ha => hmarks a (hsub ha)
      rw [SwitchCase.toList_text]
      exact List.forall_mem_append.mpr ⟨List.forall_mem_append.mpr ⟨hkey, harrow⟩,
        List.forall_mem_cons.mpr ⟨hmarks ' ' (by decide), hoffset⟩⟩
  | data w bytes =>
      obtain rfl := List.mem_singleton.mp hp
      have hword : ∀ word ⊆ ['w', 'i', 'd', 't', 'h', ' ', ',', 'b', 'y', 'e', 's'],
          ∀ c ∈ word, P c := fun word hsub c hc => hwords.resolve_left Bool.false_ne_true c (hsub hc)
      have hnatural : ∀ n : Nat, ∀ c ∈ (Text.natural n).toList, P c := by
        intro n
        rw [Text.toList_natural]
        exact Text.forall_mem_toDigits (by decide) hten n
      simp only [String.toList_append, List.forall_mem_append]
      refine ⟨⟨⟨⟨?_, hnatural _⟩, ?_⟩, hnatural _⟩, ?_⟩
      all_goals exact hword _ (by decide)

end Operand

section Separated

theorem forall_mem_intercalate {α : Type} {P : α → Prop} {sep : List α} {parts : List (List α)}
    (hsep : ∀ a ∈ sep, P a) (hparts : ∀ p ∈ parts, ∀ a ∈ p, P a) :
    ∀ a ∈ sep.intercalate parts, P a := by
  induction parts with
  | nil => simp
  | cons p rest ih =>
      obtain ⟨hp, hrest⟩ := List.forall_mem_cons.mp hparts
      cases rest with
      | nil => simpa using hp
      | cons q rest =>
          rw [List.intercalate_cons_cons, List.forall_mem_append, List.forall_mem_append]
          exact ⟨⟨hp, hsep⟩, ih hrest⟩

/-- A comma and a space between the parts, with a space in front, is a comma between parts that
start with a space. -/
theorem space_cons_intercalate (p : List Char) (rest : List (List Char)) :
    ' ' :: [',', ' '].intercalate (p :: rest) =
      [','].intercalate ((p :: rest).map (' ' :: ·)) := by
  induction rest generalizing p with
  | nil => simp
  | cons q rest ih =>
      have hnext := ih q
      rw [List.map_cons] at hnext
      rw [List.intercalate_cons_cons, List.map_cons, List.map_cons, List.intercalate_cons_cons,
        ← hnext]
      simp

end Separated

namespace Listing

/-- The mnemonic goes up to the first space. -/
def mnemonic (t : List Char) : List Char := t.takeWhile (· ≠ ' ')

/-- The parts go from the first space on, each with a space in front. -/
def parts (t : List Char) : List (List Char) :=
  match t.dropWhile (· ≠ ' ') with
  | [] => []
  | rest => (rest.splitOn ',').map List.tail

def register? : List Char → Option UInt16
  | 'v' :: digits => some (UInt16.ofNat (Nat.ofDigitChars 10 digits 0))
  | _ => none

/-- What a listed instruction says of itself. -/
def read (text : String) : Option Opcode × List UInt16 × Operand :=
  (Opcode.ofName? (String.ofList (mnemonic text.toList)),
    (parts text.toList).filterMap register?,
    Operand.ofParts ((parts text.toList).filter fun p => (register? p).isNone))

section Append

variable {name : List Char} {ps : List (List Char)}

theorem takes_of_space_notMem (h : ' ' ∉ name) : ∀ c ∈ name, decide (c ≠ ' ') = true :=
  fun _ hc => decide_eq_true fun heq => h (heq ▸ hc)

theorem mnemonic_append (hname : ' ' ∉ name) :
    mnemonic (name ++ [','].intercalate (ps.map (' ' :: ·))) = name := by
  rw [mnemonic, List.takeWhile_append_of_pos (takes_of_space_notMem hname)]
  cases ps with
  | nil => simp
  | cons p rest =>
      rw [← space_cons_intercalate, List.takeWhile_cons_of_neg (by decide), List.append_nil]

theorem parts_append (hname : ' ' ∉ name) (hps : ∀ p ∈ ps, ',' ∉ p) :
    parts (name ++ [','].intercalate (ps.map (' ' :: ·))) = ps := by
  rw [parts, List.dropWhile_append_of_pos (takes_of_space_notMem hname)]
  cases ps with
  | nil => rfl
  | cons p rest =>
      have hsplit : ([','].intercalate ((p :: rest).map (' ' :: ·))).splitOn ',' =
          (p :: rest).map (' ' :: ·) := by
        apply List.splitOn_intercalate
        · simpa using hps
        · simp
      rw [← space_cons_intercalate] at hsplit ⊢
      rw [List.dropWhile_cons_of_neg (by decide)]
      change (List.splitOn ',' _).map List.tail = _
      rw [hsplit, List.map_map]
      exact List.map_id (p :: rest)

end Append

theorem register?_of_notMem {p : List Char} (h : 'v' ∉ p) : register? p = none := by
  unfold register?
  split
  · exact absurd List.mem_cons_self h
  · rfl

end Listing

namespace Instruction

theorem toList_text (i : Instruction) :
    i.text.toList =
      i.opcode.name.toList ++
        [','].intercalate ((i.parts.map String.toList).map (' ' :: ·)) := by
  rw [text]
  cases i.parts with
  | nil => simp
  | cons p rest =>
      rw [if_neg (by simp), String.toList_append, String.toList_append, String.toList_intercalate,
        List.append_assoc, List.map_cons, ← space_cons_intercalate]
      rfl

theorem toList_registerText (r : UInt16) :
    (registerText r).toList = 'v' :: Nat.toDigits 10 r.toNat := by
  simp [registerText]

theorem forall_mem_registerText {P : Char → Prop} (hv : P 'v') (h : ∀ d < 10, P d.digitChar)
    (r : UInt16) : ∀ c ∈ (registerText r).toList, P c := by
  rw [toList_registerText]
  exact List.forall_mem_cons.mpr ⟨hv, Text.forall_mem_toDigits (by decide) h r.toNat⟩

theorem register?_registerText (r : UInt16) :
    Listing.register? (registerText r).toList = some r := by
  rw [toList_registerText, Listing.register?, Nat.ofDigitChars_ten_toDigits, UInt16.ofNat_toNat]

theorem space_notMem_name (op : Opcode) : ' ' ∉ op.name.toList := fun h =>
  absurd (Opcode.isMnemonicChar_of_mem_name h) (by decide)

variable {i : Instruction}

theorem comma_notMem_parts (h : i.operand.isListed = true) :
    ∀ p ∈ i.parts.map String.toList, ',' ∉ p := by
  intro p hp
  obtain ⟨part, hpart, rfl⟩ := List.mem_map.mp hp
  apply List.forall_mem_ne'.mp
  rcases List.mem_append.mp hpart with hpart | hpart
  · obtain ⟨r, -, rfl⟩ := List.mem_map.mp hpart
    exact forall_mem_registerText (by decide) (by decide) r
  · exact Operand.forall_mem_parts (by decide) (by simp) (.inl h) part hpart

theorem register?_of_mem_parts (h : i.operand.isListed = true) :
    ∀ p ∈ i.operand.parts, Listing.register? p.toList = none := by
  intro p hp
  apply Listing.register?_of_notMem
  exact List.forall_mem_ne'.mp (Operand.forall_mem_parts (by decide) (by simp) (.inl h) p hp)

theorem filterMap_register?_parts (h : i.operand.isListed = true) :
    (i.parts.map String.toList).filterMap Listing.register? = i.registers := by
  have hregisters : Listing.register? ∘ String.toList ∘ registerText = some :=
    funext register?_registerText
  have hoperand : (i.operand.parts.map String.toList).filterMap Listing.register? = [] := by
    rw [List.filterMap_map]
    exact List.filterMap_eq_nil_iff.mpr (register?_of_mem_parts h)
  rw [parts, List.map_append, List.filterMap_append, hoperand, List.append_nil, List.map_map,
    List.filterMap_map, hregisters, List.filterMap_some]

theorem filter_register?_parts (h : i.operand.isListed = true) :
    (i.parts.map String.toList).filter (fun p => (Listing.register? p).isNone) =
      i.operand.parts.map String.toList := by
  rw [parts, List.map_append, List.filter_append, List.filter_eq_nil_iff.mpr, List.nil_append,
    List.filter_eq_self.mpr]
  · intro p hp
    obtain ⟨part, hpart, rfl⟩ := List.mem_map.mp hp
    rw [register?_of_mem_parts h part hpart]
    rfl
  · intro p hp
    obtain ⟨part, hpart, rfl⟩ := List.mem_map.mp hp
    obtain ⟨r, -, rfl⟩ := List.mem_map.mp hpart
    rw [register?_registerText]
    exact Bool.false_ne_true

theorem read_text (h : i.operand.isListed = true) :
    Listing.read i.text = (some i.opcode, i.registers, i.operand) := by
  have hname := space_notMem_name i.opcode
  rw [Listing.read, toList_text, Listing.mnemonic_append hname,
    Listing.parts_append hname (comma_notMem_parts h), String.ofList_toList, Opcode.ofName?_name,
    filterMap_register?_parts h, filter_register?_parts h, Operand.ofParts_parts h]

end Instruction

/-- Letters, digits and the marks between them. -/
def isListingChar (c : Char) : Bool := Opcode.isMnemonicChar c || [' ', ',', '+', '>'].contains c

namespace Instruction

theorem isListingChar_of_mem_text (i : Instruction) :
    ∀ c ∈ i.text.toList, isListingChar c = true := by
  have hname : ∀ c ∈ i.opcode.name.toList, isListingChar c = true := by
    intro c hc
    rw [isListingChar, Opcode.isMnemonicChar_of_mem_name hc, Bool.true_or]
  have hparts : ∀ p ∈ i.parts, ∀ c ∈ p.toList, isListingChar c = true := by
    intro p hp
    rcases List.mem_append.mp hp with hp | hp
    · obtain ⟨r, -, rfl⟩ := List.mem_map.mp hp
      exact forall_mem_registerText (by decide) (by decide) r
    · exact Operand.forall_mem_parts (by decide) (List.all_eq_true.mp rfl)
        (.inr (List.all_eq_true.mp rfl)) p hp
  rw [toList_text, List.forall_mem_append, List.map_map]
  refine ⟨hname, forall_mem_intercalate (List.all_eq_true.mp rfl) ?_⟩
  intro p hp
  obtain ⟨part, hpart, rfl⟩ := List.mem_map.mp hp
  exact List.forall_mem_cons.mpr ⟨by decide, hparts part hpart⟩

/-- What is listed in full can be told from the listing, whatever the opcodes, the number of registers
and the values, and a listing needs no quotes and is one line. -/
theorem text_eq_iff {i j : Instruction} (hi : i.operand.isListed = true)
    (hj : j.operand.isListed = true) :
    (i.text = j.text ↔
      i.opcode = j.opcode ∧ i.registers = j.registers ∧ i.operand = j.operand) ∧
    '\n' ∉ i.text.toList ∧ '"' ∉ i.text.toList := by
  refine ⟨⟨?_, ?_⟩, ?_, ?_⟩
  · intro h
    have hread := (read_text hi).symm.trans ((congrArg Listing.read h).trans (read_text hj))
    simpa using hread
  · rintro ⟨hopcode, hregisters, hoperand⟩
    rw [text, text, parts, parts, hopcode, hregisters, hoperand]
  · intro h
    exact absurd (i.isListingChar_of_mem_text _ h) (by decide)
  · intro h
    exact absurd (i.isListingChar_of_mem_text _ h) (by decide)

/-- The smallest literal and the smallest offset. -/
theorem text_ne_of_smallest :
    let literal := ((Instruction.ofOpcode .const 0).withRegisters [1]).withLiteral Int64.minValue
    let offset := ((Instruction.ofOpcode .const 0).withRegisters [1]).withOffset Int32.minValue
    literal.text = "const v1, -0x8000000000000000" ∧ offset.text = "const v1, -2147483648" ∧
      literal.text ≠ offset.text ∧ '"' ∉ literal.text.toList := by
  intro literal offset
  have h := text_eq_iff (i := literal) (j := offset) rfl rfl
  refine ⟨by decide +kernel, by decide +kernel, ?_, h.2.2⟩
  intro heq
  obtain ⟨-, -, hoperand⟩ := h.1.mp heq
  cases hoperand

end Instruction

end DalvikFlow
