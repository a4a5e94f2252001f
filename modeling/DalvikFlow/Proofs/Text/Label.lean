import DalvikFlow.Text.Label

/-! Escaped labels can be read back, and they stay inside their quotes. -/
namespace DalvikFlow.Text.Label

/-- A reader of labels knows two escapes: a backslash before `n` is a line break, and before any
other character it is that character. -/
structure Decodes (read : List Char → List Char) : Prop where
  nil : read [] = []
  lineBreak : ∀ r, read ('\\' :: 'n' :: r) = '\n' :: read r
  escaped : ∀ c r, c ≠ 'n' → read ('\\' :: c :: r) = c :: read r
  bare : ∀ c r, c ≠ '\\' → read (c :: r) = c :: read r

/-- The text before the first bare quote, and what follows that quote. The character after a
backslash is passed over, whatever it is. -/
def upToQuote : List Char → Option (List Char × List Char)
  | [] => none
  | '"' :: r => some ([], r)
  | '\\' :: c :: r => (upToQuote r).map fun p => ('\\' :: c :: p.1, p.2)
  | c :: r => (upToQuote r).map fun p => (c :: p.1, p.2)

theorem upToQuote_bare {c : Char} (hquote : c ≠ '"') (hslash : c ≠ '\\') (r : List Char) :
    upToQuote (c :: r) = (upToQuote r).map fun p => (c :: p.1, p.2) := by
  rw [upToQuote]
  · exact hquote
  · intro d r' heq
    exact absurd heq hslash

theorem decodes_decode : Decodes decode := by
  constructor
  case nil => rfl
  case lineBreak =>
    intro r
    rfl
  case escaped =>
    intro c r hc
    rw [decode]
    exact hc
  case bare =>
    intro c r hc
    rw [decode]
    · intro r' heq
      exact absurd heq hc
    · intro d r' heq
      exact absurd heq hc

/-- The written forms of a character. -/
inductive Written : Char → List Char → Prop
  | dropped : Written '\r' []
  | lineBreak : Written '\n' ['\\', 'n']
  | escaped {c} : c ≠ 'n' → c ≠ '\n' → c ≠ '\r' → Written c ['\\', c]
  | bare {c} : c ≠ '\\' → c ≠ '"' → c ≠ '\n' → c ≠ '\r' → Written c [c]

theorem written_encodeChar (c : Char) : Written c (encodeChar c) := by
  unfold encodeChar
  split
  case h_3 => exact .lineBreak
  case h_4 => exact .dropped
  case h_7 hslash hquote hline hreturn _ _ => exact .bare hslash hquote hline hreturn
  all_goals exact .escaped (by decide) (by decide) (by decide)

namespace Written

variable {c : Char} {w : List Char}

theorem decode_append (h : Written c w) (r : List Char) :
    decode (w ++ r) = [c].filter (· ≠ '\r') ++ decode r := by
  cases h with
  | dropped => rfl
  | lineBreak => rfl
  | escaped hn _ hreturn => simp [decodes_decode.escaped c r hn, hreturn]
  | bare hslash _ _ hreturn => simp [decodes_decode.bare c r hslash, hreturn]

/-- No character is written in a way that ends the label. -/
theorem upToQuote_append (h : Written c w) (r : List Char) :
    upToQuote (w ++ r) = (upToQuote r).map fun p => (w ++ p.1, p.2) := by
  cases h with
  | dropped => simp
  | lineBreak => rfl
  | escaped => rfl
  | bare hslash hquote => exact upToQuote_bare hquote hslash r

theorem lineBreak_notMem (h : Written c w) : '\n' ∉ w ∧ '\r' ∉ w := by
  cases h with
  | dropped => simp
  | lineBreak => decide
  | escaped _ hline hreturn => simp [hline.symm, hreturn.symm]
  | bare _ _ hline hreturn => simp [hline.symm, hreturn.symm]

end Written

theorem decode_encode (s : List Char) : decode (encode s) = s.filter (· ≠ '\r') := by
  induction s with
  | nil => rfl
  | cons c s ih =>
      rw [encode_cons, (written_encodeChar c).decode_append, ih, ← List.filter_append]
      rfl

theorem upToQuote_encode (s rest : List Char) :
    upToQuote (encode s ++ '"' :: rest) = some (encode s, rest) := by
  induction s with
  | nil => rfl
  | cons c s ih =>
      rw [encode_cons, List.append_assoc, (written_encodeChar c).upToQuote_append, ih]
      rfl

theorem lineBreak_notMem_encode (s : List Char) : '\n' ∉ encode s ∧ '\r' ∉ encode s := by
  induction s with
  | nil => exact ⟨List.not_mem_nil, List.not_mem_nil⟩
  | cons c s ih =>
      obtain ⟨hline, hreturn⟩ := (written_encodeChar c).lineBreak_notMem
      simp only [encode_cons, List.mem_append, not_or]
      exact ⟨⟨hline, ih.1⟩, hreturn, ih.2⟩

/-- Reading undoes escaping except for carriage returns, which leave nothing to read. Texts are
escaped piece by piece. The first quote that closes a label is the one written after it, and no line
ends before. -/
theorem escape_read_back :
    Decodes decode ∧
      (∀ s, decode (escape s).toList = s.toList.filter (· ≠ '\r')) ∧
      (∀ s t, escape (s ++ t) = escape s ++ escape t) ∧
      (∀ s rest, upToQuote ((escape s).toList ++ '"' :: rest) = some ((escape s).toList, rest)) ∧
      ∀ s, '\n' ∉ (escape s).toList ∧ '\r' ∉ (escape s).toList := by
  simp only [toList_escape]
  refine ⟨decodes_decode, fun s => decode_encode s.toList, ?_,
    fun s rest => upToQuote_encode s.toList rest, fun s => lineBreak_notMem_encode s.toList⟩
  intro s t
  rw [← String.toList_inj, String.toList_append]
  simp only [toList_escape, String.toList_append, encode_append]

end DalvikFlow.Text.Label
