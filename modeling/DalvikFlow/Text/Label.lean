/-! Labels of a DOT graph. A label stands between quotes, so a quote, a backslash and the brackets
that a record shape gives meaning to are written after a backslash, and a line break as `\n`. A
carriage return has no written form. -/
namespace DalvikFlow.Text.Label

def encodeChar : Char → List Char
  | '\\' => ['\\', '\\']
  | '"' => ['\\', '"']
  | '\n' => ['\\', 'n']
  | '\r' => []
  | '<' => ['\\', '<']
  | '>' => ['\\', '>']
  | c => [c]

def encode (s : List Char) : List Char := s.flatMap encodeChar

/-- A backslash before `n` stands for a line break, before any other character for that character. -/
def decode : List Char → List Char
  | '\\' :: 'n' :: r => '\n' :: decode r
  | '\\' :: c :: r => c :: decode r
  | c :: r => c :: decode r
  | [] => []

def escape (s : String) : String := String.ofList (encode s.toList)

@[simp] theorem toList_escape (s : String) : (escape s).toList = encode s.toList := by
  simp [escape]

@[simp] theorem encode_cons (c : Char) (s : List Char) :
    encode (c :: s) = encodeChar c ++ encode s := by
  simp [encode]

theorem encode_append (s t : List Char) : encode (s ++ t) = encode s ++ encode t := by
  simp [encode]

end DalvikFlow.Text.Label
