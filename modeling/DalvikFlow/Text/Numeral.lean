/-! Numbers as text, and what is named by a number. -/
namespace DalvikFlow

namespace Text

def natural (n : Nat) : String := String.ofList (Nat.toDigits 10 n)

def integer (i : Int) : String :=
  if i < 0 then "-" ++ natural i.natAbs else natural i.natAbs

/-- With a sign in any case, so that zero is `+0`. -/
def signed (i : Int) : String :=
  if i < 0 then "-" ++ natural i.natAbs else "+" ++ natural i.natAbs

def hex (n : Nat) : String := String.ofList (Nat.toDigits 16 n)

def hexPadded (width n : Nat) : String :=
  String.ofList ((Nat.toDigits 16 n).leftpad width '0')

def signedHex (i : Int) : String :=
  if i < 0 then "-0x" ++ hex i.natAbs else "0x" ++ hex i.natAbs

/-- An address in code units has at least four digits. -/
def address (a : Nat) : String := "0x" ++ hexPadded 4 a

end Text

def nodeText (id : Nat) : String := "n" ++ Text.natural id

/-- Where the reader has to be told that a node is meant. -/
def nodeReference (id : Nat) : String := "NodeId(" ++ Text.natural id ++ ")"

end DalvikFlow
