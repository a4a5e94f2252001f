/-! Encoding formats. The format of an opcode fixes the width of its instructions, except for the
three payload formats, whose width depends on what they hold. -/
namespace DalvikFlow

/-- An instruction encoding, named by its width in code units, its register count and a letter
for what else it encodes. -/
inductive Format where
  | f10t | f10x | f11n | f11x | f12x
  | f20bc | f20t | f21c | f21ih | f21lh | f21s | f21t | f22b | f22c | f22cs | f22s | f22t | f22x
  | f23x
  | f30t | f31c | f31i | f31t | f32x | f35c | f3rc
  | f45cc | f4rcc
  | f51l
  | packedSwitchPayload | sparseSwitchPayload | arrayPayload
  deriving DecidableEq, Repr

namespace Format

def all : List Format :=
  [.f10t, .f10x, .f11n, .f11x, .f12x,
   .f20bc, .f20t, .f21c, .f21ih, .f21lh, .f21s, .f21t, .f22b, .f22c, .f22cs, .f22s, .f22t, .f22x,
   .f23x,
   .f30t, .f31c, .f31i, .f31t, .f32x, .f35c, .f3rc,
   .f45cc, .f4rcc,
   .f51l,
   .packedSwitchPayload, .sparseSwitchPayload, .arrayPayload]

def name : Format → String
  | f10t => "Format10t"
  | f10x => "Format10x"
  | f11n => "Format11n"
  | f11x => "Format11x"
  | f12x => "Format12x"
  | f20bc => "Format20bc"
  | f20t => "Format20t"
  | f21c => "Format21c"
  | f21ih => "Format21ih"
  | f21lh => "Format21lh"
  | f21s => "Format21s"
  | f21t => "Format21t"
  | f22b => "Format22b"
  | f22c => "Format22c"
  | f22cs => "Format22cs"
  | f22s => "Format22s"
  | f22t => "Format22t"
  | f22x => "Format22x"
  | f23x => "Format23x"
  | f30t => "Format30t"
  | f31c => "Format31c"
  | f31i => "Format31i"
  | f31t => "Format31t"
  | f32x => "Format32x"
  | f35c => "Format35c"
  | f3rc => "Format3rc"
  | f45cc => "Format45cc"
  | f4rcc => "Format4rcc"
  | f51l => "Format51l"
  | packedSwitchPayload => "PackedSwitchPayload"
  | sparseSwitchPayload => "SparseSwitchPayload"
  | arrayPayload => "ArrayPayload"

/-- Width in code units, none for a payload. -/
def units? : Format → Option UInt16
  | f10t | f10x | f11n | f11x | f12x => some 1
  | f20bc | f20t | f21c | f21ih | f21lh | f21s | f21t | f22b | f22c | f22cs | f22s | f22t | f22x
  | f23x => some 2
  | f30t | f31c | f31i | f31t | f32x | f35c | f3rc => some 3
  | f45cc | f4rcc => some 4
  | f51l => some 5
  | packedSwitchPayload | sparseSwitchPayload | arrayPayload => none

def isPayload (f : Format) : Bool := f.units?.isNone

end Format

end DalvikFlow
