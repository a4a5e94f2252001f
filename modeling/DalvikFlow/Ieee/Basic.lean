/-! Binary floating point numbers, kept as their bits. Order and equality are read off the bits, and
rounding is to the nearest number, ties to an even last place. -/
namespace DalvikFlow

inductive Precision where
  | single
  | double
  deriving DecidableEq, Repr

namespace Precision

/-- Bits of the significand after its leading one. -/
def fractionBits : Precision → Nat
  | single => 23
  | double => 52

def exponentBits : Precision → Nat
  | single => 8
  | double => 11

def width (p : Precision) : Nat := 1 + p.exponentBits + p.fractionBits

def signBit (p : Precision) : Nat := 1 <<< (p.width - 1)

/-- The one that leads a significand. Its place is above the fraction, and it is not among the bits. -/
def leadingOne (p : Precision) : Nat := 1 <<< p.fractionBits

/-- The exponent of the last place of the smallest numbers. -/
def minExponent (p : Precision) : Int :=
  2 - ((1 <<< (p.exponentBits - 1) : Nat) : Int) - p.fractionBits

/-- The bits of infinity: an exponent of ones only, and no fraction. -/
def infinity (p : Precision) : Nat := ((1 <<< p.exponentBits) - 1) * p.leadingOne

end Precision

/-- A floating point number of one precision. -/
structure Ieee (p : Precision) where
  bits : BitVec p.width
  deriving DecidableEq, Repr

namespace Ieee

variable {p : Precision}

def ofNat (n : Nat) : Ieee p := ⟨BitVec.ofNat _ n⟩

def assemble (negative : Bool) (magnitude : Nat) : Ieee p :=
  ofNat (if negative then p.signBit + magnitude else magnitude)

def isNegative (x : Ieee p) : Bool := x.bits.msb

/-- All bits but the sign. They ascend with the absolute value. -/
def magnitude (x : Ieee p) : Nat := x.bits.toNat % p.signBit

def isNaN (x : Ieee p) : Bool := p.infinity < x.magnitude

def isInfinite (x : Ieee p) : Bool := x.magnitude = p.infinity

/-- Ascends with the value. Both zeros have key zero. -/
def key (x : Ieee p) : Int := if x.isNegative then -x.magnitude else x.magnitude

/-- Not a number is neither below, above nor equal to anything, itself included. -/
def order? (x y : Ieee p) : Option Ordering :=
  if x.isNaN || y.isNaN then none else some (compare x.key y.key)

def equal (x y : Ieee p) : Bool := x.order? y = some .eq

/-- The value of a finite number is its significand times two to the power of its exponent. Infinity
gets the first power of two beyond the finite numbers. -/
def significand (x : Ieee p) : Nat :=
  if x.magnitude < p.leadingOne then x.magnitude
  else p.leadingOne + x.magnitude % p.leadingOne

def exponent (x : Ieee p) : Int :=
  p.minExponent + ((x.magnitude / p.leadingOne - 1 : Nat) : Int)

def quietNaN : Ieee p := assemble false (p.infinity + p.leadingOne / 2)

/-- Toward zero, and to the nearest end of the range if the value lies outside of it. Not a number
gives zero. -/
def toInt64 (x : Ieee p) : Int64 :=
  let whole : Nat := x.significand <<< x.exponent.toNat >>> (-x.exponent).toNat
  let value : Int := if x.isNegative then -whole else whole
  if x.isNaN then 0 else Int64.ofInt (max Int64.minValue.toInt (min value Int64.maxValue.toInt))

/-- Half of `n` taken `k` times, to the nearest whole number, ties to the even one. -/
def roundShift (n k : Nat) : Nat :=
  let whole := n >>> k
  let unit := 1 <<< k
  let rest := n % unit
  if 2 * rest < unit || (2 * rest = unit && whole % 2 = 0) then whole else whole + 1

/-- The number nearest to `m` times two to the power of `e`. The last place is the one that leaves
room for a whole significand, or the lowest there is. A significand that rounds up to the next power
of two carries into the exponent, and a value beyond the finite numbers ends at infinity. -/
def ofScaled (p : Precision) (negative : Bool) (m : Nat) (e : Int) : Ieee p :=
  if m = 0 then assemble negative 0
  else
    let last := max (e + m.log2 - p.fractionBits) p.minExponent
    let places := roundShift (m <<< (e - last).toNat) (last - e).toNat
    let magnitude := (last - p.minExponent).toNat * p.leadingOne + places
    assemble negative (min magnitude p.infinity)

def ofInt (p : Precision) (i : Int) : Ieee p := ofScaled p (i < 0) i.natAbs 0

def convert {p : Precision} (q : Precision) (x : Ieee p) : Ieee q :=
  if x.isNaN then quietNaN
  else if x.isInfinite then assemble x.isNegative q.infinity
  else ofScaled q x.isNegative x.significand x.exponent

end Ieee

end DalvikFlow
