import DalvikFlow.Ieee.Basic
import DalvikFlow.Text.Numeral

/-! The shortest decimal that reads back: the fewest digits that no other number of the same
precision is nearer to, and of those the digits nearest to the value. -/
namespace DalvikFlow.Ieee

/-- A value and the ends of the interval that rounds to it, all in one unit. -/
structure Neighbourhood where
  low : Nat
  value : Nat
  high : Nat
  closed : Bool

namespace Neighbourhood

def contains (b : Neighbourhood) (n : Nat) : Bool :=
  if b.closed then b.low ≤ n && n ≤ b.high else b.low < n && n < b.high

/-- The multiple of a step in the interval that is nearest to the value, counted in steps. The value
halfway between two of them goes up. -/
def onGrid? (b : Neighbourhood) (step : Nat) : Option Nat :=
  let below := b.value / step
  match b.contains (below * step), b.contains ((below + 1) * step) with
  | true, true => some (if 2 * (b.value % step) < step then below else below + 1)
  | true, false => some below
  | false, true => some (below + 1)
  | false, false => none

/-- Digits and their power of ten, on the coarsest decimal grid up to the given one that meets the
interval. -/
def shortest (b : Neighbourhood) : Nat → Nat × Nat
  | 0 => (b.value, 0)
  | n + 1 =>
    match b.onGrid? (Nat.pow 10 (n + 1)) with
    | some digits => (digits, n + 1)
    | none => b.shortest n

end Neighbourhood

variable {p : Precision}

/-- The interval ends halfway to the neighbours. Below a power of two the neighbour is only half as
far, save at the low end of the range. The ends round to an even significand. -/
def neighbourhood (x : Ieee p) (scale : Nat) : Neighbourhood :=
  let m := 4 * x.significand
  let below := if x.significand = p.leadingOne && p.minExponent < x.exponent then 1 else 2
  ⟨(m - below) * scale, m * scale, (m + 2) * scale, x.significand % 2 = 0⟩

/-- Digits and the power of ten that they are multiplied with, for a finite number above zero. With as
many decimals as it has binary places, and two more for the ends, the interval is whole. -/
def shortestDigits (x : Ieee p) : Nat × Int :=
  let decimals := (2 - x.exponent).toNat
  let b := x.neighbourhood (Nat.pow 5 decimals <<< (x.exponent - 2).toNat)
  let (digits, power) := b.shortest (b.value.log2 / 3 + 1)
  (digits, power - decimals)

def positional (digits : Nat) (power : Int) : List Char :=
  let ds := Nat.toDigits 10 digits
  if 0 ≤ power then ds ++ List.replicate power.toNat '0'
  else
    let places := (-power).toNat
    let padded := ds.leftpad (places + 1) '0'
    padded.take (padded.length - places) ++ ['.'] ++ padded.drop (padded.length - places)

def magnitudeText (x : Ieee p) : String :=
  if x.isInfinite then "inf"
  else if x.magnitude = 0 then "0"
  else
    let (digits, power) := x.shortestDigits
    String.ofList (positional digits power)

def text (x : Ieee p) : String :=
  if x.isNaN then "NaN"
  else if x.isNegative then "-" ++ x.magnitudeText else x.magnitudeText

end DalvikFlow.Ieee
