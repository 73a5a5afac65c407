import TensorInference.Binary.Format

/-!
# Shortest decimals

A finite positive number is written with the fewest significant digits that still round to it, and
among those with the digits nearest to its exact value; an exact tie goes to the even last digit.
The numbers that round to a pattern form an interval around it, whose ends belong to it exactly
when the significand is even. A grid of decimals with a fixed number of digits meets the interval
only if one of the two grid points around the value does, so the search looks at those two.
-/

namespace TensorInference.Binary

def digitCount (n : Nat) : Nat :=
  (Nat.toDigits 10 n).length

/-- The exponent of the greatest power of ten not above a positive ratio. -/
def log10Ratio (num den : Nat) : Int :=
  if den ≤ num then (digitCount (num / den) : Int) - 1
  else -(digitCount ((den + num - 1) / num - 1) : Int)

structure Decimal where
  digits : Nat
  exponent : Int
  deriving DecidableEq, Repr

/-- The numbers that round to one pattern, as ratios over `den`. -/
structure RoundingInterval where
  low : Nat
  value : Nat
  high : Nat
  den : Nat
  /-- Whether the two ends belong to the interval. -/
  closed : Bool
  deriving DecidableEq, Repr

namespace RoundingInterval

/-- The interval of a positive significand at an exponent. Below a power of two the neighbours are
twice as close, so the lower end is nearer. -/
def of (f : Format) (significand : Nat) (exponent : Int) : RoundingInterval :=
  let below := if significand = f.hiddenBit ∧ f.leastExponent < exponent then 1 else 2
  let quarter := exponent - 2
  let scale := if 0 ≤ quarter then 1 <<< quarter.toNat else 1
  { low := (4 * significand - below) * scale
    value := 4 * significand * scale
    high := (4 * significand + 2) * scale
    den := if 0 ≤ quarter then 1 else 1 <<< (-quarter).toNat
    closed := significand % 2 = 0 }

/-- The same interval measured in units of a power of ten. -/
def scaled (interval : RoundingInterval) (power : Int) : RoundingInterval :=
  if 0 ≤ power then { interval with den := interval.den * Nat.pow 10 power.toNat }
  else
    let factor := Nat.pow 10 (-power).toNat
    { interval with
      low := interval.low * factor
      value := interval.value * factor
      high := interval.high * factor }

def contains (interval : RoundingInterval) (n : Nat) : Bool :=
  let point := n * interval.den
  (interval.low < point && point < interval.high) ||
    (interval.closed && (point = interval.low || point = interval.high))

/-- How far an integer is from the value, in units of one over `den`. -/
def distance (interval : RoundingInterval) (n : Nat) : Nat :=
  ((n * interval.den : Int) - interval.value).natAbs

/-- The integer in the interval that is nearest to the value, if the interval holds one. -/
def nearest? (interval : RoundingInterval) : Option Nat :=
  let n := interval.value / interval.den
  match interval.contains n, interval.contains (n + 1) with
  | false, false => none
  | true, false => some n
  | false, true => some (n + 1)
  | true, true =>
    if interval.distance n < interval.distance (n + 1) then some n
    else if interval.distance (n + 1) < interval.distance n then some (n + 1)
    else some (n + n % 2)

end RoundingInterval

/-- Try `count` digits, then one more, for `steps` lengths. -/
def shortestFrom (interval : RoundingInterval) (leading : Int) : Nat → Nat → Option Decimal
  | 0, _ => none
  | steps + 1, count =>
    let power := leading + 1 - count
    match (interval.scaled power).nearest? with
    | some digits => some ⟨digits, power⟩
    | none => shortestFrom interval leading steps (count + 1)

/-- Move trailing zeros of the digits into the exponent. -/
def Decimal.normalize (d : Decimal) : Decimal :=
  let digits := Nat.toDigits 10 d.digits
  let zeros := (digits.reverse.takeWhile (· = '0')).length
  if zeros = digits.length then d
  else ⟨d.digits / Nat.pow 10 zeros, d.exponent + zeros⟩

/-- The shortest decimal that rounds to a positive significand at an exponent. Seventeen digits
identify a number of every format here. -/
def Format.shortest (f : Format) (significand : Nat) (exponent : Int) : Decimal :=
  let interval := RoundingInterval.of f significand exponent
  let leading := log10Ratio interval.value interval.den
  ((shortestFrom interval leading 17 1).getD ⟨0, 0⟩).normalize

end TensorInference.Binary
