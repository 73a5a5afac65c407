import TensorInference.Bytes
import TensorInference.Binary.Arithmetic
import TensorInference.Binary.Shortest

/-!
# Numerals

A numeral is the written form of a number: sign, whole digits, digits after a point, and an
exponent. Its value is an integer when it is written as one and fits into 64 bits, and a
double-precision number otherwise.

The double-precision value is found in machine arithmetic: the leading digits that fit into 64
bits are rounded to a double once, and the result is multiplied or divided by one power of ten,
or divided by two of them when it is very small. Each of these steps rounds, so the value can
differ from the correctly rounded one in the last place. A result beyond the largest double is
refused.
-/

namespace TensorInference.Json

open Binary

inductive ExponentSign where
  | absent
  | plus
  | minus
  deriving DecidableEq, Repr

/-- The written form of a number. Digits are ASCII bytes; no fraction digits means no point. -/
structure Numeral where
  negative : Bool
  whole : Bytes
  fraction : Bytes
  exponent : Option (ExponentSign × Bytes)
  deriving DecidableEq, Repr

inductive Number where
  | natural (n : UInt64)
  | negative (n : Int64)
  /-- A double-precision number, by its pattern. -/
  | real (bits : Nat)
  deriving DecidableEq

namespace Numeral

def digitBytes (n : Nat) : Bytes :=
  (Nat.toDigits 10 n).map fun c => UInt8.ofNat c.toNat

def isDigit (b : UInt8) : Bool :=
  0x30 ≤ b && b ≤ 0x39

def digitOf (b : UInt8) : Nat :=
  b.toNat - 0x30

def ofNat (n : Nat) : Numeral :=
  ⟨false, digitBytes n, [], none⟩

def ofInt (n : Int) : Numeral :=
  ⟨n < 0, digitBytes n.natAbs, [], none⟩

/-- The byte that marks the sign of an exponent, if one is written. -/
def signBytes : ExponentSign → Bytes
  | .absent => []
  | .plus => [0x2b]
  | .minus => [0x2d]

def print (n : Numeral) : Bytes :=
  (if n.negative then [0x2d] else []) ++ n.whole ++
    (if n.fraction = [] then [] else 0x2e :: n.fraction) ++
    match n.exponent with
    | none => []
    | some (sign, digits) => 0x65 :: signBytes sign ++ digits

def text (n : Numeral) : String :=
  (Bytes.text? n.print).getD ""

/-- Where positional notation is used: from the first to the last exponent of the leading digit. -/
structure Layout where
  positionalFrom : Int
  positionalTo : Int

/-- Write a decimal with its leading digit at the place that its exponent gives, or in scientific
notation when that place is outside the layout's range. -/
def ofDecimal (layout : Layout) (negative : Bool) (d : Decimal) : Numeral :=
  let digits := digitBytes d.digits
  let leading := d.exponent + digits.length - 1
  if layout.positionalFrom ≤ leading ∧ leading ≤ layout.positionalTo then
    if leading < 0 then
      ⟨negative, [0x30], List.replicate (-leading - 1).toNat 0x30 ++ digits, none⟩
    else
      let padded := digits ++ List.replicate d.exponent.toNat 0x30
      let cut := (leading + 1).toNat
      ⟨negative, padded.take cut, if padded.length ≤ cut then [0x30] else padded.drop cut, none⟩
  else
    ⟨negative, digits.take 1, digits.drop 1,
      some (if leading < 0 then .minus else .plus, digitBytes leading.natAbs)⟩

/-- Write a number of a binary format with the fewest digits that identify it. -/
def ofPattern (f : Format) (layout : Layout) (bits : Nat) : Option Numeral :=
  match f.unpack bits with
  | .finite negative significand exponent =>
    some (ofDecimal layout negative
      (if significand = 0 then ⟨0, 0⟩ else f.shortest significand exponent))
  | _ => none

def doubleLayout : Layout := ⟨-5, 15⟩

def singleLayout : Layout := ⟨-6, 12⟩

/-- Extend a significand digit by digit as long as it fits into 64 bits; the second component
counts the digits that are left over. -/
def absorb (significand : Nat) : Bytes → Nat × Nat
  | [] => (significand, 0)
  | d :: rest =>
    let next := 10 * significand + digitOf d
    if next < UInt64.size then absorb next rest else (significand, rest.length + 1)

def powerOfTen (n : Nat) : Nat :=
  double.ofNat (Nat.pow 10 n)

/-- Scale a 64-bit significand by a power of ten, step by step in double precision. Below
`10 ^ -616` two divisions leave nothing of any 64-bit significand. -/
def scale (significand : Nat) (exponent : Int) : Option Nat :=
  let value := double.ofNat significand
  if 308 < exponent then
    if significand = 0 then some 0 else none
  else if 0 ≤ exponent then
    let product := double.mul value (powerOfTen exponent.toNat)
    if double.isFinite product then some product else none
  else if -308 ≤ exponent then
    some (double.div value (powerOfTen (-exponent).toNat))
  else if -616 ≤ exponent then
    some (double.div (double.div value (powerOfTen 308)) (powerOfTen (-exponent - 308).toNat))
  else some 0

/-- The largest exponent that is read as a number. -/
def exponentLimit : Nat := (1 <<< 31) - 1

def digitsNat (digits : Bytes) : Nat :=
  digits.foldl (fun value d => 10 * value + digitOf d) 0

def realMagnitude (n : Numeral) : Option Nat :=
  let (significand, skipped) := absorb 0 n.whole
  let (significand, unused) := absorb significand n.fraction
  let shift : Int := skipped - (n.fraction.length - unused : Nat)
  match n.exponent with
  | none => scale significand shift
  | some (sign, digits) =>
    let exponent := digitsNat digits
    if exponentLimit < exponent then
      if significand ≠ 0 ∧ sign ≠ .minus then none else some 0
    else if sign = .minus then scale significand (shift - exponent)
    else scale significand (shift + exponent)

/-- The number that a numeral stands for; none when it is too large. -/
def value? (n : Numeral) : Option Number :=
  let (significand, skipped) := absorb 0 n.whole
  if n.fraction = [] ∧ n.exponent = none ∧ skipped = 0 then
    if n.negative then
      if 0 < significand ∧ significand ≤ 1 <<< 63 then
        some (.negative (Int64.ofInt (-significand)))
      else some (.real (double.withSign true (double.ofNat significand)))
    else some (.natural (UInt64.ofNat significand))
  else n.realMagnitude.map fun magnitude => .real (double.withSign n.negative magnitude)

end Numeral

end TensorInference.Json
