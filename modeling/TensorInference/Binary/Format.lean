/-!
# Binary floating-point formats

A format is fixed by its precision and by the width of its exponent field. A number is stored as a
pattern: the natural number that its bits write, sign bit first. `unpack` gives the exact value of
a pattern as an integer multiple of a power of two, and `roundRatio` rounds an exact nonnegative
ratio to the nearest pattern, ties to the even one. Everything is computed in exact integers, so
statements about rounding are statements about `Nat`.
-/

namespace TensorInference.Binary

/-- The parameters of a format. -/
structure Format where
  /-- Significand bits, the leading one included. -/
  precision : Nat
  exponentBits : Nat
  deriving DecidableEq, Repr

/-- Sixteen bits, eleven of them significant. -/
def half : Format := ⟨11, 5⟩

/-- Thirty-two bits, twenty-four of them significant. -/
def single : Format := ⟨24, 8⟩

/-- Sixty-four bits, fifty-three of them significant. -/
def double : Format := ⟨53, 11⟩

/-- The exact value of a pattern. -/
inductive Unpacked where
  | nan
  | infinite (negative : Bool)
  /-- The significand times two to the exponent. -/
  | finite (negative : Bool) (significand : Nat) (exponent : Int)
  deriving DecidableEq, Repr

namespace Format

def signBit (f : Format) : Nat :=
  1 <<< (f.precision - 1 + f.exponentBits)

/-- The weight of the lowest exponent bit, which is that of the hidden leading bit too. -/
def hiddenBit (f : Format) : Nat :=
  1 <<< (f.precision - 1)

/-- The pattern of positive infinity; larger magnitudes are not numbers. -/
def infinity (f : Format) : Nat :=
  ((1 <<< f.exponentBits) - 1) * f.hiddenBit

/-- The quiet pattern that carries neither a sign nor a payload. -/
def quietNaN (f : Format) : Nat :=
  f.infinity + f.hiddenBit / 2

def leastExponent (f : Format) : Int :=
  2 - (1 <<< (f.exponentBits - 1) : Nat) - ((f.precision - 1 : Nat) : Int)

def magnitude (f : Format) (bits : Nat) : Nat :=
  bits % f.signBit

def isNegative (f : Format) (bits : Nat) : Bool :=
  bits / f.signBit % 2 = 1

def withSign (f : Format) (negative : Bool) (magnitude : Nat) : Nat :=
  if negative then f.signBit + magnitude else magnitude

def unpack (f : Format) (bits : Nat) : Unpacked :=
  let size := f.magnitude bits
  let negative := f.isNegative bits
  if f.infinity < size then .nan
  else if size = f.infinity then .infinite negative
  else if size < f.hiddenBit then .finite negative size f.leastExponent
  else .finite negative (f.hiddenBit + size % f.hiddenBit)
    (f.leastExponent + (size / f.hiddenBit - 1 : Nat))

end Format

/-- The quotient rounded to the nearest integer, a half to the even one. -/
def roundDiv (num den : Nat) : Nat :=
  let q := num / den
  let r := num % den
  if 2 * r < den then q
  else if den < 2 * r then q + 1
  else q + q % 2

/-- The exponent of the greatest power of two not above a positive ratio. -/
def log2Ratio (num den : Nat) : Int :=
  let guess := (num.log2 : Int) - den.log2
  if 0 ≤ guess then
    if num < den <<< guess.toNat then guess - 1 else guess
  else
    if num <<< (-guess).toNat < den then guess - 1 else guess

namespace Format

/-- The magnitude of the number nearest to a ratio, ties to the even pattern. -/
def roundRatio (f : Format) (num den : Nat) : Nat :=
  if num = 0 then 0
  else
    let exponent := max f.leastExponent (log2Ratio num den - (f.precision - 1 : Nat))
    let significand :=
      if 0 ≤ exponent then roundDiv num (den <<< exponent.toNat)
      else roundDiv (num <<< (-exponent).toNat) den
    min f.infinity ((exponent - f.leastExponent).toNat * f.hiddenBit + significand)

/-- The magnitude of the number nearest to an integer multiple of a power of two. -/
def roundScaled (f : Format) (significand : Nat) (exponent : Int) : Nat :=
  if 0 ≤ exponent then f.roundRatio (significand <<< exponent.toNat) 1
  else f.roundRatio significand (1 <<< (-exponent).toNat)

def ofInt (f : Format) (value : Int) : Nat :=
  f.withSign (value < 0) (f.roundRatio value.natAbs 1)

def ofNat (f : Format) (value : Nat) : Nat :=
  f.roundRatio value 1

def isFinite (f : Format) (bits : Nat) : Bool :=
  f.magnitude bits < f.infinity

end Format

end TensorInference.Binary
