import TensorInference.Binary.Format

/-!
# Floating-point arithmetic

Each operation computes its exact result and rounds it once. A sum that is exactly zero is negative
only if both operands are.

Operations hand on an operand that is not a number, the first of two such operands, with its sign
and payload; an operation on numbers that has no result gives `Format.invalid`. So the sign of a
result that is not a number tells where it came from, and `Format.totalKey` ranks by it.
-/

namespace TensorInference.Binary.Format

def negate (f : Format) (bits : Nat) : Nat :=
  f.withSign (!f.isNegative bits) (f.magnitude bits)

/-- The pattern that stands for the missing result of an invalid operation: quiet and negative. -/
def invalid (f : Format) : Nat :=
  f.withSign true f.quietNaN

/-- Carry a pattern that is not a number over to format `g`. It keeps its sign and the leading part
of its payload, and becomes quiet. -/
def carryNaN (f g : Format) (bits : Nat) : Nat :=
  let payload := f.magnitude bits % (f.hiddenBit / 2)
  let moved := if f.precision ≤ g.precision then payload <<< (g.precision - f.precision)
    else payload >>> (f.precision - g.precision)
  g.withSign (f.isNegative bits) (g.quietNaN + moved)

def signedValue (negative : Bool) (significand : Nat) : Int :=
  if negative then -(significand : Int) else significand

def add (f : Format) (a b : Nat) : Nat :=
  match f.unpack a, f.unpack b with
  | .nan, _ => f.carryNaN f a
  | _, .nan => f.carryNaN f b
  | .infinite s, .infinite t => if s = t then f.withSign s f.infinity else f.invalid
  | .infinite s, .finite .. => f.withSign s f.infinity
  | .finite .., .infinite t => f.withSign t f.infinity
  | .finite s m d, .finite t n e =>
    let exponent := min d e
    let sum := signedValue s (m <<< (d - exponent).toNat) +
      signedValue t (n <<< (e - exponent).toNat)
    let negative := if sum = 0 then s && t else decide (sum < 0)
    f.withSign negative (f.roundScaled sum.natAbs exponent)

/-- The rounded difference. A subtrahend that is not a number keeps its sign. -/
def sub (f : Format) (a b : Nat) : Nat :=
  match f.unpack b with
  | .nan => f.add a b
  | _ => f.add a (f.negate b)

def mul (f : Format) (a b : Nat) : Nat :=
  match f.unpack a, f.unpack b with
  | .nan, _ => f.carryNaN f a
  | _, .nan => f.carryNaN f b
  | .infinite s, .infinite t => f.withSign (s != t) f.infinity
  | .infinite s, .finite t n _ =>
    if n = 0 then f.invalid else f.withSign (s != t) f.infinity
  | .finite s m _, .infinite t =>
    if m = 0 then f.invalid else f.withSign (s != t) f.infinity
  | .finite s m d, .finite t n e =>
    f.withSign (s != t) (f.roundScaled (m * n) (d + e))

def div (f : Format) (a b : Nat) : Nat :=
  match f.unpack a, f.unpack b with
  | .nan, _ => f.carryNaN f a
  | _, .nan => f.carryNaN f b
  | .infinite _, .infinite _ => f.invalid
  | .infinite s, .finite t _ _ => f.withSign (s != t) f.infinity
  | .finite s _ _, .infinite t => f.withSign (s != t) 0
  | .finite s m d, .finite t n e =>
    if n = 0 then
      if m = 0 then f.invalid else f.withSign (s != t) f.infinity
    else
      let exponent := d - e
      f.withSign (s != t)
        (if 0 ≤ exponent then f.roundRatio (m <<< exponent.toNat) n
          else f.roundRatio m (n <<< (-exponent).toNat))

/-- The number of format `g` nearest to a number of format `f`. What is not a number is carried
over. -/
def convert (f g : Format) (bits : Nat) : Nat :=
  match f.unpack bits with
  | .nan => f.carryNaN g bits
  | .infinite negative => g.withSign negative g.infinity
  | .finite negative significand exponent =>
    g.withSign negative (g.roundScaled significand exponent)

/-- The place of a pattern in the total order: negative patterns by falling magnitude, then
positive ones by rising magnitude. Minus zero comes before zero, and patterns that are not numbers
lie beyond the infinities of their sign. -/
def totalKey (f : Format) (bits : Nat) : Int :=
  if f.isNegative bits then -1 - (f.magnitude bits : Int) else f.magnitude bits

end TensorInference.Binary.Format
