/-!
# Decimal numerals

Natural numbers are written in decimal without leading zeros. Reading is more generous than
writing: a plus sign may stand in front and leading zeros are allowed, so several texts name one
number. Directory names are read in this way.
-/

namespace TensorInference.Text

def digitValue (c : Char) : Option Nat :=
  if '0' ≤ c ∧ c ≤ '9' then some (c.toNat - '0'.toNat) else none

/-- Continue a decimal numeral whose digits so far have the value `value`. -/
def digitsValue (value : Nat) : List Char → Option Nat
  | [] => some value
  | c :: rest => (digitValue c).bind fun digit => digitsValue (10 * value + digit) rest

/-- Digits, at least one, after an optional plus sign. -/
def naturalValue : List Char → Option Nat
  | [] => none
  | '+' :: c :: rest => digitsValue 0 (c :: rest)
  | c :: rest => digitsValue 0 (c :: rest)

def word64? (text : String) : Option UInt64 :=
  (naturalValue text.toList).bind fun value =>
    if value < UInt64.size then some (UInt64.ofNat value) else none

end TensorInference.Text
