import TensorInference.Bytes

/-!
# Identifiers

A server whose options give it no name is named by a random identifier: sixteen bytes in
hexadecimal, in five groups, with the six bits set that mark identifiers made at random.
-/

namespace TensorInference.Server.Identifier

def digits (byte : UInt8) : List Char :=
  [Nat.digitChar (byte.toNat / 16), Nat.digitChar (byte.toNat % 16)]

/-- Set the marks of an identifier made at random. -/
def mark (bytes : Bytes) : Bytes :=
  (bytes.modify 6 fun byte => byte &&& 0x0f ||| 0x40).modify 8 fun byte => byte &&& 0x3f ||| 0x80

/-- Cut a list into groups of given lengths. -/
def groups {α : Type} : List Nat → List α → List (List α)
  | [], _ => []
  | length :: lengths, items => items.take length :: groups lengths (items.drop length)

/-- The identifier made of sixteen random bytes. -/
def ofBytes (bytes : Bytes) : String :=
  let parts := groups [4, 2, 2, 2, 6] (mark bytes)
  "-".intercalate (parts.map fun part => String.ofList (part.flatMap digits))

end TensorInference.Server.Identifier
