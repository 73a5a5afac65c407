/-!
# Bytes

Tensor contents, wire texts and files are lists of bytes. This module ties them to text and to
natural numbers in little-endian order.
-/

namespace TensorInference

/-- Raw bytes, first byte first. -/
abbrev Bytes := List UInt8

namespace Bytes

def ofText (text : String) : Bytes :=
  text.toUTF8.data.toList

/-- The text that bytes hold, if they are UTF-8. -/
def text? (bytes : Bytes) : Option String :=
  String.fromUTF8? ⟨bytes.toArray⟩

/-- The natural number that bytes write in base 256, least significant byte first. -/
def toNat : Bytes → Nat
  | [] => 0
  | byte :: rest => byte.toNat + 256 * toNat rest

/-- The low `width` base-256 digits of a number, least significant byte first. -/
def ofNat : Nat → Nat → Bytes
  | 0, _ => []
  | width + 1, value => UInt8.ofNat (value % 256) :: ofNat width (value / 256)

@[simp]
theorem length_ofNat (width value : Nat) : (ofNat width value).length = width := by
  induction width generalizing value with
  | zero => rfl
  | succ width ih => simp [ofNat, ih]

theorem ofNat_toNat (bytes : Bytes) : ofNat bytes.length (toNat bytes) = bytes := by
  induction bytes with
  | nil => rfl
  | cons byte rest ih =>
    have hbyte : byte.toNat < 256 := byte.toNat_lt
    have hlow : (byte.toNat + 256 * toNat rest) % 256 = byte.toNat := by omega
    have hhigh : (byte.toNat + 256 * toNat rest) / 256 = toNat rest := by omega
    simp [toNat, ofNat, hlow, hhigh, ih]

theorem text?_ofText (text : String) : text? (ofText text) = some text := by
  have hvalid : text.toUTF8.IsValidUTF8 := text.isValidUTF8
  simp only [text?, ofText, Array.toArray_toList]
  unfold String.fromUTF8?
  rw [dif_pos hvalid]
  rfl

end Bytes

end TensorInference
