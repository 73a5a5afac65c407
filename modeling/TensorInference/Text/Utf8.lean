import TensorInference.Bytes

/-!
# Malformed UTF-8

Bytes that are not UTF-8 are described by the place of the first fault, and can be repaired by
putting the replacement character where no character can be read. Both follow one scanner, which
holds the bytes of the character under way and what may come next. A fault spans the bytes that
began a character, or one byte if that byte begins none.
-/

namespace TensorInference.Text.Utf8

/-- A character under way: its bytes so far, how many are owed, and what the next one may be. -/
structure Pending where
  bytes : Bytes
  owed : Nat
  low : UInt8
  high : UInt8

inductive Opening where
  | whole
  | lead (pending : Pending)
  | stray

def opening (b : UInt8) : Opening :=
  if b < 0x80 then .whole
  else if 0xc2 ≤ b && b ≤ 0xdf then .lead ⟨[b], 1, 0x80, 0xbf⟩
  else if b = 0xe0 then .lead ⟨[b], 2, 0xa0, 0xbf⟩
  else if b = 0xed then .lead ⟨[b], 2, 0x80, 0x9f⟩
  else if 0xe1 ≤ b && b ≤ 0xef then .lead ⟨[b], 2, 0x80, 0xbf⟩
  else if b = 0xf0 then .lead ⟨[b], 3, 0x90, 0xbf⟩
  else if b = 0xf4 then .lead ⟨[b], 3, 0x80, 0x8f⟩
  else if 0xf1 ≤ b && b ≤ 0xf3 then .lead ⟨[b], 3, 0x80, 0xbf⟩
  else .stray

def Pending.admits (pending : Pending) (b : UInt8) : Bool :=
  pending.low ≤ b && b ≤ pending.high

/-- The character under way after one more byte, or nothing when it is complete. -/
def Pending.push (pending : Pending) (b : UInt8) : Option Pending :=
  if pending.owed ≤ 1 then none
  else some ⟨pending.bytes ++ [b], pending.owed - 1, 0x80, 0xbf⟩

inductive Fault where
  /-- `width` bytes from `index` on belong to no character. -/
  | malformed (width index : Nat)
  /-- The string ends inside the character that starts at `index`. -/
  | incomplete (index : Nat)
  deriving DecidableEq, Repr

def Fault.message : Fault → String
  | .malformed width index => s!"invalid utf-8 sequence of {width} bytes from index {index}"
  | .incomplete index => s!"incomplete utf-8 byte sequence from index {index}"

/-- Look for the first fault; `index` is where the character under way, if any, starts. -/
def scan (index : Nat) : Option Pending → Bytes → Option Fault
  | none, [] => none
  | some _, [] => some (.incomplete index)
  | none, b :: rest =>
    match opening b with
    | .whole => scan (index + 1) none rest
    | .lead pending => scan index (some pending) rest
    | .stray => some (.malformed 1 index)
  | some pending, b :: rest =>
    if pending.admits b then
      match pending.push b with
      | none => scan (index + pending.bytes.length + 1) none rest
      | some more => scan index (some more) rest
    else some (.malformed pending.bytes.length index)

def fault? (bytes : Bytes) : Option Fault :=
  scan 0 none bytes

def replacement : Bytes := [0xef, 0xbf, 0xbd]

/-- The bytes and the character under way after a byte that stands between characters. -/
def restart (b : UInt8) : Bytes × Option Pending :=
  match opening b with
  | .whole => ([b], none)
  | .lead pending => ([], some pending)
  | .stray => (replacement, none)

/-- Write the replacement character in place of every fault. -/
def repairFrom : Option Pending → Bytes → Bytes
  | none, [] => []
  | some _, [] => replacement
  | none, b :: rest => (restart b).1 ++ repairFrom (restart b).2 rest
  | some pending, b :: rest =>
    if pending.admits b then
      match pending.push b with
      | none => pending.bytes ++ [b] ++ repairFrom none rest
      | some more => repairFrom (some more) rest
    else replacement ++ ((restart b).1 ++ repairFrom (restart b).2 rest)

/-- The text closest to a byte string. -/
def repair (bytes : Bytes) : String :=
  (Bytes.text? (repairFrom none bytes)).getD ""

def read (bytes : Bytes) : Except Fault String :=
  match Bytes.text? bytes with
  | some text => .ok text
  | none => .error ((fault? bytes).getD (.incomplete 0))

end TensorInference.Text.Utf8
