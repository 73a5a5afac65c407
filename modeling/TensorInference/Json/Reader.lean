import TensorInference.Json.Node

/-!
# Reading JSON

`Document.read` reads a whole text into a `Node` and notes whether anything but blanks follows it.
Reading never fails: the faults of the text are kept in the tree. The reader is given more steps
than it can use, because every second step takes a byte off the text.
-/

namespace TensorInference.Json

/-- The four blanks that may stand between tokens. -/
def isBlank (b : UInt8) : Bool :=
  b = 0x20 || b = 0x0a || b = 0x09 || b = 0x0d

def skipBlanks (s : Bytes) : Bytes :=
  s.dropWhile isBlank

/-- Read the rest of a word whose first letter told what it should be. -/
def readWord (value : Node) : Bytes → Bytes → Node × Bytes
  | [], s => (value, s)
  | _ :: _, [] => (.broken .endInValue, [])
  | letter :: word, b :: s => if b = letter then readWord value word s else (.broken .expectedWord, [])

def digits (s : Bytes) : Bytes × Bytes :=
  (s.takeWhile Numeral.isDigit, s.dropWhile Numeral.isDigit)

def readExponent (negative : Bool) (whole fraction : Bytes) (s : Bytes) : Node × Bytes :=
  match s with
  | [] => (.number ⟨negative, whole, fraction, none⟩, [])
  | b :: rest =>
    if b = 0x65 ∨ b = 0x45 then
      let (sign, tail) : ExponentSign × Bytes := match rest with
        | [] => (.absent, [])
        | c :: more =>
          if c = 0x2b then (.plus, more) else if c = 0x2d then (.minus, more) else (.absent, rest)
      match digits tail with
      | ([], tail) => (.badNumber tail.isEmpty, [])
      | (exponent, tail) => (.number ⟨negative, whole, fraction, some (sign, exponent)⟩, tail)
    else (.number ⟨negative, whole, fraction, none⟩, s)

def readFraction (negative : Bool) (whole : Bytes) (s : Bytes) : Node × Bytes :=
  match s with
  | [] => (.number ⟨negative, whole, [], none⟩, [])
  | b :: rest =>
    if b = 0x2e then
      match digits rest with
      | ([], tail) => (.badNumber tail.isEmpty, [])
      | (fraction, tail) => readExponent negative whole fraction tail
    else readExponent negative whole [] s

/-- Read a numeral after its sign. A leading zero stands alone. -/
def readNumber (negative : Bool) (s : Bytes) : Node × Bytes :=
  match digits s with
  | ([], tail) => (.badNumber tail.isEmpty, [])
  | (whole, tail) =>
    if whole.head? = some 0x30 ∧ whole.length ≠ 1 then (.badNumber false, [])
    else readFraction negative whole tail

mutual

def readNode : Nat → Bytes → Node × Bytes
  | 0, _ => (.absent, [])
  | fuel + 1, s =>
    match skipBlanks s with
    | [] => (.absent, [])
    | b :: rest =>
      if b = 0x6e then readWord .null [0x75, 0x6c, 0x6c] rest
      else if b = 0x74 then readWord (.boolean true) [0x72, 0x75, 0x65] rest
      else if b = 0x66 then readWord (.boolean false) [0x61, 0x6c, 0x73, 0x65] rest
      else if b = 0x2d then readNumber true rest
      else if Numeral.isDigit b then readNumber false (b :: rest)
      else if b = 0x22 then
        let (token, tail) := readToken rest
        (.string token, tail)
      else if b = 0x5b then
        let (items, tail) := readItems fuel true rest
        (.array items, tail)
      else if b = 0x7b then
        let (members, tail) := readMembers fuel true rest
        (.object members, tail)
      else (.junk, [])

/-- Read the items of a list up to its closing bracket; the first one has no comma before it. -/
def readItems : Nat → Bool → Bytes → Items × Bytes
  | 0, _, _ => (.cut .ended, [])
  | fuel + 1, first, s =>
    match skipBlanks s with
    | [] => (.cut .ended, [])
    | b :: rest =>
      if b = 0x5d then (.done, rest)
      else if first then
        let (item, tail) := readNode fuel (b :: rest)
        let (items, tail) := readItems fuel false tail
        (.more item items, tail)
      else if b = 0x2c then
        match skipBlanks rest with
        | [] => (.cut .endedAfterComma, [])
        | c :: tail =>
          if c = 0x5d then (.cut .trailingComma, [])
          else
            let (item, tail) := readNode fuel (c :: tail)
            let (items, tail) := readItems fuel false tail
            (.more item items, tail)
      else (.cut .missingComma, [])

def readMembers : Nat → Bool → Bytes → Members × Bytes
  | 0, _, _ => (.ended, [])
  | fuel + 1, first, s =>
    match skipBlanks s with
    | [] => (.ended, [])
    | b :: rest =>
      if b = 0x7d then (.done, rest)
      else if first then
        if b = 0x22 then readMember fuel rest
        else (.badKey, [])
      else if b = 0x2c then
        match skipBlanks rest with
        | [] => (.endedAfterComma, [])
        | c :: tail =>
          if c = 0x7d then (.trailingComma, [])
          else if c = 0x22 then readMember fuel tail
          else (.badKey, [])
      else (.missingComma, [])

/-- Read a member after the opening quote of its key, and the members that follow. -/
def readMember : Nat → Bytes → Members × Bytes
  | 0, _ => (.ended, [])
  | fuel + 1, s =>
    let (key, tail) := readToken s
    match skipBlanks tail with
    | [] => (.bare key true, [])
    | b :: rest =>
      if b = 0x3a then
        let (value, tail) := readNode fuel rest
        let (members, tail) := readMembers fuel false tail
        (.more key value members, tail)
      else (.bare key false, [])

end

/-- A text as read: its value, and whether only blanks follow. -/
structure Document where
  root : Node
  ends : Bool

def Document.read (s : Bytes) : Document :=
  let (root, rest) := readNode (3 * s.length + 3) s
  ⟨root, (skipBlanks rest).isEmpty⟩

end TensorInference.Json
