import TensorInference.Json.Fault

/-!
# Strings in JSON

Inside a string, the quote, the backslash and the control characters are written as escapes, and
everything else stands for itself. All three facts concern single bytes below 0x80, so writing and
reading work on the UTF-8 bytes of a text. A string whose content nobody needs is only skimmed:
its escapes must be well formed, but they may name half of a surrogate pair, and its bytes need
not be UTF-8.

Main statement: `content_escape` reads every written string back.
-/

namespace TensorInference.Json

def hexDigit (n : Nat) : UInt8 :=
  if n < 10 then UInt8.ofNat (0x30 + n) else UInt8.ofNat (0x57 + n)

/-- The value of a hexadecimal digit of either case. -/
def hexValue (b : UInt8) : Option Nat :=
  if 0x30 ≤ b ∧ b ≤ 0x39 then some (b.toNat - 0x30)
  else if 0x61 ≤ b ∧ b ≤ 0x66 then some (b.toNat - 0x57)
  else if 0x41 ≤ b ∧ b ≤ 0x46 then some (b.toNat - 0x37)
  else none

def hexValue4 (a b c d : UInt8) : Option Nat := do
  let a ← hexValue a
  let b ← hexValue b
  let c ← hexValue c
  let d ← hexValue d
  return 4096 * a + 256 * b + 16 * c + d

def escapeByte (b : UInt8) : Bytes :=
  if b = 0x22 then [0x5c, 0x22]
  else if b = 0x5c then [0x5c, 0x5c]
  else if b = 0x08 then [0x5c, 0x62]
  else if b = 0x09 then [0x5c, 0x74]
  else if b = 0x0a then [0x5c, 0x6e]
  else if b = 0x0c then [0x5c, 0x66]
  else if b = 0x0d then [0x5c, 0x72]
  else if b < 0x20 then
    [0x5c, 0x75, 0x30, 0x30, hexDigit (b.toNat / 16), hexDigit (b.toNat % 16)]
  else [b]

def escape (bytes : Bytes) : Bytes :=
  bytes.flatMap escapeByte

/-- The UTF-8 form of a code point below 0x110000. -/
def codePointBytes (n : Nat) : Bytes :=
  if n < 0x80 then [UInt8.ofNat n]
  else if n < 0x800 then [UInt8.ofNat (0xc0 + n / 64), UInt8.ofNat (0x80 + n % 64)]
  else if n < 0x10000 then
    [UInt8.ofNat (0xe0 + n / 4096), UInt8.ofNat (0x80 + n / 64 % 64), UInt8.ofNat (0x80 + n % 64)]
  else
    [UInt8.ofNat (0xf0 + n / 262144), UInt8.ofNat (0x80 + n / 4096 % 64),
      UInt8.ofNat (0x80 + n / 64 % 64), UInt8.ofNat (0x80 + n % 64)]

def simpleEscape (letter : UInt8) : Option UInt8 :=
  if letter = 0x22 ∨ letter = 0x5c ∨ letter = 0x2f then some letter
  else if letter = 0x62 then some 0x08
  else if letter = 0x66 then some 0x0c
  else if letter = 0x6e then some 0x0a
  else if letter = 0x72 then some 0x0d
  else if letter = 0x74 then some 0x09
  else none

def isLeading (unit : Nat) : Bool :=
  0xd800 ≤ unit && unit ≤ 0xdbff

def isTrailing (unit : Nat) : Bool :=
  0xdc00 ≤ unit && unit ≤ 0xdfff

def pairValue (leading trailing : Nat) : Nat :=
  (leading - 0xd800) * 0x400 + (trailing - 0xdc00) + 0x10000

def prepend (front : Bytes) : Except Fault (Bytes × Bytes) → Except Fault (Bytes × Bytes)
  | .ok (content, rest) => .ok (front ++ content, rest)
  | .error fault => .error fault

/-- The content of a string and what follows its closing quote; the opening quote is already
read. -/
def content : Bytes → Except Fault (Bytes × Bytes)
  | [] => .error .endInString
  | b :: rest =>
    if b = 0x22 then .ok ([], rest)
    else if b = 0x5c then
      match rest with
      | [] => .error .endInString
      | letter :: more =>
        if letter = 0x75 then
          match more with
          | h₁ :: h₂ :: h₃ :: h₄ :: tail =>
            match hexValue4 h₁ h₂ h₃ h₄ with
            | none => .error .invalidEscape
            | some unit =>
              if isTrailing unit then .error .loneSurrogate
              else if isLeading unit then
                match tail with
                | [] => .error .endInString
                | slash :: tail =>
                  if slash ≠ 0x5c then .error .unpairedEscape
                  else match tail with
                  | [] => .error .endInString
                  | u :: tail =>
                    if u ≠ 0x75 then .error .unpairedEscape
                    else match tail with
                    | k₁ :: k₂ :: k₃ :: k₄ :: tail =>
                      match hexValue4 k₁ k₂ k₃ k₄ with
                      | none => .error .invalidEscape
                      | some second =>
                        if isTrailing second then
                          prepend (codePointBytes (pairValue unit second)) (content tail)
                        else .error .loneSurrogate
                    | _ => .error .endInString
              else prepend (codePointBytes unit) (content tail)
          | _ => .error .endInString
        else match simpleEscape letter with
          | some byte => prepend [byte] (content more)
          | none => .error .invalidEscape
    else if b < 0x20 then .error .controlCharacter
    else prepend [b] (content rest)

/-- What follows the closing quote of a string whose content is not needed. -/
def skimContent : Bytes → Except Fault Bytes
  | [] => .error .endInString
  | b :: rest =>
    if b = 0x22 then .ok rest
    else if b = 0x5c then
      match rest with
      | [] => .error .endInString
      | letter :: more =>
        if letter = 0x75 then
          match more with
          | h₁ :: h₂ :: h₃ :: h₄ :: tail =>
            if (hexValue4 h₁ h₂ h₃ h₄).isSome then skimContent tail else .error .invalidEscape
          | _ => .error .endInString
        else if (simpleEscape letter).isSome then skimContent more
        else .error .invalidEscape
    else if b < 0x20 then .error .controlCharacter
    else skimContent rest

/-- A string as met in a text: its content, or why it has none; what skimming it finds; and its
bytes up to the first quote, which is how a numeric key is read. -/
structure Token where
  text : Except Fault String
  skimmed : Except Fault Unit
  raw : Bytes
  /-- Whether `raw` ends at a quote and not at the end of the input. -/
  quoted : Bool

/-- Read the token that starts after an opening quote, and what follows it. Nothing follows a token
that cannot even be skimmed. -/
def readToken (s : Bytes) : Token × Bytes :=
  let raw := s.takeWhile (· ≠ 0x22)
  let quoted := !(s.dropWhile (· ≠ 0x22)).isEmpty
  let text := match content s with
    | .error fault => .error fault
    | .ok (bytes, _) => match Bytes.text? bytes with
      | some text => .ok text
      | none => .error .invalidCodePoint
  match skimContent s with
  | .error fault => (⟨text, .error fault, raw, quoted⟩, [])
  | .ok rest => (⟨text, .ok (), raw, quoted⟩, rest)

private theorem hexValue4_control :
    ∀ n : Fin 32, hexValue4 0x30 0x30 (hexDigit (n.val / 16)) (hexDigit (n.val % 16)) = some n.val ∧
      isTrailing n.val = false ∧ isLeading n.val = false := by
  decide

theorem content_quote (s : Bytes) : content (0x22 :: s) = .ok ([], s) := by
  rw [content.eq_def]
  simp

theorem content_plain {b : UInt8} (s : Bytes) (hquote : b ≠ 0x22) (hslash : b ≠ 0x5c)
    (hcontrol : ¬ b < 0x20) : content (b :: s) = prepend [b] (content s) := by
  rw [content.eq_def]
  simp [hquote, hslash, hcontrol]

theorem content_letter {letter byte : UInt8} (s : Bytes) (h : simpleEscape letter = some byte) :
    content (0x5c :: letter :: s) = prepend [byte] (content s) := by
  have hletter : letter ≠ 0x75 := by
    rintro rfl
    exact nomatch (show none = some byte from h)
  rw [content.eq_def]
  simp [hletter, h]

/-- An escaped byte is read back in front of whatever follows it. -/
theorem content_escapeByte (b : UInt8) (s : Bytes) :
    content (escapeByte b ++ s) = prepend [b] (content s) := by
  by_cases h22 : b = 0x22
  · subst h22; exact content_letter s rfl
  by_cases h5c : b = 0x5c
  · subst h5c; exact content_letter s rfl
  by_cases h08 : b = 0x08
  · subst h08; exact content_letter s rfl
  by_cases h09 : b = 0x09
  · subst h09; exact content_letter s rfl
  by_cases h0a : b = 0x0a
  · subst h0a; exact content_letter s rfl
  by_cases h0c : b = 0x0c
  · subst h0c; exact content_letter s rfl
  by_cases h0d : b = 0x0d
  · subst h0d; exact content_letter s rfl
  by_cases hcontrol : b < 0x20
  · have hlt : b.toNat < 32 := UInt8.lt_iff_toNat_lt.1 hcontrol
    obtain ⟨hhex, htrailing, hleading⟩ := hexValue4_control ⟨b.toNat, hlt⟩
    have hbytes : codePointBytes b.toNat = [b] := by
      have : b.toNat < 0x80 := by omega
      simp [codePointBytes, this]
    have hescape : escapeByte b =
        [0x5c, 0x75, 0x30, 0x30, hexDigit (b.toNat / 16), hexDigit (b.toNat % 16)] := by
      simp [escapeByte, h22, h5c, h08, h09, h0a, h0c, h0d, hcontrol]
    simp only at hhex htrailing hleading
    rw [hescape]
    change content (_ :: _ :: _ :: _ :: _ :: _ :: s) = _
    rw [content.eq_def]
    simp [hhex, htrailing, hleading, hbytes]
  · have hescape : escapeByte b = [b] := by
      simp [escapeByte, h22, h5c, h08, h09, h0a, h0c, h0d, hcontrol]
    rw [hescape]
    exact content_plain s h22 h5c hcontrol

/-- Every written string is read back. -/
theorem content_escape (bytes rest : Bytes) :
    content (escape bytes ++ 0x22 :: rest) = .ok (bytes, rest) := by
  induction bytes with
  | nil => exact content_quote rest
  | cons b bytes ih =>
    have hstep := content_escapeByte b (escape bytes ++ 0x22 :: rest)
    rw [ih] at hstep
    simpa [escape, prepend] using hstep

end TensorInference.Json
