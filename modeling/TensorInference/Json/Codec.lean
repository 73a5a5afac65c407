import TensorInference.Json.Value
import TensorInference.OrderedMap

/-!
# Codecs

A codec says how a type is written as a JSON value and how it is taken out of a tree. Codecs of
composite types are built from those of their parts. Decoding walks the tree in the order of the
text and stops at the first fault, so the fault that is told does not depend on what comes later.
-/

namespace TensorInference.Json

/-- How values of a type are written and read. -/
structure Codec (α : Type) where
  encode : α → Value
  decode : Node → Except Fault α

namespace Codec

variable {α : Type}

def write (codec : Codec α) (a : α) : Bytes :=
  (codec.encode a).print

def writeText (codec : Codec α) (a : α) : String :=
  (codec.encode a).text

def read (codec : Codec α) (text : Bytes) : Except Fault α := do
  let document := Document.read text
  let a ← codec.decode document.root
  if document.ends then .ok a else .error .trailingCharacters

def number (wanted : String) : Node → Except Fault Number
  | .number numeral =>
    match numeral.value? with
    | some number => .ok number
    | none => .error .numberOutOfRange
  | node => .error (node.mismatch wanted)

def boundedNatural (wanted : String) (limit : Nat) (n : Number) : Except Fault Nat :=
  match n with
  | .natural n =>
    if n.toNat < limit then .ok n.toNat
    else .error (.wrongValue (.integer n.toNat) wanted)
  | .negative n => .error (.wrongValue (.integer n.toInt) wanted)
  | .real bits => .error (.wrongType (.real bits) wanted)

/-- Natural numbers of 64 bits, under the name that faults give them. -/
def word64As (wanted : String) : Codec UInt64 where
  encode n := .number (.ofNat n.toNat)
  decode node := do
    let n ← number wanted node
    UInt64.ofNat <$> boundedNatural wanted UInt64.size n

def word64 : Codec UInt64 := word64As "u64"

def size : Codec UInt64 := word64As "usize"

def word32 : Codec UInt32 where
  encode n := .number (.ofNat n.toNat)
  decode node := do
    let n ← number "u32" node
    UInt32.ofNat <$> boundedNatural "u32" UInt32.size n

def integer64 : Codec Int64 where
  encode n := .number (.ofInt n.toInt)
  decode node := do
    match ← number "i64" node with
    | .natural n =>
      if n.toNat < 1 <<< 63 then .ok (Int64.ofInt n.toNat)
      else .error (.wrongValue (.integer n.toNat) "i64")
    | .negative n => .ok n
    | .real bits => .error (.wrongType (.real bits) "i64")

/-- Single-precision numbers, by their patterns. What is not a number is written as null. -/
def single : Codec UInt32 where
  encode bits :=
    match Numeral.ofPattern Binary.single Numeral.singleLayout bits.toNat with
    | some numeral => .number numeral
    | none => .null
  decode node := do
    match ← number "f32" node with
    | .natural n => .ok (UInt32.ofNat (Binary.single.ofNat n.toNat))
    | .negative n => .ok (UInt32.ofNat (Binary.single.ofInt n.toInt))
    | .real bits => .ok (UInt32.ofNat (Binary.double.convert Binary.single bits))

def boolean : Codec Bool where
  encode := .boolean
  decode
    | .boolean b => .ok b
    | node => .error (node.mismatch "a boolean")

/-- Texts, under the name that faults give them. -/
def textAs (wanted : String) : Codec String where
  encode := .string
  decode
    | .string token => token.text
    | node => .error (node.mismatch wanted)

def text : Codec String := textAs "a string"

def path : Codec String := textAs "path string"

/-- Read the items of a list up to its closing bracket. -/
def decodeItems (codec : Codec α) : Items → Except Fault (List α)
  | .done => .ok []
  | .cut cause => .error cause.fault
  | .more item rest => do
    let a ← codec.decode item
    let as ← decodeItems codec rest
    return a :: as

def list (codec : Codec α) : Codec (List α) where
  encode as := .array (as.map codec.encode)
  decode
    | .array items => codec.decodeItems items
    | node => .error (node.mismatch "a sequence")

/-- A value that may be missing, in which case null is written. -/
def option (codec : Codec α) : Codec (Option α) where
  encode
    | some a => codec.encode a
    | none => .null
  decode
    | .null => .ok none
    | node => some <$> codec.decode node

structure Key (κ : Type) where
  write : κ → String
  read : Token → Except Fault κ

def Key.text : Key String where
  write := id
  read key := key.text

/-- Read a key that is a number. A key is taken for a number if it starts like one, and nothing may
follow the number. -/
def readNumericKey {κ : Type} (ofNumber : Number → Except Fault κ) (key : Token) :
    Except Fault κ :=
  match key.raw with
  | [] => .error .keyNotNumber
  | b :: rest =>
    if b = 0x2d ∨ Numeral.isDigit b then
      match if b = 0x2d then readNumber true rest else readNumber false (b :: rest) with
      | (.number numeral, tail) =>
        match numeral.value? with
        | none => .error .numberOutOfRange
        | some n => do
          let k ← ofNumber n
          if tail = [] ∧ key.quoted then .ok k else .error .expectedQuote
      | (.badNumber atEnd, _) =>
        .error (if atEnd ∧ ¬ key.quoted then .endInValue else .invalidNumber)
      | _ => .error .keyNotNumber
    else .error .keyNotNumber

def Key.word32 : Key UInt32 where
  write n := toString n.toNat
  read := readNumericKey fun n => UInt32.ofNat <$> boundedNatural "u32" UInt32.size n

def Key.word64 : Key UInt64 where
  write n := toString n.toNat
  read := readNumericKey fun n => UInt64.ofNat <$> boundedNatural "u64" UInt64.size n

/-- Read the entries of a map up to its closing brace. -/
def decodeEntries {κ : Type} (key : Key κ) (codec : Codec α) :
    Members → Except Fault (List (κ × α))
  | .more token value rest => do
    let k ← key.read token
    let a ← codec.decode value
    let entries ← decodeEntries key codec rest
    return (k, a) :: entries
  | .bare token atEnd => do
    let _ ← key.read token
    .error (colonFault atEnd)
  | members =>
    match members.fault? with
    | some fault => .error fault
    | none => .ok []

/-- Maps in key order. The last of several entries with one key stays. -/
def map {κ : Type} [Ord κ] [Std.TransOrd κ] [Std.LawfulEqOrd κ] (key : Key κ)
    (codec : Codec α) : Codec (OrderedMap κ α) where
  encode m := .object (m.entries.map fun entry => (key.write entry.1, codec.encode entry.2))
  decode
    | .object members => OrderedMap.ofList <$> decodeEntries key codec members
    | node => .error (node.mismatch "a map")

/-- One of the alternatives of a type: its name, and what may stand with it. -/
inductive Alternative (α : Type) where
  /-- The name says everything; null may stand with it. -/
  | plain (name : String) (a : α)
  /-- The name comes with a content; a fault is told to those who write the name alone. -/
  | withContent (name : String) (wanted : String) (content : Node → Except Fault α)

namespace Alternative

def name : Alternative α → String
  | .plain name _ => name
  | .withContent name _ _ => name

def alone : Alternative α → Except Fault α
  | .plain _ a => .ok a
  | .withContent _ wanted _ => .error (.wrongType .unitVariant wanted)

def contained : Alternative α → Node → Except Fault α
  | .plain _ a, .null => .ok a
  | .plain .., node => .error (node.mismatch "unit")
  | .withContent _ _ content, node => content node

def find (alternatives : List (Alternative α)) (name : String) : Except Fault (Alternative α) :=
  match alternatives.find? (·.name = name) with
  | some alternative => .ok alternative
  | none => .error (.unknownVariant name (alternatives.map (·.name)))

/-- What must follow the only member of an object that names an alternative. -/
def closeMembers : Members → Except Fault Unit
  | .done => .ok ()
  | .ended => .error .endInObject
  | _ => .error .expectedValue

/-- Read a name, or an object whose only member has the name as its key. An object without members
lacks a value. -/
def decode (alternatives : List (Alternative α)) : Node → Except Fault α
  | .string token => do
    let name ← token.text
    (← find alternatives name).alone
  | .object (.more key value rest) => do
    let name ← key.text
    let alternative ← find alternatives name
    let a ← alternative.contained value
    closeMembers rest
    return a
  | .object (.bare key atEnd) => do
    let name ← key.text
    let _ ← find alternatives name
    .error (colonFault atEnd)
  | .object members => .error (members.fault?.getD .expectedValue)
  | .absent => .error .endInValue
  | _ => .error .expectedValue

end Alternative

def named (names : α → String) (all : List α) : Codec α where
  encode a := .string (names a)
  decode := Alternative.decode (all.map fun a => .plain (names a) a)

end Codec

end TensorInference.Json
