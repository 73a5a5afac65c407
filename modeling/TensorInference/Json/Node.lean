import TensorInference.Json.Text

/-!
# Texts as read

A reader that knows what it wants meets the faults of a text one after the other, and the first
one decides: a wrong kind of value early in a text is told before a missing bracket at its end. So
a text is first read into a tree that keeps each syntactic fault at the place where it was met,
and whoever takes the tree apart reports a fault when coming to it. `Node.skim` is the walk of a
reader that wants nothing: it meets every fault that a skimmed value can have.
-/

namespace TensorInference.Json

/-- Where the items of a list break off before the closing bracket. -/
inductive ListCut where
  | ended
  | endedAfterComma
  | trailingComma
  | missingComma
  deriving DecidableEq

mutual

/-- A value as read, with its faults in place. -/
inductive Node where
  | null
  | boolean (b : Bool)
  /-- A misspelt `null`, `true` or `false`. -/
  | broken (fault : Fault)
  /-- The text ends where a value should start. -/
  | absent
  /-- No value starts here. -/
  | junk
  | number (numeral : Numeral)
  /-- A number that breaks off, at the end of the text or before it. -/
  | badNumber (atEnd : Bool)
  | string (token : Token)
  | array (items : Items)
  | object (members : Members)

inductive Items where
  | done
  | cut (cause : ListCut)
  | more (item : Node) (rest : Items)

inductive Members where
  | done
  /-- The text ends before a comma or the closing brace. -/
  | ended
  | endedAfterComma
  | trailingComma
  | missingComma
  /-- Something other than a key stands where a key should. -/
  | badKey
  /-- The colon after a key is missing, at the end of the text or before it. -/
  | bare (key : Token) (atEnd : Bool)
  | more (key : Token) (value : Node) (rest : Members)

end

instance : Inhabited Node := ⟨.absent⟩

def colonFault (atEnd : Bool) : Fault :=
  if atEnd then .endInObject else .expectedColon

namespace ListCut

def fault : ListCut → Fault
  | .ended => .endInList
  | .endedAfterComma => .endInValue
  | .trailingComma => .trailingComma
  | .missingComma => .expectedCommaOrBracket

def skimFault : ListCut → Fault
  | .trailingComma => .expectedValue
  | cut => cut.fault

end ListCut

namespace Items

def close : Items → Except Fault Unit
  | .done => .ok ()
  | .cut .ended => .error .endInList
  | .cut .trailingComma => .error .trailingComma
  | _ => .error .trailingCharacters

end Items

mutual

/-- Walk over a value that nobody wants. -/
def Node.skim : Node → Except Fault Unit
  | .null | .boolean _ | .number _ => .ok ()
  | .broken fault => .error fault
  | .absent => .error .endInValue
  | .junk => .error .expectedValue
  | .badNumber _ => .error .invalidNumber
  | .string token => token.skimmed
  | .array items => items.skim
  | .object members => members.skim

def Items.skim : Items → Except Fault Unit
  | .done => .ok ()
  | .cut cause => .error cause.skimFault
  | .more item rest => do
    item.skim
    rest.skim

def Members.skim : Members → Except Fault Unit
  | .done => .ok ()
  | .ended | .endedAfterComma => .error .endInObject
  | .trailingComma | .badKey => .error .keyNotString
  | .missingComma => .error .expectedCommaOrBrace
  | .bare key atEnd => do
    key.skimmed
    .error (colonFault atEnd)
  | .more key value rest => do
    key.skimmed
    value.skim
    rest.skim

end

/-- What is told of a value that is not of the wanted kind. Faults inside a list or an object come
too late to be met. -/
def Node.mismatch (wanted : String) : Node → Fault
  | .null => .wrongType .null wanted
  | .boolean b => .wrongType (.boolean b) wanted
  | .broken fault => fault
  | .absent => .endInValue
  | .junk => .expectedValue
  | .number numeral =>
    match numeral.value? with
    | none => .numberOutOfRange
    | some (.natural n) => .wrongType (.integer n.toNat) wanted
    | some (.negative n) => .wrongType (.integer n.toInt) wanted
    | some (.real bits) => .wrongType (.real bits) wanted
  | .badNumber atEnd => if atEnd then .endInValue else .invalidNumber
  | .string token =>
    match token.text with
    | .ok text => .wrongType (.text text) wanted
    | .error fault => fault
  | .array _ => .wrongType .sequence wanted
  | .object _ => .wrongType .map wanted

/-- The fault met when looking for a member; none when there is nothing wrong. -/
def Members.fault? : Members → Option Fault
  | .done | .more .. => none
  | .ended => some .endInObject
  | .endedAfterComma => some .endInValue
  | .trailingComma => some .trailingComma
  | .missingComma => some .expectedCommaOrBrace
  | .badKey => some .keyNotString
  | .bare _ atEnd => some (colonFault atEnd)

end TensorInference.Json
