import TensorInference.Json.Numeral
import TensorInference.Text.Quoted

/-!
# Faults of JSON texts

A text is refused for the first fault that a reader meets, whether the text is malformed there or
holds the wrong kind of value. Faults are causes; `Fault.message` words them.
-/

namespace TensorInference.Json

inductive Found where
  | null
  | boolean (b : Bool)
  | integer (n : Int)
  | real (bits : Nat)
  | text (s : String)
  | sequence
  | map
  | unitVariant
  deriving DecidableEq

inductive Fault where
  | endInValue
  | endInList
  | endInObject
  | endInString
  | expectedValue
  | expectedWord
  | expectedColon
  | expectedCommaOrBracket
  | expectedCommaOrBrace
  | expectedQuote
  | keyNotString
  | keyNotNumber
  | trailingComma
  | trailingCharacters
  | invalidNumber
  | numberOutOfRange
  | invalidEscape
  | unpairedEscape
  | loneSurrogate
  | controlCharacter
  | invalidCodePoint
  | wrongType (found : Found) (wanted : String)
  | wrongValue (found : Found) (wanted : String)
  | wrongLength (length : Nat) (wanted : String)
  | unknownField (name : String) (fields : List String)
  | unknownVariant (name : String) (variants : List String)
  | missingField (name : String)
  | duplicateField (name : String)
  deriving DecidableEq

def Found.describe : Found → String
  | .null => "null"
  | .boolean b => "boolean `" ++ (if b then "true" else "false") ++ "`"
  | .integer n => "integer `" ++ toString n ++ "`"
  | .real bits =>
    "floating point `" ++
      (((Numeral.ofPattern Binary.double Numeral.doubleLayout bits).map Numeral.text).getD "")
        ++ "`"
  | .text s => "string " ++ Text.quoted s
  | .sequence => "sequence"
  | .map => "map"
  | .unitVariant => "unit variant"

def tick (name : String) : String :=
  "`" ++ name ++ "`"

def expectedNames : List String → String
  | [] => "there are no fields"
  | [a] => "expected " ++ tick a
  | [a, b] => "expected " ++ tick a ++ " or " ++ tick b
  | names => "expected one of " ++ ", ".intercalate (names.map tick)

def Fault.message : Fault → String
  | .endInValue => "EOF while parsing a value"
  | .endInList => "EOF while parsing a list"
  | .endInObject => "EOF while parsing an object"
  | .endInString => "EOF while parsing a string"
  | .expectedValue => "expected value"
  | .expectedWord => "expected ident"
  | .expectedColon => "expected `:`"
  | .expectedCommaOrBracket => "expected `,` or `]`"
  | .expectedCommaOrBrace => "expected `,` or `\x7d`"
  | .expectedQuote => "expected `\"`"
  | .keyNotString => "key must be a string"
  | .keyNotNumber => "invalid value: expected key to be a number in quotes"
  | .trailingComma => "trailing comma"
  | .trailingCharacters => "trailing characters"
  | .invalidNumber => "invalid number"
  | .numberOutOfRange => "number out of range"
  | .invalidEscape => "invalid escape"
  | .unpairedEscape => "unexpected end of hex escape"
  | .loneSurrogate => "lone leading surrogate in hex escape"
  | .controlCharacter => "control character (\\u0000-\\u001F) found while parsing a string"
  | .invalidCodePoint => "invalid unicode code point"
  | .wrongType found wanted => "invalid type: " ++ found.describe ++ ", expected " ++ wanted
  | .wrongValue found wanted => "invalid value: " ++ found.describe ++ ", expected " ++ wanted
  | .wrongLength length wanted => s!"invalid length {length}, expected " ++ wanted
  | .unknownField name fields => "unknown field " ++ tick name ++ ", " ++ expectedNames fields
  | .unknownVariant name variants =>
    "unknown variant " ++ tick name ++ ", " ++ expectedNames variants
  | .missingField name => "missing field " ++ tick name
  | .duplicateField name => "duplicate field " ++ tick name

end TensorInference.Json
