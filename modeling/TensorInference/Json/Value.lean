import TensorInference.Json.Reader

/-!
# JSON values and their texts

A `Value` is a JSON value without any fault in it. Printing it uses no blanks and keeps the order of
the members. `Value.toNode` is the tree of a text that was printed, so what a reader makes of a
printed text can be said without the text. `Node.toValue` goes back and leaves out what is faulty;
`Value.toValue_toNode` says that nothing of a value is lost on the way.
-/

namespace TensorInference.Json

/-- A JSON value; numbers are kept as written. -/
inductive Value where
  | null
  | boolean (b : Bool)
  | number (numeral : Numeral)
  | string (text : String)
  | array (items : List Value)
  | object (members : List (String × Value))

namespace Value

def printText (text : String) : Bytes :=
  0x22 :: escape (Bytes.ofText text) ++ [0x22]

mutual

def print : Value → Bytes
  | .null => Bytes.ofText "null"
  | .boolean true => Bytes.ofText "true"
  | .boolean false => Bytes.ofText "false"
  | .number numeral => numeral.print
  | .string text => printText text
  | .array [] => [0x5b, 0x5d]
  | .array (item :: rest) => 0x5b :: print item ++ printItems rest
  | .object [] => [0x7b, 0x7d]
  | .object ((key, value) :: rest) =>
    0x7b :: printText key ++ 0x3a :: print value ++ printMembers rest

/-- The text of the items after the first one, with the closing bracket. -/
def printItems : List Value → Bytes
  | [] => [0x5d]
  | item :: rest => 0x2c :: print item ++ printItems rest

def printMembers : List (String × Value) → Bytes
  | [] => [0x7d]
  | (key, value) :: rest => 0x2c :: printText key ++ 0x3a :: print value ++ printMembers rest

end

def text (value : Value) : String :=
  (Bytes.text? value.print).getD ""

/-- The token of a text that was written between quotes. -/
def token (text : String) : Token where
  text := .ok text
  skimmed := .ok ()
  raw := (escape (Bytes.ofText text)).takeWhile (· ≠ 0x22)
  quoted := true

mutual

/-- The tree that a reader makes of a value. -/
def toNode : Value → Node
  | .null => .null
  | .boolean b => .boolean b
  | .number numeral => .number numeral
  | .string text => .string (token text)
  | .array items => .array (toItems items)
  | .object members => .object (toMembers members)

def toItems : List Value → Items
  | [] => .done
  | item :: rest => .more item.toNode (toItems rest)

def toMembers : List (String × Value) → Members
  | [] => .done
  | (key, value) :: rest => .more (token key) value.toNode (toMembers rest)

end

end Value

mutual

/-- The value that a tree holds. What is faulty becomes null, and a list or an object ends where it
breaks off. -/
def Node.toValue : Node → Value
  | .boolean b => .boolean b
  | .number numeral => .number numeral
  | .string token => .string (token.text.toOption.getD "")
  | .array items => .array items.toValues
  | .object members => .object members.toValues
  | _ => .null

def Items.toValues : Items → List Value
  | .more item rest => item.toValue :: rest.toValues
  | _ => []

def Members.toValues : Members → List (String × Value)
  | .more key value rest => (key.text.toOption.getD "", value.toValue) :: rest.toValues
  | _ => []

end

namespace Value

mutual

theorem toValue_toNode : (value : Value) → value.toNode.toValue = value
  | .null | .boolean _ | .number _ | .string _ => rfl
  | .array items => congrArg Value.array (toValues_toItems items)
  | .object members => congrArg Value.object (toValues_toMembers members)

theorem toValues_toItems : (items : List Value) → (toItems items).toValues = items
  | [] => rfl
  | item :: rest => congr (congrArg List.cons (toValue_toNode item)) (toValues_toItems rest)

theorem toValues_toMembers :
    (members : List (String × Value)) → (toMembers members).toValues = members
  | [] => rfl
  | (key, value) :: rest =>
    congr (congrArg (fun value => List.cons (key, value)) (toValue_toNode value))
      (toValues_toMembers rest)

end

end Value

end TensorInference.Json
