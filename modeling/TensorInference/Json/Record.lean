import TensorInference.Json.Codec

/-!
# Records

A record is written as an object with one member a field, in the order of the fields. It is read
from an object whose members come in any order, each at most once, or from a list that gives the
fields by position. A field may have a value to be used when it is left out, and may be left out in
writing when it has that value. Members under unknown names are either skimmed or refused.

The fields of a record are a list of descriptions over the list of their types, so that the codec
of a record is made from the codecs of its fields alone.
-/

namespace TensorInference.Json

/-- One field of a record of type `σ`. -/
structure Field (σ α : Type) where
  name : String
  codec : Codec α
  get : σ → α
  /-- The value that a missing field has. -/
  absent : Option α := none
  /-- Whether a value is left out in writing. -/
  omitted : α → Bool := fun _ => false

/-- The fields of a record over the list of their types. -/
inductive Fields (σ : Type) : List Type → Type 1 where
  | nil : Fields σ []
  | cons {α : Type} {types : List Type} (field : Field σ α) (rest : Fields σ types) :
    Fields σ (α :: types)

def Values : List Type → Type
  | [] => Unit
  | α :: types => α × Values types

/-- The values met so far. -/
def Slots : List Type → Type
  | [] => Unit
  | α :: types => Option α × Slots types

namespace Slots

def vacant : (types : List Type) → Slots types
  | [] => ()
  | _ :: types => (none, vacant types)

end Slots

namespace Fields

variable {σ : Type}

def names : {types : List Type} → Fields σ types → List String
  | [], .nil => []
  | _ :: _, .cons field rest => field.name :: rest.names

def encode (record : σ) : {types : List Type} → Fields σ types → List (String × Value)
  | [], .nil => []
  | _ :: _, .cons field rest =>
    let value := field.get record
    if field.omitted value then rest.encode record
    else (field.name, field.codec.encode value) :: rest.encode record

/-- Put the value of a member into its slot; `node` is that value, or what is wrong before it. No
answer means that no field has the name. -/
def fill (name : String) (node : Except Fault Node) :
    {types : List Type} → Fields σ types → Slots types → Option (Except Fault (Slots types))
  | [], .nil, _ => none
  | _ :: _, .cons field rest, (slot, slots) =>
    if field.name = name then
      some (match slot with
        | some _ => .error (.duplicateField name)
        | none => do
          let a ← field.codec.decode (← node)
          return (some a, slots))
    else
      (rest.fill name node slots).map fun filled => do
        let slots ← filled
        return (slot, slots)

/-- The values of all fields, once the object is closed. -/
def finish : {types : List Type} → Fields σ types → Slots types → Except Fault (Values types)
  | [], .nil, _ => .ok ()
  | _ :: _, .cons field rest, (slot, slots) =>
    match slot.or field.absent with
    | none => .error (.missingField field.name)
    | some a => do
      let values ← rest.finish slots
      return (a, values)

/-- Read the fields by position; `position` is that of the first one. What is left of the list is
answered too. -/
def decodeItems (wanted : String) : {types : List Type} → Fields σ types → Nat → Items →
    Except Fault (Values types × Items)
  | [], .nil, _, items => .ok ((), items)
  | _ :: _, .cons field rest, position, items =>
    match items with
    | .more item items => do
      let a ← field.codec.decode item
      let (values, items) ← rest.decodeItems wanted (position + 1) items
      return ((a, values), items)
    | .cut cause => .error cause.fault
    | .done =>
      match field.absent with
      | none => .error (.wrongLength position wanted)
      | some a => do
        let (values, items) ← rest.decodeItems wanted (position + 1) .done
        return ((a, values), items)

end Fields

/-- How a record type is written and read. -/
structure RecordFormat (σ : Type) where
  /-- How faults name the record. -/
  title : String
  types : List Type
  fields : Fields σ types
  build : Values types → σ
  /-- Whether members under unknown names are refused. -/
  strict : Bool := false

namespace RecordFormat

variable {σ : Type}

/-- What a list of the wrong length should have been. -/
def lengthWanted (format : RecordFormat σ) : String :=
  let count := format.types.length
  s!"{format.title} with {count} element" ++ if count = 1 then "" else "s"

def decodeMembers (format : RecordFormat σ) :
    Slots format.types → Members → Except Fault (Slots format.types)
  | slots, .more key value rest => do
    let name ← key.text
    match format.fields.fill name (.ok value) slots with
    | some filled => format.decodeMembers (← filled) rest
    | none =>
      if format.strict then .error (.unknownField name format.fields.names)
      else do
        value.skim
        format.decodeMembers slots rest
  | slots, .bare key atEnd => do
    let name ← key.text
    match format.fields.fill name (.error (colonFault atEnd)) slots with
    | some filled => filled
    | none =>
      if format.strict then .error (.unknownField name format.fields.names)
      else .error (colonFault atEnd)
  | slots, members =>
    match members.fault? with
    | some fault => .error fault
    | none => .ok slots

/-- Read a record from an object or a list. -/
def decode (format : RecordFormat σ) : Node → Except Fault σ
  | .object members => do
    let slots ← format.decodeMembers (Slots.vacant format.types) members
    let values ← format.fields.finish slots
    return format.build values
  | .array items => do
    let (values, rest) ← format.fields.decodeItems format.lengthWanted 0 items
    rest.close
    return format.build values
  | node => .error (node.mismatch format.title)

def codec (format : RecordFormat σ) : Codec σ where
  encode record := .object (format.fields.encode record)
  decode := format.decode

end RecordFormat

end TensorInference.Json
