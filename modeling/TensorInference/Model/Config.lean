import TensorInference.Model.ElementType
import TensorInference.Model.Shape
import TensorInference.Model.VersionPolicy
import TensorInference.Status

/-!
# Model configurations

A configuration describes the tensors that a model takes and gives, the platform that executes it,
its largest batch and the versions to be served. A configuration belongs to a directory: a missing
name is filled in from the directory's name, and any other name must agree with it.
-/

namespace TensorInference.Model

open Json

structure Input where
  name : String
  type : ElementType
  /-- The shape of one batch item. -/
  shape : Shape
  deriving DecidableEq, Repr

structure Output where
  name : String
  type : ElementType
  /-- The shape of one batch item. -/
  shape : Shape
  /-- The file with the labels of the classes that the elements score. -/
  labelFile : Option String
  deriving DecidableEq, Repr

structure Config where
  name : String
  platform : String
  /-- The largest batch; zero means that requests are not batched. -/
  maxBatch : UInt32
  inputs : List Input
  outputs : List Output
  policy : VersionPolicy
  /-- How many workers execute requests. -/
  instances : UInt32
  deriving DecidableEq, Repr

def Input.format : RecordFormat Input where
  title := "struct ModelInput"
  types := [String, ElementType, Shape]
  fields :=
    .cons { name := "name", codec := .text, get := (·.name) } <|
    .cons { name := "data_type", codec := ElementType.codec, get := (·.type) } <|
    .cons { name := "dims", codec := Shape.codec, get := (·.shape) } .nil
  build := fun (name, type, shape, ()) => { name, type, shape }

def Output.format : RecordFormat Output where
  title := "struct ModelOutput"
  types := [String, ElementType, Shape, Option String]
  fields :=
    .cons { name := "name", codec := .text, get := (·.name) } <|
    .cons { name := "data_type", codec := ElementType.codec, get := (·.type) } <|
    .cons { name := "dims", codec := Shape.codec, get := (·.shape) } <|
    .cons
      { name := "label_filename", codec := Codec.text.option, get := (·.labelFile),
        absent := some none, omitted := Option.isNone } .nil
  build := fun (name, type, shape, labelFile, ()) => { name, type, shape, labelFile }

namespace Config

def format : RecordFormat Config where
  title := "struct ModelConfig"
  types := [String, String, UInt32, List Input, List Output, VersionPolicy, UInt32]
  fields :=
    .cons { name := "name", codec := .text, get := (·.name), absent := some "" } <|
    .cons { name := "platform", codec := .text, get := (·.platform) } <|
    .cons { name := "max_batch_size", codec := .word32, get := (·.maxBatch), absent := some 0 } <|
    .cons
      { name := "input", codec := Input.format.codec.list, get := (·.inputs), absent := some [] } <|
    .cons
      { name := "output", codec := Output.format.codec.list, get := (·.outputs),
        absent := some [] } <|
    .cons
      { name := "version_policy", codec := VersionPolicy.codec, get := (·.policy),
        absent := some (.latest 1) } <|
    .cons
      { name := "instance_count", codec := .word32, get := (·.instances), absent := some 1 } .nil
  build := fun (name, platform, maxBatch, inputs, outputs, policy, instances, ()) =>
    { name, platform, maxBatch, inputs, outputs, policy, instances }

def codec : Codec Config := format.codec

def read (text : Bytes) : Except Status Config :=
  match codec.read text with
  | .ok config => .ok config
  | .error fault => .error (.invalidArg fault.message)

def findInput (config : Config) (name : String) : Option Input :=
  config.inputs.find? (·.name = name)

def findOutput (config : Config) (name : String) : Option Output :=
  config.outputs.find? (·.name = name)

def batchLimit (config : Config) : Nat :=
  max 1 config.maxBatch.toNat

/-- Fill in a missing name. -/
def named (config : Config) (directory : String) : Config :=
  if config.name = "" then { config with name := directory } else config

/-- Check the names and shapes of tensors one after the other; `seen` are the names so far and
`kind` says what the tensors are. -/
def checkTensors (directory kind : String) (seen : List String) :
    List (String × Shape) → Except Status Unit
  | [] => .ok ()
  | (name, shape) :: rest => do
    if name ∈ seen then
      .error (.invalidArg s!"duplicate {kind} '{name}' in model '{directory}'")
    if ¬ shape.isDescription then
      .error (.invalidArg
        (s!"tensor '{name}' of model '{directory}' has invalid dims " ++ shape.describe))
    checkTensors directory kind (name :: seen) rest

/-- Check a configuration against the name of its directory. -/
def validate (config : Config) (directory : String) : Except Status Config := do
  let config := config.named directory
  if config.name ≠ directory then
    let name := config.name
    .error (.invalidArg s!"model name '{name}' does not match directory name '{directory}'")
  if config.platform = "" then
    .error (.invalidArg s!"model '{directory}' must specify a platform")
  if config.instances = 0 then
    .error (.invalidArg s!"model '{directory}' must have at least one instance")
  if config.outputs = [] then
    .error (.invalidArg s!"model '{directory}' must specify at least one output")
  checkTensors directory "input" [] (config.inputs.map fun i => (i.name, i.shape))
  checkTensors directory "output" [] (config.outputs.map fun o => (o.name, o.shape))
  return config

end Config

end TensorInference.Model
