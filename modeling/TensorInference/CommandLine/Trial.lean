import TensorInference.CommandLine.Arguments
import TensorInference.Interface.Call
import TensorInference.Tensor.Elements

/-!
# Trials

The command tries a model out: it creates a server over a repository, waits until it is ready, shows
the status of the model, sends one request with sixteen 32-bit integers for each of two inputs, and
checks that the first output holds the sums and the second one the differences. Everything is done
through the calls that other programs have.

A trial is a function of the files that it finds and of its arguments. What it prints before it
fails stays printed.
-/

namespace TensorInference.CommandLine

open Interface Server

structure Outcome where
  exit : Nat
  output : String := ""
  errors : String := ""
  deriving DecidableEq, Repr

structure Progress where
  files : Files.Tree
  /-- The name of a server whose options give none. -/
  freshId : String
  objects : Objects := {}
  output : String := ""

/-- A part of a trial, which may fail with a text for people. -/
abbrev Trial := ExceptT String (StateM Progress)

namespace Trial

def print (line : String) : Trial Unit :=
  modify fun progress => { progress with output := progress.output ++ line ++ "\n" }

/-- Make a call; `what` says what for. -/
def ask (what : String) (call : Call) : Trial (List Result) := do
  let progress ← get
  let (objects, reply) := progress.objects.call progress.files progress.freshId call
  match reply.error with
  | none =>
    set { progress with objects }
    return reply.written
  | some error =>
    let code := (objects.errorCode error).name
    let message := (objects.errorMessage error).getD ""
    set { progress with objects := objects.deleteError error }
    throw s!"{what}: {code} - {message}"

/-- Make a call that has no results. -/
def order (what : String) (call : Call) : Trial Unit := do
  let _ ← ask what call

/-- Make a call that gives a handle. -/
def obtain (what : String) (call : Call) : Trial Handle := do
  match ← ask what call with
  | [.handle handle] => return handle
  | _ => throw what

def asks (what : String) (call : Call) : Trial Bool := do
  match ← ask what call with
  | [.flag value] => return value
  | _ => throw what

def fetch (what : String) (call : Call) : Trial Bytes := do
  match ← ask what call with
  | [.base data, .size _] => return data
  | _ => throw what

/-- Make a call that gives a message, and take its text. -/
def report (what : String) (call : Call) : Trial String := do
  let message ← obtain what call
  try
    let bytes ← fetch "serializing message" (.readMessage (some message) true true)
    return Text.Utf8.repair bytes
  finally
    order "deleting message" (.deleteMessage (some message))

/-- A text as an argument of calls, which cannot hold a zero byte. -/
def textArgument (text : String) : Trial TextArgument := do
  let bytes := Bytes.ofText text
  let position := (bytes.takeWhile (· ≠ 0)).length
  if position < bytes.length then
    throw s!"nul byte found in provided data at position: {position}"
  return some bytes

def options (arguments : Arguments) : Trial Options := do
  let options ←
    match arguments.config with
    | none => pure {}
    | some path =>
      match Options.load (← get).files path with
      | .ok options => pure options
      | .error fault => throw fault.message
  let options := { options with repository := arguments.repository.getD options.repository }
  if options.repository = "" then throw "-r must be used to specify model repository path"
  return options

def createServer (options : Options) (repository id : TextArgument) : Trial Handle := do
  let handle ← obtain "creating server options" (.newOptions true)
  let change what setting := order s!"setting {what}" (.setOption (some handle) setting)
  change "model repository path" (.repository repository)
  change "server id" (.id id)
  change "strict readiness" (.strictReadiness options.strictReadiness)
  change "exit timeout" (.exitTimeout options.exitTimeout)
  change "metrics" (.metrics options.metrics)
  change "worker threads" (.workerThreads options.workerThreads)
  change "queue capacity" (.queueCapacity options.queueCapacity)
  try
    obtain "creating server" (.newServer (some handle) true)
  finally
    order "deleting server options" (.deleteOptions (some handle))

/-- Make sure that a server is ready; its state does not change by waiting. -/
def awaitReady (server : Handle) : Trial Unit := do
  let live ← asks "unable to get server liveness" (.isLive (some server) true)
  let ready ← asks "unable to get server readiness" (.isReady (some server) true)
  if ¬ (live && ready) then throw "failed to find healthy inference server"

def elementCount : Nat := 16

def firstInput : List Nat :=
  List.range elementCount

def secondInput : List Nat :=
  List.replicate elementCount 1

def elements (values : List Nat) : DataArgument :=
  let bytes := Tensor.write 4 values
  ⟨some bytes, bytes.length⟩

def submit (server : Handle) (model : TextArgument) : Trial Unit := do
  let header := Wire.RequestHeader.message.write
    (.ofNames 1 ["INPUT0", "INPUT1"] ["OUTPUT0", "OUTPUT1"])
  let request ← obtain "creating inference request provider"
    (.newRequest model Inference.Submission.latest ⟨some header, header.length⟩ true)
  let assign name values := order s!"assigning {name} data"
    (.setInput (some request) (some (Bytes.ofText name)) (elements values))
  try
    assign "INPUT0" firstInput
    assign "INPUT1" secondInput
    order "running inference" (.infer (some server) (some request) true 0)
  finally
    order "deleting request provider" (.deleteRequest (some request))

def response (server : Handle) : Trial Handle := do
  modify fun progress => { progress with objects := progress.objects.settle server }
  match (← get).objects.callbacks.find? (·.server = server) with
  | some callback => return callback.response
  | none => throw "waiting for inference completion"

def outputValues (response : Handle) (name : String) : Trial (List Int) := do
  let data ← fetch s!"getting {name}"
    (.responseOutput (some response) (some (Bytes.ofText name)) true true)
  let size := data.length
  let wanted := 4 * elementCount
  if size ≠ wanted then throw s!"{name} has {size} bytes, expected {wanted}"
  return (Tensor.read 4 data).map (Tensor.integerValue .int32)

/-- Check the sums and differences, from the element at `index` on. -/
def verify (index : Nat) : List (Nat × Nat × Int × Int) → Trial Unit
  | [] => return
  | (a, b, sum, difference) :: rest => do
    print s!"{a} + {b} = {sum}"
    print s!"{a} - {b} = {difference}"
    if (a + b : Int) ≠ sum then throw s!"incorrect sum at element {index}"
    if (a - b : Int) ≠ difference then throw s!"incorrect difference at element {index}"
    verify (index + 1) rest

def examine (response : Handle) : Trial Unit := do
  order "response" (.responseStatus (some response))
  let header ← report "getting response header" (.responseHeader (some response) true)
  print s!"Response Header:\n{header}"
  let sums ← outputValues response "OUTPUT0"
  let differences ← outputValues response "OUTPUT1"
  verify 0 (firstInput.zip (secondInput.zip (sums.zip differences)))

/-- What is shown of the metrics; a server without metrics is no failure. -/
def showMetrics (server : Handle) (verbose : Bool) : Trial Unit := do
  let text? ←
    try some <$> report "getting metrics" (.serverMetrics (some server) true)
    catch _ => pure none
  match text? with
  | some text => if verbose then print s!"Metrics:\n{text}"
  | none => return

/-- Try a model of a server out. -/
def converse (server : Handle) (model : TextArgument) (verbose : Bool) : Trial Unit := do
  awaitReady server
  let status ← report "unable to get server status" (.serverStatus (some server) true)
  if verbose then print s!"Server Status:\n{status}"
  let status ← report "unable to get model status" (.modelStatus (some server) model true)
  print s!"Model Status:\n{status}"
  submit server model
  let response ← response server
  try
    examine response
  finally
    order "deleting response" (.deleteResponse (some response))
  showMetrics server verbose

def perform (arguments : Arguments) : Trial Unit := do
  let options ← options arguments
  let repository ← textArgument options.repository
  let id ← textArgument options.id
  let model ← textArgument (arguments.model.getD "simple")
  let server ← createServer options repository id
  try
    converse server model arguments.verbose
  finally
    order "deleting server" (.deleteServer (some server))

end Trial

def helpText : String :=
  String.join ([
    "Usage: tensor-inference [OPTIONS]",
    "",
    "Options:",
    "  -r, --model-repository <PATH>  Directory that is scanned for models",
    "  -c, --config <PATH>            File with server options",
    "  -m, --model <NAME>             Model that is tried out [default: simple]",
    "  -v, --verbose                  Show the server status and the metrics too",
    "  -h, --help                     Print help"].map (· ++ "\n"))

def run (files : Files.Tree) (freshId : String) (words : List String) : Outcome :=
  match Arguments.read words with
  | .error fault => { exit := 2, errors := "error: " ++ fault.message ++ "\n" }
  | .ok .help => { exit := 0, output := helpText }
  | .ok (.trial arguments) =>
    match (Trial.perform arguments).run { files, freshId } with
    | (.ok (), progress) => { exit := 0, output := progress.output }
    | (.error text, progress) =>
      { exit := 1, output := progress.output, errors := "Error: " ++ text ++ "\n" }

end TensorInference.CommandLine
