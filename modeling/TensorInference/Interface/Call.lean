import TensorInference.Interface.Objects

/-!
# Calls

A call names the objects it works on by their handles and says where its results are wanted. It
either succeeds and has written all of its results, or it ends with a new error object. Every
handle and every place may be missing, and each call checks them in a fixed order: first the
objects, then the texts, then what is asked for, and the places of the results last of all.

What a call has done before it fails stays done: a call runs on its effects, and an error does not
take them back.
-/

namespace TensorInference.Interface

open Server Inference

inductive Setting where
  | repository (path : TextArgument)
  | id (text : TextArgument)
  | strictReadiness (value : Bool)
  | exitTimeout (seconds : UInt64)
  | metrics (value : Bool)
  | workerThreads (count : UInt64)
  | queueCapacity (count : UInt64)

/-- What a caller can ask for. A missing handle is none, and `place` says whether there is a place
for the result. -/
inductive Call where
  | newOptions (place : Bool)
  | setOption (options : Option Handle) (setting : Setting)
  | deleteOptions (options : Option Handle)
  | newServer (options : Option Handle) (place : Bool)
  /-- Stop a server and delete it. -/
  | deleteServer (server : Option Handle)
  | isLive (server : Option Handle) (place : Bool)
  | isReady (server : Option Handle) (place : Bool)
  | serverStatus (server : Option Handle) (place : Bool)
  | modelStatus (server : Option Handle) (model : TextArgument) (place : Bool)
  | serverMetrics (server : Option Handle) (place : Bool)
  | serverId (server : Option Handle) (place : Bool)
  | newRequest (model : TextArgument) (selector : Int64) (header : DataArgument) (place : Bool)
  | setInput (request : Option Handle) (input : TextArgument) (data : DataArgument)
  | deleteRequest (request : Option Handle)
  /-- Submit a request; the callback is told the context. -/
  | infer (server request : Option Handle) (callback : Bool) (context : Nat)
  | responseStatus (response : Option Handle)
  | responseHeader (response : Option Handle) (place : Bool)
  | responseOutput (response : Option Handle) (output : TextArgument) (base size : Bool)
  | deleteResponse (response : Option Handle)
  | readMessage (message : Option Handle) (base size : Bool)
  | deleteMessage (message : Option Handle)

/-- What is written to the place of a result. -/
inductive Result where
  | handle (handle : Handle)
  | flag (value : Bool)
  | text (text : String)
  /-- Where data starts, told by the data. -/
  | base (data : Bytes)
  | size (count : Nat)
  deriving DecidableEq, Repr

structure Effects where
  objects : Objects
  written : List Result := []

abbrev Work := ExceptT Status (StateM Effects)

namespace Work

def need {α : Type} (table : Objects → Table α) (what : String) : Option Handle → Work (Handle × α)
  | none => throw (missing what)
  | some handle => do
    match (table (← get).objects).get? handle with
    | some object => return (handle, object)
    | none => throw (missing what)

def change (update : Objects → Objects) : Work Unit :=
  modify fun effects => { effects with objects := update effects.objects }

def write (result : Result) : Work Unit :=
  modify fun effects => { effects with written := effects.written ++ [result] }

def answer (place : Bool) (what : String) (result : Result) : Work Unit :=
  if place then write result else throw (missing what)

/-- Make an object and write its handle; nothing is made if there is no place for the handle. -/
def make (place : Bool) (what : String) (add : Objects → Handle × Objects) : Work Unit :=
  if place then do
    let (handle, objects) := add (← get).objects
    change fun _ => objects
    write (.handle handle)
  else throw (missing what)

def message (place : Bool) (what : String) (bytes : Bytes) : Work Unit :=
  make place what fun objects =>
    let (handle, messages) := objects.messages.add bytes
    (handle, { objects with messages })

/-- Write where data starts and its size; neither is written unless there is a place for both. -/
def data (base size : Bool) (bytes : Bytes) : Work Unit :=
  if ¬ base then throw (missing "base out-parameter")
  else if ¬ size then throw (missing "byte size out-parameter")
  else do
    write (.base bytes)
    write (.size bytes.length)

end Work

namespace Setting

def apply (options : Options) : Setting → Except Status Options
  | .repository path => do
    let path ← path.read "model repository path"
    return { options with repository := path }
  | .id text => do
    let id ← text.read "server id"
    return { options with id }
  | .strictReadiness value => .ok { options with strictReadiness := value }
  | .exitTimeout seconds => .ok { options with exitTimeout := seconds }
  | .metrics value => .ok { options with metrics := value }
  | .workerThreads count => .ok { options with workerThreads := count }
  | .queueCapacity count =>
    if count = 0 then .error (.invalidArg "queue capacity must be positive")
    else .ok { options with queueCapacity := count }

end Setting

namespace Call

open Work

def host (server : Option Handle) : Work (Handle × Host) :=
  need (·.servers) "server" server

/-- Create a server; it is made in vain if there is no place for its handle. -/
def createServer (files : Files.Tree) (freshId : String) (options : Options) :
    Except Status State :=
  (State.create files .standard freshId options).mapError fun status =>
    .invalidArg ("failed to initialize inference server: " ++ status.message)

def submit (handle : Handle) (host : Host) (request : Submission) (context : Nat) : Work Unit := do
  match host.server.submit host.next request with
  | (server, .ok ()) =>
    change (·.putBack handle {
      server
      next := host.next + 1
      awaited := host.awaited ++ [(host.next, context)] })
  | (server, .error status) =>
    change (·.putBack handle { host with server })
    throw status

def stopServer (handle : Handle) (host : Host) : Work Unit := do
  change (·.putBack handle { host with server := host.server.stop })
  change fun objects => { objects with servers := objects.servers.remove handle }

/-- What a call does. The files are those that a new server finds, and `freshId` is its name if its
options give none. -/
def perform (files : Files.Tree) (freshId : String) : Call → Work Unit
  | .newOptions place =>
    make place "options out-parameter" fun objects =>
      let (handle, options) := objects.options.add {}
      (handle, { objects with options })
  | .setOption options setting => do
    let (handle, options) ← need (·.options) "server options" options
    let options ← setting.apply options
    change fun objects => { objects with options := objects.options.replace handle options }
  | .deleteOptions (some handle) =>
    change fun objects => { objects with options := objects.options.remove handle }
  | .newServer options place => do
    let (_, options) ← need (·.options) "server options" options
    let server ← createServer files freshId options
    make place "server out-parameter" fun objects =>
      let (handle, servers) := objects.servers.add { server }
      (handle, { objects with servers })
  | .deleteServer (some handle) => do
    match (← get).objects.servers.get? handle with
    | some host => stopServer handle host
    | none => return
  | .isLive server place => do
    let (_, host) ← host server
    answer place "live out-parameter" (.flag host.server.isLive)
  | .isReady server place => do
    let (_, host) ← host server
    answer place "ready out-parameter" (.flag host.server.isReady)
  | .serverStatus server place => do
    let (_, host) ← host server
    message place "status out-parameter" (Wire.ServerStatus.message.write host.server.status)
  | .modelStatus server model place => do
    let (_, host) ← host server
    let model ← model.read "model name"
    let status ← host.server.modelStatus model
    message place "status out-parameter" (Wire.ServerStatus.message.write status)
  | .serverMetrics server place => do
    let (_, host) ← host server
    let text ← host.server.metricsText
    message place "metrics out-parameter" (Bytes.ofText text)
  | .serverId server place => do
    let (_, host) ← host server
    answer place "id out-parameter" (.text (shownText host.server.id))
  | .newRequest model selector header place => do
    let model ← model.read "model name"
    if header.isDangling then throw (missing "request header")
    let request ← Submission.create model selector header.bytes
    make place "provider out-parameter" fun objects =>
      let (handle, requests) := objects.requests.add request
      (handle, { objects with requests })
  | .setInput request input data => do
    let (handle, request) ← need (·.requests) "request provider" request
    let input ← input.read "input name"
    if data.isDangling then
      throw (.invalidArg s!"input '{input}' has a null base with non-zero byte size")
    change fun objects =>
      { objects with requests := objects.requests.replace handle (request.append input data.bytes) }
  | .deleteRequest (some handle) =>
    change fun objects => { objects with requests := objects.requests.remove handle }
  | .infer server request callback context => do
    let (handle, host) ← host server
    let (_, request) ← need (·.requests) "request provider" request
    if ¬ callback then throw (missing "completion callback")
    submit handle host request context
  | .responseStatus response => do
    let (_, completion) ← need (·.responses) "response" response
    completion.status
  | .responseHeader response place => do
    let (_, completion) ← need (·.responses) "response" response
    let header ← completion.header
    message place "header out-parameter" (Wire.ResponseHeader.message.write header)
  | .responseOutput response output base size => do
    let (_, completion) ← need (·.responses) "response" response
    let output ← output.read "output name"
    let bytes ← completion.output output
    data base size bytes
  | .deleteResponse (some handle) =>
    change fun objects => { objects with responses := objects.responses.remove handle }
  | .readMessage handle base size => do
    let (_, bytes) ← need (·.messages) "message" handle
    data base size bytes
  | .deleteMessage (some handle) =>
    change fun objects => { objects with messages := objects.messages.remove handle }
  | .deleteOptions none | .deleteServer none | .deleteRequest none | .deleteResponse none
  | .deleteMessage none => return

end Call

structure Reply where
  /-- The results that were written. -/
  written : List Result
  /-- The error object of a call that failed. -/
  error : Option Handle
  deriving DecidableEq, Repr

namespace Objects

def addError (objects : Objects) (status : Status) : Handle × Objects :=
  let (handle, errors) := objects.errors.add status
  (handle, { objects with errors })

def call (objects : Objects) (files : Files.Tree) (freshId : String) (call : Call) :
    Objects × Reply :=
  match (call.perform files freshId).run { objects } with
  | (.ok (), effects) => (effects.objects, ⟨effects.written, none⟩)
  | (.error status, effects) =>
    let (handle, objects) := effects.objects.addError status
    (objects, ⟨effects.written, some handle⟩)

/-- Make an error object with a code that is not success. -/
def newError (objects : Objects) (code : Code) (message : TextArgument) :
    Option Handle × Objects :=
  match Status.create code message.readLoosely with
  | some status =>
    let (handle, objects) := objects.addError status
    (some handle, objects)
  | none => (none, objects)

def error? (objects : Objects) (handle : Option Handle) : Option Status :=
  handle.bind objects.errors.get?

/-- The code of an error; a missing error has the unknown code. -/
def errorCode (objects : Objects) (handle : Option Handle) : Code :=
  ((objects.error? handle).map (·.code)).getD .unknown

def errorMessage (objects : Objects) (handle : Option Handle) : Option String :=
  (objects.error? handle).map fun status => shownText status.message

def deleteError (objects : Objects) : Option Handle → Objects
  | some handle => { objects with errors := objects.errors.remove handle }
  | none => objects

end Objects

end TensorInference.Interface
