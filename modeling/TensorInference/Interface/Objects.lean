import TensorInference.Interface.Argument
import TensorInference.Server.Session

/-!
# Objects and handles

Callers hold objects by handles. A handle is a number that is given once for each kind of object, so
a handle never means another object than the one it was given for, and one whose object was deleted
means nothing.
-/

namespace TensorInference.Interface

open Server Inference

/-- The number of an object among those of its kind. -/
abbrev Handle := Nat

structure Table (α : Type) where
  objects : OrderedMap Handle α
  /-- The handle that is given next. -/
  next : Handle

namespace Table

variable {α : Type}

def empty : Table α := ⟨.empty, 0⟩

def get? (table : Table α) (handle : Handle) : Option α :=
  table.objects.get? handle

def add (table : Table α) (object : α) : Handle × Table α :=
  (table.next, ⟨table.objects.insert table.next object, table.next + 1⟩)

def replace (table : Table α) (handle : Handle) (object : α) : Table α :=
  { table with objects := table.objects.modify handle fun _ => object }

def remove (table : Table α) (handle : Handle) : Table α :=
  { table with objects := table.objects.erase handle }

end Table

structure Host where
  server : State
  /-- The ticket of the next submission. -/
  next : Ticket := 0
  /-- What callers gave along with the submissions that are not completed. -/
  awaited : List (Ticket × Nat) := []

structure Callback where
  server : Handle
  response : Handle
  /-- What the caller gave along with the submission. -/
  context : Nat
  deriving DecidableEq, Repr

structure Objects where
  options : Table Options := .empty
  servers : Table Host := .empty
  requests : Table Submission := .empty
  responses : Table Completion := .empty
  messages : Table Bytes := .empty
  errors : Table Status := .empty
  callbacks : List Callback := []

namespace Objects

/-- Run the callback of a completed submission with a new response. -/
def callBack (objects : Objects) (server : Handle) (context : Nat) (completion : Completion) :
    Objects :=
  let (response, responses) := objects.responses.add completion
  { objects with
    responses
    callbacks := objects.callbacks ++ [{ server, response, context }] }

/-- Put a server back and run the callbacks of what it has delivered meanwhile. -/
def putBack (objects : Objects) (handle : Handle) (host : Host) : Objects :=
  let delivered := host.server.traffic.delivered.filterMap fun completion =>
    (host.awaited.lookup completion.ticket).map fun context => (context, completion)
  let awaited := host.awaited.filter fun entry =>
    (host.server.traffic.delivered? entry.1).isNone
  let objects := { objects with servers := objects.servers.replace handle { host with awaited } }
  delivered.foldl (fun objects entry => objects.callBack handle entry.1 entry.2) objects

def settle (objects : Objects) (handle : Handle) : Objects :=
  match objects.servers.get? handle with
  | some host => objects.putBack handle { host with server := host.server.settle }
  | none => objects

end Objects

end TensorInference.Interface
