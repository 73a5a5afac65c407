import TensorInference.Interface.Objects
import TensorInference.Proofs.Server.Receptive

/-!
# Objects and what becomes of them

Objects are looked up by their handles. Putting a server back runs the callbacks of what it has
delivered, which makes responses and touches no other objects. A server that callers hold between
calls is receptive, and whatever it has delivered was told already (`Host.Fit`).
-/

namespace TensorInference.Interface

open Server Inference

namespace Table

variable {α : Type} (table : Table α) (object : α) (handle other : Handle)

theorem get?_add : (table.add object).2.get? other =
    if other = table.next then some object else table.get? other :=
  OrderedMap.get?_insert_eq_ite _ _ _ _

theorem get?_replace : (table.replace handle object).get? other =
    if other = handle then (table.get? handle).map fun _ ↦ object else table.get? other :=
  OrderedMap.get?_modify _ _ _ _

theorem get?_remove : (table.remove handle).get? other =
    if other = handle then none else table.get? other :=
  OrderedMap.get?_erase _ _ _

theorem remove_replace : (table.replace handle object).remove handle = table.remove handle := by
  refine congrArg (Table.mk · table.next) (OrderedMap.eq_of_get? fun found ↦ ?_)
  change ((table.replace handle object).remove handle).get? found = (table.remove handle).get? found
  rw [get?_remove, get?_remove, get?_replace]
  split
  · rfl
  · rfl

end Table

namespace Host

variable {host : Host}

/-- What a server has delivered since it was last put back, with what callers gave along. -/
def due (host : Host) : List (Nat × Completion) :=
  host.server.traffic.delivered.filterMap fun completion ↦
    (host.awaited.lookup completion.ticket).map fun context ↦ (context, completion)

/-- The submissions that are still to be completed. -/
def pending (host : Host) : List (Ticket × Nat) :=
  host.awaited.filter fun entry ↦ (host.server.traffic.delivered? entry.1).isNone

/-- A server as callers hold it: it is receptive, and it has told all that it has delivered. -/
structure Fit (host : Host) : Prop where
  receptive : host.server.Receptive
  told : ∀ entry ∈ host.awaited, host.server.traffic.delivered? entry.1 = none

theorem fit_pending (h : host.server.Receptive) :
    ({ host with awaited := host.pending } : Host).Fit where
  receptive := h
  told _ hentry := Option.isNone_iff_eq_none.1 (List.mem_filter.1 hentry).2

theorem Fit.pending_eq (h : host.Fit) : host.pending = host.awaited :=
  List.filter_eq_self.2 fun entry hentry ↦ Option.isNone_iff_eq_none.2 (h.told entry hentry)

theorem Fit.due_eq (h : host.Fit) : host.due = [] := by
  refine List.filterMap_eq_nil_iff.2 fun completion hcompletion ↦ ?_
  rw [Option.map_eq_none_iff, List.lookup_eq_none_iff]
  intro entry hentry
  have hnone := h.told entry hentry
  unfold Traffic.delivered? at hnone
  have hne := List.find?_eq_none.1 hnone completion hcompletion
  simpa using hne

end Host

namespace Objects

variable {objects other : Objects} {handle : Handle} {host : Host}

/-- The responses and callbacks after some callbacks. -/
def called (handle : Handle) (entries : List (Nat × Completion)) (responses : Table Completion)
    (callbacks : List Callback) : Table Completion × List Callback :=
  entries.foldl (fun (responses, callbacks) (context, completion) ↦
    ((responses.add completion).2, callbacks ++ [⟨handle, responses.next, context⟩]))
    (responses, callbacks)

/-- Putting a server back makes responses and runs callbacks, and that is all. -/
theorem putBack_eq : objects.putBack handle host = { objects with
    servers := objects.servers.replace handle { host with awaited := host.pending }
    responses := (called handle host.due objects.responses objects.callbacks).1
    callbacks := (called handle host.due objects.responses objects.callbacks).2 } := by
  have hfold : ∀ (entries : List (Nat × Completion)) (objects : Objects),
      entries.foldl (fun objects entry ↦ objects.callBack handle entry.1 entry.2) objects =
        { objects with
          responses := (called handle entries objects.responses objects.callbacks).1
          callbacks := (called handle entries objects.responses objects.callbacks).2 } := by
    intro entries
    induction entries with
    | nil => exact fun _ ↦ rfl
    | cons entry rest ih => exact fun objects ↦ ih _
  exact hfold _ _

/-- Nothing is due of a server that has told all that it has delivered. -/
theorem putBack_of_fit (h : host.Fit) : objects.putBack handle host =
    { objects with servers := objects.servers.replace handle host } := by
  rw [putBack_eq, h.pending_eq, h.due_eq]
  rfl

end Objects

end TensorInference.Interface
