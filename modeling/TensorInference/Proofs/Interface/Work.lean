import TensorInference.Interface.Call

/-!
# Calls write all of their results or nothing

A part of a call either only looks at the objects, or it does at once all that is left to be done.
A call looks first and acts last, so whatever it fails at, it has written nothing and changed
nothing (`Call.yields_perform`). Only a submission that is refused after it has reached a server may
leave a trace, in the books of that server.
-/

namespace TensorInference.Interface

open Server Inference

/-- What a result is about. -/
inductive Result.Kind where
  | handle
  | flag
  | text
  | base
  | size
  deriving DecidableEq, Repr

/-- What a result is about. -/
def Result.kind : Result → Kind
  | .handle _ => .handle
  | .flag _ => .flag
  | .text _ => .text
  | .base _ => .base
  | .size _ => .size

/-- The places that a call has for its results. -/
def Call.places : Call → List Result.Kind
  | .newOptions _ | .newServer _ _ | .newRequest _ _ _ _ => [.handle]
  | .serverStatus _ _ | .modelStatus _ _ _ | .serverMetrics _ _ | .responseHeader _ _ => [.handle]
  | .isLive _ _ | .isReady _ _ => [.flag]
  | .serverId _ _ => [.text]
  | .responseOutput _ _ _ _ | .readMessage _ _ _ => [.base, .size]
  | .setOption _ _ | .setInput _ _ _ | .infer _ _ _ _ | .responseStatus _ => []
  | .deleteOptions _ | .deleteServer _ | .deleteRequest _ | .deleteResponse _
  | .deleteMessage _ => []

/-- The object of a handle that may be missing, with its handle. -/
def Table.find? {α : Type} (table : Table α) (handle : Option Handle) : Option (Handle × α) :=
  handle.bind fun handle ↦ (table.get? handle).map fun object ↦ (handle, object)

/-- Whether a call submits a request. -/
def Call.submits : Call → Bool
  | .infer _ _ _ _ => true
  | _ => false

namespace Work

variable {α β : Type} {effects : Effects} {kinds : List Result.Kind}

/-- What becomes of a part of a call. -/
def outcome (work : Work α) (effects : Effects) : Except Status α × Effects :=
  ExceptT.run work effects

theorem outcome_bind (work : Work α) (next : α → Work β) :
    outcome (work >>= next) effects =
      match outcome work effects with
      | (.ok a, after) => outcome (next a) after
      | (.error status, after) => (.error status, after) := by
  have hbind : outcome (work >>= next) effects =
      ExceptT.bindCont next (outcome work effects).1 (outcome work effects).2 := rfl
  rw [hbind]
  rcases outcome work effects with ⟨status | a, after⟩
  · rfl
  · rfl

theorem outcome_get (next : Effects → Work α) :
    outcome (MonadState.get >>= next) effects = outcome (next effects) effects := rfl

/-- Whether a part of a call does nothing but look. -/
def Looks (work : Work α) : Prop :=
  ∀ effects, (outcome work effects).2 = effects

theorem Looks.pure (a : α) : Looks (Pure.pure a : Work α) := fun _ ↦ rfl

theorem Looks.throw (status : Status) : Looks (throw status : Work α) := fun _ ↦ rfl

theorem Looks.lift (found : Except Status α) : Looks (liftM found : Work α) := fun _ ↦ rfl

theorem Looks.get : Looks (MonadState.get : Work Effects) := fun _ ↦ rfl

theorem outcome_need {table : Objects → Table α} {what : String} {handle : Option Handle} :
    outcome (need table what handle) effects =
      (((table effects.objects).find? handle).elim (.error (missing what)) .ok, effects) := by
  cases handle with
  | none => rfl
  | some handle =>
    rw [need, outcome_get, Table.find?, Option.bind_some]
    cases (table effects.objects).get? handle with
    | none => rfl
    | some object => rfl

theorem Looks.need (table : Objects → Table α) (what : String) (handle : Option Handle) :
    Looks (need table what handle) := by
  intro effects
  rw [outcome_need]

/-- Whether a part of a call writes results of some kinds and does nothing if it fails. -/
def Yields (work : Work α) (kinds : List Result.Kind) : Prop :=
  ∀ effects, match outcome work effects with
    | (.ok _, after) => after.written.map Result.kind = effects.written.map Result.kind ++ kinds
    | (.error _, after) => after = effects

theorem Looks.yields {work : Work α} (h : Looks work) : Yields work [] := by
  intro effects
  have hsame := h effects
  split
  · rename_i after hafter
    rw [hafter] at hsame
    rw [show after = effects from hsame, List.append_nil]
  · rename_i after hafter
    rw [hafter] at hsame
    exact hsame

/-- Whatever looks first does nothing if it fails. -/
theorem Looks.bind {work : Work α} {next : α → Work β} (h : Looks work)
    (hnext : ∀ a, Yields (next a) kinds) : Yields (work >>= next) kinds := by
  intro effects
  have hsame := h effects
  rw [outcome_bind]
  rcases hwork : outcome work effects with ⟨found | a, after⟩
  · rw [hwork] at hsame
    exact hsame
  · rw [hwork] at hsame
    obtain rfl : after = effects := hsame
    exact hnext a after

theorem Yields.change (update : Objects → Objects) : Yields (change update) [] :=
  fun _ ↦ (List.append_nil _).symm

theorem Yields.write (result : Result) : Yields (write result) [result.kind] := by
  intro effects
  change (effects.written ++ [result]).map Result.kind = _
  rw [List.map_append, List.map_singleton]

theorem Yields.answer (place : Bool) (what : String) (result : Result) :
    Yields (answer place what result) [result.kind] := by
  unfold Work.answer
  split
  · exact .write result
  · exact fun _ ↦ rfl

theorem Yields.make (place : Bool) (what : String) (add : Objects → Handle × Objects) :
    Yields (make place what add) [.handle] := by
  unfold Work.make
  split
  · intro effects
    change (effects.written ++ [Result.handle (add effects.objects).1]).map Result.kind = _
    rw [List.map_append, List.map_singleton]
    rfl
  · exact fun _ ↦ rfl

theorem Yields.data (base size : Bool) (bytes : Bytes) :
    Yields (data base size bytes) [.base, .size] := by
  unfold Work.data
  split
  · exact fun _ ↦ rfl
  · split
    · exact fun _ ↦ rfl
    · intro effects
      change ((effects.written ++ [Result.base bytes]) ++ [Result.size bytes.length]).map
        Result.kind = _
      rw [List.map_append, List.map_append, List.append_assoc]
      rfl

end Work

namespace Call

open Work

variable {files : Files.Tree} {freshId : String}

/-- A call that does not submit writes all of its results, or it does nothing. -/
theorem yields_perform {call : Call} (h : call.submits = false) :
    Yields (call.perform files freshId) call.places := by
  unfold perform places
  cases call with
  | newOptions place => exact .make _ _ _
  | setOption options setting =>
    exact (Looks.need _ _ _).bind fun found ↦ (Looks.lift _).bind fun options ↦ .change _
  | newServer options place =>
    exact (Looks.need _ _ _).bind fun found ↦ (Looks.lift _).bind fun server ↦ .make _ _ _
  | deleteServer server =>
    cases server with
    | none => exact (Looks.pure _).yields
    | some handle =>
      refine Looks.get.bind fun effects ↦ ?_
      dsimp only
      split
      · exact fun _ ↦ (List.append_nil _).symm
      · exact (Looks.pure _).yields
  | isLive server place => exact (Looks.need _ _ _).bind fun found ↦ .answer _ _ _
  | isReady server place => exact (Looks.need _ _ _).bind fun found ↦ .answer _ _ _
  | serverStatus server place => exact (Looks.need _ _ _).bind fun found ↦ .make _ _ _
  | modelStatus server model place =>
    exact (Looks.need _ _ _).bind fun found ↦ (Looks.lift _).bind fun model ↦
      (Looks.lift _).bind fun status ↦ .make _ _ _
  | serverMetrics server place =>
    exact (Looks.need _ _ _).bind fun found ↦ (Looks.lift _).bind fun text ↦ .make _ _ _
  | serverId server place => exact (Looks.need _ _ _).bind fun found ↦ .answer _ _ _
  | newRequest model selector header place =>
    refine (Looks.lift _).bind fun model ↦ ?_
    dsimp only
    split
    · exact (Looks.throw _).bind fun _ ↦ (Looks.lift _).bind fun request ↦ .make _ _ _
    · exact (Looks.lift _).bind fun request ↦ .make _ _ _
  | setInput request input data =>
    refine (Looks.need _ _ _).bind fun found ↦ (Looks.lift _).bind fun input ↦ ?_
    dsimp only
    split
    · exact (Looks.throw _).bind fun _ ↦ .change _
    · exact .change _
  | infer server request callback context => cases h
  | responseStatus response =>
    exact ((Looks.need _ _ _).bind fun found ↦ (Looks.lift _).yields)
  | responseHeader response place =>
    exact (Looks.need _ _ _).bind fun found ↦ (Looks.lift _).bind fun header ↦ .make _ _ _
  | responseOutput response output base size =>
    exact (Looks.need _ _ _).bind fun found ↦ (Looks.lift _).bind fun output ↦
      (Looks.lift _).bind fun bytes ↦ .data _ _ _
  | readMessage message base size => exact (Looks.need _ _ _).bind fun found ↦ .data _ _ _
  | deleteOptions handle | deleteRequest handle | deleteResponse handle | deleteMessage handle =>
    cases handle with
    | none => exact (Looks.pure _).yields
    | some handle => exact .change _

variable {effects : Effects}

theorem outcome_submit (handle : Handle) (host : Host) (request : Submission) (context : Nat) :
    outcome (submit handle host request context) effects =
      match host.server.submit host.next request with
      | (server, .ok ()) => (.ok (), { effects with
          objects := effects.objects.putBack handle {
            server
            next := host.next + 1
            awaited := host.awaited ++ [(host.next, context)] } })
      | (server, .error status) => (.error status, { effects with
          objects := effects.objects.putBack handle { host with server } }) := by
  unfold submit
  rcases host.server.submit host.next request with ⟨server, status | _⟩
  · rfl
  · rfl

/-- A call that submits looks for the server, the request and the callback. -/
theorem outcome_infer (server request : Option Handle) (callback : Bool) (context : Nat) :
    outcome (perform files freshId (.infer server request callback context)) effects =
      match effects.objects.servers.find? server, effects.objects.requests.find? request with
      | none, _ => (.error (missing "server"), effects)
      | some _, none => (.error (missing "request provider"), effects)
      | some (handle, host), some (_, request) =>
        if callback then outcome (submit handle host request context) effects
        else (.error (missing "completion callback"), effects) := by
  unfold perform host
  dsimp only
  rw [outcome_bind, outcome_need]
  cases effects.objects.servers.find? server with
  | none => rfl
  | some host =>
    change outcome (need (·.requests) "request provider" request >>= _) effects = _
    rw [outcome_bind, outcome_need]
    cases effects.objects.requests.find? request with
    | none => rfl
    | some request =>
      cases callback with
      | false => rfl
      | true => rfl

end Call

end TensorInference.Interface
