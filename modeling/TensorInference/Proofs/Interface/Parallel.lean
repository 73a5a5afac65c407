import TensorInference.Proofs.Interface.Events

/-!
# Two courses of events

A call does the same whether or not one more failed request is in the books of a server. Parts of
calls that are run side by side, on objects that differ in this way, end alike (`Work.Parallel`),
and so do whole calls and all other events (`Twins.take`).
-/

namespace TensorInference.Interface

open Server Inference Wire

variable {failure : Option Failure} {bound : Handle} {reports more : List Handle}
  {objects other : Objects} {α β γ δ : Type}

/-! ## Servers side by side -/

/-- The counters of a failed request in the books of a server are there. -/
def Shown (failure : Option Failure) (handle : Handle) (server : State) : Prop :=
  ∀ timer, failure = some ⟨handle, timer⟩ → timer.IsShown server.books.metrics

section

variable {handle : Handle} {server : State} {host : Host}

/-- A failed request is counted in no state of a server or in every one. -/
theorem countFailure_cases (failure : Option Failure) (handle : Handle) :
    (∀ server, countFailure failure handle server = server ∧ Shown failure handle server) ∨
      ∃ timer, ∀ server, countFailure failure handle server = server.recount timer ∧
        (Shown failure handle server ↔ timer.IsShown server.books.metrics) := by
  cases failure with
  | none => exact .inl fun _ ↦ ⟨rfl, nofun⟩
  | some found =>
    obtain ⟨counted, timer⟩ := found
    by_cases hhandle : handle = counted
    · subst hhandle
      refine .inr ⟨timer, fun server ↦ ⟨if_pos rfl, fun h ↦ h timer rfl, fun h ↦ ?_⟩⟩
      rintro _ ⟨rfl⟩
      exact h
    · refine .inl fun server ↦ ⟨if_neg hhandle, ?_⟩
      rintro _ ⟨rfl⟩
      exact absurd rfl hhandle

/-- Whoever does not ask the server of a failed request finds no difference. -/
theorem countFailure_of_not_asked (h : failure.any (·.server = handle) = false) :
    countFailure failure handle server = server := by
  cases failure with
  | none => rfl
  | some found =>
    have hne : found.server ≠ handle := of_decide_eq_false h
    exact if_neg hne.symm

/-- Whoever does not see a failed request in the books sees none, be one counted or not. -/
theorem apply_countFailure (part : State → α)
    (h : ∀ timer, part (server.recount timer) = part server) :
    part (countFailure failure handle server) = part server := by
  rcases countFailure_cases failure handle with hsame | ⟨timer, hcount⟩
  · rw [(hsame server).1]
  · rw [(hcount server).1, h]

theorem traffic_countFailure : (countFailure failure handle server).traffic = server.traffic :=
  apply_countFailure State.traffic fun _ ↦ rfl

theorem id_countFailure : (countFailure failure handle server).id = server.id :=
  apply_countFailure State.id fun _ ↦ rfl

theorem isReady_countFailure : (countFailure failure handle server).isReady = server.isReady :=
  apply_countFailure State.isReady fun _ ↦ State.isReady_recount

theorem pending_recount : (host.recount failure handle).pending = host.pending := by
  unfold Host.pending Host.recount
  rw [traffic_countFailure]

theorem due_recount : (host.recount failure handle).due = host.due := by
  unfold Host.due Host.recount
  rw [traffic_countFailure]

/-- What holds of counting nothing and of counting any failed request that is shown holds of
counting the one that is there. -/
theorem Shown.counted {later : State} (hshown : Shown failure handle server)
    (motive : (State → State) → Prop) (hnone : motive id)
    (h : ∀ timer, timer.IsShown server.books.metrics →
      motive (·.recount timer) ∧ timer.IsShown later.books.metrics) :
    motive (countFailure failure handle) ∧ Shown failure handle later := by
  rcases countFailure_cases failure handle with hsame | ⟨timer, hcount⟩
  · have hid : countFailure failure handle = id := funext fun server ↦ (hsame server).1
    rw [hid]
    exact ⟨hnone, (hsame later).2⟩
  · have hrecount : countFailure failure handle = (·.recount timer) :=
      funext fun server ↦ (hcount server).1
    rw [hrecount, (hcount later).2]
    exact h timer ((hcount server).2.1 hshown)

theorem attempts_countFailure (h : Shown failure handle server) (actions : List Action) :
    actions.foldl State.attempt (countFailure failure handle server) =
        countFailure failure handle (actions.foldl State.attempt server) ∧
      Shown failure handle (actions.foldl State.attempt server) :=
  h.counted (fun count ↦ actions.foldl State.attempt (count server) =
    count (actions.foldl State.attempt server)) rfl fun _ hshown ↦
      State.attempts_recount hshown actions

theorem stop_countFailure (h : Shown failure handle server) :
    (countFailure failure handle server).stop = countFailure failure handle server.stop ∧
      Shown failure handle server.stop :=
  h.counted (fun count ↦ (count server).stop = count server.stop) rfl fun _ hshown ↦
    State.stop_recount hshown

theorem submit_countFailure (h : Shown failure handle server) (ticket : Ticket)
    (submission : Submission) :
    (countFailure failure handle server).submit ticket submission =
        (countFailure failure handle (server.submit ticket submission).1,
          (server.submit ticket submission).2) ∧
      Shown failure handle (server.submit ticket submission).1 :=
  h.counted (fun count ↦ (count server).submit ticket submission =
    (count (server.submit ticket submission).1, (server.submit ticket submission).2)) rfl
      fun _ hshown ↦ State.submit_recount hshown ticket submission

end

/-- A server as it is held on both sides. -/
structure Host.Twins (failure : Option Failure) (handle : Handle) (host other : Host) : Prop where
  recount : other = host.recount failure handle
  fit : host.Fit
  shown : Shown failure handle host.server

/-! ## Objects side by side -/

/-- Objects that callers can have come to. -/
structure Objects.Fit (objects : Objects) : Prop where
  hosts : ∀ {handle host}, objects.servers.get? handle = some host →
    handle < objects.servers.next ∧ host.Fit
  errors : ∀ {handle status}, objects.errors.get? handle = some status → handle < objects.errors.next

/-- Objects that differ in one failed request, which was counted before the events to come. -/
structure Twins (failure : Option Failure) (bound : Handle) (reports : List Handle)
    (objects other : Objects) : Prop extends Recounts failure bound reports objects other where
  fit : objects.Fit
  given : ∀ found ∈ failure, found.server < objects.servers.next
  shown : ∀ {handle host}, objects.servers.get? handle = some host →
    Shown failure handle host.server
  room : bound ≤ objects.errors.next
  otherRoom : bound ≤ other.errors.next

theorem Restated.rel_refl (data : Option Bytes) : Option.Rel (Restated failure) data data := by
  cases data with
  | none => exact .none
  | some data => exact .some (.same data)

namespace Twins

/-- Objects that callers can have come to are their own twins. -/
theorem refl (h : objects.Fit) : Twins none objects.errors.next [] objects objects where
  options := rfl
  requests := rfl
  responses := rfl
  callbacks := rfl
  servers handle := by
    cases objects.servers.get? handle with
    | none => rfl
    | some host => rfl
  nextServer := rfl
  messages _ := Restated.rel_refl _
  others _ _ := rfl
  nextMessage := rfl
  errors _ _ := rfl
  fit := h
  given := nofun
  shown _ := nofun
  room := Nat.le_refl _
  otherRoom := Nat.le_refl _

theorem mono (h : Twins failure bound reports objects other) (more : List Handle) :
    Twins failure bound (reports ++ more) objects other :=
  { h with others := fun handle hhandle ↦
      h.others handle fun hmem ↦ hhandle (List.mem_append_left _ hmem) }

theorem changeOptions (h : Twins failure bound reports objects other)
    (change : Table Options → Table Options) :
    Twins failure bound reports { objects with options := change objects.options }
      { other with options := change other.options } :=
  { h with options := congrArg change h.options, fit := ⟨h.fit.hosts, h.fit.errors⟩ }

theorem changeRequests (h : Twins failure bound reports objects other)
    (change : Table Submission → Table Submission) :
    Twins failure bound reports { objects with requests := change objects.requests }
      { other with requests := change other.requests } :=
  { h with requests := congrArg change h.requests, fit := ⟨h.fit.hosts, h.fit.errors⟩ }

theorem changeResponses (h : Twins failure bound reports objects other)
    (change : Table Completion → Table Completion) :
    Twins failure bound reports { objects with responses := change objects.responses }
      { other with responses := change other.responses } :=
  { h with responses := congrArg change h.responses, fit := ⟨h.fit.hosts, h.fit.errors⟩ }

theorem deleteMessage (h : Twins failure bound reports objects other) (handle : Handle) :
    Twins failure bound reports { objects with messages := objects.messages.remove handle }
      { other with messages := other.messages.remove handle } :=
  { h with
    messages := fun found ↦ by
      rw [Table.get?_remove, Table.get?_remove]
      split
      · exact .none
      · exact h.messages found
    others := fun found hfound ↦ by
      rw [Table.get?_remove, Table.get?_remove, h.others found hfound]
    fit := ⟨h.fit.hosts, h.fit.errors⟩ }

theorem deleteServer (h : Twins failure bound reports objects other) (handle : Handle) :
    Twins failure bound reports { objects with servers := objects.servers.remove handle }
      { other with servers := other.servers.remove handle } := by
  have hleft : ∀ {found host}, (objects.servers.remove handle).get? found = some host →
      objects.servers.get? found = some host := by
    intro found host hfound
    rw [Table.get?_remove] at hfound
    exact (Option.ite_none_left_eq_some.1 hfound).2
  exact { h with
    servers := fun found ↦ by
      rw [Table.get?_remove, Table.get?_remove, h.servers]
      split
      · rfl
      · rfl
    fit := ⟨fun hfound ↦ h.fit.hosts (hleft hfound), h.fit.errors⟩
    shown := fun hfound ↦ h.shown (hleft hfound) }

/-- A server is put back for the last time and deleted on both sides. -/
theorem retire (h : Twins failure bound reports objects other) (handle : Handle) (host : Host) :
    Twins failure bound reports
      { objects.putBack handle host with
        servers := (objects.putBack handle host).servers.remove handle }
      { other.putBack handle (host.recount failure handle) with
        servers := (other.putBack handle (host.recount failure handle)).servers.remove handle } := by
  rw [Objects.putBack_eq, Objects.putBack_eq, pending_recount, due_recount, h.responses,
    h.callbacks]
  dsimp only
  rw [Table.remove_replace, Table.remove_replace]
  exact { h.deleteServer handle with
    responses := rfl
    callbacks := rfl
    fit := ⟨(h.deleteServer handle).fit.hosts, h.fit.errors⟩ }

/-- A created server is the same on both sides. -/
theorem newServer (h : Twins failure bound reports objects other) {host : Host} (hfit : host.Fit) :
    (other.servers.add host).1 = (objects.servers.add host).1 ∧
      Twins failure bound reports { objects with servers := (objects.servers.add host).2 }
        { other with servers := (other.servers.add host).2 } := by
  have hnew : ∀ server, countFailure failure objects.servers.next server = server ∧
      Shown failure objects.servers.next server := by
    refine fun server ↦ ⟨countFailure_of_not_asked ?_, fun timer htimer ↦
      absurd (h.given _ htimer) (Nat.lt_irrefl _)⟩
    rw [Option.any_eq_false]
    exact fun found hfound ↦ decide_eq_false (Nat.ne_of_lt (h.given found hfound))
  refine ⟨h.nextServer, { h with
    servers := fun found ↦ ?_
    nextServer := congrArg (· + 1) h.nextServer
    fit := ⟨fun {found fitted} hfound ↦ ?_, h.fit.errors⟩
    given := fun found hfound ↦ Nat.lt_succ_of_lt (h.given found hfound)
    shown := fun {found fitted} hfound ↦ ?_ }⟩
  · dsimp only
    rw [Table.get?_add, Table.get?_add, h.nextServer]
    split
    · rename_i hsame
      rw [hsame, Option.map_some, Host.recount, (hnew _).1]
    · exact h.servers found
  · dsimp only at hfound
    rw [Table.get?_add] at hfound
    split at hfound
    · rename_i hsame
      obtain rfl := Option.some.inj hfound
      exact ⟨hsame ▸ Nat.lt_succ_self _, hfit⟩
    · exact ⟨Nat.lt_succ_of_lt (h.fit.hosts hfound).1, (h.fit.hosts hfound).2⟩
  · dsimp only at hfound
    rw [Table.get?_add] at hfound
    split at hfound
    · rename_i hsame
      rw [hsame]
      exact (hnew _).2
    · exact h.shown hfound

/-- An error object is made on both sides. -/
theorem addError (h : Twins failure bound reports objects other) (status : Status) :
    Twins failure bound reports (objects.addError status).2 (other.addError status).2 :=
  { h with
    errors := fun handle hhandle ↦ by
      have hne : handle ≠ objects.errors.next := Nat.ne_of_lt (Nat.lt_of_lt_of_le hhandle h.room)
      have hne' : handle ≠ other.errors.next :=
        Nat.ne_of_lt (Nat.lt_of_lt_of_le hhandle h.otherRoom)
      change (other.errors.add status).2.get? handle = (objects.errors.add status).2.get? handle
      rw [Table.get?_add, Table.get?_add, if_neg hne, if_neg hne', h.errors handle hhandle]
    fit := {
      hosts := h.fit.hosts
      errors := fun {handle found} hfound ↦ by
        change (objects.errors.add status).2.get? handle = some found at hfound
        change handle < objects.errors.next + 1
        rw [Table.get?_add] at hfound
        split at hfound
        · rename_i hsame
          rw [hsame]
          exact Nat.lt_succ_self _
        · exact Nat.lt_succ_of_lt (h.fit.errors hfound) }
    room := Nat.le_succ_of_le h.room
    otherRoom := Nat.le_succ_of_le h.otherRoom }

theorem deleteError (h : Twins failure bound reports objects other) (error : Option Handle) :
    Twins failure bound reports (objects.deleteError error) (other.deleteError error) := by
  cases error with
  | none => exact h
  | some error =>
    exact { h with
      errors := fun handle hhandle ↦ by
        change (other.errors.remove error).get? handle = (objects.errors.remove error).get? handle
        rw [Table.get?_remove, Table.get?_remove, h.errors handle hhandle]
      fit := {
        hosts := h.fit.hosts
        errors := fun {handle found} hfound ↦ by
          change (objects.errors.remove error).get? handle = some found at hfound
          rw [Table.get?_remove] at hfound
          split at hfound
          · cases hfound
          · exact h.fit.errors hfound } }

/-- A server is put back on both sides. -/
theorem putBack (h : Twins failure bound reports objects other) {handle : Handle} {host : Host}
    (hreceptive : host.server.Receptive)
    (hshown : Shown failure handle host.server) :
    Twins failure bound reports (objects.putBack handle host)
      (other.putBack handle (host.recount failure handle)) := by
  rw [Objects.putBack_eq, Objects.putBack_eq, pending_recount, due_recount, h.responses,
    h.callbacks]
  have hget : ∀ found, (objects.servers.replace handle
      { host with awaited := host.pending }).get? found =
        if found = handle then (objects.servers.get? handle).map fun _ ↦
          { host with awaited := host.pending } else objects.servers.get? found :=
    fun found ↦ Table.get?_replace _ _ _ _
  refine { h with
    responses := rfl
    callbacks := rfl
    servers := fun found ↦ ?_
    fit := ⟨fun {found fitted} hfound ↦ ?_, h.fit.errors⟩
    shown := fun {found fitted} hfound ↦ ?_ }
  · dsimp only
    rw [hget, Table.get?_replace]
    split
    · rename_i hsame
      rw [hsame, h.servers, Option.map_map, Option.map_map]
      rfl
    · exact h.servers found
  · dsimp only at hfound
    rw [hget] at hfound
    split at hfound
    · rename_i hsame
      obtain ⟨_, hold, rfl⟩ := Option.map_eq_some_iff.1 hfound
      exact ⟨hsame ▸ (h.fit.hosts hold).1, Host.fit_pending hreceptive⟩
    · exact h.fit.hosts hfound
  · dsimp only at hfound
    rw [hget] at hfound
    split at hfound
    · rename_i hsame
      obtain ⟨_, -, rfl⟩ := Option.map_eq_some_iff.1 hfound
      rw [hsame]
      exact hshown
    · exact h.shown hfound

end Twins

/-! ## Parts of calls side by side -/

namespace Work

/-- Outcomes that are both good and alike, or that are the same error. -/
inductive Agree (alike : α → β → Prop) : Except Status α → Except Status β → Prop
  | ok {a : α} {b : β} (h : alike a b) : Agree alike (.ok a) (.ok b)
  | error (status : Status) : Agree alike (.error status) (.error status)

/-- Effects that are alike. If a call asks for a report, what it is given is one. -/
structure Alike (failure : Option Failure) (bound : Handle) (reports : List Handle) (asks : Bool)
    (effects other : Effects) : Prop where
  objects : Twins failure bound (reports ++ if asks then handlesOf effects.written else [])
    effects.objects other.objects
  written : List.Forall₂ (Result.Restated failure) effects.written other.written

variable {asks : Bool} {alike : α → β → Prop}

/-- Parts of calls that end alike, with alike effects. -/
def Parallel (failure : Option Failure) (bound : Handle) (asks : Bool) (alike : α → β → Prop)
    (work : Work α) (work' : Work β) : Prop :=
  ∀ reports effects other, Alike failure bound reports asks effects other →
    Agree alike (outcome work effects).1 (outcome work' other).1 ∧
      Alike failure bound reports asks (outcome work effects).2 (outcome work' other).2

namespace Parallel

theorem pure {a : α} {b : β} (h : alike a b) :
    Parallel failure bound asks alike (Pure.pure a) (Pure.pure b) :=
  fun _ _ _ heffects ↦ ⟨.ok h, heffects⟩

theorem throw (status : Status) :
    Parallel failure bound asks alike (throw status) (throw status) :=
  fun _ _ _ heffects ↦ ⟨.error status, heffects⟩

/-- Both sides fail before anything else. -/
theorem stop (status : Status) {next : PUnit → Work α} {next' : PUnit → Work β} :
    Parallel failure bound asks alike (MonadExcept.throw status >>= next)
      (MonadExcept.throw status >>= next') :=
  fun _ _ _ heffects ↦ ⟨.error status, heffects⟩

theorem lift {found : Except Status α} {found' : Except Status β} (h : Agree alike found found') :
    Parallel failure bound asks alike (liftM found) (liftM found') :=
  fun _ _ _ heffects ↦ ⟨h, heffects⟩

theorem mono {work : Work α} {work' : Work β} {alike' : α → β → Prop}
    (h : Parallel failure bound asks alike work work') (himp : ∀ a b, alike a b → alike' a b) :
    Parallel failure bound asks alike' work work' := by
  intro reports effects other heffects
  obtain ⟨hagree, hafter⟩ := h reports effects other heffects
  refine ⟨?_, hafter⟩
  generalize (outcome work effects).1 = found at hagree ⊢
  generalize (outcome work' other).1 = found' at hagree ⊢
  cases hagree with
  | ok hab => exact .ok (himp _ _ hab)
  | error status => exact .error status

/-- Both sides find the same out without looking at the objects. -/
theorem same (found : Except Status α) :
    Parallel failure bound asks (fun a b ↦ b = a) (liftM found) (liftM found) := by
  cases found with
  | error status => exact lift (.error status)
  | ok a => exact lift (.ok rfl)

theorem bind {work : Work α} {work' : Work β} {next : α → Work γ} {next' : β → Work δ}
    {alike' : γ → δ → Prop} (h : Parallel failure bound asks alike work work')
    (hnext : ∀ a b, alike a b → Parallel failure bound asks alike' (next a) (next' b)) :
    Parallel failure bound asks alike' (work >>= next) (work' >>= next') := by
  intro reports effects other heffects
  obtain ⟨hagree, hafter⟩ := h reports effects other heffects
  rw [outcome_bind, outcome_bind]
  generalize outcome work effects = result at hagree hafter ⊢
  generalize outcome work' other = result' at hagree hafter ⊢
  obtain ⟨found, after⟩ := result
  obtain ⟨found', after'⟩ := result'
  cases hagree with
  | ok hab => exact hnext _ _ hab _ _ _ hafter
  | error status => exact ⟨.error status, hafter⟩

/-- Both sides look for an object. -/
theorem need {table : Objects → Table α} {what : String} {handle : Option Handle}
    {alike : Handle → α → α → Prop}
    (h : ∀ {reports objects other}, Twins failure bound reports objects other → ∀ found,
      Option.Rel (alike found) ((table objects).get? found) ((table other).get? found)) :
    Parallel failure bound asks
      (fun a b ↦ handle = some a.1 ∧ b.1 = a.1 ∧ alike a.1 a.2 b.2)
      (need table what handle) (need table what handle) := by
  intro reports effects other heffects
  rw [outcome_need, outcome_need]
  refine ⟨?_, heffects⟩
  cases handle with
  | none => exact .error _
  | some handle =>
    have hfound := h heffects.objects handle
    rw [Table.find?, Table.find?, Option.bind_some, Option.bind_some]
    generalize (table effects.objects).get? handle = object at hfound ⊢
    generalize (table other.objects).get? handle = object' at hfound ⊢
    cases hfound with
    | some halike => exact .ok ⟨rfl, rfl, halike⟩
    | none => exact .error _

theorem change {update update' : Objects → Objects}
    (h : ∀ {reports objects other}, Twins failure bound reports objects other →
      Twins failure bound reports (update objects) (update' other)) :
    Parallel failure bound asks (fun _ _ ↦ True) (change update) (change update') :=
  fun _ _ _ heffects ↦ ⟨.ok trivial, h heffects.objects, heffects.written⟩

/-- Both sides write a result. -/
theorem write {result result' : Result} (h : result.Restated failure result') :
    Parallel failure bound asks (fun _ _ ↦ True) (write result) (write result') := by
  intro reports effects other heffects
  refine ⟨.ok trivial, ?_, List.rel_append heffects.written (.cons h .nil)⟩
  have hmore := heffects.objects.mono (if asks then handlesOf [result] else [])
  change Twins failure bound
    (reports ++ if asks then handlesOf (effects.written ++ [result]) else [])
    effects.objects other.objects
  cases asks with
  | false => exact heffects.objects
  | true =>
    simp only [if_true, handlesOf, List.filterMap_append] at hmore ⊢
    rwa [List.append_assoc] at hmore

theorem answer {result result' : Result} (place : Bool) (what : String)
    (h : result.Restated failure result') :
    Parallel failure bound asks (fun _ _ ↦ True) (answer place what result)
      (answer place what result') := by
  cases place with
  | false => exact Parallel.throw _
  | true => exact Parallel.write h

/-- Both sides make an object. -/
theorem make {add add' : Objects → Handle × Objects} (place : Bool) (what : String)
    (h : ∀ {reports objects other}, Twins failure bound reports objects other →
      (add' other).1 = (add objects).1 ∧
        Twins failure bound reports (add objects).2 (add' other).2) :
    Parallel failure bound asks (fun _ _ ↦ True) (make place what add) (make place what add') := by
  cases place with
  | false => exact Parallel.throw _
  | true =>
    intro reports effects other heffects
    obtain ⟨hhandle, hobjects⟩ := h heffects.objects
    have hwritten : (Result.handle (add effects.objects).1).Restated failure
        (.handle (add' other.objects).1) := by
      rw [hhandle]
      exact .same _
    exact write hwritten _ _ _ ⟨hobjects, heffects.written⟩

/-- Both sides make a message. If they differ, it is a report that was asked for. -/
theorem message {bytes bytes' : Bytes} (place : Bool) (what : String)
    (h : Restated failure bytes bytes') (hsame : asks = false → bytes' = bytes) :
    Parallel failure bound asks (fun _ _ ↦ True) (message place what bytes)
      (message place what bytes') := by
  cases place with
  | false => exact Parallel.throw _
  | true =>
    intro reports effects other heffects
    have hnext : (Result.handle effects.objects.messages.next).Restated failure
        (.handle other.objects.messages.next) := by
      rw [heffects.objects.nextMessage]
      exact .same _
    refine ⟨.ok trivial, ?_, List.rel_append heffects.written (.cons hnext .nil)⟩
    have hmore := heffects.objects.mono
      (if asks then [effects.objects.messages.next] else [])
    have hhandles : (reports ++ if asks then
        handlesOf (effects.written ++ [.handle effects.objects.messages.next]) else []) =
          (reports ++ if asks then handlesOf effects.written else []) ++
            if asks then [effects.objects.messages.next] else [] := by
      cases asks with
      | false => simp
      | true => simp [handlesOf, Result.handle?]
    change Twins failure bound (reports ++ if asks then
      handlesOf (effects.written ++ [.handle effects.objects.messages.next]) else [])
      { effects.objects with messages := (effects.objects.messages.add bytes).2 }
      { other.objects with messages := (other.objects.messages.add bytes').2 }
    rw [hhandles]
    refine { hmore with
      messages := fun handle ↦ ?_
      others := fun handle hhandle ↦ ?_
      nextMessage := congrArg (· + 1) hmore.nextMessage
      fit := ⟨hmore.fit.hosts, hmore.fit.errors⟩ }
    · dsimp only
      rw [Table.get?_add, Table.get?_add, hmore.nextMessage]
      split
      · exact .some h
      · exact hmore.messages handle
    · dsimp only
      rw [Table.get?_add, Table.get?_add, hmore.nextMessage]
      split
      · rename_i hfound
        cases asks with
        | false => rw [hsame rfl]
        | true => exact absurd (List.mem_append_right _ (List.mem_singleton.2 hfound)) hhandle
      · exact hmore.others handle hhandle

theorem data {bytes bytes' : Bytes} (base size : Bool) (h : Restated failure bytes bytes') :
    Parallel failure bound asks (fun _ _ ↦ True) (data base size bytes)
      (data base size bytes') := by
  unfold Work.data
  split
  · exact Parallel.throw _
  · split
    · exact Parallel.throw _
    · exact (Parallel.write (.base h)).bind fun _ _ _ ↦ Parallel.write (.size h)

end Parallel

end Work

section

variable {handle : Handle} {server : State}

/-- Reports agree if those before and after the failed request do. -/
theorem agree_report (ask : State → Except Status α) (write : α → Bytes)
    (h : ∀ found ∈ failure, Work.Agree (fun report report' ↦
      Restated failure (write report) (write report')) (ask server)
        (ask (server.recount found.timer))) :
    Work.Agree (fun report report' ↦ Restated failure (write report) (write report') ∧
        (failure.any (·.server = handle) = false → report' = report))
      (ask server) (ask (countFailure failure handle server)) := by
  by_cases hasked : failure.any (·.server = handle) = true
  · obtain ⟨found, hfound, hhandle⟩ := (Option.any_eq_true _ _).1 hasked
    have hagree := h found hfound
    obtain rfl : failure = some found := hfound
    obtain rfl : found.server = handle := of_decide_eq_true hhandle
    rw [show countFailure (some found) found.server server = server.recount found.timer from
      if_pos rfl]
    generalize ask server = report at hagree ⊢
    generalize ask (server.recount found.timer) = report' at hagree ⊢
    cases hagree with
    | ok halike => exact .ok ⟨halike, fun hnot ↦ absurd (hasked.symm.trans hnot) nofun⟩
    | error status => exact .error status
  · rw [countFailure_of_not_asked (Bool.not_eq_true _ ▸ hasked)]
    cases ask server with
    | error status => exact .error status
    | ok report => exact .ok ⟨.same _, fun _ ↦ rfl⟩

theorem agree_status :
    Restated failure (ServerStatus.message.write server.status)
        (ServerStatus.message.write (countFailure failure handle server).status) ∧
      (failure.any (·.server = handle) = false →
        (countFailure failure handle server).status = server.status) := by
  have hagree := @agree_report failure ServerStatus handle server (fun server ↦ .ok server.status)
    ServerStatus.message.write fun found hfound ↦ by
      obtain rfl : failure = some found := hfound
      exact .ok (.status server)
  generalize hreport : (countFailure failure handle server).status = report at hagree ⊢
  cases hagree with
  | ok h => exact h

theorem agree_modelStatus (model : String) :
    Work.Agree (fun report report' ↦ Restated failure (ServerStatus.message.write report)
        (ServerStatus.message.write report') ∧
          (failure.any (·.server = handle) = false → report' = report))
      (server.modelStatus model) ((countFailure failure handle server).modelStatus model) := by
  refine agree_report (·.modelStatus model) ServerStatus.message.write fun found hfound ↦ ?_
  obtain rfl : failure = some found := hfound
  rcases @State.modelStatus_recount server found.timer model with
    ⟨status, hbefore, hafter⟩ | ⟨report, report', hbefore, hafter⟩
  · rw [hbefore, hafter]
    exact .error status
  · rw [hbefore, hafter]
    exact .ok (.modelStatus hbefore hafter)

theorem agree_metricsText :
    Work.Agree (fun text text' ↦ Restated failure (Bytes.ofText text) (Bytes.ofText text') ∧
        (failure.any (·.server = handle) = false → text' = text))
      server.metricsText (countFailure failure handle server).metricsText := by
  refine agree_report State.metricsText Bytes.ofText fun found hfound ↦ ?_
  obtain rfl : failure = some found := hfound
  cases hmetrics : server.options.metrics with
  | true =>
    have hbefore : server.metricsText = .ok server.books.metrics.text := if_pos hmetrics
    have hafter : (server.recount found.timer).metricsText =
        .ok (server.recount found.timer).books.metrics.text := if_pos hmetrics
    rw [hbefore, hafter]
    exact .ok (.metrics hbefore hafter)
  | false =>
    have hoff : ¬ server.options.metrics = true := Bool.eq_false_iff.1 hmetrics
    have hbefore : server.metricsText = _ := if_neg hoff
    have hafter : (server.recount found.timer).metricsText = _ := if_neg hoff
    rw [hbefore, hafter]
    exact .error _

end

/-! ## Calls side by side -/

namespace Call

open Work

variable {files : Files.Tree} {freshId : String} {asks : Bool}

theorem parallel_host (server : Option Handle) :
    Parallel failure bound asks
      (fun a b ↦ server = some a.1 ∧ b.1 = a.1 ∧ Host.Twins failure a.1 a.2 b.2)
      (host server) (host server) := by
  refine Parallel.need fun h found ↦ ?_
  rw [h.servers]
  cases hfound : (Objects.servers _).get? found with
  | none => exact .none
  | some host => exact .some ⟨rfl, (h.fit.hosts hfound).2, h.shown hfound⟩

/-- Objects that are the same on both sides. -/
theorem parallel_same {table : Objects → Table α}
    (h : ∀ {reports objects other}, Twins failure bound reports objects other →
      table other = table objects) (what : String) (handle : Option Handle) :
    Parallel failure bound asks (fun a b ↦ b = a) (need table what handle)
      (need table what handle) := by
  refine (@Parallel.need failure bound α asks table what handle (fun _ object object' ↦
    object' = object) fun htwins found ↦ ?_).mono fun a b hab ↦ Prod.ext hab.2.1 hab.2.2
  rw [h htwins]
  cases (table _).get? found with
  | none => exact .none
  | some object => exact .some rfl

/-- A created server is the same on both sides and receptive. -/
theorem agree_createServer (options : Options) :
    Agree (fun server server' ↦ server' = server ∧ server.Receptive)
      (createServer files freshId options) (createServer files freshId options) := by
  unfold createServer
  cases hcreate : State.create files .standard freshId options with
  | error status => exact .error _
  | ok server => exact .ok ⟨rfl, .of_create hcreate⟩

/-- A submission does the same on both sides. -/
theorem parallel_submit {handle : Handle} {host other : Host} (h : host.Twins failure handle other)
    (request : Submission) (context : Nat) :
    Parallel failure bound asks (fun _ _ ↦ True) (submit handle host request context)
      (submit handle other request context) := by
  obtain ⟨rfl, hfit, hshown⟩ := h
  intro reports effects others heffects
  obtain ⟨hsubmit, hlater⟩ := submit_countFailure hshown host.next request
  rw [outcome_submit, outcome_submit]
  dsimp only [Host.recount]
  rw [hsubmit]
  have hreceptive := hfit.receptive.fst_submit host.next request
  generalize host.server.submit host.next request = result at hlater hreceptive ⊢
  obtain ⟨server, status | _⟩ := result
  · refine ⟨.error status, ?_, heffects.written⟩
    exact @Twins.putBack _ _ _ _ _ heffects.objects handle { host with server } hreceptive hlater
  · refine ⟨.ok trivial, ?_, heffects.written⟩
    exact @Twins.putBack _ _ _ _ _ heffects.objects handle {
      server
      next := host.next + 1
      awaited := host.awaited ++ [(host.next, context)] } hreceptive hlater

/-- Stopping a server and deleting it does the same on both sides. -/
theorem parallel_stopServer {handle : Handle} {host other : Host}
    (h : host.Twins failure handle other) :
    Parallel failure bound asks (fun _ _ ↦ True) (stopServer handle host)
      (stopServer handle other) := by
  obtain ⟨rfl, hfit, hshown⟩ := h
  intro reports effects others heffects
  refine ⟨.ok trivial, ?_, heffects.written⟩
  have hretire := heffects.objects.retire handle { host with server := host.server.stop }
  unfold Host.recount at hretire
  rw [← (stop_countFailure hshown).1] at hretire
  exact hretire

/-- A call does the same on both sides. -/
theorem parallel_perform (call : Call) :
    Parallel failure bound (call.asks failure) (fun _ _ ↦ True) (call.perform files freshId)
      (call.perform files freshId) := by
  unfold perform
  cases call with
  | newOptions place =>
    refine Parallel.make _ _ fun h ↦ ⟨congrArg Table.next h.options, ?_⟩
    exact h.changeOptions fun options ↦ (options.add {}).2
  | setOption options setting =>
    refine (parallel_same (·.options) _ _).bind ?_
    rintro _ ⟨handle, found⟩ rfl
    refine (Parallel.same _).bind ?_
    rintro _ changed rfl
    exact Parallel.change fun h ↦ h.changeOptions fun table ↦ table.replace handle changed
  | newServer options place =>
    refine (parallel_same (·.options) _ _).bind ?_
    rintro _ ⟨handle, found⟩ rfl
    refine (Parallel.lift (agree_createServer found)).bind ?_
    rintro _ server ⟨rfl, hreceptive⟩
    refine Parallel.make _ _ fun h ↦ ?_
    exact @Twins.newServer _ _ _ _ _ h { server } ⟨hreceptive, nofun⟩
  | deleteServer server =>
    cases server with
    | none => exact Parallel.pure trivial
    | some handle =>
      intro reports effects other heffects
      dsimp only
      rw [outcome_get, outcome_get, heffects.objects.servers]
      cases hfound : effects.objects.servers.get? handle with
      | none => exact ⟨.ok trivial, heffects⟩
      | some host =>
        exact parallel_stopServer ⟨rfl, (heffects.objects.fit.hosts hfound).2,
          heffects.objects.shown hfound⟩ reports effects other heffects
  | isLive server place =>
    refine (parallel_host server).bind ?_
    rintro ⟨handle, host⟩ ⟨_, _⟩ ⟨-, -, htwins⟩
    refine Parallel.answer _ _ ?_
    rw [State.isLive_eq_true, State.isLive_eq_true]
    exact .same _
  | isReady server place =>
    refine (parallel_host server).bind ?_
    rintro ⟨handle, host⟩ ⟨_, _⟩ ⟨-, -, rfl, -⟩
    refine Parallel.answer _ _ ?_
    dsimp only [Host.recount]
    rw [isReady_countFailure]
    exact .same _
  | serverStatus server place =>
    refine (parallel_host server).bind ?_
    rintro ⟨handle, host⟩ ⟨_, _⟩ ⟨rfl, -, rfl, -⟩
    obtain ⟨hrestated, hsame⟩ := @agree_status failure handle host.server
    exact Parallel.message _ _ hrestated fun hasks ↦
      congrArg ServerStatus.message.write (hsame hasks)
  | modelStatus server model place =>
    refine (parallel_host server).bind ?_
    rintro ⟨handle, host⟩ ⟨_, _⟩ ⟨rfl, -, rfl, -⟩
    refine (Parallel.same _).bind ?_
    rintro _ model rfl
    refine (Parallel.lift (agree_modelStatus model)).bind ?_
    rintro report report' ⟨hrestated, hsame⟩
    exact Parallel.message _ _ hrestated fun hasks ↦
      congrArg ServerStatus.message.write (hsame hasks)
  | serverMetrics server place =>
    refine (parallel_host server).bind ?_
    rintro ⟨handle, host⟩ ⟨_, _⟩ ⟨rfl, -, rfl, -⟩
    refine (Parallel.lift agree_metricsText).bind ?_
    rintro text text' ⟨hrestated, hsame⟩
    exact Parallel.message _ _ hrestated fun hasks ↦ congrArg Bytes.ofText (hsame hasks)
  | serverId server place =>
    refine (parallel_host server).bind ?_
    rintro ⟨handle, host⟩ ⟨_, _⟩ ⟨-, -, rfl, -⟩
    refine Parallel.answer _ _ ?_
    dsimp only [Host.recount]
    rw [id_countFailure]
    exact .same _
  | newRequest model selector header place =>
    refine (Parallel.same _).bind ?_
    rintro _ name rfl
    dsimp only
    split
    · exact Parallel.stop _
    · refine (Parallel.same _).bind ?_
      rintro _ request rfl
      refine Parallel.make _ _ fun h ↦ ⟨congrArg Table.next h.requests, ?_⟩
      exact h.changeRequests fun requests ↦ (requests.add request).2
  | setInput request input data =>
    refine (parallel_same (·.requests) _ _).bind ?_
    rintro _ ⟨handle, found⟩ rfl
    refine (Parallel.same _).bind ?_
    rintro _ name rfl
    dsimp only
    split
    · exact Parallel.stop _
    · exact Parallel.change fun h ↦ h.changeRequests fun requests ↦
        requests.replace handle (found.append name data.bytes)
  | infer server request callback context =>
    refine (parallel_host server).bind ?_
    rintro ⟨handle, host⟩ ⟨_, _⟩ ⟨-, rfl, htwins⟩
    refine (parallel_same (·.requests) _ _).bind ?_
    rintro _ ⟨_, submission⟩ rfl
    dsimp only
    split
    · exact Parallel.stop _
    · exact parallel_submit htwins submission context
  | responseStatus response =>
    refine (parallel_same (·.responses) _ _).bind ?_
    rintro _ ⟨handle, found⟩ rfl
    exact (Parallel.same _).mono fun _ _ _ ↦ trivial
  | responseHeader response place =>
    refine (parallel_same (·.responses) _ _).bind ?_
    rintro _ ⟨handle, found⟩ rfl
    refine (Parallel.same _).bind ?_
    rintro _ header rfl
    exact Parallel.message _ _ (.same _) fun _ ↦ rfl
  | responseOutput response output base size =>
    refine (parallel_same (·.responses) _ _).bind ?_
    rintro _ ⟨handle, found⟩ rfl
    refine (Parallel.same _).bind ?_
    rintro _ name rfl
    refine (Parallel.same _).bind ?_
    rintro _ bytes rfl
    exact Parallel.data _ _ (.same _)
  | readMessage message base size =>
    refine (Parallel.need fun h ↦ h.messages).bind ?_
    rintro ⟨handle, bytes⟩ ⟨_, bytes'⟩ ⟨-, -, hrestated⟩
    exact Parallel.data _ _ hrestated
  | deleteOptions handle =>
    cases handle with
    | none => exact Parallel.pure trivial
    | some handle =>
      exact Parallel.change fun h ↦ h.changeOptions fun options ↦ options.remove handle
  | deleteRequest handle =>
    cases handle with
    | none => exact Parallel.pure trivial
    | some handle =>
      exact Parallel.change fun h ↦ h.changeRequests fun requests ↦ requests.remove handle
  | deleteResponse handle =>
    cases handle with
    | none => exact Parallel.pure trivial
    | some handle =>
      exact Parallel.change fun h ↦ h.changeResponses fun responses ↦ responses.remove handle
  | deleteMessage handle =>
    cases handle with
    | none => exact Parallel.pure trivial
    | some handle => exact Parallel.change fun h ↦ h.deleteMessage handle

end Call

end TensorInference.Interface
