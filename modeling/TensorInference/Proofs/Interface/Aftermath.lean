import TensorInference.Proofs.Interface.Parallel

/-!
# Calls that fail leave no trace

Whatever callers have done before, a call writes all of its results, or it fails, and then it has
written nothing and made nothing but the error object. All that is told later is told as if the call
had not been made, but that a request that was refused by a model version is counted as a failed one
(`traceless_call`).
-/

namespace TensorInference.Interface

open Server Inference Wire

variable {failure : Option Failure} {bound : Handle} {reports : List Handle}
  {objects other : Objects} {files : Files.Tree} {freshId : String}

/-! ## Events side by side -/

theorem Objects.error?_addError (objects : Objects) (status : Status) :
    (objects.addError status).2.error? (some (objects.addError status).1) = some status := by
  change (objects.errors.add status).2.get? objects.errors.next = some status
  rw [Table.get?_add, if_pos rfl]

theorem Objects.call_eq (objects : Objects) (call : Call) : objects.call files freshId call =
    match Work.outcome (call.perform files freshId) { objects } with
    | (.ok (), effects) => (effects.objects, ⟨effects.written, none⟩)
    | (.error status, effects) => ((effects.objects.addError status).2,
      ⟨effects.written, some (effects.objects.addError status).1⟩) := rfl

/-- The objects after a call, and what is told of it. -/
theorem Objects.take_call (objects : Objects) (call : Call) :
    (objects.take (.call files freshId call), objects.answer (.call files freshId call)) =
      match Work.outcome (call.perform files freshId) { objects } with
      | (.ok (), effects) => (effects.objects, ⟨effects.written, none⟩)
      | (.error status, effects) =>
        ((effects.objects.addError status).2, ⟨effects.written, some status⟩) := by
  unfold take answer
  dsimp only
  rw [call_eq]
  rcases Work.outcome (call.perform files freshId) { objects } with ⟨status | _, effects⟩
  · dsimp only
    rw [error?_addError]
  · rfl

/-- An event does the same on both sides and is told in the same way. -/
theorem Twins.take (h : Twins failure bound reports objects other) (event : Event) :
    Twins failure bound
        (reports ++ if event.asks failure then handlesOf (objects.answer event).written else [])
        (objects.take event) (other.take event) ∧
      (objects.answer event).Restates failure (other.answer event) := by
  cases event with
  | call files freshId call =>
    have hbefore : Work.Alike failure bound reports (call.asks failure) { objects }
        { objects := other } := by
      refine ⟨?_, .nil⟩
      have hsame : (if call.asks failure then handlesOf ([] : List Result) else []) = [] :=
        ite_self _
      rw [hsame, List.append_nil]
      exact h
    obtain ⟨hagree, htwins, hwritten⟩ := @Call.parallel_perform _ _ files freshId call _ _ _ hbefore
    have htake := @Objects.take_call files freshId objects call
    have htake' := @Objects.take_call files freshId other call
    generalize Work.outcome (call.perform files freshId) { objects } = result
      at hagree htwins hwritten htake
    generalize Work.outcome (call.perform files freshId) { objects := other } = result'
      at hagree htwins hwritten htake'
    obtain ⟨found, effects⟩ := result
    obtain ⟨found', effects'⟩ := result'
    cases hagree with
    | ok _ =>
      obtain ⟨hobjects, hanswer⟩ := Prod.mk.inj htake
      obtain ⟨hobjects', hanswer'⟩ := Prod.mk.inj htake'
      rw [hobjects, hanswer, hobjects', hanswer']
      exact ⟨htwins, hwritten, rfl⟩
    | error status =>
      obtain ⟨hobjects, hanswer⟩ := Prod.mk.inj htake
      obtain ⟨hobjects', hanswer'⟩ := Prod.mk.inj htake'
      rw [hobjects, hanswer, hobjects', hanswer']
      exact ⟨htwins.addError status, hwritten, rfl⟩
  | newError code message =>
    unfold Objects.take Objects.answer Objects.newError
    dsimp only
    cases Status.create code message.readLoosely with
    | none => exact ⟨h.mono _, .nil, rfl⟩
    | some status =>
      refine ⟨(h.addError status).mono _, .nil, ?_⟩
      dsimp only
      rw [Objects.error?_addError, Objects.error?_addError]
  | deleteError error =>
    exact ⟨(h.deleteError error).mono _, .nil, rfl⟩
  | advance server actions =>
    refine ⟨Twins.mono ?_ _, .nil, rfl⟩
    unfold Objects.take Objects.advance
    dsimp only
    rw [h.servers]
    cases hfound : objects.servers.get? server with
    | none => exact h
    | some host =>
      obtain ⟨hrun, hshown⟩ := attempts_countFailure (h.shown hfound)
        (actions.filter (·.isInternal))
      have hinternal : ∀ action ∈ actions.filter (·.isInternal), action.isInternal = true :=
        fun action haction ↦ (List.mem_filter.1 haction).2
      have hreceptive := (h.fit.hosts hfound).2.receptive.attempts hinternal
      have hput := @Twins.putBack _ _ _ _ _ h server { host with
        server := (actions.filter (·.isInternal)).foldl State.attempt host.server }
        hreceptive hshown
      unfold Host.recount at hput
      rw [← hrun] at hput
      exact hput

/-- A course of events does the same on both sides. -/
theorem Twins.after (h : Twins failure bound reports objects other) (events : List Event) :
    Twins failure bound (reports ++ objects.reports failure events) (objects.after events)
      (other.after events) := by
  induction events generalizing reports objects other with
  | nil =>
    rw [Objects.reports, List.append_nil]
    exact h
  | cons event rest ih =>
    rw [Objects.reports, ← List.append_assoc]
    exact ih (h.take event).1

/-- Callers can have come to objects in which all servers are receptive. -/
theorem Objects.fit_after (history : List Event) : (Objects.after {} history).Fit := by
  have hempty : Objects.Fit {} := ⟨nofun, nofun⟩
  have hevents : ∀ (events : List Event) (objects : Objects), objects.Fit →
      (objects.after events).Fit := by
    intro events
    induction events with
    | nil => exact fun _ h ↦ h
    | cons event rest ih => exact fun objects h ↦ ih _ ((Twins.refl h).take event).1.fit
  exact hevents history {} hempty

/-- A server is put back with a failed request in its books. -/
theorem Twins.count (h : objects.Fit) {handle : Handle} {host : Host}
    (hhost : objects.servers.get? handle = some host)
    (hfailure : ∀ found ∈ failure, found.server = handle)
    (hshown : Shown failure handle host.server) :
    Twins failure objects.errors.next [] objects { objects with
      servers := objects.servers.replace handle (host.recount failure handle) } := by
  obtain ⟨hgiven, hfit⟩ := h.hosts hhost
  have hother : ∀ found, found ≠ handle → ∀ server,
      countFailure failure found server = server ∧ Shown failure found server := by
    refine fun found hne server ↦ ⟨countFailure_of_not_asked ?_, fun timer htimer ↦
      absurd (hfailure _ htimer) hne⟩
    rw [Option.any_eq_false]
    exact fun failed hfailed ↦ decide_eq_false fun hsame ↦
      hne (hsame.symm.trans (hfailure _ hfailed))
  exact {
    options := rfl
    requests := rfl
    responses := rfl
    callbacks := rfl
    servers := fun found ↦ by
      rw [Table.get?_replace]
      split
      · rename_i hsame
        rw [hsame, hhost, Option.map_some, Option.map_some]
      · rename_i hne
        cases objects.servers.get? found with
        | none => rfl
        | some other => rw [Option.map_some, Host.recount, (hother found hne _).1]
    nextServer := rfl
    messages := fun _ ↦ Restated.rel_refl _
    others := fun _ _ ↦ rfl
    nextMessage := rfl
    errors := fun _ _ ↦ rfl
    fit := h
    given := fun found hfound ↦ (hfailure found hfound).symm ▸ hgiven
    shown := fun {found other} hfound ↦ by
      by_cases hsame : found = handle
      · subst hsame
        obtain rfl := Option.some.inj (hhost.symm.trans hfound)
        exact hshown
      · exact (hother found hsame _).2
    room := Nat.le_refl _
    otherRoom := Nat.le_refl _ }

/-- A submission that fails leaves a failed request in the books if it reached a model version. -/
theorem Twins.of_failed_submit (h : objects.Fit) {handle : Handle} {host : Host}
    {submission : Submission} {context : Nat} {status : Status} {effects : Effects}
    (hhost : objects.servers.get? handle = some host)
    (hfailed : Work.outcome (Call.submit handle host submission context) { objects } =
      (.error status, effects)) :
    effects.written = [] ∧ effects.objects.errors = objects.errors ∧
      Twins
        (match host.server.resolve submission.model submission.selector with
          | .ok backend => some ⟨handle, host.server.timer submission backend⟩
          | .error _ => none)
        objects.errors.next [] objects effects.objects := by
  have hfit := (h.hosts hhost).2
  rw [Call.outcome_submit] at hfailed
  rcases hfit.receptive.submit host.next submission with ⟨next, hsubmit, -⟩ | ⟨found, hsubmit⟩
  · rw [hsubmit] at hfailed
    cases hfailed
  · rw [hsubmit] at hfailed
    obtain ⟨-, rfl⟩ := Prod.mk.inj hfailed
    cases hresolve : host.server.resolve submission.model submission.selector with
    | error fault =>
      dsimp only
      rw [Objects.putBack_of_fit hfit]
      exact ⟨rfl, rfl, Twins.count h hhost nofun nofun⟩
    | ok backend =>
      dsimp only
      have hcounted : ({ host with
          server := host.server.recount (host.server.timer submission backend) } : Host).Fit :=
        ⟨hfit.receptive.recount _, hfit.told⟩
      have hrecount : host.recount (some ⟨handle, host.server.timer submission backend⟩) handle =
          { host with server := host.server.recount (host.server.timer submission backend) } := by
        rw [Host.recount, countFailure, if_pos rfl]
      rw [Objects.putBack_of_fit hcounted, ← hrecount]
      refine ⟨rfl, rfl, Twins.count h hhost (fun found hfound ↦ ?_) fun timer htimer ↦ ?_⟩
      · obtain rfl := Option.some.inj hfound
        rfl
      · obtain rfl := (Failure.mk.inj (Option.some.inj htimer)).2
        exact hfit.receptive.shown hresolve

/-- A call that fails has written nothing and leaves nothing but a failed request in the books. -/
theorem Twins.of_failed (h : objects.Fit) {call : Call} {status : Status} {effects : Effects}
    (hfailed : Work.outcome (call.perform files freshId) { objects } = (.error status, effects)) :
    effects.written = [] ∧ effects.objects.errors = objects.errors ∧
      Twins (objects.failure? call) objects.errors.next [] objects effects.objects := by
  have hnothing : effects = { objects } → objects.failure? call = none →
      effects.written = [] ∧ effects.objects.errors = objects.errors ∧
        Twins (objects.failure? call) objects.errors.next [] objects effects.objects := by
    rintro rfl hnone
    rw [hnone]
    exact ⟨rfl, rfl, .refl h⟩
  cases hsubmits : call.submits with
  | false =>
    have hyields := @Call.yields_perform files freshId call hsubmits { objects }
    rw [hfailed] at hyields
    refine hnothing hyields ?_
    unfold Objects.failure?
    split
    · cases hsubmits
    · rfl
  | true =>
    unfold Call.submits at hsubmits
    split at hsubmits
    · rename_i server request callback context
      rw [Call.outcome_infer] at hfailed
      cases callback with
      | false =>
        split at hfailed
        · exact hnothing (Prod.mk.inj hfailed).2.symm rfl
        · exact hnothing (Prod.mk.inj hfailed).2.symm rfl
        · exact hnothing (Prod.mk.inj hfailed).2.symm rfl
      | true =>
        unfold Objects.failure? at hnothing ⊢
        dsimp only at hfailed hnothing ⊢
        cases hserver : objects.servers.find? server with
        | none =>
          rw [hserver] at hfailed hnothing
          exact hnothing (Prod.mk.inj hfailed).2.symm rfl
        | some found =>
          obtain ⟨handle, host⟩ := found
          cases hrequest : objects.requests.find? request with
          | none =>
            rw [hserver, hrequest] at hfailed hnothing
            exact hnothing (Prod.mk.inj hfailed).2.symm rfl
          | some found =>
            obtain ⟨_, submission⟩ := found
            rw [hserver, hrequest] at hfailed
            obtain ⟨given, -, hgiven⟩ := Option.bind_eq_some_iff.1 hserver
            obtain ⟨held, hheld, hsame⟩ := Option.map_eq_some_iff.1 hgiven
            obtain ⟨rfl, rfl⟩ := Prod.mk.inj hsame
            exact Twins.of_failed_submit h hheld hfailed
    · cases hsubmits

/-- A call that succeeds has written all of its results. -/
theorem Call.places_of_ok {call : Call} {effects : Effects}
    (hok : Work.outcome (call.perform files freshId) { objects } = (.ok (), effects)) :
    effects.written.map Result.kind = call.places := by
  cases hsubmits : call.submits with
  | false =>
    have hyields := @Call.yields_perform files freshId call hsubmits { objects }
    rw [hok] at hyields
    exact hyields
  | true =>
    unfold Call.submits at hsubmits
    split at hsubmits
    · rw [Call.outcome_infer] at hok
      split at hok
      · cases hok
      · cases hok
      · split at hok
        · rw [Call.outcome_submit] at hok
          split at hok
          · obtain ⟨-, rfl⟩ := Prod.mk.inj hok
            rfl
          · cases hok
        · cases hok
    · cases hsubmits

/-- The failed request of a call is recorded under the version that it reached. -/
theorem Objects.counted_of_failure? {call : Call} {failure : Failure}
    (h : objects.failure? call = some failure) :
    ∃ version, failure.timer.version = some version ∧ ∀ server : State,
      server.recount failure.timer =
        { server with books := server.books.recordFailure failure.timer version 0 } := by
  unfold failure? at h
  split at h
  · split at h
    · split at h
      · rename_i backend _
        obtain rfl := Option.some.inj h
        refine ⟨backend.version, rfl, fun server ↦ ?_⟩
        have hdrop : ∀ (timer : Timer) (books : Books), timer.finished = false →
            timer.version = some backend.version →
              timer.drop timer.start books = books.recordFailure timer backend.version 0 := by
          intro timer books hfinished hversion
          rw [Timer.drop, Timer.finish, if_neg (by rw [hfinished]; exact Bool.false_ne_true),
            hversion, Nat.sub_self]
          rfl
        rw [State.recount, hdrop _ _ rfl rfl]
      · cases h
    · cases h
  · cases h

/-! ## No trace -/

/-- What is left of a call that failed. -/
structure Traceless (failure : Option Failure) (error : Handle) (objects next : Objects) : Prop where
  /-- The error object is new, and nothing else is. -/
  fresh : objects.isLive .error error = false
  handles : ∀ kind handle, next.isLive kind handle =
    (objects.isLive kind handle || decide (kind = .error ∧ handle = error))
  /-- The failed request is one that reached a model version, and it took no time. -/
  counted : ∀ found ∈ failure, ∃ version, found.timer.version = some version ∧
    ∀ server : State, server.recount found.timer =
      { server with books := server.books.recordFailure found.timer version 0 }
  /-- Whatever happens later, the objects are as without the call, but for the failed request. -/
  later : ∀ events, Recounts failure error (objects.reports failure events) (objects.after events)
    (next.after events)
  /-- Whatever happens later is told as without the call, but for the failed request. -/
  told : ∀ events event,
    ((objects.after events).answer event).Restates failure ((next.after events).answer event)

/-- What is left is as if the call had not been made. -/
theorem Twins.traceless {call : Call} {others : Objects}
    (h : Twins (objects.failure? call) objects.errors.next [] objects others)
    (herrors : others.errors = objects.errors) (status : Status) :
    Traceless (objects.failure? call) objects.errors.next objects (others.addError status).2 := by
  have hnone : ∀ {found}, objects.errors.get? objects.errors.next ≠ some found :=
    fun hfound ↦ absurd (h.fit.errors hfound) (Nat.lt_irrefl _)
  have htwins : Twins (objects.failure? call) objects.errors.next [] objects
      (others.addError status).2 :=
    { h with
      errors := fun handle hhandle ↦ by
        change (others.errors.add status).2.get? handle = _
        rw [Table.get?_add, herrors, if_neg (Nat.ne_of_lt hhandle)]
      otherRoom := Nat.le_succ_of_le h.otherRoom }
  have hlater : ∀ events, Twins (objects.failure? call) objects.errors.next
      (objects.reports (objects.failure? call) events) (objects.after events)
      ((others.addError status).2.after events) := htwins.after
  refine ⟨?_, fun kind handle ↦ ?_, fun _ ↦ Objects.counted_of_failure?,
    fun events ↦ (hlater events).toRecounts, fun events event ↦ ((hlater events).take event).2⟩
  · exact Option.isSome_eq_false_iff.2 (Option.isNone_iff_eq_none.2
      (Option.eq_none_iff_forall_ne_some.2 fun _ ↦ hnone))
  · cases kind with
    | options => simp [Objects.isLive, htwins.options]
    | server => simp [Objects.isLive, htwins.servers]
    | request => simp [Objects.isLive, htwins.requests]
    | response => simp [Objects.isLive, htwins.responses]
    | message =>
      have hsame : ∀ {data data' : Option Bytes},
          Option.Rel (Restated (objects.failure? call)) data data' →
            data'.isSome = data.isSome := by
        rintro _ _ (_ | _)
        · rfl
        · rfl
      simp [Objects.isLive, hsame (htwins.messages handle)]
    | error =>
      change ((others.errors.add status).2.get? handle).isSome = _
      rw [Table.get?_add, herrors]
      split
      · rename_i hsame
        simp [hsame]
      · rename_i hne
        simp [Objects.isLive, hne]

/-- Whatever callers have done, a call writes all of its results, or it fails and leaves no trace but
the error object and the failed request in the books. -/
theorem traceless_call (history : List Event) (files : Files.Tree) (freshId : String) (call : Call) :
    let objects := Objects.after {} history
    let (next, reply) := objects.call files freshId call
    match reply.error with
    | none => reply.written.map Result.kind = call.places
    | some error => reply.written = [] ∧
      Traceless (objects.failure? call) error objects next := by
  have hfit := Objects.fit_after history
  generalize Objects.after {} history = objects at hfit
  dsimp only
  rw [Objects.call_eq]
  rcases hrun : Work.outcome (call.perform files freshId) { objects } with ⟨status | _, effects⟩
  · obtain ⟨hwritten, herrors, htwins⟩ := Twins.of_failed hfit hrun
    dsimp only
    refine ⟨hwritten, ?_⟩
    have hhandle : (effects.objects.addError status).1 = objects.errors.next :=
      congrArg Table.next herrors
    rw [hhandle]
    exact htwins.traceless herrors status
  · exact Call.places_of_ok hrun

end TensorInference.Interface
