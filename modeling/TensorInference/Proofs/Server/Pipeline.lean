import TensorInference.Proofs.Server.Limits

/-!
# Answers do not depend on the traffic

`Backend.answer` serves one submission alone: it prepares the request, lets the program run to its
end without a pause, and concludes. Whatever the actions of others in between, every job in the
traffic is on the way from what was prepared for its submission to that answer, and every
completion is that answer.
-/

namespace TensorInference

open Model Inference

/-- Let a program work on a response to its end; what it waits for comes at once. -/
def Platform.Program.complete (model : String) :
    Platform.Program → Response → Response × Except Status Unit
  | .finish outcome, response => (response, outcome)
  | .crash message, response => (response, .error (Server.crashStatus model message))
  | .wait next, response => complete model next response
  | .store name shape data next, response =>
    match response.store name shape data with
    | .ok response => complete model (next (.ok ())) response
    | .error status => complete model (next (.error status)) response

namespace Platform.Program

variable {model : String} {program : Platform.Program} {response after : Response}

theorem complete_of_outcome {pause : Pause} {outcome : Except Status Unit}
    (hadvance : program.advance response = (after, pause))
    (houtcome : pause.outcome? model = some outcome) :
    program.complete model response = (after, outcome) := by
  induction program generalizing response with
  | finish result =>
    obtain ⟨rfl, rfl⟩ := Prod.mk.inj hadvance
    obtain rfl := Option.some.inj houtcome
    rfl
  | crash message =>
    obtain ⟨rfl, rfl⟩ := Prod.mk.inj hadvance
    obtain rfl := Option.some.inj houtcome
    rfl
  | wait next =>
    obtain ⟨rfl, rfl⟩ := Prod.mk.inj hadvance
    cases houtcome
  | store name shape data next ih =>
    rw [advance] at hadvance
    rw [complete]
    cases hstore : response.store name shape data with
    | ok stored =>
      rw [hstore] at hadvance
      exact ih _ hadvance
    | error status =>
      rw [hstore] at hadvance
      exact ih _ hadvance

theorem complete_of_waiting {next : Platform.Program}
    (hadvance : program.advance response = (after, .waiting next)) :
    program.complete model response = next.complete model after := by
  induction program generalizing response with
  | finish result => cases hadvance
  | crash message => cases hadvance
  | wait other =>
    obtain ⟨rfl, hnext⟩ := Prod.mk.inj hadvance
    obtain rfl := Pause.waiting.inj hnext
    rfl
  | store name shape data follow ih =>
    rw [advance] at hadvance
    rw [complete]
    cases hstore : response.store name shape data with
    | ok stored =>
      rw [hstore] at hadvance
      exact ih _ hadvance
    | error status =>
      rw [hstore] at hadvance
      exact ih _ hadvance

end Platform.Program

namespace Server

/-- How a response ends: it is described if the execution succeeded, and otherwise nothing of it is
kept. -/
def concluded (response : Response) (outcome : Except Status Unit) :
    Except Status Unit × Response :=
  match outcome.bind fun () ↦ response.finalize with
  | .ok final => (.ok (), final)
  | .error status => (.error status, response.clear)

/-- What a backend answers to a submission that it serves alone: the status and the response. -/
def Backend.answer (backend : Backend) (submission : Submission) :
    Except Status (Except Status Unit × Response) := do
  let (request, response) ← backend.prepare submission
  let (response, outcome) := (backend.executor request).complete backend.name response
  return concluded response outcome

theorem Job.conclude_eq (job : Job) (response : Response) (outcome : Except Status Unit) :
    job.conclude response outcome = {
      ticket := job.ticket
      status := (concluded response outcome).1
      response := (concluded response outcome).2 } := by
  unfold conclude concluded
  dsimp only
  generalize (outcome.bind fun _ ↦ response.finalize) = result
  cases result <;> rfl

/-- A backend prepared a request and a response for a submission that was entered under a ticket,
as the server resolves the submission from the start. -/
structure Prepares (start : State) (entered : List (Ticket × Submission)) (ticket : Ticket)
    (submission : Submission) (backend : Backend) (request : Request) (response : Response) :
    Prop where
  entered : (ticket, submission) ∈ entered
  resolved : start.resolve submission.model submission.selector = .ok backend
  prepared : backend.prepare submission = .ok (request, response)

/-- Every completion is the answer to its submission alone, and every job is on the way there. -/
structure Faithful (start : State) (entered : List (Ticket × Submission)) (traffic : Traffic) :
    Prop where
  entrants : ∀ entrant ∈ traffic.entrants, (entrant.ticket, entrant.submission) ∈ entered
  waiting : ∀ job ∈ traffic.waiting, ∃ submission backend,
    Prepares start entered job.ticket submission backend job.request job.response
  running : ∀ execution ∈ traffic.running, ∃ submission backend response,
    Prepares start entered execution.job.ticket submission backend execution.job.request response ∧
      execution.program.complete backend.name execution.job.response =
        (backend.executor execution.job.request).complete backend.name response
  completed : ∀ completion, completion ∈ traffic.outbox ∨ completion ∈ traffic.delivered →
    ∃ submission backend, (completion.ticket, submission) ∈ entered ∧
      start.resolve submission.model submission.selector = .ok backend ∧
      backend.answer submission = .ok (completion.status, completion.response)

variable {start server next : State} {entered : List (Ticket × Submission)} {action : Action}
  {traffic : Traffic}

theorem Prepares.mono {ticket : Ticket} {submission : Submission} {backend : Backend}
    {request : Request} {response : Response}
    (h : Prepares start entered ticket submission backend request response)
    (later : List (Ticket × Submission)) :
    Prepares start (entered ++ later) ticket submission backend request response :=
  ⟨List.mem_append_left later h.entered, h.resolved, h.prepared⟩

theorem Faithful.mono (h : Faithful start entered traffic) (later : List (Ticket × Submission)) :
    Faithful start (entered ++ later) traffic where
  entrants entrant hentrant := List.mem_append_left later (h.entrants entrant hentrant)
  waiting job hjob := by
    obtain ⟨submission, backend, hprepares⟩ := h.waiting job hjob
    exact ⟨submission, backend, hprepares.mono later⟩
  running execution hexecution := by
    obtain ⟨submission, backend, response, hprepares, hcomplete⟩ := h.running execution hexecution
    exact ⟨submission, backend, response, hprepares.mono later, hcomplete⟩
  completed completion hcompletion := by
    obtain ⟨submission, backend, hentered, hanswer⟩ := h.completed completion hcompletion
    exact ⟨submission, backend, List.mem_append_left later hentered, hanswer⟩

/-- A backend that a submission is resolved to is the one found under its name and version. -/
theorem Consistent.version?_of_resolve (hconsistent : Consistent start.backends start.books.status)
    {model : String} {selector : Int64} {backend : Backend}
    (h : start.resolve model selector = .ok backend) :
    start.backends.version? backend.name backend.version = some backend := by
  obtain ⟨version, hversion, -⟩ := exists_version?_of_resolve h
  exact hconsistent.version?_self hversion

theorem Faithful.enqueue (h : Faithful start entered traffic) {job : Job} {submission : Submission}
    {backend : Backend}
    (hjob : Prepares start entered job.ticket submission backend job.request job.response) :
    Faithful start entered (traffic.enqueue job) where
  entrants entrant hentrant := by
    obtain ⟨other, hother, rfl⟩ := List.mem_map.1 hentrant
    have hentered := h.entrants other hother
    split <;> exact hentered
  waiting other hother := by
    rcases List.mem_append.1 hother with hother | hother
    · exact h.waiting other hother
    · obtain rfl := List.mem_singleton.1 hother
      exact ⟨submission, backend, hjob⟩
  running := h.running
  completed := h.completed

theorem Faithful.startJob (h : Faithful start entered traffic) {job : Job} {timer : Timer}
    {submission : Submission} {backend : Backend}
    (hjob : Prepares start entered job.ticket submission backend job.request job.response) :
    Faithful start entered
      (traffic.start { job with timer } (backend.executor job.request)) where
  entrants := h.entrants
  waiting other hother := h.waiting other (List.mem_of_mem_filter hother)
  running execution hexecution := by
    rcases List.mem_append.1 hexecution with hexecution | hexecution
    · exact h.running execution hexecution
    · obtain rfl := List.mem_singleton.1 hexecution
      exact ⟨submission, backend, job.response, hjob, rfl⟩
  completed := h.completed

theorem Faithful.proceed (h : Faithful start entered traffic) {execution : Execution}
    {submission : Submission} {backend : Backend} {response : Response}
    (hprepares : Prepares start entered execution.job.ticket submission backend
      execution.job.request response)
    (hcomplete : execution.program.complete backend.name execution.job.response =
      (backend.executor execution.job.request).complete backend.name response) :
    Faithful start entered (traffic.proceed execution) where
  entrants := h.entrants
  waiting := h.waiting
  running other hother := by
    obtain ⟨before, hbefore, rfl⟩ := List.mem_map.1 hother
    split
    · exact ⟨submission, backend, response, hprepares, hcomplete⟩
    · exact h.running before hbefore
  completed := h.completed

theorem Faithful.complete (h : Faithful start entered traffic) {completion : Completion}
    {submission : Submission} {backend : Backend}
    (hentered : (completion.ticket, submission) ∈ entered)
    (hresolve : start.resolve submission.model submission.selector = .ok backend)
    (hanswer : backend.answer submission = .ok (completion.status, completion.response)) :
    Faithful start entered (traffic.complete completion) where
  entrants := h.entrants
  waiting := h.waiting
  running execution hexecution := h.running execution (List.mem_of_mem_filter hexecution)
  completed other hother := by
    rcases hother with hother | hother
    · rcases List.mem_append.1 hother with hother | hother
      · exact h.completed other (.inl hother)
      · obtain rfl := List.mem_singleton.1 hother
        exact ⟨submission, backend, hentered, hresolve, hanswer⟩
    · exact h.completed other (.inr hother)

theorem Faithful.deliver (h : Faithful start entered traffic) {completion : Completion}
    (hcompletion : completion ∈ traffic.outbox) :
    Faithful start entered (traffic.deliver completion) where
  entrants := h.entrants
  waiting := h.waiting
  running := h.running
  completed other hother := by
    rcases hother with hother | hother
    · exact h.completed other (.inl (List.mem_of_mem_filter hother))
    · rcases List.mem_append.1 hother with hother | hother
      · exact h.completed other (.inr hother)
      · obtain rfl := List.mem_singleton.1 hother
        exact h.completed other (.inl hcompletion)

/-- Fewer entrants and no other change. -/
theorem Faithful.of_sublist (h : Faithful start entered traffic) {later : Traffic}
    (hentrants : ∀ entrant ∈ later.entrants, ∃ other ∈ traffic.entrants,
      (other.ticket, other.submission) = (entrant.ticket, entrant.submission))
    (hwaiting : later.waiting = traffic.waiting) (hrunning : later.running = traffic.running)
    (houtbox : later.outbox = traffic.outbox) (hdelivered : later.delivered = traffic.delivered) :
    Faithful start entered later where
  entrants entrant hentrant := by
    obtain ⟨other, hother, hsame⟩ := hentrants entrant hentrant
    exact hsame ▸ h.entrants other hother
  waiting := hwaiting ▸ h.waiting
  running := hrunning ▸ h.running
  completed := houtbox ▸ hdelivered ▸ h.completed

theorem Faithful.abandon (h : Faithful start entered traffic) :
    Faithful start entered traffic.abandon where
  entrants := h.entrants
  waiting _ hjob := by cases hjob
  running _ hexecution := by cases hexecution
  completed completion hcompletion := by
    rcases hcompletion with hcompletion | hcompletion
    · cases hcompletion
    · exact h.completed completion (.inr hcompletion)

theorem Faithful.refuse (h : Faithful start entered traffic) {ticket : Ticket} {status : Status} :
    Faithful start entered (traffic.refuse ticket status) :=
  h.of_sublist (fun entrant hentrant ↦ ⟨entrant, List.mem_of_mem_filter hentrant, rfl⟩) rfl rfl rfl
    rfl

theorem Faithful.watch (h : Faithful start entered traffic) {ticket : Ticket} :
    Faithful start entered (traffic.watch ticket) :=
  h.of_sublist (fun entrant hentrant ↦ ⟨entrant, List.mem_of_mem_filter hentrant, rfl⟩) rfl rfl rfl
    rfl

theorem Faithful.advance (h : Faithful start entered traffic) {ticket : Ticket}
    {arrival : Arrival} : Faithful start entered (traffic.advance ticket arrival) := by
  refine h.of_sublist (fun entrant hentrant ↦ ?_) rfl rfl rfl rfl
  obtain ⟨other, hother, rfl⟩ := List.mem_map.1 hentrant
  refine ⟨other, hother, ?_⟩
  split <;> rfl

theorem Faithful.enter (h : Faithful start entered traffic) {ticket : Ticket}
    {submission : Submission} :
    Faithful start (entered ++ [(ticket, submission)]) (traffic.enter ticket submission) where
  entrants entrant hentrant := by
    rcases List.mem_append.1 hentrant with hentrant | hentrant
    · exact List.mem_append_left _ (h.entrants entrant hentrant)
    · obtain rfl := List.mem_singleton.1 hentrant
      exact List.mem_append_right _ List.mem_cons_self
  waiting := (h.mono _).waiting
  running := (h.mono _).running
  completed := (h.mono _).completed

/-- A step keeps every job on the way to its answer. -/
theorem Step.faithful (hstep : Step server action next) (hmodels : SameModels start server)
    (hconsistent : Consistent start.backends start.books.status)
    (h : Faithful start entered server.traffic) :
    Faithful start (entered ++ action.arrivals) next.traffic := by
  cases hstep with
  | enter ticket submission => exact h.enter
  | turnAway hentrant hclosed => exact (h.mono _).refuse
  | letIn hentrant hopen => exact (h.mono _).advance
  | reject timer status hentrant => exact (h.mono _).refuse
  | @enqueue ticket entrant _ _ _ timer hentrant hresolve hprepare hphase hroom =>
    have hticket : entrant.ticket = ticket := by
      have hfound := List.find?_some hentrant
      rw [Bool.and_eq_true, decide_eq_true_eq] at hfound
      exact hfound.1
    have hentered := h.entrants entrant (List.mem_of_find?_eq_some hentrant)
    rw [hticket] at hentered
    rw [hmodels.resolve] at hresolve
    exact (h.mono _).enqueue (Prepares.mono ⟨hentered, hresolve, hprepare⟩ _)
  | watch hentrant hphase => exact (h.mono _).watch
  | watchLate hentrant hphase => exact (h.mono _).watch.abandon
  | @start model version backend job timer hbackend hfree hjob =>
    obtain ⟨submission, found, hprepares⟩ := h.waiting job (List.mem_of_find?_eq_some hjob)
    -- The worker's backend is the one that prepared the job: both have its name and version.
    have hself : start.backends.version? backend.name backend.version = some backend := by
      apply hconsistent.version?_self
      rw [← hmodels.backends]
      exact hbackend
    have hfound := hconsistent.version?_of_resolve hprepares.resolved
    have hfor := List.find?_some hjob
    obtain ⟨hname, hversion⟩ := Job.isFor_iff.1 hfor
    obtain ⟨hmodel, hnumber⟩ := Backend.request_of_prepare hprepares.prepared
    rw [← hmodel, ← hnumber, hname, hversion, hself] at hfound
    obtain rfl := Option.some.inj hfound
    exact (h.mono _).startJob (hprepares.mono _)
  | @conclude ticket execution response pause outcome hexecution hadvance houtcome =>
    obtain ⟨submission, backend, prepared, hprepares, hcomplete⟩ :=
      h.running execution (List.mem_of_find?_eq_some hexecution)
    rw [(Backend.request_of_prepare hprepares.prepared).1] at houtcome
    rw [Platform.Program.complete_of_outcome hadvance houtcome] at hcomplete
    have hanswer : backend.answer submission = .ok (concluded response outcome) := by
      rw [Backend.answer, hprepares.prepared]
      dsimp only [bind, Except.bind]
      rw [← hcomplete]
      rfl
    rw [State.conclude, Job.conclude_eq]
    exact (h.mono _).complete (List.mem_append_left _ hprepares.entered) hprepares.resolved hanswer
  | @pause ticket execution response following hexecution hadvance =>
    obtain ⟨submission, backend, prepared, hprepares, hcomplete⟩ :=
      h.running execution (List.mem_of_find?_eq_some hexecution)
    rw [Platform.Program.complete_of_waiting hadvance] at hcomplete
    exact (h.mono _).proceed (hprepares.mono _) hcomplete
  | resume hexecution =>
    obtain ⟨submission, backend, prepared, hprepares, hcomplete⟩ :=
      h.running _ (List.mem_of_find?_eq_some hexecution)
    exact (h.mono _).proceed (hprepares.mono _) hcomplete
  | deliver hwatched hcompletion =>
    exact (h.mono _).deliver (List.mem_of_find?_eq_some hcompletion)
  | giveUp hphase => exact (h.mono _).abandon
  | leave hleaving =>
    exact (h.mono _).of_sublist (fun entrant hentrant ↦ ⟨entrant, hentrant, rfl⟩) rfl rfl rfl rfl
  | _ => exact h.mono _

end Server

end TensorInference
