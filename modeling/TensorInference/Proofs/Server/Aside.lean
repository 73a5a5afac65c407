import TensorInference.Proofs.Server.ExactlyOnce
import TensorInference.Proofs.Server.Remainder

/-!
# A server without the requests for one model

Two servers have the same models but for one that may be anything, and one of them is sent only the
requests for the other models. Whatever the first one does for the other models, the second one does
as well, by the same actions without those on the requests for that model (`Without.run`). Only the
observation that nothing is in flight depends on all requests; it is left out, and by itself it has
no effect on any request.
-/

namespace TensorInference.Server

open Model Files Wire Inference

variable {broken : String} {aside : Ticket → Bool}

/-! ## What is told of the other models -/

/-- Two servers tell the same of every model other than `broken`, in reports and when a version is
asked for. -/
structure SameBeside (broken : String) (server other : State) : Prop where
  status : ∀ name, name ≠ broken →
    other.books.status.models.get? name = server.books.status.models.get? name
  resolve : ∀ name, name ≠ broken → ∀ selector,
    other.resolve name selector = server.resolve name selector

section Tables

variable {table other : StatusTable} {name : String} {version : UInt64}
  {change : VersionStatus → VersionStatus}

theorem StatusTable.get?_record_of_ne {model : String} (h : model ≠ name) :
    (table.record name version change).models.get? model = table.models.get? model := by
  rw [record, OrderedMap.get?_modify, if_neg h]

theorem StatusTable.get?_record_congr (h : other.models.get? name = table.models.get? name) :
    (other.record name version change).models.get? name =
      (table.record name version change).models.get? name := by
  rw [record, record, OrderedMap.get?_modify, OrderedMap.get?_modify, h]

end Tables

/-- The status table says the same of every model other than `broken`. -/
def Books.SameBeside (broken : String) (books other : Books) : Prop :=
  ∀ name, name ≠ broken → other.status.models.get? name = books.status.models.get? name

namespace Books.SameBeside

variable {books other : Books} {timer : Timer} {now : Nanoseconds} {success : Bool}

/-- A request for the broken model is recorded with that model only. -/
theorem finish_aside (h : SameBeside broken books other) (htimer : timer.model = broken) :
    SameBeside broken (timer.finish success now books).2 other := by
  intro name hname
  have hne : name ≠ timer.model := htimer ▸ hname
  rw [h name hname]
  unfold Timer.finish
  split
  · rfl
  · dsimp only
    split
    · rfl
    · split
      · exact (StatusTable.get?_record_of_ne hne).symm
      · exact (StatusTable.get?_record_of_ne hne).symm

/-- Any other request is recorded in the same way. -/
theorem finish (h : SameBeside broken books other) :
    SameBeside broken (timer.finish success now books).2 (timer.finish success now other).2 := by
  have hrecord : ∀ version change, ∀ name, name ≠ broken →
      (other.status.record timer.model version change).models.get? name =
        (books.status.record timer.model version change).models.get? name := by
    intro version change name hname
    by_cases hmodel : name = timer.model
    · subst hmodel
      exact StatusTable.get?_record_congr (h _ hname)
    · rw [StatusTable.get?_record_of_ne hmodel, StatusTable.get?_record_of_ne hmodel, h name hname]
  unfold Timer.finish
  split
  · exact h
  · dsimp only
    split
    · exact h
    · split
      · exact hrecord _ _
      · exact hrecord _ _

theorem dropTimers {jobs : List Job}
    (hjobs : ∀ job ∈ jobs, aside job.ticket = decide (job.timer.model = broken))
    (h : SameBeside broken books other) :
    SameBeside broken (dropTimers now books jobs)
      (dropTimers now other (remaining aside (·.ticket) jobs)) := by
  induction jobs generalizing books other with
  | nil => exact h
  | cons job rest ih =>
    obtain ⟨hjob, hrest⟩ := List.forall_mem_cons.1 hjobs
    cases haside : aside job.ticket with
    | true =>
      have hremaining : remaining aside (·.ticket) (job :: rest) =
          remaining aside (·.ticket) rest := by simp [remaining, haside]
      rw [hremaining]
      exact ih hrest (h.finish_aside (of_decide_eq_true (hjob.symm.trans haside)))
    | false =>
      have hremaining : remaining aside (·.ticket) (job :: rest) =
          job :: remaining aside (·.ticket) rest := by simp [remaining, haside]
      rw [hremaining]
      exact ih hrest h.finish

end Books.SameBeside

/-! ## A server without the requests for one model -/

/-- The phase without the observation that nothing is in flight, which depends on all requests. -/
def Phase.unobserved : Phase → Phase
  | .drained => .closed
  | phase => phase

theorem Phase.isClosed_unobserved (phase : Phase) : phase.unobserved.isClosed = phase.isClosed := by
  cases phase <;> rfl

theorem Phase.unobserved_eq_abandoned_iff {phase : Phase} :
    phase.unobserved = .abandoned ↔ phase = .abandoned := by
  cases phase <;> simp [unobserved]

/-- A job is set aside if it is for the broken model, and it is recorded with its model. -/
structure Job.Told (broken : String) (aside : Ticket → Bool) (job : Job) : Prop where
  aside : aside job.ticket = decide (job.timer.model = broken)
  model : job.request.model = job.timer.model

theorem Job.Told.kept {job : Job} (h : job.Told broken aside) {model : String}
    (hmodel : job.request.model = model) (hne : model ≠ broken) : aside job.ticket = false := by
  rw [h.aside, ← h.model, hmodel]
  exact decide_eq_false hne

theorem Job.Told.startCompute {job : Job} (h : job.Told broken aside) (time : Nanoseconds) :
    Job.Told broken aside { job with timer := job.timer.startCompute time } :=
  ⟨h.aside, h.model⟩

theorem Job.model_of_find? {jobs : List Job} {job : Job} {model : String} {version : UInt64}
    (h : jobs.find? (·.isFor model version) = some job) : job.request.model = model := by
  have hfor := List.find?_some h
  exact (isFor_iff.1 hfor).1

/-- The tickets that are set aside are those of the requests for one model. -/
structure Traffic.Told (broken : String) (aside : Ticket → Bool) (traffic : Traffic) : Prop where
  entrants : ∀ entrant ∈ traffic.entrants,
    aside entrant.ticket = decide (entrant.submission.model = broken)
  waiting : ∀ job ∈ traffic.waiting, job.Told broken aside
  running : ∀ execution ∈ traffic.running, execution.job.Told broken aside

namespace Traffic.Told

variable {traffic : Traffic} {ticket : Ticket}

theorem enter (h : traffic.Told broken aside) {submission : Submission}
    (hticket : aside ticket = decide (submission.model = broken)) :
    (traffic.enter ticket submission).Told broken aside :=
  { h with
    entrants := by
      rw [Traffic.enter, List.forall_mem_append]
      exact ⟨h.entrants, List.forall_mem_singleton.2 hticket⟩ }

theorem advance (h : traffic.Told broken aside) (arrival : Arrival) :
    (traffic.advance ticket arrival).Told broken aside :=
  { h with
    entrants := by
      rw [Traffic.advance, List.forall_mem_map]
      intro entrant hentrant
      have htold := h.entrants entrant hentrant
      split
      · exact htold
      · exact htold }

theorem refuse (h : traffic.Told broken aside) (status : Status) :
    (traffic.refuse ticket status).Told broken aside :=
  { h with entrants := fun entrant hentrant ↦ h.entrants entrant (List.mem_of_mem_filter hentrant) }

theorem enqueue (h : traffic.Told broken aside) {job : Job} (hjob : job.Told broken aside) :
    (traffic.enqueue job).Told broken aside :=
  { h.advance .queued with
    waiting := List.forall_mem_append.2 ⟨h.waiting, List.forall_mem_singleton.2 hjob⟩ }

theorem watch (h : traffic.Told broken aside) : (traffic.watch ticket).Told broken aside :=
  { h with entrants := fun entrant hentrant ↦ h.entrants entrant (List.mem_of_mem_filter hentrant) }

theorem start (h : traffic.Told broken aside) {job : Job} (hjob : job.Told broken aside)
    (program : Platform.Program) : (traffic.start job program).Told broken aside :=
  { h with
    waiting := fun other hother ↦ h.waiting other (List.mem_of_mem_filter hother)
    running := List.forall_mem_append.2 ⟨h.running, List.forall_mem_singleton.2 hjob⟩ }

theorem proceed (h : traffic.Told broken aside) {execution : Execution}
    (hjob : execution.job.Told broken aside) : (traffic.proceed execution).Told broken aside :=
  { h with
    running := by
      rw [Traffic.proceed, List.forall_mem_map]
      intro other hother
      split
      · exact hjob
      · exact h.running other hother }

theorem complete (h : traffic.Told broken aside) (completion : Completion) :
    (traffic.complete completion).Told broken aside :=
  { h with running := fun other hother ↦ h.running other (List.mem_of_mem_filter hother) }

theorem abandon (h : traffic.Told broken aside) : traffic.abandon.Told broken aside :=
  ⟨h.entrants, List.forall_mem_nil _, List.forall_mem_nil _⟩

theorem unfinished (h : traffic.Told broken aside) : ∀ job ∈ traffic.unfinished,
    job.Told broken aside := by
  rw [Traffic.unfinished, List.forall_mem_append, List.forall_mem_map]
  exact ⟨h.running, h.waiting⟩

end Traffic.Told

/-- Nothing is on its way after what was in flight was given up. -/
structure Traffic.GivenUp (traffic : Traffic) : Prop where
  waiting : traffic.waiting = []
  running : traffic.running = []
  outbox : traffic.outbox = []
  watched : traffic.watched = []

theorem Traffic.GivenUp.abandon (traffic : Traffic) : traffic.abandon.GivenUp :=
  ⟨rfl, rfl, rfl, rfl⟩

/-- Giving up again changes nothing of what remains. -/
theorem Traffic.Remains.abandon_left {traffic rest : Traffic} (h : traffic.Remains aside rest)
    (hrest : rest.GivenUp) : traffic.abandon.Remains aside rest :=
  { h with
    waiting := hrest.waiting
    running := hrest.running
    outbox := hrest.outbox
    watched := hrest.watched }

theorem Traffic.Remains.givenUp {traffic rest : Traffic} (h : traffic.Remains aside rest)
    (htraffic : traffic.GivenUp) : rest.GivenUp := by
  refine ⟨?_, ?_, ?_, ?_⟩
  · rw [h.waiting, htraffic.waiting]
    rfl
  · rw [h.running, htraffic.running]
    rfl
  · rw [h.outbox, htraffic.outbox]
    rfl
  · rw [h.watched, htraffic.watched]
    rfl

/-- A server that has the same models as another one besides `broken`, and everything of its traffic
but the requests for that model. -/
structure Without (broken : String) (aside : Ticket → Bool) (server rest : State) : Prop where
  options : rest.options = server.options
  backends : ∀ name, name ≠ broken → rest.backends.get? name = server.backends.get? name
  books : server.books.SameBeside broken rest.books
  traffic : server.traffic.Remains aside rest.traffic
  phase : rest.phase = server.phase.unobserved
  now : rest.now = server.now
  named : ∀ name version backend, server.backends.version? name version = some backend →
    backend.name = name
  told : server.traffic.Told broken aside
  givenUp : server.phase = .abandoned → server.traffic.GivenUp

namespace Without

variable {server rest : State} {ticket : Ticket} {submission : Submission}

section

variable (h : Without broken aside server rest)
include h

/-- Versions of the other models are resolved in the same way. -/
theorem sameBeside : SameBeside broken server rest where
  status := h.books
  resolve name hname selector := by
    unfold State.resolve StatusTable.contains StatusTable.state? StatusTable.version?
      OrderedMap.contains
    rw [h.books name hname, h.backends name hname]

theorem name_of_resolve {model : String} {selector : Int64} {backend : Backend}
    (hresolve : server.resolve model selector = .ok backend) : backend.name = model := by
  obtain ⟨version, hversion, -⟩ := exists_version?_of_resolve hresolve
  exact h.named model version backend hversion

theorem isFull_eq {backend : Backend} (hname : backend.name ≠ broken) :
    rest.isFull backend = server.isFull backend := by
  unfold State.isFull
  rw [h.options, h.traffic.waitingFor_eq fun job hjob hmodel ↦
    (h.told.waiting job hjob).kept hmodel hname]

theorem abandoned_iff : rest.phase = .abandoned ↔ server.phase = .abandoned := by
  rw [h.phase, Phase.unobserved_eq_abandoned_iff]

theorem isClosed_eq : rest.phase.isClosed = server.phase.isClosed := by
  rw [h.phase, Phase.isClosed_unobserved]

theorem refuse_aside (haside : aside ticket = true) {timer : Timer} (htimer : timer.model = broken)
    (status : Status) : Without broken aside (server.refuse ticket timer status) rest :=
  { h with
    books := h.books.finish_aside htimer
    traffic := h.traffic.refuse_aside status haside
    told := h.told.refuse status
    givenUp := fun hphase ↦ { h.givenUp hphase with } }

theorem refuse (hkept : aside ticket = false) (timer : Timer) (status : Status) :
    Without broken aside (server.refuse ticket timer status) (rest.refuse ticket timer status) :=
  { h with
    books := by
      rw [State.refuse, State.refuse, Timer.drop, Timer.drop, h.now]
      exact h.books.finish
    traffic := h.traffic.refuse status hkept
    told := h.told.refuse status
    givenUp := fun hphase ↦ { h.givenUp hphase with } }

theorem enqueue_aside {backend : Backend} {job : Job} (hjob : job.Told broken aside)
    (haside : job.timer.model = broken) :
    Without broken aside (server.enqueue backend job) rest := by
  have hticket : aside job.ticket = true := hjob.aside.trans (decide_eq_true haside)
  unfold State.enqueue
  dsimp only
  split
  · exact h.refuse_aside hticket haside _
  split
  · exact h.refuse_aside hticket haside _
  · rename_i hphase _
    exact { h with
      traffic := h.traffic.enqueue_aside hticket
      told := h.told.enqueue hjob
      givenUp := fun habandoned ↦ absurd habandoned hphase }

theorem enqueue {backend : Backend} {job : Job} (hjob : job.Told broken aside)
    (hkept : job.timer.model ≠ broken) (hname : backend.name ≠ broken) :
    Without broken aside (server.enqueue backend job) (rest.enqueue backend job) := by
  have hticket : aside job.ticket = false := hjob.aside.trans (decide_eq_false hkept)
  unfold State.enqueue
  dsimp only
  rw [h.isFull_eq hname]
  by_cases hphase : server.phase = .abandoned
  · rw [if_pos hphase, if_pos (h.abandoned_iff.2 hphase)]
    exact h.refuse hticket _ _
  · rw [if_neg hphase, if_neg (mt h.abandoned_iff.1 hphase)]
    split
    · exact h.refuse hticket _ _
    · exact { h with
        traffic := h.traffic.enqueue hticket
        told := h.told.enqueue hjob
        givenUp := fun habandoned ↦ absurd habandoned hphase }

theorem accept_aside (haside : aside ticket = true) (hmodel : submission.model = broken) :
    Without broken aside (server.accept ticket submission) rest := by
  unfold State.accept
  dsimp only
  split
  · exact h.refuse_aside haside hmodel _
  · rename_i backend hresolve
    split
    · exact h.refuse_aside haside hmodel _
    · rename_i request response hprepare
      refine h.enqueue_aside ⟨?_, ?_⟩ hmodel
      · exact haside.trans (decide_eq_true hmodel).symm
      · exact (Backend.request_of_prepare hprepare).1.trans (h.name_of_resolve hresolve)

theorem accept (hkept : aside ticket = false) (hmodel : submission.model ≠ broken) :
    Without broken aside (server.accept ticket submission) (rest.accept ticket submission) := by
  unfold State.accept
  dsimp only
  rw [h.sameBeside.resolve _ hmodel, h.now]
  split
  · exact h.refuse hkept _ _
  · rename_i backend hresolve
    have hname := h.name_of_resolve hresolve
    split
    · exact h.refuse hkept _ _
    · rename_i request response hprepare
      refine h.enqueue ⟨?_, ?_⟩ hmodel (hname ▸ hmodel)
      · exact hkept.trans (decide_eq_false hmodel).symm
      · exact (Backend.request_of_prepare hprepare).1.trans hname

theorem backend?_eq {model : String} {version : UInt64} (hmodel : model ≠ broken) :
    rest.backend? model version = server.backend? model version := by
  rw [State.backend?, State.backend?, h.backends model hmodel]

theorem start_aside {backend : Backend} (hname : backend.name = broken) {next : State}
    (hstart : server.start backend = some next) : Without broken aside next rest := by
  unfold State.start at hstart
  obtain ⟨-, hstart⟩ := Option.ite_none_right_eq_some.1 hstart
  obtain ⟨job, hjob, rfl⟩ := Option.map_eq_some_iff.1 hstart
  have hmem := List.mem_of_find?_eq_some hjob
  have hfor := Job.model_of_find? hjob
  have htold := h.told.waiting job hmem
  have haside : aside job.ticket = true :=
    htold.aside.trans (decide_eq_true (htold.model ▸ hfor.trans hname))
  exact { h with
    traffic := h.traffic.start_aside _ haside
    told := h.told.start (htold.startCompute _) _
    givenUp := fun hphase ↦ absurd hmem ((h.givenUp hphase).waiting ▸ List.not_mem_nil) }

theorem start {backend : Backend} (hname : backend.name ≠ broken) {next : State}
    (hstart : server.start backend = some next) :
    ∃ last, rest.start backend = some last ∧ Without broken aside next last := by
  unfold State.start at hstart ⊢
  obtain ⟨hfree, hstart⟩ := Option.ite_none_right_eq_some.1 hstart
  obtain ⟨job, hjob, rfl⟩ := Option.map_eq_some_iff.1 hstart
  have hmem := List.mem_of_find?_eq_some hjob
  have hfor := Job.model_of_find? hjob
  have htold := h.told.waiting job hmem
  rw [h.traffic.busyFor_eq fun execution hexecution hmodel ↦
      (h.told.running execution hexecution).kept hmodel hname, if_pos hfree,
    h.traffic.nextFor_eq fun job hjob hmodel ↦ (h.told.waiting job hjob).kept hmodel hname, hjob,
    Option.map_some]
  refine ⟨_, rfl, { h with
    traffic := ?_
    told := h.told.start (htold.startCompute _) _
    givenUp := fun hphase ↦ absurd hmem ((h.givenUp hphase).waiting ▸ List.not_mem_nil) }⟩
  dsimp only
  rw [h.now]
  exact h.traffic.start _ (htold.kept hfor hname)

theorem not_abandoned_of_running {execution : Execution}
    (hexecution : execution ∈ server.traffic.running) : server.phase ≠ .abandoned :=
  fun hphase ↦ absurd hexecution ((h.givenUp hphase).running ▸ List.not_mem_nil)

theorem proceed_aside {job : Job} {program pause : Platform.Program}
    (hjob : ⟨job, pause⟩ ∈ server.traffic.running) (haside : aside job.ticket = true) :
    Without broken aside
      { server with traffic := server.traffic.proceed ⟨job, program⟩ } rest :=
  { h with
    traffic := h.traffic.proceed_aside haside
    told := h.told.proceed (h.told.running ⟨job, pause⟩ hjob)
    givenUp := fun hphase ↦ absurd hphase (h.not_abandoned_of_running hjob) }

theorem work_aside {execution : Execution} (hexecution : execution ∈ server.traffic.running)
    (haside : aside execution.job.ticket = true) :
    Without broken aside (server.work execution) rest := by
  have htold := h.told.running execution hexecution
  have hmodel : execution.job.timer.model = broken :=
    of_decide_eq_true (htold.aside.symm.trans haside)
  have hgivenUp := h.not_abandoned_of_running hexecution
  have hconclude : ∀ response outcome,
      Without broken aside (server.conclude execution.job response outcome) rest := by
    intro response outcome
    exact { h with
      books := h.books.finish_aside hmodel
      traffic := h.traffic.complete_aside (by rw [Job.conclude_eq]; exact haside)
      told := h.told.complete _
      givenUp := fun hphase ↦ absurd hphase hgivenUp }
  unfold State.work
  dsimp only
  split
  · exact hconclude _ _
  · exact hconclude _ _
  · exact { h with
      traffic := h.traffic.proceed_aside haside
      told := h.told.proceed ⟨htold.aside, htold.model⟩
      givenUp := fun hphase ↦ absurd hphase hgivenUp }

theorem work {execution : Execution} (hexecution : execution ∈ server.traffic.running)
    (hkept : aside execution.job.ticket = false) :
    Without broken aside (server.work execution) (rest.work execution) := by
  have htold := h.told.running execution hexecution
  have hgivenUp := h.not_abandoned_of_running hexecution
  have hconclude : ∀ response outcome,
      Without broken aside (server.conclude execution.job response outcome)
        (rest.conclude execution.job response outcome) := by
    intro response outcome
    exact { h with
      books := by
        rw [State.conclude, State.conclude, h.now]
        exact h.books.finish
      traffic := h.traffic.complete (by rw [Job.conclude_eq]; exact hkept)
      told := h.told.complete _
      givenUp := fun hphase ↦ absurd hphase hgivenUp }
  unfold State.work
  dsimp only
  split
  · exact hconclude _ _
  · exact hconclude _ _
  · exact { h with
      traffic := h.traffic.proceed
      told := h.told.proceed ⟨htold.aside, htold.model⟩
      givenUp := fun hphase ↦ absurd hphase hgivenUp }

end

end Without

/-- The actions on the requests for one model, and the observation that nothing is in flight. -/
def Action.isAside (broken : String) (aside : Ticket → Bool) : Action → Bool
  | .start model _ => model = broken
  | .observeIdle => true
  | action => action.ticket?.any aside

namespace Without

variable {server rest next : State} {action : Action}

section

variable (h : Without broken aside server rest)
include h

theorem aside_of_entrant? {ticket : Ticket} {arrival : Arrival} {entrant : Entrant}
    (hentrant : server.traffic.entrant? ticket arrival = some entrant) :
    aside ticket = decide (entrant.submission.model = broken) := by
  have hticket := List.find?_some hentrant
  rw [Bool.and_eq_true, decide_eq_true_eq] at hticket
  rw [← hticket.1]
  exact h.told.entrants entrant (List.mem_of_find?_eq_some hentrant)

theorem phase_of {phase : Phase} (hphase : server.phase = phase) :
    rest.phase = phase.unobserved := by
  rw [h.phase, hphase]

/-- The phases before the end are entered at the same time. -/
theorem moveTo {phase : Phase} (hphase : phase.unobserved = phase) (hend : phase ≠ .abandoned) :
    Without broken aside { server with phase } { rest with phase } :=
  { h with
    phase := hphase.symm
    givenUp := fun habandoned ↦ absurd habandoned hend }

/-- An action that is set aside leaves everything but the requests for the broken model alone. -/
theorem act_aside (hact : server.act action = some next)
    (haside : action.isAside broken aside = true)
    (hentered : ∀ arrival ∈ action.arrivals,
      aside arrival.1 = decide (arrival.2.model = broken)) : Without broken aside next rest := by
  cases action with
  | enter ticket submission =>
    obtain rfl := Option.some.inj hact
    exact { h with
      traffic := h.traffic.enter_aside submission haside
      told := h.told.enter (hentered _ List.mem_cons_self)
      givenUp := fun hphase ↦ { h.givenUp hphase with } }
  | check ticket =>
    obtain ⟨entrant, hentrant, rfl⟩ := Option.map_eq_some_iff.1 hact
    split
    · exact { h with
        traffic := h.traffic.refuse_aside _ haside
        told := h.told.refuse _
        givenUp := fun hphase ↦ { h.givenUp hphase with } }
    · exact { h with
        traffic := h.traffic.advance_aside _ haside
        told := h.told.advance _
        givenUp := fun hphase ↦ { h.givenUp hphase with } }
  | accept ticket =>
    obtain ⟨entrant, hentrant, rfl⟩ := Option.map_eq_some_iff.1 hact
    exact h.accept_aside haside
      (of_decide_eq_true ((h.aside_of_entrant? hentrant).symm.trans haside))
  | watch ticket =>
    obtain ⟨entrant, hentrant, rfl⟩ := Option.map_eq_some_iff.1 hact
    dsimp only
    split
    · rename_i hphase
      exact { h with
        traffic := (h.traffic.watch_aside haside).abandon_left
          (h.traffic.givenUp (h.givenUp hphase))
        told := h.told.watch.abandon
        givenUp := fun _ ↦ .abandon _ }
    · rename_i hphase
      exact { h with
        traffic := h.traffic.watch_aside haside
        told := h.told.watch
        givenUp := fun habandoned ↦ absurd habandoned hphase }
  | start model version =>
    obtain ⟨backend, hbackend, hstart⟩ := Option.bind_eq_some_iff.1 hact
    exact h.start_aside
      ((h.named model version backend hbackend).trans (of_decide_eq_true haside)) hstart
  | work ticket =>
    unfold State.act at hact
    dsimp only at hact
    split at hact
    · cases hact
    · cases hact
    · rename_i execution _ hexecution
      obtain rfl := Option.some.inj hact
      obtain rfl := key_of_find? hexecution
      exact h.work_aside (List.mem_of_find?_eq_some hexecution) haside
  | resume ticket =>
    unfold State.act at hact
    dsimp only at hact
    split at hact
    · rename_i job program hexecution
      obtain rfl := Option.some.inj hact
      obtain rfl := key_of_find? hexecution
      exact h.proceed_aside (List.mem_of_find?_eq_some hexecution) haside
    · cases hact
  | deliver ticket =>
    unfold State.act at hact
    obtain ⟨-, hact⟩ := Option.ite_none_right_eq_some.1 hact
    obtain ⟨completion, hcompletion, rfl⟩ := Option.map_eq_some_iff.1 hact
    obtain rfl := key_of_find? hcompletion
    exact { h with
      traffic := h.traffic.deliver_aside haside
      told := { h.told with }
      givenUp := fun hphase ↦ absurd (List.mem_of_find?_eq_some hcompletion)
        ((h.givenUp hphase).outbox ▸ List.not_mem_nil) }
  | leave ticket =>
    unfold State.act at hact
    obtain ⟨-, hact⟩ := Option.ite_none_right_eq_some.1 hact
    obtain rfl := Option.some.inj hact
    exact { h with
      traffic := h.traffic.leave_aside haside
      told := { h.told with }
      givenUp := fun hphase ↦ { h.givenUp hphase with } }
  | observeIdle =>
    obtain ⟨⟨hphase, -⟩, hact⟩ := Option.ite_none_right_eq_some.1 hact
    obtain rfl := Option.some.inj hact
    exact { h with
      phase := by
        rw [h.phase_of hphase]
        rfl
      givenUp := nofun }
  | beginStop | announce | close | giveUp | pass time => cases haside

/-- Any other action can be taken without the requests for the broken model as well, and does the
same. -/
theorem act_kept (hact : server.act action = some next)
    (hkept : action.isAside broken aside = false)
    (hentered : ∀ arrival ∈ action.arrivals,
      aside arrival.1 = decide (arrival.2.model = broken)) :
    ∃ last, rest.act action = some last ∧ Without broken aside next last := by
  cases action with
  | enter ticket submission =>
    obtain rfl := Option.some.inj hact
    exact ⟨_, rfl, { h with
      traffic := h.traffic.enter submission hkept
      told := h.told.enter (hentered _ List.mem_cons_self)
      givenUp := fun hphase ↦ { h.givenUp hphase with } }⟩
  | check ticket =>
    obtain ⟨entrant, hentrant, rfl⟩ := Option.map_eq_some_iff.1 hact
    rw [State.act, h.traffic.entrant?_eq hkept, hentrant, Option.map_some, h.isClosed_eq]
    refine ⟨_, rfl, ?_⟩
    split
    · exact { h with
        traffic := h.traffic.refuse _ hkept
        told := h.told.refuse _
        givenUp := fun hphase ↦ { h.givenUp hphase with } }
    · exact { h with
        traffic := h.traffic.advance _
        told := h.told.advance _
        givenUp := fun hphase ↦ { h.givenUp hphase with } }
  | accept ticket =>
    obtain ⟨entrant, hentrant, rfl⟩ := Option.map_eq_some_iff.1 hact
    rw [State.act, h.traffic.entrant?_eq hkept, hentrant]
    exact ⟨_, rfl, h.accept hkept
      (of_decide_eq_false ((h.aside_of_entrant? hentrant).symm.trans hkept))⟩
  | watch ticket =>
    obtain ⟨entrant, hentrant, rfl⟩ := Option.map_eq_some_iff.1 hact
    rw [State.act, h.traffic.entrant?_eq hkept, hentrant]
    refine ⟨_, rfl, ?_⟩
    dsimp only
    by_cases hphase : server.phase = .abandoned
    · rw [if_pos hphase, if_pos (h.abandoned_iff.2 hphase)]
      exact { h with
        traffic := (h.traffic.watch hkept).abandon
        told := h.told.watch.abandon
        givenUp := fun _ ↦ .abandon _ }
    · rw [if_neg hphase, if_neg (mt h.abandoned_iff.1 hphase)]
      exact { h with
        traffic := h.traffic.watch hkept
        told := h.told.watch
        givenUp := fun habandoned ↦ absurd habandoned hphase }
  | start model version =>
    obtain ⟨backend, hbackend, hstart⟩ := Option.bind_eq_some_iff.1 hact
    have hmodel : model ≠ broken := of_decide_eq_false hkept
    rw [State.act, h.backend?_eq hmodel, hbackend, Option.bind_some]
    exact h.start (h.named model version backend hbackend ▸ hmodel) hstart
  | work ticket =>
    unfold State.act at hact ⊢
    dsimp only at hact ⊢
    rw [h.traffic.execution_eq hkept]
    split at hact
    · cases hact
    · cases hact
    · rename_i execution hwait hexecution
      obtain rfl := Option.some.inj hact
      obtain rfl := key_of_find? hexecution
      exact ⟨_, rfl, h.work (List.mem_of_find?_eq_some hexecution) hkept⟩
  | resume ticket =>
    unfold State.act at hact ⊢
    dsimp only at hact ⊢
    rw [h.traffic.execution_eq hkept]
    split at hact
    · rename_i job program hexecution
      obtain rfl := Option.some.inj hact
      have hjob := List.mem_of_find?_eq_some hexecution
      exact ⟨_, rfl, { h with
        traffic := h.traffic.proceed
        told := h.told.proceed (h.told.running ⟨job, .wait program⟩ hjob)
        givenUp := fun hphase ↦ absurd hphase (h.not_abandoned_of_running hjob) }⟩
    · cases hact
  | deliver ticket =>
    unfold State.act at hact ⊢
    obtain ⟨hwatched, hact⟩ := Option.ite_none_right_eq_some.1 hact
    obtain ⟨completion, hcompletion, rfl⟩ := Option.map_eq_some_iff.1 hact
    dsimp only
    rw [h.traffic.contains_watched hkept, if_pos hwatched, h.traffic.completion_eq hkept,
      hcompletion]
    obtain rfl := key_of_find? hcompletion
    exact ⟨_, rfl, { h with
      traffic := h.traffic.deliver hkept
      told := { h.told with }
      givenUp := fun hphase ↦ absurd (List.mem_of_find?_eq_some hcompletion)
        ((h.givenUp hphase).outbox ▸ List.not_mem_nil) }⟩
  | leave ticket =>
    unfold State.act at hact ⊢
    obtain ⟨hleaving, hact⟩ := Option.ite_none_right_eq_some.1 hact
    obtain rfl := Option.some.inj hact
    dsimp only
    rw [h.traffic.contains_leaving hkept, if_pos hleaving]
    exact ⟨_, rfl, { h with
      traffic := h.traffic.leave
      told := { h.told with }
      givenUp := fun hphase ↦ { h.givenUp hphase with } }⟩
  | beginStop =>
    obtain ⟨hphase, hact⟩ := Option.ite_none_right_eq_some.1 hact
    obtain rfl := Option.some.inj hact
    exact ⟨_, if_pos (h.phase_of hphase), h.moveTo rfl (by decide)⟩
  | announce =>
    obtain ⟨hphase, hact⟩ := Option.ite_none_right_eq_some.1 hact
    obtain rfl := Option.some.inj hact
    exact ⟨_, if_pos (h.phase_of hphase), h.moveTo rfl (by decide)⟩
  | close =>
    obtain ⟨hphase, hact⟩ := Option.ite_none_right_eq_some.1 hact
    obtain rfl := Option.some.inj hact
    exact ⟨_, if_pos (h.phase_of hphase), h.moveTo rfl (by decide)⟩
  | observeIdle => cases hkept
  | giveUp =>
    obtain ⟨hphase, hact⟩ := Option.ite_none_right_eq_some.1 hact
    obtain rfl := Option.some.inj hact
    refine ⟨_, if_pos (h.phase_of hphase), { h with
      phase := rfl
      books := ?_
      traffic := h.traffic.abandon
      told := h.told.abandon
      givenUp := fun _ ↦ .abandon _ }⟩
    rw [h.now, h.traffic.unfinished_eq]
    exact h.books.dropTimers fun job hjob ↦ (h.told.unfinished job hjob).aside
  | pass time =>
    obtain rfl := Option.some.inj hact
    exact ⟨_, rfl, { h with
      now := congrArg (· + time) h.now
      givenUp := fun hphase ↦ { h.givenUp hphase with } }⟩

end

/-- A run without the actions that are set aside does the same to everything else. -/
theorem run {actions : List Action} (h : Without broken aside server rest)
    (hrun : server.run actions = some next)
    (hentered : ∀ arrival ∈ entered actions,
      aside arrival.1 = decide (arrival.2.model = broken)) :
    ∃ last, rest.run (actions.filter (!·.isAside broken aside)) = some last ∧
      Without broken aside next last := by
  induction actions generalizing server rest with
  | nil =>
    obtain rfl := Option.some.inj hrun
    exact ⟨rest, rfl, h⟩
  | cons action actions ih =>
    obtain ⟨middle, hact, hrun⟩ := Option.bind_eq_some_iff.1 hrun
    obtain ⟨haction, hactions⟩ := List.forall_mem_append.1 hentered
    cases haside : action.isAside broken aside with
    | true =>
      rw [List.filter_cons_of_neg (by simp [haside])]
      exact ih (h.act_aside hact haside haction) hrun hactions
    | false =>
      rw [List.filter_cons_of_pos (by simp [haside])]
      obtain ⟨last, hlast, hbefore⟩ := h.act_kept hact haside haction
      obtain ⟨final, hfinal, hafter⟩ := ih hbefore hrun hactions
      exact ⟨final, by rw [State.run, hlast, Option.bind_some, hfinal], hafter⟩

/-- Servers of which the same remains do the same for the other models. -/
theorem of_same {other : State} (h : Without broken aside server rest)
    (h' : Without broken aside other rest) : SameBeside broken server other where
  status name hname := (h'.sameBeside.status name hname).symm.trans (h.sameBeside.status name hname)
  resolve name hname selector :=
    (h'.sameBeside.resolve name hname selector).symm.trans
      (h.sameBeside.resolve name hname selector)

end Without

end TensorInference.Server
