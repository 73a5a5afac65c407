import TensorInference.Proofs.Inference.Refusal
import TensorInference.Proofs.Server.Preparation
import TensorInference.Proofs.Server.Resolution
import TensorInference.Server.Session

/-!
# What a server accepts

An open server with room in the queue accepts exactly the submissions that keep their contract: the
model is known, a version that was asked for is ready, and the request is acceptable to the model's
configuration. A submission that is accepted waits as one job; one that is refused leaves nothing in
the traffic.
-/

namespace TensorInference.Server

open Model Inference

/-- Whether nobody on the way in and nobody refused has a ticket. -/
structure Traffic.IsNew (traffic : Traffic) (ticket : Ticket) : Prop where
  entrants : ∀ entrant ∈ traffic.entrants, entrant.ticket ≠ ticket
  refused : ∀ refusal ∈ traffic.refused, refusal.1 ≠ ticket

namespace Traffic.IsNew

variable {traffic : Traffic} {ticket : Ticket}

theorem find?_entrants (hnew : traffic.IsNew ticket) (arrival : Arrival) :
    traffic.entrants.find?
      (fun entrant ↦ entrant.ticket = ticket && entrant.arrival = arrival) = none := by
  rw [List.find?_eq_none]
  intro entrant hentrant
  simp [hnew.entrants entrant hentrant]

theorem filter_refused (hnew : traffic.IsNew ticket) :
    traffic.refused.filter (fun refusal ↦ !decide (refusal.1 = ticket)) = traffic.refused := by
  rw [List.filter_eq_self]
  intro refusal hrefusal
  simpa using hnew.refused refusal hrefusal

end Traffic.IsNew

namespace State

variable {server : State} {ticket : Ticket} {submission : Submission}

/-- A server that has let a submission in and not yet looked at it. -/
def withEntrant (server : State) (ticket : Ticket) (submission : Submission) (arrival : Arrival) :
    State :=
  { server with traffic := { server.traffic with
    entrants := server.traffic.entrants ++ [⟨ticket, submission, arrival⟩]
    inFlight := server.traffic.inFlight + 1 } }

/-- A server with a further job that waits. -/
def withJob (server : State) (job : Job) : State :=
  { server with traffic := { server.traffic with waiting := server.traffic.waiting ++ [job] } }

theorem entrant?_withEntrant (hnew : server.traffic.IsNew ticket) (arrival other : Arrival) :
    (server.withEntrant ticket submission arrival).traffic.entrant? ticket other =
      if other = arrival then some ⟨ticket, submission, arrival⟩ else none := by
  have hnone : server.traffic.entrants.find?
      (fun entrant ↦ entrant.ticket = ticket && entrant.arrival = other) = none := by
    rw [List.find?_eq_none]
    intro entrant hentrant
    simp [hnew.entrants entrant hentrant]
  rw [Traffic.entrant?, withEntrant, List.find?_append, hnone, Option.none_or]
  by_cases hother : other = arrival
  · subst hother
    simp
  · simp [hother, Ne.symm hother]

theorem advance_withEntrant (hnew : server.traffic.IsNew ticket) (arrival later : Arrival) :
    (server.withEntrant ticket submission arrival).traffic.advance ticket later =
      (server.withEntrant ticket submission later).traffic := by
  have hmap : server.traffic.entrants.map (fun entrant ↦
      if entrant.ticket = ticket then { entrant with arrival := later } else entrant) =
        server.traffic.entrants := by
    refine (List.map_congr_left fun entrant hentrant ↦ ?_).trans (List.map_id _)
    rw [if_neg (hnew.entrants entrant hentrant)]
    rfl
  rw [Traffic.advance, withEntrant, withEntrant, List.map_append, hmap]
  simp

theorem filter_withEntrant (hnew : server.traffic.IsNew ticket) (arrival : Arrival) :
    (server.withEntrant ticket submission arrival).traffic.entrants.filter (·.ticket ≠ ticket) =
      server.traffic.entrants := by
  have hfilter : server.traffic.entrants.filter (·.ticket ≠ ticket) = server.traffic.entrants := by
    rw [List.filter_eq_self]
    intro entrant hentrant
    simpa using hnew.entrants entrant hentrant
  rw [withEntrant, List.filter_append, hfilter]
  simp

/-- The first half of a submission to an open server. -/
theorem attempt_check (hnew : server.traffic.IsNew ticket) (hopen : server.phase.isClosed = false) :
    (server.attempt (.enter ticket submission)).attempt (.check ticket) =
      server.withEntrant ticket submission .passed := by
  have henter : server.attempt (.enter ticket submission) =
      server.withEntrant ticket submission .entered := rfl
  have hcheck : (server.withEntrant ticket submission .entered).act (.check ticket) =
      some (server.withEntrant ticket submission .passed) := by
    rw [act, entrant?_withEntrant hnew, if_pos rfl, Option.map_some, if_neg,
      advance_withEntrant hnew]
    · rfl
    · rw [withEntrant, hopen]
      simp
  rw [henter, attempt, hcheck, Option.getD_some]

theorem attempt_accept (hnew : server.traffic.IsNew ticket) :
    (server.withEntrant ticket submission .passed).attempt (.accept ticket) =
      (server.withEntrant ticket submission .passed).accept ticket submission := by
  rw [attempt, act, entrant?_withEntrant hnew, if_pos rfl, Option.map_some, Option.getD_some]

theorem act_watch {entrant : Entrant}
    (hentrant : server.traffic.entrant? ticket .queued = some entrant)
    (hphase : server.phase ≠ .abandoned) :
    server.act (.watch ticket) = some { server with traffic := server.traffic.watch ticket } := by
  rw [act, hentrant, Option.map_some]
  dsimp only
  rw [if_neg hphase]

/-- An open server lets a new submission in. -/
theorem attempts_submit (hnew : server.traffic.IsNew ticket)
    (hopen : server.phase.isClosed = false) :
    [.enter ticket submission, .check ticket, .accept ticket, .watch ticket].foldl attempt server =
      ((server.withEntrant ticket submission .passed).accept ticket submission).attempt
        (.watch ticket) := by
  rw [List.foldl_cons, List.foldl_cons, List.foldl_cons, List.foldl_cons, List.foldl_nil,
    attempt_check hnew hopen, attempt_accept hnew]

theorem find?_refused (hnew : server.traffic.IsNew ticket) :
    server.traffic.refused.find? (·.1 = ticket) = none := by
  rw [List.find?_eq_none]
  intro refusal hrefusal
  simpa using hnew.refused refusal hrefusal

/-- A submission that is refused leaves nothing but its record in the books. -/
theorem submit_of_refuse {timer : Timer} {status : Status} (hnew : server.traffic.IsNew ticket)
    (hopen : server.phase.isClosed = false)
    (h : (server.withEntrant ticket submission .passed).accept ticket submission =
      (server.withEntrant ticket submission .passed).refuse ticket timer status) :
    server.submit ticket submission =
      ({ server with books := timer.drop server.now server.books }, .error status) := by
  have hrefused : (server.withEntrant ticket submission .passed).refuse ticket timer status =
      { server with
        books := timer.drop server.now server.books
        traffic := { server.traffic with
          refused := server.traffic.refused ++ [(ticket, status)] } } := by
    rw [refuse, Traffic.refuse, filter_withEntrant hnew]
    rfl
  have hwatch : ({ server with
      books := timer.drop server.now server.books
      traffic := { server.traffic with
        refused := server.traffic.refused ++ [(ticket, status)] } } : State).act (.watch ticket) =
      none := by
    rw [act, Traffic.entrant?, hnew.find?_entrants, Option.map_none]
  rw [submit, attempts_submit hnew hopen, h, hrefused, attempt, hwatch, Option.getD_none]
  simp [Traffic.refused?, Traffic.forget, List.find?_append, find?_refused hnew,
    hnew.filter_refused]

/-- A submission whose job is let wait is accepted. -/
theorem submit_of_enqueue {job : Job} (hnew : server.traffic.IsNew ticket)
    (hopen : server.phase.isClosed = false) (hjob : job.ticket = ticket)
    (h : (server.withEntrant ticket submission .passed).accept ticket submission =
      { server.withEntrant ticket submission .passed with
        traffic := (server.withEntrant ticket submission .passed).traffic.enqueue job }) :
    server.submit ticket submission =
      ({ server with traffic := { server.traffic with
        waiting := server.traffic.waiting ++ [job]
        watched := server.traffic.watched ++ [ticket]
        inFlight := server.traffic.inFlight + 1 } }, .ok ()) := by
  have hphase := Phase.ne_abandoned hopen
  have hwaiting : (server.withJob job).traffic.IsNew ticket := ⟨hnew.entrants, hnew.refused⟩
  have hqueued : (server.withEntrant ticket submission .passed).accept ticket submission =
      (server.withJob job).withEntrant ticket submission .queued := by
    rw [h, Traffic.enqueue, hjob, advance_withEntrant hnew]
    rfl
  have hentrant := @entrant?_withEntrant _ ticket submission hwaiting .queued .queued
  rw [if_pos rfl] at hentrant
  rw [submit, attempts_submit hnew hopen, hqueued, attempt, act_watch hentrant hphase,
    Option.getD_some, Traffic.watch, filter_withEntrant hwaiting]
  dsimp only [Traffic.refused?, withEntrant, withJob]
  rw [find?_refused hnew]
  rfl

variable {backend : Backend}

theorem accept_of_resolve_error {status : Status}
    (h : server.resolve submission.model submission.selector = .error status) :
    server.accept ticket submission =
      server.refuse ticket { model := submission.model, start := server.now } status := by
  unfold accept
  dsimp only
  rw [h]

theorem accept_of_prepare_error {status : Status}
    (hresolve : server.resolve submission.model submission.selector = .ok backend)
    (h : backend.prepare submission = .error status) :
    ∃ timer, server.accept ticket submission = server.refuse ticket timer status := by
  unfold accept
  dsimp only
  rw [hresolve]
  dsimp only
  rw [h]
  exact ⟨_, rfl⟩

theorem accept_of_prepare_ok {request : Request} {response : Response}
    (hresolve : server.resolve submission.model submission.selector = .ok backend)
    (h : backend.prepare submission = .ok (request, response))
    (hphase : server.phase ≠ .abandoned) (hroom : server.isFull backend = false) :
    ∃ timer, server.accept ticket submission =
      { server with traffic := server.traffic.enqueue { ticket, request, response, timer } } := by
  unfold accept
  dsimp only
  rw [hresolve]
  dsimp only
  rw [h]
  dsimp only [enqueue]
  rw [if_neg hphase, hroom]
  exact ⟨_, rfl⟩

end State

/-! ## The contract -/

/-- What a caller has to keep to so that a submission is accepted. -/
structure Contract (table : StatusTable) (submission : Submission) : Prop where
  ready : Ready table submission.model submission.selector
  /-- The request is acceptable to the configuration that the table has for the model. -/
  acceptable : ∃ status config, table.models.get? submission.model = some status ∧
    status.config = some config ∧ Acceptable config submission.header submission.data

section

variable {server : State} {submission : Submission}

/-- The configuration that the table has for a model is that of its backends. -/
theorem contract_iff (hconsistent : Consistent server.backends server.books.status) :
    Contract server.books.status submission ↔
      ∃ backend prepared, server.resolve submission.model submission.selector = .ok backend ∧
        backend.prepare submission = .ok prepared := by
  have hbackend : ∀ {backend : Backend},
      server.resolve submission.model submission.selector = .ok backend →
        backend.config.WellFormed ∧ ∃ status,
          server.books.status.models.get? submission.model = some status ∧
            status.config = some backend.config := by
    intro backend hresolve
    obtain ⟨version, hversion, -⟩ := exists_version?_of_resolve hresolve
    obtain ⟨-, -, hconfig, states, houtline, -⟩ := hconsistent.served hversion
    obtain ⟨status, hstatus, hpair⟩ := Option.map_eq_some_iff.1 houtline
    exact ⟨hconfig, status, hstatus, congrArg Prod.fst hpair⟩
  constructor
  · rintro ⟨hready, status, config, hstatus, hsame, hacceptable⟩
    obtain ⟨backend, hresolve⟩ := (exists_resolve_iff hconsistent).2 hready
    obtain ⟨hconfig, found, hfound, hother⟩ := hbackend hresolve
    obtain rfl : status = found := Option.some.inj (hstatus.symm.trans hfound)
    obtain rfl : config = backend.config := Option.some.inj (hsame.symm.trans hother)
    obtain ⟨prepared, hprepared⟩ := (Backend.exists_prepare_iff hconfig).2 hacceptable
    exact ⟨backend, prepared, hresolve, hprepared⟩
  · rintro ⟨backend, prepared, hresolve, hprepared⟩
    obtain ⟨hconfig, status, hstatus, hsame⟩ := hbackend hresolve
    exact ⟨(exists_resolve_iff hconsistent).1 ⟨backend, hresolve⟩, status, backend.config, hstatus,
      hsame, (Backend.exists_prepare_iff hconfig).1 ⟨prepared, hprepared⟩⟩

variable {ticket : Ticket}

/-- A submission that keeps the contract waits as the last job. -/
theorem submit_of_contract (hconsistent : Consistent server.backends server.books.status)
    (hopen : server.phase.isClosed = false) (hnew : server.traffic.IsNew ticket)
    (hroom : ∀ backend, server.resolve submission.model submission.selector = .ok backend →
      server.isFull backend = false)
    (h : Contract server.books.status submission) :
    ∃ job : Job, job.ticket = ticket ∧ server.submit ticket submission =
      ({ server with traffic := { server.traffic with
        waiting := server.traffic.waiting ++ [job]
        watched := server.traffic.watched ++ [ticket]
        inFlight := server.traffic.inFlight + 1 } }, .ok ()) := by
  obtain ⟨backend, ⟨request, response⟩, hresolve, hprepare⟩ := (contract_iff hconsistent).1 h
  obtain ⟨timer, haccept⟩ := @State.accept_of_prepare_ok
    (server.withEntrant ticket submission .passed) ticket submission backend request response
    hresolve hprepare (Phase.ne_abandoned hopen) (hroom backend hresolve)
  exact ⟨_, rfl, State.submit_of_enqueue hnew hopen rfl haccept⟩

/-- A submission that breaks the contract leaves nothing but a record in the books, and its code
tells whether the version was ready. -/
theorem submit_of_not_contract (hconsistent : Consistent server.backends server.books.status)
    (hopen : server.phase.isClosed = false) (hnew : server.traffic.IsNew ticket)
    (h : ¬ Contract server.books.status submission) :
    ∃ books status, server.submit ticket submission = ({ server with books }, .error status) ∧
      (Ready server.books.status submission.model submission.selector →
        status.code = .invalidArg) ∧
      (¬ Ready server.books.status submission.model submission.selector →
        status.code = .notFound ∨ status.code = .unavailable) := by
  cases hresolve : server.resolve submission.model submission.selector with
  | error status =>
    have haccept := @State.accept_of_resolve_error
      (server.withEntrant ticket submission .passed) ticket submission status hresolve
    have hready : ¬ Ready server.books.status submission.model submission.selector := by
      rw [← exists_resolve_iff hconsistent, hresolve]
      rintro ⟨_, hbackend⟩
      cases hbackend
    exact ⟨_, status, State.submit_of_refuse hnew hopen haccept, fun h ↦ absurd h hready,
      fun _ ↦ resolve_error_code hresolve⟩
  | ok backend =>
    cases hprepare : backend.prepare submission with
    | error status =>
      obtain ⟨timer, haccept⟩ := @State.accept_of_prepare_error
        (server.withEntrant ticket submission .passed) ticket submission backend status hresolve
        hprepare
      have hready : Ready server.books.status submission.model submission.selector :=
        (exists_resolve_iff hconsistent).1 ⟨backend, hresolve⟩
      exact ⟨_, status, State.submit_of_refuse hnew hopen haccept,
        fun _ ↦ Backend.blames_prepare status hprepare, fun h ↦ absurd hready h⟩
    | ok prepared =>
      exact absurd ((contract_iff hconsistent).2 ⟨backend, prepared, hresolve, hprepare⟩) h

end

/-- Every reachable server that is open and has room accepts exactly the submissions that keep the
contract. What is accepted waits as one job; what is refused leaves nothing in the traffic. -/
theorem submit_ok_iff_contract {files : Files.Tree} {registry : Platform.Registry}
    {freshId : String} {options : Options} {start server : State} {actions : List Action}
    {ticket : Ticket} {submission : Submission}
    (hcreate : State.create files registry freshId options = .ok start)
    (hrun : start.run actions = some server) (hopen : server.phase.isClosed = false)
    (hnew : server.traffic.IsNew ticket)
    (hroom : ∀ backend, server.resolve submission.model submission.selector = .ok backend →
      server.isFull backend = false) :
    ((server.submit ticket submission).2 = .ok () ↔ Contract server.books.status submission) ∧
      (Contract server.books.status submission → ∃ job : Job, job.ticket = ticket ∧
        (server.submit ticket submission).1.traffic = { server.traffic with
          waiting := server.traffic.waiting ++ [job]
          watched := server.traffic.watched ++ [ticket]
          inFlight := server.traffic.inFlight + 1 }) ∧
      (¬ Contract server.books.status submission → ∃ books status,
        server.submit ticket submission = ({ server with books }, .error status) ∧
          (Ready server.books.status submission.model submission.selector →
            status.code = .invalidArg) ∧
          (¬ Ready server.books.status submission.model submission.selector →
            status.code = .notFound ∨ status.code = .unavailable)) := by
  have hconsistent : Consistent server.backends server.books.status :=
    (sameModels_of_run hrun).consistent (State.consistent_of_create hcreate)
  have haccepted := submit_of_contract hconsistent hopen hnew hroom
  have hrefused := @submit_of_not_contract server submission ticket hconsistent hopen hnew
  refine ⟨⟨fun hok ↦ ?_, fun hcontract ↦ ?_⟩, fun hcontract ↦ ?_, hrefused⟩
  · by_contra hcontract
    obtain ⟨books, status, hsubmit, -⟩ := hrefused hcontract
    rw [hsubmit] at hok
    cases hok
  · obtain ⟨job, -, hsubmit⟩ := haccepted hcontract
    rw [hsubmit]
  · obtain ⟨job, hjob, hsubmit⟩ := haccepted hcontract
    exact ⟨job, hjob, by rw [hsubmit]⟩

theorem State.traffic_of_create {files : Files.Tree} {registry : Platform.Registry}
    {freshId : String} {options : Options} {start : State}
    (h : create files registry freshId options = .ok start) :
    start.traffic = {} ∧ start.phase = .serving := by
  obtain ⟨models, -, hstart⟩ := Outcome.bind_eq_ok_iff.1 h
  obtain rfl := Except.ok.inj hstart
  exact ⟨rfl, rfl⟩

/-- A repository with one version of a model that copies a byte. -/
def shelf : Files.Tree where
  root := [("models", .directory [("echo", .directory [("3", .directory []), ("config.json", .file
    (Bytes.ofText ("\x7b\"platform\": \"identity\"," ++
      "\"input\": [\x7b\"name\": \"in\", \"data_type\": \"UINT8\", \"dims\": [1]\x7d]," ++
      "\"output\": [\x7b\"name\": \"out\", \"data_type\": \"UINT8\", \"dims\": [1]\x7d]\x7d")))])])]
  current := []

/-- A submission of one byte to the latest version of that model. -/
def echoByte : Submission where
  model := "echo"
  selector := Submission.latest
  header := .ofNames 1 ["in"] []
  data := .ofPieces [("in", [7])]

theorem submit_ok_iff_contract_echoByte :
    ∃ start, State.create shelf .standard "shelf" { repository := "/models" } = .ok start ∧
      (start.submit 0 echoByte).2 = .ok () ∧ Contract start.books.status echoByte := by
  have haccepted : ((State.create shelf .standard "shelf"
      { repository := "/models" }).toOption.any fun start ↦ (start.submit 0 echoByte).2.isOk) =
        true := by
    decide +kernel
  obtain ⟨start, hstart, hanswered⟩ := Outcome.any_toOption_iff.1 haccepted
  obtain ⟨_, hok⟩ := Outcome.isOk_iff.1 hanswered
  obtain ⟨htraffic, hphase⟩ := State.traffic_of_create hstart
  have hnew : start.traffic.IsNew 0 := by
    rw [htraffic]
    exact ⟨by simp, by simp⟩
  have hroom : ∀ backend, start.resolve echoByte.model echoByte.selector = .ok backend →
      start.isFull backend = false := by
    intro backend _
    simp [State.isFull, Traffic.waitingFor, htraffic]
  have hcontract := @submit_ok_iff_contract shelf .standard "shelf" { repository := "/models" }
    start start [] 0 echoByte hstart rfl (by rw [hphase]; rfl) hnew hroom
  exact ⟨start, hstart, hok, hcontract.1.1 hok⟩

end TensorInference.Server
