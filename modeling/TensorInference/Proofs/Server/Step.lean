import Mathlib.Data.List.Induction
import TensorInference.Server.Action

/-!
# Steps of a server

`Step` says once what each action can do to a server and when it can be taken. Everything that
holds of all runs is proved by cases on a step and carried along the run by `run_induction`, whose
last action comes after all others.
-/

namespace TensorInference

open Model Inference

/-- The outcome of an execution that has come to its end. -/
def Platform.Pause.outcome? (model : String) : Platform.Pause → Option (Except Status Unit)
  | .finished outcome => some outcome
  | .crashed message => some (.error (Server.crashStatus model message))
  | .waiting _ => none

namespace Server

/-- The submission that an action is a step of. -/
def Action.ticket? : Action → Option Ticket
  | .enter ticket _ | .check ticket | .accept ticket | .watch ticket | .work ticket
  | .resume ticket | .deliver ticket | .leave ticket => some ticket
  | .start _ _ | .beginStop | .announce | .close | .observeIdle | .giveUp | .pass _ => none

/-- A server that takes submissions has not given up. -/
theorem Phase.ne_abandoned {phase : Phase} (h : phase.isClosed = false) : phase ≠ .abandoned := by
  rintro rfl
  cases h

/-- What an action can do to a server. -/
inductive Step (server : State) : Action → State → Prop
  | enter (ticket : Ticket) (submission : Submission) :
    Step server (.enter ticket submission)
      { server with traffic := server.traffic.enter ticket submission }
  | turnAway {ticket : Ticket} {entrant : Entrant}
    (hentrant : server.traffic.entrant? ticket .entered = some entrant)
    (hclosed : server.phase.isClosed = true) :
    Step server (.check ticket) { server with
      traffic := server.traffic.refuse ticket (.unavailable "server is shutting down") }
  | letIn {ticket : Ticket} {entrant : Entrant}
    (hentrant : server.traffic.entrant? ticket .entered = some entrant)
    (hopen : server.phase.isClosed = false) :
    Step server (.check ticket) { server with traffic := server.traffic.advance ticket .passed }
  | reject {ticket : Ticket} {entrant : Entrant} (timer : Timer) (status : Status)
    (hentrant : server.traffic.entrant? ticket .passed = some entrant) :
    Step server (.accept ticket) (server.refuse ticket timer status)
  | enqueue {ticket : Ticket} {entrant : Entrant} {backend : Backend} {request : Request}
    {response : Response} (timer : Timer)
    (hentrant : server.traffic.entrant? ticket .passed = some entrant)
    (hresolve : server.resolve entrant.submission.model entrant.submission.selector = .ok backend)
    (hprepare : backend.prepare entrant.submission = .ok (request, response))
    (hphase : server.phase ≠ .abandoned) (hroom : server.isFull backend = false) :
    Step server (.accept ticket)
      { server with traffic := server.traffic.enqueue { ticket, request, response, timer } }
  | watch {ticket : Ticket} {entrant : Entrant}
    (hentrant : server.traffic.entrant? ticket .queued = some entrant)
    (hphase : server.phase ≠ .abandoned) :
    Step server (.watch ticket) { server with traffic := server.traffic.watch ticket }
  | watchLate {ticket : Ticket} {entrant : Entrant}
    (hentrant : server.traffic.entrant? ticket .queued = some entrant)
    (hphase : server.phase = .abandoned) :
    Step server (.watch ticket) { server with traffic := (server.traffic.watch ticket).abandon }
  | start {model : String} {version : UInt64} {backend : Backend} {job : Job} (timer : Timer)
    (hbackend : server.backend? model version = some backend)
    (hfree : server.traffic.busyFor backend.name backend.version < backend.workers)
    (hjob : server.traffic.waiting.find? (·.isFor backend.name backend.version) = some job) :
    Step server (.start model version) { server with
      traffic := server.traffic.start { job with timer } (backend.executor job.request) }
  | conclude {ticket : Ticket} {execution : Execution} {response : Response}
    {pause : Platform.Pause} {outcome : Except Status Unit}
    (hexecution : server.traffic.running.find? (·.job.ticket = ticket) = some execution)
    (hadvance : execution.program.advance execution.job.response = (response, pause))
    (houtcome : pause.outcome? execution.job.request.model = some outcome) :
    Step server (.work ticket) (server.conclude execution.job response outcome)
  | pause {ticket : Ticket} {execution : Execution} {response : Response}
    {next : Platform.Program}
    (hexecution : server.traffic.running.find? (·.job.ticket = ticket) = some execution)
    (hadvance : execution.program.advance execution.job.response = (response, .waiting next)) :
    Step server (.work ticket) { server with
      traffic := server.traffic.proceed ⟨{ execution.job with response }, .wait next⟩ }
  | resume {ticket : Ticket} {job : Job} {next : Platform.Program}
    (hexecution : server.traffic.running.find? (·.job.ticket = ticket) = some ⟨job, .wait next⟩) :
    Step server (.resume ticket) { server with traffic := server.traffic.proceed ⟨job, next⟩ }
  | deliver {ticket : Ticket} {completion : Completion} (hwatched : ticket ∈ server.traffic.watched)
    (hcompletion : server.traffic.outbox.find? (·.ticket = ticket) = some completion) :
    Step server (.deliver ticket) { server with traffic := server.traffic.deliver completion }
  | leave {ticket : Ticket} (hleaving : ticket ∈ server.traffic.leaving) :
    Step server (.leave ticket) { server with traffic := server.traffic.leave ticket }
  | beginStop (hphase : server.phase = .serving) :
    Step server .beginStop { server with phase := .stopping }
  | announce (hphase : server.phase = .stopping) :
    Step server .announce { server with phase := .announced }
  | close (hphase : server.phase = .announced) : Step server .close { server with phase := .closed }
  | observeIdle (hphase : server.phase = .closed) (hidle : server.traffic.inFlight = 0) :
    Step server .observeIdle { server with phase := .drained }
  | giveUp (hphase : server.phase = .closed) :
    Step server .giveUp { server with
      phase := .abandoned
      books := dropTimers server.now server.books server.traffic.unfinished
      traffic := server.traffic.abandon }
  | pass (time : Nanoseconds) : Step server (.pass time) { server with now := server.now + time }

namespace State

variable {server next : State} {action : Action}

/-- What becomes of a submission that was let in: it is refused, or its request waits. -/
theorem step_accept {ticket : Ticket} {entrant : Entrant}
    (hentrant : server.traffic.entrant? ticket .passed = some entrant) :
    Step server (.accept ticket) (server.accept ticket entrant.submission) := by
  unfold accept
  dsimp only
  split
  · exact .reject _ _ hentrant
  · rename_i backend hresolve
    split
    · exact .reject _ _ hentrant
    · rename_i request response hprepare
      unfold enqueue
      dsimp only
      split
      · exact .reject _ _ hentrant
      · rename_i hphase
        split
        · exact .reject _ _ hentrant
        · rename_i hroom
          exact .enqueue _ hentrant hresolve hprepare hphase (Bool.not_eq_true _ ▸ hroom)

theorem step_start {model : String} {version : UInt64} {backend : Backend}
    (hbackend : server.backend? model version = some backend)
    (h : server.start backend = some next) : Step server (.start model version) next := by
  unfold start at h
  split at h
  · rename_i hfree
    obtain ⟨job, hjob, rfl⟩ := Option.map_eq_some_iff.1 h
    exact .start _ hbackend hfree hjob
  · simp at h

theorem step_work {ticket : Ticket} {execution : Execution}
    (hexecution : server.traffic.running.find? (·.job.ticket = ticket) = some execution) :
    Step server (.work ticket) (server.work execution) := by
  unfold work
  dsimp only
  split
  · rename_i outcome hpause
    exact @Step.conclude server ticket execution _ (.finished outcome) outcome hexecution
      (Prod.ext rfl hpause) rfl
  · rename_i message hpause
    exact @Step.conclude server ticket execution _ (.crashed message) _ hexecution
      (Prod.ext rfl hpause) rfl
  · rename_i next hpause
    exact .pause hexecution (Prod.ext rfl hpause)

theorem step_of_act (h : server.act action = some next) : Step server action next := by
  cases action with
  | enter ticket submission =>
    obtain rfl := Option.some.inj h
    exact .enter ticket submission
  | check ticket =>
    obtain ⟨entrant, hentrant, rfl⟩ := Option.map_eq_some_iff.1 h
    split
    · rename_i hclosed
      exact .turnAway hentrant hclosed
    · rename_i hopen
      exact .letIn hentrant (Bool.not_eq_true _ ▸ hopen)
  | accept ticket =>
    obtain ⟨entrant, hentrant, rfl⟩ := Option.map_eq_some_iff.1 h
    exact step_accept hentrant
  | watch ticket =>
    obtain ⟨entrant, hentrant, rfl⟩ := Option.map_eq_some_iff.1 h
    dsimp only
    split
    · rename_i hphase
      exact .watchLate hentrant hphase
    · rename_i hphase
      exact .watch hentrant hphase
  | start model version =>
    obtain ⟨backend, hbackend, h⟩ := Option.bind_eq_some_iff.1 h
    exact step_start hbackend h
  | work ticket =>
    unfold act at h
    dsimp only at h
    split at h
    · simp at h
    · simp at h
    · rename_i execution _ hexecution
      obtain rfl := Option.some.inj h
      exact step_work hexecution
  | resume ticket =>
    unfold act at h
    dsimp only at h
    split at h
    · rename_i job program hexecution
      obtain rfl := Option.some.inj h
      exact .resume hexecution
    · simp at h
  | deliver ticket =>
    unfold act at h
    dsimp only at h
    split at h
    · rename_i hwatched
      obtain ⟨completion, hcompletion, rfl⟩ := Option.map_eq_some_iff.1 h
      exact .deliver (List.contains_iff_mem.1 hwatched) hcompletion
    · simp at h
  | leave ticket =>
    unfold act at h
    dsimp only at h
    split at h
    · rename_i hleaving
      obtain rfl := Option.some.inj h
      exact .leave (List.contains_iff_mem.1 hleaving)
    · simp at h
  | beginStop =>
    obtain ⟨hphase, h⟩ := Option.ite_none_right_eq_some.1 h
    obtain rfl := Option.some.inj h
    exact .beginStop hphase
  | announce =>
    obtain ⟨hphase, h⟩ := Option.ite_none_right_eq_some.1 h
    obtain rfl := Option.some.inj h
    exact .announce hphase
  | close =>
    obtain ⟨hphase, h⟩ := Option.ite_none_right_eq_some.1 h
    obtain rfl := Option.some.inj h
    exact .close hphase
  | observeIdle =>
    obtain ⟨⟨hphase, hidle⟩, h⟩ := Option.ite_none_right_eq_some.1 h
    obtain rfl := Option.some.inj h
    exact .observeIdle hphase hidle
  | giveUp =>
    obtain ⟨hphase, h⟩ := Option.ite_none_right_eq_some.1 h
    obtain rfl := Option.some.inj h
    exact .giveUp hphase
  | pass time =>
    obtain rfl := Option.some.inj h
    exact .pass time

theorem run_append (first second : List Action) :
    server.run (first ++ second) = (server.run first).bind fun middle ↦ middle.run second := by
  induction first generalizing server with
  | nil => rfl
  | cons action rest ih =>
    rw [List.cons_append, run, run, Option.bind_assoc]
    congr 1
    funext middle
    exact ih

/-- What holds at the start and is kept by every action after a run holds after every run. -/
theorem run_induction {start : State} {P : List Action → State → Prop} (hstart : P [] start)
    (hact : ∀ {actions server action next}, start.run actions = some server → P actions server →
      server.act action = some next → P (actions ++ [action]) next)
    {actions : List Action} (h : start.run actions = some server) : P actions server := by
  induction actions using List.reverseRecOn generalizing server with
  | nil =>
    obtain rfl := Option.some.inj h
    exact hstart
  | append_singleton actions action ih =>
    rw [run_append] at h
    obtain ⟨middle, hmiddle, h⟩ := Option.bind_eq_some_iff.1 h
    obtain ⟨last, hlast, h⟩ := Option.bind_eq_some_iff.1 h
    obtain rfl := Option.some.inj h
    exact hact hmiddle (ih hmiddle) hlast

end State

end Server

end TensorInference
