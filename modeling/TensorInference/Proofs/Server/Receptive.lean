import TensorInference.Proofs.Server.Accounting
import TensorInference.Proofs.Server.Recounting
import TensorInference.Proofs.Server.Shutdown

/-!
# Servers between calls

Between the calls of its callers a server is not being stopped, nobody is on the way in, and no
refusal is kept. Workers, callbacks and the clock leave it so. A submission that such a server
refuses leaves a failed request in the books if it reached a model version, and nothing at all if it
did not (`State.Receptive.submit`).
-/

namespace TensorInference.Server

open Model Inference

/-- Whether an action is not one of a caller: it is one of a worker or a callback, or time passes. -/
def Action.isInternal : Action → Bool
  | .pass _ => true
  | action => action.isProgress

namespace State

/-- A server in service, with nobody on the way in. -/
structure Receptive (server : State) : Prop where
  serving : server.phase = .serving
  entrants : server.traffic.entrants = []
  refused : server.traffic.refused = []
  /-- The counters of whatever a submission resolves to are there. -/
  shown : ∀ {submission : Submission} {backend},
    server.resolve submission.model submission.selector = .ok backend →
      (server.timer submission backend).IsShown server.books.metrics

namespace Receptive

variable {server next : State} {action : Action} {ticket : Ticket} {submission : Submission}
  {backend : Backend}

theorem of_create {files : Files.Tree} {registry : Platform.Registry} {freshId : String}
    {options : Options} (h : create files registry freshId options = .ok server) :
    server.Receptive := by
  have hexposes := exposes_of_create h
  have hconsistent := consistent_of_create h
  have htraffic : server.traffic = {} ∧ server.phase = .serving := by
    obtain ⟨models, -, hserver⟩ := Outcome.bind_eq_ok_iff.1 h
    obtain rfl := Except.ok.inj hserver
    exact ⟨rfl, rfl⟩
  refine ⟨htraffic.2, by rw [htraffic.1], by rw [htraffic.1], fun hresolve label hlabel ↦ ?_⟩
  obtain ⟨version, hversion, -⟩ := exists_version?_of_resolve hresolve
  obtain ⟨hname, hnumber, -⟩ := hconsistent.served hversion
  obtain ⟨hmetered, hlabel⟩ := Option.ite_none_right_eq_some.1 hlabel
  rw [← Option.some.inj hlabel, hname, hnumber]
  exact hexposes.exposed ((metered_of_create h hversion).symm.trans hmetered) _ _ _ hversion

theorem isNew (h : server.Receptive) (ticket : Ticket) : server.traffic.IsNew ticket where
  entrants := by
    rw [h.entrants]
    exact nofun
  refused := by
    rw [h.refused]
    exact nofun

theorem isClosed_eq (h : server.Receptive) : server.phase.isClosed = false := by
  rw [h.serving]
  rfl

theorem act (h : server.Receptive) (hinternal : action.isInternal = true)
    (hact : server.act action = some next) : next.Receptive := by
  have hmodels := (step_of_act hact).sameModels
  have hshown : ∀ {submission : Submission} {backend},
      next.resolve submission.model submission.selector = .ok backend →
        (next.timer submission backend).IsShown next.books.metrics := by
    intro submission backend hresolve
    rw [hmodels.resolve] at hresolve
    exact isShown_of_act (h.shown hresolve) hact
  have habsent : ∀ {ticket arrival entrant},
      server.traffic.entrant? ticket arrival ≠ some entrant := by
    intro ticket arrival entrant hentrant
    have hmem := (Traffic.mem_of_entrant? hentrant).1
    rw [h.entrants] at hmem
    cases hmem
  cases step_of_act hact with
  | enter | beginStop | announce | close | observeIdle | giveUp => cases hinternal
  | turnAway hentrant _ => exact absurd hentrant habsent
  | letIn hentrant _ => exact absurd hentrant habsent
  | reject _ _ hentrant => exact absurd hentrant habsent
  | enqueue _ hentrant _ _ _ _ => exact absurd hentrant habsent
  | watch hentrant _ => exact absurd hentrant habsent
  | watchLate hentrant _ => exact absurd hentrant habsent
  | _ => exact ⟨h.serving, h.entrants, h.refused, hshown⟩

theorem attempts {actions : List Action} (h : server.Receptive)
    (hinternal : ∀ action ∈ actions, action.isInternal = true) :
    (actions.foldl attempt server).Receptive := by
  induction actions generalizing server with
  | nil => exact h
  | cons action rest ih =>
    obtain ⟨hfirst, hrest⟩ := List.forall_mem_cons.1 hinternal
    refine ih ?_ hrest
    rw [attempt]
    cases hact : server.act action with
    | none => exact h
    | some next => exact h.act hfirst hact

/-- A submission is let wait, or it is refused and leaves a failed request in the books if it
reached a model version. -/
theorem submit (h : server.Receptive) (ticket : Ticket) (submission : Submission) :
    (∃ next, server.submit ticket submission = (next, .ok ()) ∧ next.Receptive ∧
      next.traffic.delivered = server.traffic.delivered) ∨
    ∃ status, server.submit ticket submission =
      (match server.resolve submission.model submission.selector with
        | .ok backend => server.recount (server.timer submission backend)
        | .error _ => server, .error status) := by
  have hnew := h.isNew ticket
  cases hresolve : server.resolve submission.model submission.selector with
  | error status =>
    have haccept := @accept_of_resolve_error (server.withEntrant ticket submission .passed) ticket
      submission status hresolve
    exact .inr ⟨status, submit_of_refuse hnew h.isClosed_eq haccept⟩
  | ok backend =>
    rcases @accept_of_resolved (server.withEntrant ticket submission .passed) ticket submission
      backend hresolve with ⟨status, haccept⟩ | ⟨request, response, -, haccept⟩
    · exact .inr ⟨status, submit_of_refuse hnew h.isClosed_eq haccept⟩
    · exact .inl ⟨_, submit_of_enqueue hnew h.isClosed_eq rfl haccept,
        ⟨h.serving, h.entrants, h.refused, h.shown⟩, rfl⟩

theorem recount (h : server.Receptive) (timer : Timer) : (server.recount timer).Receptive where
  serving := h.serving
  entrants := h.entrants
  refused := h.refused
  shown hresolve := by
    rw [resolve_recount] at hresolve
    exact (h.shown hresolve).finish

theorem fst_submit (h : server.Receptive) (ticket : Ticket) (submission : Submission) :
    (server.submit ticket submission).1.Receptive := by
  rcases h.submit ticket submission with ⟨next, hsubmit, hnext, -⟩ | ⟨status, hsubmit⟩
  · rw [hsubmit]
    exact hnext
  · rw [hsubmit]
    dsimp only
    split
    · exact h.recount _
    · exact h

end Receptive

/-- A server settles by actions of workers and callbacks. -/
theorem exists_settle_eq (server : State) :
    ∃ actions : List Action, (∀ action ∈ actions, action.isInternal = true) ∧
      server.settle = actions.foldl attempt server := by
  have hwithin : ∀ (fuel : Nat) (server : State),
      ∃ actions : List Action, (∀ action ∈ actions, action.isInternal = true) ∧
        server.settleWithin fuel = actions.foldl attempt server := by
    intro fuel
    induction fuel with
    | zero => exact fun server ↦ ⟨[], nofun, rfl⟩
    | succ fuel ih =>
      intro server
      rw [settleWithin]
      split
      · rename_i next hnext
        obtain ⟨action, haction, hact⟩ := Option.bind_eq_some_iff.1 hnext
        obtain ⟨actions, hinternal, hactions⟩ := ih next
        have hprogress := nextAction?_isProgress haction
        refine ⟨action :: actions, List.forall_mem_cons.2 ⟨?_, hinternal⟩, ?_⟩
        · cases action with
          | pass => rfl
          | _ => exact hprogress
        · rw [List.foldl_cons, attempt, hact, Option.getD_some, hactions]
      · exact ⟨[], nofun, rfl⟩
  exact hwithin _ server

end State

end TensorInference.Server
