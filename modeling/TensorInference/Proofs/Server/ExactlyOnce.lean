import Mathlib.Data.List.Nodup
import TensorInference.Proofs.Server.Acceptance
import TensorInference.Proofs.Server.Order
import TensorInference.Proofs.Server.Pipeline

/-!
# Every accepted submission is delivered exactly once

The invariants of single steps are put together and carried along a run in which no ticket is used
twice. A quiescent server is one whose callers, workers and callbacks can do nothing. Such a server
has nothing left in any stage before the last, so whatever it accepted was delivered, unless it gave
up what was in flight.
-/

namespace TensorInference.Server

open Model Inference

/-- The submissions that were entered in a run. -/
def entered (actions : List Action) : List (Ticket × Submission) :=
  actions.flatMap Action.arrivals

theorem entered_append (first second : List Action) :
    entered (first ++ second) = entered first ++ entered second :=
  List.flatMap_append

theorem entered_append_singleton (actions : List Action) (action : Action) :
    entered (actions ++ [action]) = entered actions ++ action.arrivals := by
  simp [entered]

variable {start server next : State} {actions : List Action} {t : Ticket}

theorem nodup_entered_of_append_singleton {action : Action}
    (h : ((entered (actions ++ [action])).map (·.1)).Nodup) :
    ((entered actions).map (·.1)).Nodup := by
  rw [entered_append_singleton, List.map_append] at h
  exact h.of_append_left

theorem countP_entered_le (h : ((entered actions).map (·.1)).Nodup) (t : Ticket) :
    (entered actions).countP (·.1 = t) ≤ 1 := by
  have hcount : ((entered actions).map (·.1)).count t ≤ 1 := List.nodup_iff_count_le_one.1 h t
  rw [List.count, List.countP_map] at hcount
  refine Nat.le_trans (Nat.le_of_eq ?_) hcount
  refine List.countP_congr fun _ _ ↦ ?_
  simp

/-- The tickets of a run tell its submissions apart. -/
theorem submission_eq_of_ticket (hfresh : ((entered actions).map (·.1)).Nodup) {ticket : Ticket}
    {submission other : Submission} (h : (ticket, submission) ∈ entered actions)
    (h' : (ticket, other) ∈ entered actions) : submission = other :=
  Named.snd_eq_of_mem hfresh h h'

/-- A ticket that was used does not arrive again. -/
theorem countP_arrivals_le (hfresh : ((entered (actions ++ [action])).map (·.1)).Nodup)
    (t : Ticket) : (entered actions).countP (·.1 = t) + action.arrivals.countP (·.1 = t) ≤ 1 := by
  have hle := countP_entered_le hfresh t
  rwa [entered_append_singleton, List.countP_append] at hle

/-- What holds of a server after a run that enters every submission under a ticket of its own. -/
structure Sound (start server : State) (actions : List Action) : Prop where
  balanced : ∀ t, Counts.Balanced server.phase ((entered actions).countP (·.1 = t))
    (server.traffic.counts t)
  within : Within server
  faithful : Faithful start (entered actions) server.traffic
  ordered : ∀ model version, Ordered (start.admissions model version actions)
    (start.starts model version actions) server.phase (server.traffic.queue model version)
  admittedOnce : ∀ model version t, AdmittedOnce ((entered actions).countP (·.1 = t))
    ((start.admissions model version actions).count t) (server.traffic.counts t)

namespace Sound

theorem nil (htraffic : start.traffic = {}) (hphase : start.phase = .serving) :
    Sound start start [] where
  balanced t := by
    rw [htraffic, hphase]
    exact ⟨fun _ ↦ ⟨rfl, rfl⟩, nofun⟩
  within := by
    refine ⟨fun model version ↦ ?_, fun model version backend _ ↦ ?_⟩
    · rw [htraffic]
      exact Nat.zero_le _
    · rw [htraffic]
      exact Nat.zero_le _
  faithful := by
    rw [htraffic]
    exact ⟨nofun, nofun, nofun, nofun⟩
  ordered model version := by
    rw [htraffic]
    exact ⟨fun _ ↦ rfl, List.nil_prefix⟩
  admittedOnce model version t := by
    rw [htraffic]
    exact Nat.le_refl _

theorem act {action : Action} (hrun : start.run actions = some server)
    (hact : server.act action = some next)
    (hconsistent : Consistent start.backends start.books.status)
    (hfresh : ((entered (actions ++ [action])).map (·.1)).Nodup) (h : Sound start server actions) :
    Sound start next (actions ++ [action]) := by
  have hstep := State.step_of_act hact
  have hmodels := sameModels_of_run hrun
  have hcount := countP_arrivals_le hfresh
  have hbalanced : ∀ t, ∃ n ≤ 1, Counts.Balanced server.phase n (server.traffic.counts t) :=
    fun t ↦ ⟨_, Nat.le_trans (Nat.le_add_right _ _) (hcount t), h.balanced t⟩
  refine ⟨fun t ↦ ?_, ?_, ?_, fun model version ↦ ?_, fun model version t ↦ ?_⟩
  · rw [entered_append_singleton, List.countP_append]
    exact hstep.balanced (h.balanced t) (hcount t)
  · refine hstep.within (hmodels.consistent hconsistent) (fun t ↦ ?_) h.within
    obtain ⟨n, hn, hcounts⟩ := hbalanced t
    have htotal := hcounts.total_le
    unfold Counts.total at htotal
    omega
  · rw [entered_append_singleton]
    exact hstep.faithful hmodels hconsistent h.faithful
  · rw [State.admissions, State.starts, State.log_append_singleton hrun hact,
      State.log_append_singleton hrun hact]
    exact hstep.ordered hbalanced (h.ordered model version)
  · rw [entered_append_singleton, List.countP_append, State.admissions,
      State.log_append_singleton hrun hact, List.count_append]
    exact hstep.admittedOnce (h.balanced t) (hcount t) (h.admittedOnce model version t)

theorem of_run (htraffic : start.traffic = {}) (hphase : start.phase = .serving)
    (hconsistent : Consistent start.backends start.books.status)
    (hrun : start.run actions = some server) (hfresh : ((entered actions).map (·.1)).Nodup) :
    Sound start server actions := by
  have hall := @State.run_induction server start
    (fun actions server ↦ ((entered actions).map (·.1)).Nodup → Sound start server actions)
    (fun _ ↦ nil htraffic hphase) ?_ actions hrun
  · exact hall hfresh
  · intro actions server action next hrun ih hact hfresh
    have hbefore := nodup_entered_of_append_singleton hfresh
    exact (ih hbefore).act hrun hact hconsistent hfresh

theorem of_create {files : Files.Tree} {registry : Platform.Registry} {freshId : String}
    {options : Options} (hcreate : State.create files registry freshId options = .ok start)
    (hrun : start.run actions = some server) (hfresh : ((entered actions).map (·.1)).Nodup) :
    Sound start server actions := by
  obtain ⟨htraffic, hphase⟩ := State.traffic_of_create hcreate
  exact of_run htraffic hphase (State.consistent_of_create hcreate) hrun hfresh

/-- A job that was admitted is in one of the stages of a job, and was not refused. -/
theorem stage_of_admitted (h : Sound start server actions)
    (hfresh : ((entered actions).map (·.1)).Nodup) (hphase : server.phase ≠ .abandoned)
    {model : String} {version : UInt64} (hadmitted : t ∈ start.admissions model version actions) :
    (server.traffic.counts t).refused = 0 ∧
      (server.traffic.counts t).waiting + (server.traffic.counts t).running +
        (server.traffic.counts t).outbox + (server.traffic.counts t).delivered = 1 := by
  have hpos := List.count_pos_iff.2 hadmitted
  have hle := countP_entered_le hfresh t
  have honce := h.admittedOnce model version t
  have hkept := ((h.balanced t).kept hphase).1
  unfold AdmittedOnce at honce
  unfold Counts.total at hkept
  omega

theorem admissions_nodup (h : Sound start server actions)
    (hfresh : ((entered actions).map (·.1)).Nodup) (model : String) (version : UInt64) :
    (start.admissions model version actions).Nodup := by
  rw [List.nodup_iff_count_le_one]
  intro t
  have hle := countP_entered_le hfresh t
  have honce := h.admittedOnce model version t
  unfold AdmittedOnce at honce
  omega

/-- What is delivered under the ticket of a submission is the answer to it. -/
theorem answer_of_delivered (h : Sound start server actions)
    (hfresh : ((entered actions).map (·.1)).Nodup) {completion : Completion}
    (hcompletion : completion ∈ server.traffic.delivered) {submission : Submission}
    (hentered : (completion.ticket, submission) ∈ entered actions) :
    ∃ backend, start.resolve submission.model submission.selector = .ok backend ∧
      backend.answer submission = .ok (completion.status, completion.response) := by
  obtain ⟨other, backend, hother, hresolve, hanswer⟩ :=
    h.faithful.completed completion (.inr hcompletion)
  obtain rfl := submission_eq_of_ticket hfresh hentered hother
  exact ⟨backend, hresolve, hanswer⟩

end Sound

/-! ## Quiescence -/

theorem exists_find?_of_mem {α : Type} {p : α → Bool} {l : List α} {a : α} (ha : a ∈ l)
    (hp : p a = true) : ∃ b, l.find? p = some b := by
  apply Option.isSome_iff_exists.1
  rw [List.find?_isSome]
  exact ⟨a, ha, hp⟩

/-- Whether an action is one by which the submissions under way come on. -/
def Action.isProgress : Action → Bool
  | .check _ | .accept _ | .watch _ | .start _ _ | .work _ | .resume _ | .deliver _ | .leave _ =>
    true
  | .enter _ _ | .beginStop | .announce | .close | .observeIdle | .giveUp | .pass _ => false

/-- No submission under way can come on. -/
def State.Quiescent (server : State) : Prop :=
  ∀ action : Action, action.isProgress = true → server.act action = none

namespace State.Quiescent

/-- A caller on its way in can always take its next action. -/
theorem entrants_eq_nil (h : server.Quiescent) : server.traffic.entrants = [] := by
  rw [List.eq_nil_iff_forall_not_mem]
  intro entrant hentrant
  have hfound : ∃ other, server.traffic.entrant? entrant.ticket entrant.arrival = some other :=
    exists_find?_of_mem hentrant (by simp)
  obtain ⟨other, hother⟩ := hfound
  cases harrival : entrant.arrival with
  | entered =>
    have hnone := h (.check entrant.ticket) rfl
    rw [harrival] at hother
    simp [act, hother] at hnone
  | passed =>
    have hnone := h (.accept entrant.ticket) rfl
    rw [harrival] at hother
    simp [act, hother] at hnone
  | queued =>
    have hnone := h (.watch entrant.ticket) rfl
    rw [harrival] at hother
    simp [act, hother] at hnone

/-- A job in execution can be worked on, or what it waits for comes. -/
theorem running_eq_nil (h : server.Quiescent) : server.traffic.running = [] := by
  rw [List.eq_nil_iff_forall_not_mem]
  intro execution hexecution
  have hfound : ∃ other, server.traffic.running.find?
      (·.job.ticket = execution.job.ticket) = some other :=
    exists_find?_of_mem hexecution (by simp)
  obtain ⟨⟨job, program⟩, hother⟩ := hfound
  have hwork := h (.work execution.job.ticket) rfl
  have hresume := h (.resume execution.job.ticket) rfl
  unfold act at hwork hresume
  dsimp only at hwork hresume
  rw [hother] at hwork hresume
  cases program with
  | wait following => cases hresume
  | finish outcome => cases hwork
  | crash message => cases hwork
  | store name shape data following => cases hwork

/-- All workers are free, so the first job that waits for a backend could be started. -/
theorem waiting_eq_nil {submissions : List (Ticket × Submission)} (h : server.Quiescent)
    (hmodels : SameModels start server)
    (hconsistent : Consistent start.backends start.books.status)
    (hfaithful : Faithful start submissions server.traffic) : server.traffic.waiting = [] := by
  rw [List.eq_nil_iff_forall_not_mem]
  intro job hjob
  obtain ⟨submission, backend, hprepares⟩ := hfaithful.waiting job hjob
  have hbackend : server.backend? backend.name backend.version = some backend := by
    rw [State.backend?, hmodels.backends]
    exact hconsistent.version?_of_resolve hprepares.resolved
  have hfree : server.traffic.busyFor backend.name backend.version < backend.workers := by
    have hbusy : server.traffic.busyFor backend.name backend.version = 0 := by
      rw [Traffic.busyFor, h.running_eq_nil, List.countP_nil]
    have hworkers : 1 ≤ backend.workers := Nat.le_max_left _ _
    omega
  have hfound : ∃ first, server.traffic.waiting.find?
      (·.isFor backend.name backend.version) = some first :=
    exists_find?_of_mem hjob (Job.isFor_iff.2 (Backend.request_of_prepare hprepares.prepared))
  obtain ⟨first, hfirst⟩ := hfound
  have hnone := h (.start backend.name backend.version) rfl
  rw [act, hbackend, Option.bind_some, State.start, if_pos hfree, hfirst] at hnone
  cases hnone

/-- A completed job is owed a delivery by a watcher, which could deliver it. -/
theorem outbox_eq_zero {n : Nat} (h : server.Quiescent)
    (hbalanced : Counts.Balanced server.phase n (server.traffic.counts t)) :
    (server.traffic.counts t).outbox = 0 := by
  by_contra hpos
  have hphase : server.phase ≠ .abandoned := hbalanced.not_abandoned (by omega)
  have howed := (hbalanced.kept hphase).2
  have hsettling : (server.traffic.counts t).settling = 0 := by
    unfold Traffic.counts
    dsimp only
    rw [h.entrants_eq_nil, List.countP_nil]
  have hwatched : 0 < server.traffic.watched.countP (· = t) := by
    change 0 < (server.traffic.counts t).watched
    omega
  obtain ⟨other, hother, hsame⟩ := List.countP_pos_iff.1 hwatched
  obtain rfl := of_decide_eq_true hsame
  have houtbox : 0 < server.traffic.outbox.countP (·.ticket = other) := Nat.pos_of_ne_zero hpos
  obtain ⟨completion, hcompletion, hticket⟩ := List.countP_pos_iff.1 houtbox
  have hfound : ∃ first, server.traffic.outbox.find? (·.ticket = other) = some first :=
    exists_find?_of_mem hcompletion hticket
  obtain ⟨first, hfirst⟩ := hfound
  have hnone := h (.deliver other) rfl
  unfold act at hnone
  dsimp only at hnone
  rw [if_pos (List.contains_iff_mem.2 hother), hfirst] at hnone
  cases hnone

/-- Nothing of a submission is left in a stage before the last. -/
theorem unfinished_eq_zero (h : server.Quiescent) (hmodels : SameModels start server)
    (hconsistent : Consistent start.backends start.books.status)
    (hsound : Sound start server actions) :
    (server.traffic.counts t).arriving = 0 ∧ (server.traffic.counts t).waiting = 0 ∧
      (server.traffic.counts t).running = 0 ∧ (server.traffic.counts t).outbox = 0 := by
  have houtbox := h.outbox_eq_zero (hsound.balanced t)
  rw [Traffic.counts] at houtbox ⊢
  rw [h.entrants_eq_nil, h.waiting_eq_nil hmodels hconsistent hsound.faithful, h.running_eq_nil]
  exact ⟨rfl, rfl, rfl, houtbox⟩

/-- A quiescent server that did not give up has answered every submission: it is refused, or its
callback has run. -/
theorem answered (h : server.Quiescent) (hmodels : SameModels start server)
    (hconsistent : Consistent start.backends start.books.status)
    (hsound : Sound start server actions) (hphase : server.phase ≠ .abandoned) (t : Ticket) :
    (server.traffic.counts t).refused + (server.traffic.counts t).delivered =
      (entered actions).countP (·.1 = t) := by
  have hkept := ((hsound.balanced t).kept hphase).1
  obtain ⟨harriving, hwaiting, hrunning, houtbox⟩ :=
    @unfinished_eq_zero start server actions t h hmodels hconsistent hsound
  unfold Counts.total at hkept
  omega

end State.Quiescent

theorem State.quiescent_of_nil (hentrants : server.traffic.entrants = [])
    (hwaiting : server.traffic.waiting = []) (hrunning : server.traffic.running = [])
    (houtbox : server.traffic.outbox = []) (hleaving : server.traffic.leaving = []) :
    server.Quiescent := by
  intro action hprogress
  cases action with
  | check ticket => rw [act, Traffic.entrant?, hentrants, List.find?_nil, Option.map_none]
  | accept ticket => rw [act, Traffic.entrant?, hentrants, List.find?_nil, Option.map_none]
  | watch ticket => rw [act, Traffic.entrant?, hentrants, List.find?_nil, Option.map_none]
  | start model version =>
    rw [act, Option.bind_eq_none_iff]
    intro backend _
    rw [State.start, hwaiting, List.find?_nil, Option.map_none]
    split <;> rfl
  | work ticket => simp [act, hrunning]
  | resume ticket => simp [act, hrunning]
  | deliver ticket => simp [act, houtbox]
  | leave ticket => simp [act, hleaving]
  | _ => cases hprogress

theorem State.not_abandoned_of_run (hrun : start.run actions = some server)
    (hstart : start.phase ≠ .abandoned) (hgiveUp : .giveUp ∉ actions) :
    server.phase ≠ .abandoned := by
  have hall := @State.run_induction server start
    (fun actions server ↦ .giveUp ∉ actions → server.phase ≠ .abandoned) (fun _ ↦ hstart) ?_
    actions hrun
  · exact hall hgiveUp
  · intro actions server action next _ ih hact hgiveUp
    rw [List.mem_append, not_or, List.mem_singleton] at hgiveUp
    have hbefore := ih hgiveUp.1
    cases State.step_of_act hact with
    | giveUp hphase => exact absurd rfl hgiveUp.2
    | beginStop hphase => nofun
    | announce hphase => nofun
    | close hphase => nofun
    | observeIdle hphase hidle => nofun
    | _ => exact hbefore

/-- What a server owes the submissions of a run. -/
structure ExactlyOnce (start server : State) (actions : List Action) : Prop where
  /-- The callback of a refused submission has not run. -/
  refused : ∀ ticket status, (ticket, status) ∈ server.traffic.refused →
    (server.traffic.counts ticket).delivered = 0
  once : ∀ ticket, (server.traffic.counts ticket).delivered ≤ 1
  /-- An admitted submission is in one stage: its job waits, is executed or is completed, or its
  callback has run. -/
  stage : server.phase ≠ .abandoned →
    ∀ model version, ∀ ticket ∈ start.admissions model version actions,
      (server.traffic.counts ticket).refused = 0 ∧
        (server.traffic.counts ticket).waiting + (server.traffic.counts ticket).running +
          (server.traffic.counts ticket).outbox + (server.traffic.counts ticket).delivered = 1
  limits : Within server
  /-- Jobs start in the order of their admission. -/
  order : ∀ model version, Ordered (start.admissions model version actions)
    (start.starts model version actions) server.phase (server.traffic.queue model version)
  /-- No job is admitted twice, and none starts twice. -/
  nodup : ∀ model version, (start.admissions model version actions).Nodup ∧
    (start.starts model version actions).Nodup
  /-- When nothing can come on, every submission is refused or delivered, -/
  answered : server.phase ≠ .abandoned → server.Quiescent → ∀ submission ∈ entered actions,
    (server.traffic.counts submission.1).refused +
      (server.traffic.counts submission.1).delivered = 1
  /-- and every admitted one is delivered. -/
  delivered : server.phase ≠ .abandoned → server.Quiescent →
    ∀ model version, ∀ ticket ∈ start.admissions model version actions,
      (server.traffic.counts ticket).delivered = 1
  /-- What a callback was run with is the answer to its submission alone. -/
  answer : ∀ completion ∈ server.traffic.delivered, ∃ submission backend,
    (completion.ticket, submission) ∈ entered actions ∧
      start.resolve submission.model submission.selector = .ok backend ∧
      backend.answer submission = .ok (completion.status, completion.response)

/-- After every run that enters each submission under a ticket of its own, a submission that was
refused has not had its callback run, and one that was accepted has it run once and no more, with
what its backend answers to it alone. -/
theorem exactlyOnce_of_run {files : Files.Tree} {registry : Platform.Registry} {freshId : String}
    {options : Options} (hcreate : State.create files registry freshId options = .ok start)
    (hrun : start.run actions = some server) (hfresh : ((entered actions).map (·.1)).Nodup) :
    ExactlyOnce start server actions := by
  have hconsistent := State.consistent_of_create hcreate
  have hmodels := sameModels_of_run hrun
  have hsound := Sound.of_create hcreate hrun hfresh
  have htotal : ∀ t,
      (server.traffic.counts t).refused + (server.traffic.counts t).delivered ≤ 1 := by
    intro t
    have hle := countP_entered_le hfresh t
    have hcounts := (hsound.balanced t).total_le
    unfold Counts.total at hcounts
    omega
  have hanswered : server.phase ≠ .abandoned → server.Quiescent → ∀ t,
      (server.traffic.counts t).refused + (server.traffic.counts t).delivered =
        (entered actions).countP (·.1 = t) :=
    fun hphase hquiescent ↦ hquiescent.answered hmodels hconsistent hsound hphase
  refine ⟨fun ticket status hrefused ↦ ?_, fun ticket ↦ ?_, fun hphase model version ticket ↦ ?_,
    hsound.within, hsound.ordered, fun model version ↦ ?_,
    fun hphase hquiescent submission hsubmission ↦ ?_,
    fun hphase hquiescent model version ticket hadmitted ↦ ?_, fun completion hcompletion ↦ ?_⟩
  · have hpos : 0 < (server.traffic.counts ticket).refused :=
      List.countP_pos_iff.2 ⟨_, hrefused, decide_eq_true rfl⟩
    have hle := htotal ticket
    omega
  · exact Nat.le_trans (Nat.le_add_left _ _) (htotal ticket)
  · exact hsound.stage_of_admitted hfresh hphase
  · have hnodup := hsound.admissions_nodup hfresh model version
    exact ⟨hnodup, hnodup.sublist (hsound.ordered model version).started.sublist⟩
  · have hpos : 0 < (entered actions).countP (·.1 = submission.1) :=
      List.countP_pos_iff.2 ⟨submission, hsubmission, decide_eq_true rfl⟩
    have hle := countP_entered_le hfresh submission.1
    rw [hanswered hphase hquiescent]
    omega
  · obtain ⟨hnot, hstage⟩ := hsound.stage_of_admitted hfresh hphase hadmitted
    have houtbox := hquiescent.outbox_eq_zero (hsound.balanced ticket)
    have hanswer := hanswered hphase hquiescent ticket
    have hentered : (entered actions).countP (·.1 = ticket) = 1 := by
      have hle := countP_entered_le hfresh ticket
      have hkept := ((hsound.balanced ticket).kept hphase).1
      unfold Counts.total at hkept
      omega
    omega
  · exact hsound.faithful.completed completion (.inr hcompletion)

/-- A check of one run of a created server that comes out true has run it. -/
theorem State.exists_run_of_any {files : Files.Tree} {registry : Platform.Registry}
    {freshId : String} {options : Options} {check : State → State → Bool}
    (h : ((create files registry freshId options).toOption.any fun start ↦
      (start.run actions).any (check start)) = true) :
    ∃ start server, create files registry freshId options = .ok start ∧
      start.run actions = some server ∧ check start server = true := by
  obtain ⟨start, hcreate, hrest⟩ := Outcome.any_toOption_iff.1 h
  obtain ⟨server, hserver, hcheck⟩ := (Option.any_eq_true _ _).1 hrest
  exact ⟨start, server, hcreate, hserver, hcheck⟩

/-- One submission from its entry until its caller has left. -/
def echoRun : List Action :=
  [.enter 0 echoByte, .check 0, .accept 0, .watch 0, .start "echo" 3, .work 0, .deliver 0, .leave 0]

theorem exactlyOnce_of_run_echoRun :
    ∃ start server, State.create shelf .standard "shelf" { repository := "/models" } = .ok start ∧
      start.run echoRun = some server ∧ server.Quiescent ∧
      (server.traffic.counts 0).delivered = 1 := by
  have hchecked : ((State.create shelf .standard "shelf"
      { repository := "/models" }).toOption.any fun start ↦
        (start.run echoRun).any fun server ↦
          server.traffic.entrants.isEmpty && server.traffic.waiting.isEmpty &&
            server.traffic.running.isEmpty && server.traffic.outbox.isEmpty &&
            server.traffic.leaving.isEmpty && (start.admissions "echo" 3 echoRun).contains 0) =
              true := by
    decide +kernel
  obtain ⟨start, server, hstart, hserver, hcheck⟩ := State.exists_run_of_any hchecked
  simp only [Bool.and_eq_true, List.isEmpty_iff, List.contains_iff_mem] at hcheck
  obtain ⟨⟨⟨⟨⟨hentrants, hwaiting⟩, hrunning⟩, houtbox⟩, hleaving⟩, hadmitted⟩ := hcheck
  have hserving := (State.traffic_of_create hstart).2
  have hphase := State.not_abandoned_of_run hserver (by rw [hserving]; decide) (by simp [echoRun])
  have hquiescent := State.quiescent_of_nil hentrants hwaiting hrunning houtbox hleaving
  have hall := exactlyOnce_of_run hstart hserver (by decide)
  exact ⟨start, server, hstart, hserver, hquiescent,
    hall.delivered hphase hquiescent "echo" 3 0 hadmitted⟩

end TensorInference.Server
