import TensorInference.Proofs.Server.Calls
import TensorInference.Proofs.Server.Readiness

/-!
# Accounting

After every run the books are a ledger with one conclusion for each call that was closed, and every
call that reached a version is in the ledger or still open. So the counts of successes and failures
of a version, with its jobs that wait or are executed, make up its calls. The metrics are kept by
fingerprints: counters show the calls of all versions whose labels have their fingerprint, which
are the calls of one version only as long as no other loaded version has the same.
-/

namespace TensorInference.Server

open Model Inference Wire
open scoped List

variable {start server next : State} {action : Action} {actions : List Action} {metered : Bool}
  {ledger : List Conclusion} {t : Ticket}

/-- What a ledger says of a run. -/
structure Accounts (start server : State) (actions : List Action) (metered : Bool)
    (ledger : List Conclusion) : Prop where
  books : server.books = ledger.foldl Books.conclude start.books
  /-- A call is closed or open. -/
  calls : (start.calls actions).Perm
    (ledger.map (·.call) ++ server.traffic.unfinished.map (·.call))
  followed : ∀ job ∈ server.traffic.unfinished, job.timer.Follows metered job.call
  closed : ∀ entry ∈ ledger, entry.timer.Follows metered entry.call
  successes : start.successes actions = (ended ledger true).map (·.ticket)
  completed : ∀ completion,
    completion ∈ server.traffic.outbox ∨ completion ∈ server.traffic.delivered →
      ∃ entry ∈ ledger, entry.call.ticket = completion.ticket ∧
        entry.success = completion.status.isOk
  /-- A submission opens one call at most, and none before it is on its way in. -/
  called : ∀ t, (start.calls actions).countP (·.ticket = t) + (server.traffic.counts t).arriving ≤
    (entered actions).countP (·.1 = t)
  refused : ∀ entry ∈ ledger, entry.success = true →
    (server.traffic.counts entry.call.ticket).refused = 0
  opened : ∀ call ∈ start.calls actions, ∃ submission,
    (call.ticket, submission) ∈ entered actions ∧ start.Opens submission call

theorem ended_append (first second : List Conclusion) (success : Bool) :
    ended (first ++ second) success = ended first success ++ ended second success := by
  rw [ended, List.filter_append, List.map_append, ended, ended]

theorem State.books_of_unresolved {ticket : Ticket}
    (hact : server.act (.accept ticket) = some next)
    (hnone : server.resolved (.accept ticket) = []) : next.books = server.books := by
  obtain ⟨entrant, hentrant, rfl⟩ := Option.map_eq_some_iff.1 hact
  rw [resolved, hentrant] at hnone
  dsimp only at hnone
  cases hresolve : server.resolve entrant.submission.model entrant.submission.selector with
  | error status =>
    rw [accept_of_resolve_error hresolve]
    rfl
  | ok backend =>
    rw [hresolve] at hnone
    cases hnone

/-- A call is for a version that is loaded. -/
theorem State.Opens.exists_version? (hconsistent : Consistent start.backends start.books.status)
    {submission : Submission} {call : RoutedCall} (h : start.Opens submission call) :
    ∃ backend, start.backends.version? call.model call.version = some backend := by
  obtain ⟨backend, hresolve, hmodel, hversion, -⟩ := h
  obtain ⟨version, hbackend, -⟩ := exists_version?_of_resolve hresolve
  obtain ⟨-, rfl, -⟩ := hconsistent.served hbackend
  rw [hmodel, hversion]
  exact ⟨backend, hbackend⟩

namespace Accounts

theorem nil (htraffic : start.traffic = {}) : Accounts start start [] metered [] := by
  refine ⟨rfl, ?_, ?_, nofun, rfl, ?_, fun t ↦ ?_, nofun, nofun⟩
  · rw [htraffic]
    exact .refl _
  · rw [htraffic]
    exact nofun
  · rw [htraffic]
    simp
  · rw [htraffic]
    exact Nat.le_refl _

section

variable (h : Accounts start server actions metered ledger)
  (hact : server.act action = some next) (hsound : Sound start server actions)

include h hact hsound

/-- A submission with a call that has succeeded, or whose job is executed, is not refused. -/
theorem refused_next (hfresh : ((entered (actions ++ [action])).map (·.1)).Nodup)
    {entry : Conclusion} (hsuccess : entry.success = true)
    (hentry : entry ∈ ledger ∨ 0 < (server.traffic.counts entry.call.ticket).running) :
    (next.traffic.counts entry.call.ticket).refused = 0 := by
  have hentered := countP_arrivals_le hfresh entry.call.ticket
  have hrefused := ((State.step_of_act hact).arriving_le (hsound.balanced entry.call.ticket)
    hentered).2
  rcases hentry with hentry | hrunning
  · have hzero := h.refused entry hentry hsuccess
    have hcalled := h.called entry.call.ticket
    have hpos : 0 < (start.calls actions).countP (·.ticket = entry.call.ticket) := by
      refine List.countP_pos_iff.2 ⟨entry.call, ?_, decide_eq_true rfl⟩
      exact h.calls.mem_iff.2 (List.mem_append_left _ (List.mem_map_of_mem hentry))
    omega
  · have htotal := (hsound.balanced entry.call.ticket).total_le
    unfold Counts.total at htotal
    omega

variable (hrun : start.run actions = some server)

include hrun

/-- A further call is for a submission that was on its way in. -/
theorem opened_next {call : RoutedCall} (hcall : call ∈ start.calls (actions ++ [action])) :
    ∃ submission, (call.ticket, submission) ∈ entered (actions ++ [action]) ∧
      start.Opens submission call := by
  rw [State.calls_append_singleton hrun hact] at hcall
  rw [entered_append_singleton]
  rcases List.mem_append.1 hcall with hcall | hcall
  · obtain ⟨submission, hentered, hopens⟩ := h.opened call hcall
    exact ⟨submission, List.mem_append_left _ hentered, hopens⟩
  · obtain ⟨-, entrant, hentrant, hticket, backend, hresolve, hcall⟩ :=
      State.opens_of_resolved hcall
    rw [(sameModels_of_run hrun).resolve] at hresolve
    refine ⟨entrant.submission, List.mem_append_left _ ?_, backend, hresolve, hcall⟩
    exact hticket ▸ hsound.faithful.entrants entrant hentrant

variable (hfresh : ((entered (actions ++ [action])).map (·.1)).Nodup)

include hfresh

theorem called_next (t : Ticket) : (start.calls (actions ++ [action])).countP (·.ticket = t) +
    (next.traffic.counts t).arriving ≤ (entered (actions ++ [action])).countP (·.1 = t) := by
  have hcalled := h.called t
  have harriving := ((State.step_of_act hact).arriving_le (hsound.balanced t)
    (countP_arrivals_le hfresh t)).1
  rw [State.calls_append_singleton hrun hact, entered_append_singleton, List.countP_append,
    List.countP_append]
  omega

theorem act (hconsistent : Consistent start.backends start.books.status)
    (hmetered : ∀ model version backend,
      start.backends.version? model version = some backend → backend.metered = metered) :
    ∃ closed, Accounts start next (actions ++ [action]) metered (ledger ++ closed) := by
  have hmodels := sameModels_of_run hrun
  have hbalanced : ∀ t, ∃ n ≤ 1, Counts.Balanced server.phase n (server.traffic.counts t) :=
    fun t ↦ ⟨_, Nat.le_trans (Nat.le_add_right _ _) (countP_arrivals_le hfresh t),
      hsound.balanced t⟩
  obtain ⟨closed, heffect⟩ := Effect.exists_of_act h.followed hact (hmodels.consistent hconsistent)
    (by rw [hmodels.backends]; exact hmetered) hbalanced
  refine ⟨closed, ?_, ?_, heffect.followed, ?_, ?_, fun completion hcompletion ↦ ?_,
    h.called_next hact hsound hrun hfresh, fun entry hentry hsuccess ↦ ?_,
    fun call ↦ h.opened_next hact hsound hrun⟩
  · rw [List.foldl_append, ← h.books, heffect.books]
  · rw [State.calls_append_singleton hrun hact, List.map_append, List.append_assoc]
    calc start.calls actions ++ server.resolved action
      _ ~ (ledger.map (·.call) ++ server.traffic.unfinished.map (·.call)) ++
          server.resolved action := h.calls.append_right _
      _ = ledger.map (·.call) ++ (server.traffic.unfinished.map (·.call) ++
          server.resolved action) := List.append_assoc _ _ _
      _ ~ ledger.map (·.call) ++ (closed.map (·.call) ++
          next.traffic.unfinished.map (·.call)) :=
        (List.perm_append_comm.trans heffect.balance).append_left _
  · intro entry hentry
    rcases List.mem_append.1 hentry with hentry | hentry
    · exact h.closed entry hentry
    · exact heffect.ended entry hentry
  · rw [State.successes, State.log_append_singleton hrun hact, ended_append, List.map_append,
      ← heffect.succeeded, ← h.successes]
    rfl
  · rcases heffect.completed completion hcompletion with hbefore | ⟨entry, hentry, hsame⟩
    · obtain ⟨entry, hentry, hsame⟩ := h.completed completion hbefore
      exact ⟨entry, List.mem_append_left _ hentry, hsame⟩
    · exact ⟨entry, List.mem_append_right _ hentry, hsame⟩
  · refine h.refused_next hact hsound hfresh hsuccess ?_
    exact (List.mem_append.1 hentry).imp id fun hentry ↦ heffect.worked entry hentry hsuccess

end

/-- Every run has a ledger. -/
theorem exists_of_run (htraffic : start.traffic = {}) (hphase : start.phase = .serving)
    (hconsistent : Consistent start.backends start.books.status)
    (hmetered : ∀ model version backend,
      start.backends.version? model version = some backend → backend.metered = metered)
    (hrun : start.run actions = some server) (hfresh : ((entered actions).map (·.1)).Nodup) :
    ∃ ledger, Accounts start server actions metered ledger := by
  have hall := @State.run_induction server start
    (fun actions server ↦ ((entered actions).map (·.1)).Nodup →
      ∃ ledger, Accounts start server actions metered ledger) (fun _ ↦ ⟨[], nil htraffic⟩) ?_
    actions hrun
  · exact hall hfresh
  · intro actions server action next hrun ih hact hfresh
    have hbefore := nodup_entered_of_append_singleton hfresh
    obtain ⟨ledger, hledger⟩ := ih hbefore
    obtain ⟨closed, hclosed⟩ := hledger.act hact
      (Sound.of_run htraffic hphase hconsistent hrun hbefore) hrun hfresh hconsistent hmetered
    exact ⟨_, hclosed⟩

/-- No action of a submission that has opened no call changes the books. -/
theorem books_eq (h : Accounts start server actions metered ledger)
    (hrun : start.run actions = some server) (hact : server.act action = some next)
    (hticket : action.ticket? = some t)
    (hnone : t ∉ (start.calls (actions ++ [action])).map (·.ticket)) :
    next.books = server.books := by
  rw [State.calls_append_singleton hrun hact, List.map_append, List.mem_append, not_or] at hnone
  obtain ⟨hbefore, hopened⟩ := hnone
  cases action with
  | accept ticket =>
    obtain rfl := Option.some.inj hticket
    refine State.books_of_unresolved hact (List.eq_nil_iff_forall_not_mem.2 fun call hcall ↦ ?_)
    obtain ⟨haccept, -⟩ := State.opens_of_resolved hcall
    exact hopened (List.mem_map.2 ⟨call, hcall, (Action.accept.inj haccept).symm⟩)
  | work ticket =>
    obtain rfl := Option.some.inj hticket
    cases State.step_of_act hact with
    | pause _ _ => rfl
    | @conclude _ execution _ _ _ hexecution _ _ =>
      -- The job that is concluded is open, so its call is among the calls.
      refine absurd (List.mem_map.2 ⟨execution.job.call, ?_, ?_⟩) hbefore
      · refine h.calls.mem_iff.2 (List.mem_append_right _ (List.mem_map_of_mem ?_))
        exact List.mem_append_left _ (List.mem_map_of_mem (List.mem_of_find?_eq_some hexecution))
      · exact (Traffic.running_pos hexecution).1
  | giveUp => cases hticket
  | _ =>
    cases State.step_of_act hact with
    | _ => rfl

end Accounts

/-! ## What became of the calls -/

/-- What became of the call of a ticket: whether it succeeded, if it is not open. -/
def State.outcome? (start server : State) (actions : List Action) (t : Ticket) : Option Bool :=
  if t ∈ start.successes actions then some true
  else if server.traffic.unfinished.any (·.ticket = t) then none
  else some false

/-- The calls of a run that succeeded, or those that failed. -/
def State.concluded (start server : State) (actions : List Action) (success : Bool) :
    List RoutedCall :=
  (start.calls actions).filter fun call ↦
    start.outcome? server actions call.ticket = some success

/-- The calls to a version that succeeded, or those that failed. -/
def State.concludedFor (start server : State) (actions : List Action) (success : Bool)
    (model : String) (version : UInt64) : List RoutedCall :=
  (start.concluded server actions success).filter (·.isFor model version)

/-- The calls that succeeded or failed and are counted under a fingerprint. -/
def State.concludedUnder (start server : State) (actions : List Action) (success : Bool)
    (fingerprint : UInt64) : List RoutedCall :=
  (start.concluded server actions success).filter (·.label.fingerprint = fingerprint)

/-- The calls to a version that are open. -/
def State.openFor (server : State) (model : String) (version : UInt64) : Nat :=
  server.traffic.waitingFor model version + server.traffic.busyFor model version

theorem ended_filter (p : RoutedCall → Bool) (success : Bool) :
    ended (ledger.filter fun entry ↦ p entry.call) success = (ended ledger success).filter p := by
  rw [ended, ended, List.filter_map, List.filter_filter, List.filter_filter]
  refine congrArg _ (List.filter_congr fun entry _ ↦ ?_)
  rw [Bool.and_comm]
  rfl

theorem ended_perm (ledger : List Conclusion) :
    (ended ledger true ++ ended ledger false).Perm (ledger.map (·.call)) := by
  rw [ended, ended, ← List.map_append]
  refine List.Perm.map _ ?_
  have hperm := List.filter_append_perm (·.success = true) ledger
  refine (List.Perm.append_left _ (.of_eq (List.filter_congr fun entry _ ↦ ?_))).trans hperm
  cases entry.success <;> rfl

namespace Accounts

section

variable (h : Accounts start server actions metered ledger)
  (hfresh : ((entered actions).map (·.1)).Nodup)

include h hfresh

theorem nodup : ((start.calls actions).map (·.ticket)).Nodup := by
  rw [List.nodup_iff_count_le_one]
  intro t
  have hle := countP_entered_le hfresh t
  have hcalled := h.called t
  have hcount : ((start.calls actions).map (·.ticket)).count t =
      (start.calls actions).countP (·.ticket = t) := by
    rw [List.count, List.countP_map]
    refine List.countP_congr fun call _ ↦ ?_
    simp
  omega

theorem nodup_tickets : (ledger.map (·.call.ticket) ++
    server.traffic.unfinished.map (·.ticket)).Nodup := by
  have hperm := h.calls.map (·.ticket)
  rw [List.map_append, List.map_map, List.map_map] at hperm
  exact hperm.nodup_iff.1 (h.nodup hfresh)

/-- A call that is closed has the outcome of its conclusion. -/
theorem outcome?_closed {entry : Conclusion} (hentry : entry ∈ ledger) :
    start.outcome? server actions entry.call.ticket = some entry.success := by
  obtain ⟨hledger, -, hdisjoint⟩ := List.nodup_append.1 (h.nodup_tickets hfresh)
  have hclosed : server.traffic.unfinished.any (·.ticket = entry.call.ticket) = false := by
    rw [List.any_eq_false]
    intro job hjob hsame
    exact hdisjoint _ (List.mem_map_of_mem hentry) _ (List.mem_map_of_mem hjob)
      (of_decide_eq_true hsame).symm
  have hsuccess : entry.call.ticket ∈ start.successes actions ↔ entry.success = true := by
    rw [h.successes, ended, List.map_map]
    constructor
    · intro hmem
      obtain ⟨other, hother, hsame⟩ := List.mem_map.1 hmem
      obtain ⟨hother, htrue⟩ := List.mem_filter.1 hother
      obtain rfl := List.inj_on_of_nodup_map hledger hother hentry hsame
      exact of_decide_eq_true htrue
    · intro htrue
      exact List.mem_map.2 ⟨entry, List.mem_filter.2 ⟨hentry, decide_eq_true htrue⟩, rfl⟩
  rw [State.outcome?, hclosed]
  cases hentry : entry.success with
  | true => rw [if_pos (hsuccess.2 hentry)]
  | false =>
    rw [if_neg (by rw [hsuccess, hentry]; exact Bool.false_ne_true)]
    rfl

theorem outcome?_open {job : Job} (hjob : job ∈ server.traffic.unfinished) :
    start.outcome? server actions job.ticket = none := by
  obtain ⟨-, -, hdisjoint⟩ := List.nodup_append.1 (h.nodup_tickets hfresh)
  have hnot : job.ticket ∉ start.successes actions := by
    rw [h.successes, ended, List.map_map]
    intro hmem
    obtain ⟨entry, hentry, hsame⟩ := List.mem_map.1 hmem
    exact hdisjoint _ (List.mem_map_of_mem (List.mem_of_mem_filter hentry)) _
      (List.mem_map_of_mem hjob) hsame
  rw [State.outcome?, if_neg hnot, if_pos]
  exact List.any_eq_true.2 ⟨job, hjob, decide_eq_true rfl⟩

/-- The calls that succeeded or failed are those that the ledger closed so. -/
theorem concluded_perm (success : Bool) :
    (start.concluded server actions success).Perm (ended ledger success) := by
  have hledger : (ledger.map (·.call)).filter (fun call ↦
      start.outcome? server actions call.ticket = some success) = ended ledger success := by
    rw [List.filter_map, ended]
    refine congrArg _ (List.filter_congr fun entry hentry ↦ ?_)
    rw [Function.comp_apply, h.outcome?_closed hfresh hentry]
    simp
  have hopen : (server.traffic.unfinished.map (·.call)).filter (fun call ↦
      start.outcome? server actions call.ticket = some success) = [] := by
    rw [List.filter_eq_nil_iff]
    intro call hcall
    obtain ⟨job, hjob, rfl⟩ := List.mem_map.1 hcall
    have hnone : start.outcome? server actions job.call.ticket = none :=
      h.outcome?_open hfresh hjob
    rw [hnone]
    simp
  have hperm := h.calls.filter fun call ↦
    decide (start.outcome? server actions call.ticket = some success)
  rw [List.filter_append, hledger, hopen, List.append_nil] at hperm
  exact hperm

/-- The calls to a version have succeeded, have failed or are open. -/
theorem conserved (model : String) (version : UInt64) :
    (start.concludedFor server actions true model version).length +
        (start.concludedFor server actions false model version).length +
      server.openFor model version = (start.calls actions).countP (·.isFor model version) := by
  have hclosed := (ended_perm ledger).countP_eq (·.isFor model version)
  have hsucceeded := (h.concluded_perm hfresh true).countP_eq (·.isFor model version)
  have hfailed := (h.concluded_perm hfresh false).countP_eq (·.isFor model version)
  have hopen : (server.traffic.unfinished.map (·.call)).countP (·.isFor model version) =
      server.traffic.busyFor model version + server.traffic.waitingFor model version := by
    rw [List.countP_map, Traffic.unfinished, List.countP_append, List.countP_map]
    rfl
  rw [h.calls.countP_eq, List.countP_append, hopen, ← hclosed, List.countP_append, State.openFor,
    State.concludedFor, State.concludedFor, ← List.countP_eq_length_filter,
    ← List.countP_eq_length_filter, hsucceeded, hfailed]
  omega

/-- What a version is said to count are its calls. -/
theorem ended_perm_concludedFor (success : Bool) (model : String) (version : UInt64) :
    (ended (ledger.filter (·.call.isFor model version)) success).Perm
      (start.concludedFor server actions success model version) := by
  rw [ended_filter (·.isFor model version), State.concludedFor]
  exact ((h.concluded_perm hfresh success).filter _).symm

theorem ended_perm_concludedUnder (success : Bool) (fingerprint : UInt64) :
    (ended (ledger.filter (·.call.label.fingerprint = fingerprint)) success).Perm
      (start.concludedUnder server actions success fingerprint) := by
  rw [ended_filter fun call ↦ decide (call.label.fingerprint = fingerprint), State.concludedUnder]
  exact ((h.concluded_perm hfresh success).filter _).symm

/-- A status that began without statistics tells of the calls to its version. -/
theorem tells {model : String} {version : UInt64} {status : VersionStatus}
    (hinitial : ∀ initial, start.books.status.version? model version = some initial →
      Tells [] [] initial)
    (hstatus : server.books.status.version? model version = some status) :
    Tells (start.concludedFor server actions true model version)
      (start.concludedFor server actions false model version) status := by
  rw [h.books, version?_ledger fun entry hentry ↦ (h.closed entry hentry).awaits] at hstatus
  obtain ⟨initial, hbefore, rfl⟩ := Option.map_eq_some_iff.1 hstatus
  exact ((hinitial initial hbefore).foldl _).perm
    (h.ended_perm_concludedFor hfresh true model version)
    (h.ended_perm_concludedFor hfresh false model version)

/-- Counters that began at zero show the calls under their fingerprint. -/
theorem shows (hmetered : metered = true) {label : Label}
    (hzero : start.books.metrics.countersAt label.fingerprint = {})
    (hexposed : (start.books.metrics.counters? label).isSome) :
    ∃ counters, server.books.metrics.counters? label = some counters ∧
      Shows (start.concludedUnder server actions true label.fingerprint)
        (start.concludedUnder server actions false label.fingerprint) counters := by
  have hawaits : ∀ entry ∈ ledger, entry.timer.Awaits entry.call :=
    fun entry hentry ↦ (h.closed entry hentry).awaits
  have hcounted : ledger.filter (·.isCountedUnder label.fingerprint) =
      ledger.filter (·.call.label.fingerprint = label.fingerprint) :=
    List.filter_congr fun entry hentry ↦ (hmetered ▸ h.closed entry hentry).isCountedUnder
  have hsome := isSome_counters?_ledger hawaits hexposed
  rw [← h.books] at hsome
  refine ⟨_, Metrics.counters?_eq hsome, ?_⟩
  rw [h.books, countersAt_ledger hawaits, hcounted, hzero]
  exact (shows_foldl _).perm (h.ended_perm_concludedUnder hfresh true _)
    (h.ended_perm_concludedUnder hfresh false _)

/-- A completion carries the outcome of its call. -/
theorem outcome?_completed {completion : Completion}
    (hcompletion : completion ∈ server.traffic.outbox ∨ completion ∈ server.traffic.delivered) :
    ∃ call ∈ start.calls actions, call.ticket = completion.ticket ∧
      start.outcome? server actions call.ticket = some completion.status.isOk := by
  obtain ⟨entry, hentry, hticket, hsuccess⟩ := h.completed completion hcompletion
  refine ⟨entry.call, ?_, hticket, ?_⟩
  · exact h.calls.mem_iff.2 (List.mem_append_left _ (List.mem_map_of_mem hentry))
  · rw [h.outcome?_closed hfresh hentry, hsuccess]

/-- A call that was refused has failed. -/
theorem outcome?_refused (hsound : Sound start server actions) {call : RoutedCall}
    (hcall : call ∈ start.calls actions)
    (hrefused : 0 < (server.traffic.counts call.ticket).refused) :
    start.outcome? server actions call.ticket = some false := by
  rcases List.mem_append.1 (h.calls.mem_iff.1 hcall) with hclosed | hopen
  · obtain ⟨entry, hentry, rfl⟩ := List.mem_map.1 hclosed
    rw [h.outcome?_closed hfresh hentry]
    cases hsuccess : entry.success with
    | false => rfl
    | true =>
      rw [h.refused entry hentry hsuccess] at hrefused
      exact absurd hrefused (Nat.lt_irrefl 0)
  · -- A refused submission is on no other stage, so it has no job.
    obtain ⟨job, hjob, rfl⟩ := List.mem_map.1 hopen
    have htotal := (hsound.balanced job.ticket).total_le
    have hle := countP_entered_le hfresh job.ticket
    have hrefused : 0 < (server.traffic.counts job.ticket).refused := hrefused
    have hpos : 0 < (server.traffic.counts job.ticket).waiting +
        (server.traffic.counts job.ticket).running := by
      rcases List.mem_append.1 hjob with hjob | hjob
      · obtain ⟨execution, hexecution, rfl⟩ := List.mem_map.1 hjob
        exact Nat.add_pos_right _
          (List.countP_pos_iff.2 ⟨execution, hexecution, decide_eq_true rfl⟩)
      · exact Nat.add_pos_left (Traffic.waiting_pos hjob) _
    unfold Counts.total at htotal
    omega

end

end Accounts

section

variable {files : Files.Tree} {registry : Platform.Registry} {freshId : String} {options : Options}
  {model : String} {version : UInt64}

theorem State.tells_of_create (h : create files registry freshId options = .ok start)
    {status : VersionStatus}
    (hstatus : start.books.status.version? model version = some status) : Tells [] [] status := by
  obtain ⟨models, -, htabulates⟩ := tabulates_of_create h
  have hinitial := htabulates.status model version
  rw [hstatus] at hinitial
  obtain ⟨outcome, -, rfl⟩ := Option.map_eq_some_iff.1 hinitial.symm
  exact .nil rfl rfl rfl

theorem State.metered_of_create (h : create files registry freshId options = .ok start)
    {backend : Backend} (hbackend : start.backends.version? model version = some backend) :
    backend.metered = options.metrics := by
  obtain ⟨models, hmodels, htabulates⟩ := tabulates_of_create h
  obtain ⟨-, -, definition, -, -, -, hload⟩ :=
    htabulates.reflects.exists_definition (Repository.scan_eq_ok hmodels).1 hbackend
  exact (Backend.load_eq_ok hload).2.2.2

/-! ## What the two books say -/

/-- Whether no other version that is loaded has the fingerprint of this one. -/
def State.Unshared (server : State) (model : String) (version : UInt64) : Prop :=
  ∀ other number backend, server.backends.version? other number = some backend →
    Label.fingerprint ⟨other, number⟩ = Label.fingerprint ⟨model, version⟩ →
      other = model ∧ number = version

/-- What the counters of a status add up to. -/
structure Balances (server : State) (calls : List RoutedCall) (model : String) (version : UInt64)
    (status : VersionStatus) : Prop where
  calls : total status (·.success.count) + total status (·.failed.count) +
    server.openFor model version = calls.countP (·.isFor model version)
  executions : status.executions.toNat = total status (·.success.count)
  inferences : status.inferences.toNat = totalItems status

theorem Tells.balances {succeeded failed calls : List RoutedCall} {status : VersionStatus}
    (h : Tells succeeded failed status) (hfits : Fits succeeded failed)
    (hconserved : succeeded.length + failed.length + server.openFor model version =
      calls.countP (·.isFor model version)) : Balances server calls model version status where
  calls := by rw [h.total_successes hfits, h.total_failures hfits, hconserved]
  executions := by
    rw [h.executions, h.total_successes hfits, UInt64.toNat_ofNat_of_lt' hfits.successes]
  inferences := by
    rw [h.inferences, h.totalItems_eq hfits, UInt64.toNat_ofNat_of_lt' hfits.items]

/-- Counters that show the totals of a status. -/
structure Agrees (status : VersionStatus) (counters : Counters) : Prop where
  success : counters.success.toNat = total status (·.success.count)
  failure : counters.failure.toNat = total status (·.failed.count)
  executions : counters.executions = status.executions
  inferences : counters.inferences = status.inferences

theorem Shows.agrees {succeeded failed : List RoutedCall} {status : VersionStatus}
    {counters : Counters} (h : Shows succeeded failed counters)
    (htells : Tells succeeded failed status) (hfits : Fits succeeded failed)
    (hfailed : failed.length < UInt64.size) : Agrees status counters where
  success := by
    rw [h.success, htells.total_successes hfits, UInt64.toNat_ofNat_of_lt' hfits.successes]
  failure := by
    rw [h.failure, htells.total_failures hfits, UInt64.toNat_ofNat_of_lt' hfailed]
  executions := by rw [h.executions, htells.executions]
  inferences := by rw [h.inferences, htells.inferences]

/-- How the books account for the calls of a run. -/
structure Accounting (start server : State) (actions : List Action) : Prop where
  /-- A call is a submission that resolves to a version, and no submission is two calls. -/
  opened : ∀ call ∈ start.calls actions, ∃ submission,
    (call.ticket, submission) ∈ entered actions ∧ start.Opens submission call
  distinct : ((start.calls actions).map (·.ticket)).Nodup
  /-- The calls to a version have succeeded, have failed or are open. -/
  conserved : ∀ model version,
    (start.concludedFor server actions true model version).length +
        (start.concludedFor server actions false model version).length +
      server.openFor model version = (start.calls actions).countP (·.isFor model version)
  /-- A call has an outcome before its completion is delivered, and it is the one delivered. -/
  completed : ∀ completion,
    completion ∈ server.traffic.outbox ∨ completion ∈ server.traffic.delivered →
      ∃ call ∈ start.calls actions, call.ticket = completion.ticket ∧
        start.outcome? server actions call.ticket = some completion.status.isOk
  /-- A call that is refused after all has failed. -/
  refused : ∀ call ∈ start.calls actions, 0 < (server.traffic.counts call.ticket).refused →
    start.outcome? server actions call.ticket = some false
  /-- No action of a submission that has opened no call changes the books. -/
  uncalled : ∀ t action next, action.ticket? = some t → server.act action = some next →
    t ∉ (start.calls (actions ++ [action])).map (·.ticket) → next.books = server.books
  /-- Every version that is loaded has a status, -/
  listed : ∀ model version backend, server.backends.version? model version = some backend →
    ∃ status, server.books.status.version? model version = some status
  /-- which tells of the calls to this version that have an outcome -/
  told : ∀ model version status, server.books.status.version? model version = some status →
    Tells (start.concludedFor server actions true model version)
      (start.concludedFor server actions false model version) status
  /-- and balances, as long as no counter overflows. -/
  balanced : ∀ model version status,
    server.books.status.version? model version = some status →
      Fits (start.concludedFor server actions true model version)
        (start.concludedFor server actions false model version) →
      Balances server (start.calls actions) model version status
  /-- The counters of a version show the calls to all versions with its fingerprint. -/
  shown : start.options.metrics = true → ∀ model version backend,
    server.backends.version? model version = some backend →
      ∃ counters, server.books.metrics.counters? ⟨model, version⟩ = some counters ∧
        Shows (start.concludedUnder server actions true (Label.fingerprint ⟨model, version⟩))
          (start.concludedUnder server actions false (Label.fingerprint ⟨model, version⟩)) counters
  /-- So the two books agree on a version that does not share its fingerprint. -/
  agree : start.options.metrics = true → ∀ model version backend,
    server.backends.version? model version = some backend → server.Unshared model version →
      Fits (start.concludedFor server actions true model version)
        (start.concludedFor server actions false model version) →
      (start.concludedFor server actions false model version).length < UInt64.size →
      ∃ status counters, server.books.status.version? model version = some status ∧
        server.books.metrics.counters? ⟨model, version⟩ = some counters ∧ Agrees status counters

/-- The calls under the fingerprint of a version that does not share it are the calls to it. -/
theorem State.concludedUnder_of_unshared (hmodels : SameModels start server)
    (hloaded : ∀ call ∈ start.calls actions,
      ∃ backend, start.backends.version? call.model call.version = some backend)
    (hunshared : server.Unshared model version) (success : Bool) :
    start.concludedUnder server actions success (Label.fingerprint ⟨model, version⟩) =
      start.concludedFor server actions success model version := by
  refine List.filter_congr fun call hcall ↦ ?_
  obtain ⟨backend, hbackend⟩ := hloaded call (List.mem_of_mem_filter hcall)
  rw [← hmodels.backends] at hbackend
  rw [Bool.eq_iff_iff, decide_eq_true_eq, RoutedCall.isFor_iff]
  constructor
  · exact hunshared call.model call.version backend hbackend
  · rintro ⟨rfl, rfl⟩
    rfl

/-- After every run of a created server its books account for all calls. -/
theorem accounting_of_run (hcreate : State.create files registry freshId options = .ok start)
    (hrun : start.run actions = some server) (hfresh : ((entered actions).map (·.1)).Nodup) :
    Accounting start server actions := by
  obtain ⟨htraffic, hphase⟩ := State.traffic_of_create hcreate
  have hconsistent := State.consistent_of_create hcreate
  have hsound := Sound.of_create hcreate hrun hfresh
  have hmodels := sameModels_of_run hrun
  obtain ⟨ledger, hledger⟩ := Accounts.exists_of_run htraffic hphase hconsistent
    (fun _ _ _ ↦ State.metered_of_create hcreate) hrun hfresh
  have hoptions := State.options_of_create hcreate
  have hloaded : ∀ call ∈ start.calls actions,
      ∃ backend, start.backends.version? call.model call.version = some backend := by
    intro call hcall
    obtain ⟨submission, -, hopens⟩ := hledger.opened call hcall
    exact hopens.exists_version? hconsistent
  have hlisted : ∀ model version backend,
      server.backends.version? model version = some backend →
        ∃ status, server.books.status.version? model version = some status := by
    intro model version backend hbackend
    obtain ⟨models, -, hreflects⟩ := reflects_of_run hcreate hrun
    obtain ⟨status, hstatus, -⟩ :=
      Option.map_eq_some_iff.1 (hreflects.state?_eq_ready_iff.2 ⟨backend, hbackend⟩)
    exact ⟨status, hstatus⟩
  have htold : ∀ model version status,
      server.books.status.version? model version = some status →
        Tells (start.concludedFor server actions true model version)
          (start.concludedFor server actions false model version) status :=
    fun model version status ↦ hledger.tells hfresh fun initial ↦ State.tells_of_create hcreate
  have hshown : start.options.metrics = true → ∀ model version backend,
      server.backends.version? model version = some backend →
        ∃ counters, server.books.metrics.counters? ⟨model, version⟩ = some counters ∧
          Shows (start.concludedUnder server actions true (Label.fingerprint ⟨model, version⟩))
            (start.concludedUnder server actions false (Label.fingerprint ⟨model, version⟩))
            counters := by
    intro hmetrics model version backend hbackend
    rw [hoptions] at hmetrics
    rw [hmodels.backends] at hbackend
    have hexposes := exposes_of_create hcreate
    exact hledger.shows hfresh hmetrics (hexposes.zero _)
      (hexposes.exposed hmetrics model version backend hbackend)
  refine ⟨hledger.opened, hledger.nodup hfresh, hledger.conserved hfresh,
    fun completion ↦ hledger.outcome?_completed hfresh,
    fun call ↦ hledger.outcome?_refused hfresh hsound,
    fun t action next hticket hact ↦ hledger.books_eq hrun hact hticket, hlisted, htold,
    fun model version status hstatus hfits ↦ ?_, hshown,
    fun hmetrics model version backend hbackend hunshared hfits hfailed ↦ ?_⟩
  · exact (htold model version status hstatus).balances hfits
      (hledger.conserved hfresh model version)
  · obtain ⟨status, hstatus⟩ := hlisted model version backend hbackend
    obtain ⟨counters, hcounters, hshows⟩ := hshown hmetrics model version backend hbackend
    rw [State.concludedUnder_of_unshared hmodels hloaded hunshared,
      State.concludedUnder_of_unshared hmodels hloaded hunshared] at hshows
    exact ⟨status, counters, hstatus, hcounters,
      hshows.agrees (htold model version status hstatus) hfits hfailed⟩

end

/-- The call of `echoRun`. -/
def echoCall : RoutedCall := ⟨0, "echo", 3, 1⟩

theorem accounting_of_run_echoRun :
    ∃ start server status,
      State.create shelf .standard "shelf" { repository := "/models" } = .ok start ∧
        start.run echoRun = some server ∧ start.calls echoRun = [echoCall] ∧
        start.outcome? server echoRun 0 = some true ∧
        server.books.status.version? "echo" 3 = some status ∧
        Tells [echoCall] [] status ∧ Balances server [echoCall] "echo" 3 status := by
  have hchecked : ((State.create shelf .standard "shelf"
      { repository := "/models" }).toOption.any fun start ↦
        (start.run echoRun).any fun server ↦
          start.calls echoRun = [echoCall] && start.outcome? server echoRun 0 = some true &&
            start.concludedFor server echoRun true "echo" 3 = [echoCall] &&
            start.concludedFor server echoRun false "echo" 3 = [] &&
            (server.books.status.version? "echo" 3).isSome) = true := by
    decide +kernel
  obtain ⟨start, server, hstart, hserver, hchecked⟩ := State.exists_run_of_any hchecked
  simp only [Bool.and_eq_true, decide_eq_true_eq] at hchecked
  obtain ⟨⟨⟨⟨hcalls, houtcome⟩, hsucceeded⟩, hfailed⟩, hsome⟩ := hchecked
  obtain ⟨status, hstatus⟩ := Option.isSome_iff_exists.1 hsome
  have hall := accounting_of_run hstart hserver (by decide)
  have htold := hall.told "echo" 3 status hstatus
  have hbalanced := hall.balanced "echo" 3 status hstatus
  rw [hsucceeded, hfailed] at htold hbalanced
  rw [hcalls] at hbalanced
  exact ⟨start, server, status, hstart, hserver, hcalls, houtcome, hstatus, htold,
    hbalanced ⟨by decide, by decide, fun _ ↦ by simp [UInt64.size]⟩⟩

/-- A repository with version 11 of one model and version 1 of another whose name ends in the digit
that the first version begins with. -/
def twins : Files.Tree where
  root := [("models", .directory [
    ("m", .directory [("11", .directory []), ("config.json", .file config)]),
    ("m1", .directory [("1", .directory []), ("config.json", .file config)])])]
  current := []
where
  config := Bytes.ofText ("\x7b\"platform\": \"identity\"," ++
    "\"input\": [\x7b\"name\": \"in\", \"data_type\": \"UINT8\", \"dims\": [1]\x7d]," ++
    "\"output\": [\x7b\"name\": \"out\", \"data_type\": \"UINT8\", \"dims\": [1]\x7d]\x7d")

/-- One submission to the first of these models. -/
def twinRun : List Action :=
  [.enter 0 { echoByte with model := "m" }, .check 0, .accept 0, .watch 0, .start "m" 11, .work 0,
    .deliver 0, .leave 0]

/-- Nothing was ever asked of the second model, and its counters show a request. -/
theorem counters_ne_statistics_twinRun :
    ∃ start server status counters,
      State.create twins .standard "twins" { repository := "/models" } = .ok start ∧
        start.run twinRun = some server ∧ server.traffic.inFlight = 0 ∧
        server.books.status.version? "m1" 1 = some status ∧
        server.books.metrics.counters? ⟨"m1", 1⟩ = some counters ∧
        status.executions = 0 ∧ counters.success = 1 ∧ counters.executions = 1 := by
  have hchecked : ((State.create twins .standard "twins"
      { repository := "/models" }).toOption.any fun start ↦
        (start.run twinRun).any fun server ↦ server.traffic.inFlight = 0 &&
          ((server.books.status.version? "m1" 1).any (·.executions = 0) &&
          (server.books.metrics.counters? ⟨"m1", 1⟩).any fun counters ↦
            counters.success = 1 && counters.executions = 1)) = true := by
    decide +kernel
  obtain ⟨start, server, hstart, hserver, hchecked⟩ := State.exists_run_of_any hchecked
  obtain ⟨hidle, hchecked⟩ := Bool.and_eq_true_iff.1 hchecked
  obtain ⟨hstatus, hcounters⟩ := Bool.and_eq_true_iff.1 hchecked
  obtain ⟨status, hstatus, hexecutions⟩ := (Option.any_eq_true _ _).1 hstatus
  obtain ⟨counters, hcounters, hshown⟩ := (Option.any_eq_true _ _).1 hcounters
  obtain ⟨hsuccess, hshown⟩ := Bool.and_eq_true_iff.1 hshown
  exact ⟨start, server, status, counters, hstart, hserver, of_decide_eq_true hidle, hstatus,
    hcounters, of_decide_eq_true hexecutions, of_decide_eq_true hsuccess,
    of_decide_eq_true hshown⟩

end TensorInference.Server
