import TensorInference.Proofs.Server.Ledger
import TensorInference.Proofs.Server.Resolution
import TensorInference.Server.Session

/-!
# One more failed request in the books

A failed request may be recorded now or later: the books come out the same, and so does whatever the
server does in between (`State.act_recount`).
-/

namespace TensorInference.Server

open Model Wire Inference

/-! ## Records commute -/

theorem Tally.record_comm (tally : Tally) (time other : Nat) :
    (tally.record time).record other = (tally.record other).record time := by
  simp only [Tally.record, Tally.mk.injEq, true_and]
  ac_rfl

/-- Conclusions may be posted in any order. -/
theorem Conclusion.post_comm (conclusion other : Conclusion) (status : VersionStatus) :
    conclusion.post (other.post status) = other.post (conclusion.post status) := by
  unfold post
  dsimp only
  split
  · split
    · simp only [VersionStatus.mk.injEq, true_and]
      refine ⟨OrderedMap.upsert_comm _ _ _ _ fun statistics ↦ ?_, ?_⟩
      · simp only [Tally.record_comm]
      · ac_rfl
    · simp only [VersionStatus.mk.injEq, true_and, and_true]
      exact OrderedMap.upsert_comm _ _ _ _ fun _ ↦ rfl
  · split
    · simp only [VersionStatus.mk.injEq, true_and, and_true]
      exact OrderedMap.upsert_comm _ _ _ _ fun _ ↦ rfl
    · simp only [VersionStatus.mk.injEq, true_and, and_true]
      refine OrderedMap.upsert_comm _ _ _ _ fun statistics ↦ ?_
      simp only [Tally.record_comm]

theorem Conclusion.count_comm (conclusion other : Conclusion) (counters : Counters) :
    conclusion.count (other.count counters) = other.count (conclusion.count counters) := by
  unfold count
  dsimp only
  split
  · split
    · simp only [Counters.mk.injEq, true_and]
      refine ⟨?_, ?_, ?_, ?_⟩ <;> ac_rfl
    · simp only [Counters.mk.injEq, true_and, and_true]
      ac_rfl
  · split
    · simp only [Counters.mk.injEq, true_and, and_true]
      ac_rfl
    · simp only [Counters.mk.injEq, true_and, and_true]
      ac_rfl

section Records

variable {table : StatusTable} {metrics : Metrics} {books : Books}

theorem StatusTable.record_comm {name model : String} {version number : UInt64}
    {change other : VersionStatus → VersionStatus}
    (h : ∀ status, change (other status) = other (change status)) :
    (table.record name version change).record model number other =
      (table.record model number other).record name version change := by
  refine eq_of_lookups ?_ fun found version' ↦ ?_
  · rw [heading_record, heading_record, heading_record, heading_record]
  · simp only [version?_record]
    by_cases hname : found = name ∧ version' = version
    · obtain ⟨rfl, rfl⟩ := hname
      by_cases hmodel : found = model ∧ version' = number
      · obtain ⟨rfl, rfl⟩ := hmodel
        simp [Option.map_map, Function.comp_def, h]
      · simp [hmodel]
    · by_cases hmodel : found = model ∧ version' = number
      · obtain ⟨rfl, rfl⟩ := hmodel
        simp [hname]
      · simp [hname, hmodel]

theorem Metrics.get?_update {label : Label} {change : Counters → Counters} {fingerprint : UInt64} :
    (metrics.update label change).series.get? fingerprint =
      if fingerprint = label.fingerprint then
        let series := (metrics.series.get? label.fingerprint).getD { label }
        some { series with counters := change series.counters }
      else metrics.series.get? fingerprint :=
  OrderedMap.get?_upsert _ _ _ _ _

/-- Changes of counters commute if the series of one of them is there before. -/
theorem Metrics.update_comm {label other : Label} {change changeOther : Counters → Counters}
    (hlabel : (metrics.counters? label).isSome)
    (h : ∀ counters, change (changeOther counters) = changeOther (change counters)) :
    (metrics.update label change).update other changeOther =
      (metrics.update other changeOther).update label change := by
  rw [counters?, Option.isSome_map] at hlabel
  obtain ⟨found, hfound⟩ := Option.isSome_iff_exists.1 hlabel
  refine congrArg Metrics.mk (OrderedMap.eq_of_get? fun fingerprint ↦ ?_)
  change ((metrics.update label change).update other changeOther).series.get? fingerprint =
    ((metrics.update other changeOther).update label change).series.get? fingerprint
  simp only [get?_update]
  by_cases hother : label.fingerprint = other.fingerprint
  · rw [← hother]
    by_cases hsame : fingerprint = label.fingerprint
    · simp [hsame, hfound, h]
    · simp [hsame]
  · by_cases hsame : fingerprint = label.fingerprint
    · subst hsame
      simp [hother]
    · by_cases hsame' : fingerprint = other.fingerprint
      · subst hsame'
        simp [hsame]
      · simp [hsame, hsame']

end Records

/-! ## Timers commute -/

section Timers

variable {books : Books} {timer other : Timer} {success success' : Bool} {now later : Nanoseconds}

/-- The end of a request is recorded nowhere, or in the same way in all books. -/
theorem Timer.finish_cases (timer : Timer) (success : Bool) (now : Nanoseconds) :
    (∀ books, (timer.finish success now books).2 = books) ∨
      ∃ conclusion : Conclusion, ∀ books, (timer.finish success now books).2 =
        { status := books.status.record conclusion.call.model conclusion.call.version conclusion.post
          metrics := books.metrics.counting timer.label conclusion } := by
  cases hfinished : timer.finished with
  | true => exact .inl fun books ↦ by simp [finish, hfinished]
  | false =>
    cases hversion : timer.version with
    | none => exact .inl fun books ↦ by simp [finish, hfinished, hversion]
    | some version =>
      have hawaits : timer.Awaits ⟨0, timer.model, version, timer.batch⟩ :=
        ⟨rfl, hversion, rfl, hfinished⟩
      let conclusion : Conclusion := ⟨⟨0, timer.model, version, timer.batch⟩, timer, success, now⟩
      have hstatus := fun books ↦ @status_conclude conclusion books hawaits
      have hmetrics := fun books ↦ @metrics_conclude conclusion books hawaits
      exact .inr ⟨conclusion, fun books ↦ congrArg₂ Books.mk (hstatus books) (hmetrics books)⟩

/-- The counters that a request is counted in are there. -/
def Timer.IsShown (timer : Timer) (metrics : Metrics) : Prop :=
  ∀ label, timer.label = some label → (metrics.counters? label).isSome

theorem Timer.IsShown.finish (h : timer.IsShown books.metrics) :
    timer.IsShown (other.finish success now books).2.metrics := by
  intro label hlabel
  rcases other.finish_cases success now with hsame | ⟨conclusion, hbooks⟩
  · rw [hsame]
    exact h label hlabel
  · rw [hbooks]
    exact Metrics.isSome_counters?_counting (h label hlabel)

/-- The ends of two requests may be recorded in any order. -/
theorem Timer.finish_comm (h : timer.IsShown books.metrics) :
    (other.finish success' later (timer.finish success now books).2).2 =
      (timer.finish success now (other.finish success' later books).2).2 := by
  rcases timer.finish_cases success now with hsame | ⟨conclusion, hbooks⟩
  · rw [hsame, hsame]
  rcases other.finish_cases success' later with hsame' | ⟨conclusion', hbooks'⟩
  · rw [hsame', hsame']
  rw [hbooks, hbooks', hbooks', hbooks]
  refine congrArg₂ Books.mk
    (StatusTable.record_comm fun status ↦ conclusion.post_comm conclusion' status) ?_
  dsimp only [Metrics.counting]
  cases hlabel : timer.label with
  | none => rfl
  | some label =>
    cases other.label with
    | none => rfl
    | some label' =>
      exact Metrics.update_comm (h label hlabel) fun counters ↦
        conclusion.count_comm conclusion' counters

end Timers

namespace State

variable {server next : State} {timer : Timer} {action : Action}

/-- The server in whose books a failed request is recorded besides. -/
def recount (timer : Timer) (server : State) : State :=
  { server with books := timer.drop timer.start server.books }

@[simp]
theorem phase_recount : (server.recount timer).phase = server.phase := rfl

theorem resolve_recount (model : String) (selector : Int64) :
    (server.recount timer).resolve model selector = server.resolve model selector := by
  have hmodels : SameModels server (server.recount timer) :=
    ⟨rfl, rfl, Timer.sameStanding_drop.outline⟩
  exact hmodels.resolve model selector

section

variable (h : timer.IsShown server.books.metrics)
include h

theorem refuse_recount (ticket : Ticket) (other : Timer) (status : Status) :
    (server.recount timer).refuse ticket other status =
      (server.refuse ticket other status).recount timer := by
  unfold refuse recount
  dsimp only
  rw [Timer.drop, Timer.drop, Timer.finish_comm h]
  rfl

theorem enqueue_recount (backend : Backend) (job : Job) :
    (server.recount timer).enqueue backend job = (server.enqueue backend job).recount timer := by
  unfold enqueue
  dsimp only
  rw [refuse_recount h, refuse_recount h]
  change (if server.phase = .abandoned then _ else if server.isFull backend then _ else _) = _
  split
  · rfl
  · split
    · rfl
    · rfl

theorem accept_recount (ticket : Ticket) (submission : Submission) :
    (server.recount timer).accept ticket submission =
      (server.accept ticket submission).recount timer := by
  unfold accept
  dsimp only
  rw [resolve_recount]
  split
  · exact refuse_recount h _ _ _
  · split
    · exact refuse_recount h _ _ _
    · exact enqueue_recount h _ _

theorem conclude_recount (job : Job) (response : Response) (outcome : Except Status Unit) :
    (server.recount timer).conclude job response outcome =
      (server.conclude job response outcome).recount timer := by
  unfold conclude recount
  dsimp only
  rw [Timer.drop, Timer.finish_comm h]
  rfl

theorem work_recount (execution : Execution) :
    (server.recount timer).work execution = (server.work execution).recount timer := by
  unfold work
  dsimp only
  split
  · exact conclude_recount h _ _ _
  · exact conclude_recount h _ _ _
  · rfl

omit h in
theorem start_recount (backend : Backend) :
    (server.recount timer).start backend = (server.start backend).map (recount timer) := by
  unfold start
  change (if server.traffic.busyFor backend.name backend.version < backend.workers then _ else _) = _
  split
  · rw [Option.map_map]
    rfl
  · rfl

end

theorem dropTimers_comm {now : Nanoseconds} {jobs : List Job} {books : Books}
    (h : timer.IsShown books.metrics) :
    dropTimers now (timer.drop timer.start books) jobs =
      timer.drop timer.start (dropTimers now books jobs) := by
  induction jobs generalizing books with
  | nil => rfl
  | cons job rest ih =>
    have hfirst : job.timer.drop now (timer.drop timer.start books) =
        timer.drop timer.start (job.timer.drop now books) := Timer.finish_comm h
    have hshown : timer.IsShown (job.timer.drop now books).metrics := h.finish
    change dropTimers now (job.timer.drop now (timer.drop timer.start books)) rest =
      timer.drop timer.start (dropTimers now (job.timer.drop now books) rest)
    rw [hfirst, ih hshown]

/-- A failed request may be recorded before an action or after it. -/
theorem act_recount (h : timer.IsShown server.books.metrics) (action : Action) :
    (server.recount timer).act action = (server.act action).map (recount timer) := by
  cases action with
  | enter ticket submission => rfl
  | check ticket =>
    rw [act, act, Option.map_map]
    refine Option.map_congr fun entrant _ ↦ ?_
    change (if server.phase.isClosed then _ else _) =
      recount timer (if server.phase.isClosed then _ else _)
    split
    · rfl
    · rfl
  | accept ticket =>
    rw [act, act, Option.map_map]
    exact Option.map_congr fun entrant _ ↦ accept_recount h _ _
  | watch ticket =>
    rw [act, act, Option.map_map]
    rfl
  | start model version =>
    rw [act, act, Option.map_bind]
    refine Option.bind_congr fun backend _ ↦ ?_
    exact start_recount backend
  | work ticket =>
    unfold act
    dsimp only [recount]
    split
    · rfl
    · rfl
    · exact congrArg some (work_recount h _)
  | deliver ticket =>
    unfold act
    rw [apply_ite (Option.map (recount timer)), Option.map_map]
    rfl
  | giveUp =>
    unfold act
    rw [apply_ite (Option.map (recount timer)), Option.map_some, Option.map_none]
    dsimp only [recount]
    rw [dropTimers_comm h]
    rfl
  | leave ticket | beginStop | announce | close | observeIdle =>
    unfold act
    rw [apply_ite (Option.map (recount timer))]
    rfl
  | resume ticket =>
    unfold act
    dsimp only [recount]
    split
    · rfl
    · rfl
  | pass time => rfl

/-- Counters are never taken away. -/
theorem isShown_of_act (h : timer.IsShown server.books.metrics)
    (hact : server.act action = some next) : timer.IsShown next.books.metrics := by
  cases step_of_act hact with
  | reject | conclude => exact h.finish
  | giveUp =>
    have hjobs : ∀ (jobs : List Job) (books : Books), timer.IsShown books.metrics →
        timer.IsShown (dropTimers server.now books jobs).metrics := by
      intro jobs
      induction jobs with
      | nil => exact fun _ h ↦ h
      | cons job rest ih => exact fun books h ↦ ih _ h.finish
    exact hjobs _ _ h
  | _ => exact h

section

variable (h : timer.IsShown server.books.metrics)
include h

theorem isShown_attempt (action : Action) :
    timer.IsShown (server.attempt action).books.metrics := by
  unfold attempt
  cases hact : server.act action with
  | none => exact h
  | some next => exact isShown_of_act h hact

theorem attempt_recount (action : Action) :
    (server.recount timer).attempt action = (server.attempt action).recount timer := by
  rw [attempt, attempt, act_recount h]
  cases server.act action with
  | none => rfl
  | some next => rfl

/-- A failed request may be recorded before some actions or after them. -/
theorem attempts_recount (actions : List Action) :
    actions.foldl attempt (server.recount timer) = (actions.foldl attempt server).recount timer ∧
      timer.IsShown (actions.foldl attempt server).books.metrics := by
  induction actions generalizing server with
  | nil => exact ⟨rfl, h⟩
  | cons action rest ih =>
    rw [List.foldl_cons, List.foldl_cons, attempt_recount h]
    exact ih (isShown_attempt h action)

omit h in
theorem nextAction?_recount : (server.recount timer).nextAction? = server.nextAction? := by
  have hstartable : (server.recount timer).startable = server.startable := by
    unfold startable
    simp only [start_recount, Option.isSome_map]
    rfl
  unfold nextAction?
  rw [hstartable]
  rfl

theorem settleWithin_recount (fuel : Nat) :
    (server.recount timer).settleWithin fuel = (server.settleWithin fuel).recount timer ∧
      timer.IsShown (server.settleWithin fuel).books.metrics := by
  induction fuel generalizing server with
  | zero => exact ⟨rfl, h⟩
  | succ fuel ih =>
    rw [settleWithin, settleWithin, nextAction?_recount]
    have hact : server.nextAction?.bind (server.recount timer).act =
        (server.nextAction?.bind server.act).map (recount timer) := by
      rw [Option.map_bind]
      exact Option.bind_congr fun action _ ↦ act_recount h action
    rw [hact]
    cases hnext : server.nextAction?.bind server.act with
    | none => exact ⟨rfl, h⟩
    | some next =>
      obtain ⟨action, -, hact⟩ := Option.bind_eq_some_iff.1 hnext
      exact ih (isShown_of_act h hact)

theorem settle_recount : (server.recount timer).settle = server.settle.recount timer ∧
    timer.IsShown server.settle.books.metrics :=
  settleWithin_recount h server.pendingActions

/-- A failed request may be recorded before a server is stopped or after it. -/
theorem stop_recount : (server.recount timer).stop = server.stop.recount timer ∧
    timer.IsShown server.stop.books.metrics := by
  have hclosed := attempts_recount h [.beginStop, .announce, .close]
  have hsettled := settle_recount hclosed.2
  have hclose : (server.recount timer).close = server.close.recount timer := by
    rw [close, close, hclosed.1, hsettled.1, attempt_recount hsettled.2]
  have hshown : timer.IsShown server.close.books.metrics := isShown_attempt hsettled.2 _
  unfold stop
  rw [hclose, attempt_recount hshown, phase_recount]
  by_cases hphase : server.phase = .serving
  · rw [if_pos hphase, if_pos hphase]
    exact ⟨rfl, isShown_attempt hshown _⟩
  · rw [if_neg hphase, if_neg hphase]
    exact ⟨rfl, h⟩

/-- A failed request may be recorded before a submission or after it. -/
theorem submit_recount (ticket : Ticket) (submission : Submission) :
    (server.recount timer).submit ticket submission =
        ((server.submit ticket submission).1.recount timer, (server.submit ticket submission).2) ∧
      timer.IsShown (server.submit ticket submission).1.books.metrics := by
  obtain ⟨hsame, hshown⟩ :=
    attempts_recount h [.enter ticket submission, .check ticket, .accept ticket, .watch ticket]
  unfold submit
  rw [hsame]
  dsimp only [recount]
  split
  · exact ⟨rfl, hshown⟩
  · exact ⟨rfl, hshown⟩

end

/-- What a server tells of itself and of its models besides their statistics does not depend on what
was recorded. -/
theorem isReady_recount : (server.recount timer).isReady = server.isReady := by
  have houtline : (timer.drop timer.start server.books).status.outline =
      server.books.status.outline := Timer.sameStanding_drop.outline
  have hready : (timer.drop timer.start server.books).status.allReady =
      server.books.status.allReady := by
    rw [Bool.eq_iff_iff, StatusTable.allReady_iff_outline, StatusTable.allReady_iff_outline,
      houtline]
  unfold isReady
  dsimp only [recount]
  rw [hready]
  rfl

/-- A model has a status, or it has none, whatever was recorded. -/
theorem modelStatus_recount (model : String) :
    (∃ status, server.modelStatus model = .error status ∧
      (server.recount timer).modelStatus model = .error status) ∨
    ∃ report report', server.modelStatus model = .ok report ∧
      (server.recount timer).modelStatus model = .ok report' := by
  have houtline : (timer.drop timer.start server.books).status.contains model =
      server.books.status.contains model := by
    rw [StatusTable.contains_eq, Timer.sameStanding_drop.outline, ← StatusTable.contains_eq]
  unfold StatusTable.contains OrderedMap.contains at houtline
  unfold modelStatus
  dsimp only [recount]
  cases hbefore : server.books.status.models.get? model with
  | none =>
    rw [hbefore, Option.isSome_none, Option.isSome_eq_false_iff, Option.isNone_iff_eq_none]
      at houtline
    rw [houtline]
    exact .inl ⟨_, rfl, rfl⟩
  | some status =>
    rw [hbefore, Option.isSome_some] at houtline
    obtain ⟨later, hlater⟩ := Option.isSome_iff_exists.1 houtline
    rw [hlater]
    exact .inr ⟨_, _, rfl, rfl⟩

end State

end TensorInference.Server
