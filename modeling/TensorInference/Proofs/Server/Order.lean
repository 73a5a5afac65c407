import TensorInference.Proofs.Server.Limits

/-!
# The order of starts

The admissions and the starts of a run are read off its states: what is new at the end of the jobs
that wait, and at the end of those in execution. For each model version the starts and the jobs that
still wait, put one after the other, are the admissions in their order, so jobs start in the order
in which they were admitted, none is passed over and none starts twice.
-/

namespace TensorInference.Server

open Model Inference

/-- What is recorded of each action of a run, one after the other. -/
def State.log (record : State → State → List Ticket) (server : State) :
    List Action → List Ticket
  | [] => []
  | action :: rest =>
    match server.act action with
    | none => []
    | some next => record server next ++ log record next rest

theorem State.log_append {record : State → State → List Ticket} {server middle : State}
    {first second : List Action} (hrun : server.run first = some middle) :
    server.log record (first ++ second) =
      server.log record first ++ middle.log record second := by
  induction first generalizing server with
  | nil =>
    obtain rfl := Option.some.inj hrun
    rfl
  | cons action rest ih =>
    obtain ⟨later, hlater, hrest⟩ := Option.bind_eq_some_iff.1 hrun
    rw [List.cons_append, log, log, hlater]
    dsimp only
    rw [ih hrest, List.append_assoc]

theorem State.log_append_singleton {record : State → State → List Ticket}
    {server middle next : State} {actions : List Action} {action : Action}
    (hrun : server.run actions = some middle) (hact : middle.act action = some next) :
    server.log record (actions ++ [action]) = server.log record actions ++ record middle next := by
  rw [log_append hrun]
  simp [log, hact]

/-- The jobs of a model version that have come to wait. -/
def newlyWaiting (model : String) (version : UInt64) (server next : State) : List Ticket :=
  ((next.traffic.waiting.drop server.traffic.waiting.length).filter
    (·.isFor model version)).map (·.ticket)

/-- The jobs of a model version that have come into execution. -/
def newlyRunning (model : String) (version : UInt64) (server next : State) : List Ticket :=
  ((next.traffic.running.drop server.traffic.running.length).filter
    (·.job.isFor model version)).map (·.job.ticket)

/-- The admissions to a model version in the order of a run. -/
def State.admissions (server : State) (model : String) (version : UInt64) (actions : List Action) :
    List Ticket :=
  server.log (newlyWaiting model version) actions

/-- The starts of a model version in the order of a run. -/
def State.starts (server : State) (model : String) (version : UInt64) (actions : List Action) :
    List Ticket :=
  server.log (newlyRunning model version) actions

/-- The jobs that wait for a model version. -/
def Traffic.queue (traffic : Traffic) (model : String) (version : UInt64) : List Ticket :=
  (traffic.waiting.filter (·.isFor model version)).map (·.ticket)

variable {model : String} {version : UInt64} {server next : State} {action : Action}
  {traffic : Traffic}

theorem newlyWaiting_of_length_le
    (h : next.traffic.waiting.length ≤ server.traffic.waiting.length) :
    newlyWaiting model version server next = [] := by
  rw [newlyWaiting, List.drop_eq_nil_of_le h]
  rfl

theorem newlyRunning_of_length_le
    (h : next.traffic.running.length ≤ server.traffic.running.length) :
    newlyRunning model version server next = [] := by
  rw [newlyRunning, List.drop_eq_nil_of_le h]
  rfl

theorem newlyWaiting_of_append {jobs : List Job}
    (h : next.traffic.waiting = server.traffic.waiting ++ jobs) :
    newlyWaiting model version server next =
      (jobs.filter (·.isFor model version)).map (·.ticket) := by
  rw [newlyWaiting, h, List.drop_left]

theorem newlyRunning_of_append {executions : List Execution}
    (h : next.traffic.running = server.traffic.running ++ executions) :
    newlyRunning model version server next =
      (executions.filter (·.job.isFor model version)).map (·.job.ticket) := by
  rw [newlyRunning, h, List.drop_left]

/-! ## Starts take the front of the queue -/

/-- The first job that waits for a model version leaves its own queue at the front, and the queues
of all others alone. -/
theorem Traffic.queue_start {name : String} {number : UInt64} {job : Job} {timer : Timer}
    {program : Platform.Program} (hsingle : (traffic.counts job.ticket).waiting ≤ 1)
    (hjob : traffic.waiting.find? (·.isFor name number) = some job) :
    traffic.queue model version =
      (if job.isFor model version then [job.ticket] else []) ++
        (traffic.start { job with timer } program).queue model version := by
  obtain ⟨hfor, before, after, hwaiting, hbefore⟩ := List.find?_eq_some_iff_append.1 hjob
  have hcount : before.countP (·.ticket = job.ticket) = 0 ∧
      after.countP (·.ticket = job.ticket) = 0 := by
    have hle : traffic.waiting.countP (·.ticket = job.ticket) ≤ 1 := hsingle
    rw [hwaiting, List.countP_append, List.countP_cons_of_pos (by simp)] at hle
    omega
  have hkeep : ∀ jobs : List Job, jobs.countP (·.ticket = job.ticket) = 0 →
      jobs.filter (·.ticket ≠ job.ticket) = jobs := by
    intro jobs hjobs
    rw [List.filter_eq_self]
    intro other hother
    simpa using List.countP_eq_zero.1 hjobs other hother
  have hrest : (traffic.start { job with timer } program).waiting = before ++ after := by
    change traffic.waiting.filter (·.ticket ≠ job.ticket) = before ++ after
    rw [hwaiting, List.filter_append, List.filter_cons_of_neg (by simp), hkeep before hcount.1,
      hkeep after hcount.2]
  rw [queue, queue, hrest, hwaiting, List.filter_append, List.filter_append, List.filter_cons]
  split
  · rename_i hsame
    -- Nothing before the job is for its model version.
    have hnone : before.filter (·.isFor model version) = [] := by
      rw [List.filter_eq_nil_iff]
      intro other hother hothers
      obtain ⟨rfl, rfl⟩ := Job.isFor_iff.1 hsame
      obtain ⟨hname, hnumber⟩ := Job.isFor_iff.1 hfor
      have hnot := hbefore other hother
      rw [hname, hnumber] at hothers
      rw [hothers] at hnot
      cases hnot
    rw [hnone]
    rfl
  · rfl

/-- How the admissions and the starts of a model version stand to what waits. -/
structure Ordered (admitted started : List Ticket) (phase : Phase) (queue : List Ticket) :
    Prop where
  kept : phase ≠ .abandoned → admitted = started ++ queue
  started : started <+: admitted

namespace Ordered

variable {admitted started queue : List Ticket} {phase : Phase}

theorem of_phase {other : Phase} (h : Ordered admitted started phase queue)
    (hphase : phase ≠ .abandoned) : Ordered admitted started other queue :=
  ⟨fun _ ↦ h.kept hphase, h.started⟩

theorem enqueue (h : Ordered admitted started phase queue) (hphase : phase ≠ .abandoned)
    (tickets : List Ticket) :
    Ordered (admitted ++ tickets) started phase (queue ++ tickets) where
  kept _ := by rw [h.kept hphase, List.append_assoc]
  started := h.started.trans (List.prefix_append _ _)

theorem start {tickets : List Ticket} (h : Ordered admitted started phase (tickets ++ queue))
    (hphase : phase ≠ .abandoned) : Ordered admitted (started ++ tickets) phase queue where
  kept _ := by rw [h.kept hphase, List.append_assoc]
  started := by
    rw [h.kept hphase, ← List.append_assoc]
    exact List.prefix_append _ _

theorem abandon (h : Ordered admitted started phase queue) :
    Ordered admitted started .abandoned [] :=
  ⟨fun hphase ↦ absurd rfl hphase, h.started⟩

end Ordered

/-- A step that changes neither what waits nor what runs records nothing. -/
theorem Ordered.of_same {admitted started : List Ticket}
    (h : Ordered admitted started server.phase (server.traffic.queue model version))
    (hphase : server.phase = next.phase ∨ server.phase ≠ .abandoned)
    (hwaiting : next.traffic.waiting = server.traffic.waiting)
    (hrunning : next.traffic.running.length ≤ server.traffic.running.length) :
    Ordered (admitted ++ newlyWaiting model version server next)
      (started ++ newlyRunning model version server next) next.phase
      (next.traffic.queue model version) := by
  rw [newlyWaiting_of_length_le (Nat.le_of_eq (congrArg List.length hwaiting)),
    newlyRunning_of_length_le hrunning, List.append_nil, List.append_nil, Traffic.queue, hwaiting]
  rcases hphase with hphase | hphase
  · rw [← hphase]
    exact h
  · exact h.of_phase hphase

/-- A step that appends to what waits appends the same to the queue and to the admissions. -/
theorem Ordered.of_enqueue {admitted started : List Ticket} {jobs : List Job}
    (h : Ordered admitted started server.phase (server.traffic.queue model version))
    (hphase : server.phase ≠ .abandoned) (hsame : next.phase = server.phase)
    (hwaiting : next.traffic.waiting = server.traffic.waiting ++ jobs)
    (hrunning : next.traffic.running.length ≤ server.traffic.running.length) :
    Ordered (admitted ++ newlyWaiting model version server next)
      (started ++ newlyRunning model version server next) next.phase
      (next.traffic.queue model version) := by
  rw [newlyWaiting_of_append hwaiting, newlyRunning_of_length_le hrunning, List.append_nil, hsame,
    Traffic.queue, hwaiting, List.filter_append, List.map_append]
  exact h.enqueue hphase _

/-- A step that takes the front of a queue into execution appends it to the starts. -/
theorem Ordered.of_start {admitted started : List Ticket} {executions : List Execution}
    (h : Ordered admitted started server.phase (server.traffic.queue model version))
    (hphase : server.phase ≠ .abandoned) (hsame : next.phase = server.phase)
    (hwaiting : next.traffic.waiting.length ≤ server.traffic.waiting.length)
    (hrunning : next.traffic.running = server.traffic.running ++ executions)
    (hqueue : server.traffic.queue model version =
      (executions.filter (·.job.isFor model version)).map (·.job.ticket) ++
        next.traffic.queue model version) :
    Ordered (admitted ++ newlyWaiting model version server next)
      (started ++ newlyRunning model version server next) next.phase
      (next.traffic.queue model version) := by
  rw [newlyWaiting_of_length_le hwaiting, newlyRunning_of_append hrunning, List.append_nil, hsame]
  rw [hqueue] at h
  exact h.start hphase

theorem Ordered.of_abandon {admitted started : List Ticket}
    (h : Ordered admitted started server.phase (server.traffic.queue model version))
    (hphase : next.phase = .abandoned) (hwaiting : next.traffic.waiting = [])
    (hrunning : next.traffic.running = []) :
    Ordered (admitted ++ newlyWaiting model version server next)
      (started ++ newlyRunning model version server next) next.phase
      (next.traffic.queue model version) := by
  rw [newlyWaiting, newlyRunning, Traffic.queue, hwaiting, hrunning, List.drop_nil, List.drop_nil,
    hphase]
  simpa using h.abandon

/-- A step appends to the starts of a model version from the front of its queue, and to its
admissions what it appends to the queue. -/
theorem Step.ordered {admitted started : List Ticket} (hstep : Step server action next)
    (hbalanced : ∀ t, ∃ n ≤ 1, Counts.Balanced server.phase n (server.traffic.counts t))
    (h : Ordered admitted started server.phase (server.traffic.queue model version)) :
    Ordered (admitted ++ newlyWaiting model version server next)
      (started ++ newlyRunning model version server next) next.phase
      (next.traffic.queue model version) := by
  cases hstep with
  | enqueue timer hentrant hresolve hprepare hphase hroom =>
    exact h.of_enqueue hphase rfl rfl (Nat.le_refl _)
  | @start name number backend job timer hbackend hfree hjob =>
    have hwaiting := Traffic.waiting_pos (List.mem_of_find?_eq_some hjob)
    obtain ⟨n, hn, hcounts⟩ := hbalanced job.ticket
    have hphase : server.phase ≠ .abandoned := hcounts.not_abandoned (by omega)
    have hsingle : (server.traffic.counts job.ticket).waiting ≤ 1 := by
      have htotal := hcounts.total_le
      unfold Counts.total at htotal
      omega
    refine h.of_start hphase rfl (List.length_filter_le _ _) rfl ?_
    rw [@Traffic.queue_start model version server.traffic backend.name backend.version job timer
      (backend.executor job.request) hsingle hjob, List.filter_cons, List.filter_nil]
    congr 1
    change _ = (if job.isFor model version = true then [_] else []).map _
    split <;> rfl
  | conclude hexecution hadvance houtcome =>
    exact h.of_same (.inl rfl) rfl (List.length_filter_le _ _)
  | pause hexecution hadvance => exact h.of_same (.inl rfl) rfl (Nat.le_of_eq (List.length_map _))
  | resume hexecution => exact h.of_same (.inl rfl) rfl (Nat.le_of_eq (List.length_map _))
  | watchLate hentrant hphase => exact h.of_abandon hphase rfl rfl
  | giveUp hphase => exact h.of_abandon rfl rfl rfl
  | beginStop hphase => exact h.of_same (.inr (by rw [hphase]; decide)) rfl (Nat.le_refl _)
  | announce hphase => exact h.of_same (.inr (by rw [hphase]; decide)) rfl (Nat.le_refl _)
  | close hphase => exact h.of_same (.inr (by rw [hphase]; decide)) rfl (Nat.le_refl _)
  | observeIdle hphase hidle =>
    exact h.of_same (.inr (by rw [hphase]; decide)) rfl (Nat.le_refl _)
  | _ => exact h.of_same (.inl rfl) rfl (Nat.le_refl _)

/-! ## Admissions do not repeat -/

/-- The admissions of a ticket together with the places where it can be before an admission are no
more than the times it was entered. -/
def AdmittedOnce (n admitted : Nat) (c : Counts) : Prop :=
  admitted + c.arriving + c.refused ≤ n

theorem AdmittedOnce.of_same {t : Ticket} {n admitted : Nat}
    (h : AdmittedOnce n admitted (server.traffic.counts t))
    (hwaiting : next.traffic.waiting.length ≤ server.traffic.waiting.length)
    (hcounts : (next.traffic.counts t).arriving + (next.traffic.counts t).refused ≤
      (server.traffic.counts t).arriving + (server.traffic.counts t).refused) :
    AdmittedOnce n (admitted + (newlyWaiting model version server next).count t)
      (next.traffic.counts t) := by
  rw [newlyWaiting_of_length_le hwaiting, List.count_nil]
  unfold AdmittedOnce at h ⊢
  omega

theorem count_newlyWaiting_le {t : Ticket} {jobs : List Job}
    (h : next.traffic.waiting = server.traffic.waiting ++ jobs) :
    (newlyWaiting model version server next).count t ≤ jobs.countP (·.ticket = t) := by
  rw [newlyWaiting_of_append h, List.count, List.countP_map]
  refine Nat.le_trans (List.Sublist.countP_le List.filter_sublist) (Nat.le_of_eq ?_)
  refine List.countP_congr fun job _ ↦ ?_
  simp

/-- A submission that is admitted is not on the way in any more, so its ticket is not admitted
again. -/
theorem Step.admittedOnce {t : Ticket} {n admitted : Nat} (hstep : Step server action next)
    (hbalanced : Counts.Balanced server.phase n (server.traffic.counts t))
    (hn : n + action.arrivals.countP (·.1 = t) ≤ 1)
    (h : AdmittedOnce n admitted (server.traffic.counts t)) :
    AdmittedOnce (n + action.arrivals.countP (·.1 = t))
      (admitted + (newlyWaiting model version server next).count t) (next.traffic.counts t) := by
  cases hstep with
  | enter ticket submission =>
    have hnone : newlyWaiting model version server
        { server with traffic := server.traffic.enter ticket submission } = [] :=
      newlyWaiting_of_length_le (Nat.le_refl _)
    rw [hnone, Traffic.counts_enter]
    unfold AdmittedOnce at h ⊢
    by_cases hticket : t = ticket
    · subst hticket
      simp only [Action.arrivals, List.countP_cons, List.countP_nil, List.count_nil, if_true,
        decide_true]
      omega
    · simp only [Action.arrivals, List.countP_cons, List.countP_nil, List.count_nil, if_neg hticket]
      omega
  | turnAway hentrant hclosed =>
    refine h.of_same (Nat.le_refl _) ?_
    rw [Traffic.counts_refuse]
    split
    · rename_i hticket
      subst hticket
      have harriving := Traffic.arriving_pos hentrant (by decide)
      dsimp only
      omega
    · exact Nat.le_refl _
  | letIn hentrant hopen =>
    refine h.of_same (Nat.le_refl _) ?_
    rw [Traffic.counts_advance (by decide)]
    split
    · rename_i hticket
      subst hticket
      have harriving := Traffic.arriving_pos hentrant (by decide)
      have hsettling := hbalanced.settling_eq_zero (Nat.le_of_add_right_le hn)
        (Phase.ne_abandoned hopen) harriving
      dsimp only
      omega
    · exact Nat.le_refl _
  | reject timer status hentrant =>
    refine h.of_same (Nat.le_refl _) ?_
    rw [State.refuse, Traffic.counts_refuse]
    split
    · rename_i hticket
      subst hticket
      have harriving := Traffic.arriving_pos hentrant (by decide)
      dsimp only
      omega
    · exact Nat.le_refl _
  | @enqueue ticket _ _ request response timer hentrant hresolve hprepare hphase hroom =>
    have hcount := @count_newlyWaiting_le model version server
      { server with traffic := server.traffic.enqueue { ticket, request, response, timer } } t
      [{ ticket, request, response, timer }] rfl
    rw [Traffic.counts_enqueue]
    unfold AdmittedOnce at h ⊢
    split
    · rename_i hticket
      subst hticket
      have harriving := Traffic.arriving_pos hentrant (by decide)
      simp only [List.countP_cons, List.countP_nil, decide_true, if_true] at hcount
      dsimp only
      omega
    · rename_i hticket
      simp only [List.countP_cons, List.countP_nil, Ne.symm hticket, decide_false,
        Bool.false_eq_true, if_false] at hcount
      omega
  | watch hentrant hphase =>
    refine h.of_same (Nat.le_refl _) ?_
    rw [Traffic.counts_watch]
    split
    · dsimp only
      omega
    · exact Nat.le_refl _
  | watchLate hentrant hphase =>
    refine h.of_same (Nat.zero_le _) ?_
    rw [Traffic.counts_abandon, Traffic.counts_watch]
    split
    · dsimp only
      omega
    · exact Nat.le_refl _
  | start timer hbackend hfree hjob =>
    refine h.of_same (List.length_filter_le _ _) (Nat.le_refl _)
  | giveUp hphase => exact h.of_same (Nat.zero_le _) (Nat.le_refl _)
  | _ => exact h.of_same (Nat.le_refl _) (Nat.le_refl _)

end TensorInference.Server
