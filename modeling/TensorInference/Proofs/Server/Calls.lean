import TensorInference.Proofs.Server.ExactlyOnce
import TensorInference.Proofs.Server.Ledger

/-!
# Calls are opened and closed

A call is opened when a submission on its way in resolves to a model version. It is open while its
job waits or is executed, and it is closed by one conclusion: when it is refused after all, when
its execution ends or when it is given up. Each step is described by the calls that it opens and
the conclusions that it closes others with (`Effect`): what was open before, with what is opened,
is what is closed with what is open after, and the books record exactly what is closed.
-/

namespace TensorInference.Server

open Model Inference
open scoped List

/-- The call that an action opens. -/
def State.resolved (server : State) : Action → List RoutedCall
  | .accept ticket =>
    match server.traffic.entrant? ticket .passed with
    | none => []
    | some entrant =>
      let submission := entrant.submission
      match server.resolve submission.model submission.selector with
      | .error _ => []
      | .ok backend => [⟨ticket, submission.model, backend.version, submission.header.batch⟩]
  | _ => []

/-- The calls that reached a model version, in the order of a run. -/
def State.calls (server : State) : List Action → List RoutedCall
  | [] => []
  | action :: rest =>
    match server.act action with
    | none => []
    | some next => server.resolved action ++ calls next rest

/-- The jobs that have come to a successful end. -/
def newlySucceeded (server next : State) : List Ticket :=
  ((next.traffic.outbox.drop server.traffic.outbox.length).filter (·.status.isOk)).map (·.ticket)

/-- The jobs that came to a successful end, in the order of a run. -/
def State.successes (server : State) (actions : List Action) : List Ticket :=
  server.log newlySucceeded actions

/-- Whether a submission resolves to the version of a call. -/
def State.Opens (server : State) (submission : Submission) (call : RoutedCall) : Prop :=
  ∃ backend, server.resolve submission.model submission.selector = .ok backend ∧
    call.model = submission.model ∧ call.version = backend.version ∧
    call.batch = submission.header.batch

variable {start server next : State} {action : Action} {actions : List Action}
  {metered : Bool} {ticket : Ticket} {submission : Submission} {backend : Backend}

/-- A call is opened by a submission on its way in. -/
theorem State.opens_of_resolved {call : RoutedCall} (h : call ∈ server.resolved action) :
    action = .accept call.ticket ∧
      ∃ entrant ∈ server.traffic.entrants, entrant.ticket = call.ticket ∧
        server.Opens entrant.submission call := by
  cases action with
  | accept ticket =>
    rw [resolved] at h
    split at h
    · cases h
    · rename_i entrant hentrant
      dsimp only at h
      split at h
      · cases h
      · rename_i backend hresolve
        obtain rfl := List.mem_singleton.1 h
        obtain ⟨hmem, hticket, -⟩ := Traffic.mem_of_entrant? hentrant
        exact ⟨rfl, entrant, hmem, hticket, backend, hresolve, rfl, rfl, rfl⟩
  | _ => cases h

theorem State.calls_append_singleton {middle : State} (hrun : server.run actions = some middle)
    (hact : middle.act action = some next) :
    server.calls (actions ++ [action]) = server.calls actions ++ middle.resolved action := by
  induction actions generalizing server with
  | nil =>
    obtain rfl := Option.some.inj hrun
    simp [calls, hact]
  | cons first rest ih =>
    obtain ⟨later, hlater, hrest⟩ := Option.bind_eq_some_iff.1 hrun
    rw [List.cons_append, calls, calls, hlater]
    dsimp only
    rw [ih hrest, List.append_assoc]

/-! ## Submissions that resolve -/

/-- The timer of a call that is opened. -/
def State.timer (server : State) (submission : Submission) (backend : Backend) : Timer :=
  let label := if backend.metered then some ⟨backend.name, backend.version⟩ else none
  (({ model := submission.model, start := server.now } : Timer).setVersion backend.version
    label).setBatch submission.header.batch

/-- What becomes of a submission that resolves to a version: it is refused all the same, or its
job waits. -/
theorem State.accept_of_resolved
    (h : server.resolve submission.model submission.selector = .ok backend) :
    (∃ status, server.accept ticket submission =
      server.refuse ticket (server.timer submission backend) status) ∨
    ∃ request response, backend.prepare submission = .ok (request, response) ∧
      server.accept ticket submission = { server with
        traffic := server.traffic.enqueue
          { ticket, request, response, timer := server.timer submission backend } } := by
  unfold accept
  dsimp only
  rw [h]
  dsimp only
  split
  · exact .inl ⟨_, rfl⟩
  · rename_i request response hprepare
    unfold enqueue
    dsimp only
    split
    · exact .inl ⟨_, rfl⟩
    · split
      · exact .inl ⟨_, rfl⟩
      · exact .inr ⟨request, response, hprepare, rfl⟩

theorem State.follows_timer (hname : backend.name = submission.model)
    (hmetered : backend.metered = metered) :
    (server.timer submission backend).Follows metered
      ⟨ticket, submission.model, backend.version, submission.header.batch⟩ := by
  refine ⟨rfl, rfl, rfl, ?_, rfl⟩
  rw [RoutedCall.label, ← hname, ← hmetered]
  rfl

/-! ## The effect of a step -/

/-- The call that a job is for. -/
def Job.call (job : Job) : RoutedCall :=
  ⟨job.ticket, job.request.model, job.request.version, job.timer.batch⟩

/-- What a step does to calls: it opens some and closes others. -/
structure Effect (metered : Bool) (server next : State) (opened : List RoutedCall)
    (closed : List Conclusion) : Prop where
  books : next.books = closed.foldl Books.conclude server.books
  /-- What is open and not closed stays open. -/
  balance : (opened ++ server.traffic.unfinished.map (·.call)).Perm
    (closed.map (·.call) ++ next.traffic.unfinished.map (·.call))
  followed : ∀ job ∈ next.traffic.unfinished, job.timer.Follows metered job.call
  ended : ∀ entry ∈ closed, entry.timer.Follows metered entry.call
  /-- Only a job in execution comes to a successful end. -/
  worked : ∀ entry ∈ closed, entry.success = true →
    0 < (server.traffic.counts entry.call.ticket).running
  succeeded : newlySucceeded server next = (Server.ended closed true).map (·.ticket)
  /-- A completion comes from a conclusion with the same outcome. -/
  completed : ∀ completion, completion ∈ next.traffic.outbox ∨ completion ∈ next.traffic.delivered →
    (completion ∈ server.traffic.outbox ∨ completion ∈ server.traffic.delivered) ∨
      ∃ entry ∈ closed, entry.call.ticket = completion.ticket ∧
        entry.success = completion.status.isOk

/-- A member whose key does not repeat can be taken out. -/
theorem perm_cons_filter {α : Type} (key : α → Ticket) {l : List α} {a : α} (ha : a ∈ l)
    (hle : l.countP (key · = key a) ≤ 1) : l.Perm (a :: l.filter (key · ≠ key a)) := by
  calc l
    _ ~ l.filter (key · = key a) ++ l.filter (fun other ↦ !decide (key other = key a)) :=
      (List.filter_append_perm _ l).symm
    _ = a :: l.filter (key · ≠ key a) := by
      rw [filter_eq_singleton hle ha (decide_eq_true rfl), List.singleton_append]
      simp only [ne_eq, decide_not]

theorem newlySucceeded_of_length_le
    (h : next.traffic.outbox.length ≤ server.traffic.outbox.length) :
    newlySucceeded server next = [] := by
  rw [newlySucceeded, List.drop_eq_nil_of_le h]
  rfl

namespace Effect

/-- A step that neither opens nor closes a call. -/
theorem of_perm (hbooks : next.books = server.books)
    (hcalls : (server.traffic.unfinished.map (·.call)).Perm
      (next.traffic.unfinished.map (·.call)))
    (hfollowed : ∀ job ∈ next.traffic.unfinished, job.timer.Follows metered job.call)
    (hlength : next.traffic.outbox.length ≤ server.traffic.outbox.length)
    (hcompleted : ∀ completion,
      completion ∈ next.traffic.outbox ∨ completion ∈ next.traffic.delivered →
        completion ∈ server.traffic.outbox ∨ completion ∈ server.traffic.delivered) :
    Effect metered server next [] [] where
  books := hbooks
  balance := hcalls
  followed := hfollowed
  ended := nofun
  worked := nofun
  succeeded := newlySucceeded_of_length_le hlength
  completed completion hcompletion := .inl (hcompleted completion hcompletion)

variable (hfollowed : ∀ job ∈ server.traffic.unfinished, job.timer.Follows metered job.call)

include hfollowed

theorem of_same (hbooks : next.books = server.books)
    (hunfinished : next.traffic.unfinished = server.traffic.unfinished)
    (houtbox : next.traffic.outbox = server.traffic.outbox)
    (hdelivered : next.traffic.delivered = server.traffic.delivered) :
    Effect metered server next [] [] := by
  refine of_perm hbooks (hunfinished ▸ .refl _) (hunfinished ▸ hfollowed)
    (Nat.le_of_eq (congrArg _ houtbox)) fun completion hcompletion ↦ ?_
  rwa [houtbox, hdelivered] at hcompletion

/-- A call that is opened and refused at once is closed at once. -/
theorem refuse {timer : Timer} {status : Status} {call : RoutedCall}
    (htimer : timer.Follows metered call) :
    Effect metered server (server.refuse ticket timer status) [call]
      [⟨call, timer, false, server.now⟩] where
  books := rfl
  balance := .refl _
  followed := hfollowed
  ended entry hentry := by
    obtain rfl := List.mem_singleton.1 hentry
    exact htimer
  worked entry hentry hsuccess := by
    obtain rfl := List.mem_singleton.1 hentry
    cases hsuccess
  succeeded := newlySucceeded_of_length_le (Nat.le_refl _)
  completed _ hcompletion := .inl hcompletion

/-- A call whose job waits stays open. -/
theorem enqueue {job : Job} (hjob : job.timer.Follows metered job.call) :
    Effect metered server { server with traffic := server.traffic.enqueue job } [job.call] [] where
  books := rfl
  balance := by
    have hunfinished : (server.traffic.enqueue job).unfinished =
        server.traffic.unfinished ++ [job] := by
      rw [Traffic.unfinished, Traffic.unfinished, List.append_assoc]
      rfl
    rw [hunfinished, List.map_append]
    exact List.perm_append_comm
  followed other hother := by
    rcases List.mem_append.1 hother with hother | hother
    · exact hfollowed other (List.mem_append_left _ hother)
    · rcases List.mem_append.1 hother with hother | hother
      · exact hfollowed other (List.mem_append_right _ hother)
      · obtain rfl := List.mem_singleton.1 hother
        exact hjob
  ended := nofun
  worked := nofun
  succeeded := newlySucceeded_of_length_le (Nat.le_refl _)
  completed _ hcompletion := .inl hcompletion

theorem accept {entrant : Entrant}
    (hconsistent : Consistent server.backends server.books.status)
    (hmetered : ∀ model version backend,
      server.backends.version? model version = some backend → backend.metered = metered)
    (hentrant : server.traffic.entrant? ticket .passed = some entrant) :
    ∃ closed, Effect metered server (server.accept ticket entrant.submission)
      (server.resolved (.accept ticket)) closed := by
  rw [State.resolved, hentrant]
  dsimp only
  cases hresolve : server.resolve entrant.submission.model entrant.submission.selector with
  | error status =>
    rw [State.accept_of_resolve_error hresolve]
    exact ⟨[], of_same hfollowed rfl rfl rfl rfl⟩
  | ok backend =>
    dsimp only
    obtain ⟨version, hversion, -⟩ := exists_version?_of_resolve hresolve
    have hname := (hconsistent.served hversion).1
    have htimer := @State.follows_timer server metered ticket entrant.submission backend hname
      (hmetered _ _ backend hversion)
    rcases @State.accept_of_resolved server ticket entrant.submission backend hresolve with
      ⟨status, haccept⟩ | ⟨request, response, hprepare, haccept⟩
    · rw [haccept]
      exact ⟨_, refuse hfollowed htimer⟩
    · obtain ⟨hmodel, hnumber⟩ := Backend.request_of_prepare hprepare
      rw [haccept, ← hname, ← hmodel, ← hnumber]
      rw [← hname, ← hmodel, ← hnumber] at htimer
      exact ⟨[], enqueue hfollowed htimer⟩

theorem startJob {job : Job} {program : Platform.Program} (hjob : job ∈ server.traffic.waiting)
    (hsingle : (server.traffic.counts job.ticket).waiting ≤ 1) :
    Effect metered server { server with
      traffic := server.traffic.start
        { job with timer := job.timer.startCompute server.now } program } [] [] := by
  have hwaiting : (server.traffic.waiting.map (·.call)).Perm
      (job.call :: (server.traffic.waiting.filter (·.ticket ≠ job.ticket)).map (·.call)) :=
    (perm_cons_filter (fun job : Job ↦ job.ticket) hjob hsingle).map _
  refine of_perm rfl ?_ (fun other hother ↦ ?_) (Nat.le_refl _) fun _ hcompletion ↦ hcompletion
  · unfold Traffic.unfinished Traffic.start
    dsimp only
    rw [List.map_append, List.map_append, List.map_append, List.map_append, List.append_assoc]
    exact hwaiting.append_left _
  · rcases List.mem_append.1 hother with hother | hother
    · obtain ⟨execution, hexecution, rfl⟩ := List.mem_map.1 hother
      rcases List.mem_append.1 hexecution with hexecution | hexecution
      · exact hfollowed _ (List.mem_append_left _ (List.mem_map_of_mem hexecution))
      · obtain rfl := List.mem_singleton.1 hexecution
        obtain ⟨hmodel, hversion, hbatch, hlabel, hunfinished⟩ :=
          hfollowed job (List.mem_append_right _ hjob)
        exact ⟨hmodel, hversion, hbatch, hlabel, hunfinished⟩
    · exact hfollowed other (List.mem_append_right _ (List.mem_of_mem_filter hother))

/-- An execution that goes on is for the same call. -/
theorem proceed {execution later : Execution} (hexecution : execution ∈ server.traffic.running)
    (hsingle : (server.traffic.counts execution.job.ticket).running ≤ 1)
    (hticket : later.job.ticket = execution.job.ticket)
    (hcall : later.job.call = execution.job.call)
    (htimer : later.job.timer = execution.job.timer) :
    Effect metered server { server with traffic := server.traffic.proceed later } [] [] := by
  have hsame : ∀ other ∈ server.traffic.running, other.job.ticket = later.job.ticket →
      other = execution := fun other hother h ↦
    Traffic.request_of_ticket hsingle hexecution hother (h.trans hticket)
  refine of_perm rfl (.of_eq ?_) (fun other hother ↦ ?_) (Nat.le_refl _) fun _ hcompletion ↦
    hcompletion
  · unfold Traffic.unfinished Traffic.proceed
    dsimp only
    rw [List.map_append, List.map_append, List.map_map, List.map_map, List.map_map]
    congr 1
    refine List.map_congr_left fun other hother ↦ ?_
    simp only [Function.comp_apply]
    split
    · rename_i h
      rw [hsame other hother h, hcall]
    · rfl
  · rcases List.mem_append.1 hother with hother | hother
    · obtain ⟨_, hmem, rfl⟩ := List.mem_map.1 hother
      obtain ⟨before, hbefore, rfl⟩ := List.mem_map.1 hmem
      have hold := hfollowed _ (List.mem_append_left _ (List.mem_map_of_mem hbefore))
      split
      · rename_i h
        rw [hsame before hbefore h] at hold
        rw [htimer, hcall]
        exact hold
      · exact hold
    · exact hfollowed other (List.mem_append_right _ hother)

/-- An execution that ends closes its call with the outcome that is delivered. -/
theorem conclude {execution : Execution} {response : Response} {outcome : Except Status Unit}
    (hexecution : execution ∈ server.traffic.running)
    (hsingle : (server.traffic.counts execution.job.ticket).running ≤ 1) :
    Effect metered server (server.conclude execution.job response outcome) []
      [⟨execution.job.call, execution.job.timer.endCompute server.now,
        (execution.job.conclude response outcome).status.isOk, server.now⟩] := by
  have hticket : (execution.job.conclude response outcome).ticket = execution.job.ticket := by
    rw [Job.conclude_eq]
  have hrunning : (server.traffic.running.map (·.job.call)).Perm (execution.job.call ::
      (server.traffic.running.filter (·.job.ticket ≠ execution.job.ticket)).map (·.job.call)) :=
    (perm_cons_filter (fun execution : Execution ↦ execution.job.ticket) hexecution
      hsingle).map _
  have hjob := hfollowed execution.job (List.mem_append_left _ (List.mem_map_of_mem hexecution))
  refine ⟨rfl, ?_, fun other hother ↦ ?_, fun entry hentry ↦ ?_, fun entry hentry _ ↦ ?_, ?_,
    fun completion hcompletion ↦ ?_⟩
  · unfold State.conclude Traffic.complete Traffic.unfinished
    dsimp only
    rw [hticket, List.nil_append, List.map_append, List.map_append, List.map_map, List.map_map,
      List.map_singleton, ← List.append_assoc]
    exact hrunning.append_right _
  · unfold State.conclude Traffic.complete at hother
    rcases List.mem_append.1 hother with hother | hother
    · obtain ⟨other, hmem, rfl⟩ := List.mem_map.1 hother
      exact hfollowed _
        (List.mem_append_left _ (List.mem_map_of_mem (List.mem_of_mem_filter hmem)))
    · exact hfollowed other (List.mem_append_right _ hother)
  · obtain rfl := List.mem_singleton.1 hentry
    exact ⟨hjob.model, hjob.version, hjob.batch, hjob.label, hjob.unfinished⟩
  · obtain rfl := List.mem_singleton.1 hentry
    exact List.countP_pos_iff.2 ⟨execution, hexecution, decide_eq_true rfl⟩
  · have houtbox : (server.conclude execution.job response outcome).traffic.outbox =
        server.traffic.outbox ++ [execution.job.conclude response outcome] := rfl
    rw [newlySucceeded, houtbox, List.drop_left, Server.ended]
    cases hok : (execution.job.conclude response outcome).status.isOk with
    | true => simp [hok, hticket, Job.call]
    | false => simp [hok]
  · rcases hcompletion with hcompletion | hcompletion
    · rcases List.mem_append.1 hcompletion with hcompletion | hcompletion
      · exact .inl (.inl hcompletion)
      · obtain rfl := List.mem_singleton.1 hcompletion
        exact .inr ⟨_, List.mem_singleton_self _, hticket.symm, rfl⟩
    · exact .inl (.inr hcompletion)

/-- Giving up closes every open call. -/
theorem giveUp : Effect metered server { server with
      phase := .abandoned
      books := dropTimers server.now server.books server.traffic.unfinished
      traffic := server.traffic.abandon } []
    (server.traffic.unfinished.map fun job ↦ ⟨job.call, job.timer, false, server.now⟩) := by
  refine ⟨?_, ?_, nofun, fun entry hentry ↦ ?_, fun entry hentry hsuccess ↦ ?_, ?_,
    fun completion hcompletion ↦ ?_⟩
  · rw [List.foldl_map]
    rfl
  · rw [List.nil_append, List.map_map]
    exact .of_eq (List.append_nil _).symm
  · obtain ⟨job, hjob, rfl⟩ := List.mem_map.1 hentry
    exact hfollowed job hjob
  · obtain ⟨job, -, rfl⟩ := List.mem_map.1 hentry
    cases hsuccess
  · rw [newlySucceeded_of_length_le (Nat.zero_le _), Server.ended, List.filter_map]
    simp [Function.comp_def]
  · rcases hcompletion with hcompletion | hcompletion
    · cases hcompletion
    · exact .inl (.inr hcompletion)

/-- Every step has an effect. -/
theorem exists_of_act (hact : server.act action = some next)
    (hconsistent : Consistent server.backends server.books.status)
    (hmetered : ∀ model version backend,
      server.backends.version? model version = some backend → backend.metered = metered)
    (hbalanced : ∀ t, ∃ n ≤ 1, Counts.Balanced server.phase n (server.traffic.counts t)) :
    ∃ closed, Effect metered server next (server.resolved action) closed := by
  have hsingle : ∀ t, (server.traffic.counts t).waiting ≤ 1 ∧
      (server.traffic.counts t).running ≤ 1 := by
    intro t
    obtain ⟨n, hn, hcounts⟩ := hbalanced t
    have hle := hcounts.total_le
    unfold Counts.total at hle
    omega
  cases action with
  | accept ticket =>
    obtain ⟨entrant, hentrant, rfl⟩ := Option.map_eq_some_iff.1 hact
    exact accept hfollowed hconsistent hmetered hentrant
  | start model version =>
    obtain ⟨backend, -, hstart⟩ := Option.bind_eq_some_iff.1 hact
    obtain ⟨-, hstart⟩ := Option.ite_none_right_eq_some.1 hstart
    obtain ⟨job, hjob, rfl⟩ := Option.map_eq_some_iff.1 hstart
    exact ⟨[], startJob hfollowed (List.mem_of_find?_eq_some hjob) (hsingle _).1⟩
  | work ticket =>
    cases State.step_of_act hact with
    | conclude hexecution hadvance houtcome =>
      exact ⟨_, conclude hfollowed (List.mem_of_find?_eq_some hexecution) (hsingle _).2⟩
    | pause hexecution hadvance =>
      exact ⟨[], proceed hfollowed (List.mem_of_find?_eq_some hexecution) (hsingle _).2 rfl rfl rfl⟩
  | resume ticket =>
    cases State.step_of_act hact with
    | resume hexecution =>
      exact ⟨[], proceed hfollowed (List.mem_of_find?_eq_some hexecution) (hsingle _).2 rfl rfl rfl⟩
  | watch ticket =>
    cases State.step_of_act hact with
    | watch hentrant hphase => exact ⟨[], of_same hfollowed rfl rfl rfl rfl⟩
    | watchLate hentrant hphase =>
      have hnone : server.traffic.unfinished = [] := by
        rw [List.eq_nil_iff_forall_not_mem]
        intro job hjob
        obtain ⟨n, -, hcounts⟩ := hbalanced job.ticket
        have hzero := (hcounts.givenUp hphase).2
        rcases List.mem_append.1 hjob with hjob | hjob
        · obtain ⟨execution, hexecution, rfl⟩ := List.mem_map.1 hjob
          have hpos : 0 < (server.traffic.counts execution.job.ticket).running :=
            List.countP_pos_iff.2 ⟨execution, hexecution, decide_eq_true rfl⟩
          omega
        · have hpos := Traffic.waiting_pos hjob
          omega
      refine ⟨[], of_perm rfl ?_ nofun (Nat.zero_le _) fun completion hcompletion ↦ ?_⟩
      · rw [hnone]
        exact .refl _
      · exact .inr (hcompletion.resolve_left List.not_mem_nil)
  | check ticket =>
    cases State.step_of_act hact with
    | turnAway hentrant hclosed => exact ⟨[], of_same hfollowed rfl rfl rfl rfl⟩
    | letIn hentrant hopen => exact ⟨[], of_same hfollowed rfl rfl rfl rfl⟩
  | deliver ticket =>
    cases State.step_of_act hact with
    | deliver hwatched hcompletion =>
      refine ⟨[], of_perm rfl (.refl _) hfollowed (List.length_filter_le _ _)
        fun completion hmem ↦ ?_⟩
      rcases hmem with hmem | hmem
      · exact .inl (List.mem_of_mem_filter hmem)
      · rcases List.mem_append.1 hmem with hmem | hmem
        · exact .inr hmem
        · obtain rfl := List.mem_singleton.1 hmem
          exact .inl (List.mem_of_find?_eq_some hcompletion)
  | giveUp =>
    cases State.step_of_act hact with
    | giveUp hphase => exact ⟨_, giveUp hfollowed⟩
  | _ =>
    cases State.step_of_act hact with
    | _ => exact ⟨[], of_same hfollowed rfl rfl rfl rfl⟩

end Effect

/-! ## Calls do not repeat -/

theorem State.countP_resolved_le (t : Ticket) :
    (server.resolved (.accept ticket)).countP (·.ticket = t) ≤ if t = ticket then 1 else 0 := by
  rw [resolved]
  split
  · exact Nat.zero_le _
  · dsimp only
    split
    · exact Nat.zero_le _
    · by_cases h : t = ticket
      · simp [h]
      · simp [h, Ne.symm h]

/-- A submission opens a call or is refused only while it is on its way in. -/
theorem Step.arriving_le {t : Ticket} {n : Nat} (hstep : Step server action next)
    (hbalanced : Counts.Balanced server.phase n (server.traffic.counts t))
    (hn : n + action.arrivals.countP (·.1 = t) ≤ 1) :
    (server.resolved action).countP (·.ticket = t) + (next.traffic.counts t).arriving ≤
        (server.traffic.counts t).arriving + action.arrivals.countP (·.1 = t) ∧
      (next.traffic.counts t).refused ≤
        (server.traffic.counts t).refused + (server.traffic.counts t).arriving := by
  cases hstep with
  | enter ticket submission =>
    rw [Traffic.counts_enter]
    by_cases h : t = ticket
    · subst h
      simp [State.resolved, Action.arrivals]
    · simp [State.resolved, Action.arrivals, h, Ne.symm h]
  | @turnAway ticket entrant hentrant _ =>
    have hpos := Traffic.arriving_pos hentrant (by decide)
    rw [Traffic.counts_refuse]
    split
    · rename_i h
      subst h
      exact ⟨Nat.zero_le _, by dsimp only; omega⟩
    · exact ⟨Nat.le_of_eq (Nat.zero_add _), Nat.le_add_right _ _⟩
  | @letIn ticket entrant hentrant hopen =>
    rw [Traffic.counts_advance (by decide)]
    split
    · rename_i h
      subst h
      have hpos := Traffic.arriving_pos hentrant (by decide)
      have hsettling := hbalanced.settling_eq_zero (Nat.le_of_add_right_le hn)
        (Phase.ne_abandoned hopen) hpos
      simp only [State.resolved, List.countP_nil]
      omega
    · exact ⟨Nat.le_of_eq (Nat.zero_add _), Nat.le_add_right _ _⟩
  | @reject ticket entrant timer status hentrant =>
    have hpos := Traffic.arriving_pos hentrant (by decide)
    have hcalls := @State.countP_resolved_le server ticket t
    rw [State.refuse, Traffic.counts_refuse]
    split
    · rename_i h
      subst h
      rw [if_pos rfl] at hcalls
      dsimp only
      omega
    · rename_i h
      rw [if_neg h] at hcalls
      omega
  | @enqueue ticket entrant backend request response timer hentrant _ _ _ _ =>
    have hpos := Traffic.arriving_pos hentrant (by decide)
    have hcalls := @State.countP_resolved_le server ticket t
    rw [Traffic.counts_enqueue]
    split
    · rename_i h
      subst h
      rw [if_pos rfl] at hcalls
      dsimp only
      omega
    · rename_i h
      rw [if_neg h] at hcalls
      omega
  | watch hentrant hphase =>
    rw [Traffic.counts_watch]
    split
    · exact ⟨Nat.zero_le _, Nat.le_add_right _ _⟩
    · exact ⟨Nat.le_of_eq (Nat.zero_add _), Nat.le_add_right _ _⟩
  | watchLate hentrant hphase =>
    rw [Traffic.counts_abandon, Traffic.counts_watch]
    split
    · exact ⟨Nat.zero_le _, Nat.le_add_right _ _⟩
    · exact ⟨Nat.le_of_eq (Nat.zero_add _), Nat.le_add_right _ _⟩
  | _ => exact ⟨Nat.le_of_eq (Nat.zero_add _), Nat.le_add_right _ _⟩

end TensorInference.Server
