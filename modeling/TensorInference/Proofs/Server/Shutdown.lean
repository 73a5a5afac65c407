import TensorInference.Proofs.Server.ExactlyOnce
import TensorInference.Proofs.Server.Guards
import TensorInference.Proofs.Server.Phase

/-!
# Shutting down

Callers take a guard before they look whether the server is closed, and whoever stops the server
closes it before looking whether a guard is left. So when no guard is left after closing, nobody
was let in who could still be admitted, every job that was admitted is delivered, and whoever comes
later finds the server closed. It is told so and leaves no trace in the books.
-/

namespace TensorInference.Server

open Model Inference

variable {start server next final : State} {action : Action} {actions later : List Action}
  {t : Ticket} {model : String} {version : UInt64}

/-! ## Nobody is let in any more -/

/-- A closed server whose callers have all still to find it closed. -/
structure Shut (server : State) : Prop where
  closed : server.phase.isClosed = true
  entrants : ∀ entrant ∈ server.traffic.entrants, entrant.arrival = .entered

theorem Shut.arrival_eq (h : Shut server) {arrival : Arrival} {entrant : Entrant}
    (hentrant : server.traffic.entrant? t arrival = some entrant) : arrival = .entered := by
  obtain ⟨hmem, -, harrival⟩ := Traffic.mem_of_entrant? hentrant
  rw [← harrival, h.entrants entrant hmem]

/-- A step of such a server admits nobody and lets nobody in. -/
theorem Step.shut (hstep : Step server action next) (h : Shut server) :
    Shut next ∧ ∀ model version, newlyWaiting model version server next = [] := by
  have hfewer : ∀ u, ∀ entrant ∈ server.traffic.entrants.filter (·.ticket ≠ u),
      entrant.arrival = .entered :=
    fun u entrant hentrant ↦ h.entrants entrant (List.mem_of_mem_filter hentrant)
  have hsame : ∀ {next : State}, next.traffic.waiting.length ≤ server.traffic.waiting.length →
      ∀ model version, newlyWaiting model version server next = [] :=
    fun hle _ _ ↦ newlyWaiting_of_length_le hle
  cases hstep with
  | enter ticket submission =>
    refine ⟨⟨h.closed, fun entrant hentrant ↦ ?_⟩, hsame (Nat.le_refl _)⟩
    rcases List.mem_append.1 hentrant with hentrant | hentrant
    · exact h.entrants entrant hentrant
    · obtain rfl := List.mem_singleton.1 hentrant
      rfl
  | turnAway hentrant hclosed => exact ⟨⟨h.closed, hfewer _⟩, hsame (Nat.le_refl _)⟩
  | letIn hentrant hopen =>
    rw [h.closed] at hopen
    cases hopen
  | reject timer status hentrant => cases h.arrival_eq hentrant
  | enqueue timer hentrant hresolve hprepare hphase hroom => cases h.arrival_eq hentrant
  | watch hentrant hphase => cases h.arrival_eq hentrant
  | watchLate hentrant hphase => cases h.arrival_eq hentrant
  | beginStop hphase =>
    have hclosed := h.closed
    rw [hphase] at hclosed
    cases hclosed
  | announce hphase =>
    have hclosed := h.closed
    rw [hphase] at hclosed
    cases hclosed
  | close hphase => exact ⟨⟨rfl, h.entrants⟩, hsame (Nat.le_refl _)⟩
  | observeIdle hphase hidle => exact ⟨⟨rfl, h.entrants⟩, hsame (Nat.le_refl _)⟩
  | giveUp hphase => exact ⟨⟨rfl, h.entrants⟩, hsame (Nat.zero_le _)⟩
  | start timer hbackend hfree hjob =>
    exact ⟨⟨h.closed, h.entrants⟩, hsame (List.length_filter_le _ _)⟩
  | _ => exact ⟨⟨h.closed, h.entrants⟩, hsame (Nat.le_refl _)⟩

theorem Shut.admissions_eq_nil (h : Shut server) (hrun : server.run later = some final) :
    server.admissions model version later = [] := by
  have hall := @State.run_induction final server
    (fun later final ↦ Shut final ∧ server.admissions model version later = []) ⟨h, rfl⟩ ?_
    later hrun
  · exact hall.2
  · rintro later final action next hrun ⟨hshut, hnone⟩ hact
    obtain ⟨hnext, hnew⟩ := (State.step_of_act hact).shut hshut
    refine ⟨hnext, ?_⟩
    rw [State.admissions, State.log_append_singleton hrun hact, hnew, List.append_nil]
    exact hnone

/-! ## Whoever comes later is turned away -/

/-- A submission that came `n` times after closing: it has still to find the server closed or was
told so, and never got further. -/
structure TurnedAway (server : State) (t : Ticket) (n : Nat) : Prop where
  closed : server.phase.isClosed = true
  entrants : ∀ entrant ∈ server.traffic.entrants, entrant.ticket = t → entrant.arrival = .entered
  told : ∀ status, (t, status) ∈ server.traffic.refused →
    status = .unavailable "server is shutting down"
  once : (server.traffic.counts t).arriving + (server.traffic.counts t).refused = n
  unserved : (server.traffic.counts t).waiting = 0 ∧ (server.traffic.counts t).running = 0 ∧
    (server.traffic.counts t).outbox = 0 ∧ (server.traffic.counts t).delivered = 0

namespace TurnedAway

variable {n : Nat}

theorem arrival_eq (h : TurnedAway server t n) {arrival : Arrival} {entrant : Entrant}
    (hentrant : server.traffic.entrant? t arrival = some entrant) : arrival = .entered := by
  obtain ⟨hmem, hticket, harrival⟩ := Traffic.mem_of_entrant? hentrant
  rw [← harrival, h.entrants entrant hmem hticket]

theorem ne_of_entrant (h : TurnedAway server t n) {u : Ticket} {arrival : Arrival}
    {entrant : Entrant} (hentrant : server.traffic.entrant? u arrival = some entrant)
    (harrival : arrival ≠ .entered) : t ≠ u := by
  rintro rfl
  exact harrival (h.arrival_eq hentrant)

/-- A change that leaves the counts of the submission alone and adds nothing about it. -/
theorem of_counts (h : TurnedAway server t n) (hclosed : next.phase.isClosed = true)
    (hentrants : ∀ entrant ∈ next.traffic.entrants, entrant.ticket = t →
      entrant ∈ server.traffic.entrants)
    (hrefused : ∀ refusal ∈ next.traffic.refused, refusal.1 = t →
      refusal ∈ server.traffic.refused)
    (hcounts : next.traffic.counts t = server.traffic.counts t) : TurnedAway next t n where
  closed := hclosed
  entrants entrant hentrant ht := h.entrants entrant (hentrants entrant hentrant ht) ht
  told status hstatus := h.told status (hrefused _ hstatus rfl)
  once := hcounts ▸ h.once
  unserved := hcounts ▸ h.unserved

theorem refuse (h : TurnedAway server t n) {u : Ticket} (hne : t ≠ u) (books : Books)
    (status : Status) :
    TurnedAway { server with books, traffic := server.traffic.refuse u status } t n := by
  refine h.of_counts h.closed (fun _ hentrant _ ↦ List.mem_of_mem_filter hentrant) ?_
    (by rw [Traffic.counts_refuse, if_neg hne])
  intro refusal hrefusal ht
  rcases List.mem_append.1 hrefusal with hrefusal | hrefusal
  · exact hrefusal
  · obtain rfl := List.mem_singleton.1 hrefusal
    exact absurd ht.symm hne

theorem enqueue (h : TurnedAway server t n) {job : Job} (hne : t ≠ job.ticket) :
    TurnedAway { server with traffic := server.traffic.enqueue job } t n := by
  refine h.of_counts h.closed ?_ (fun _ hrefusal _ ↦ hrefusal)
    (by rw [Traffic.counts_enqueue, if_neg hne])
  intro entrant hentrant ht
  obtain ⟨other, hother, rfl⟩ := List.mem_map.1 hentrant
  split at ht
  · rename_i hsame
    exact absurd (ht.symm.trans hsame) hne
  · rename_i hdifferent
    rw [if_neg hdifferent]
    exact hother

theorem watch (h : TurnedAway server t n) {u : Ticket} (hne : t ≠ u) :
    TurnedAway { server with traffic := server.traffic.watch u } t n :=
  h.of_counts h.closed (fun _ hentrant _ ↦ List.mem_of_mem_filter hentrant)
    (fun _ hrefusal _ ↦ hrefusal) (by rw [Traffic.counts_watch, if_neg hne])

theorem abandon (h : TurnedAway server t n) {phase : Phase} (hphase : phase.isClosed = true)
    (books : Books) :
    TurnedAway { server with phase, books, traffic := server.traffic.abandon } t n :=
  ⟨hphase, h.entrants, h.told, h.once, rfl, rfl, rfl, h.unserved.2.2.2⟩

theorem enter (h : TurnedAway server t n) (submission : Submission) :
    TurnedAway { server with traffic := server.traffic.enter t submission } t (n + 1) := by
  have hcounts := @Traffic.counts_enter server.traffic t t submission
  rw [if_pos rfl] at hcounts
  refine ⟨h.closed, fun entrant hentrant ht ↦ ?_, h.told, ?_, ?_⟩
  · rcases List.mem_append.1 hentrant with hentrant | hentrant
    · exact h.entrants entrant hentrant ht
    · obtain rfl := List.mem_singleton.1 hentrant
      rfl
  · have honce := h.once
    rw [hcounts]
    dsimp only
    omega
  · rw [hcounts]
    exact h.unserved

theorem turnAway (h : TurnedAway server t n) (hn : n ≤ 1) {entrant : Entrant}
    (hentrant : server.traffic.entrant? t .entered = some entrant) :
    TurnedAway { server with
      traffic := server.traffic.refuse t (.unavailable "server is shutting down") } t n := by
  have hpos := Traffic.arriving_pos hentrant (by decide)
  have hcounts := @Traffic.counts_refuse server.traffic t t (.unavailable "server is shutting down")
  rw [if_pos rfl] at hcounts
  refine ⟨h.closed, fun entrant hentrant ↦ h.entrants entrant (List.mem_of_mem_filter hentrant),
    fun status hstatus ↦ ?_, ?_, ?_⟩
  · rcases List.mem_append.1 hstatus with hstatus | hstatus
    · exact h.told status hstatus
    · exact (Prod.mk.inj (List.mem_singleton.1 hstatus)).2
  · have honce := h.once
    rw [hcounts]
    dsimp only
    omega
  · rw [hcounts]
    exact h.unserved

theorem step (hstep : Step server action next) (h : TurnedAway server t n)
    (hn : n + action.arrivals.countP (·.1 = t) ≤ 1) :
    TurnedAway next t (n + action.arrivals.countP (·.1 = t)) := by
  obtain ⟨hwaiting, hrunning, houtbox, -⟩ := h.unserved
  have hclosed := h.closed
  cases hstep with
  | enter ticket submission =>
    by_cases ht : t = ticket
    · subst ht
      simpa [Action.arrivals] using h.enter submission
    · have hother : TurnedAway
          { server with traffic := server.traffic.enter ticket submission } t n := by
        refine h.of_counts hclosed ?_ (fun _ hrefusal _ ↦ hrefusal)
          (by rw [Traffic.counts_enter, if_neg ht])
        intro entrant hentrant hticket
        rcases List.mem_append.1 hentrant with hentrant | hentrant
        · exact hentrant
        · obtain rfl := List.mem_singleton.1 hentrant
          exact absurd hticket.symm ht
      simpa [Action.arrivals, Ne.symm ht] using hother
  | @turnAway ticket entrant hentrant _ =>
    by_cases ht : t = ticket
    · subst ht
      exact h.turnAway hn hentrant
    · exact h.refuse ht server.books _
  | letIn hentrant hopen =>
    rw [hclosed] at hopen
    cases hopen
  | reject timer status hentrant =>
    exact h.refuse (h.ne_of_entrant hentrant (by decide)) _ status
  | enqueue timer hentrant hresolve hprepare hphase hroom =>
    exact h.enqueue (h.ne_of_entrant hentrant (by decide))
  | watch hentrant hphase => exact h.watch (h.ne_of_entrant hentrant (by decide))
  | watchLate hentrant hphase =>
    exact (h.watch (h.ne_of_entrant hentrant (by decide))).abandon hclosed server.books
  | @start _ _ backend job timer hbackend hfree hjob =>
    have hne : t ≠ job.ticket := by
      rintro rfl
      have hpos := Traffic.waiting_pos (List.mem_of_find?_eq_some hjob)
      omega
    exact h.of_counts hclosed (fun _ hentrant _ ↦ hentrant) (fun _ hrefusal _ ↦ hrefusal)
      (by rw [Traffic.counts_start, if_neg hne])
  | @conclude ticket execution response pause outcome hexecution hadvance houtcome =>
    obtain ⟨rfl, hpos⟩ := Traffic.running_pos hexecution
    have hne : t ≠ execution.job.ticket := by
      rintro rfl
      omega
    refine h.of_counts hclosed (fun _ hentrant _ ↦ hentrant) (fun _ hrefusal _ ↦ hrefusal) ?_
    rw [State.conclude, Traffic.counts_complete, Job.conclude_eq, if_neg hne]
  | pause hexecution hadvance =>
    exact h.of_counts hclosed (fun _ hentrant _ ↦ hentrant) (fun _ hrefusal _ ↦ hrefusal)
      Traffic.counts_proceed
  | resume hexecution =>
    exact h.of_counts hclosed (fun _ hentrant _ ↦ hentrant) (fun _ hrefusal _ ↦ hrefusal)
      Traffic.counts_proceed
  | @deliver ticket completion hwatched hcompletion =>
    obtain ⟨rfl, hpos⟩ := Traffic.outbox_pos hcompletion
    have hne : t ≠ completion.ticket := by
      rintro rfl
      omega
    exact h.of_counts hclosed (fun _ hentrant _ ↦ hentrant) (fun _ hrefusal _ ↦ hrefusal)
      (by rw [Traffic.counts_deliver, if_neg hne])
  | beginStop hphase =>
    rw [hphase] at hclosed
    cases hclosed
  | announce hphase =>
    rw [hphase] at hclosed
    cases hclosed
  | giveUp hphase => exact h.abandon rfl _
  | close hphase | observeIdle hphase hidle =>
    exact h.of_counts rfl (fun _ hentrant _ ↦ hentrant) (fun _ hrefusal _ ↦ hrefusal) rfl
  | leave | pass =>
    exact h.of_counts hclosed (fun _ hentrant _ ↦ hentrant) (fun _ hrefusal _ ↦ hrefusal) rfl

/-- Whatever happens after closing, a submission that came after it is turned away. -/
theorem of_run (hnew : TurnedAway server t 0) (hrun : server.run later = some final)
    (hn : (entered later).countP (·.1 = t) ≤ 1) :
    TurnedAway final t ((entered later).countP (·.1 = t)) := by
  have hall := @State.run_induction final server
    (fun later final ↦ (entered later).countP (·.1 = t) ≤ 1 →
      TurnedAway final t ((entered later).countP (·.1 = t))) (fun _ ↦ hnew) ?_ later hrun
  · exact hall hn
  · intro later final action next _ ih hact hle
    rw [entered_append_singleton, List.countP_append] at hle ⊢
    exact (ih (by omega)).step (State.step_of_act hact) hle

/-- No action of the submission changes the books. -/
theorem books_eq (h : TurnedAway server t n) (hticket : action.ticket? = some t)
    (hact : server.act action = some next) : next.books = server.books := by
  cases State.step_of_act hact with
  | reject timer status hentrant =>
    obtain rfl := Option.some.inj hticket
    cases h.arrival_eq hentrant
  | conclude hexecution hadvance houtcome =>
    obtain rfl := Option.some.inj hticket
    have hpos := (Traffic.running_pos hexecution).2
    have hzero := h.unserved.2.1
    omega
  | giveUp hphase => cases hticket
  | _ => rfl

end TurnedAway

/-- Nothing in the traffic has a ticket that was not used. -/
theorem Sound.turnedAway (h : Sound start server actions) (hclosed : server.phase.isClosed = true)
    (ht : (entered actions).countP (·.1 = t) = 0) : TurnedAway server t 0 := by
  have hle := (h.balanced t).total_le
  unfold Counts.total at hle
  refine ⟨hclosed, fun entrant hentrant hticket ↦ ?_, fun status hstatus ↦ ?_, by omega, by omega⟩
  · have hentered := h.faithful.entrants entrant hentrant
    exact absurd (decide_eq_true hticket) (List.countP_eq_zero.1 ht _ hentered)
  · have hpos : 0 < (server.traffic.counts t).refused :=
      List.countP_pos_iff.2 ⟨_, hstatus, decide_eq_true rfl⟩
    omega

/-! ## Counting guards -/

/-- The guards that a step releases, or takes if the states are exchanged. -/
def released (server next : State) : List Ticket :=
  server.traffic.guards.filter (· ∉ next.traffic.guards)

theorem length_released_add {l m : List Ticket} (hl : l.Nodup) (hm : m.Nodup) :
    (l.filter (· ∉ m)).length + m.length = (m.filter (· ∉ l)).length + l.length := by
  have hcommon : (l.filter (· ∈ m)).Perm (m.filter (· ∈ l)) := by
    rw [List.perm_ext_iff_of_nodup (hl.filter _) (hm.filter _)]
    intro t
    simp only [List.mem_filter, decide_eq_true_eq]
    exact and_comm
  have hleft := l.length_eq_length_filter_add (· ∈ m)
  have hright := m.length_eq_length_filter_add (· ∈ l)
  have hlength := hcommon.length_eq
  simp only [← decide_not] at hleft hright
  omega

theorem guarded_of_run (htraffic : start.traffic = {}) (hrun : start.run actions = some server)
    (hfresh : ((entered actions).map (·.1)).Nodup) :
    Guarded ((entered actions).map (·.1)) server.traffic := by
  have hall := @State.run_induction server start
    (fun actions server ↦ ((entered actions).map (·.1)).Nodup →
      Guarded ((entered actions).map (·.1)) server.traffic) ?_ ?_ actions hrun
  · exact hall hfresh
  · intro _
    rw [htraffic]
    exact ⟨rfl, List.nodup_nil, nofun⟩
  · intro actions server action next _ ih hact hfresh
    rw [entered_append_singleton, List.map_append] at hfresh ⊢
    obtain ⟨hbefore, -, hdisjoint⟩ := List.nodup_append.1 hfresh
    exact (State.step_of_act hact).guarded (ih hbefore) fun arrival harrival hmem ↦
      hdisjoint _ hmem _ (List.mem_map_of_mem harrival) rfl

/-! ## Stopping from outside -/

namespace State

/-- A closed server answers a submission at once and stays as it is. -/
theorem submit_of_closed (hclosed : server.phase.isClosed = true)
    (hnew : server.traffic.IsNew t) (submission : Submission) :
    server.submit t submission = (server, .error (.unavailable "server is shutting down")) := by
  have henter : server.attempt (.enter t submission) = server.withEntrant t submission .entered :=
    rfl
  have hcheck : (server.withEntrant t submission .entered).attempt (.check t) =
      { server with traffic := { server.traffic with
        refused := server.traffic.refused ++ [(t, .unavailable "server is shutting down")] } } := by
    rw [attempt, act, entrant?_withEntrant hnew, if_pos rfl, Option.map_some, Option.getD_some,
      if_pos (by exact hclosed), Traffic.refuse, filter_withEntrant hnew]
    rfl
  rw [submit, List.foldl_cons, List.foldl_cons, List.foldl_cons, List.foldl_cons, List.foldl_nil,
    henter, hcheck]
  simp [attempt, act, Traffic.entrant?, hnew.find?_entrants, Traffic.refused?, Traffic.forget,
    List.find?_append, find?_refused hnew, hnew.filter_refused]

/-- The actions that a server settles by. -/
theorem nextAction?_isProgress (h : server.nextAction? = some action) :
    action.isProgress = true := by
  unfold nextAction? at h
  simp only [Option.or_eq_some_iff, Option.map_eq_some_iff] at h
  rcases h with ⟨_, _, rfl⟩ | ⟨-, ⟨_, _, rfl⟩ | ⟨-, ⟨_, _, rfl⟩ | ⟨-, _, _, rfl⟩⟩⟩
  all_goals rfl

theorem phase_of_isProgress (hprogress : action.isProgress = true)
    (hact : server.act action = some next) : next.phase = server.phase := by
  cases step_of_act hact with
  | beginStop | announce | close | observeIdle | giveUp => cases hprogress
  | _ => rfl

theorem phase_settle : server.settle.phase = server.phase := by
  have hwithin : ∀ (fuel : Nat) (server : State),
      (server.settleWithin fuel).phase = server.phase := by
    intro fuel
    induction fuel with
    | zero => exact fun _ ↦ rfl
    | succ fuel ih =>
      intro server
      rw [settleWithin]
      split
      · rename_i next hnext
        obtain ⟨action, haction, hact⟩ := Option.bind_eq_some_iff.1 hnext
        rw [ih, phase_of_isProgress (nextAction?_isProgress haction) hact]
      · rfl
  exact hwithin _ server

/-- Whoever stops a serving server finds it at rest in the end, or gives up what is left. -/
theorem phase_stop (hphase : server.phase = .serving) :
    server.stop.phase = .drained ∨ server.stop.phase = .abandoned := by
  have hclosed : ([Action.beginStop, .announce, .close].foldl attempt server).settle.phase =
      .closed := by
    rw [phase_settle]
    simp [attempt, act, hphase]
  rw [stop, if_pos hphase, close]
  generalize ([Action.beginStop, .announce, .close].foldl attempt server).settle = settled
    at hclosed ⊢
  by_cases hidle : settled.traffic.inFlight = 0
  · simp [attempt, act, hclosed, hidle]
  · simp [attempt, act, hclosed, hidle]

/-- A second stop finds nothing to do. -/
theorem stop_stop : server.stop.stop = server.stop := by
  by_cases hphase : server.phase = .serving
  · have hstopped : server.stop.phase ≠ .serving := by
      rcases phase_stop hphase with h | h
      · rw [h]
        decide
      · rw [h]
        decide
    rw [stop, if_neg hstopped]
  · have hsame : server.stop = server := by rw [stop, if_neg hphase]
    rw [hsame, hsame]

/-- A quiescent server that did not give up has nothing in flight, so the drain ends. -/
theorem Quiescent.inFlight_eq_zero (h : server.Quiescent) (hmodels : SameModels start server)
    (hconsistent : Consistent start.backends start.books.status)
    (hsound : Sound start server actions) (hphase : server.phase ≠ .abandoned)
    (hcount : server.traffic.inFlight = server.traffic.guards.length) :
    server.traffic.inFlight = 0 := by
  have hleaving : server.traffic.leaving = [] := by
    rw [List.eq_nil_iff_forall_not_mem]
    intro ticket hticket
    have hnone := h (.leave ticket) rfl
    rw [act, if_pos (List.contains_iff_mem.2 hticket)] at hnone
    cases hnone
  have hwatched : server.traffic.watched = [] := by
    rw [List.eq_nil_iff_forall_not_mem]
    intro ticket hticket
    have hpos : 0 < (server.traffic.counts ticket).watched :=
      List.countP_pos_iff.2 ⟨ticket, hticket, decide_eq_true rfl⟩
    obtain ⟨-, hwaiting, hrunning, houtbox⟩ :=
      @unfinished_eq_zero start server actions ticket h hmodels hconsistent hsound
    have howed := ((hsound.balanced ticket).kept hphase).2
    omega
  rw [hcount, Traffic.guards, h.entrants_eq_nil, hwatched, hleaving]
  rfl

end State

/-! ## The drain -/

/-- When the drain finds nothing in flight, every job that was admitted is delivered. -/
theorem Sound.delivered_of_idle (h : Sound start server actions)
    (hfresh : ((entered actions).map (·.1)).Nodup) (hphase : server.phase ≠ .abandoned)
    (hguards : server.traffic.guards = [])
    (hadmitted : t ∈ start.admissions model version actions) :
    (server.traffic.counts t).delivered = 1 := by
  rw [Traffic.guards, List.append_eq_nil_iff, List.append_eq_nil_iff, List.map_eq_nil_iff]
    at hguards
  obtain ⟨⟨hentrants, hwatched⟩, -⟩ := hguards
  have howed := ((h.balanced t).kept hphase).2
  have hsettling : (server.traffic.counts t).settling = 0 := by
    change server.traffic.entrants.countP _ = 0
    rw [hentrants, List.countP_nil]
  have hwatchers : (server.traffic.counts t).watched = 0 := by
    change server.traffic.watched.countP _ = 0
    rw [hwatched, List.countP_nil]
  obtain ⟨-, hstage⟩ := h.stage_of_admitted hfresh hphase hadmitted
  omega

/-- Whoever submits to a closed server is turned away, whatever others do meanwhile. -/
theorem Sound.turnedAway_of_run (h : Sound start server actions)
    (hclosed : server.phase.isClosed = true) (hrun : server.run later = some final)
    (hfresh : ((entered (actions ++ later)).map (·.1)).Nodup) {submission : Ticket × Submission}
    (hsubmission : submission ∈ entered later) : TurnedAway final submission.1 1 := by
  have hle := countP_entered_le hfresh submission.1
  have hpos : 0 < (entered later).countP (·.1 = submission.1) :=
    List.countP_pos_iff.2 ⟨submission, hsubmission, decide_eq_true rfl⟩
  rw [entered_append, List.countP_append] at hle
  have hone : (entered later).countP (·.1 = submission.1) = 1 := by omega
  have haway := TurnedAway.of_run (h.turnedAway hclosed (by omega)) hrun (Nat.le_of_eq hone)
  rwa [hone] at haway

/-- A submission that is turned away was not admitted. -/
theorem Sound.not_admitted_of_turnedAway (h : Sound start server actions)
    (hfresh : ((entered actions).map (·.1)).Nodup) (haway : TurnedAway server t 1) :
    t ∉ start.admissions model version actions := by
  intro hadmitted
  have hle := countP_entered_le hfresh t
  have honce := h.admittedOnce model version t
  have hcount := List.count_pos_iff.2 hadmitted
  have hanswered := haway.once
  rw [AdmittedOnce] at honce
  omega

/-- A server is live from its creation on. -/
theorem State.isLive_eq_true (server : State) : server.isLive = true := by
  rcases server.phase.state_eq with hstate | hstate
  · rw [isLive, hstate]
    rfl
  · rw [isLive, hstate]
    rfl

theorem shut_of_idle (hclosed : server.phase.isClosed = true)
    (hguards : server.traffic.guards = []) : Shut server := by
  refine ⟨hclosed, fun entrant hentrant ↦ ?_⟩
  rw [Traffic.guards, List.append_eq_nil_iff, List.append_eq_nil_iff, List.map_eq_nil_iff]
    at hguards
  rw [hguards.1.1] at hentrant
  cases hentrant

/-- How a server shuts down, as seen after a run. -/
structure Shutdown (start server : State) (actions : List Action) : Prop where
  /-- The count of what is in flight is the number of the guards, -/
  count : server.traffic.inFlight = server.traffic.guards.length ∧ server.traffic.guards.Nodup
  /-- and it goes up and down with them, never below zero. -/
  changes : ∀ action next, server.act action = some next →
    ((entered (actions ++ [action])).map (·.1)).Nodup →
      next.traffic.inFlight + (released server next).length =
        server.traffic.inFlight + (released next server).length
  /-- The drain ends when nothing can come on. -/
  idle : server.phase ≠ .abandoned → server.Quiescent → server.traffic.inFlight = 0
  /-- When the drain finds nothing in flight, every admitted submission has had its callback run, -/
  drained : ∀ next, server.act .observeIdle = some next → .close ∈ actions ∧
    ∀ model version, ∀ ticket ∈ start.admissions model version actions,
      (server.traffic.counts ticket).delivered = 1
  /-- and none is admitted any more. -/
  rest : ∀ later final, server.act .observeIdle ≠ none →
    start.run (actions ++ .observeIdle :: later) = some final →
      ∀ model version, start.admissions model version (actions ++ .observeIdle :: later) =
        start.admissions model version actions
  /-- Whoever submits after closing is told so, and nothing else changes. -/
  closed : .close ∈ actions → ∀ ticket submission, server.traffic.IsNew ticket →
    server.submit ticket submission = (server, .error (.unavailable "server is shutting down"))
  /-- The same holds if others go on meanwhile: no step of the submission changes the books. -/
  late : .close ∈ actions → ∀ later final, server.run later = some final →
    ((entered (actions ++ later)).map (·.1)).Nodup → ∀ submission ∈ entered later,
      TurnedAway final submission.1 1 ∧
        (∀ model version, submission.1 ∉ start.admissions model version (actions ++ later)) ∧
        ∀ action next, action.ticket? = some submission.1 → final.act action = some next →
          next.books = final.books
  /-- The reported state is ready before the announcement and exiting after it. -/
  state : server.isLive = true ∧ (server.phase.state = .exiting ↔ .announce ∈ actions) ∧
    (.announce ∈ actions → server.isReady = false)
  /-- Whoever stops a server that is already being stopped changes nothing. -/
  again : .beginStop ∈ actions → server.act .beginStop = none ∧ server.stop = server
  /-- The first to stop it leaves it closed, at rest or with what is left given up. -/
  stopped : .beginStop ∉ actions →
    (server.stop.phase = .drained ∨ server.stop.phase = .abandoned) ∧
      server.stop.stop = server.stop ∧
      ∀ ticket submission, server.stop.traffic.IsNew ticket →
        server.stop.submit ticket submission =
          (server.stop, .error (.unavailable "server is shutting down"))

/-- A server drains and closes, whatever its callers do meanwhile. -/
theorem shutdown_of_run {files : Files.Tree} {registry : Platform.Registry} {freshId : String}
    {options : Options} (hcreate : State.create files registry freshId options = .ok start)
    (hrun : start.run actions = some server) (hfresh : ((entered actions).map (·.1)).Nodup) :
    Shutdown start server actions := by
  obtain ⟨htraffic, hphase⟩ := State.traffic_of_create hcreate
  have hconsistent := State.consistent_of_create hcreate
  have hmodels := sameModels_of_run hrun
  have hsound := Sound.of_create hcreate hrun hfresh
  have hguarded := guarded_of_run htraffic hrun hfresh
  have hreached := Phase.Reached.of_run hphase hrun
  have hidle : ∀ {next}, server.act .observeIdle = some next →
      server.phase = .closed ∧ server.traffic.guards = [] ∧
        next = { server with phase := .drained } := by
    intro next hact
    cases State.step_of_act hact with
    | observeIdle hphase hidle =>
      exact ⟨hphase, List.length_eq_zero_iff.1 (hguarded.count.symm.trans hidle), rfl⟩
  refine ⟨⟨hguarded.count, hguarded.nodup⟩, fun action next hact hfresh ↦ ?_,
    fun hphase hquiescent ↦ ?_, fun next hact ↦ ?_, fun later final hact hrun' ↦ ?_,
    fun hclose ticket submission hnew ↦ ?_, fun hclose later final hlater hfresh ↦ ?_, ?_,
    fun hstop ↦ ?_, fun hstop ↦ ?_⟩
  · have hnext : start.run (actions ++ [action]) = some next := by
      rw [State.run_append, hrun, Option.bind_some, State.run, hact]
      rfl
    have hafter := guarded_of_run htraffic hnext hfresh
    rw [hguarded.count, hafter.count, Nat.add_comm, Nat.add_comm server.traffic.guards.length]
    exact length_released_add hguarded.nodup hafter.nodup
  · exact hquiescent.inFlight_eq_zero hmodels hconsistent hsound hphase hguarded.count
  · obtain ⟨hclosed, hguards, -⟩ := hidle hact
    refine ⟨hreached.closed.1 (by rw [hclosed]; rfl), fun model version ticket hadmitted ↦ ?_⟩
    exact hsound.delivered_of_idle hfresh (by rw [hclosed]; decide) hguards hadmitted
  · obtain ⟨next, hnext⟩ := Option.ne_none_iff_exists'.1 hact
    obtain ⟨hclosed, hguards, hsame⟩ := hidle hnext
    have hshut : Shut server := shut_of_idle (by rw [hclosed]; rfl) hguards
    intro model version
    rw [State.run_append, hrun, Option.bind_some] at hrun'
    have hnone : server.admissions model version (.observeIdle :: later) = [] :=
      hshut.admissions_eq_nil hrun'
    rw [State.admissions, State.log_append hrun]
    rw [State.admissions] at hnone
    rw [hnone, List.append_nil]
    rfl
  · exact State.submit_of_closed (hreached.closed.2 hclose) hnew submission
  · intro submission hsubmission
    have hall : start.run (actions ++ later) = some final := by
      rw [State.run_append, hrun, Option.bind_some, hlater]
    have hafter := Sound.of_create hcreate hall hfresh
    have haway := hsound.turnedAway_of_run (hreached.closed.2 hclose) hlater hfresh hsubmission
    exact ⟨haway, fun model version ↦ hafter.not_admitted_of_turnedAway hfresh haway,
      fun action next ↦ haway.books_eq⟩
  · refine ⟨server.isLive_eq_true, hreached.exiting, fun hannounce ↦ ?_⟩
    rw [State.isReady, hreached.exiting.2 hannounce]
    rfl
  · have hphase : server.phase ≠ .serving := fun h ↦ hreached.serving.1 h hstop
    exact ⟨if_neg hphase, if_neg hphase⟩
  · have hphase := State.phase_stop (hreached.serving.2 hstop)
    have hclosed : server.stop.phase.isClosed = true := by
      rcases hphase with h | h
      · rw [h]
        rfl
      · rw [h]
        rfl
    exact ⟨hphase, State.stop_stop, fun ticket submission hnew ↦
      State.submit_of_closed hclosed hnew submission⟩

/-- A submission that is delivered, and then the server is closed. -/
def echoThenClose : List Action :=
  echoRun ++ [.beginStop, .announce, .close]

theorem shutdown_of_run_echoThenClose :
    ∃ start server, State.create shelf .standard "shelf" { repository := "/models" } = .ok start ∧
      start.run echoThenClose = some server ∧ server.act .observeIdle ≠ none ∧
      (server.traffic.counts 0).delivered = 1 ∧
      server.submit 1 echoByte = (server, .error (.unavailable "server is shutting down")) := by
  have hchecked : ((State.create shelf .standard "shelf"
      { repository := "/models" }).toOption.any fun start ↦
        (start.run echoThenClose).any fun server ↦
          (server.act .observeIdle).isSome && server.traffic.entrants.isEmpty &&
            server.traffic.refused.isEmpty &&
            (start.admissions "echo" 3 echoThenClose).contains 0) = true := by
    decide +kernel
  obtain ⟨start, server, hstart, hserver, hchecked⟩ := State.exists_run_of_any hchecked
  simp only [Bool.and_eq_true, List.isEmpty_iff, List.contains_iff_mem] at hchecked
  obtain ⟨⟨⟨hidle, hentrants⟩, hrefused⟩, hadmitted⟩ := hchecked
  obtain ⟨next, hnext⟩ := Option.isSome_iff_exists.1 hidle
  have hall := shutdown_of_run hstart hserver (by decide)
  obtain ⟨hclose, hdelivered⟩ := hall.drained next hnext
  have hnew : server.traffic.IsNew 1 := ⟨by simp [hentrants], by simp [hrefused]⟩
  exact ⟨start, server, hstart, hserver, by simp [hnext], hdelivered "echo" 3 0 hadmitted,
    hall.closed hclose 1 echoByte hnew⟩

end TensorInference.Server
