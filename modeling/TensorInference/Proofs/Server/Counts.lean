import TensorInference.Proofs.Server.Step

/-!
# The accounts of a submission

`Traffic.counts` says how often a ticket occurs in each list of the traffic. Every operation on the
traffic changes the counts of one ticket at most, in a way that depends on these counts alone, so
what holds of a submission across all interleavings is arithmetic on its own counts. `Balanced` is
the invariant: a submission is in one stage only, and until the server gives up none is lost and
each job is owed a delivery by one watcher.
-/

namespace TensorInference.Server

open Model Inference

/-- How often a ticket occurs in the lists of a traffic. -/
structure Counts where
  /-- On the way in and not yet answered. -/
  arriving : Nat
  /-- On the way in with a job that waits. -/
  settling : Nat
  refused : Nat
  waiting : Nat
  running : Nat
  outbox : Nat
  watched : Nat
  delivered : Nat

variable {traffic : Traffic} {t u : Ticket}

theorem countP_filter_ne {α : Type} {key : α → Ticket} {p : α → Bool} (l : List α)
    (hp : ∀ a, p a = true → key a = t) :
    (l.filter (key · ≠ u)).countP p = if t = u then 0 else l.countP p := by
  rw [List.countP_filter]
  split
  · rename_i h
    rw [List.countP_eq_zero]
    intro a _ ha
    rw [Bool.and_eq_true, decide_eq_true_eq] at ha
    exact ha.2 ((hp a ha.1).trans h)
  · rename_i h
    refine List.countP_congr fun a _ ↦ ?_
    rw [Bool.and_eq_true, decide_eq_true_eq]
    exact ⟨And.left, fun ha ↦ ⟨ha, fun hkey ↦ h ((hp a ha).symm.trans hkey)⟩⟩

/-- Whether an entrant has a ticket and is not yet answered. -/
def Entrant.isArriving (t : Ticket) (entrant : Entrant) : Bool :=
  entrant.ticket = t && entrant.arrival ≠ .queued

/-- Whether an entrant has a ticket and its job waits. -/
def Entrant.isSettling (t : Ticket) (entrant : Entrant) : Bool :=
  entrant.ticket = t && entrant.arrival = .queued

theorem Entrant.ticket_of_isArriving (entrant : Entrant) (h : entrant.isArriving t = true) :
    entrant.ticket = t := by
  rw [isArriving, Bool.and_eq_true, decide_eq_true_eq] at h
  exact h.1

theorem Entrant.ticket_of_isSettling (entrant : Entrant) (h : entrant.isSettling t = true) :
    entrant.ticket = t := by
  rw [isSettling, Bool.and_eq_true, decide_eq_true_eq] at h
  exact h.1

namespace Traffic

/-- How often a ticket occurs in the lists of a traffic. -/
def counts (traffic : Traffic) (t : Ticket) : Counts where
  arriving := traffic.entrants.countP (·.isArriving t)
  settling := traffic.entrants.countP (·.isSettling t)
  refused := traffic.refused.countP (·.1 = t)
  waiting := traffic.waiting.countP (·.ticket = t)
  running := traffic.running.countP (·.job.ticket = t)
  outbox := traffic.outbox.countP (·.ticket = t)
  watched := traffic.watched.countP (· = t)
  delivered := traffic.delivered.countP (·.ticket = t)

theorem counts_enter (submission : Submission) :
    (traffic.enter u submission).counts t =
      if t = u then { traffic.counts t with arriving := (traffic.counts t).arriving + 1 }
      else traffic.counts t := by
  by_cases h : t = u
  · subst h
    simp [enter, counts, Entrant.isArriving, Entrant.isSettling]
  · simp [enter, counts, Entrant.isArriving, Entrant.isSettling, h, Ne.symm h]

theorem counts_refuse (status : Status) :
    (traffic.refuse u status).counts t =
      if t = u then
        { traffic.counts t with
          arriving := 0, settling := 0, refused := (traffic.counts t).refused + 1 }
      else traffic.counts t := by
  have harriving := @countP_filter_ne t u _ _ _ traffic.entrants Entrant.ticket_of_isArriving
  have hsettling := @countP_filter_ne t u _ _ _ traffic.entrants Entrant.ticket_of_isSettling
  rw [refuse, counts, harriving, hsettling]
  by_cases h : t = u
  · subst h
    simp [counts]
  · simp [counts, h, Ne.symm h]

theorem counts_watch : (traffic.watch u).counts t =
    if t = u then
      { traffic.counts t with
        arriving := 0, settling := 0, watched := (traffic.counts t).watched + 1 }
    else traffic.counts t := by
  have harriving := @countP_filter_ne t u _ _ _ traffic.entrants Entrant.ticket_of_isArriving
  have hsettling := @countP_filter_ne t u _ _ _ traffic.entrants Entrant.ticket_of_isSettling
  rw [watch, counts, harriving, hsettling]
  by_cases h : t = u
  · subst h
    simp [counts]
  · simp [counts, h, Ne.symm h]

/-- Moving an entrant on moves it from one count to the other. -/
theorem countP_advance {later : Arrival} (entrants : List Entrant) :
    (entrants.map fun entrant ↦
        if entrant.ticket = u then { entrant with arrival := later } else entrant).countP
          (·.isArriving t) =
      (if t = u then
        if later = .queued then 0
        else entrants.countP (·.isArriving t) + entrants.countP (·.isSettling t)
      else entrants.countP (·.isArriving t)) ∧
    (entrants.map fun entrant ↦
        if entrant.ticket = u then { entrant with arrival := later } else entrant).countP
          (·.isSettling t) =
      (if t = u then
        if later = .queued then
          entrants.countP (·.isArriving t) + entrants.countP (·.isSettling t)
        else 0
      else entrants.countP (·.isSettling t)) := by
  induction entrants with
  | nil => simp
  | cons entrant rest ih =>
    obtain ⟨harriving, hsettling⟩ := ih
    simp only [List.map_cons, List.countP_cons, harriving, hsettling]
    generalize rest.countP (·.isArriving t) = arriving
    generalize rest.countP (·.isSettling t) = settling
    grind [Entrant.isArriving, Entrant.isSettling]

theorem counts_advance {later : Arrival} (hlater : later ≠ .queued) :
    (traffic.advance u later).counts t =
      if t = u then
        { traffic.counts t with
          arriving := (traffic.counts t).arriving + (traffic.counts t).settling, settling := 0 }
      else traffic.counts t := by
  obtain ⟨harriving, hsettling⟩ := @countP_advance t u later traffic.entrants
  rw [advance, counts, harriving, hsettling, if_neg hlater, if_neg hlater]
  split <;> rfl

theorem counts_enqueue {job : Job} :
    (traffic.enqueue job).counts t =
      if t = job.ticket then
        { traffic.counts t with
          arriving := 0
          settling := (traffic.counts t).arriving + (traffic.counts t).settling
          waiting := (traffic.counts t).waiting + 1 }
      else traffic.counts t := by
  obtain ⟨harriving, hsettling⟩ := @countP_advance t job.ticket .queued traffic.entrants
  rw [enqueue, advance, counts, harriving, hsettling, if_pos rfl, if_pos rfl]
  by_cases h : t = job.ticket
  · subst h
    simp [counts]
  · simp [counts, h, Ne.symm h]

theorem counts_start {job : Job} {program : Platform.Program} :
    (traffic.start job program).counts t =
      if t = job.ticket then
        { traffic.counts t with waiting := 0, running := (traffic.counts t).running + 1 }
      else traffic.counts t := by
  have hwaiting := @countP_filter_ne t job.ticket Job (·.ticket) (·.ticket = t) traffic.waiting
    (by simp)
  rw [start, counts, hwaiting]
  by_cases h : t = job.ticket
  · subst h
    simp [counts]
  · simp [counts, h, Ne.symm h]

theorem counts_proceed {execution : Execution} :
    (traffic.proceed execution).counts t = traffic.counts t := by
  have hrunning : (traffic.proceed execution).running.countP (·.job.ticket = t) =
      traffic.running.countP (·.job.ticket = t) := by
    rw [proceed, List.countP_map]
    refine List.countP_congr fun other _ ↦ ?_
    rw [Function.comp_apply]
    split
    · rename_i h
      rw [h]
    · rfl
  rw [counts, hrunning]
  rfl

theorem counts_complete {completion : Completion} :
    (traffic.complete completion).counts t =
      if t = completion.ticket then
        { traffic.counts t with running := 0, outbox := (traffic.counts t).outbox + 1 }
      else traffic.counts t := by
  have hrunning := @countP_filter_ne t completion.ticket Execution (·.job.ticket)
    (·.job.ticket = t) traffic.running (by simp)
  rw [complete, counts, hrunning]
  by_cases h : t = completion.ticket
  · subst h
    simp [counts]
  · simp [counts, h, Ne.symm h]

theorem counts_deliver {completion : Completion} :
    (traffic.deliver completion).counts t =
      if t = completion.ticket then
        { traffic.counts t with
          outbox := 0, watched := 0, delivered := (traffic.counts t).delivered + 1 }
      else traffic.counts t := by
  have houtbox := @countP_filter_ne t completion.ticket Completion (·.ticket)
    (·.ticket = t) traffic.outbox (by simp)
  have hwatched := @countP_filter_ne t completion.ticket Ticket id (· = t) traffic.watched
    (by simp)
  rw [deliver, counts, houtbox]
  simp only [id] at hwatched
  rw [hwatched]
  by_cases h : t = completion.ticket
  · subst h
    simp [counts]
  · simp [counts, h, Ne.symm h]

theorem counts_abandon : traffic.abandon.counts t =
    { traffic.counts t with waiting := 0, running := 0, outbox := 0, watched := 0 } := rfl

/-! ## What members of the lists count for -/

theorem mem_of_entrant? {arrival : Arrival} {entrant : Entrant}
    (h : traffic.entrant? u arrival = some entrant) :
    entrant ∈ traffic.entrants ∧ entrant.ticket = u ∧ entrant.arrival = arrival := by
  have hfound := List.find?_some h
  rw [Bool.and_eq_true, decide_eq_true_eq, decide_eq_true_eq] at hfound
  exact ⟨List.mem_of_find?_eq_some h, hfound⟩

theorem arriving_pos {arrival : Arrival} {entrant : Entrant}
    (h : traffic.entrant? u arrival = some entrant) (harrival : arrival ≠ .queued) :
    0 < (traffic.counts u).arriving := by
  obtain ⟨hentrant, hfound⟩ := mem_of_entrant? h
  refine List.countP_pos_iff.2 ⟨entrant, hentrant, ?_⟩
  simpa [Entrant.isArriving, hfound] using harrival

theorem settling_pos {entrant : Entrant} (h : traffic.entrant? u .queued = some entrant) :
    0 < (traffic.counts u).settling :=
  List.countP_pos_iff.2 ⟨entrant, List.mem_of_find?_eq_some h, List.find?_some h⟩

theorem waiting_pos {job : Job} (h : job ∈ traffic.waiting) :
    0 < (traffic.counts job.ticket).waiting :=
  List.countP_pos_iff.2 ⟨job, h, decide_eq_true rfl⟩

theorem running_pos {execution : Execution}
    (h : traffic.running.find? (·.job.ticket = u) = some execution) :
    execution.job.ticket = u ∧ 0 < (traffic.counts u).running := by
  have hticket := List.find?_some h
  exact ⟨of_decide_eq_true hticket,
    List.countP_pos_iff.2 ⟨execution, List.mem_of_find?_eq_some h, hticket⟩⟩

theorem outbox_pos {completion : Completion}
    (h : traffic.outbox.find? (·.ticket = u) = some completion) :
    completion.ticket = u ∧ 0 < (traffic.counts u).outbox := by
  have hticket := List.find?_some h
  exact ⟨of_decide_eq_true hticket,
    List.countP_pos_iff.2 ⟨completion, List.mem_of_find?_eq_some h, hticket⟩⟩

end Traffic

namespace Counts

/-- In how many stages a submission is; a job that waits counts once although its caller may still
be on the way in. -/
def total (c : Counts) : Nat :=
  c.arriving + c.refused + c.waiting + c.running + c.outbox + c.delivered

/-- The invariant of a submission that was entered `n` times. -/
structure Balanced (phase : Phase) (n : Nat) (c : Counts) : Prop where
  /-- A submission is in one stage, and each of its jobs is owed a delivery by one watcher. -/
  kept : phase ≠ .abandoned →
    c.total = n ∧ c.waiting + c.running + c.outbox = c.settling + c.watched
  /-- After giving up no job is left, and what was answered before stays. -/
  givenUp : phase = .abandoned → c.total ≤ n ∧ c.waiting + c.running + c.outbox = 0

namespace Balanced

variable {phase : Phase} {n : Nat} {c : Counts}

theorem total_le (h : Balanced phase n c) : c.total ≤ n := by
  by_cases hphase : phase = .abandoned
  · exact (h.givenUp hphase).1
  · exact Nat.le_of_eq (h.kept hphase).1

theorem not_abandoned (h : Balanced phase n c) (hjob : 0 < c.waiting + c.running + c.outbox) :
    phase ≠ .abandoned := by
  intro hphase
  have hnone := (h.givenUp hphase).2
  omega

/-- The phases before giving up are all one to the invariant. -/
theorem of_phase {other : Phase} (h : Balanced phase n c) (hphase : phase ≠ .abandoned)
    (hother : other ≠ .abandoned) : Balanced other n c :=
  ⟨fun _ ↦ h.kept hphase, fun habandoned ↦ absurd habandoned hother⟩

theorem enter (h : Balanced phase n c) :
    Balanced phase (n + 1) { c with arriving := c.arriving + 1 } := by
  constructor
  · intro hphase
    have hkept := h.kept hphase
    dsimp only [total] at hkept ⊢
    omega
  · intro hphase
    have hgivenUp := h.givenUp hphase
    dsimp only [total] at hgivenUp ⊢
    omega

theorem refuse (h : Balanced phase n c) (hn : n ≤ 1) (harriving : 0 < c.arriving) :
    Balanced phase n { c with arriving := 0, settling := 0, refused := c.refused + 1 } := by
  constructor
  · intro hphase
    have hkept := h.kept hphase
    dsimp only [total] at hkept ⊢
    omega
  · intro hphase
    have hgivenUp := h.givenUp hphase
    dsimp only [total] at hgivenUp ⊢
    omega

/-- Before giving up, a move from stage to stage is to keep the two sums. -/
theorem move (h : Balanced phase n c) (hphase : phase ≠ .abandoned) {later : Counts}
    (hlater : c.total = n ∧ c.waiting + c.running + c.outbox = c.settling + c.watched →
      later.total = n ∧
        later.waiting + later.running + later.outbox = later.settling + later.watched) :
    Balanced phase n later :=
  ⟨fun _ ↦ hlater (h.kept hphase), fun habandoned ↦ absurd habandoned hphase⟩

/-- Nobody who is still to be let in has a job that waits. -/
theorem settling_eq_zero (h : Balanced phase n c) (hn : n ≤ 1) (hphase : phase ≠ .abandoned)
    (harriving : 0 < c.arriving) : c.settling = 0 := by
  have hkept := h.kept hphase
  unfold total at hkept
  omega

theorem advance (h : Balanced phase n c) (hn : n ≤ 1) (hphase : phase ≠ .abandoned)
    (harriving : 0 < c.arriving) :
    Balanced phase n { c with arriving := c.arriving + c.settling, settling := 0 } := by
  refine h.move hphase fun hkept ↦ ?_
  dsimp only [total] at hkept ⊢
  omega

theorem enqueue (h : Balanced phase n c) (hn : n ≤ 1) (hphase : phase ≠ .abandoned)
    (harriving : 0 < c.arriving) :
    Balanced phase n { c with
      arriving := 0, settling := c.arriving + c.settling, waiting := c.waiting + 1 } := by
  refine h.move hphase fun hkept ↦ ?_
  dsimp only [total] at hkept ⊢
  omega

theorem watch (h : Balanced phase n c) (hn : n ≤ 1) (hphase : phase ≠ .abandoned)
    (hsettling : 0 < c.settling) :
    Balanced phase n { c with arriving := 0, settling := 0, watched := c.watched + 1 } := by
  refine h.move hphase fun hkept ↦ ?_
  dsimp only [total] at hkept ⊢
  omega

theorem start (h : Balanced phase n c) (hn : n ≤ 1) (hwaiting : 0 < c.waiting) :
    Balanced phase n { c with waiting := 0, running := c.running + 1 } := by
  have hphase : phase ≠ .abandoned := h.not_abandoned (by omega)
  refine h.move hphase fun hkept ↦ ?_
  dsimp only [total] at hkept ⊢
  omega

theorem complete (h : Balanced phase n c) (hn : n ≤ 1) (hrunning : 0 < c.running) :
    Balanced phase n { c with running := 0, outbox := c.outbox + 1 } := by
  have hphase : phase ≠ .abandoned := h.not_abandoned (by omega)
  refine h.move hphase fun hkept ↦ ?_
  dsimp only [total] at hkept ⊢
  omega

theorem deliver (h : Balanced phase n c) (hn : n ≤ 1) (houtbox : 0 < c.outbox)
    (hwatched : 0 < c.watched) :
    Balanced phase n { c with outbox := 0, watched := 0, delivered := c.delivered + 1 } := by
  have hphase : phase ≠ .abandoned := h.not_abandoned (by omega)
  refine h.move hphase fun hkept ↦ ?_
  dsimp only [total] at hkept ⊢
  omega

/-- Giving up takes the jobs away and nothing that was answered. -/
theorem abandon (h : Balanced phase n c) {arriving settling : Nat}
    (harriving : arriving ≤ c.arriving) :
    Balanced .abandoned n { c with
      arriving, settling, waiting := 0, running := 0, outbox := 0, watched := 0 } := by
  refine ⟨fun hphase ↦ absurd rfl hphase, fun _ ↦ ?_⟩
  have hle := h.total_le
  dsimp only [total] at hle ⊢
  omega

end Balanced

end Counts

/-! ## Steps keep the invariant -/

/-- The submission that an action enters. -/
def Action.arrivals : Action → List (Ticket × Submission)
  | .enter ticket submission => [(ticket, submission)]
  | _ => []

open Counts in
/-- A step keeps the invariant of every submission, if no ticket is used again. -/
theorem Step.balanced {server next : State} {action : Action} {n : Nat}
    (hstep : Step server action next) (h : Balanced server.phase n (server.traffic.counts t))
    (hn : n + action.arrivals.countP (·.1 = t) ≤ 1) :
    Balanced next.phase (n + action.arrivals.countP (·.1 = t)) (next.traffic.counts t) := by
  cases hstep with
  | enter ticket submission =>
    rw [Traffic.counts_enter]
    by_cases hticket : t = ticket
    · subst hticket
      simpa [Action.arrivals] using h.enter
    · simpa [Action.arrivals, hticket, Ne.symm hticket] using h
  | turnAway hentrant hclosed =>
    rw [Traffic.counts_refuse]
    split
    · rename_i hticket
      subst hticket
      exact h.refuse hn (Traffic.arriving_pos hentrant (by decide))
    · exact h
  | letIn hentrant hopen =>
    rw [Traffic.counts_advance (by decide)]
    split
    · rename_i hticket
      subst hticket
      exact h.advance hn (Phase.ne_abandoned hopen) (Traffic.arriving_pos hentrant (by decide))
    · exact h
  | reject timer status hentrant =>
    rw [State.refuse, Traffic.counts_refuse]
    split
    · rename_i hticket
      subst hticket
      exact h.refuse hn (Traffic.arriving_pos hentrant (by decide))
    · exact h
  | enqueue timer hentrant hresolve hprepare hphase hroom =>
    rw [Traffic.counts_enqueue]
    split
    · rename_i hticket
      subst hticket
      exact h.enqueue hn hphase (Traffic.arriving_pos hentrant (by decide))
    · exact h
  | watch hentrant hphase =>
    rw [Traffic.counts_watch]
    split
    · rename_i hticket
      subst hticket
      exact h.watch hn hphase (Traffic.settling_pos hentrant)
    · exact h
  | watchLate hentrant hphase =>
    rw [Traffic.counts_abandon, Traffic.counts_watch, hphase]
    split
    · exact h.abandon (Nat.zero_le _)
    · exact h.abandon (Nat.le_refl _)
  | start timer hbackend hfree hjob =>
    have hwaiting := Traffic.waiting_pos (List.mem_of_find?_eq_some hjob)
    rw [Traffic.counts_start]
    split
    · rename_i hticket
      subst hticket
      exact h.start hn hwaiting
    · exact h
  | @conclude ticket execution response pause outcome hexecution hadvance houtcome =>
    obtain ⟨rfl, hrunning⟩ := Traffic.running_pos hexecution
    have hticket : (execution.job.conclude response outcome).ticket = execution.job.ticket := by
      unfold Job.conclude
      dsimp only
      split <;> rfl
    rw [State.conclude, Traffic.counts_complete, hticket]
    split
    · rename_i hsame
      subst hsame
      exact h.complete hn hrunning
    · exact h
  | pause hexecution hadvance =>
    rw [Traffic.counts_proceed]
    exact h
  | resume hexecution =>
    rw [Traffic.counts_proceed]
    exact h
  | deliver hwatched hcompletion =>
    obtain ⟨rfl, houtbox⟩ := Traffic.outbox_pos hcompletion
    rw [Traffic.counts_deliver]
    split
    · rename_i hsame
      subst hsame
      exact h.deliver hn houtbox (List.countP_pos_iff.2 ⟨_, hwatched, decide_eq_true rfl⟩)
    · exact h
  | leave hleaving => exact h
  | beginStop hphase =>
    rw [hphase] at h
    exact h.of_phase nofun nofun
  | announce hphase =>
    rw [hphase] at h
    exact h.of_phase nofun nofun
  | close hphase =>
    rw [hphase] at h
    exact h.of_phase nofun nofun
  | observeIdle hphase hidle =>
    rw [hphase] at h
    exact h.of_phase nofun nofun
  | giveUp hphase =>
    rw [Traffic.counts_abandon]
    exact h.abandon (Nat.le_refl _)
  | pass time => exact h

end TensorInference.Server
