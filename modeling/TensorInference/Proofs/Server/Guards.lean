import Mathlib.Data.List.Nodup
import TensorInference.Proofs.Server.Counts

/-!
# The guards of what is in flight

The server counts what is in flight with a number. What it counts are guards: each submission has
one from its entry on, held by its caller on the way in, by the watcher of its completion after
that, and by its caller again once the callback has run. A guard is released when the submission
is refused, given up, or left after its delivery. The number is the number of guards at any time,
so it is never decremented below zero.
-/

namespace TensorInference.Server

open Model Inference
open scoped List

/-- The submissions that are counted as in flight, by who holds their guard. -/
def Traffic.guards (traffic : Traffic) : List Ticket :=
  traffic.entrants.map (·.ticket) ++ traffic.watched ++ traffic.leaving

/-- No submission has two guards, all belong to submissions that were entered, and the count is
the number of them. -/
structure Guarded (tickets : List Ticket) (traffic : Traffic) : Prop where
  count : traffic.inFlight = traffic.guards.length
  nodup : traffic.guards.Nodup
  entered : ∀ t ∈ traffic.guards, t ∈ tickets

variable {tickets : List Ticket} {traffic later : Traffic} {t : Ticket}

theorem map_ticket_filter (entrants : List Entrant) (t : Ticket) :
    (entrants.filter (·.ticket ≠ t)).map (·.ticket) =
      (entrants.map (·.ticket)).filter (· ≠ t) := by
  rw [List.filter_map]
  rfl

theorem filter_ne_eq_erase {l : List Ticket} (h : l.Nodup) (t : Ticket) :
    l.filter (· ≠ t) = l.erase t := by
  rw [h.erase_eq_filter]
  refine List.filter_congr fun u _ ↦ ?_
  by_cases hu : u = t
  · simp [hu]
  · simp [hu]

namespace Guarded

theorem mono (h : Guarded tickets traffic) (more : List Ticket) :
    Guarded (tickets ++ more) traffic :=
  ⟨h.count, h.nodup, fun u hu ↦ List.mem_append_left _ (h.entered u hu)⟩

/-- A change that hands guards on keeps their number. -/
theorem of_perm (h : Guarded tickets traffic) (hguards : later.guards.Perm traffic.guards)
    (hcount : later.inFlight = traffic.inFlight) : Guarded tickets later where
  count := by rw [hcount, h.count, hguards.length_eq]
  nodup := hguards.nodup_iff.2 h.nodup
  entered u hu := h.entered u (hguards.mem_iff.1 hu)

/-- A change that releases one guard takes one from the count. -/
theorem of_erase (h : Guarded tickets traffic) (ht : t ∈ traffic.guards)
    (hguards : later.guards = traffic.guards.erase t)
    (hcount : later.inFlight = traffic.inFlight - 1) : Guarded tickets later where
  count := by rw [hcount, h.count, hguards, List.length_erase_of_mem ht]
  nodup := hguards ▸ h.nodup.erase t
  entered u hu := h.entered u (List.mem_of_mem_erase (hguards ▸ hu))

theorem enter (h : Guarded tickets traffic) (ht : t ∉ tickets) (submission : Submission) :
    Guarded (tickets ++ [t]) (traffic.enter t submission) := by
  have hguards : (traffic.enter t submission).guards.Perm (t :: traffic.guards) := by
    unfold Traffic.guards Traffic.enter
    dsimp only
    rw [List.map_append, List.map_singleton, List.append_assoc, List.append_assoc,
      List.append_assoc]
    exact List.perm_middle
  refine ⟨?_, ?_, fun u hu ↦ ?_⟩
  · rw [hguards.length_eq, List.length_cons, ← h.count]
    rfl
  · exact hguards.nodup_iff.2 (List.nodup_cons.2 ⟨fun hmem ↦ ht (h.entered t hmem), h.nodup⟩)
  · rcases List.mem_cons.1 (hguards.mem_iff.1 hu) with rfl | hu
    · exact List.mem_append_right _ List.mem_cons_self
    · exact List.mem_append_left _ (h.entered u hu)

/-- Taking an entrant away releases its guard from the front. -/
theorem filter_entrants (h : Guarded tickets traffic)
    (ht : t ∈ traffic.entrants.map (·.ticket)) :
    (traffic.entrants.filter (·.ticket ≠ t)).map (·.ticket) ++ traffic.watched ++
      traffic.leaving = traffic.guards.erase t := by
  have hnodup := h.nodup
  rw [Traffic.guards] at hnodup ⊢
  rw [map_ticket_filter, filter_ne_eq_erase hnodup.of_append_left.of_append_left,
    List.erase_append_left _ (List.mem_append_left _ ht), List.erase_append_left _ ht]

theorem refuse (h : Guarded tickets traffic) (ht : t ∈ traffic.entrants.map (·.ticket))
    (status : Status) : Guarded tickets (traffic.refuse t status) :=
  h.of_erase (List.mem_append_left _ (List.mem_append_left _ ht)) (h.filter_entrants ht) rfl

theorem advance (h : Guarded tickets traffic) (arrival : Arrival) :
    Guarded tickets (traffic.advance t arrival) := by
  have hentrants : (traffic.advance t arrival).entrants.map (·.ticket) =
      traffic.entrants.map (·.ticket) := by
    rw [Traffic.advance, List.map_map]
    refine List.map_congr_left fun entrant _ ↦ ?_
    rw [Function.comp_apply]
    split <;> rfl
  refine h.of_perm ?_ rfl
  rw [Traffic.guards, hentrants]
  exact .refl _

theorem watch (h : Guarded tickets traffic) (ht : t ∈ traffic.entrants.map (·.ticket)) :
    Guarded tickets (traffic.watch t) := by
  have hguards : (traffic.watch t).guards.Perm (t :: traffic.guards.erase t) := by
    rw [← h.filter_entrants ht, Traffic.guards, Traffic.watch, ← List.append_assoc,
      List.append_assoc _ [t]]
    exact List.perm_middle
  exact h.of_perm (hguards.trans (List.perm_cons_erase
    (List.mem_append_left _ (List.mem_append_left _ ht))).symm) rfl

/-- The guard of a delivered submission goes from its watcher back to its caller. -/
theorem deliver (h : Guarded tickets traffic) {completion : Completion}
    (hwatched : completion.ticket ∈ traffic.watched) :
    Guarded tickets (traffic.deliver completion) := by
  have hnodup : traffic.watched.Nodup := (List.nodup_append.1 h.nodup.of_append_left).2.1
  have hmoved : (traffic.watched.erase completion.ticket ++
      (traffic.leaving ++ [completion.ticket])).Perm (traffic.watched ++ traffic.leaving) :=
    calc
      _ ~ traffic.watched.erase completion.ticket ++ completion.ticket :: traffic.leaving :=
        (List.perm_append_singleton _ _).append_left _
      _ ~ completion.ticket :: traffic.watched.erase completion.ticket ++ traffic.leaving :=
        List.perm_middle
      _ ~ traffic.watched ++ traffic.leaving :=
        (List.perm_cons_erase hwatched).symm.append_right _
  refine h.of_perm ?_ rfl
  unfold Traffic.guards Traffic.deliver
  dsimp only
  rw [filter_ne_eq_erase hnodup, List.append_assoc, List.append_assoc]
  exact hmoved.append_left _

theorem leave (h : Guarded tickets traffic) (ht : t ∈ traffic.leaving) :
    Guarded tickets (traffic.leave t) := by
  obtain ⟨-, hleaving, hdisjoint⟩ := List.nodup_append.1 h.nodup
  refine h.of_erase (List.mem_append_right _ ht) ?_ rfl
  rw [Traffic.guards, Traffic.leave, filter_ne_eq_erase hleaving, Traffic.guards,
    List.erase_append_right _ fun hmem ↦ hdisjoint t hmem t ht rfl]

/-- Giving up releases the guards of all watchers. -/
theorem abandon (h : Guarded tickets traffic) : Guarded tickets traffic.abandon := by
  have hsublist : traffic.abandon.guards.Sublist traffic.guards := by
    unfold Traffic.guards Traffic.abandon
    dsimp only
    rw [List.append_nil]
    exact (List.sublist_append_left _ _).append_right _
  refine ⟨?_, hsublist.nodup h.nodup, fun u hu ↦ h.entered u (hsublist.subset hu)⟩
  change traffic.inFlight - traffic.watched.length = _
  rw [h.count]
  unfold Traffic.guards Traffic.abandon
  simp only [List.length_append, List.length_nil]
  omega

end Guarded

theorem mem_entrants {arrival : Arrival} {entrant : Entrant}
    (h : traffic.entrant? t arrival = some entrant) : t ∈ traffic.entrants.map (·.ticket) := by
  obtain ⟨hentrant, hticket, -⟩ := Traffic.mem_of_entrant? h
  exact hticket ▸ List.mem_map_of_mem hentrant

/-- A step keeps the count right, if no ticket is used again. -/
theorem Step.guarded {server next : State} {action : Action} (hstep : Step server action next)
    (h : Guarded tickets server.traffic) (hnew : ∀ arrival ∈ action.arrivals, arrival.1 ∉ tickets) :
    Guarded (tickets ++ action.arrivals.map (·.1)) next.traffic := by
  cases hstep with
  | enter ticket submission => exact h.enter (hnew _ List.mem_cons_self) submission
  | turnAway hentrant hclosed => exact (h.refuse (mem_entrants hentrant) _).mono _
  | letIn hentrant hopen => exact (h.advance _).mono _
  | reject timer status hentrant => exact (h.refuse (mem_entrants hentrant) _).mono _
  | enqueue timer hentrant hresolve hprepare hphase hroom =>
    refine .mono ?_ _
    exact (h.advance .queued).of_perm (.refl _) rfl
  | watch hentrant hphase => exact (h.watch (mem_entrants hentrant)).mono _
  | watchLate hentrant hphase => exact (h.watch (mem_entrants hentrant)).abandon.mono _
  | deliver hwatched hcompletion =>
    obtain ⟨rfl, -⟩ := Traffic.outbox_pos hcompletion
    exact (h.deliver hwatched).mono _
  | leave hleaving => exact (h.leave hleaving).mono _
  | giveUp hphase => exact h.abandon.mono _
  | _ =>
    refine .mono ?_ _
    exact h.of_perm (.refl _) rfl

end TensorInference.Server
