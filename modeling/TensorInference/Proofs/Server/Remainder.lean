import TensorInference.Proofs.Server.Step

/-!
# Traffic without some of its submissions

Some tickets are set aside. What remains of the traffic is every list of it without them. A change
that a step makes under a ticket that is set aside leaves the remainder as it is, and any other
change is made to the remainder in the same way, since the lists are searched by tickets and their
members keep their order.
-/

namespace TensorInference.Server

open Model Inference

variable {aside : Ticket → Bool} {ticket : Ticket}

/-! ## Lists of members with tickets -/

section Lists

variable {α : Type}

/-- The members whose tickets are not set aside. -/
def remaining (aside : Ticket → Bool) (key : α → Ticket) (members : List α) : List α :=
  members.filter fun member ↦ !aside (key member)

variable {key : α → Ticket} {members : List α} {member : α}

theorem remaining_append_of_aside (h : aside (key member) = true) :
    remaining aside key (members ++ [member]) = remaining aside key members := by
  simp [remaining, h]

theorem remaining_append (h : aside (key member) = false) :
    remaining aside key (members ++ [member]) = remaining aside key members ++ [member] := by
  simp [remaining, h]

theorem remaining_filter_of_aside (h : aside ticket = true) :
    remaining aside key (members.filter (key · ≠ ticket)) = remaining aside key members := by
  rw [remaining, remaining, List.filter_filter]
  refine List.filter_congr fun member _ ↦ ?_
  by_cases hkey : key member = ticket
  · simp [hkey, h]
  · simp [hkey]

theorem remaining_filter {p : α → Bool} :
    remaining aside key (members.filter p) = (remaining aside key members).filter p := by
  rw [remaining, remaining, List.filter_filter, List.filter_filter]
  exact List.filter_congr fun _ _ ↦ Bool.and_comm _ _

theorem remaining_map_of_aside {change : α → α}
    (hkey : ∀ member, key member = ticket → key (change member) = ticket)
    (h : aside ticket = true) :
    remaining aside key
        (members.map fun member ↦ if key member = ticket then change member else member) =
      remaining aside key members := by
  induction members with
  | nil => rfl
  | cons member rest ih =>
    rw [remaining, remaining] at ih ⊢
    rw [List.map_cons]
    split
    · rename_i hmember
      rw [List.filter_cons_of_neg (by simp [hkey member hmember, h]),
        List.filter_cons_of_neg (by simp [hmember, h]), ih]
    · rw [List.filter_cons, List.filter_cons, ih]

theorem remaining_map {change : α → α}
    (hkey : ∀ member, key member = ticket → key (change member) = ticket) :
    remaining aside key
        (members.map fun member ↦ if key member = ticket then change member else member) =
      (remaining aside key members).map fun member ↦
        if key member = ticket then change member else member := by
  rw [remaining, List.filter_map, remaining]
  congr 1
  refine List.filter_congr fun member _ ↦ ?_
  dsimp only [Function.comp_apply]
  split
  · rename_i hmember
    rw [hkey member hmember, hmember]
  · rfl

/-- A search that no member set aside comes up to finds the same in what remains. -/
theorem find?_remaining {p : α → Bool}
    (hp : ∀ member ∈ members, p member = true → aside (key member) = false) :
    (remaining aside key members).find? p = members.find? p := by
  induction members with
  | nil => rfl
  | cons member rest ih =>
    obtain ⟨hmember, hrest⟩ := List.forall_mem_cons.1 hp
    rw [remaining] at ih ⊢
    cases h : p member with
    | false =>
      rw [List.filter_cons]
      split
      · rw [List.find?_cons_of_neg (by simp [h]), List.find?_cons_of_neg (by simp [h]), ih hrest]
      · rw [List.find?_cons_of_neg (by simp [h]), ih hrest]
    | true =>
      rw [List.filter_cons_of_pos (by simp [hmember h]), List.find?_cons_of_pos h,
        List.find?_cons_of_pos h]

theorem countP_remaining {p : α → Bool}
    (hp : ∀ member ∈ members, p member = true → aside (key member) = false) :
    (remaining aside key members).countP p = members.countP p := by
  rw [remaining, List.countP_filter]
  refine List.countP_congr fun member hmember ↦ ?_
  simp only [Bool.and_eq_true, Bool.not_eq_true']
  exact ⟨And.left, fun h ↦ ⟨h, hp member hmember h⟩⟩

theorem mem_remaining : member ∈ remaining aside key members ↔
    member ∈ members ∧ aside (key member) = false := by
  simp [remaining]

theorem key_of_find? (h : members.find? (key · = ticket) = some member) : key member = ticket := by
  have hfound := List.find?_some h
  exact of_decide_eq_true hfound

end Lists

namespace Traffic

/-- What remains of traffic when some tickets are set aside. -/
structure Remains (aside : Ticket → Bool) (traffic rest : Traffic) : Prop where
  entrants : rest.entrants = remaining aside (·.ticket) traffic.entrants
  waiting : rest.waiting = remaining aside (·.ticket) traffic.waiting
  running : rest.running = remaining aside (·.job.ticket) traffic.running
  outbox : rest.outbox = remaining aside (·.ticket) traffic.outbox
  watched : rest.watched = remaining aside id traffic.watched
  leaving : rest.leaving = remaining aside id traffic.leaving
  refused : rest.refused = remaining aside (·.1) traffic.refused
  delivered : rest.delivered = remaining aside (·.ticket) traffic.delivered

namespace Remains

variable {traffic rest : Traffic}

theorem empty : Remains aside {} {} := ⟨rfl, rfl, rfl, rfl, rfl, rfl, rfl, rfl⟩

theorem abandon (h : Remains aside traffic rest) : Remains aside traffic.abandon rest.abandon :=
  ⟨h.entrants, rfl, rfl, rfl, rfl, h.leaving, h.refused, h.delivered⟩

section Aside

variable (h : Remains aside traffic rest)
include h

theorem enter_aside (submission : Submission) (haside : aside ticket = true) :
    Remains aside (traffic.enter ticket submission) rest :=
  { h with entrants := h.entrants.trans (Eq.symm (remaining_append_of_aside haside)) }

theorem advance_aside (arrival : Arrival) (haside : aside ticket = true) :
    Remains aside (traffic.advance ticket arrival) rest :=
  { h with
    entrants :=
      h.entrants.trans (Eq.symm (remaining_map_of_aside (fun _ hticket ↦ hticket) haside)) }

theorem refuse_aside (status : Status) (haside : aside ticket = true) :
    Remains aside (traffic.refuse ticket status) rest :=
  { h with
    entrants := h.entrants.trans (Eq.symm (remaining_filter_of_aside haside))
    refused := h.refused.trans (Eq.symm (remaining_append_of_aside haside)) }

theorem enqueue_aside {job : Job} (haside : aside job.ticket = true) :
    Remains aside (traffic.enqueue job) rest :=
  { h.advance_aside .queued haside with
    waiting := h.waiting.trans (Eq.symm (remaining_append_of_aside haside)) }

theorem watch_aside (haside : aside ticket = true) : Remains aside (traffic.watch ticket) rest :=
  { h with
    entrants := h.entrants.trans (Eq.symm (remaining_filter_of_aside haside))
    watched := h.watched.trans (Eq.symm (remaining_append_of_aside haside)) }

theorem start_aside {job : Job} (program : Platform.Program) (haside : aside job.ticket = true) :
    Remains aside (traffic.start job program) rest :=
  { h with
    waiting := h.waiting.trans (Eq.symm (remaining_filter_of_aside haside))
    running := h.running.trans (Eq.symm (remaining_append_of_aside haside)) }

theorem proceed_aside {execution : Execution} (haside : aside execution.job.ticket = true) :
    Remains aside (traffic.proceed execution) rest :=
  { h with running := h.running.trans (Eq.symm (remaining_map_of_aside (fun _ _ ↦ rfl) haside)) }

theorem complete_aside {completion : Completion} (haside : aside completion.ticket = true) :
    Remains aside (traffic.complete completion) rest :=
  { h with
    running := h.running.trans (Eq.symm (remaining_filter_of_aside haside))
    outbox := h.outbox.trans (Eq.symm (remaining_append_of_aside haside)) }

theorem deliver_aside {completion : Completion} (haside : aside completion.ticket = true) :
    Remains aside (traffic.deliver completion) rest :=
  { h with
    outbox := h.outbox.trans (Eq.symm (remaining_filter_of_aside haside))
    watched := h.watched.trans (Eq.symm (remaining_filter_of_aside haside))
    leaving := h.leaving.trans (Eq.symm (remaining_append_of_aside haside))
    delivered := h.delivered.trans (Eq.symm (remaining_append_of_aside haside)) }

theorem leave_aside (haside : aside ticket = true) : Remains aside (traffic.leave ticket) rest :=
  { h with leaving := h.leaving.trans (Eq.symm (remaining_filter_of_aside haside)) }

end Aside

section Kept

variable (h : Remains aside traffic rest)
include h

theorem enter (submission : Submission) (hkept : aside ticket = false) :
    Remains aside (traffic.enter ticket submission) (rest.enter ticket submission) :=
  { h with
    entrants := (congrArg (· ++ _) h.entrants).trans (Eq.symm (remaining_append hkept)) }

theorem advance (arrival : Arrival) :
    Remains aside (traffic.advance ticket arrival) (rest.advance ticket arrival) :=
  { h with
    entrants := (congrArg _ h.entrants).trans (Eq.symm (remaining_map fun _ hticket ↦ hticket)) }

theorem refuse (status : Status) (hkept : aside ticket = false) :
    Remains aside (traffic.refuse ticket status) (rest.refuse ticket status) :=
  { h with
    entrants := (congrArg _ h.entrants).trans (Eq.symm remaining_filter)
    refused := (congrArg (· ++ _) h.refused).trans (Eq.symm (remaining_append hkept)) }

theorem enqueue {job : Job} (hkept : aside job.ticket = false) :
    Remains aside (traffic.enqueue job) (rest.enqueue job) :=
  { h.advance .queued with
    waiting := (congrArg (· ++ _) h.waiting).trans (Eq.symm (remaining_append hkept)) }

theorem watch (hkept : aside ticket = false) :
    Remains aside (traffic.watch ticket) (rest.watch ticket) :=
  { h with
    entrants := (congrArg _ h.entrants).trans (Eq.symm remaining_filter)
    watched := (congrArg (· ++ _) h.watched).trans (Eq.symm (remaining_append hkept)) }

theorem start {job : Job} (program : Platform.Program) (hkept : aside job.ticket = false) :
    Remains aside (traffic.start job program) (rest.start job program) :=
  { h with
    waiting := (congrArg _ h.waiting).trans (Eq.symm remaining_filter)
    running := (congrArg (· ++ _) h.running).trans (Eq.symm (remaining_append hkept)) }

theorem proceed {execution : Execution} :
    Remains aside (traffic.proceed execution) (rest.proceed execution) :=
  { h with running := (congrArg _ h.running).trans (Eq.symm (remaining_map fun _ _ ↦ rfl)) }

theorem complete {completion : Completion} (hkept : aside completion.ticket = false) :
    Remains aside (traffic.complete completion) (rest.complete completion) :=
  { h with
    running := (congrArg _ h.running).trans (Eq.symm remaining_filter)
    outbox := (congrArg (· ++ _) h.outbox).trans (Eq.symm (remaining_append hkept)) }

theorem deliver {completion : Completion} (hkept : aside completion.ticket = false) :
    Remains aside (traffic.deliver completion) (rest.deliver completion) :=
  { h with
    outbox := (congrArg _ h.outbox).trans (Eq.symm remaining_filter)
    watched := (congrArg _ h.watched).trans (Eq.symm remaining_filter)
    leaving := (congrArg (· ++ _) h.leaving).trans (Eq.symm (remaining_append hkept))
    delivered := (congrArg (· ++ _) h.delivered).trans (Eq.symm (remaining_append hkept)) }

theorem leave : Remains aside (traffic.leave ticket) (rest.leave ticket) :=
  { h with leaving := (congrArg _ h.leaving).trans (Eq.symm remaining_filter) }

end Kept

section Searches

variable (h : Remains aside traffic rest)
include h

section Tickets

variable (hkept : aside ticket = false)
include hkept

theorem entrant?_eq (arrival : Arrival) :
    rest.entrant? ticket arrival = traffic.entrant? ticket arrival := by
  rw [Traffic.entrant?, h.entrants, Traffic.entrant?]
  refine find?_remaining fun entrant _ hentrant ↦ ?_
  rw [of_decide_eq_true (Bool.and_eq_true_iff.1 hentrant).1, hkept]

theorem execution_eq : rest.running.find? (·.job.ticket = ticket) =
    traffic.running.find? (·.job.ticket = ticket) := by
  rw [h.running]
  refine find?_remaining fun execution _ hexecution ↦ ?_
  rw [of_decide_eq_true hexecution, hkept]

theorem completion_eq : rest.outbox.find? (·.ticket = ticket) =
    traffic.outbox.find? (·.ticket = ticket) := by
  rw [h.outbox]
  refine find?_remaining fun completion _ hcompletion ↦ ?_
  rw [of_decide_eq_true hcompletion, hkept]

theorem contains_watched : rest.watched.contains ticket = traffic.watched.contains ticket := by
  rw [h.watched, Bool.eq_iff_iff, List.contains_iff_mem, List.contains_iff_mem, mem_remaining]
  exact and_iff_left hkept

theorem contains_leaving : rest.leaving.contains ticket = traffic.leaving.contains ticket := by
  rw [h.leaving, Bool.eq_iff_iff, List.contains_iff_mem, List.contains_iff_mem, mem_remaining]
  exact and_iff_left hkept

theorem refused?_eq : rest.refused? ticket = traffic.refused? ticket := by
  rw [Traffic.refused?, h.refused, Traffic.refused?]
  congr 1
  refine find?_remaining fun refusal _ hrefusal ↦ ?_
  rw [of_decide_eq_true hrefusal, hkept]

theorem delivered?_eq : rest.delivered? ticket = traffic.delivered? ticket := by
  rw [Traffic.delivered?, h.delivered, Traffic.delivered?]
  refine find?_remaining fun completion _ hcompletion ↦ ?_
  rw [of_decide_eq_true hcompletion, hkept]

end Tickets

variable {model : String} {version : UInt64}

theorem waitingFor_eq (hjobs : ∀ job ∈ traffic.waiting, job.request.model = model →
      aside job.ticket = false) :
    rest.waitingFor model version = traffic.waitingFor model version := by
  rw [waitingFor, h.waiting, waitingFor]
  exact countP_remaining fun job hjob hfor ↦
    hjobs job hjob (of_decide_eq_true (Bool.and_eq_true_iff.1 hfor).1)

theorem busyFor_eq (hjobs : ∀ execution ∈ traffic.running, execution.job.request.model = model →
    aside execution.job.ticket = false) :
    rest.busyFor model version = traffic.busyFor model version := by
  rw [busyFor, h.running, busyFor]
  exact countP_remaining fun execution hexecution hfor ↦
    hjobs execution hexecution (of_decide_eq_true (Bool.and_eq_true_iff.1 hfor).1)

theorem nextFor_eq (hjobs : ∀ job ∈ traffic.waiting, job.request.model = model →
    aside job.ticket = false) :
    rest.waiting.find? (·.isFor model version) = traffic.waiting.find? (·.isFor model version) := by
  rw [h.waiting]
  exact find?_remaining fun job hjob hfor ↦
    hjobs job hjob (of_decide_eq_true (Bool.and_eq_true_iff.1 hfor).1)

theorem unfinished_eq : rest.unfinished = remaining aside (·.ticket) traffic.unfinished := by
  rw [Traffic.unfinished, h.running, h.waiting, Traffic.unfinished, remaining, remaining, remaining,
    List.filter_append, List.filter_map]
  rfl

end Searches

end Remains

end Traffic

end TensorInference.Server
