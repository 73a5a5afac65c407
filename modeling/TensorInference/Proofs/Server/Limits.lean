import TensorInference.Proofs.Server.Counts
import TensorInference.Proofs.Server.Preparation
import TensorInference.Proofs.Server.Resolution

/-!
# The limits of queues and workers

At any time no more jobs wait for a model version than its queue holds, and no more are in execution
than it has workers. A job waits only where there is room and starts only where a worker is free,
and no other step adds to either.
-/

namespace TensorInference

open Model Inference

theorem filter_eq_singleton {α : Type} {p : α → Bool} {l : List α} {a : α} (h : l.countP p ≤ 1)
    (ha : a ∈ l) (hpa : p a = true) : l.filter p = [a] := by
  have hmem : a ∈ l.filter p := List.mem_filter.2 ⟨ha, hpa⟩
  rw [List.countP_eq_length_filter] at h
  cases hfilter : l.filter p with
  | nil => simp [hfilter] at hmem
  | cons head rest =>
    rw [hfilter, List.length_cons] at h
    obtain rfl : rest = [] := List.length_eq_zero_iff.1 (by omega)
    rw [hfilter, List.mem_singleton] at hmem
    rw [hmem]

namespace Server

theorem Job.isFor_iff {job : Job} {model : String} {version : UInt64} :
    job.isFor model version = true ↔ job.request.model = model ∧ job.request.version = version := by
  rw [isFor, Bool.and_eq_true, decide_eq_true_eq, decide_eq_true_eq]

/-- A backend of a consistent server is found under its own name and version. -/
theorem Consistent.version?_self {backends : Backends} {table : StatusTable} {model : String}
    {version : UInt64} {backend : Backend} (h : Consistent backends table)
    (hbackend : backends.version? model version = some backend) :
    backends.version? backend.name backend.version = some backend := by
  obtain ⟨hname, hversion, -⟩ := h.served hbackend
  rw [hname, hversion, hbackend]

namespace Traffic

variable {traffic : Traffic} {model : String} {version : UInt64}

theorem waitingFor_enqueue {job : Job} :
    (traffic.enqueue job).waitingFor model version =
      traffic.waitingFor model version + if job.isFor model version then 1 else 0 := by
  simp [enqueue, waitingFor, List.countP_append, List.countP_cons]

theorem waitingFor_start_le {job : Job} {program : Platform.Program} :
    (traffic.start job program).waitingFor model version ≤ traffic.waitingFor model version :=
  List.Sublist.countP_le List.filter_sublist

theorem busyFor_start {job : Job} {program : Platform.Program} :
    (traffic.start job program).busyFor model version =
      traffic.busyFor model version + if job.isFor model version then 1 else 0 := by
  simp [start, busyFor, List.countP_append, List.countP_cons]

theorem busyFor_complete_le {completion : Completion} :
    (traffic.complete completion).busyFor model version ≤ traffic.busyFor model version :=
  List.Sublist.countP_le List.filter_sublist

/-- Only one execution has the ticket of an execution. -/
theorem request_of_ticket {execution : Execution}
    (hle : (traffic.counts execution.job.ticket).running ≤ 1)
    (hexecution : execution ∈ traffic.running) {other : Execution}
    (hother : other ∈ traffic.running)
    (hticket : other.job.ticket = execution.job.ticket) : other = execution := by
  have hsingle := filter_eq_singleton hle hexecution (decide_eq_true rfl)
  have hmem : other ∈ traffic.running.filter (·.job.ticket = execution.job.ticket) :=
    List.mem_filter.2 ⟨hother, decide_eq_true hticket⟩
  rwa [hsingle, List.mem_singleton] at hmem

/-- An execution that goes on is for the same version. -/
theorem busyFor_proceed {execution later : Execution}
    (hle : (traffic.counts execution.job.ticket).running ≤ 1)
    (hexecution : execution ∈ traffic.running) (hticket : later.job.ticket = execution.job.ticket)
    (hrequest : later.job.request = execution.job.request) :
    (traffic.proceed later).busyFor model version = traffic.busyFor model version := by
  unfold proceed busyFor
  rw [List.countP_map]
  refine List.countP_congr fun other hother ↦ ?_
  rw [Function.comp_apply, hticket]
  split
  · rename_i hsame
    rw [request_of_ticket hle hexecution hother hsame, Job.isFor, Job.isFor, hrequest]
  · rfl

end Traffic

/-- The limits of queues and workers are kept. -/
structure Within (server : State) : Prop where
  queue : ∀ model version,
    server.traffic.waitingFor model version ≤ max 1 server.options.queueCapacity.toNat
  workers : ∀ model version backend, server.backends.version? model version = some backend →
    server.traffic.busyFor model version ≤ backend.workers

variable {server next : State} {action : Action}

theorem Within.proceed (h : Within server)
    (hsingle : ∀ t, (server.traffic.counts t).running ≤ 1) {execution later : Execution}
    (hexecution : execution ∈ server.traffic.running)
    (hticket : later.job.ticket = execution.job.ticket)
    (hrequest : later.job.request = execution.job.request) :
    Within { server with traffic := server.traffic.proceed later } := by
  refine ⟨h.queue, fun model version backend hbackend ↦ ?_⟩
  rw [Traffic.busyFor_proceed (hsingle _) hexecution hticket hrequest]
  exact h.workers model version backend hbackend

theorem Step.within (hstep : Step server action next)
    (hconsistent : Consistent server.backends server.books.status)
    (hsingle : ∀ t, (server.traffic.counts t).running ≤ 1) (h : Within server) : Within next := by
  cases hstep with
  | @enqueue _ _ backend _ _ _ hentrant hresolve hprepare hphase hroom =>
    refine ⟨fun model version ↦ ?_, h.workers⟩
    rw [Traffic.waitingFor_enqueue]
    split
    · rename_i hjob
      obtain ⟨rfl, rfl⟩ := Job.isFor_iff.1 hjob
      obtain ⟨hmodel, hversion⟩ := Backend.request_of_prepare hprepare
      have hfree : server.traffic.waitingFor backend.name backend.version <
          max 1 server.options.queueCapacity.toNat :=
        Nat.lt_of_not_le (of_decide_eq_false hroom)
      rw [hmodel, hversion]
      exact hfree
    · exact h.queue model version
  | @start model version backend job timer hbackend hfree hjob =>
    refine ⟨fun other number ↦ Nat.le_trans Traffic.waitingFor_start_le (h.queue other number), ?_⟩
    intro other number found hfound
    rw [Traffic.busyFor_start]
    split
    · rename_i hother
      obtain ⟨rfl, rfl⟩ := Job.isFor_iff.1 hother
      have hself := hconsistent.version?_self hbackend
      have hfor := List.find?_some hjob
      obtain ⟨hname, hversion⟩ := Job.isFor_iff.1 hfor
      dsimp only at hfound
      rw [hname, hversion, hself] at hfound
      obtain rfl := Option.some.inj hfound
      rw [hname, hversion]
      exact hfree
    · exact h.workers other number found hfound
  | conclude hexecution hadvance houtcome =>
    exact ⟨h.queue, fun model version backend hbackend ↦
      Nat.le_trans Traffic.busyFor_complete_le (h.workers model version backend hbackend)⟩
  | pause hexecution hadvance =>
    exact h.proceed hsingle (List.mem_of_find?_eq_some hexecution) rfl rfl
  | resume hexecution =>
    exact h.proceed hsingle (List.mem_of_find?_eq_some hexecution) rfl rfl
  | watchLate hentrant hphase =>
    exact ⟨fun _ _ ↦ Nat.zero_le _, fun _ _ _ _ ↦ Nat.zero_le _⟩
  | giveUp hphase =>
    exact ⟨fun _ _ ↦ Nat.zero_le _, fun _ _ _ _ ↦ Nat.zero_le _⟩
  | _ => exact ⟨h.queue, h.workers⟩

end Server

end TensorInference
