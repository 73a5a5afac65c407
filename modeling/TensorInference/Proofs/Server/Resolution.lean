import TensorInference.Proofs.Server.Loading
import TensorInference.Proofs.Server.Step

/-!
# Resolution of model versions

No step changes which models are loaded or what their states are, so a submission is resolved by
every reachable server as by the created one. A backend is found exactly when a version is ready:
the named one, or any if the latest one is asked for.
-/

namespace TensorInference.Server

open Model Inference

/-- Two states of a server with the same options and models. -/
structure SameModels (server next : State) : Prop where
  backends : next.backends = server.backends
  options : next.options = server.options
  outline : next.books.status.outline = server.books.status.outline

variable {server next start : State} {actions : List Action}

theorem SameModels.refl : SameModels server server := ⟨rfl, rfl, rfl⟩

theorem SameModels.trans (h : SameModels start server) (h' : SameModels server next) :
    SameModels start next :=
  ⟨h'.backends.trans h.backends, h'.options.trans h.options, h'.outline.trans h.outline⟩

theorem sameStanding_dropTimers {now : Nanoseconds} {books : Books} {jobs : List Job} :
    StatusTable.SameStanding books.status (dropTimers now books jobs).status := by
  unfold dropTimers
  induction jobs generalizing books with
  | nil => exact .refl
  | cons job rest ih => exact Timer.sameStanding_drop.trans ih

theorem Step.sameStanding {action : Action} (h : Step server action next) :
    StatusTable.SameStanding server.books.status next.books.status := by
  cases h with
  | reject timer status _ => exact Timer.sameStanding_drop
  | conclude _ _ _ => exact Timer.sameStanding_finish
  | giveUp _ => exact sameStanding_dropTimers
  | _ => exact .refl

theorem sameStanding_of_run (h : start.run actions = some server) :
    StatusTable.SameStanding start.books.status server.books.status :=
  @State.run_induction server start
    (fun _ server ↦ StatusTable.SameStanding start.books.status server.books.status) .refl
    (fun _ hbefore hact ↦ hbefore.trans (State.step_of_act hact).sameStanding) actions h

theorem Step.sameModels {action : Action} (h : Step server action next) :
    SameModels server next := by
  have hstanding := h.sameStanding
  cases h with
  | _ => exact ⟨rfl, rfl, hstanding.outline⟩

theorem sameModels_of_run (h : start.run actions = some server) : SameModels start server :=
  @State.run_induction server start (fun _ server ↦ SameModels start server) .refl
    (fun _ hbefore hact ↦ hbefore.trans (State.step_of_act hact).sameModels) actions h

theorem SameModels.consistent (h : SameModels start server)
    (hstart : Consistent start.backends start.books.status) :
    Consistent server.backends server.books.status where
  served {model version backend} hbackend := by
    rw [h.outline]
    exact hstart.served (h.backends ▸ hbackend)
  ready {model version} hstate := by
    rw [StatusTable.state?_eq, h.outline, ← StatusTable.state?_eq] at hstate
    rw [h.backends]
    exact hstart.ready hstate

theorem SameModels.resolve (h : SameModels start server) (model : String) (selector : Int64) :
    server.resolve model selector = start.resolve model selector := by
  unfold State.resolve
  simp only [StatusTable.contains_eq, StatusTable.state?_eq, h.outline, h.backends]

/-- Whether a status table has a ready version that a selector asks for. -/
def Ready (table : StatusTable) (model : String) (selector : Int64) : Prop :=
  if selector < 0 then ∃ version, table.state? model version = some .ready
  else table.state? model selector.toUInt64 = some .ready

variable {model : String} {selector : Int64} {backend : Backend}

theorem Backends.get?_versions {backends : Backends} {version : UInt64} :
    ((backends.get? model).getD .empty).get? version = backends.version? model version := by
  rw [version?]
  cases backends.get? model with
  | none => rfl
  | some versions => rfl

theorem exists_version?_of_resolve (h : server.resolve model selector = .ok backend) :
    ∃ version, server.backends.version? model version = some backend ∧
      (¬ selector < 0 → version = selector.toUInt64) := by
  unfold State.resolve at h
  split at h
  · cases h
  · dsimp only at h
    split at h
    · rename_i hnegative
      split at h
      · rename_i found hlast
        obtain rfl := Except.ok.inj h
        obtain ⟨version, hversion, -⟩ := OrderedMap.greatest_of_last? hlast
        rw [Backends.get?_versions] at hversion
        exact ⟨version, hversion, fun hselector ↦ absurd hnegative hselector⟩
      · cases h
    · split at h
      · rename_i found _ hfound
        obtain rfl := Except.ok.inj h
        rw [Backends.get?_versions] at hfound
        exact ⟨_, hfound, fun _ ↦ rfl⟩
      · cases h
      · cases h

theorem exists_resolve_of_version? {version : UInt64}
    (hconsistent : Consistent server.backends server.books.status)
    (hbackend : server.backends.version? model version = some backend)
    (hselector : selector < 0 ∨ selector.toUInt64 = version) :
    ∃ found, server.resolve model selector = .ok found := by
  obtain ⟨-, -, -, states, hstates, -⟩ := hconsistent.served hbackend
  have hknown : server.books.status.contains model = true := by
    rw [StatusTable.contains_eq, hstates]
    rfl
  obtain ⟨versions, hversions, hversion⟩ := Option.bind_eq_some_iff.1 hbackend
  unfold State.resolve
  rw [if_neg (not_not.2 hknown), hversions]
  dsimp only [Option.getD_some]
  split
  · obtain ⟨last, hlast⟩ := OrderedMap.exists_last?_of_get? hversion
    exact ⟨last, by rw [hlast]⟩
  · rename_i hnonnegative
    obtain rfl := hselector.resolve_left hnonnegative
    exact ⟨backend, by rw [hversion]⟩

/-- A backend is found exactly for a ready version. -/
theorem exists_resolve_iff (hconsistent : Consistent server.backends server.books.status) :
    (∃ backend, server.resolve model selector = .ok backend) ↔
      Ready server.books.status model selector := by
  have hready : ∀ {version : UInt64} {backend : Backend},
      server.backends.version? model version = some backend →
        server.books.status.state? model version = some .ready := by
    intro version backend hbackend
    obtain ⟨-, -, -, states, hstates, hready⟩ := hconsistent.served hbackend
    rw [StatusTable.state?_eq, hstates]
    exact hready
  unfold Ready
  constructor
  · rintro ⟨backend, h⟩
    obtain ⟨version, hversion, hselector⟩ := exists_version?_of_resolve h
    split
    · exact ⟨version, hready hversion⟩
    · rename_i hnonnegative
      rw [← hselector hnonnegative]
      exact hready hversion
  · intro h
    split at h
    · rename_i hnegative
      obtain ⟨version, hversion⟩ := h
      obtain ⟨backend, hbackend⟩ := hconsistent.ready hversion
      exact exists_resolve_of_version? hconsistent hbackend (.inl hnegative)
    · obtain ⟨backend, hbackend⟩ := hconsistent.ready h
      exact exists_resolve_of_version? hconsistent hbackend (.inr rfl)

theorem resolve_error_code {status : Status} (h : server.resolve model selector = .error status) :
    status.code = .notFound ∨ status.code = .unavailable := by
  unfold State.resolve at h
  split at h
  · obtain rfl := Except.error.inj h
    exact .inl rfl
  · dsimp only at h
    split at h
    · split at h
      · cases h
      · obtain rfl := Except.error.inj h
        exact .inl rfl
    · split at h
      · cases h
      · obtain rfl := Except.error.inj h
        exact .inr rfl
      · obtain rfl := Except.error.inj h
        exact .inl rfl

end TensorInference.Server
