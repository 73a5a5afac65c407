import TensorInference.Proofs.Server.Readiness

/-!
# Which backend serves a request

A request names a model and a version, or asks for the latest one with a negative selector. Which
backend it gets is told by the states of the versions alone: the named version if it is ready, and
the greatest ready one if the latest is asked for. A selected version that failed to load is told
apart from one that was never selected, and does not stand in the way of the versions below it.
-/

namespace TensorInference.Server

open Model Files Wire Inference

variable {files : Tree} {registry : Platform.Registry} {metered : Bool} {models : List Discovered}
  {start server : State} {actions : List Action} {options : Options} {freshId name : String}
  {selector : Int64} {version : UInt64} {backend : Backend}

/-- A version that the policy of a discovered model selects. -/
def Selected (models : List Discovered) (name : String) (version : UInt64) : Prop :=
  ∃ model ∈ models, ∃ definition, model.name = name ∧ model.definition = .ok definition ∧
    version ∈ definition.versions

/-- A request is refused with a code. -/
def State.Refuses (server : State) (name : String) (selector : Int64) (code : Code) : Prop :=
  ∃ status, server.resolve name selector = .error status ∧ status.code = code

/-- A request is served by the backend of a version. -/
def State.Serves (server : State) (name : String) (selector : Int64) (version : UInt64) : Prop :=
  ∃ backend, server.resolve name selector = .ok backend ∧
    server.backends.version? name version = some backend

/-- A selector that is not negative is the number of a version. -/
theorem toNat_toUInt64 (h : ¬ selector < 0) : (selector.toUInt64.toNat : Int) = selector.toInt := by
  rw [Int64.not_lt] at h
  rw [Int64.toNat_toUInt64_of_le h, Int64.toNatClampNeg]
  exact Int.toNat_of_nonneg (Int64.le_iff_toInt_le.1 h)

theorem Reflects.state?_isSome_iff
    (h : Reflects files registry metered models server.backends server.books.status)
    (hdistinct : (models.map (·.name)).Nodup) :
    (server.books.status.state? name version).isSome ↔ Selected models name version := by
  rw [h.state?, Option.isSome_map, Option.isSome_iff_exists]
  simp only [loading?_eq_some_iff hdistinct]
  constructor
  · rintro ⟨outcome, model, hmodel, definition, hname, hdefinition, hversion, -⟩
    exact ⟨model, hmodel, definition, hname, hdefinition, hversion⟩
  · rintro ⟨model, hmodel, definition, hname, hdefinition, hversion⟩
    exact ⟨_, model, hmodel, definition, hname, hdefinition, hversion, rfl⟩

theorem contains_of_state? {table : StatusTable}
    (h : (table.state? name version).isSome) : table.contains name = true := by
  rw [StatusTable.state?, Option.isSome_map] at h
  obtain ⟨status, hstatus⟩ := Option.isSome_iff_exists.1 h
  obtain ⟨model, hmodel, -⟩ := Option.bind_eq_some_iff.1 hstatus
  exact Option.isSome_iff_exists.2 ⟨model, hmodel⟩

section Latest

variable (hrouted : ∀ version, (∃ backend, server.backends.version? name version = some backend) ↔
    server.books.status.state? name version = some .ready) (hselector : selector < 0)

include hrouted hselector

theorem serves_latest (hready : server.books.status.state? name version = some .ready) :
    ∃ greatest, server.books.status.state? name greatest = some .ready ∧
      (∀ other, server.books.status.state? name other = some .ready → other ≤ greatest) ∧
      server.Serves name selector greatest := by
  obtain ⟨_, hbackend⟩ := (hrouted version).2 hready
  rw [← Backends.get?_versions] at hbackend
  obtain ⟨backend, hlast⟩ := OrderedMap.exists_last?_of_get? hbackend
  obtain ⟨greatest, hgreatest, hall⟩ := OrderedMap.greatest_of_last? hlast
  rw [Backends.get?_versions] at hgreatest
  refine ⟨greatest, (hrouted greatest).1 ⟨backend, hgreatest⟩, fun other hother ↦ ?_,
    backend, ?_, hgreatest⟩
  · obtain ⟨found, hfound⟩ := (hrouted other).2 hother
    rw [← Backends.get?_versions] at hfound
    rcases hall other found hfound with rfl | hless
    · exact UInt64.le_refl _
    · exact UInt64.le_of_lt (Std.compare_eq_lt.1 hless)
  · rw [State.resolve, if_neg (not_not.2 (contains_of_state? (by rw [hready]; rfl))),
      if_pos hselector, hlast]

theorem refuses_latest
    (hnone : ∀ version, server.books.status.state? name version ≠ some .ready) :
    server.Refuses name selector .notFound := by
  unfold State.Refuses State.resolve
  split
  · exact ⟨_, rfl, rfl⟩
  · dsimp only
    cases hlast : ((server.backends.get? name).getD .empty).last? with
    | none => exact ⟨_, rfl, rfl⟩
    | some backend =>
      obtain ⟨version, hversion, -⟩ := OrderedMap.greatest_of_last? hlast
      rw [Backends.get?_versions] at hversion
      exact absurd ((hrouted version).1 ⟨backend, hversion⟩) (hnone version)

end Latest

/-- What a request for a version of a known model gets, by the two tables. -/
theorem resolve_named (hselector : ¬ selector < 0)
    (hknown : server.books.status.contains name = true) :
    (∃ backend, server.resolve name selector = .ok backend ∧
      server.backends.version? name selector.toUInt64 = some backend) ∨
    (server.backends.version? name selector.toUInt64 = none ∧
      (server.books.status.state? name selector.toUInt64).isSome ∧
      server.Refuses name selector .unavailable) ∨
    (server.backends.version? name selector.toUInt64 = none ∧
      server.books.status.state? name selector.toUInt64 = none ∧
      server.Refuses name selector .notFound) := by
  unfold State.Refuses State.resolve
  rw [if_neg (not_not.2 hknown)]
  dsimp only
  rw [if_neg hselector, Backends.get?_versions]
  split
  · rename_i backend hbackend
    exact .inl ⟨backend, rfl, hbackend⟩
  · rename_i hbackend hstate
    exact .inr (.inl ⟨hbackend, by rw [hstate]; rfl, _, rfl, rfl⟩)
  · rename_i hbackend hstate
    exact .inr (.inr ⟨hbackend, hstate, _, rfl, rfl⟩)

/-- What a request for a model gets. -/
structure Resolves (models : List Discovered) (server : State) (name : String)
    (selector : Int64) : Prop where
  undiscovered : name ∉ models.map (·.name) → server.Refuses name selector .notFound
  /-- The latest version is the greatest that is ready. -/
  latest : selector < 0 → (∃ version, server.books.status.state? name version = some .ready) →
    ∃ version, server.books.status.state? name version = some .ready ∧
      (∀ other, server.books.status.state? name other = some .ready → other ≤ version) ∧
      server.Serves name selector version
  noneReady : selector < 0 → (∀ version, server.books.status.state? name version ≠ some .ready) →
    server.Refuses name selector .notFound
  /-- A named version is served if it is ready, and unavailable if it should be. -/
  named : ¬ selector < 0 → ∃ version : UInt64, (version.toNat : Int) = selector.toInt ∧
    (server.books.status.state? name version = some .ready → server.Serves name selector version) ∧
    (server.Refuses name selector .unavailable ↔ Selected models name version ∧
      server.books.status.state? name version ≠ some .ready) ∧
    (¬ Selected models name version → server.Refuses name selector .notFound)
  /-- Whatever is served carries what was asked for. -/
  carried : ∀ backend, server.resolve name selector = .ok backend → backend.name = name ∧
    server.backends.version? name backend.version = some backend ∧
    ∃ model ∈ models, ∃ definition, model.name = name ∧ model.definition = .ok definition ∧
      backend.version ∈ definition.versions ∧ backend.config = definition.config

theorem refuses_of_unknown (h : server.books.status.contains name = false) :
    server.Refuses name selector .notFound := by
  unfold State.Refuses State.resolve
  rw [if_pos (by simp [h])]
  exact ⟨_, rfl, rfl⟩

theorem Agree.contains_iff (h : Agree models server) :
    server.books.status.contains name = true ↔ name ∈ models.map (·.name) :=
  OrderedMap.mem_keys_iff.symm.trans (h.names name)

/-- A refusal has one code, and excludes an answer. -/
theorem State.Refuses.code_eq {code other : Code} (h : server.Refuses name selector code)
    (h' : server.Refuses name selector other) : code = other := by
  obtain ⟨status, hstatus, rfl⟩ := h
  obtain ⟨_, hother, rfl⟩ := h'
  rw [Except.error.inj (hstatus.symm.trans hother)]

theorem resolves_named
    (h : Reflects files registry metered models server.backends server.books.status)
    (hdistinct : (models.map (·.name)).Nodup) (hselector : ¬ selector < 0) :
    let version := selector.toUInt64
    (server.books.status.state? name version = some .ready → server.Serves name selector version) ∧
    (server.Refuses name selector .unavailable ↔ Selected models name version ∧
      server.books.status.state? name version ≠ some .ready) ∧
    (¬ Selected models name version → server.Refuses name selector .notFound) := by
  dsimp only
  rw [← h.state?_isSome_iff hdistinct]
  by_cases hknown : server.books.status.contains name = true
  · have hready := @Reflects.state?_eq_ready_iff _ _ _ _ _ _ name selector.toUInt64 h
    rcases resolve_named hselector hknown with ⟨backend, hresolve, hbackend⟩ |
      ⟨hbackend, hstate, hrefuses⟩ | ⟨hbackend, hstate, hrefuses⟩
    · have hstate := hready.2 ⟨backend, hbackend⟩
      refine ⟨fun _ ↦ ⟨backend, hresolve, hbackend⟩, ⟨?_, fun ⟨_, hnot⟩ ↦ absurd hstate hnot⟩,
        fun hnone ↦ absurd (by rw [hstate]; rfl) hnone⟩
      rintro ⟨status, hstatus, -⟩
      cases hresolve.symm.trans hstatus
    · have hnot : server.books.status.state? name selector.toUInt64 ≠ some .ready := by
        rw [Ne, hready, hbackend]
        simp
      exact ⟨fun hstate ↦ absurd hstate hnot, ⟨fun _ ↦ ⟨hstate, hnot⟩, fun _ ↦ hrefuses⟩,
        fun hnone ↦ absurd hstate hnone⟩
    · rw [hstate]
      refine ⟨nofun, ⟨fun hunavailable ↦ ?_, fun ⟨hsome, _⟩ ↦ by cases hsome⟩, fun _ ↦ hrefuses⟩
      cases hrefuses.code_eq hunavailable
  · have hstate : (server.books.status.state? name selector.toUInt64) = none := by
      rw [← Option.not_isSome_iff_eq_none]
      exact fun hsome ↦ hknown (contains_of_state? hsome)
    have hrefuses : server.Refuses name selector .notFound :=
      refuses_of_unknown (Bool.not_eq_true _ ▸ hknown)
    rw [hstate]
    refine ⟨nofun, ⟨fun hunavailable ↦ ?_, fun ⟨hsome, _⟩ ↦ by cases hsome⟩, fun _ ↦ hrefuses⟩
    cases hrefuses.code_eq hunavailable

/-- Every request to a reachable server is resolved by the states of the versions of its model. -/
theorem resolves_of_run (hcreate : State.create files registry freshId options = .ok start)
    (hrun : start.run actions = some server) :
    ∃ models, Repository.scan files options.repository = .ok models ∧
      ∀ name selector, Resolves models server name selector := by
  obtain ⟨models, hmodels, hreflects⟩ := reflects_of_run hcreate hrun
  have hdistinct := (Repository.scan_eq_ok hmodels).1
  have hagree := hreflects.agree hdistinct
  refine ⟨models, hmodels, fun name selector ↦ ⟨fun hname ↦ ?_, fun hselector hready ↦ ?_,
    refuses_latest (hagree.routed name), fun hselector ↦ ?_, fun backend hresolve ↦ ?_⟩⟩
  · exact refuses_of_unknown (by rwa [← Bool.not_eq_true, hagree.contains_iff])
  · obtain ⟨version, hversion⟩ := hready
    exact serves_latest (hagree.routed name) hselector hversion
  · exact ⟨selector.toUInt64, toNat_toUInt64 hselector,
      resolves_named hreflects hdistinct hselector⟩
  · obtain ⟨version, hversion, -⟩ := exists_version?_of_resolve hresolve
    obtain ⟨model, hmodel, definition, hname, hdefinition, hselected, hload⟩ :=
      hreflects.exists_definition hdistinct hversion
    obtain ⟨hbackendName, rfl, hconfig, -⟩ := Backend.load_eq_ok hload
    have hdefined := (Repository.define_of_scan hmodels hmodel hdefinition).1
    exact ⟨hbackendName.trans (hdefined.trans hname), hversion, model, hmodel, definition, hname,
      hdefinition, hselected, hconfig⟩

theorem resolves_of_run_echoRun :
    ∃ start server, State.create shelf .standard "shelf" { repository := "/models" } = .ok start ∧
      start.run echoRun = some server ∧ server.Serves "echo" Submission.latest 3 := by
  have hchecked : ((State.create shelf .standard "shelf"
      { repository := "/models" }).toOption.any fun start ↦
        (start.run echoRun).any fun server ↦
          (server.resolve "echo" Submission.latest).toOption.any (·.version = 3)) = true := by
    decide +kernel
  obtain ⟨start, server, hstart, hserver, hchecked⟩ := State.exists_run_of_any hchecked
  obtain ⟨models, -, hresolves⟩ := resolves_of_run hstart hserver
  obtain ⟨backend, hbackend, hnumber⟩ := Outcome.any_toOption_iff.1 hchecked
  obtain ⟨-, hversion, -⟩ := (hresolves "echo" Submission.latest).carried backend hbackend
  exact ⟨start, server, hstart, hserver, backend, hbackend, of_decide_eq_true hnumber ▸ hversion⟩

end TensorInference.Server
