import TensorInference.Proofs.Server.ExactlyOnce
import TensorInference.Proofs.Server.Phase

/-!
# Routing, reports and readiness agree

What a server routes and what it reports of a model are two tables that are filled side by side,
and readiness is asked of both: whether there is a backend at all of the one, and whether every
version is ready of the other. Both are read off the discovered models after every run, so the two
never disagree, and readiness is a condition on the discovered models and the phase.
-/

namespace TensorInference.Server

open Model Files Wire

variable {files : Tree} {registry : Platform.Registry} {metered : Bool} {models : List Discovered}
  {start server : State} {actions : List Action} {options : Options} {freshId : String}

/-- The tables are read off the discovered models after every run as they were at first. -/
theorem reflects_of_run (hcreate : State.create files registry freshId options = .ok start)
    (hrun : start.run actions = some server) :
    ∃ models, Repository.scan files options.repository = .ok models ∧
      Reflects files registry options.metrics models server.backends server.books.status := by
  obtain ⟨models, hmodels, htabulates⟩ := State.tabulates_of_create hcreate
  obtain ⟨hheading, hstanding, hbackend, hinhabited⟩ := htabulates.reflects
  have hsame := sameStanding_of_run hrun
  have hbackends := (sameModels_of_run hrun).backends
  refine ⟨models, hmodels, fun name ↦ ?_, fun name version ↦ ?_, fun name version ↦ ?_, ?_⟩
  · rw [hsame.heading, hheading]
  · rw [hsame.standing, hstanding]
  · rw [hbackends, hbackend]
  · rw [hbackends]
    exact hinhabited

theorem State.options_of_create (h : create files registry freshId options = .ok start) :
    start.options = options := by
  obtain ⟨models, -, hstart⟩ := Outcome.bind_eq_ok_iff.1 h
  obtain rfl := Except.ok.inj hstart
  rfl

theorem loading?_of_definition {model : Discovered} {definition : Definition} {version : UInt64}
    (hdistinct : (models.map (·.name)).Nodup) (hmodel : model ∈ models)
    (hdefinition : model.definition = .ok definition) :
    loading? files registry metered models model.name version =
      if version ∈ definition.versions then
        some (Backend.load files registry metered definition version)
      else none := by
  rw [loading?, (Discovered.named_eq_some_iff hdistinct).2 ⟨hmodel, rfl⟩, Option.bind_some,
    hdefinition]

theorem loading?_of_fault {model : Discovered} {fault : Status} {version : UInt64}
    (hdistinct : (models.map (·.name)).Nodup) (hmodel : model ∈ models)
    (hfault : model.definition = .error fault) :
    loading? files registry metered models model.name version = none := by
  rw [loading?, (Discovered.named_eq_some_iff hdistinct).2 ⟨hmodel, rfl⟩, Option.bind_some, hfault]

/-- The routing table and the status table agree on the discovered models. -/
structure Agree (models : List Discovered) (server : State) : Prop where
  /-- The status table has the discovered models, -/
  names : ∀ name, name ∈ server.books.status.models.keys ↔ name ∈ models.map (·.name)
  /-- those without a definition with the reason and no versions, -/
  broken : ∀ model ∈ models, ∀ fault, model.definition = .error fault →
    ∃ status, server.books.status.models.get? model.name = some status ∧ status.config = none ∧
      status.reason = some fault.message ∧ status.versions.isEmpty = true
  /-- and the others with the versions that were selected, each ready or not for a reason. -/
  defined : ∀ model ∈ models, ∀ definition, model.definition = .ok definition →
    ∃ status, server.books.status.models.get? model.name = some status ∧
      status.config = some definition.config ∧ status.reason = none ∧
      (∀ version, version ∈ status.versions.keys ↔ version ∈ definition.versions) ∧
      ∀ version entry, status.versions.get? version = some entry →
        entry.state = .ready ∧ entry.reason = none ∨
          entry.state = .unavailable ∧ ∃ reason, entry.reason = some reason
  /-- The ready versions have a backend, and no others, -/
  routed : ∀ name version, (∃ backend, server.backends.version? name version = some backend) ↔
    server.books.status.state? name version = some .ready
  /-- and no model is routed without a version. -/
  inhabited : ∀ name versions, server.backends.get? name = some versions → versions.isEmpty = false

theorem Reflects.agree
    (h : Reflects files registry metered models server.backends server.books.status)
    (hdistinct : (models.map (·.name)).Nodup) : Agree models server where
  names name := by
    rw [OrderedMap.mem_keys_iff, ← Option.isSome_map (f := fun status : ModelStatus ↦
      (status.config, status.reason)), ← StatusTable.heading, h.heading, Option.isSome_map]
    exact Named.isSome_find?_iff
  broken model hmodel fault hfault := by
    have hheading := h.heading model.name
    rw [(Discovered.named_eq_some_iff hdistinct).2 ⟨hmodel, rfl⟩, Option.map_some,
      Discovered.heading, hfault] at hheading
    obtain ⟨status, hstatus, hpair⟩ := Option.map_eq_some_iff.1 hheading
    obtain ⟨hconfig, hreason⟩ := Prod.mk.inj hpair
    refine ⟨status, hstatus, hconfig, hreason, ?_⟩
    rw [← Bool.not_eq_false, OrderedMap.isEmpty_eq_false_iff]
    rintro ⟨version, entry, hentry⟩
    have hstanding := h.standing model.name version
    rw [loading?_of_fault hdistinct hmodel hfault, StatusTable.standing, StatusTable.version?,
      hstatus, Option.bind_some, hentry] at hstanding
    cases hstanding
  defined model hmodel definition hdefinition := by
    have hheading := h.heading model.name
    rw [(Discovered.named_eq_some_iff hdistinct).2 ⟨hmodel, rfl⟩, Option.map_some,
      Discovered.heading, hdefinition] at hheading
    obtain ⟨status, hstatus, hpair⟩ := Option.map_eq_some_iff.1 hheading
    obtain ⟨hconfig, hreason⟩ := Prod.mk.inj hpair
    have hstanding : ∀ version,
        (status.versions.get? version).map (fun entry ↦ (entry.state, entry.reason)) =
          if version ∈ definition.versions then
            some (verdict (Backend.load files registry metered definition version))
          else none := by
      intro version
      have hversion := h.standing model.name version
      rw [loading?_of_definition hdistinct hmodel hdefinition, StatusTable.standing,
        StatusTable.version?, hstatus, Option.bind_some] at hversion
      rw [hversion]
      split <;> rfl
    refine ⟨status, hstatus, hconfig, hreason, fun version ↦ ?_, fun version entry hentry ↦ ?_⟩
    · have hsome := congrArg Option.isSome (hstanding version)
      rw [Option.isSome_map] at hsome
      rw [OrderedMap.mem_keys_iff, hsome]
      split
      · simpa
      · simpa
    · have hverdict := hstanding version
      rw [hentry, Option.map_some] at hverdict
      obtain ⟨-, hpair⟩ := Option.ite_none_right_eq_some.1 hverdict.symm
      obtain ⟨hstate, hreason⟩ := Prod.mk.inj (Option.some.inj hpair).symm
      rw [hstate, hreason]
      cases Backend.load files registry metered definition version with
      | ok backend => exact .inl ⟨rfl, rfl⟩
      | error fault => exact .inr ⟨rfl, _, rfl⟩
  routed name version := h.state?_eq_ready_iff.symm
  inhabited := h.inhabited

namespace Agree

/-- There is a backend at all exactly if some version is ready. -/
theorem backends_isEmpty_eq_false_iff (h : Agree models server) :
    server.backends.isEmpty = false ↔
      ∃ name version, server.books.status.state? name version = some .ready := by
  rw [OrderedMap.isEmpty_eq_false_iff]
  constructor
  · rintro ⟨name, versions, hversions⟩
    obtain ⟨version, backend, hbackend⟩ :=
      OrderedMap.isEmpty_eq_false_iff.1 (h.inhabited name versions hversions)
    refine ⟨name, version, (h.routed name version).1 ⟨backend, ?_⟩⟩
    rw [Backends.version?, hversions, Option.bind_some, hbackend]
  · rintro ⟨name, version, hready⟩
    obtain ⟨backend, hbackend⟩ := (h.routed name version).2 hready
    obtain ⟨versions, hversions, -⟩ := Option.bind_eq_some_iff.1 hbackend
    exact ⟨name, versions, hversions⟩

/-- A discovered model is fully ready if it has a definition and all its versions are ready. -/
theorem isFullyReady_iff (h : Agree models server) {model : Discovered} (hmodel : model ∈ models)
    (hselected : ∀ definition, model.definition = .ok definition → definition.versions ≠ [])
    {status : ModelStatus} (hstatus : server.books.status.models.get? model.name = some status) :
    status.isFullyReady = true ↔ ∃ definition, model.definition = .ok definition ∧
      ∀ version ∈ definition.versions,
        server.books.status.state? model.name version = some .ready := by
  have hstate : ∀ version, server.books.status.state? model.name version =
      (status.versions.get? version).map (·.state) := by
    intro version
    rw [StatusTable.state?, StatusTable.version?, hstatus, Option.bind_some]
  unfold ModelStatus.isFullyReady
  rw [Bool.and_eq_true, Bool.and_eq_true, List.all_eq_true]
  cases hdefinition : model.definition with
  | error fault =>
    obtain ⟨found, hfound, hconfig, -⟩ := h.broken model hmodel fault hdefinition
    obtain rfl : status = found := Option.some.inj (hstatus.symm.trans hfound)
    simp [hconfig]
  | ok definition =>
    obtain ⟨found, hfound, hconfig, -, hkeys, -⟩ := h.defined model hmodel definition hdefinition
    obtain rfl : status = found := Option.some.inj (hstatus.symm.trans hfound)
    constructor
    · rintro ⟨-, hall⟩
      refine ⟨definition, rfl, fun version hversion ↦ ?_⟩
      obtain ⟨entry, hentry⟩ := Option.isSome_iff_exists.1
        (OrderedMap.mem_keys_iff.1 ((hkeys version).2 hversion))
      have hready := of_decide_eq_true (hall entry (OrderedMap.mem_values_iff.2 ⟨_, hentry⟩))
      rw [hstate, hentry, Option.map_some, hready]
    · rintro ⟨other, hother, hall⟩
      obtain rfl := Except.ok.inj hother
      refine ⟨⟨by rw [hconfig]; rfl, ?_⟩, fun entry hentry ↦ ?_⟩
      · obtain ⟨version, hversion⟩ := List.exists_mem_of_ne_nil _ (hselected definition hdefinition)
        obtain ⟨entry, hentry⟩ := Option.isSome_iff_exists.1
          (OrderedMap.mem_keys_iff.1 ((hkeys version).2 hversion))
        rw [OrderedMap.isEmpty_eq_false_iff.2 ⟨version, entry, hentry⟩]
        rfl
      · obtain ⟨version, hversion⟩ := OrderedMap.mem_values_iff.1 hentry
        have hready := hall version ((hkeys version).1
          (OrderedMap.mem_keys_iff.2 (Option.isSome_iff_exists.2 ⟨entry, hversion⟩)))
        rw [hstate, hversion, Option.map_some] at hready
        exact decide_eq_true (Option.some.inj hready)

theorem allReady_iff (h : Agree models server)
    (hselected : ∀ model ∈ models, ∀ definition, model.definition = .ok definition →
      definition.versions ≠ []) :
    server.books.status.allReady = true ↔ ∀ model ∈ models, ∃ definition,
      model.definition = .ok definition ∧ ∀ version ∈ definition.versions,
        server.books.status.state? model.name version = some .ready := by
  unfold StatusTable.allReady
  rw [List.all_eq_true]
  constructor
  · intro hall model hmodel
    obtain ⟨status, hstatus⟩ := Option.isSome_iff_exists.1
      (OrderedMap.mem_keys_iff.1 ((h.names _).2 (List.mem_map_of_mem hmodel)))
    exact (h.isFullyReady_iff hmodel (hselected model hmodel) hstatus).1
      (hall status (OrderedMap.mem_values_iff.2 ⟨_, hstatus⟩))
  · intro hall status hstatus
    obtain ⟨name, hname⟩ := OrderedMap.mem_values_iff.1 hstatus
    obtain ⟨model, hmodel, rfl⟩ := List.mem_map.1 ((h.names name).1
      (OrderedMap.mem_keys_iff.2 (Option.isSome_iff_exists.2 ⟨status, hname⟩)))
    exact (h.isFullyReady_iff hmodel (hselected model hmodel) hname).2 (hall model hmodel)

end Agree

/-- What readiness asks of the discovered models. -/
structure Serviceable (models : List Discovered) (server : State) : Prop where
  some : ∃ name version, server.books.status.state? name version = .some .ready
  /-- If readiness is strict, every model has a definition and all that it selected is ready. -/
  all : server.options.strictReadiness = true → ∀ model ∈ models, ∃ definition,
    model.definition = .ok definition ∧ ∀ version ∈ definition.versions,
      server.books.status.state? model.name version = .some .ready

theorem isReady_iff (h : Agree models server) (hreached : server.phase.Reached actions)
    (hselected : ∀ model ∈ models, ∀ definition, model.definition = .ok definition →
      definition.versions ≠ []) :
    server.isReady = true ↔ .announce ∉ actions ∧ Serviceable models server := by
  have hstate : server.phase.state = .ready ↔ .announce ∉ actions := by
    rw [← hreached.exiting]
    rcases server.phase.state_eq with hphase | hphase
    · simp [hphase]
    · simp [hphase]
  have hstrict : (!server.options.strictReadiness || server.books.status.allReady) = true ↔
      (server.options.strictReadiness = true → server.books.status.allReady = true) := by
    cases server.options.strictReadiness <;> simp
  unfold State.isReady
  rw [Bool.and_eq_true, Bool.and_eq_true, decide_eq_true_eq, hstate, Bool.not_eq_true',
    h.backends_isEmpty_eq_false_iff, hstrict, h.allReady_iff hselected, and_assoc]
  refine and_congr_right fun _ ↦ ⟨?_, ?_⟩
  · rintro ⟨hsome, hall⟩
    exact ⟨hsome, hall⟩
  · rintro ⟨hsome, hall⟩
    exact ⟨hsome, hall⟩

/-- From the creation of a server on its two tables agree on the discovered models, each of which
was defined from its own directory, and it is ready until it announces that it stops exactly if the
models are. -/
theorem agree_of_run (hcreate : State.create files registry freshId options = .ok start)
    (hrun : start.run actions = some server) :
    ∃ models directory, Repository.scan files options.repository = .ok models ∧
      files.directory? options.repository = some directory ∧
      (∀ model ∈ models, ∀ definition, model.definition = .ok definition →
        ∃ entries, (.text model.name, entries) ∈ subdirectories directory ∧
          definition.versions =
            definition.config.policy.select (Repository.availableVersions entries)) ∧
      Agree models server ∧ server.options = options ∧
      (server.isReady = true ↔ .announce ∉ actions ∧ Serviceable models server) ∧
      (server.phase ≠ .stopping → (.announce ∈ actions ↔ .beginStop ∈ actions)) := by
  obtain ⟨models, hmodels, hreflects⟩ := reflects_of_run hcreate hrun
  obtain ⟨hdistinct, directory, hdirectory, hdefine⟩ := Repository.scan_eq_ok hmodels
  have hreached := Phase.Reached.of_run (State.traffic_of_create hcreate).2 hrun
  have hagree := hreflects.agree hdistinct
  have hdefined : ∀ model ∈ models, ∀ definition, model.definition = .ok definition →
      ∃ entries, (.text model.name, entries) ∈ subdirectories directory ∧ definition.versions =
        definition.config.policy.select (Repository.availableVersions entries) ∧
          definition.versions ≠ [] := by
    intro model hmodel definition hdefinition
    obtain ⟨entries, hentries, hsame⟩ := hdefine model hmodel
    obtain ⟨-, -, hversions, hselected⟩ :=
      Repository.define_eq_ok (hsame.symm.trans hdefinition)
    exact ⟨entries, hentries, hversions, hselected⟩
  refine ⟨models, directory, hmodels, hdirectory, fun model hmodel definition hdefinition ↦ ?_,
    hagree, ?_, ?_, fun hphase ↦ ?_⟩
  · obtain ⟨entries, hentries, hversions, -⟩ := hdefined model hmodel definition hdefinition
    exact ⟨entries, hentries, hversions⟩
  · rw [(sameModels_of_run hrun).options, State.options_of_create hcreate]
  · refine isReady_iff hagree hreached fun model hmodel definition hdefinition ↦ ?_
    obtain ⟨_, -, -, hselected⟩ := hdefined model hmodel definition hdefinition
    exact hselected
  · rw [← hreached.exiting, ← not_iff_not, ← hreached.serving]
    revert hphase
    cases server.phase <;> simp [Phase.state]

theorem agree_of_run_echoRun :
    ∃ start server models,
      State.create shelf .standard "shelf" { repository := "/models" } = .ok start ∧
        start.run echoRun = some server ∧ Agree models server ∧ Serviceable models server := by
  have hchecked : ((State.create shelf .standard "shelf"
      { repository := "/models" }).toOption.any fun start ↦
        (start.run echoRun).any fun server ↦ server.isReady) = true := by
    decide +kernel
  obtain ⟨start, server, hstart, hserver, hchecked⟩ := State.exists_run_of_any hchecked
  obtain ⟨models, directory, -, -, -, hagree, -, hready, -⟩ := agree_of_run hstart hserver
  exact ⟨start, server, models, hstart, hserver, hagree, (hready.1 hchecked).2⟩

end TensorInference.Server
