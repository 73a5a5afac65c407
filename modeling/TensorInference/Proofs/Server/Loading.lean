import Mathlib.Data.List.Induction
import TensorInference.Proofs.Files.Relisting
import TensorInference.Proofs.Model.Validation
import TensorInference.Proofs.Server.StatusTable
import TensorInference.Server.State

/-!
# What loading establishes

Loading enters the models that were discovered one after the other, and the versions of each in
turn. What becomes of all of them is known in advance: the heading of a model tells whether it has
a definition, and a selected version has its backend if it loads and is called unavailable if it
does not. Since models are discovered under different names, no later model touches the entries of
an earlier one, and the two tables are read off the discovered models (`Tabulates`). In particular
a created server has a backend for exactly the versions that are ready (`Consistent`).
-/

namespace TensorInference

open Model Files Wire

namespace Model.Repository

variable {files : Tree}

/-- A model is defined by a configuration that can be read and is valid, and under whose policy it
has versions to be served. -/
theorem exists_of_define {name : String} {directory : Path} {entries : Directory}
    {definition : Definition} (h : define files name directory entries = .ok definition) :
    ∃ text given config, files.readText (Path.join directory configFile) = .ok text ∧
      Config.codec.read (Bytes.ofText text) = .ok given ∧ given.validate name = .ok config ∧
      config.policy.select (availableVersions entries) ≠ [] ∧
      definition = ⟨name, directory, config, config.policy.select (availableVersions entries)⟩ := by
  unfold define at h
  dsimp only at h
  split at h
  · rename_i text htext
    obtain ⟨_, hread, h⟩ := Outcome.bind_eq_ok_iff.1 h
    obtain rfl := Except.ok.inj hread
    split at h
    · rename_i given hgiven
      obtain ⟨_, hparsed, h⟩ := Outcome.bind_eq_ok_iff.1 h
      obtain rfl := Except.ok.inj hparsed
      obtain ⟨config, hconfig, h⟩ := Outcome.bind_eq_ok_iff.1 h
      obtain ⟨hversions, h⟩ := Outcome.guard_eq_ok_iff.1 h
      exact ⟨text, given, config, htext, hgiven, hconfig, hversions, (Except.ok.inj h).symm⟩
    · obtain ⟨_, hfault, -⟩ := Outcome.bind_eq_ok_iff.1 h
      cases hfault
  · obtain ⟨_, hfault, -⟩ := Outcome.bind_eq_ok_iff.1 h
    cases hfault

/-- A definition is valid, and it selects versions of its model by its own policy. -/
theorem define_eq_ok {name : String} {directory : Path} {entries : Directory}
    {definition : Definition} (h : define files name directory entries = .ok definition) :
    definition.name = name ∧ definition.config.WellFormed ∧
      definition.versions = definition.config.policy.select (availableVersions entries) ∧
      definition.versions ≠ [] := by
  obtain ⟨_, _, config, -, -, hconfig, hversions, rfl⟩ := exists_of_define h
  exact ⟨rfl, Config.wellFormed_of_validate hconfig, rfl, hversions⟩

/-- Models are discovered under different names, each in its own directory. -/
theorem scan_eq_ok {root : Path} {models : List Discovered} (h : scan files root = .ok models) :
    (models.map (·.name)).Nodup ∧ ∃ directory, files.directory? root = some directory ∧
      ∀ model ∈ models, ∃ entries, (.text model.name, entries) ∈ subdirectories directory ∧
        model.definition = define files model.name (Path.join root model.name) entries := by
  unfold scan at h
  split at h
  · simp at h
  split at h
  · simp at h
  split at h
  · simp at h
  rename_i directory hdirectory
  dsimp only at h
  obtain rfl := Except.ok.inj h
  refine ⟨?_, directory, hdirectory, ?_⟩
  · rw [List.map_map]
    exact OrderedMap.keys_nodup _
  · rw [List.forall_mem_map]
    intro entry hentry
    obtain ⟨⟨name, entries⟩, hmem, rfl⟩ := List.mem_map.1 (OrderedMap.mem_of_mem_ofList hentry)
    exact ⟨entries, mem_subdirectories_iff.2 (mem_textSubdirectories_iff.1
      (List.mem_of_mem_filter hmem)), rfl⟩

theorem define_of_scan {root : Path} {models : List Discovered} (h : scan files root = .ok models)
    {model : Discovered} (hmodel : model ∈ models) {definition : Definition}
    (hdefinition : model.definition = .ok definition) :
    definition.name = model.name ∧ definition.config.WellFormed := by
  obtain ⟨-, directory, -, hdefine⟩ := scan_eq_ok h
  obtain ⟨entries, -, hsame⟩ := hdefine model hmodel
  obtain ⟨hname, hconfig, -⟩ := define_eq_ok (hsame.symm.trans hdefinition)
  exact ⟨hname, hconfig⟩

end Model.Repository

namespace Model.Discovered

/-- The discovered model of a name. -/
def named (models : List Discovered) (name : String) : Option Discovered :=
  models.find? (·.name = name)

/-- What is said of a discovered model as a whole: its configuration, or why it has none. -/
def heading (model : Discovered) : Option Config × Option String :=
  match model.definition with
  | .ok definition => (some definition.config, none)
  | .error fault => (none, some fault.message)

variable {models : List Discovered} {model : Discovered} {name : String}

theorem named_eq_some_iff (hdistinct : (models.map (·.name)).Nodup) :
    named models name = some model ↔ model ∈ models ∧ model.name = name :=
  Named.find?_eq_some_iff hdistinct

theorem named_eq_none_iff : named models name = none ↔ name ∉ models.map (·.name) := by
  simp [named, List.find?_eq_none]

theorem named_append_singleton (h : named models model.name = none) :
    named (models ++ [model]) name =
      if name = model.name then some model else named models name := by
  rw [named, List.find?_append]
  split
  · rename_i hname
    subst hname
    rw [named] at h
    rw [h]
    simp
  · rename_i hname
    simp [named, Ne.symm hname]

end Model.Discovered

namespace Server

/-! ## Discovered models in the tables -/

/-- The backend of a loaded model version. -/
def Backends.version? (backends : Backends) (model : String) (version : UInt64) : Option Backend :=
  (backends.get? model).bind (·.get? version)

theorem Backends.version?_upsert {backends : Backends} {name model : String}
    {version other : UInt64} {backend : Backend} :
    (Backends.version? (backends.upsert name .empty (·.insert version backend)) model other) =
      if model = name ∧ other = version then some backend
      else backends.version? model other := by
  rw [version?, OrderedMap.get?_upsert, version?]
  by_cases hmodel : model = name
  · subst hmodel
    rw [if_pos rfl, Option.bind_some]
    by_cases hversion : other = version
    · subst hversion
      rw [if_pos ⟨rfl, rfl⟩, OrderedMap.get?_insert_self]
    · rw [if_neg fun h ↦ hversion h.2, OrderedMap.get?_insert_of_ne _ _ hversion]
      cases backends.get? model with
      | none => rfl
      | some versions => rfl
  · rw [if_neg hmodel, if_neg fun h ↦ hmodel h.1]

/-- The state of a version after an attempt to load it, with the reason for it. -/
def verdict : Except Status Backend → VersionState × Option String
  | .ok _ => (.ready, none)
  | .error fault => (.unavailable, some fault.message)

/-- The status of a version after an attempt to load it. -/
def settled (outcome : Except Status Backend) (status : VersionStatus) : VersionStatus :=
  { status with state := (verdict outcome).1, reason := (verdict outcome).2 }

/-- The attempt to load a version of a model, if the model has a definition that selects it. -/
def loading? (files : Tree) (registry : Platform.Registry) (metered : Bool)
    (models : List Discovered) (name : String) (version : UInt64) :
    Option (Except Status Backend) :=
  (Discovered.named models name).bind fun model ↦
    match model.definition with
    | .ok definition =>
      if version ∈ definition.versions then
        some (Backend.load files registry metered definition version)
      else none
    | .error _ => none

/-- What was loaded is read off the discovered models. -/
structure Tabulates (files : Tree) (registry : Platform.Registry) (metered : Bool)
    (models : List Discovered) (loaded : Loaded) : Prop where
  heading : ∀ name,
    loaded.books.status.heading name = (Discovered.named models name).map Discovered.heading
  status : ∀ name version, loaded.books.status.version? name version =
    (loading? files registry metered models name version).map (settled · (.initial .loading))
  backend : ∀ name version, loaded.backends.version? name version =
    (loading? files registry metered models name version).bind Except.toOption
  /-- No model is listed without a version. -/
  inhabited : ∀ name versions, loaded.backends.get? name = some versions → versions.isEmpty = false

/-- What is routed and what is reported, besides statistics, is read off the discovered models. -/
structure Reflects (files : Tree) (registry : Platform.Registry) (metered : Bool)
    (models : List Discovered) (backends : Backends) (table : StatusTable) : Prop where
  heading : ∀ name, table.heading name = (Discovered.named models name).map Discovered.heading
  standing : ∀ name version,
    table.standing name version = (loading? files registry metered models name version).map verdict
  backend : ∀ name version, backends.version? name version =
    (loading? files registry metered models name version).bind Except.toOption
  inhabited : ∀ name versions, backends.get? name = some versions → versions.isEmpty = false

variable {files : Tree} {registry : Platform.Registry} {metered : Bool} {loaded : Loaded}

theorem settled_settled (outcome : Except Status Backend) (status : VersionStatus) :
    settled outcome (settled outcome status) = settled outcome status := rfl

theorem Tabulates.reflects {models : List Discovered}
    (h : Tabulates files registry metered models loaded) :
    Reflects files registry metered models loaded.backends loaded.books.status where
  heading := h.heading
  standing name version := by
    rw [StatusTable.standing, h.status, Option.map_map]
    rfl
  backend := h.backend
  inhabited := h.inhabited

/-! ## Versions of one model -/

section Versions

variable {definition : Definition}

theorem Backend.load_eq_ok {version : UInt64} {backend : Backend}
    (h : load files registry metered definition version = .ok backend) :
    backend.name = definition.name ∧ backend.version = version ∧
      backend.config = definition.config ∧ backend.metered = metered := by
  unfold load at h
  obtain ⟨_, -, h⟩ := Outcome.bind_eq_ok_iff.1 h
  obtain ⟨_, -, h⟩ := Outcome.bind_eq_ok_iff.1 h
  obtain rfl := Except.ok.inj h
  exact ⟨rfl, rfl, rfl, rfl⟩

theorem Loaded.heading_addVersion {version : UInt64}
    (h : (loaded.books.status.heading definition.name).isSome) :
    (loaded.addVersion files registry metered definition version).books.status.heading =
      loaded.books.status.heading := by
  unfold addVersion
  dsimp only
  split
  · exact StatusTable.heading_setState h
  · exact StatusTable.heading_setState h

theorem Loaded.status_addVersion {version number : UInt64} {model : String} :
    (loaded.addVersion files registry metered definition version).books.status.version? model
        number =
      if model = definition.name ∧ number = version then
        some (settled (Backend.load files registry metered definition version)
          ((loaded.books.status.version? definition.name version).getD (.initial .unknown)))
      else loaded.books.status.version? model number := by
  unfold addVersion
  dsimp only
  split
  · rename_i hload
    rw [StatusTable.version?_setState, hload]
    rfl
  · rename_i hload
    rw [StatusTable.version?_setState, hload]
    rfl

theorem Loaded.backend_addVersion {version number : UInt64} {model : String} :
    (loaded.addVersion files registry metered definition version).backends.version? model number =
      if model = definition.name ∧ number = version then
        (Backend.load files registry metered definition version).toOption.or
          (loaded.backends.version? model number)
      else loaded.backends.version? model number := by
  unfold addVersion
  dsimp only
  split
  · rename_i hload
    rw [Backends.version?_upsert, hload]
    rfl
  · rename_i hload
    rw [hload]
    exact (ite_self _).symm

theorem Loaded.inhabited_addVersion {version : UInt64}
    (h : ∀ name versions, loaded.backends.get? name = some versions → versions.isEmpty = false)
    (name : String) (versions : OrderedMap UInt64 Backend)
    (hname : (loaded.addVersion files registry metered definition version).backends.get? name =
      some versions) : versions.isEmpty = false := by
  unfold addVersion at hname
  dsimp only at hname
  split at hname
  · rw [OrderedMap.get?_upsert] at hname
    split at hname
    · obtain rfl := Option.some.inj hname
      exact OrderedMap.isEmpty_insert _ _ _
    · exact h name versions hname
  · exact h name versions hname

/-- Loading versions settles the status of each, the later ones of a repetition as the first. -/
theorem Loaded.addVersions (versions : List UInt64)
    (h : (loaded.books.status.heading definition.name).isSome) :
    let final := versions.foldl (addVersion files registry metered definition) loaded
    final.books.status.heading = loaded.books.status.heading ∧
    (∀ model number, final.books.status.version? model number =
      if model = definition.name ∧ number ∈ versions then
        some (settled (Backend.load files registry metered definition number)
          ((loaded.books.status.version? definition.name number).getD (.initial .unknown)))
      else loaded.books.status.version? model number) ∧
    ∀ model number, final.backends.version? model number =
      if model = definition.name ∧ number ∈ versions then
        (Backend.load files registry metered definition number).toOption.or
          (loaded.backends.version? model number)
      else loaded.backends.version? model number := by
  induction versions generalizing loaded with
  | nil => simp
  | cons version rest ih =>
    have hheading := @heading_addVersion files registry metered loaded definition version h
    obtain ⟨hrest, hstatus, hbackend⟩ :=
      @ih (loaded.addVersion files registry metered definition version) (by rw [hheading]; exact h)
    refine ⟨hrest.trans hheading, fun model number ↦ ?_, fun model number ↦ ?_⟩
    · rw [List.foldl_cons, hstatus, status_addVersion, status_addVersion]
      by_cases hmodel : model = definition.name
      · subst hmodel
        by_cases hnumber : number = version
        · subst hnumber
          simp [settled_settled]
        · simp [hnumber]
      · simp [hmodel]
    · rw [List.foldl_cons, hbackend, backend_addVersion]
      by_cases hmodel : model = definition.name
      · subst hmodel
        by_cases hnumber : number = version
        · subst hnumber
          cases (Backend.load files registry metered definition number).toOption <;> simp
        · simp [hnumber]
      · simp [hmodel]

theorem Loaded.inhabited_addVersions (versions : List UInt64)
    (h : ∀ name versions, loaded.backends.get? name = some versions → versions.isEmpty = false) :
    ∀ name found, (versions.foldl (addVersion files registry metered definition)
      loaded).backends.get? name = some found → found.isEmpty = false := by
  induction versions generalizing loaded with
  | nil => exact h
  | cons version rest ih => exact ih (inhabited_addVersion h)

end Versions

/-! ## All models -/

theorem tabulates_empty : Tabulates files registry metered [] ⟨.empty, .empty⟩ where
  heading _ := rfl
  status _ _ := rfl
  backend _ _ := rfl
  inhabited _ _ h := by cases h

theorem loading?_append_singleton {models : List Discovered} {model : Discovered} {name : String}
    {version : UInt64} (h : Discovered.named models model.name = none) :
    loading? files registry metered (models ++ [model]) name version =
      if name = model.name then loading? files registry metered [model] model.name version
      else loading? files registry metered models name version := by
  rw [loading?, Discovered.named_append_singleton h]
  split
  · simp [loading?, Discovered.named]
  · rfl

section NewModel

variable {models : List Discovered} {model : Discovered}

theorem Tabulates.backend_of_new (h : Tabulates files registry metered models loaded)
    (hnew : Discovered.named models model.name = none) (version : UInt64) :
    loaded.backends.version? model.name version = none := by
  rw [h.backend, loading?, hnew]
  rfl

/-- A model without a definition is entered beside the others. -/
theorem Tabulates.addBroken {fault : Status} (h : Tabulates files registry metered models loaded)
    (hnew : Discovered.named models model.name = none) (hmodel : model.definition = .error fault) :
    Tabulates files registry metered (models ++ [model])
      (loaded.addModel files registry metered model) := by
  have hself : ∀ version, loading? files registry metered [model] model.name version = none := by
    simp [loading?, Discovered.named, hmodel]
  rw [Loaded.addModel, hmodel]
  dsimp only
  refine ⟨fun name ↦ ?_, fun name version ↦ ?_, fun name version ↦ ?_, h.inhabited⟩
  · rw [StatusTable.heading_addUnavailable, Discovered.named_append_singleton hnew, h.heading]
    split
    · rw [Option.map_some, Discovered.heading, hmodel]
    · rfl
  · rw [StatusTable.version?_addUnavailable, loading?_append_singleton hnew, h.status, hself]
    split <;> rfl
  · rw [loading?_append_singleton hnew, hself]
    split
    · rename_i hname
      rw [hname]
      exact h.backend_of_new hnew version
    · exact h.backend name version

/-- A model with a definition is entered beside the others, and then its versions are settled. -/
theorem Tabulates.addDefined {definition : Definition}
    (h : Tabulates files registry metered models loaded)
    (hnew : Discovered.named models model.name = none)
    (hmodel : model.definition = .ok definition) (hname : definition.name = model.name) :
    Tabulates files registry metered (models ++ [model])
      (loaded.addModel files registry metered model) := by
  have hself : ∀ version, loading? files registry metered [model] model.name version =
      if version ∈ definition.versions then
        some (Backend.load files registry metered definition version)
      else none := by
    simp [loading?, Discovered.named, hmodel]
  rw [Loaded.addModel, hmodel]
  dsimp only
  rw [hname]
  generalize hentered : ({ loaded with books := { loaded.books with
    status := loaded.books.status.addModel model.name definition.config
      definition.versions } } : Loaded) = entered
  have hheading : ∀ name, entered.books.status.heading name =
      if name = model.name then some (some definition.config, none)
      else loaded.books.status.heading name := by
    intro name
    rw [← hentered, StatusTable.heading_addModel]
  have hstatus : ∀ name version, entered.books.status.version? name version =
      if name = model.name then
        if version ∈ definition.versions then some (.initial .loading) else none
      else loaded.books.status.version? name version := by
    intro name version
    rw [← hentered, StatusTable.version?_addModel]
  have hbackends : entered.backends = loaded.backends := by rw [← hentered]
  obtain ⟨hallheadings, hallstatus, hallbackends⟩ :=
    @Loaded.addVersions files registry metered entered definition definition.versions
      (by rw [hheading, hname, if_pos rfl]; rfl)
  refine ⟨fun name ↦ ?_, fun name version ↦ ?_, fun name version ↦ ?_,
    Loaded.inhabited_addVersions _ (hbackends ▸ h.inhabited)⟩
  · rw [hallheadings, hheading, Discovered.named_append_singleton hnew, h.heading]
    split
    · rw [Option.map_some, Discovered.heading, hmodel]
    · rfl
  · rw [hallstatus, hname, hstatus, hstatus, loading?_append_singleton hnew, hself]
    by_cases hsame : name = model.name
    · by_cases hselected : version ∈ definition.versions
      · simp [hsame, hselected]
      · simp [hsame, hselected]
    · simp only [hsame, false_and, if_false]
      exact h.status name version
  · rw [hallbackends, hname, hbackends, loading?_append_singleton hnew, hself]
    by_cases hsame : name = model.name
    · rw [hsame, h.backend_of_new hnew]
      by_cases hselected : version ∈ definition.versions
      · simp [hselected]
      · simp [hselected]
    · simp only [hsame, false_and, if_false]
      exact h.backend name version

end NewModel

theorem tabulates_addModels {models : List Discovered} (hdistinct : (models.map (·.name)).Nodup)
    (hdefinition : ∀ model ∈ models, ∀ definition, model.definition = .ok definition →
      definition.name = model.name) :
    Tabulates files registry metered models
      (models.foldl (Loaded.addModel files registry metered) ⟨.empty, .empty⟩) := by
  induction models using List.reverseRecOn with
  | nil => exact tabulates_empty
  | append_singleton models model ih =>
    rw [List.map_append, List.nodup_append] at hdistinct
    rw [List.foldl_append]
    have hbefore := ih hdistinct.1 fun other hother ↦
      hdefinition other (List.mem_append_left _ hother)
    have hnew : Discovered.named models model.name = none := by
      rw [Discovered.named_eq_none_iff]
      intro hmem
      exact hdistinct.2.2 _ hmem _ List.mem_cons_self rfl
    cases hmodel : model.definition with
    | error fault => exact hbefore.addBroken hnew hmodel
    | ok definition =>
      exact hbefore.addDefined hnew hmodel
        (hdefinition model (List.mem_append_right _ List.mem_cons_self) definition hmodel)

/-- The tables of a created server are read off the discovered models. -/
theorem State.tabulates_of_create {freshId : String} {options : Options} {server : State}
    (h : create files registry freshId options = .ok server) :
    ∃ models, Repository.scan files options.repository = .ok models ∧
      Tabulates files registry options.metrics models ⟨server.backends, server.books⟩ := by
  obtain ⟨models, hmodels, hserver⟩ := Outcome.bind_eq_ok_iff.1 h
  obtain rfl := Except.ok.inj hserver
  exact ⟨models, hmodels, tabulates_addModels (Repository.scan_eq_ok hmodels).1
    fun model hmodel definition hok ↦ (Repository.define_of_scan hmodels hmodel hok).1⟩

/-! ## Ready versions and their backends -/

/-- Exactly the ready versions have a backend, and it carries what the table says of it. -/
structure Consistent (backends : Backends) (table : StatusTable) : Prop where
  served : ∀ {model version backend}, backends.version? model version = some backend →
    backend.name = model ∧ backend.version = version ∧ backend.config.WellFormed ∧
      ∃ states, table.outline model = some (some backend.config, states) ∧
        states version = some .ready
  ready : ∀ {model version}, table.state? model version = some .ready →
    ∃ backend, backends.version? model version = some backend

theorem loading?_eq_some_iff {models : List Discovered} {name : String} {version : UInt64}
    {outcome : Except Status Backend} (hdistinct : (models.map (·.name)).Nodup) :
    loading? files registry metered models name version = some outcome ↔
      ∃ model ∈ models, ∃ definition, model.name = name ∧ model.definition = .ok definition ∧
        version ∈ definition.versions ∧
        Backend.load files registry metered definition version = outcome := by
  rw [loading?, Option.bind_eq_some_iff]
  constructor
  · rintro ⟨model, hnamed, hattempt⟩
    obtain ⟨hmodel, hname⟩ := (Discovered.named_eq_some_iff hdistinct).1 hnamed
    split at hattempt
    · rename_i definition hdefinition
      obtain ⟨hversion, hload⟩ := Option.ite_none_right_eq_some.1 hattempt
      exact ⟨model, hmodel, definition, hname, hdefinition, hversion, Option.some.inj hload⟩
    · cases hattempt
  · rintro ⟨model, hmodel, definition, hname, hdefinition, hversion, rfl⟩
    refine ⟨model, (Discovered.named_eq_some_iff hdistinct).2 ⟨hmodel, hname⟩, ?_⟩
    rw [hdefinition]
    exact if_pos hversion

namespace Reflects

variable {models : List Discovered} {backends : Backends} {table : StatusTable} {name : String}
  {version : UInt64} {backend : Backend}

theorem state? (h : Reflects files registry metered models backends table) :
    table.state? name version =
      (loading? files registry metered models name version).map fun outcome ↦
        (verdict outcome).1 := by
  rw [StatusTable.state?_eq_standing, h.standing, Option.map_map]
  rfl

theorem version?_eq_some_iff (h : Reflects files registry metered models backends table) :
    backends.version? name version = some backend ↔
      loading? files registry metered models name version = some (.ok backend) := by
  rw [h.backend]
  cases loading? files registry metered models name version with
  | none => simp
  | some outcome => cases outcome <;> simp [Except.toOption]

theorem state?_eq_ready_iff (h : Reflects files registry metered models backends table) :
    table.state? name version = some .ready ↔
      ∃ backend, backends.version? name version = some backend := by
  simp only [h.version?_eq_some_iff, h.state?]
  cases loading? files registry metered models name version with
  | none => simp
  | some outcome => cases outcome <;> simp [verdict]

/-- A backend is what loading a selected version of its model gave. -/
theorem exists_definition (h : Reflects files registry metered models backends table)
    (hdistinct : (models.map (·.name)).Nodup)
    (hbackend : backends.version? name version = some backend) :
    ∃ model ∈ models, ∃ definition, model.name = name ∧ model.definition = .ok definition ∧
      version ∈ definition.versions ∧
      Backend.load files registry metered definition version = .ok backend :=
  (loading?_eq_some_iff hdistinct).1 (h.version?_eq_some_iff.1 hbackend)

theorem consistent (h : Reflects files registry metered models backends table)
    (hdistinct : (models.map (·.name)).Nodup)
    (hdefinition : ∀ model ∈ models, ∀ definition, model.definition = .ok definition →
      definition.name = model.name ∧ definition.config.WellFormed) :
    Consistent backends table where
  served {name version backend} hbackend := by
    have hready := h.state?_eq_ready_iff.2 ⟨backend, hbackend⟩
    obtain ⟨model, hmodel, definition, rfl, hok, -, hload⟩ := h.exists_definition hdistinct hbackend
    obtain ⟨hname, hconfig⟩ := hdefinition model hmodel definition hok
    obtain ⟨hbackendName, hversion, hbackendConfig, -⟩ := Backend.load_eq_ok hload
    refine ⟨hbackendName.trans hname, hversion, hbackendConfig ▸ hconfig, _, ?_, hready⟩
    rw [StatusTable.outline_eq, h.heading,
      (Discovered.named_eq_some_iff hdistinct).2 ⟨hmodel, rfl⟩, Option.map_some, Option.map_some,
      Discovered.heading, hok, hbackendConfig]
  ready := h.state?_eq_ready_iff.1

end Reflects

/-- A created server is consistent. -/
theorem State.consistent_of_create {freshId : String} {options : Options} {server : State}
    (h : create files registry freshId options = .ok server) :
    Consistent server.backends server.books.status := by
  obtain ⟨models, hmodels, htabulates⟩ := tabulates_of_create h
  exact htabulates.reflects.consistent (Repository.scan_eq_ok hmodels).1
    fun model hmodel definition hok ↦ Repository.define_of_scan hmodels hmodel hok

end Server

end TensorInference
