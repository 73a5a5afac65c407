import TensorInference.Proofs.OrderedMap
import TensorInference.Server.Timer

/-!
# What recording leaves alone

A status table is read through two look-ups: the heading of a model, and the status of a version.
Each operation is described by what it changes of them. Recording a request changes the statistics
of one version only, so the standing of every version, its state with the reason for it, stays as
loading left it; the outline of a table is its configurations and states.
-/

namespace TensorInference.Server

open Model Wire

namespace StatusTable

variable {table : StatusTable} {model name : String} {version number : UInt64}

/-- What the table says of a model as a whole: its configuration, and why it is not available. -/
def heading (table : StatusTable) (model : String) : Option (Option Config × Option String) :=
  (table.models.get? model).map fun status ↦ (status.config, status.reason)

/-- What the table says of a version besides its statistics: its state, and the reason for it. -/
def standing (table : StatusTable) (model : String) (version : UInt64) :
    Option (VersionState × Option String) :=
  (table.version? model version).map fun status ↦ (status.state, status.reason)

/-- The configuration of a model and the states of its versions. -/
def outline (table : StatusTable) (model : String) :
    Option (Option Config × (UInt64 → Option VersionState)) :=
  (table.models.get? model).map fun status ↦
    (status.config, fun version ↦ (status.versions.get? version).map (·.state))

theorem contains_eq : table.contains model = (table.outline model).isSome := by
  rw [outline, Option.isSome_map]
  rfl

theorem state?_eq :
    table.state? model version = (table.outline model).bind fun outline ↦ outline.2 version := by
  rw [state?, version?, outline]
  cases table.models.get? model with
  | none => rfl
  | some status => rfl

theorem state?_eq_standing :
    table.state? model version = (table.standing model version).map (·.1) := by
  rw [state?, standing, Option.map_map]
  rfl

theorem outline_eq : table.outline model = (table.heading model).map fun heading ↦
    (heading.1, fun version ↦ table.state? model version) := by
  rw [outline, heading, Option.map_map]
  refine Option.map_congr fun status hstatus ↦ ?_
  simp only [state?, version?, hstatus, Option.bind_some, Function.comp_apply]

/-- Whether all versions are ready is told by the outline. -/
theorem allReady_iff_outline : table.allReady = true ↔
    ∀ name outline, table.outline name = some outline → outline.1.isSome = true ∧
      (∃ version, (outline.2 version).isSome = true) ∧
        ∀ version state, outline.2 version = some state → state = .ready := by
  have hmodel : ∀ status : ModelStatus, status.isFullyReady = true ↔
      status.config.isSome = true ∧
        (∃ version, ((status.versions.get? version).map (·.state)).isSome = true) ∧
          ∀ version state,
            (status.versions.get? version).map (·.state) = some state → state = .ready := by
    intro status
    unfold ModelStatus.isFullyReady
    rw [Bool.and_eq_true, Bool.and_eq_true, Bool.not_eq_true', OrderedMap.isEmpty_eq_false_iff,
      List.all_eq_true, and_assoc]
    refine and_congr_right fun _ ↦ and_congr ?_ ?_
    · simp only [Option.isSome_map, Option.isSome_iff_exists]
    · constructor
      · intro hall version state hstate
        obtain ⟨found, hfound, rfl⟩ := Option.map_eq_some_iff.1 hstate
        exact of_decide_eq_true (hall found (OrderedMap.mem_values_iff.2 ⟨version, hfound⟩))
      · intro hall found hfound
        obtain ⟨version, hversion⟩ := OrderedMap.mem_values_iff.1 hfound
        exact decide_eq_true (hall version _ (Option.map_eq_some_iff.2 ⟨found, hversion, rfl⟩))
  unfold allReady
  rw [List.all_eq_true]
  constructor
  · intro hall name outline houtline
    obtain ⟨status, hstatus, rfl⟩ := Option.map_eq_some_iff.1 houtline
    exact (hmodel status).1 (hall status (OrderedMap.mem_values_iff.2 ⟨name, hstatus⟩))
  · intro hall status hstatus
    obtain ⟨name, hname⟩ := OrderedMap.mem_values_iff.1 hstatus
    exact (hmodel status).2 (hall name _ (Option.map_eq_some_iff.2 ⟨status, hname, rfl⟩))

/-- The entry of a model is told by its heading and its versions. -/
theorem get?_eq {other : StatusTable}
    (hheading : other.heading name = table.heading name)
    (hversion : ∀ version, other.version? name version = table.version? name version) :
    other.models.get? name = table.models.get? name := by
  unfold heading at hheading
  unfold version? at hversion
  cases htable : table.models.get? name with
  | none =>
    rw [htable, Option.map_none] at hheading
    exact Option.map_eq_none_iff.1 hheading
  | some status =>
    rw [htable, Option.map_some] at hheading
    obtain ⟨found, hfound, hpair⟩ := Option.map_eq_some_iff.1 hheading
    obtain ⟨hconfig, hreason⟩ := Prod.mk.inj hpair
    have hversions : found.versions = status.versions := by
      refine OrderedMap.eq_of_get? fun version ↦ ?_
      have hsame := hversion version
      rwa [hfound, htable] at hsame
    obtain ⟨config, reason, versions⟩ := status
    obtain ⟨config', reason', versions'⟩ := found
    obtain rfl : config' = config := hconfig
    obtain rfl : reason' = reason := hreason
    obtain rfl : versions' = versions := hversions
    exact hfound

/-- Tables that say the same are the same. -/
theorem eq_of_lookups {other : StatusTable} (hheading : other.heading = table.heading)
    (hversion : ∀ name version, other.version? name version = table.version? name version) :
    other = table := by
  obtain ⟨models⟩ := table
  obtain ⟨models'⟩ := other
  exact congrArg StatusTable.mk (OrderedMap.eq_of_get? fun name ↦
    get?_eq (congrFun hheading name) (hversion name))

theorem heading_record {change : VersionStatus → VersionStatus} :
    (table.record name version change).heading = table.heading := by
  funext model
  rw [heading, record, OrderedMap.get?_modify, heading]
  split
  · rename_i hmodel
    rw [hmodel, Option.map_map]
    rfl
  · rfl

theorem version?_record {change : VersionStatus → VersionStatus} :
    (table.record name version change).version? model number =
      if model = name ∧ number = version then (table.version? name version).map change
      else table.version? model number := by
  rw [version?, record, OrderedMap.get?_modify, version?, version?]
  by_cases hmodel : model = name
  · subst hmodel
    rw [if_pos rfl]
    cases table.models.get? model with
    | none => simp
    | some status => simp [OrderedMap.get?_modify]
  · rw [if_neg hmodel, if_neg fun h ↦ hmodel h.1]

theorem heading_setState {state : VersionState} {reason : Option String}
    (h : (table.heading name).isSome) :
    (table.setState name version state reason).heading = table.heading := by
  funext model
  rw [heading, Option.isSome_map] at h
  obtain ⟨status, hstatus⟩ := Option.isSome_iff_exists.1 h
  rw [heading, setState, OrderedMap.get?_upsert, heading]
  split
  · rename_i hmodel
    rw [hmodel, hstatus]
    rfl
  · rfl

theorem version?_setState {state : VersionState} {reason : Option String} :
    (table.setState name version state reason).version? model number =
      if model = name ∧ number = version then
        some { (table.version? name version).getD (.initial .unknown) with state, reason }
      else table.version? model number := by
  rw [version?, setState, OrderedMap.get?_upsert, version?, version?]
  by_cases hmodel : model = name
  · subst hmodel
    rw [if_pos rfl, Option.bind_some, OrderedMap.get?_upsert]
    cases table.models.get? model with
    | none => simp [ModelStatus.empty]
    | some status => simp
  · rw [if_neg hmodel, if_neg fun h ↦ hmodel h.1]

theorem heading_addModel {config : Config} {versions : List UInt64} :
    (table.addModel name config versions).heading model =
      if model = name then some (some config, none) else table.heading model := by
  rw [heading, addModel, OrderedMap.get?_insert_eq_ite, heading]
  split
  · rfl
  · rfl

theorem version?_addModel {config : Config} {versions : List UInt64} :
    (table.addModel name config versions).version? model version =
      if model = name then if version ∈ versions then some (.initial .loading) else none
      else table.version? model version := by
  rw [version?, addModel, OrderedMap.get?_insert_eq_ite, version?]
  split
  · exact OrderedMap.get?_ofList_map
  · rfl

theorem heading_addUnavailable {reason : String} :
    (table.addUnavailable name reason).heading model =
      if model = name then some (none, some reason) else table.heading model := by
  rw [heading, addUnavailable, OrderedMap.get?_insert_eq_ite, heading]
  split
  · rfl
  · rfl

theorem version?_addUnavailable {reason : String} :
    (table.addUnavailable name reason).version? model version =
      if model = name then none else table.version? model version := by
  rw [version?, addUnavailable, OrderedMap.get?_insert_eq_ite, version?]
  split
  · rfl
  · rfl

/-- Two tables that say the same besides the statistics. -/
structure SameStanding (table other : StatusTable) : Prop where
  heading : other.heading = table.heading
  standing : other.standing = table.standing

namespace SameStanding

variable {other third : StatusTable}

theorem refl : SameStanding table table := ⟨rfl, rfl⟩

theorem trans (h : SameStanding table other) (h' : SameStanding other third) :
    SameStanding table third :=
  ⟨h'.heading.trans h.heading, h'.standing.trans h.standing⟩

theorem state? (h : SameStanding table other) :
    other.state? model version = table.state? model version := by
  rw [state?_eq_standing, h.standing, state?_eq_standing]

theorem outline (h : SameStanding table other) : other.outline = table.outline := by
  funext model
  rw [outline_eq, outline_eq, h.heading]
  simp only [h.state?]

end SameStanding

/-- Recording keeps the standings if it keeps the one of its version. -/
theorem sameStanding_record {change : VersionStatus → VersionStatus}
    (h : ∀ status,
      ((change status).state, (change status).reason) = (status.state, status.reason)) :
    SameStanding table (table.record name version change) where
  heading := heading_record
  standing := by
    funext model number
    rw [standing, version?_record, standing]
    split
    · rename_i hsame
      obtain ⟨rfl, rfl⟩ := hsame
      rw [Option.map_map]
      exact Option.map_congr fun status _ ↦ h status
    · rfl

end StatusTable

variable {timer : Timer} {now : Nanoseconds} {books : Books}

theorem Timer.sameStanding_finish {success : Bool} :
    StatusTable.SameStanding books.status (timer.finish success now books).2.status := by
  unfold Timer.finish
  split
  · exact .refl
  · dsimp only
    split
    · exact .refl
    · split
      · exact StatusTable.sameStanding_record fun _ ↦ rfl
      · exact StatusTable.sameStanding_record fun _ ↦ rfl

theorem Timer.sameStanding_drop :
    StatusTable.SameStanding books.status (timer.drop now books).status :=
  sameStanding_finish

end TensorInference.Server
