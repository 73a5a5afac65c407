import TensorInference.Proofs.Files.Lookup
import TensorInference.Proofs.Model.Scanning

/-!
# Repositories that differ in one model

Two repositories at the same path have the same entries but for what is there under one name:
nothing, a file, or a directory with whatever content. Whatever is found of any other model is the
same in both: whether it is a model at all, its definition or the reason why it has none, and what
loading a version of it gives.
-/

namespace TensorInference

open Model Files

namespace Model.Repository

variable {files others : Tree} {root : Path} {broken name : String}
  {entries entries' inner : Directory}

/-- Repositories in two trees that differ only in what is there under the name `broken`. The other
models have no links beside their configurations, and their label files have plain names. -/
structure Neighbours (broken : String) (root : Path) (files others : Tree)
    (entries entries' : Directory) : Prop where
  found : files.directory? root = some entries
  found_other : others.directory? root = some entries'
  distinct : (entries.map (·.1)).Nodup
  distinct_other : (entries'.map (·.1)).Nodup
  same : ∀ name, name ≠ broken → ∀ entry,
    (.text name, entry) ∈ entries' ↔ (.text name, entry) ∈ entries
  named : ∀ name inner, (.text name, .directory inner) ∈ entries → name ≠ broken →
    name ≠ "" ∧ '/' ∉ name.toList
  linkless : ∀ name inner, (.text name, .directory inner) ∈ entries → name ≠ broken →
    Directory.Linkless inner
  labels : ∀ name inner definition, (.text name, .directory inner) ∈ entries → name ≠ broken →
    define files name (Path.join root name) inner = .ok definition →
      ∀ output ∈ definition.config.outputs, ∀ file, output.labelFile = some file → Path.IsPlain file

theorem isPlain_of_isModelName (h : isModelName name = true) (hne : name ≠ "")
    (hslash : '/' ∉ name.toList) : Path.IsPlain name where
  nonempty := hne
  unsliced := hslash
  not_here := by
    rintro rfl
    exact absurd h (by decide)
  not_above := by
    rintro rfl
    exact absurd h (by decide)

theorem directory_of_define {directory : Path} {definition : Definition}
    (h : define files name directory entries = .ok definition) :
    definition.directory = directory := by
  obtain ⟨_, _, _, -, -, -, -, rfl⟩ := exists_of_define h
  rfl

end Model.Repository

/-- A discovered model is looked up among the models. -/
theorem Model.Discovered.named_map_entries {found : OrderedMap String (Except Status Definition)}
    {name : String} : named (found.entries.map fun entry ↦ ⟨entry.1, entry.2⟩) name =
      (found.get? name).map fun definition ↦ ⟨name, definition⟩ := by
  refine Option.ext fun model ↦ ?_
  rw [named_eq_some_iff, Option.map_eq_some_iff, List.mem_map]
  · constructor
    · rintro ⟨⟨entry, hentry, rfl⟩, rfl⟩
      exact ⟨entry.2, OrderedMap.mem_entries_iff.1 hentry, rfl⟩
    · rintro ⟨definition, hdefinition, rfl⟩
      exact ⟨⟨(name, definition), OrderedMap.mem_entries_iff.2 hdefinition, rfl⟩, rfl⟩
  · rw [List.map_map]
    exact OrderedMap.keys_nodup _

namespace Model.Labels

/-- Labels depend on the label files alone. -/
theorem load_congr {files others : Tree} {directory : Path} {config : Config}
    (h : ∀ output ∈ config.outputs, ∀ file, output.labelFile = some file →
      others.readText (Path.join directory file) = files.readText (Path.join directory file)) :
    load others directory config = load files directory config := by
  have hfold : ∀ (outputs : List Output) (labels : Labels), (∀ output ∈ outputs, ∀ file,
      output.labelFile = some file →
        others.readText (Path.join directory file) = files.readText (Path.join directory file)) →
      outputs.foldlM (loadOutput others directory) labels =
        outputs.foldlM (loadOutput files directory) labels := by
    intro outputs
    induction outputs with
    | nil =>
      intro labels _
      rw [List.foldlM_nil, List.foldlM_nil]
    | cons output rest ih =>
      intro labels h
      obtain ⟨houtput, hrest⟩ := List.forall_mem_cons.1 h
      have hload : loadOutput others directory labels output =
          loadOutput files directory labels output := by
        unfold loadOutput
        cases hfile : output.labelFile with
        | none => rfl
        | some file =>
          dsimp only
          rw [houtput file hfile]
      rw [List.foldlM_cons, List.foldlM_cons, hload]
      exact bind_congr fun labels ↦ ih labels hrest
  exact hfold config.outputs empty h

end Model.Labels

namespace Model.Repository.Neighbours

variable {files others : Tree} {root : Path} {broken name : String}
  {entries entries' inner : Directory}

section

variable (h : Neighbours broken root files others entries entries')
include h

theorem readText_eq (hname : isModelName name = true) (hne : name ≠ broken)
    (hinner : (.text name, .directory inner) ∈ entries) {file : Path} (hfile : Path.IsPlain file) :
    others.readText (Path.join (Path.join root name) file) =
      files.readText (Path.join (Path.join root name) file) := by
  obtain ⟨hnonempty, hslash⟩ := h.named name inner hinner hne
  refine Tree.readText_join_join h.found_other h.found
    (isPlain_of_isModelName hname hnonempty hslash) hfile ?_ ?_ (h.linkless name inner hinner hne)
  · exact (Named.find?_eq_some_iff h.distinct_other).2 ⟨(h.same name hne _).2 hinner, rfl⟩
  · exact (Named.find?_eq_some_iff h.distinct).2 ⟨hinner, rfl⟩

theorem define_eq (hname : isModelName name = true) (hne : name ≠ broken)
    (hinner : (.text name, .directory inner) ∈ entries) :
    define others name (Path.join root name) inner =
      define files name (Path.join root name) inner := by
  have hconfig : Path.IsPlain configFile := ⟨by decide, by decide, by decide, by decide⟩
  unfold define
  simp only [h.readText_eq hname hne hinner hconfig]

/-- Another model is found by both scans, with the same definition, or by none. -/
theorem models_eq (hne : name ≠ broken) :
    (models others root entries').get? name = (models files root entries).get? name := by
  refine Option.ext fun definition ↦ ?_
  rw [← OrderedMap.mem_entries_iff, ← OrderedMap.mem_entries_iff, mem_models_iff h.distinct_other,
    mem_models_iff h.distinct]
  refine and_congr_right fun hname ↦ exists_congr fun inner ↦ ?_
  rw [h.same name hne]
  refine and_congr_right fun hinner ↦ ?_
  rw [h.define_eq hname hne hinner]

theorem load_eq (hname : isModelName name = true) (hne : name ≠ broken)
    (hinner : (.text name, .directory inner) ∈ entries) {definition : Definition}
    (hdefine : define files name (Path.join root name) inner = .ok definition)
    {registry : Platform.Registry} {metered : Bool} {version : UInt64} :
    Server.Backend.load others registry metered definition version =
      Server.Backend.load files registry metered definition version := by
  have hlabels : Labels.load others definition.directory definition.config =
      Labels.load files definition.directory definition.config := by
    refine Labels.load_congr fun output houtput file hfile ↦ ?_
    rw [directory_of_define hdefine]
    exact h.readText_eq hname hne hinner
      (h.labels name inner definition hinner hne hdefine output houtput file hfile)
  unfold Server.Backend.load
  rw [hlabels]

/-- What loading a version of another model gives. -/
theorem loading?_eq (hne : name ≠ broken) {registry : Platform.Registry} {metered : Bool}
    {version : UInt64} :
    Server.loading? others registry metered
        ((models others root entries').entries.map fun entry ↦ ⟨entry.1, entry.2⟩) name version =
      Server.loading? files registry metered
        ((models files root entries).entries.map fun entry ↦ ⟨entry.1, entry.2⟩) name version := by
  unfold Server.loading?
  rw [Discovered.named_map_entries, Discovered.named_map_entries, h.models_eq hne]
  cases hget : (models files root entries).get? name with
  | none => rw [Option.map_none, Option.bind_none, Option.bind_none]
  | some found =>
    rw [Option.map_some, Option.bind_some, Option.bind_some]
    obtain ⟨hname, inner, hinner, hdefine⟩ :=
      (mem_models_iff h.distinct).1 (OrderedMap.mem_entries_iff.2 hget)
    cases found with
    | error status => rfl
    | ok definition =>
      dsimp only
      rw [h.load_eq hname hne hinner hdefine.symm]

end

end Model.Repository.Neighbours

end TensorInference
