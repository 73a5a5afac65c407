import TensorInference.Proofs.Files.Subdirectories
import TensorInference.Proofs.Json.Numeral
import TensorInference.Proofs.Model.Scanning
import TensorInference.Proofs.Text.Numeral

/-!
# The directories of selected versions

A version is selected since some subdirectory of its model spells it, and its path is made from the
number as it is written. So the path leads to a subdirectory if one is named in this way; otherwise
there is no directory at the path, be it that `007` is there for the version 7.
Main statement: `placed_of_scan`.
-/

namespace TensorInference.Model

open Files

namespace Repository

variable {files : Tree} {directory path root : Path} {entries : Directory} {name text : String}
  {definition : Definition} {found : List Discovered} {model : Discovered}

theorem utf8ByteSize_le_of_readText (h : files.readText path = .ok text) :
    path.utf8ByteSize ≤ Tree.pathLimit := by
  cases hresolve : files.resolve path with
  | error fault =>
    rw [Tree.readText, hresolve] at h
    cases h
  | ok place => exact (Tree.resolve_eq_ok_iff.1 hresolve).2.2.1

theorem utf8ByteSize_le_join (hname : Path.IsPlain name) :
    directory.utf8ByteSize ≤ (Path.join directory name).utf8ByteSize := by
  rw [Path.join, hname.isAbsolute_eq_false, if_neg Bool.false_ne_true]
  split
  · rw [String.utf8ByteSize_append]
    exact Nat.le_add_right _ _
  · rw [String.utf8ByteSize_append, String.utf8ByteSize_append]
    omega

theorem isEntryName_of_isDigit (hnonempty : name ≠ "") (hdigits : ∀ c ∈ name.toList, c.isDigit)
    (hshort : name.utf8ByteSize ≤ 255) : Path.IsEntryName name where
  nonempty := hnonempty
  unsliced hmem := absurd (hdigits _ hmem) (by decide)
  not_here := by
    rintro rfl
    exact absurd (hdigits '.' (by decide)) (by decide)
  not_above := by
    rintro rfl
    exact absurd (hdigits '.' (by decide)) (by decide)
  short := hshort
  unterminated hmem := absurd (hdigits _ hmem) (by decide)

theorem isEntryName_toString (version : UInt64) : Path.IsEntryName (toString version.toNat) := by
  have hdigits : (toString version.toNat).toList = Nat.toDigits 10 version.toNat := Nat.toList_repr
  refine isEntryName_of_isDigit (fun hempty ↦ ?_) (fun c hc ↦ ?_) ?_
  · rw [hempty] at hdigits
    exact Nat.toDigits_ne_nil hdigits.symm
  · rw [hdigits] at hc
    exact Nat.isDigit_of_mem_toDigits (by decide) (by decide) hc
  · have hbytes : (toString version.toNat).utf8ByteSize =
        (Bytes.ofText (toString version.toNat)).length := rfl
    rw [hbytes, Json.Numeral.ofText_toString, Json.Numeral.digitBytes, List.length_map]
    have hlength : (Nat.toDigits 10 version.toNat).length ≤ 20 :=
      (Nat.length_toDigits_le_iff (by decide) (by decide)).2 (version.toNat_lt.trans (by decide))
    omega

/-- Where a selected version of a model is, whose directory has these entries. -/
structure Placed (files : Tree) (definition : Definition) (entries : Directory)
    (version : UInt64) : Prop where
  /-- Some subdirectory spells the version. -/
  spelled : ∃ name inner, (.text name, inner) ∈ subdirectories entries ∧
    Text.Spells name.toList version.toNat
  /-- The path of the version leads to the subdirectory that has the written number for its name, -/
  reached : ∀ inner, (.text (toString version.toNat), inner) ∈ subdirectories entries →
    (definition.versionDirectory version).utf8ByteSize ≤ Tree.pathLimit →
      files.directory? (definition.versionDirectory version) = some inner
  /-- and it leads to no other directory unless there is a link of that name. -/
  written : ∀ inner, files.directory? (definition.versionDirectory version) = some inner →
    (.text (toString version.toNat), inner) ∈ subdirectories entries ∨
      ∃ target, (.text (toString version.toNat), .link target) ∈ entries

/-- The directory of a defined model is the one that was listed for it. -/
theorem directory?_of_scan (hsound : files.Sound) (hscan : scan files root = .ok found)
    (hmodel : model ∈ found) (hdefinition : model.definition = .ok definition) :
    ∃ entries, files.directory? definition.directory = some entries ∧
      definition.versions = definition.config.policy.select (availableVersions entries) := by
  obtain ⟨-, listing, hlisting, hdefine⟩ := scan_eq_ok hscan
  obtain ⟨entries, hmem, hsame⟩ := hdefine model hmodel
  obtain ⟨_, _, config, htext, -, -, -, rfl⟩ := exists_of_define (hsame.symm.trans hdefinition)
  have hlisted := hsound.directory? hlisting
  have hname : Path.IsEntryName model.name :=
    hlisted.isEntryName (mem_subdirectories_iff.1 hmem)
  have hconfig : Path.IsPlain configFile := ⟨by decide, by decide, by decide, by decide⟩
  have hlimit : (Path.join root model.name).utf8ByteSize ≤ Tree.pathLimit :=
    (utf8ByteSize_le_join hconfig).trans (utf8ByteSize_le_of_readText htext)
  exact ⟨entries, Tree.directory?_join hlisting hname (hlisted.find?_eq_some hmem) hlimit, rfl⟩

/-- In a sound tree, every selected version of a defined model is spelled by a subdirectory of the
directory of the model. The path of the version leads to a subdirectory if one has the number as it
is written for its name, and it leads to no directory if there is neither such a subdirectory nor a
link of that name. -/
theorem placed_of_scan (hsound : files.Sound) (hscan : scan files root = .ok found)
    (hmodel : model ∈ found) (hdefinition : model.definition = .ok definition) :
    ∃ entries, files.directory? definition.directory = some entries ∧
      ∀ version ∈ definition.versions, Placed files definition entries version := by
  obtain ⟨entries, hentries, hversions⟩ := directory?_of_scan hsound hscan hmodel hdefinition
  have hfound := hsound.directory? hentries
  refine ⟨entries, hentries, fun version hversion ↦
    ⟨?_, fun inner hinner hlimit ↦ ?_, fun inner h ↦ ?_⟩⟩
  · rw [hversions] at hversion
    obtain ⟨name, inner, hinner, hname⟩ :=
      mem_availableVersions.1 (VersionPolicy.mem_of_mem_select hversion)
    exact ⟨name, inner, mem_subdirectories_iff.2 hinner, Text.word64?_eq_some_iff.1 hname⟩
  · exact Tree.directory?_join hentries (isEntryName_toString version)
      (hfound.find?_eq_some hinner) hlimit
  · exact Tree.mem_of_directory?_join hentries (isEntryName_toString version).toIsPlain h

/-- A repository with one model, in whose directory there are empty ones of the given names. -/
def shelved (names : List String) : Tree where
  root := [("models", .directory [("m", .directory (("config.json", .file config) ::
    names.map fun name ↦ (.text name, .directory [])))])]
  current := []
where
  config : Bytes := Bytes.ofText ("\x7b\"platform\":\"p\"," ++
    "\"output\":[\x7b\"name\":\"o\",\"data_type\":\"FP32\",\"dims\":[]\x7d]\x7d")

/-- That model in its seventh version. -/
def seventh : Definition where
  name := "m"
  directory := "/models/m"
  config :=
    { name := "m", platform := "p", maxBatch := 0, inputs := [],
      outputs := [⟨"o", .fp32, [], none⟩], policy := .latest 1, instances := 1 }
  versions := [7]

theorem sound_shelved {names : List String} (hdistinct : ("config.json" :: names).Nodup)
    (hnames : ∀ name ∈ names, Path.IsEntryName name) : (shelved names).Sound := by
  have houter : Path.IsEntryName "models" ∧ Path.IsEntryName "m" ∧
      Path.IsEntryName "config.json" := by decide
  have hempty : Entry.Sound (.directory []) := .of_forall .nil (List.forall_mem_nil _)
  have hmodel : Entry.Sound (.directory (("config.json", .file shelved.config) ::
      names.map fun name ↦ (.text name, .directory []))) := by
    refine .of_forall ?_ (List.forall_mem_cons.2 ⟨⟨houter.2.2, .file _⟩,
      List.forall_mem_map.2 fun name hname ↦ ⟨hnames name hname, hempty⟩⟩)
    rw [List.map_cons, List.map_map]
    exact hdistinct.map fun _ _ ↦ Name.text.inj
  have hrepository : Entry.Sound (.directory [("m", .directory (("config.json",
      .file shelved.config) :: names.map fun name ↦ (.text name, .directory [])))]) :=
    .of_forall (List.nodup_singleton _) (List.forall_mem_singleton.2 ⟨houter.2.1, hmodel⟩)
  exact .of_forall (List.nodup_singleton _) (List.forall_mem_singleton.2 ⟨houter.1, hrepository⟩)

theorem placed_of_scan_seventh : (shelved ["007", "7", "next"]).Sound ∧
    scan (shelved ["007", "7", "next"]) "/models" = .ok [⟨"m", .ok seventh⟩] ∧
    ∃ entries, (shelved ["007", "7", "next"]).directory? "/models/m" = some entries ∧
      Placed (shelved ["007", "7", "next"]) seventh entries 7 := by
  have hsound : (shelved ["007", "7", "next"]).Sound := sound_shelved (by decide) (by decide)
  have hscan : scan (shelved ["007", "7", "next"]) "/models" = .ok [⟨"m", .ok seventh⟩] := rfl
  obtain ⟨entries, hentries, hplaced⟩ :=
    placed_of_scan hsound hscan (List.mem_singleton_self _) rfl
  exact ⟨hsound, hscan, entries, hentries, hplaced 7 (List.mem_singleton_self _)⟩

/-- A directory whose name has zeros in front is taken for a version, which is without one then. -/
theorem misplaced_padded :
    scan (shelved ["007"]) "/models" = .ok [⟨"m", .ok seventh⟩] ∧
      (shelved ["007"]).contains (seventh.versionDirectory 7) = false ∧
      ¬ ∀ version ∈ seventh.versions, ∃ inner,
        (shelved ["007"]).directory? (seventh.versionDirectory version) = some inner := by
  refine ⟨rfl, rfl, fun hall ↦ ?_⟩
  obtain ⟨inner, hinner⟩ := hall 7 (List.mem_singleton_self _)
  cases hinner

end Repository

end TensorInference.Model
