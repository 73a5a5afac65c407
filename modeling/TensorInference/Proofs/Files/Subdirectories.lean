import TensorInference.Proofs.Files.Lookup
import TensorInference.Proofs.Files.Relisting

/-!
# Directories in a directory

A path that was joined from a directory and the name of a directory in it leads to that directory,
and it leads to no other one unless the name is a link. In a sound tree, whose directories have
entries under different names that a system takes, only sound directories are found.
-/

namespace TensorInference.Files

/-- A text that a system takes as the name of an entry. -/
structure Path.IsEntryName (name : Path) : Prop extends name.IsPlain where
  short : name.utf8ByteSize ≤ 255
  unterminated : '\x00' ∉ name.toList

theorem Path.IsEntryName.unterminated_join {directory name : Path} (hname : name.IsEntryName)
    (hdirectory : directory ≠ "") (h : '\x00' ∉ directory.toList) :
    '\x00' ∉ (Path.join directory name).toList := by
  obtain ⟨front, hjoin, hfront⟩ := hname.exists_toList_join hdirectory
  have hbefore : '\x00' ∉ front := by
    rcases hfront with hfront | ⟨hfront, -⟩
    · exact fun hmem ↦ h (hfront ▸ List.mem_append_left _ hmem)
    · exact hfront ▸ h
  rw [hjoin, List.mem_append, List.mem_cons]
  rintro (hmem | hmem | hmem)
  · exact hbefore hmem
  · cases hmem
  · exact hname.unterminated hmem

instance (name : Path) : Decidable name.IsEntryName :=
  decidable_of_iff ((name ≠ "" ∧ '/' ∉ name.toList ∧ name ≠ "." ∧ name ≠ "..") ∧
    name.utf8ByteSize ≤ 255 ∧ '\x00' ∉ name.toList)
    ⟨fun ⟨⟨hnonempty, hunsliced, hhere, habove⟩, hshort, hnul⟩ ↦
      ⟨⟨hnonempty, hunsliced, hhere, habove⟩, hshort, hnul⟩,
    fun h ↦ ⟨⟨h.nonempty, h.unsliced, h.not_here, h.not_above⟩, h.short, h.unterminated⟩⟩

/-- Whether a system takes a name for an entry. -/
def Name.IsEntryName : Name → Prop
  | .text name => Path.IsEntryName name
  | .bytes name _ => 0x2f ∉ name ∧ 0 ∉ name ∧ name.length ≤ 255

/-- Whether the directories at and below an entry are those of a system: their entries have
different names, all of which can be given. -/
inductive Entry.Sound : Entry → Prop where
  | file (content : Bytes) : Sound (.file content)
  | link (target : Target) : Sound (.link target)
  | directory {entries : Directory} (distinct : (entries.map (·.1)).Nodup)
    (named : ∀ name entry, (name, entry) ∈ entries → name.IsEntryName)
    (sound : ∀ name entry, (name, entry) ∈ entries → Sound entry) : Sound (.directory entries)

theorem Entry.Sound.of_forall {entries : Directory} (distinct : (entries.map (·.1)).Nodup)
    (sound : ∀ entry ∈ entries, entry.1.IsEntryName ∧ entry.2.Sound) :
    Sound (.directory entries) :=
  .directory distinct (fun _ _ hmem ↦ (sound _ hmem).1) fun _ _ hmem ↦ (sound _ hmem).2

/-- Whether a directory is one of a system. -/
def Directory.Sound (entries : Directory) : Prop :=
  Entry.Sound (.directory entries)

namespace Directory.Sound

variable {entries inner : Directory} {name : String}

theorem distinct (h : Sound entries) : (entries.map (·.1)).Nodup := by
  cases h with
  | directory hdistinct _ _ => exact hdistinct

theorem isEntryName (h : Sound entries) {entry : Entry} (hentry : (.text name, entry) ∈ entries) :
    Path.IsEntryName name := by
  cases h with
  | directory _ hnamed _ => exact hnamed _ entry hentry

theorem of_mem (h : Sound entries) {key : Name} {entry : Entry} (hentry : (key, entry) ∈ entries) :
    entry.Sound := by
  cases h with
  | directory _ _ hsound => exact hsound key entry hentry

/-- The subdirectory of a name is what is found under it. -/
theorem find?_eq_some (h : Sound entries) (hinner : (.text name, inner) ∈ subdirectories entries) :
    entries.find? (·.1 = .text name) = some (.text name, .directory inner) :=
  (Named.find?_eq_some_iff h.distinct).2 ⟨mem_subdirectories_iff.1 hinner, rfl⟩

end Directory.Sound

namespace Tree

variable {files : Tree} {root entries inner : Directory} {directory name path : Path}
  {around : List Directory} {place : Place} {components : List Name}

/-- Whether a tree is one of a system. -/
def Sound (files : Tree) : Prop :=
  Directory.Sound files.root

/-- A place in a sound tree. -/
structure Place.Sound (place : Place) : Prop where
  entry : place.entry.Sound
  around : ∀ outer ∈ place.around, Directory.Sound outer

/-- What a walk through a sound tree comes to. -/
def Progress.Sound : Progress → Prop
  | .found place => place.Sound
  | .failed _ => True
  | .linked around _ _ => ∀ outer ∈ around, Directory.Sound outer

theorem sound_walk (h : place.Sound) : (walk place components).Sound := by
  induction components generalizing place with
  | nil => exact h
  | cons component rest ih =>
    rw [walk]
    split
    · rename_i entries hentry
      have hentries : Entry.Sound (.directory entries) := hentry ▸ h.entry
      split
      · exact ih h
      split
      · split
        · -- One directory up is among the directories around.
          rename_i inner parent outer haround
          have houter : ∀ outside ∈ parent :: outer, Directory.Sound outside :=
            fun outside hmem ↦ h.around outside (haround ▸ List.mem_cons_of_mem inner hmem)
          exact ih ⟨houter parent List.mem_cons_self, houter⟩
        · exact ih h
      split
      · trivial
      split
      · trivial
      · rename_i name inner hfind
        have hinner := Directory.Sound.of_mem hentries (List.mem_of_find?_eq_some hfind)
        exact ih ⟨hinner, List.forall_mem_cons.2 ⟨hinner, h.around⟩⟩
      · exact ih ⟨.file _, h.around⟩
      · exact h.around
    · trivial

theorem sound_of_follow (hroot : Directory.Sound root) {links : Nat}
    (haround : ∀ outer ∈ around, Directory.Sound outer)
    (h : follow root links around components = .ok place) : place.Sound := by
  induction links using Nat.strongRecOn generalizing around components with
  | ind links ih =>
    have hstart : Directory.Sound (around.head?.getD root) := by
      cases around with
      | nil => exact hroot
      | cons head outer => exact haround head List.mem_cons_self
    have hwalk := @sound_walk ⟨.directory (around.head?.getD root), around⟩ components
      ⟨hstart, haround⟩
    unfold follow at h
    cases hprogress : walk ⟨.directory (around.head?.getD root), around⟩ components with
    | found place =>
      rw [hprogress] at h hwalk
      obtain rfl := Except.ok.inj h
      exact hwalk
    | failed fault =>
      rw [hprogress] at h
      cases h
    | linked around target rest =>
      rw [hprogress] at h hwalk
      cases links with
      | zero => cases h
      | succ links =>
        dsimp only at h
        split at h
        · cases h
        · -- The target starts at the root or where the link was met.
          refine ih links (Nat.lt_succ_self links) ?_ h
          split
          · exact List.forall_mem_singleton.2 hroot
          · exact hwalk

/-- The directories that are found in a sound tree are sound. -/
theorem Sound.directory? (hsound : files.Sound) (h : files.directory? path = some entries) :
    Directory.Sound entries := by
  obtain ⟨-, around, hfollow⟩ := exists_resolve_of_directory? h
  exact (sound_of_follow hsound (List.forall_mem_singleton.2 hsound) hfollow).entry

/-- A name is walked where the directory before it was found. -/
theorem follow_join (hentries : files.directory? directory = some entries) (hname : name.IsPlain) :
    ∃ around, ∀ outcome, (walk ⟨.directory entries, around⟩ [.text name]).end? = some outcome →
      follow files.root linkLimit [files.root]
        ((if Path.isAbsolute (Path.join directory name) then [] else files.current) ++
          Path.components (Path.join directory name)) = outcome := by
  have hdirectory := (exists_resolve_of_directory? hentries).1
  obtain ⟨front, hjoin, hfront⟩ := hname.components_join hdirectory
  exact follow_below hentries (hname.isAbsolute_join hdirectory) hjoin hfront

theorem directory?_join (hentries : files.directory? directory = some entries)
    (hname : name.IsEntryName)
    (hinner : entries.find? (·.1 = .text name) = some (.text name, .directory inner))
    (hlimit : (Path.join directory name).utf8ByteSize ≤ pathLimit) :
    files.directory? (Path.join directory name) = some inner := by
  obtain ⟨around, hfollow⟩ := follow_join hentries hname.toIsPlain
  have hwalk : (walk ⟨.directory entries, around⟩ [.text name]).end? =
      some (.ok ⟨.directory inner, inner :: around⟩) := by
    rw [walk_directory hname.toIsPlain (Nat.not_lt.2 hname.short) hinner]
    rfl
  obtain ⟨_, hresolve⟩ := directory?_eq_some_iff.1 hentries
  obtain ⟨hnul, hdirectory, -⟩ := resolve_eq_ok_iff.1 hresolve
  exact directory?_eq_some_iff.2 ⟨_, resolve_eq_ok_iff.2 ⟨hname.unterminated_join hdirectory hnul,
    hname.join_ne_empty hdirectory, hlimit, hfollow _ hwalk⟩⟩

/-- Nothing else is at the path of a name, unless the name is a link. -/
theorem mem_of_directory?_join (hentries : files.directory? directory = some entries)
    (hname : name.IsPlain) (h : files.directory? (Path.join directory name) = some inner) :
    (.text name, inner) ∈ subdirectories entries ∨
      ∃ target, (.text name, .link target) ∈ entries := by
  obtain ⟨around, hfollow⟩ := follow_join hentries hname
  obtain ⟨-, around', hplace⟩ := exists_resolve_of_directory? h
  have hfound (outcome)
      (hwalk : (walk ⟨.directory entries, around⟩ [.text name]).end? = some outcome) :
      outcome = .ok ⟨.directory inner, around'⟩ := (hfollow outcome hwalk).symm.trans hplace
  rw [walk] at hfound
  dsimp only at hfound
  rw [if_neg hname.text_ne_here, if_neg hname.text_ne_above] at hfound
  split at hfound
  · cases hfound _ rfl
  cases hfind : entries.find? (·.1 = .text name) with
  | none =>
    rw [hfind] at hfound
    cases hfound _ rfl
  | some found =>
    have hmem := List.mem_of_find?_eq_some hfind
    have hkey : found.1 = .text name := by simpa using List.find?_some hfind
    obtain ⟨key, content | below | target⟩ := found
    · rw [hfind] at hfound
      cases hfound _ rfl
    · rw [hfind] at hfound
      cases hfound _ rfl
      exact .inl (mem_subdirectories_iff.2 (hkey ▸ hmem))
    · exact .inr ⟨target, hkey ▸ hmem⟩

end Tree

end TensorInference.Files
