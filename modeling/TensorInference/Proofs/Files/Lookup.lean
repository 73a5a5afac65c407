import TensorInference.Files.Tree
import TensorInference.Proofs.Outcomes

/-!
# Files in a directory of a directory

A path that was joined from a directory and two plain names is looked up where the directory is
found. Nothing else of the tree matters to such a look-up unless a link is met, so two trees give
the same text of a file if the same directory of that name is in the directories that they have at
the path.
-/

namespace TensorInference.Files

namespace Path

/-- A text that names an entry of a directory. -/
structure IsPlain (name : Path) : Prop where
  nonempty : name ≠ ""
  unsliced : '/' ∉ name.toList
  not_here : name ≠ "."
  not_above : name ≠ ".."

variable {directory name : Path} {front back text : List Char}

theorem cut_ne_nil : cut text ≠ [] := by
  cases text with
  | nil => exact List.cons_ne_nil _ _
  | cons c rest =>
    rw [cut]
    split
    · exact List.cons_ne_nil _ _
    · split
      · exact List.cons_ne_nil _ _
      · exact List.cons_ne_nil _ _

theorem cut_append_slash : cut (front ++ '/' :: back) = cut front ++ cut back := by
  induction front with
  | nil => rfl
  | cons c rest ih =>
    rw [List.cons_append, cut, cut, ih]
    split
    · rfl
    · cases hcut : cut rest with
      | nil => exact absurd hcut cut_ne_nil
      | cons component more => rfl

theorem cut_of_unsliced (h : '/' ∉ text) : cut text = [text] := by
  induction text with
  | nil => rfl
  | cons c rest ih =>
    obtain ⟨hc, hrest⟩ := not_or.1 (mt List.mem_cons.2 h)
    rw [cut, if_neg (Ne.symm hc), ih hrest]

/-- Only a text that ends at a slash, or the empty one, is cut off empty. -/
theorem getLast?_cut (h : text.getLast? ≠ some '/') (hne : text ≠ []) :
    (cut text).getLast? ≠ some [] := by
  induction text with
  | nil => exact absurd rfl hne
  | cons c rest ih =>
    cases hrest : rest with
    | nil =>
      subst hrest
      have hc : c ≠ '/' := by
        rintro rfl
        exact h rfl
      simp [cut, hc]
    | cons d more =>
      rw [← hrest]
      have hmore : rest ≠ [] := by simp [hrest]
      have hlast := ih (by rwa [hrest, List.getLast?_cons_cons, ← hrest] at h) hmore
      rw [cut]
      split
      · cases hcut : cut rest with
        | nil => exact absurd hcut cut_ne_nil
        | cons component others => rwa [hcut] at hlast
      · cases hcut : cut rest with
        | nil => exact absurd hcut cut_ne_nil
        | cons component others =>
          rw [hcut] at hlast
          cases others with
          | nil => simp
          | cons other others => simpa using hlast

namespace IsPlain

theorem text_ne_here (h : name.IsPlain) : Name.text name ≠ .text "." :=
  fun hsame ↦ h.not_here (Name.text.inj hsame)

theorem text_ne_above (h : name.IsPlain) : Name.text name ≠ .text ".." :=
  fun hsame ↦ h.not_above (Name.text.inj hsame)

theorem isAbsolute_eq_false (h : name.IsPlain) : isAbsolute name = false := by
  rw [isAbsolute, decide_eq_false_iff_not]
  intro hhead
  exact h.unsliced (List.mem_of_head? hhead)

/-- A plain name is joined at a slash, which is put there unless the directory ends at one. -/
theorem exists_toList_join (h : name.IsPlain) (hdirectory : directory ≠ "") :
    ∃ front, (join directory name).toList = front ++ '/' :: name.toList ∧
      (directory.toList = front ++ ['/'] ∨
        directory.toList = front ∧ front.getLast? ≠ some '/') := by
  rw [join, h.isAbsolute_eq_false, if_neg Bool.false_ne_true]
  split
  · rename_i hends
    obtain ⟨front, hfront⟩ := List.getLast?_eq_some_iff.1 (hends.resolve_left hdirectory)
    exact ⟨front, by simp [hfront], .inl hfront⟩
  · rename_i hends
    exact ⟨directory.toList, by simp, .inr ⟨rfl, (not_or.1 hends).2⟩⟩

theorem components_join (h : name.IsPlain) (hdirectory : directory ≠ "") :
    ∃ inner, components (join directory name) = inner ++ [.text name] ∧
      (components directory = inner ∨ components directory = inner ++ [.text "."]) := by
  obtain ⟨front, hjoin, hfront⟩ := h.exists_toList_join hdirectory
  have hname : name.toList ≠ [] := by simpa using h.nonempty
  refine ⟨((cut front).filter (· ≠ [])).map fun part ↦ .text (String.ofList part), ?_, ?_⟩
  · rw [components, hjoin, cut_append_slash, cut_of_unsliced h.unsliced]
    simp [hname]
  · rcases hfront with hfront | ⟨hfront, hlast⟩
    · right
      rw [components, hfront, cut_append_slash]
      simp [cut]
    · left
      have hne : front ≠ [] := by
        rw [← hfront]
        simpa using hdirectory
      rw [components, hfront]
      exact if_neg (getLast?_cut hlast hne)

theorem isAbsolute_join (h : name.IsPlain) (hdirectory : directory ≠ "") :
    isAbsolute (join directory name) = isAbsolute directory := by
  have hne : directory.toList ≠ [] := by simpa using hdirectory
  obtain ⟨front, hjoin, hfront⟩ := h.exists_toList_join hdirectory
  rw [isAbsolute, isAbsolute, hjoin]
  rcases hfront with hfront | ⟨hfront, -⟩
  · rw [hfront]
    cases front <;> rfl
  · rw [hfront]
    cases front with
    | nil => exact absurd hfront hne
    | cons c rest => rfl

theorem join_ne_empty (h : name.IsPlain) (hdirectory : directory ≠ "") :
    join directory name ≠ "" := by
  obtain ⟨front, hjoin, -⟩ := h.exists_toList_join hdirectory
  intro hempty
  simp [hempty] at hjoin

/-- The names of a file in a directory come after the components of the directory around it. -/
theorem components_join_join {file : Path} (h : name.IsPlain) (hfile : file.IsPlain)
    (hdirectory : directory ≠ "") :
    ∃ inner, components (join (join directory name) file) = inner ++ [.text name, .text file] ∧
      (components directory = inner ∨ components directory = inner ++ [.text "."]) := by
  obtain ⟨inner, hjoin, hinner⟩ := h.components_join hdirectory
  obtain ⟨outer, houter, hsame⟩ := hfile.components_join (h.join_ne_empty hdirectory)
  refine ⟨inner, ?_, hinner⟩
  rcases hsame with hsame | hsame
  · rw [houter, ← hsame, hjoin, List.append_assoc]
    rfl
  · rw [hjoin] at hsame
    exact absurd (Name.text.inj (List.singleton_inj.1 (List.append_inj_right' hsame rfl)))
      h.not_here

end IsPlain

end Path

namespace Tree

variable {place : Place} {root : Directory} {links : Nat} {around : List Directory}
  {first second : List Name}

theorem walk_append : walk place (first ++ second) =
    match walk place first with
    | .found place => walk place second
    | .failed fault => .failed fault
    | .linked around target rest => .linked around target (rest ++ second) := by
  induction first generalizing place with
  | nil => rfl
  | cons component rest ih =>
    rw [List.cons_append, walk, walk]
    split
    · split
      · exact ih
      split
      · split
        · exact ih
        · exact ih
      split
      · rfl
      split
      · rfl
      · exact ih
      · exact ih
      · rfl
    · rfl

theorem walk_here {component : Name} :
    walk place (.text "." :: component :: second) = walk place (component :: second) := by
  rw [walk]
  split
  · rw [if_pos rfl]
  · rename_i hentry
    rw [walk]
    split
    · rename_i hdirectory
      exact absurd hdirectory (hentry _)
    · rfl

/-- A dot in the middle of a path makes no difference. -/
theorem follow_here {component : Name} :
    follow root links around (first ++ .text "." :: component :: second) =
      follow root links around (first ++ component :: second) := by
  induction links using Nat.strongRecOn generalizing around first with
  | ind links ih =>
    unfold follow
    rw [walk_append, walk_append]
    cases walk _ first with
    | found place =>
      dsimp only
      rw [walk_here]
    | failed fault => rfl
    | linked around target rest =>
      cases links with
      | zero => rfl
      | succ links =>
        dsimp only
        rw [← List.append_assoc, ← List.append_assoc]
        split
        · rfl
        · exact ih links (Nat.lt_succ_self links)

/-- What a walk that meets no link comes to. -/
def Progress.end? : Progress → Option (Except AccessFault Place)
  | .found place => some (.ok place)
  | .failed fault => some (.error fault)
  | .linked _ _ _ => none

/-- The rest of a path is walked from the place where its first part leads. -/
theorem follow_append (h : follow root links around first = .ok place)
    {outcome : Except AccessFault Place} (hwalk : (walk place second).end? = some outcome) :
    follow root links around (first ++ second) = outcome := by
  induction links using Nat.strongRecOn generalizing around first with
  | ind links ih =>
    unfold follow at h ⊢
    rw [walk_append]
    cases hfirst : walk ⟨.directory (around.head?.getD root), around⟩ first with
    | found middle =>
      rw [hfirst] at h
      obtain rfl := Except.ok.inj h
      dsimp only
      cases hsecond : walk middle second with
      | found last =>
        rw [hsecond] at hwalk
        exact Option.some.inj hwalk
      | failed fault =>
        rw [hsecond] at hwalk
        exact Option.some.inj hwalk
      | linked _ _ _ =>
        rw [hsecond] at hwalk
        cases hwalk
    | failed fault =>
      rw [hfirst] at h
      cases h
    | linked around target rest =>
      rw [hfirst] at h
      cases links with
      | zero => cases h
      | succ links =>
        dsimp only at h ⊢
        split at h
        · cases h
        · rename_i htarget
          rw [if_neg htarget, ← List.append_assoc]
          exact ih links (Nat.lt_succ_self links) h

end Tree

/-- The entry of a name, be it a link. -/
def Directory.entry (entries : Directory) (name : String) : Except AccessFault Entry :=
  if 255 < name.utf8ByteSize then .error .nameTooLong
  else match entries.find? (·.1 = .text name) with
    | none => .error .notFound
    | some (_, entry) => .ok entry

/-- No entry of a directory is a link. What is in its directories does not matter. -/
def Directory.Linkless (entries : Directory) : Prop :=
  ∀ name target, (name, .link target) ∉ entries

namespace Tree

variable {files others : Tree} {root name file : Path} {entries entries' inner : Directory}
  {around : List Directory}

theorem walk_directory {rest : List Name} (hname : name.IsPlain)
    (hsize : ¬ 255 < name.utf8ByteSize)
    (hinner : entries.find? (·.1 = .text name) = some (.text name, .directory inner)) :
    walk ⟨.directory entries, around⟩ (.text name :: rest) =
      walk ⟨.directory inner, inner :: around⟩ rest := by
  rw [walk]
  dsimp only
  rw [if_neg hname.text_ne_here, if_neg hname.text_ne_above, Name.size, if_neg hsize, hinner]

theorem walk_entry (hfile : file.IsPlain) (hlinks : inner.Linkless) :
    ∃ outcome, (walk ⟨.directory inner, around⟩ [.text file]).end? = some outcome ∧
      outcome.map (·.entry) = inner.entry file := by
  rw [walk, Directory.entry]
  dsimp only
  rw [if_neg hfile.text_ne_here, if_neg hfile.text_ne_above, Name.size]
  split
  · exact ⟨_, rfl, rfl⟩
  · cases hfind : inner.find? (·.1 = .text file) with
    | none => exact ⟨_, rfl, rfl⟩
    | some found =>
      obtain ⟨found, content | below | target⟩ := found
      · exact ⟨_, rfl, rfl⟩
      · exact ⟨_, rfl, rfl⟩
      · exact absurd (List.mem_of_find?_eq_some hfind) (hlinks found target)

/-- A path is followed if it can be given to the system. -/
theorem resolve_eq_ok_iff {path : Path} {place : Place} : files.resolve path = .ok place ↔
    '\x00' ∉ path.toList ∧ path ≠ "" ∧ path.utf8ByteSize ≤ pathLimit ∧
      follow files.root linkLimit [files.root]
        ((if Path.isAbsolute path then [] else files.current) ++ Path.components path) =
          .ok place := by
  rw [resolve, ← List.contains_iff_mem]
  split
  · rename_i hnul
    exact iff_of_false nofun fun h ↦ h.1 hnul
  rename_i hnul
  split
  · rename_i hempty
    exact iff_of_false nofun fun h ↦ h.2.1 hempty
  rename_i hempty
  split
  · rename_i hlong
    exact iff_of_false nofun fun h ↦ Nat.not_lt.2 h.2.2.1 hlong
  · rename_i hlimit
    exact ⟨fun h ↦ ⟨hnul, hempty, Nat.not_lt.1 hlimit, h⟩, fun h ↦ h.2.2.2⟩

theorem directory?_eq_some_iff {path : Path} : files.directory? path = some entries ↔
    ∃ around, files.resolve path = .ok ⟨.directory entries, around⟩ := by
  unfold directory?
  constructor
  · intro h
    split at h
    · rename_i found around hresolve
      obtain rfl := Option.some.inj h
      exact ⟨around, hresolve⟩
    · cases h
  · rintro ⟨around, hresolve⟩
    rw [hresolve]

theorem exists_resolve_of_directory? (h : files.directory? root = some entries) :
    root ≠ "" ∧ ∃ around, follow files.root linkLimit [files.root]
      ((if Path.isAbsolute root then [] else files.current) ++ Path.components root) =
        .ok ⟨.directory entries, around⟩ := by
  obtain ⟨around, hresolve⟩ := directory?_eq_some_iff.1 h
  obtain ⟨-, hroot, -, hfollow⟩ := resolve_eq_ok_iff.1 hresolve
  exact ⟨hroot, around, hfollow⟩

/-- What comes after a directory in a path is walked where that directory was found. -/
theorem follow_below {path : Path} {front rest : List Name} {component : Name}
    (hentries : files.directory? root = some entries)
    (habsolute : Path.isAbsolute path = Path.isAbsolute root)
    (hpath : Path.components path = front ++ component :: rest)
    (hfront : Path.components root = front ∨ Path.components root = front ++ [.text "."]) :
    ∃ around, ∀ outcome,
      (walk ⟨.directory entries, around⟩ (component :: rest)).end? = some outcome →
        follow files.root linkLimit [files.root]
          ((if Path.isAbsolute path then [] else files.current) ++ Path.components path) =
            outcome := by
  obtain ⟨-, around, hfollow⟩ := exists_resolve_of_directory? hentries
  refine ⟨around, fun outcome hwalk ↦ ?_⟩
  rw [habsolute, hpath, ← List.append_assoc]
  rcases hfront with hfront | hfront
  · rw [hfront] at hfollow
    exact follow_append hfollow hwalk
  · -- The dot that stands for a slash at the end comes to stand in the middle.
    rw [hfront, ← List.append_assoc] at hfollow
    rw [← follow_here, List.append_cons]
    exact follow_append hfollow hwalk

/-- The names of a file in a directory are walked where the directory around it was found. -/
theorem follow_join_join (hentries : files.directory? root = some entries) (hname : name.IsPlain)
    (hfile : file.IsPlain) : ∃ around, ∀ outcome,
      (walk ⟨.directory entries, around⟩ [.text name, .text file]).end? = some outcome →
        follow files.root linkLimit [files.root]
          ((if Path.isAbsolute (Path.join (Path.join root name) file) then [] else files.current) ++
            Path.components (Path.join (Path.join root name) file)) = outcome := by
  have hroot := (exists_resolve_of_directory? hentries).1
  obtain ⟨front, hjoin, hfront⟩ := hname.components_join_join hfile hroot
  refine follow_below hentries ?_ hjoin hfront
  rw [hfile.isAbsolute_join (hname.join_ne_empty hroot), hname.isAbsolute_join hroot]

/-- The entry of a file in a directory of a directory, wherever that one was found. -/
theorem resolve_join_join (hentries : files.directory? root = some entries) (hname : name.IsPlain)
    (hfile : file.IsPlain)
    (hinner : entries.find? (·.1 = .text name) = some (.text name, .directory inner))
    (hlinks : inner.Linkless) :
    (files.resolve (Path.join (Path.join root name) file)).map (·.entry) =
      if (Path.join (Path.join root name) file).toList.contains '\x00' then .error .nulInName
      else if pathLimit < (Path.join (Path.join root name) file).utf8ByteSize then
        .error .nameTooLong
      else if 255 < name.utf8ByteSize then .error .nameTooLong
      else inner.entry file := by
  obtain ⟨hroot, -⟩ := exists_resolve_of_directory? hentries
  obtain ⟨around, hfollow⟩ := follow_join_join hentries hname hfile
  rw [resolve]
  split
  · rfl
  rw [if_neg (hfile.join_ne_empty (hname.join_ne_empty hroot))]
  split
  · rfl
  by_cases hsize : 255 < name.utf8ByteSize
  · have hwalk : (walk ⟨.directory entries, around⟩ [.text name, .text file]).end? =
        some (.error .nameTooLong) := by
      rw [walk]
      dsimp only
      rw [if_neg hname.text_ne_here, if_neg hname.text_ne_above, Name.size, if_pos hsize]
      rfl
    rw [hfollow _ hwalk, if_pos hsize]
    rfl
  · obtain ⟨outcome, houtcome, hentry⟩ := @walk_entry file inner (inner :: around) hfile hlinks
    rw [hfollow outcome (by rw [walk_directory hname hsize hinner, houtcome]), hentry, if_neg hsize]

theorem readText_congr {path : Path}
    (h : (files.resolve path).map (·.entry) = (others.resolve path).map (·.entry)) :
    files.readText path = others.readText path := by
  unfold readText
  cases hfiles : files.resolve path with
  | error fault =>
    cases hothers : others.resolve path with
    | error fault' =>
      rw [hfiles, hothers] at h
      cases h
      rfl
    | ok place =>
      rw [hfiles, hothers] at h
      cases h
  | ok place =>
    cases hothers : others.resolve path with
    | error fault =>
      rw [hfiles, hothers] at h
      cases h
    | ok place' =>
      rw [hfiles, hothers] at h
      obtain ⟨entry, around⟩ := place
      obtain ⟨entry', around'⟩ := place'
      obtain rfl : entry = entry' := Except.ok.inj h
      cases entry <;> rfl

/-- A file in a directory of a directory is the same wherever that one was found. -/
theorem readText_join_join (hentries : files.directory? root = some entries)
    (hentries' : others.directory? root = some entries') (hname : name.IsPlain)
    (hfile : file.IsPlain)
    (hinner : entries.find? (·.1 = .text name) = some (.text name, .directory inner))
    (hinner' : entries'.find? (·.1 = .text name) = some (.text name, .directory inner))
    (hlinks : inner.Linkless) :
    files.readText (Path.join (Path.join root name) file) =
      others.readText (Path.join (Path.join root name) file) :=
  readText_congr (by
    rw [resolve_join_join hentries hname hfile hinner hlinks,
      resolve_join_join hentries' hname hfile hinner' hlinks])

end Tree

end TensorInference.Files
