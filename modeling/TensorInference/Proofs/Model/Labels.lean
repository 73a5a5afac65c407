import TensorInference.Proofs.Model.Validation
import TensorInference.Proofs.Model.Volume
import TensorInference.Proofs.OrderedMap
import TensorInference.Proofs.Text.Lines

/-!
# The labels of a model

The label files of a model are read if each of them is there and is a text, and has one line a class
where the shape of its output fixes the number of classes. That number is counted in 64 bits, so
nothing is asked of the file of an output that has more classes than can be counted. The label of a
class is the line at its place without the blanks at the end; classes beyond the last line and
outputs without a label file have none.
Main statement: `labelled_of_load`.
-/

namespace TensorInference.Model

open Files

namespace Labels

variable {files : Tree} {directory : Path} {given config : Config} {labels next : Labels}
  {output : Output} {outputs : List Output} {names : Option (List String)} {name text : String}
  {file : Path}

/-- What the label file of an output states: nothing if it has none. -/
def States (files : Tree) (directory : Path) (output : Output) : Option (List String) → Prop
  | none => output.labelFile = none
  | some names => ∃ file text, output.labelFile = some file ∧
    files.readText (Path.join directory file) = .ok text ∧ names = Text.trimmedLines text ∧
    ∀ classes, output.shape.elementCount = some classes → names.length = classes

/-- The labels with those of one more output. -/
def extend (labels : Labels) (output : Output) : Option (List String) → Labels
  | none => labels
  | some names => labels.insert output.name names

/-- A label file states one thing only. -/
theorem states_unique {others : Option (List String)} (h : States files directory output names)
    (hothers : States files directory output others) : names = others := by
  cases names with
  | none =>
    cases others with
    | none => rfl
    | some others =>
      obtain ⟨file, text, hfile, -⟩ := hothers
      cases h.symm.trans hfile
  | some names =>
    obtain ⟨file, text, hfile, htext, rfl, -⟩ := h
    cases others with
    | none => cases hothers.symm.trans hfile
    | some others =>
      obtain ⟨other, found, hother, hfound, rfl, -⟩ := hothers
      obtain rfl := Option.some.inj (hfile.symm.trans hother)
      obtain rfl := Except.ok.inj (htext.symm.trans hfound)
      rfl

theorem loadOutput_of_none (hfile : output.labelFile = none) :
    loadOutput files directory labels output = .ok labels := by
  rw [loadOutput, hfile]

theorem loadOutput_of_error {fault : AccessFault} (hfile : output.labelFile = some file)
    (htext : files.readText (Path.join directory file) = .error fault) :
    loadOutput files directory labels output ≠ .ok next := by
  rw [loadOutput, hfile]
  simp only [htext]
  exact nofun

theorem loadOutput_of_ok (hfile : output.labelFile = some file)
    (htext : files.readText (Path.join directory file) = .ok text) :
    loadOutput files directory labels output = .ok next ↔
      (∀ classes, output.shape.elementCount = some classes →
        (Text.trimmedLines text).length = classes) ∧
      next = labels.insert output.name (Text.trimmedLines text) := by
  rw [loadOutput, hfile]
  simp only [htext]
  cases hcount : output.shape.elementCount with
  | none =>
    change Except.ok _ = _ ↔ _
    simp only [Except.ok.injEq, reduceCtorEq, false_imp_iff, implies_true, true_and, eq_comm]
  | some classes =>
    change (if _ then _ else _) = _ ↔ _
    simp only [Outcome.guard_eq_ok_iff, not_not, Option.some.injEq, forall_eq']
    exact and_congr_right fun _ ↦ Outcome.ok_eq_ok_iff

theorem loadOutput_eq_ok_iff : loadOutput files directory labels output = .ok next ↔
    ∃ names, States files directory output names ∧ next = labels.extend output names := by
  constructor
  · intro h
    cases hfile : output.labelFile with
    | none => exact ⟨none, hfile, Except.ok.inj (h.symm.trans (loadOutput_of_none hfile))⟩
    | some file =>
      cases htext : files.readText (Path.join directory file) with
      | error fault => exact absurd h (loadOutput_of_error hfile htext)
      | ok text =>
        obtain ⟨hcount, rfl⟩ := (loadOutput_of_ok hfile htext).1 h
        exact ⟨some _, ⟨file, text, hfile, htext, rfl, hcount⟩, rfl⟩
  · rintro ⟨none | names, hstates, rfl⟩
    · exact loadOutput_of_none hstates
    · obtain ⟨file, text, hfile, htext, rfl, hcount⟩ := hstates
      exact (loadOutput_of_ok hfile htext).2 ⟨hcount, rfl⟩

theorem get?_extend : (labels.extend output names).table.get? name =
    if name = output.name then names.or (labels.table.get? name) else labels.table.get? name := by
  cases names with
  | none => simp [extend]
  | some names =>
    rw [extend, insert]
    exact OrderedMap.get?_insert_eq_ite _ _ _ _

/-- The label files are read if each of them is there and states as much as its output asks for. -/
theorem exists_foldlM_iff :
    (∃ next, outputs.foldlM (loadOutput files directory) labels = .ok next) ↔
      ∀ output ∈ outputs, ∃ names, States files directory output names := by
  induction outputs generalizing labels with
  | nil => exact ⟨fun _ ↦ List.forall_mem_nil _, fun _ ↦ ⟨labels, rfl⟩⟩
  | cons output rest ih =>
    simp only [List.foldlM_cons, Outcome.bind_eq_ok_iff, loadOutput_eq_ok_iff, List.forall_mem_cons]
    constructor
    · rintro ⟨next, after, ⟨names, hstates, -⟩, hnext⟩
      exact ⟨⟨names, hstates⟩, ih.1 ⟨next, hnext⟩⟩
    · rintro ⟨⟨names, hstates⟩, hrest⟩
      obtain ⟨next, hnext⟩ := ih.2 hrest
      exact ⟨next, _, ⟨names, hstates, rfl⟩, hnext⟩

/-- Reading the label files of other outputs changes nothing. -/
theorem get?_of_foldlM (h : outputs.foldlM (loadOutput files directory) labels = .ok next)
    (hname : name ∉ outputs.map (·.name)) : next.table.get? name = labels.table.get? name := by
  induction outputs generalizing labels with
  | nil => rw [Except.ok.inj h]
  | cons output rest ih =>
    rw [List.foldlM_cons, Outcome.bind_eq_ok_iff] at h
    obtain ⟨after, hafter, h⟩ := h
    obtain ⟨names, -, rfl⟩ := loadOutput_eq_ok_iff.1 hafter
    rw [List.map_cons, List.mem_cons, not_or] at hname
    rw [ih h hname.2, get?_extend, if_neg hname.1]

/-- Under different names every output gets what its label file states. -/
theorem get?_name_of_foldlM (hdistinct : (outputs.map (·.name)).Nodup)
    (h : outputs.foldlM (loadOutput files directory) labels = .ok next)
    (hempty : ∀ output ∈ outputs, labels.table.get? output.name = none) (houtput : output ∈ outputs)
    (hstates : States files directory output names) : next.table.get? output.name = names := by
  induction outputs generalizing labels with
  | nil => cases houtput
  | cons head rest ih =>
    rw [List.foldlM_cons, Outcome.bind_eq_ok_iff] at h
    obtain ⟨after, hafter, h⟩ := h
    obtain ⟨said, hsaid, rfl⟩ := loadOutput_eq_ok_iff.1 hafter
    obtain ⟨hhead, hrest⟩ := List.nodup_cons.1 hdistinct
    obtain ⟨hemptyHead, hemptyRest⟩ := List.forall_mem_cons.1 hempty
    rcases List.mem_cons.1 houtput with rfl | houtput
    · -- No output further on has this name, so what is stored now stays.
      rw [get?_of_foldlM h hhead, get?_extend, if_pos rfl, hemptyHead, Option.or_none,
        states_unique hsaid hstates]
    · refine ih hrest h (fun other hother ↦ ?_) houtput
      have hne : other.name ≠ head.name := fun heq ↦
        hhead (List.mem_map.2 ⟨other, hother, heq⟩)
      rw [get?_extend, if_neg hne, hemptyRest other hother]

/-- The lines of the label file of an output, as many as there are classes if these are counted. -/
structure Fits (files : Tree) (directory : Path) (output : Output) (cut : List (List Char)) :
    Prop where
  held : ∃ file text, output.labelFile = some file ∧
    files.readText (Path.join directory file) = .ok text ∧ Text.CutsInto text.toList cut
  counted : -1 ∉ output.shape → output.shape.volume < 2 ^ 64 → cut.length = output.shape.volume

/-- The labels on lines. -/
def trimmed (cut : List (List Char)) : List String :=
  cut.map fun line ↦ String.ofList (Text.trimEnd line)

/-- The labels of an output are lines without the blanks at their ends. -/
structure Shows (labels : Labels) (name : String) (cut : List (List Char)) : Prop where
  present : labels.has name = true
  within : ∀ index line, cut[index]? = some line →
    Text.TrimsTo line (labels.label name index).toList
  beyond : ∀ index, cut.length ≤ index → labels.label name index = ""

theorem Fits.states {cut : List (List Char)} (hshape : output.shape.isDescription = true)
    (h : Fits files directory output cut) :
    States files directory output (some (trimmed cut)) := by
  obtain ⟨file, text, hfile, htext, hcut⟩ := h.held
  obtain rfl := Text.cutsInto_iff.1 hcut
  refine ⟨file, text, hfile, htext, rfl, fun classes hclasses ↦ ?_⟩
  obtain ⟨hfixed, hsmall, rfl⟩ := (Shape.elementCount_eq_some_iff hshape).1 hclasses
  rw [trimmed, List.length_map, h.counted hfixed hsmall]

theorem exists_fits {said : List String} (hshape : output.shape.isDescription = true)
    (h : States files directory output (some said)) : ∃ cut, Fits files directory output cut := by
  obtain ⟨file, text, hfile, htext, rfl, hcount⟩ := h
  refine ⟨_, ⟨file, text, hfile, htext, Text.cutsInto_lines _⟩, fun hfixed hsmall ↦ ?_⟩
  rw [← hcount _ ((Shape.elementCount_eq_some_iff hshape).2 ⟨hfixed, hsmall, rfl⟩),
    Text.trimmedLines, List.length_map]

theorem exists_states_iff (hshape : output.shape.isDescription = true) :
    (∃ names, States files directory output names) ↔
      (output.labelFile ≠ none → ∃ cut, Fits files directory output cut) := by
  constructor
  · rintro ⟨none | said, h⟩ hfile
    · exact absurd h hfile
    · exact exists_fits hshape h
  · intro h
    by_cases hfile : output.labelFile = none
    · exact ⟨none, hfile⟩
    · obtain ⟨cut, hcut⟩ := h hfile
      exact ⟨_, hcut.states hshape⟩

theorem shows_of_get? {cut : List (List Char)}
    (h : labels.table.get? name = some (trimmed cut)) : Shows labels name cut := by
  refine ⟨by rw [has, OrderedMap.contains, h, Option.isSome_some], fun index line hline ↦ ?_,
    fun index hindex ↦ label_of_length_le fun names hnames ↦ ?_⟩
  · have htrimmed : (trimmed cut)[index]? = some (String.ofList (Text.trimEnd line)) := by
      rw [trimmed, List.getElem?_map, hline, Option.map_some]
    rw [label_of_getElem? h htrimmed, String.toList_ofList]
    exact Text.trimsTo_trimEnd line
  · obtain rfl := Option.some.inj (h.symm.trans hnames)
    rwa [trimmed, List.length_map]

/-- The labels of a model with a valid configuration are read if each label file is there and is a
text, which has one line a class where the shape is fixed and the number of classes fits into 64
bits. They are the lines of these files without the blanks at their ends; there are none beyond the
last line, and none for an output without a label file. -/
theorem labelled_of_load {model : String} (hvalid : given.validate model = .ok config) :
    ((∃ labels, load files directory config = .ok labels) ↔ ∀ output ∈ config.outputs,
      output.labelFile ≠ none → ∃ cut, Fits files directory output cut) ∧
    ∀ labels, load files directory config = .ok labels →
      (∀ output ∈ config.outputs, ∀ cut, Fits files directory output cut →
        Shows labels output.name cut) ∧
      ∀ name, (∀ output ∈ config.outputs, output.name = name → output.labelFile = none) →
        labels.has name = false ∧ ∀ index, labels.label name index = "" := by
  have hformed := Config.wellFormed_of_validate hvalid
  refine ⟨?_, fun labels hload ↦ ?_⟩
  · rw [load, exists_foldlM_iff]
    exact forall₂_congr fun output houtput ↦
      exists_states_iff (hformed.output_shapes output houtput)
  have hread {output : Output} {names : Option (List String)} (houtput : output ∈ config.outputs)
      (hstates : States files directory output names) : labels.table.get? output.name = names :=
    get?_name_of_foldlM hformed.outputs_distinct hload (fun _ _ ↦ rfl) houtput hstates
  refine ⟨fun output houtput cut hcut ↦ ?_, fun name hname ↦ ?_⟩
  · exact shows_of_get? (hread houtput (hcut.states (hformed.output_shapes output houtput)))
  · have hnone : labels.table.get? name = none := by
      by_cases hmem : name ∈ config.outputs.map (·.name)
      · obtain ⟨output, houtput, rfl⟩ := List.mem_map.1 hmem
        exact hread houtput (hname output houtput rfl)
      · exact get?_of_foldlM hload hmem
    exact ⟨by rw [has, OrderedMap.contains, hnone, Option.isSome_none],
      fun index ↦ by rw [label, hnone, Option.bind_none, Option.getD_none]⟩

/-- A directory that holds one label file. -/
def shelf (text : String) : Tree where
  root := [("m", .directory [("labels.txt", .file (Bytes.ofText text))])]
  current := []

/-- A model with three classes that are labelled, and with a list of marks that is not. -/
def animals : Config where
  name := "m"
  platform := "custom"
  maxBatch := 4
  inputs := []
  outputs := [⟨"scores", .fp32, [3], some "labels.txt"⟩, ⟨"marks", .fp32, [-1], none⟩]
  policy := .latest 1
  instances := 1

/-- A carriage return is a blank at the end of its line, lines may be empty, and the last one need
not be closed. -/
theorem labelled_of_load_animals : animals.validate "m" = .ok animals ∧
    ∃ labels, load (shelf "cat \r\n\n dog") "/m" animals = .ok labels ∧
      Shows labels "scores" ["cat \r".toList, [], " dog".toList] ∧ labels.has "marks" = false := by
  have hvalid : animals.validate "m" = .ok animals := rfl
  have hfits : Fits (shelf "cat \r\n\n dog") "/m" ⟨"scores", .fp32, [3], some "labels.txt"⟩
      ["cat \r".toList, [], " dog".toList] :=
    ⟨⟨"labels.txt", "cat \r\n\n dog", rfl, rfl, Text.cutsInto_iff.2 rfl⟩, fun _ _ ↦ rfl⟩
  obtain ⟨hloads, hlabelled⟩ :=
    @labelled_of_load (shelf "cat \r\n\n dog") "/m" animals animals "m" hvalid
  obtain ⟨labels, hload⟩ := hloads.2 (List.forall_mem_cons.2 ⟨fun _ ↦ ⟨_, hfits⟩,
    List.forall_mem_singleton.2 fun hfile ↦ absurd rfl hfile⟩)
  obtain ⟨hshows, hnone⟩ := hlabelled labels hload
  exact ⟨hvalid, labels, hload, hshows _ List.mem_cons_self _ hfits,
    (hnone "marks" (by decide)).1⟩

/-- A model with more classes than can be counted in 64 bits. -/
def endless : Config :=
  { animals with
    outputs := [⟨"scores", .fp32, [4294967296, 4294967296], some "labels.txt"⟩] }

/-- A single label is enough for such a model. -/
theorem underlabelled_endless : endless.validate "m" = .ok endless ∧
    load (shelf "cat\n") "/m" endless = .ok (empty.insert "scores" ["cat"]) ∧
    Text.lines "cat\n".toList = ["cat".toList] ∧
    ¬ ∀ output ∈ endless.outputs, output.labelFile = some "labels.txt" → -1 ∉ output.shape →
      ["cat".toList].length = output.shape.volume := by
  refine ⟨rfl, rfl, rfl, fun hall ↦ ?_⟩
  exact absurd (List.forall_mem_singleton.1 hall rfl (by decide)) (by decide)

end Labels

end TensorInference.Model
