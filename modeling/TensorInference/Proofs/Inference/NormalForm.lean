import TensorInference.Proofs.Inference.Acceptance

/-!
# Normal forms of headers

Normalization fills in the shapes and sizes that a header leaves open and changes nothing else. All
sizes it leaves behind are positive, so none of them is taken for an open one by a second run: a
normal form is its own normal form. An input in order in all else is refused as too large exactly if
its bytes cannot be counted in 64 bits, although they are counted in three steps with a check each.
Main statement: `fills_of_validate`.
-/

namespace TensorInference.Inference

open Model Wire

variable {config : Config} {batch : UInt32} {header normal : RequestHeader} {described : Input}
  {given filled : RequestInput}

/-- A settled shape is settled. -/
theorem ShapeSettles.settled (hdescribed : described.shape.isDescription = true)
    (h : ShapeSettles described given) (hshape : filled.shape = settledShape described given) :
    ShapeSettles described filled := by
  have hpos := settledShape_pos hdescribed h
  rw [settledShape] at hshape hpos
  rcases h with ⟨hgiven, hfixed⟩ | ⟨hgiven, hfits⟩
  · rw [if_pos hgiven] at hshape hpos
    by_cases hempty : filled.shape = []
    · exact .inl ⟨hempty, hfixed⟩
    · refine .inr ⟨hempty, ?_⟩
      rw [hshape, Fits, List.forall₂_same]
      exact fun size hsize ↦ ⟨hpos size hsize, fun _ ↦ rfl⟩
  · rw [if_neg hgiven] at hshape
    rw [← hshape] at hgiven hfits
    exact .inr ⟨hgiven, hfits⟩

theorem settledShape_settled (hshape : filled.shape = settledShape described given) :
    settledShape described filled = filled.shape := by
  rw [settledShape]
  split
  · rename_i hempty
    rw [hempty, settledShape] at hshape
    split at hshape
    · rw [hempty, ← hshape]
    · rename_i hgiven
      exact absurd hshape.symm hgiven
  · rfl

theorem Settles.settled (hconfig : config.WellFormed) (h : Settles config batch given filled) :
    Settles config batch filled filled := by
  obtain ⟨described, hfind, hsettles, hshape, hbytes⟩ := h.described
  have hdescribed := (hconfig.findInput_eq_some_iff.1 hfind).1
  exact ⟨rfl, ⟨described, h.name ▸ hfind,
    hsettles.settled (hconfig.input_shapes described hdescribed) hshape,
    (settledShape_settled hshape).symm, hbytes⟩, .inr rfl⟩

/-- A normal form is its own normal form. -/
theorem normalized_of_normalized (hconfig : config.WellFormed)
    (h : normalized config header = .ok normal) : normalized config normal = .ok normal := by
  obtain ⟨hbatch, hcount, hdistinct, hsettles, hwanted, hknown, hnormal⟩ :=
    normalized_eq_ok_iff.1 h
  have hsettled : List.Forall₂ (Settles config header.batch) normal.inputs normal.inputs := by
    rw [List.forall₂_same]
    intro settled hsettled
    obtain ⟨given, -, hgiven⟩ := SideBySide.exists_of_mem_right hsettles hsettled
    exact hgiven.settled hconfig
  rw [normalized_eq_ok_iff, map_name_of_settles hsettles, ← hsettles.length_eq]
  generalize normal.inputs = inputs at *
  subst hnormal
  exact ⟨hbatch, hcount, hdistinct, hsettled, hwanted, hknown, rfl⟩

theorem normalize_eq_ok_iff :
    normalize config header = (normal, .ok ()) ↔ normalized config header = .ok normal := by
  unfold normalized
  rcases normalize config header with ⟨other, status | _⟩
  · simp
  · simp

/-- What normalization makes of an input. -/
structure Filled (config : Config) (batch : UInt32) (given filled : RequestInput) : Prop where
  name : filled.name = given.name
  /-- The shape is the model's if none was given, and the size is that of the whole batch. -/
  exact : ∃ described ∈ config.inputs, described.name = given.name ∧
    filled.shape = (if given.shape = [] then described.shape else given.shape) ∧
    filled.byteSize.toNat = exactBytes batch described.type filled.shape
  shape_pos : ∀ size ∈ filled.shape, 0 < size
  size_pos : 1 ≤ filled.byteSize.toNat
  size_le : filled.byteSize.toNat ≤ 2 ^ 64 - 1
  kept : given.byteSize ≠ 0 → filled.byteSize = given.byteSize

theorem exactBytes_pos {type : ElementType} {shape : Shape} (hbatch : 0 < batch.toNat)
    (hpos : ∀ size ∈ shape, 0 < size) : 0 < exactBytes batch type shape :=
  Nat.mul_pos (Nat.mul_pos hbatch (Shape.volume_pos hpos)) type.width_pos

theorem Settles.fills (hconfig : config.WellFormed) (hbatch : 0 < batch.toNat)
    (h : Settles config batch given filled) : Filled config batch given filled := by
  obtain ⟨described, hfind, hsettles, hshape, hbytes⟩ := h.described
  obtain ⟨hdescribed, hname⟩ := hconfig.findInput_eq_some_iff.1 hfind
  obtain ⟨hexact, hlt, -⟩ := batchBytes_eq_some hbytes
  have hpos : ∀ size ∈ filled.shape, 0 < size := by
    rw [hshape]
    exact settledShape_pos (hconfig.input_shapes described hdescribed) hsettles
  refine ⟨h.name, ⟨described, hdescribed, hname, hshape, hexact⟩, hpos, ?_,
    Nat.le_sub_one_of_lt hlt, fun hgiven ↦ (h.size.resolve_left hgiven).symm⟩
  rw [hexact]
  exact exactBytes_pos hbatch hpos

/-! ## Inputs that are too large -/

/-- The refusal of an input whose bytes cannot be counted. -/
def tooLarge (config : Config) (name : String) : Status :=
  .invalidArg s!"input '{name}' for model '{config.name}' is too large"

/-- Whether an outcome is not the refusal of an input as too large. -/
def Bearable {α : Type} (config : Config) (outcome : Except Status α) : Prop :=
  ∀ name, outcome ≠ .error (tooLarge config name)

theorem tooLarge_inj {name other : String} :
    tooLarge config name = tooLarge config other ↔ name = other := by
  simp [tooLarge, Status.invalidArg, String.ext_iff, String.toList_append, toString]

/-- The refusals of other checks start with other letters. -/
theorem bearable_invalidArg {α : Type} {message : String}
    (h : message.toList.take 3 ≠ ['i', 'n', 'p']) :
    Bearable config (.error (.invalidArg message) : Except Status α) := by
  intro name heq
  have hmessage := congrArg Status.message (Except.error.inj heq)
  apply h
  rw [show message = _ from hmessage]
  simp [tooLarge, Status.invalidArg, String.toList_append, toString]

theorem bearable_ok {α : Type} {a : α} : Bearable config (.ok a : Except Status α) :=
  fun _ h ↦ nomatch h

theorem bearable_ite {α : Type} {p : Prop} [Decidable p] {x y : Except Status α}
    (hx : Bearable config x) (hy : Bearable config y) :
    Bearable config (if p then x else y) := by
  split
  · exact hx
  · exact hy

theorem bearable_checkBatch : Bearable config (checkBatch config batch) :=
  bearable_ite (bearable_invalidArg (by simp [String.toList_append, toString]))
    (bearable_ite
      (bearable_ite bearable_ok (bearable_invalidArg (by simp [String.toList_append, toString])))
      (bearable_ite (bearable_invalidArg (by simp [String.toList_append, toString])) bearable_ok))

theorem bearable_checkInputCount {inputs : List RequestInput} :
    Bearable config (checkInputCount config inputs) :=
  bearable_ite bearable_ok (bearable_invalidArg (by simp [String.toList_append, toString]))

theorem bearable_settleShape : Bearable config (settleShape config described given) :=
  bearable_ite
    (bearable_ite (bearable_invalidArg (by simp [String.toList_append, toString])) bearable_ok)
    (bearable_ite bearable_ok (bearable_invalidArg (by simp [String.toList_append, toString])))

theorem bearable_checkOutputs {seen : List String} {outputs : List RequestOutput} :
    Bearable config (checkOutputs config seen outputs) := by
  induction outputs generalizing seen with
  | nil => exact bearable_ok
  | cons output rest ih =>
    rw [checkOutputs]
    dsimp only
    split
    · exact bearable_invalidArg (by simp [String.toList_append, toString])
    · split
      · exact bearable_invalidArg (by simp [String.toList_append, toString])
      · exact ih

/-- An input of the model with a shape that can be settled, whose bytes cannot be counted. -/
def Oversized (config : Config) (batch : UInt32) (given : RequestInput) : Prop :=
  ∃ described, config.findInput given.name = some described ∧ ShapeSettles described given ∧
    batchBytes batch described.type (settledShape described given) = none

theorem settleSize_eq_tooLarge_iff {name : String} :
    settleSize config batch described given = .error (tooLarge config name) ↔
      batchBytes batch described.type given.shape = none ∧ given.name = name := by
  unfold settleSize
  cases hbytes : batchBytes batch described.type given.shape with
  | none =>
    change (.error (tooLarge config given.name) : Except Status UInt64) = _ ↔ _
    rw [Except.error.injEq, tooLarge_inj]
    exact ⟨fun hname ↦ ⟨rfl, hname⟩, And.right⟩
  | some expected =>
    refine iff_of_false (bearable_ite bearable_ok (bearable_invalidArg ?_) name) (by simp)
    simp [String.toList_append, toString]

/-- An input that is looked for and found is refused where its shape or its size is. -/
theorem snd_normalizeInput {seen : List String} (hseen : given.name ∉ seen)
    (hfind : config.findInput given.name = some described) :
    (normalizeInput config batch seen given).2 =
      settleShape config described given >>= fun shape ↦
        settleSize config batch described { given with shape } >>= fun _ ↦ .ok () := by
  unfold normalizeInput
  simp only [hseen, if_false, hfind]
  cases settleShape config described given with
  | error status => rfl
  | ok shape =>
    simp only [bind, Except.bind]
    cases settleSize config batch described { given with shape } with
    | error status => rfl
    | ok size => rfl

theorem normalizeInput_eq_tooLarge_iff {seen : List String} {name : String} :
    (normalizeInput config batch seen given).2 = .error (tooLarge config name) ↔
      given.name = name ∧ given.name ∉ seen ∧ Oversized config batch given := by
  by_cases hseen : given.name ∈ seen
  · have houtcome : Bearable config (normalizeInput config batch seen given).2 := by
      unfold normalizeInput
      simp only [hseen, if_true]
      exact bearable_invalidArg (by simp [String.toList_append, toString])
    exact iff_of_false (houtcome name) fun h ↦ h.2.1 hseen
  cases hfind : config.findInput given.name with
  | none =>
    have houtcome : Bearable config (normalizeInput config batch seen given).2 := by
      unfold normalizeInput
      simp only [hseen, if_false, hfind]
      exact bearable_invalidArg (by simp [String.toList_append, toString])
    exact iff_of_false (houtcome name) (by simp [Oversized, hfind])
  | some described =>
    have hshape := @bearable_settleShape config described given name
    rw [snd_normalizeInput hseen hfind, Outcome.bind_eq_error_iff, or_iff_right hshape]
    simp only [settleShape_eq_ok_iff, Outcome.bind_eq_error_iff, settleSize_eq_tooLarge_iff,
      reduceCtorEq, and_false, exists_const, or_false, Oversized, hfind, Option.some.injEq]
    constructor
    · rintro ⟨_, ⟨hsettles, rfl⟩, hbytes, hname⟩
      exact ⟨hname, hseen, described, rfl, hsettles, hbytes⟩
    · rintro ⟨hname, -, _, rfl, hsettles, hbytes⟩
      exact ⟨_, ⟨hsettles, rfl⟩, hbytes, hname⟩

/-- Inputs are refused as too large for the first one that is not in order, if that one is in order
but for its size. -/
theorem normalizeInputs_eq_tooLarge_iff {seen : List String} {inputs : List RequestInput}
    {name : String} :
    (normalizeInputs config batch seen inputs).2 = .error (tooLarge config name) ↔
      ∃ front given back, inputs = front ++ given :: back ∧ given.name = name ∧
        Named.Unseen seen ((front ++ [given]).map (·.name)) ∧
        (∀ earlier ∈ front, ∃ settled, Settles config batch earlier settled) ∧
        Oversized config batch given := by
  induction inputs generalizing seen with
  | nil => simp [normalizeInputs]
  | cons input rest ih =>
    have hinput := @normalizeInput_eq_tooLarge_iff config batch input seen name
    rw [normalizeInputs]
    rcases houtcome : normalizeInput config batch seen input with ⟨first, status | _⟩
    · rw [houtcome] at hinput
      dsimp only at hinput ⊢
      rw [hinput]
      constructor
      · rintro ⟨hname, hseen, hover⟩
        exact ⟨[], input, rest, rfl, hname, Named.unseen_cons.2 ⟨hseen, Named.unseen_nil _⟩,
          List.forall_mem_nil _, hover⟩
      · rintro ⟨front, given, back, hsplit, hname, hunseen, hearlier, hover⟩
        cases front with
        | nil =>
          obtain ⟨rfl, rfl⟩ := List.cons.inj hsplit
          exact ⟨hname, (Named.unseen_cons.1 hunseen).1, hover⟩
        | cons head front =>
          -- An input before the first one that is not in order is settled.
          obtain ⟨rfl, rfl⟩ := List.cons.inj hsplit
          obtain ⟨settled, hsettled⟩ := hearlier _ List.mem_cons_self
          rw [normalizeInput_of_settles (Named.unseen_cons.1 hunseen).1 hsettled] at houtcome
          cases houtcome
    · obtain ⟨hseen, hsettles⟩ := normalizeInput_eq_ok_iff.1 houtcome
      dsimp only
      rw [ih]
      constructor
      · rintro ⟨front, given, back, rfl, hname, hunseen, hearlier, hover⟩
        exact ⟨input :: front, given, back, rfl, hname, Named.unseen_cons.2 ⟨hseen, hunseen⟩,
          List.forall_mem_cons.2 ⟨⟨first, hsettles⟩, hearlier⟩, hover⟩
      · rintro ⟨front, given, back, hsplit, hname, hunseen, hearlier, hover⟩
        cases front with
        | nil =>
          obtain ⟨rfl, rfl⟩ := List.cons.inj hsplit
          rw [houtcome] at hinput
          cases hinput.2 ⟨hname, hseen, hover⟩
        | cons head front =>
          obtain ⟨rfl, rfl⟩ := List.cons.inj hsplit
          exact ⟨front, given, back, rfl, hname, (Named.unseen_cons.1 hunseen).2,
            (List.forall_mem_cons.1 hearlier).2, hover⟩

/-- A header is refused by the first of its checks that fails. -/
theorem snd_normalize : (normalize config header).2 =
    checkBatch config header.batch >>= fun _ ↦ checkInputCount config header.inputs >>= fun _ ↦
      (normalizeInputs config header.batch [] header.inputs).2 >>= fun _ ↦
        checkOutputs config [] header.outputs := by
  unfold normalize
  cases checkBatch config header.batch with
  | error status => rfl
  | ok _ =>
    cases checkInputCount config header.inputs with
    | error status => rfl
    | ok _ => rfl

theorem normalize_eq_tooLarge_iff {name : String} :
    (normalize config header).2 = .error (tooLarge config name) ↔
      checkBatch config header.batch = .ok () ∧ checkInputCount config header.inputs = .ok () ∧
        (normalizeInputs config header.batch [] header.inputs).2 =
          .error (tooLarge config name) := by
  have hbatch := @bearable_checkBatch config header.batch name
  have hcount := @bearable_checkInputCount config header.inputs name
  have houtputs := @bearable_checkOutputs config [] header.outputs name
  rw [snd_normalize, Outcome.bind_eq_error_iff, or_iff_right hbatch]
  simp only [Outcome.bind_eq_error_iff, or_iff_right hcount, houtputs, and_false, exists_const,
    or_false]
  exact ⟨fun ⟨_, hbatch, _, hcount, hinputs⟩ ↦ ⟨hbatch, hcount, hinputs⟩,
    fun ⟨hbatch, hcount, hinputs⟩ ↦ ⟨(), hbatch, (), hcount, hinputs⟩⟩

/-- An input of a header at which nothing is wrong but perhaps the size, and nothing before it. -/
structure InOrder (config : Config) (header : RequestHeader) (described : Input)
    (given : RequestInput) : Prop where
  batch : 1 ≤ header.batch.toNat ∧ header.batch.toNat ≤ config.batchLimit
  count : header.inputs.length = config.inputs.length
  place : ∃ front back, header.inputs = front ++ given :: back ∧
    ((front ++ [given]).map (·.name)).Nodup ∧
    ∀ earlier ∈ front, ∃ settled, Settles config header.batch earlier settled
  found : config.findInput given.name = some described
  shape : ShapeSettles described given

/-- An input in order is the one that is found under its name. -/
theorem InOrder.findInput (h : InOrder config header described given) :
    header.findInput given.name = some given := by
  obtain ⟨front, back, hsplit, hdistinct, -⟩ := h.place
  rw [List.map_append, List.map_singleton] at hdistinct
  have hnew : given.name ∉ front.map (·.name) := fun hmem ↦
    (List.nodup_append.1 hdistinct).2.2 _ hmem _ List.mem_cons_self rfl
  have hfront : front.find? (fun input ↦ input.name = given.name) = none := by
    rw [← Option.not_isSome_iff_eq_none, Named.isSome_find?_iff]
    exact hnew
  rw [RequestHeader.findInput, hsplit, List.find?_append, hfront]
  simp

theorem oversized_iff (hconfig : config.WellFormed) (hbatch : 0 < batch.toNat)
    (hfind : config.findInput given.name = some described) (hshape : ShapeSettles described given) :
    Oversized config batch given ↔
      2 ^ 64 ≤ exactBytes batch described.type (settledShape described given) := by
  have hdescribed := (hconfig.findInput_eq_some_iff.1 hfind).1
  have hpos := settledShape_pos (hconfig.input_shapes described hdescribed) hshape
  have hbytes : batchBytes batch described.type (settledShape described given) = none ↔
      2 ^ 64 ≤ exactBytes batch described.type (settledShape described given) := by
    rw [batchBytes_of_pos hbatch hpos]
    split
    · simp_all
    · simp_all
  rw [← hbytes]
  constructor
  · rintro ⟨other, hother, -, hnone⟩
    obtain rfl : described = other := Option.some.inj (hfind.symm.trans hother)
    exact hnone
  · exact fun hnone ↦ ⟨described, hfind, hshape, hnone⟩

/-- A header is refused for an input that is too large exactly if there is such an input with
nothing wrong before it. -/
theorem normalize_eq_tooLarge_iff_inOrder {name : String} :
    (normalize config header).2 = .error (tooLarge config name) ↔
      ∃ described given, InOrder config header described given ∧ given.name = name ∧
        Oversized config header.batch given := by
  rw [normalize_eq_tooLarge_iff, checkBatch_eq_ok_iff, checkInputCount_eq_ok_iff,
    normalizeInputs_eq_tooLarge_iff]
  constructor
  · rintro ⟨hbatch, hcount, front, given, back, hsplit, hname, hunseen, hearlier, hover⟩
    obtain ⟨described, hfind, hshape, -⟩ := id hover
    exact ⟨described, given, ⟨hbatch, hcount, ⟨front, back, hsplit,
      Named.unseen_nil_iff.1 hunseen, hearlier⟩, hfind, hshape⟩, hname, hover⟩
  · rintro ⟨described, given, h, hname, hover⟩
    obtain ⟨front, back, hsplit, hdistinct, hearlier⟩ := h.place
    exact ⟨h.batch, h.count, front, given, back, hsplit, hname,
      Named.unseen_nil_iff.2 hdistinct, hearlier, hover⟩

/-- Normalization by a valid configuration fills in what a header leaves open and nothing else, and
a second run changes nothing. An input in order is refused as too large exactly if the exact number
of its bytes does not fit into 64 bits, and no other input is. -/
theorem fills_of_validate {written : Config} {directory : String}
    (hvalid : written.validate directory = .ok config) (header : RequestHeader) :
    (∀ normal, normalize config header = (normal, .ok ()) →
      normal.id = header.id ∧ normal.batch = header.batch ∧ normal.outputs = header.outputs ∧
        List.Forall₂ (Filled config header.batch) header.inputs normal.inputs ∧
        normalize config normal = (normal, .ok ())) ∧
    (∀ described given, InOrder config header described given →
      ((normalize config header).2 = .error (tooLarge config given.name) ↔
        2 ^ 64 ≤ exactBytes header.batch described.type (settledShape described given))) ∧
    (∀ name, (normalize config header).2 = .error (tooLarge config name) →
      ∃ described given, InOrder config header described given ∧ given.name = name) := by
  have hconfig := Config.wellFormed_of_validate hvalid
  refine ⟨fun normal hnormal ↦ ?_, fun described given hgiven ↦ ?_, fun name hname ↦ ?_⟩
  · rw [normalize_eq_ok_iff] at hnormal
    obtain ⟨⟨hbatch, -⟩, -, -, hsettles, -, -, heq⟩ := normalized_eq_ok_iff.1 hnormal
    refine ⟨by rw [heq], by rw [heq], by rw [heq],
      hsettles.imp fun given filled h ↦ h.fills hconfig hbatch, ?_⟩
    exact normalize_eq_ok_iff.2 (normalized_of_normalized hconfig hnormal)
  · rw [normalize_eq_tooLarge_iff_inOrder,
      ← oversized_iff hconfig hgiven.batch.1 hgiven.found hgiven.shape]
    constructor
    · rintro ⟨_, other, hother, hname, hover⟩
      obtain rfl : other = given :=
        Option.some.inj ((hname ▸ hother.findInput).symm.trans hgiven.findInput)
      exact hover
    · exact fun hover ↦ ⟨described, given, hgiven, rfl, hover⟩
  · obtain ⟨described, given, hgiven, hsame, -⟩ := normalize_eq_tooLarge_iff_inOrder.1 hname
    exact ⟨described, given, hgiven, hsame⟩

/-! ## Pictures of any height -/

/-- A model of pictures of any height. -/
def picture : Config where
  name := "picture"
  platform := "custom"
  maxBatch := 4
  inputs := [{ name := "pixels", type := .int32, shape := [-1, 3] },
    { name := "scale", type := .fp64, shape := [2] }]
  outputs := [{ name := "score", type := .fp32, shape := [1], labelFile := none }]
  policy := .all
  instances := 1

/-- A header for two pictures, with the scale first. -/
def pictures (scale : Shape) (scaleBytes : UInt64) (height : Int64) (pixelBytes : UInt64) :
    RequestHeader where
  id := 7
  batch := 2
  inputs := [{ name := "scale", shape := scale, byteSize := scaleBytes },
    { name := "pixels", shape := [height, 3], byteSize := pixelBytes }]
  outputs := []

/-- The shape of the scale and the size of the pixels are filled in; pictures that are too high are
refused. -/
theorem fills_of_validate_pictures :
    picture.validate "picture" = .ok picture ∧
      normalize picture (pictures [] 32 5 0) = (pictures [2] 32 5 120, .ok ()) ∧
      normalize picture (pictures [2] 32 5 120) = (pictures [2] 32 5 120, .ok ()) ∧
      (normalize picture (pictures [] 0 1152921504606846976 0)).2 =
        .error (tooLarge picture "pixels") := by
  have hvalid : picture.validate "picture" = .ok picture := rfl
  have hnormal : normalize picture (pictures [] 32 5 0) = (pictures [2] 32 5 120, .ok ()) := rfl
  obtain ⟨-, -, -, -, hagain⟩ := (fills_of_validate hvalid _).1 _ hnormal
  have hscale : normalizeInput picture 2 [] { name := "scale", shape := [], byteSize := 0 } =
      ({ name := "scale", shape := [2], byteSize := 32 }, .ok ()) := rfl
  have horder : InOrder picture (pictures [] 0 1152921504606846976 0)
      { name := "pixels", type := .int32, shape := [-1, 3] }
      { name := "pixels", shape := [1152921504606846976, 3], byteSize := 0 } := by
    refine ⟨by decide, rfl, ⟨[_], [], rfl, by decide, ?_⟩, rfl, .inr ⟨by decide, ?_⟩⟩
    · exact List.forall_mem_singleton.2 ⟨_, (settles_of_normalizeInput hscale).2⟩
    · exact fits_eq_true_iff.1 (by decide)
  exact ⟨hvalid, hnormal, hagain, ((fills_of_validate hvalid _).2.1 _ _ horder).2 (by decide)⟩

end TensorInference.Inference
