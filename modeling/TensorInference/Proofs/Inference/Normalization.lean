import TensorInference.Proofs.Model.Validation
import TensorInference.Proofs.Model.Volume

/-!
# Normal headers

`Settles` says what a normal input has to do with the given one. A header passes normalization
exactly when its batch is admissible, its inputs are the model's inputs in some order and each of
them can be settled, and its outputs are distinct outputs of the model; normalization then changes
nothing but the inputs.
-/

namespace TensorInference.Inference

open Model Wire

variable {config : Config} {batch : UInt32}

/-- Whether a given shape has the rank of a described one, positive sizes, and the described size
wherever that is fixed. -/
def Fits (given described : Shape) : Prop :=
  List.Forall₂ (fun size wanted ↦ 0 < size ∧ (wanted ≠ -1 → size = wanted)) given described

theorem fits_eq_true_iff {given described : Shape} :
    fits given described = true ↔ Fits given described := by
  induction given generalizing described with
  | nil => cases described <;> simp [fits, Fits]
  | cons size rest ih =>
    cases described with
    | nil => simp [fits, Fits]
    | cons wanted more =>
      have hsize : (0 < size ∧ (wanted = -1 ∨ size = wanted)) ↔
          (0 < size ∧ (wanted ≠ -1 → size = wanted)) := by tauto
      simp only [fits, Fits, Bool.and_eq_true, decide_eq_true_eq, List.forall₂_cons, ← hsize, ih,
        Bool.or_eq_true, and_assoc]

theorem Fits.pos {given described : Shape} (h : Fits given described) :
    ∀ size ∈ given, 0 < size := by
  intro size hsize
  obtain ⟨wanted, -, hpos, -⟩ := SideBySide.exists_of_mem_left h hsize
  exact hpos

/-- The shape that a settled input has: the given one, or the described one if none is given. -/
def settledShape (described : Input) (given : RequestInput) : Shape :=
  if given.shape = [] then described.shape else given.shape

/-- Whether the shape of a given input can be settled. -/
def ShapeSettles (described : Input) (given : RequestInput) : Prop :=
  (given.shape = [] ∧ described.shape.isFixed) ∨
    (given.shape ≠ [] ∧ Fits given.shape described.shape)

theorem settleShape_eq_ok_iff {described : Input} {given : RequestInput} {shape : Shape} :
    settleShape config described given = .ok shape ↔
      ShapeSettles described given ∧ shape = settledShape described given := by
  have hfixed : described.shape.isFixed = true ↔ ¬ described.shape.any (· < 0) = true := by
    simp [Shape.isFixed]
  unfold settleShape ShapeSettles settledShape
  rw [hfixed, ← fits_eq_true_iff]
  by_cases hgiven : given.shape = []
  · by_cases hopen : described.shape.any (· < 0) = true
    · simp [hgiven, hopen]
    · rw [if_pos hgiven, if_neg hopen, if_pos hgiven, Outcome.ok_eq_ok_iff]
      exact ⟨fun h ↦ ⟨.inl ⟨hgiven, hopen⟩, h⟩, And.right⟩
  · by_cases hfits : fits given.shape described.shape = true
    · rw [if_neg hgiven, if_pos hfits, if_neg hgiven, Outcome.ok_eq_ok_iff]
      exact ⟨fun h ↦ ⟨.inr ⟨hgiven, hfits⟩, h⟩, And.right⟩
    · simp [hgiven, hfits]

theorem settleSize_eq_ok_iff {described : Input} {given : RequestInput} {size : UInt64} :
    settleSize config batch described given = .ok size ↔
      batchBytes batch described.type given.shape = some size.toNat ∧
        (given.byteSize = 0 ∨ given.byteSize = size) := by
  unfold settleSize
  cases hbytes : batchBytes batch described.type given.shape with
  | none => simp
  | some expected =>
    obtain ⟨-, hlt, -⟩ := batchBytes_eq_some hbytes
    have hexpected : (UInt64.ofNat expected).toNat = expected := UInt64.toNat_ofNat_of_lt' hlt
    have hsize : some expected = some size.toNat ↔ UInt64.ofNat expected = size := by
      rw [Option.some.injEq, ← UInt64.toNat_inj, hexpected]
    have hgiven : given.byteSize.toNat = expected ↔ given.byteSize = UInt64.ofNat expected := by
      rw [← UInt64.toNat_inj, hexpected]
    simp only [hsize, hgiven]
    by_cases h : given.byteSize = 0 ∨ given.byteSize = UInt64.ofNat expected
    · rw [if_pos h, Except.ok.injEq]
      refine ⟨fun heq ↦ ⟨heq, heq ▸ h⟩, And.left⟩
    · rw [if_neg h]
      refine ⟨fun heq ↦ by simp at heq, ?_⟩
      rintro ⟨rfl, hsettled⟩
      exact absurd hsettled h

/-- What a settled input has to do with the given one. -/
structure Settles (config : Config) (batch : UInt32) (given settled : RequestInput) : Prop where
  name : settled.name = given.name
  described : ∃ described, config.findInput given.name = some described ∧
    ShapeSettles described given ∧ settled.shape = settledShape described given ∧
    batchBytes batch described.type settled.shape = some settled.byteSize.toNat
  size : given.byteSize = 0 ∨ given.byteSize = settled.byteSize

theorem map_name_of_settles {given settled : List RequestInput}
    (h : List.Forall₂ (Settles config batch) given settled) :
    settled.map (·.name) = given.map (·.name) :=
  (SideBySide.map_eq_map h fun _ _ hsettled ↦ hsettled.name.symm).symm

theorem settles_of_normalizeInput {seen : List String} {given settled : RequestInput}
    (h : normalizeInput config batch seen given = (settled, .ok ())) :
    given.name ∉ seen ∧ Settles config batch given settled := by
  unfold normalizeInput at h
  dsimp only at h
  split at h
  · simp at h
  rename_i hseen
  split at h
  · simp at h
  rename_i described hfind
  split at h
  · simp at h
  rename_i shape hshape
  obtain ⟨hsettles, rfl⟩ := settleShape_eq_ok_iff.1 hshape
  split at h
  · simp at h
  rename_i size hsize
  obtain ⟨hbytes, hgiven⟩ := settleSize_eq_ok_iff.1 hsize
  obtain rfl := (Prod.mk.inj h).1
  exact ⟨hseen, rfl, ⟨described, hfind, hsettles, rfl, hbytes⟩, hgiven⟩

theorem normalizeInput_of_settles {seen : List String} {given settled : RequestInput}
    (hseen : given.name ∉ seen) (h : Settles config batch given settled) :
    normalizeInput config batch seen given = (settled, .ok ()) := by
  obtain ⟨described, hfind, hsettles, hshape, hbytes⟩ := h.described
  rw [hshape] at hbytes
  have hsettleShape : settleShape config described given = .ok (settledShape described given) :=
    settleShape_eq_ok_iff.2 ⟨hsettles, rfl⟩
  have hsettleSize : settleSize config batch described
      { given with shape := settledShape described given } = .ok settled.byteSize :=
    settleSize_eq_ok_iff.2 ⟨hbytes, h.size⟩
  have hsettled : { given with
      shape := settledShape described given, byteSize := settled.byteSize } = settled := by
    rw [← hshape, ← h.name]
  unfold normalizeInput
  simp only [hseen, if_false, hfind, hsettleShape, hsettleSize, hsettled]

theorem normalizeInput_eq_ok_iff {seen : List String} {given settled : RequestInput} :
    normalizeInput config batch seen given = (settled, .ok ()) ↔
      given.name ∉ seen ∧ Settles config batch given settled :=
  ⟨settles_of_normalizeInput, fun h ↦ normalizeInput_of_settles h.1 h.2⟩

theorem normalizeInputs_eq_ok_iff {seen : List String} {given settled : List RequestInput} :
    normalizeInputs config batch seen given = (settled, .ok ()) ↔
      Named.Unseen seen (given.map (·.name)) ∧
        List.Forall₂ (Settles config batch) given settled := by
  induction given generalizing seen settled with
  | nil => simp [normalizeInputs, eq_comm]
  | cons input rest ih =>
    rw [List.map_cons, Named.unseen_cons, List.forall₂_cons_left_iff, normalizeInputs]
    constructor
    · intro h
      split at h
      · simp at h
      · rename_i first hfirst
        obtain ⟨hseen, hsettles⟩ := normalizeInput_eq_ok_iff.1 hfirst
        obtain ⟨hinputs, houtcome⟩ := Prod.mk.inj h
        obtain ⟨hunseen, hrest⟩ := ih.1 (Prod.ext rfl houtcome)
        exact ⟨⟨hseen, hunseen⟩, first, _, hsettles, hrest, hinputs.symm⟩
    · rintro ⟨⟨hseen, hunseen⟩, first, more, hsettles, hrest, rfl⟩
      rw [normalizeInput_eq_ok_iff.2 ⟨hseen, hsettles⟩]
      dsimp only
      rw [ih.2 ⟨hunseen, hrest⟩]

theorem checkOutputs_eq_ok_iff {seen : List String} {outputs : List RequestOutput} :
    checkOutputs config seen outputs = .ok () ↔
      Named.Unseen seen (outputs.map (·.name)) ∧
        ∀ output ∈ outputs, output.name ∈ config.outputs.map (·.name) := by
  induction outputs generalizing seen with
  | nil => simp [checkOutputs]
  | cons output rest ih =>
    have hfind : ¬ (config.findOutput output.name).isNone = true ↔
        output.name ∈ config.outputs.map (·.name) := by
      rw [← Named.isSome_find?_iff, Option.isNone_iff_eq_none, Option.isSome_iff_ne_none]
      rfl
    rw [checkOutputs, List.map_cons, Named.unseen_cons, List.forall_mem_cons]
    simp only [Outcome.guard_eq_ok_iff, ih, hfind]
    tauto

theorem checkBatch_eq_ok_iff :
    checkBatch config batch = .ok () ↔ 1 ≤ batch.toNat ∧ batch.toNat ≤ config.batchLimit := by
  have hzero : batch = 0 ↔ batch.toNat = 0 := by rw [← UInt32.toNat_inj]; rfl
  have hone : batch = 1 ↔ batch.toNat = 1 := by rw [← UInt32.toNat_inj]; rfl
  have hmax : config.maxBatch = 0 ↔ config.maxBatch.toNat = 0 := by rw [← UInt32.toNat_inj]; rfl
  unfold checkBatch Config.batchLimit
  simp only [hzero, hone, hmax, UInt32.lt_iff_toNat_lt]
  split
  · simp; omega
  · split
    · split
      · simp; omega
      · simp; omega
    · split
      · simp; omega
      · simp; omega

theorem checkInputCount_eq_ok_iff {inputs : List RequestInput} :
    checkInputCount config inputs = .ok () ↔ inputs.length = config.inputs.length := by
  unfold checkInputCount
  dsimp only
  split
  · rename_i h
    exact ⟨fun _ ↦ h, fun _ ↦ rfl⟩
  · rename_i h
    exact ⟨fun hok ↦ by simp at hok, fun hlength ↦ absurd hlength h⟩

/-- A header has a normal form exactly when its batch is admissible, it lists as many inputs as the
model takes, all of them different and to be settled, and different outputs of the model. -/
theorem normalized_eq_ok_iff {header normal : RequestHeader} :
    normalized config header = .ok normal ↔
      (1 ≤ header.batch.toNat ∧ header.batch.toNat ≤ config.batchLimit) ∧
      header.inputs.length = config.inputs.length ∧
      (header.inputs.map (·.name)).Nodup ∧
      List.Forall₂ (Settles config header.batch) header.inputs normal.inputs ∧
      (header.outputs.map (·.name)).Nodup ∧
      (∀ output ∈ header.outputs, output.name ∈ config.outputs.map (·.name)) ∧
      normal = { header with inputs := normal.inputs } := by
  rw [← checkBatch_eq_ok_iff, ← checkInputCount_eq_ok_iff, ← Named.unseen_nil_iff,
    ← Named.unseen_nil_iff]
  constructor
  · intro h
    unfold normalized normalize at h
    cases hbatch : checkBatch config header.batch with
    | error status => simp [hbatch] at h
    | ok =>
      cases hcount : checkInputCount config header.inputs with
      | error status => simp [hbatch, hcount] at h
      | ok =>
        simp only [hbatch, hcount] at h
        split at h
        · rename_i settled hsettled
          obtain rfl : settled = normal := Except.ok.inj h
          obtain ⟨hheader, houtcome⟩ := Prod.mk.inj hsettled
          obtain ⟨hinputs, houtputs⟩ := Outcome.check_bind_eq_ok_iff.1 houtcome
          obtain ⟨hdistinct, hsettles⟩ := normalizeInputs_eq_ok_iff.1 (Prod.ext rfl hinputs)
          obtain ⟨hwanted, hknown⟩ := checkOutputs_eq_ok_iff.1 houtputs
          subst hheader
          exact ⟨rfl, rfl, hdistinct, hsettles, hwanted, hknown, rfl⟩
        · simp at h
  · rintro ⟨hbatch, hcount, hdistinct, hsettles, hwanted, hknown, hnormal⟩
    have hinputs := normalizeInputs_eq_ok_iff.2 ⟨hdistinct, hsettles⟩
    have houtputs := checkOutputs_eq_ok_iff.2 ⟨hwanted, hknown⟩
    unfold normalized normalize
    simp only [hbatch, hcount, hinputs, houtputs, hnormal.symm]
    rfl

theorem batch_of_normalized {header normal : RequestHeader}
    (h : normalized config header = .ok normal) : normal.batch = header.batch := by
  obtain ⟨-, -, -, -, -, -, hnormal⟩ := normalized_eq_ok_iff.1 h
  rw [hnormal]

theorem outputs_of_normalized {header normal : RequestHeader}
    (h : normalized config header = .ok normal) :
    normal.outputs = header.outputs ∧ (normal.outputs.map (·.name)).Nodup := by
  obtain ⟨-, -, -, -, hdistinct, -, hnormal⟩ := normalized_eq_ok_iff.1 h
  rw [hnormal]
  exact ⟨rfl, hdistinct⟩

/-- The inputs of a header that passes are the inputs of the model in some order. -/
theorem inputs_perm_of_normalized {header normal : RequestHeader}
    (h : normalized config header = .ok normal) :
    (header.inputs.map (·.name)).Perm (config.inputs.map (·.name)) := by
  obtain ⟨-, hcount, hdistinct, hsettles, -⟩ := normalized_eq_ok_iff.1 h
  apply Named.perm_of_subset hdistinct
  · rw [List.forall_mem_map]
    intro given hgiven
    obtain ⟨settled, -, hsettled⟩ := SideBySide.exists_of_mem_left hsettles hgiven
    obtain ⟨described, hdescribed, -⟩ := hsettled.described
    exact Named.isSome_find?_iff.1 (Option.isSome_of_eq_some hdescribed)
  · rw [List.length_map, List.length_map, hcount]

end TensorInference.Inference
