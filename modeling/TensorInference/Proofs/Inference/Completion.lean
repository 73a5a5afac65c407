import TensorInference.Inference.Response
import TensorInference.Proofs.Model.Validation
import TensorInference.Proofs.OrderedMap

/-!
# Completed responses

A response is created exactly when the request asks for outputs of the model, and for classes only
where they can be ranked. Storing an output of the right size keeps it if it was asked for, and
completion succeeds exactly when every output that was asked for is there; the header then
describes them in the order in which they were asked for.
-/

namespace TensorInference.Inference.Response

open Model Wire

variable {config : Config} {header : RequestHeader}

/-! ## What is asked for -/

/-- The names of the outputs that a request asks for: all of the model if it names none. -/
def askedNames (config : Config) (header : RequestHeader) : List String :=
  if header.outputs = [] then config.outputs.map (·.name) else header.outputs.map (·.name)

/-- How many of the best classes a request asks for instead of an output. -/
def askedClasses (header : RequestHeader) (name : String) : Option UInt32 :=
  (header.findOutput name).bind (·.classes)

theorem askedNames_congr {other : RequestHeader} (h : other.outputs = header.outputs) :
    askedNames config other = askedNames config header := by
  rw [askedNames, h, askedNames]

theorem askedClasses_congr {other : RequestHeader} (h : other.outputs = header.outputs) :
    askedClasses other = askedClasses header := by
  funext name
  rw [askedClasses, RequestHeader.findOutput, h]
  rfl

theorem wantOutput_eq_ok_iff {output : RequestOutput} {wanted : WantedOutput} :
    wantOutput config output = .ok wanted ↔
      ∃ described, config.findOutput output.name = some described ∧
        (∀ count, output.classes = some count → count ≠ 0 ∧ described.type ≠ .bool) ∧
        wanted = { name := output.name, type := described.type, classes := output.classes } := by
  unfold wantOutput
  dsimp only
  cases hfind : config.findOutput output.name with
  | none => simp
  | some described =>
    cases hclasses : output.classes with
    | none => simp [-Except.ok.injEq, Outcome.ok_eq_ok_iff]
    | some count =>
      by_cases hcount : count = 0
      · simp [hcount]
      · by_cases htype : described.type = .bool
        · simp [hcount, htype, ElementType.isNumeric]
        · simp [-Except.ok.injEq, Outcome.ok_eq_ok_iff, hcount, htype, ElementType.isNumeric]

/-- What a created response wants of the model's outputs. -/
structure Wants (config : Config) (header : RequestHeader) (wanted : List WantedOutput) :
    Prop where
  names : wanted.map (·.name) = askedNames config header
  type : ∀ want ∈ wanted, ∃ described, config.findOutput want.name = some described ∧
    want.type = described.type
  classes : ∀ want ∈ wanted, want.classes = askedClasses header want.name

theorem wants_of_wantOutputs {wanted : List WantedOutput} (hconfig : config.WellFormed)
    (hdistinct : (header.outputs.map (·.name)).Nodup)
    (h : wantOutputs config header = .ok wanted) : Wants config header wanted := by
  unfold wantOutputs at h
  split at h
  · rename_i hnone
    obtain rfl := Except.ok.inj h
    refine ⟨by simp [askedNames, hnone], ?_, ?_⟩
    · rw [List.forall_mem_map]
      intro output houtput
      exact ⟨output, hconfig.findOutput_eq_some_iff.2 ⟨houtput, rfl⟩, rfl⟩
    · rw [List.forall_mem_map]
      intro output _
      simp [askedClasses, RequestHeader.findOutput, hnone]
  · rename_i hsome
    have hwanted := Outcome.mapM_eq_ok_iff.1 h
    refine ⟨?_, ?_, ?_⟩
    · rw [askedNames, if_neg hsome]
      refine (SideBySide.map_eq_map hwanted fun output want hwant ↦ ?_).symm
      obtain ⟨_, -, -, rfl⟩ := wantOutput_eq_ok_iff.1 hwant
      rfl
    · intro want hwant
      obtain ⟨output, -, houtput⟩ := SideBySide.exists_of_mem_right hwanted hwant
      obtain ⟨described, hfind, -, rfl⟩ := wantOutput_eq_ok_iff.1 houtput
      exact ⟨described, hfind, rfl⟩
    · intro want hwant
      obtain ⟨output, hmem, houtput⟩ := SideBySide.exists_of_mem_right hwanted hwant
      obtain ⟨_, -, -, rfl⟩ := wantOutput_eq_ok_iff.1 houtput
      have hfound : header.findOutput output.name = some output :=
        (Named.find?_eq_some_iff hdistinct).2 ⟨hmem, rfl⟩
      simp [askedClasses, hfound]

theorem wants_of_create {version : UInt64} {labels : Labels} {response : Response}
    (hconfig : config.WellFormed) (hdistinct : (header.outputs.map (·.name)).Nodup)
    (h : create header config version labels = .ok response) :
    response.outputs = .empty ∧ Wants config header response.wanted := by
  obtain ⟨wanted, hwanted, hresponse⟩ := Outcome.bind_eq_ok_iff.1 h
  obtain rfl := Except.ok.inj hresponse
  exact ⟨rfl, wants_of_wantOutputs hconfig hdistinct hwanted⟩

/-- What is wanted under the name of an output has its type. -/
theorem Wants.type_eq {wanted : List WantedOutput} (h : Wants config header wanted)
    (hconfig : config.WellFormed) {described : Output} (hdescribed : described ∈ config.outputs)
    {want : WantedOutput} (hwant : want ∈ wanted) (hname : want.name = described.name) :
    want.type = described.type := by
  obtain ⟨other, hother, htype⟩ := h.type want hwant
  have hfind : config.findOutput described.name = some described :=
    hconfig.findOutput_eq_some_iff.2 ⟨hdescribed, rfl⟩
  obtain rfl : other = described := Option.some.inj (hother.symm.trans (hname ▸ hfind))
  exact htype

theorem batch_of_create {version : UInt64} {labels : Labels} {response : Response}
    (h : create header config version labels = .ok response) :
    response.header.batch = header.batch := by
  obtain ⟨wanted, -, hresponse⟩ := Outcome.bind_eq_ok_iff.1 h
  rw [← Except.ok.inj hresponse]

theorem labels_of_create {version : UInt64} {labels : Labels} {response : Response}
    (h : create header config version labels = .ok response) : response.labels = labels := by
  obtain ⟨wanted, -, hresponse⟩ := Outcome.bind_eq_ok_iff.1 h
  rw [← Except.ok.inj hresponse]

variable {response : Response} {name : String} {tensor : OutputTensor}

/-- The response with an output kept, if it was asked for. -/
def keep (response : Response) (name : String) (tensor : OutputTensor) : Response :=
  if response.requires name then
    { response with outputs := response.outputs.insert name tensor }
  else response

@[simp]
theorem keep_header : (response.keep name tensor).header = response.header := by
  unfold keep
  split <;> rfl

@[simp]
theorem keep_labels : (response.keep name tensor).labels = response.labels := by
  unfold keep
  split <;> rfl

@[simp]
theorem keep_wanted : (response.keep name tensor).wanted = response.wanted := by
  unfold keep
  split <;> rfl

@[simp]
theorem requires_keep (other : String) :
    (response.keep name tensor).requires other = response.requires other := by
  simp [requires]

theorem requires_iff : response.requires name = true ↔ name ∈ response.wanted.map (·.name) := by
  simp [requires]

theorem get?_keep (other : String) :
    (response.keep name tensor).outputs.get? other =
      if other = name ∧ response.requires name then some tensor
      else response.outputs.get? other := by
  unfold keep
  by_cases hrequires : response.requires name = true
  · rw [if_pos hrequires]
    by_cases hother : other = name
    · subst hother
      simp [hrequires]
    · rw [if_neg (fun h ↦ hother h.1)]
      exact OrderedMap.get?_insert_of_ne _ _ hother
  · rw [if_neg hrequires, if_neg (fun h ↦ hrequires h.2)]

/-- Whether an output has the size that its shape and the batch ask for, if it was asked for; the
first output of the name counts. -/
def Takes (response : Response) (name : String) (tensor : OutputTensor) : Prop :=
  ∀ want, response.wanted.find? (·.name = name) = some want →
    expectedBytes response.header.batch want.type tensor.shape = some tensor.data.length

/-- An output of the right size is kept if it was asked for, nothing else changes, and any other
size is refused. -/
theorem store_eq_ok_iff {stored : Response} :
    response.store name tensor.shape tensor.data = .ok stored ↔
      response.Takes name tensor ∧ stored = response.keep name tensor := by
  unfold store keep Takes
  cases hfind : response.wanted.find? (·.name = name) with
  | none =>
    have hrequires : ¬ response.requires name = true := by
      rw [requires_iff, ← Named.isSome_find?_iff, hfind]
      simp
    rw [if_neg hrequires, Outcome.ok_eq_ok_iff]
    exact ⟨fun h ↦ ⟨nofun, h⟩, And.right⟩
  | some want =>
    have hrequires : response.requires name = true := by
      rw [requires_iff, ← Named.isSome_find?_iff, hfind]
      rfl
    rw [if_pos hrequires]
    dsimp only
    cases hexpected : expectedBytes response.header.batch want.type tensor.shape with
    | none => simp [hexpected]
    | some expected =>
      by_cases hsize : tensor.data.length = expected
      · simp [-Except.ok.injEq, Outcome.ok_eq_ok_iff, hexpected, hsize]
      · simp [hexpected, hsize, Ne.symm hsize]

/-- An accepted output is kept if it was asked for, and nothing else changes. -/
theorem eq_keep_of_store {stored : Response} (h : response.store name tensor.shape tensor.data =
    .ok stored) : stored = response.keep name tensor :=
  (store_eq_ok_iff.1 h).2

/-- Whether an output has the size that its shape and the batch ask for, as whichever output of its
name it is taken. -/
def Accepts (response : Response) (name : String) (tensor : OutputTensor) : Prop :=
  ∀ want ∈ response.wanted, want.name = name →
    expectedBytes response.header.batch want.type tensor.shape = some tensor.data.length

@[simp]
theorem accepts_keep {other : String} {stored : OutputTensor} :
    (response.keep other stored).Accepts name tensor ↔ response.Accepts name tensor := by
  simp [Accepts]

theorem store_of_accepts (h : response.Accepts name tensor) :
    response.store name tensor.shape tensor.data = .ok (response.keep name tensor) := by
  refine store_eq_ok_iff.2 ⟨fun want hwant ↦ ?_, rfl⟩
  exact h want (List.mem_of_find?_eq_some hwant) (by simpa using List.find?_some hwant)

/-- A tensor that has the size of an output of the model is accepted as that output. -/
theorem accepts_of_create {version : UInt64} {labels : Labels} {described : Output}
    (hconfig : config.WellFormed) (hdistinct : (header.outputs.map (·.name)).Nodup)
    (hcreate : create header config version labels = .ok response)
    (hdescribed : described ∈ config.outputs)
    (hexpected : expectedBytes header.batch described.type tensor.shape =
      some tensor.data.length) : response.Accepts described.name tensor := by
  obtain ⟨-, hwants⟩ := wants_of_create hconfig hdistinct hcreate
  intro want hwant hname
  rw [batch_of_create hcreate, hwants.type_eq hconfig hdescribed hwant hname, hexpected]

/-- The response with outputs kept one after the other. -/
def keepAll (response : Response) (tensors : List (String × OutputTensor)) : Response :=
  tensors.foldl (fun response tensor ↦ response.keep tensor.1 tensor.2) response

variable {tensors : List (String × OutputTensor)}

@[simp]
theorem keepAll_cons {stored : String × OutputTensor} :
    response.keepAll (stored :: tensors) = (response.keep stored.1 stored.2).keepAll tensors :=
  rfl

@[simp]
theorem keepAll_header : (response.keepAll tensors).header = response.header := by
  induction tensors generalizing response with
  | nil => rfl
  | cons stored rest ih => rw [keepAll_cons, ih, keep_header]

@[simp]
theorem keepAll_labels : (response.keepAll tensors).labels = response.labels := by
  induction tensors generalizing response with
  | nil => rfl
  | cons stored rest ih => rw [keepAll_cons, ih, keep_labels]

@[simp]
theorem keepAll_wanted : (response.keepAll tensors).wanted = response.wanted := by
  induction tensors generalizing response with
  | nil => rfl
  | cons stored rest ih => rw [keepAll_cons, ih, keep_wanted]

theorem get?_keepAll_of_not {name : String}
    (h : name ∉ tensors.map (·.1) ∨ ¬ response.requires name = true) :
    (response.keepAll tensors).outputs.get? name = response.outputs.get? name := by
  induction tensors generalizing response with
  | nil => rfl
  | cons stored rest ih =>
    rw [keepAll_cons, ih, get?_keep, if_neg]
    · rintro ⟨rfl, hrequires⟩
      simp [hrequires] at h
    · rw [List.map_cons, List.mem_cons, not_or] at h
      simpa using h.imp_left And.right

/-- Of outputs with different names all that were asked for are there. -/
theorem get?_keepAll_of_mem (hdistinct : (tensors.map (·.1)).Nodup)
    (hmem : (name, tensor) ∈ tensors) (hrequires : response.requires name = true) :
    (response.keepAll tensors).outputs.get? name = some tensor := by
  induction tensors generalizing response with
  | nil => simp at hmem
  | cons stored rest ih =>
    rw [List.map_cons, List.nodup_cons] at hdistinct
    rw [keepAll_cons]
    rcases List.mem_cons.1 hmem with rfl | hmem
    · rw [get?_keepAll_of_not (.inl hdistinct.1), get?_keep, if_pos ⟨rfl, hrequires⟩]
    · exact ih hdistinct.2 hmem (by simpa using hrequires)

/-- The description of an output that is there. -/
def describeTensor (response : Response) (wanted : WantedOutput) (tensor : OutputTensor) :
    ResponseOutput :=
  match wanted.classes with
  | none => {
      name := wanted.name
      raw := some { shape := tensor.shape, byteSize := UInt64.ofNat tensor.data.length }
      classes := [] }
  | some count => {
      name := wanted.name
      raw := none
      classes := classify response.labels (max 1 response.header.batch.toNat) wanted count
        tensor.data }

theorem describeTensor_name {want : WantedOutput} :
    (response.describeTensor want tensor).name = want.name := by
  unfold describeTensor
  split <;> rfl

theorem describeTensor_raw {want : WantedOutput} :
    (response.describeTensor want tensor).raw =
      if want.classes = none then
        some { shape := tensor.shape, byteSize := UInt64.ofNat tensor.data.length }
      else none := by
  unfold describeTensor
  split <;> simp_all

theorem classes_describeTensor_of_none {want : WantedOutput} (h : want.classes = none) :
    (response.describeTensor want tensor).classes = [] := by
  unfold describeTensor
  rw [h]

theorem classes_describeTensor_of_some {want : WantedOutput} {count : UInt32}
    (h : want.classes = some count) : (response.describeTensor want tensor).classes =
      classify response.labels (max 1 response.header.batch.toNat) want count tensor.data := by
  unfold describeTensor
  rw [h]

theorem describe_eq_ok_iff {want : WantedOutput} {entry : ResponseOutput} :
    response.describe want = .ok entry ↔
      ∃ tensor, response.outputs.get? want.name = some tensor ∧
        entry = response.describeTensor want tensor := by
  unfold describe describeTensor
  dsimp only
  cases response.outputs.get? want.name with
  | none => simp
  | some tensor =>
    cases want.classes with
    | none => simp [-Except.ok.injEq, Outcome.ok_eq_ok_iff]
    | some count => simp [-Except.ok.injEq, Outcome.ok_eq_ok_iff]

theorem finalize_eq_ok_iff {final : Response} :
    response.finalize = .ok final ↔
      List.Forall₂ (fun want entry ↦ ∃ tensor, response.outputs.get? want.name = some tensor ∧
        entry = response.describeTensor want tensor) response.wanted final.header.outputs ∧
      final = { response with
        header := { response.header with outputs := final.header.outputs } } := by
  simp only [← describe_eq_ok_iff]
  rw [finalize, Outcome.bind_eq_ok_iff]
  constructor
  · rintro ⟨entries, hentries, h⟩
    obtain rfl := Except.ok.inj h
    exact ⟨Outcome.mapM_eq_ok_iff.1 hentries, rfl⟩
  · rintro ⟨hentries, hfinal⟩
    exact ⟨_, Outcome.mapM_eq_ok_iff.2 hentries, congrArg Except.ok hfinal.symm⟩

/-- A response with all outputs that were asked for can be completed. -/
theorem exists_finalize
    (h : ∀ want ∈ response.wanted, ∃ tensor, response.outputs.get? want.name = some tensor) :
    ∃ final, response.finalize = .ok final := by
  have hentries : ∀ want ∈ response.wanted, ∃ entry, ∃ tensor,
      response.outputs.get? want.name = some tensor ∧
        entry = response.describeTensor want tensor := by
    intro want hwant
    obtain ⟨tensor, htensor⟩ := h want hwant
    exact ⟨_, tensor, htensor, rfl⟩
  obtain ⟨entries, hforall⟩ := SideBySide.exists_forall₂_iff.2 hentries
  exact ⟨{ response with header := { response.header with outputs := entries } },
    finalize_eq_ok_iff.2 ⟨hforall, rfl⟩⟩

theorem output_of_get? (h : response.outputs.get? name = some tensor) :
    response.output name = .ok tensor.data := by
  simp [output, h]

theorem output_of_get?_eq_none (h : response.outputs.get? name = none) :
    ∃ status, response.output name = .error status ∧ status.code = .notFound := by
  simp [output, h, Status.notFound]

/-! ## Responses with all outputs -/

/-- How a response that was given outputs is completed. -/
structure Completes (response : Response) (tensors : List (String × OutputTensor))
    (final : Response) : Prop where
  /-- What is wanted is described by its tensor, in the order in which it is wanted. -/
  entries : List.Forall₂ (fun want entry ↦ ∃ tensor, (want.name, tensor) ∈ tensors ∧
    entry = response.describeTensor want tensor) response.wanted final.header.outputs
  data : ∀ name tensor, (name, tensor) ∈ tensors → response.requires name = true →
    final.output name = .ok tensor.data
  missing : ∀ name, ¬ response.requires name = true →
    ∃ status, final.output name = .error status ∧ status.code = .notFound

theorem Completes.names {final : Response} (h : Completes response tensors final) :
    final.header.outputs.map (·.name) = response.wanted.map (·.name) := by
  refine (SideBySide.map_eq_map h.entries fun want entry hentry ↦ ?_).symm
  obtain ⟨tensor, -, rfl⟩ := hentry
  exact describeTensor_name.symm

/-- What is wanted is described by the one tensor of its name. -/
theorem Completes.describeTensor_mem {final : Response} {want : WantedOutput}
    (h : Completes response tensors final) (hdistinct : (tensors.map (·.1)).Nodup)
    (hwant : want ∈ response.wanted) (htensor : (want.name, tensor) ∈ tensors) :
    response.describeTensor want tensor ∈ final.header.outputs := by
  obtain ⟨entry, hentry, found, hfound, rfl⟩ := SideBySide.exists_of_mem_left h.entries hwant
  obtain rfl : found = tensor := Named.snd_eq_of_mem hdistinct hfound htensor
  exact hentry

/-- An empty response that is given everything that is wanted can be completed. -/
theorem exists_completes (hempty : response.outputs = .empty)
    (hdistinct : (tensors.map (·.1)).Nodup)
    (hall : ∀ want ∈ response.wanted, want.name ∈ tensors.map (·.1)) :
    ∃ final, (response.keepAll tensors).finalize = .ok final ∧
      Completes response tensors final := by
  have hstored : ∀ name tensor, (name, tensor) ∈ tensors → response.requires name = true →
      (response.keepAll tensors).outputs.get? name = some tensor :=
    fun name tensor htensor hrequires ↦ get?_keepAll_of_mem hdistinct htensor hrequires
  have hwanted : ∀ want ∈ response.wanted, ∃ tensor, (want.name, tensor) ∈ tensors ∧
      (response.keepAll tensors).outputs.get? want.name = some tensor := by
    intro want hwant
    obtain ⟨⟨name, tensor⟩, htensor, rfl⟩ := List.mem_map.1 (hall want hwant)
    exact ⟨tensor, htensor,
      hstored _ tensor htensor (requires_iff.2 (List.mem_map_of_mem hwant))⟩
  obtain ⟨final, hfinal⟩ := @exists_finalize (response.keepAll tensors) (by
    rw [keepAll_wanted]
    exact fun want hwant ↦ (hwanted want hwant).imp fun _ ↦ And.right)
  obtain ⟨hentries, hresult⟩ := finalize_eq_ok_iff.1 hfinal
  have houtputs : final.outputs = (response.keepAll tensors).outputs := by rw [hresult]
  refine ⟨final, hfinal, ?_, ?_, ?_⟩
  · rw [keepAll_wanted] at hentries
    refine (SideBySide.mem_left hentries).imp ?_
    rintro want entry ⟨hwant, found, hfound, rfl⟩
    obtain ⟨tensor, htensor, hsame⟩ := hwanted want hwant
    obtain rfl : found = tensor := Option.some.inj (hfound.symm.trans hsame)
    exact ⟨found, htensor, by simp only [describeTensor, keepAll_labels, keepAll_header]⟩
  · intro name tensor htensor hrequires
    exact output_of_get? (houtputs ▸ hstored name tensor htensor hrequires)
  · intro name hrequires
    apply output_of_get?_eq_none
    rw [houtputs, get?_keepAll_of_not (.inr hrequires), hempty]
    rfl

/-- How a completed response answers a request with the outputs of the model. -/
structure Answers (config : Config) (header : RequestHeader)
    (tensors : List (String × OutputTensor)) (final : Response) : Prop where
  /-- The outputs that were asked for are described in the order in which they were. -/
  names : final.header.outputs.map (·.name) = askedNames config header
  /-- A description has the shape and the size of the tensor, unless classes were asked for. -/
  raw : ∀ entry ∈ final.header.outputs, ∀ tensor, (entry.name, tensor) ∈ tensors →
    entry.raw = if askedClasses header entry.name = none then
      some { shape := tensor.shape, byteSize := UInt64.ofNat tensor.data.length } else none
  data : ∀ name ∈ askedNames config header, ∀ tensor, (name, tensor) ∈ tensors →
    final.output name = .ok tensor.data
  missing : ∀ name, name ∉ askedNames config header →
    ∃ status, final.output name = .error status ∧ status.code = .notFound

theorem Wants.requires_iff (h : Wants config header response.wanted) :
    response.requires name = true ↔ name ∈ askedNames config header := by
  rw [Response.requires_iff, h.names]

theorem Wants.name_mem (hconfig : config.WellFormed) (h : Wants config header response.wanted)
    (hnames : tensors.map (·.1) = config.outputs.map (·.name)) :
    ∀ want ∈ response.wanted, want.name ∈ tensors.map (·.1) := by
  intro want hwant
  obtain ⟨described, hfind, -⟩ := h.type want hwant
  obtain ⟨hdescribed, hname⟩ := hconfig.findOutput_eq_some_iff.1 hfind
  rw [hnames, ← hname]
  exact List.mem_map_of_mem hdescribed

/-- A response that was given every output of the model can be completed. -/
theorem exists_answers {version : UInt64} {labels : Labels} (hconfig : config.WellFormed)
    (hdistinct : (header.outputs.map (·.name)).Nodup)
    (hcreate : create header config version labels = .ok response)
    (hnames : tensors.map (·.1) = config.outputs.map (·.name)) :
    ∃ final, (response.keepAll tensors).finalize = .ok final ∧
      Answers config header tensors final := by
  obtain ⟨hempty, hwants⟩ := wants_of_create hconfig hdistinct hcreate
  have htensors : (tensors.map (·.1)).Nodup := hnames ▸ hconfig.outputs_distinct
  obtain ⟨final, hfinal, hcompletes⟩ :=
    exists_completes hempty htensors (hwants.name_mem hconfig hnames)
  refine ⟨final, hfinal, ?_, ?_, ?_, ?_⟩
  · rw [hcompletes.names, hwants.names]
  · intro entry hentry tensor htensor
    obtain ⟨want, hwant, found, hfound, rfl⟩ :=
      SideBySide.exists_of_mem_right hcompletes.entries hentry
    rw [describeTensor_name] at htensor ⊢
    obtain rfl : found = tensor := Named.snd_eq_of_mem htensors hfound htensor
    rw [describeTensor_raw, hwants.classes want hwant]
  · intro name hname tensor htensor
    exact hcompletes.data name tensor htensor (hwants.requires_iff.2 hname)
  · intro name hname
    exact hcompletes.missing name fun h ↦ hname (hwants.requires_iff.1 h)

end TensorInference.Inference.Response
