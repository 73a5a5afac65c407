import TensorInference.Proofs.Inference.Completion
import TensorInference.Proofs.Model.Volume

/-!
# Operations on a response

A response can be given outputs, completed and cleared any number of times and in any order. Each
operation is accepted, refused or without effect, and whatever has happened before, the outputs that
are there were asked for, so completion depends only on whether all of them are there. They have
exactly the size of their shape if it fits into 64 bits, and otherwise what is left of it there.
Main statement: `regular_of_operations`.
-/

namespace TensorInference.Inference.Response

open Model Wire

/-- What can be done with a response. -/
inductive Operation where
  | store (name : String) (shape : Shape) (data : Bytes)
  | finalize
  | clear

/-- The response that an operation makes, if it is not refused. -/
def attempt (response : Response) : Operation → Except Status Response
  | .store name shape data => response.store name shape data
  | .finalize => response.finalize
  | .clear => .ok response.clear

/-- The response after an operation, and whether it was refused. -/
def perform (response : Response) (operation : Operation) : Checked Response :=
  match response.attempt operation with
  | .ok next => (next, .ok ())
  | .error status => (response, .error status)

/-- The response after operations one after the other, refused ones among them. -/
def performAll (response : Response) (operations : List Operation) : Response :=
  operations.foldl (fun response operation ↦ (response.perform operation).1) response

/-- What a request asks for: the names of outputs, and for some of them their best classes, as many
as the number says. -/
def askedOutputs (config : Config) (header : RequestHeader) : List (String × Option UInt32) :=
  if header.outputs = [] then config.outputs.map fun output ↦ (output.name, none)
  else header.outputs.map fun output ↦ (output.name, output.classes)

/-- Whether the exact size that an operation asks for fits into 64 bits. -/
def Operation.IsCountable (config : Config) (header : RequestHeader) : Operation → Prop
  | .store name shape _ => ∀ described, config.findOutput name = some described →
    exactBytes header.batch described.type shape < 2 ^ 64
  | .finalize | .clear => True

variable {config : Config} {header : RequestHeader} {response next : Response} {name : String}
  {tensor : OutputTensor} {operation : Operation} {operations : List Operation}

theorem map_fst_askedOutputs :
    (askedOutputs config header).map (·.1) = askedNames config header := by
  unfold askedOutputs askedNames
  split
  · rw [List.map_map]
    rfl
  · rw [List.map_map]
    rfl

theorem map_wanted {wanted : List WantedOutput} (h : wantOutputs config header = .ok wanted) :
    wanted.map (fun want ↦ (want.name, want.classes)) = askedOutputs config header := by
  unfold wantOutputs at h
  unfold askedOutputs
  split at h
  · rename_i hnone
    obtain rfl := Except.ok.inj h
    rw [if_pos hnone, List.map_map]
    rfl
  · rename_i hsome
    rw [if_neg hsome]
    refine (SideBySide.map_eq_map (Outcome.mapM_eq_ok_iff.1 h) fun output want hwant ↦ ?_).symm
    obtain ⟨_, -, -, rfl⟩ := wantOutput_eq_ok_iff.1 hwant
    rfl

/-- What is wanted under a name has the type of the model's output. -/
theorem type_of_find?_wanted {wanted : List WantedOutput} {want : WantedOutput}
    (h : wantOutputs config header = .ok wanted)
    (hwant : wanted.find? (·.name = name) = some want) :
    ∃ described, config.findOutput name = some described ∧ want.type = described.type := by
  unfold wantOutputs at h
  split at h
  · obtain rfl := Except.ok.inj h
    rw [List.find?_map] at hwant
    obtain ⟨described, hfind, rfl⟩ := Option.map_eq_some_iff.1 hwant
    exact ⟨described, hfind, rfl⟩
  · obtain ⟨output, -, houtput⟩ := SideBySide.exists_of_mem_right (Outcome.mapM_eq_ok_iff.1 h)
      (List.mem_of_find?_eq_some hwant)
    have hname : want.name = name := by simpa using List.find?_some hwant
    obtain ⟨described, hfind, -, rfl⟩ := wantOutput_eq_ok_iff.1 houtput
    exact ⟨described, hname ▸ hfind, rfl⟩

/-- How an output that was asked for is stored. -/
structure StoredAs (config : Config) (header : RequestHeader) (name : String)
    (tensor : OutputTensor) : Prop where
  asked : name ∈ askedNames config header
  shape : ∀ size ∈ tensor.shape, 0 ≤ size
  /-- The size is the exact one of the shape, the type and the batch. -/
  exact : ∃ described, config.findOutput name = some described ∧
    tensor.data.length = exactBytes header.batch described.type tensor.shape

/-- How an output that was asked for is taken: with the size of its shape as a word has it. -/
structure TakenAs (config : Config) (header : RequestHeader) (name : String)
    (tensor : OutputTensor) : Prop where
  asked : name ∈ askedNames config header
  shape : ∀ size ∈ tensor.shape, 0 ≤ size
  length : ∃ described, config.findOutput name = some described ∧
    tensor.data.length = exactBytes header.batch described.type tensor.shape % 2 ^ 64

/-- What is known of a response after operations. -/
structure UnderWay (config : Config) (header : RequestHeader) (operations : List Operation)
    (response : Response) : Prop where
  wanted : wantOutputs config header = .ok response.wanted
  batch : response.header.batch = header.batch
  stored : ∀ name tensor, response.outputs.get? name = some tensor →
    TakenAs config header name tensor ∧ .store name tensor.shape tensor.data ∈ operations

theorem UnderWay.requires_iff (h : UnderWay config header operations response) :
    response.requires name = true ↔ name ∈ askedNames config header := by
  rw [Response.requires_iff, ← map_fst_askedOutputs, ← map_wanted h.wanted, List.map_map]
  rfl

theorem UnderWay.mono {more : List Operation} (h : UnderWay config header operations response)
    (hmore : ∀ operation ∈ operations, operation ∈ more) :
    UnderWay config header more response where
  wanted := h.wanted
  batch := h.batch
  stored name tensor htensor := (h.stored name tensor htensor).imp_right (hmore _)

theorem UnderWay.takenAs (h : UnderWay config header operations response)
    (htakes : response.Takes name tensor) (hrequires : response.requires name = true) :
    TakenAs config header name tensor := by
  obtain ⟨want, hwant⟩ := Option.isSome_iff_exists.1
    (Named.isSome_find?_iff.2 (Response.requires_iff.1 hrequires))
  obtain ⟨described, hfind, htype⟩ := type_of_find?_wanted h.wanted hwant
  have hexpected := htakes want hwant
  obtain ⟨count, hcount, -⟩ := Option.map_eq_some_iff.1 hexpected
  refine ⟨h.requires_iff.1 hrequires, Shape.nonneg_of_countFrom hcount, described, hfind, ?_⟩
  rw [eq_of_expectedBytes hexpected, h.batch, htype]

theorem UnderWay.keep (h : UnderWay config header operations response)
    (htakes : response.Takes name tensor) :
    UnderWay config header (operations ++ [.store name tensor.shape tensor.data])
      (response.keep name tensor) where
  wanted := by rw [keep_wanted, h.wanted]
  batch := by rw [keep_header, h.batch]
  stored other found hfound := by
    rw [get?_keep] at hfound
    split at hfound
    · rename_i hother
      obtain ⟨rfl, hrequires⟩ := hother
      obtain rfl := Option.some.inj hfound
      exact ⟨h.takenAs htakes hrequires, List.mem_append_right _ List.mem_cons_self⟩
    · exact (h.stored other found hfound).imp_right (List.mem_append_left _)

theorem perform_of_ok (h : response.attempt operation = .ok next) :
    response.perform operation = (next, .ok ()) := by
  rw [perform, h]

theorem perform_of_error {status : Status} (h : response.attempt operation = .error status) :
    response.perform operation = (response, .error status) := by
  rw [perform, h]

/-- An operation that is refused leaves no trace. -/
theorem fst_perform_of_error {status : Status}
    (h : (response.perform operation).2 = .error status) :
    (response.perform operation).1 = response := by
  cases hattempt : response.attempt operation with
  | error _ => rw [perform_of_error hattempt]
  | ok next =>
    rw [perform_of_ok hattempt] at h
    cases h

theorem snd_perform_eq_ok_iff :
    (response.perform operation).2 = .ok () ↔ ∃ next, response.attempt operation = .ok next := by
  cases hattempt : response.attempt operation with
  | error status => simp [perform_of_error hattempt]
  | ok next => simp [perform_of_ok hattempt]

theorem UnderWay.perform (h : UnderWay config header operations response)
    (operation : Operation) :
    UnderWay config header (operations ++ [operation]) (response.perform operation).1 := by
  have hmore := h.mono fun _ ↦ List.mem_append_left [operation]
  cases hattempt : response.attempt operation with
  | error status =>
    rw [perform_of_error hattempt]
    exact hmore
  | ok next =>
    rw [perform_of_ok hattempt]
    cases operation with
    | store name shape data =>
      obtain ⟨htakes, rfl⟩ := (@store_eq_ok_iff response name ⟨shape, data⟩ next).1 hattempt
      exact h.keep htakes
    | finalize =>
      obtain ⟨-, hnext⟩ := finalize_eq_ok_iff.1 hattempt
      rw [hnext]
      exact ⟨hmore.wanted, hmore.batch, hmore.stored⟩
    | clear =>
      obtain rfl := Except.ok.inj hattempt
      exact ⟨hmore.wanted, hmore.batch, fun name tensor htensor ↦ nomatch htensor⟩

theorem UnderWay.performAll {past : List Operation} (h : UnderWay config header past response)
    (operations : List Operation) :
    UnderWay config header (past ++ operations) (response.performAll operations) := by
  induction operations generalizing past response with
  | nil =>
    rw [List.append_nil]
    exact h
  | cons operation rest ih =>
    have hrest := ih (h.perform operation)
    rwa [List.append_assoc] at hrest

theorem perform_labels (operation : Operation) :
    (response.perform operation).1.labels = response.labels := by
  cases hattempt : response.attempt operation with
  | error status => rw [perform_of_error hattempt]
  | ok next =>
    rw [perform_of_ok hattempt]
    cases operation with
    | store name shape data =>
      obtain ⟨-, rfl⟩ := (@store_eq_ok_iff response name ⟨shape, data⟩ next).1 hattempt
      exact keep_labels
    | finalize =>
      obtain ⟨-, hnext⟩ := finalize_eq_ok_iff.1 hattempt
      rw [hnext]
    | clear =>
      obtain rfl := Except.ok.inj hattempt
      rfl

theorem performAll_labels (operations : List Operation) :
    (response.performAll operations).labels = response.labels := by
  induction operations generalizing response with
  | nil => rfl
  | cons operation rest ih => exact ih.trans (perform_labels operation)

theorem underWay_of_create {version : UInt64} {labels : Labels}
    (h : create header config version labels = .ok response) :
    UnderWay config header [] response := by
  obtain ⟨wanted, hwanted, hresponse⟩ := Outcome.bind_eq_ok_iff.1 h
  obtain rfl := Except.ok.inj hresponse
  exact ⟨hwanted, rfl, fun name tensor htensor ↦ nomatch htensor⟩

/-- A completed response is completed again to the same one. -/
theorem finalize_of_finalize (h : response.finalize = .ok next) : next.finalize = .ok next := by
  obtain ⟨outputs, houtputs, hnext⟩ := Outcome.bind_eq_ok_iff.1 h
  obtain rfl := Except.ok.inj hnext
  exact Outcome.bind_eq_ok_iff.2 ⟨outputs, houtputs, rfl⟩

theorem UnderWay.exists_finalize_iff (h : UnderWay config header operations response) :
    (∃ final, response.finalize = .ok final) ↔
      ∀ name ∈ askedNames config header, ∃ tensor, response.outputs.get? name = some tensor := by
  constructor
  · rintro ⟨final, hfinal⟩ name hname
    obtain ⟨hentries, -⟩ := finalize_eq_ok_iff.1 hfinal
    obtain ⟨want, hwant, rfl⟩ :=
      List.mem_map.1 (Response.requires_iff.1 (h.requires_iff.2 hname))
    obtain ⟨entry, -, tensor, htensor, -⟩ := SideBySide.exists_of_mem_left hentries hwant
    exact ⟨tensor, htensor⟩
  · intro hall
    refine exists_finalize fun want hwant ↦ hall want.name ?_
    exact h.requires_iff.1 (Response.requires_iff.2 (List.mem_map_of_mem hwant))

/-- How a completed response describes an output that was asked for: by what is stored, unless
classes were asked for. -/
structure Describes (response : Response) (want : String × Option UInt32)
    (entry : ResponseOutput) : Prop where
  name : entry.name = want.1
  raw : ∃ tensor, response.outputs.get? want.1 = some tensor ∧
    match want.2 with
    | none => ∃ raw, entry.raw = some raw ∧ raw.shape = tensor.shape ∧
      raw.byteSize.toNat = tensor.data.length
    | some _ => entry.raw = none

/-- If the sizes of all operations fit into 64 bits, those of what is stored are exact. -/
theorem UnderWay.storedAs (h : UnderWay config header operations response)
    (hcount : ∀ operation ∈ operations, operation.IsCountable config header)
    (htensor : response.outputs.get? name = some tensor) : StoredAs config header name tensor := by
  obtain ⟨htaken, hgiven⟩ := h.stored name tensor htensor
  obtain ⟨described, hfind, hlength⟩ := htaken.length
  have hfits := hcount _ hgiven described hfind
  exact ⟨htaken.asked, htaken.shape, described, hfind, hlength.trans (Nat.mod_eq_of_lt hfits)⟩

theorem UnderWay.length_lt (h : UnderWay config header operations response)
    (htensor : response.outputs.get? name = some tensor) : tensor.data.length < 2 ^ 64 := by
  obtain ⟨_, -, hlength⟩ := (h.stored name tensor htensor).1.length
  rw [hlength]
  exact Nat.mod_lt _ (by decide)

theorem UnderWay.describes (h : UnderWay config header operations response) {final : Response}
    (hfinal : response.finalize = .ok final) :
    List.Forall₂ (Describes response) (askedOutputs config header) final.header.outputs := by
  obtain ⟨hentries, -⟩ := finalize_eq_ok_iff.1 hfinal
  rw [← map_wanted h.wanted, List.forall₂_map_left_iff]
  refine hentries.imp ?_
  rintro want entry ⟨tensor, htensor, rfl⟩
  refine ⟨describeTensor_name, tensor, htensor, ?_⟩
  rw [describeTensor_raw]
  cases want.classes with
  | some count => rfl
  | none =>
    exact ⟨_, rfl, rfl, UInt64.toNat_ofNat_of_lt' (h.length_lt htensor)⟩

/-- What holds of a response at any time. -/
structure Regular (config : Config) (header : RequestHeader) (response : Response) : Prop where
  /-- Only what was asked for is stored, with exactly the bytes of its shape. -/
  stored : ∀ name tensor, response.outputs.get? name = some tensor →
    StoredAs config header name tensor
  /-- A refused operation changes nothing. -/
  refused : ∀ operation status, (response.perform operation).2 = .error status →
    (response.perform operation).1 = response
  /-- What was not asked for is accepted and changes nothing. -/
  ignored : ∀ name shape data, name ∉ askedNames config header →
    response.perform (.store name shape data) = (response, .ok ())
  /-- A response can be completed exactly if everything that was asked for is stored. -/
  complete : (response.perform .finalize).2 = .ok () ↔
    ∀ name ∈ askedNames config header, ∃ tensor, response.outputs.get? name = some tensor
  /-- The header of a completed response describes what was asked for, in its order. -/
  described : (response.perform .finalize).2 = .ok () →
    List.Forall₂ (Describes response) (askedOutputs config header)
      (response.perform .finalize).1.header.outputs
  /-- Completion, successful or not, makes no difference the second time. -/
  again : (response.perform .finalize).1.perform .finalize = response.perform .finalize
  cleared : (∀ name, (response.perform .clear).1.outputs.get? name = none) ∧
    (response.perform .clear).1.header.outputs = []

theorem UnderWay.regular (h : UnderWay config header operations response)
    (hcount : ∀ operation ∈ operations, operation.IsCountable config header) :
    Regular config header response where
  stored name tensor htensor := h.storedAs hcount htensor
  refused operation status := fst_perform_of_error
  ignored name shape data hname := by
    have hrequires : ¬ response.requires name = true := mt h.requires_iff.1 hname
    have hnone : response.wanted.find? (·.name = name) = none := by
      rw [← Option.not_isSome_iff_eq_none, Named.isSome_find?_iff, ← Response.requires_iff]
      exact hrequires
    have htakes : response.Takes name ⟨shape, data⟩ := fun want hwant ↦ by
      rw [hnone] at hwant
      cases hwant
    have hkeep : response.keep name ⟨shape, data⟩ = response := if_neg hrequires
    exact perform_of_ok (store_eq_ok_iff.2 ⟨htakes, hkeep.symm⟩)
  complete := by
    rw [snd_perform_eq_ok_iff, ← h.exists_finalize_iff]
    rfl
  described hok := by
    obtain ⟨final, hfinal⟩ := snd_perform_eq_ok_iff.1 hok
    rw [perform_of_ok hfinal]
    exact h.describes hfinal
  again := by
    cases hfinal : response.attempt .finalize with
    | error status =>
      rw [perform_of_error hfinal]
      exact perform_of_error hfinal
    | ok final =>
      rw [perform_of_ok hfinal]
      exact perform_of_ok (finalize_of_finalize hfinal)
  cleared := ⟨fun _ ↦ rfl, rfl⟩

/-- Whatever operations a created response went through, accepted or refused, it is regular. -/
theorem regular_of_operations {version : UInt64} {labels : Labels} {fresh : Response}
    (hcreate : create header config version labels = .ok fresh) (operations : List Operation)
    (hcount : ∀ operation ∈ operations, operation.IsCountable config header) :
    Regular config header (fresh.performAll operations) := by
  have hunderWay := (underWay_of_create hcreate).performAll operations
  exact hunderWay.regular hcount

/-! ## A response that is given what it lacks -/

/-- A model with three scores and three marks. -/
def marking : Config where
  name := "marking"
  platform := "custom"
  maxBatch := 4
  inputs := []
  outputs := [{ name := "scores", type := .fp32, shape := [3], labelFile := none },
    { name := "marks", type := .bool, shape := [3], labelFile := none }]
  policy := .all
  instances := 1

/-- A request for the marks of two items and nothing else. -/
def marksOnly : RequestHeader where
  id := 0
  batch := 2
  inputs := []
  outputs := [{ name := "marks", classes := none }]

/-- The response to the request, with the outputs that are there and their descriptions. -/
def marked (outputs : OrderedMap String OutputTensor) (described : List ResponseOutput) :
    Response where
  header := { id := 0, model := "marking", version := 1, batch := 2, outputs := described }
  wanted := [{ name := "marks", type := .bool, classes := none }]
  outputs
  labels := .empty

/-- Marks of one item, scores that nobody asked for, completion, and then the marks of both. -/
def lateMarks : List Operation :=
  [.store "marks" [3] [1, 0, 1], .store "scores" [3] [], .finalize,
    .store "marks" [3] [1, 0, 1, 0, 0, 1]]

/-- Only the marks of both items are stored, and the response can be completed. -/
theorem regular_of_operations_lateMarks :
    create marksOnly marking 1 .empty = .ok (marked .empty []) ∧
      (∀ operation ∈ lateMarks, operation.IsCountable marking marksOnly) ∧
      Regular marking marksOnly ((marked .empty []).performAll lateMarks) ∧
      (((marked .empty []).performAll lateMarks).perform .finalize).2 = .ok () := by
  have hcreate : create marksOnly marking 1 .empty = .ok (marked .empty []) := rfl
  have hcount : ∀ operation ∈ lateMarks, operation.IsCountable marking marksOnly := by
    have hmarks : exactBytes 2 .bool [3] < 2 ^ 64 := by decide
    have hscores : exactBytes 2 .fp32 [3] < 2 ^ 64 := by decide
    simp only [lateMarks, List.forall_mem_cons, Operation.IsCountable]
    refine ⟨?_, ?_, trivial, ?_, List.forall_mem_nil _⟩ <;> rintro _ ⟨⟩
    · exact hmarks
    · exact hscores
    · exact hmarks
  have hregular := regular_of_operations hcreate lateMarks hcount
  refine ⟨hcreate, hcount, hregular, hregular.complete.2 ?_⟩
  exact List.forall_mem_singleton.2 ⟨⟨[3], [1, 0, 1, 0, 0, 1]⟩, rfl⟩

end TensorInference.Inference.Response
