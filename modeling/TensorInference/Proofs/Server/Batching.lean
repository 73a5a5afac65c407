import TensorInference.Proofs.Inference.Items
import TensorInference.Proofs.Server.Standard

/-!
# Batches are served item by item

Serving a batch is serving its items: a batch is accepted only if each of its items is, it fails
exactly if some item does, and its outputs, tensors and classes alike, are those of the items one
after the other. Formulas work block by block, so what a kernel computes for a batch splits into
what it computes for the items; a response describes the parts as it describes the whole.
-/

namespace TensorInference

open Model Inference Wire

namespace Inference

/-- Whether the tensors of the items of a batch make up a tensor: they have its shape, fill it, and
have its bytes together. -/
structure Splits (type : ElementType) (items : List OutputTensor) (whole : OutputTensor) :
    Prop where
  volume_pos : 0 < whole.shape.volume
  shape : ∀ item ∈ items, item.shape = whole.shape
  length : ∀ item ∈ items, item.data.length = whole.shape.volume * type.width
  data : whole.data = (items.map (·.data)).flatten

/-- How the description of an output of a batch is made up of those of its items. -/
structure JoinsEntry (items : List ResponseOutput) (whole : ResponseOutput) : Prop where
  name : ∀ item ∈ items, item.name = whole.name
  shape : ∀ item ∈ items, item.raw.map (·.shape) = whole.raw.map (·.shape)
  classes : whole.classes = (items.map (·.classes)).flatten
  /-- Where classes were asked for, every item has one entry. -/
  single : whole.raw = none → ∀ item ∈ items, item.classes.length = 1

/-- How the response to a batch is made up of the responses to its items. -/
structure Joins (items : List Response) (whole : Response) : Prop where
  names : ∀ item ∈ items,
    item.header.outputs.map (·.name) = whole.header.outputs.map (·.name)
  entries : ∀ entry ∈ whole.header.outputs, ∃ entries,
    List.Forall₂ (fun item single ↦ single ∈ item.header.outputs) items entries ∧
      JoinsEntry entries entry
  data : ∀ name bytes, whole.output name = .ok bytes → ∃ pieces,
    List.Forall₂ (fun item piece ↦ item.output name = .ok piece) items pieces ∧
      bytes = pieces.flatten
  missing : ∀ name status, whole.output name = .error status →
    ∀ item ∈ items, ∃ status, item.output name = .error status ∧ status.code = .notFound

namespace Response

variable {opening : Nat → Response} {response : Response} {batch : Nat} {want : WantedOutput}
  {tensor : Nat → OutputTensor} {whole : OutputTensor}

/-- The descriptions of the items make up that of the batch. -/
theorem joinsEntry_describeTensor (hbatch : 0 < batch)
    (hresponse : response.header.batch.toNat = batch)
    (hopening : ∀ k, (opening k).header.batch = 1 ∧ (opening k).labels = response.labels)
    (hsplits : Splits want.type ((List.range batch).map tensor) whole) :
    JoinsEntry ((List.range batch).map fun k ↦ (opening k).describeTensor want (tensor k))
      (response.describeTensor want whole) := by
  have hshape := hsplits.shape
  have hlength := hsplits.length
  rw [List.forall_mem_map] at hshape hlength
  have hone : ∀ k ∈ List.range batch, ∀ count, want.classes = some count →
      ((opening k).describeTensor want (tensor k)).classes =
        [itemClasses response.labels want count (tensor k).data] := by
    intro k hk count hcount
    rw [classes_describeTensor_of_some hcount, (hopening k).1, (hopening k).2]
    exact classify_one hsplits.volume_pos (hlength k hk)
  refine ⟨?_, ?_, ?_, ?_⟩
  · rw [List.forall_mem_map]
    intro k _
    rw [describeTensor_name, describeTensor_name]
  · rw [List.forall_mem_map]
    intro k hk
    rw [describeTensor_raw, describeTensor_raw, hshape k hk]
    split <;> rfl
  · rw [List.map_map]
    cases hclasses : want.classes with
    | none =>
      rw [classes_describeTensor_of_none hclasses, eq_comm, List.flatten_eq_nil_iff,
        List.forall_mem_map]
      exact fun k _ ↦ classes_describeTensor_of_none hclasses
    | some count =>
      have hitems : (((List.range batch).map tensor).map (·.data)).length = batch := by
        rw [List.length_map, List.length_map, List.length_range]
      have hwhole := @classify_flatten response.labels want count _ _ hsplits.volume_pos
        (List.ne_nil_of_length_pos (Nat.lt_of_lt_of_eq hbatch hitems.symm))
        (List.forall_mem_map.2 hsplits.length)
      calc (response.describeTensor want whole).classes
        _ = (((List.range batch).map tensor).map (·.data)).map
              (itemClasses response.labels want count) := by
            rw [classes_describeTensor_of_some hclasses, hresponse, Nat.max_eq_right hbatch,
              hsplits.data, ← hwhole, hitems]
        _ = ((List.range batch).map fun k ↦
              [itemClasses response.labels want count (tensor k).data]).flatten := by
            rw [List.map_map, List.map_map, ← List.flatMap_def]
            exact List.map_eq_flatMap
        _ = _ := congrArg List.flatten
            (List.map_congr_left fun k hk ↦ (hone k hk count hclasses).symm)
  · rw [List.forall_mem_map]
    intro hraw k hk
    rw [describeTensor_raw] at hraw
    cases hclasses : want.classes with
    | none => simp [hclasses] at hraw
    | some count =>
      rw [hone k hk count hclasses]
      rfl

/-- Responses that were given the results of the items make up the response that was given the
results of the batch. -/
theorem Completes.joins {part : Nat → Response} {final : Response}
    {results : List (String × OutputTensor)} {items : Nat → List (String × OutputTensor)}
    (hbatch : 0 < batch) (hresponse : response.header.batch.toNat = batch)
    (hopening : ∀ k, (opening k).header.batch = 1 ∧ (opening k).labels = response.labels)
    (hwanted : ∀ k, (opening k).wanted = response.wanted)
    (hwhole : Completes response results final)
    (hparts : ∀ k, Completes (opening k) (items k) (part k))
    (hdistinct : (results.map (·.1)).Nodup) (hitems : ∀ k, ((items k).map (·.1)).Nodup)
    (hsplits : ∀ want ∈ response.wanted, ∃ whole tensor, (want.name, whole) ∈ results ∧
      (∀ k, (want.name, tensor k) ∈ items k) ∧
      Splits want.type ((List.range batch).map tensor) whole) :
    Joins ((List.range batch).map part) final := by
  have hrequires : ∀ k name, (opening k).requires name = response.requires name := by
    intro k name
    rw [requires, requires, hwanted]
  have hrequired : ∀ name, response.requires name = true →
      ∃ (whole : OutputTensor) (tensor : Nat → OutputTensor),
        final.output name = .ok whole.data ∧ (∀ k, (part k).output name = .ok (tensor k).data) ∧
        whole.data = ((List.range batch).map fun k ↦ (tensor k).data).flatten := by
    intro name hname
    obtain ⟨want, hwant, rfl⟩ := List.mem_map.1 (requires_iff.1 hname)
    obtain ⟨whole, tensor, hmem, htensor, hsplit⟩ := hsplits want hwant
    have hdata := hsplit.data
    rw [List.map_map] at hdata
    exact ⟨whole, tensor, hwhole.data _ whole hmem hname,
      fun k ↦ (hparts k).data _ (tensor k) (htensor k) ((hrequires k _).trans hname), hdata⟩
  refine ⟨?_, ?_, ?_, ?_⟩
  · rw [List.forall_mem_map]
    intro k _
    rw [(hparts k).names, hwhole.names, hwanted]
  · intro entry hentry
    obtain ⟨want, hwant, found, hfound, rfl⟩ :=
      SideBySide.exists_of_mem_right hwhole.entries hentry
    obtain ⟨whole, tensor, hmem, htensor, hsplit⟩ := hsplits want hwant
    obtain rfl : found = whole := Named.snd_eq_of_mem hdistinct hfound hmem
    refine ⟨_, ?_, joinsEntry_describeTensor hbatch hresponse hopening hsplit⟩
    rw [List.forall₂_map_left_iff, List.forall₂_map_right_iff, List.forall₂_same]
    intro k _
    exact (hparts k).describeTensor_mem (hitems k) ((hwanted k).symm ▸ hwant) (htensor k)
  · intro name bytes hok
    by_cases hname : response.requires name = true
    · obtain ⟨whole, tensor, hdata, hpieces, hflatten⟩ := hrequired name hname
      obtain rfl := Except.ok.inj (hok.symm.trans hdata)
      refine ⟨_, ?_, hflatten⟩
      rw [List.forall₂_map_left_iff, List.forall₂_map_right_iff, List.forall₂_same]
      exact fun k _ ↦ hpieces k
    · obtain ⟨status, herror, -⟩ := hwhole.missing name hname
      cases hok.symm.trans herror
  · intro name status herror
    have hname : ¬ response.requires name = true := by
      intro hname
      obtain ⟨whole, -, hdata, -⟩ := hrequired name hname
      cases hdata.symm.trans herror
    rw [List.forall_mem_map]
    intro k _
    exact (hparts k).missing name ((hrequires k name).symm ▸ hname)

end Response

end Inference

namespace Platform

variable {config : Config} {submission : Submission} {kernel : Kernel} {executor : Executor}

/-- What a formula computes for a batch splits into what it computes for the items. -/
theorem Formula.Fits.splits {formula : Formula} (hfits : formula.Fits config)
    (hconfig : config.WellFormed)
    (h : Acceptable config submission.header submission.data)
    (hshape : (submission.tensor formula.left).shape = (submission.tensor formula.right).shape) :
    Splits formula.output.type
      ((List.range submission.header.batch.toNat).map fun k ↦
        formula.apply (submission.item k).tensor)
      (formula.apply submission.tensor) := by
  have hleft := fills_of_acceptable hconfig h hfits.left
  have hright := fills_of_acceptable hconfig h hfits.right
  have hx : (submission.tensor formula.left).data.length = submission.header.batch.toNat *
      ((submission.tensor formula.left).shape.volume * formula.output.type.width) := by
    rw [hleft.length, exactBytes, hfits.left_type, Nat.mul_assoc]
  have hy : (submission.tensor formula.right).data.length = submission.header.batch.toNat *
      ((submission.tensor formula.left).shape.volume * formula.output.type.width) := by
    rw [hright.length, exactBytes, hfits.right_type, Nat.mul_assoc, hshape]
  have happly : ∀ k, formula.apply (submission.item k).tensor = {
      shape := (submission.tensor formula.left).shape
      data := formula.combine
        (Tensor.block ((submission.tensor formula.left).shape.volume * formula.output.type.width)
          (submission.tensor formula.left).data k)
        (Tensor.block ((submission.tensor formula.left).shape.volume * formula.output.type.width)
          (submission.tensor formula.right).data k) } := by
    intro k
    rw [Formula.apply, tensor_item h.batch_pos hleft, tensor_item h.batch_pos hright, ← hshape,
      hfits.left_type, hfits.right_type]
  refine ⟨hleft.volume_pos, ?_, ?_, ?_⟩
  · rw [List.forall_mem_map]
    intro k _
    rw [happly]
    rfl
  · rw [List.forall_mem_map]
    intro k hk
    rw [happly]
    exact hfits.blockwise.length (Tensor.length_block hx (List.mem_range.1 hk))
      (Tensor.length_block hy (List.mem_range.1 hk))
  · rw [Formula.apply, hfits.blockwise.combine_eq_flatMap hx hy, List.flatMap_def, List.map_map]
    simp only [Function.comp_def, happly]

/-- Shapes agree in a batch as they do in each of its items. -/
theorem Kernel.agrees_item_iff {k : Nat} :
    kernel.Agrees (submission.item k).tensor ↔ kernel.Agrees submission.tensor := by
  refine forall₂_congr fun formula _ ↦ ?_
  simp only [Submission.tensor, shapeOf_item]

/-- Everything that is wanted splits. -/
theorem Kernel.Computes.exists_splits (h : kernel.Computes config executor)
    (hconfig : config.WellFormed)
    (hacceptable : Acceptable config submission.header submission.data)
    (hagrees : kernel.Agrees submission.tensor) {wanted : List WantedOutput}
    (hwanted : Response.wantOutputs config submission.header = .ok wanted) :
    ∀ want ∈ wanted, ∃ whole tensor, (want.name, whole) ∈ kernel.results submission.tensor ∧
      (∀ k, (want.name, tensor k) ∈ kernel.results (submission.item k).tensor) ∧
      Splits want.type ((List.range submission.header.batch.toNat).map tensor) whole := by
  intro want hwant
  have hwants := Response.wants_of_wantOutputs hconfig hacceptable.outputs_distinct hwanted
  obtain ⟨formula, hformula, hname, htype⟩ := h.exists_formula hconfig hwants hwant
  rw [← hname, ← htype]
  refine ⟨_, _, Kernel.mem_results hformula, fun k ↦ Kernel.mem_results hformula, ?_⟩
  exact (h.fits formula hformula).splits hconfig hacceptable (hagrees formula hformula)

end Platform

namespace Server

variable {backend : Backend} {submission : Submission} {kernel : Platform.Kernel}
  {wanted : List WantedOutput} {status : Except Status Unit} {whole : Response}

/-- What becomes of one item of a batch. -/
def Backend.itemAnswer (backend : Backend) (kernel : Platform.Kernel) (submission : Submission)
    (wanted : List WantedOutput) (k : Nat) : Except Status Unit × Response :=
  conclude kernel (submission.item k).tensor (backend.opening (submission.item k).header wanted)

theorem Backend.Standard.answer_item (hbackend : backend.Standard)
    (hkernel : kernel.Computes backend.config backend.executor)
    (hacceptable : Acceptable backend.config submission.header submission.data)
    (hwanted : Response.wantOutputs backend.config submission.header = .ok wanted) {k : Nat}
    (hk : k < submission.header.batch.toNat) :
    backend.answer (submission.item k) =
      .ok (backend.itemAnswer kernel submission wanted k) :=
  (hbackend.answer_eq_ok_iff hkernel).2 ⟨hacceptable.item hk, wanted, hwanted, rfl⟩

/-- Where the shapes of a batch agree, the responses to its items make up its response. -/
theorem Backend.Standard.joins_of_agrees (hbackend : backend.Standard)
    (hkernel : kernel.Computes backend.config backend.executor)
    (hacceptable : Acceptable backend.config submission.header submission.data)
    (hwanted : Response.wantOutputs backend.config submission.header = .ok wanted)
    (hagrees : kernel.Agrees submission.tensor) :
    ∃ final part, conclude kernel submission.tensor (backend.opening submission.header wanted) =
        (.ok (), final) ∧
      (∀ k, backend.itemAnswer kernel submission wanted k = (.ok (), part k)) ∧
      Joins ((List.range submission.header.batch.toNat).map part) final := by
  have hconfig := hbackend.wellFormed
  have hnames : ∀ tensor, ((kernel.results tensor).map (·.1)).Nodup := fun tensor ↦
    hkernel.names ▸ hconfig.outputs_distinct
  obtain ⟨final, hfinal, hcompletes⟩ :=
    hbackend.conclude_of_agrees hkernel hacceptable.outputs_distinct hwanted hagrees
  have hparts : ∀ k, ∃ part, backend.itemAnswer kernel submission wanted k = (.ok (), part) ∧
      Response.Completes (backend.opening (submission.item k).header wanted)
        (kernel.results (submission.item k).tensor) part :=
    fun k ↦ hbackend.conclude_of_agrees hkernel hacceptable.outputs_distinct hwanted
      (Platform.Kernel.agrees_item_iff.2 hagrees)
  choose part hpart hpartCompletes using hparts
  have hopening : ∀ k, (backend.opening (submission.item k).header wanted).header.batch = 1 ∧
      (backend.opening (submission.item k).header wanted).labels = backend.labels :=
    fun _ ↦ ⟨rfl, rfl⟩
  have hsame : ∀ k, (backend.opening (submission.item k).header wanted).wanted = wanted :=
    fun _ ↦ rfl
  exact ⟨final, part, hfinal, hpart, hcompletes.joins hacceptable.batch_pos rfl hopening hsame
    hpartCompletes (hnames _) (fun _ ↦ hnames _)
    (hkernel.exists_splits hconfig hacceptable hagrees hwanted)⟩

/-- The items of a batch that is accepted are accepted, the batch succeeds exactly if all of them
do, and then its response is made up of theirs. -/
theorem joins_of_answer (hbackend : backend.Standard)
    (hanswer : backend.answer submission = .ok (status, whole)) :
    ∃ answers, List.Forall₂ (fun item answer ↦ backend.answer item = .ok answer)
        submission.items answers ∧
      (status = .ok () ↔ ∀ answer ∈ answers, answer.1 = .ok ()) ∧
      (status = .ok () → Joins (answers.map (·.2)) whole) := by
  obtain ⟨kernel, hkernel⟩ := hbackend.exists_kernel
  obtain ⟨hacceptable, wanted, hwanted, hresult⟩ := (hbackend.answer_eq_ok_iff hkernel).1 hanswer
  refine ⟨(List.range submission.header.batch.toNat).map
    (backend.itemAnswer kernel submission wanted), ?_, ?_⟩
  · rw [Submission.items, List.forall₂_map_left_iff, List.forall₂_map_right_iff, List.forall₂_same]
    intro k hk
    exact hbackend.answer_item hkernel hacceptable hwanted (List.mem_range.1 hk)
  rw [List.forall_mem_map, List.map_map]
  by_cases hagrees : kernel.Agrees submission.tensor
  · obtain ⟨final, part, hfinal, hpart, hjoins⟩ :=
      hbackend.joins_of_agrees hkernel hacceptable hwanted hagrees
    obtain ⟨rfl, rfl⟩ := Prod.mk.inj (hresult.trans hfinal)
    have hsnd : (·.2) ∘ backend.itemAnswer kernel submission wanted = part := by
      funext k
      rw [Function.comp_apply, hpart]
    rw [hsnd]
    exact ⟨⟨fun _ k _ ↦ by rw [hpart], fun _ ↦ rfl⟩, fun _ ↦ hjoins⟩
  · rw [Backend.conclude_of_not_agrees hagrees] at hresult
    obtain ⟨rfl, rfl⟩ := Prod.mk.inj hresult
    refine ⟨⟨fun hok ↦ (nomatch hok), fun hall ↦ ?_⟩, fun hok ↦ (nomatch hok)⟩
    -- A batch has a first item, and it is refused like the batch.
    have hfirst := hall 0 (List.mem_range.2 hacceptable.batch_pos)
    rw [Backend.itemAnswer, Backend.conclude_of_not_agrees fun h ↦
      hagrees (Platform.Kernel.agrees_item_iff.1 h)] at hfirst
    cases hfirst

/-- Two items of one element each, in pieces that do not end where an item does. -/
def echoPair : Submission where
  model := "echo"
  selector := Submission.latest
  header := Platform.Identity.echoHeader
  data := .ofPieces [("in", [1]), ("in", [2, 3, 4])]

theorem joins_of_answer_echoPair :
    ∃ first second whole, echoBackend.answer (echoPair.item 0) = .ok (.ok (), first) ∧
      echoBackend.answer (echoPair.item 1) = .ok (.ok (), second) ∧
      echoBackend.answer echoPair = .ok (.ok (), whole) ∧ Joins [first, second] whole ∧
      first.output "out" = .ok [1, 2] ∧ second.output "out" = .ok [3, 4] := by
  obtain ⟨whole, hwhole⟩ : ∃ whole, echoBackend.answer echoPair = .ok (.ok (), whole) := ⟨_, rfl⟩
  obtain ⟨answers, hanswers, -, hjoins⟩ := joins_of_answer standard_echoBackend hwhole
  have hitems : echoPair.items = [echoPair.item 0, echoPair.item 1] := rfl
  obtain ⟨first, hfirst⟩ : ∃ first, echoBackend.answer (echoPair.item 0) = .ok (.ok (), first) ∧
      first.output "out" = .ok [1, 2] := ⟨_, rfl, rfl⟩
  obtain ⟨second, hsecond⟩ : ∃ second, echoBackend.answer (echoPair.item 1) =
      .ok (.ok (), second) ∧ second.output "out" = .ok [3, 4] := ⟨_, rfl, rfl⟩
  rw [hitems, List.forall₂_cons_left_iff] at hanswers
  obtain ⟨answer, rest, hanswer, hrest, rfl⟩ := hanswers
  obtain ⟨other, none, hother, hnone, rfl⟩ := List.forall₂_cons_left_iff.1 hrest
  obtain rfl := List.forall₂_nil_left_iff.1 hnone
  obtain rfl := Except.ok.inj (hfirst.1.symm.trans hanswer)
  obtain rfl := Except.ok.inj (hsecond.1.symm.trans hother)
  exact ⟨first, second, whole, hfirst.1, hsecond.1, hwhole, hjoins rfl, hfirst.2, hsecond.2⟩

end Server

end TensorInference
