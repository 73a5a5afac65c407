import TensorInference.Proofs.Inference.NormalForm
import TensorInference.Proofs.Server.Standard

/-!
# One request in other words

A submission can be worded differently without asking for anything else: its data can be cut into
other pieces, its inputs can be listed in another order, and its header can be written out in normal
form. A backend accepts all wordings or none, and answers all of them alike. The first two leave the
given tensors as they are; the normal form of a header is its own normal form.
-/

namespace TensorInference

open Model Inference Wire

namespace Inference

variable {config : Config} {header : RequestHeader} {data : InputData}
  {submission : Submission}

/-- Other wordings of a submission to a model. -/
inductive Rewording (config : Config) (submission : Submission) : Submission → Prop
  /-- The data of each input in other pieces, of any number and sizes. -/
  | pieces (data : InputData)
      (h : ∀ name,
        (data.get? name).map List.flatten = (submission.data.get? name).map List.flatten) :
      Rewording config submission { submission with data }
  /-- The inputs in another order. -/
  | order (inputs : List RequestInput) (h : inputs.Perm submission.header.inputs) :
      Rewording config submission { submission with header := { submission.header with inputs } }
  /-- The header in normal form. -/
  | normal (header : RequestHeader) (h : normalized config submission.header = .ok header) :
      Rewording config submission { submission with header }

/-- Whether a submission can stand for another one: it is accepted where that one is, its header
differs in the inputs only, and it gives the same tensors. -/
structure StandsFor (config : Config) (submission other : Submission) : Prop where
  acceptable : Acceptable config submission.header submission.data →
    Acceptable config other.header other.data
  header : other.header = { submission.header with inputs := other.header.inputs }
  tensor : Acceptable config submission.header submission.data →
    ∀ described ∈ config.inputs, other.tensor described = submission.tensor described

section

variable {other : InputData}
  (hpieces : ∀ name, (other.get? name).map List.flatten = (data.get? name).map List.flatten)

include hpieces

theorem joined_of_pieces (name : String) : other.joined name = data.joined name := by
  have hjoined : ∀ data : InputData,
      data.joined name = ((data.get? name).map List.flatten).getD [] := by
    intro data
    rw [InputData.joined]
    cases data.get? name with
    | none => rfl
    | some pieces => rfl
  rw [hjoined, hjoined, hpieces]

theorem Acceptable.of_pieces (h : Acceptable config header data) :
    Acceptable config header other := by
  refine { h with provides := fun given hgiven described hdescribed hname ↦ ?_, keys := ?_ }
  · have hprovides := h.provides given hgiven described hdescribed hname
    obtain ⟨pieces, hget, hsum⟩ := hprovides.data
    have hother := hpieces given.name
    rw [hget, Option.map_some, Option.map_eq_some_iff] at hother
    obtain ⟨more, hmore, hflatten⟩ := hother
    refine ⟨hprovides.shape, hprovides.bounded, hprovides.size, more, hmore, ?_⟩
    rw [← List.length_flatten, hflatten, List.length_flatten, hsum]
  · intro name hname
    apply h.keys
    have hother := congrArg Option.isSome (hpieces name)
    rw [Option.isSome_map, Option.isSome_map] at hother
    rw [OrderedMap.mem_keys_iff, ← hother]
    exact OrderedMap.mem_keys_iff.1 hname

end

theorem standsFor_of_pieces (hpieces : ∀ name,
    (data.get? name).map List.flatten = (submission.data.get? name).map List.flatten) :
    StandsFor config submission { submission with data } where
  acceptable := Acceptable.of_pieces hpieces
  header := rfl
  tensor _ described _ := by
    rw [Submission.tensor, Submission.tensor, joined_of_pieces hpieces]

theorem Acceptable.of_perm {inputs : List RequestInput} (hperm : inputs.Perm header.inputs)
    (h : Acceptable config header data) : Acceptable config { header with inputs } data where
  batch_pos := h.batch_pos
  batch_le := h.batch_le
  inputs := (hperm.map (·.name)).trans h.inputs
  provides given hgiven := h.provides given (hperm.mem_iff.1 hgiven)
  keys name hname := (hperm.map (·.name)).mem_iff.2 (h.keys name hname)
  outputs_distinct := h.outputs_distinct
  outputs_known := h.outputs_known
  classes := h.classes

theorem standsFor_of_perm (hconfig : config.WellFormed) {inputs : List RequestInput}
    (hperm : inputs.Perm submission.header.inputs) :
    StandsFor config submission
      { submission with header := { submission.header with inputs } } where
  acceptable := Acceptable.of_perm hperm
  header := rfl
  tensor hacceptable described _ := by
    have hdistinct : (submission.header.inputs.map (·.name)).Nodup :=
      hacceptable.inputs.nodup_iff.2 hconfig.inputs_distinct
    have hfind : RequestHeader.findInput { submission.header with inputs } described.name =
        submission.header.findInput described.name :=
      Named.find?_perm hdistinct hperm described.name
    rw [Submission.tensor, Submission.tensor, shapeOf, shapeOf, hfind]

end Inference

namespace Server

variable {backend : Backend} {submission other : Submission}

theorem Backend.Standard.answer_of_standsFor (hbackend : backend.Standard)
    (h : StandsFor backend.config submission other) {result : Except Status Unit × Response}
    (hanswer : backend.answer submission = .ok result) : backend.answer other = .ok result := by
  obtain ⟨kernel, hkernel⟩ := hbackend.exists_kernel
  obtain ⟨haccepted, wanted, hwanted, rfl⟩ := (hbackend.answer_eq_ok_iff hkernel).1 hanswer
  refine (hbackend.answer_eq_ok_iff hkernel).2 ⟨h.acceptable haccepted, wanted, ?_, ?_⟩
  · rw [h.header]
    exact hwanted
  · rw [conclude, conclude, hkernel.run_congr (h.tensor haccepted), h.header]
    rfl

/-- Whether two submissions are accepted both or none, and answered alike: with the same status,
header and outputs. -/
structure Backend.Alike (backend : Backend) (submission other : Submission) : Prop where
  accepted : (∃ prepared, backend.prepare other = .ok prepared) ↔
    ∃ prepared, backend.prepare submission = .ok prepared
  answer : ∀ status response, backend.answer other = .ok (status, response) ↔
    backend.answer submission = .ok (status, response)

theorem Backend.Standard.alike (hbackend : backend.Standard)
    (h : StandsFor backend.config submission other)
    (h' : StandsFor backend.config other submission) : backend.Alike submission other where
  accepted := by
    have hconfig := hbackend.wellFormed
    rw [exists_prepare_iff hconfig, exists_prepare_iff hconfig]
    exact ⟨h'.acceptable, h.acceptable⟩
  answer _ _ := ⟨hbackend.answer_of_standsFor h', hbackend.answer_of_standsFor h⟩

/-- All wordings of a submission are accepted or none, and they have the same answer. -/
theorem alike_of_rewording (hbackend : backend.Standard)
    (h : Rewording backend.config submission other) : backend.Alike submission other := by
  have hconfig := hbackend.wellFormed
  cases h with
  | pieces data hpieces =>
    exact hbackend.alike (standsFor_of_pieces hpieces)
      (standsFor_of_pieces fun name ↦ (hpieces name).symm)
  | order inputs hperm =>
    exact hbackend.alike (standsFor_of_perm hconfig hperm)
      (@standsFor_of_perm _ { submission with header := { submission.header with inputs } } hconfig
        submission.header.inputs hperm.symm)
  | normal header hnormal =>
    have hsame : backend.prepare { submission with header } = backend.prepare submission := by
      rw [Backend.prepare, Backend.prepare, hnormal, normalized_of_normalized hconfig hnormal]
    refine ⟨by rw [hsame], fun status response ↦ ?_⟩
    rw [Backend.answer, Backend.answer, hsame]

/-- The data of `calculation`, those of its first input in three pieces, one of them empty. -/
def recut : InputData :=
  .ofPieces [("b", [100]), ("a", [200, 1]), ("b", []), ("b", [2])]

theorem flatten_get?_recut (name : String) :
    (recut.get? name).map List.flatten = (calculation.data.get? name).map List.flatten := by
  change (OrderedMap.lookup name [("a", [[200, 1]]), ("b", [[100], [], [2]])]).map List.flatten =
    (OrderedMap.lookup name [("a", [[200, 1]]), ("b", [[100, 2]])]).map List.flatten
  simp only [OrderedMap.lookup]
  split_ifs <;> rfl

/-- The header of `calculation` with the shapes and sizes of the model. -/
def settledHeader : RequestHeader :=
  { calculation.header with inputs := [⟨"b", [2], 2⟩, ⟨"a", [2], 2⟩] }

/-- The data in other pieces, the inputs in the other order, and the normal form. -/
theorem alike_of_rewording_calculation :
    ∃ response, calculatorBackend.answer calculation = .ok (.ok (), response) ∧
      calculatorBackend.answer { calculation with data := recut } = .ok (.ok (), response) ∧
      calculatorBackend.answer { calculation with header := .ofNames 1 ["a", "b"] [] } =
        .ok (.ok (), response) ∧
      calculatorBackend.answer { calculation with header := settledHeader } =
        .ok (.ok (), response) := by
  have hperm : ([⟨"a", [], 0⟩, ⟨"b", [], 0⟩] : List RequestInput).Perm calculation.header.inputs :=
    .swap _ _ _
  have hnormal : normalized Platform.AddSub.calculator calculation.header = .ok settledHeader := rfl
  have hpieces := alike_of_rewording standard_calculatorBackend (.pieces recut flatten_get?_recut)
  have horder := alike_of_rewording standard_calculatorBackend (.order _ hperm)
  have hsettled := alike_of_rewording standard_calculatorBackend (.normal settledHeader hnormal)
  obtain ⟨response, hresponse⟩ :
      ∃ response, calculatorBackend.answer calculation = .ok (.ok (), response) := ⟨_, rfl⟩
  exact ⟨response, hresponse, (hpieces.answer _ _).2 hresponse, (horder.answer _ _).2 hresponse,
    (hsettled.answer _ _).2 hresponse⟩

end Server

end TensorInference
