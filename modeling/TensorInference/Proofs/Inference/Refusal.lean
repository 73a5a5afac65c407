import TensorInference.Server.Backend

/-!
# The code of a refusal

Whatever stage refuses a request, and whichever of its checks fails, the caller is told that an
argument is invalid. `Blames` is kept by the ways in which checks are put together, so it holds of
a stage because it holds of every check in it.
-/

namespace TensorInference

/-- Whether an outcome fails with one code only. -/
def Outcome.Blames {α : Type} (code : Code) (outcome : Except Status α) : Prop :=
  ∀ status, outcome = .error status → status.code = code

namespace Outcome.Blames

variable {α β : Type} {code : Code}

theorem ok (a : α) : Blames code (.ok a) :=
  fun _ h ↦ by cases h

theorem error {status : Status} (h : status.code = code) :
    Blames code (.error status : Except Status α) := by
  intro other hother
  obtain rfl := Except.error.inj hother
  exact h

theorem bind {x : Except Status α} {f : α → Except Status β} (hx : Blames code x)
    (hf : ∀ a, Blames code (f a)) : Blames code (x >>= f) := by
  cases x with
  | error status => exact error (hx status rfl)
  | ok a => exact hf a

theorem mapM {f : α → Except Status β} (hf : ∀ a, Blames code (f a)) (xs : List α) :
    Blames code (xs.mapM f) := by
  induction xs with
  | nil => exact ok []
  | cons x xs ih =>
    rw [List.mapM_cons]
    exact (hf x).bind fun y ↦ ih.bind fun ys ↦ ok (y :: ys)

theorem ite {p : Prop} [Decidable p] {x y : Except Status α} (hx : Blames code x)
    (hy : Blames code y) : Blames code (if p then x else y) := by
  split
  · exact hx
  · exact hy

end Outcome.Blames

namespace Inference

open Model Wire Outcome

variable {config : Config} {batch : UInt32}

theorem blames_checkBatch : Blames .invalidArg (checkBatch config batch) :=
  .ite (.error rfl) (.ite (.ite (.ok ()) (.error rfl)) (.ite (.error rfl) (.ok ())))

theorem blames_settleShape {described : Input} {given : RequestInput} :
    Blames .invalidArg (settleShape config described given) :=
  .ite (.ite (.error rfl) (.ok _)) (.ite (.ok _) (.error rfl))

theorem blames_settleSize {described : Input} {given : RequestInput} :
    Blames .invalidArg (settleSize config batch described given) := by
  unfold settleSize
  dsimp only
  split
  · exact .error rfl
  · exact .ite (.ok _) (.error rfl)

theorem blames_normalizeInput {seen : List String} {given : RequestInput} :
    Blames .invalidArg (normalizeInput config batch seen given).2 := by
  unfold normalizeInput
  dsimp only
  split
  · exact .error rfl
  split
  · exact .error rfl
  split
  · rename_i status hstatus
    exact .error (blames_settleShape status hstatus)
  split
  · rename_i status hstatus
    exact .error (blames_settleSize status hstatus)
  · exact .ok ()

theorem blames_normalizeInputs {seen : List String} {inputs : List RequestInput} :
    Blames .invalidArg (normalizeInputs config batch seen inputs).2 := by
  induction inputs generalizing seen with
  | nil => exact .ok ()
  | cons given rest ih =>
    rw [normalizeInputs]
    have hgiven := @blames_normalizeInput config batch seen given
    split
    · rename_i status hstatus
      rw [hstatus] at hgiven
      exact hgiven
    · exact ih

theorem blames_checkOutputs {seen : List String} {outputs : List RequestOutput} :
    Blames .invalidArg (checkOutputs config seen outputs) := by
  induction outputs generalizing seen with
  | nil => exact .ok ()
  | cons output rest ih =>
    have hrest := @ih (output.name :: seen)
    exact .ite (.bind (.error rfl) fun _ ↦ .ite (.bind (.error rfl) fun _ ↦ hrest) hrest)
      (.ite (.bind (.error rfl) fun _ ↦ hrest) hrest)

theorem blames_checkInputCount {inputs : List RequestInput} :
    Blames .invalidArg (checkInputCount config inputs) :=
  .ite (.ok ()) (.error rfl)

theorem blames_normalized {header : RequestHeader} :
    Blames .invalidArg (normalized config header) := by
  have hnormalize : Blames .invalidArg (normalize config header).2 := by
    unfold normalize
    split
    · rename_i status hstatus
      exact .error (blames_checkBatch status hstatus)
    · rename_i status _ hstatus
      exact .error (blames_checkInputCount status hstatus)
    · exact blames_normalizeInputs.bind fun _ ↦ blames_checkOutputs
  unfold normalized
  split
  · exact .ok _
  · rename_i status hstatus
    rw [hstatus] at hnormalize
    exact .error (hnormalize status rfl)

theorem blames_assemble {model : String} {version : UInt64} {header : RequestHeader}
    {data : InputData} :
    Blames .invalidArg (Request.assemble model version header config data) := by
  have hinput : ∀ input, Blames .invalidArg (Request.assembleInput model config data input) := by
    intro input
    unfold Request.assembleInput
    dsimp only
    split
    · exact .error rfl
    · exact .error rfl
    · exact .ite (.ok _) (.error rfl)
  unfold Request.assemble
  split
  · exact .error rfl
  · exact (Blames.mapM hinput header.inputs).bind fun _ ↦ .ok _

theorem blames_create {version : UInt64} {labels : Labels} {header : RequestHeader} :
    Blames .invalidArg (Response.create header config version labels) := by
  have hwant : ∀ output, Blames .invalidArg (Response.wantOutput config output) := by
    intro output
    unfold Response.wantOutput
    dsimp only
    split
    · exact .error rfl
    · split
      · exact .ok _
      · exact .ite (.error rfl) (.ite (.ok _) (.error rfl))
  have hwants : Blames .invalidArg (Response.wantOutputs config header) :=
    .ite (.ok _) (Blames.mapM hwant header.outputs)
  exact hwants.bind fun _ ↦ .ok _

end Inference

theorem Server.Backend.blames_prepare {backend : Backend} {submission : Inference.Submission} :
    Outcome.Blames .invalidArg (backend.prepare submission) :=
  Inference.blames_normalized.bind fun _ ↦ Inference.blames_assemble.bind fun _ ↦
    Inference.blames_create.bind fun _ ↦ .ok _

end TensorInference
