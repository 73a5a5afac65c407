import TensorInference.Inference.Submission
import TensorInference.Proofs.Json.Truncation
import TensorInference.Proofs.Wire.RoundTrip

/-!
# Request headers that break off

All fields of a request header may be left out, so a part of a header that were a complete object
would be accepted with inputs missing. No part is: whatever was cut off, the closing brace was, and
an object without it is an invalid argument. So no submission starts from such a text.
-/

namespace TensorInference.Wire

open Json Inference

/-- What is left of a header that breaks off is no header, and nothing is submitted with it. -/
theorem refuses_truncated_header (header : RequestHeader) {p : Bytes}
    (hp : p <+: RequestHeader.message.write header)
    (hne : p ≠ RequestHeader.message.write header) :
    ∃ fault : Fault,
      RequestHeader.message.read p =
        .error (.invalidArg ("failed to parse InferRequestHeader: " ++ fault.message)) ∧
      ∀ model selector, Submission.create model selector p =
        .error (.invalidArg ("failed to parse InferRequestHeader: " ++ fault.message)) := by
  obtain ⟨fault, hfault⟩ := RecordFormat.refuses_truncated header.returns.wellFormed hp hne
  have hread : RequestHeader.message.read p =
      .error (.invalidArg ("failed to parse InferRequestHeader: " ++ fault.message)) := by
    rw [Message.read, RequestHeader.message, hfault]
    rfl
  exact ⟨fault, hread, fun model selector => by rw [Submission.create, hread]; rfl⟩

/-- A header whose text breaks off inside the two bytes of a letter. -/
theorem refuses_truncated_header_letter :
    (RequestHeader.message.write (.ofNames 1 ["é"] [])).take 42 <+:
        RequestHeader.message.write (.ofNames 1 ["é"] []) ∧
      (RequestHeader.message.write (.ofNames 1 ["é"] [])).take 42 ≠
        RequestHeader.message.write (.ofNames 1 ["é"] []) ∧
      ∃ fault : Fault, ∀ model selector,
        Submission.create model selector
            ((RequestHeader.message.write (.ofNames 1 ["é"] [])).take 42) =
          .error (.invalidArg ("failed to parse InferRequestHeader: " ++ fault.message)) := by
  have hp := List.take_prefix 42 (RequestHeader.message.write (.ofNames 1 ["é"] []))
  have hne : (RequestHeader.message.write (.ofNames 1 ["é"] [])).take 42 ≠
      RequestHeader.message.write (.ofNames 1 ["é"] []) := by
    decide +kernel
  obtain ⟨fault, -, hcreate⟩ := refuses_truncated_header _ hp hne
  exact ⟨hp, hne, fault, hcreate⟩

end TensorInference.Wire
