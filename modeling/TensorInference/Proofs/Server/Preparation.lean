import TensorInference.Proofs.Inference.Acceptance
import TensorInference.Server.Backend

/-!
# What backends prepare

A backend prepares a submission by three stages: the header gets its normal form, the data are
assembled, and an empty response is created. So it prepares exactly the acceptable submissions, for
its own name and version.
-/

namespace TensorInference.Server.Backend

open Model Inference

variable {backend : Backend} {submission : Submission} {request : Request} {response : Response}

theorem prepare_eq_ok_iff :
    backend.prepare submission = .ok (request, response) ↔
      ∃ normal, normalized backend.config submission.header = .ok normal ∧
        Request.assemble backend.name backend.version normal backend.config submission.data =
          .ok request ∧
        Response.create normal backend.config backend.version backend.labels = .ok response := by
  unfold prepare
  constructor
  · intro h
    obtain ⟨normal, hnormal, h⟩ := Outcome.bind_eq_ok_iff.1 h
    obtain ⟨assembled, hassembled, h⟩ := Outcome.bind_eq_ok_iff.1 h
    obtain ⟨created, hcreated, h⟩ := Outcome.bind_eq_ok_iff.1 h
    obtain ⟨rfl, rfl⟩ := Prod.mk.inj (Except.ok.inj h)
    exact ⟨normal, hnormal, hassembled, hcreated⟩
  · rintro ⟨normal, hnormal, hassembled, hcreated⟩
    rw [hnormal, Outcome.bind_eq_ok_iff]
    refine ⟨normal, rfl, ?_⟩
    rw [hassembled, Outcome.bind_eq_ok_iff]
    refine ⟨request, rfl, ?_⟩
    rw [hcreated]
    rfl

theorem request_of_prepare (h : backend.prepare submission = .ok (request, response)) :
    request.model = backend.name ∧ request.version = backend.version := by
  obtain ⟨normal, -, hassembled, -⟩ := prepare_eq_ok_iff.1 h
  obtain ⟨-, -, hrequest⟩ := Request.assemble_eq_ok_iff.1 hassembled
  rw [hrequest]
  exact ⟨rfl, rfl⟩

theorem exists_prepare_iff (hconfig : backend.config.WellFormed) :
    (∃ prepared, backend.prepare submission = .ok prepared) ↔
      Acceptable backend.config submission.header submission.data := by
  rw [← @stages_iff_acceptable backend.config submission.header submission.data backend.name
    backend.version backend.version backend.labels hconfig]
  constructor
  · rintro ⟨⟨request, response⟩, h⟩
    obtain ⟨normal, hstages⟩ := prepare_eq_ok_iff.1 h
    exact ⟨normal, request, response, hstages⟩
  · rintro ⟨normal, request, response, hstages⟩
    exact ⟨(request, response), prepare_eq_ok_iff.2 ⟨normal, hstages⟩⟩

end TensorInference.Server.Backend
