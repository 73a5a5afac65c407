import TensorInference.Proofs.Wire.RoundTrip

/-!
# Scores that are no numbers

A score that is infinite or no number at all is written as null, and no reader takes null for a
number. So a response header is read back exactly if all of its scores are finite, and a header
that is not is refused for the first null in it.
-/

namespace TensorInference.Wire

open Json

/-- The fault of a null in the place of a score. -/
def nullScore : Fault :=
  .wrongType .null "f32"

/-- Whether a score is a number. -/
def IsNumber (score : UInt32) : Prop :=
  Binary.single.isFinite score.toNat

instance (score : UInt32) : Decidable (IsNumber score) :=
  inferInstanceAs (Decidable (_ = true))

theorem ClassScore.refuses {entry : ClassScore} (h : ¬ IsNumber entry.score) :
    ClassScore.format.codec.Refuses entry nullScore := by
  refine RecordFormat.refuses ⟨by decide, fun _ => rfl⟩ entry.legible ?_
  exact Fields.reread_of_returns (Codec.returns_word32 _)
    (Fields.reread_of_refuses (Codec.refuses_single (Bool.eq_false_iff.2 h)) rfl)

/-- The classes of a batch item are refused for the first score that is no number. -/
theorem refuses_itemClasses {entries : List ClassScore}
    (hread : ∀ entry ∈ entries, IsNumber entry.score → Codec.single.Returns entry.score)
    (h : ∃ entry ∈ entries, ¬ IsNumber entry.score) :
    itemClassesFormat.codec.Refuses entries nullScore := by
  obtain ⟨first, hfirst, hnull⟩ := h
  have hlist : ClassScore.format.codec.list.Refuses entries nullScore := by
    refine Codec.refuses_list (fun entry hentry => ?_) ⟨first, hfirst, ClassScore.refuses hnull⟩
    by_cases hnumber : IsNumber entry.score
    · exact .inl (ClassScore.returns (hread entry hentry hnumber))
    · exact .inr (ClassScore.refuses hnumber)
  exact RecordFormat.refuses ⟨by decide, fun _ => rfl⟩ (legible_itemClasses entries)
    (Fields.reread_of_refuses hlist rfl)

theorem ResponseOutput.refuses {output : ResponseOutput}
    (hread : ∀ entries ∈ output.classes, ∀ entry ∈ entries,
      IsNumber entry.score → Codec.single.Returns entry.score)
    (h : ∃ entries ∈ output.classes, ∃ entry ∈ entries, ¬ IsNumber entry.score) :
    ResponseOutput.format.codec.Refuses output nullScore := by
  obtain ⟨first, hfirst, hnull⟩ := h
  have hlist : itemClassesFormat.codec.list.Refuses output.classes nullScore := by
    refine Codec.refuses_list (fun entries hentries => ?_)
      ⟨first, hfirst, refuses_itemClasses (hread first hfirst) hnull⟩
    by_cases hnumbers : ∀ entry ∈ entries, IsNumber entry.score
    · exact .inl (returns_itemClasses fun entry hentry =>
        hread entries hentries entry hentry (hnumbers entry hentry))
    · push Not at hnumbers
      exact .inr (refuses_itemClasses (hread entries hentries) hnumbers)
  have hraw : (RawOutput.format.codec.option).Returns output.raw :=
    Codec.returns_option (fun raw _ => raw.returns) RecordFormat.encode_ne_null
  refine RecordFormat.refuses ⟨by decide, fun _ => rfl⟩ output.legible ?_
  refine Fields.reread_of_returns (Codec.returns_text _) (Fields.reread_of_returns hraw ?_)
  exact Fields.reread_of_refuses hlist (List.isEmpty_eq_false_iff.2 (List.ne_nil_of_mem hfirst))

namespace ResponseHeader

theorem refuses {header : ResponseHeader}
    (hread : ∀ score ∈ header.scores, IsNumber score → Codec.single.Returns score)
    (h : ∃ score ∈ header.scores, ¬ IsNumber score) :
    ResponseHeader.format.codec.Refuses header nullScore := by
  obtain ⟨score, hscore, hnull⟩ := h
  obtain ⟨first, hfirst, entries, hentries, entry, hentry, rfl⟩ := mem_scores.1 hscore
  have hreturns : ∀ output ∈ header.outputs, ∀ entries ∈ output.classes, ∀ entry ∈ entries,
      IsNumber entry.score → Codec.single.Returns entry.score :=
    fun output houtput entries hentries entry hentry => hread entry.score
      (mem_scores.2 ⟨output, houtput, entries, hentries, entry, hentry, rfl⟩)
  have hlist : ResponseOutput.format.codec.list.Refuses header.outputs nullScore := by
    refine Codec.refuses_list (fun output houtput => ?_) ⟨first, hfirst,
      ResponseOutput.refuses (hreturns first hfirst) ⟨entries, hentries, entry, hentry, hnull⟩⟩
    by_cases hnumbers : ∀ entries ∈ output.classes, ∀ entry ∈ entries, IsNumber entry.score
    · exact .inl (ResponseOutput.returns fun entries hentries entry hentry =>
        hreturns output houtput entries hentries entry hentry
          (hnumbers entries hentries entry hentry))
    · push Not at hnumbers
      exact .inr (ResponseOutput.refuses (hreturns output houtput) hnumbers)
  refine RecordFormat.refuses ⟨by decide, fun _ => rfl⟩ header.legible ?_
  exact Fields.reread_of_returns (Codec.returns_word64 _)
    (Fields.reread_of_returns (Codec.returns_text _)
      (Fields.reread_of_returns (Codec.returns_integer64 _)
        (Fields.reread_of_returns (Codec.returns_word32 _)
          (Fields.reread_of_refuses hlist rfl))))

/-- A response header with a score that is no number cannot be read. -/
theorem read_write_of_null {header : ResponseHeader}
    (hread : ∀ score ∈ header.scores, IsNumber score → Codec.single.Returns score)
    (h : ∃ score ∈ header.scores, ¬ IsNumber score) :
    message.read (message.write header) =
      .error (.invalidArg
        "failed to parse InferResponseHeader: invalid type: null, expected f32") := by
  rw [Message.read, Message.write, message, (refuses hread h).read]
  rfl

end ResponseHeader

end TensorInference.Wire
