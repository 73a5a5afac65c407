import TensorInference.Proofs.Server.Pipeline

/-!
# What executions store

A program may store an output several times, store it wrongly, and go on whatever it learns of it.
The record of an execution lists its calls with their results and says how the program ended by
itself. Of an output that was asked for, the response keeps the last tensor that was accepted, and
the calls that were not accepted leave no trace in it.
-/

namespace TensorInference.Platform

open Model Inference

/-- An output that a program stored, and what it learned of it. -/
structure Call where
  name : String
  tensor : OutputTensor
  result : Except Status Unit

/-- How a program ends by itself. -/
inductive Ending where
  | returned (outcome : Except Status Unit)
  | crashed (message : Option String)

/-- What an ending means for the request. -/
def Ending.outcome (model : String) : Ending → Except Status Unit
  | .returned outcome => outcome
  | .crashed message => .error (Server.crashStatus model message)

/-- The calls of a program that works on a response to its end, and how it ends. -/
def Program.record : Program → Response → List Call × Ending
  | .finish outcome, _ => ([], .returned outcome)
  | .crash message, _ => ([], .crashed message)
  | .wait next, response => next.record response
  | .store name shape data next, response =>
    match response.store name shape data with
    | .ok stored =>
      ((next (.ok ())).record stored).map (⟨name, ⟨shape, data⟩, .ok ()⟩ :: ·) id
    | .error status =>
      ((next (.error status)).record response).map (⟨name, ⟨shape, data⟩, .error status⟩ :: ·) id

/-- No call stored an output under a name. -/
def NeverAccepted (calls : List Call) (name : String) : Prop :=
  ∀ call ∈ calls, call.name = name → call.result ≠ .ok ()

/-- A tensor is the last one that was accepted under a name. -/
def LastAccepted (calls : List Call) (name : String) (tensor : OutputTensor) : Prop :=
  ∃ before after, calls = before ++ ⟨name, tensor, .ok ()⟩ :: after ∧ NeverAccepted after name

variable {calls : List Call} {call : Call} {name : String} {tensor : OutputTensor}

theorem neverAccepted_cons :
    NeverAccepted (call :: calls) name ↔
      (call.name = name → call.result ≠ .ok ()) ∧ NeverAccepted calls name :=
  List.forall_mem_cons

theorem lastAccepted_cons :
    LastAccepted (call :: calls) name tensor ↔
      LastAccepted calls name tensor ∨
        call = ⟨name, tensor, .ok ()⟩ ∧ NeverAccepted calls name := by
  constructor
  · rintro ⟨before, after, hcalls, hafter⟩
    cases before with
    | nil =>
      obtain ⟨rfl, rfl⟩ := List.cons.inj hcalls
      exact .inr ⟨rfl, hafter⟩
    | cons first before =>
      obtain ⟨rfl, rfl⟩ := List.cons.inj hcalls
      exact .inl ⟨before, after, rfl, hafter⟩
  · rintro (⟨before, after, rfl, hafter⟩ | ⟨rfl, hnever⟩)
    · exact ⟨call :: before, after, rfl, hafter⟩
    · exact ⟨[], calls, rfl, hnever⟩

/-- A name under which something was accepted has a last accepted tensor. -/
theorem exists_lastAccepted_or_neverAccepted (calls : List Call) (name : String) :
    (∃ tensor, LastAccepted calls name tensor) ∨ NeverAccepted calls name := by
  induction calls with
  | nil => exact .inr (fun _ hcall ↦ nomatch hcall)
  | cons call calls ih =>
    rcases ih with ⟨tensor, hlast⟩ | hnever
    · exact .inl ⟨tensor, lastAccepted_cons.2 (.inl hlast)⟩
    · by_cases hcall : call.name = name ∧ call.result = .ok ()
      · obtain ⟨rfl, hresult⟩ := hcall
        refine .inl ⟨call.tensor, lastAccepted_cons.2 (.inr ⟨?_, hnever⟩)⟩
        rw [← hresult]
      · exact .inr (neverAccepted_cons.2 ⟨fun hname hresult ↦ hcall ⟨hname, hresult⟩, hnever⟩)

variable {response final : Response}

/-- What a response is after calls: of every output that was asked for it has the last accepted
tensor, or what it had before if none was accepted. -/
structure Keeps (response : Response) (calls : List Call) (final : Response) : Prop where
  header : final.header = response.header
  wanted : final.wanted = response.wanted
  labels : final.labels = response.labels
  accepted : ∀ name tensor, response.requires name = true → LastAccepted calls name tensor →
    final.outputs.get? name = some tensor
  before : ∀ name, response.requires name = true → NeverAccepted calls name →
    final.outputs.get? name = response.outputs.get? name

theorem keeps_nil : Keeps response [] response where
  header := rfl
  wanted := rfl
  labels := rfl
  accepted name tensor _ h := by
    obtain ⟨before, after, hcalls, -⟩ := h
    cases before <;> cases hcalls
  before _ _ _ := rfl

/-- An accepted call comes before the others. -/
theorem Keeps.accept {other : String} {kept : OutputTensor}
    (h : Keeps (response.keep other kept) calls final) :
    Keeps response (⟨other, kept, .ok ()⟩ :: calls) final where
  header := h.header.trans Response.keep_header
  wanted := h.wanted.trans Response.keep_wanted
  labels := h.labels.trans Response.keep_labels
  accepted name tensor hrequires hlast := by
    have hkept : (response.keep other kept).requires name = true := by
      rw [Response.requires_keep, hrequires]
    rcases lastAccepted_cons.1 hlast with hlast | ⟨hcall, hnever⟩
    · exact h.accepted name tensor hkept hlast
    · obtain ⟨rfl, rfl, -⟩ := Call.mk.inj hcall
      rw [h.before other hkept hnever, Response.get?_keep, if_pos ⟨rfl, hrequires⟩]
  before name hrequires hnever := by
    obtain ⟨hcall, hrest⟩ := neverAccepted_cons.1 hnever
    have hne : ¬ (name = other ∧ response.requires other = true) :=
      fun hother ↦ hcall hother.1.symm rfl
    rw [h.before name (by rw [Response.requires_keep, hrequires]) hrest, Response.get?_keep,
      if_neg hne]

/-- A call that was not accepted leaves no trace. -/
theorem Keeps.refuse {status : Status} (h : Keeps response calls final) :
    Keeps response (⟨name, tensor, .error status⟩ :: calls) final where
  header := h.header
  wanted := h.wanted
  labels := h.labels
  accepted other found hrequires hlast := by
    rcases lastAccepted_cons.1 hlast with hlast | ⟨hcall, -⟩
    · exact h.accepted other found hrequires hlast
    · cases hcall
  before other hrequires hnever := h.before other hrequires (neverAccepted_cons.1 hnever).2

/-- A program that works to its end leaves the response that its calls make, and its outcome is
that of its ending. -/
theorem Program.complete_eq_record (model : String) (program : Program) (response : Response) :
    Keeps response (program.record response).1 (program.complete model response).1 ∧
      (program.complete model response).2 = (program.record response).2.outcome model := by
  induction program generalizing response with
  | finish outcome => exact ⟨keeps_nil, rfl⟩
  | crash message => exact ⟨keeps_nil, rfl⟩
  | wait next ih => exact ih response
  | store name shape data next ih =>
    rw [record, complete]
    cases hstore : response.store name shape data with
    | ok stored =>
      obtain rfl : stored = response.keep name ⟨shape, data⟩ := Response.eq_keep_of_store hstore
      obtain ⟨hkeeps, houtcome⟩ := ih (.ok ()) (response.keep name ⟨shape, data⟩)
      exact ⟨hkeeps.accept, houtcome⟩
    | error status =>
      obtain ⟨hkeeps, houtcome⟩ := ih (.error status) response
      exact ⟨hkeeps.refuse, houtcome⟩

end TensorInference.Platform
