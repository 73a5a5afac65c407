import TensorInference.Proofs.Platform.Calls
import TensorInference.Proofs.Server.ExactlyOnce

/-!
# Responses are all or nothing

Whatever an executor does, a callback is run either with every output that was asked for, each as
its last accepted call stored it, or with nothing but a failure. An execution that returns an error
or crashes hides the outputs that it stored before, and one that returns successfully fails if an
output that was asked for was never accepted.
-/

namespace TensorInference.Server

open Model Inference Wire Platform

/-- The failure of a response that lacks an output that was asked for. -/
def notProduced (model output : String) : Status :=
  .internal s!"model '{model}' did not produce requested output '{output}'"

/-- Why a response fails: the executor's own error, a crash, or the first output that was asked for
and never accepted. -/
inductive Fails (model : String) (response : Response) (calls : List Call) :
    Ending → Status → Prop where
  | returned (status : Status) :
    Fails model response calls (.returned (.error status)) status
  | crashed (message : Option String) :
    Fails model response calls (.crashed message) (crashStatus model message)
  | missing {before after : List WantedOutput} {want : WantedOutput}
      (wanted : response.wanted = before ++ want :: after)
      (stored : ∀ other ∈ before, ∃ tensor, LastAccepted calls other.name tensor)
      (never : NeverAccepted calls want.name) :
    Fails model response calls (.returned (.ok ())) (notProduced response.header.model want.name)

/-- What a callback is run with after an execution that made some calls. -/
inductive AllOrNothing (model : String) (response : Response) (calls : List Call)
    (ending : Ending) (completion : Completion) : Prop where
  /-- Every output that was asked for is there, in the order of the request. -/
  | all (header : ResponseHeader) (returned : ending = .returned (.ok ()))
      (succeeded : completion.status = .ok ()) (described : completion.header = .ok header)
      (entries : List.Forall₂ (fun want entry ↦ ∃ tensor,
        LastAccepted calls want.name tensor ∧ completion.output want.name = .ok tensor.data ∧
          entry.name = want.name ∧
          entry.raw = if want.classes = none then
            some { shape := tensor.shape, byteSize := UInt64.ofNat tensor.data.length }
          else none) response.wanted header.outputs)
  /-- The failure is all that there is. -/
  | nothing (failure : Status) (cause : Fails model response calls ending failure)
      (failed : completion.status = .error failure) (described : completion.header = .error failure)
      (hidden : ∀ name, completion.output name = .error failure)

variable {model : String} {response final : Response} {calls : List Call} {ending : Ending}
  {completion : Completion}

theorem describe_eq_error {want : WantedOutput} {status : Status}
    (h : response.describe want = .error status) :
    response.outputs.get? want.name = none ∧
      status = notProduced response.header.model want.name := by
  unfold Response.describe at h
  dsimp only at h
  cases hget : response.outputs.get? want.name with
  | none =>
    rw [hget] at h
    exact ⟨rfl, (Except.error.inj h).symm⟩
  | some tensor =>
    rw [hget] at h
    cases hclasses : want.classes with
    | none =>
      rw [hclasses] at h
      cases h
    | some count =>
      rw [hclasses] at h
      cases h

/-- A failed response hides everything. -/
theorem allOrNothing_of_error {failure : Status}
    (hcause : Fails model response calls ending failure)
    (hstatus : completion.status = .error failure) :
    AllOrNothing model response calls ending completion := by
  refine .nothing failure hcause hstatus ?_ fun name ↦ ?_
  · rw [Completion.header, hstatus]
    rfl
  · rw [Completion.output, hstatus]
    rfl

theorem lastAccepted_of_get? (hempty : response.outputs = .empty)
    (hkeeps : Keeps response calls final) {want : WantedOutput} (hwant : want ∈ response.wanted)
    {tensor : OutputTensor} (hget : final.outputs.get? want.name = some tensor) :
    LastAccepted calls want.name tensor := by
  have hrequires := Response.requires_iff.2 (List.mem_map_of_mem hwant)
  rcases exists_lastAccepted_or_neverAccepted calls want.name with ⟨last, hlast⟩ | hnever
  · rw [hkeeps.accepted want.name last hrequires hlast] at hget
    exact Option.some.inj hget ▸ hlast
  · rw [hkeeps.before want.name hrequires hnever, hempty] at hget
    cases hget

theorem neverAccepted_of_get? (hkeeps : Keeps response calls final) {want : WantedOutput}
    (hwant : want ∈ response.wanted) (hget : final.outputs.get? want.name = none) :
    NeverAccepted calls want.name := by
  have hrequires := Response.requires_iff.2 (List.mem_map_of_mem hwant)
  rcases exists_lastAccepted_or_neverAccepted calls want.name with ⟨last, hlast⟩ | hnever
  · rw [hkeeps.accepted want.name last hrequires hlast] at hget
    cases hget
  · exact hnever

/-- What was completed after calls on an empty response has every output that was asked for. -/
theorem all_of_finalize (hempty : response.outputs = .empty) (hkeeps : Keeps response calls final)
    {complete : Response} (hfinal : final.finalize = .ok complete)
    (hstatus : completion.status = .ok ()) (hresponse : completion.response = complete) :
    AllOrNothing model response calls (.returned (.ok ())) completion := by
  obtain ⟨hentries, hcomplete⟩ := Response.finalize_eq_ok_iff.1 hfinal
  have houtputs : complete.outputs = final.outputs := by rw [hcomplete]
  rw [hkeeps.wanted] at hentries
  refine .all complete.header rfl hstatus ?_ ((SideBySide.mem_left hentries).imp ?_)
  · rw [Completion.header, hstatus, hresponse]
    rfl
  · rintro want entry ⟨hwant, tensor, hget, rfl⟩
    refine ⟨tensor, lastAccepted_of_get? hempty hkeeps hwant hget, ?_,
      Response.describeTensor_name, Response.describeTensor_raw⟩
    rw [Completion.output, hstatus, hresponse]
    exact Response.output_of_get? (houtputs ▸ hget)

/-- What cannot be completed after calls on an empty response lacks an output that was asked for. -/
theorem fails_of_finalize (hempty : response.outputs = .empty) (hkeeps : Keeps response calls final)
    {status : Status} (hfinal : final.finalize = .error status) :
    Fails model response calls (.returned (.ok ())) status := by
  have hdescribe : final.wanted.mapM final.describe = .error status := by
    rcases Outcome.bind_eq_error_iff.1 hfinal with h | ⟨_, -, h⟩
    · exact h
    · cases h
  obtain ⟨before, want, after, hwanted, hbefore, hwant⟩ :=
    Outcome.exists_of_mapM_eq_error hdescribe
  rw [hkeeps.wanted] at hwanted
  obtain ⟨hget, hfailure⟩ := describe_eq_error hwant
  rw [hkeeps.header] at hfailure
  subst hfailure
  refine .missing hwanted (fun other hother ↦ ?_) ?_
  · obtain ⟨entry, hentry⟩ := hbefore other hother
    obtain ⟨tensor, htensor, -⟩ := Response.describe_eq_ok_iff.1 hentry
    have hmem : other ∈ response.wanted := hwanted ▸ List.mem_append_left _ hother
    exact ⟨tensor, lastAccepted_of_get? hempty hkeeps hmem htensor⟩
  · have hmem : want ∈ response.wanted := hwanted ▸ List.mem_append_right _ List.mem_cons_self
    exact neverAccepted_of_get? hkeeps hmem hget

/-- Calls on an empty response are concluded with all or nothing. -/
theorem allOrNothing_of_keeps (hempty : response.outputs = .empty)
    (hkeeps : Keeps response calls final)
    (hconcluded : (completion.status, completion.response) =
      concluded final (ending.outcome model)) :
    AllOrNothing model response calls ending completion := by
  cases ending with
  | crashed message =>
    exact allOrNothing_of_error (.crashed message) (Prod.mk.inj hconcluded).1
  | returned outcome =>
    cases outcome with
    | error status => exact allOrNothing_of_error (.returned status) (Prod.mk.inj hconcluded).1
    | ok _ =>
      rw [Ending.outcome, concluded] at hconcluded
      dsimp only [Except.bind] at hconcluded
      cases hfinal : final.finalize with
      | ok complete =>
        rw [hfinal] at hconcluded
        obtain ⟨hstatus, hresponse⟩ := Prod.mk.inj hconcluded
        exact all_of_finalize hempty hkeeps hfinal hstatus hresponse
      | error status =>
        rw [hfinal] at hconcluded
        exact allOrNothing_of_error (fails_of_finalize hempty hkeeps hfinal)
          (Prod.mk.inj hconcluded).1

/-- What a server delivers to a submission is all or nothing of what was asked for: the last
accepted tensors of the execution, or why it failed. -/
theorem allOrNothing_of_run {files : Files.Tree} {registry : Registry} {freshId : String}
    {options : Options} {start server : State} {actions : List Action}
    (hcreate : State.create files registry freshId options = .ok start)
    (hrun : start.run actions = some server) (hfresh : ((entered actions).map (·.1)).Nodup)
    (hdelivered : completion ∈ server.traffic.delivered) :
    ∃ submission backend request response,
      (completion.ticket, submission) ∈ entered actions ∧
      start.resolve submission.model submission.selector = .ok backend ∧
      backend.prepare submission = .ok (request, response) ∧
      response.wanted.map (·.name) = Response.askedNames backend.config submission.header ∧
      AllOrNothing backend.name response ((backend.executor request).record response).1
        ((backend.executor request).record response).2 completion := by
  have hsound := Sound.of_create hcreate hrun hfresh
  obtain ⟨submission, backend, hentered, hresolve, hanswer⟩ :=
    hsound.faithful.completed completion (.inr hdelivered)
  obtain ⟨⟨request, response⟩, hprepare, hanswer⟩ := Outcome.bind_eq_ok_iff.1 hanswer
  obtain ⟨normal, hnormal, -, hresponse⟩ := Backend.prepare_eq_ok_iff.1 hprepare
  obtain ⟨version, hversion, -⟩ := exists_version?_of_resolve hresolve
  obtain ⟨-, -, hconfig, -⟩ := (State.consistent_of_create hcreate).served hversion
  obtain ⟨houtputs, hdistinct⟩ := outputs_of_normalized hnormal
  obtain ⟨hempty, hwants⟩ := Response.wants_of_create hconfig hdistinct hresponse
  obtain ⟨hkeeps, houtcome⟩ :=
    Program.complete_eq_record backend.name (backend.executor request) response
  refine ⟨submission, backend, request, response, hentered, hresolve, hprepare, ?_, ?_⟩
  · rw [hwants.names, Response.askedNames_congr houtputs]
  · refine allOrNothing_of_keeps hempty hkeeps ?_
    rw [← houtcome]
    exact (Except.ok.inj hanswer).symm

/-- A platform that stores an output as it should and then crashes. -/
def faltering : Registry :=
  Registry.empty.register "identity" fun _ _ ↦
    .ok fun _ ↦ .store "out" [1] [9] fun _ ↦ .crash (some "device lost")

theorem allOrNothing_of_run_faltering :
    ∃ start server, State.create shelf faltering "shelf" { repository := "/models" } = .ok start ∧
      start.run echoRun = some server ∧ ∃ completion ∈ server.traffic.delivered,
        ∀ name, completion.output name = .error (crashStatus "echo" (some "device lost")) := by
  have hchecked : ((State.create shelf faltering "shelf"
      { repository := "/models" }).toOption.any fun start ↦
        (start.run echoRun).any fun server ↦ server.traffic.delivered.any fun completion ↦
          completion.status = .error (crashStatus "echo" (some "device lost"))) = true := by
    decide +kernel
  obtain ⟨start, server, hcreate, hrun, hcheck⟩ := State.exists_run_of_any hchecked
  obtain ⟨completion, hdelivered, hstatus⟩ := List.any_eq_true.1 hcheck
  rw [decide_eq_true_eq] at hstatus
  refine ⟨start, server, hcreate, hrun, completion, hdelivered, ?_⟩
  obtain ⟨_, _, _, _, -, -, -, -, hall⟩ :=
    allOrNothing_of_run hcreate hrun (by decide) hdelivered
  cases hall with
  | all header _ hsucceeded => cases hstatus.symm.trans hsucceeded
  | nothing failure _ hfailed _ hhidden =>
    obtain rfl := Except.error.inj (hstatus.symm.trans hfailed)
    exact hhidden

end TensorInference.Server
