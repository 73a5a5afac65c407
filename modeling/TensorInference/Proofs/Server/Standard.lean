import TensorInference.Proofs.Platform.Kernel
import TensorInference.Proofs.Server.ExactlyOnce

/-!
# Backends of the standard platforms

A backend is standard if its configuration is valid and one of the standard platforms made its
executor. In a server with these platforms every backend is standard, so whatever it delivers is the
answer of a standard backend. Such answers have a closed form: exactly the acceptable submissions
are answered, and the answer is what the kernel of the platform makes of the given tensors and of
the empty response to the header.
-/

namespace TensorInference

open Model Inference Wire

namespace Server

/-- Finish what a kernel makes of a response. -/
def conclude (kernel : Platform.Kernel) (tensor : Input → InputTensor) (response : Response) :
    Except Status Unit × Response :=
  concluded (kernel.run tensor response).1 (kernel.run tensor response).2

namespace Backend

/-- A backend with a valid configuration and an executor of a standard platform. -/
structure Standard (backend : Backend) : Prop where
  valid : ∃ (declared : Config) (directory : String),
    declared.validate directory = .ok backend.config
  executor : ∃ directory,
    Platform.Registry.standard.create backend.config directory = .ok backend.executor

variable {backend : Backend} {submission : Submission} {kernel : Platform.Kernel}

theorem Standard.wellFormed (h : backend.Standard) : backend.config.WellFormed := by
  obtain ⟨_, _, hvalid⟩ := h.valid
  exact Config.wellFormed_of_validate hvalid

theorem Standard.exists_kernel (h : backend.Standard) :
    ∃ kernel : Platform.Kernel, kernel.Computes backend.config backend.executor := by
  obtain ⟨_, hcreate⟩ := h.executor
  exact Platform.exists_kernel hcreate

/-- A server with the standard platforms has standard backends. -/
theorem standard_of_create {files : Files.Tree} {freshId : String} {options : Options}
    {server : State} (hcreate : State.create files .standard freshId options = .ok server)
    {model : String} {version : UInt64}
    (hbackend : server.backends.version? model version = some backend) : backend.Standard := by
  obtain ⟨models, hmodels, htabulates⟩ := State.tabulates_of_create hcreate
  obtain ⟨-, -, hconfig, -⟩ := (State.consistent_of_create hcreate).served hbackend
  obtain ⟨_, -, definition, -, -, -, hload⟩ := htabulates.reflects.exists_definition
    (Repository.scan_eq_ok hmodels).1 hbackend
  obtain ⟨labels, -, hload⟩ := Outcome.bind_eq_ok_iff.1 hload
  obtain ⟨executor, hexecutor, hload⟩ := Outcome.bind_eq_ok_iff.1 hload
  obtain rfl := Except.ok.inj hload
  exact ⟨⟨_, _, hconfig.validate_self⟩, _, hexecutor⟩

/-- What such a server delivers are the answers of standard backends. -/
theorem standard_of_delivered {files : Files.Tree} {freshId : String} {options : Options}
    {start server : State} {actions : List Action}
    (hcreate : State.create files .standard freshId options = .ok start)
    (hrun : start.run actions = some server) (hfresh : ((entered actions).map (·.1)).Nodup)
    {completion : Completion} (hcompletion : completion ∈ server.traffic.delivered)
    (hentered : (completion.ticket, submission) ∈ entered actions) :
    ∃ backend, start.resolve submission.model submission.selector = .ok backend ∧
      backend.Standard ∧
      backend.answer submission = .ok (completion.status, completion.response) := by
  have hsound := Sound.of_create hcreate hrun hfresh
  obtain ⟨backend, hresolve, hanswer⟩ := hsound.answer_of_delivered hfresh hcompletion hentered
  obtain ⟨version, hversion, -⟩ := exists_version?_of_resolve hresolve
  exact ⟨backend, hresolve, standard_of_create hcreate hversion, hanswer⟩

/-- The empty response to a header. -/
def opening (backend : Backend) (header : RequestHeader) (wanted : List WantedOutput) :
    Response where
  header := {
    id := header.id
    model := backend.config.name
    version := backend.version.toInt64
    batch := header.batch
    outputs := [] }
  wanted := wanted
  outputs := .empty
  labels := backend.labels

theorem create_eq_ok_iff {header normal : RequestHeader} {response : Response}
    (hnormal : normalized backend.config header = .ok normal) :
    Response.create normal backend.config backend.version backend.labels = .ok response ↔
      ∃ wanted, Response.wantOutputs backend.config header = .ok wanted ∧
        response = backend.opening header wanted := by
  obtain ⟨-, -, -, -, -, -, hheader⟩ := normalized_eq_ok_iff.1 hnormal
  rw [Response.create, Outcome.bind_eq_ok_iff, hheader]
  refine exists_congr fun wanted ↦ and_congr_right fun _ ↦ ?_
  exact Outcome.ok_eq_ok_iff

/-- What a backend prepares besides the request. -/
theorem response_of_prepare {request : Request} {response : Response}
    (h : backend.prepare submission = .ok (request, response)) :
    ∃ wanted, Response.wantOutputs backend.config submission.header = .ok wanted ∧
      response = backend.opening submission.header wanted := by
  obtain ⟨normal, hnormal, -, hcreate⟩ := prepare_eq_ok_iff.1 h
  exact (create_eq_ok_iff hnormal).1 hcreate

theorem answer_of_prepare (hconfig : backend.config.WellFormed)
    (hkernel : kernel.Computes backend.config backend.executor) {request : Request}
    {response : Response} (h : backend.prepare submission = .ok (request, response)) :
    backend.answer submission = .ok (conclude kernel submission.tensor response) := by
  have hacceptable := (exists_prepare_iff hconfig).1 ⟨_, h⟩
  obtain ⟨normal, hnormal, hassemble, hcreate⟩ := prepare_eq_ok_iff.1 h
  obtain ⟨-, hdistinct⟩ := outputs_of_normalized hnormal
  have hbatch := batch_of_normalized hnormal
  have hadvance := @hkernel.advance request submission.tensor response
    (fun _ hdescribed ↦ input_of_assemble hconfig hnormal hassemble hdescribed)
    (hkernel.accepts hconfig hdistinct hcreate fun _ hdescribed ↦
      hbatch ▸ fills_of_acceptable hconfig hacceptable hdescribed)
  have hcomplete := @Platform.Program.complete_of_outcome backend.name _ _ _ _ _ hadvance rfl
  rw [answer, h]
  dsimp only [bind, Except.bind]
  rw [hcomplete]
  rfl

/-- A standard backend answers exactly the acceptable submissions. -/
theorem Standard.answer_eq_ok_iff (hbackend : backend.Standard)
    (hkernel : kernel.Computes backend.config backend.executor)
    {result : Except Status Unit × Response} :
    backend.answer submission = .ok result ↔
      Acceptable backend.config submission.header submission.data ∧
        ∃ wanted, Response.wantOutputs backend.config submission.header = .ok wanted ∧
          result = conclude kernel submission.tensor
            (backend.opening submission.header wanted) := by
  have hconfig := hbackend.wellFormed
  rw [← exists_prepare_iff hconfig]
  constructor
  · intro h
    obtain ⟨⟨request, response⟩, hprepare, -⟩ := Outcome.bind_eq_ok_iff.1 h
    obtain ⟨wanted, hwanted, rfl⟩ := response_of_prepare hprepare
    rw [answer_of_prepare hconfig hkernel hprepare] at h
    exact ⟨⟨_, hprepare⟩, wanted, hwanted, (Except.ok.inj h).symm⟩
  · rintro ⟨⟨⟨request, response⟩, hprepare⟩, wanted, hwanted, rfl⟩
    obtain ⟨other, hother, rfl⟩ := response_of_prepare hprepare
    obtain rfl := Except.ok.inj (hwanted.symm.trans hother)
    exact answer_of_prepare hconfig hkernel hprepare

variable {header : RequestHeader} {wanted : List WantedOutput} {tensor : Input → InputTensor}

theorem conclude_of_not_agrees {response : Response} (h : ¬ kernel.Agrees tensor) :
    conclude kernel tensor response = (.error kernel.refusal, response.clear) := by
  rw [conclude, Platform.Kernel.run, if_neg h]
  rfl

/-- Where the shapes agree, the response is completed from the results. -/
theorem Standard.conclude_of_agrees (hbackend : backend.Standard)
    (hkernel : kernel.Computes backend.config backend.executor)
    (hdistinct : (header.outputs.map (·.name)).Nodup)
    (hwanted : Response.wantOutputs backend.config header = .ok wanted)
    (hagrees : kernel.Agrees tensor) :
    ∃ final, conclude kernel tensor (backend.opening header wanted) = (.ok (), final) ∧
      Response.Completes (backend.opening header wanted) (kernel.results tensor) final := by
  have hconfig := hbackend.wellFormed
  have hnames : (kernel.results tensor).map (·.1) = backend.config.outputs.map (·.name) :=
    hkernel.names
  have hwants : Response.Wants backend.config header (backend.opening header wanted).wanted :=
    Response.wants_of_wantOutputs hconfig hdistinct hwanted
  obtain ⟨final, hfinal, hcompletes⟩ := Response.exists_completes rfl
    (hnames ▸ hconfig.outputs_distinct) (hwants.name_mem hconfig hnames)
  refine ⟨final, ?_, hcompletes⟩
  rw [conclude, Platform.Kernel.run, if_pos hagrees, concluded]
  dsimp only [Except.bind]
  rw [hfinal]

end Backend

/-- The model that copies its input, executed by the server itself. -/
def echoBackend : Backend where
  name := "echo"
  version := 1
  config := Platform.Identity.echo
  labels := .empty
  metered := false
  executor := fun request ↦ Platform.Identity.program request [("in", "out")]

theorem standard_echoBackend : echoBackend.Standard :=
  ⟨⟨Platform.Identity.echo, "echo", rfl⟩, "", rfl⟩

/-- The model that adds and subtracts pairs of bytes, executed by the server itself. -/
def calculatorBackend : Backend where
  name := "calculator"
  version := 1
  config := Platform.AddSub.calculator
  labels := .empty
  metered := false
  executor := Platform.AddSub.program ⟨.uint8, "a", "b", "sum", "difference"⟩

theorem standard_calculatorBackend : calculatorBackend.Standard :=
  ⟨⟨Platform.AddSub.calculator, "calculator", rfl⟩, "", rfl⟩

/-- A submission of two pairs of bytes that asks for all results. -/
def calculation : Submission where
  model := "calculator"
  selector := Submission.latest
  header := .ofNames 1 ["b", "a"] []
  data := .ofPieces [("b", [100, 2]), ("a", [200, 1])]

end Server

end TensorInference
