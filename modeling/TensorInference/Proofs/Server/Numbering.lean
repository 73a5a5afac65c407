import TensorInference.Proofs.Server.ExactlyOnce
import TensorInference.Proofs.Server.Routing

/-!
# The numbers of versions

Versions are natural numbers below 2 ^ 64, but a request names its version by a signed number and a
response reports the version by one. Below 2 ^ 63 the three agree. A version from there on has no
selector of its own: it serves only those who ask for the latest version, and its responses report
the negative number of the same pattern, as if they were asking for the latest version themselves.
-/

namespace TensorInference

open Model Inference

/-- The signed number of the pattern of a version. -/
theorem toInt_toInt64 (version : UInt64) :
    version.toInt64.toInt =
      if version.toNat < 2 ^ 63 then (version.toNat : Int) else version.toNat - 2 ^ 64 := by
  have hpattern : version.toInt64.toInt = version.toBitVec.toInt := rfl
  have hnumber : version.toBitVec.toNat = version.toNat := rfl
  rw [hpattern, BitVec.toInt_eq_toNat_cond, hnumber]
  by_cases h : version.toNat < 2 ^ 63
  · rw [if_pos h, if_pos (by omega)]
  · rw [if_neg h, if_neg (by omega)]
    rfl

namespace Inference.Response

variable {response stored final : Response} {version : UInt64}

theorem version_of_create {header : Wire.RequestHeader} {config : Config} {labels : Labels}
    (h : create header config version labels = .ok response) :
    response.header.version = version.toInt64 := by
  obtain ⟨wanted, -, hresponse⟩ := Outcome.bind_eq_ok_iff.1 h
  obtain rfl := Except.ok.inj hresponse
  rfl

theorem header_of_store {name : String} {shape : Shape} {data : Bytes}
    (h : response.store name shape data = .ok stored) : stored.header = response.header := by
  unfold store at h
  split at h
  · obtain rfl := Except.ok.inj h
    rfl
  · split at h
    · cases h
    · dsimp only at h
      split at h
      · obtain rfl := Except.ok.inj h
        rfl
      · cases h

end Inference.Response

/-- An execution works on the outputs and leaves the header to the end. -/
theorem Platform.Program.header_complete (program : Platform.Program) (model : String)
    (response : Response) : (program.complete model response).1.header = response.header := by
  induction program generalizing response with
  | finish outcome => rfl
  | crash message => rfl
  | wait next ih => exact ih response
  | store name shape data next ih =>
    rw [complete]
    cases hstore : response.store name shape data with
    | error status => exact ih _ response
    | ok stored =>
      dsimp only
      rw [ih, Response.header_of_store hstore]

namespace Server

theorem version_concluded (response : Response) (outcome : Except Status Unit) :
    (concluded response outcome).2.header.version = response.header.version := by
  unfold concluded
  split
  · rename_i final hfinal
    obtain ⟨_, -, hfinalize⟩ := Outcome.bind_eq_ok_iff.1 hfinal
    rw [(Response.finalize_eq_ok_iff.1 hfinalize).2]
  · rfl

/-- Every answer of a backend reports the pattern of its version. -/
theorem Backend.version_of_answer {backend : Backend} {submission : Submission}
    {status : Except Status Unit} {response : Response}
    (h : backend.answer submission = .ok (status, response)) :
    response.header.version = backend.version.toInt64 := by
  obtain ⟨⟨request, created⟩, hprepare, h⟩ := Outcome.bind_eq_ok_iff.1 h
  obtain ⟨normal, -, -, hcreate⟩ := prepare_eq_ok_iff.1 hprepare
  have hresponse := congrArg (fun answer ↦ answer.2.header.version) (Except.ok.inj h)
  dsimp only at hresponse
  rw [← hresponse, version_concluded, Platform.Program.header_complete,
    Response.version_of_create hcreate]

variable {start server : State} {actions : List Action} {name : String} {version : UInt64}
  {selector : Int64}

/-- A request that names a version is served by that version and no other. -/
theorem toInt_of_serves (hconsistent : Consistent server.backends server.books.status)
    (hselector : 0 ≤ selector) (h : server.Serves name selector version) :
    selector.toInt = version.toNat := by
  obtain ⟨backend, hresolve, hversion⟩ := h
  obtain ⟨found, hfound, hnamed⟩ := exists_version?_of_resolve hresolve
  have hnonnegative : ¬ selector < 0 := Int64.not_lt.2 hselector
  obtain rfl : backend.version = version := (hconsistent.served hversion).2.1
  rw [(hconsistent.served hfound).2.1, hnamed hnonnegative, toNat_toUInt64 hnonnegative]

/-- A version with a signed number serves those who ask for that number. -/
theorem serves_toInt64 (hconsistent : Consistent server.backends server.books.status)
    (hready : server.books.status.state? name version = some .ready)
    (hnonnegative : 0 ≤ version.toInt64) : server.Serves name version.toInt64 version := by
  obtain ⟨backend, hbackend⟩ := hconsistent.ready hready
  have hnumber : version.toInt64.toUInt64 = version := UInt64.toUInt64_toInt64 version
  obtain ⟨found, hresolve⟩ := exists_resolve_of_version? hconsistent hbackend (.inr hnumber)
  obtain ⟨served, hserved, hnamed⟩ := exists_version?_of_resolve hresolve
  rw [hnamed (Int64.not_lt.2 hnonnegative), hnumber] at hserved
  exact ⟨found, hresolve, hserved⟩

theorem toInt64_nonneg_iff : 0 ≤ version.toInt64 ↔ version.toNat < 2 ^ 63 := by
  rw [Int64.le_iff_toInt_le, Int64.toInt_zero, toInt_toInt64]
  have hlt : version.toNat < 2 ^ 64 := version.toNat_lt
  split
  · rename_i h
    exact ⟨fun _ ↦ h, fun _ ↦ Int.natCast_nonneg _⟩
  · rename_i h
    exact ⟨fun hnonneg ↦ by omega, fun hsmall ↦ absurd hsmall h⟩

/-- A ready version can be named exactly when it is below 2 ^ 63. -/
theorem exists_serves_iff (hconsistent : Consistent server.backends server.books.status)
    (hready : server.books.status.state? name version = some .ready) :
    (∃ selector, 0 ≤ selector ∧ server.Serves name selector version) ↔
      version.toNat < 2 ^ 63 := by
  constructor
  · rintro ⟨selector, hselector, hserves⟩
    have hnumber := toInt_of_serves hconsistent hselector hserves
    have hlt := selector.toInt_lt
    omega
  · intro hlt
    have hnonnegative := toInt64_nonneg_iff.2 hlt
    exact ⟨_, hnonnegative, serves_toInt64 hconsistent hready hnonnegative⟩

/-- How a ready version of a model is named by requests and by responses. -/
structure Numbered (server : State) (actions : List Action) (name : String) (version : UInt64) :
    Prop where
  named : (∃ selector, 0 ≤ selector ∧ server.Serves name selector version) ↔
    version.toNat < 2 ^ 63
  /-- A response reports the number of the version that served it, up to 2 ^ 64. -/
  reported : ∀ completion ∈ server.traffic.delivered, ∀ submission,
    (completion.ticket, submission) ∈ entered actions → submission.model = name →
    server.Serves name submission.selector version →
    ∀ header, completion.header = .ok header → header.version.toInt =
      if version.toNat < 2 ^ 63 then (version.toNat : Int) else version.toNat - 2 ^ 64

theorem version_of_header {completion : Completion} {header : Wire.ResponseHeader}
    (h : completion.header = .ok header) : header = completion.response.header := by
  obtain ⟨_, -, hheader⟩ := Outcome.bind_eq_ok_iff.1 h
  exact (Except.ok.inj hheader).symm

/-- A response reports the pattern of the version that its submission is resolved to. -/
theorem version_of_delivered (hmodels : SameModels start server)
    (hconsistent : Consistent start.backends start.books.status)
    (hsound : Sound start server actions) (hfresh : ((entered actions).map (·.1)).Nodup)
    {completion : Completion} (hcompletion : completion ∈ server.traffic.delivered)
    {submission : Submission} (hentered : (completion.ticket, submission) ∈ entered actions)
    (hserves : server.Serves submission.model submission.selector version)
    {header : Wire.ResponseHeader} (hheader : completion.header = .ok header) :
    header.version = version.toInt64 := by
  obtain ⟨backend, hresolve, hanswer⟩ := hsound.answer_of_delivered hfresh hcompletion hentered
  obtain ⟨found, hfound, hversion⟩ := hserves
  rw [hmodels.resolve, hresolve] at hfound
  obtain rfl := Except.ok.inj hfound
  rw [version_of_header hheader, Backend.version_of_answer hanswer,
    ((hmodels.consistent hconsistent).served hversion).2.1]

variable {files : Files.Tree} {registry : Platform.Registry} {freshId : String} {options : Options}

/-- In every reachable server exactly the ready versions below 2 ^ 63 can be named, and exactly
their responses report their own number. -/
theorem numbered_of_run (hcreate : State.create files registry freshId options = .ok start)
    (hrun : start.run actions = some server) (hfresh : ((entered actions).map (·.1)).Nodup)
    (hready : server.books.status.state? name version = some .ready) :
    Numbered server actions name version := by
  have hstart := State.consistent_of_create hcreate
  have hmodels := sameModels_of_run hrun
  have hsound := Sound.of_create hcreate hrun hfresh
  refine ⟨exists_serves_iff (hmodels.consistent hstart) hready, ?_⟩
  rintro completion hcompletion submission hentered rfl hserves header hheader
  rw [version_of_delivered hmodels hstart hsound hfresh hcompletion hentered hserves hheader,
    toInt_toInt64]

/-- A repository with one version of a model that copies a byte, in a directory of any name. -/
def shelfOf (directory : String) : Files.Tree where
  root := [("models", .directory [("echo", .directory [(directory, .directory []),
    ("config.json", .file (Bytes.ofText ("\x7b\"platform\": \"identity\"," ++
      "\"input\": [\x7b\"name\": \"in\", \"data_type\": \"UINT8\", \"dims\": [1]\x7d]," ++
      "\"output\": [\x7b\"name\": \"out\", \"data_type\": \"UINT8\", \"dims\": [1]\x7d]\x7d")))])])]
  current := []

/-- One submission to the latest version of that model, until it is delivered. -/
def byteRun (version : UInt64) : List Action :=
  [.enter 0 echoByte, .check 0, .accept 0, .watch 0, .start "echo" version, .work 0, .deliver 0]

/-- Whether a version is ready and the latest one, and has served a submission. -/
def State.hasServed (server : State) (version : UInt64) : Bool :=
  server.books.status.state? "echo" version = some .ready &&
    (server.resolve "echo" Submission.latest).toOption.any (·.version = version) &&
      server.traffic.delivered.any fun completion ↦
        completion.ticket = 0 && completion.header.toOption.isSome

theorem serves_of_hasServed (hconsistent : Consistent server.backends server.books.status)
    (h : server.hasServed version = true) :
    server.books.status.state? "echo" version = some .ready ∧
      server.Serves "echo" Submission.latest version ∧
      ∃ completion ∈ server.traffic.delivered, completion.ticket = 0 ∧
        ∃ header, completion.header = .ok header := by
  unfold State.hasServed at h
  simp only [Bool.and_eq_true, decide_eq_true_eq] at h
  obtain ⟨⟨hready, hlatest⟩, hdelivered⟩ := h
  refine ⟨hready, ?_, ?_⟩
  · obtain ⟨backend, hresolve, hnumber⟩ := Outcome.any_toOption_iff.1 hlatest
    obtain ⟨found, hfound, -⟩ := exists_version?_of_resolve hresolve
    obtain rfl : found = version :=
      (hconsistent.served hfound).2.1.symm.trans (of_decide_eq_true hnumber)
    exact ⟨backend, hresolve, hfound⟩
  · obtain ⟨completion, hcompletion, hchecked⟩ := List.any_eq_true.1 hdelivered
    obtain ⟨hticket, hheader⟩ := Bool.and_eq_true_iff.1 hchecked
    refine ⟨completion, hcompletion, of_decide_eq_true hticket, ?_⟩
    cases hok : completion.header with
    | error status => simp [hok, Except.toOption] at hheader
    | ok header => exact ⟨header, rfl⟩

/-- The greatest version with a signed number, in a directory whose name has a sign as well. -/
theorem numbered_of_run_greatest :
    ∃ start server, State.create (shelfOf "+9223372036854775807") .standard "shelf"
        { repository := "/models" } = .ok start ∧
      start.run (byteRun 9223372036854775807) = some server ∧
      (∃ selector, 0 ≤ selector ∧ server.Serves "echo" selector 9223372036854775807) ∧
      ∃ completion ∈ server.traffic.delivered, ∃ header, completion.header = .ok header ∧
        header.version.toInt = 9223372036854775807 := by
  have hchecked : ((State.create (shelfOf "+9223372036854775807") .standard "shelf"
      { repository := "/models" }).toOption.any fun start ↦
        (start.run (byteRun 9223372036854775807)).any fun server ↦
          server.hasServed 9223372036854775807) = true := by
    decide +kernel
  obtain ⟨start, server, hstart, hserver, hchecked⟩ := State.exists_run_of_any hchecked
  have hconsistent := (sameModels_of_run hserver).consistent (State.consistent_of_create hstart)
  obtain ⟨hready, hserves, completion, hcompletion, hticket, header, hheader⟩ :=
    serves_of_hasServed hconsistent hchecked
  have hnumbered := numbered_of_run hstart hserver (by decide) hready
  have hentered : (completion.ticket, echoByte) ∈ entered (byteRun 9223372036854775807) := by
    rw [hticket]
    exact List.mem_cons_self
  exact ⟨start, server, hstart, hserver, hnumbered.named.2 (by decide), completion, hcompletion,
    header, hheader,
    hnumbered.reported completion hcompletion echoByte hentered rfl hserves header hheader⟩

/-- The next version is ready and serves, but no request can name it, and its response reports a
negative number. -/
theorem unnumbered_of_run_next :
    ∃ start server, State.create (shelfOf "9223372036854775808") .standard "shelf"
        { repository := "/models" } = .ok start ∧
      start.run (byteRun 9223372036854775808) = some server ∧
      server.books.status.state? "echo" 9223372036854775808 = some .ready ∧
      server.Serves "echo" Submission.latest 9223372036854775808 ∧
      (¬ ∃ selector, 0 ≤ selector ∧ server.Serves "echo" selector 9223372036854775808) ∧
      ∃ completion ∈ server.traffic.delivered, ∃ header, completion.header = .ok header ∧
        header.version.toInt = -9223372036854775808 := by
  have hchecked : ((State.create (shelfOf "9223372036854775808") .standard "shelf"
      { repository := "/models" }).toOption.any fun start ↦
        (start.run (byteRun 9223372036854775808)).any fun server ↦
          server.hasServed 9223372036854775808) = true := by
    decide +kernel
  obtain ⟨start, server, hstart, hserver, hchecked⟩ := State.exists_run_of_any hchecked
  have hbefore := State.consistent_of_create hstart
  have hmodels := sameModels_of_run hserver
  have hconsistent := hmodels.consistent hbefore
  obtain ⟨hready, hserves, completion, hcompletion, hticket, header, hheader⟩ :=
    serves_of_hasServed hconsistent hchecked
  have hentered : (completion.ticket, echoByte) ∈ entered (byteRun 9223372036854775808) := by
    rw [hticket]
    exact List.mem_cons_self
  have hsound := Sound.of_create hstart hserver (by decide)
  have hversion := version_of_delivered hmodels hbefore hsound (by decide) hcompletion hentered
    hserves hheader
  refine ⟨start, server, hstart, hserver, hready, hserves, ?_, completion, hcompletion, header,
    hheader, ?_⟩
  · rw [exists_serves_iff hconsistent hready]
    decide
  · rw [hversion]
    rfl

end Server

end TensorInference
