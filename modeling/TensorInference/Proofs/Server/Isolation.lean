import TensorInference.Proofs.Model.Neighbours
import TensorInference.Proofs.Server.Aside
import TensorInference.Proofs.Server.Readiness

/-!
# A broken model does not disturb the others

Two servers are created over repositories that differ in what is there under one name. They tell the
same of every other model and resolve its versions in the same way. They answer the requests for
other models in the same way, whatever requests for the broken model come in between
(`indifferent_of_neighbours`).
-/

namespace TensorInference.Server

open Model Files Wire Inference

variable {broken : String}

theorem Backends.get?_eq {backends other : Backends} {name : String}
    (hversion : ∀ version, other.version? name version = backends.version? name version)
    (hbackends : ∀ versions, backends.get? name = some versions → versions.isEmpty = false)
    (hother : ∀ versions, other.get? name = some versions → versions.isEmpty = false) :
    other.get? name = backends.get? name := by
  unfold version? at hversion
  cases hleft : backends.get? name with
  | none =>
    cases hright : other.get? name with
    | none => rfl
    | some versions =>
      obtain ⟨version, backend, hbackend⟩ :=
        OrderedMap.isEmpty_eq_false_iff.1 (hother versions hright)
      have hsame := hversion version
      rw [hleft, hright, Option.bind_some, hbackend] at hsame
      cases hsame
  | some versions =>
    cases hright : other.get? name with
    | none =>
      obtain ⟨version, backend, hbackend⟩ :=
        OrderedMap.isEmpty_eq_false_iff.1 (hbackends versions hleft)
      have hsame := hversion version
      rw [hleft, hright, Option.bind_some, hbackend] at hsame
      cases hsame
    | some versions' =>
      refine congrArg some (OrderedMap.eq_of_get? fun version ↦ ?_)
      have hsame := hversion version
      rwa [hleft, hright] at hsame

/-- Whether a submission under a new ticket finds a server open and with room for it. -/
structure State.Admits (server : State) (ticket : Ticket) (submission : Submission) : Prop where
  unclosed : server.phase.isClosed = false
  new : server.traffic.IsNew ticket
  room : ∀ backend, server.resolve submission.model submission.selector = .ok backend →
    server.isFull backend = false

/-- Such a submission is refused only for what resolution and its backend find wrong with it. -/
theorem State.submit_of_admits {server : State} {ticket : Ticket} {submission : Submission}
    (h : server.Admits ticket submission) : (server.submit ticket submission).2 =
      (server.resolve submission.model submission.selector).bind fun backend ↦
        (backend.prepare submission).map fun _ ↦ () := by
  obtain ⟨hopen, hnew, hroom⟩ := h
  cases hresolve : server.resolve submission.model submission.selector with
  | error status =>
    have haccept := @accept_of_resolve_error
      (server.withEntrant ticket submission .passed) ticket submission status hresolve
    rw [submit_of_refuse hnew hopen haccept]
    rfl
  | ok backend =>
    rw [Except.bind]
    cases hprepare : backend.prepare submission with
    | error status =>
      obtain ⟨timer, haccept⟩ := @accept_of_prepare_error
        (server.withEntrant ticket submission .passed) ticket submission backend status hresolve
        hprepare
      rw [submit_of_refuse hnew hopen haccept]
      rfl
    | ok prepared =>
      obtain ⟨timer, haccept⟩ := @accept_of_prepare_ok
        (server.withEntrant ticket submission .passed) ticket submission backend prepared.1
        prepared.2 hresolve hprepare (Phase.ne_abandoned hopen) (hroom backend hresolve)
      rw [submit_of_enqueue hnew hopen rfl haccept]
      rfl

/-- What holds of two servers that differ in one model. -/
structure Indifferent (broken : String) (start other : State) : Prop where
  same : SameBeside broken start other
  /-- After any runs, a submission for another model is accepted by both or refused with the same
  status, where it finds both open and with room for it. -/
  submit : ∀ {actions actions' server server'}, start.run actions = some server →
    other.run actions' = some server' → ∀ {ticket ticket' submission}, submission.model ≠ broken →
      server.Admits ticket submission → server'.Admits ticket' submission →
        (server'.submit ticket' submission).2 = (server.submit ticket submission).2
  /-- After any runs, what was delivered for a submission is the same. -/
  answer : ∀ {actions actions' server server'}, start.run actions = some server →
    other.run actions' = some server' → ((entered actions).map (·.1)).Nodup →
      ((entered actions').map (·.1)).Nodup → ∀ completion ∈ server.traffic.delivered,
        ∀ completion' ∈ server'.traffic.delivered, ∀ submission,
          (completion.ticket, submission) ∈ entered actions →
          (completion'.ticket, submission) ∈ entered actions' → submission.model ≠ broken →
            completion'.status = completion.status ∧ completion'.response = completion.response
  /-- After runs that differ only in the requests for the broken model, everything is the same for
  the other ones: what is told of their models, what was refused and what was delivered. -/
  run : ∀ {actions actions' server server'}, start.run actions = some server →
    other.run actions' = some server' → ∀ aside : Ticket → Bool,
      (∀ arrival ∈ entered actions ++ entered actions',
        aside arrival.1 = decide (arrival.2.model = broken)) →
      actions'.filter (!·.isAside broken aside) = actions.filter (!·.isAside broken aside) →
        SameBeside broken server server' ∧ ∀ ticket, aside ticket = false →
          server'.traffic.refused? ticket = server.traffic.refused? ticket ∧
            server'.traffic.delivered? ticket = server.traffic.delivered? ticket

section

variable {files others : Tree} {registry : Platform.Registry} {freshId otherId : String}
  {options : Options} {start other : State} {entries entries' : Directory}
  {aside : Ticket → Bool}

/-- A created server that was sent nothing is without the requests for any model. -/
theorem Without.of_create (hstart : State.create files registry freshId options = .ok start)
    (hother : State.create others registry otherId options = .ok other)
    (hbackends : ∀ name, name ≠ broken → other.backends.get? name = start.backends.get? name)
    (hbooks : start.books.SameBeside broken other.books) : Without broken aside start other := by
  have hconsistent := State.consistent_of_create hstart
  obtain ⟨models, -, hserver⟩ := Outcome.bind_eq_ok_iff.1 hstart
  obtain rfl := Except.ok.inj hserver
  obtain ⟨models', -, hserver⟩ := Outcome.bind_eq_ok_iff.1 hother
  obtain rfl := Except.ok.inj hserver
  exact {
    options := rfl
    backends := hbackends
    books := hbooks
    traffic := .empty
    phase := rfl
    now := rfl
    named := fun _ _ _ hbackend ↦ (hconsistent.served hbackend).1
    told := ⟨List.forall_mem_nil _, List.forall_mem_nil _, List.forall_mem_nil _⟩
    givenUp := nofun }

theorem tables_of_neighbours
    (h : Repository.Neighbours broken options.repository files others entries entries')
    (hstart : State.create files registry freshId options = .ok start)
    (hother : State.create others registry otherId options = .ok other) (name : String)
    (hname : name ≠ broken) : other.backends.get? name = start.backends.get? name ∧
      other.books.status.models.get? name = start.books.status.models.get? name := by
  obtain ⟨models, hmodels, htable⟩ := State.tabulates_of_create hstart
  obtain ⟨models', hmodels', htable'⟩ := State.tabulates_of_create hother
  rw [Repository.scan_of_directory? h.found] at hmodels
  obtain rfl := Except.ok.inj hmodels
  rw [Repository.scan_of_directory? h.found_other] at hmodels'
  obtain rfl := Except.ok.inj hmodels'
  refine ⟨Backends.get?_eq (fun version ↦ ?_) (htable.inhabited name) (htable'.inhabited name),
    StatusTable.get?_eq ?_ fun version ↦ ?_⟩
  · rw [htable'.backend, htable.backend, h.loading?_eq hname]
  · rw [htable'.heading, htable.heading, Discovered.named_map_entries, Discovered.named_map_entries,
      h.models_eq hname]
  · rw [htable'.status, htable.status, h.loading?_eq hname]

/-- Over repositories that differ in what is there under one name, two servers are created that
differ in nothing but the model of that name. -/
theorem indifferent_of_neighbours
    (h : Repository.Neighbours broken options.repository files others entries entries')
    (registry : Platform.Registry) (freshId otherId : String) :
    ∃ start other, State.create files registry freshId options = .ok start ∧
      State.create others registry otherId options = .ok other ∧
        Indifferent broken start other := by
  have hcreated : ∀ {files entries} freshId, files.directory? options.repository = some entries →
      ∃ start, State.create files registry freshId options = .ok start := by
    intro files entries freshId hentries
    rw [State.create, Repository.scan_of_directory? hentries]
    exact ⟨_, rfl⟩
  obtain ⟨start, hstart⟩ := hcreated freshId h.found
  obtain ⟨other, hother⟩ := hcreated otherId h.found_other
  have htables := tables_of_neighbours h hstart hother
  have hwithout : ∀ aside, Without broken aside start other := fun aside ↦
    .of_create hstart hother (fun name hname ↦ (htables name hname).1)
      fun name hname ↦ (htables name hname).2
  have hself : ∀ aside, Without broken aside other other := fun aside ↦
    .of_create hother hother (fun _ _ ↦ rfl) fun _ _ ↦ rfl
  have hsame : SameBeside broken start other := (hwithout fun _ ↦ false).sameBeside
  refine ⟨start, other, hstart, hother, hsame, ?_, ?_, ?_⟩
  · intro actions actions' server server' hrun hrun' ticket ticket' submission hmodel hadmits hadmits'
    rw [State.submit_of_admits hadmits, State.submit_of_admits hadmits',
      (sameModels_of_run hrun).resolve, (sameModels_of_run hrun').resolve, hsame.resolve _ hmodel]
  · intro actions actions' server server' hrun hrun' hfresh hfresh' completion hcompletion completion'
      hcompletion' submission hentered hentered' hmodel
    have hsound := Sound.of_create hstart hrun hfresh
    have hsound' := Sound.of_create hother hrun' hfresh'
    obtain ⟨backend, hresolve, hanswer⟩ :=
      hsound.answer_of_delivered hfresh hcompletion hentered
    obtain ⟨backend', hresolve', hanswer'⟩ :=
      hsound'.answer_of_delivered hfresh' hcompletion' hentered'
    rw [hsame.resolve _ hmodel, hresolve] at hresolve'
    obtain rfl := Except.ok.inj hresolve'
    exact Prod.mk.inj (Except.ok.inj (hanswer'.symm.trans hanswer))
  · intro actions actions' server server' hrun hrun' aside hentered hactions
    obtain ⟨hentered, hentered'⟩ := List.forall_mem_append.1 hentered
    obtain ⟨last, hlast, hserver⟩ := (hwithout aside).run hrun hentered
    obtain ⟨last', hlast', hserver'⟩ := (hself aside).run hrun' hentered'
    obtain rfl : last' = last := by
      rw [hactions] at hlast'
      exact Option.some.inj (hlast'.symm.trans hlast)
    refine ⟨hserver.of_same hserver', fun ticket hkept ↦ ⟨?_, ?_⟩⟩
    · rw [← hserver'.traffic.refused?_eq hkept, hserver.traffic.refused?_eq hkept]
    · rw [← hserver'.traffic.delivered?_eq hkept, hserver.traffic.delivered?_eq hkept]

end

/-- The directory of a model whose output has a label. -/
def labelled : Directory :=
  [("3", .directory []), ("names", .file (Bytes.ofText "one")), ("config.json", .file
    (Bytes.ofText ("\x7b\"platform\": \"identity\"," ++
      "\"input\": [\x7b\"name\": \"in\", \"data_type\": \"UINT8\", \"dims\": [1]\x7d]," ++
      "\"output\": [\x7b\"name\": \"out\", \"data_type\": \"UINT8\", \"dims\": [1]," ++
      "\"label_filename\": \"names\"\x7d]\x7d")))]

/-- A repository with that model, and with a file beside it. -/
def mendedShelf : Tree where
  root := [("models", .directory [("echo", .directory labelled), ("zap", .file [])])]
  current := []

/-- A repository with that model, and with one that has no proper configuration. -/
def brokenShelf : Tree where
  root := [("models", .directory [("zap", .directory [("1", .link "/"), ("config.json",
    .file (Bytes.ofText "\x7b"))]), ("echo", .directory labelled)])]
  current := []

theorem indifferent_of_neighbours_shelves : ∃ entries entries',
    Repository.Neighbours "zap" "/models" mendedShelf brokenShelf entries entries' ∧
      ∃ start other, State.create mendedShelf .standard "a" { repository := "/models" } = .ok start ∧
        State.create brokenShelf .standard "b" { repository := "/models" } = .ok other ∧
          Indifferent "zap" start other := by
  have honly : ∀ name inner, (Name.text name, Entry.directory inner) ∈
      [(.text "echo", .directory labelled), (.text "zap", .file [])] →
        name = "echo" ∧ inner = labelled := by
    intro name inner hinner
    simpa using hinner
  have hlabels : (Repository.define mendedShelf "echo" (Path.join "/models" "echo")
      labelled).toOption.all (·.config.outputs.all (·.labelFile.all (· = "names"))) = true := by
    decide +kernel
  have hneighbours : Repository.Neighbours "zap" "/models" mendedShelf brokenShelf
      [("echo", .directory labelled), ("zap", .file [])]
      [("zap", .directory [("1", .link "/"), ("config.json", .file (Bytes.ofText "\x7b"))]),
        ("echo", .directory labelled)] := by
    refine ⟨rfl, rfl, by decide, by decide, fun name hname entry ↦ ?_, fun name inner hinner _ ↦ ?_,
      fun name inner hinner _ ↦ ?_, fun name inner definition hinner _ hdefine ↦ ?_⟩
    · simp [hname]
    · obtain ⟨rfl, rfl⟩ := honly name inner hinner
      decide
    · obtain ⟨rfl, rfl⟩ := honly name inner hinner
      intro name target
      simp [labelled]
    · obtain ⟨rfl, rfl⟩ := honly name inner hinner
      rw [hdefine] at hlabels
      intro output houtput file hfile
      have houtputs := List.all_eq_true.1 hlabels output houtput
      rw [hfile] at houtputs
      obtain rfl : file = "names" := of_decide_eq_true houtputs
      exact ⟨by decide, by decide, by decide, by decide⟩
  exact ⟨_, _, hneighbours, indifferent_of_neighbours hneighbours .standard "a" "b"⟩

end TensorInference.Server
