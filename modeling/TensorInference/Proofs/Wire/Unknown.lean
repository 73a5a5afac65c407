import TensorInference.Proofs.Json.Unknown
import TensorInference.Proofs.Wire.RoundTrip

/-!
# Messages with an unknown member

What callers send is read strictly and everything else leniently: a request header with a member
that nobody knows, in any of its records, is an invalid argument, while configurations, options,
status reports and response headers are read as if the member were not there. The layouts say which
objects of a message are records; the names of the others are data or tell alternatives apart.
Main statement: `meets_unknown_member`.
-/

namespace TensorInference

open Json

namespace Model

theorem Shape.follows {strict : Bool} : Shape.codec.Follows strict (.list .scalar) :=
  Codec.follows_integer64.list

theorem ElementType.follows {strict : Bool} : ElementType.codec.Follows strict .scalar :=
  Codec.follows_named _ _

/-- The layout of an input. -/
def Input.layout : Layout :=
  Input.format.layout [.scalar, .scalar, .list .scalar]

theorem Input.follows : Input.format.codec.Follows false Input.layout :=
  RecordFormat.follows (by decide)
    ⟨Codec.follows_text, ElementType.follows, Shape.follows, trivial⟩

/-- The layout of an output. -/
def Output.layout : Layout :=
  Output.format.layout [.scalar, .scalar, .list .scalar, .scalar]

theorem Output.follows : Output.format.codec.Follows false Output.layout :=
  RecordFormat.follows (by decide)
    ⟨Codec.follows_text, ElementType.follows, Shape.follows, Codec.follows_text.option, trivial⟩

namespace VersionPolicy

/-- The layout of a policy: two of the names come with a record. -/
def layout : Layout :=
  .tagged [("latest", latestFormat.layout [.scalar]),
    ("specific", specificFormat.layout [.list .scalar])]

theorem follows_latest : latestFormat.codec.Follows false (latestFormat.layout [.scalar]) :=
  RecordFormat.follows (by decide) ⟨Codec.follows_word32, trivial⟩

theorem follows_specific :
    specificFormat.codec.Follows false (specificFormat.layout [.list .scalar]) :=
  RecordFormat.follows (by decide) ⟨Codec.follows_word64.list, trivial⟩

theorem follows : VersionPolicy.codec.Follows false layout := by
  refine Codec.Alternative.follows (fun policy ↦ ?_) ?_
  · cases policy with
    | latest count =>
      exact ⟨⟨_, .variant List.mem_cons_self, follows_latest.covered count⟩, trivial⟩
    | all => trivial
    | specific versions =>
      exact ⟨⟨_, .variant (List.mem_cons_of_mem _ List.mem_cons_self),
        follows_specific.covered versions⟩, trivial⟩
  · refine List.forall_mem_cons.2 ⟨?_, List.forall_mem_singleton.2 ?_⟩
    · rintro alternative ⟨⟩
      exact Codec.Alternative.follows_withContent follows_latest _ _ latest
    · rintro alternative ⟨⟩
      exact Codec.Alternative.follows_withContent follows_specific _ _ specific

end VersionPolicy

/-- The layout of a configuration. -/
def Config.layout : Layout :=
  Config.format.layout [.scalar, .scalar, .scalar, .list Input.layout, .list Output.layout,
    VersionPolicy.layout, .scalar]

theorem Config.follows : Config.codec.Follows false Config.layout :=
  RecordFormat.follows (by decide)
    ⟨Codec.follows_text, Codec.follows_text, Codec.follows_word32, Input.follows.list,
      Output.follows.list, VersionPolicy.follows, Codec.follows_word32, trivial⟩

end Model

/-- The layout of options. -/
def Server.Options.layout : Layout :=
  Server.Options.format.layout [.scalar, .scalar, .scalar, .scalar, .scalar, .scalar, .scalar]

theorem Server.Options.follows : Server.Options.codec.Follows false Server.Options.layout :=
  RecordFormat.follows (by decide)
    ⟨Codec.follows_path, Codec.follows_text, Codec.follows_boolean, Codec.follows_word64,
      Codec.follows_size, Codec.follows_size, Codec.follows_boolean, trivial⟩

namespace Wire

/-- The layout of an input of a request. -/
def RequestInput.layout : Layout :=
  RequestInput.format.layout [.scalar, .list .scalar, .scalar]

theorem RequestInput.follows : RequestInput.format.codec.Follows true RequestInput.layout :=
  RecordFormat.follows (by decide)
    ⟨Codec.follows_text, Model.Shape.follows, Codec.follows_word64, trivial⟩

/-- The layout of a wish for classes. -/
def classesLayout : Layout :=
  classesFormat.layout [.scalar]

theorem follows_classes : classesFormat.codec.Follows true classesLayout :=
  RecordFormat.follows (by decide) ⟨Codec.follows_word32, trivial⟩

/-- The layout of a wanted output. -/
def RequestOutput.layout : Layout :=
  RequestOutput.format.layout [.scalar, classesLayout]

theorem RequestOutput.follows : RequestOutput.format.codec.Follows true RequestOutput.layout :=
  RecordFormat.follows (by decide) ⟨Codec.follows_text, follows_classes.option, trivial⟩

/-- The layout of a request header. -/
def RequestHeader.layout : Layout :=
  RequestHeader.format.layout
    [.scalar, .scalar, .list RequestInput.layout, .list RequestOutput.layout]

theorem RequestHeader.follows : RequestHeader.format.codec.Follows true RequestHeader.layout :=
  RecordFormat.follows (by decide)
    ⟨Codec.follows_word64, Codec.follows_word32, RequestInput.follows.list,
      RequestOutput.follows.list, trivial⟩

/-- The layout of a tally. -/
def Tally.layout : Layout :=
  Tally.format.layout [.scalar, .scalar]

theorem Tally.follows : Tally.format.codec.Follows false Tally.layout :=
  RecordFormat.follows (by decide) ⟨Codec.follows_word64, Codec.follows_word64, trivial⟩

/-- The layout of the statistics of a batch size. -/
def BatchStatistics.layout : Layout :=
  BatchStatistics.format.layout [Tally.layout, Tally.layout, Tally.layout, Tally.layout]

theorem BatchStatistics.follows :
    BatchStatistics.format.codec.Follows false BatchStatistics.layout :=
  RecordFormat.follows (by decide)
    ⟨Tally.follows, Tally.follows, Tally.follows, Tally.follows, trivial⟩

/-- The layout of the status of a version. -/
def VersionStatus.layout : Layout :=
  VersionStatus.format.layout [.scalar, .scalar, .map BatchStatistics.layout, .scalar, .scalar]

theorem VersionStatus.follows : VersionStatus.format.codec.Follows false VersionStatus.layout :=
  RecordFormat.follows (by decide)
    ⟨Codec.follows_named _ _, Codec.follows_text.option, BatchStatistics.follows.map,
      Codec.follows_word64, Codec.follows_word64, trivial⟩

/-- The layout of the status of a model. -/
def ModelStatus.layout : Layout :=
  ModelStatus.format.layout [Model.Config.layout, .scalar, .map VersionStatus.layout]

theorem ModelStatus.follows : ModelStatus.format.codec.Follows false ModelStatus.layout :=
  RecordFormat.follows (by decide)
    ⟨Model.Config.follows.option, Codec.follows_text.option, VersionStatus.follows.map, trivial⟩

/-- The layout of a status report. -/
def ServerStatus.layout : Layout :=
  ServerStatus.format.layout [.scalar, .scalar, .scalar, .scalar, .map ModelStatus.layout]

theorem ServerStatus.follows : ServerStatus.format.codec.Follows false ServerStatus.layout :=
  RecordFormat.follows (by decide)
    ⟨Codec.follows_text, Codec.follows_text, Codec.follows_named _ _, Codec.follows_word64,
      ModelStatus.follows.map, trivial⟩

/-- The layout of a description of a tensor. -/
def RawOutput.layout : Layout :=
  RawOutput.format.layout [.list .scalar, .scalar]

theorem RawOutput.follows : RawOutput.format.codec.Follows false RawOutput.layout :=
  RecordFormat.follows (by decide) ⟨Model.Shape.follows, Codec.follows_word64, trivial⟩

/-- The layout of a class. -/
def ClassScore.layout : Layout :=
  ClassScore.format.layout [.scalar, .scalar, .scalar]

theorem ClassScore.follows : ClassScore.format.codec.Follows false ClassScore.layout :=
  RecordFormat.follows (by decide)
    ⟨Codec.follows_word32, Codec.follows_single, Codec.follows_text, trivial⟩

/-- The layout of the classes of one batch item. -/
def itemClassesLayout : Layout :=
  itemClassesFormat.layout [.list ClassScore.layout]

theorem follows_itemClasses : itemClassesFormat.codec.Follows false itemClassesLayout :=
  RecordFormat.follows (by decide) ⟨ClassScore.follows.list, trivial⟩

/-- The layout of an output. -/
def ResponseOutput.layout : Layout :=
  ResponseOutput.format.layout [.scalar, RawOutput.layout, .list itemClassesLayout]

theorem ResponseOutput.follows : ResponseOutput.format.codec.Follows false ResponseOutput.layout :=
  RecordFormat.follows (by decide)
    ⟨Codec.follows_text, RawOutput.follows.option, follows_itemClasses.list, trivial⟩

/-- The layout of a response header. -/
def ResponseHeader.layout : Layout :=
  ResponseHeader.format.layout [.scalar, .scalar, .scalar, .scalar, .list ResponseOutput.layout]

theorem ResponseHeader.follows :
    ResponseHeader.format.codec.Follows false ResponseHeader.layout :=
  RecordFormat.follows (by decide)
    ⟨Codec.follows_word64, Codec.follows_text, Codec.follows_integer64, Codec.follows_word32,
      ResponseOutput.follows.list, trivial⟩

/-- What comes of reading a written value with an unknown member in one of its records, at any
depth and between any two members. -/
structure Meets {α ε : Type} (codec : Codec α) (layout : Layout) (read : Bytes → Except ε α)
    (a : α) (result : String → List String → Except ε α) : Prop where
  /-- Every list and every object that is written has its place in the layout. -/
  covered : (codec.encode a).Covered layout
  /-- Something is added to the written text at one place. -/
  added : ∀ {key : String} {names : List String} {text : Bytes},
    InsertedText key names layout (codec.encode a) text →
      ∃ before added after, codec.write a = before ++ after ∧ text = before ++ added ++ after
  read : ∀ {key : String} {names : List String} {text : Bytes},
    InsertedText key names layout (codec.encode a) text → read text = result key names

section Reading

variable {α ε : Type} {layout : Layout} {a : α}

/-- A message that is read strictly is refused for the unknown member. -/
theorem Message.meets_of_strict {message : Message α} (h : message.codec.Follows true layout)
    (ha : message.codec.Returns a) :
    Meets message.codec layout message.read a fun key names ↦ .error (.invalidArg
      ("failed to parse " ++ message.title ++ ": " ++ (Fault.unknownField key names).message)) where
  covered := h.covered a
  added htext := htext.exists_added
  read htext := by
    rw [Message.read, h.read ha.wellFormed (fun _ ↦ ⟨a, ha.read⟩) htext]
    rfl

/-- What depends on nothing but what is read leniently is the same without the unknown member. -/
theorem Meets.of_lenient {codec : Codec α} {read : Bytes → Except ε α}
    (hread : ∀ {text other}, codec.read text = codec.read other → read text = read other)
    (h : codec.Follows false layout) (ha : (codec.encode a).WellFormed) :
    Meets codec layout read a fun _ _ ↦ read (codec.write a) where
  covered := h.covered a
  added htext := htext.exists_added
  read htext := hread (h.read ha nofun htext)

theorem Message.meets_of_lenient {message : Message α} (h : message.codec.Follows false layout)
    (ha : (message.codec.encode a).WellFormed) :
    Meets message.codec layout message.read a fun _ _ ↦ message.read (message.write a) :=
  Meets.of_lenient (fun hread ↦ by rw [Message.read, hread, Message.read]) h ha

end Reading

/-- An unknown member in any record of a request header is told in an invalid argument; in all
other messages it makes no difference, and they are read as they were written, a response header if
its scores are numbers whose texts are read back. -/
theorem meets_unknown_member :
    (∀ header : RequestHeader, Meets RequestHeader.message.codec RequestHeader.layout
      RequestHeader.message.read header fun key names ↦ .error (.invalidArg
        ("failed to parse InferRequestHeader: " ++ (Fault.unknownField key names).message))) ∧
    (∀ config : Model.Config, Meets Model.Config.codec Model.Config.layout
      Model.Config.read config fun _ _ ↦ .ok config) ∧
    (∀ options : Server.Options, Meets Server.Options.codec Server.Options.layout
      Server.Options.codec.read options fun _ _ ↦ .ok options) ∧
    (∀ status : ServerStatus, Meets ServerStatus.message.codec ServerStatus.layout
      ServerStatus.message.read status fun _ _ ↦ .ok status) ∧
    ∀ header : ResponseHeader,
      Meets ResponseHeader.message.codec ResponseHeader.layout ResponseHeader.message.read header
        (fun _ _ ↦ ResponseHeader.message.read (ResponseHeader.message.write header)) ∧
      ((∀ score ∈ header.scores, Binary.single.isFinite score.toNat) →
        (∀ score ∈ header.scores, Binary.single.isFinite score.toNat →
          Codec.single.read (Codec.single.write score) = .ok score) →
        Meets ResponseHeader.message.codec ResponseHeader.layout ResponseHeader.message.read header
          fun _ _ ↦ .ok header) := by
  refine ⟨fun header ↦ Message.meets_of_strict RequestHeader.follows header.returns,
    fun config ↦ ?_, fun options ↦ ?_, fun status ↦ ?_, fun header ↦ ?_⟩
  · have hmeets := @Meets.of_lenient _ _ _ config Model.Config.codec Model.Config.read
      (fun hread ↦ by rw [Model.Config.read, hread, Model.Config.read])
      Model.Config.follows config.returns.wellFormed
    have hread : Model.Config.read (Model.Config.codec.write config) = .ok config := by
      rw [Model.Config.read, config.returns.read]
    rwa [hread] at hmeets
  · have hmeets := Meets.of_lenient id Server.Options.follows options.returns.wellFormed
    rwa [options.returns.read] at hmeets
  · have hmeets := @Message.meets_of_lenient _ _ _ ServerStatus.message ServerStatus.follows
      status.returns.wellFormed
    rwa [Message.read_write status.returns] at hmeets
  · have hmeets := @Message.meets_of_lenient _ _ header ResponseHeader.message
      ResponseHeader.follows (RecordFormat.wellFormed header.legible)
    refine ⟨hmeets, fun hfinite hread ↦ ?_⟩
    have hreturns := ResponseHeader.returns fun score hscore ↦ Codec.returns_of_read
      (Codec.wellFormed_single score) (hread score hscore (hfinite score hscore))
    rwa [@Message.read_write _ ResponseHeader.message header hreturns] at hmeets

/-! ## A member more -/

/-- A member after a blank, with a list as its value. -/
def furtherMember : MemberText where
  before := [0x20]
  key := Bytes.ofText "k"
  after := []
  value := Bytes.ofText "[null]"

theorem isMember_furtherMember : furtherMember.IsMember "k" where
  before := List.forall_mem_singleton.2 (by decide)
  key := .plain (by decide) (by decide) (by decide) .nil
  after := blank_nil
  value := .array blank_nil (List.forall_mem_singleton.2 .null)

/-- A request for the best class of an output. -/
def bestWish : RequestHeader where
  id := 0
  batch := 1
  inputs := []
  outputs := [{ name := "o", classes := some 1 }]

/-- The text of the request with the member in its innermost record. -/
def bestWishText : Bytes :=
  Bytes.ofText ("\x7b\"id\":0,\"batch_size\":1,\"input\":[],\"output\":[\x7b\"name\":\"o\"," ++
    "\"cls\":\x7b\"count\":1, \"k\":[null]\x7d\x7d]\x7d")

theorem insertedText_bestWish : InsertedText "k" ["count"] RequestHeader.layout
    (RequestHeader.message.codec.encode bestWish) bestWishText := by
  have hclasses : InsertedText "k" ["count"] classesLayout (classesFormat.codec.encode 1) _ :=
    @InsertedText.here _ _ _ [("count", .number (.ofNat 1))] [] _ (by decide) isMember_furtherMember
  have houtput : InsertedText "k" ["count"] RequestOutput.layout
      (RequestOutput.format.codec.encode { name := "o", classes := some 1 }) _ :=
    @InsertedText.member _ _ _ _ [("name", .string "o")] [] "cls" _ _
      (.field (List.mem_cons_of_mem _ List.mem_cons_self)) hclasses
  have hheader := @InsertedText.member _ _ RequestHeader.layout _
    [("id", .number (.ofNat 0)), ("batch_size", .number (.ofNat 1)), ("input", .array [])] []
    "output" _ _ (.field (by simp [RequestHeader.format, Fields.names]))
    (@InsertedText.item _ _ _ [] [] _ _ houtput)
  exact hheader

/-- The best class of the output, scored one. -/
def bestAnswer : ResponseHeader where
  id := 1
  model := "m"
  version := 1
  batch := 1
  outputs := [{ name := "o", raw := none, classes := [[⟨0, 0x3f800000, ""⟩]] }]

/-- The text of the answer with the member in its innermost record. -/
def bestAnswerText : Bytes :=
  Bytes.ofText ("\x7b\"id\":1,\"model_name\":\"m\",\"model_version\":1,\"batch_size\":1," ++
    "\"output\":[\x7b\"name\":\"o\",\"batch_classes\":[\x7b\"cls\":[\x7b\"idx\":0, \"k\":[null]," ++
    "\"value\":1.0\x7d]\x7d]\x7d]\x7d")

theorem insertedText_bestAnswer : InsertedText "k" ["idx", "value", "label"] ResponseHeader.layout
    (ResponseHeader.message.codec.encode bestAnswer) bestAnswerText := by
  have hscore : InsertedText "k" ["idx", "value", "label"] ClassScore.layout
      (ClassScore.format.codec.encode ⟨0, 0x3f800000, ""⟩) _ :=
    @InsertedText.here _ _ _ [("idx", .number (.ofNat 0))]
      [("value", Codec.single.encode 0x3f800000)] _ (by decide) isMember_furtherMember
  have hitem : InsertedText "k" ["idx", "value", "label"] itemClassesLayout
      (itemClassesFormat.codec.encode [⟨0, 0x3f800000, ""⟩]) _ :=
    @InsertedText.member _ _ _ _ [] [] "cls" _ _ (.field List.mem_cons_self)
      (@InsertedText.item _ _ _ [] [] _ _ hscore)
  have houtput : InsertedText "k" ["idx", "value", "label"] ResponseOutput.layout
      (ResponseOutput.format.codec.encode ⟨"o", none, [[⟨0, 0x3f800000, ""⟩]]⟩) _ :=
    @InsertedText.member _ _ _ _ [("name", .string "o")] [] "batch_classes" _ _
      (.field (by simp [ResponseOutput.format, Fields.names]))
      (@InsertedText.item _ _ _ [] [] _ _ hitem)
  have hheader : InsertedText "k" ["idx", "value", "label"] ResponseHeader.layout
      (ResponseHeader.message.codec.encode bestAnswer) _ :=
    @InsertedText.member _ _ ResponseHeader.layout _
      [("id", .number (.ofNat 1)), ("model_name", .string "m"),
        ("model_version", .number (.ofInt 1)), ("batch_size", .number (.ofNat 1))] [] "output" _ _
      (.field (by simp [ResponseHeader.format, Fields.names]))
      (@InsertedText.item _ _ _ [] [] _ _ houtput)
  convert hheader using 1
  decide +kernel

/-- The request is refused and the answer is read. -/
theorem meets_unknown_member_further :
    InsertedText "k" ["count"] RequestHeader.layout
        (RequestHeader.message.codec.encode bestWish) bestWishText ∧
      RequestHeader.message.read bestWishText = .error (.invalidArg
        ("failed to parse InferRequestHeader: " ++ (Fault.unknownField "k" ["count"]).message)) ∧
      InsertedText "k" ["idx", "value", "label"] ResponseHeader.layout
        (ResponseHeader.message.codec.encode bestAnswer) bestAnswerText ∧
      Binary.single.isFinite 0x3f800000 ∧
      Codec.single.read (Codec.single.write 0x3f800000) = .ok 0x3f800000 ∧
      ResponseHeader.message.read bestAnswerText = .ok bestAnswer := by
  obtain ⟨hrequest, -, -, -, hresponse⟩ := meets_unknown_member
  have hone : Codec.single.read (Codec.single.write 0x3f800000) = .ok 0x3f800000 := by
    decide +kernel
  have hfinite : ∀ score ∈ bestAnswer.scores, Binary.single.isFinite score.toNat :=
    List.forall_mem_singleton.2 (by decide)
  have hread := (hresponse bestAnswer).2 hfinite (List.forall_mem_singleton.2 fun _ ↦ hone)
  exact ⟨insertedText_bestWish, (hrequest bestWish).read insertedText_bestWish,
    insertedText_bestAnswer, by decide, hone, hread.read insertedText_bestAnswer⟩

end Wire

end TensorInference
