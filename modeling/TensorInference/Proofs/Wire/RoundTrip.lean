import TensorInference.Model.Config
import TensorInference.Proofs.Json.Record
import TensorInference.Server.Options
import TensorInference.Wire.RequestHeader
import TensorInference.Wire.ResponseHeader
import TensorInference.Wire.ServerStatus

/-!
# Messages that are read as they were written

Every record that is exchanged or stored as a text is read back from its own text. The proofs
follow the nesting of the records: each one cites its fields, and a field that may be left out is
left out exactly when it has the value of a missing one. The scores of classes are the only
numbers that are not integers; a response is read back if each of its scores is.
Main statement: `read_write_messages`.
-/

namespace TensorInference

open Json

theorem absent_of_isNone {α : Type} {a? : Option α} (h : a?.isNone) : some none = some a? :=
  congrArg some (Option.isNone_iff_eq_none.1 h).symm

theorem absent_of_isEmpty {α : Type} {as : List α} (h : as.isEmpty) : some [] = some as :=
  congrArg some (List.isEmpty_iff.1 h).symm

theorem absent_of_text_isEmpty {text : String} (h : text.isEmpty) : some "" = some text :=
  congrArg some (String.isEmpty_iff.1 h).symm

namespace Model

theorem Shape.returns (shape : Shape) : Shape.codec.Returns shape :=
  Codec.returns_list fun size _ => Codec.returns_integer64 size

theorem ElementType.returns (type : ElementType) : ElementType.codec.Returns type :=
  Codec.returns_named (by decide) (mem_all type)

theorem Input.returns (input : Input) : Input.format.codec.Returns input :=
  RecordFormat.returns ⟨by decide, fun _ => rfl⟩
    ⟨Codec.returns_text _, nofun, ElementType.returns _, nofun, Shape.returns _, nofun, trivial⟩

theorem Output.returns (output : Output) : Output.format.codec.Returns output :=
  RecordFormat.returns ⟨by decide, fun _ => rfl⟩
    ⟨Codec.returns_text _, nofun, ElementType.returns _, nofun, Shape.returns _, nofun,
      Codec.returns_option (fun file _ => Codec.returns_text file) nofun, absent_of_isNone, trivial⟩

theorem VersionPolicy.returns (policy : VersionPolicy) : VersionPolicy.codec.Returns policy := by
  cases policy with
  | latest count =>
    have hcontent : latestFormat.codec.Returns count :=
      RecordFormat.returns ⟨by decide, fun _ => rfl⟩ ⟨Codec.returns_word32 _, nofun, trivial⟩
    exact ⟨⟨hcontent.wellFormed, trivial⟩,
      Codec.Alternative.decode_single rfl (congrArg (latest <$> ·) hcontent.decode)⟩
  | all => exact ⟨trivial, rfl⟩
  | specific versions =>
    have hcontent : specificFormat.codec.Returns versions :=
      RecordFormat.returns ⟨by decide, fun _ => rfl⟩
        ⟨Codec.returns_list fun version _ => Codec.returns_word64 version, nofun, trivial⟩
    exact ⟨⟨hcontent.wellFormed, trivial⟩,
      Codec.Alternative.decode_single rfl (congrArg (specific <$> ·) hcontent.decode)⟩

theorem Config.returns (config : Config) : Config.codec.Returns config :=
  RecordFormat.returns ⟨by decide, fun _ => rfl⟩
    ⟨Codec.returns_text _, nofun, Codec.returns_text _, nofun, Codec.returns_word32 _, nofun,
      Codec.returns_list fun input _ => input.returns, nofun,
      Codec.returns_list fun output _ => output.returns, nofun,
      VersionPolicy.returns _, nofun, Codec.returns_word32 _, nofun, trivial⟩

end Model

theorem Server.Options.returns (options : Server.Options) : Server.Options.codec.Returns options :=
  RecordFormat.returns ⟨by decide, fun _ => rfl⟩
    ⟨Codec.returns_path _, nofun, Codec.returns_text _, nofun, Codec.returns_boolean _, nofun,
      Codec.returns_word64 _, nofun, Codec.returns_size _, nofun, Codec.returns_size _, nofun,
      Codec.returns_boolean _, nofun, trivial⟩

namespace Wire

theorem RequestInput.returns (input : RequestInput) : RequestInput.format.codec.Returns input :=
  RecordFormat.returns ⟨by decide, fun _ => rfl⟩
    ⟨Codec.returns_text _, nofun, Model.Shape.returns _, absent_of_isEmpty,
      Codec.returns_word64 _, nofun, trivial⟩

theorem returns_classes (count : UInt32) : classesFormat.codec.Returns count :=
  RecordFormat.returns ⟨by decide, fun _ => rfl⟩ ⟨Codec.returns_word32 _, nofun, trivial⟩

theorem RequestOutput.returns (output : RequestOutput) :
    RequestOutput.format.codec.Returns output :=
  RecordFormat.returns ⟨by decide, fun _ => rfl⟩
    ⟨Codec.returns_text _, nofun,
      Codec.returns_option (fun count _ => returns_classes count) RecordFormat.encode_ne_null,
      absent_of_isNone, trivial⟩

theorem RequestHeader.returns (header : RequestHeader) :
    RequestHeader.format.codec.Returns header :=
  RecordFormat.returns ⟨by decide, fun _ => rfl⟩
    ⟨Codec.returns_word64 _, nofun, Codec.returns_word32 _, nofun,
      Codec.returns_list fun input _ => input.returns, nofun,
      Codec.returns_list fun output _ => output.returns, nofun, trivial⟩

theorem ServerState.returns (state : ServerState) : ServerState.codec.Returns state :=
  Codec.returns_named (by decide) (by cases state <;> decide)

theorem VersionState.returns (state : VersionState) : VersionState.codec.Returns state :=
  Codec.returns_named (by decide) (by cases state <;> decide)

theorem Tally.returns (tally : Tally) : Tally.format.codec.Returns tally :=
  RecordFormat.returns ⟨by decide, fun _ => rfl⟩
    ⟨Codec.returns_word64 _, nofun, Codec.returns_word64 _, nofun, trivial⟩

theorem BatchStatistics.returns (statistics : BatchStatistics) :
    BatchStatistics.format.codec.Returns statistics :=
  RecordFormat.returns ⟨by decide, fun _ => rfl⟩
    ⟨Tally.returns _, nofun, Tally.returns _, nofun, Tally.returns _, nofun, Tally.returns _, nofun,
      trivial⟩

theorem VersionStatus.returns (version : VersionStatus) :
    VersionStatus.format.codec.Returns version :=
  RecordFormat.returns ⟨by decide, fun _ => rfl⟩
    ⟨VersionState.returns _, nofun,
      Codec.returns_option (fun reason _ => Codec.returns_text reason) nofun, absent_of_isNone,
      Codec.returns_map Codec.Key.returns_word32 fun entry _ => entry.2.returns, nofun,
      Codec.returns_word64 _, nofun, Codec.returns_word64 _, nofun, trivial⟩

theorem ModelStatus.returns (model : ModelStatus) : ModelStatus.format.codec.Returns model :=
  RecordFormat.returns ⟨by decide, fun _ => rfl⟩
    ⟨Codec.returns_option (fun config _ => config.returns) RecordFormat.encode_ne_null,
      absent_of_isNone,
      Codec.returns_option (fun reason _ => Codec.returns_text reason) nofun, absent_of_isNone,
      Codec.returns_map Codec.Key.returns_word64 fun entry _ => entry.2.returns, nofun, trivial⟩

theorem ServerStatus.returns (status : ServerStatus) : ServerStatus.format.codec.Returns status :=
  RecordFormat.returns ⟨by decide, fun _ => rfl⟩
    ⟨Codec.returns_text _, nofun, Codec.returns_text _, nofun, ServerState.returns _, nofun,
      Codec.returns_word64 _, nofun,
      Codec.returns_map Codec.Key.returns_text fun entry _ => entry.2.returns, nofun, trivial⟩

theorem RawOutput.returns (raw : RawOutput) : RawOutput.format.codec.Returns raw :=
  RecordFormat.returns ⟨by decide, fun _ => rfl⟩
    ⟨Model.Shape.returns _, nofun, Codec.returns_word64 _, nofun, trivial⟩

theorem ClassScore.returns {entry : ClassScore} (h : Codec.single.Returns entry.score) :
    ClassScore.format.codec.Returns entry :=
  RecordFormat.returns ⟨by decide, fun _ => rfl⟩
    ⟨Codec.returns_word32 _, nofun, h, nofun, Codec.returns_text _, absent_of_text_isEmpty, trivial⟩

theorem returns_itemClasses {entries : List ClassScore}
    (h : ∀ entry ∈ entries, Codec.single.Returns entry.score) :
    itemClassesFormat.codec.Returns entries :=
  RecordFormat.returns ⟨by decide, fun _ => rfl⟩
    ⟨Codec.returns_list fun entry hentry => ClassScore.returns (h entry hentry), nofun, trivial⟩

theorem ResponseOutput.returns {output : ResponseOutput}
    (h : ∀ entries ∈ output.classes, ∀ entry ∈ entries, Codec.single.Returns entry.score) :
    ResponseOutput.format.codec.Returns output :=
  RecordFormat.returns ⟨by decide, fun _ => rfl⟩
    ⟨Codec.returns_text _, nofun,
      Codec.returns_option (fun raw _ => raw.returns) RecordFormat.encode_ne_null, absent_of_isNone,
      Codec.returns_list fun entries hentries => returns_itemClasses (h entries hentries),
      absent_of_isEmpty, trivial⟩

/-! Whatever its scores are, a response header is written within the grammar. -/

theorem ClassScore.legible (entry : ClassScore) : ClassScore.format.fields.Legible entry :=
  ⟨(Codec.returns_word32 _).wellFormed, Codec.wellFormed_single _,
    (Codec.returns_text _).wellFormed, trivial⟩

theorem legible_itemClasses (entries : List ClassScore) :
    itemClassesFormat.fields.Legible entries :=
  ⟨Codec.wellFormed_list fun entry _ => RecordFormat.wellFormed entry.legible, trivial⟩

theorem ResponseOutput.legible (output : ResponseOutput) :
    ResponseOutput.format.fields.Legible output :=
  ⟨(Codec.returns_text _).wellFormed,
    (Codec.returns_option (fun raw _ => raw.returns) RecordFormat.encode_ne_null).wellFormed,
    Codec.wellFormed_list fun entries _ => RecordFormat.wellFormed (legible_itemClasses entries),
    trivial⟩

theorem ResponseHeader.legible (header : ResponseHeader) :
    ResponseHeader.format.fields.Legible header :=
  ⟨(Codec.returns_word64 _).wellFormed, (Codec.returns_text _).wellFormed,
    (Codec.returns_integer64 _).wellFormed, (Codec.returns_word32 _).wellFormed,
    Codec.wellFormed_list fun output _ => RecordFormat.wellFormed output.legible, trivial⟩

/-- The scores of all classes that a response lists. -/
def ResponseHeader.scores (header : ResponseHeader) : List UInt32 :=
  header.outputs.flatMap fun output => output.classes.flatten.map (·.score)

theorem ResponseHeader.mem_scores {header : ResponseHeader} {score : UInt32} :
    score ∈ header.scores ↔
      ∃ output ∈ header.outputs, ∃ entries ∈ output.classes, ∃ entry ∈ entries,
        entry.score = score := by
  simp only [ResponseHeader.scores, List.mem_flatMap, List.mem_map, List.mem_flatten]
  constructor
  · rintro ⟨output, houtput, entry, ⟨entries, hentries, hentry⟩, rfl⟩
    exact ⟨output, houtput, entries, hentries, entry, hentry, rfl⟩
  · rintro ⟨output, houtput, entries, hentries, entry, hentry, rfl⟩
    exact ⟨output, houtput, entry, ⟨entries, hentries, hentry⟩, rfl⟩

theorem ResponseHeader.returns {header : ResponseHeader}
    (h : ∀ score ∈ header.scores, Codec.single.Returns score) :
    ResponseHeader.format.codec.Returns header := by
  refine RecordFormat.returns ⟨by decide, fun _ => rfl⟩
    ⟨Codec.returns_word64 _, nofun, Codec.returns_text _, nofun, Codec.returns_integer64 _, nofun,
      Codec.returns_word32 _, nofun, Codec.returns_list fun output houtput => ?_, nofun, trivial⟩
  exact ResponseOutput.returns fun entries hentries entry hentry => h entry.score
    (ResponseHeader.mem_scores.2 ⟨output, houtput, entries, hentries, entry, hentry, rfl⟩)

theorem Message.read_write {α : Type} {message : Message α} {a : α}
    (h : message.codec.Returns a) : message.read (message.write a) = .ok a := by
  rw [read, write, h.read]

/-- Every message is read as it was written; a response header is if its scores are numbers whose
texts are read back. -/
theorem read_write_messages :
    (∀ header : RequestHeader,
      RequestHeader.message.read (RequestHeader.message.write header) = .ok header) ∧
    (∀ status : ServerStatus,
      ServerStatus.message.read (ServerStatus.message.write status) = .ok status) ∧
    (∀ config : Model.Config,
      Model.Config.read (Model.Config.codec.write config) = .ok config) ∧
    (∀ options : Server.Options,
      Server.Options.codec.read (Server.Options.codec.write options) = .ok options) ∧
    ∀ header : ResponseHeader,
      (∀ score ∈ header.scores, Binary.single.isFinite score.toNat) →
      (∀ score ∈ header.scores, Binary.single.isFinite score.toNat →
        Codec.single.read (Codec.single.write score) = .ok score) →
      ResponseHeader.message.read (ResponseHeader.message.write header) = .ok header := by
  refine ⟨fun header => Message.read_write header.returns,
    fun status => Message.read_write status.returns, fun config => ?_,
    fun options => options.returns.read, fun header hfinite hread => ?_⟩
  · rw [Model.Config.read, config.returns.read]
  · refine Message.read_write (ResponseHeader.returns fun score hscore => ?_)
    exact Codec.returns_of_read (Codec.wellFormed_single score)
      (hread score hscore (hfinite score hscore))

/-- A response with the classes of two batch items, scored one tenth and the least positive
number. -/
def scored : ResponseHeader where
  id := 7
  model := "a \"b\"\\\n"
  version := -1
  batch := 2
  outputs := [{
    name := "scores"
    raw := none
    classes := [[⟨0, 0x3dcccccd, "é"⟩], [⟨1, 0x00000001, ""⟩]] }]

theorem read_write_messages_scored :
    Binary.single.isFinite 0x3dcccccd ∧ Binary.single.isFinite 0x00000001 ∧
      Codec.single.read (Codec.single.write 0x3dcccccd) = .ok 0x3dcccccd ∧
      Codec.single.read (Codec.single.write 0x00000001) = .ok 0x00000001 ∧
      ResponseHeader.message.read (ResponseHeader.message.write scored) = .ok scored := by
  have htenth : Codec.single.read (Codec.single.write 0x3dcccccd) = .ok 0x3dcccccd := by
    decide +kernel
  have hleast : Codec.single.read (Codec.single.write 0x00000001) = .ok 0x00000001 := by
    decide +kernel
  have hfinite : ∀ score ∈ scored.scores, Binary.single.isFinite score.toNat :=
    List.forall_mem_cons.2 ⟨by decide, List.forall_mem_singleton.2 (by decide)⟩
  refine ⟨by decide, by decide, htenth, hleast, read_write_messages.2.2.2.2 scored hfinite ?_⟩
  exact List.forall_mem_cons.2 ⟨fun _ => htenth, List.forall_mem_singleton.2 fun _ => hleast⟩

end Wire

end TensorInference
