import TensorInference.Json.Record
import TensorInference.Proofs.Json.Codec

/-!
# Records that are read as they were written

The members of a written record come in the order of the fields, each at most once, so reading them
is reading the fields one after the other: `Fields.reread` does that without any object, and
`RecordFormat.decode_encode` says that it is what the decoder does, whether a field is read or
refused. A record is returned if each of its fields is, and each field that was left out has the
value that a missing one gets.
-/

namespace TensorInference.Json

/-- The slot of the first field before those of the others. -/
def Slots.cons {α : Type} {types : List Type} (slot : Option α) (slots : Slots types) :
    Slots (α :: types) :=
  (slot, slots)

/-- The value of the first field before those of the others. -/
def Values.cons {α : Type} {types : List Type} (a : α) (values : Values types) :
    Values (α :: types) :=
  (a, values)

theorem Slots.vacant_cons (α : Type) (types : List Type) :
    vacant (α :: types) = .cons none (vacant types) := rfl

namespace Fields

variable {σ : Type}

/-- The values of the fields of a record. -/
def values (record : σ) : {types : List Type} → Fields σ types → Values types
  | [], .nil => ()
  | _ :: _, .cons field rest => .cons (field.get record) (rest.values record)

/-- Read the fields that a record is written with, one after the other. -/
def reread (record : σ) : {types : List Type} → Fields σ types → Except Fault (Slots types)
  | [], .nil => .ok ()
  | _ :: _, .cons field rest =>
    if field.omitted (field.get record) then do
      let slots ← rest.reread record
      return .cons none slots
    else do
      let a ← field.codec.decode (field.codec.encode (field.get record)).toNode
      let slots ← rest.reread record
      return .cons (some a) slots

/-- Put the values of members into the slots of the fields that they name. -/
def fillAll {types : List Type} (fields : Fields σ types) :
    Slots types → List (String × Value) → Except Fault (Slots types)
  | slots, [] => .ok slots
  | slots, (name, value) :: members =>
    match fields.fill name (.ok value.toNode) slots with
    | some filled => do fields.fillAll (← filled) members
    | none => fields.fillAll slots members

section Filling

variable {α : Type} {types : List Type} {name : String} {node : Except Fault Node}

theorem fill_cons_self (field : Field σ α) (rest : Fields σ types) (node : Node)
    (slots : Slots types) :
    (Fields.cons field rest).fill field.name (.ok node) (.cons none slots) =
      some ((fun a => .cons (some a) slots) <$> field.codec.decode node) := by
  refine (if_pos rfl).trans ?_
  change some (field.codec.decode node >>= fun a => Except.ok (Slots.cons (some a) slots)) = _
  cases field.codec.decode node <;> rfl

theorem fill_cons_of_ne {field : Field σ α} (h : field.name ≠ name) (rest : Fields σ types)
    (slot : Option α) (slots : Slots types) :
    (Fields.cons field rest).fill name node (.cons slot slots) =
      (rest.fill name node slots).map fun filled => do
        let slots ← filled
        return .cons slot slots :=
  if_neg h

theorem finish_cons {field : Field σ α} {rest : Fields σ types} {slot : Option α} {a : α}
    (h : slot.or field.absent = some a) {slots : Slots types} :
    (Fields.cons field rest).finish (.cons slot slots) = Values.cons a <$> rest.finish slots := by
  refine (finish.eq_2 _ _ field rest slot slots).trans ?_
  rw [h]
  cases rest.finish slots <;> rfl

theorem isSome_fill {fields : Fields σ types} (h : name ∈ fields.names) (slots : Slots types) :
    (fields.fill name node slots).isSome := by
  induction fields with
  | nil => exact absurd h List.not_mem_nil
  | cons field rest ih =>
    rcases slots with ⟨slot, slots⟩
    by_cases hname : field.name = name
    · exact (congrArg Option.isSome (if_pos hname)).trans rfl
    · refine (congrArg Option.isSome (fill_cons_of_ne hname rest slot slots)).trans ?_
      rw [Option.isSome_map]
      exact ih ((List.mem_cons.1 h).resolve_left (Ne.symm hname)) slots

/-- Members under the names of later fields leave the first field alone. -/
theorem fillAll_cons {field : Field σ α} {members : List (String × Value)}
    (h : ∀ member ∈ members, member.1 ≠ field.name) (rest : Fields σ types) (slot : Option α)
    (slots : Slots types) :
    (Fields.cons field rest).fillAll (.cons slot slots) members =
      Slots.cons slot <$> rest.fillAll slots members := by
  induction members generalizing slots with
  | nil => rfl
  | cons member members ih =>
    obtain ⟨name, value⟩ := member
    obtain ⟨hname, hmembers⟩ := List.forall_mem_cons.1 h
    rw [fillAll, fillAll, fill_cons_of_ne (Ne.symm hname)]
    cases rest.fill name (.ok value.toNode) slots with
    | none => exact ih hmembers slots
    | some filled =>
      cases filled with
      | error fault => rfl
      | ok slots => exact ih hmembers slots

end Filling

theorem fst_mem_names_of_mem_encode {record : σ} {types : List Type} {fields : Fields σ types}
    {member : String × Value} (h : member ∈ fields.encode record) : member.1 ∈ fields.names := by
  induction fields with
  | nil => exact absurd h List.not_mem_nil
  | cons field rest ih =>
    rw [encode] at h
    split at h
    · exact List.mem_cons_of_mem _ (ih h)
    · rcases List.mem_cons.1 h with rfl | h
      · exact List.mem_cons_self
      · exact List.mem_cons_of_mem _ (ih h)

/-- The written members fill the slots as rereading the fields does. -/
theorem fillAll_encode (record : σ) {types : List Type} {fields : Fields σ types}
    (hdistinct : fields.names.Nodup) :
    fields.fillAll (Slots.vacant types) (fields.encode record) = fields.reread record := by
  induction fields with
  | nil => rfl
  | cons field rest ih =>
    obtain ⟨hfield, hrest⟩ := List.nodup_cons.1 hdistinct
    have hother : ∀ member ∈ rest.encode record, member.1 ≠ field.name := by
      intro member hmember hname
      exact hfield (hname ▸ fst_mem_names_of_mem_encode hmember)
    rw [encode, reread, ← ih hrest, Slots.vacant_cons]
    by_cases homitted : field.omitted (field.get record)
    · rw [if_pos homitted, if_pos homitted]
      exact fillAll_cons hother rest none _
    · rw [if_neg homitted, if_neg homitted, fillAll, fill_cons_self]
      cases field.codec.decode (field.codec.encode (field.get record)).toNode with
      | error fault => rfl
      | ok a => exact fillAll_cons hother rest (some a) _

/-- Every field of a record is read as it was written or, where it is left out, has the value of a
missing field. -/
def Return (record : σ) : {types : List Type} → Fields σ types → Prop
  | [], .nil => True
  | _ :: _, .cons field rest =>
    field.codec.Returns (field.get record) ∧
      (field.omitted (field.get record) → field.absent = some (field.get record)) ∧
      rest.Return record

theorem Return.exists_reread {record : σ} {types : List Type} {fields : Fields σ types}
    (h : fields.Return record) :
    ∃ slots, fields.reread record = .ok slots ∧
      fields.finish slots = .ok (fields.values record) := by
  induction fields with
  | nil => exact ⟨(), rfl, rfl⟩
  | cons field rest ih =>
    obtain ⟨hfield, habsent, hrest⟩ := h
    obtain ⟨slots, hslots, hfinish⟩ := ih hrest
    rw [reread, hslots]
    by_cases homitted : field.omitted (field.get record)
    · rw [if_pos homitted]
      refine ⟨.cons none slots, rfl, ?_⟩
      rw [finish_cons (Option.none_or.trans (habsent homitted)), hfinish]
      rfl
    · rw [if_neg homitted, hfield.decode]
      refine ⟨.cons (some (field.get record)) slots, rfl, ?_⟩
      rw [finish_cons Option.some_or, hfinish]
      rfl

/-- Every field of a record is written within the grammar. -/
def Legible (record : σ) : {types : List Type} → Fields σ types → Prop
  | [], .nil => True
  | _ :: _, .cons field rest =>
    (field.codec.encode (field.get record)).WellFormed ∧ rest.Legible record

theorem Return.legible {record : σ} {types : List Type} {fields : Fields σ types}
    (h : fields.Return record) : fields.Legible record := by
  induction fields with
  | nil => trivial
  | cons field rest ih => exact ⟨h.1.wellFormed, ih h.2.2⟩

theorem Legible.wellFormed {record : σ} {types : List Type} {fields : Fields σ types}
    (h : fields.Legible record) : ∀ member ∈ fields.encode record, member.2.WellFormed := by
  induction fields with
  | nil => exact nofun
  | cons field rest ih =>
    obtain ⟨hfield, hrest⟩ := h
    intro member hmember
    rw [encode] at hmember
    split at hmember
    · exact ih hrest member hmember
    · rcases List.mem_cons.1 hmember with rfl | hmember
      · exact hfield
      · exact ih hrest member hmember

variable {record : σ} {α : Type} {types : List Type} {field : Field σ α} {rest : Fields σ types}
  {fault : Fault}

/-- A field that is returned leads on to the fault of a later one. -/
theorem reread_of_returns (h : field.codec.Returns (field.get record))
    (hrest : rest.reread record = .error fault) :
    (Fields.cons field rest).reread record = .error fault := by
  rw [reread, hrest, h.decode]
  split <;> rfl

theorem reread_of_refuses (h : field.codec.Refuses (field.get record) fault)
    (hwritten : field.omitted (field.get record) = false) :
    (Fields.cons field rest).reread record = .error fault := by
  rw [reread, h.decode, hwritten]
  rfl

end Fields

namespace RecordFormat

variable {σ : Type} {format : RecordFormat σ}

/-- A format whose fields have different names and tell the whole record. -/
structure Complete (format : RecordFormat σ) : Prop where
  distinct : format.fields.names.Nodup
  build : ∀ record, format.build (format.fields.values record) = record

/-- A member under a known name fills the slot of its field. -/
theorem decodeMembers_more {slots : Slots format.types} {key : Token} {name : String}
    (hkey : key.text = .ok name) {value : Node} {filled : Except Fault (Slots format.types)}
    (hfill : format.fields.fill name (.ok value) slots = some filled) (rest : Members) :
    format.decodeMembers slots (.more key value rest) =
      filled >>= fun slots => format.decodeMembers slots rest := by
  rw [decodeMembers, hkey]
  simp only [bind, Except.bind, hfill]

/-- Members under known names are read by filling the slots. -/
theorem decodeMembers_toMembers {members : List (String × Value)}
    (h : ∀ member ∈ members, member.1 ∈ format.fields.names) (slots : Slots format.types) :
    format.decodeMembers slots (Value.toMembers members) = format.fields.fillAll slots members := by
  induction members generalizing slots with
  | nil => rfl
  | cons member members ih =>
    obtain ⟨name, value⟩ := member
    obtain ⟨hname, hmembers⟩ := List.forall_mem_cons.1 h
    obtain ⟨filled, hfilled⟩ := Option.isSome_iff_exists.1
      (Fields.isSome_fill hname slots)
    rw [Value.toMembers, decodeMembers_more rfl hfilled, Fields.fillAll, hfilled]
    cases filled with
    | error fault => rfl
    | ok slots => exact ih hmembers slots

/-- A written record is read field by field. -/
theorem decode_encode (h : format.Complete) (record : σ) :
    format.codec.decode (format.codec.encode record).toNode = do
      let slots ← format.fields.reread record
      let values ← format.fields.finish slots
      return format.build values := by
  change format.decode (.object (Value.toMembers (format.fields.encode record))) = _
  rw [decode, decodeMembers_toMembers fun _ => Fields.fst_mem_names_of_mem_encode,
    Fields.fillAll_encode record h.distinct]

theorem wellFormed {record : σ} (h : format.fields.Legible record) :
    (format.codec.encode record).WellFormed :=
  Value.membersWellFormed_iff.2 h.wellFormed

theorem returns (h : format.Complete) {record : σ} (hfields : format.fields.Return record) :
    format.codec.Returns record := by
  refine ⟨wellFormed hfields.legible, ?_⟩
  obtain ⟨slots, hslots, hfinish⟩ := hfields.exists_reread
  rw [decode_encode h, hslots]
  change (format.fields.finish slots >>= fun values => _) = _
  rw [hfinish]
  exact congrArg Except.ok (h.build record)

/-- A record is refused for its first field that is. -/
theorem refuses (h : format.Complete) {record : σ} (hlegible : format.fields.Legible record)
    {fault : Fault} (hfault : format.fields.reread record = .error fault) :
    format.codec.Refuses record fault := by
  refine ⟨wellFormed hlegible, ?_⟩
  rw [decode_encode h, hfault]
  rfl

theorem encode_ne_null (record : σ) : format.codec.encode record ≠ .null := nofun

end RecordFormat

end TensorInference.Json
