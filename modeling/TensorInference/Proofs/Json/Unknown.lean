import TensorInference.Proofs.Json.Insertion
import TensorInference.Proofs.Json.Record

/-!
# Unknown members

A strict reader stops at the first member whose name is not that of a field; a lenient one walks
over its value and goes on. `Codec.Follows` says that a codec does one or the other throughout: in
every record of what it reads, at any depth. It is about trees, and it passes from the codecs of
the parts to those of lists, options, maps, alternatives and records. A lenient reader comes to the
same end as without the member, whether that is a value or a fault.
Main statement: `Codec.Follows.read`, about texts with one further member.
-/

namespace TensorInference.Json

/-- What comes of reading if an unknown member is met on the way. -/
def meet {α : Type} (strict : Bool) (key : String) (names : List String)
    (result : Except Fault α) : Except Fault α :=
  if strict then .error (.unknownField key names) else result

/-- Whether nothing else is told than the unknown member; it matters to strict readers only. -/
def Clean {α : Type} (strict : Bool) (result : Except Fault α) : Prop :=
  strict = true → ∃ a, result = .ok a

section Meeting

variable {α β : Type} {strict : Bool} {key : String} {names : List String} {x : Except Fault α}
  {f g : α → Except Fault β}

/-- What is done after an unknown member was met is done as without it, or not at all. -/
theorem meet_bind (f : α → Except Fault β) :
    meet strict key names x >>= f = meet strict key names (x >>= f) := by
  cases strict <;> rfl

theorem map_meet (f : α → β) : f <$> meet strict key names x = meet strict key names (f <$> x) := by
  cases strict <;> rfl

theorem Clean.of_bind (h : Clean strict (x >>= f)) : Clean strict x := fun hstrict ↦ by
  obtain ⟨b, hb⟩ := h hstrict
  obtain ⟨a, ha, -⟩ := Outcome.bind_eq_ok_iff.1 hb
  exact ⟨a, ha⟩

theorem Clean.of_map {f : α → β} (h : Clean strict (f <$> x)) : Clean strict x := fun hstrict ↦ by
  obtain ⟨b, hb⟩ := h hstrict
  obtain ⟨a, ha, -⟩ := Outcome.map_eq_ok_iff.1 hb
  exact ⟨a, ha⟩

/-- A fault that is told anyway is told by lenient readers only. -/
theorem Clean.meet_error {fault : Fault} (h : Clean strict (.error fault : Except Fault α)) :
    (.error fault : Except Fault α) = meet strict key names (.error fault) := by
  cases strict with
  | true => exact nomatch h rfl
  | false => rfl

/-- What is done before an unknown member is met is done anyway. -/
theorem bind_meet (hclean : Clean strict (x >>= f))
    (h : ∀ a, x = .ok a → Clean strict (f a) → g a = meet strict key names (f a)) :
    x >>= g = meet strict key names (x >>= f) := by
  cases x with
  | error fault => exact hclean.meet_error
  | ok a => exact h a rfl hclean

end Meeting

/-- The layout of a record whose fields have the given layouts. -/
def RecordFormat.layout {σ : Type} (format : RecordFormat σ) (fields : List Layout) : Layout :=
  .record format.fields.names fields

namespace Codec

variable {α : Type} {strict : Bool} {layout : Layout}

/-- A codec whose written values have a layout and that is strict, or lenient, in all records of
it. -/
structure Follows (codec : Codec α) (strict : Bool) (layout : Layout) : Prop where
  covered : ∀ a, (codec.encode a).Covered layout
  decode : ∀ {key : String} {names : List String} {value : Value} {node : Node},
    InsertedTree key names layout value node → Clean strict (codec.decode value.toNode) →
      codec.decode node = meet strict key names (codec.decode value.toNode)

/-- A text with one further member is refused for it, or read as if it were not there. -/
theorem Follows.read {codec : Codec α} (h : codec.Follows strict layout) {a : α}
    (hwritten : (codec.encode a).WellFormed) (hclean : Clean strict (codec.read (codec.write a)))
    {key : String} {names : List String} {text : Bytes}
    (htext : InsertedText key names layout (codec.encode a) text) :
    codec.read text = meet strict key names (codec.read (codec.write a)) := by
  obtain ⟨node, hread, hnode⟩ := (htext.reads hwritten).document
  rw [read_write hwritten] at hclean ⊢
  rw [Codec.read, hread]
  change (codec.decode node >>= fun a ↦ .ok a) = _
  rw [h.decode hnode hclean, meet_bind]
  cases codec.decode (codec.encode a).toNode <;> rfl

/-! ## Parts that have no records -/

theorem follows_scalar {codec : Codec α} (h : ∀ a, (codec.encode a).Covered .scalar) :
    codec.Follows strict .scalar where
  covered := h
  decode hnode _ := by
    cases hnode with
    | member hname _ => cases hname

theorem follows_word64 : word64.Follows strict .scalar :=
  follows_scalar fun _ ↦ rfl

theorem follows_size : size.Follows strict .scalar :=
  follows_scalar fun _ ↦ rfl

theorem follows_word32 : word32.Follows strict .scalar :=
  follows_scalar fun _ ↦ rfl

theorem follows_integer64 : integer64.Follows strict .scalar :=
  follows_scalar fun _ ↦ rfl

theorem follows_boolean : boolean.Follows strict .scalar :=
  follows_scalar fun _ ↦ rfl

theorem follows_text : Codec.text.Follows strict .scalar :=
  follows_scalar fun _ ↦ rfl

theorem follows_path : path.Follows strict .scalar :=
  follows_scalar fun _ ↦ rfl

theorem follows_named (names : α → String) (all : List α) :
    (named names all).Follows strict .scalar :=
  follows_scalar fun _ ↦ rfl

theorem follows_single : single.Follows strict .scalar := by
  refine follows_scalar fun bits ↦ ?_
  dsimp only [single]
  split
  · rfl
  · trivial

theorem decodeItems_onto {codec : Codec α} {key : String} {names : List String}
    {inserted plain : Items}
    (h : Clean strict (codec.decodeItems plain) →
      codec.decodeItems inserted = meet strict key names (codec.decodeItems plain))
    {front : List Value} (hclean : Clean strict (codec.decodeItems (itemsOnto front plain))) :
    codec.decodeItems (itemsOnto front inserted) =
      meet strict key names (codec.decodeItems (itemsOnto front plain)) := by
  induction front with
  | nil => exact h hclean
  | cons item front ih =>
    refine bind_meet hclean fun a _ hrest ↦ ?_
    rw [ih hrest.of_bind]
    exact meet_bind _

theorem Follows.list {codec : Codec α} (h : codec.Follows strict layout) :
    codec.list.Follows strict (.list layout) where
  covered as := itemsCovered_iff.2 fun item hitem ↦ by
    obtain ⟨a, -, rfl⟩ := List.mem_map.1 hitem
    exact h.covered a
  decode hnode hclean := by
    cases hnode with
    | member hname _ => cases hname
    | @item layout front back value node hnode =>
      rw [Value.toNode, toItems_append] at hclean ⊢
      refine decodeItems_onto (fun hrest ↦ ?_) hclean
      change codec.decode node >>= _ = meet strict _ _ (codec.decode value.toNode >>= _)
      rw [h.decode hnode hrest.of_bind]
      exact meet_bind _

/-- Null has no members, so an option is read as a value that is there. -/
theorem Follows.option {codec : Codec α} (h : codec.Follows strict layout) :
    codec.option.Follows strict layout where
  covered
    | none => trivial
    | some a => h.covered a
  decode {key names value node} hnode hclean := by
    have hvalue : codec.option.decode value.toNode = some <$> codec.decode value.toNode := by
      cases hnode <;> rfl
    have hsome : codec.option.decode node = some <$> codec.decode node := by
      cases hnode <;> rfl
    rw [hvalue] at hclean ⊢
    rw [hsome, h.decode hnode hclean.of_map, map_meet]

section Maps

variable {κ : Type} {key : Key κ} {codec : Codec α}

theorem decodeEntries_onto {unknown : String} {names : List String} {inserted plain : Members}
    (h : Clean strict (decodeEntries key codec plain) →
      decodeEntries key codec inserted =
        meet strict unknown names (decodeEntries key codec plain))
    {front : List (String × Value)}
    (hclean : Clean strict (decodeEntries key codec (membersOnto front plain))) :
    decodeEntries key codec (membersOnto front inserted) =
      meet strict unknown names (decodeEntries key codec (membersOnto front plain)) := by
  induction front with
  | nil => exact h hclean
  | cons entry front ih =>
    refine bind_meet hclean fun k _ hentry ↦ bind_meet hentry fun a _ hrest ↦ ?_
    rw [ih hrest.of_bind]
    exact meet_bind _

theorem Follows.map [Ord κ] [Std.TransOrd κ] [Std.LawfulEqOrd κ]
    (h : codec.Follows strict layout) : (codec.map key).Follows strict (.map layout) where
  covered m := membersCovered_iff.2 fun member hmember ↦ by
    obtain ⟨entry, -, rfl⟩ := List.mem_map.1 hmember
    exact ⟨layout, .entry layout _, h.covered entry.2⟩
  decode hnode hclean := by
    cases hnode with
    | @member _ inner front back name value node hname hnode =>
      cases hname
      rw [Value.toNode, toMembers_append] at hclean ⊢
      change _ <$> decodeEntries key codec _ = meet strict _ _ (_ <$> decodeEntries key codec _)
      rw [← map_meet]
      refine congrArg _ (decodeEntries_onto (fun hrest ↦ ?_) hclean.of_map)
      refine bind_meet hrest fun k _ hentry ↦ ?_
      rw [h.decode hnode hentry.of_bind]
      exact meet_bind _

end Maps

namespace Alternative

/-- An alternative whose content is read strictly, or leniently, in all records of a layout. -/
def Follows (alternative : Alternative α) (strict : Bool) (layout : Layout) : Prop :=
  ∀ {key : String} {names : List String} {value : Value} {node : Node},
    InsertedTree key names layout value node → Clean strict (alternative.contained value.toNode) →
      alternative.contained node = meet strict key names (alternative.contained value.toNode)

theorem follows_withContent {β : Type} {codec : Codec β} (h : codec.Follows strict layout)
    (name wanted : String) (f : β → α) :
    (withContent name wanted fun node ↦ f <$> codec.decode node).Follows strict layout := by
  intro key names value node hnode hclean
  change f <$> codec.decode node = meet strict key names (f <$> codec.decode value.toNode)
  rw [h.decode hnode hclean.of_map, map_meet]

/-- An object with a second member names no alternative. -/
theorem closeMembers_onto (front : List (String × Value)) (token : Token) (node : Node)
    (rest : Members) :
    closeMembers (membersOnto front (.more token node rest)) = .error .expectedValue := by
  cases front <;> rfl

/-- Names that stand alone have no members, so an alternative is followed by its content. -/
theorem follows {alternatives : List (Alternative α)} {variants : List (String × Layout)}
    {encode : α → Value} (hcovered : ∀ a, (encode a).Covered (.tagged variants))
    (h : ∀ variant ∈ variants, ∀ alternative, find alternatives variant.1 = .ok alternative →
      alternative.Follows strict variant.2) :
    Codec.Follows ⟨encode, decode alternatives⟩ strict (.tagged variants) where
  covered := hcovered
  decode hnode hclean := by
    cases hnode with
    | @member _ inner front back name value node hname hnode =>
      have hvariant : (name, inner) ∈ variants := by
        cases hname with
        | variant h => exact h
      rw [Value.toNode, toMembers_append] at hclean ⊢
      cases front with
      | nil =>
        refine @bind_meet _ _ _ _ _ (find alternatives name) _ _ hclean
          fun alternative hfind hcontent ↦ ?_
        rw [h (name, inner) hvariant alternative hfind hnode hcontent.of_bind]
        exact meet_bind _
      | cons entry front =>
        refine @bind_meet _ _ _ _ _ (find alternatives entry.1) _ _ hclean
          fun alternative _ hcontent ↦ bind_meet hcontent fun a _ hclose ↦ ?_
        rw [Value.toMembers, closeMembers_onto] at hclose ⊢
        rw [closeMembers_onto]
        exact hclose.meet_error

end Alternative

end Codec

/-! ## Records -/

namespace Fields

variable {σ : Type} {strict : Bool}

/-- Fields that are all read strictly, or all leniently, each in the records of its layout. -/
def Follow (strict : Bool) : {types : List Type} → Fields σ types → List Layout → Prop
  | [], .nil, _ => True
  | _ :: _, .cons _ _, [] => False
  | _ :: _, .cons field rest, layout :: layouts =>
    field.codec.Follows strict layout ∧ rest.Follow strict layouts

variable {types : List Type} {fields : Fields σ types} {layouts : List Layout}

theorem Follow.covered (h : fields.Follow strict layouts) {record : σ} :
    ∀ member ∈ fields.encode record, ∃ inner, (member.1, inner) ∈ fields.names.zip layouts ∧
      member.2.Covered inner := by
  induction fields generalizing layouts with
  | nil => exact nofun
  | cons field rest ih =>
    cases layouts with
    | nil => exact h.elim
    | cons layout layouts =>
      have hrest : ∀ member ∈ rest.encode record, ∃ inner,
          (member.1, inner) ∈ (Fields.cons field rest).names.zip (layout :: layouts) ∧
            member.2.Covered inner := fun member hmember ↦ by
        obtain ⟨inner, hinner, hcovered⟩ := ih h.2 member hmember
        exact ⟨inner, List.mem_cons_of_mem _ hinner, hcovered⟩
      rw [encode]
      split
      · exact hrest
      · exact List.forall_mem_cons.2
          ⟨⟨layout, List.mem_cons_self, h.1.covered (field.get record)⟩, hrest⟩

/-- The field of a name is filled strictly, or leniently, from what stands under the name. -/
theorem Follow.fill (h : fields.Follow strict layouts) (hdistinct : fields.names.Nodup)
    {name : String} {inner : Layout} (hname : (name, inner) ∈ fields.names.zip layouts)
    {key : String} {names : List String} {value : Value} {node : Node}
    (hnode : InsertedTree key names inner value node) (slots : Slots types) :
    ∃ plain inserted, fields.fill name (.ok value.toNode) slots = some plain ∧
      fields.fill name (.ok node) slots = some inserted ∧
      (Clean strict plain → inserted = meet strict key names plain) := by
  induction fields generalizing layouts with
  | nil => exact absurd hname List.not_mem_nil
  | cons field rest ih =>
    obtain ⟨slot, slots⟩ := slots
    cases layouts with
    | nil => exact h.elim
    | cons layout layouts =>
      rcases List.mem_cons.1 hname with hself | hname
      · obtain ⟨rfl, rfl⟩ := Prod.mk.inj hself
        refine ⟨_, _, if_pos rfl, if_pos rfl, fun hclean ↦ ?_⟩
        cases slot with
        | some _ => exact hclean.meet_error
        | none =>
          change field.codec.decode node >>= _ =
            meet strict key names (field.codec.decode value.toNode >>= _)
          rw [h.1.decode hnode (Clean.of_bind hclean)]
          exact meet_bind _
      · obtain ⟨hfield, hrest⟩ := List.nodup_cons.1 hdistinct
        have hne : field.name ≠ name := by
          rintro rfl
          exact hfield (List.of_mem_zip hname).1
        obtain ⟨plain, inserted, hplain, hinserted, hmeet⟩ := ih h.2 hrest hname slots
        refine ⟨_, _, (fill_cons_of_ne hne rest slot slots).trans (by rw [hplain]; rfl),
          (fill_cons_of_ne hne rest slot slots).trans (by rw [hinserted]; rfl), fun hclean ↦ ?_⟩
        rw [hmeet (Clean.of_bind hclean)]
        exact meet_bind _

theorem fill_eq_none {name : String} (h : name ∉ fields.names) (node : Except Fault Node)
    (slots : Slots types) : fields.fill name node slots = none := by
  induction fields with
  | nil => rfl
  | cons field rest ih =>
    obtain ⟨slot, slots⟩ := slots
    obtain ⟨hne, hrest⟩ := not_or.1 (mt List.mem_cons.2 h)
    rw [show (Fields.cons field rest).fill name node (slot, slots) = _ from
      fill_cons_of_ne (Ne.symm hne) rest slot slots, ih hrest]
    rfl

end Fields

namespace RecordFormat

variable {σ : Type} {format : RecordFormat σ}

/-- Read one member. -/
def take (format : RecordFormat σ) (slots : Slots format.types) (key : Token) (value : Node) :
    Except Fault (Slots format.types) := do
  let name ← key.text
  match format.fields.fill name (.ok value) slots with
  | some filled => filled
  | none =>
    if format.strict then .error (.unknownField name format.fields.names)
    else do
      value.skim
      return slots

theorem decodeMembers_eq_take (slots : Slots format.types) (key : Token) (value : Node)
    (rest : Members) : format.decodeMembers slots (.more key value rest) =
      format.take slots key value >>= fun slots ↦ format.decodeMembers slots rest := by
  rw [decodeMembers, take]
  cases key.text with
  | error fault => rfl
  | ok name =>
    simp only [bind, Except.bind]
    cases format.fields.fill name (.ok value) slots with
    | some filled => rfl
    | none =>
      dsimp only
      split
      · rfl
      · cases value.skim <;> rfl

theorem decodeMembers_onto {key : String} {names : List String} {inserted plain : Members}
    (h : ∀ slots, Clean format.strict (format.decodeMembers slots plain) →
      format.decodeMembers slots inserted =
        meet format.strict key names (format.decodeMembers slots plain))
    {front : List (String × Value)} {slots : Slots format.types}
    (hclean : Clean format.strict (format.decodeMembers slots (membersOnto front plain))) :
    format.decodeMembers slots (membersOnto front inserted) =
      meet format.strict key names (format.decodeMembers slots (membersOnto front plain)) := by
  induction front generalizing slots with
  | nil => exact h slots hclean
  | cons entry front ih =>
    rw [membersOnto, decodeMembers_eq_take] at hclean
    rw [membersOnto, membersOnto, decodeMembers_eq_take, decodeMembers_eq_take]
    exact bind_meet hclean fun slots _ hrest ↦ ih hrest

/-- A member under a name that no field has is met where it stands. -/
theorem decodeMembers_unknown {token : Token} {key : String} {node : Node}
    (hkey : key ∉ format.fields.names) (htoken : token.text = .ok key) (hnode : node.Skims)
    (slots : Slots format.types) (rest : Members) :
    format.decodeMembers slots (.more token node rest) =
      meet format.strict key format.fields.names (format.decodeMembers slots rest) := by
  have hskim : node.skim = .ok () := hnode
  have htake : format.take slots token node =
      meet format.strict key format.fields.names (.ok slots) := by
    simp only [take, htoken, bind, Except.bind, Fields.fill_eq_none hkey, hskim]
    rfl
  rw [decodeMembers_eq_take, htake]
  exact meet_bind _

theorem follows (hdistinct : format.fields.names.Nodup) {layouts : List Layout}
    (h : format.fields.Follow format.strict layouts) :
    format.codec.Follows format.strict (format.layout layouts) where
  covered record := membersCovered_iff.2 fun member hmember ↦ by
    obtain ⟨inner, hinner, hcovered⟩ := h.covered member hmember
    exact ⟨inner, .field hinner, hcovered⟩
  decode hnode hclean := by
    cases hnode with
    | @here _ front back token node hkey htoken hnode =>
      rw [Value.toNode, toMembers_append] at hclean ⊢
      change format.decodeMembers _ _ >>= _ = meet _ _ _ (format.decodeMembers _ _ >>= _)
      rw [← meet_bind]
      refine congrArg (· >>= _) (decodeMembers_onto (fun slots _ ↦ ?_) (Clean.of_bind hclean))
      exact decodeMembers_unknown hkey htoken hnode slots (Value.toMembers back)
    | @member _ inner front back name value node hname hnode =>
      have hfield : (name, inner) ∈ format.fields.names.zip layouts := by
        cases hname with
        | field h => exact h
      rw [Value.toNode, toMembers_append] at hclean ⊢
      change format.decodeMembers _ _ >>= _ = meet _ _ _ (format.decodeMembers _ _ >>= _)
      rw [← meet_bind]
      refine congrArg (· >>= _) (decodeMembers_onto (fun slots hrest ↦ ?_) (Clean.of_bind hclean))
      obtain ⟨plain, inserted, hplain, hinserted, hmeet⟩ := h.fill hdistinct hfield hnode slots
      rw [Value.toMembers, decodeMembers_more rfl hplain] at hrest ⊢
      rw [decodeMembers_more rfl hinserted, hmeet hrest.of_bind]
      exact meet_bind _

end RecordFormat

end TensorInference.Json
