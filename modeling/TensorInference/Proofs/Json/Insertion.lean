import TensorInference.Proofs.Json.Grammar

/-!
# Texts with a further member

A `Layout` tells the objects of a written value apart: records, whose keys are the names of fields;
maps, whose keys are data; and objects that name an alternative by their only key. The relation
`InsertedText` is between a value and the texts that have one further member in one of its records,
at any depth and between any two members, spelled in any way the grammar allows; `InsertedTree` is
the same relation for the trees of such texts.
Main statement: `InsertedText.reads`, which leads from one to the other.
-/

namespace TensorInference.Json

/-- What the objects of a written value stand for. -/
inductive Layout where
  /-- Neither a list nor an object. -/
  | scalar
  | list (item : Layout)
  /-- An object whose keys are data. -/
  | map (entry : Layout)
  /-- A name, or an object whose only key is the name of an alternative. -/
  | tagged (variants : List (String × Layout))
  /-- An object whose keys are the names of fields, with the layouts of the fields in order. -/
  | record (names : List String) (fields : List Layout)

/-- The layout of what stands under a key of an object. -/
inductive Layout.Holds : Layout → String → Layout → Prop where
  | entry (layout : Layout) (name : String) : Holds (.map layout) name layout
  | variant {variants : List (String × Layout)} {name : String} {layout : Layout}
    (h : (name, layout) ∈ variants) : Holds (.tagged variants) name layout
  | field {names : List String} {fields : List Layout} {name : String} {layout : Layout}
    (h : (name, layout) ∈ names.zip fields) : Holds (.record names fields) name layout

mutual

/-- Every list and every object of a value is where the layout has one; null stands for whatever
may be missing. -/
def Value.Covered : Value → Layout → Prop
  | .null, _ => True
  | .string _, .tagged _ => True
  | .array items, .list layout => ItemsCovered items layout
  | .array _, _ => False
  | .object members, layout => MembersCovered members layout
  | _, layout => layout = .scalar

def ItemsCovered : List Value → Layout → Prop
  | [], _ => True
  | item :: rest, layout => item.Covered layout ∧ ItemsCovered rest layout

def MembersCovered : List (String × Value) → Layout → Prop
  | [], _ => True
  | (name, value) :: rest, layout =>
    (∃ inner, layout.Holds name inner ∧ value.Covered inner) ∧ MembersCovered rest layout

end

theorem itemsCovered_iff {items : List Value} {layout : Layout} :
    ItemsCovered items layout ↔ ∀ item ∈ items, item.Covered layout := by
  induction items with
  | nil => simp [ItemsCovered]
  | cons item rest ih => simp [ItemsCovered, ih]

theorem membersCovered_iff {members : List (String × Value)} {layout : Layout} :
    MembersCovered members layout ↔
      ∀ entry ∈ members, ∃ inner, layout.Holds entry.1 inner ∧ entry.2.Covered inner := by
  induction members with
  | nil => simp [MembersCovered]
  | cons entry rest ih => simp [MembersCovered, ih]

namespace Value

theorem itemsWellFormed_append {front back : List Value} :
    ItemsWellFormed (front ++ back) ↔ ItemsWellFormed front ∧ ItemsWellFormed back := by
  simp only [itemsWellFormed_iff, List.forall_mem_append]

theorem membersWellFormed_append {front back : List (String × Value)} :
    MembersWellFormed (front ++ back) ↔ MembersWellFormed front ∧ MembersWellFormed back := by
  simp only [membersWellFormed_iff, List.forall_mem_append]

end Value

/-- The text of a member with a key, in any spelling, and any value. -/
structure MemberText.IsMember (member : MemberText) (key : String) : Prop where
  before : Blank member.before
  key : Spells member.key (Bytes.ofText key)
  after : Blank member.after
  value : IsValue member.value

/-- The members of an object as they are printed. -/
def printedMembers (members : List (String × Value)) : List MemberText :=
  members.map fun entry ↦ .printed entry.1 entry.2.print

/-- The texts of a value with one further member under an unknown key in one of its records, whose
fields have the given names. Everything else is as it is printed. -/
inductive InsertedText (key : String) (names : List String) : Layout → Value → Bytes → Prop where
  /-- The further member stands among those of this record. -/
  | here {fields : List Layout} {front back : List (String × Value)} {member : MemberText}
    (hkey : key ∉ names) (hmember : member.IsMember key) :
    InsertedText key names (.record names fields) (.object (front ++ back))
      (objectText (printedMembers front ++ member :: printedMembers back))
  /-- It stands further inside, under one of the keys. -/
  | member {layout inner : Layout} {front back : List (String × Value)} {name : String}
    {value : Value} {text : Bytes} (hname : layout.Holds name inner)
    (h : InsertedText key names inner value text) :
    InsertedText key names layout (.object (front ++ (name, value) :: back))
      (objectText (printedMembers front ++ .printed name text :: printedMembers back))
  /-- It stands further inside, in one of the items. -/
  | item {layout : Layout} {front back : List Value} {value : Value} {text : Bytes}
    (h : InsertedText key names layout value text) :
    InsertedText key names (.list layout) (.array (front ++ value :: back))
      (arrayText (front.map Value.print ++ text :: back.map Value.print))

theorem printItems_eq (items : List Value) :
    Value.printItems items = entriesText false (items.map Value.print) ++ [0x5d] := by
  induction items with
  | nil => rfl
  | cons item rest ih => simp [Value.printItems, entriesText, ih]

theorem printMembers_eq (members : List (String × Value)) :
    Value.printMembers members =
      entriesText false ((printedMembers members).map MemberText.text) ++ [0x7d] := by
  induction members with
  | nil => rfl
  | cons entry rest ih =>
    obtain ⟨name, value⟩ := entry
    rw [Value.printMembers, ih]
    simp [printedMembers, entriesText, MemberText.text, MemberText.printed, Value.printText]

theorem print_array (items : List Value) :
    (Value.array items).print = arrayText (items.map Value.print) := by
  cases items with
  | nil => rfl
  | cons item rest => simp [Value.print, arrayText, entriesText, printItems_eq]

theorem print_object (members : List (String × Value)) :
    (Value.object members).print = objectText (printedMembers members) := by
  rcases members with _ | ⟨⟨name, value⟩, rest⟩
  · rfl
  · rw [Value.print, printMembers_eq]
    simp [objectText, printedMembers, entriesText, MemberText.text, MemberText.printed,
      Value.printText]

/-- Entries are those in front of an entry, the entry, and those behind it. -/
theorem exists_entriesText_insert (first : Bool) (front back : List Bytes) :
    ∃ before after, ∀ entry,
      entriesText first (front ++ entry :: back) = before ++ entry ++ after := by
  induction front generalizing first with
  | nil => exact ⟨_, _, fun entry ↦ rfl⟩
  | cons head front ih =>
    obtain ⟨before, after, h⟩ := ih false
    refine ⟨(if first then [] else [0x2c]) ++ head ++ before, after, fun entry ↦ ?_⟩
    rw [List.cons_append, entriesText, h]
    simp only [List.append_assoc]

/-- A further entry brings its comma along. -/
theorem exists_entriesText_further (first : Bool) (front back : List Bytes) (entry : Bytes) :
    ∃ before added after, entriesText first (front ++ back) = before ++ after ∧
      entriesText first (front ++ entry :: back) = before ++ added ++ after := by
  induction front generalizing first with
  | nil =>
    cases back with
    | nil => exact ⟨[], _, [], rfl, rfl⟩
    | cons head back =>
      refine ⟨if first then [] else [0x2c], entry ++ [0x2c], head ++ entriesText false back, ?_, ?_⟩
      · exact List.append_assoc ..
      · simp [entriesText]
  | cons head front ih =>
    obtain ⟨before, added, after, hwithout, hwith⟩ := ih false
    refine ⟨(if first then [] else [0x2c]) ++ head ++ before, added, after, ?_, ?_⟩
    · rw [List.cons_append, entriesText, hwithout]
      simp only [List.append_assoc]
    · rw [List.cons_append, entriesText, hwith]
      simp only [List.append_assoc]

/-- A text with a further member is the printed text with something added at one place. -/
theorem InsertedText.exists_added {key : String} {names : List String} {layout : Layout}
    {value : Value} {text : Bytes} (h : InsertedText key names layout value text) :
    ∃ before added after, value.print = before ++ after ∧ text = before ++ added ++ after := by
  induction h with
  | @here fields front back member hkey hmember =>
    obtain ⟨before, added, after, hwithout, hwith⟩ := exists_entriesText_further true
      ((printedMembers front).map MemberText.text) ((printedMembers back).map MemberText.text)
      member.text
    refine ⟨0x7b :: before, added, after ++ [0x7d], ?_, ?_⟩
    · rw [print_object, objectText, printedMembers, List.map_append, List.map_append]
      simp only [printedMembers] at hwithout
      rw [hwithout]
      simp
    · rw [objectText, List.map_append, List.map_cons, hwith]
      simp
  | @member layout inner front back name value text hname _ ih =>
    obtain ⟨before, added, after, hwithout, hwith⟩ := ih
    obtain ⟨start, close, hentries⟩ := exists_entriesText_insert true
      ((printedMembers front).map MemberText.text) ((printedMembers back).map MemberText.text)
    refine ⟨0x7b :: (start ++ (MemberText.printed name before).text), added,
      after ++ close ++ [0x7d], ?_, ?_⟩
    · rw [print_object, objectText]
      simp only [printedMembers, List.map_append, List.map_cons] at hentries ⊢
      rw [hentries, hwithout]
      simp [MemberText.text, MemberText.printed]
    · rw [objectText, List.map_append, List.map_cons, hentries, hwith]
      simp [MemberText.text, MemberText.printed]
  | @item layout front back value text _ ih =>
    obtain ⟨before, added, after, hwithout, hwith⟩ := ih
    obtain ⟨start, close, hentries⟩ := exists_entriesText_insert true
      (front.map Value.print) (back.map Value.print)
    refine ⟨0x5b :: (start ++ before), added, after ++ close ++ [0x5d], ?_, ?_⟩
    · rw [print_array, arrayText, List.map_append, List.map_cons, hentries, hwithout]
      simp
    · rw [arrayText, hentries, hwith]
      simp

/-- The trees of values in front of further items. -/
def itemsOnto : List Value → Items → Items
  | [], rest => rest
  | item :: front, rest => .more item.toNode (itemsOnto front rest)

/-- The trees of members in front of further ones. -/
def membersOnto : List (String × Value) → Members → Members
  | [], rest => rest
  | (name, value) :: front, rest => .more (Value.token name) value.toNode (membersOnto front rest)

theorem toItems_append (front back : List Value) :
    Value.toItems (front ++ back) = itemsOnto front (Value.toItems back) := by
  induction front with
  | nil => rfl
  | cons item front ih => rw [List.cons_append, Value.toItems, itemsOnto, ih]

theorem toMembers_append (front back : List (String × Value)) :
    Value.toMembers (front ++ back) = membersOnto front (Value.toMembers back) := by
  induction front with
  | nil => rfl
  | cons entry front ih => rw [List.cons_append, Value.toMembers, membersOnto, ih]

/-- The trees of the texts with one further member. -/
inductive InsertedTree (key : String) (names : List String) : Layout → Value → Node → Prop where
  | here {fields : List Layout} {front back : List (String × Value)} {token : Token} {node : Node}
    (hkey : key ∉ names) (htoken : token.text = .ok key) (hnode : node.Skims) :
    InsertedTree key names (.record names fields) (.object (front ++ back))
      (.object (membersOnto front (.more token node (Value.toMembers back))))
  | member {layout inner : Layout} {front back : List (String × Value)} {name : String}
    {value : Value} {node : Node} (hname : layout.Holds name inner)
    (h : InsertedTree key names inner value node) :
    InsertedTree key names layout (.object (front ++ (name, value) :: back))
      (.object (membersOnto front (.more (Value.token name) node (Value.toMembers back))))
  | item {layout : Layout} {front back : List Value} {value : Value} {node : Node}
    (h : InsertedTree key names layout value node) :
    InsertedTree key names (.list layout) (.array (front ++ value :: back))
      (.array (itemsOnto front (.more node (Value.toItems back))))

theorem readsItems_print {items : List Value} (h : Value.ItemsWellFormed items) (first : Bool) :
    ReadsItems first (items.map Value.print) (· = Value.toItems items) := by
  induction items generalizing first with
  | nil => exact .nil first rfl
  | cons item rest ih =>
    refine .cons (.print h.1) (ih h.2 false) ?_
    rintro _ _ rfl rfl
    rfl

theorem readsMembers_print {members : List (String × Value)}
    (h : Value.MembersWellFormed members) (first : Bool) :
    ReadsMembers first (printedMembers members) (· = Value.toMembers members) := by
  induction members generalizing first with
  | nil => exact .nil first rfl
  | cons entry rest ih =>
    refine .cons (MemberText.reads_printed entry.1 (.print h.1)) (ih h.2 false) ?_
    rintro _ _ _ rfl rfl rfl
    rfl

/-- Printed items around an item that is read in some other way. -/
theorem readsItems_insert {front back : List Value} (hfront : Value.ItemsWellFormed front)
    (hback : Value.ItemsWellFormed back) {text : Bytes} {P : Node → Prop} (h : Reads text P)
    (first : Bool) :
    ReadsItems first (front.map Value.print ++ text :: back.map Value.print)
      fun items ↦ ∃ node, P node ∧ items = itemsOnto front (.more node (Value.toItems back)) := by
  induction front generalizing first with
  | nil =>
    refine .cons h (readsItems_print hback false) ?_
    rintro node _ hnode rfl
    exact ⟨node, hnode, rfl⟩
  | cons item front ih =>
    refine .cons (.print hfront.1) (ih hfront.2 false) ?_
    rintro _ _ rfl ⟨node, hnode, rfl⟩
    exact ⟨node, hnode, rfl⟩

/-- Printed members around a member that is read in some other way. -/
theorem readsMembers_insert {front back : List (String × Value)}
    (hfront : Value.MembersWellFormed front) (hback : Value.MembersWellFormed back)
    {member : MemberText} {K : Token → Prop} {P : Node → Prop} (h : member.Reads K P)
    (first : Bool) :
    ReadsMembers first (printedMembers front ++ member :: printedMembers back)
      fun members ↦ ∃ token node, K token ∧ P node ∧
        members = membersOnto front (.more token node (Value.toMembers back)) := by
  induction front generalizing first with
  | nil =>
    refine .cons h (readsMembers_print hback false) ?_
    rintro token node _ htoken hnode rfl
    exact ⟨token, node, htoken, hnode, rfl⟩
  | cons entry front ih =>
    refine .cons (MemberText.reads_printed entry.1 (.print hfront.1)) (ih hfront.2 false) ?_
    rintro _ _ _ rfl rfl ⟨token, node, htoken, hnode, rfl⟩
    exact ⟨token, node, htoken, hnode, rfl⟩

/-- A text with one further member is read as a tree with one. -/
theorem InsertedText.reads {key : String} {names : List String} {layout : Layout} {value : Value}
    {text : Bytes} (h : InsertedText key names layout value text) (hvalue : value.WellFormed) :
    Reads text (InsertedTree key names layout value) := by
  induction h with
  | @here fields front back member hkey hmember =>
    obtain ⟨hfront, hback⟩ := Value.membersWellFormed_append.1 hvalue
    have hread : member.Reads (fun token ↦ token.text = .ok key) Node.Skims :=
      ⟨hmember.before, hmember.key.readsToken, hmember.after, hmember.value.reads⟩
    refine ((readsMembers_insert hfront hback hread true).object blank_nil).imp ?_
    rintro _ ⟨_, rfl, token, node, htoken, hnode, rfl⟩
    exact .here hkey htoken hnode
  | @member layout inner front back name value text hname _ ih =>
    obtain ⟨hfront, hinner, hback⟩ := Value.membersWellFormed_append.1 hvalue
    have hread := MemberText.reads_printed name (ih hinner)
    refine ((readsMembers_insert hfront hback hread true).object blank_nil).imp ?_
    rintro _ ⟨_, rfl, _, node, rfl, hnode, rfl⟩
    exact .member hname hnode
  | @item layout front back value text _ ih =>
    obtain ⟨hfront, hinner, hback⟩ := Value.itemsWellFormed_append.1 hvalue
    refine ((readsItems_insert hfront hback (ih hinner) true).array blank_nil).imp ?_
    rintro _ ⟨_, rfl, node, hnode, rfl⟩
    exact .item hnode

end TensorInference.Json
