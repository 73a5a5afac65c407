import Mathlib.Data.List.DropRight
import TensorInference.Proofs.Json.Truncation

/-!
# The grammar of JSON texts

`IsValue` is the grammar of JSON: blanks between any two tokens, strings with every kind of escape,
numbers of any size in either spelling of the exponent, and lists and objects of any depth. It is
the language of what a reader may be handed, not of what is written here, and it does not ask
whether a number fits anywhere or an escape names a character.

`Reads` says that a text is read as a tree with some property, whatever stands behind it. It passes
from the entries of a list or an object to the whole; the steps of the reader are counted against
the length of the text, three for every byte.
Main statement: `IsValue.reads`, every text of the grammar is read as a tree that can be skimmed.
-/

namespace TensorInference.Json

/-- A text of blanks only. -/
def Blank (s : Bytes) : Prop :=
  ∀ b ∈ s, isBlank b

theorem blank_nil : Blank [] := nofun

theorem Blank.skipBlanks_append {blanks : Bytes} (h : Blank blanks) (s : Bytes) :
    skipBlanks (blanks ++ s) = skipBlanks s :=
  List.dropWhile_append_of_pos h

theorem skipBlanks_skipBlanks (s : Bytes) : skipBlanks (skipBlanks s) = skipBlanks s :=
  List.dropWhile_idempotent isBlank s

/-- A blank is no part of a numeral. -/
theorem Blank.endsNumeral {blanks rest : Bytes} (h : Blank blanks) (hrest : EndsNumeral rest) :
    EndsNumeral (blanks ++ rest) := by
  cases blanks with
  | nil => exact hrest
  | cons b blanks =>
    have hb : isBlank b := h b List.mem_cons_self
    simp only [isBlank, Bool.or_eq_true, decide_eq_true_eq] at hb
    obtain ((rfl | rfl) | rfl) | rfl := hb <;> exact endsNumeral_cons (by decide)

section Congruence

variable {s t : Bytes} (h : skipBlanks s = skipBlanks t)
include h

theorem readNode_congr (fuel : Nat) : readNode fuel s = readNode fuel t := by
  cases fuel with
  | zero => rfl
  | succ fuel => rw [readNode, readNode, h]

theorem readItems_congr (fuel : Nat) (first : Bool) :
    readItems fuel first s = readItems fuel first t := by
  cases fuel with
  | zero => rfl
  | succ fuel => rw [readItems, readItems, h]

theorem readMembers_congr (fuel : Nat) (first : Bool) :
    readMembers fuel first s = readMembers fuel first t := by
  cases fuel with
  | zero => rfl
  | succ fuel => rw [readMembers, readMembers, h]

end Congruence

/-- What may stand between the quotes of a string. An escape may name half of a surrogate pair. -/
inductive IsInside : Bytes → Prop where
  | nil : IsInside []
  | plain {b : UInt8} {s : Bytes} (hquote : b ≠ 0x22) (hslash : b ≠ 0x5c) (hcontrol : ¬ b < 0x20)
    (h : IsInside s) : IsInside (b :: s)
  | letter {letter : UInt8} {s : Bytes} (hletter : (simpleEscape letter).isSome)
    (h : IsInside s) : IsInside (0x5c :: letter :: s)
  | unit {h₁ h₂ h₃ h₄ : UInt8} {s : Bytes} (hhex : (hexValue4 h₁ h₂ h₃ h₄).isSome)
    (h : IsInside s) : IsInside (0x5c :: 0x75 :: h₁ :: h₂ :: h₃ :: h₄ :: s)

/-- What stands between the quotes of a string with the given content. Every character may stand
for itself, except for quotes, backslashes and control characters, or be named by an escape. -/
inductive Spells : Bytes → Bytes → Prop where
  | nil : Spells [] []
  | plain {b : UInt8} {s bytes : Bytes} (hquote : b ≠ 0x22) (hslash : b ≠ 0x5c)
    (hcontrol : ¬ b < 0x20) (h : Spells s bytes) : Spells (b :: s) (b :: bytes)
  | letter {letter byte : UInt8} {s bytes : Bytes} (hletter : simpleEscape letter = some byte)
    (h : Spells s bytes) : Spells (0x5c :: letter :: s) (byte :: bytes)
  | unit {h₁ h₂ h₃ h₄ : UInt8} {code : Nat} {s bytes : Bytes}
    (hhex : hexValue4 h₁ h₂ h₃ h₄ = some code) (hleading : isLeading code = false)
    (htrailing : isTrailing code = false) (h : Spells s bytes) :
    Spells (0x5c :: 0x75 :: h₁ :: h₂ :: h₃ :: h₄ :: s) (codePointBytes code ++ bytes)
  | pair {h₁ h₂ h₃ h₄ k₁ k₂ k₃ k₄ : UInt8} {leading trailing : Nat} {s bytes : Bytes}
    (hhex : hexValue4 h₁ h₂ h₃ h₄ = some leading) (hleading : isLeading leading)
    (hnext : hexValue4 k₁ k₂ k₃ k₄ = some trailing) (htrailing : isTrailing trailing)
    (h : Spells s bytes) :
    Spells (0x5c :: 0x75 :: h₁ :: h₂ :: h₃ :: h₄ :: 0x5c :: 0x75 :: k₁ :: k₂ :: k₃ :: k₄ :: s)
      (codePointBytes (pairValue leading trailing) ++ bytes)

theorem content_unit {h₁ h₂ h₃ h₄ : UInt8} {code : Nat} (s : Bytes)
    (hhex : hexValue4 h₁ h₂ h₃ h₄ = some code) (hleading : isLeading code = false)
    (htrailing : isTrailing code = false) :
    content (0x5c :: 0x75 :: h₁ :: h₂ :: h₃ :: h₄ :: s) =
      prepend (codePointBytes code) (content s) := by
  rw [content.eq_def]
  simp [hhex, hleading, htrailing]

theorem content_pair {h₁ h₂ h₃ h₄ k₁ k₂ k₃ k₄ : UInt8} {leading trailing : Nat} (s : Bytes)
    (hhex : hexValue4 h₁ h₂ h₃ h₄ = some leading) (hleading : isLeading leading)
    (hnext : hexValue4 k₁ k₂ k₃ k₄ = some trailing) (htrailing : isTrailing trailing) :
    content (0x5c :: 0x75 :: h₁ :: h₂ :: h₃ :: h₄ :: 0x5c :: 0x75 :: k₁ :: k₂ :: k₃ :: k₄ :: s) =
      prepend (codePointBytes (pairValue leading trailing)) (content s) := by
  have hlow : isTrailing leading = false := by
    simp only [isLeading, isTrailing, Bool.and_eq_true, decide_eq_true_eq, Bool.and_eq_false_iff,
      decide_eq_false_iff_not] at hleading ⊢
    omega
  rw [content.eq_def]
  simp [hhex, hleading, hlow, hnext, htrailing]

theorem IsInside.skimContent {raw : Bytes} (h : IsInside raw) (rest : Bytes) :
    skimContent (raw ++ 0x22 :: rest) = .ok rest := by
  induction h with
  | nil => exact skimContent_quote rest
  | plain hquote hslash hcontrol _ ih => exact (skimContent_plain _ hquote hslash hcontrol).trans ih
  | letter hletter _ ih => exact (skimContent_letter _ hletter).trans ih
  | unit hhex _ ih => exact (skimContent_unit _ hhex).trans ih

namespace Spells

theorem isInside {raw bytes : Bytes} (h : Spells raw bytes) : IsInside raw := by
  induction h with
  | nil => exact .nil
  | plain hquote hslash hcontrol _ ih => exact .plain hquote hslash hcontrol ih
  | letter hletter _ ih => exact .letter (Option.isSome_of_eq_some hletter) ih
  | unit hhex _ _ _ ih => exact .unit (Option.isSome_of_eq_some hhex) ih
  | pair hhex _ hnext _ _ ih =>
    exact .unit (Option.isSome_of_eq_some hhex) (.unit (Option.isSome_of_eq_some hnext) ih)

theorem content {raw bytes : Bytes} (h : Spells raw bytes) (rest : Bytes) :
    Json.content (raw ++ 0x22 :: rest) = .ok (bytes, rest) := by
  induction h with
  | nil => exact content_quote rest
  | plain hquote hslash hcontrol _ ih =>
    exact (content_plain _ hquote hslash hcontrol).trans (congrArg (prepend _) ih)
  | letter hletter _ ih => exact (content_letter _ hletter).trans (congrArg (prepend _) ih)
  | unit hhex hleading htrailing _ ih =>
    exact (content_unit _ hhex hleading htrailing).trans (congrArg (prepend _) ih)
  | pair hhex hleading hnext htrailing _ ih =>
    exact (content_pair _ hhex hleading hnext htrailing).trans (congrArg (prepend _) ih)

end Spells

/-- The inside of a string is read as a token with a property, up to the closing quote. -/
def ReadsToken (raw : Bytes) (K : Token → Prop) : Prop :=
  ∀ rest, ∃ token, readToken (raw ++ 0x22 :: rest) = (token, rest) ∧ K token

theorem IsInside.readsToken {raw : Bytes} (h : IsInside raw) :
    ReadsToken raw fun token ↦ token.skimmed = .ok () := by
  intro rest
  rw [readToken, h.skimContent rest]
  exact ⟨_, rfl, rfl⟩

/-- A spelled text is the text of its token. -/
theorem Spells.readsToken {raw : Bytes} {text : String} (h : Spells raw (Bytes.ofText text)) :
    ReadsToken raw fun token ↦ token.text = .ok text := by
  intro rest
  rw [readToken, h.isInside.skimContent rest]
  refine ⟨_, rfl, ?_⟩
  simp only [h.content rest, Bytes.text?_ofText]

theorem readsToken_escape (text : String) :
    ReadsToken (escape (Bytes.ofText text)) (· = Value.token text) :=
  fun rest ↦ ⟨_, readToken_escape text rest, rfl⟩

namespace Numeral

/-- The text of a numeral without its sign, with a letter of choice before the exponent. -/
def magnitudeWith (marker : UInt8) (n : Numeral) : Bytes :=
  n.whole ++ (fractionBytes n.fraction ++
    match n.exponent with
    | none => []
    | some (sign, ds) => marker :: (signBytes sign ++ ds))

/-- The text of a numeral with a letter of choice before the exponent. -/
def spell (marker : UInt8) (n : Numeral) : Bytes :=
  (if n.negative then [0x2d] else []) ++ n.magnitudeWith marker

theorem magnitudeWith_lower (n : Numeral) : n.magnitudeWith 0x65 = n.magnitudeBytes := by
  obtain ⟨negative, whole, fraction, exponent⟩ := n
  cases exponent <;> rfl

end Numeral

/-- The reader does not tell the two letters of an exponent apart. -/
theorem readNumber_upper (negative : Bool) {whole fraction : Bytes}
    (hwhole : ∀ b ∈ whole, Numeral.isDigit b) (hfraction : ∀ b ∈ fraction, Numeral.isDigit b)
    (s : Bytes) :
    readNumber negative (whole ++ (Numeral.fractionBytes fraction ++ 0x45 :: s)) =
      readNumber negative (whole ++ (Numeral.fractionBytes fraction ++ 0x65 :: s)) := by
  have hmarkers : ∀ marker : UInt8, marker = 0x45 ∨ marker = 0x65 →
      ∀ b ∈ (marker :: s).head?, Numeral.isDigit b = false := by
    rintro marker (rfl | rfl) b ⟨⟩ <;> decide
  have hupper := hmarkers 0x45 (.inl rfl)
  have hlower := hmarkers 0x65 (.inr rfl)
  cases fraction with
  | nil =>
    simp only [Numeral.fractionBytes, if_true, List.nil_append, readNumber,
      digits_append hwhole hupper, digits_append hwhole hlower]
    cases whole <;> rfl
  | cons d ds =>
    have hpoint : ∀ t, ∀ b ∈ (Numeral.fractionBytes (d :: ds) ++ t).head?,
        Numeral.isDigit b = false := by
      rintro t b ⟨⟩
      decide
    have htail : ∀ marker : UInt8, marker = 0x45 ∨ marker = 0x65 →
        readFraction negative whole (Numeral.fractionBytes (d :: ds) ++ marker :: s) =
          readExponent negative whole (d :: ds) (marker :: s) := by
      intro marker hmarker
      have hsplit := digits_append hfraction (hmarkers marker hmarker)
      rw [List.cons_append] at hsplit
      simp [Numeral.fractionBytes, readFraction, hsplit]
    rw [readNumber, readNumber, digits_append hwhole (hpoint _), digits_append hwhole (hpoint _)]
    cases whole with
    | nil => rfl
    | cons w ws =>
      dsimp only
      rw [htail 0x45 (.inl rfl), htail 0x65 (.inr rfl)]
      rfl

/-- A numeral of the grammar is read back in either spelling, after its sign. -/
theorem readNumber_magnitudeWith {n : Numeral} (hn : n.WellFormed) {marker : UInt8}
    (hmarker : marker = 0x65 ∨ marker = 0x45) {rest : Bytes} (hrest : EndsNumeral rest) :
    readNumber n.negative (n.magnitudeWith marker ++ rest) = (.number n, rest) := by
  have hlower := readNumber_magnitudeBytes hn hrest
  rw [← Numeral.magnitudeWith_lower] at hlower
  rcases hmarker with rfl | rfl
  · exact hlower
  · refine Eq.trans ?_ hlower
    simp only [Numeral.magnitudeWith, List.append_assoc]
    cases n.exponent with
    | none => rfl
    | some exponent => exact readNumber_upper _ hn.whole hn.fraction _

/-! ## Texts that are read -/

/-- A text is read as a tree with a property, whatever stands behind it; no more than blanks are
left of it. -/
structure Reads (text : Bytes) (P : Node → Prop) : Prop where
  /-- There is something to read that does not close a list. -/
  starts : ∃ b s, skipBlanks text = b :: s ∧ b ≠ 0x5d
  read : ∀ (fuel : Nat) (rest : Bytes), 3 * text.length ≤ fuel → EndsNumeral rest →
    ∃ node tail, readNode fuel (text ++ rest) = (node, tail) ∧
      skipBlanks tail = skipBlanks rest ∧ P node

namespace Reads

variable {text : Bytes} {P Q : Node → Prop}

theorem imp (h : Reads text P) (hPQ : ∀ node, P node → Q node) : Reads text Q where
  starts := h.starts
  read fuel rest hfuel hrest := by
    obtain ⟨node, tail, hread, htail, hnode⟩ := h.read fuel rest hfuel hrest
    exact ⟨node, tail, hread, htail, hPQ node hnode⟩

/-- A text without blanks around it that is read to its end. -/
theorem of_readNode {b : UInt8} {s : Bytes} (hblank : isBlank b = false) (hclose : b ≠ 0x5d)
    (h : ∀ fuel rest, 3 * (b :: s).length ≤ fuel + 1 → EndsNumeral rest →
      ∃ node, readNode (fuel + 1) (b :: (s ++ rest)) = (node, rest) ∧ P node) :
    Reads (b :: s) P where
  starts := ⟨b, s, skipBlanks_cons hblank s, hclose⟩
  read fuel rest hfuel hrest := by
    obtain ⟨fuel, rfl⟩ : ∃ k, fuel = k + 1 :=
      ⟨fuel - 1, by rw [List.length_cons] at hfuel; omega⟩
    obtain ⟨node, hread, hnode⟩ := h fuel rest hfuel hrest
    exact ⟨node, rest, hread, rfl, hnode⟩

/-- A printed value is read as its tree. -/
theorem print {value : Value} (h : value.WellFormed) : Reads value.print (· = value.toNode) := by
  obtain ⟨b, s, htext, hblank, hclose⟩ := Value.exists_print_eq_cons h
  rw [htext]
  refine of_readNode hblank hclose fun fuel rest hfuel hrest ↦ ⟨_, ?_, rfl⟩
  have hread := Value.readNode_print value h (fuel + 1) rest (by rw [htext]; exact hfuel) hrest
  rwa [htext] at hread

theorem pad {before after : Bytes} (hbefore : Blank before) (h : Reads text P)
    (hafter : Blank after) : Reads (before ++ text ++ after) P where
  starts := by
    obtain ⟨b, s, hs, hclose⟩ := h.starts
    refine ⟨b, s ++ after, ?_, hclose⟩
    rw [List.append_assoc, hbefore.skipBlanks_append]
    exact skipBlanks_append hs after
  read fuel rest hfuel hrest := by
    have hlength : 3 * text.length ≤ fuel := by
      simp only [List.length_append] at hfuel
      omega
    obtain ⟨node, tail, hread, htail, hnode⟩ := h.read fuel _ hlength (hafter.endsNumeral hrest)
    refine ⟨node, tail, ?_, htail.trans (hafter.skipBlanks_append rest), hnode⟩
    rw [List.append_assoc, List.append_assoc, ← hread]
    exact readNode_congr (hbefore.skipBlanks_append _) fuel

theorem ne_nil (h : Reads text P) : text ≠ [] := by
  rintro rfl
  obtain ⟨b, s, hs, -⟩ := h.starts
  cases hs

end Reads

theorem reads_numeral {n : Numeral} (hn : n.WellFormed) {marker : UInt8}
    (hmarker : marker = 0x65 ∨ marker = 0x45) : Reads (n.spell marker) (· = .number n) := by
  have hread := @readNumber_magnitudeWith n hn marker hmarker
  rw [Numeral.spell]
  cases hnegative : n.negative with
  | true =>
    rw [hnegative] at hread
    exact .of_readNode (by decide) (by decide) fun fuel rest _ hrest ↦
      ⟨_, (readNode_minus fuel _).trans (hread hrest), rfl⟩
  | false =>
    obtain ⟨d, ds, hwhole⟩ := List.exists_cons_of_ne_nil hn.whole_ne
    have hd : Numeral.isDigit d := hn.whole d (hwhole ▸ List.mem_cons_self)
    rw [hnegative, Numeral.magnitudeWith, hwhole] at hread
    rw [Numeral.magnitudeWith, hwhole]
    exact .of_readNode (isBlank_of_isDigit hd) (ne_of_isDigit hd (by decide))
      fun fuel rest _ hrest ↦ ⟨_, (readNode_digit fuel hd _).trans (hread hrest), rfl⟩

theorem reads_string {raw : Bytes} {K : Token → Prop} (h : ReadsToken raw K) :
    Reads (0x22 :: (raw ++ [0x22])) fun node ↦ ∃ token, node = .string token ∧ K token := by
  refine .of_readNode (by decide) (by decide) fun fuel rest _ _ ↦ ?_
  obtain ⟨token, hread, htoken⟩ := h rest
  refine ⟨.string token, ?_, token, rfl, htoken⟩
  rw [List.append_assoc, List.singleton_append, readNode, skipBlanks_cons (by decide)]
  simp only [hread]
  rfl

/-- Entries with the commas between them; a first entry has none before it. -/
def entriesText : Bool → List Bytes → Bytes
  | _, [] => []
  | first, entry :: rest => (if first then [] else [0x2c]) ++ entry ++ entriesText false rest

theorem endsNumeral_entriesText (entries : List Bytes) {close : UInt8} (rest : Bytes)
    (hclose : close = 0x5d ∨ close = 0x7d) :
    EndsNumeral (entriesText false entries ++ close :: rest) := by
  cases entries with
  | nil => obtain rfl | rfl := hclose <;> exact endsNumeral_cons (by decide)
  | cons => exact endsNumeral_cons (by decide)

/-- An entry starts where its text does, after the comma if one is needed. -/
theorem entryStarts_entriesText {entry s : Bytes} {b : UInt8} (h : skipBlanks entry = b :: s)
    (first : Bool) (rest : Bytes) :
    EntryStarts first ((if first then [] else [0x2c]) ++ entry ++ rest) (b :: (s ++ rest)) := by
  cases first with
  | true => exact .first (skipBlanks_append h rest)
  | false => exact .next (skipBlanks_cons (by decide) _) (skipBlanks_append h rest)

/-- The text of a list. -/
def arrayText (items : List Bytes) : Bytes :=
  0x5b :: (entriesText true items ++ [0x5d])

/-- The parts of a member's text: the blanks before the key, the inside of the key, the blanks
before the colon, and the text of the value. -/
structure MemberText where
  before : Bytes
  key : Bytes
  after : Bytes
  value : Bytes

namespace MemberText

/-- The text of a member. -/
def text (member : MemberText) : Bytes :=
  member.before ++ 0x22 :: (member.key ++ 0x22 :: (member.after ++ 0x3a :: member.value))

/-- A member as it is printed, with a text in the place of its value. -/
def printed (name : String) (value : Bytes) : MemberText :=
  ⟨[], escape (Bytes.ofText name), [], value⟩

/-- A member whose key and value are read with given properties. -/
structure Reads (member : MemberText) (K : Token → Prop) (P : Node → Prop) : Prop where
  before : Blank member.before
  key : ReadsToken member.key K
  after : Blank member.after
  value : Json.Reads member.value P

theorem reads_printed (name : String) {value : Bytes} {P : Node → Prop} (h : Json.Reads value P) :
    (printed name value).Reads (· = Value.token name) P :=
  ⟨blank_nil, readsToken_escape name, blank_nil, h⟩

end MemberText

/-- The text of an object. -/
def objectText (members : List MemberText) : Bytes :=
  0x7b :: (entriesText true (members.map MemberText.text) ++ [0x7d])

/-- The entries of a list are read up to the closing bracket as items with a property. -/
structure ReadsItems (first : Bool) (texts : List Bytes) (Q : Items → Prop) : Prop where
  read : ∀ (fuel : Nat) (s rest : Bytes), 3 * (entriesText first texts).length + 3 ≤ fuel →
    skipBlanks s = skipBlanks (entriesText first texts ++ 0x5d :: rest) →
    ∃ items, readItems fuel first s = (items, rest) ∧ Q items

/-- The entries of an object are read up to the closing brace as members with a property. -/
structure ReadsMembers (first : Bool) (texts : List MemberText) (Q : Members → Prop) : Prop where
  read : ∀ (fuel : Nat) (s rest : Bytes),
    3 * (entriesText first (texts.map MemberText.text)).length + 3 ≤ fuel →
    skipBlanks s = skipBlanks (entriesText first (texts.map MemberText.text) ++ 0x7d :: rest) →
    ∃ members, readMembers fuel first s = (members, rest) ∧ Q members

namespace ReadsItems

variable {first : Bool} {Q : Items → Prop}

theorem nil (first : Bool) (hQ : Q .done) : ReadsItems first [] Q := by
  refine ⟨fun fuel s rest hfuel hs ↦ ?_⟩
  obtain ⟨fuel, rfl⟩ : ∃ k, fuel = k + 1 := ⟨fuel - 1, by omega⟩
  exact ⟨.done, (readItems_congr hs _ _).trans (readItems_close fuel first rest), hQ⟩

theorem cons {text : Bytes} {texts : List Bytes} {P : Node → Prop} {R : Items → Prop}
    (hitem : Reads text P) (hrest : ReadsItems false texts R)
    (hQ : ∀ item rest, P item → R rest → Q (.more item rest)) :
    ReadsItems first (text :: texts) Q := by
  refine ⟨fun fuel s rest hfuel hs ↦ ?_⟩
  obtain ⟨b, r, htext, hclose⟩ := hitem.starts
  have hlength := List.length_pos_iff.2 hitem.ne_nil
  simp only [entriesText, List.length_append] at hfuel
  obtain ⟨fuel, rfl⟩ : ∃ k, fuel = k + 1 := ⟨fuel - 1, by omega⟩
  generalize hbehind : entriesText false texts ++ 0x5d :: rest = behind
  have hends : EndsNumeral behind := hbehind ▸ endsNumeral_entriesText texts rest (.inl rfl)
  obtain ⟨node, tail, hnode, htail, hP⟩ := hitem.read fuel _ (by omega) hends
  obtain ⟨items, hitems, hR⟩ := hrest.read fuel tail rest (by omega) (htail.trans (by rw [hbehind]))
  have hstart : readNode fuel (b :: (r ++ behind)) = (node, tail) := by
    rw [← hnode, ← skipBlanks_append htext]
    exact readNode_congr (skipBlanks_skipBlanks _) fuel
  refine ⟨.more node items, ?_, hQ node items hP hR⟩
  rw [readItems_congr hs, entriesText, List.append_assoc, hbehind,
    readItems_entry (entryStarts_entriesText htext first behind) hclose, hstart, hitems]

end ReadsItems

namespace ReadsMembers

variable {first : Bool} {Q : Members → Prop}

theorem nil (first : Bool) (hQ : Q .done) : ReadsMembers first [] Q := by
  refine ⟨fun fuel s rest hfuel hs ↦ ?_⟩
  obtain ⟨fuel, rfl⟩ : ∃ k, fuel = k + 1 := ⟨fuel - 1, by omega⟩
  exact ⟨.done, (readMembers_congr hs _ _).trans (readMembers_close fuel first rest), hQ⟩

theorem cons {text : MemberText} {texts : List MemberText} {K : Token → Prop} {P : Node → Prop}
    {R : Members → Prop} (hmember : text.Reads K P) (hrest : ReadsMembers false texts R)
    (hQ : ∀ key value rest, K key → P value → R rest → Q (.more key value rest)) :
    ReadsMembers first (text :: texts) Q := by
  refine ⟨fun fuel s rest hfuel hs ↦ ?_⟩
  obtain ⟨before, raw, after, value⟩ := text
  obtain ⟨hbefore, hkey, hafter, hvalue⟩ := hmember
  dsimp only at hbefore hkey hafter hvalue
  simp only [List.map_cons, entriesText, MemberText.text, List.length_append,
    List.length_cons] at hfuel
  obtain ⟨fuel, rfl⟩ : ∃ k, fuel = k + 2 := ⟨fuel - 2, by omega⟩
  generalize hbehind : entriesText false (texts.map MemberText.text) ++ 0x7d :: rest = behind
  have hends : EndsNumeral behind :=
    hbehind ▸ endsNumeral_entriesText (texts.map MemberText.text) rest (.inr rfl)
  obtain ⟨node, tail, hnode, htail, hP⟩ := hvalue.read fuel _ (by omega) hends
  obtain ⟨members, hmembers, hR⟩ :=
    hrest.read fuel tail rest (by omega) (htail.trans (by rw [hbehind]))
  obtain ⟨key, htoken, hK⟩ := hkey (after ++ 0x3a :: (value ++ behind))
  refine ⟨.more key node members, ?_, hQ key node members hK hP hR⟩
  have hquote : skipBlanks (MemberText.text ⟨before, raw, after, value⟩) =
      0x22 :: (raw ++ 0x22 :: (after ++ 0x3a :: value)) :=
    (hbefore.skipBlanks_append _).trans (skipBlanks_cons (by decide) _)
  have hcolon : skipBlanks (readToken (raw ++ 0x22 :: (after ++ 0x3a :: (value ++ behind)))).2 =
      0x3a :: (value ++ behind) := by
    rw [htoken]
    exact (hafter.skipBlanks_append _).trans (skipBlanks_cons (by decide) _)
  have hstart := entryStarts_entriesText hquote first behind
  simp only [List.append_assoc, List.cons_append] at hstart
  rw [readMembers_congr hs, List.map_cons, entriesText, List.append_assoc, List.append_assoc,
    hbehind, readMembers_entry hstart, readMember_colon hcolon, htoken, hnode, hmembers]

end ReadsMembers

/-- A list is read if its entries are; blanks may stand behind the opening bracket. -/
theorem ReadsItems.array {blanks : Bytes} {texts : List Bytes} {Q : Items → Prop}
    (hblanks : Blank blanks) (h : ReadsItems true texts Q) :
    Reads (0x5b :: (blanks ++ entriesText true texts ++ [0x5d]))
      fun node ↦ ∃ items, node = .array items ∧ Q items := by
  refine .of_readNode (by decide) (by decide) fun fuel rest hfuel _ ↦ ?_
  simp only [List.length_cons, List.length_append, List.length_nil] at hfuel
  have hskip : skipBlanks (blanks ++ entriesText true texts ++ [0x5d] ++ rest) =
      skipBlanks (entriesText true texts ++ 0x5d :: rest) := by
    rw [List.append_assoc, List.append_assoc, hblanks.skipBlanks_append]
    rfl
  obtain ⟨items, hitems, hQ⟩ := h.read fuel _ rest (by omega) hskip
  exact ⟨.array items, by rw [readNode_array, hitems], items, rfl, hQ⟩

/-- An object is read if its entries are; blanks may stand behind the opening brace. -/
theorem ReadsMembers.object {blanks : Bytes} {texts : List MemberText} {Q : Members → Prop}
    (hblanks : Blank blanks) (h : ReadsMembers true texts Q) :
    Reads (0x7b :: (blanks ++ entriesText true (texts.map MemberText.text) ++ [0x7d]))
      fun node ↦ ∃ members, node = .object members ∧ Q members := by
  refine .of_readNode (by decide) (by decide) fun fuel rest hfuel _ ↦ ?_
  simp only [List.length_cons, List.length_append, List.length_nil] at hfuel
  have hskip : skipBlanks
        (blanks ++ entriesText true (texts.map MemberText.text) ++ [0x7d] ++ rest) =
      skipBlanks (entriesText true (texts.map MemberText.text) ++ 0x7d :: rest) := by
    rw [List.append_assoc, List.append_assoc, hblanks.skipBlanks_append]
    rfl
  obtain ⟨members, hmembers, hQ⟩ := h.read fuel _ rest (by omega) hskip
  exact ⟨.object members, by rw [readNode_object, hmembers], members, rfl, hQ⟩

/-- The texts of JSON values. The bytes of a string need not be UTF-8 and its escapes need not name
characters, so this is more than the texts of values that anybody would write. -/
inductive IsValue : Bytes → Prop where
  | null : IsValue (Bytes.ofText "null")
  | boolean (b : Bool) : IsValue (Bytes.ofText (if b then "true" else "false"))
  | number {n : Numeral} {marker : UInt8} (hn : n.WellFormed)
    (hmarker : marker = 0x65 ∨ marker = 0x45) : IsValue (n.spell marker)
  | string {raw : Bytes} (h : IsInside raw) : IsValue (0x22 :: (raw ++ [0x22]))
  | array {blanks : Bytes} {items : List Bytes} (hblanks : Blank blanks)
    (h : ∀ item ∈ items, IsValue item) :
    IsValue (0x5b :: (blanks ++ entriesText true items ++ [0x5d]))
  | object {blanks : Bytes} {members : List MemberText} (hblanks : Blank blanks)
    (hbefore : ∀ member ∈ members, Blank member.before)
    (hkey : ∀ member ∈ members, IsInside member.key)
    (hafter : ∀ member ∈ members, Blank member.after)
    (h : ∀ member ∈ members, IsValue member.value) :
    IsValue (0x7b :: (blanks ++ entriesText true (members.map MemberText.text) ++ [0x7d]))
  | pad {before text after : Bytes} (hbefore : Blank before) (h : IsValue text)
    (hafter : Blank after) : IsValue (before ++ text ++ after)

/-- A tree that can be skimmed to its end. -/
def Node.Skims (node : Node) : Prop :=
  node.skim = .ok ()

theorem readsItems_of_skims {texts : List Bytes} (h : ∀ text ∈ texts, Reads text Node.Skims)
    (first : Bool) : ReadsItems first texts fun items ↦ items.skim = .ok () := by
  induction texts generalizing first with
  | nil => exact .nil first rfl
  | cons text texts ih =>
    obtain ⟨htext, htexts⟩ := List.forall_mem_cons.1 h
    refine .cons htext (ih htexts false) fun item rest hitem hrest ↦ ?_
    rw [Items.skim, show item.skim = _ from hitem]
    exact hrest

theorem readsMembers_of_skims {texts : List MemberText}
    (h : ∀ text ∈ texts, text.Reads (fun key ↦ key.skimmed = .ok ()) Node.Skims) (first : Bool) :
    ReadsMembers first texts fun members ↦ members.skim = .ok () := by
  induction texts generalizing first with
  | nil => exact .nil first rfl
  | cons text texts ih =>
    obtain ⟨htext, htexts⟩ := List.forall_mem_cons.1 h
    refine .cons htext (ih htexts false) fun key value rest hkey hvalue hrest ↦ ?_
    rw [Members.skim, hkey, show value.skim = _ from hvalue]
    exact hrest

/-- Every text of the grammar is read as a tree that can be skimmed. -/
theorem IsValue.reads {text : Bytes} (h : IsValue text) : Reads text Node.Skims := by
  induction h with
  | null => exact (@Reads.print .null trivial).imp fun _ hnode ↦ hnode ▸ rfl
  | boolean b =>
    have hprint : Bytes.ofText (if b then "true" else "false") = (Value.boolean b).print := by
      cases b <;> rfl
    rw [hprint]
    exact (@Reads.print (.boolean b) trivial).imp fun _ hnode ↦ hnode ▸ rfl
  | number hn hmarker => exact (reads_numeral hn hmarker).imp fun _ hnode ↦ hnode ▸ rfl
  | string h =>
    refine (reads_string h.readsToken).imp ?_
    rintro _ ⟨token, rfl, htoken⟩
    exact htoken
  | array hblanks _ ih =>
    refine ((readsItems_of_skims ih true).array hblanks).imp ?_
    rintro _ ⟨items, rfl, hitems⟩
    exact hitems
  | object hblanks hbefore hkey hafter _ ih =>
    have hmembers := readsMembers_of_skims (fun member hmember ↦ ⟨hbefore member hmember,
      (hkey member hmember).readsToken, hafter member hmember, ih member hmember⟩) true
    refine (hmembers.object hblanks).imp ?_
    rintro _ ⟨members, rfl, hskim⟩
    exact hskim
  | pad hbefore _ hafter ih => exact ih.pad hbefore hafter

/-- A text that is read with nothing but blanks behind it is a whole text. -/
theorem Reads.document {text : Bytes} {P : Node → Prop} (h : Reads text P) :
    ∃ node, Document.read text = ⟨node, true⟩ ∧ P node := by
  obtain ⟨node, tail, hread, htail, hnode⟩ :=
    h.read (3 * text.length + 3) [] (by omega) endsNumeral_nil
  rw [List.append_nil] at hread
  refine ⟨node, ?_, hnode⟩
  rw [Document.read, hread]
  exact congrArg (fun rest : Bytes ↦ Document.mk node rest.isEmpty) htail

end TensorInference.Json
