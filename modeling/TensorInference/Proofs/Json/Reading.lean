import TensorInference.Proofs.Json.Numeral
import TensorInference.Proofs.Json.Text

/-!
# Printed values as read

A printed value is read as its tree and leaves what stands behind it, if the reader has enough
steps and, for numbers, if what stands behind cannot continue the value. The induction is on the
value; the steps are counted against the length of the text, three for every byte.
Main statement: `Document.read_print`.
-/

namespace TensorInference.Json

namespace Value

mutual

/-- Values whose numbers obey the grammar of numerals. -/
def WellFormed : Value → Prop
  | .number numeral => numeral.WellFormed
  | .array items => ItemsWellFormed items
  | .object members => MembersWellFormed members
  | _ => True

/-- Items whose numbers obey the grammar of numerals. -/
def ItemsWellFormed : List Value → Prop
  | [] => True
  | item :: rest => item.WellFormed ∧ ItemsWellFormed rest

/-- Members whose numbers obey the grammar of numerals. -/
def MembersWellFormed : List (String × Value) → Prop
  | [] => True
  | (_, value) :: rest => value.WellFormed ∧ MembersWellFormed rest

end

theorem itemsWellFormed_iff {items : List Value} :
    ItemsWellFormed items ↔ ∀ item ∈ items, item.WellFormed := by
  induction items with
  | nil => simp [ItemsWellFormed]
  | cons item rest ih => simp [ItemsWellFormed, ih]

theorem membersWellFormed_iff {members : List (String × Value)} :
    MembersWellFormed members ↔ ∀ entry ∈ members, entry.2.WellFormed := by
  induction members with
  | nil => simp [MembersWellFormed]
  | cons entry rest ih => simp [MembersWellFormed, ih]

end Value

theorem skipBlanks_cons {b : UInt8} (h : isBlank b = false) (s : Bytes) :
    skipBlanks (b :: s) = b :: s := by
  simp [skipBlanks, h]

/-- Where an entry of a list or an object starts: the first one at once, a further one after a
comma. -/
inductive EntryStarts : Bool → Bytes → Bytes → Prop where
  | first {s u : Bytes} (h : skipBlanks s = u) : EntryStarts true s u
  | next {s v u : Bytes} (h : skipBlanks s = 0x2c :: v) (hv : skipBlanks v = u) :
    EntryStarts false s u

theorem entryStarts_first {b : UInt8} (h : isBlank b = false) (s : Bytes) :
    EntryStarts true (b :: s) (b :: s) :=
  .first (skipBlanks_cons h s)

theorem entryStarts_next {b : UInt8} (h : isBlank b = false) (s : Bytes) :
    EntryStarts false (0x2c :: b :: s) (b :: s) :=
  .next (skipBlanks_cons (by decide) _) (skipBlanks_cons h s)

theorem readWord_append (value : Node) (word rest : Bytes) :
    readWord value word (word ++ rest) = (value, rest) := by
  induction word with
  | nil => cases rest <;> rfl
  | cons letter word ih => simpa [readWord] using ih

theorem readItems_close (fuel : Nat) (first : Bool) (s : Bytes) :
    readItems (fuel + 1) first (0x5d :: s) = (.done, s) := by
  rw [readItems, skipBlanks_cons (by decide)]
  rfl

theorem readItems_entry {first : Bool} {s : Bytes} {b : UInt8} {r : Bytes}
    (h : EntryStarts first s (b :: r)) (hclose : b ≠ 0x5d) (fuel : Nat) :
    readItems (fuel + 1) first s =
      (.more (readNode fuel (b :: r)).1 (readItems fuel false (readNode fuel (b :: r)).2).1,
        (readItems fuel false (readNode fuel (b :: r)).2).2) := by
  cases h with
  | first hs => simp [readItems, hs, hclose]
  | next hs hv => simp [readItems, hs, hv, hclose]

theorem readMembers_close (fuel : Nat) (first : Bool) (s : Bytes) :
    readMembers (fuel + 1) first (0x7d :: s) = (.done, s) := by
  rw [readMembers, skipBlanks_cons (by decide)]
  rfl

theorem readMembers_entry {first : Bool} {s r : Bytes} (h : EntryStarts first s (0x22 :: r))
    (fuel : Nat) : readMembers (fuel + 1) first s = readMember fuel r := by
  cases h with
  | first hs => simp [readMembers, hs]
  | next hs hv => simp [readMembers, hs, hv]

/-- A written key and its colon are read over. -/
theorem readMember_escape (fuel : Nat) (key : String) (s : Bytes) :
    readMember (fuel + 1) (escape (Bytes.ofText key) ++ 0x22 :: 0x3a :: s) =
      (.more (Value.token key) (readNode fuel s).1 (readMembers fuel false (readNode fuel s).2).1,
        (readMembers fuel false (readNode fuel s).2).2) := by
  rw [readMember, readToken_escape]
  simp [skipBlanks_cons (b := 0x3a) (by decide)]

theorem readNode_string (fuel : Nat) (text : String) (s : Bytes) :
    readNode (fuel + 1) (Value.printText text ++ s) = (.string (Value.token text), s) := by
  have htext : Value.printText text ++ s = 0x22 :: (escape (Bytes.ofText text) ++ 0x22 :: s) := by
    simp [Value.printText]
  rw [htext, readNode, skipBlanks_cons (by decide)]
  simp only [readToken_escape]
  rfl

theorem readNode_array (fuel : Nat) (s : Bytes) :
    readNode (fuel + 1) (0x5b :: s) =
      (.array (readItems fuel true s).1, (readItems fuel true s).2) := by
  rw [readNode, skipBlanks_cons (by decide)]
  rfl

theorem readNode_object (fuel : Nat) (s : Bytes) :
    readNode (fuel + 1) (0x7b :: s) =
      (.object (readMembers fuel true s).1, (readMembers fuel true s).2) := by
  rw [readNode, skipBlanks_cons (by decide)]
  rfl

/-- A printed numeral starts with a digit or with its sign. -/
theorem Numeral.WellFormed.exists_print_eq_cons {n : Numeral} (hn : n.WellFormed) :
    ∃ b s, n.print = b :: s ∧ (b = 0x2d ∨ Numeral.isDigit b) := by
  obtain ⟨d, ds, hwhole⟩ := List.exists_cons_of_ne_nil hn.whole_ne
  have hd : Numeral.isDigit d := hn.whole d (hwhole ▸ List.mem_cons_self)
  rw [Numeral.print_eq]
  cases n.negative with
  | true => exact ⟨_, _, rfl, .inl rfl⟩
  | false => exact ⟨_, _, by rw [Numeral.magnitudeBytes, hwhole]; rfl, .inr hd⟩

theorem isBlank_of_isDigit {d : UInt8} (hd : Numeral.isDigit d) : isBlank d = false := by
  simp only [isBlank, Bool.or_eq_false_iff, decide_eq_false_iff_not]
  exact ⟨⟨⟨ne_of_isDigit hd (by decide), ne_of_isDigit hd (by decide)⟩,
    ne_of_isDigit hd (by decide)⟩, ne_of_isDigit hd (by decide)⟩

theorem readNode_minus (fuel : Nat) (s : Bytes) :
    readNode (fuel + 1) (0x2d :: s) = readNumber true s := by
  rw [readNode, skipBlanks_cons (by decide)]
  rfl

theorem readNode_digit (fuel : Nat) {d : UInt8} (hd : Numeral.isDigit d) (s : Bytes) :
    readNode (fuel + 1) (d :: s) = readNumber false (d :: s) := by
  have hn : d ≠ 0x6e := ne_of_isDigit hd (by decide)
  have ht : d ≠ 0x74 := ne_of_isDigit hd (by decide)
  have hf : d ≠ 0x66 := ne_of_isDigit hd (by decide)
  have hminus : d ≠ 0x2d := ne_of_isDigit hd (by decide)
  rw [readNode, skipBlanks_cons (isBlank_of_isDigit hd)]
  simp [hn, ht, hf, hminus, hd]

theorem readNode_numeral (fuel : Nat) {n : Numeral} (hn : n.WellFormed) {rest : Bytes}
    (hrest : EndsNumeral rest) :
    readNode (fuel + 1) (n.print ++ rest) = (.number n, rest) := by
  have hread := readNumber_magnitudeBytes hn hrest
  rw [Numeral.print_eq]
  cases hnegative : n.negative with
  | true => exact (readNode_minus fuel _).trans (hnegative ▸ hread)
  | false =>
    obtain ⟨d, ds, hwhole⟩ := List.exists_cons_of_ne_nil hn.whole_ne
    have hd : Numeral.isDigit d := hn.whole d (hwhole ▸ List.mem_cons_self)
    rw [hnegative, Numeral.magnitudeBytes, hwhole] at hread
    rw [Numeral.magnitudeBytes, hwhole]
    exact (readNode_digit fuel hd _).trans hread

namespace Value

/-- A printed value starts with a byte that is neither a blank nor a closing bracket. -/
theorem exists_print_eq_cons {value : Value} (h : value.WellFormed) :
    ∃ b s, value.print = b :: s ∧ isBlank b = false ∧ b ≠ 0x5d := by
  cases value with
  | null => exact ⟨_, _, rfl, by decide, by decide⟩
  | boolean b => cases b <;> exact ⟨_, _, rfl, by decide, by decide⟩
  | number n =>
    obtain ⟨b, s, htext, hb⟩ := Numeral.WellFormed.exists_print_eq_cons h
    refine ⟨b, s, htext, ?_⟩
    rcases hb with rfl | hb
    · decide
    · exact ⟨isBlank_of_isDigit hb, ne_of_isDigit hb (by decide)⟩
  | string text => exact ⟨_, _, rfl, by decide, by decide⟩
  | array items => cases items <;> exact ⟨_, _, rfl, by decide, by decide⟩
  | object members => cases members <;> exact ⟨_, _, rfl, by decide, by decide⟩

theorem endsNumeral_printItems (items : List Value) (rest : Bytes) :
    EndsNumeral (printItems items ++ rest) := by
  cases items <;> exact endsNumeral_cons (by decide)

theorem endsNumeral_printMembers (members : List (String × Value)) (rest : Bytes) :
    EndsNumeral (printMembers members ++ rest) := by
  rcases members with _ | ⟨⟨key, value⟩, members⟩ <;> exact endsNumeral_cons (by decide)

mutual

/-- A printed value is read as its tree, from any text that it cannot run into. -/
theorem readNode_print : (value : Value) → value.WellFormed → (fuel : Nat) → (rest : Bytes) →
    3 * value.print.length ≤ fuel → EndsNumeral rest →
    readNode fuel (value.print ++ rest) = (value.toNode, rest)
  | value, hvalue, 0, rest, hfuel, _ => by
    obtain ⟨b, s, htext, -⟩ := exists_print_eq_cons hvalue
    rw [htext, List.length_cons] at hfuel
    omega
  | .null, _, fuel + 1, rest, _, _ => readWord_append .null [0x75, 0x6c, 0x6c] rest
  | .boolean true, _, fuel + 1, rest, _, _ =>
    readWord_append (.boolean true) [0x72, 0x75, 0x65] rest
  | .boolean false, _, fuel + 1, rest, _, _ =>
    readWord_append (.boolean false) [0x61, 0x6c, 0x73, 0x65] rest
  | .number n, hn, fuel + 1, rest, _, hrest => readNode_numeral fuel hn hrest
  | .string text, _, fuel + 1, rest, _, _ => readNode_string fuel text rest
  | .array [], _, fuel + 1, rest, hfuel, _ => by
    obtain ⟨fuel, rfl⟩ : ∃ k, fuel = k + 1 := ⟨fuel - 1, by simp [print] at hfuel; omega⟩
    change readNode _ (0x5b :: 0x5d :: rest) = _
    rw [readNode_array, readItems_close]
    rfl
  | .array (item :: items), hvalue, fuel + 1, rest, hfuel, _ => by
    obtain ⟨hitem, hitems⟩ := hvalue
    obtain ⟨b, s, htext, hblank, hclose⟩ := exists_print_eq_cons hitem
    simp only [print, List.length_cons, List.length_append] at hfuel
    obtain ⟨fuel, rfl⟩ : ∃ k, fuel = k + 1 := ⟨fuel - 1, by omega⟩
    have hfirst := readNode_print item hitem fuel (printItems items ++ rest) (by omega)
      (endsNumeral_printItems items rest)
    have hrest := readItems_printItems items hitems fuel rest (by omega)
    simp only [print, List.cons_append, List.append_assoc, readNode_array]
    rw [htext, List.cons_append] at hfirst ⊢
    rw [readItems_entry (entryStarts_first hblank _) hclose, hfirst, hrest]
    rfl
  | .object [], _, fuel + 1, rest, hfuel, _ => by
    obtain ⟨fuel, rfl⟩ : ∃ k, fuel = k + 1 := ⟨fuel - 1, by simp [print] at hfuel; omega⟩
    change readNode _ (0x7b :: 0x7d :: rest) = _
    rw [readNode_object, readMembers_close]
    rfl
  | .object ((key, value) :: members), hvalue, fuel + 1, rest, hfuel, _ => by
    obtain ⟨hvalue, hmembers⟩ := hvalue
    simp only [print, printText, List.length_cons, List.length_append] at hfuel
    obtain ⟨fuel, rfl⟩ : ∃ k, fuel = k + 2 := ⟨fuel - 2, by omega⟩
    have hfirst := readNode_print value hvalue fuel (printMembers members ++ rest) (by omega)
      (endsNumeral_printMembers members rest)
    have hrest := readMembers_printMembers members hmembers fuel rest (by omega)
    simp only [print, printText, List.cons_append, List.append_assoc, List.nil_append,
      readNode_object]
    rw [readMembers_entry (entryStarts_first (by decide) _), readMember_escape, hfirst, hrest]
    rfl

/-- The items after the first one are read up to the closing bracket. -/
theorem readItems_printItems : (items : List Value) → ItemsWellFormed items → (fuel : Nat) →
    (rest : Bytes) → 3 * (printItems items).length ≤ fuel →
    readItems fuel false (printItems items ++ rest) = (toItems items, rest)
  | [], _, fuel, rest, hfuel => by
    obtain ⟨fuel, rfl⟩ : ∃ k, fuel = k + 1 := ⟨fuel - 1, by simp [printItems] at hfuel; omega⟩
    exact readItems_close fuel false rest
  | item :: items, hitems, fuel, rest, hfuel => by
    obtain ⟨hitem, hitems⟩ := hitems
    obtain ⟨b, s, htext, hblank, hclose⟩ := exists_print_eq_cons hitem
    simp only [printItems, List.length_cons, List.length_append] at hfuel
    obtain ⟨fuel, rfl⟩ : ∃ k, fuel = k + 1 := ⟨fuel - 1, by omega⟩
    have hfirst := readNode_print item hitem fuel (printItems items ++ rest) (by omega)
      (endsNumeral_printItems items rest)
    have hrest := readItems_printItems items hitems fuel rest (by omega)
    simp only [printItems, List.cons_append, List.append_assoc]
    rw [htext, List.cons_append] at hfirst ⊢
    rw [readItems_entry (entryStarts_next hblank _) hclose, hfirst, hrest]
    rfl

/-- The members after the first one are read up to the closing brace. -/
theorem readMembers_printMembers : (members : List (String × Value)) → MembersWellFormed members →
    (fuel : Nat) → (rest : Bytes) → 3 * (printMembers members).length ≤ fuel →
    readMembers fuel false (printMembers members ++ rest) = (toMembers members, rest)
  | [], _, fuel, rest, hfuel => by
    obtain ⟨fuel, rfl⟩ : ∃ k, fuel = k + 1 := ⟨fuel - 1, by simp [printMembers] at hfuel; omega⟩
    exact readMembers_close fuel false rest
  | (key, value) :: members, hmembers, fuel, rest, hfuel => by
    obtain ⟨hvalue, hmembers⟩ := hmembers
    simp only [printMembers, printText, List.length_cons, List.length_append] at hfuel
    obtain ⟨fuel, rfl⟩ : ∃ k, fuel = k + 2 := ⟨fuel - 2, by omega⟩
    have hfirst := readNode_print value hvalue fuel (printMembers members ++ rest) (by omega)
      (endsNumeral_printMembers members rest)
    have hrest := readMembers_printMembers members hmembers fuel rest (by omega)
    simp only [printMembers, printText, List.cons_append, List.append_assoc, List.nil_append]
    rw [readMembers_entry (entryStarts_next (by decide) _), readMember_escape, hfirst, hrest]
    rfl

end

end Value

/-- A printed value is read as its tree, and nothing follows. -/
theorem Document.read_print {value : Value} (h : value.WellFormed) :
    Document.read value.print = ⟨value.toNode, true⟩ := by
  have hread := Value.readNode_print value h (3 * value.print.length + 3) [] (by omega)
    endsNumeral_nil
  rw [List.append_nil] at hread
  simp [Document.read, hread, skipBlanks]

end TensorInference.Json
