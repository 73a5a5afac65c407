import Mathlib.Data.List.TakeWhile
import TensorInference.Json.Codec
import TensorInference.Proofs.Json.Reading
import TensorInference.Proofs.OrderedMap
import TensorInference.Proofs.Outcomes

/-!
# Codecs that read what they write

A codec returns a value if what it writes for the value obeys the grammar and is read as that
value. The property is about the tree of the written value, so it passes from the codecs of the
parts to those of lists, options, maps and alternatives without a look at any text; `read_write`
leads back to texts.
-/

namespace TensorInference.Json

namespace Codec

variable {α : Type}

/-- What a codec writes for a value is read as that value. -/
structure Returns (codec : Codec α) (a : α) : Prop where
  wellFormed : (codec.encode a).WellFormed
  decode : codec.decode (codec.encode a).toNode = .ok a

/-- What a codec writes for a value is read as a fault. -/
structure Refuses (codec : Codec α) (a : α) (fault : Fault) : Prop where
  wellFormed : (codec.encode a).WellFormed
  decode : codec.decode (codec.encode a).toNode = .error fault

/-- Reading a written text is taking the tree of the written value apart. -/
theorem read_write {codec : Codec α} {a : α} (h : (codec.encode a).WellFormed) :
    codec.read (codec.write a) = codec.decode (codec.encode a).toNode := by
  rw [read, write, Document.read_print h]
  cases codec.decode (codec.encode a).toNode <;> rfl

theorem Returns.read {codec : Codec α} {a : α} (h : codec.Returns a) :
    codec.read (codec.write a) = .ok a :=
  (read_write h.wellFormed).trans h.decode

theorem Refuses.read {codec : Codec α} {a : α} {fault : Fault} (h : codec.Refuses a fault) :
    codec.read (codec.write a) = .error fault :=
  (read_write h.wellFormed).trans h.decode

theorem returns_of_read {codec : Codec α} {a : α} (h : (codec.encode a).WellFormed)
    (hread : codec.read (codec.write a) = .ok a) : codec.Returns a :=
  ⟨h, (read_write h).symm.trans hread⟩

theorem number_ofNat (wanted : String) (n : UInt64) :
    number wanted (.number (.ofNat n.toNat)) = .ok (.natural n) := by
  rw [number, Numeral.value?_ofNat]

theorem number_ofInt (wanted : String) (n : Int64) :
    number wanted (.number (.ofInt n.toInt)) =
      .ok (if n.toInt < 0 then .negative n else .natural (UInt64.ofNat n.toInt.toNat)) := by
  rw [number, Numeral.value?_ofInt]

theorem returns_word64As (wanted : String) (n : UInt64) : (word64As wanted).Returns n := by
  refine ⟨Numeral.wellFormed_ofNat n.toNat, ?_⟩
  have hlt : n.toNat < UInt64.size := n.toNat_lt
  simp only [word64As, Value.toNode, number_ofNat]
  simp [boundedNatural, hlt, bind, Except.bind]

theorem returns_word64 (n : UInt64) : word64.Returns n :=
  returns_word64As "u64" n

theorem returns_size (n : UInt64) : size.Returns n :=
  returns_word64As "usize" n

theorem returns_word32 (n : UInt32) : word32.Returns n := by
  refine ⟨Numeral.wellFormed_ofNat n.toNat, ?_⟩
  have hlt : n.toNat < UInt32.size := n.toNat_lt
  have hnumber := number_ofNat "u32" n.toUInt64
  rw [UInt32.toNat_toUInt64] at hnumber
  simp only [word32, Value.toNode, hnumber]
  simp [boundedNatural, hlt, bind, Except.bind]

theorem returns_integer64 (n : Int64) : integer64.Returns n := by
  refine ⟨Numeral.wellFormed_ofInt n.toInt, ?_⟩
  simp only [integer64, Value.toNode, number_ofInt]
  by_cases hn : n.toInt < 0
  · simp [hn, bind, Except.bind]
  · have hlt := n.toInt_lt
    have hnat : n.toInt.toNat < 1 <<< 63 := by
      change _ < 9223372036854775808
      omega
    have hsmall : n.toInt.toNat < 2 ^ 64 := Nat.lt_trans hnat (by decide)
    have hword : (UInt64.ofNat n.toInt.toNat).toNat = n.toInt.toNat :=
      UInt64.toNat_ofNat'.trans (Nat.mod_eq_of_lt hsmall)
    have hvalue : ((n.toInt.toNat : Nat) : Int) = n.toInt := Int.toNat_of_nonneg (by omega)
    simp only [hn, if_false, bind, Except.bind, hword, hnat, if_true, hvalue, Int64.ofInt_toInt]

theorem wellFormed_single (bits : UInt32) : (single.encode bits).WellFormed := by
  dsimp only [single]
  split
  · rename_i numeral hnumeral
    exact Numeral.wellFormed_of_ofPattern hnumeral
  · trivial

/-- A pattern that is no number is written as null, which is not read as a number. -/
theorem refuses_single {bits : UInt32} (h : Binary.single.isFinite bits.toNat = false) :
    single.Refuses bits (.wrongType .null "f32") := by
  refine ⟨wellFormed_single bits, ?_⟩
  have hnone : Numeral.ofPattern Binary.single Numeral.singleLayout bits.toNat = none := by
    rw [← Option.isNone_iff_eq_none, ← Option.not_isSome, Numeral.isSome_ofPattern, h]
    rfl
  simp only [single, hnone]
  rfl

theorem returns_boolean (b : Bool) : boolean.Returns b :=
  ⟨trivial, rfl⟩

theorem returns_textAs (wanted text : String) : (textAs wanted).Returns text :=
  ⟨trivial, rfl⟩

theorem returns_text (text : String) : Codec.text.Returns text :=
  returns_textAs "a string" text

theorem returns_path (text : String) : path.Returns text :=
  returns_textAs "path string" text

theorem wellFormed_list {codec : Codec α} {as : List α}
    (h : ∀ a ∈ as, (codec.encode a).WellFormed) : (codec.list.encode as).WellFormed :=
  Value.itemsWellFormed_iff.2 (List.forall_mem_map.2 h)

theorem returns_list {codec : Codec α} {as : List α} (h : ∀ a ∈ as, codec.Returns a) :
    codec.list.Returns as := by
  refine ⟨wellFormed_list fun a ha => (h a ha).wellFormed, ?_⟩
  change codec.decodeItems (Value.toItems (as.map codec.encode)) = .ok as
  induction as with
  | nil => rfl
  | cons a as ih =>
    obtain ⟨ha, has⟩ := List.forall_mem_cons.1 h
    simp only [List.map_cons, Value.toItems, decodeItems, ha.decode, ih has]
    rfl

/-- A list is refused for its first item that is. -/
theorem refuses_list {codec : Codec α} {as : List α} {fault : Fault}
    (h : ∀ a ∈ as, codec.Returns a ∨ codec.Refuses a fault)
    (hsome : ∃ a ∈ as, codec.Refuses a fault) : codec.list.Refuses as fault := by
  refine ⟨wellFormed_list fun a ha => (h a ha).elim (·.wellFormed) (·.wellFormed), ?_⟩
  change codec.decodeItems (Value.toItems (as.map codec.encode)) = .error fault
  induction as with
  | nil => simp at hsome
  | cons a as ih =>
    obtain ⟨ha, has⟩ := List.forall_mem_cons.1 h
    rw [List.map_cons, Value.toItems, decodeItems]
    rcases ha with ha | ha
    · obtain ⟨b, hb, hrefuses⟩ := hsome
      have hlater : ∃ a ∈ as, codec.Refuses a fault := by
        rcases List.mem_cons.1 hb with rfl | hb
        · exact absurd (ha.decode.symm.trans hrefuses.decode) nofun
        · exact ⟨b, hb, hrefuses⟩
      rw [ha.decode, ih has hlater]
      rfl
    · rw [ha.decode]
      rfl

theorem returns_none (codec : Codec α) : codec.option.Returns none :=
  ⟨trivial, rfl⟩

/-- A value that is not written as null is told from a missing one. -/
theorem Returns.some {codec : Codec α} {a : α} (h : codec.Returns a)
    (hnull : codec.encode a ≠ .null) : codec.option.Returns (some a) := by
  refine ⟨h.wellFormed, ?_⟩
  have hdecode := h.decode
  change codec.option.decode (codec.encode a).toNode = _
  generalize codec.encode a = value at hnull hdecode
  cases value with
  | null => exact absurd rfl hnull
  | _ => simp only [option, Value.toNode] at hdecode ⊢; rw [hdecode]; rfl

theorem returns_option {codec : Codec α} {a? : Option α} (h : ∀ a ∈ a?, codec.Returns a)
    (hnull : ∀ a, codec.encode a ≠ .null) : codec.option.Returns a? := by
  cases a? with
  | none => exact returns_none codec
  | some a => exact (h a rfl).some (hnull a)

section Maps

variable {κ : Type}

/-- The key that is written for a value is read as that value. -/
def Key.Returns (key : Key κ) (k : κ) : Prop :=
  key.read (Value.token (key.write k)) = .ok k

theorem Key.returns_text (k : String) : Key.text.Returns k := rfl

theorem token_toString (n : Nat) :
    Value.token (toString n) = ⟨.ok (toString n), .ok (), Numeral.digitBytes n, true⟩ := by
  have hraw : (Numeral.digitBytes n).takeWhile (· ≠ 0x22) = Numeral.digitBytes n :=
    List.takeWhile_eq_self_iff.2 fun b hb =>
      decide_eq_true (ne_of_isDigit (Numeral.isDigit_of_mem_digitBytes n b hb) (by decide))
  rw [Value.token, Numeral.ofText_toString, Numeral.escape_digitBytes, hraw]

/-- A written natural number is read as a numeric key. -/
theorem readNumericKey_toString (ofNumber : Number → Except Fault κ) (n : UInt64) :
    readNumericKey ofNumber (Value.token (toString n.toNat)) = ofNumber (.natural n) := by
  have hvalue := Numeral.value?_ofNat n
  have hread := readNumber_magnitudeBytes (Numeral.wellFormed_ofNat n.toNat) endsNumeral_nil
  simp only [Numeral.magnitudeBytes, Numeral.ofNat, Numeral.fractionBytes, Numeral.exponentBytes,
    if_true, List.append_nil] at hread
  obtain ⟨d, ds, hdigits⟩ := List.exists_cons_of_ne_nil (Numeral.digitBytes_ne n.toNat)
  have hd : Numeral.isDigit d :=
    Numeral.isDigit_of_mem_digitBytes n.toNat d (hdigits ▸ List.mem_cons_self)
  have hminus : d ≠ 0x2d := ne_of_isDigit hd (by decide)
  rw [Numeral.ofNat, hdigits] at hvalue
  rw [hdigits] at hread
  rw [readNumericKey, token_toString, hdigits]
  simp only [hminus, hd, false_or, if_true, if_false, hread, hvalue, and_self]
  cases ofNumber (.natural n) <;> rfl

theorem Key.returns_word32 (k : UInt32) : Key.word32.Returns k := by
  have hlt : k.toNat < UInt32.size := k.toNat_lt
  have hread := readNumericKey_toString
    (fun n => UInt32.ofNat <$> boundedNatural "u32" UInt32.size n) k.toUInt64
  rw [UInt32.toNat_toUInt64] at hread
  exact hread.trans (by simp [boundedNatural, hlt])

theorem Key.returns_word64 (k : UInt64) : Key.word64.Returns k := by
  have hlt : k.toNat < UInt64.size := k.toNat_lt
  exact (readNumericKey_toString _ k).trans (by simp [boundedNatural, hlt])

variable [Ord κ] [Std.TransOrd κ] [Std.LawfulEqOrd κ]

theorem returns_map {key : Key κ} {codec : Codec α} {m : OrderedMap κ α}
    (hkey : ∀ k, key.Returns k) (h : ∀ entry ∈ m.entries, codec.Returns entry.2) :
    (codec.map key).Returns m := by
  refine ⟨Value.membersWellFormed_iff.2 fun member hmember => ?_, ?_⟩
  · obtain ⟨entry, hentry, rfl⟩ := List.mem_map.1 hmember
    exact (h entry hentry).wellFormed
  · have hentries : ∀ entries : List (κ × α), (∀ entry ∈ entries, codec.Returns entry.2) →
        decodeEntries key codec (Value.toMembers
          (entries.map fun entry => (key.write entry.1, codec.encode entry.2))) = .ok entries := by
      intro entries hreturns
      induction entries with
      | nil => rfl
      | cons entry entries ih =>
        obtain ⟨hentry, hrest⟩ := List.forall_mem_cons.1 hreturns
        have hread : key.read _ = _ := hkey entry.1
        simp only [List.map_cons, Value.toMembers, decodeEntries, hread, hentry.decode, ih hrest]
        rfl
    change OrderedMap.ofList <$> decodeEntries key codec (Value.toMembers _) = _
    rw [hentries m.entries h]
    exact congrArg Except.ok (OrderedMap.ofList_entries m)

end Maps

/-- A name that stands alone is read as the alternative of that name. -/
theorem returns_named {names : α → String} {all : List α} (hdistinct : (all.map names).Nodup)
    {a : α} (ha : a ∈ all) : (named names all).Returns a := by
  have hfind : (all.map fun a => Alternative.plain (names a) a).find? (·.name = names a) =
      some (.plain (names a) a) := by
    rw [List.find?_map]
    exact congrArg _ ((Named.find?_eq_some_iff hdistinct).2 ⟨ha, rfl⟩)
  refine ⟨trivial, ?_⟩
  change (Alternative.find _ (names a) >>= Alternative.alone) = _
  rw [Alternative.find, hfind]
  rfl

/-- An object with one member is read as the alternative that its key names. -/
theorem Alternative.decode_single {alternatives : List (Alternative α)}
    {alternative : Alternative α} {name : String} {content : Value} {a : α}
    (hfind : find alternatives name = .ok alternative)
    (hcontent : alternative.contained content.toNode = .ok a) :
    decode alternatives (Value.object [(name, content)]).toNode = .ok a := by
  change (find alternatives name >>= fun alternative => _) = _
  rw [hfind]
  change (alternative.contained content.toNode >>= fun a => _) = _
  rw [hcontent]
  rfl

end Codec

end TensorInference.Json
