import TensorInference.Proofs.Json.Record

/-!
# Texts that break off

A reader that leaves something of a text, or has met the closing bracket, does not depend on what
comes behind: with more text and more steps it stops at the same place. So where a whole text is an
object and nothing else, no shorter text can have met the closing brace, and an object that is not
closed is refused by every record, whatever its fields are.
Main statement: `RecordFormat.refuses_truncated`.
-/

namespace TensorInference.Json

/-- Whether the closing bracket of a list was met. -/
def Items.closes : Items → Bool
  | .done => true
  | .cut _ => false
  | .more _ rest => rest.closes

/-- Whether the closing brace of an object was met. -/
def Members.closes : Members → Bool
  | .done => true
  | .more _ _ rest => rest.closes
  | _ => false

/-! ## Pieces of a text -/

theorem skipBlanks_append {s r : Bytes} {b : UInt8} (h : skipBlanks s = b :: r) (t : Bytes) :
    skipBlanks (s ++ t) = b :: (r ++ t) := by
  rw [skipBlanks] at h
  rw [skipBlanks, List.dropWhile_append, h]
  rfl

theorem EntryStarts.append {first : Bool} {s r : Bytes} {b : UInt8}
    (h : EntryStarts first s (b :: r)) (t : Bytes) :
    EntryStarts first (s ++ t) (b :: (r ++ t)) := by
  cases h with
  | first hs => exact .first (skipBlanks_append hs t)
  | next hs hv => exact .next (skipBlanks_append hs t) (skipBlanks_append hv t)

theorem rest_readWord_append {value : Node} {word s : Bytes}
    (h : (readWord value word s).2 ≠ []) (t : Bytes) :
    (readWord value word (s ++ t)).2 = (readWord value word s).2 ++ t := by
  induction word generalizing s with
  | nil => cases s <;> cases t <;> rfl
  | cons letter word ih =>
    cases s with
    | nil => exact absurd rfl h
    | cons b s =>
      rw [readWord] at h
      rw [List.cons_append, readWord, readWord]
      split
      · rename_i hb
        rw [if_pos hb] at h
        exact ih h
      · rename_i hb
        rw [if_neg hb] at h
        exact absurd rfl h

theorem digits_append_of_rest {s ds r : Bytes} {b : UInt8} (h : digits s = (ds, b :: r))
    (t : Bytes) : digits (s ++ t) = (ds, b :: (r ++ t)) := by
  obtain ⟨htake, hdrop⟩ := Prod.mk.inj h
  have hne : (s.takeWhile Numeral.isDigit).length ≠ s.length := by
    intro hall
    have hsplit := List.takeWhile_append_dropWhile (p := Numeral.isDigit) (l := s)
    rw [(List.takeWhile_prefix Numeral.isDigit).eq_of_length hall, hdrop,
      List.append_right_eq_self] at hsplit
    cases hsplit
  rw [digits, List.takeWhile_append, if_neg hne, List.dropWhile_append, htake, hdrop]
  rfl

/-- Reading digits and then the rest is stable if reading the rest is. -/
theorem rest_digits_append {α : Type} {fault : Bytes → α} {next : Bytes → Bytes → α × Bytes}
    (hnil : ∀ ds, (next ds []).2 = [])
    (hnext : ∀ ds b r t, (next ds (b :: r)).2 ≠ [] →
      (next ds (b :: (r ++ t))).2 = (next ds (b :: r)).2 ++ t) {s : Bytes}
    (h : (match digits s with
      | ([], tail) => (fault tail, [])
      | (ds, tail) => next ds tail).2 ≠ []) (t : Bytes) :
    (match digits (s ++ t) with
      | ([], tail) => (fault tail, [])
      | (ds, tail) => next ds tail).2 =
    (match digits s with
      | ([], tail) => (fault tail, [])
      | (ds, tail) => next ds tail).2 ++ t := by
  rcases hds : digits s with ⟨_ | ⟨d, ds⟩, _ | ⟨b, r⟩⟩
  · simp [hds] at h
  · simp [hds] at h
  · simp [hds, hnil] at h
  · rw [hds] at h
    rw [digits_append_of_rest hds]
    exact hnext (d :: ds) b r t h

theorem rest_readExponent_append {negative : Bool} {whole fraction s : Bytes}
    (h : (readExponent negative whole fraction s).2 ≠ []) (t : Bytes) :
    (readExponent negative whole fraction (s ++ t)).2 =
      (readExponent negative whole fraction s).2 ++ t := by
  cases s with
  | nil => exact absurd rfl h
  | cons b s =>
    rw [List.cons_append]
    simp only [readExponent] at h ⊢
    split
    · rename_i hb
      rw [if_pos hb] at h
      cases s with
      | nil => exact absurd rfl h
      | cons c s =>
        rw [List.cons_append]
        dsimp only at h ⊢
        -- a sign is passed over, anything else is the first digit
        by_cases hplus : c = 0x2b
        · simp only [hplus, if_true] at h ⊢
          exact rest_digits_append (fun _ => rfl) (fun _ _ _ _ _ => rfl) h t
        · by_cases hminus : c = 0x2d
          · simp only [hminus, if_true] at h ⊢
            exact rest_digits_append (fun _ => rfl) (fun _ _ _ _ _ => rfl) h t
          · simp only [hplus, hminus, if_false] at h ⊢
            exact rest_digits_append (fun _ => rfl) (fun _ _ _ _ _ => rfl) h t
    · rfl

theorem rest_readFraction_append {negative : Bool} {whole s : Bytes}
    (h : (readFraction negative whole s).2 ≠ []) (t : Bytes) :
    (readFraction negative whole (s ++ t)).2 = (readFraction negative whole s).2 ++ t := by
  cases s with
  | nil => exact absurd rfl h
  | cons b s =>
    rw [List.cons_append]
    simp only [readFraction] at h ⊢
    split
    · rename_i hb
      rw [if_pos hb] at h
      exact rest_digits_append (fun _ => rfl)
        (fun _ _ _ t hne => rest_readExponent_append hne t) h t
    · rename_i hb
      rw [if_neg hb] at h
      exact rest_readExponent_append h t

theorem rest_readNumber_append {negative : Bool} {s : Bytes}
    (h : (readNumber negative s).2 ≠ []) (t : Bytes) :
    (readNumber negative (s ++ t)).2 = (readNumber negative s).2 ++ t := by
  refine rest_digits_append (fun ds => ?_) (fun ds b r t hne => ?_) h t
  · split <;> rfl
  · split
    · rename_i hzero
      rw [if_pos hzero] at hne
      exact absurd rfl hne
    · rename_i hzero
      rw [if_neg hzero] at hne
      exact rest_readFraction_append hne t

theorem rest_readToken_append {s : Bytes} (h : (readToken s).2 ≠ []) (t : Bytes) :
    (readToken (s ++ t)).2 = (readToken s).2 ++ t := by
  simp only [readToken] at h ⊢
  cases hs : skimContent s with
  | error fault =>
    rw [hs] at h
    exact absurd rfl h
  | ok rest => rw [skimContent_append hs t]

/-! ## What a step can do -/

/-- A list closes, goes on with an item, or breaks off with the text. -/
theorem readItems_cases (fuel : Nat) (first : Bool) (s : Bytes) :
    (∃ r, skipBlanks s = 0x5d :: r ∧ readItems (fuel + 1) first s = (.done, r)) ∨
      (∃ b r, EntryStarts first s (b :: r) ∧ b ≠ 0x5d) ∨
      ∃ cause, readItems (fuel + 1) first s = (.cut cause, []) := by
  cases hs : skipBlanks s with
  | nil => exact .inr (.inr ⟨.ended, by simp [readItems, hs]⟩)
  | cons b r =>
    by_cases hclose : b = 0x5d
    · exact .inl ⟨r, by rw [hclose], by simp [readItems, hs, hclose]⟩
    cases first with
    | true => exact .inr (.inl ⟨b, r, .first hs, hclose⟩)
    | false =>
      by_cases hcomma : b = 0x2c
      · cases hv : skipBlanks r with
        | nil => exact .inr (.inr ⟨.endedAfterComma, by simp [readItems, hs, hcomma, hv]⟩)
        | cons c u =>
          by_cases htrailing : c = 0x5d
          · exact .inr (.inr ⟨.trailingComma, by simp [readItems, hs, hcomma, hv, htrailing]⟩)
          · exact .inr (.inl ⟨c, u, .next (hcomma ▸ hs) hv, htrailing⟩)
      · exact .inr (.inr ⟨.missingComma, by simp [readItems, hs, hclose, hcomma]⟩)

/-- An object closes, goes on with a key, or breaks off with the text. -/
theorem readMembers_cases (fuel : Nat) (first : Bool) (s : Bytes) :
    (∃ r, skipBlanks s = 0x7d :: r ∧ readMembers (fuel + 1) first s = (.done, r)) ∨
      (∃ r, EntryStarts first s (0x22 :: r)) ∨
      ∃ members, readMembers (fuel + 1) first s = (members, []) ∧ members.closes = false := by
  cases hs : skipBlanks s with
  | nil => exact .inr (.inr ⟨.ended, by simp [readMembers, hs], rfl⟩)
  | cons b r =>
    by_cases hclose : b = 0x7d
    · exact .inl ⟨r, by rw [hclose], by simp [readMembers, hs, hclose]⟩
    cases first with
    | true =>
      by_cases hquote : b = 0x22
      · exact .inr (.inl ⟨r, .first (hquote ▸ hs)⟩)
      · exact .inr (.inr ⟨.badKey, by simp [readMembers, hs, hclose, hquote], rfl⟩)
    | false =>
      by_cases hcomma : b = 0x2c
      · cases hv : skipBlanks r with
        | nil => exact .inr (.inr ⟨.endedAfterComma, by simp [readMembers, hs, hcomma, hv], rfl⟩)
        | cons c u =>
          by_cases htrailing : c = 0x7d
          · exact .inr (.inr
              ⟨.trailingComma, by simp [readMembers, hs, hcomma, hv, htrailing], rfl⟩)
          by_cases hquote : c = 0x22
          · exact .inr (.inl ⟨u, .next (hcomma ▸ hs) (hquote ▸ hv)⟩)
          · exact .inr (.inr
              ⟨.badKey, by simp [readMembers, hs, hcomma, hv, htrailing, hquote], rfl⟩)
      · exact .inr (.inr ⟨.missingComma, by simp [readMembers, hs, hclose, hcomma], rfl⟩)

theorem readMember_colon {s v : Bytes} (h : skipBlanks (readToken s).2 = 0x3a :: v) (fuel : Nat) :
    readMember (fuel + 1) s =
      (.more (readToken s).1 (readNode fuel v).1 (readMembers fuel false (readNode fuel v).2).1,
        (readMembers fuel false (readNode fuel v).2).2) := by
  simp [readMember, h]

/-- A member has its colon, or breaks off with the text. -/
theorem readMember_cases (fuel : Nat) (s : Bytes) :
    (∃ v, skipBlanks (readToken s).2 = 0x3a :: v) ∨
      ∃ atEnd, readMember (fuel + 1) s = (.bare (readToken s).1 atEnd, []) := by
  cases hs : skipBlanks (readToken s).2 with
  | nil => exact .inr ⟨true, by simp [readMember, hs]⟩
  | cons b v =>
    by_cases hcolon : b = 0x3a
    · exact .inl ⟨v, by rw [hcolon]⟩
    · exact .inr ⟨false, by simp [readMember, hs, hcolon]⟩

/-- A list that leaves something of the text was closed. -/
theorem readItems_closes {fuel : Nat} {first : Bool} {s : Bytes}
    (h : (readItems fuel first s).2 ≠ []) : (readItems fuel first s).1.closes := by
  induction fuel generalizing first s with
  | zero => exact absurd rfl h
  | succ fuel ih =>
    rcases readItems_cases fuel first s with ⟨r, -, hread⟩ | ⟨b, r, hentry, hclose⟩ | ⟨cause, hread⟩
    · rw [hread]
      rfl
    · rw [readItems_entry hentry hclose] at h ⊢
      exact ih h
    · rw [hread] at h
      exact absurd rfl h

/-- An object that leaves something of the text was closed. -/
theorem readMembers_closes (fuel : Nat) :
    (∀ first s, (readMembers fuel first s).2 ≠ [] → (readMembers fuel first s).1.closes) ∧
      ∀ s, (readMember fuel s).2 ≠ [] → (readMember fuel s).1.closes := by
  induction fuel with
  | zero => exact ⟨fun _ _ h => absurd rfl h, fun _ h => absurd rfl h⟩
  | succ fuel ih =>
    refine ⟨fun first s h => ?_, fun s h => ?_⟩
    · rcases readMembers_cases fuel first s with ⟨r, -, hread⟩ | ⟨r, hentry⟩ | ⟨_, hread, -⟩
      · rw [hread]
        rfl
      · rw [readMembers_entry hentry] at h ⊢
        exact ih.2 r h
      · rw [hread] at h
        exact absurd rfl h
    · rcases readMember_cases fuel s with ⟨v, hcolon⟩ | ⟨_, hread⟩
      · rw [readMember_colon hcolon] at h ⊢
        exact ih.1 false _ h
      · rw [hread] at h
        exact absurd rfl h

/-- With so many steps, a reading that left something or closed stops at the same place when there
are more steps and more text. -/
structure Settled (fuel : Nat) : Prop where
  node : ∀ {s}, (readNode fuel s).2 ≠ [] → ∀ {more}, fuel ≤ more → ∀ t,
    (readNode more (s ++ t)).2 = (readNode fuel s).2 ++ t
  items : ∀ {first s}, (readItems fuel first s).1.closes → ∀ {more}, fuel ≤ more → ∀ t,
    (readItems more first (s ++ t)).2 = (readItems fuel first s).2 ++ t
  members : ∀ {first s}, (readMembers fuel first s).1.closes → ∀ {more}, fuel ≤ more → ∀ t,
    (readMembers more first (s ++ t)).2 = (readMembers fuel first s).2 ++ t
  member : ∀ {s}, (readMember fuel s).1.closes → ∀ {more}, fuel ≤ more → ∀ t,
    (readMember more (s ++ t)).2 = (readMember fuel s).2 ++ t

namespace Settled

variable {fuel : Nat}

theorem zero : Settled 0 where
  node h := absurd rfl h
  items h := absurd h Bool.false_ne_true
  members h := absurd h Bool.false_ne_true
  member h := absurd h Bool.false_ne_true

/-- A list that closed after a node has been read from a rest, because the text went on. -/
theorem rest_ne_of_closes {s : Bytes} (h : (readItems fuel false (readNode fuel s).2).1.closes) :
    (readNode fuel s).2 ≠ [] := by
  intro hrest
  rw [hrest] at h
  cases fuel <;> exact absurd h Bool.false_ne_true

theorem rest_ite {c : Prop} [Decidable c] {x y x' y' : Node × Bytes} {t : Bytes}
    (hx : x.2 ≠ [] → x'.2 = x.2 ++ t) (hy : y.2 ≠ [] → y'.2 = y.2 ++ t) :
    (if c then x else y).2 ≠ [] → (if c then x' else y').2 = (if c then x else y).2 ++ t := by
  split
  · exact hx
  · exact hy

theorem node_succ (h : Settled fuel) {s : Bytes} (hrest : (readNode (fuel + 1) s).2 ≠ [])
    {more : Nat} (hmore : fuel ≤ more) (t : Bytes) :
    (readNode (more + 1) (s ++ t)).2 = (readNode (fuel + 1) s).2 ++ t := by
  cases hs : skipBlanks s with
  | nil => simp [readNode, hs] at hrest
  | cons b r =>
    revert hrest
    simp only [readNode, hs, skipBlanks_append hs]
    -- one case for each first byte of a value
    refine rest_ite (rest_readWord_append · t) <| rest_ite (rest_readWord_append · t) <|
      rest_ite (rest_readWord_append · t) <| rest_ite (rest_readNumber_append · t) <|
      rest_ite (rest_readNumber_append · t) <| rest_ite (rest_readToken_append · t) <|
      rest_ite (fun hrest => ?_) <| rest_ite (fun hrest => ?_) fun hrest => ?_
    · exact h.items (readItems_closes hrest) hmore t
    · exact h.members ((readMembers_closes fuel).1 true r hrest) hmore t
    · exact absurd rfl hrest

theorem items_succ (h : Settled fuel) {first : Bool} {s : Bytes}
    (hclosed : (readItems (fuel + 1) first s).1.closes) {more : Nat} (hmore : fuel ≤ more)
    (t : Bytes) :
    (readItems (more + 1) first (s ++ t)).2 = (readItems (fuel + 1) first s).2 ++ t := by
  rcases readItems_cases fuel first s with ⟨r, hs, hread⟩ | ⟨b, r, hentry, hclose⟩ | ⟨cause, hread⟩
  · have hs' := skipBlanks_append hs t
    rw [hread]
    simp [readItems, hs']
  · rw [readItems_entry hentry hclose] at hclosed ⊢
    rw [readItems_entry (hentry.append t) hclose]
    have hnode := h.node (rest_ne_of_closes hclosed) hmore t
    rw [List.cons_append] at hnode
    rw [hnode]
    exact h.items hclosed hmore t
  · rw [hread] at hclosed
    exact absurd hclosed Bool.false_ne_true

theorem members_succ (h : Settled fuel) {first : Bool} {s : Bytes}
    (hclosed : (readMembers (fuel + 1) first s).1.closes) {more : Nat} (hmore : fuel ≤ more)
    (t : Bytes) :
    (readMembers (more + 1) first (s ++ t)).2 = (readMembers (fuel + 1) first s).2 ++ t := by
  rcases readMembers_cases fuel first s with ⟨r, hs, hread⟩ | ⟨r, hentry⟩ | ⟨members, hread, hopen⟩
  · have hs' := skipBlanks_append hs t
    rw [hread]
    simp [readMembers, hs']
  · rw [readMembers_entry hentry] at hclosed ⊢
    rw [readMembers_entry (hentry.append t)]
    exact h.member hclosed hmore t
  · rw [hread] at hclosed
    exact absurd (hopen.symm.trans hclosed) Bool.false_ne_true

theorem member_succ (h : Settled fuel) {s : Bytes} (hclosed : (readMember (fuel + 1) s).1.closes)
    {more : Nat} (hmore : fuel ≤ more) (t : Bytes) :
    (readMember (more + 1) (s ++ t)).2 = (readMember (fuel + 1) s).2 ++ t := by
  rcases readMember_cases fuel s with ⟨v, hcolon⟩ | ⟨atEnd, hread⟩
  · have hkey : (readToken s).2 ≠ [] := by
      intro hrest
      rw [hrest] at hcolon
      cases hcolon
    have hcolon' : skipBlanks (readToken (s ++ t)).2 = 0x3a :: (v ++ t) := by
      rw [rest_readToken_append hkey t]
      exact skipBlanks_append hcolon t
    rw [readMember_colon hcolon] at hclosed ⊢
    rw [readMember_colon hcolon']
    have hvalue : (readNode fuel v).2 ≠ [] := by
      intro hrest
      rw [hrest] at hclosed
      cases fuel <;> exact absurd hclosed Bool.false_ne_true
    rw [h.node hvalue hmore t]
    exact h.members hclosed hmore t
  · rw [hread] at hclosed
    exact absurd hclosed Bool.false_ne_true

theorem succ (h : Settled fuel) : Settled (fuel + 1) where
  node hrest more hmore t := by
    obtain ⟨more, rfl⟩ := Nat.exists_eq_add_of_le' (Nat.one_le_of_lt hmore)
    exact h.node_succ hrest (Nat.le_of_succ_le_succ hmore) t
  items hclosed more hmore t := by
    obtain ⟨more, rfl⟩ := Nat.exists_eq_add_of_le' (Nat.one_le_of_lt hmore)
    exact h.items_succ hclosed (Nat.le_of_succ_le_succ hmore) t
  members hclosed more hmore t := by
    obtain ⟨more, rfl⟩ := Nat.exists_eq_add_of_le' (Nat.one_le_of_lt hmore)
    exact h.members_succ hclosed (Nat.le_of_succ_le_succ hmore) t
  member hclosed more hmore t := by
    obtain ⟨more, rfl⟩ := Nat.exists_eq_add_of_le' (Nat.one_le_of_lt hmore)
    exact h.member_succ hclosed (Nat.le_of_succ_le_succ hmore) t

end Settled

theorem settled (fuel : Nat) : Settled fuel := by
  induction fuel with
  | zero => exact .zero
  | succ fuel ih => exact ih.succ

/-! ## Objects that break off -/

/-- A part of a printed object that is not all of it is read as nothing or as an object that was
not closed. -/
theorem Document.root_of_truncated {members : List (String × Value)}
    (hmembers : (Value.object members).WellFormed) {p : Bytes}
    (hp : p <+: (Value.object members).print) (hne : p ≠ (Value.object members).print) :
    (Document.read p).root = .absent ∨
      ∃ part, (Document.read p).root = .object part ∧ part.closes = false := by
  obtain ⟨t, ht⟩ := hp
  obtain ⟨body, hbody⟩ : ∃ body, (Value.object members).print = 0x7b :: body := by
    rcases members with _ | ⟨⟨key, value⟩, members⟩ <;> exact ⟨_, rfl⟩
  cases p with
  | nil => exact .inl rfl
  | cons b p =>
    obtain ⟨rfl, hbody'⟩ : b = 0x7b ∧ p ++ t = body := by
      rw [hbody, List.cons_append] at ht
      exact List.cons.inj ht
    refine .inr ⟨(readMembers (3 * (p.length + 1) + 2) true p).1, ?_, ?_⟩
    · exact congrArg Prod.fst (readNode_object (3 * (p.length + 1) + 2) p)
    · -- otherwise what was left out would be left over by the whole text
      rw [Bool.eq_false_iff]
      intro hclosed
      have hfuel : 3 * (p.length + 1) + 2 ≤ 3 * (body.length + 1) + 2 := by
        rw [← hbody', List.length_append]
        omega
      have hrest := (settled _).members hclosed hfuel t
      have hwhole := Value.readNode_print _ hmembers (3 * (body.length + 1) + 3) []
        (by rw [hbody, List.length_cons]; omega) endsNumeral_nil
      rw [List.append_nil, hbody, readNode_object] at hwhole
      rw [hbody', (Prod.mk.inj hwhole).2] at hrest
      have hnil : t = [] := (List.append_eq_nil_iff.1 hrest.symm).2
      exact hne (by rw [← ht, hnil, List.append_nil])

namespace RecordFormat

variable {σ : Type}

/-- A field cannot be filled from a member without a value. -/
theorem error_of_fill {name : String} {fault : Fault} {types : List Type} {fields : Fields σ types}
    {slots : Slots types} {filled : Except Fault (Slots types)}
    (h : fields.fill name (.error fault) slots = some filled) : ∃ fault, filled = .error fault := by
  induction fields with
  | nil => cases h
  | cons field rest ih =>
    rcases slots with ⟨slot, slots⟩
    by_cases hname : field.name = name
    · have hfilled := Option.some.inj ((if_pos hname).symm.trans h)
      cases slot with
      | some _ => exact ⟨_, hfilled.symm⟩
      | none => exact ⟨_, hfilled.symm⟩
    · obtain ⟨inner, hinner, hfilled⟩ := Option.map_eq_some_iff.1
        ((Fields.fill_cons_of_ne hname rest slot slots).symm.trans h)
      obtain ⟨fault, rfl⟩ := ih hinner
      exact ⟨fault, hfilled.symm⟩

theorem decodeMembers_of_not_closes (format : RecordFormat σ) :
    (members : Members) → members.closes = false → (slots : Slots format.types) →
      ∃ fault, format.decodeMembers slots members = .error fault
  | .done, h, _ => absurd h.symm Bool.false_ne_true
  | .ended, _, _ => ⟨_, rfl⟩
  | .endedAfterComma, _, _ => ⟨_, rfl⟩
  | .trailingComma, _, _ => ⟨_, rfl⟩
  | .missingComma, _, _ => ⟨_, rfl⟩
  | .badKey, _, _ => ⟨_, rfl⟩
  | .bare key atEnd, _, slots => by
    rw [decodeMembers]
    cases key.text with
    | error fault => exact ⟨fault, rfl⟩
    | ok name =>
      cases hfill : format.fields.fill name (.error (colonFault atEnd)) slots with
      | some filled =>
        obtain ⟨fault, rfl⟩ := error_of_fill hfill
        exact ⟨fault, by simp only [bind, Except.bind, hfill]⟩
      | none =>
        simp only [bind, Except.bind, hfill]
        cases format.strict <;> exact ⟨_, rfl⟩
  | .more key value rest, h, slots => by
    cases hkey : key.text with
    | error fault => exact ⟨fault, by rw [decodeMembers, hkey]; rfl⟩
    | ok name =>
      cases hfill : format.fields.fill name (.ok value) slots with
      | some filled =>
        rw [decodeMembers_more hkey hfill]
        cases filled with
        | error fault => exact ⟨fault, rfl⟩
        | ok slots => exact format.decodeMembers_of_not_closes rest h slots
      | none =>
        rw [decodeMembers, hkey]
        simp only [bind, Except.bind, hfill]
        cases format.strict with
        | true => exact ⟨_, rfl⟩
        | false =>
          cases value.skim with
          | error fault => exact ⟨fault, rfl⟩
          | ok _ => exact format.decodeMembers_of_not_closes rest h slots

/-- A record is not read from an object that was not closed. -/
theorem decode_of_not_closes (format : RecordFormat σ) {members : Members}
    (h : members.closes = false) : ∃ fault, format.decode (.object members) = .error fault := by
  obtain ⟨fault, hfault⟩ := format.decodeMembers_of_not_closes members h (Slots.vacant format.types)
  exact ⟨fault, by rw [decode, hfault]; rfl⟩

/-- No record is read from a part of its text that is not all of it. -/
theorem refuses_truncated {format : RecordFormat σ} {record : σ}
    (hrecord : (format.codec.encode record).WellFormed) {p : Bytes}
    (hp : p <+: format.codec.write record) (hne : p ≠ format.codec.write record) :
    ∃ fault, format.codec.read p = .error fault := by
  have hdecode : ∃ fault, format.decode (Document.read p).root = .error fault := by
    rcases Document.root_of_truncated hrecord hp hne with hroot | ⟨part, hroot, hopen⟩
    · exact ⟨.endInValue, by rw [hroot]; rfl⟩
    · rw [hroot]
      exact format.decode_of_not_closes hopen
  obtain ⟨fault, hfault⟩ := hdecode
  exact ⟨fault, by rw [Codec.read]; exact congrArg (· >>= _) hfault⟩

end RecordFormat

end TensorInference.Json
