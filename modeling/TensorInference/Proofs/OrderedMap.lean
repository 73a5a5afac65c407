import Mathlib.Data.List.Sort
import TensorInference.OrderedMap

/-!
# Keys of ordered maps

A key is listed exactly when a look-up finds something under it, and every entry is found under its
own key. Insertion changes one look-up; here are its law and those of the other operations, all
through look-ups.
-/

namespace TensorInference.OrderedMap

variable {κ α : Type} [Ord κ] [Std.LawfulEqOrd κ]

theorem isSome_lookup_iff {k : κ} {entries : List (κ × α)} :
    (lookup k entries).isSome ↔ k ∈ entries.map (·.1) := by
  induction entries with
  | nil => simp [lookup]
  | cons entry rest ih =>
    rw [lookup, List.map_cons, List.mem_cons]
    by_cases h : compare k entry.1 = .eq
    · simp [Std.LawfulEqCmp.eq_of_compare h, Std.ReflCmp.compare_self]
    · have hne : k ≠ entry.1 := by
        rintro rfl
        exact h Std.ReflCmp.compare_self
      rw [if_neg h, ih]
      simp [hne]

theorem mem_keys_iff {m : OrderedMap κ α} {k : κ} : k ∈ m.keys ↔ (m.get? k).isSome :=
  isSome_lookup_iff.symm

theorem lookup_of_mem {entries : List (κ × α)}
    (hascending : entries.Pairwise fun a b ↦ compare a.1 b.1 = .lt) {entry : κ × α}
    (h : entry ∈ entries) : lookup entry.1 entries = some entry.2 := by
  induction entries with
  | nil => simp at h
  | cons head rest ih =>
    rw [List.pairwise_cons] at hascending
    rw [lookup]
    rcases List.mem_cons.1 h with rfl | h
    · rw [if_pos Std.ReflCmp.compare_self]
    · have hne : compare entry.1 head.1 ≠ .eq := by
        intro heq
        have hlt := hascending.1 entry h
        rw [Std.LawfulEqCmp.eq_of_compare heq] at hlt
        exact absurd (hlt.symm.trans Std.ReflCmp.compare_self) (by decide)
      rw [if_neg hne]
      exact ih hascending.2 h

theorem get?_of_mem {m : OrderedMap κ α} {entry : κ × α} (h : entry ∈ m.entries) :
    m.get? entry.1 = some entry.2 :=
  lookup_of_mem m.ascending h

theorem keys_nodup (m : OrderedMap κ α) : m.keys.Nodup := by
  rw [List.Nodup, keys, List.pairwise_map]
  refine m.ascending.imp ?_
  intro a b hlt heq
  rw [heq] at hlt
  exact absurd (hlt.symm.trans Std.ReflCmp.compare_self) (by decide)

theorem mem_of_lookup {entries : List (κ × α)} {k : κ} {v : α} (h : lookup k entries = some v) :
    (k, v) ∈ entries := by
  induction entries with
  | nil => cases h
  | cons head rest ih =>
    rw [lookup] at h
    split at h
    · rename_i heq
      obtain rfl := Std.LawfulEqCmp.eq_of_compare heq
      obtain rfl := Option.some.inj h
      exact List.mem_cons_self
    · exact List.mem_cons_of_mem _ (ih h)

theorem mem_entries_iff {m : OrderedMap κ α} {k : κ} {v : α} :
    (k, v) ∈ m.entries ↔ m.get? k = some v :=
  ⟨get?_of_mem, mem_of_lookup⟩

theorem mem_values_iff {m : OrderedMap κ α} {v : α} : v ∈ m.values ↔ ∃ k, m.get? k = some v := by
  simp [values, mem_entries_iff]

theorem isEmpty_eq_false_iff {m : OrderedMap κ α} :
    m.isEmpty = false ↔ ∃ k v, m.get? k = some v := by
  rw [isEmpty, List.isEmpty_eq_false_iff_exists_mem]
  simp [mem_entries_iff]

/-- The last value is under the greatest key. -/
theorem greatest_of_last? {m : OrderedMap κ α} {v : α} (h : m.last? = some v) :
    ∃ k, m.get? k = some v ∧ ∀ other w, m.get? other = some w →
      other = k ∨ compare other k = .lt := by
  obtain ⟨entry, hentry, rfl⟩ := Option.map_eq_some_iff.1 h
  obtain ⟨before, hentries⟩ := List.getLast?_eq_some_iff.1 hentry
  refine ⟨entry.1, get?_of_mem (List.mem_of_getLast? hentry), fun other w hother ↦ ?_⟩
  have hmem := mem_entries_iff.2 hother
  have hascending := m.ascending
  rw [hentries] at hmem hascending
  rcases List.mem_append.1 hmem with hmem | hmem
  · exact .inr ((List.pairwise_append.1 hascending).2.2 _ hmem entry List.mem_cons_self)
  · exact .inl (congrArg Prod.fst (List.mem_singleton.1 hmem))

omit [Std.LawfulEqOrd κ] in
/-- A map with an entry has a greatest key. -/
theorem exists_last?_of_get? {m : OrderedMap κ α} {k : κ} {v : α} (h : m.get? k = some v) :
    ∃ w, m.last? = some w := by
  have hne : m.entries ≠ [] := by
    intro hempty
    rw [get?, hempty] at h
    cases h
  exact ⟨(m.entries.getLast hne).2, by rw [last?, List.getLast?_eq_some_getLast hne]; rfl⟩

/-- Maps in which every look-up finds the same are the same. -/
theorem eq_of_get? [Std.TransOrd κ] {m n : OrderedMap κ α} (h : ∀ k, m.get? k = n.get? k) :
    m = n := by
  have : Std.Antisymm fun a b : κ × α ↦ compare a.1 b.1 = .lt := by
    refine ⟨fun a b hlt hgt ↦ ?_⟩
    rw [Std.OrientedCmp.gt_of_lt hlt] at hgt
    cases hgt
  have : Std.Irrefl fun a b : κ × α ↦ compare a.1 b.1 = .lt := by
    refine ⟨fun a hlt ↦ ?_⟩
    cases hlt.symm.trans Std.ReflCmp.compare_self
  refine ext (m.ascending.eq_of_mem_iff n.ascending fun ⟨k, v⟩ ↦ ?_)
  rw [mem_entries_iff, mem_entries_iff, h]

variable {β : Type}

omit [Std.LawfulEqOrd κ] in
/-- The map with every value changed. -/
def map (m : OrderedMap κ α) (change : α → β) : OrderedMap κ β :=
  ⟨m.entries.map fun entry ↦ (entry.1, change entry.2), by
    rw [List.pairwise_map]
    exact m.ascending⟩

omit [Std.LawfulEqOrd κ] in
theorem get?_map {m : OrderedMap κ α} {change : α → β} {k : κ} :
    (m.map change).get? k = (m.get? k).map change := by
  obtain ⟨entries, hascending⟩ := m
  change lookup k (entries.map _) = (lookup k entries).map change
  clear hascending
  induction entries with
  | nil => rfl
  | cons entry rest ih =>
    rw [List.map_cons, lookup, lookup, ih]
    split
    · rfl
    · rfl

omit [Std.LawfulEqOrd κ] in
theorem keys_map {m : OrderedMap κ α} {change : α → β} : (m.map change).keys = m.keys := by
  rw [keys, keys, map, List.map_map]
  rfl

variable [Std.TransOrd κ] [DecidableEq κ]

theorem get?_insert_eq_ite (m : OrderedMap κ α) (k k' : κ) (v : α) :
    (m.insert k v).get? k' = if k' = k then some v else m.get? k' := by
  split
  · rename_i h
    rw [h, get?_insert_self]
  · rename_i h
    exact get?_insert_of_ne _ _ h

theorem get?_upsert (m : OrderedMap κ α) (k k' : κ) (default : α) (change : α → α) :
    (m.upsert k default change).get? k' =
      if k' = k then some (change ((m.get? k).getD default)) else m.get? k' :=
  get?_insert_eq_ite _ _ _ _

/-- Changes of values that commute do so under whichever keys. -/
theorem upsert_comm (m : OrderedMap κ α) (k k' : κ) (default : α) {change other : α → α}
    (h : ∀ v, change (other v) = other (change v)) :
    (m.upsert k default change).upsert k' default other =
      (m.upsert k' default other).upsert k default change := by
  refine eq_of_get? fun found ↦ ?_
  simp only [get?_upsert]
  by_cases hk : found = k
  · subst hk
    by_cases hk' : found = k'
    · subst hk'
      simp [h]
    · simp [hk']
  · by_cases hk' : found = k'
    · subst hk'
      simp [hk]
    · simp [hk, hk']

theorem get?_modify (m : OrderedMap κ α) (k k' : κ) (change : α → α) :
    (m.modify k change).get? k' = if k' = k then (m.get? k).map change else m.get? k' := by
  cases hget : m.get? k with
  | none =>
    simp only [modify, hget, Option.map_none]
    split
    · rename_i h
      rw [h, hget]
    · rfl
  | some v =>
    simp only [modify, hget, Option.map_some]
    exact get?_insert_eq_ite _ _ _ _

omit [Std.TransOrd κ] in
theorem get?_erase (m : OrderedMap κ α) (k k' : κ) :
    (m.erase k).get? k' = if k' = k then none else m.get? k' := by
  change lookup k' (m.entries.filter _) = if k' = k then none else lookup k' m.entries
  induction m.entries with
  | nil => simp [lookup]
  | cons entry rest ih =>
    by_cases hentry : compare k entry.1 = .eq
    · have hsame : k = entry.1 := Std.LawfulEqCmp.eq_of_compare hentry
      rw [List.filter_cons_of_neg (by simp [hentry]), ih, lookup, ← hsame]
      by_cases hk : k' = k
      · rw [if_pos hk, if_pos hk]
      · have hne : compare k' k ≠ .eq := fun heq ↦ hk (Std.LawfulEqCmp.eq_of_compare heq)
        rw [if_neg hk, if_neg hk, if_neg hne]
    · rw [List.filter_cons_of_pos (by simp [hentry]), lookup, lookup, ih]
      by_cases hk : k' = k
      · rw [if_pos hk, hk, if_neg hentry, if_pos rfl]
      · rw [if_neg hk, if_neg hk]

omit [DecidableEq κ] in
theorem mem_of_mem_ofList {entries : List (κ × α)} {entry : κ × α}
    (h : entry ∈ (ofList entries).entries) : entry ∈ entries := by
  have hfold : ∀ (rest : List (κ × α)) (m : OrderedMap κ α),
      entry ∈ (rest.foldl (fun m entry ↦ m.insert entry.1 entry.2) m).entries →
        entry ∈ m.entries ∨ entry ∈ rest := by
    intro rest
    induction rest with
    | nil => exact fun m hmem ↦ .inl hmem
    | cons head rest ih =>
      intro m hmem
      rcases ih _ hmem with hmem | hmem
      · rcases fst_mem_place hmem with rfl | hmem
        · exact .inr List.mem_cons_self
        · exact .inl hmem
      · exact .inr (List.mem_cons_of_mem _ hmem)
  exact (hfold entries .empty h).resolve_left List.not_mem_nil

omit [DecidableEq κ] in
/-- A map that is listed under different keys has exactly the listed entries. -/
theorem mem_ofList_iff {entries : List (κ × α)} (hdistinct : (entries.map (·.1)).Nodup)
    {entry : κ × α} : entry ∈ (ofList entries).entries ↔ entry ∈ entries := by
  refine ⟨mem_of_mem_ofList, ?_⟩
  have hfold : ∀ m : OrderedMap κ α, (∀ other ∈ entries, m.get? other.1 = none) →
      ∀ k v, m.get? k = some v ∨ (k, v) ∈ entries →
        (entries.foldl (fun m entry ↦ m.insert entry.1 entry.2) m).get? k = some v := by
    induction entries with
    | nil => exact fun m _ k v h ↦ h.resolve_right List.not_mem_nil
    | cons head rest ih =>
      obtain ⟨hhead, hrest⟩ := List.nodup_cons.1 hdistinct
      intro m hnew k v h
      obtain ⟨hnewHead, hnewRest⟩ := List.forall_mem_cons.1 hnew
      refine ih hrest (m.insert head.1 head.2) (fun other hother ↦ ?_) k v ?_
      · have hne : other.1 ≠ head.1 := by
          intro hsame
          exact hhead (List.mem_map.2 ⟨other, hother, hsame⟩)
        rw [get?_insert_of_ne _ _ hne, hnewRest other hother]
      · rcases h with h | h
        · left
          rw [get?_insert_of_ne _ _ ?_, h]
          rintro rfl
          cases h.symm.trans hnewHead
        · rcases List.mem_cons.1 h with rfl | h
          · exact .inl (get?_insert_self _ _ _)
          · exact .inr h
  exact fun h ↦ mem_entries_iff.2 (hfold .empty (fun _ _ ↦ rfl) entry.1 entry.2 (.inr h))

omit [DecidableEq κ] in
theorem isEmpty_insert (m : OrderedMap κ α) (k : κ) (v : α) : (m.insert k v).isEmpty = false := by
  have hne : (m.insert k v).entries ≠ [] := by
    intro hempty
    have hget := get?_insert_self m k v
    rw [get?, hempty] at hget
    cases hget
  exact List.isEmpty_eq_false_iff.2 hne

/-- A map that is listed from its keys has exactly these keys. -/
theorem get?_ofList_map {f : κ → α} {ks : List κ} {k : κ} :
    (ofList (ks.map fun k ↦ (k, f k))).get? k = if k ∈ ks then some (f k) else none := by
  have hfold : ∀ m : OrderedMap κ α,
      ((ks.map fun k ↦ (k, f k)).foldl (fun m entry ↦ m.insert entry.1 entry.2) m).get? k =
        if k ∈ ks then some (f k) else m.get? k := by
    induction ks with
    | nil => exact fun _ ↦ rfl
    | cons head rest ih =>
      intro m
      rw [List.map_cons, List.foldl_cons, ih]
      by_cases hhead : k = head
      · subst hhead
        rw [get?_insert_self, if_pos List.mem_cons_self, ite_self]
      · rw [get?_insert_of_ne _ _ hhead]
        simp only [List.mem_cons, hhead, false_or]
  exact hfold .empty

omit [DecidableEq κ] [Std.LawfulEqOrd κ] in
theorem place_eq_append {k : κ} {v : α} {entries : List (κ × α)}
    (h : ∀ entry ∈ entries, compare entry.1 k = .lt) : place k v entries = entries ++ [(k, v)] := by
  induction entries with
  | nil => rfl
  | cons head rest ih =>
    obtain ⟨hhead, hrest⟩ := List.forall_mem_cons.1 h
    rw [place, Std.OrientedCmp.gt_of_lt hhead, ih hrest]
    rfl

omit [DecidableEq κ] in
/-- Storing the entries of a map one after the other makes the map. -/
theorem ofList_entries (m : OrderedMap κ α) : ofList m.entries = m := by
  have hfold : ∀ (rest : List (κ × α)) (front : OrderedMap κ α),
      (front.entries ++ rest).Pairwise (fun a b ↦ compare a.1 b.1 = .lt) →
        (rest.foldl (fun m entry ↦ m.insert entry.1 entry.2) front).entries =
          front.entries ++ rest := by
    intro rest
    induction rest with
    | nil => exact fun front _ ↦ (List.append_nil _).symm
    | cons head rest ih =>
      intro front hascending
      have hfront : (front.insert head.1 head.2).entries = front.entries ++ [head] :=
        place_eq_append fun entry hentry ↦
          (List.pairwise_append.1 hascending).2.2 entry hentry head List.mem_cons_self
      rw [List.foldl_cons, ih _ (by rw [hfront]; simpa using hascending), hfront]
      simp
  exact ext (hfold m.entries .empty m.ascending)

end TensorInference.OrderedMap
