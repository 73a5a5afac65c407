/-!
# Maps in key order

A finite map is the list of its entries in strictly ascending key order. The order is part of the
type, so listing a map needs no sorting and equal entries make equal maps. Main statement:
`get?_insert` says what an insertion changes.
-/

namespace TensorInference

/-- A finite map with its entries in ascending key order. -/
structure OrderedMap (κ α : Type) [Ord κ] where
  entries : List (κ × α)
  ascending : entries.Pairwise fun a b => compare a.1 b.1 = .lt

namespace OrderedMap

variable {κ α β : Type} [Ord κ]

@[ext]
theorem ext {m n : OrderedMap κ α} (h : m.entries = n.entries) : m = n := by
  cases m
  cases n
  simp_all

instance [DecidableEq κ] [DecidableEq α] : DecidableEq (OrderedMap κ α) := fun m n =>
  if h : m.entries = n.entries then isTrue (ext h)
  else isFalse fun hmn => h (congrArg entries hmn)

def empty : OrderedMap κ α := ⟨[], .nil⟩

instance : Inhabited (OrderedMap κ α) := ⟨empty⟩

def lookup (k : κ) : List (κ × α) → Option α
  | [] => none
  | entry :: rest => if compare k entry.1 = .eq then some entry.2 else lookup k rest

def get? (m : OrderedMap κ α) (k : κ) : Option α :=
  lookup k m.entries

def contains (m : OrderedMap κ α) (k : κ) : Bool :=
  (m.get? k).isSome

def isEmpty (m : OrderedMap κ α) : Bool :=
  m.entries.isEmpty

def keys (m : OrderedMap κ α) : List κ :=
  m.entries.map (·.1)

def values (m : OrderedMap κ α) : List α :=
  m.entries.map (·.2)

/-- The value under the greatest key. -/
def last? (m : OrderedMap κ α) : Option α :=
  m.entries.getLast?.map (·.2)

/-- Put an entry in its place, over one with the same key. -/
def place (k : κ) (v : α) : List (κ × α) → List (κ × α)
  | [] => [(k, v)]
  | entry :: rest =>
    match compare k entry.1 with
    | .lt => (k, v) :: entry :: rest
    | .eq => (k, v) :: rest
    | .gt => entry :: place k v rest

theorem fst_mem_place {k : κ} {v : α} {entry : κ × α} {entries : List (κ × α)}
    (h : entry ∈ place k v entries) : entry = (k, v) ∨ entry ∈ entries := by
  induction entries with
  | nil => simpa [place] using h
  | cons head rest ih =>
    rw [place] at h
    split at h
    · simpa using h
    · rcases List.mem_cons.1 h with h | h
      · exact .inl h
      · exact .inr (List.mem_cons_of_mem _ h)
    · rcases List.mem_cons.1 h with h | h
      · exact .inr (h ▸ List.mem_cons_self)
      · exact (ih h).imp id (List.mem_cons_of_mem _)

variable [Std.TransOrd κ] [Std.LawfulEqOrd κ]

theorem pairwise_place (k : κ) (v : α) {entries : List (κ × α)}
    (h : entries.Pairwise fun a b => compare a.1 b.1 = .lt) :
    (place k v entries).Pairwise fun a b => compare a.1 b.1 = .lt := by
  induction entries with
  | nil => simp [place]
  | cons head rest ih =>
    have hrest := List.pairwise_cons.1 h
    rw [place]
    split
    · rename_i hlt
      refine List.pairwise_cons.2 ⟨fun entry hentry => ?_, h⟩
      rcases List.mem_cons.1 hentry with rfl | hentry
      · exact hlt
      · exact Std.TransCmp.lt_trans hlt (hrest.1 entry hentry)
    · rename_i heq
      have hk : k = head.1 := Std.LawfulEqCmp.eq_of_compare heq
      exact List.pairwise_cons.2 ⟨fun entry hentry => hk ▸ hrest.1 entry hentry, hrest.2⟩
    · rename_i hgt
      refine List.pairwise_cons.2 ⟨fun entry hentry => ?_, ih hrest.2⟩
      rcases fst_mem_place hentry with rfl | hentry
      · exact Std.OrientedCmp.lt_of_gt hgt
      · exact hrest.1 entry hentry

/-- Store a value under a key, over the value that was there. -/
def insert (m : OrderedMap κ α) (k : κ) (v : α) : OrderedMap κ α :=
  ⟨place k v m.entries, pairwise_place k v m.ascending⟩

/-- Change the value under a key, starting from `default` when there is none. -/
def upsert (m : OrderedMap κ α) (k : κ) (default : α) (change : α → α) : OrderedMap κ α :=
  m.insert k (change ((m.get? k).getD default))

/-- Change the value under a key that is present. -/
def modify (m : OrderedMap κ α) (k : κ) (change : α → α) : OrderedMap κ α :=
  match m.get? k with
  | some v => m.insert k (change v)
  | none => m

omit [Std.TransOrd κ] [Std.LawfulEqOrd κ] in
def erase (m : OrderedMap κ α) (k : κ) : OrderedMap κ α :=
  ⟨m.entries.filter fun entry => compare k entry.1 ≠ .eq, m.ascending.filter _⟩

/-- Store entries one after the other; the last one under a key stays. -/
def ofList (entries : List (κ × α)) : OrderedMap κ α :=
  entries.foldl (fun m entry => m.insert entry.1 entry.2) empty

def singleton (k : κ) (v : α) : OrderedMap κ α :=
  empty.insert k v

omit [Std.TransOrd κ] [Std.LawfulEqOrd κ] in
@[simp]
theorem get?_empty (k : κ) : (empty : OrderedMap κ α).get? k = none := rfl

omit [Std.TransOrd κ] in
theorem lookup_place (k k' : κ) (v : α) (entries : List (κ × α)) :
    lookup k' (place k v entries) = if compare k' k = .eq then some v else lookup k' entries := by
  induction entries with
  | nil => simp [place, lookup]
  | cons head rest ih =>
    rw [place]
    split
    · simp [lookup]
    · rename_i heq
      have hk : k = head.1 := Std.LawfulEqCmp.eq_of_compare heq
      by_cases hkk : compare k' k = .eq
      · simp [lookup, hkk]
      · have hhead : compare k' head.1 ≠ .eq := hk ▸ hkk
        simp [lookup, hkk, hhead]
    · rename_i hgt
      by_cases hhead : compare k' head.1 = .eq
      · have hk : k' = head.1 := Std.LawfulEqCmp.eq_of_compare hhead
        have hkk : compare k' k ≠ .eq := by
          intro hkk
          have : k' = k := Std.LawfulEqCmp.eq_of_compare hkk
          have hself : compare k head.1 = .eq := this ▸ hhead
          rw [hself] at hgt
          cases hgt
        simp [lookup, hhead, hkk]
      · simp [lookup, hhead, ih]

/-- An insertion is seen under its own key and nowhere else. -/
theorem get?_insert (m : OrderedMap κ α) (k k' : κ) (v : α) :
    (m.insert k v).get? k' = if compare k' k = .eq then some v else m.get? k' :=
  lookup_place k k' v m.entries

@[simp]
theorem get?_insert_self (m : OrderedMap κ α) (k : κ) (v : α) :
    (m.insert k v).get? k = some v := by
  simp [get?_insert, Std.ReflCmp.compare_self]

theorem get?_insert_of_ne (m : OrderedMap κ α) {k k' : κ} (v : α) (h : k' ≠ k) :
    (m.insert k v).get? k' = m.get? k' := by
  have : compare k' k ≠ .eq := fun he => h (Std.LawfulEqCmp.eq_of_compare he)
  simp [get?_insert, this]

end OrderedMap

end TensorInference
