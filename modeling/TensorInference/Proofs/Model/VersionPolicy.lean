import Mathlib.Data.Finset.Card
import Mathlib.Data.List.Sort
import TensorInference.Model.VersionPolicy

/-!
# What a version policy selects

A selection is listed from the highest version to the lowest, and depends on which versions are
present alone: neither their order nor a version that is present twice makes a difference. `Selects`
says what each policy asks for without sorting anything, and what is selected is the one list that
answers it.
-/

namespace TensorInference.Model.VersionPolicy

variable {version other : UInt64} {versions others : List UInt64}

theorem mem_place : other ∈ place version versions ↔ other = version ∨ other ∈ versions := by
  induction versions with
  | nil => simp [place]
  | cons head rest ih =>
    rw [place]
    split
    · simp
    split
    · rename_i hsame
      rw [hsame]
      simp
    · rw [List.mem_cons, ih, List.mem_cons]
      exact or_left_comm

theorem pairwise_place (h : versions.Pairwise (· > ·)) :
    (place version versions).Pairwise (· > ·) := by
  induction versions with
  | nil => exact List.pairwise_singleton _ _
  | cons head rest ih =>
    obtain ⟨hhead, hrest⟩ := List.pairwise_cons.1 h
    rw [place]
    split
    · rename_i hlt
      refine List.pairwise_cons.2 ⟨List.forall_mem_cons.2 ⟨hlt, fun other hother ↦ ?_⟩, h⟩
      exact UInt64.lt_trans (hhead other hother) hlt
    split
    · exact h
    · rename_i hle hne
      refine List.pairwise_cons.2 ⟨fun other hother ↦ ?_, ih hrest⟩
      rcases mem_place.1 hother with rfl | hother
      · exact UInt64.lt_of_le_of_ne (UInt64.not_lt.1 hle) (Ne.symm hne)
      · exact hhead other hother

theorem mem_descending : version ∈ descending versions ↔ version ∈ versions := by
  induction versions with
  | nil => rfl
  | cons head rest ih =>
    rw [descending, List.foldr_cons, mem_place, ← descending, ih, List.mem_cons]

theorem pairwise_descending (versions : List UInt64) :
    (descending versions).Pairwise (· > ·) := by
  induction versions with
  | nil => exact .nil
  | cons head rest ih => exact pairwise_place ih

/-- Lists from the highest version to the lowest with the same versions are the same. -/
theorem eq_of_mem_iff (h : versions.Pairwise (· > ·)) (h' : others.Pairwise (· > ·))
    (hsame : ∀ version, version ∈ versions ↔ version ∈ others) : versions = others := by
  have : Std.Antisymm fun a b : UInt64 ↦ a > b := ⟨fun _ _ h h' ↦ absurd h' (UInt64.lt_asymm h)⟩
  have : Std.Irrefl fun a b : UInt64 ↦ a > b := ⟨UInt64.lt_irrefl⟩
  exact h.eq_of_mem_iff h' hsame

theorem descending_congr (h : ∀ version, version ∈ versions ↔ version ∈ others) :
    descending versions = descending others := by
  apply eq_of_mem_iff (pairwise_descending versions) (pairwise_descending others)
  intro version
  rw [mem_descending, mem_descending, h]

/-- A selection is listed from the highest version to the lowest. -/
theorem pairwise_select (policy : VersionPolicy) (versions : List UInt64) :
    (policy.select versions).Pairwise (· > ·) := by
  cases policy with
  | latest count => exact (pairwise_descending versions).take
  | all => exact pairwise_descending versions
  | specific wanted => exact pairwise_descending _

/-- Only versions that are present are selected. -/
theorem mem_of_mem_select {policy : VersionPolicy} (h : version ∈ policy.select versions) :
    version ∈ versions := by
  cases policy with
  | latest count => exact mem_descending.1 (List.mem_of_mem_take h)
  | all => exact mem_descending.1 h
  | specific wanted =>
    exact List.contains_iff_mem.1 (List.mem_filter.1 (mem_descending.1 h)).2

/-- A selection depends on which versions are present alone. -/
theorem select_congr (policy : VersionPolicy)
    (h : ∀ version, version ∈ versions ↔ version ∈ others) :
    policy.select versions = policy.select others := by
  cases policy with
  | latest count => rw [select, select, descending_congr h]
  | all => exact descending_congr h
  | specific wanted =>
    have hcontains : (fun version ↦ versions.contains version) = fun version ↦
        others.contains version := by
      funext version
      rw [Bool.eq_iff_iff, List.contains_iff_mem, List.contains_iff_mem, h]
    rw [select, select, hcontains]

theorem nodup_of_pairwise (h : versions.Pairwise (· > ·)) : versions.Nodup := by
  refine h.imp fun hlt hsame ↦ ?_
  rw [hsame] at hlt
  exact UInt64.lt_irrefl _ hlt

/-- There are as many versions in descending order as there are different ones. -/
theorem length_descending (versions : List UInt64) :
    (descending versions).length = versions.toFinset.card := by
  have hmembers : (descending versions).toFinset = versions.toFinset := by
    ext version
    rw [List.mem_toFinset, List.mem_toFinset, mem_descending]
  rw [← hmembers, List.toFinset_card_of_nodup (nodup_of_pairwise (pairwise_descending versions))]

/-- What is left out behind the first versions is lower than these. -/
theorem lt_of_mem_take (h : versions.Pairwise (· > ·)) {count : Nat}
    (hversion : version ∈ versions.take count) (hother : other ∈ versions)
    (hleft : other ∉ versions.take count) : other < version := by
  rw [← List.take_append_drop count versions] at h hother
  have hdrop : other ∈ versions.drop count := (List.mem_append.1 hother).resolve_left hleft
  exact (List.pairwise_append.1 h).2.2 version hversion other hdrop

/-- What a policy asks for out of the versions that are present. -/
structure Selects (policy : VersionPolicy) (available selected : List UInt64) : Prop where
  /-- From the highest version to the lowest, each once. -/
  descending : selected.Pairwise (· > ·)
  present : ∀ version ∈ selected, version ∈ available
  /-- So many versions, if there are that many different ones, and none that is left out is as high
  as one of these. -/
  latest : ∀ count, policy = .latest count →
    selected.length = min count.toNat available.toFinset.card ∧
      ∀ version ∈ selected, ∀ other ∈ available, other ∉ selected → other < version
  all : policy = .all → ∀ version ∈ available, version ∈ selected
  specific : ∀ wanted, policy = .specific wanted →
    ∀ version, version ∈ selected ↔ version ∈ available ∧ version ∈ wanted

theorem selects_latest (count : UInt32) (available : List UInt64) :
    (latest count).Selects available ((latest count).select available) where
  descending := pairwise_select _ available
  present := fun _ hversion ↦ mem_of_mem_select hversion
  latest := by
    intro wanted hwanted
    obtain rfl : count = wanted := by injection hwanted
    constructor
    · rw [select, List.length_take, length_descending]
    · intro version hversion other hother hleft
      rw [← mem_descending] at hother
      exact lt_of_mem_take (pairwise_descending available) hversion hother hleft
  all := nofun
  specific := nofun

theorem selects_all (available : List UInt64) :
    all.Selects available (all.select available) where
  descending := pairwise_select _ available
  present := fun _ hversion ↦ mem_of_mem_select hversion
  latest := nofun
  all := fun _ _ hversion ↦ mem_descending.2 hversion
  specific := nofun

theorem selects_specific (wanted available : List UInt64) :
    (specific wanted).Selects available ((specific wanted).select available) where
  descending := pairwise_select _ available
  present := fun _ hversion ↦ mem_of_mem_select hversion
  latest := nofun
  all := nofun
  specific := by
    intro listed hlisted version
    obtain rfl : wanted = listed := by injection hlisted
    rw [select, mem_descending, List.mem_filter, List.contains_iff_mem]
    exact and_comm

/-- As many of the highest versions are the same ones: if each of two selections had one that the
other has not, each of the two would be lower than the other. -/
theorem mem_of_selects_latest {count : UInt32} {available : List UInt64}
    (h : (latest count).Selects available versions)
    (h' : (latest count).Selects available others) (hversion : version ∈ versions) :
    version ∈ others := by
  obtain ⟨hlength, hhighest⟩ := h.latest count rfl
  obtain ⟨hlength', hhighest'⟩ := h'.latest count rfl
  by_contra hleft
  have hsubset : ∀ other ∈ others, other ∈ versions := by
    intro other hother
    by_contra hmissing
    have hlower := hhighest version hversion other (h'.present other hother) hmissing
    have hhigher := hhighest' other hother version (h.present version hversion) hleft
    exact UInt64.lt_asymm hlower hhigher
  have hperm : others.Perm versions := by
    apply ((nodup_of_pairwise h'.descending).subperm hsubset).perm_of_length_le
    rw [hlength, hlength']
  exact hleft (hperm.mem_iff.2 hversion)

/-- A policy asks for one list only. -/
theorem Selects.unique {policy : VersionPolicy} {available : List UInt64}
    (h : policy.Selects available versions) (h' : policy.Selects available others) :
    versions = others := by
  apply eq_of_mem_iff h.descending h'.descending
  intro version
  cases policy with
  | latest count => exact ⟨mem_of_selects_latest h h', mem_of_selects_latest h' h⟩
  | all =>
    constructor
    · exact fun hversion ↦ h'.all rfl version (h.present version hversion)
    · exact fun hversion ↦ h.all rfl version (h'.present version hversion)
  | specific wanted => rw [h.specific wanted rfl, h'.specific wanted rfl]

/-- Neither the order nor the repetitions of a list of wanted versions make a difference. -/
theorem select_specific_congr {wanted listed : List UInt64}
    (h : ∀ version, version ∈ listed ↔ version ∈ wanted) (available : List UInt64) :
    (specific listed).select available = (specific wanted).select available := by
  apply descending_congr
  intro version
  rw [List.mem_filter, List.mem_filter, h]

/-- What a policy selects is what it asks for and nothing else. It depends on which versions are
present and, where a policy lists versions, on which ones are listed. -/
theorem selects_select (policy : VersionPolicy) (available : List UInt64) :
    (∀ selected, policy.Selects available selected ↔ selected = policy.select available) ∧
      (∀ others, (∀ version, version ∈ others ↔ version ∈ available) →
        policy.select others = policy.select available) ∧
      ∀ wanted listed, (∀ version, version ∈ listed ↔ version ∈ wanted) →
        (specific listed).select available = (specific wanted).select available := by
  have hselects : policy.Selects available (policy.select available) := by
    cases policy with
    | latest count => exact selects_latest count available
    | all => exact selects_all available
    | specific wanted => exact selects_specific wanted available
  refine ⟨fun selected ↦ ⟨fun h ↦ h.unique hselects, ?_⟩, ?_, ?_⟩
  · rintro rfl
    exact hselects
  · exact fun others hsame ↦ select_congr policy hsame
  · exact fun wanted listed hsame ↦ select_specific_congr hsame available

example : (latest 2).select [3, 1, 3, 2] = [3, 2] := by decide

end TensorInference.Model.VersionPolicy
