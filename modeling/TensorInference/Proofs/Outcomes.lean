import Mathlib.Data.List.Forall2
import Mathlib.Data.List.Nodup
import Mathlib.Data.List.Perm.Subperm

/-!
# Steps that may fail, and lists that go side by side

A chain of steps succeeds exactly when every step does, and a step taken for each member of a list
succeeds exactly when it does for all of them; the results then lie side by side with the members.
Members of a list are known by a name that does not repeat.
-/

namespace TensorInference

namespace Outcome

variable {ε α β : Type}

theorem ok_eq_ok_iff {a b : α} : (.ok a : Except ε α) = .ok b ↔ b = a := by
  rw [Except.ok.injEq, eq_comm]

theorem bind_eq_ok_iff {x : Except ε α} {f : α → Except ε β} {b : β} :
    x >>= f = .ok b ↔ ∃ a, x = .ok a ∧ f a = .ok b := by
  cases x with
  | error e => simp [bind, Except.bind]
  | ok a => simp [bind, Except.bind]

theorem bind_eq_error_iff {x : Except ε α} {f : α → Except ε β} {e : ε} :
    x >>= f = .error e ↔ x = .error e ∨ ∃ a, x = .ok a ∧ f a = .error e := by
  cases x with
  | error fault => simp [bind, Except.bind]
  | ok a => simp [bind, Except.bind]

theorem check_bind_eq_ok_iff {x : Except ε Unit} {f : Unit → Except ε β} {b : β} :
    x >>= f = .ok b ↔ x = .ok () ∧ f () = .ok b := by
  rw [bind_eq_ok_iff]
  exact ⟨fun ⟨_, hx, hf⟩ ↦ ⟨hx, hf⟩, fun ⟨hx, hf⟩ ↦ ⟨(), hx, hf⟩⟩

theorem map_eq_ok_iff {x : Except ε α} {f : α → β} {b : β} :
    f <$> x = .ok b ↔ ∃ a, x = .ok a ∧ f a = b := by
  cases x with
  | error e => simp [Functor.map, Except.map]
  | ok a => simp [Functor.map, Except.map]

theorem isOk_iff {x : Except ε α} : x.isOk = true ↔ ∃ a, x = .ok a := by
  cases x with
  | error e => simp [Except.isOk, Except.toBool]
  | ok a => simp [Except.isOk, Except.toBool]

/-- A check of a result comes out true if there is one that it is true of. -/
theorem any_toOption_iff {x : Except ε α} {check : α → Bool} :
    x.toOption.any check = true ↔ ∃ a, x = .ok a ∧ check a = true := by
  cases x with
  | error e => simp [Except.toOption]
  | ok a => simp [Except.toOption]

theorem mapM_eq_ok_iff {f : α → Except ε β} {xs : List α} {ys : List β} :
    xs.mapM f = .ok ys ↔ List.Forall₂ (fun x y ↦ f x = .ok y) xs ys := by
  induction xs generalizing ys with
  | nil => simp [pure, Except.pure, eq_comm]
  | cons x xs ih =>
    rw [List.mapM_cons, bind_eq_ok_iff]
    constructor
    · rintro ⟨y, hy, h⟩
      obtain ⟨zs, hzs, h⟩ := bind_eq_ok_iff.1 h
      obtain rfl : y :: zs = ys := Except.ok.inj h
      exact .cons hy (ih.1 hzs)
    · intro h
      obtain ⟨y, zs, hy, hzs, rfl⟩ := List.forall₂_cons_left_iff.1 h
      exact ⟨y, hy, bind_eq_ok_iff.2 ⟨zs, ih.2 hzs, rfl⟩⟩

/-- Steps fail for the first member of the list for which one does. -/
theorem exists_of_mapM_eq_error {f : α → Except ε β} {xs : List α} {e : ε}
    (h : xs.mapM f = .error e) :
    ∃ before x after, xs = before ++ x :: after ∧ (∀ y ∈ before, ∃ z, f y = .ok z) ∧
      f x = .error e := by
  induction xs with
  | nil => cases h
  | cons x xs ih =>
    rw [List.mapM_cons] at h
    rcases bind_eq_error_iff.1 h with hx | ⟨y, hy, h⟩
    · exact ⟨[], x, xs, rfl, fun _ hy ↦ (nomatch hy), hx⟩
    · rcases bind_eq_error_iff.1 h with hxs | ⟨ys, -, h⟩
      · obtain ⟨before, z, after, rfl, hbefore, hz⟩ := ih hxs
        exact ⟨x :: before, z, after, rfl, List.forall_mem_cons.2 ⟨⟨y, hy⟩, hbefore⟩, hz⟩
      · cases h

/-- A check that fails ends the steps after it. -/
theorem guard_eq_ok_iff {p : Prop} [Decidable p] {e : ε} {next : Unit → Except ε α} {a : α} :
    (if p then Except.error e >>= next else next ()) = .ok a ↔ ¬ p ∧ next () = .ok a := by
  by_cases hp : p
  · simp [hp, bind, Except.bind]
  · simp [hp]

end Outcome

namespace SideBySide

variable {α β γ : Type} {R : α → β → Prop}

theorem map_eq_map {f : α → γ} {g : β → γ} {xs : List α} {ys : List β}
    (h : List.Forall₂ R xs ys) (hfg : ∀ x y, R x y → f x = g y) : xs.map f = ys.map g := by
  induction h with
  | nil => rfl
  | cons hxy _ ih => rw [List.map_cons, List.map_cons, hfg _ _ hxy, ih]

theorem forall₂_eq_map_iff {f : α → β} {xs : List α} {ys : List β} :
    List.Forall₂ (fun x y ↦ y = f x) xs ys ↔ ys = xs.map f := by
  induction xs generalizing ys with
  | nil => simp
  | cons x xs ih => cases ys <;> simp [ih]

/-- Two lists beside a third one lie beside each other. -/
theorem comp {S : β → γ → Prop} {xs : List α} {ys : List β} {zs : List γ}
    (h : List.Forall₂ R xs ys) (h' : List.Forall₂ S ys zs) :
    List.Forall₂ (fun x z ↦ ∃ y, R x y ∧ S y z) xs zs := by
  induction h generalizing zs with
  | nil =>
    cases h'
    exact .nil
  | cons hxy _ ih =>
    obtain ⟨z, rest, hyz, hrest, rfl⟩ := List.forall₂_cons_left_iff.1 h'
    exact .cons ⟨_, hxy, hyz⟩ (ih hrest)

theorem mem_left {xs : List α} {ys : List β} (h : List.Forall₂ R xs ys) :
    List.Forall₂ (fun x y ↦ x ∈ xs ∧ R x y) xs ys :=
  (List.forall₂_and_left _ _).2 ⟨fun _ hx ↦ hx, h⟩

theorem exists_of_mem_left {xs : List α} {ys : List β} (h : List.Forall₂ R xs ys) {x : α}
    (hx : x ∈ xs) : ∃ y ∈ ys, R x y := by
  induction h with
  | nil => simp at hx
  | @cons a b _ _ hab _ ih =>
    rcases List.mem_cons.1 hx with rfl | hx
    · exact ⟨b, List.mem_cons_self, hab⟩
    · obtain ⟨y, hy, hxy⟩ := ih hx
      exact ⟨y, List.mem_cons_of_mem _ hy, hxy⟩

theorem exists_of_mem_right {xs : List α} {ys : List β} (h : List.Forall₂ R xs ys) {y : β}
    (hy : y ∈ ys) : ∃ x ∈ xs, R x y :=
  exists_of_mem_left h.flip hy

/-- Every member has a partner exactly when some list lies beside. -/
theorem exists_forall₂_iff {xs : List α} :
    (∃ ys, List.Forall₂ R xs ys) ↔ ∀ x ∈ xs, ∃ y, R x y := by
  induction xs with
  | nil => simp
  | cons x xs ih =>
    rw [List.forall_mem_cons, ← ih]
    constructor
    · rintro ⟨_, h⟩
      obtain ⟨y, ys, hy, hys, rfl⟩ := List.forall₂_cons_left_iff.1 h
      exact ⟨⟨y, hy⟩, ys, hys⟩
    · rintro ⟨⟨y, hy⟩, ys, hys⟩
      exact ⟨y :: ys, .cons hy hys⟩

end SideBySide

namespace Named

variable {α κ : Type} [DecidableEq κ] {name : α → κ}

theorem find?_eq_some_iff {xs : List α} (hdistinct : (xs.map name).Nodup) {key : κ} {x : α} :
    xs.find? (fun x ↦ name x = key) = some x ↔ x ∈ xs ∧ name x = key := by
  constructor
  · intro h
    exact ⟨List.mem_of_find?_eq_some h, by simpa using List.find?_some h⟩
  · rintro ⟨hx, rfl⟩
    induction xs with
    | nil => simp at hx
    | cons y ys ih =>
      rw [List.map_cons, List.nodup_cons] at hdistinct
      rcases List.mem_cons.1 hx with rfl | hx
      · simp
      · have hne : name y ≠ name x := fun h ↦ hdistinct.1 (h ▸ List.mem_map_of_mem hx)
        rw [List.find?_cons_of_neg (by simpa using hne)]
        exact ih hdistinct.2 hx

omit [DecidableEq κ] in
/-- Where keys do not repeat, a key has one value. -/
theorem snd_eq_of_mem {entries : List (κ × α)} (hdistinct : (entries.map (·.1)).Nodup)
    {key : κ} {x y : α} (hx : (key, x) ∈ entries) (hy : (key, y) ∈ entries) : x = y :=
  congrArg Prod.snd (List.inj_on_of_nodup_map hdistinct hx hy rfl)

/-- Where names do not repeat, a search by name does not depend on the order. -/
theorem find?_perm {xs ys : List α} (hdistinct : (xs.map name).Nodup) (h : ys.Perm xs)
    (key : κ) : ys.find? (fun x ↦ name x = key) = xs.find? fun x ↦ name x = key := by
  have hother : (ys.map name).Nodup := (h.map name).nodup_iff.2 hdistinct
  ext x
  rw [find?_eq_some_iff hdistinct, find?_eq_some_iff hother, h.mem_iff]

theorem isSome_find?_iff {xs : List α} {key : κ} :
    (xs.find? fun x ↦ name x = key).isSome ↔ key ∈ xs.map name := by
  simp [List.find?_isSome]

/-- Names of which none repeats and none was seen before. -/
def Unseen (seen names : List String) : Prop :=
  names.Nodup ∧ ∀ key ∈ names, key ∉ seen

@[simp]
theorem unseen_nil (seen : List String) : Unseen seen [] := by
  simp [Unseen]

/-- A scan that remembers what it saw meets no repetition. -/
theorem unseen_cons {seen rest : List String} {key : String} :
    Unseen seen (key :: rest) ↔ key ∉ seen ∧ Unseen (key :: seen) rest := by
  unfold Unseen
  rw [List.nodup_cons, List.forall_mem_cons]
  constructor
  · rintro ⟨⟨hrest, hdistinct⟩, hkey, hseen⟩
    refine ⟨hkey, hdistinct, fun other hother hmem ↦ ?_⟩
    rcases List.mem_cons.1 hmem with rfl | hmem
    · exact hrest hother
    · exact hseen other hother hmem
  · rintro ⟨hkey, hdistinct, hseen⟩
    refine ⟨⟨fun h ↦ hseen key h List.mem_cons_self, hdistinct⟩, hkey, fun other hother h ↦ ?_⟩
    exact hseen other hother (List.mem_cons_of_mem _ h)

theorem unseen_nil_iff {names : List String} : Unseen [] names ↔ names.Nodup := by
  simp [Unseen]

/-- As many distinct names as there are, all of them known, are those names in some order. -/
theorem perm_of_subset {names known : List String} (hdistinct : names.Nodup)
    (hsubset : ∀ key ∈ names, key ∈ known) (hlength : names.length = known.length) :
    names.Perm known :=
  (hdistinct.subperm hsubset).perm_of_length_le (Nat.le_of_eq hlength.symm)

end Named

end TensorInference
