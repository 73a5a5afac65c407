import TensorInference.Proofs.Server.Loading

/-!
# Counters by fingerprint

Counters are looked up by the fingerprint of a label. An update changes the counters of one
fingerprint and takes none away. A created server exposes the counters of every version that it
loaded, all at zero.
-/

namespace TensorInference.Server

open Model Files

namespace Metrics

variable {metrics : Metrics} {label other : Label} {fingerprint : UInt64}
  {change : Counters → Counters}

/-- The counters of a fingerprint, at zero if there are none yet. -/
def countersAt (metrics : Metrics) (fingerprint : UInt64) : Counters :=
  ((metrics.series.get? fingerprint).map (·.counters)).getD {}

theorem countersAt_update : (metrics.update label change).countersAt fingerprint =
    if label.fingerprint = fingerprint then change (metrics.countersAt fingerprint)
    else metrics.countersAt fingerprint := by
  rw [countersAt, update, OrderedMap.get?_upsert, countersAt]
  by_cases hsame : label.fingerprint = fingerprint
  · subst hsame
    rw [if_pos rfl, if_pos rfl]
    cases metrics.series.get? label.fingerprint <;> rfl
  · rw [if_neg (Ne.symm hsame), if_neg hsame]

theorem isSome_counters?_update : ((metrics.update label change).counters? other).isSome =
    (decide (other.fingerprint = label.fingerprint) || (metrics.counters? other).isSome) := by
  rw [counters?, Option.isSome_map, update, OrderedMap.get?_upsert, counters?, Option.isSome_map]
  split
  · rename_i h
    simp [h]
  · rename_i h
    simp [h]

theorem counters?_eq (h : (metrics.counters? label).isSome) :
    metrics.counters? label = some (metrics.countersAt label.fingerprint) := by
  obtain ⟨counters, hcounters⟩ := Option.isSome_iff_exists.1 h
  rw [hcounters, countersAt, ← counters?, hcounters, Option.getD_some]

end Metrics

/-- All counters are at zero, and those of every loaded version are there. -/
structure Exposes (metered : Bool) (backends : Backends) (metrics : Metrics) : Prop where
  zero : ∀ fingerprint, metrics.countersAt fingerprint = {}
  exposed : metered = true → ∀ model version backend,
    backends.version? model version = some backend →
      (metrics.counters? ⟨model, version⟩).isSome

variable {files : Tree} {registry : Platform.Registry} {metered : Bool} {loaded : Loaded}

theorem Exposes.addVersion {definition : Definition}
    (h : Exposes metered loaded.backends loaded.books.metrics) (version : UInt64) :
    let next := loaded.addVersion files registry metered definition version
    Exposes metered next.backends next.books.metrics := by
  unfold Loaded.addVersion
  dsimp only
  split
  · refine ⟨fun fingerprint ↦ ?_, fun hmetered model number backend hbackend ↦ ?_⟩
    · split
      · rw [Metrics.expose, Metrics.countersAt_update]
        split
        · exact h.zero fingerprint
        · exact h.zero fingerprint
      · exact h.zero fingerprint
    · rw [if_pos hmetered, Metrics.expose, Metrics.isSome_counters?_update]
      rw [Backends.version?_upsert] at hbackend
      split at hbackend
      · rename_i hsame
        obtain ⟨rfl, rfl⟩ := hsame
        simp
      · rw [h.exposed hmetered model number backend hbackend, Bool.or_true]
  · exact h

theorem Exposes.addModel (h : Exposes metered loaded.backends loaded.books.metrics)
    (model : Discovered) :
    let next := loaded.addModel files registry metered model
    Exposes metered next.backends next.books.metrics := by
  have hversions : ∀ (definition : Definition) (versions : List UInt64) (loaded : Loaded),
      Exposes metered loaded.backends loaded.books.metrics →
        let next := versions.foldl (Loaded.addVersion files registry metered definition) loaded
        Exposes metered next.backends next.books.metrics := by
    intro definition versions
    induction versions with
    | nil => exact fun _ h ↦ h
    | cons version rest ih => exact fun loaded h ↦ ih _ (h.addVersion version)
  unfold Loaded.addModel
  dsimp only
  split
  · exact h
  · exact hversions _ _ _ h

theorem exposes_of_create {freshId : String} {options : Options} {server : State}
    (h : State.create files registry freshId options = .ok server) :
    Exposes options.metrics server.backends server.books.metrics := by
  obtain ⟨models, -, hserver⟩ := Outcome.bind_eq_ok_iff.1 h
  obtain rfl := Except.ok.inj hserver
  have hmodels : ∀ (models : List Discovered) (loaded : Loaded),
      Exposes options.metrics loaded.backends loaded.books.metrics →
        let final := models.foldl (Loaded.addModel files registry options.metrics) loaded
        Exposes options.metrics final.backends final.books.metrics := by
    intro models
    induction models with
    | nil => exact fun _ h ↦ h
    | cons model rest ih => exact fun loaded h ↦ ih _ (h.addModel model)
  exact hmodels models ⟨.empty, .empty⟩ ⟨fun _ ↦ rfl, nofun⟩

end TensorInference.Server
