import Mathlib.Algebra.Ring.Nat
import Mathlib.Data.List.Induction
import TensorInference.Proofs.Server.Metrics
import TensorInference.Proofs.Server.StatusTable
import TensorInference.Server.Traffic

/-!
# The books as the sum of a ledger

Every call that reached a model version is concluded once, and a conclusion is recorded in both
books. The ledger is the list of the conclusions. What a book says of a version is read off the
conclusions of that version, batch size by batch size; what the metrics say of a label is read off
the conclusions whose labels have its fingerprint, for all of these share one series.
-/

namespace TensorInference.Server

open Model Wire

/-- A call that reached a version of a model. -/
structure RoutedCall where
  ticket : Ticket
  model : String
  version : UInt64
  /-- The batch size that its header carried. -/
  batch : UInt32
  deriving DecidableEq, Repr

/-- Whether a call is for a model version. -/
def RoutedCall.isFor (call : RoutedCall) (model : String) (version : UInt64) : Bool :=
  call.model = model && call.version = version

/-- The label of the counters that a call is counted in. -/
def RoutedCall.label (call : RoutedCall) : Label := ⟨call.model, call.version⟩

/-- A timer that follows a call and has not recorded it yet. -/
structure Timer.Follows (metered : Bool) (timer : Timer) (call : RoutedCall) : Prop where
  model : timer.model = call.model
  version : timer.version = some call.version
  batch : timer.batch = call.batch
  label : timer.label = if metered then some call.label else none
  unfinished : timer.finished = false

/-- A timer that will record a call when it ends, wherever the call is counted besides. -/
structure Timer.Awaits (timer : Timer) (call : RoutedCall) : Prop where
  model : timer.model = call.model
  version : timer.version = some call.version
  batch : timer.batch = call.batch
  unfinished : timer.finished = false

theorem Timer.Follows.awaits {metered : Bool} {timer : Timer} {call : RoutedCall}
    (h : timer.Follows metered call) : timer.Awaits call :=
  ⟨h.model, h.version, h.batch, h.unfinished⟩

/-- The end of a call. -/
structure Conclusion where
  call : RoutedCall
  timer : Timer
  success : Bool
  time : Nanoseconds

/-- Record the end of a call. -/
def Books.conclude (books : Books) (conclusion : Conclusion) : Books :=
  (conclusion.timer.finish conclusion.success conclusion.time books).2

namespace Conclusion

/-- What a conclusion does to the status of its version. -/
def post (conclusion : Conclusion) (status : VersionStatus) : VersionStatus :=
  let batch := conclusion.call.batch
  if conclusion.success then
    let timing := conclusion.timer.timing conclusion.time
    { status with
      statistics := status.statistics.upsert batch .zero fun statistics ↦
        { statistics with
          success := statistics.success.record timing.request
          compute := statistics.compute.record timing.compute
          queue := statistics.queue.record timing.queue }
      executions := status.executions + 1
      inferences := status.inferences + batch.toUInt64 }
  else
    { status with
      statistics := status.statistics.upsert batch .zero fun statistics ↦
        { statistics with
          failed := statistics.failed.record (conclusion.time - conclusion.timer.start) } }

/-- What a conclusion does to the counters that it is counted in. -/
def count (conclusion : Conclusion) (counters : Counters) : Counters :=
  if conclusion.success then
    let timing := conclusion.timer.timing conclusion.time
    { counters with
      success := counters.success + 1
      executions := counters.executions + 1
      inferences := counters.inferences + conclusion.call.batch.toUInt64
      requestTime := counters.requestTime + Metrics.microseconds timing.request
      computeTime := counters.computeTime + Metrics.microseconds timing.compute
      queueTime := counters.queueTime + Metrics.microseconds timing.queue }
  else
    { counters with
      failure := counters.failure + 1
      requestTime :=
        counters.requestTime + Metrics.microseconds (conclusion.time - conclusion.timer.start) }

/-- Whether a conclusion is counted in the series of a fingerprint. -/
def isCountedUnder (conclusion : Conclusion) (fingerprint : UInt64) : Bool :=
  conclusion.timer.label.any (·.fingerprint = fingerprint)

end Conclusion

/-- Count a conclusion under a label, if there is one. -/
def Metrics.counting (metrics : Metrics) (label : Option Label) (conclusion : Conclusion) : Metrics :=
  label.elim metrics fun label ↦ metrics.update label conclusion.count

variable {metered : Bool} {conclusion : Conclusion} {ledger : List Conclusion} {books : Books}
  {model : String} {version fingerprint : UInt64} {status : VersionStatus}

theorem RoutedCall.isFor_iff {call : RoutedCall} :
    call.isFor model version = true ↔ call.model = model ∧ call.version = version := by
  rw [isFor, Bool.and_eq_true, decide_eq_true_eq, decide_eq_true_eq]

theorem status_conclude (h : conclusion.timer.Awaits conclusion.call) :
    (books.conclude conclusion).status =
      books.status.record conclusion.call.model conclusion.call.version conclusion.post := by
  obtain ⟨call, timer, success, time⟩ := conclusion
  obtain ⟨hmodel, hversion, hbatch, hunfinished⟩ := h
  dsimp only at hmodel hversion hbatch hunfinished
  unfold Books.conclude Timer.finish Conclusion.post
  dsimp only
  rw [hunfinished, hversion, ← hmodel, ← hbatch]
  cases success <;> rfl

theorem version?_conclude (h : conclusion.timer.Awaits conclusion.call) :
    (books.conclude conclusion).status.version? model version =
      (books.status.version? model version).map fun status ↦
        if conclusion.call.isFor model version then conclusion.post status else status := by
  rw [status_conclude h, StatusTable.version?_record]
  by_cases hsame : model = conclusion.call.model ∧ version = conclusion.call.version
  · obtain ⟨rfl, rfl⟩ := hsame
    simp [RoutedCall.isFor]
  · rw [if_neg hsame]
    have hother : conclusion.call.isFor model version = false := by
      rw [← Bool.not_eq_true, RoutedCall.isFor_iff]
      exact fun h ↦ hsame ⟨h.1.symm, h.2.symm⟩
    simp [hother]

theorem metrics_conclude (h : conclusion.timer.Awaits conclusion.call) :
    (books.conclude conclusion).metrics =
      books.metrics.counting conclusion.timer.label conclusion := by
  obtain ⟨call, timer, success, time⟩ := conclusion
  obtain ⟨-, hversion, hbatch, hunfinished⟩ := h
  dsimp only at hversion hbatch hunfinished
  unfold Books.conclude Timer.finish Metrics.counting Conclusion.count
  dsimp only
  rw [hunfinished, hversion, ← hbatch]
  cases hlabel : timer.label with
  | none => cases success <;> simp only [Books.recordSuccess, Books.recordFailure, hlabel] <;> rfl
  | some label =>
    cases success <;> simp only [Books.recordSuccess, Books.recordFailure, hlabel] <;> rfl

namespace Metrics

variable {metrics : Metrics} {label : Option Label}

theorem countersAt_counting : (metrics.counting label conclusion).countersAt fingerprint =
    if label.any (·.fingerprint = fingerprint) then
      conclusion.count (metrics.countersAt fingerprint)
    else metrics.countersAt fingerprint := by
  cases label with
  | none => rfl
  | some label =>
    rw [counting, Option.elim_some, countersAt_update, Option.any_some]
    simp only [decide_eq_true_eq]

theorem isSome_counters?_counting {other : Label} (h : (metrics.counters? other).isSome) :
    ((metrics.counting label conclusion).counters? other).isSome := by
  cases label with
  | none => exact h
  | some label => rw [counting, Option.elim_some, isSome_counters?_update, h, Bool.or_true]

end Metrics

/-- The status of a version is what its conclusions made of it. -/
theorem version?_ledger (h : ∀ entry ∈ ledger, entry.timer.Awaits entry.call) :
    (ledger.foldl Books.conclude books).status.version? model version =
      (books.status.version? model version).map fun status ↦
        (ledger.filter (·.call.isFor model version)).foldl (fun status entry ↦ entry.post status)
          status := by
  induction ledger generalizing books with
  | nil => exact Option.map_id'.symm
  | cons entry rest ih =>
    rw [List.foldl_cons, ih fun other hother ↦ h other (List.mem_cons_of_mem _ hother),
      version?_conclude (h entry List.mem_cons_self), Option.map_map]
    refine Option.map_congr fun status _ ↦ ?_
    rw [Function.comp_apply, List.filter_cons]
    split <;> rfl

/-- A series is what the conclusions under its fingerprint made of it. -/
theorem countersAt_ledger (h : ∀ entry ∈ ledger, entry.timer.Awaits entry.call) :
    (ledger.foldl Books.conclude books).metrics.countersAt fingerprint =
      (ledger.filter (·.isCountedUnder fingerprint)).foldl
        (fun counters entry ↦ entry.count counters) (books.metrics.countersAt fingerprint) := by
  induction ledger generalizing books with
  | nil => rfl
  | cons entry rest ih =>
    rw [List.foldl_cons, ih fun other hother ↦ h other (List.mem_cons_of_mem _ hother),
      metrics_conclude (h entry List.mem_cons_self), Metrics.countersAt_counting, List.filter_cons,
      Conclusion.isCountedUnder]
    split <;> rfl

theorem Timer.Follows.isCountedUnder (h : conclusion.timer.Follows true conclusion.call) :
    conclusion.isCountedUnder fingerprint =
      decide (conclusion.call.label.fingerprint = fingerprint) := by
  rw [Conclusion.isCountedUnder, h.label, if_pos rfl, Option.any_some]

theorem isSome_counters?_ledger {label : Label}
    (h : ∀ entry ∈ ledger, entry.timer.Awaits entry.call)
    (hsome : (books.metrics.counters? label).isSome) :
    ((ledger.foldl Books.conclude books).metrics.counters? label).isSome := by
  induction ledger generalizing books with
  | nil => exact hsome
  | cons entry rest ih =>
    refine ih (fun other hother ↦ h other (List.mem_cons_of_mem _ hother)) ?_
    rw [metrics_conclude (h entry List.mem_cons_self)]
    exact Metrics.isSome_counters?_counting hsome

/-! ## What the books tell -/

/-- The calls of a ledger that ended in success, or those that did not. -/
def ended (ledger : List Conclusion) (success : Bool) : List RoutedCall :=
  (ledger.filter (·.success = success)).map (·.call)

/-- How many batch items calls have. -/
def items (calls : List RoutedCall) : Nat :=
  (calls.map (·.batch.toNat)).sum

/-- The statistics that a status has for a batch size. -/
def statisticsOf (status : VersionStatus) (batch : UInt32) : BatchStatistics :=
  (status.statistics.get? batch).getD .zero

/-- What a status tells of the calls of its version that succeeded and failed. -/
structure Tells (succeeded failed : List RoutedCall) (status : VersionStatus) : Prop where
  successes : ∀ batch, (statisticsOf status batch).success.count =
    UInt64.ofNat (succeeded.countP (·.batch = batch))
  failures : ∀ batch, (statisticsOf status batch).failed.count =
    UInt64.ofNat (failed.countP (·.batch = batch))
  timed : ∀ batch,
    (statisticsOf status batch).compute.count = (statisticsOf status batch).success.count ∧
      (statisticsOf status batch).queue.count = (statisticsOf status batch).success.count
  executions : status.executions = UInt64.ofNat succeeded.length
  inferences : status.inferences = UInt64.ofNat (items succeeded)
  listed : ∀ call, call ∈ succeeded ∨ call ∈ failed → call.batch ∈ status.statistics.keys

/-- What counters show of the calls that are counted in them. -/
structure Shows (succeeded failed : List RoutedCall) (counters : Counters) : Prop where
  success : counters.success = UInt64.ofNat succeeded.length
  failure : counters.failure = UInt64.ofNat failed.length
  executions : counters.executions = UInt64.ofNat succeeded.length
  inferences : counters.inferences = UInt64.ofNat (items succeeded)

theorem ended_append_singleton {success : Bool} :
    ended (ledger ++ [conclusion]) success =
      ended ledger success ++ if conclusion.success = success then [conclusion.call] else [] := by
  rw [ended, List.filter_append, List.map_append, ended]
  congr 1
  split
  · rename_i h
    simp [h]
  · rename_i h
    simp [h]

theorem items_perm {calls other : List RoutedCall} (h : calls.Perm other) :
    items calls = items other :=
  (h.map _).sum_nat

theorem items_append_singleton (calls : List RoutedCall) (call : RoutedCall) :
    items (calls ++ [call]) = items calls + call.batch.toNat := by
  rw [items, List.map_append, List.sum_append, items]
  simp

theorem countP_append_singleton (calls : List RoutedCall) (call : RoutedCall) (batch : UInt32) :
    (calls ++ [call]).countP (·.batch = batch) =
      calls.countP (·.batch = batch) + if call.batch = batch then 1 else 0 := by
  rw [List.countP_append, List.countP_singleton]
  simp

theorem statisticsOf_post (batch : UInt32) :
    statisticsOf (conclusion.post status) batch =
      if conclusion.call.batch = batch then
        if conclusion.success then
          let timing := conclusion.timer.timing conclusion.time
          { statisticsOf status batch with
            success := (statisticsOf status batch).success.record timing.request
            compute := (statisticsOf status batch).compute.record timing.compute
            queue := (statisticsOf status batch).queue.record timing.queue }
        else
          { statisticsOf status batch with
            failed := (statisticsOf status batch).failed.record
              (conclusion.time - conclusion.timer.start) }
      else statisticsOf status batch := by
  unfold statisticsOf Conclusion.post
  by_cases hbatch : conclusion.call.batch = batch
  · subst hbatch
    rw [if_pos rfl]
    split <;> simp [OrderedMap.get?_upsert]
  · rw [if_neg hbatch]
    split <;> simp [OrderedMap.get?_upsert, Ne.symm hbatch]

theorem mem_keys_post {batch : UInt32} : batch ∈ (conclusion.post status).statistics.keys ↔
    batch = conclusion.call.batch ∨ batch ∈ status.statistics.keys := by
  unfold Conclusion.post
  dsimp only
  split
  · rw [OrderedMap.mem_keys_iff, OrderedMap.get?_upsert, OrderedMap.mem_keys_iff]
    split <;> simp_all
  · rw [OrderedMap.mem_keys_iff, OrderedMap.get?_upsert, OrderedMap.mem_keys_iff]
    split <;> simp_all

namespace Tells

variable {succeeded failed : List RoutedCall}

theorem nil (hstatistics : status.statistics = .empty) (hexecutions : status.executions = 0)
    (hinferences : status.inferences = 0) : Tells [] [] status := by
  have hzero : ∀ batch, statisticsOf status batch = .zero := by
    intro batch
    rw [statisticsOf, hstatistics]
    rfl
  refine ⟨fun batch ↦ ?_, fun batch ↦ ?_, fun batch ↦ ?_, hexecutions, hinferences, by simp⟩
  · rw [hzero]
    rfl
  · rw [hzero]
    rfl
  · rw [hzero]
    exact ⟨rfl, rfl⟩

theorem perm (h : Tells succeeded failed status) {succeeded' failed' : List RoutedCall}
    (hsucceeded : succeeded.Perm succeeded') (hfailed : failed.Perm failed') :
    Tells succeeded' failed' status where
  successes batch := by rw [h.successes, hsucceeded.countP_eq]
  failures batch := by rw [h.failures, hfailed.countP_eq]
  timed := h.timed
  executions := by rw [h.executions, hsucceeded.length_eq]
  inferences := by rw [h.inferences, items_perm hsucceeded]
  listed call hcall :=
    h.listed call (hcall.imp hsucceeded.mem_iff.2 hfailed.mem_iff.2)

theorem succeed (h : Tells succeeded failed status) (hsuccess : conclusion.success = true) :
    Tells (succeeded ++ [conclusion.call]) failed (conclusion.post status) where
  successes batch := by
    rw [statisticsOf_post, countP_append_singleton]
    split
    · rw [UInt64.ofNat_add, ← h.successes]
      rfl
    · exact h.successes batch
  failures batch := by
    rw [statisticsOf_post]
    split
    · exact h.failures batch
    · exact h.failures batch
  timed batch := by
    obtain ⟨hcompute, hqueue⟩ := h.timed batch
    rw [statisticsOf_post]
    split
    · dsimp only [Tally.record]
      rw [hcompute, hqueue]
      exact ⟨rfl, rfl⟩
    · exact ⟨hcompute, hqueue⟩
  executions := by
    rw [List.length_append, UInt64.ofNat_add, ← h.executions, Conclusion.post, hsuccess]
    rfl
  inferences := by
    rw [items_append_singleton, UInt64.ofNat_add, ← h.inferences, Conclusion.post, hsuccess,
      UInt64.ofNat_uInt32ToNat]
    rfl
  listed call hcall := by
    rw [mem_keys_post]
    rw [List.mem_append, List.mem_singleton, or_right_comm] at hcall
    rcases hcall with hcall | rfl
    · exact .inr (h.listed call hcall)
    · exact .inl rfl

theorem fail (h : Tells succeeded failed status) (hsuccess : conclusion.success = false) :
    Tells succeeded (failed ++ [conclusion.call]) (conclusion.post status) where
  successes batch := by
    rw [statisticsOf_post, hsuccess]
    split
    · exact h.successes batch
    · exact h.successes batch
  failures batch := by
    rw [statisticsOf_post, hsuccess, countP_append_singleton]
    split
    · rw [UInt64.ofNat_add, ← h.failures]
      rfl
    · exact h.failures batch
  timed batch := by
    rw [statisticsOf_post, hsuccess]
    split
    · exact h.timed batch
    · exact h.timed batch
  executions := by
    rw [Conclusion.post, hsuccess]
    exact h.executions
  inferences := by
    rw [Conclusion.post, hsuccess]
    exact h.inferences
  listed call hcall := by
    rw [mem_keys_post]
    rw [List.mem_append, List.mem_singleton, ← or_assoc] at hcall
    rcases hcall with hcall | rfl
    · exact .inr (h.listed call hcall)
    · exact .inl rfl

/-- A status that began without statistics tells all conclusions that were posted to it. -/
theorem foldl (h : Tells [] [] status) (entries : List Conclusion) :
    Tells (ended entries true) (ended entries false)
      (entries.foldl (fun status entry ↦ entry.post status) status) := by
  induction entries using List.reverseRecOn with
  | nil => exact h
  | append_singleton entries entry ih =>
    rw [List.foldl_append, ended_append_singleton, ended_append_singleton]
    cases hsuccess : entry.success with
    | true => simpa using ih.succeed hsuccess
    | false => simpa using ih.fail hsuccess

end Tells

theorem Shows.perm {succeeded failed succeeded' failed' : List RoutedCall} {counters : Counters}
    (h : Shows succeeded failed counters) (hsucceeded : succeeded.Perm succeeded')
    (hfailed : failed.Perm failed') : Shows succeeded' failed' counters where
  success := by rw [h.success, hsucceeded.length_eq]
  failure := by rw [h.failure, hfailed.length_eq]
  executions := by rw [h.executions, hsucceeded.length_eq]
  inferences := by rw [h.inferences, items_perm hsucceeded]

/-- Counters that began at zero show all conclusions that were counted in them. -/
theorem shows_foldl (entries : List Conclusion) :
    Shows (ended entries true) (ended entries false)
      (entries.foldl (fun counters entry ↦ entry.count counters) {}) := by
  induction entries using List.reverseRecOn with
  | nil => exact ⟨rfl, rfl, rfl, rfl⟩
  | append_singleton entries entry ih =>
    rw [List.foldl_append, List.foldl_cons, List.foldl_nil, ended_append_singleton,
      ended_append_singleton]
    generalize entries.foldl (fun counters entry ↦ entry.count counters) {} = counters at ih
    obtain ⟨hsuccess, hfailure, hexecutions, hinferences⟩ := ih
    have hone : UInt64.ofNat 1 = 1 := rfl
    unfold Conclusion.count
    cases hentry : entry.success with
    | true =>
      refine ⟨?_, ?_, ?_, ?_⟩
      · simp [hsuccess, UInt64.ofNat_add, hone]
      · simp [hfailure]
      · simp [hexecutions, UInt64.ofNat_add, hone]
      · simp [items_append_singleton, hinferences, UInt64.ofNat_add]
    | false =>
      refine ⟨?_, ?_, ?_, ?_⟩
      · simp [hsuccess]
      · simp [hfailure, UInt64.ofNat_add, hone]
      · simp [hexecutions]
      · simp [hinferences]

/-! ## Sums over batch sizes -/

/-- No counter of a version that tells of these calls overflows. -/
structure Fits (succeeded failed : List RoutedCall) : Prop where
  successes : succeeded.length < UInt64.size
  items : items succeeded < UInt64.size
  failures : ∀ batch, failed.countP (·.batch = batch) < UInt64.size

/-- The sum of a count over all batch sizes. -/
def total (status : VersionStatus) (count : BatchStatistics → UInt64) : Nat :=
  (status.statistics.entries.map fun entry ↦ (count entry.2).toNat).sum

/-- The batch items by the successes of each batch size. -/
def totalItems (status : VersionStatus) : Nat :=
  (status.statistics.entries.map fun entry ↦
    entry.1.toNat * entry.2.success.count.toNat).sum

theorem map_entries_eq {α : Type} (f : UInt32 → BatchStatistics → α) :
    status.statistics.entries.map (fun entry ↦ f entry.1 entry.2) =
      status.statistics.keys.map fun batch ↦ f batch (statisticsOf status batch) := by
  rw [OrderedMap.keys, List.map_map]
  refine List.map_congr_left fun entry hentry ↦ ?_
  rw [Function.comp_apply, statisticsOf, OrderedMap.get?_of_mem hentry, Option.getD_some]

/-- Calls are those of each batch size put one after the other, in some order. -/
theorem perm_by_batch {batches : List UInt32} (hnodup : batches.Nodup) {calls : List RoutedCall}
    (hlisted : ∀ call ∈ calls, call.batch ∈ batches) :
    (batches.flatMap fun batch ↦ calls.filter (·.batch = batch)).Perm calls := by
  induction batches generalizing calls with
  | nil =>
    rw [List.eq_nil_iff_forall_not_mem.2 fun call hcall ↦ List.not_mem_nil (hlisted call hcall)]
    exact .refl _
  | cons batch rest ih =>
    obtain ⟨hbatch, hrest⟩ := List.nodup_cons.1 hnodup
    have hothers : (rest.flatMap fun other ↦ calls.filter (·.batch = other)) =
        rest.flatMap fun other ↦
          (calls.filter fun call ↦ !decide (call.batch = batch)).filter (·.batch = other) := by
      rw [List.flatMap_def, List.flatMap_def]
      refine congrArg List.flatten (List.map_congr_left fun other hother ↦ ?_)
      rw [List.filter_filter]
      refine List.filter_congr fun call _ ↦ ?_
      by_cases hsame : call.batch = other
      · have hne : other ≠ batch := fun h ↦ hbatch (h ▸ hother)
        simp [hsame, hne]
      · simp [hsame]
    rw [List.flatMap_cons, hothers]
    refine (List.Perm.append_left _ (ih hrest fun call hcall ↦ ?_)).trans
      (List.filter_append_perm _ _)
    obtain ⟨hcall, hne⟩ := List.mem_filter.1 hcall
    exact (List.mem_cons.1 (hlisted call hcall)).resolve_left (by simpa using hne)

theorem items_flatMap (batches : List UInt32) (f : UInt32 → List RoutedCall) :
    items (batches.flatMap f) = (batches.map fun batch ↦ items (f batch)).sum := by
  induction batches with
  | nil => rfl
  | cons batch rest ih =>
    rw [List.flatMap_cons, List.map_cons, List.sum_cons, ← ih, items, List.map_append,
      List.sum_append]
    rfl

theorem items_filter (calls : List RoutedCall) (batch : UInt32) :
    items (calls.filter (·.batch = batch)) =
      batch.toNat * calls.countP (·.batch = batch) := by
  have hsame : ((calls.filter (·.batch = batch)).map (·.batch.toNat)) =
      List.replicate (calls.countP (·.batch = batch)) batch.toNat := by
    rw [List.eq_replicate_iff, List.length_map, List.countP_eq_length_filter]
    refine ⟨rfl, fun n hn ↦ ?_⟩
    obtain ⟨call, hcall, rfl⟩ := List.mem_map.1 hn
    rw [of_decide_eq_true (List.mem_filter.1 hcall).2]
  rw [items, hsame, List.sum_replicate_nat, Nat.mul_comm]

namespace Tells

variable {succeeded failed : List RoutedCall}

theorem toNat_successes (h : Tells succeeded failed status) (hfits : Fits succeeded failed)
    (batch : UInt32) : (statisticsOf status batch).success.count.toNat =
      succeeded.countP (·.batch = batch) := by
  rw [h.successes, UInt64.toNat_ofNat_of_lt']
  exact Nat.lt_of_le_of_lt List.countP_le_length hfits.successes

theorem toNat_failures (h : Tells succeeded failed status) (hfits : Fits succeeded failed)
    (batch : UInt32) : (statisticsOf status batch).failed.count.toNat =
      failed.countP (·.batch = batch) := by
  rw [h.failures, UInt64.toNat_ofNat_of_lt' (hfits.failures batch)]

theorem total_successes (h : Tells succeeded failed status) (hfits : Fits succeeded failed) :
    total status (·.success.count) = succeeded.length := by
  rw [total, map_entries_eq fun _ statistics ↦ statistics.success.count.toNat,
    ← (perm_by_batch status.statistics.keys_nodup fun call hcall ↦
      h.listed call (.inl hcall)).length_eq, List.length_flatMap]
  refine congrArg List.sum (List.map_congr_left fun batch _ ↦ ?_)
  rw [h.toNat_successes hfits, List.countP_eq_length_filter]

theorem total_failures (h : Tells succeeded failed status) (hfits : Fits succeeded failed) :
    total status (·.failed.count) = failed.length := by
  rw [total, map_entries_eq fun _ statistics ↦ statistics.failed.count.toNat,
    ← (perm_by_batch status.statistics.keys_nodup fun call hcall ↦
      h.listed call (.inr hcall)).length_eq, List.length_flatMap]
  refine congrArg List.sum (List.map_congr_left fun batch _ ↦ ?_)
  rw [h.toNat_failures hfits, List.countP_eq_length_filter]

theorem totalItems_eq (h : Tells succeeded failed status) (hfits : Fits succeeded failed) :
    totalItems status = items succeeded := by
  rw [totalItems, map_entries_eq fun batch statistics ↦
      batch.toNat * statistics.success.count.toNat,
    ← items_perm (perm_by_batch status.statistics.keys_nodup fun call hcall ↦
      h.listed call (.inl hcall)), items_flatMap]
  refine congrArg List.sum (List.map_congr_left fun batch _ ↦ ?_)
  rw [h.toNat_successes hfits, items_filter]

end Tells

end TensorInference.Server
