import Werrss.Persistence.AssetCap

/-!
# Persistence/BlobDeletion — maintenance of an external blob backend, and its two drains

    pass     evictions ─▸ queue ─▸ orphans' objects ─▸ their rows ─▸ commit
    drain    objects of the deletion queue ─▸ its rows ─▸ commit
    drain    objects of the cleanup queue ─▸ its rows ─▸ commit

Each line is one transaction, and the first object that cannot be deleted ends the whole run: its
transaction is rolled back and the lines below it do not start.  An object that is gone stays gone.
**So one undeletable object keeps the intents of all others** of its transaction, and an undeletable
orphan also takes back every eviction of the pass.
-/

open Machinery

namespace Werrss

/-! ## The backend -/

/-- An external backend: the byte size of each object it holds, and what `delete` answers for the
keys it cannot delete. -/
structure BlobBackend where
  stored : Uuid → Option ℕ
  failure : Uuid → Option AssetBlobStoreError

namespace BlobBackend

/-- An object is gone. -/
def remove (b : BlobBackend) (blobId : Uuid) : BlobBackend :=
  { b with stored := fun other => if other = blobId then none else b.stored other }

/-- Objects are deleted in this order, up to the first failure. -/
def removeEach (b : BlobBackend) : List Uuid → BlobBackend × Except AssetRepositoryError Unit
  | [] => (b, .ok ())
  | blobId :: blobIds =>
    match b.failure blobId with
    | some e => (b, .error (.blobStore e))
    | none => (b.remove blobId).removeEach blobIds

/-- All of these keys can be deleted. -/
def Deletable (b : BlobBackend) (blobIds : List Uuid) : Prop :=
  ∀ blobId ∈ blobIds, b.failure blobId = none

/-- None of these keys can be deleted. -/
def Undeletable (b : BlobBackend) (blobIds : List Uuid) : Prop :=
  ∀ blobId ∈ blobIds, b.failure blobId ≠ none

instance (b : BlobBackend) (blobIds : List Uuid) : Decidable (b.Deletable blobIds) :=
  inferInstanceAs (Decidable (∀ blobId ∈ blobIds, b.failure blobId = none))

/-- All of these objects are gone. -/
def removeAll (b : BlobBackend) (blobIds : List Uuid) : BlobBackend := blobIds.foldl remove b

@[simp] theorem failure_remove (b : BlobBackend) (blobId : Uuid) :
    (b.remove blobId).failure = b.failure := rfl

@[simp] theorem failure_removeAll (b : BlobBackend) (blobIds : List Uuid) :
    (b.removeAll blobIds).failure = b.failure := by
  induction blobIds generalizing b with
  | nil => rfl
  | cons blobId blobIds ih => exact ih (b.remove blobId)

theorem stored_removeAll (b : BlobBackend) (blobIds : List Uuid) (blobId : Uuid) :
    (b.removeAll blobIds).stored blobId = if blobId ∈ blobIds then none else b.stored blobId := by
  induction blobIds generalizing b with
  | nil => rfl
  | cons first blobIds ih =>
    show ((b.remove first).removeAll blobIds).stored blobId = _
    rw [ih, remove]
    by_cases hfirst : blobId = first
    · simp [hfirst]
    · simp [hfirst]

/-- **Without a failure** all objects go. -/
theorem removeEach_of_deletable {b : BlobBackend} {blobIds : List Uuid}
    (h : b.Deletable blobIds) : b.removeEach blobIds = (b.removeAll blobIds, .ok ()) := by
  induction blobIds generalizing b with
  | nil => rfl
  | cons blobId blobIds ih =>
    rw [removeEach, h blobId (List.mem_cons_self ..)]
    exact ih fun other hother => h other (List.mem_cons_of_mem _ hother)

/-- What a loop that failed may have done to the backend. -/
structure Partly (b b' : BlobBackend) (blobIds : List Uuid) : Prop where
  failure : b'.failure = b.failure
  stored : ∀ blobId, b'.stored blobId = b.stored blobId ∨
    (b'.stored blobId = none ∧ blobId ∈ blobIds ∧ b.failure blobId = none)

/-- **With a failure** the loop fails, having deleted some of the others. -/
theorem removeEach_of_failure {b : BlobBackend} {blobIds : List Uuid} (h : ¬b.Deletable blobIds) :
    ∃ b' e, b.removeEach blobIds = (b', .error e) ∧ Partly b b' blobIds := by
  induction blobIds generalizing b with
  | nil => exact absurd (fun _ hmem => absurd hmem List.not_mem_nil) h
  | cons blobId blobIds ih =>
    rw [removeEach]
    rcases hfailure : b.failure blobId with _ | e
    · have hrest : ¬(b.remove blobId).Deletable blobIds := fun hrest =>
        h fun other hother => (List.mem_cons.mp hother).elim (· ▸ hfailure) (hrest other)
      obtain ⟨b', e, hrun, hpartly⟩ := ih hrest
      refine ⟨b', e, hrun, hpartly.failure, fun other => ?_⟩
      rcases hpartly.stored other with hsame | ⟨hnone, hmem, hdeletable⟩
      · rw [hsame, remove]
        by_cases hother : other = blobId
        · exact .inr ⟨if_pos hother, hother ▸ List.mem_cons_self .., hother ▸ hfailure⟩
        · exact .inl (if_neg hother)
      · exact .inr ⟨hnone, List.mem_cons_of_mem _ hmem, hdeletable⟩
    · exact ⟨b, _, rfl, rfl, fun _ => .inl rfl⟩

end BlobBackend

/-! ## Maintenance -/

/-- What maintenance works on; both queues are in the order of `created_at, blob_id`. -/
structure BlobWorld where
  tables : AssetTables
  cleanupQueue : List Uuid
  backend : BlobBackend

/-- The age and size evictions of a pass, with the tables in which their assets are missing and
their deletions queued. -/
structure EvictionDecisions where
  tables : AssetTables
  staleBlobs : ℕ
  sizeEvictedBlobs : ℕ
  evicted : List Uuid

open AssetRepository (CacheLimit AssetMaintenanceResult)

namespace BlobWorld

/-- `ORDER BY last_accessed_at ASC, id ASC`. -/
def inOrder (rows : List AssetBlobRow) : List AssetBlobRow :=
  rows.insertionSort fun a b => a.older b = true

/-- `evict_stale_blobs`. -/
def evictStaleBlobs (w : BlobWorld) (seconds : ℕ) (clock : DateTime) : List Uuid :=
  let rows := inOrder <|
    w.tables.blobs.filter fun row => row.lastAccessedAt < clock - seconds * 1000000000
  (rows.filter fun row => (w.backend.stored row.id).isSome).map (·.id)

/-- `cached_byte_size`. -/
def cachedByteSize (w : BlobWorld) (excludedBlobIds : List Uuid) : Except AssetRepositoryError ℕ :=
  (w.tables.blobs.filter (·.id ∉ excludedBlobIds)).foldlM
    (fun total row =>
      match w.backend.stored row.id with
      | none => .ok total
      | some byteSize =>
        if i64Max < byteSize then .error (.storage "asset byte count exceeds PostgreSQL range")
        else if i64Max < total + byteSize then .error (.storage "asset byte count overflow")
        else .ok (total + byteSize)) 0

/-- `oldest_stored`. -/
def oldestStored (w : BlobWorld) (protectedBlobIds : List Uuid) :
    Except AssetRepositoryError (Option (Uuid × ℕ)) :=
  match (inOrder (w.tables.blobs.filter (·.id ∉ protectedBlobIds))).findSome? fun row =>
      (w.backend.stored row.id).map fun byteSize => (row.id, byteSize) with
  | none => .ok none
  | some (blobId, byteSize) =>
    if i64Max < byteSize then .error (.storage "asset byte count exceeds PostgreSQL range")
    else .ok (some (blobId, byteSize))

/-- The loop of `enforce_cache_limit`.  The fuel is the number of rows: a row is evicted at most
once. -/
def evictLoop (limit : CacheLimit) : ℕ → BlobWorld → ℤ → List Uuid → ℕ →
    Except AssetRepositoryError (BlobWorld × ℕ × List Uuid)
  | 0, w, total, deferred, evicted =>
    if total + limit.additionalBytes ≤ limit.maxBytes then .ok (w, evicted, deferred)
    else .error (.capacityExceeded limit.additionalBytes limit.maxBytes)
  | fuel + 1, w, total, deferred, evicted =>
    if total + limit.additionalBytes ≤ limit.maxBytes then .ok (w, evicted, deferred)
    else do
      match ← w.oldestStored (limit.protectedBlobIds ++ deferred) with
      | none => .error (.capacityExceeded limit.additionalBytes limit.maxBytes)
      | some (blobId, byteSize) =>
        evictLoop limit fuel
          { w with tables := w.tables.markMissing [blobId] "asset bytes evicted by size policy" }
          (saturatingSub total byteSize) (deferred ++ [blobId]) (evicted + 1)

/-- `enforce_cache_limit`. -/
def enforceCacheLimit (w : BlobWorld) (limit : CacheLimit) :
    Except AssetRepositoryError (BlobWorld × ℕ × List Uuid) :=
  if limit.maxBytes = 0 ∨ i64Max < limit.maxBytes then .ok (w, 0, limit.deferredEvictions)
  else if i64Max < limit.additionalBytes ∨ limit.maxBytes < limit.additionalBytes
      ∨ i64Max < limit.pendingBytes then
    .error (.capacityExceeded limit.additionalBytes limit.maxBytes)
  else do
    let cached ← w.cachedByteSize (limit.pendingBlobIds ++ limit.deferredEvictions)
    if i64Max < cached + limit.pendingBytes then
      .error (.capacityExceeded limit.additionalBytes limit.maxBytes)
    else
      evictLoop limit w.tables.blobs.length w (cached + limit.pendingBytes : ℕ)
        limit.deferredEvictions 0

/-- `maintenance`, up to the queued evictions. -/
def decisions (policy : AssetCachePolicy) (clock : DateTime) (w : BlobWorld) :
    Except AssetRepositoryError EvictionDecisions :=
  if i64Max < policy.maxAge / 1000000000 then
    .error (.storage "asset max age exceeds PostgreSQL range")
  else do
    let stale := if policy.maxAge = 0 then []
      else w.evictStaleBlobs (policy.maxAge / 1000000000) clock
    let marked := { w with
      tables := w.tables.markMissing stale "asset bytes evicted by age policy" }
    let (limited, sizeEvicted, evicted) ←
      marked.enforceCacheLimit ⟨policy.maxCacheSizeBytes, 0, [], 0, [], stale⟩
    return ⟨limited.tables.enqueueDeletions evicted, stale.length, sizeEvicted, evicted⟩

/-- `DELETE FROM asset_records` of the records no article shows and no active job repairs. -/
def withoutOrphanRecords (hasActiveRepair : Uuid → Bool) (tables : AssetTables) : AssetTables :=
  { tables with
    records := tables.records.filter fun record =>
      !AssetRepository.isOrphanRecord tables hasActiveRepair record }

/-- The orphans a pass finds. -/
def orphans (hasActiveRepair : Uuid → Bool) (d : EvictionDecisions) : List Uuid :=
  AssetRepository.orphanBlobIds (withoutOrphanRecords hasActiveRepair d.tables)

/-- The transaction of `maintenance`. -/
def pass (policy : AssetCachePolicy) (clock : DateTime) (hasActiveRepair : Uuid → Bool)
    (w : BlobWorld) : BlobWorld × Except AssetRepositoryError AssetMaintenanceResult :=
  match w.decisions policy clock with
  | .error e => (w, .error e)
  | .ok d =>
    let kept := withoutOrphanRecords hasActiveRepair d.tables
    let orphanBlobIds := orphans hasActiveRepair d
    match w.backend.removeEach orphanBlobIds with
    | (backend, .error e) => ({ w with backend }, .error e)
    | (backend, .ok ()) =>
      ({ w with tables := kept.deleteBlobs orphanBlobIds, backend },
        .ok ⟨d.staleBlobs, d.sizeEvictedBlobs, d.tables.records.length - kept.records.length,
          orphanBlobIds.length⟩)

/-- `drain_blob_deletion_queue`. -/
def drainBlobDeletionQueue (w : BlobWorld) : BlobWorld × Except AssetRepositoryError Unit :=
  match w.backend.removeEach w.tables.deletionQueue with
  | (backend, .error e) => ({ w with backend }, .error e)
  | (backend, .ok ()) =>
    ({ w with tables := { w.tables with deletionQueue := [] }, backend }, .ok ())

/-- `drain_blob_cleanup_queue`. -/
def drainBlobCleanupQueue (w : BlobWorld) : BlobWorld × Except AssetRepositoryError Unit :=
  match w.backend.removeEach w.cleanupQueue with
  | (backend, .error e) => ({ w with backend }, .error e)
  | (backend, .ok ()) => ({ w with cleanupQueue := [], backend }, .ok ())

/-- `maintenance`: the pass, and its drains. -/
def maintenance (policy : AssetCachePolicy) (clock : DateTime) (hasActiveRepair : Uuid → Bool)
    (w : BlobWorld) : BlobWorld × Except AssetRepositoryError AssetMaintenanceResult :=
  match w.pass policy clock hasActiveRepair with
  | (w, .error e) => (w, .error e)
  | (w, .ok result) =>
    match w.drainBlobDeletionQueue with
    | (w, .error e) => (w, .error e)
    | (w, .ok ()) =>
      match w.drainBlobCleanupQueue with
      | (w, .error e) => (w, .error e)
      | (w, .ok ()) => (w, .ok result)

/-! ## What a pass decides -/

/-- No record shows this blob as available. -/
def Missing (tables : AssetTables) (blobId : Uuid) : Prop :=
  ∀ record ∈ tables.records, record.blobId = some blobId → record.fetchStatus ≠ .available

/-- Evictions decided on the way from `w₀` to `w`: of objects the backend holds, and their assets
are missing. -/
structure Decided (w₀ w : BlobWorld) (evicted : List Uuid) : Prop where
  blobs : w.tables.blobs = w₀.tables.blobs
  queue : w.tables.deletionQueue = w₀.tables.deletionQueue
  backend : w.backend = w₀.backend
  present : ∀ blobId ∈ evicted, (w₀.backend.stored blobId).isSome
  missing : ∀ blobId ∈ evicted, Missing w.tables blobId

theorem Decided.start (w : BlobWorld) : Decided w w [] :=
  ⟨rfl, rfl, rfl, fun _ h => absurd h List.not_mem_nil, fun _ h => absurd h List.not_mem_nil⟩

theorem missing_of_markMissing {tables : AssetTables} {blobIds : List Uuid} {lastError : String}
    {blobId : Uuid} (h : blobId ∈ blobIds ∨ Missing tables blobId) :
    Missing (tables.markMissing blobIds lastError) blobId := by
  intro record hmem hblob
  obtain ⟨old, hold, rfl⟩ := List.mem_map.mp hmem
  by_cases hmarked : old.blobId.any (· ∈ blobIds) ∧ old.fetchStatus = .available
  · rw [if_pos hmarked]
    exact nofun
  · rw [if_neg hmarked] at hblob ⊢
    rcases h with hid | hmissing
    · exact fun havailable => hmarked ⟨by simp [hblob, hid], havailable⟩
    · exact hmissing old hold hblob

/-- **Evicting more objects.** -/
theorem Decided.evict {w₀ w : BlobWorld} {evicted : List Uuid} (h : Decided w₀ w evicted)
    (blobIds : List Uuid) (lastError : String)
    (hpresent : ∀ blobId ∈ blobIds, (w₀.backend.stored blobId).isSome) :
    Decided w₀ { w with tables := w.tables.markMissing blobIds lastError }
      (evicted ++ blobIds) where
  blobs := h.blobs
  queue := h.queue
  backend := h.backend
  present blobId hmem := (List.mem_append.mp hmem).elim (h.present blobId) (hpresent blobId)
  missing blobId hmem :=
    missing_of_markMissing ((List.mem_append.mp hmem).symm.imp id (h.missing blobId))

theorem oldestStored_present {w : BlobWorld} {protectedBlobIds : List Uuid} {blobId : Uuid}
    {byteSize : ℕ} (h : w.oldestStored protectedBlobIds = .ok (some (blobId, byteSize))) :
    (w.backend.stored blobId).isSome := by
  rw [oldestStored] at h
  split at h
  · exact nomatch h
  · rename_i found hfound
    split at h
    · exact nomatch h
    · obtain ⟨rfl, rfl⟩ := Prod.mk.inj (Option.some.inj (Except.ok.inj h))
      obtain ⟨row, -, hrow⟩ := List.exists_of_findSome?_eq_some hfound
      obtain ⟨size, hsize, heq⟩ := Option.map_eq_some_iff.mp hrow
      rw [← (Prod.mk.inj heq).1, hsize]
      rfl

/-- **The loop only adds evictions.** -/
theorem Decided.evictLoop {w₀ : BlobWorld} {limit : CacheLimit} (fuel : ℕ) (w : BlobWorld)
    (total : ℤ) (deferred : List Uuid) (count : ℕ) {w' : BlobWorld} {count' : ℕ}
    {evicted : List Uuid} (h : Decided w₀ w deferred)
    (hrun : BlobWorld.evictLoop limit fuel w total deferred count = .ok (w', count', evicted)) :
    Decided w₀ w' evicted := by
  induction fuel generalizing w total deferred count with
  | zero =>
    rw [BlobWorld.evictLoop] at hrun
    split at hrun
    · obtain ⟨rfl, -, rfl⟩ : w = w' ∧ count = count' ∧ deferred = evicted := by simpa using hrun
      exact h
    · exact nomatch hrun
  | succ fuel ih =>
    rw [BlobWorld.evictLoop] at hrun
    split at hrun
    · obtain ⟨rfl, -, rfl⟩ : w = w' ∧ count = count' ∧ deferred = evicted := by simpa using hrun
      exact h
    · obtain ⟨oldest, holdest, hrun⟩ := bind_eq_ok hrun
      rcases oldest with _ | ⟨blobId, byteSize⟩
      · exact nomatch hrun
      · have hpresent := oldestStored_present holdest
        rw [h.backend] at hpresent
        refine ih _ _ _ _ (h.evict [blobId] "asset bytes evicted by size policy" ?_) hrun
        exact fun other hother => (List.mem_singleton.mp hother) ▸ hpresent

theorem Decided.enforceCacheLimit {w₀ w w' : BlobWorld} {limit : CacheLimit} {count : ℕ}
    {evicted : List Uuid} (h : Decided w₀ w limit.deferredEvictions)
    (hrun : w.enforceCacheLimit limit = .ok (w', count, evicted)) : Decided w₀ w' evicted := by
  rw [BlobWorld.enforceCacheLimit] at hrun
  split at hrun
  · obtain ⟨rfl, -, rfl⟩ : w = w' ∧ 0 = count ∧ limit.deferredEvictions = evicted := by
      simpa using hrun
    exact h
  · split at hrun
    · exact nomatch hrun
    · obtain ⟨cached, -, hrun⟩ := bind_eq_ok hrun
      split at hrun
      · exact nomatch hrun
      · exact h.evictLoop _ _ _ _ _ hrun

theorem evictStaleBlobs_present {w : BlobWorld} {seconds : ℕ} {clock : DateTime} {blobId : Uuid}
    (h : blobId ∈ w.evictStaleBlobs seconds clock) : (w.backend.stored blobId).isSome := by
  obtain ⟨row, hrow, rfl⟩ := List.mem_map.mp h
  exact (List.mem_filter.mp hrow).2

/-- **The decisions of a pass**, on the tables as they were. -/
structure Decides (w : BlobWorld) (d : EvictionDecisions) : Prop where
  blobs : d.tables.blobs = w.tables.blobs
  queue : ∀ blobId, blobId ∈ d.tables.deletionQueue ↔
    blobId ∈ w.tables.deletionQueue ∨ blobId ∈ d.evicted
  present : ∀ blobId ∈ d.evicted, (w.backend.stored blobId).isSome
  missing : ∀ blobId ∈ d.evicted, Missing d.tables blobId

theorem decides_of_decisions {policy : AssetCachePolicy} {clock : DateTime} {w : BlobWorld}
    {d : EvictionDecisions} (h : w.decisions policy clock = .ok d) : Decides w d := by
  rw [decisions] at h
  split at h
  · exact nomatch h
  · obtain ⟨⟨limited, count, evicted⟩, hlimit, hd⟩ := bind_eq_ok h
    obtain rfl := Except.ok.inj hd
    have hstart := (Decided.start w).evict
      (if policy.maxAge = 0 then [] else w.evictStaleBlobs (policy.maxAge / 1000000000) clock)
      "asset bytes evicted by age policy" fun blobId hmem => by
        split at hmem
        · exact absurd hmem List.not_mem_nil
        · exact evictStaleBlobs_present hmem
    have hdecided := hstart.enforceCacheLimit hlimit
    refine ⟨hdecided.blobs, fun blobId => ?_, hdecided.present, hdecided.missing⟩
    rw [AssetRepository.mem_enqueueDeletions, hdecided.queue]

/-! ## Progress past failures -/

/-- What a pass and its drains have to delete. -/
def Wanted (hasActiveRepair : Uuid → Bool) (w : BlobWorld) (d : EvictionDecisions)
    (blobId : Uuid) : Prop :=
  blobId ∈ w.tables.deletionQueue ∨ blobId ∈ d.evicted ∨ blobId ∈ w.cleanupQueue ∨
    blobId ∈ orphans hasActiveRepair d

/-- **Progress past failures**, from `w` to `w'`: exactly the failing keys stay queued or stay as
orphan rows, all other objects are gone, and the evictions are kept. -/
structure Progresses (hasActiveRepair : Uuid → Bool) (w : BlobWorld) (d : EvictionDecisions)
    (w' : BlobWorld) : Prop where
  queued : ∀ blobId, blobId ∈ w'.tables.deletionQueue ↔
    (blobId ∈ w.tables.deletionQueue ∨ blobId ∈ d.evicted) ∧ w.backend.failure blobId ≠ none
  cleanup : ∀ blobId, blobId ∈ w'.cleanupQueue ↔
    blobId ∈ w.cleanupQueue ∧ w.backend.failure blobId ≠ none
  orphaned : ∀ blobId ∈ orphans hasActiveRepair d,
    (blobId ∈ w'.tables.blobs.map (·.id) ↔ w.backend.failure blobId ≠ none)
  deleted : ∀ blobId, Wanted hasActiveRepair w d blobId → w.backend.failure blobId = none →
    w'.backend.stored blobId = none
  kept : ∀ blobId ∈ d.evicted, Missing w'.tables blobId

/-- **When no failure is in the way**: of the orphans, the deletion queue with the evictions, and
the cleanup queue, in this order, each is wholly deletable or wholly undeletable, and none that is
deletable stands behind one that is not.  Where the orphans are undeletable, nothing new is evicted
either. -/
def Unblocked (hasActiveRepair : Uuid → Bool) (w : BlobWorld) (d : EvictionDecisions) : Prop :=
  let orphans := orphans hasActiveRepair d
  let queued := w.tables.deletionQueue ++ d.evicted
  (w.backend.Deletable orphans ∧ w.backend.Deletable queued ∧
      (w.backend.Deletable w.cleanupQueue ∨ w.backend.Undeletable w.cleanupQueue)) ∨
  (w.backend.Deletable orphans ∧ w.backend.Undeletable queued ∧
      w.backend.Undeletable w.cleanupQueue) ∨
  (w.backend.Undeletable orphans ∧ w.backend.Undeletable queued ∧
      w.backend.Undeletable w.cleanupQueue ∧
      ∀ blobId ∈ d.evicted, blobId ∈ w.tables.deletionQueue ∧ Missing w.tables blobId)

/-- The tables a pass commits. -/
def committed (hasActiveRepair : Uuid → Bool) (d : EvictionDecisions) : AssetTables :=
  (withoutOrphanRecords hasActiveRepair d.tables).deleteBlobs (orphans hasActiveRepair d)

section Cases

variable {policy : AssetCachePolicy} {clock : DateTime} {hasActiveRepair : Uuid → Bool}
  {w : BlobWorld} {d : EvictionDecisions}

theorem mem_orphans {blobId : Uuid} (hd : Decides w d) (h : blobId ∈ orphans hasActiveRepair d) :
    blobId ∈ w.tables.blobs.map (·.id) := by
  obtain ⟨row, hrow, rfl⟩ := List.mem_map.mp h
  rw [← hd.blobs]
  exact List.mem_map_of_mem (List.mem_of_mem_filter hrow)

theorem not_mem_committed {blobId : Uuid} (h : blobId ∈ orphans hasActiveRepair d) :
    blobId ∉ (committed hasActiveRepair d).blobs.map (·.id) := by
  intro hmem
  obtain ⟨row, hrow, rfl⟩ := List.mem_map.mp hmem
  exact absurd h (of_decide_eq_true (List.mem_filter.mp hrow).2)

theorem missing_committed {blobId : Uuid} (h : Missing d.tables blobId) :
    Missing (committed hasActiveRepair d) blobId := by
  intro record hmem hblob
  obtain ⟨old, hold, rfl⟩ := List.mem_map.mp hmem
  have hold := List.mem_of_mem_filter hold
  by_cases horphan : old.blobId.any (· ∈ orphans hasActiveRepair d)
  · rw [if_pos horphan] at hblob
    exact nomatch hblob
  · rw [if_neg horphan] at hblob ⊢
    exact h old hold hblob

/-- **An orphan that cannot be deleted** takes the whole pass back. -/
theorem maintenance_of_orphan (h : w.decisions policy clock = .ok d)
    (horphans : ¬w.backend.Deletable (orphans hasActiveRepair d)) :
    ∃ backend, (w.maintenance policy clock hasActiveRepair).1 = { w with backend } ∧
      w.backend.Partly backend (orphans hasActiveRepair d) := by
  obtain ⟨backend, e, hrun, hpartly⟩ := BlobBackend.removeEach_of_failure horphans
  refine ⟨backend, ?_, hpartly⟩
  rw [maintenance, pass, h]
  dsimp only
  rw [hrun]

/-- The world after a pass that commits. -/
def passed (hasActiveRepair : Uuid → Bool) (w : BlobWorld) (d : EvictionDecisions) : BlobWorld where
  tables := committed hasActiveRepair d
  cleanupQueue := w.cleanupQueue
  backend := w.backend.removeAll (orphans hasActiveRepair d)

theorem pass_of_deletable (h : w.decisions policy clock = .ok d)
    (horphans : w.backend.Deletable (orphans hasActiveRepair d)) :
    ∃ result, w.pass policy clock hasActiveRepair = (passed hasActiveRepair w d, .ok result) := by
  rw [pass, h]
  dsimp only
  rw [BlobBackend.removeEach_of_deletable horphans]
  exact ⟨_, rfl⟩

/-- **A queued key that cannot be deleted** takes its drain back, and there is no second one. -/
theorem maintenance_of_queued (h : w.decisions policy clock = .ok d)
    (horphans : w.backend.Deletable (orphans hasActiveRepair d))
    (hqueue : ¬w.backend.Deletable d.tables.deletionQueue) :
    ∃ backend, (w.maintenance policy clock hasActiveRepair).1 =
        { passed hasActiveRepair w d with backend } ∧
      (passed hasActiveRepair w d).backend.Partly backend d.tables.deletionQueue := by
  obtain ⟨result, hpass⟩ := pass_of_deletable h horphans
  have hqueue : ¬(passed hasActiveRepair w d).backend.Deletable d.tables.deletionQueue := by
    rwa [BlobBackend.Deletable, passed, BlobBackend.failure_removeAll]
  obtain ⟨backend, e, hrun, hpartly⟩ := BlobBackend.removeEach_of_failure hqueue
  refine ⟨backend, ?_, hpartly⟩
  have hdrain : (passed hasActiveRepair w d).drainBlobDeletionQueue =
      ({ passed hasActiveRepair w d with backend }, .error e) := by
    rw [drainBlobDeletionQueue, show (passed hasActiveRepair w d).tables.deletionQueue =
      d.tables.deletionQueue from rfl, hrun]
  rw [maintenance, hpass]
  dsimp only
  rw [hdrain]

/-- The world after a drain that commits. -/
def drained (hasActiveRepair : Uuid → Bool) (w : BlobWorld) (d : EvictionDecisions) :
    BlobWorld where
  tables := { committed hasActiveRepair d with deletionQueue := [] }
  cleanupQueue := w.cleanupQueue
  backend := (passed hasActiveRepair w d).backend.removeAll d.tables.deletionQueue

theorem drain_of_deletable (hqueue : w.backend.Deletable d.tables.deletionQueue) :
    (passed hasActiveRepair w d).drainBlobDeletionQueue =
      (drained hasActiveRepair w d, .ok ()) := by
  have hqueue : (passed hasActiveRepair w d).backend.Deletable d.tables.deletionQueue := by
    rwa [BlobBackend.Deletable, passed, BlobBackend.failure_removeAll]
  rw [drainBlobDeletionQueue, show (passed hasActiveRepair w d).tables.deletionQueue =
    d.tables.deletionQueue from rfl, BlobBackend.removeEach_of_deletable hqueue]
  rfl

theorem failure_drained :
    (drained hasActiveRepair w d).backend.failure = w.backend.failure := by
  rw [drained, BlobBackend.failure_removeAll, passed, BlobBackend.failure_removeAll]

/-- **A cleanup key that cannot be deleted** takes its drain back. -/
theorem maintenance_of_cleanup (h : w.decisions policy clock = .ok d)
    (horphans : w.backend.Deletable (orphans hasActiveRepair d))
    (hqueue : w.backend.Deletable d.tables.deletionQueue)
    (hcleanup : ¬w.backend.Deletable w.cleanupQueue) :
    ∃ backend, (w.maintenance policy clock hasActiveRepair).1 =
        { drained hasActiveRepair w d with backend } ∧
      (drained hasActiveRepair w d).backend.Partly backend w.cleanupQueue := by
  obtain ⟨result, hpass⟩ := pass_of_deletable h horphans
  have hcleanup : ¬(drained hasActiveRepair w d).backend.Deletable w.cleanupQueue := by
    rwa [BlobBackend.Deletable, failure_drained]
  obtain ⟨backend, e, hrun, hpartly⟩ := BlobBackend.removeEach_of_failure hcleanup
  refine ⟨backend, ?_, hpartly⟩
  have hdrain : (drained hasActiveRepair w d).drainBlobCleanupQueue =
      ({ drained hasActiveRepair w d with backend }, .error e) := by
    rw [drainBlobCleanupQueue, show (drained hasActiveRepair w d).cleanupQueue = w.cleanupQueue
      from rfl, hrun]
    rfl
  rw [maintenance, hpass]
  dsimp only
  rw [drain_of_deletable hqueue]
  dsimp only
  rw [hdrain]

/-- Without a failure both queues are drained. -/
theorem maintenance_of_deletable (h : w.decisions policy clock = .ok d)
    (horphans : w.backend.Deletable (orphans hasActiveRepair d))
    (hqueue : w.backend.Deletable d.tables.deletionQueue)
    (hcleanup : w.backend.Deletable w.cleanupQueue) :
    (w.maintenance policy clock hasActiveRepair).1 =
      { drained hasActiveRepair w d with
        cleanupQueue := []
        backend := (drained hasActiveRepair w d).backend.removeAll w.cleanupQueue } := by
  obtain ⟨result, hpass⟩ := pass_of_deletable h horphans
  have hcleanup : (drained hasActiveRepair w d).backend.Deletable w.cleanupQueue := by
    rwa [BlobBackend.Deletable, failure_drained]
  have hdrain : (drained hasActiveRepair w d).drainBlobCleanupQueue =
      ({ drained hasActiveRepair w d with
        cleanupQueue := []
        backend := (drained hasActiveRepair w d).backend.removeAll w.cleanupQueue }, .ok ()) := by
    rw [drainBlobCleanupQueue, show (drained hasActiveRepair w d).cleanupQueue = w.cleanupQueue
      from rfl, BlobBackend.removeEach_of_deletable hcleanup]
  rw [maintenance, hpass]
  dsimp only
  rw [drain_of_deletable hqueue]
  dsimp only
  rw [hdrain]

/-! ## What is left in each case -/

theorem deletable_queue (hd : Decides w d) : w.backend.Deletable d.tables.deletionQueue ↔
    w.backend.Deletable (w.tables.deletionQueue ++ d.evicted) :=
  forall_congr' fun blobId => by rw [hd.queue, List.mem_append]

theorem stored_drained {blobId : Uuid} (hd : Decides w d)
    (h : blobId ∈ w.tables.deletionQueue ∨ blobId ∈ d.evicted ∨
      blobId ∈ orphans hasActiveRepair d) :
    (drained hasActiveRepair w d).backend.stored blobId = none := by
  rw [drained, BlobBackend.stored_removeAll, passed, BlobBackend.stored_removeAll]
  by_cases hqueue : blobId ∈ d.tables.deletionQueue
  · rw [if_pos hqueue]
  · rw [if_neg hqueue, if_pos]
    rw [hd.queue] at hqueue
    tauto

/-- **After a pass that committed**, progress is a matter of the two queues and of the objects. -/
theorem progresses_of_committed {w' : BlobWorld} (hd : Decides w d)
    (horphans : w.backend.Deletable (orphans hasActiveRepair d))
    (hblobs : w'.tables.blobs = (committed hasActiveRepair d).blobs)
    (hrecords : w'.tables.records = (committed hasActiveRepair d).records)
    (hqueued : ∀ blobId, blobId ∈ w'.tables.deletionQueue ↔
      (blobId ∈ w.tables.deletionQueue ∨ blobId ∈ d.evicted) ∧ w.backend.failure blobId ≠ none)
    (hcleanup : ∀ blobId, blobId ∈ w'.cleanupQueue ↔
      blobId ∈ w.cleanupQueue ∧ w.backend.failure blobId ≠ none)
    (hdeleted : ∀ blobId, Wanted hasActiveRepair w d blobId → w.backend.failure blobId = none →
      w'.backend.stored blobId = none) :
    Progresses hasActiveRepair w d w' where
  queued := hqueued
  cleanup := hcleanup
  orphaned blobId hmem := by
    rw [hblobs]
    exact iff_of_false (not_mem_committed hmem) (not_not_intro (horphans blobId hmem))
  deleted := hdeleted
  kept blobId hmem record hrecord := by
    rw [hrecords] at hrecord
    exact missing_committed (hd.missing blobId hmem) record hrecord

/-- **A pass taken back** progresses when there was nothing it could have done. -/
theorem progresses_of_orphan {backend : BlobBackend} (hd : Decides w d)
    (hpartly : w.backend.Partly backend (orphans hasActiveRepair d)) :
    Progresses hasActiveRepair w d { w with backend } ↔
      w.backend.Undeletable (orphans hasActiveRepair d) ∧
      w.backend.Undeletable (w.tables.deletionQueue ++ d.evicted) ∧
      w.backend.Undeletable w.cleanupQueue ∧
      ∀ blobId ∈ d.evicted, blobId ∈ w.tables.deletionQueue ∧ Missing w.tables blobId := by
  have hrow : ∀ blobId ∈ orphans hasActiveRepair d, blobId ∈ w.tables.blobs.map (·.id) :=
    fun _ hmem => mem_orphans hd hmem
  constructor
  · intro h
    have horphans : w.backend.Undeletable (orphans hasActiveRepair d) := fun blobId hmem =>
      (h.orphaned blobId hmem).mp (hrow blobId hmem)
    -- what is evicted was stored, and only orphans have been deleted
    have hevicted : w.backend.Undeletable d.evicted := by
      intro blobId hmem hdeletable
      have hgone := h.deleted blobId (.inr (.inl hmem)) hdeletable
      rcases hpartly.stored blobId with hsame | ⟨-, horphan, -⟩
      · have hpresent := hd.present blobId hmem
        rw [← hsame, hgone] at hpresent
        exact nomatch hpresent
      · exact horphans blobId horphan hdeletable
    refine ⟨horphans, fun blobId hmem => ?_, fun blobId hmem => ((h.cleanup blobId).mp hmem).2,
      fun blobId hmem => ⟨(h.queued blobId).mpr ⟨.inr hmem, hevicted blobId hmem⟩,
        h.kept blobId hmem⟩⟩
    exact (List.mem_append.mp hmem).elim (fun hqueue => ((h.queued blobId).mp hqueue).2)
      (hevicted blobId)
  · rintro ⟨horphans, hqueued, hcleanup, hnew⟩
    refine ⟨fun blobId => ⟨fun hmem => ⟨.inl hmem, ?_⟩, fun hmem => ?_⟩, fun blobId =>
      ⟨fun hmem => ⟨hmem, hcleanup blobId hmem⟩, fun hmem => hmem.1⟩, fun blobId hmem =>
      iff_of_true (hrow blobId hmem) (horphans blobId hmem), fun blobId hwanted hdeletable => ?_,
      fun blobId hmem => (hnew blobId hmem).2⟩
    · exact hqueued blobId (List.mem_append_left _ hmem)
    · exact hmem.1.elim id fun hevicted => (hnew blobId hevicted).1
    · rcases hwanted with hqueue | hevicted | hmem | hmem
      · exact absurd hdeletable (hqueued blobId (List.mem_append_left _ hqueue))
      · exact absurd hdeletable (hqueued blobId (List.mem_append_right _ hevicted))
      · exact absurd hdeletable (hcleanup blobId hmem)
      · exact absurd hdeletable (horphans blobId hmem)

/-- **A deletion drain taken back** progresses when neither queue has anything deletable. -/
theorem progresses_of_queued {backend : BlobBackend} (hd : Decides w d)
    (horphans : w.backend.Deletable (orphans hasActiveRepair d))
    (hstored : ∀ blobId ∈ orphans hasActiveRepair d, backend.stored blobId = none) :
    Progresses hasActiveRepair w d { passed hasActiveRepair w d with backend } ↔
      w.backend.Undeletable (w.tables.deletionQueue ++ d.evicted) ∧
      w.backend.Undeletable w.cleanupQueue := by
  constructor
  · intro h
    refine ⟨fun blobId hmem => ?_, fun blobId hmem => ((h.cleanup blobId).mp hmem).2⟩
    exact ((h.queued blobId).mp ((hd.queue blobId).mpr (List.mem_append.mp hmem))).2
  · rintro ⟨hqueued, hcleanup⟩
    refine progresses_of_committed hd horphans rfl rfl (fun blobId => ?_) (fun blobId =>
      ⟨fun hmem => ⟨hmem, hcleanup blobId hmem⟩, fun hmem => hmem.1⟩)
      fun blobId hwanted hdeletable => ?_
    · rw [← List.mem_append]
      refine ⟨fun hmem => ?_, fun hmem => (hd.queue blobId).mpr (List.mem_append.mp hmem.1)⟩
      have hmem := List.mem_append.mpr ((hd.queue blobId).mp hmem)
      exact ⟨hmem, hqueued blobId hmem⟩
    · rcases hwanted with hqueue | hevicted | hmem | hmem
      · exact absurd hdeletable (hqueued blobId (List.mem_append_left _ hqueue))
      · exact absurd hdeletable (hqueued blobId (List.mem_append_right _ hevicted))
      · exact absurd hdeletable (hcleanup blobId hmem)
      · exact hstored blobId hmem

/-- A cleanup drain taken back progresses when nothing in its queue is deletable. -/
theorem progresses_of_cleanup {backend : BlobBackend} (hd : Decides w d)
    (horphans : w.backend.Deletable (orphans hasActiveRepair d))
    (hqueued : w.backend.Deletable (w.tables.deletionQueue ++ d.evicted))
    (hpartly : (drained hasActiveRepair w d).backend.Partly backend w.cleanupQueue) :
    Progresses hasActiveRepair w d { drained hasActiveRepair w d with backend } ↔
      w.backend.Undeletable w.cleanupQueue := by
  constructor
  · exact fun h blobId hmem => ((h.cleanup blobId).mp hmem).2
  · intro hcleanup
    refine progresses_of_committed hd horphans rfl rfl (fun blobId => ?_) (fun blobId =>
      ⟨fun hmem => ⟨hmem, hcleanup blobId hmem⟩, fun hmem => hmem.1⟩)
      fun blobId hwanted hdeletable => ?_
    · refine iff_of_false List.not_mem_nil fun hmem => hmem.2 ?_
      exact hqueued blobId (List.mem_append.mpr hmem.1)
    · have hgone : blobId ∈ w.tables.deletionQueue ∨ blobId ∈ d.evicted ∨
          blobId ∈ orphans hasActiveRepair d := by
        rcases hwanted with hqueue | hevicted | hmem | hmem
        · exact .inl hqueue
        · exact .inr (.inl hevicted)
        · exact absurd hdeletable (hcleanup blobId hmem)
        · exact .inr (.inr hmem)
      rcases hpartly.stored blobId with hsame | ⟨hnone, -, -⟩
      · exact hsame.trans (stored_drained hd hgone)
      · exact hnone

/-- Where all drains commit, nothing is left. -/
theorem progresses_of_deletable (hd : Decides w d)
    (horphans : w.backend.Deletable (orphans hasActiveRepair d))
    (hqueued : w.backend.Deletable (w.tables.deletionQueue ++ d.evicted))
    (hcleanup : w.backend.Deletable w.cleanupQueue) :
    Progresses hasActiveRepair w d
      { drained hasActiveRepair w d with
        cleanupQueue := []
        backend := (drained hasActiveRepair w d).backend.removeAll w.cleanupQueue } := by
  refine progresses_of_committed hd horphans rfl rfl (fun blobId => ?_) (fun blobId => ?_)
    fun blobId hwanted hdeletable => ?_
  · refine iff_of_false List.not_mem_nil fun hmem => hmem.2 ?_
    exact hqueued blobId (List.mem_append.mpr hmem.1)
  · exact iff_of_false List.not_mem_nil fun hmem => hmem.2 (hcleanup blobId hmem.1)
  · show ((drained hasActiveRepair w d).backend.removeAll w.cleanupQueue).stored blobId = none
    rw [BlobBackend.stored_removeAll]
    by_cases hmem : blobId ∈ w.cleanupQueue
    · rw [if_pos hmem]
    · rw [if_neg hmem]
      refine stored_drained hd ?_
      rcases hwanted with hqueue | hevicted | hcleanup | horphan
      · exact .inl hqueue
      · exact .inr (.inl hevicted)
      · exact absurd hcleanup hmem
      · exact .inr (.inr horphan)

/-- Progress of one pass, by the first transaction that meets a failure. -/
theorem progresses_iff_unblocked (h : w.decisions policy clock = .ok d) :
    Progresses hasActiveRepair w d (w.maintenance policy clock hasActiveRepair).1 ↔
      Unblocked hasActiveRepair w d := by
  have hd := decides_of_decisions h
  by_cases horphans : w.backend.Deletable (orphans hasActiveRepair d)
  · by_cases hqueued : w.backend.Deletable (w.tables.deletionQueue ++ d.evicted)
    · have hqueue := (deletable_queue hd).mpr hqueued
      by_cases hcleanup : w.backend.Deletable w.cleanupQueue
      · rw [maintenance_of_deletable h horphans hqueue hcleanup]
        exact iff_of_true (progresses_of_deletable hd horphans hqueued hcleanup)
          (.inl ⟨horphans, hqueued, .inl hcleanup⟩)
      · obtain ⟨backend, hrun, hpartly⟩ := maintenance_of_cleanup h horphans hqueue hcleanup
        rw [hrun, progresses_of_cleanup hd horphans hqueued hpartly]
        refine ⟨fun hstuck => .inl ⟨horphans, hqueued, .inr hstuck⟩, ?_⟩
        rintro (⟨-, -, hdeletable | hstuck⟩ | ⟨-, -, hstuck⟩ | ⟨-, -, hstuck, -⟩)
        · exact absurd hdeletable hcleanup
        · exact hstuck
        · exact hstuck
        · exact hstuck
    · have hqueue := fun hqueue => hqueued ((deletable_queue hd).mp hqueue)
      obtain ⟨backend, hrun, hpartly⟩ := maintenance_of_queued h horphans hqueue
      have hstored : ∀ blobId ∈ orphans hasActiveRepair d, backend.stored blobId = none := by
        intro blobId hmem
        rcases hpartly.stored blobId with hsame | ⟨hnone, -, -⟩
        · rw [hsame, passed, BlobBackend.stored_removeAll, if_pos hmem]
        · exact hnone
      rw [hrun, progresses_of_queued hd horphans hstored]
      refine ⟨fun hstuck => .inr (.inl ⟨horphans, hstuck⟩), ?_⟩
      rintro (⟨-, hdeletable, -⟩ | ⟨-, hstuck⟩ | ⟨-, hstuck, hcleanup, -⟩)
      · exact absurd hdeletable hqueued
      · exact hstuck
      · exact ⟨hstuck, hcleanup⟩
  · obtain ⟨backend, hrun, hpartly⟩ := maintenance_of_orphan h horphans
    rw [hrun, progresses_of_orphan hd hpartly]
    refine ⟨fun hstuck => .inr (.inr hstuck), ?_⟩
    rintro (⟨hdeletable, -⟩ | ⟨hdeletable, -⟩ | hstuck)
    · exact absurd hdeletable horphans
    · exact absurd hdeletable horphans
    · exact hstuck

end Cases

/-- **Deletion makes progress past failures exactly when none is in the way.** -/
theorem maintenance_progresses_iff (policy : AssetCachePolicy) (clock : DateTime)
    (hasActiveRepair : Uuid → Bool) (w : BlobWorld) :
    (∃ d, w.decisions policy clock = .ok d ∧
      Progresses hasActiveRepair w d (w.maintenance policy clock hasActiveRepair).1) ↔
    ∃ d, w.decisions policy clock = .ok d ∧ Unblocked hasActiveRepair w d :=
  exists_congr fun _ => and_congr_right fun h => progresses_iff_unblocked h

/-! ## One undeletable object -/

/-- Two queued objects, the first of which the backend cannot delete. -/
def brokenBackend : BlobBackend where
  stored blobId := if blobId.value < 3 then some 7 else none
  failure blobId := if blobId.value = 1 then some (.backend "permission denied") else none

def brokenQueue : BlobWorld where
  tables := { AssetTables.empty with deletionQueue := [⟨1⟩, ⟨2⟩] }
  cleanupQueue := []
  backend := brokenBackend

/-- An orphan that cannot be deleted, and an old blob. -/
def brokenOrphan : BlobWorld where
  tables :=
    { AssetTables.empty with
      blobs := [⟨⟨1⟩, "a", 7, by decide, "image/png", none, 5000000000⟩,
        ⟨⟨2⟩, "b", 7, by decide, "image/png", none, 0⟩]
      records := [⟨⟨3⟩, "https://mmbiz.qpic.cn/2", 1, "https://mmbiz.qpic.cn/2", some ⟨2⟩,
        .available, none⟩]
      articleAssets := [⟨⟨4⟩, "review", ⟨3⟩, 0, "https://mp.weixin.qq.com/", none, none⟩] }
  cleanupQueue := []
  backend := brokenBackend

def ageLimit : AssetCachePolicy := ⟨0, 3000000000, 1000, 10⟩

/-- **The object behind a failing one stays queued, and an undeletable orphan takes an eviction
back.** -/
theorem undeletable_object_blocks :
    (¬∃ d, brokenQueue.decisions ageLimit 6000000000 = .ok d ∧
      Progresses (fun _ => false) brokenQueue d
        (brokenQueue.maintenance ageLimit 6000000000 fun _ => false).1) ∧
    ¬∃ d, brokenOrphan.decisions ageLimit 6000000000 = .ok d ∧
      Progresses (fun _ => false) brokenOrphan d
        (brokenOrphan.maintenance ageLimit 6000000000 fun _ => false).1 := by
  refine ⟨?_, ?_⟩
  · rintro ⟨d, -, hprogress⟩
    have hmem : (⟨2⟩ : Uuid) ∈ (brokenQueue.maintenance ageLimit 6000000000 fun _ =>
      false).1.tables.deletionQueue := by decide
    exact ((hprogress.queued ⟨2⟩).mp hmem).2 (by decide)
  · rintro ⟨d, hd, hprogress⟩
    have hevicted : (brokenOrphan.decisions ageLimit 6000000000).map (·.evicted) = .ok [⟨2⟩] := by
      decide
    rw [hd] at hevicted
    have hevicted : d.evicted = [⟨2⟩] := Except.ok.inj hevicted
    have hmem : (⟨⟨3⟩, "https://mmbiz.qpic.cn/2", 1, "https://mmbiz.qpic.cn/2", some ⟨2⟩,
        .available, none⟩ : AssetRecordRow) ∈ (brokenOrphan.maintenance ageLimit 6000000000 fun _ =>
          false).1.tables.records := by decide
    exact hprogress.kept ⟨2⟩ (by rw [hevicted]; decide) _ hmem rfl rfl

end BlobWorld

end Werrss
