import Werrss.Persistence.AssetEviction
import Werrss.Persistence.AssetUnitOfWork

/-!
# Persistence/AssetCap — the byte cap over whole runs

    held, neither queued nor deferred ≤ max        pending bytes ≥ held under new ids
                  └──── every store, every rollback, every commit ────┘

A unit of work keeps the bytes that will survive it within the cap, because its commit queues what
it deferred; maintenance does the same.  **A restore forgets what it deferred**, so the cap survives
it only if the new blob fits without an eviction.
-/

open Machinery

namespace Werrss

namespace AssetRepository

/-! ## Frames -/

theorem held_updateBlob (t : AssetTables) (blobId : Uuid) {f : AssetBlobRow → AssetBlobRow}
    (hid : ∀ row, (f row).id = row.id) (hsize : ∀ row, (f row).byteSize = row.byteSize)
    (hdata : ∀ row, (f row).data.isSome = true → row.data.isSome = true) (p : Uuid → Bool) :
    heldBytes p (t.updateBlob blobId f).blobs ≤ heldBytes p t.blobs := by
  refine weight_map_le (fun row => ?_) (fun row hrow => ?_) t.blobs
  · by_cases h : row.id = blobId
    · rw [if_pos h, hsize]
    · rw [if_neg h]
  · by_cases h : row.id = blobId
    · rw [if_pos h, hid, Bool.and_eq_true] at hrow
      rw [Bool.and_eq_true]
      exact ⟨hdata row hrow.1, hrow.2⟩
    · rwa [if_neg h] at hrow

theorem held_touchBlob (t : AssetTables) (blobId : Uuid) (clock : DateTime) (p : Uuid → Bool) :
    heldBytes p (t.touchBlob blobId clock).blobs ≤ heldBytes p t.blobs := by
  rw [AssetTables.touchBlob]
  refine held_updateBlob t blobId ?_ ?_ ?_ p
  · exact fun _ => rfl
  · exact fun _ => rfl
  · exact fun _ h => h

theorem map_id_touchBlob (t : AssetTables) (blobId : Uuid) (clock : DateTime) :
    (t.touchBlob blobId clock).blobs.map AssetBlobRow.id = t.blobs.map AssetBlobRow.id :=
  map_id_updateBlob t blobId fun _ => rfl

/-- Deleting bytes only takes. -/
structure Takes (t u : AssetTables) : Prop where
  held : ∀ p, heldBytes p u.blobs ≤ heldBytes p t.blobs
  keys : (t.blobs.map AssetBlobRow.id).Nodup → (u.blobs.map AssetBlobRow.id).Nodup
  ids : u.blobs.map AssetBlobRow.id ⊆ t.blobs.map AssetBlobRow.id
  deletionQueue : u.deletionQueue = t.deletionQueue

theorem Takes.refl (t : AssetTables) : Takes t t := ⟨fun _ => le_rfl, id, fun _ h => h, rfl⟩

theorem Takes.trans {t u v : AssetTables} (h : Takes t u) (h' : Takes u v) : Takes t v :=
  ⟨fun p => (h'.held p).trans (h.held p), fun hkeys => h'.keys (h.keys hkeys),
    fun _ hid => h.ids (h'.ids hid), h'.deletionQueue.trans h.deletionQueue⟩

theorem takes_blobDelete (t : AssetTables) (id : Uuid) : Takes t (t.blobDelete id) := by
  rw [AssetTables.blobDelete]
  have hids := map_id_updateBlob t id (f := fun row => { row with data := none }) fun _ => rfl
  refine ⟨held_updateBlob t id ?_ ?_ ?_, fun hkeys => ?_, fun _ hid => ?_, rfl⟩
  · exact fun _ => rfl
  · exact fun _ => rfl
  · exact fun _ h => (nomatch h)
  · rwa [hids]
  · rwa [hids] at hid

theorem takes_foldl_blobDelete (ids : List Uuid) (t : AssetTables) :
    Takes t (ids.foldl AssetTables.blobDelete t) := by
  induction ids generalizing t with
  | nil => exact Takes.refl t
  | cons id ids ih => exact (takes_blobDelete t id).trans (ih (t.blobDelete id))

theorem takes_deleteBlobs (ids : List Uuid) (t : AssetTables) : Takes t (t.deleteBlobs ids) := by
  refine ⟨fun p => ?_, fun hkeys => ?_, ?_, rfl⟩
  · rw [heldBytes, AssetTables.deleteBlobs, weight_filter]
    exact weight_mono fun row _ hrow => (Bool.and_eq_true_iff.mp hrow).1
  · exact hkeys.sublist (List.filter_sublist.map _)
  · exact (List.filter_sublist.map _).subset

/-! ## A unit of work -/

/-- **The invariant of a unit of work**: what neither the queue nor the deferred evictions will
delete is within `max`, and the pending bytes cover what is held under new ids. -/
structure Within (max : ℕ) (s : AssetState) : Prop where
  keys : (s.tables.blobs.map AssetBlobRow.id).Nodup
  cap : heldBytes (fun id => id ∉ s.tables.deletionQueue && id ∉ s.mutation.deferredEvictions)
    s.tables.blobs ≤ max
  pending : heldBytes
    (fun id => id ∈ s.mutation.newlyWritten && id ∉ s.mutation.deferredEvictions)
    s.tables.blobs ≤ s.mutation.pendingBytes

theorem Within.takes {max : ℕ} {s : AssetState} {u : AssetTables} (h : Within max s)
    (htakes : Takes s.tables u) : Within max ⟨u, s.mutation⟩ := by
  refine ⟨htakes.keys h.keys, ?_, (htakes.held _).trans h.pending⟩
  rw [htakes.deletionQueue]
  exact (htakes.held _).trans h.cap

section Stores

variable {Url : Type} {policy : AssetCachePolicy} {preparation : AssetBatchPreparation}
  {supply : AssetSupply} {input : AssetInput Url} {protectedBlobIds : List Uuid}
  {batchBlobs : List (Uuid × Uuid)} {s t : AssetState} {blobId : Uuid} {size : ℕ}

/-- **An insertion keeps the invariant.** -/
theorem Within.inserts (hpos : policy.maxCacheSizeBytes ≠ 0) (hmax : policy.maxCacheSizeBytes ≤ i64Max)
    (h : Within policy.maxCacheSizeBytes s) (hins : Inserts policy protectedBlobIds blobId size s t) :
    Within policy.maxCacheSizeBytes t := by
  obtain ⟨evicted, u, henforced⟩ := hins.enforced
  have hgrows := (chosen_of_enforce henforced).1
  have hfits := held_of_enforce ⟨hpos, hmax⟩ h.pending henforced
  refine ⟨hins.puts.keys h.keys, ?_, ?_⟩
  · calc heldBytes (fun id => id ∉ t.tables.deletionQueue && id ∉ t.mutation.deferredEvictions)
          t.tables.blobs
        ≤ heldBytes (· ∉ t.mutation.deferredEvictions) s.tables.blobs + size :=
          hins.puts.held_le h.keys fun id _ hid => (Bool.and_eq_true_iff.mp hid).2
      _ ≤ policy.maxCacheSizeBytes := hfits
  · rw [hins.newlyWritten, hins.pendingBytes]
    refine (hins.puts.held_le h.keys fun id hne hid => ?_).trans (Nat.add_le_add_right h.pending _)
    -- a deferred eviction stays deferred
    simp only [List.mem_append, List.mem_singleton, Bool.and_eq_true, decide_eq_true_eq] at hid ⊢
    exact ⟨hid.1.resolve_right hne, fun hdeferred => hid.2 (hgrows.subset hdeferred)⟩

theorem Within.stores (hpos : policy.maxCacheSizeBytes ≠ 0) (hmax : policy.maxCacheSizeBytes ≤ i64Max)
    (h : Within policy.maxCacheSizeBytes s)
    (hstores : Stores policy preparation supply input protectedBlobIds batchBlobs s t blobId) :
    Within policy.maxCacheSizeBytes t := by
  cases hstores with
  | reuse matched usable blobs deletionQueue mutation =>
    refine ⟨?_, ?_, ?_⟩
    · rw [blobs, map_id_touchBlob]
      exact h.keys
    · rw [blobs, deletionQueue, mutation]
      exact (held_touchBlob _ _ _ _).trans h.cap
    · rw [blobs, mutation]
      exact (held_touchBlob _ _ _ _).trans h.pending
  | insert needed inserts => exact h.inserts hpos hmax inserts

end Stores

section Batches

variable {Url : Type} [UrlCrate Url] [Sha2Crate] {context : AssetWriteContext}

/-- **The rule of a batch**: what every store keeps, the batch keeps; and it only adds to the
mutation state, also when it fails. -/
theorem storeEach_spec {preparation : AssetBatchPreparation}
    (hcontext : context.preparation = some preparation) (sourceId : Uuid) (reviewId : String)
    {I : AssetState → Prop}
    (hstores : ∀ supply (input : AssetInput Url) protectedBlobIds batchBlobs s t blobId, I s →
      Stores context.policy preparation supply input protectedBlobIds batchBlobs s t blobId → I t) {newIds : List Uuid} (start : AssetState) :
    ∀ (inputs : List (AssetInput Url × AssetSupply)) (protectedBlobIds : List Uuid)
      (batchBlobs : List (Uuid × Uuid)), (∀ entry ∈ inputs, entry.2.blobId ∈ newIds) →
      Tx.Triple (fun s => I s ∧ Extends newIds start s)
        (storeEach context sourceId reviewId inputs protectedBlobIds batchBlobs)
        (fun _ t => I t ∧ Extends newIds start t) (Extends newIds start)
  | [], _, _, _ => .pure fun _ h => h
  | (input, supply) :: inputs, protectedBlobIds, batchBlobs, hnew => by
    have hhead := hnew (input, supply) List.mem_cons_self
    refine .each fun s ⟨hI, hstart⟩ => ?_
    refine .bind (R := fun _ t => I t ∧ Extends newIds start t) ?_ fun asset => ?_
    · exact (storeInput_spec hcontext sourceId reviewId hhead s).mono (fun _ h => h)
        (fun _ t h => ⟨hstores _ _ _ _ _ _ _ hI h, hstart.trans (h.extends hhead)⟩)
        fun _ h => hstart.trans h
    · exact .bind (storeEach_spec hcontext sourceId reviewId hstores start inputs _ _
        fun entry hentry => hnew entry (List.mem_cons_of_mem _ hentry)) fun _ => .pure fun _ h => h

omit [UrlCrate Url] [Sha2Crate] in
/-- A batch that only added is cut back exactly. -/
theorem mutation_rolledBack {newIds : List Uuid} {s t : AssetState} (h : Extends newIds s t) :
    (rolledBack s t).mutation = s.mutation := by
  obtain ⟨⟨ids, hids, -⟩, rest, hrest⟩ := h
  rw [rolledBack, hids, ← hrest, List.take_left, List.take_left]

omit [UrlCrate Url] [Sha2Crate] in
theorem takes_rolledBack (s t : AssetState) : Takes s.tables (rolledBack s t).tables :=
  (takes_foldl_blobDelete _ _).trans (takes_deleteBlobs _ _)

/-- The state in which the inputs of a batch are stored. -/
def batchStart (batch : AssetBatch Url) (s : AssetState) : AssetState :=
  if batch.replace then
    { s with tables := s.tables.deleteArticleAssets batch.sourceId (trim batch.reviewId) }
  else s

omit [UrlCrate Url] [Sha2Crate] in
theorem sameCache_batchStart (batch : AssetBatch Url) (s : AssetState) :
    SameCache s (batchStart batch s) := by
  by_cases h : batch.replace = true
  · rw [batchStart, if_pos h]
    exact ⟨rfl, rfl, rfl⟩
  · rw [batchStart, if_neg h]
    exact SameCache.refl s

/-- **What a batch does**: nothing, or it stores all its inputs, or it is rolled back. -/
inductive Batches (context : AssetWriteContext) (batch : AssetBatch Url) (s : AssetState) :
    Except AssetRepositoryError (List (StoredAsset Url)) → AssetState → Prop
  | refused (e : AssetRepositoryError) : Batches context batch s (.error e) s
  | empty : Batches context batch s (.ok []) s
  | stored {assets : List (StoredAsset Url)} {t : AssetState}
      (run : storeEach context batch.sourceId batch.reviewId batch.inputs [] [] (batchStart batch s)
        = (.ok assets, t)) : Batches context batch s (.ok assets) t
  | rolledBack (e : AssetRepositoryError) {t : AssetState}
      (added : Extends (batch.inputs.map (·.2.blobId)) s t) :
      Batches context batch s (.error e) (rolledBack s t)

/-- What stands behind a savepoint. -/
theorem batches_atSavepoint {preparation : AssetBatchPreparation}
    (hcontext : context.preparation = some preparation) (batch : AssetBatch Url) (s : AssetState)
    {m : AssetTx (List (StoredAsset Url))}
    (hm : m s = storeInputs context batch.sourceId batch.reviewId batch.inputs (batchStart batch s)) :
    Batches context batch s (atSavepoint m s).1 (atSavepoint m s).2 := by
  have hspec := storeEach_spec hcontext batch.sourceId batch.reviewId (I := fun _ => True)
    (fun _ _ _ _ _ _ _ _ _ => trivial) s batch.inputs [] []
    (fun entry hentry => List.mem_map_of_mem (f := fun entry => entry.2.blobId) hentry)
    (batchStart batch s) ⟨trivial, (sameCache_batchStart batch s).extends⟩
  have hstart : m s = storeEach context batch.sourceId batch.reviewId batch.inputs [] []
      (batchStart batch s) := by
    rw [hm, storeInputs, hcontext]
  rw [atSavepoint, hstart]
  rcases hrun : storeEach context batch.sourceId batch.reviewId batch.inputs [] []
    (batchStart batch s) with ⟨e | assets, t⟩
  · exact .rolledBack e (hspec.2 e t hrun)
  · exact .stored hrun

theorem storeBatch_cases {preparation : AssetBatchPreparation}
    (hcontext : context.preparation = some preparation) (batch : AssetBatch Url) (s : AssetState) :
    Batches context batch s (storeBatch context batch s).1 (storeBatch context batch s).2 := by
  rw [storeBatch, replaceForArticle, storeForArticle]
  rcases validateArticleIdentity batch.sourceId batch.reviewId with e | _
  · simp only [Tx.ofExcept_error_bind, ite_self]
    exact .refused e
  rcases validateInputCount context.policy (batch.inputs.map Prod.fst) with e | _
  · simp only [Tx.ofExcept_ok_bind, Tx.ofExcept_error_bind, ite_self]
    exact .refused e
  simp only [Tx.ofExcept_ok_bind]
  by_cases hreplace : batch.replace = true
  · rw [if_pos hreplace]
    refine batches_atSavepoint hcontext batch s ?_
    rw [batchStart, if_pos hreplace]
    rfl
  · rw [if_neg hreplace]
    by_cases hempty : batch.inputs.isEmpty = true
    · rw [if_pos hempty]
      exact .empty
    · rw [if_neg hempty]
      refine batches_atSavepoint hcontext batch s ?_
      rw [batchStart, if_neg hreplace]

omit [UrlCrate Url] [Sha2Crate] in
theorem Within.sameCache {max : ℕ} {s t : AssetState} (h : Within max s) (hsame : SameCache s t) :
    Within max t := by
  refine ⟨?_, ?_, ?_⟩
  · rw [hsame.blobs]
    exact h.keys
  · rw [hsame.blobs, hsame.deletionQueue, hsame.mutation]
    exact h.cap
  · rw [hsame.blobs, hsame.mutation]
    exact h.pending

/-- **A batch keeps the invariant**, whether it succeeds or fails. -/
theorem Within.storeBatch (context : AssetWriteContext) {preparation : AssetBatchPreparation}
    (hcontext : context.preparation = some preparation)
    (hpos : context.policy.maxCacheSizeBytes ≠ 0) (hmax : context.policy.maxCacheSizeBytes ≤ i64Max)
    {s : AssetState} (h : Within context.policy.maxCacheSizeBytes s) (batch : AssetBatch Url) :
    Within context.policy.maxCacheSizeBytes
      (AssetRepository.storeBatch context batch s).2 := by
  have hcases := storeBatch_cases hcontext batch s
  generalize (AssetRepository.storeBatch context batch s).1 = outcome at hcases
  generalize (AssetRepository.storeBatch context batch s).2 = t at hcases ⊢
  cases hcases with
  | refused e => exact h
  | empty => exact h
  | stored run =>
    have hsame := sameCache_batchStart batch s
    exact ((storeEach_spec hcontext batch.sourceId batch.reviewId
      (fun _ _ _ _ _ _ _ hI hstores => hI.stores hpos hmax hstores) s batch.inputs [] []
      (fun entry hentry => List.mem_map_of_mem (f := fun entry => entry.2.blobId) hentry)
      (batchStart batch s) ⟨h.sameCache hsame, hsame.extends⟩).1 _ _ run).1
  | @rolledBack e t added =>
    have hback := h.takes (takes_rolledBack s t)
    rwa [← mutation_rolledBack added] at hback

end Batches

/-! ## Committed tables -/

/-- The bytes held by blobs that are not queued for deletion. -/
def liveBytes (tables : AssetTables) : ℕ := heldBytes (· ∉ tables.deletionQueue) tables.blobs

/-- **The invariant of the committed tables.** -/
structure Capped (max : ℕ) (tables : AssetTables) : Prop where
  keys : (tables.blobs.map AssetBlobRow.id).Nodup
  live : liveBytes tables ≤ max

theorem Capped.within {max : ℕ} {tables : AssetTables} (h : Capped max tables) :
    Within max ⟨tables, {}⟩ := by
  refine ⟨h.keys, ?_, ?_⟩
  · simpa [liveBytes] using h.live
  · simp [heldBytes, weight]

theorem Capped.takes {max : ℕ} {t u : AssetTables} (h : Capped max t) (htakes : Takes t u) :
    Capped max u := by
  refine ⟨htakes.keys h.keys, ?_⟩
  rw [liveBytes, htakes.deletionQueue]
  exact (htakes.held _).trans h.live

theorem mem_enqueueDeletions {t : AssetTables} {ids : List Uuid} {id : Uuid} :
    id ∈ (t.enqueueDeletions ids).deletionQueue ↔ id ∈ t.deletionQueue ∨ id ∈ ids := by
  rw [AssetTables.enqueueDeletions]
  generalize t.deletionQueue = queue
  induction ids generalizing queue with
  | nil => simp
  | cons first ids ih =>
    rw [List.foldl_cons, ih, List.mem_cons]
    by_cases h : first ∈ queue
    · rw [if_pos h]
      grind
    · rw [if_neg h]
      grind

/-- **Queueing what was deferred** turns the invariant of a unit of work into that of the tables. -/
theorem Within.commit {max : ℕ} {s : AssetState} (h : Within max s) :
    Capped max (AssetRepository.commit s) := by
  refine ⟨h.keys, (weight_mono fun row _ hrow => ?_).trans h.cap⟩
  simp only [Bool.and_eq_true, decide_eq_true_eq] at hrow ⊢
  rw [AssetRepository.commit, mem_enqueueDeletions, not_or] at hrow
  exact hrow

/-- Draining deletes the bytes of what is queued. -/
theorem held_foldl_blobDelete (p : Uuid → Bool) (ids : List Uuid) (t : AssetTables) :
    heldBytes p (ids.foldl AssetTables.blobDelete t).blobs
      ≤ heldBytes (fun id => p id && id ∉ ids) t.blobs := by
  induction ids generalizing t with
  | nil => exact weight_mono fun row _ hrow => by simpa using hrow
  | cons id ids ih =>
    refine (ih (t.blobDelete id)).trans (weight_map_le (fun row => ?_) (fun row hrow => ?_) t.blobs)
    · by_cases h : row.id = id
      · rw [if_pos h]
      · rw [if_neg h]
    · by_cases h : row.id = id
      · rw [if_pos h] at hrow
        cases hrow
      · rw [if_neg h] at hrow
        simpa [h] using hrow

theorem Capped.drain {max : ℕ} {t : AssetTables} (h : Capped max t) :
    Capped max t.drainBlobDeletionQueue := by
  refine ⟨(takes_foldl_blobDelete _ t).keys h.keys, ?_⟩
  refine (held_foldl_blobDelete _ t.deletionQueue t).trans (le_trans ?_ h.live)
  refine weight_mono fun row _ hrow => ?_
  simp only [Bool.and_eq_true] at hrow ⊢
  exact ⟨hrow.1, hrow.2.2⟩

theorem takes_deleteOrphans (hasActiveRepair : Uuid → Bool) (t : AssetTables) :
    Takes t (deleteOrphans hasActiveRepair t) := by
  rw [deleteOrphans]
  generalize hkept : ({ t with
    records := t.records.filter fun record => !isOrphanRecord t hasActiveRepair record }
    : AssetTables) = kept
  have hrecords : Takes t kept := hkept ▸ ⟨fun _ => le_rfl, id, fun _ h => h, rfl⟩
  exact (hrecords.trans (takes_foldl_blobDelete _ _)).trans (takes_deleteBlobs _ _)

/-- **Nothing is deferred where everything fits.** -/
theorem deferred_of_fits {limit : CacheLimit} {s t : AssetState} {evicted : ℕ}
    {deferred : List Uuid} (h : enforceCacheLimit limit s = (.ok (evicted, deferred), t))
    (hfits : heldBytes (· ∉ limit.pendingBlobIds ++ limit.deferredEvictions) s.tables.blobs
      + limit.pendingBytes + limit.additionalBytes ≤ limit.maxBytes) :
    deferred = limit.deferredEvictions := by
  rcases enforce_invariant (I := fun total deferred => deferred = limit.deferredEvictions ∧
      total + limit.additionalBytes ≤ limit.maxBytes) h (fun _ _ => ⟨rfl, by exact_mod_cast hfits⟩)
      (fun total before row hI hround => absurd hround.exceeds (not_lt.mpr hI.2))
    with ⟨-, hsame⟩ | ⟨total, hI, -⟩
  · exact hsame
  · exact hI.1

/-- **Maintenance leaves the cap met, and queues whatever it selects.** -/
theorem maintenance_spec {policy : AssetCachePolicy} {tables : AssetTables} (hpos : policy.maxCacheSizeBytes ≠ 0)
    (hmax : policy.maxCacheSizeBytes ≤ i64Max) (h : Capped policy.maxCacheSizeBytes tables)
    (clock : DateTime) (hasActiveRepair : Uuid → Bool) :
    Tx.Triple (· = ⟨tables, {}⟩) (maintenance policy clock hasActiveRepair)
      (fun result t => Capped policy.maxCacheSizeBytes t.tables ∧
        ∀ id ∈ result.2, id ∈ t.tables.deletionQueue) (fun _ => True) := by
  rw [maintenance]
  refine .ite (fun _ => .fail fun _ _ => trivial) fun _ => .read_bind fun s hs => ?_
  subst hs
  generalize hstale : (if policy.maxAge = 0 then ([] : List Uuid)
    else tables.evictStaleBlobs (policy.maxAge / 1000000000) clock) = stale
  refine .modify_bind (R := (· = ⟨tables.markMissing stale "asset bytes evicted by age policy", {}⟩))
    ?_ (by rintro s rfl; rfl)
  refine .bind ((enforceCacheLimit_run _ _).mono (fun _ h => h) (fun _ _ h => h) fun _ _ => trivial)
    fun evicted => .each fun t ⟨henforced, hsame⟩ => ?_
  have hfits := held_of_enforce ⟨hpos, hmax⟩ (by simp [heldBytes, weight]) henforced
  refine .modify_bind (R := fun u => Capped policy.maxCacheSizeBytes u.tables ∧
    ∀ id ∈ evicted.2, id ∈ u.tables.deletionQueue) ?_ ?_
  swap
  · rintro u rfl
    refine ⟨⟨?_, ?_⟩, fun id hid => mem_enqueueDeletions.mpr (.inr hid)⟩
    · change (u.tables.blobs.map AssetBlobRow.id).Nodup
      rw [hsame.blobs]
      exact h.keys
    · rw [liveBytes]
      change heldBytes _ u.tables.blobs ≤ _
      rw [hsame.blobs]
      refine le_trans (weight_mono fun row _ hrow => ?_) hfits
      simp only [Bool.and_eq_true, decide_eq_true_eq] at hrow ⊢
      rw [mem_enqueueDeletions, not_or] at hrow
      exact ⟨hrow.1, hrow.2.2⟩
  refine .read_bind fun queued hqueued => .modify_bind (R := fun u =>
    Capped policy.maxCacheSizeBytes u.tables ∧ ∀ id ∈ evicted.2, id ∈ u.tables.deletionQueue)
    (.read_bind fun u hu => .pure fun v hv => hv ▸ hu) fun u hu => ?_
  subst hu
  have htakes := takes_deleteOrphans hasActiveRepair u.tables
  refine ⟨hqueued.1.takes htakes, fun id hid => ?_⟩
  change id ∈ (deleteOrphans hasActiveRepair u.tables).deletionQueue
  rw [htakes.deletionQueue]
  exact hqueued.2 id hid

theorem finishRestore_spec {Url : Type} [UrlCrate Url] (request : AssetRestore Url) (blobId : Uuid) (s : AssetState) :
    Tx.Triple (· = s) (finishRestore request blobId)
      (fun _ t => t.tables.blobs = (s.tables.touchBlob blobId request.supply.clock).blobs ∧
        t.tables.deletionQueue = s.tables.deletionQueue ∧ t.mutation = s.mutation)
      (fun _ => True) := by
  rw [finishRestore]
  refine .ite (fun _ => .ofExcept_bind (fun _ _ => trivial) fun finalUrl _ => ?_)
    fun _ => .fail fun _ _ => trivial
  exact .modify_bind (.pure fun t ht => ht) (by rintro t rfl; exact ⟨rfl, rfl, rfl⟩)

theorem Capped.touched {max : ℕ} {t u : AssetTables} {blobId : Uuid} {clock : DateTime}
    (h : Capped max t) (hblobs : u.blobs = (t.touchBlob blobId clock).blobs)
    (hqueue : u.deletionQueue = t.deletionQueue) : Capped max u := by
  refine ⟨?_, ?_⟩
  · rw [hblobs, map_id_touchBlob]
    exact h.keys
  · rw [liveBytes, hblobs, hqueue]
    exact (held_touchBlob _ _ _ _).trans h.live

section Operations

variable {Url : Type} [UrlCrate Url] [Sha2Crate] {policy : AssetCachePolicy} {tables : AssetTables}

theorem Capped.unitOfWork (hpos : policy.maxCacheSizeBytes ≠ 0)
    (hmax : policy.maxCacheSizeBytes ≤ i64Max) (h : Capped policy.maxCacheSizeBytes tables)
    (work : AssetUnitOfWork Url) (preparation : AssetBatchPreparation) :
    Capped policy.maxCacheSizeBytes (commit (work.run policy tables preparation).state) := by
  refine Within.commit ?_
  refine run_preserves (P := fun session : AssetSession Url =>
    Within policy.maxCacheSizeBytes session.state) (fun session batch hsession => ?_) work.batches
    h.within
  have hbatch : Within policy.maxCacheSizeBytes
      (storeBatch ⟨policy, some preparation, work.startedAt⟩ batch session.state).2 :=
    Within.storeBatch ⟨policy, some preparation, work.startedAt⟩ rfl hpos hmax hsession batch
  rw [AssetSession.step]
  split
  · rename_i assets t hrun
    rwa [hrun] at hbatch
  · rename_i e t hrun
    rwa [hrun] at hbatch

/-- **A restore that fits keeps the cap**, and drops no eviction. -/
theorem restoreMissingAsset_spec {request : AssetRestore Url}
    (h : Capped policy.maxCacheSizeBytes tables)
    (hfits : restorePlan policy tables request = .ok .insert →
      heldBytes (fun _ => true) tables.blobs + request.input.bytes.length
        ≤ policy.maxCacheSizeBytes) :
    Tx.Triple (· = ⟨tables, {}⟩) (restoreMissingAsset policy request)
      (fun _ t => Capped policy.maxCacheSizeBytes t.tables ∧ t.mutation.deferredEvictions = [])
      (fun _ => True) := by
  refine .read_bind fun s hs => .ofExcept_bind (fun _ _ => trivial) fun plan hplan => ?_
  subst hs
  have hnone : ∀ t : AssetState, t = ⟨tables, {}⟩ →
      Capped policy.maxCacheSizeBytes t.tables ∧ t.mutation.deferredEvictions = [] := by
    rintro t rfl
    exact ⟨h, rfl⟩
  cases plan with
  | notFound => exact .pure hnone
  | alreadyAvailable => exact .pure hnone
  | reuse blobId =>
    refine (finishRestore_spec request blobId _).mono (fun _ h => h) (fun _ t ht => ?_) fun _ h => h
    exact ⟨h.touched ht.1 ht.2.1, by rw [ht.2.2]⟩
  | insert =>
    refine .bind ((insertBlob_spec ⟨policy, none, request.startedAt⟩ request.supply request.input []
      [request.supply.blobId] (List.mem_singleton_self _) ⟨tables, {}⟩).mono (fun _ h => h)
      (fun _ _ h => h) fun _ _ => trivial) fun inserted => .each fun t ⟨_, hins⟩ => ?_
    obtain ⟨evicted, u, henforced⟩ := hins.enforced
    have hdeferred : t.mutation.deferredEvictions = [] := by
      refine deferred_of_fits henforced (le_trans (Nat.add_le_add_right ?_ _) (hfits hplan))
      exact weight_mono fun row _ hrow => by simpa using (Bool.and_eq_true_iff.mp hrow).1
    have hcapped : Capped policy.maxCacheSizeBytes t.tables := by
      refine ⟨hins.puts.keys h.keys, ?_⟩
      exact (hins.puts.held_le h.keys fun _ _ _ => rfl).trans (hfits hplan)
    refine (finishRestore_spec request inserted.1 t).mono (fun _ h => h) (fun _ v hv => ?_)
      fun _ h => h
    exact ⟨hcapped.touched hv.1 hv.2.1, by rw [hv.2.2, hdeferred]⟩

/-- **A restore that has to insert finds room for its blob.** -/
def RestoreFits (policy : AssetCachePolicy) (tables : AssetTables) : AssetOperation Url → Prop
  | .restore request =>
    restorePlan policy tables request = .ok .insert →
      heldBytes (fun _ => true) tables.blobs + request.input.bytes.length
        ≤ policy.maxCacheSizeBytes
  | _ => True

/-- **One operation** keeps the cap, and queues every blob it selected for eviction. -/
theorem Capped.perform (hpos : policy.maxCacheSizeBytes ≠ 0)
    (hmax : policy.maxCacheSizeBytes ≤ i64Max) (h : Capped policy.maxCacheSizeBytes tables)
    {operation : AssetOperation Url} (hfits : RestoreFits policy tables operation) :
    Capped policy.maxCacheSizeBytes (AssetRepository.perform policy tables operation).1 ∧
      ∀ id ∈ (AssetRepository.perform policy tables operation).2,
        id ∈ (AssetRepository.perform policy tables operation).1.deletionQueue := by
  cases operation with
  | unitOfWork work =>
    rw [AssetRepository.perform]
    split
    · exact ⟨h, nofun⟩
    · exact ⟨h.unitOfWork hpos hmax work _, fun id hid => mem_enqueueDeletions.mpr (.inr hid)⟩
  | restore request =>
    have hspec := restoreMissingAsset_spec h hfits ⟨tables, {}⟩ rfl
    rw [AssetRepository.perform]
    split
    · rename_i result t hrun
      obtain ⟨hcapped, hnone⟩ := hspec.1 _ t hrun
      exact ⟨hcapped, by simp [hnone]⟩
    · exact ⟨h.takes (takes_foldl_blobDelete _ _), nofun⟩
  | maintenance clock hasActiveRepair =>
    have hspec := maintenance_spec hpos hmax h clock hasActiveRepair ⟨tables, {}⟩ rfl
    rw [AssetRepository.perform]
    split
    · rename_i result deferred t hrun
      exact hspec.1 _ t hrun
    · exact ⟨h, nofun⟩
  | drain => exact ⟨h.drain, nofun⟩

/-- **The cap holds after every committed operation**, and what an operation selected for eviction it
has queued — provided every restore that inserts finds room. -/
theorem cache_within_cap (policy : AssetCachePolicy) (hpos : 0 < policy.maxCacheSizeBytes)
    (hmax : policy.maxCacheSizeBytes ≤ i64Max) (operations : List (AssetOperation Url))
    (hmeets : Meets (fun tables operation => (AssetRepository.perform policy tables operation).1)
      (RestoreFits policy) .empty operations) :
    liveBytes (after policy operations) ≤ policy.maxCacheSizeBytes ∧
      ∀ before operation, operations = before ++ [operation] →
        ∀ id ∈ (AssetRepository.perform policy (after policy before) operation).2,
          id ∈ (after policy operations).deletionQueue := by
  have hcapped : ∀ as : List (AssetOperation Url),
      Meets (fun tables operation => (AssetRepository.perform policy tables operation).1)
        (RestoreFits policy) .empty as → Capped policy.maxCacheSizeBytes (after policy as) := by
    intro as has
    exact run_invariant (P := Capped policy.maxCacheSizeBytes)
      (fun _ _ h hfits => (h.perform hpos.ne' hmax hfits).1) as
      ⟨List.nodup_nil, Nat.zero_le _⟩ has
  refine ⟨(hcapped operations hmeets).live, ?_⟩
  rintro before operation rfl id hid
  obtain ⟨hbefore, hlast, -⟩ := (meets_append _ _ _).mp hmeets
  rw [after, run_append]
  exact ((hcapped before hbefore).perform hpos.ne' hmax hlast).2 id hid

end Operations

/-! ## A cache of ten bytes -/

/-- A digest that tells bodies apart by their first byte. -/
@[reducible] def plainDigest : Sha2Crate where
  sha256Hex bytes :=
    String.ofList (List.replicate 63 '0' ++ [Nat.digitChar ((bytes.headD 0).toNat % 16)])

section Samples

attribute [local instance] plainDigest

def smallCache : AssetCachePolicy := ⟨10, 0, 100, 10⟩

/-- An image at `url`, of `size` bytes `body`. -/
def plainImage (url : PlainUrl) (body : UInt8) (size preparationId : ℕ) : AssetInput PlainUrl where
  sourceUrl := url
  finalUrl := url
  mediaType := "image/png"
  bytes := List.replicate size body
  occurrence := 0
  refererUrl := ⟨"https://a/", by decide⟩
  origin := none
  userAgent := none
  checksum := Sha2Crate.sha256Hex (List.replicate size body)
  preparationId := ⟨preparationId⟩

/-- A unit of work that stores one image for one article. -/
def storing (input : AssetInput PlainUrl) (reviewId : String) (blobId recordId : ℕ)
    (startedAt : DateTime) : AssetOperation PlainUrl :=
  .unitOfWork ⟨[input], [⟨true, ⟨1⟩, reviewId, [(input, ⟨⟨blobId⟩, ⟨recordId⟩, startedAt + 1⟩)]⟩],
    startedAt⟩

/-- Two images of six bytes are stored one after the other; the second evicts the first. -/
def evictingRun : List (AssetOperation PlainUrl) :=
  [storing (plainImage ⟨"https://a/p", isPlainText_firstImage⟩ 1 6 1) "first" 10 20 0,
    storing (plainImage ⟨"https://a/q", isPlainText_secondImage⟩ 2 6 2) "second" 11 21 10, .drain]

/-- The first image is fetched again, now of `size` bytes. -/
def restoring (size : ℕ) : AssetOperation PlainUrl :=
  .restore ⟨⟨20⟩, plainImage ⟨"https://a/p", isPlainText_firstImage⟩ 3 size 3,
    ⟨⟨12⟩, ⟨22⟩, 21⟩, 20, true⟩

/-- Three bytes fit beside the six. -/
theorem cache_within_cap_small : liveBytes (after smallCache (evictingRun ++ [restoring 3])) ≤ 10 :=
  (cache_within_cap smallCache (by decide) (by decide) (evictingRun ++ [restoring 3])
    ⟨trivial, trivial, trivial, fun _ => by decide +kernel, trivial⟩).1

/-- Six more do not: the restore selects the second image for eviction and forgets it, so **twelve
bytes stay**, none of them queued for deletion. -/
theorem cache_over_cap :
    ¬liveBytes (after smallCache (evictingRun ++ [restoring 6])) ≤ smallCache.maxCacheSizeBytes ∧
      (perform smallCache (after smallCache evictingRun) (restoring 6)).2 = [⟨11⟩] ∧
      (after smallCache (evictingRun ++ [restoring 6])).deletionQueue = [] := by
  decide +kernel

end Samples

end AssetRepository

end Werrss
