import Werrss.Persistence.AssetTables

/-!
# Persistence/AssetRepository — preparing a batch, and storing its inputs

    input ─▸ same URL, same blob? ─▸ known body? ─▸ evict until it fits ─▸ new blob
                   └─▸ reuse record      └─▸ new record ◂───────────────────┘

Everything runs under the capacity lock, so a transaction is a program over the tables and the
in-memory mutation state.  **An eviction is only an intent**, kept in the mutation state; both reuse
paths look for a pending deletion in the deletion queue alone.
-/

open Machinery

namespace Werrss

/-- What the surroundings provide to one store: `Uuid::new_v4` for a blob and for a record, and
`clock_timestamp()`. -/
structure AssetSupply where
  blobId : Uuid
  recordId : Uuid
  clock : DateTime
deriving DecidableEq, Repr

namespace AssetRepository

variable {Url : Type} [UrlCrate Url] [Sha2Crate]

/-! ## Preparation -/

/-- `AssetBatchPreparation`: two maps from preparation ids, the newest entry first. -/
structure AssetBatchPreparation where
  matchingBlobs : List (Uuid × Option Uuid)
  matchingInputs : List (Uuid × Uuid)
deriving DecidableEq

/-- `AssetBatchPreparation::matching_blob`. -/
def AssetBatchPreparation.matchingBlob (preparation : AssetBatchPreparation)
    (input : AssetInput Url) : Except AssetRepositoryError (Option Uuid) :=
  match preparation.matchingBlobs.lookup input.preparationId with
  | some found => .ok found
  | none => .error .preparationRequired

/-- `AssetBatchPreparation::matching_input`. -/
def AssetBatchPreparation.matchingInput (preparation : AssetBatchPreparation)
    (input : AssetInput Url) : Option Uuid :=
  preparation.matchingInputs.lookup input.preparationId

/-- The order of a `BTreeSet` of checksums with sizes. -/
def keyLe (a b : String × ℕ) : Prop := a.1 < b.1 ∨ (a.1 = b.1 ∧ a.2 ≤ b.2)

instance : DecidableRel keyLe := fun a b =>
  inferInstanceAs (Decidable (a.1 < b.1 ∨ (a.1 = b.1 ∧ a.2 ≤ b.2)))

/-- The blobs of one checksum and size that are not queued for deletion, by id. -/
def candidateRows (tables : AssetTables) (checksum : String) (byteSize : ℕ) : List AssetBlobRow :=
  let rows := tables.blobs.filter fun row =>
    row.checksum = checksum ∧ row.byteSize = byteSize ∧ row.id ∉ tables.deletionQueue
  rows.insertionSort fun a b => a.id.value ≤ b.id.value

/-- Those of them that have their bytes. -/
def candidateBlobs (tables : AssetTables) (checksum : String) (byteSize : ℕ) :
    Except AssetRepositoryError (List (Uuid × AssetBlob)) := do
  let blobs ← (candidateRows tables checksum byteSize).mapM fun row => do
    let blob ← AssetRepositoryError.ofBlobStore (tables.blobRead row.id)
    return blob.map fun blob => (row.id, blob)
  return blobs.reduceOption

/-- For each input the first one before it with the same body. -/
def matchPrevious : List (AssetInput Url) → List (AssetInput Url) → List (Uuid × Uuid) →
    List (Uuid × Uuid)
  | _, [], found => found
  | previous, input :: inputs, found =>
    let earlier := previous.find? fun other =>
      other.checksum = input.checksum
        ∧ (inputByteSize other).toOption = (inputByteSize input).toOption
        ∧ other.bytes = input.bytes
    matchPrevious (previous ++ [input]) inputs
      (match earlier with
        | some other => (input.preparationId, other.preparationId) :: found
        | none => found)

/-- `prepare_asset_batch`. -/
def prepareAssetBatch (tables : AssetTables) (inputs : List (AssetInput Url)) :
    Except AssetRepositoryError AssetBatchPreparation := do
  let keys ← inputs.mapM fun input => do
    let byteSize ← inputByteSize input
    return (input.checksum, byteSize)
  let matchingBlobs ← ((keys.insertionSort keyLe).dedup).foldlM
    (fun found key => do
      let candidates ← candidateBlobs tables key.1 key.2
      let keyed := inputs.filter fun input =>
        input.checksum = key.1 ∧ (inputByteSize input).toOption = some key.2
      return keyed.foldl (fun found input =>
        (input.preparationId, candidates.findSome? fun candidate =>
          if candidate.2.bytes = input.bytes then some candidate.1 else none) :: found) found)
    (inputs.map fun input => (input.preparationId, none))
  return ⟨matchingBlobs, matchPrevious [] inputs []⟩

/-! ## The size limit -/

structure CacheLimit where
  maxBytes : ℕ
  additionalBytes : ℕ
  protectedBlobIds : List Uuid
  pendingBytes : ℕ
  pendingBlobIds : List Uuid
  deferredEvictions : List Uuid

/-- The loop of `enforce_cache_limit`, with its running total, the deferred evictions and their
count.  The fuel is the number of rows: a row is evicted at most once. -/
def evictLoop (limit : CacheLimit) : ℕ → ℤ → List Uuid → ℕ → AssetTx (ℕ × List Uuid)
  | 0, total, deferred, evicted =>
    if total + limit.additionalBytes ≤ limit.maxBytes then pure (evicted, deferred)
    else Tx.fail (.capacityExceeded limit.additionalBytes limit.maxBytes)
  | fuel + 1, total, deferred, evicted =>
    if total + limit.additionalBytes ≤ limit.maxBytes then pure (evicted, deferred)
    else do
      let s ← Tx.read
      match s.tables.oldestStored (limit.protectedBlobIds ++ deferred) with
      | none => Tx.fail (.capacityExceeded limit.additionalBytes limit.maxBytes)
      | some row => do
        Tx.modify fun s => { s with
          tables := s.tables.markMissing [row.id] "asset bytes evicted by size policy" }
        evictLoop limit fuel (saturatingSub total row.byteSize) (deferred ++ [row.id]) (evicted + 1)

/-- `enforce_cache_limit`: how many blobs were evicted, and all deferred evictions. -/
def enforceCacheLimit (limit : CacheLimit) : AssetTx (ℕ × List Uuid) :=
  if limit.maxBytes = 0 ∨ i64Max < limit.maxBytes then pure (0, limit.deferredEvictions)
  else if i64Max < limit.additionalBytes ∨ limit.maxBytes < limit.additionalBytes
      ∨ i64Max < limit.pendingBytes then
    Tx.fail (.capacityExceeded limit.additionalBytes limit.maxBytes)
  else do
    let s ← Tx.read
    let cached ← Tx.ofExcept
      (s.tables.cachedByteSize (limit.pendingBlobIds ++ limit.deferredEvictions))
    if i64Max < cached + limit.pendingBytes then
      Tx.fail (.capacityExceeded limit.additionalBytes limit.maxBytes)
    else
      evictLoop limit s.tables.blobs.length (cached + limit.pendingBytes : ℕ)
        limit.deferredEvictions 0

/-! ## Storing one input -/

/-- `AssetWriteContext`, with the start of the transaction. -/
structure AssetWriteContext where
  policy : AssetCachePolicy
  preparation : Option AssetBatchPreparation
  startedAt : DateTime

/-- The limit `insert_blob` enforces. -/
def insertLimit (policy : AssetCachePolicy) (mutation : AssetMutationState) (byteSize : ℕ)
    (protectedBlobIds : List Uuid) : CacheLimit where
  maxBytes := policy.maxCacheSizeBytes
  additionalBytes := byteSize
  protectedBlobIds := protectedBlobIds
  pendingBytes := mutation.pendingBytes
  pendingBlobIds := mutation.newlyWritten
  deferredEvictions := mutation.deferredEvictions

/-- `insert_blob`.  The second insert of the source finds the row the put has written. -/
def insertBlob (context : AssetWriteContext) (supply : AssetSupply) (input : AssetInput Url)
    (byteSize : ℕ) (protectedBlobIds : List Uuid) : AssetTx (Uuid × String) := do
  let before ← Tx.read
  let evicted ← enforceCacheLimit
    (insertLimit context.policy before.mutation byteSize protectedBlobIds)
  Tx.modify fun s => { s with mutation := { s.mutation with deferredEvictions := evicted.2 } }
  let blob ← Tx.ofExcept (AssetRepositoryError.ofBlobStore
    (AssetBlob.new input.bytes input.mediaType input.checksum))
  let s ← Tx.read
  let tables ← Tx.ofExcept (AssetRepositoryError.ofBlobStore
    (s.tables.blobPut supply.blobId blob context.startedAt supply.clock))
  Tx.modify fun s => ⟨tables,
    { s.mutation with newlyWritten := s.mutation.newlyWritten ++ [supply.blobId] }⟩
  if before.mutation.pendingBytes + blob.byteSize ≤ u64Max then do
    Tx.modify fun s => { s with
      mutation := { s.mutation with pendingBytes := before.mutation.pendingBytes + blob.byteSize } }
    return (supply.blobId, input.mediaType)
  else Tx.fail (.storage "asset batch byte count overflow")

/-- Both reuse paths: the row is still there, is not queued for deletion, and has its bytes. -/
def usableBlob (blobId : Uuid) (checksum : String) (byteSize : ℕ) :
    AssetTx (Option AssetBlobMetadata) := do
  let s ← Tx.read
  if (s.tables.blobs.any fun row =>
        row.id = blobId && row.checksum = checksum && row.byteSize = byteSize)
      ∧ blobId ∉ s.tables.deletionQueue then do
    let metadata ← Tx.ofExcept (AssetRepositoryError.ofBlobStore (s.tables.blobStat blobId))
    return metadata.filter fun metadata =>
      metadata.present && metadata.checksum = checksum && metadata.byteSize = byteSize
  else return none

/-- The same-URL fast path of `store_one`. -/
def reuseCurrent (preparation : AssetBatchPreparation) (supply : AssetSupply)
    (input : AssetInput Url) (sourceUrl finalUrl : Url) (byteSize : ℕ)
    (current : Option AssetRecordRow) : AssetTx (Option (StoredAsset Url)) :=
  match current with
  | none => pure none
  | some record => do
    let s ← Tx.read
    let joined := record.blobId.bind s.tables.findBlob
    let prepared ← Tx.ofExcept (preparation.matchingBlob input)
    if prepared = record.blobId ∧ joined.map (·.checksum) = some input.checksum
        ∧ joined.map (·.byteSize) = some byteSize then
      match record.blobId with
      | none => Tx.fail .invalidMetadata
      | some blobId => do
        let usable ← usableBlob blobId input.checksum byteSize
        match usable with
        | none => return none
        | some metadata => do
          Tx.modify fun s => { s with
            tables := (s.tables.updateRecord record.id fun record =>
              { record with
                finalUrl := UrlCrate.asStr finalUrl
                fetchStatus := .available
                lastError := none }).touchBlob blobId supply.clock }
          return some ⟨record.id, sourceUrl, blobId, input.checksum, metadata.mediaType, byteSize⟩
    else return none

/-- The blob of a new record: a match of this batch or of the preparation, else a new blob. -/
def placeBlob (context : AssetWriteContext) (preparation : AssetBatchPreparation)
    (supply : AssetSupply) (input : AssetInput Url) (byteSize : ℕ) (protectedBlobIds : List Uuid)
    (batchBlobs : List (Uuid × Uuid)) : AssetTx (Uuid × String) := do
  let batchMatch := (preparation.matchingInput input).bind (List.lookup · batchBlobs)
  let preparedMatch ← Tx.ofExcept (preparation.matchingBlob input)
  match batchMatch.or preparedMatch with
  | none => insertBlob context supply input byteSize protectedBlobIds
  | some blobId => do
    let usable ← usableBlob blobId input.checksum byteSize
    match usable with
    | none => insertBlob context supply input byteSize protectedBlobIds
    | some metadata => do
      Tx.modify fun s => { s with tables := s.tables.touchBlob blobId supply.clock }
      return (blobId, metadata.mediaType)

/-- `store_one`. -/
def storeOne (context : AssetWriteContext) (supply : AssetSupply) (input : AssetInput Url)
    (protectedBlobIds : List Uuid) (batchBlobs : List (Uuid × Uuid)) :
    AssetTx (StoredAsset Url) :=
  match context.preparation with
  | none => Tx.fail .preparationRequired
  | some preparation => do
    let sourceUrl ← Tx.ofExcept (normalizeUrl input.sourceUrl)
    let finalUrl ← Tx.ofExcept (normalizeUrl input.finalUrl)
    let byteSize ← Tx.ofExcept (inputByteSize input)
    let s ← Tx.read
    let current := s.tables.latestRecord (UrlCrate.asStr sourceUrl)
    let reused ← reuseCurrent preparation supply input sourceUrl finalUrl byteSize current
    match reused with
    | some asset => return asset
    | none => do
      let placed ← placeBlob context preparation supply input byteSize protectedBlobIds batchBlobs
      let version := (current.map (·.version)).getD 0 + 1
      if version ≤ i64Max then do
        Tx.modify fun s => { s with
          tables := { s.tables with
            records := s.tables.records ++ [⟨supply.recordId, UrlCrate.asStr sourceUrl, version,
              UrlCrate.asStr finalUrl, some placed.1, .available, none⟩] } }
        return ⟨supply.recordId, sourceUrl, placed.1, input.checksum, placed.2, byteSize⟩
      else Tx.fail (.storage "asset version overflow")

/-- `attach`. -/
def attach (sourceId : Uuid) (reviewId : String) (input : AssetInput Url) (assetId : Uuid) :
    AssetTx Unit :=
  if input.occurrence ≤ 2147483647 then
    Tx.modify fun s => { s with
      tables := s.tables.upsertArticleAsset ⟨sourceId, trim reviewId, assetId, input.occurrence,
        UrlCrate.asStr input.refererUrl, input.origin, input.userAgent⟩ }
  else Tx.fail .invalidMetadata

/-- One round of the loop of `store_inputs`. -/
def storeInput (context : AssetWriteContext) (sourceId : Uuid) (reviewId : String)
    (supply : AssetSupply) (input : AssetInput Url) (protectedBlobIds : List Uuid)
    (batchBlobs : List (Uuid × Uuid)) : AssetTx (StoredAsset Url) := do
  Tx.ofExcept (validateInput input context.policy)
  let asset ← storeOne context supply input protectedBlobIds batchBlobs
  attach sourceId reviewId input asset.id
  return asset

/-- Blobs this batch has returned are not evicted by its later inputs. -/
def protect (protectedBlobIds : List Uuid) (blobId : Uuid) : List Uuid :=
  if blobId ∈ protectedBlobIds then protectedBlobIds else protectedBlobIds ++ [blobId]

/-- The loop of `store_inputs`. -/
def storeEach (context : AssetWriteContext) (sourceId : Uuid) (reviewId : String) :
    List (AssetInput Url × AssetSupply) → List Uuid → List (Uuid × Uuid) →
    AssetTx (List (StoredAsset Url))
  | [], _, _ => pure []
  | (input, supply) :: inputs, protectedBlobIds, batchBlobs => do
    let asset ← storeInput context sourceId reviewId supply input protectedBlobIds batchBlobs
    let stored ← storeEach context sourceId reviewId inputs (protect protectedBlobIds asset.blobId)
      ((input.preparationId, asset.blobId) :: batchBlobs)
    return asset :: stored

/-- `store_inputs`. -/
def storeInputs (context : AssetWriteContext) (sourceId : Uuid) (reviewId : String)
    (inputs : List (AssetInput Url × AssetSupply)) : AssetTx (List (StoredAsset Url)) :=
  match context.preparation with
  | none => Tx.fail .preparationRequired
  | some _ => storeEach context sourceId reviewId inputs [] []

end AssetRepository

end Werrss
