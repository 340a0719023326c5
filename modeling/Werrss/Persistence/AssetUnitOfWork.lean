import Werrss.Machinery.Run
import Werrss.Persistence.AssetRepository

/-!
# Persistence/AssetUnitOfWork — batches, commits, repairs and maintenance

    unit of work   prepare ─▸ [ batch ┊ batch ┊ … ] ─▸ deferred evictions into the queue ─▸ commit
    restore        own mutation state ─▸ insert ─▸ commit
    maintenance    stale and oversize blobs into the queue ─▸ orphans ─▸ commit
    drain          queued bytes deleted

The operations that change the cache, each committed as a whole or not at all.  A batch that fails
is rolled back to its savepoint and the unit of work goes on.  **A restore drops its mutation state**
when it commits.
-/

open Machinery

namespace Werrss

namespace AssetRepository

variable {Url : Type} [UrlCrate Url] [Sha2Crate]

/-! ## Batches -/

/-- `cleanup_new_blobs`. -/
def cleanupNewBlobs (tables : AssetTables) (blobIds : List Uuid) : AssetTables :=
  (blobIds.foldl AssetTables.blobDelete tables).deleteBlobs blobIds

/-- What is left of a batch that failed: the tables of its savepoint without the blobs it wrote, and
the mutation state cut back to where it was. -/
def rolledBack (savepoint failed : AssetState) : AssetState where
  tables := cleanupNewBlobs savepoint.tables
    (failed.mutation.newlyWritten.drop savepoint.mutation.newlyWritten.length)
  mutation :=
    { newlyWritten := failed.mutation.newlyWritten.take savepoint.mutation.newlyWritten.length
      deferredEvictions :=
        failed.mutation.deferredEvictions.take savepoint.mutation.deferredEvictions.length
      pendingBytes := savepoint.mutation.pendingBytes }

/-- A program behind a savepoint. -/
def atSavepoint {A : Type} (m : AssetTx A) : AssetTx A := fun s =>
  match m s with
  | (.ok a, t) => (.ok a, t)
  | (.error e, t) => (.error e, rolledBack s t)

/-- `store_for_article`. -/
def storeForArticle (context : AssetWriteContext) (sourceId : Uuid) (reviewId : String)
    (inputs : List (AssetInput Url × AssetSupply)) : AssetTx (List (StoredAsset Url)) := do
  Tx.ofExcept (validateArticleIdentity sourceId reviewId)
  Tx.ofExcept (validateInputCount context.policy (inputs.map Prod.fst))
  if inputs.isEmpty then return []
  else atSavepoint (storeInputs context sourceId reviewId inputs)

/-- `replace_for_article`. -/
def replaceForArticle (context : AssetWriteContext) (sourceId : Uuid) (reviewId : String)
    (inputs : List (AssetInput Url × AssetSupply)) : AssetTx (List (StoredAsset Url)) := do
  Tx.ofExcept (validateArticleIdentity sourceId reviewId)
  Tx.ofExcept (validateInputCount context.policy (inputs.map Prod.fst))
  atSavepoint do
    Tx.modify fun s => { s with tables := s.tables.deleteArticleAssets sourceId (trim reviewId) }
    storeInputs context sourceId reviewId inputs

/-- A batch of one article, stored or replaced. -/
structure AssetBatch (Url : Type) where
  replace : Bool
  sourceId : Uuid
  reviewId : String
  inputs : List (AssetInput Url × AssetSupply)

/-- The article of a batch, as its rows name it. -/
def AssetBatch.article (batch : AssetBatch Url) : Uuid × String :=
  (batch.sourceId, trim batch.reviewId)

def storeBatch (context : AssetWriteContext) (batch : AssetBatch Url) :
    AssetTx (List (StoredAsset Url)) :=
  if batch.replace then replaceForArticle context batch.sourceId batch.reviewId batch.inputs
  else storeForArticle context batch.sourceId batch.reviewId batch.inputs

/-! ## Units of work -/

/-- A unit of work in progress, with what its successful batches returned, newest first. -/
structure AssetSession (Url : Type) where
  state : AssetState
  stored : List ((Uuid × String) × List (StoredAsset Url))

/-- A batch of a unit of work; its failure is reported and does not end the unit of work. -/
def AssetSession.step (context : AssetWriteContext) (session : AssetSession Url)
    (batch : AssetBatch Url) : AssetSession Url :=
  match storeBatch context batch session.state with
  | (.ok assets, t) => ⟨t, (batch.article, assets) :: session.stored⟩
  | (.error _, t) => ⟨t, session.stored⟩

/-- A new unit of work. -/
def AssetSession.begin (tables : AssetTables) : AssetSession Url := ⟨⟨tables, {}⟩, []⟩

/-- `UnitOfWork::commit`. -/
def commit (s : AssetState) : AssetTables :=
  s.tables.enqueueDeletions s.mutation.deferredEvictions

/-! ## Restoring a missing asset -/

/-- A call of `restore_missing_asset`; whether the job's lease is live is the job table's answer. -/
structure AssetRestore (Url : Type) where
  assetId : Uuid
  input : AssetInput Url
  supply : AssetSupply
  startedAt : DateTime
  leaseIsLive : Bool

/-- What a restore finds to do. -/
inductive RestorePlan
  | notFound
  | alreadyAvailable
  | reuse (blobId : Uuid)
  | insert
deriving DecidableEq, Repr

/-- `AssetRepairRestoreResult`. -/
inductive AssetRepairRestoreResult
  | restored | alreadyAvailable | notFound
deriving DecidableEq, Repr

/-- The first candidate with these bytes; those behind it are not read. -/
def matchingCandidate (tables : AssetTables) (bytes : List UInt8) :
    List AssetBlobRow → Except AssetRepositoryError (Option Uuid)
  | [] => .ok none
  | row :: rows => do
    let blob ← AssetRepositoryError.ofBlobStore (tables.blobRead row.id)
    if blob.any (·.bytes = bytes) then return some row.id
    matchingCandidate tables bytes rows

/-- The first half of `restore_missing_asset`, up to the decision. -/
def restorePlan (policy : AssetCachePolicy) (tables : AssetTables) (request : AssetRestore Url) :
    Except AssetRepositoryError RestorePlan := do
  validateInput request.input policy
  let sourceUrl ← normalizeUrl request.input.sourceUrl
  let _ ← normalizeUrl request.input.finalUrl
  let byteSize ← inputByteSize request.input
  let record := tables.records.find? fun record =>
    record.id = request.assetId ∧ tables.articleAssets.any (·.assetRecordId = record.id)
  match record with
  | none => return .notFound
  | some record =>
    match (UrlCrate.parse record.sourceUrl : Option Url) with
    | none => .error .invalidMetadata
    | some recordUrl =>
      let recordUrl ← normalizeUrl recordUrl
      if UrlCrate.asStr recordUrl ≠ UrlCrate.asStr sourceUrl then .error .invalidMetadata
      let stat ← match record.blobId with
        | none => .ok none
        | some blobId =>
          if blobId ∈ tables.deletionQueue then .ok none
          else AssetRepositoryError.ofBlobStore (tables.blobStat blobId)
      if stat.any (·.present) then return .alreadyAvailable
      let found ← matchingCandidate tables request.input.bytes
        (candidateRows tables request.input.checksum byteSize)
      return match found with
        | some blobId => .reuse blobId
        | none => .insert

/-- The second half: the record points at the blob, under the job's lease. -/
def finishRestore (request : AssetRestore Url) (blobId : Uuid) :
    AssetTx AssetRepairRestoreResult :=
  if request.leaseIsLive then do
    let finalUrl ← Tx.ofExcept (normalizeUrl request.input.finalUrl)
    Tx.modify fun s => { s with
      tables := (s.tables.updateRecord request.assetId fun record =>
        { record with
          finalUrl := UrlCrate.asStr finalUrl
          blobId := some blobId
          fetchStatus := .available
          lastError := none }).touchBlob blobId request.supply.clock }
    return .restored
  else Tx.fail .leaseLost

/-- `restore_missing_asset`. -/
def restoreMissingAsset (policy : AssetCachePolicy) (request : AssetRestore Url) :
    AssetTx AssetRepairRestoreResult := do
  let s ← Tx.read
  let plan ← Tx.ofExcept (restorePlan policy s.tables request)
  match plan with
  | .notFound => return .notFound
  | .alreadyAvailable => return .alreadyAvailable
  | .reuse blobId => finishRestore request blobId
  | .insert => do
    let inserted ← insertBlob ⟨policy, none, request.startedAt⟩ request.supply request.input
      request.input.bytes.length []
    finishRestore request inserted.1

/-! ## Maintenance -/

/-- `AssetMaintenanceResult`. -/
structure AssetMaintenanceResult where
  staleBlobs : ℕ
  sizeEvictedBlobs : ℕ
  orphanRecords : ℕ
  orphanBlobs : ℕ
deriving DecidableEq, Repr

/-- The records no article shows and no active job repairs. -/
def isOrphanRecord (tables : AssetTables) (hasActiveRepair : Uuid → Bool)
    (record : AssetRecordRow) : Bool :=
  !tables.articleAssets.any (·.assetRecordId = record.id) && !hasActiveRepair record.id

/-- The blobs no record points at. -/
def orphanBlobIds (tables : AssetTables) : List Uuid :=
  (tables.blobs.filter fun row => !tables.records.any (·.blobId = some row.id)).map (·.id)

/-- Orphans are deleted with their rows. -/
def deleteOrphans (hasActiveRepair : Uuid → Bool) (tables : AssetTables) : AssetTables :=
  let kept := { tables with
    records := tables.records.filter fun record => !isOrphanRecord tables hasActiveRepair record }
  ((orphanBlobIds kept).foldl AssetTables.blobDelete kept).deleteBlobs (orphanBlobIds kept)

/-- `maintenance`, at `clock`, with the evictions it queued; which records have an active repair job
is the job table's answer. -/
def maintenance (policy : AssetCachePolicy) (clock : DateTime) (hasActiveRepair : Uuid → Bool) :
    AssetTx (AssetMaintenanceResult × List Uuid) :=
  if i64Max < policy.maxAge / 1000000000 then
    Tx.fail (.storage "asset max age exceeds PostgreSQL range")
  else do
    let s ← Tx.read
    let stale := if policy.maxAge = 0 then []
      else s.tables.evictStaleBlobs (policy.maxAge / 1000000000) clock
    Tx.modify fun s => { s with
      tables := s.tables.markMissing stale "asset bytes evicted by age policy" }
    let evicted ← enforceCacheLimit ⟨policy.maxCacheSizeBytes, 0, [], 0, [], stale⟩
    Tx.modify fun s => { s with tables := s.tables.enqueueDeletions evicted.2 }
    let queued ← Tx.read
    Tx.modify fun s => { s with tables := deleteOrphans hasActiveRepair s.tables }
    let t ← Tx.read
    return (⟨stale.length, evicted.1, queued.tables.records.length - t.tables.records.length,
      queued.tables.blobs.length - t.tables.blobs.length⟩, evicted.2)

/-! ## Operations on the committed tables -/

/-- A unit of work: what it prepares, and its batches. -/
structure AssetUnitOfWork (Url : Type) where
  prepared : List (AssetInput Url)
  batches : List (AssetBatch Url)
  startedAt : DateTime

/-- What commits to the asset tables. -/
inductive AssetOperation (Url : Type)
  | unitOfWork (work : AssetUnitOfWork Url)
  | restore (request : AssetRestore Url)
  | maintenance (clock : DateTime) (hasActiveRepair : Uuid → Bool)
  | drain

/-- The unit of work right before its commit. -/
def AssetUnitOfWork.run (policy : AssetCachePolicy) (work : AssetUnitOfWork Url)
    (tables : AssetTables) (preparation : AssetBatchPreparation) : AssetSession Url :=
  Machinery.run (AssetSession.step ⟨policy, some preparation, work.startedAt⟩)
    (AssetSession.begin tables) work.batches

/-- **One operation**: the tables it leaves, and the blobs `enforce_cache_limit` selected for
eviction in what it committed. -/
def perform (policy : AssetCachePolicy) (tables : AssetTables) :
    AssetOperation Url → AssetTables × List Uuid
  | .unitOfWork work =>
    match prepareAssetBatch tables work.prepared with
    | .error _ => (tables, [])
    | .ok preparation =>
      let session := work.run policy tables preparation
      (commit session.state, session.state.mutation.deferredEvictions)
  | .restore request =>
    match restoreMissingAsset policy request ⟨tables, {}⟩ with
    | (.ok _, t) => (t.tables, t.mutation.deferredEvictions)
    | (.error _, t) => (t.mutation.newlyWritten.foldl AssetTables.blobDelete tables, [])
  | .maintenance clock hasActiveRepair =>
    match Werrss.AssetRepository.maintenance policy clock hasActiveRepair ⟨tables, {}⟩ with
    | (.ok (_, deferred), t) => (t.tables, deferred)
    | (.error _, _) => (tables, [])
  | .drain => (tables.drainBlobDeletionQueue, [])

/-- The tables after `operations`, from the empty store. -/
def after (policy : AssetCachePolicy) (operations : List (AssetOperation Url)) : AssetTables :=
  Machinery.run (fun tables operation => (perform policy tables operation).1) .empty operations

end AssetRepository

end Werrss
