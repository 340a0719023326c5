import Mathlib.Data.List.Sort
import Werrss.Archive.AssetStore
import Werrss.Machinery.Transaction

/-!
# Persistence/AssetTables — the rows of the asset cache, and the statements over them

    article_assets ──▸ asset_records ──▸ asset_blobs        asset_blob_deletion_queue
      occurrence         URL, version      bytes, LRU             blob ids

The blob backend is the built-in one: the bytes are a column of `asset_blobs`, so they are written
and deleted inside the caller's transaction.  Deleting bytes keeps the row.
-/

open Machinery

namespace Werrss

/-! ## Rows -/

/-- A row of `asset_blobs`; its size is a `BIGINT`. -/
structure AssetBlobRow where
  id : Uuid
  checksum : String
  byteSize : ℕ
  byteSize_le : byteSize ≤ i64Max
  mediaType : String
  data : Option (List UInt8)
  lastAccessedAt : DateTime
deriving DecidableEq

inductive FetchStatus
  | available | missing | failed
deriving DecidableEq, Repr

/-- A row of `asset_records`. -/
structure AssetRecordRow where
  id : Uuid
  sourceUrl : String
  version : ℕ
  finalUrl : String
  blobId : Option Uuid
  fetchStatus : FetchStatus
  lastError : Option String
deriving DecidableEq, Repr

/-- A row of `article_assets`, of role `body`. -/
structure ArticleAssetRow where
  sourceId : Uuid
  reviewId : String
  assetRecordId : Uuid
  occurrence : ℕ
  refererUrl : String
  origin : Option String
  userAgent : Option String
deriving DecidableEq, Repr

structure AssetTables where
  blobs : List AssetBlobRow
  records : List AssetRecordRow
  articleAssets : List ArticleAssetRow
  deletionQueue : List Uuid
deriving DecidableEq

/-- `AssetMutationState`: what must follow the outcome of the enclosing unit of work. -/
structure AssetMutationState where
  newlyWritten : List Uuid := []
  deferredEvictions : List Uuid := []
  pendingBytes : ℕ := 0
deriving DecidableEq

/-- A transaction in progress. -/
structure AssetState where
  tables : AssetTables
  mutation : AssetMutationState
deriving DecidableEq

/-- The programs of the repository. -/
abbrev AssetTx (A : Type) := Tx AssetState AssetRepositoryError A

/-- `ORDER BY last_accessed_at ASC, id ASC`. -/
def AssetBlobRow.older (a b : AssetBlobRow) : Bool :=
  a.lastAccessedAt < b.lastAccessedAt ||
    (a.lastAccessedAt == b.lastAccessedAt && a.id.value ≤ b.id.value)

/-- The first row in that order. -/
def AssetBlobRow.oldest : List AssetBlobRow → Option AssetBlobRow
  | [] => none
  | row :: rows =>
    match oldest rows with
    | none => some row
    | some other => if row.older other then some row else some other

namespace AssetTables

/-- Tables without a row. -/
def empty : AssetTables := ⟨[], [], [], []⟩

/-! ## Blobs -/

def findBlob (t : AssetTables) (blobId : Uuid) : Option AssetBlobRow :=
  t.blobs.find? (·.id = blobId)

/-- An `UPDATE asset_blobs … WHERE id = blobId`. -/
def updateBlob (t : AssetTables) (blobId : Uuid) (f : AssetBlobRow → AssetBlobRow) : AssetTables :=
  { t with blobs := t.blobs.map fun row => if row.id = blobId then f row else row }

/-- `SET last_accessed_at = clock_timestamp()`. -/
def touchBlob (t : AssetTables) (blobId : Uuid) (clock : DateTime) : AssetTables :=
  t.updateBlob blobId fun row => { row with lastAccessedAt := clock }

/-- `stat_in_transaction`. -/
def blobStat (t : AssetTables) (blobId : Uuid) :
    Except AssetBlobStoreError (Option AssetBlobMetadata) :=
  match t.findBlob blobId with
  | none => .ok none
  | some row =>
    (AssetBlobMetadata.new row.checksum row.mediaType row.byteSize row.data.isSome).map some

/-- `read_in_transaction`. -/
def blobRead [Sha2Crate] (t : AssetTables) (blobId : Uuid) :
    Except AssetBlobStoreError (Option AssetBlob) :=
  match t.findBlob blobId with
  | none => .ok none
  | some row =>
    match row.data with
    | none => .ok none
    | some bytes =>
      if row.byteSize ≠ bytes.length then .error .invalidMetadata
      else (AssetBlob.new bytes row.mediaType row.checksum).map some

/-- `put_in_transaction`: a new row is last accessed at `CURRENT_TIMESTAMP`, the start of the
transaction; a row that has lost its bytes gets them back. -/
def blobPut (t : AssetTables) (blobId : Uuid) (blob : AssetBlob) (startedAt clock : DateTime) :
    Except AssetBlobStoreError AssetTables :=
  if h : blob.byteSize ≤ i64Max then
    match t.findBlob blobId with
    | none =>
      .ok { t with
        blobs := t.blobs ++
          [⟨blobId, blob.checksum, blob.byteSize, h, blob.mediaType, some blob.bytes, startedAt⟩] }
    | some row =>
      if row.checksum ≠ blob.checksum ∨ row.mediaType ≠ blob.mediaType
          ∨ row.byteSize ≠ blob.byteSize ∨ row.data.any (· ≠ blob.bytes) then
        .error .conflict
      else if row.data.isNone then
        .ok (t.updateBlob blobId fun row =>
          { row with data := some blob.bytes, lastAccessedAt := clock })
      else .ok t
  else .error .sizeOverflow

/-- `delete_in_transaction`. -/
def blobDelete (t : AssetTables) (blobId : Uuid) : AssetTables :=
  t.updateBlob blobId fun row => { row with data := none }

/-- `DELETE FROM asset_blobs WHERE id = ANY(…)`; a record that pointed there points nowhere. -/
def deleteBlobs (t : AssetTables) (blobIds : List Uuid) : AssetTables :=
  { t with
    blobs := t.blobs.filter (·.id ∉ blobIds)
    records := t.records.map fun record =>
      if record.blobId.any (· ∈ blobIds) then { record with blobId := none } else record }

/-- `cached_byte_size`: the sum is cast to a `BIGINT`. -/
def cachedByteSize (t : AssetTables) (excludedBlobIds : List Uuid) :
    Except AssetRepositoryError ℕ :=
  let total :=
    ((t.blobs.filter fun row => row.data.isSome && row.id ∉ excludedBlobIds).map (·.byteSize)).sum
  if total ≤ i64Max then .ok total else .error (.storage "bigint out of range")

/-- `oldest_stored`. -/
def oldestStored (t : AssetTables) (protectedBlobIds : List Uuid) : Option AssetBlobRow :=
  AssetBlobRow.oldest (t.blobs.filter fun row => row.data.isSome && row.id ∉ protectedBlobIds)

/-- The rows `evict_stale_blobs` finds at `clock`. -/
def evictStaleBlobs (t : AssetTables) (seconds : ℕ) (clock : DateTime) : List Uuid :=
  let rows := t.blobs.filter fun row => row.lastAccessedAt < clock - seconds * 1000000000
  ((rows.insertionSort fun a b => a.older b = true).filter (·.data.isSome)).map (·.id)

/-! ## Records and relationships -/

/-- The newest version of a source URL. -/
def latestRecord (t : AssetTables) (sourceUrl : String) : Option AssetRecordRow :=
  (t.records.filter (·.sourceUrl = sourceUrl)).foldl
    (fun best record =>
      match best with
      | none => some record
      | some other => if other.version < record.version then some record else some other) none

/-- An `UPDATE asset_records … WHERE id = recordId`. -/
def updateRecord (t : AssetTables) (recordId : Uuid) (f : AssetRecordRow → AssetRecordRow) :
    AssetTables :=
  { t with records := t.records.map fun record => if record.id = recordId then f record else record }

/-- The available records of these blobs go missing. -/
def markMissing (t : AssetTables) (blobIds : List Uuid) (lastError : String) : AssetTables :=
  { t with
    records := t.records.map fun record =>
      if record.blobId.any (· ∈ blobIds) ∧ record.fetchStatus = .available then
        { record with fetchStatus := .missing, lastError := some lastError }
      else record }

def deleteArticleAssets (t : AssetTables) (sourceId : Uuid) (reviewId : String) : AssetTables :=
  { t with
    articleAssets := t.articleAssets.filter fun row =>
      ¬(row.sourceId = sourceId ∧ row.reviewId = reviewId) }

/-- `INSERT INTO article_assets … ON CONFLICT (source_id, review_id, occurrence) DO UPDATE`. -/
def upsertArticleAsset (t : AssetTables) (new : ArticleAssetRow) : AssetTables :=
  let clashes (row : ArticleAssetRow) : Bool :=
    row.sourceId = new.sourceId && row.reviewId = new.reviewId && row.occurrence = new.occurrence
  { t with
    articleAssets :=
      if t.articleAssets.any clashes then
        t.articleAssets.map fun row => if clashes row then new else row
      else t.articleAssets ++ [new] }

/-! ## The deletion queue -/

/-- `INSERT INTO asset_blob_deletion_queue … ON CONFLICT DO NOTHING`, in a loop. -/
def enqueueDeletions (t : AssetTables) (blobIds : List Uuid) : AssetTables :=
  { t with
    deletionQueue := blobIds.foldl
      (fun queue blobId => if blobId ∈ queue then queue else queue ++ [blobId]) t.deletionQueue }

/-- `drain_blob_deletion_queue`. -/
def drainBlobDeletionQueue (t : AssetTables) : AssetTables :=
  { t.deletionQueue.foldl blobDelete t with deletionQueue := [] }

end AssetTables

end Werrss
