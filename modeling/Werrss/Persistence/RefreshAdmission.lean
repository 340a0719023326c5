import Werrss.Persistence.ConfigImport
import Werrss.Persistence.RefreshLineage

/-!
# Persistence/RefreshAdmission — the generations of an expired asset, and who starts them

    expiry      ─▸ the next generation ─▸ snapshot of the articles ─▸ first eligible entry ─▸ job
    cache miss  ─▸ chain active   a follow-up is asked for
                   work pending   the served generation goes on, or the requested one starts

    completed ≤ served ≤ requested      one chain at a time

A generation is a snapshot of the articles that use the asset; its chain refreshes them one after
the other.  What comes while a chain runs is put off to a follow-up generation.
-/

open Machinery

namespace Werrss

/-- `AssetRepairEnqueueResult`. -/
inductive AssetRepairEnqueueResult
  | enqueued (jobId : Uuid)
  | alreadyActive (jobId : Uuid)
  | notFound | alreadyAvailable | capacityFull | backoff | exhausted | retryable
deriving DecidableEq, Repr

/-- `AssetRefreshAdmissionResult`. -/
inductive AssetRefreshAdmissionResult
  | noEligibleArticle
  | enqueued (jobId chainId : Uuid) (generation ordinal : ℤ)
  | alreadyHandled
deriving DecidableEq, Repr

/-- A refresh job was admitted, or the caller may come back. -/
def AssetRepairEnqueueResult.ofJob : Option Uuid → AssetRepairEnqueueResult
  | some jobId => .enqueued jobId
  | none => .retryable

/-- The CHECKs of `asset_record_refresh_state`, and the range of its columns. -/
def RefreshStateRow.check (row : RefreshStateRow) : Bool :=
  decide (0 ≤ row.completedGeneration) && decide (row.completedGeneration ≤ row.servedGeneration)
    && decide (row.servedGeneration ≤ row.requestedGeneration)
    && decide (row.requestedGeneration ≤ i64Max)

/-- One of the unique keys of `asset_refresh_generation_entries` is the same. -/
def RefreshEntryRow.clashes (entry other : RefreshEntryRow) : Bool :=
  other.isOf entry.assetRecordId entry.generation
    && (decide (other.ordinal = entry.ordinal) || decide (other.article = entry.article))

namespace RefreshLineage

open AssetRepository
open ConfigTransfer (Collation)

/-! ## The state of an asset -/

/-- The row an asset gets in `asset_record_refresh_state`. -/
def writeState (assetId : Uuid) (row : RefreshStateRow) : RecoveryTx Unit :=
  if row.check then
    Tx.modify fun s => s.withRecovery fun t =>
      { t with states := Function.update t.states assetId (some row) }
  else Tx.fail (.storage
    "new row for relation \"asset_record_refresh_state\" violates check constraint")

/-- `UPDATE asset_record_refresh_state SET … WHERE asset_record_id = …`. -/
def updateState (assetId : Uuid) (assign : RefreshStateRow → RefreshStateRow) :
    RecoveryTx Unit := do
  let s ← Tx.read
  match s.recovery.states assetId with
  | none => pure ()
  | some row => writeState assetId (assign row)

/-- `SET requested_generation = GREATEST(requested_generation, served_generation + 1)`. -/
def requestFollowUp (assetId : Uuid) : RecoveryTx Unit :=
  updateState assetId fun row =>
    { row with requestedGeneration := max row.requestedGeneration (row.servedGeneration + 1) }

/-- `SET completed_generation = …`. -/
def setCompleted (assetId : Uuid) (generation : ℤ) : RecoveryTx Unit :=
  updateState assetId fun row => { row with completedGeneration := generation }

/-! ## Snapshots -/

section Snapshots

variable [Collation]

/-- `ORDER BY source_id, review_id`. -/
def articleLe (a b : ArticleKey) : Bool :=
  decide (a.1.value < b.1.value) || (decide (a.1 = b.1) && Collation.le a.2 b.2)

/-- The articles that use the asset. -/
def liveArticles (s : RecoveryState) (assetId : Uuid) : List ArticleKey :=
  (((s.assets.tables.articleAssets.filter (·.assetRecordId = assetId)).map fun row =>
    (row.sourceId, row.reviewId)).dedup).insertionSort fun a b => articleLe a b = true

/-- The entries of a new snapshot, numbered from one. -/
def snapshotEntries (s : RecoveryState) (assetId : Uuid) (generation : ℤ) : List RefreshEntryRow :=
  (liveArticles s assetId).zipIdx.map fun numbered =>
    { assetRecordId := assetId
      generation := generation
      ordinal := numbered.2 + 1
      sourceId := numbered.1.1
      reviewId := numbered.1.2
      state := .unseen
      notBefore := none }

/-- An entry the constraints of the table refuse. -/
def isRefused (s : RecoveryState) (entry : RefreshEntryRow) : Bool :=
  s.recovery.entries.any entry.clashes || isSpaces entry.reviewId
    || decide (entry.generation ≤ 0) || (s.recovery.states entry.assetRecordId).isNone

/-- `snapshot_asset_generation`: the number of entries of the generation. -/
def snapshotAssetGeneration (assetId : Uuid) (generation : ℤ) : RecoveryTx ℕ := do
  let s ← Tx.read
  if (snapshotEntries s assetId generation).any (isRefused s) then
    Tx.fail (.storage
      "new row for relation \"asset_refresh_generation_entries\" violates a constraint")
  else do
    Tx.modify fun s => s.withRecovery fun t =>
      { t with entries := t.entries ++ snapshotEntries s assetId generation }
    let s ← Tx.read
    return (s.recovery.entries.filter (·.isOf assetId generation)).length

end Snapshots

/-- `mark_exhausted_refresh_entries`. -/
def markExhaustedRefreshEntries (policy : RecoveryPolicy) (assetId : Uuid) (generation : ℤ) :
    RecoveryTx Unit :=
  Tx.modify fun s => s.withRecovery fun t => t.updateEntries
    (fun entry => entry.isOf assetId generation && entry.isPending
      && (t.lineage entry.article).any fun row =>
        row.exhausted || decide (policy.maxAttempts ≤ row.attempts)) RefreshEntryRow.finish

/-- `refresh_generation_completed`. -/
def refreshGenerationCompleted (assetId : Uuid) (generation : ℤ) : RecoveryTx Bool := do
  let s ← Tx.read
  match s.recovery.states assetId with
  | none => Tx.fail (.storage "no rows returned by a query that expected to return at least one row")
  | some row =>
    return decide (generation ≤ row.completedGeneration) || !s.recovery.entries.any fun entry =>
      entry.isOf assetId generation && decide (entry.state ≠ .done)

/-! ## Follow-ups -/

section Generations

variable [Collation]

/-- `start_follow_up_generation`. -/
def startFollowUpGeneration (policy : RecoveryPolicy) (clock : DateTime) (supply : AdmissionSupply)
    (assetId : Uuid) (generation : ℤ) : RecoveryTx (Option Uuid) := do
  let s ← Tx.read
  match s.recovery.states assetId with
  | none => pure none
  | some row =>
    if generation ≤ row.requestedGeneration ∧ row.servedGeneration < generation
        ∧ row.activeChainId = none then do
      writeState assetId { row with servedGeneration := generation }
      let count ← snapshotAssetGeneration assetId generation
      if count = 0 then do
        setCompleted assetId generation
        pure none
      else do
        markExhaustedRefreshEntries policy assetId generation
        completeGenerationIfTerminal assetId generation
        let selection ← selectRefreshEntry policy clock assetId generation none
        match selection with
        | none => pure none
        | some entry => admitRefreshEntry policy clock assetId generation supply entry true
    else pure none

/-- `resume_follow_up_generation`. -/
def resumeFollowUpGeneration (policy : RecoveryPolicy) (clock : DateTime)
    (supply : AdmissionSupply) (assetId : Uuid) (served : ℤ) :
    RecoveryTx AssetRepairEnqueueResult := do
  let completed ← refreshGenerationCompleted assetId served
  if !completed then return .retryable
  else do
    let s ← Tx.read
    let row := (s.recovery.states assetId).getD ⟨0, 0, 0, none⟩
    if row.requestedGeneration ≤ row.servedGeneration then return .retryable
    else do
      let jobId ← startFollowUpGeneration policy clock supply assetId row.requestedGeneration
      return .ofJob jobId

/-- The served generation of an asset goes on, or its follow-up starts. -/
def resumeServedGeneration (policy : RecoveryPolicy) (clock : DateTime) (supply : AdmissionSupply)
    (assetId : Uuid) (served : ℤ) : RecoveryTx AssetRepairEnqueueResult := do
  markExhaustedRefreshEntries policy assetId served
  let selection ← selectRefreshEntry policy clock assetId served none
  match selection with
  | none => do
    completeGenerationIfTerminal assetId served
    resumeFollowUpGeneration policy clock supply assetId served
  | some entry => do
    let jobId ← admitRefreshEntry policy clock assetId served supply entry true
    return .ofJob jobId

/-- `resume_refresh_after_cache_miss`: `none` when no refresh of the asset is under way. -/
def resumeRefreshAfterCacheMiss (policy : RecoveryPolicy) (clock : DateTime)
    (supply : AdmissionSupply) (assetId : Uuid) :
    RecoveryTx (Option AssetRepairEnqueueResult) := do
  let s ← Tx.read
  match s.recovery.states assetId with
  | none => pure none
  | some row =>
    if row.activeChainId.isSome then do
      requestFollowUp assetId
      return some .retryable
    else if row.requestedGeneration ≤ row.completedGeneration ∨ row.servedGeneration = 0 then
      pure none
    else if !s.recovery.capacityAvailable policy then return some .retryable
    else if row.servedGeneration ≤ row.completedGeneration then do
      let jobId ← startFollowUpGeneration policy clock supply assetId row.requestedGeneration
      return some (.ofJob jobId)
    else do
      let result ← resumeServedGeneration policy clock supply assetId row.servedGeneration
      return some result

/-! ## A confirmed expiry -/

/-- An expiry hands its slot to the entry that was selected. -/
def routeSelection (policy : RecoveryPolicy) (clock : DateTime) (supply : AdmissionSupply)
    (assetId : Uuid) (generation : ℤ) :
    Option RefreshEntryRow → RecoveryTx AssetRefreshAdmissionResult
  | none => do
    completeGenerationIfTerminal assetId generation
    return .noEligibleArticle
  | some entry => do
    let jobId ← admitRefreshEntry policy clock assetId generation supply entry true
    return match jobId with
      | none => .noEligibleArticle
      | some jobId => .enqueued jobId supply.chainId generation entry.ordinal

/-- An expiry goes on with the generation that is served. -/
def routeServedGeneration (policy : RecoveryPolicy) (clock : DateTime) (supply : AdmissionSupply)
    (assetId : Uuid) (served : ℤ) : RecoveryTx AssetRefreshAdmissionResult := do
  requestFollowUp assetId
  markExhaustedRefreshEntries policy assetId served
  let selection ← selectRefreshEntry policy clock assetId served none
  routeSelection policy clock supply assetId served selection

/-- An expiry starts a generation of its own. -/
def routeNewGeneration (policy : RecoveryPolicy) (clock : DateTime) (supply : AdmissionSupply)
    (assetId : Uuid) (completed generation : ℤ) : RecoveryTx AssetRefreshAdmissionResult := do
  writeState assetId ⟨generation, completed, generation, none⟩
  let count ← snapshotAssetGeneration assetId generation
  if count = 0 then do
    setCompleted assetId generation
    return .noEligibleArticle
  else do
    markExhaustedRefreshEntries policy assetId generation
    let selection ← selectRefreshEntry policy clock assetId generation none
    routeSelection policy clock supply assetId generation selection

/-- `route_confirmed_expiry`. -/
def routeConfirmedExpiry (policy : RecoveryPolicy) (clock : DateTime) (supply : AdmissionSupply)
    (assetId : Uuid) : RecoveryTx AssetRefreshAdmissionResult := do
  let s ← Tx.read
  let row := (s.recovery.states assetId).getD ⟨0, 0, 0, none⟩
  if row.activeChainId.isSome then do
    requestFollowUp assetId
    return .alreadyHandled
  else if row.completedGeneration < row.servedGeneration then
    routeServedGeneration policy clock supply assetId row.servedGeneration
  else if row.completedGeneration < row.requestedGeneration then
    routeNewGeneration policy clock supply assetId row.completedGeneration row.requestedGeneration
  else if row.requestedGeneration + 1 ≤ i64Max then
    routeNewGeneration policy clock supply assetId row.completedGeneration
      (row.requestedGeneration + 1)
  else Tx.fail .invalidMetadata

end Generations

end RefreshLineage

end Werrss
