import Werrss.Persistence.RefreshFinish
import Werrss.Persistence.ResetOrder

/-!
# Persistence/RepairCircuit — the repair of a missing asset, and the circuit that bounds it

    cache miss ─▸ enqueue_repair        attempts + 1          repair job ── failed ───▸ backoff
                   referenced? body?                                    ── expired ──▸ attempts − 1
                   active job? refresh? circuit? capacity?              ── complete ─▸ attempts 0

A public cache miss admits one durable job; the circuit of the asset counts what was admitted.  The
operations of this module and of the two before it are all that write the tables of the recovery
jobs, each in a transaction of its own.
-/

open Machinery

namespace Werrss

/-! ## Policies and rows -/

/-- `AssetRepairPolicy`; the delay in whole seconds. -/
structure AssetRepairPolicy where
  maxPending : ℕ
  publicMaxPending : ℕ
  requeueAfter : ℕ
  maxAttempts : ℕ
  maxPending_pos : 0 < maxPending
  public_le : publicMaxPending ≤ maxPending
  maxAttempts_pos : 0 < maxAttempts

/-- `AssetRefreshPolicy`; the cooldown in whole seconds. -/
structure AssetRefreshPolicy where
  maxAttempts : ℕ
  cooldown : ℕ
  maxAttempts_range : 1 ≤ maxAttempts ∧ maxAttempts ≤ 10
  cooldown_range : 60 ≤ cooldown ∧ cooldown ≤ 86400

/-- The policies of recovery. -/
structure RepairSettings where
  repair : AssetRepairPolicy
  refresh : AssetRefreshPolicy

/-- What the admission of a refresh reads of the two. -/
def RepairSettings.admission (settings : RepairSettings) : RecoveryPolicy :=
  ⟨settings.refresh.maxAttempts, settings.repair.maxPending⟩

/-- A row of `asset_repair_states`. -/
structure RepairStateRow where
  admittedAttempts : ℕ
  nextAllowedAt : Option DateTime
  exhausted : Bool
  lastError : Option String
deriving DecidableEq, Repr

/-- The tables of the recovery jobs with the circuit of each asset. -/
structure CircuitState where
  recovery : RecoveryState
  circuit : Uuid → Option RepairStateRow

abbrev RepairTx (A : Type) := Tx CircuitState AssetRepositoryError A

namespace RepairTx

/-- A program over the recovery jobs. -/
def recovery {A : Type} (m : RecoveryTx A) : RepairTx A := fun s =>
  ((m s.recovery).1, { s with recovery := (m s.recovery).2 })

/-- An `UPDATE asset_repair_states … WHERE asset_record_id = …`. -/
def updateCircuit (assetId : Uuid) (assign : RepairStateRow → RepairStateRow) : RepairTx Unit :=
  Tx.modify fun s =>
    { s with circuit := Function.update s.circuit assetId ((s.circuit assetId).map assign) }

end RepairTx

namespace RepairCircuit

open AssetRepository RefreshLineage
open ConfigTransfer (Collation)

/-! ## Admission -/

/-- The record exists and an article uses it. -/
def isReferenced (s : RecoveryState) (assetId : Uuid) : Bool :=
  s.assets.tables.records.any (·.id = assetId)
    && s.assets.tables.articleAssets.any (·.assetRecordId = assetId)

/-- The oldest active repair job of an asset. -/
def activeRepair (t : RecoveryTables) (assetId : Uuid) : Option Uuid :=
  (firstBy (fun a b => a.createdAt ≤ b.createdAt) 1 (t.jobs.filter fun job =>
    decide (job.status ∈ JobRow.activeStatuses) && t.repairJobs.any fun repair =>
      decide (repair.jobId = job.id) && decide (repair.assetRecordId = some assetId))).head?.map
        JobRow.id

/-- The relationships of an asset whose article is stored. -/
def liveRelationships (s : RecoveryState) (assetId : Uuid) : List ArticleAssetRow :=
  s.assets.tables.articleAssets.filter fun row =>
    decide (row.assetRecordId = assetId) && (s.articles (row.sourceId, row.reviewId)).isSome

/-- The lineage of an article has no attempt left. -/
def isLineageSpent (t : RecoveryTables) (policy : AssetRefreshPolicy) (row : ArticleAssetRow) :
    Bool :=
  (t.lineage (row.sourceId, row.reviewId)).any fun lineage =>
    lineage.exhausted || decide (policy.maxAttempts ≤ lineage.attempts)

/-- The lineage of an article waits for its cooldown. -/
def isLineageCooling (t : RecoveryTables) (policy : AssetRefreshPolicy) (clock : DateTime)
    (row : ArticleAssetRow) : Bool :=
  !isLineageSpent t policy row && (t.lineage (row.sourceId, row.reviewId)).any fun lineage =>
    lineage.nextAllowedAt.any fun next => decide (clock < next)

/-- What the lineages of the articles answer to a cache miss. -/
def lineageVerdict (settings : RepairSettings) (clock : DateTime) (s : RecoveryState)
    (assetId : Uuid) : Option AssetRepairEnqueueResult :=
  let live := liveRelationships s assetId
  let exhausted := live.countP (isLineageSpent s.recovery settings.refresh)
  let cooling := live.countP (isLineageCooling s.recovery settings.refresh clock)
  if 0 < live.length ∧ exhausted = live.length then some .exhausted
  else if 0 < live.length ∧ exhausted + cooling = live.length then some .retryable
  else none

/-- What the circuit of the asset answers. -/
def circuitVerdict (settings : RepairSettings) (clock : DateTime) :
    Option RepairStateRow → Option AssetRepairEnqueueResult
  | none => none
  | some row =>
    if row.exhausted then some .exhausted
    else if row.nextAllowedAt.any fun next => decide (clock < next) then some .backoff
    else if settings.repair.maxAttempts ≤ row.admittedAttempts then some .exhausted
    else none

/-- The active recovery jobs. -/
def globalPending (t : RecoveryTables) : ℕ := t.repairJobs.countP t.isActive

/-- Those of class `public_repair`. -/
def publicPending (t : RecoveryTables) : ℕ :=
  t.repairJobs.countP fun repair =>
    decide (repair.admissionClass = .publicRepair) && t.isActive repair

/-- `asset-repair:{asset_id}`. -/
def repairKey (assetId : Uuid) : String := "asset-repair:" ++ assetId.toText

/-- The job of a repair. -/
def repairJob (assetId : Uuid) (clock : DateTime) : NewJob where
  jobType := .assetRepair
  sourceId := none
  priority := 0
  runAfter := clock
  maxAttempts := 2
  payload := "\x7b\"asset_id\":" ++ jsonString assetId.toText ++ "\x7d"
  dedupeKey := repairKey assetId
  now := clock

/-- The circuit after one more admission. -/
def admitted (row : Option RepairStateRow) : RepairStateRow :=
  ⟨((row.map (·.admittedAttempts)).getD 0) + 1, none, false, none⟩

/-- The job is inserted, and the circuit counts it. -/
def insertRepair (clock : DateTime) (jobId assetId : Uuid) : RepairTx AssetRepairEnqueueResult := do
  let s ← Tx.read
  match enqueueInternal [] s.recovery.recovery.jobs [] jobId (repairJob assetId clock) clock true with
  | .error e => Tx.fail (jobTransactionError e)
  | .ok (.alreadyActive jobId) => return .alreadyActive jobId
  | .ok (.inserted job) => do
    Tx.modify fun s =>
      { s with circuit := Function.update s.circuit assetId (some (admitted (s.circuit assetId))) }
    RepairTx.recovery <| Tx.modify fun s => s.withRecovery fun t =>
      { t with
        jobs := t.jobs ++ [JobRow.ofJob job]
        repairJobs := t.repairJobs ++
          [{ jobId := job.id
             assetRecordId := some assetId
             admissionClass := .publicRepair
             refreshSourceId := none
             refreshReviewId := none
             chainId := none
             chainOrdinal := none
             expiredAssetRecordId := none
             expiryRefunded := false }] }
    return .enqueued job.id

/-- The circuit and the capacity decide, and a repair is admitted. -/
def admitRepair (settings : RepairSettings) (clock : DateTime) (jobId assetId : Uuid) :
    RepairTx AssetRepairEnqueueResult := do
  let s ← Tx.read
  match lineageVerdict settings clock s.recovery assetId with
  | some result => return result
  | none =>
    match circuitVerdict settings clock (s.circuit assetId) with
    | some result => return result
    | none =>
      if settings.repair.maxPending ≤ globalPending s.recovery.recovery
          ∨ settings.repair.publicMaxPending ≤ publicPending s.recovery.recovery then
        return .capacityFull
      else insertRepair clock jobId assetId

section Operations

variable [Collation]

/-- `enqueue_repair_in_transaction`. -/
def enqueueRepair (settings : RepairSettings) (clock : DateTime) (supply : AdmissionSupply)
    (assetId : Uuid) : RepairTx AssetRepairEnqueueResult := do
  let s ← Tx.read
  if !isReferenced s.recovery assetId then do
    let resumed ← RepairTx.recovery
      (resumeRefreshAfterCacheMiss settings.admission clock supply assetId)
    return resumed.getD .notFound
  else do
    let present ← Tx.ofExcept (bodyPresent s.recovery assetId)
    if present then return .alreadyAvailable
    else
      match activeRepair s.recovery.recovery assetId with
      | some jobId => return .alreadyActive jobId
      | none => do
        let resumed ← RepairTx.recovery
          (resumeRefreshAfterCacheMiss settings.admission clock supply assetId)
        match resumed with
        | some result => return result
        | none => admitRepair settings clock supply.jobId assetId

/-- An asset with pending work and no job of its own. -/
def isPendingAsset (t : RecoveryTables) (assetId : Uuid) : Bool :=
  ((t.states assetId).any fun row => row.activeChainId.isNone
      && decide (row.completedGeneration < row.requestedGeneration))
    && !t.repairJobs.any fun repair =>
      decide (repair.assetRecordId = some assetId) && t.isActive repair

def resumeEach (policy : RecoveryPolicy) (clock : DateTime) (supply : ℕ → AdmissionSupply) :
    List Uuid → ℕ → RecoveryTx Unit
  | [], _ => pure ()
  | assetId :: rest, n => do
    let _ ← resumeRefreshAfterCacheMiss policy clock (supply n) assetId
    resumeEach policy clock supply rest (n + 1)

/-- `resume_pending_refreshes`, on the assets in the order they were updated. -/
def resumePendingRefreshes (settings : RepairSettings) (clock : DateTime)
    (supply : ℕ → AdmissionSupply) (assets : List Uuid) : RecoveryTx Unit := do
  let s ← Tx.read
  resumeEach settings.admission clock supply
    ((assets.filter (isPendingAsset s.recovery)).take 16) 0

/-! ## The end of a repair job -/

/-- The refund of a confirmed expiry, made once. -/
def refundExpiry (settings : RepairSettings) (clock : DateTime) (jobId assetId : Uuid)
    (repair : RepairJobRow) : RepairTx Unit :=
  if repair.admissionClass = .publicRepair ∧ repair.expiryRefunded = false then
    if i64Max < settings.repair.requeueAfter then Tx.fail .invalidMetadata
    else do
      let resumeAt ← Tx.ofExcept (afterSeconds clock settings.repair.requeueAfter)
      RepairTx.updateCircuit assetId fun row =>
        ⟨row.admittedAttempts - 1, some resumeAt, false, none⟩
      RepairTx.recovery <| Tx.modify fun s => s.withRecovery fun t =>
        { t with repairJobs := t.repairJobs.map fun other =>
            if other.jobId = jobId ∧ other.admissionClass = .publicRepair then
              { other with expiryRefunded := true }
            else other }
  else pure ()

/-- `finish_confirmed_expiry`. -/
def finishConfirmedExpiry (settings : RepairSettings) (clock : DateTime) (supply : AdmissionSupply)
    (lease : JobLease) (assetId : Uuid) : RepairTx AssetRefreshAdmissionResult :=
  if lease.job.jobType ≠ .assetRepair then Tx.fail .invalidMetadata
  else do
    RepairTx.recovery (lockLiveRepairLease clock lease)
    let s ← Tx.read
    match s.recovery.recovery.repairJobs.find? (·.jobId = lease.job.id) with
    | none => Tx.fail .invalidMetadata
    | some repair =>
      if repair.assetRecordId.any fun current => decide (current ≠ assetId) then
        Tx.fail .invalidMetadata
      else do
        refundExpiry settings clock lease.job.id assetId repair
        let result ← RepairTx.recovery
          (routeConfirmedExpiry settings.admission clock supply assetId)
        RepairTx.recovery (succeedJob clock lease)
        return result

end Operations

/-- `record_repair_failure`: whether the circuit is open. -/
def recordRepairFailure (settings : RepairSettings) (clock : DateTime) (lease : JobLease)
    (assetId : Uuid) (error : String) : RepairTx Bool :=
  if i64Max < settings.repair.requeueAfter then Tx.fail (.storage "repair delay is too large")
  else do
    RepairTx.recovery (lockLiveRepairLease clock lease)
    let resumeAt ← Tx.ofExcept (afterSeconds clock settings.repair.requeueAfter)
    RepairTx.updateCircuit assetId fun row =>
      { row with
        nextAllowedAt := some resumeAt
        exhausted := decide (settings.repair.maxAttempts ≤ row.admittedAttempts)
        lastError := some (String.ofList (error.toList.take 512)) }
    let s ← Tx.read
    return (s.circuit assetId).any (·.exhausted)

/-- `complete_repair`. -/
def completeRepair (clock : DateTime) (lease : JobLease) (assetId : Uuid) : RepairTx Unit := do
  RepairTx.recovery (lockLiveRepairLease clock lease)
  RepairTx.updateCircuit assetId fun _ => ⟨0, none, false, none⟩

/-! ## Everything that writes the tables -/

/-- A transaction over the tables of recovery. -/
inductive RecoveryOperation
  | enqueueRepair (supply : AdmissionSupply) (assetId : Uuid)
  | resumePending (supply : ℕ → AdmissionSupply) (assets : List Uuid)
  | finishExpiry (supply : AdmissionSupply) (lease : JobLease) (assetId : Uuid)
  | recordFailure (lease : JobLease) (assetId : Uuid) (error : String)
  | completeRepair (lease : JobLease) (assetId : Uuid)
  | finishRefresh (supply : ℕ → AdmissionSupply) (lease : JobLease)
      (outcome : ArticleRefreshOutcome)
  | completeUnresolvable (lease : JobLease)
  | resetLineage (supply : ℕ → AdmissionSupply) (sourceId : Uuid) (reviewId : String)
  | job (t : JobTransaction)
  | prune
  | archive (articles : ArticleTable) (assets : AssetState)

/-- The committed state of a transaction; one that fails is rolled back. -/
def committed {A : Type} (m : RepairTx A) (s : CircuitState) : CircuitState :=
  match m s with
  | (.ok _, t) => t
  | (.error _, _) => s

/-- A statement of the queue settles a refresh job as succeeded: no handler answers so for one, the
transaction that finishes it does. -/
def succeedsRefresh (rows : List JobRow) : JobTransaction → Bool
  | .succeed jobId _ _ _ => rows.any fun row =>
      decide (row.id = jobId) && decide (row.jobType = jobTypeName .assetRefresh)
  | _ => false

/-- The lease is one of a repair job: a claim read its type from the row, where no statement writes
it. -/
def leasesRepair (rows : List JobRow) (lease : JobLease) : Bool :=
  rows.all fun row =>
    !decide (row.id = lease.job.id) || decide (row.jobType = jobTypeName .assetRepair)

/-- Articles and assets as other transactions leave them: a lineage goes with its article, a circuit
with its record, and a repair row forgets a record that is gone. -/
def withArchive (articles : ArticleTable) (assets : AssetState) (s : CircuitState) :
    CircuitState where
  recovery :=
    { articles := articles
      assets := assets
      recovery :=
        { s.recovery.recovery with
          lineage := fun article =>
            if (articles article).isSome then s.recovery.recovery.lineage article else none
          repairJobs := s.recovery.recovery.repairJobs.map fun repair =>
            { repair with
              assetRecordId := repair.assetRecordId.filter fun assetId =>
                assets.tables.records.any (·.id = assetId) } } }
  circuit := fun assetId =>
    if assets.tables.records.any (·.id = assetId) then s.circuit assetId else none

variable [Collation] [RefreshPayloadReader]

/-- **One transaction**, at the database's clock. -/
def perform (settings : RepairSettings) (s : CircuitState) :
    DateTime × RecoveryOperation → CircuitState
  | (clock, .enqueueRepair supply assetId) =>
    committed (enqueueRepair settings clock supply assetId) s
  | (clock, .resumePending supply assets) =>
    committed (RepairTx.recovery (resumePendingRefreshes settings clock supply assets)) s
  | (clock, .finishExpiry supply lease assetId) =>
    if leasesRepair s.recovery.recovery.jobs lease then
      committed (finishConfirmedExpiry settings clock supply lease assetId) s
    else s
  | (clock, .recordFailure lease assetId error) =>
    committed (recordRepairFailure settings clock lease assetId error) s
  | (clock, .completeRepair lease assetId) => committed (completeRepair clock lease assetId) s
  | (clock, .finishRefresh supply lease outcome) =>
    committed (RepairTx.recovery (finishArticleRefresh settings.admission settings.refresh.cooldown
      clock supply lease outcome)) s
  | (clock, .completeUnresolvable lease) =>
    committed (RepairTx.recovery (completeUnresolvableArticleRefresh clock lease)) s
  | (clock, .resetLineage supply sourceId reviewId) =>
    committed (RepairTx.recovery
      (resetArticleRefreshLineage settings.admission clock supply sourceId reviewId)) s
  | (clock, .job t) =>
    if succeedsRefresh s.recovery.recovery.jobs t then s
    else committed (RepairTx.recovery
      (jobTransaction settings.admission settings.refresh.cooldown clock t)) s
  | (_, .prune) => { s with recovery := pruneRefreshState s.recovery }
  | (_, .archive articles assets) => withArchive articles assets s

/-- No recovery yet. -/
def start (articles : ArticleTable) (assets : AssetState) : CircuitState :=
  ⟨⟨articles, assets, ⟨fun _ => none, fun _ => none, [], [], []⟩⟩, fun _ => none⟩

end RepairCircuit

end Werrss
