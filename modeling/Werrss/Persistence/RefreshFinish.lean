import Werrss.Application.ArticlePersistence
import Werrss.Persistence.JobActivity
import Werrss.Persistence.RefreshAdmission

/-!
# Persistence/RefreshFinish — how the refresh of an article ends, and what goes on behind it

    refresh job ── finished ─────────▸ entry done ┊ cooling ─▸ next entry ┊ follow-up
                ── unresolvable ─────▸ entry done ─▸ chain over
                ── failed for good ──▸ entry done ┊ cooling ─▸ chain over

A finished refresh hands its slot on in the transaction that ends it.  A job that fails for good
leaves its chain to whoever fails it: the queue itself clears what the job held.  Old snapshots are
pruned when nothing can ask for them.
-/

open Machinery

namespace Werrss

/-- `ArticleRefreshTarget`. -/
structure ArticleRefreshTarget where
  sourceId : Uuid
  reviewId : String
  expiredAssetRecordId : Uuid
  chainId : Uuid
  chainOrdinal : ℤ
  servedGeneration : ℤ
deriving DecidableEq, Repr

/-- The article of a target. -/
def ArticleRefreshTarget.article (target : ArticleRefreshTarget) : ArticleKey :=
  (target.sourceId, target.reviewId)

/-- The entry a target names. -/
def ArticleRefreshTarget.names (target : ArticleRefreshTarget) (entry : RefreshEntryRow) : Bool :=
  entry.isOf target.expiredAssetRecordId target.servedGeneration
    && decide (entry.ordinal = target.chainOrdinal)

/-- `RefreshFinishResult`. -/
structure RefreshFinishResult where
  nextJobId : Option Uuid
  generationCompleted : Bool
deriving DecidableEq, Repr

/-- What `serde_json` and `jsonb` read in a payload. -/
class RefreshPayloadReader where
  /-- the six fields of a refresh payload are those of the target -/
  namesTarget : String → ArticleRefreshTarget → Bool
  /-- `payload_json->>'generation'` -/
  generation : String → Option String
  /-- `payload_json->>'asset_id'` -/
  assetId : String → Option String

/-- `clock_timestamp() + make_interval(secs => …)`. -/
def afterSeconds (clock : DateTime) (seconds : ℕ) : Except AssetRepositoryError DateTime :=
  if clock + seconds * 1000000000 < pgEnd then .ok (clock + seconds * 1000000000)
  else .error (.storage "timestamp out of range")

namespace RecoveryTables

/-- `read_refresh_target`. -/
def readRefreshTarget (t : RecoveryTables) (jobId : Uuid) : Option ArticleRefreshTarget := do
  let repair ← t.repairJobs.find? fun repair =>
    decide (repair.jobId = jobId) && decide (repair.admissionClass = .internalRefresh)
  let sourceId ← repair.refreshSourceId
  let reviewId ← repair.refreshReviewId
  let assetId ← repair.expiredAssetRecordId
  let chainId ← repair.chainId
  let ordinal ← repair.chainOrdinal
  let row ← t.states assetId
  if row.activeChainId = some chainId then
    some ⟨sourceId, reviewId, assetId, chainId, ordinal, row.servedGeneration⟩
  else none

/-- The target is the in-flight entry of its snapshot. -/
def isInFlight (t : RecoveryTables) (target : ArticleRefreshTarget) : Bool :=
  t.entries.any fun entry => target.names entry && decide (entry.article = target.article)
    && decide (entry.state = .inFlight)

/-- Some entry of the generation is not done. -/
def isUnfinished (t : RecoveryTables) (assetId : Uuid) (generation : ℤ) : Bool :=
  t.entries.any fun entry => entry.isOf assetId generation && decide (entry.state ≠ .done)

/-- The job of a repair row is active. -/
def isActive (t : RecoveryTables) (repair : RepairJobRow) : Bool :=
  t.jobs.any fun job =>
    decide (job.id = repair.jobId) && decide (job.status ∈ JobRow.activeStatuses)

end RecoveryTables

namespace RefreshLineage

open ConfigTransfer (Collation)

/-! ## The lease of a job -/

/-- `lock_live_repair_lease`. -/
def lockLiveRepairLease (clock : DateTime) (lease : JobLease) : RecoveryTx Unit :=
  match lease.job.leaseOwner with
  | none => Tx.fail .leaseLost
  | some owner => do
    let s ← Tx.read
    if s.recovery.jobs.any fun job => job.isFenced lease.job.id owner lease.token clock then pure ()
    else Tx.fail .leaseLost

/-- `JobRepositoryTransaction::succeed` for the job of a lease. -/
def succeedJob (clock : DateTime) (lease : JobLease) : RecoveryTx Unit :=
  match lease.job.leaseOwner with
  | none => Tx.fail .leaseLost
  | some owner => do
    let s ← Tx.read
    if s.recovery.jobs.any fun job =>
        ((job.succeed lease.job.id owner lease.token clock).toOption).join.isSome then
      Tx.modify fun s => s.withRecovery fun t =>
        { t with
          jobs := (JobTransaction.succeed lease.job.id owner lease.token clock).commit t.jobs }
    else Tx.fail (jobTransactionError (.notFound lease.job.id))

section Finish

variable [RefreshPayloadReader]

/-- `begin_article_refresh`. -/
def beginArticleRefresh (clock : DateTime) (lease : JobLease) :
    RecoveryTx (Option ArticleRefreshTarget) := do
  lockLiveRepairLease clock lease
  if lease.job.jobType ≠ .assetRefresh then Tx.fail .invalidMetadata
  else do
    let s ← Tx.read
    match s.recovery.readRefreshTarget lease.job.id with
    | none => return none
    | some target =>
      if !RefreshPayloadReader.namesTarget lease.job.payload target || !s.recovery.isInFlight target
          || decide (target.chainOrdinal ≤ 0) || decide (target.servedGeneration ≤ 0) then
        Tx.fail .invalidMetadata
      else return some target

end Finish

/-! ## The outcome of a refresh -/

/-- `set_refresh_entry_done`. -/
def setRefreshEntryDone (target : ArticleRefreshTarget) : RecoveryTx Unit :=
  Tx.modify fun s => s.withRecovery (·.updateEntries target.names RefreshEntryRow.finish)

/-- The entry of the target waits for its cooldown. -/
def coolRefreshEntry (target : ArticleRefreshTarget) (notBefore : DateTime) : RecoveryTx Unit :=
  Tx.modify fun s => s.withRecovery (·.updateEntries target.names fun entry =>
    { entry with state := .cooling, notBefore := some notBefore })

/-- An `UPDATE asset_article_refresh_lineage` of one article. -/
def updateLineage (article : ArticleKey) (assign : LineageRow → LineageRow) : RecoveryTx Unit :=
  Tx.modify fun s => s.withRecovery fun t =>
    { t with lineage := Function.update t.lineage article ((t.lineage article).map assign) }

/-- The article of a target is done with, in its chain and in all it was waiting in. -/
def finishArticle (target : ArticleRefreshTarget) : RecoveryTx Unit := do
  setRefreshEntryDone target
  let _ ← reconcileArticleRefreshEntries target.article
  return ()

/-- The first half of `finish_article_refresh_in_transaction`. -/
def applyOutcome (policy : RecoveryPolicy) (cooldown : ℕ) (clock : DateTime)
    (target : ArticleRefreshTarget) : ArticleRefreshOutcome → RecoveryTx Unit
  | .succeeded => do
    updateLineage target.article fun _ => ⟨0, none, false, some .succeeded⟩
    finishArticle target
  | .inconclusive => do
    let resumeAt ← Tx.ofExcept (afterSeconds clock cooldown)
    updateLineage target.article fun row =>
      { row with
        nextAllowedAt := some resumeAt
        exhausted := decide (policy.maxAttempts ≤ row.attempts)
        lastOutcome :=
          some (if policy.maxAttempts ≤ row.attempts then .exhausted else .inconclusive) }
    let s ← Tx.read
    if (s.recovery.lineage target.article).all (·.exhausted) then finishArticle target
    else coolRefreshEntry target resumeAt
  | .superseded => setRefreshEntryDone target
  | .deleted => setRefreshEntryDone target

/-- `SET active_chain_id = NULL … WHERE active_chain_id = …`. -/
def clearChain (assetId chainId : Uuid) : RecoveryTx Unit :=
  updateState assetId fun row =>
    if row.activeChainId = some chainId then { row with activeChainId := none } else row

/-- The next entry of a chain takes the slot. -/
def admitSuccessor (policy : RecoveryPolicy) (clock : DateTime) (supply : AdmissionSupply)
    (target : ArticleRefreshTarget) : Option RefreshEntryRow → RecoveryTx (Option Uuid)
  | none => pure none
  | some entry => admitRefreshEntry policy clock target.expiredAssetRecordId target.servedGeneration
      ⟨target.chainId, supply.jobId⟩ entry false

/-- `continue_refresh_chain`. -/
def continueRefreshChain (policy : RecoveryPolicy) (clock : DateTime) (supply : AdmissionSupply)
    (target : ArticleRefreshTarget) : RecoveryTx (Option Uuid) := do
  markExhaustedRefreshEntries policy target.expiredAssetRecordId target.servedGeneration
  let selection ← selectRefreshEntry policy clock target.expiredAssetRecordId
    target.servedGeneration (some target.chainOrdinal)
  let admitted ← admitSuccessor policy clock supply target selection
  match admitted with
  | some jobId => return some jobId
  | none => do
    clearChain target.expiredAssetRecordId target.chainId
    return none

section Generations

variable [Collation]

/-- The second half of `finish_article_refresh_in_transaction`. -/
def passOn (policy : RecoveryPolicy) (clock : DateTime) (supply : ℕ → AdmissionSupply)
    (target : ArticleRefreshTarget) : RecoveryTx RefreshFinishResult := do
  let next ← continueRefreshChain policy clock (supply 0) target
  completeGenerationIfTerminal target.expiredAssetRecordId target.servedGeneration
  let s ← Tx.read
  match s.recovery.states target.expiredAssetRecordId with
  | none => Tx.fail (.storage "no rows returned by a query that expected to return at least one row")
  | some row => do
    let completed ← refreshGenerationCompleted target.expiredAssetRecordId target.servedGeneration
    if next = none ∧ completed = true ∧ row.servedGeneration < row.requestedGeneration then do
      let next ← startFollowUpGeneration policy clock (supply 1) target.expiredAssetRecordId
        row.requestedGeneration
      return ⟨next, completed⟩
    else return ⟨next, completed⟩

variable [RefreshPayloadReader]

/-- `finish_article_refresh`. -/
def finishArticleRefresh (policy : RecoveryPolicy) (cooldown : ℕ) (clock : DateTime)
    (supply : ℕ → AdmissionSupply) (lease : JobLease) (outcome : ArticleRefreshOutcome) :
    RecoveryTx RefreshFinishResult := do
  let target ← beginArticleRefresh clock lease
  match target with
  | none => Tx.fail .invalidMetadata
  | some target => do
    applyOutcome policy cooldown clock target outcome
    succeedJob clock lease
    passOn policy clock supply target

end Generations

/-- The chain of a job that nothing can be made of is over. -/
def abandonTarget (target : ArticleRefreshTarget) : RecoveryTx Unit := do
  Tx.modify fun s => s.withRecovery (·.updateEntries
    (fun entry => target.names entry && decide (entry.state = .inFlight)) RefreshEntryRow.finish)
  completeGenerationIfTerminal target.expiredAssetRecordId target.servedGeneration
  updateState target.expiredAssetRecordId fun row =>
    if row.activeChainId = some target.chainId ∧ row.servedGeneration = target.servedGeneration then
      { row with activeChainId := none }
    else row

/-- `complete_unresolvable_article_refresh`. -/
def completeUnresolvableArticleRefresh (clock : DateTime) (lease : JobLease) :
    RecoveryTx Unit :=
  if lease.job.jobType ≠ .assetRefresh then Tx.fail .invalidMetadata
  else do
    lockLiveRepairLease clock lease
    let s ← Tx.read
    match s.recovery.readRefreshTarget lease.job.id with
    | none => succeedJob clock lease
    | some target => do
      abandonTarget target
      succeedJob clock lease

/-! ## Jobs that fail for good -/

/-- The entry and the chain a failed job leaves: the entry is done with, or cools until `notBefore`;
a generation without work is complete. -/
def releaseTarget (target : ArticleRefreshTarget) (notBefore : Option DateTime) :
    RecoveryTx Unit := do
  Tx.modify fun s => s.withRecovery (·.updateEntries
    (fun entry => target.names entry && decide (entry.state = .inFlight)) fun entry =>
      { entry with
        state := if notBefore.isNone then .done else .cooling
        notBefore := notBefore })
  let s ← Tx.read
  updateState target.expiredAssetRecordId fun row =>
    if row.activeChainId = some target.chainId ∧ row.servedGeneration = target.servedGeneration then
      { row with
        activeChainId := none
        completedGeneration :=
          if s.recovery.isUnfinished target.expiredAssetRecordId target.servedGeneration then
            row.completedGeneration
          else max row.completedGeneration target.servedGeneration }
    else row

/-- `cleanup_terminal_refresh`, for a job that has failed. -/
def cleanupTerminalRefresh (policy : RecoveryPolicy) (cooldown : ℕ) (clock : DateTime)
    (job : JobRow) : RecoveryTx Unit :=
  if job.jobType ≠ jobTypeName .assetRefresh then pure ()
  else do
    let s ← Tx.read
    match s.recovery.readRefreshTarget job.id with
    | none => pure ()
    | some target =>
      if !s.recovery.isInFlight target then pure ()
      else do
        let resumeAt ← Tx.ofExcept (afterSeconds clock cooldown)
        updateLineage target.article fun row =>
          { row with
            nextAllowedAt := some resumeAt
            exhausted := row.exhausted || decide (policy.maxAttempts ≤ row.attempts)
            lastOutcome := some (if row.exhausted || decide (policy.maxAttempts ≤ row.attempts) then
              .exhausted else .inconclusive) }
        let s ← Tx.read
        releaseTarget target
          (if (s.recovery.lineage target.article).all (·.exhausted) then none else some resumeAt)

def cleanupEach (policy : RecoveryPolicy) (cooldown : ℕ) (clock : DateTime) :
    List JobRow → RecoveryTx Unit
  | [] => pure ()
  | job :: rest => do
    cleanupTerminalRefresh policy cooldown clock job
    cleanupEach policy cooldown clock rest

/-- A transaction of the job repository, with the cleanup of what it fails. -/
def jobTransaction (policy : RecoveryPolicy) (cooldown : ℕ) (clock : DateTime)
    (t : JobTransaction) : RecoveryTx Unit := do
  let s ← Tx.read
  Tx.modify fun s => s.withRecovery fun r => { r with jobs := t.commit r.jobs }
  cleanupEach policy cooldown clock (t.failures s.recovery.jobs)

/-! ## Pruning -/

section Pruning

variable [RefreshPayloadReader]

/-- `asset_refresh_generation_prunable`. -/
def isPrunable (t : RecoveryTables) (assetId : Uuid) (generation : ℤ) : Bool :=
  ((t.states assetId).any fun row => decide (generation ≤ row.completedGeneration)
      && (row.activeChainId.isNone || decide (row.servedGeneration ≠ generation)))
    && !t.isUnfinished assetId generation
    && !t.repairJobs.any fun repair => decide (repair.expiredAssetRecordId = some assetId)
      && t.jobs.any fun job => decide (job.id = repair.jobId)
        && decide (job.status ∈ JobRow.activeStatuses)
        && (RefreshPayloadReader.generation job.payloadJson).all
          fun text => decide (text = toString generation)

/-- `prune_asset_refresh_generations`. -/
def pruneGenerations (t : RecoveryTables) : RecoveryTables :=
  { t with entries := t.entries.filter fun entry =>
      !isPrunable t entry.assetRecordId entry.generation }

/-- A row `prune_orphan_asset_refresh_state` deletes. -/
def isOrphanState (s : RecoveryState) (assetId : Uuid) (row : RefreshStateRow) : Bool :=
  row.activeChainId.isNone && decide (row.requestedGeneration = row.completedGeneration)
    && !s.assets.tables.records.any (·.id = assetId)
    && !s.recovery.entries.any (·.assetRecordId = assetId)
    && !s.recovery.repairJobs.any (fun repair => s.recovery.isActive repair
      && (decide (repair.assetRecordId = some assetId)
        || decide (repair.expiredAssetRecordId = some assetId)))
    && !s.recovery.jobs.any fun job => decide (job.jobType = jobTypeName .assetRepair)
      && decide (RefreshPayloadReader.assetId job.payloadJson = some assetId.toText)

/-- `prune_orphan_asset_refresh_state`. -/
def pruneOrphanStates (s : RecoveryState) : RecoveryState :=
  s.withRecovery fun t =>
    { t with states := fun assetId => (t.states assetId).filter fun row =>
        !isOrphanState s assetId row }

/-- `prune_asset_refresh_state`: the one behind the other, in one transaction. -/
def pruneRefreshState (s : RecoveryState) : RecoveryState :=
  pruneOrphanStates (s.withRecovery pruneGenerations)

end Pruning

end RefreshLineage

end Werrss
