import Werrss.Persistence.AssetRepository
import Werrss.Persistence.JobEnqueue

/-!
# Persistence/RefreshLineage — the refresh chains of expired assets, and the reset of an article

    article ── lineage: attempts, cooldown          asset ── generation ── entries, one per article
                                                       unseen ─▸ in_flight ─▸ done
                                                          └── cooling ──┘
    reset_article_refresh_lineage    a fresh lineage ─▸ its pending entries done ─▸ the next admitted

A complete observation of an article starts its lineage afresh and takes the article out of every
chain it was waiting in; each of those chains may then go on with another article.  A statement sees
what the earlier ones of its transaction have written; nobody else writes under the locks.
-/

open Machinery

namespace Werrss

/-! ## Rows -/

inductive LineageOutcome
  | succeeded | inconclusive | superseded | deleted | exhausted
deriving DecidableEq, Repr

/-- A row of `asset_article_refresh_lineage`. -/
structure LineageRow where
  attempts : ℕ
  nextAllowedAt : Option DateTime
  exhausted : Bool
  lastOutcome : Option LineageOutcome
deriving DecidableEq, Repr

/-- A row of `asset_record_refresh_state`. -/
structure RefreshStateRow where
  requestedGeneration : ℤ
  completedGeneration : ℤ
  servedGeneration : ℤ
  activeChainId : Option Uuid
deriving DecidableEq, Repr

inductive RefreshEntryState
  | unseen | inFlight | cooling | done
deriving DecidableEq, Repr

/-- A row of `asset_refresh_generation_entries`. -/
structure RefreshEntryRow where
  assetRecordId : Uuid
  generation : ℤ
  ordinal : ℤ
  sourceId : Uuid
  reviewId : String
  state : RefreshEntryState
  notBefore : Option DateTime
deriving DecidableEq, Repr

inductive AdmissionClass
  | publicRepair | internalRepair | internalRefresh
deriving DecidableEq, Repr

/-- A row of `asset_repair_jobs`. -/
structure RepairJobRow where
  jobId : Uuid
  assetRecordId : Option Uuid
  admissionClass : AdmissionClass
  refreshSourceId : Option Uuid
  refreshReviewId : Option String
  chainId : Option Uuid
  chainOrdinal : Option ℤ
  expiredAssetRecordId : Option Uuid
  expiryRefunded : Bool
deriving DecidableEq, Repr

/-- The tables of the recovery jobs. -/
structure RecoveryTables where
  lineage : ArticleKey → Option LineageRow
  states : Uuid → Option RefreshStateRow
  entries : List RefreshEntryRow
  repairJobs : List RepairJobRow
  jobs : List JobRow

/-- A transaction over articles, assets and recovery jobs. -/
structure RecoveryState where
  articles : ArticleTable
  assets : AssetState
  recovery : RecoveryTables

abbrev RecoveryTx (A : Type) := Tx RecoveryState AssetRepositoryError A

/-- `AssetRefreshPolicy` and `AssetRepairPolicy`, as far as admission reads them. -/
structure RecoveryPolicy where
  maxAttempts : ℕ
  maxPending : ℕ

/-- What the surroundings provide to one admission: `Uuid::new_v4` for the chain and the job. -/
structure AdmissionSupply where
  chainId : Uuid
  jobId : Uuid

/-! ## Errors and payloads -/

def JobStatus.debugName : JobStatus → String
  | .queued => "Queued"
  | .running => "Running"
  | .retryWait => "RetryWait"
  | .deferred => "Deferred"
  | .succeeded => "Succeeded"
  | .failed => "Failed"

def JobError.toText : JobError → String
  | .invalidAttemptLimit => "job max_attempts must be greater than zero"
  | .emptyDedupeKey => "job dedupe_key must not be empty"
  | .emptyLeaseOwner => "job lease owner must not be empty"
  | .invalidLeaseDuration => "job lease duration must be positive and fit in the timestamp range"
  | .notDue => "job is not due"
  | .attemptsExhausted => "job has exhausted its failure budget"
  | .claimCountOverflow => "job claim count overflowed"
  | .failureCountOverflow => "job failure count overflowed"
  | .invalidDeferralTime => "job deferral time must be after the current time"
  | .invalidTransition status operation =>
    "cannot " ++ operation ++ " a job in " ++ status.debugName ++ " state"
  | .leaseOwnerMismatch => "job lease belongs to another instance"
  | .leaseTokenMismatch => "job lease token is no longer current"
  | .leaseExpired => "job lease has expired"
  | .leaseMissing => "running job has no lease expiry"
  | .invalidPersistedState reason => "invalid persisted job state: " ++ reason
  | .emptyError => "job error summary must not be empty"

def JobRepositoryError.toText : JobRepositoryError → String
  | .domain error => error.toText
  | .notFound jobId => "job " ++ jobId.toText ++ " was not found"
  | .storage message => "job repository storage error: " ++ message

/-- `job_transaction_error`. -/
def jobTransactionError (error : JobRepositoryError) : AssetRepositoryError :=
  .storage error.toText

/-- A character of a JSON string. -/
def escapeJson (c : Char) : List Char :=
  if c = '"' then ['\\', '"']
  else if c = '\\' then ['\\', '\\']
  else if c = '\x08' then ['\\', 'b']
  else if c = '\t' then ['\\', 't']
  else if c = '\n' then ['\\', 'n']
  else if c = '\x0c' then ['\\', 'f']
  else if c = '\r' then ['\\', 'r']
  else if c.toNat < 32 then
    ['\\', 'u', '0', '0', Nat.digitChar (c.toNat / 16), Nat.digitChar (c.toNat % 16)]
  else [c]

/-- A JSON string. -/
def jsonString (text : String) : String :=
  "\"" ++ String.ofList (text.toList.flatMap escapeJson) ++ "\""

/-- The payload of a refresh job. -/
def refreshPayload (assetId : Uuid) (generation : ℤ) (chainId : Uuid) (ordinal : ℤ)
    (sourceId : Uuid) (reviewId : String) : String :=
  "\x7b\"source_id\":" ++ jsonString sourceId.toText ++ ",\"review_id\":" ++ jsonString reviewId
    ++ ",\"expired_asset_record_id\":" ++ jsonString assetId.toText
    ++ ",\"chain_id\":" ++ jsonString chainId.toText ++ ",\"generation\":" ++ toString generation
    ++ ",\"ordinal\":" ++ toString ordinal ++ "\x7d"

/-- `asset-refresh:{source_id}:{review_id}`. -/
def refreshKey (sourceId : Uuid) (reviewId : String) : String :=
  "asset-refresh:" ++ sourceId.toText ++ ":" ++ reviewId

/-! ## Entries -/

namespace RefreshEntryRow

/-- The article of an entry. -/
def article (entry : RefreshEntryRow) : ArticleKey := (entry.sourceId, entry.reviewId)

/-- `state IN ('unseen', 'cooling')`. -/
def isPending (entry : RefreshEntryRow) : Bool :=
  decide (entry.state = .unseen) || decide (entry.state = .cooling)

/-- `state = 'unseen' OR (state = 'cooling' AND not_before <= clock_timestamp())`. -/
def isEligible (clock : DateTime) (entry : RefreshEntryRow) : Bool :=
  decide (entry.state = .unseen)
    || (decide (entry.state = .cooling) && entry.notBefore.any fun t => decide (t ≤ clock))

/-- An entry of this generation of an asset. -/
def isOf (assetId : Uuid) (generation : ℤ) (entry : RefreshEntryRow) : Bool :=
  decide (entry.assetRecordId = assetId) && decide (entry.generation = generation)

/-- `SET state = 'done', not_before = NULL`. -/
def finish (entry : RefreshEntryRow) : RefreshEntryRow :=
  { entry with state := .done, notBefore := none }

end RefreshEntryRow

namespace RecoveryTables

/-- An `UPDATE asset_refresh_generation_entries … WHERE …`. -/
def updateEntries (t : RecoveryTables) (condition : RefreshEntryRow → Bool)
    (assign : RefreshEntryRow → RefreshEntryRow) : RecoveryTables :=
  { t with entries := t.entries.map fun entry => if condition entry then assign entry else entry }

/-- A job is deleted, and its recovery row with it. -/
def deleteJob (t : RecoveryTables) (jobId : Uuid) : RecoveryTables :=
  { t with
    jobs := t.jobs.filter fun job => job.id ≠ jobId
    repairJobs := t.repairJobs.filter fun job => job.jobId ≠ jobId }

/-- `refresh_capacity_available`. -/
def capacityAvailable (t : RecoveryTables) (policy : RecoveryPolicy) : Bool :=
  decide ((t.repairJobs.filter fun repair => t.jobs.any fun job =>
    decide (job.id = repair.jobId) && decide (job.status ∈ JobRow.activeStatuses)).length
      < policy.maxPending)

/-- `refresh_generation_pending`. -/
def generationPending (t : RecoveryTables) (assetId : Uuid) (generation : ℤ) : Bool :=
  (t.states assetId).any fun row =>
    decide (row.servedGeneration = generation) && row.activeChainId.isNone
      && decide (row.completedGeneration < row.requestedGeneration)

/-- The lineage lets the article be refreshed; one without a row is fresh. -/
def lineageAdmits (t : RecoveryTables) (policy : RecoveryPolicy) (clock : DateTime)
    (article : ArticleKey) : Bool :=
  (t.lineage article).all fun row =>
    !row.exhausted && decide (row.attempts < policy.maxAttempts)
      && row.nextAllowedAt.all fun t => decide (t ≤ clock)

end RecoveryTables

namespace RecoveryState

/-- The article is stored and uses the asset. -/
def isLive (s : RecoveryState) (assetId : Uuid) (article : ArticleKey) : Bool :=
  (s.articles article).isSome && s.assets.tables.articleAssets.any fun row =>
    decide (row.assetRecordId = assetId) && decide ((row.sourceId, row.reviewId) = article)

def withRecovery (s : RecoveryState) (f : RecoveryTables → RecoveryTables) : RecoveryState :=
  { s with recovery := f s.recovery }

end RecoveryState

namespace RefreshLineage

open AssetRepository

/-! ## Selecting an entry -/

/-- `complete_refresh_generation_if_terminal`. -/
def completeGenerationIfTerminal (assetId : Uuid) (generation : ℤ) : RecoveryTx Unit := do
  let s ← Tx.read
  if s.recovery.entries.any fun entry =>
      entry.isOf assetId generation && decide (entry.state ≠ .done) then
    pure ()
  else
    match s.recovery.states assetId with
    | none => pure ()
    | some row =>
      if max row.completedGeneration generation ≤ row.servedGeneration then
        Tx.modify fun s => s.withRecovery fun t =>
          { t with
            states := Function.update t.states assetId
              (some { row with completedGeneration := max row.completedGeneration generation }) }
      else Tx.fail (.storage
        "new row for relation \"asset_record_refresh_state\" violates check constraint")

/-- Whether the asset has its body. -/
def bodyPresent (s : RecoveryState) (assetId : Uuid) : Except AssetRepositoryError Bool :=
  match (s.assets.tables.records.find? (·.id = assetId)).bind (·.blobId) with
  | none => .ok false
  | some blobId =>
    if blobId ∈ s.assets.tables.deletionQueue then .ok false
    else (AssetRepositoryError.ofBlobStore (s.assets.tables.blobStat blobId)).map fun metadata =>
      metadata.any (·.present)

/-- An entry the selection may pick. -/
def isAdmissible (s : RecoveryState) (policy : RecoveryPolicy) (clock : DateTime) (assetId : Uuid)
    (generation : ℤ) (cursor : Option ℤ) (entry : RefreshEntryRow) : Bool :=
  entry.isOf assetId generation && cursor.all (fun ordinal => decide (ordinal < entry.ordinal))
    && entry.isEligible clock && s.recovery.lineageAdmits policy clock entry.article
    && !s.recovery.jobs.any (JobRow.holds (refreshKey entry.sourceId entry.reviewId))

/-- The loop of `select_refresh_entry`.  The fuel is the number of entries: the cursor passes one in
each round. -/
def selectLoop (policy : RecoveryPolicy) (clock : DateTime) (assetId : Uuid) (generation : ℤ) :
    ℕ → Option ℤ → RecoveryTx (Option RefreshEntryRow)
  | 0, _ => pure none
  | fuel + 1, cursor => do
    let s ← Tx.read
    match (firstBy (fun a b => a.ordinal ≤ b.ordinal) 1 (s.recovery.entries.filter
        (isAdmissible s policy clock assetId generation cursor))).head? with
    | none => pure none
    | some entry =>
      if !s.isLive assetId entry.article then do
        Tx.modify fun s => s.withRecovery fun t => t.updateEntries
          (fun other => other.isOf assetId generation && decide (other.ordinal = entry.ordinal)
            && other.isPending) RefreshEntryRow.finish
        selectLoop policy clock assetId generation fuel (some entry.ordinal)
      else if !s.recovery.entries.any (fun other => other.isOf assetId generation
          && decide (other.ordinal = entry.ordinal) && other.isEligible clock) then
        selectLoop policy clock assetId generation fuel (some entry.ordinal)
      else pure (some entry)

/-- A restored body makes every pending entry superseded. -/
def supersede (present : Bool) (assetId : Uuid) (generation : ℤ) : RecoveryTx Unit :=
  if present then
    Tx.modify fun s => s.withRecovery fun t => t.updateEntries
      (fun entry => entry.isOf assetId generation && entry.isPending) RefreshEntryRow.finish
  else pure ()

/-- `select_refresh_entry`. -/
def selectRefreshEntry (policy : RecoveryPolicy) (clock : DateTime) (assetId : Uuid)
    (generation : ℤ) (afterOrdinal : Option ℤ) : RecoveryTx (Option RefreshEntryRow) := do
  Tx.modify fun s => s.withRecovery fun t => t.updateEntries
    (fun entry => entry.isOf assetId generation && entry.isPending
      && !s.isLive assetId entry.article) RefreshEntryRow.finish
  let s ← Tx.read
  let present ← Tx.ofExcept (bodyPresent s assetId)
  supersede present assetId generation
  let s ← Tx.read
  selectLoop policy clock assetId generation s.recovery.entries.length afterOrdinal

/-! ## Admitting it -/

/-- `insert_refresh_job`. -/
def insertRefreshJob (clock : DateTime) (assetId : Uuid) (generation : ℤ) (supply : AdmissionSupply)
    (entry : RefreshEntryRow) : RecoveryTx (Option Uuid) := do
  let s ← Tx.read
  let spec : NewJob :=
    { jobType := .assetRefresh
      sourceId := none
      priority := 0
      runAfter := clock
      maxAttempts := 2
      payload := refreshPayload assetId generation supply.chainId entry.ordinal entry.sourceId
        entry.reviewId
      dedupeKey := refreshKey entry.sourceId entry.reviewId
      now := clock }
  match enqueueInternal [] s.recovery.jobs [] supply.jobId spec clock true with
  | .error e => Tx.fail (jobTransactionError e)
  | .ok (.alreadyActive _) => pure none
  | .ok (.inserted job) => do
    Tx.modify fun s => s.withRecovery fun t =>
      { t with
        jobs := t.jobs ++ [JobRow.ofJob job]
        repairJobs := t.repairJobs ++
          [{ jobId := job.id
             assetRecordId := none
             admissionClass := .internalRefresh
             refreshSourceId := some entry.sourceId
             refreshReviewId := some entry.reviewId
             chainId := some supply.chainId
             chainOrdinal := some entry.ordinal
             expiredAssetRecordId := some assetId
             expiryRefunded := false }] }
    return some job.id

/-- `reserve_refresh_lineage`: whether an attempt was taken. -/
def reserveLineage (policy : RecoveryPolicy) (clock : DateTime) (article : ArticleKey) :
    RecoveryTx Bool := do
  let s ← Tx.read
  if s.recovery.lineageAdmits policy clock article then do
    Tx.modify fun s => s.withRecovery fun t =>
      { t with
        lineage := Function.update t.lineage article
          (some ⟨((t.lineage article).map (·.attempts)).getD 0 + 1, none, false, none⟩) }
    return true
  else return false

/-- A resumed chain becomes the active one of its asset. -/
def activateChain (resume : Bool) (assetId chainId : Uuid) : RecoveryTx Unit :=
  if resume then
    Tx.modify fun s => s.withRecovery fun t =>
      { t with
        states := fun id =>
          if id = assetId then (t.states id).map fun row =>
            if row.activeChainId.all fun chain => decide (chain = chainId) then
              { row with activeChainId := some chainId }
            else row
          else t.states id }
  else pure ()

/-- `admit_refresh_entry`. -/
def admitRefreshEntry (policy : RecoveryPolicy) (clock : DateTime) (assetId : Uuid)
    (generation : ℤ) (supply : AdmissionSupply) (entry : RefreshEntryRow) (resume : Bool) :
    RecoveryTx (Option Uuid) := do
  let inserted ← insertRefreshJob clock assetId generation supply entry
  match inserted with
  | none => pure none
  | some jobId => do
    let reserved ← reserveLineage policy clock entry.article
    let here (other : RefreshEntryRow) : Bool :=
      other.isOf assetId generation && decide (other.ordinal = entry.ordinal)
    if !reserved then do
      Tx.modify fun s => s.withRecovery fun t => (t.deleteJob jobId).updateEntries
        (fun other => here other && (t.lineage other.article).any fun row =>
          row.exhausted || decide (policy.maxAttempts ≤ row.attempts)) RefreshEntryRow.finish
      pure none
    else do
      let s ← Tx.read
      if !s.recovery.entries.any (fun other => here other && other.isPending) then do
        Tx.modify fun s => s.withRecovery (·.deleteJob jobId)
        pure none
      else do
        Tx.modify fun s => s.withRecovery fun t => t.updateEntries
          (fun other => here other && other.isPending)
          fun other => { other with state := .inFlight, notBefore := none }
        activateChain resume assetId supply.chainId
        return some jobId

/-! ## The reset -/

/-- The order of pairs of an asset and a generation. -/
def pairLe (a b : Uuid × ℤ) : Prop :=
  a.1.value < b.1.value ∨ (a.1.value = b.1.value ∧ a.2 ≤ b.2)

instance : DecidableRel pairLe := fun a b =>
  inferInstanceAs (Decidable (a.1.value < b.1.value ∨ (a.1.value = b.1.value ∧ a.2 ≤ b.2)))

def completeEach : List (Uuid × ℤ) → RecoveryTx Unit
  | [] => pure ()
  | (assetId, generation) :: rest => do
    completeGenerationIfTerminal assetId generation
    completeEach rest

/-- `reconcile_article_refresh_entries`: the generations the article has left. -/
def reconcileArticleRefreshEntries (article : ArticleKey) : RecoveryTx (List (Uuid × ℤ)) := do
  let s ← Tx.read
  let pending (entry : RefreshEntryRow) : Bool :=
    decide (entry.article = article) && entry.isPending
  let affected := (((s.recovery.entries.filter pending).map fun entry =>
    (entry.assetRecordId, entry.generation)).insertionSort pairLe).dedup
  Tx.modify fun s => s.withRecovery (·.updateEntries pending RefreshEntryRow.finish)
  completeEach affected
  return affected

/-- The entry a generation goes on with, while there is capacity and it has pending work. -/
def nextEntry (policy : RecoveryPolicy) (clock : DateTime) (assetId : Uuid) (generation : ℤ) :
    RecoveryTx (Option RefreshEntryRow) := do
  let s ← Tx.read
  if !s.recovery.capacityAvailable policy || !s.recovery.generationPending assetId generation then
    pure none
  else selectRefreshEntry policy clock assetId generation none

/-- A generation that an article has left is completed, or goes on with another article. -/
def reevaluate (policy : RecoveryPolicy) (clock : DateTime) (supply : AdmissionSupply)
    (assetId : Uuid) (generation : ℤ) : RecoveryTx Unit := do
  let selection ← nextEntry policy clock assetId generation
  match selection with
  | none => completeGenerationIfTerminal assetId generation
  | some entry => do
    let _ ← admitRefreshEntry policy clock assetId generation supply entry true
    return ()

def reevaluateEach (policy : RecoveryPolicy) (clock : DateTime) (supply : ℕ → AdmissionSupply) :
    List (Uuid × ℤ) → ℕ → RecoveryTx Unit
  | [], _ => pure ()
  | (assetId, generation) :: rest, n => do
    reevaluate policy clock (supply n) assetId generation
    reevaluateEach policy clock supply rest (n + 1)

/-- The lineage of an article that is stored starts afresh. -/
def freshLineage (article : ArticleKey) (s : RecoveryState) : RecoveryState :=
  match s.articles article with
  | none => s
  | some _ => s.withRecovery fun t =>
    { t with
      lineage := Function.update t.lineage article (some ⟨0, none, false, some .succeeded⟩) }

/-- `reset_article_refresh_lineage`. -/
def resetArticleRefreshLineage (policy : RecoveryPolicy) (clock : DateTime)
    (supply : ℕ → AdmissionSupply) (sourceId : Uuid) (reviewId : String) : RecoveryTx Unit := do
  Tx.ofExcept (validateArticleIdentity sourceId reviewId)
  Tx.modify (freshLineage (sourceId, trim reviewId))
  let affected ← reconcileArticleRefreshEntries (sourceId, trim reviewId)
  reevaluateEach policy clock supply affected 0

end RefreshLineage

end Werrss
