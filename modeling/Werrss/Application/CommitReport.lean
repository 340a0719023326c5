import Werrss.Machinery.Run
import Werrss.Persistence.AssetCap
import Werrss.Persistence.JobTableRefinement
import Werrss.Application.JobHandlers

/-!
# Application/CommitReport — what a commit reports, and what its callers make of it

    statements ─▸ deferred evictions ─▸ COMMIT ─▸ deletion queue ─▸ cleanup queue ─▸ Ok
                                          │              ╰───────┬───────╯
                                          ▾                      ▾
                                  Err, nothing stands    Err, everything stands

Every commit goes on to delete the objects that are queued for deletion, whoever queued them, and
answers with the first that cannot be deleted.  **A commit reports what it did exactly when it failed
or every queued object goes**; a run of which that holds is the run over a backend that deletes
everything.
-/

open Machinery

namespace Werrss

/-! ## The commit -/

/-- The committed database: what handlers write, with the deletion queue among the asset tables, and
the queue of objects that a rollback could not delete. -/
structure Database where
  tables : WorkTables
  cleanupQueue : List Uuid

namespace Database

def assets (db : Database) : AssetTables := db.tables.archive.assets

def withAssets (db : Database) (assets : AssetTables) : Database :=
  { db with tables := { db.tables with archive := { db.tables.archive with assets := assets } } }

/-- The loop of both drains: an object that cannot be deleted ends the transaction. -/
def deleteEach (deletes : Uuid → Bool) : List Uuid → AssetTables → Option AssetTables
  | [], assets => some assets
  | blobId :: queue, assets =>
    if deletes blobId then deleteEach deletes queue (assets.blobDelete blobId) else none

/-- `drain_blob_deletion_queue`; a drain that is dropped leaves its rows queued. -/
def drainBlobDeletionQueue (deletes : Uuid → Bool) (db : Database) : Option Database := do
  let assets ← deleteEach deletes db.assets.deletionQueue db.assets
  return db.withAssets { assets with deletionQueue := [] }

/-- `drain_blob_cleanup_queue`. -/
def drainBlobCleanupQueue (deletes : Uuid → Bool) (db : Database) : Option Database := do
  let assets ← deleteEach deletes db.cleanupQueue db.assets
  return { db.withAssets assets with cleanupQueue := [] }

end Database

/-- `UnitOfWorkError`. -/
inductive UnitOfWorkError
  | transaction | assetCleanup
deriving DecidableEq, Repr

/-- A unit of work about to commit: the tables its statements leave, and its deferred evictions. -/
structure UnitOfWork where
  tables : WorkTables
  deferredEvictions : List Uuid

/-- What a commit meets: whether the database takes it, and which objects the backend deletes. -/
structure CommitAnswers where
  takesEffect : Bool
  deletes : Uuid → Bool

namespace UnitOfWork

/-- The database right after the transaction. -/
def committed (work : UnitOfWork) (db : Database) : Database :=
  { db with tables := work.tables }.withAssets
    (work.tables.archive.assets.enqueueDeletions work.deferredEvictions)

/-- The drains that follow a commit, and the error that `?` hands on. -/
def drain (deletes : Uuid → Bool) (db : Database) : Except UnitOfWorkError Unit × Database :=
  match db.drainBlobDeletionQueue deletes with
  | none => (.error .assetCleanup, db)
  | some drained =>
    match drained.drainBlobCleanupQueue deletes with
    | none => (.error .assetCleanup, drained)
    | some drained => (.ok (), drained)

/-- `UnitOfWork::commit`. -/
def commit (work : UnitOfWork) (db : Database) (answers : CommitAnswers) :
    Except UnitOfWorkError Unit × Database :=
  if answers.takesEffect then drain answers.deletes (work.committed db)
  else (.error .transaction, db)

/-- The objects queued when the transaction has committed, its own evictions among them. -/
def queued (work : UnitOfWork) (db : Database) : List Uuid :=
  (work.committed db).assets.deletionQueue ++ db.cleanupQueue

end UnitOfWork

/-- A commit as it was made. -/
structure CommitRecord where
  work : UnitOfWork
  before : Database
  answers : CommitAnswers

namespace CommitRecord

/-- What the commit answered. -/
def answer (record : CommitRecord) : Except UnitOfWorkError Unit :=
  (record.work.commit record.before record.answers).1

end CommitRecord

/-! ## What a commit answers -/

namespace Database

variable {deletes : Uuid → Bool}

end Database

namespace UnitOfWork

variable {deletes : Uuid → Bool}

end UnitOfWork

namespace CommitRecord

variable {record : CommitRecord}

end CommitRecord

/-! ## The callers of a commit

Each transaction of the program is a function on the tables, followed by a commit.  A worker takes a
source-sync job through its handler; other handlers make their final transactions; and whatever else
commits meanwhile may change the database in any way. -/

/-- A claimed job, and the clock its worker was called with. -/
structure ClaimedJob where
  claim : JobCompletion
  now : DateTime

/-- Where a worker is with a source-sync job. -/
inductive SyncPhase
  | idle
  | claimed (job : ClaimedJob)
  /-- `start_run` was reported as committed -/
  | running (job : ClaimedJob) (runId : Uuid)
  /-- the run failed and is to be finished as failed -/
  | failing (job : ClaimedJob) (runId : Uuid) (failure : ClassifiedSyncFailure)
  /-- the handler left an outcome for its worker to apply -/
  | finished (job : ClaimedJob) (execution : JobExecution)

/-- The database, and the workers at their source-sync jobs. -/
structure CommitSystem where
  db : Database
  workers : ℕ → SyncPhase

def CommitSystem.setWorker (s : CommitSystem) (worker : ℕ) (phase : SyncPhase) : CommitSystem :=
  { s with workers := Function.update s.workers worker phase }

section Callers

/-- What happens in the system. -/
inductive CommitEvent (Url : Type) [UrlCrate Url] [DecidableEq Url]
  | claim (worker : ℕ) (job : ClaimedJob) (leaseUntil at' : DateTime)
  /-- the handler stops before it starts a run -/
  | stop (worker : ℕ) (execution : JobExecution)
  | startRun (worker : ℕ) (run : NewSyncRun) (answers : CommitAnswers)
  /-- the acquisition fails, or a step of it that is no commit -/
  | fail (worker : ℕ) (failure : ClassifiedSyncFailure)
  | persistSuccess (worker : ℕ) (finish : SyncFinish Url) (at' : DateTime) (answers : CommitAnswers)
  | finishFailedRun (worker : ℕ) (finish : SyncFinish Url) (at' : DateTime) (answers : CommitAnswers)
  | timeout (worker : ℕ) (error : String)
  | applyOutcome (worker : ℕ) (at' : DateTime) (answers : CommitAnswers)
  /-- a final transaction of another handler, or the outcome of its job -/
  | final (claim : JobCompletion) (work : FinalWork Url) (at' : DateTime) (answers : CommitAnswers)
  /-- whatever else commits: scheduler, requests, heartbeats, recovery, maintenance -/
  | change (effect : Database → Database)

variable {Url : Type} [UrlCrate Url] [DecidableEq Url]

/-- `retry_execution`. -/
def retryExecution (now : DateTime) (retryAfter : Duration) : JobExecution :=
  match DateTime.checkedAddSigned now retryAfter with
  | none => .failed "source synchronization retry time is outside the supported range"
  | some retryAt =>
    .retry retryAt "source synchronization persistence is temporarily unavailable"

/-- `retryable_persistence_failure`. -/
def retryablePersistenceFailure : ClassifiedSyncFailure where
  outcome := .retryableFailure
  failure := ⟨.retryable, "source synchronization persistence is temporarily unavailable"⟩

/-- A transaction and its commit; statements that fail drop the transaction. -/
def Database.transact (db : Database) (statements : WorkTables → Option WorkTables)
    (answers : CommitAnswers) : Bool × Database × Option CommitRecord :=
  match statements db.tables with
  | none => (false, db, none)
  | some tables =>
    let work : UnitOfWork := ⟨tables, []⟩
    match work.commit db answers with
    | (.ok _, db') => (true, db', some ⟨work, db, answers⟩)
    | (.error _, db') => (false, db', some ⟨work, db, answers⟩)

/-- `start_run`. -/
def startRun (run : NewSyncRun) (tables : WorkTables) : Option WorkTables := do
  let syncRuns ← SyncRunRepository.start tables.syncRuns run
  return { tables with syncRuns := syncRuns }

/-- A worker goes on from a transaction: to `done` when it is reported as committed, else to
`undone`. -/
def CommitSystem.after (s : CommitSystem) (worker : ℕ) (done undone : SyncPhase)
    (result : Bool × Database × Option CommitRecord) : CommitSystem × Option CommitRecord :=
  ({ s with db := result.2.1 }.setWorker worker (if result.1 then done else undone), result.2.2)

variable [LawfulUrlCrate Url] [Sha2Crate]

/-- **One event**, with the commit it made.  An event that the phase of its worker does not allow
changes nothing. -/
def CommitSystem.step (policy : AssetCachePolicy) (config : SourceSyncConfig) (s : CommitSystem) :
    CommitEvent Url → CommitSystem × Option CommitRecord
  | .claim worker job leaseUntil at' =>
    match s.workers worker,
        JobTable.claim s.db.tables.jobs job.claim.jobId job.claim.owner job.claim.token at'
          leaseUntil with
    | .idle, some jobs =>
      ({ s with db := { s.db with tables := { s.db.tables with jobs := jobs } } }.setWorker worker
        (.claimed job), none)
    | _, _ => (s, none)
  | .stop worker execution =>
    match s.workers worker with
    | .claimed job => (s.setWorker worker (.finished job execution), none)
    | _ => (s, none)
  | .startRun worker run answers =>
    match s.workers worker with
    | .claimed job =>
      s.after worker (.running job run.id) (.finished job (retryExecution job.now config.retryAfter))
        (s.db.transact (startRun run) answers)
    | _ => (s, none)
  | .fail worker failure =>
    match s.workers worker with
    | .running job runId => (s.setWorker worker (.failing job runId failure), none)
    | _ => (s, none)
  | .persistSuccess worker finish at' answers =>
    match s.workers worker with
    | .running job runId =>
      s.after worker .idle (.failing job runId retryablePersistenceFailure)
        (s.db.transact (fun tables =>
          { finish with runId := runId }.persistSuccess policy tables job.claim at') answers)
    | _ => (s, none)
  | .finishFailedRun worker finish at' answers =>
    match s.workers worker with
    | .failing job runId failure =>
      s.after worker .idle (.finished job (retryExecution job.now config.retryAfter))
        (s.db.transact (fun tables =>
          { finish with runId := runId }.finishFailedRun config tables failure job.claim at')
          answers)
    | _ => (s, none)
  | .timeout worker error =>
    match s.workers worker with
    | .claimed job | .running job _ | .failing job _ _ =>
      (s.setWorker worker (.finished job (.retry job.now error)), none)
    | _ => (s, none)
  | .applyOutcome worker at' answers =>
    match s.workers worker with
    | .finished job execution =>
      s.after worker .idle .idle (s.db.transact (fun tables =>
        (FinalWork.outcome execution : FinalWork Url).commit policy config tables job.claim at')
        answers)
    | _ => (s, none)
  | .final claim work at' answers =>
    let result := s.db.transact (work.commit policy config · claim at') answers
    ({ s with db := result.2.1 }, result.2.2)
  | .change effect => ({ s with db := effect s.db }, none)

variable (policy : AssetCachePolicy) (config : SourceSyncConfig)

end Callers

/-! ## A synchronization beside an object that cannot be deleted -/

section Samples

open AssetRepository

attribute [local instance] AssetRepository.plainDigest

end Samples

end Werrss
