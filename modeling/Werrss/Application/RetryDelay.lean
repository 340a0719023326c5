import Werrss.Acquisition.ArticlePage
import Werrss.Application.BackfillJobs
import Werrss.Application.CommitReport
import Werrss.Domain.Pacing
import Werrss.Machinery.Clocked

/-!
# Application/RetryDelay — from which instant a retry is delayed

    claim ──▸ now ─────── the attempt ───────▸ failure ──▸ finish_failed_run
               │                                             │ the clock is read again
               ▾                                             ▾
         now + retry_after                        finished_at + retry_after

A handler is a computation under the database clock.  Its retries are delayed from the instant its
worker claimed the job, except where a source sync records the failure of a run it had started.  So
**a retry is later than the failure by the delay exactly when** the failure was recorded, or was not
observed after the claim.
-/

open Machinery Machinery.Clocked

namespace Werrss

/-! ## Answers that take time -/

/-- An answer of the outside, and how long it takes. -/
structure Call (A : Type) where
  answer : A
  elapsed : ℕ

def Call.await {E A : Type} (call : Call A) : Clocked E A := do
  wait call.elapsed
  return call.answer

/-- A `database_now`: the time before and after the clock is read, and whether an answer arrives. -/
structure ClockCall where
  before : ℕ
  after : ℕ
  answers : Bool

def ClockCall.databaseNow {E : Type} (call : ClockCall) : Clocked E (Option DateTime) := do
  wait call.before
  let now ← instant
  wait call.after
  return if call.answers then some now else none

/-- What a handler reports of a failure: its instant, and the outcome of the job.  There is none
where the handler panics. -/
structure Report where
  failedAt : DateTime
  execution : Option JobExecution

/-- How a handler ends without a failure. -/
inductive HandlerDone
  | succeeded | committed
  | deferred (resumeAt : DateTime)

/-- The failure of this instant. -/
def failAs {A : Type} (execution : Option JobExecution) : Clocked Report A :=
  throwAt fun t => ⟨t, execution⟩

/-! ## Acquisition failures -/

/-- `WeReadAdapterError`: what its response parser raises, and the rest. -/
inductive WeReadFailure
  | parser (error : WeReadAdapterError)
  | leaseLost | leaseBackend | verificationRequired | protocol | browser
  | credentialProviderNotConfigured | invalidReviewId
deriving DecidableEq

/-- `ArticlePageError`: what the extraction raises, and the rest. -/
inductive ArticlePageFailure
  | extraction (error : ArticlePageError)
  | browser | unsafeRedirect | operationTimedOut
deriving DecidableEq

/-- `SyncAcquisitionError`. -/
inductive SyncAcquisitionError
  | noAccountEnrolled
  | weRead (error : WeReadFailure)
  | articlePage (error : ArticlePageFailure)
deriving DecidableEq

/-- `classify_acquisition_error`. -/
def classifyAcquisitionError : SyncAcquisitionError → ClassifiedSyncFailure
  | .noAccountEnrolled => ⟨.failed, .permanent, "no usable WeRead account is enrolled"⟩
  | .weRead (.parser (.authenticationExpired _)) =>
    ⟨.authenticationRequired, .authenticationExpired, "WeRead authentication expired"⟩
  | .weRead (.parser (.riskControlled _)) =>
    ⟨.riskControlled, .riskControlled, "WeRead request was risk-controlled"⟩
  | .weRead .verificationRequired =>
    ⟨.blocked, .blocked, "authenticated WeRead article acquisition was blocked"⟩
  | .weRead (.parser .invalidArticleUrl) | .weRead .invalidReviewId =>
    ⟨.failed, .permanent, "WeRead article identity was invalid"⟩
  | .weRead .credentialProviderNotConfigured =>
    ⟨.failed, .permanent, "WeRead authentication configuration is incomplete"⟩
  | .articlePage .unsafeRedirect | .articlePage (.extraction .verificationRequired) =>
    ⟨.blocked, .blocked, "public article acquisition was blocked"⟩
  | .weRead .leaseLost | .weRead .leaseBackend | .weRead .protocol | .weRead .browser
  | .articlePage .browser | .articlePage .operationTimedOut =>
    ⟨.retryableFailure, .retryable, "upstream acquisition failed temporarily"⟩
  | .weRead (.parser (.unexpectedResponse _)) =>
    ⟨.retryableFailure, .retryable, "WeRead returned an unexpected response"⟩
  | .articlePage (.extraction (.invalidExtraction _)) =>
    ⟨.failed, .permanent, "public article content could not be extracted"⟩

/-- `should_queue_article_backfill`. -/
def shouldQueueArticleBackfill : SyncAcquisitionError → Bool
  | .articlePage .browser | .articlePage .operationTimedOut | .weRead .leaseLost
  | .weRead .leaseBackend | .weRead .protocol | .weRead (.parser (.unexpectedResponse _))
  | .weRead .browser => true
  | _ => false

/-! ## Article backfill -/

/-- `retry_execution` of `article_backfill_handler`. -/
def backfillRetry (now : DateTime) (retryAfter : Duration) (message : String) : JobExecution :=
  match DateTime.checkedAddSigned now retryAfter with
  | none => .failed (message ++ "; retry time is outside the supported range")
  | some retryAt => .retry retryAt message

/-- `classify_acquisition_failure`. -/
def classifyAcquisitionFailure (error : SyncAcquisitionError) (now : DateTime)
    (retryAfter : Duration) : JobExecution :=
  if error = .noAccountEnrolled then
    backfillRetry now retryAfter "article backfill is waiting for a usable WeRead account"
  else if (classifyAcquisitionError error).outcome = .retryableFailure then
    backfillRetry now retryAfter "article backfill acquisition failed temporarily"
  else .failed (classifyAcquisitionError error).failure.message

/-- What a backfill calls: the clock, the source, a version, the page, the clock again, the assets,
and the transaction.  `normalizes` is whether `prepare_article` succeeds. -/
structure BackfillCalls where
  started : ClockCall
  find : Call (Except Unit (Option SourceRow))
  version : Call Bool
  page : Call (Except SyncAcquisitionError Unit)
  finished : ClockCall
  normalizes : Bool
  archive : Call Unit
  persist : Call Bool

section Handlers

variable {Url : Type} [UrlCrate Url] [LawfulUrlCrate Url] [SerdeCrate]

variable (Url) in
/-- `ArticleBackfillJobHandler::execute`. -/
def BackfillCalls.execute (calls : BackfillCalls) (retryAfter : Duration)
    (quietHours : Option QuietHours) (lease : JobLease) (now : DateTime) :
    Clocked Report HandlerDone := do
  let unavailable := backfillRetry now retryAfter
    "article backfill storage is temporarily unavailable"
  match (validateLease lease : Except String (Uuid × WeReadArticleReference Url)) with
  | .error error => failAs (some (.failed error))
  | .ok _ =>
    match ← calls.started.databaseNow with
    | none => failAs (some unavailable)
    | some startedAt =>
      match QuietHours.deferral quietHours retryAfter startedAt with
      | some resumeAt => return .deferred resumeAt
      | none =>
        match ← calls.find.await with
        | .error _ => failAs (some unavailable)
        | .ok none => failAs (some (.failed "article backfill source is missing"))
        | .ok (some _) =>
          match ← calls.version.await with
          | false => failAs (some unavailable)
          | true =>
            match ← calls.page.await with
            | .error error => failAs (some (classifyAcquisitionFailure error now retryAfter))
            | .ok _ =>
              match ← calls.finished.databaseNow with
              | none => failAs (some unavailable)
              | some _ =>
                match calls.normalizes with
                | false =>
                  failAs (some (.failed "article backfill data could not be normalized"))
                | true =>
                  calls.archive.await
                  match ← calls.persist.await with
                  | false => failAs (some unavailable)
                  | true => return .committed

/-! ## Asset repair -/

/-- What `repair_target` tells of a missing asset. -/
structure RepairTarget where
  exhausted : Bool
  nextAllowedAt : Option DateTime
  refererUrl : String

/-- How a fetch for a repair ends. -/
inductive RepairFetch
  | fetched | confirmedExpiry | failed
deriving DecidableEq

/-- What a repair calls: the target, the fetch, and the statements on the repair state. -/
structure RepairCalls where
  target : Call (Except Unit (Option RepairTarget))
  fetch : Call RepairFetch
  restore : Call Bool
  complete : Call Bool
  expiry : Call Bool
  record : Call (Except Unit Bool)

/-- A retry at `now + self.retry_after`, which panics outside the calendar. -/
def repairRetry (now : DateTime) (retryAfter : Duration) (error : String) : Option JobExecution :=
  (DateTime.checkedAddSigned now retryAfter).map (JobExecution.retry · error)

namespace RepairCalls

/-- `failure`: the state says whether the attempts are exhausted. -/
def failure (calls : RepairCalls) (retryAfter : Duration) (now : DateTime) (error : String) :
    Clocked Report HandlerDone := do
  let failedAt ← instant
  match ← calls.record.await with
  | .ok true => throw ⟨failedAt, some (.failed error)⟩
  | .ok false => throw ⟨failedAt, repairRetry now retryAfter error⟩
  | .error _ => failAs (repairRetry now retryAfter "asset repair state could not be updated")

/-- `confirmed_expiry`. -/
def confirmedExpiry (calls : RepairCalls) (retryAfter : Duration) (now : DateTime) :
    Clocked Report HandlerDone := do
  match ← calls.expiry.await with
  | true => return .committed
  | false => failAs (repairRetry now retryAfter "asset expiry handoff could not be recorded")

/-- The end of a repair that is done. -/
def finish (calls : RepairCalls) (retryAfter : Duration) (now : DateTime) :
    Clocked Report HandlerDone := do
  match ← calls.complete.await with
  | true => return .succeeded
  | false => failAs (repairRetry now retryAfter "asset repair completion could not be recorded")

/-- The asset of the payload. -/
def payloadAsset (payload : String) : Option Uuid := do
  let fields ← (← SerdeCrate.readJson payload).asObject
  let assetId ← SerdeCrate.parseUuid (← (← fields.lookup "asset_id").asStr)
  if assetId = .nil then none else some assetId

variable (Url) in
/-- `AssetRepairJobHandler::execute`. -/
def execute (calls : RepairCalls) (retryAfter : Duration) (lease : JobLease) (now : DateTime) :
    Clocked Report HandlerDone := do
  if lease.job.jobType ≠ .assetRepair then
    failAs (some (.failed "asset repair handler received an unsupported job type"))
  else if (payloadAsset lease.job.payload).isNone then
    failAs (some (.failed "asset repair job payload is invalid"))
  else
    match ← calls.target.await with
    | .error _ => calls.failure retryAfter now "asset repair target could not be loaded"
    | .ok none => calls.finish retryAfter now
    | .ok (some target) =>
      if target.exhausted then failAs (some (.failed "asset repair attempts are exhausted"))
      else
        match target.nextAllowedAt.filter (now < ·) with
        | some resumeAt => return .deferred resumeAt
        | none =>
          match (VerifiedWechatArticleUrl.parse target.refererUrl
              : Except SourceError (VerifiedWechatArticleUrl Url)) with
          | .error _ => calls.failure retryAfter now "asset repair referer is invalid"
          | .ok _ =>
            match ← calls.fetch.await with
            | .confirmedExpiry => calls.confirmedExpiry retryAfter now
            | .failed => calls.failure retryAfter now "asset repair fetch failed"
            | .fetched =>
              match ← calls.restore.await with
              | true => calls.finish retryAfter now
              | false => calls.failure retryAfter now "asset repair bytes could not be stored"

end RepairCalls

/-! ## Source synchronization -/

/-- What a sync calls for one reference. -/
structure ReferenceCalls where
  hasUrl : Bool
  version : Call Bool
  page : Call (Except SyncAcquisitionError Unit)

/-- The failure transaction of a run: the clock, the connection, and what the statements meet. -/
structure FailedRunCalls (Url : Type) [UrlCrate Url] [DecidableEq Url] where
  clock : ClockCall
  transaction : Call Bool
  tables : WorkTables
  work : SyncFinish Url
  statementsAt : DateTime

/-- What a source sync calls: the clock, the source, the start of its run, the list, each article,
the clock again, the assets, the transaction, and on a failure the failure transaction. -/
structure SyncCalls (Url : Type) [UrlCrate Url] [DecidableEq Url] where
  started : ClockCall
  find : Call (Except Unit (Option SourceRow))
  startRun : Call Bool
  list : Call (Except SyncAcquisitionError (List ReferenceCalls))
  finished : ClockCall
  prepare : Call Unit
  persist : Call Bool
  failed : FailedRunCalls Url

/-- `SourceSyncExecutionError`: a failed run knows the instant of its failure. -/
inductive SyncStop
  | beforeRun (report : Report)
  | afterRun (failedAt : DateTime) (failure : ClassifiedSyncFailure)

/-- `validate_lease` of `source_sync_handler`. -/
def validateSyncLease (lease : JobLease) : Except String Uuid :=
  if lease.job.jobType ≠ .sourceSync then
    .error "source-sync handler received an unsupported job type"
  else
    match lease.job.sourceId with
    | none => .error "source-sync job is missing its source"
    | some sourceUuid =>
      let payloadSource : Option Uuid := do
        let fields ← (← SerdeCrate.readJson lease.job.payload).asObject
        SerdeCrate.parseUuid (← (← fields.lookup "source_id").asStr)
      if payloadSource ≠ some sourceUuid then
        .error "source-sync job payload does not match its source"
      else if lease.job.leaseOwner.isNone then .error "source-sync job lease is incomplete"
      else .ok sourceUuid

namespace SyncCalls

variable [DecidableEq Url]

/-- A failure before the run is started. -/
def stopBefore {A : Type} (execution : JobExecution) : Clocked SyncStop A :=
  throwAt fun t => .beforeRun ⟨t, some execution⟩

/-- A failure of the run. -/
def stopAfter {A : Type} (failure : ClassifiedSyncFailure) : Clocked SyncStop A :=
  throwAt fun t => .afterRun t failure

/-- The articles, in the order of the list. -/
def fetchEach : List ReferenceCalls → Clocked SyncStop Unit
  | [] => return ()
  | reference :: references =>
    match reference.hasUrl with
    | false => fetchEach references
    | true => do
      match ← reference.version.await with
      | false => stopAfter retryablePersistenceFailure
      | true =>
        match ← reference.page.await with
        | .ok _ => fetchEach references
        | .error error =>
          if shouldQueueArticleBackfill error then fetchEach references
          else if (classifyAcquisitionError error).outcome = .failed then fetchEach references
          else stopAfter (classifyAcquisitionError error)

/-- `execute_inner`, from the started run on. -/
def executeRun (calls : SyncCalls Url) : Clocked SyncStop HandlerDone := do
  match ← calls.list.await with
  | .error error => stopAfter (classifyAcquisitionError error)
  | .ok references =>
    if UInt32.size ≤ references.length then
      stopAfter ⟨.failed, .permanent, "source returned too many articles"⟩
    else
      fetchEach references
      match ← calls.finished.databaseNow with
      | none => stopAfter retryablePersistenceFailure
      | some _ =>
        calls.prepare.await
        match ← calls.persist.await with
        | false => stopAfter retryablePersistenceFailure
        | true => return .committed

/-- `execute_inner`. -/
def executeInner (calls : SyncCalls Url) (retryAfter : Duration) (quietHours : Option QuietHours)
    (lease : JobLease) (now : DateTime) : Clocked SyncStop HandlerDone := do
  match validateSyncLease lease with
  | .error error => stopBefore (.failed error)
  | .ok _ =>
    match ← calls.started.databaseNow with
    | none => stopBefore (retryExecution now retryAfter)
    | some startedAt =>
      match QuietHours.deferral quietHours retryAfter startedAt with
      | some resumeAt => return .deferred resumeAt
      | none =>
        match ← calls.find.await with
        | .error _ => stopBefore (retryExecution now retryAfter)
        | .ok none => stopBefore (.failed "source-sync job references a missing source")
        | .ok (some _) =>
          match ← calls.startRun.await with
          | false => stopBefore (retryExecution now retryAfter)
          | true => calls.executeRun

end SyncCalls

/-- `finish_failed_run`: the jobs it commits, or the instant it fails at. -/
def FailedRunCalls.finish [DecidableEq Url] (calls : FailedRunCalls Url) (config : SourceSyncConfig)
    (classified : ClassifiedSyncFailure) (claim : JobCompletion) : Clocked DateTime (List Job) := do
  match ← calls.clock.databaseNow with
  | none => throwAt id
  | some finishedAt =>
    match ← calls.transaction.await with
    | false => throwAt id
    | true =>
      let work := { calls.work with run := { calls.work.run with finishedAt := finishedAt } }
      match work.finishFailedRun config calls.tables classified claim calls.statementsAt with
      | none => throwAt id
      | some tables => return tables.jobs

/-! ## How an attempt ends -/

/-- How the attempt of a handler ends: without a failure, with an outcome that its worker applies,
or with the failure of a run recorded in a transaction of its own. -/
inductive HandlerEnd
  | done (done : HandlerDone)
  | failed (report : Report)
  | recorded (failedAt : DateTime) (failure : ClassifiedSyncFailure) (jobs : List Job)

/-- The end of a handler that commits no failure. -/
def handlerEnd (result : Except Report HandlerDone) : HandlerEnd :=
  match result with
  | .ok done => .done done
  | .error report => .failed report

/-- `SourceSyncJobHandler::execute`. -/
def SyncCalls.execute [DecidableEq Url] (calls : SyncCalls Url) (config : SourceSyncConfig)
    (quietHours : Option QuietHours) (lease : JobLease) (claim : JobCompletion)
    (now startedAt : DateTime) : HandlerEnd :=
  match (calls.executeInner config.retryAfter quietHours lease now).run startedAt with
  | (.ok done, _) => .done done
  | (.error (.beforeRun report), _) => .failed report
  | (.error (.afterRun failedAt failure), t) =>
    match ((calls.failed.finish config failure claim).run t).1 with
    | .ok jobs => .recorded failedAt failure jobs
    | .error finishedAt => .failed ⟨finishedAt, some (retryExecution now config.retryAfter)⟩

/-- A handler with a retry delay, its job, and what its calls meet. -/
inductive RetryHandler (Url : Type) [UrlCrate Url] [DecidableEq Url]
  | sourceSync (config : SourceSyncConfig) (quietHours : Option QuietHours) (lease : JobLease)
      (calls : SyncCalls Url)
  | articleBackfill (retryAfter : Duration) (quietHours : Option QuietHours) (lease : JobLease)
      (calls : BackfillCalls)
  | assetRepair (retryAfter : Duration) (lease : JobLease) (calls : RepairCalls)

namespace RetryHandler

variable [DecidableEq Url]

/-- The configured delay. -/
def retryAfter : RetryHandler Url → Duration
  | sourceSync config _ _ _ => config.retryAfter
  | articleBackfill retryAfter _ _ _ | assetRepair retryAfter _ _ => retryAfter

/-- The claim under which the outcome is applied. -/
def claim : RetryHandler Url → JobCompletion
  | sourceSync _ _ lease _ | articleBackfill _ _ lease _ | assetRepair _ lease _ =>
    ⟨lease.job.id, lease.job.leaseOwner.getD "", lease.token⟩

/-- `execute`, called with the instant of the claim and started at an instant of the database. -/
def execute (handler : RetryHandler Url) (now startedAt : DateTime) : HandlerEnd :=
  match handler with
  | sourceSync config quietHours lease calls =>
    calls.execute config quietHours lease handler.claim now startedAt
  | articleBackfill retryAfter quietHours lease calls =>
    handlerEnd ((calls.execute Url retryAfter quietHours lease now).run startedAt).1
  | assetRepair retryAfter lease calls =>
    handlerEnd ((calls.execute Url retryAfter lease now).run startedAt).1

/-- **The failure is recorded**: it is one of a run that was started, and `finish_failed_run`
commits it. -/
def Records (handler : RetryHandler Url) (now startedAt : DateTime) : Prop :=
  match handler with
  | sourceSync config quietHours lease calls =>
    match (calls.executeInner config.retryAfter quietHours lease now).run startedAt with
    | (.error (.afterRun _ failure), t) =>
      ((calls.failed.finish config failure handler.claim).run t).1.isOk = true
    | _ => False
  | articleBackfill _ _ _ _ | assetRepair _ _ _ => False

end RetryHandler

/-- **The retry that results**: a failure of an instant, and the row that its outcome leaves,
applied by the worker or by the handler itself. -/
inductive HandlerEnd.Retries (claim : JobCompletion) : HandlerEnd → DateTime → Job → Prop
  | applied {failedAt retryAt outcomeAt : DateTime} {error : String} {jobs jobs' : List Job}
      {job : Job}
      (happly : FeedSystem.applyExecution jobs claim (.retry retryAt error) outcomeAt = some jobs')
      (hkeys : (jobs'.map Job.id).Nodup) (hjob : Rows.get Job.id jobs' claim.jobId = some job) :
      Retries claim (.failed ⟨failedAt, some (.retry retryAt error)⟩) failedAt job
  | recorded {failedAt : DateTime} {failure : ClassifiedSyncFailure} {jobs : List Job} {job : Job}
      (hretryable : failure.outcome = .retryableFailure)
      (hkeys : (jobs.map Job.id).Nodup) (hjob : Rows.get Job.id jobs claim.jobId = some job) :
      Retries claim (.recorded failedAt failure jobs) failedAt job

end Handlers

/-! ## From which instant a failure counts -/

/-- A retry of the report is delayed from the claim. -/
def Report.CountsFrom (report : Report) (now : DateTime) (retryAfter : Duration) : Prop :=
  ∀ retryAt error, report.execution = some (.retry retryAt error) → retryAt = now + retryAfter

section Counting

variable {now : DateTime} {retryAfter : Duration}

theorem eq_of_checkedAddSigned {t : DateTime}
    (h : DateTime.checkedAddSigned now retryAfter = some t) : t = now + retryAfter := by
  unfold DateTime.checkedAddSigned at h
  split_ifs at h
  exact (Option.some.inj h).symm

theorem countsFrom_failed (t : DateTime) (error : String) :
    (Report.mk t (some (.failed error))).CountsFrom now retryAfter := fun _ _ h =>
  nomatch Option.some.inj h

theorem countsFrom_backfillRetry (t : DateTime) (message : String) :
    (Report.mk t (some (backfillRetry now retryAfter message))).CountsFrom now retryAfter := by
  intro retryAt error h
  unfold backfillRetry at h
  split at h
  · exact nomatch Option.some.inj h
  · rename_i t hadd
    obtain ⟨rfl, -⟩ := JobExecution.retry.inj (Option.some.inj h)
    exact eq_of_checkedAddSigned hadd

theorem countsFrom_classify (t : DateTime) (error : SyncAcquisitionError) :
    (Report.mk t (some (classifyAcquisitionFailure error now retryAfter))).CountsFrom now
      retryAfter := by
  unfold classifyAcquisitionFailure
  split_ifs
  · exact countsFrom_backfillRetry t _
  · exact countsFrom_backfillRetry t _
  · exact countsFrom_failed t _

theorem countsFrom_retryExecution (t : DateTime) :
    (Report.mk t (some (retryExecution now retryAfter))).CountsFrom now retryAfter := by
  intro retryAt error h
  unfold retryExecution at h
  split at h
  · exact nomatch Option.some.inj h
  · rename_i t hadd
    obtain ⟨rfl, -⟩ := JobExecution.retry.inj (Option.some.inj h)
    exact eq_of_checkedAddSigned hadd

theorem countsFrom_repairRetry (t : DateTime) (message : String) :
    (Report.mk t (repairRetry now retryAfter message)).CountsFrom now retryAfter := by
  intro retryAt error h
  obtain ⟨t, hadd, h⟩ := Option.map_eq_some_iff.mp h
  obtain ⟨rfl, -⟩ := JobExecution.retry.inj h
  exact eq_of_checkedAddSigned hadd

theorem throws_await {E A : Type} {Q : E → ℤ → Prop} (call : Call A) :
    Throws (call.await : Clocked E A) Q :=
  (throws_wait call.elapsed).bind fun _ => throws_pure _

theorem throws_databaseNow {E : Type} {Q : E → ℤ → Prop} (call : ClockCall) :
    Throws (call.databaseNow : Clocked E (Option DateTime)) Q :=
  (throws_wait _).bind fun _ => throws_instant.bind fun _ => (throws_wait _).bind fun _ =>
    throws_pure _

/-- The clock is read after the call begins. -/
theorem le_of_databaseNow {E : Type} {call : ClockCall} {t t' now : DateTime}
    (h : (call.databaseNow : Clocked E (Option DateTime)).run t = (.ok (some now), t')) :
    t ≤ now := by
  obtain ⟨_, t₁, hbefore, h⟩ := ok_of_bind h
  obtain ⟨read, t₂, hread, h⟩ := ok_of_bind h
  obtain ⟨_, t₃, -, h⟩ := ok_of_bind h
  have hle := le_of_run hbefore
  obtain ⟨hok, rfl⟩ := Prod.mk.inj hread
  obtain rfl := Except.ok.inj hok
  have hnow : (if call.answers = true then some t₁ else none) = some now :=
    Except.ok.inj (Prod.mk.inj h).1
  split_ifs at hnow
  exact (Option.some.inj hnow) ▸ hle

/-- The failures of a handler are counted from the claim. -/
def Counted (now : DateTime) (retryAfter : Duration) (report : Report) (_ : ℤ) : Prop :=
  report.CountsFrom now retryAfter

theorem throws_failAs {A : Type} {execution : Option JobExecution}
    (h : ∀ t, (Report.mk t execution).CountsFrom now retryAfter) :
    Throws (failAs execution : Clocked Report A) (Counted now retryAfter) :=
  throws_throwAt h

namespace RepairCalls

theorem throws_failure (calls : RepairCalls) (error : String) :
    Throws (calls.failure retryAfter now error) (Counted now retryAfter) := by
  unfold failure
  refine throws_instant.bind fun failedAt => (throws_await _).bind fun exhausted => ?_
  rcases exhausted with _ | _ | _
  · exact throws_failAs fun t => countsFrom_repairRetry t _
  · exact throws_throw fun _ => countsFrom_repairRetry failedAt error
  · exact throws_throw fun _ => countsFrom_failed failedAt error

theorem throws_confirmedExpiry (calls : RepairCalls) :
    Throws (calls.confirmedExpiry retryAfter now) (Counted now retryAfter) := by
  refine (throws_await _).bind fun recorded => ?_
  rcases recorded
  · exact throws_failAs fun t => countsFrom_repairRetry t _
  · exact throws_pure _

theorem throws_finish (calls : RepairCalls) :
    Throws (calls.finish retryAfter now) (Counted now retryAfter) := by
  refine (throws_await _).bind fun completed => ?_
  rcases completed
  · exact throws_failAs fun t => countsFrom_repairRetry t _
  · exact throws_pure _

end RepairCalls

/-- A sync that stops: before its run it counts from the claim, after it from an instant that the
clock has reached. -/
def SyncStop.Counted (now : DateTime) (retryAfter : Duration) (stop : SyncStop) (t : ℤ) : Prop :=
  match stop with
  | .beforeRun report => report.CountsFrom now retryAfter
  | .afterRun failedAt _ => failedAt ≤ t

namespace SyncCalls

theorem throws_stopBefore {A : Type} {execution : JobExecution}
    (h : ∀ t, (Report.mk t (some execution)).CountsFrom now retryAfter) :
    Throws (stopBefore execution : Clocked SyncStop A) (SyncStop.Counted now retryAfter) :=
  throws_throwAt h

theorem throws_stopAfter {A : Type} (failure : ClassifiedSyncFailure) :
    Throws (stopAfter failure : Clocked SyncStop A) (SyncStop.Counted now retryAfter) :=
  throws_throwAt Int.le_refl

theorem throws_fetchEach (references : List ReferenceCalls) :
    Throws (fetchEach references) (SyncStop.Counted now retryAfter) := by
  induction references with
  | nil => exact throws_pure _
  | cons reference references ih =>
    unfold fetchEach
    split
    · exact ih
    refine (throws_await _).bind fun version => ?_
    rcases version
    · exact throws_stopAfter _
    refine (throws_await _).bind fun page => ?_
    rcases page with error | _
    · show Throws (if shouldQueueArticleBackfill error = true then _ else _) _
      split_ifs
      · exact ih
      · exact ih
      · exact throws_stopAfter _
    · exact ih

end SyncCalls

/-- A row that a retry was written to waits for its instant. -/
theorem runAfter_of_retry {jobs jobs' : List Job} {claim : JobCompletion}
    {outcomeAt retryAt : DateTime} {error : String} {job : Job}
    (happly : FeedSystem.applyExecution jobs claim (.retry retryAt error) outcomeAt = some jobs')
    (hkeys : (jobs'.map Job.id).Nodup) (hjob : Rows.get Job.id jobs' claim.jobId = some job) :
    job.runAfter = retryAt := by
  have hretry : JobTable.retry jobs claim.jobId claim.owner claim.token outcomeAt retryAt error =
      some jobs' := happly
  unfold JobTable.retry at hretry
  split_ifs at hretry
  obtain ⟨⟨before, hmem, hid, hfenced⟩, rfl⟩ := JobTable.update_eq_some hretry
  have hwritten : JobTable.countFailure .retryWait outcomeAt retryAt error before ∈
      jobs.map fun job =>
        if job.id = claim.jobId ∧
            JobTable.isFenced claim.owner claim.token outcomeAt job = true then
          JobTable.countFailure .retryWait outcomeAt retryAt error job
        else job :=
    List.mem_map.mpr ⟨before, hmem, if_pos ⟨hid, hfenced⟩⟩
  have hget := Rows.get_of_mem hkeys hwritten
  have hkey : (JobTable.countFailure .retryWait outcomeAt retryAt error before).id = claim.jobId :=
    hid
  rw [hkey] at hget
  rw [Option.some.inj (hjob.symm.trans hget)]
  rfl

end Counting

section Results

variable {Url : Type} [UrlCrate Url] [LawfulUrlCrate Url] [SerdeCrate] {now : DateTime}
  {retryAfter : Duration}

/-- **Every retry of a backfill is counted from the claim.** -/
theorem BackfillCalls.throws_execute (calls : BackfillCalls) (quietHours : Option QuietHours)
    (lease : JobLease) :
    Throws (calls.execute Url retryAfter quietHours lease now) (Counted now retryAfter) := by
  have hunavailable : Throws (failAs (some (backfillRetry now retryAfter
      "article backfill storage is temporarily unavailable")) : Clocked Report HandlerDone)
      (Counted now retryAfter) := throws_failAs fun t => countsFrom_backfillRetry t _
  unfold execute
  split
  · exact throws_failAs fun t => countsFrom_failed t _
  refine (throws_databaseNow _).bind fun started => ?_
  rcases started with _ | startedAt
  · exact hunavailable
  show Throws (match QuietHours.deferral quietHours retryAfter startedAt with
    | some resumeAt => _
    | none => _) _
  split
  · exact throws_pure _
  refine (throws_await _).bind fun source => ?_
  rcases source with _ | _ | source
  · exact hunavailable
  · exact throws_failAs fun t => countsFrom_failed t _
  refine (throws_await _).bind fun version => ?_
  rcases version
  · exact hunavailable
  refine (throws_await _).bind fun page => ?_
  rcases page with error | _
  · exact throws_failAs fun t => countsFrom_classify t error
  refine (throws_databaseNow _).bind fun finished => ?_
  rcases finished with _ | finishedAt
  · exact hunavailable
  rcases hnormal : calls.normalizes
  · exact throws_failAs fun t => countsFrom_failed t _
  refine (throws_await _).bind fun _ => (throws_await _).bind fun persisted => ?_
  rcases persisted
  · exact hunavailable
  · exact throws_pure _

namespace RepairCalls

/-- **Every retry of a repair is counted from the claim.** -/
theorem throws_execute (calls : RepairCalls) (lease : JobLease) :
    Throws (calls.execute Url retryAfter lease now) (Counted now retryAfter) := by
  unfold execute
  split
  · exact throws_failAs fun t => countsFrom_failed t _
  split
  · exact throws_failAs fun t => countsFrom_failed t _
  refine (throws_await _).bind fun target => ?_
  rcases target with _ | _ | target
  · exact calls.throws_failure _
  · exact calls.throws_finish
  show Throws (if target.exhausted = true then _ else _) _
  split
  · exact throws_failAs fun t => countsFrom_failed t _
  split
  · exact throws_pure _
  split
  · exact calls.throws_failure _
  refine (throws_await _).bind fun fetch => ?_
  rcases fetch
  · refine (throws_await _).bind fun restored => ?_
    rcases restored
    · exact calls.throws_failure _
    · exact calls.throws_finish
  · exact calls.throws_confirmedExpiry
  · exact calls.throws_failure _

end RepairCalls

namespace SyncCalls

variable [DecidableEq Url]

omit [LawfulUrlCrate Url] [SerdeCrate] in
theorem throws_executeRun (calls : SyncCalls Url) :
    Throws calls.executeRun (SyncStop.Counted now retryAfter) := by
  refine (throws_await _).bind fun list => ?_
  rcases list with error | references
  · exact throws_stopAfter _
  show Throws (if UInt32.size ≤ references.length then _ else _) _
  split_ifs
  · exact throws_stopAfter _
  refine (throws_fetchEach references).bind fun _ => (throws_databaseNow _).bind fun finished => ?_
  rcases finished with _ | finishedAt
  · exact throws_stopAfter _
  refine (throws_await _).bind fun _ => (throws_await _).bind fun persisted => ?_
  rcases persisted
  · exact throws_stopAfter _
  · exact throws_pure _

omit [LawfulUrlCrate Url] in
/-- **A sync that stops before its run counts from the claim; a failed run knows an instant that has
passed.** -/
theorem throws_executeInner (calls : SyncCalls Url) (quietHours : Option QuietHours)
    (lease : JobLease) :
    Throws (calls.executeInner retryAfter quietHours lease now)
      (SyncStop.Counted now retryAfter) := by
  have hretry : Throws (stopBefore (retryExecution now retryAfter) : Clocked SyncStop HandlerDone)
      (SyncStop.Counted now retryAfter) := throws_stopBefore countsFrom_retryExecution
  unfold executeInner
  split
  · exact throws_stopBefore fun t => countsFrom_failed t _
  refine (throws_databaseNow _).bind fun started => ?_
  rcases started with _ | startedAt
  · exact hretry
  show Throws (match QuietHours.deferral quietHours retryAfter startedAt with
    | some resumeAt => _
    | none => _) _
  split
  · exact throws_pure _
  refine (throws_await _).bind fun source => ?_
  rcases source with _ | _ | source
  · exact hretry
  · exact throws_stopBefore fun t => countsFrom_failed t _
  refine (throws_await _).bind fun run => ?_
  rcases run
  · exact hretry
  · exact calls.throws_executeRun

end SyncCalls

omit [SerdeCrate] in
/-- A failure transaction delays the job from an instant that the clock has reached. -/
theorem FailedRunCalls.runAfter_of_finish [DecidableEq Url] {calls : FailedRunCalls Url}
    {config : SourceSyncConfig} {failure : ClassifiedSyncFailure} {claim : JobCompletion}
    {t : DateTime} {jobs : List Job} {job : Job} (hretryable : failure.outcome = .retryableFailure)
    (hkeys : (jobs.map Job.id).Nodup) (hjob : Rows.get Job.id jobs claim.jobId = some job)
    (h : ((calls.finish config failure claim).run t).1 = .ok jobs) :
    t + config.retryAfter ≤ job.runAfter := by
  rcases hend : (calls.finish config failure claim).run t with ⟨result, t'⟩
  rw [hend] at h
  obtain rfl : result = .ok jobs := h
  obtain ⟨finished, t₁, hclock, hend⟩ := ok_of_bind hend
  rcases finished with _ | finishedAt
  · exact nomatch (Prod.mk.inj hend).1
  obtain ⟨answered, t₂, -, hend⟩ := ok_of_bind hend
  rcases answered
  · exact nomatch (Prod.mk.inj hend).1
  have hread := le_of_databaseNow hclock
  dsimp only at hend
  split at hend
  · exact nomatch (Prod.mk.inj hend).1
  · rename_i tables hfinish
    obtain rfl := Except.ok.inj (Prod.mk.inj hend).1
    obtain ⟨enqueued, -, hfinish⟩ := Option.bind_eq_some_iff.mp hfinish
    obtain ⟨sources, -, hfinish⟩ := Option.bind_eq_some_iff.mp hfinish
    obtain ⟨syncRuns, -, hfinish⟩ := Option.bind_eq_some_iff.mp hfinish
    obtain ⟨outcome, houtcome, hfinish⟩ := Option.bind_eq_some_iff.mp hfinish
    obtain ⟨settled, happly, hfinish⟩ := Option.bind_eq_some_iff.mp hfinish
    obtain rfl := Option.some.inj hfinish
    unfold failedRunOutcome at houtcome
    rw [if_pos hretryable] at houtcome
    obtain ⟨retryAt, hadd, houtcome⟩ := Option.bind_eq_some_iff.mp houtcome
    obtain rfl := Option.some.inj houtcome
    rw [runAfter_of_retry happly hkeys hjob, eq_of_checkedAddSigned hadd]
    exact Int.add_le_add_right hread _

/-- **A retry is later than the failure by the delay exactly when** the failure was recorded by its
run, or was not observed after the claim. -/
theorem retry_delay_iff [DecidableEq Url] (handler : RetryHandler Url)
    (now startedAt failedAt : DateTime) (job : Job)
    (h : (handler.execute now startedAt).Retries handler.claim failedAt job) :
    failedAt + handler.retryAfter ≤ job.runAfter ↔
      handler.Records now startedAt ∨ failedAt ≤ now := by
  -- a retry counted from the claim
  have happlied : ∀ {report : Report}, report.CountsFrom now handler.retryAfter →
      (HandlerEnd.failed report).Retries handler.claim failedAt job →
      (failedAt + handler.retryAfter ≤ job.runAfter ↔ failedAt ≤ now) := by
    rintro report hcounts ⟨happly, hkeys, hjob⟩
    rw [runAfter_of_retry happly hkeys hjob, hcounts _ _ rfl]
    exact ⟨Int.le_of_add_le_add_right, fun hle => Int.add_le_add_right hle _⟩
  have hplain : ∀ {result : Except Report HandlerDone},
      (∀ report, result = .error report → report.CountsFrom now handler.retryAfter) →
      (handlerEnd result).Retries handler.claim failedAt job →
      (failedAt + handler.retryAfter ≤ job.runAfter ↔ failedAt ≤ now) := by
    rintro (report | done) hcounts hretries
    · exact happlied (hcounts report rfl) hretries
    · exact nomatch hretries
  rcases handler with ⟨config, quietHours, lease, calls⟩ | ⟨delay, quietHours, lease, calls⟩ |
    ⟨delay, lease, calls⟩
  · have hstop : Throws (calls.executeInner config.retryAfter quietHours lease now)
        (SyncStop.Counted now config.retryAfter) := calls.throws_executeInner quietHours lease
    unfold RetryHandler.execute SyncCalls.execute at h
    unfold RetryHandler.Records
    dsimp only at h ⊢
    rcases hrun : (calls.executeInner config.retryAfter quietHours lease now).run startedAt with
      ⟨(report | ⟨observedAt, failure⟩) | done, t⟩
    · rw [hrun] at h
      rw [false_or]
      exact happlied (hstop startedAt _ t hrun) h
    · rw [hrun] at h
      have hreached : observedAt ≤ t := hstop startedAt _ t hrun
      dsimp only at h ⊢
      rcases hfinish : ((calls.failed.finish config failure
          (RetryHandler.sourceSync config quietHours lease calls).claim).run t).1 with
        finishedAt | jobs
      · rw [hfinish] at h
        have hnot : ¬ (Except.error finishedAt : Except DateTime (List Job)).isOk = true := nofun
        rw [iff_false_intro hnot, false_or]
        exact happlied (countsFrom_retryExecution finishedAt) h
      · rw [hfinish] at h
        rcases h with _ | ⟨hretryable, hkeys, hjob⟩
        refine iff_of_true ?_ (.inl rfl)
        have hdelay := calls.failed.runAfter_of_finish hretryable hkeys hjob hfinish
        exact Int.le_trans (Int.add_le_add_right hreached _) hdelay
    · rw [hrun] at h
      exact nomatch h
  · rw [show RetryHandler.Records _ now startedAt = False from rfl, false_or]
    refine hplain (fun report hreport => ?_) h
    exact calls.throws_execute quietHours lease startedAt report _ (Prod.ext hreport rfl)
  · rw [show RetryHandler.Records _ now startedAt = False from rfl, false_or]
    refine hplain (fun report hreport => ?_) h
    exact calls.throws_execute lease startedAt report _ (Prod.ext hreport rfl)

end Results

/-! ### A slow backfill -/

attribute [local instance] weeklySerde

/-- A call that answers at once. -/
def promptly {A : Type} (answer : A) : Call A := ⟨answer, 0⟩

/-- A backfill whose page times out after the time given. -/
def slowBackfill (elapsed : ℕ) : RetryHandler PlainUrl :=
  .articleBackfill 60000000000 none weeklyLease
    { started := ⟨0, 0, true⟩
      find := promptly (.ok (some weeklySource))
      version := promptly true
      page := ⟨.error (.articlePage .operationTimedOut), elapsed⟩
      finished := ⟨0, 0, true⟩
      normalizes := true
      archive := promptly ()
      persist := promptly true }

/-- What its handler reports. -/
def slowReport (failedAt : DateTime) : HandlerEnd :=
  .failed ⟨failedAt, some (.retry 60000000000 "article backfill acquisition failed temporarily")⟩

theorem execute_slowBackfill (elapsed : ℕ) :
    (slowBackfill elapsed).execute 0 0 = slowReport (0 + elapsed) := by
  have hlease : (validateLease weeklyLease :
      Except String (Uuid × WeReadArticleReference PlainUrl)).isOk = true := by decide +kernel
  unfold RetryHandler.execute slowBackfill BackfillCalls.execute
  dsimp only
  rcases hvalue : (validateLease weeklyLease :
      Except String (Uuid × WeReadArticleReference PlainUrl)) with error | value
  · rw [hvalue] at hlease
    exact nomatch hlease
  · rfl

/-- The claimed job, its lease kept by heartbeats. -/
def beatJob : Job := { weeklyLease.job with leaseUntil := some 180000000000 }

/-- The job once its outcome is applied. -/
def retriedJob (outcomeAt : DateTime) : Job :=
  JobTable.countFailure .retryWait outcomeAt 60000000000
    "article backfill acquisition failed temporarily" beatJob

theorem slowReport_retries (failedAt : DateTime) :
    (slowReport failedAt).Retries (slowBackfill 0).claim failedAt (retriedJob 90000000000) := by
  have happly : FeedSystem.applyExecution [beatJob] (slowBackfill 0).claim
      (.retry 60000000000 "article backfill acquisition failed temporarily") 90000000000 =
      some [retriedJob 90000000000] := by decide +kernel
  exact .applied happly (List.nodup_singleton _) (by decide +kernel)

/-- A page that is given up after ninety seconds is tried again at once: the minute of the delay was
over before. -/
theorem retry_not_delayed :
    ∃ (handler : RetryHandler PlainUrl) (failedAt : DateTime) (job : Job),
      (handler.execute 0 0).Retries handler.claim failedAt job ∧
        ¬ failedAt + handler.retryAfter ≤ job.runAfter ∧
        JobTable.isClaimable failedAt job = true := by
  refine ⟨slowBackfill 90000000000, 90000000000, retriedJob 90000000000, ?_, by decide,
    by decide +kernel⟩
  rw [execute_slowBackfill]
  exact slowReport_retries _

theorem retry_delay_iff_prompt : 0 + 60000000000 ≤ (retriedJob 90000000000).runAfter := by
  have hretries : ((slowBackfill 0).execute 0 0).Retries (slowBackfill 0).claim 0
      (retriedJob 90000000000) := by
    rw [execute_slowBackfill]
    exact slowReport_retries 0
  exact (retry_delay_iff (slowBackfill 0) 0 0 0 _ hretries).mpr (.inr (Int.le_refl 0))

end Werrss
