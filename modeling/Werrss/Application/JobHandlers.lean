import Werrss.Application.ArticlePersistence
import Werrss.Application.FeedRebuild
import Werrss.Persistence.SyncRunRepository

/-!
# Application/JobHandlers — the final units of work of the four handlers

    source_sync       articles, links ─▸ revision ─▸ rebuild, backfills ─▸ schedule ─▸ run ─▸ succeed
                      backfills ─▸ gate | schedule ─▸ run ─▸ retry | fail
    article_backfill  article, links ─▸ revision ─▸ rebuild ─▸ succeed
    feed_rebuild      publication ─▸ succeed
    asset_refresh     fence ─▸ article, links ─▸ revision ─▸ rebuild ─▸ succeed ─▸ successor

Each is one transaction over the tables of `WorkTables`: an `Option`, whose `none` is a transaction
that was dropped.  **Every one of them moves its job through the fence of its claim**, and so does
the outcome a worker applies for its handler.  The tables of the refresh chains are written by the
same transactions and modelled on their own; here a refresh enqueues its successors and that is all.
-/

open Machinery

namespace Werrss

/-! ## The tables -/

/-- The committed tables that handlers write. -/
structure WorkTables where
  jobs : List Job
  sources : List SourceRow
  archive : ArchiveTables
  syncRuns : List SyncRun
  feeds : Uuid → FeedRows

/-- The row of a claimed job while its claim holds, as each fenced statement asks for it. -/
def isClaimed (jobs : List Job) (claim : JobCompletion) (now : DateTime) : Bool :=
  jobs.any fun job =>
    decide (job.id = claim.jobId) && JobTable.isFenced claim.owner claim.token now job

/-- `enqueue_job`, whose failure ends the transaction. -/
def enqueueJob (jobs : List Job) (id : Uuid) (spec : NewJob) : Option (List Job) :=
  match JobTable.enqueue jobs id spec with
  | .error _ => none
  | .ok (jobs, _) => some jobs

/-- `enqueue_job`, one after the other. -/
def enqueueJobs : List Job → List (Uuid × NewJob) → Option (List Job)
  | jobs, [] => some jobs
  | jobs, (id, spec) :: rest => do
    let jobs ← enqueueJob jobs id spec
    enqueueJobs jobs rest

/-- `feed_rebuild_job`. -/
def feedRebuildJob (source : SourceRow) (now : DateTime) : NewJob where
  jobType := .feedRebuild
  sourceId := some source.id
  priority := source.priority
  runAfter := now
  maxAttempts := UInt32.ofNat source.maxAttempts.toNat
  payload := "\x7b\"source_id\":\"" ++ source.id.toText ++ "\"\x7d"
  dedupeKey := "feed_rebuild:" ++ source.id.toText
  now := now

/-- A feed that changed is rebuilt. -/
def enqueueRebuild (jobs : List Job) (changed : Bool) (id : Uuid) (source : SourceRow)
    (now : DateTime) : Option (List Job) :=
  if changed then enqueueJob jobs id (feedRebuildJob source now) else some jobs

section Handlers

variable {Url : Type} [UrlCrate Url] [LawfulUrlCrate Url] [DecidableEq Url]

/-- `article_backfill_job`: a reference without a public URL makes no job.  The payload is the JSON
text of the reference. -/
def articleBackfillJob (source : SourceRow) (reference : WeReadArticleReference Url)
    (payload : String) (now : DateTime) : Option NewJob :=
  if isBlank reference.reviewId ∨ reference.articleUrl.isNone then none
  else some
    { jobType := .articleBackfill
      sourceId := some source.id
      priority := source.priority
      runAfter := now
      maxAttempts := UInt32.ofNat source.maxAttempts.toNat
      payload := payload
      dedupeKey := "article_backfill:" ++ source.id.toText ++ ":" ++ trim reference.reviewId
      now := now }

/-- A reference to queue: the id its job gets, and the text of its payload. -/
structure BackfillReference (Url : Type) [UrlCrate Url] where
  id : Uuid
  reference : WeReadArticleReference Url
  payload : String

/-- `enqueue_backfill_references`. -/
def enqueueBackfillReferences (jobs : List Job) (source : SourceRow)
    (references : List (BackfillReference Url)) (now : DateTime) : Option (List Job) :=
  enqueueJobs jobs (references.filterMap fun backfill =>
    (articleBackfillJob source backfill.reference backfill.payload now).map (backfill.id, ·))

variable [Sha2Crate]

/-- A transaction over the archive, with what it answers. -/
def runArchive {A : Type} (tables : ArchiveTables) (m : ArchiveTx A) : Option (A × ArchiveTables) :=
  match m ⟨tables.articles, ⟨tables.assets, {}⟩⟩ with
  | (.error _, _) => none
  | (.ok a, s) => some (a, ⟨s.articles, AssetRepository.commit s.assets⟩)

/-- `prepare_asset_batch`, whose failure refuses the transaction. -/
def prepareBatch (tables : ArchiveTables) (inputs : List (AssetInput Url)) :
    Option AssetRepository.AssetBatchPreparation :=
  match AssetRepository.prepareAssetBatch tables.assets inputs with
  | .error _ => none
  | .ok preparation => some preparation

/-! ## Source synchronization -/

/-- What a source sync holds when it finishes: the source as it was read before the run, the
articles, and the ids of what it enqueues. -/
structure SyncFinish (Url : Type) [UrlCrate Url] [DecidableEq Url] where
  source : SourceRow
  runId : Uuid
  run : RunFinish
  backfills : List (BackfillReference Url)
  rebuildId : Uuid
  prepared : List (PreparedArticle Url × ArticleSupply)
  startedAt : DateTime
  sourceId_eq : run.sourceId = source.id

/-- A failure as `classify_acquisition_error` leaves it. -/
structure ClassifiedSyncFailure where
  outcome : SyncOutcome
  failure : SyncFailure
deriving DecidableEq, Repr

/-- `SourceSyncJobHandler::persist_success`. -/
def SyncFinish.persistSuccess (policy : AssetCachePolicy) (tables : WorkTables)
    (work : SyncFinish Url) (claim : JobCompletion) (now : DateTime) : Option WorkTables := do
  let preparation ← prepareBatch tables.archive (work.prepared.flatMap (·.1.fetchedAssets))
  let current ← SourceRepository.findForUpdate Url tables.sources work.run.sourceId
  let persisted ← runArchive tables.archive
    (persistEach ⟨policy, some preparation, work.startedAt⟩ work.prepared)
  let jobs ← enqueueRebuild tables.jobs persisted.1 work.rebuildId current work.run.finishedAt
  let jobs ← enqueueBackfillReferences jobs work.source work.backfills work.run.finishedAt
  let sources ← SourceSync.persistSuccess Url tables.sources work.run persisted.1
  let syncRuns ← SyncRunRepository.finish tables.syncRuns work.runId
    ⟨.succeeded, work.run.finishedAt, none,
      if persisted.1 then some (current.feedRevision + 1) else none⟩
  let jobs ← FeedSystem.applyExecution jobs claim .succeeded now
  return { tables with
    jobs := jobs
    sources := sources
    archive := persisted.2
    syncRuns := syncRuns }

/-- The outcome of the job of a failed run. -/
def failedRunOutcome (config : SourceSyncConfig) (finishedAt : DateTime)
    (classified : ClassifiedSyncFailure) : Option JobExecution :=
  if classified.outcome = .retryableFailure then do
    let retryAt ← DateTime.checkedAddSigned finishedAt config.retryAfter
    return .retry retryAt classified.failure.message
  else some (.failed classified.failure.message)

/-- `SourceSyncJobHandler::finish_failed_run`. -/
def SyncFinish.finishFailedRun (config : SourceSyncConfig) (tables : WorkTables)
    (work : SyncFinish Url) (classified : ClassifiedSyncFailure) (claim : JobCompletion)
    (now : DateTime) : Option WorkTables := do
  let jobs ← enqueueBackfillReferences tables.jobs work.source work.backfills work.run.finishedAt
  let sources ← SourceSync.finishFailedRun Url config tables.sources work.run classified.outcome
  let syncRuns ← SyncRunRepository.finish tables.syncRuns work.runId
    ⟨classified.outcome, work.run.finishedAt, some classified.failure, none⟩
  let outcome ← failedRunOutcome config work.run.finishedAt classified
  let jobs ← FeedSystem.applyExecution jobs claim outcome now
  return { tables with jobs := jobs, sources := sources, syncRuns := syncRuns }

/-! ## Article backfill -/

/-- What a backfill holds when it finishes. -/
structure BackfillFinish (Url : Type) [UrlCrate Url] [DecidableEq Url] where
  run : RunFinish
  rebuildId : Uuid
  prepared : PreparedArticle Url
  supply : ArticleSupply
  startedAt : DateTime

/-- `ArticleBackfillJobHandler::persist_success`. -/
def BackfillFinish.persistSuccess (policy : AssetCachePolicy) (tables : WorkTables)
    (work : BackfillFinish Url) (claim : JobCompletion) (now : DateTime) : Option WorkTables := do
  let preparation ← prepareBatch tables.archive work.prepared.fetchedAssets
  let current ← SourceRepository.findForUpdate Url tables.sources work.run.sourceId
  let persisted ← runArchive tables.archive
    (persistArticle ⟨policy, some preparation, work.startedAt⟩ work.supply work.prepared)
  let sources ← SourceSync.bumpIfChanged tables.sources work.run persisted.1.2 current.feedRevision
  let jobs ← enqueueRebuild tables.jobs persisted.1.2 work.rebuildId current work.run.finishedAt
  let jobs ← FeedSystem.applyExecution jobs claim .succeeded now
  return { tables with jobs := jobs, sources := sources, archive := persisted.2 }

/-! ## Feed rebuild -/

/-- What a rebuild holds when it publishes: the candidate and its build lease. -/
structure RebuildFinish where
  candidate : FeedCacheCandidate
  owner : String
  token : FeedBuildLeaseToken
  clock : PublishClock

/-- The final transaction of `rebuild_with_lease`, with a job. -/
def RebuildFinish.publish (tables : WorkTables) (work : RebuildFinish) (claim : JobCompletion)
    (now : DateTime) : Option WorkTables :=
  match publishIfCurrent
      ((findSource tables.sources work.candidate.sourceId).map (·.feedRevision.toNat))
      (tables.feeds work.candidate.sourceId) work.candidate work.owner work.token work.clock with
  | .error _ => none
  | .ok (rows, _) => do
    let jobs ← FeedSystem.applyExecution tables.jobs claim .succeeded now
    return { tables with
      jobs := jobs
      feeds := Function.update tables.feeds work.candidate.sourceId rows }

/-! ## Article refresh -/

/-- What a refresh holds when it finalizes: the prepared article, and the jobs of the chain that
`finish_article_refresh` enqueues behind it. -/
structure RefreshFinish (Url : Type) [UrlCrate Url] [DecidableEq Url] where
  work : ArticleRefreshWork Url
  enqueuedAt : DateTime
  clock : DateTime
  rebuildId : Uuid
  successors : List (Uuid × NewJob)

/-- A refresh that succeeded replaces the links and the article, and reports whether the feed
changed. -/
def storeRefresh (context : AssetRepository.AssetWriteContext) (work : ArticleRefreshWork Url)
    (prepared : PreparedArticle Url) : ArchiveTx Bool := do
  let stored ← ArchiveTx.assets (AssetRepository.replaceForArticle context work.target.1
    work.target.2 (suppliedInputs work.supply work.inputs))
  match stored with
  | .error e => if e.isRejection then return false else Tx.fail ()
  | .ok stored => do
    let upsert ← ArchiveTx.upsert work.supply (rewriteArticle prepared.article stored)
    return upsert.feedVisibleChange

/-- The statements of `finalize` on articles and assets. -/
def finalizeArticle (context : AssetRepository.AssetWriteContext) (work : ArticleRefreshWork Url) :
    ArchiveTx Bool := do
  let current ← ArchiveTx.findForUpdate work.target
  if work.outcome current = .succeeded then
    match work.prepared with
    | none => Tx.fail ()
    | some prepared => storeRefresh context work prepared
  else return false

variable (Url) in
/-- A feed the refresh changed has a source, whose revision advances. -/
def bumpRefreshed (sources : List SourceRow) (sourceId : Uuid) (changed : Bool) (clock : DateTime) :
    Option (List SourceRow) :=
  if changed then do
    let source ← SourceRepository.findForUpdate Url sources sourceId
    SourceRepository.bumpFeedRevision sources sourceId source.feedRevision clock
  else some sources

variable (Url) in
/-- The job that rebuilds a feed the refresh changed. -/
def enqueueRefreshed (jobs : List Job) (sources : List SourceRow) (sourceId : Uuid)
    (changed : Bool) (id : Uuid) (now : DateTime) : Option (List Job) :=
  if changed then do
    let source ← SourceRepository.findForUpdate Url sources sourceId
    enqueueJob jobs id (feedRebuildJob source now)
  else some jobs

/-- `AssetRefreshJobHandler::finalize`, on a target that is still current. -/
def RefreshFinish.finalize (policy : AssetCachePolicy) (tables : WorkTables)
    (work : RefreshFinish Url) (claim : JobCompletion) (now : DateTime) : Option WorkTables := do
  let preparation ← prepareBatch tables.archive work.work.inputs
  guard (isClaimed tables.jobs claim now)
  let persisted ← runArchive tables.archive
    (finalizeArticle ⟨policy, some preparation, work.work.startedAt⟩ work.work)
  let sources ← bumpRefreshed Url tables.sources work.work.target.1 persisted.1 work.clock
  let jobs ← enqueueRefreshed Url tables.jobs tables.sources work.work.target.1 persisted.1
    work.rebuildId work.enqueuedAt
  let jobs ← FeedSystem.applyExecution jobs claim .succeeded now
  let jobs ← enqueueJobs jobs work.successors
  return { tables with jobs := jobs, sources := sources, archive := persisted.2 }

/-- `complete_unresolvable_article_refresh`: a target that is not current leaves its job done. -/
def completeUnresolvable (tables : WorkTables) (claim : JobCompletion) (now : DateTime) :
    Option WorkTables := do
  guard (isClaimed tables.jobs claim now)
  let jobs ← FeedSystem.applyExecution tables.jobs claim .succeeded now
  return { tables with jobs := jobs }

/-! ## Final transactions -/

/-- **A final transaction**: one of a handler, or the outcome its worker applies for it. -/
inductive FinalWork (Url : Type) [UrlCrate Url] [DecidableEq Url]
  | syncSucceeded (work : SyncFinish Url)
  | syncFailed (work : SyncFinish Url) (classified : ClassifiedSyncFailure)
  | backfill (work : BackfillFinish Url)
  | rebuild (work : RebuildFinish)
  | refresh (work : RefreshFinish Url)
  | unresolvable
  | outcome (execution : JobExecution)

/-- What a final transaction under a claim commits at an instant of the database clock, if it
does.  A worker applies no outcome for a handler that has committed. -/
def FinalWork.commit (policy : AssetCachePolicy) (config : SourceSyncConfig) (tables : WorkTables)
    (claim : JobCompletion) (now : DateTime) : FinalWork Url → Option WorkTables
  | .syncSucceeded work => work.persistSuccess policy tables claim now
  | .syncFailed work classified => work.finishFailedRun config tables classified claim now
  | .backfill work => work.persistSuccess policy tables claim now
  | .rebuild work => work.publish tables claim now
  | .refresh work => work.finalize policy tables claim now
  | .unresolvable => completeUnresolvable tables claim now
  | .outcome execution =>
    if execution = .committed then none
    else (FeedSystem.applyExecution tables.jobs claim execution now).map fun jobs =>
      { tables with jobs := jobs }

end Handlers

/-! ## The fence

What a statement on the jobs can do to the claims on them. -/

theorem isClaimed_iff {jobs : List Job} {claim : JobCompletion} {now : DateTime} :
    isClaimed jobs claim now = true ↔
      ∃ job ∈ jobs, job.id = claim.jobId ∧ JobTable.isFenced claim.owner claim.token now job = true := by
  simp [isClaimed, List.any_eq_true]

/-- A claim holds at every earlier instant as well. -/
theorem isClaimed_anti {jobs : List Job} {claim : JobCompletion} {now later : DateTime}
    (hle : now ≤ later) (h : isClaimed jobs claim later = true) : isClaimed jobs claim now = true := by
  obtain ⟨job, hmem, hid, hfenced⟩ := isClaimed_iff.mp h
  refine isClaimed_iff.mpr ⟨job, hmem, hid, ?_⟩
  simp only [JobTable.isFenced, Bool.and_eq_true, Option.any_eq_true, decide_eq_true_eq] at hfenced ⊢
  obtain ⟨hrow, leaseUntil, huntil, hlt⟩ := hfenced
  exact ⟨hrow, leaseUntil, huntil, Int.lt_of_le_of_lt hle hlt⟩

/-- A row that does not run is claimed by nobody. -/
theorem not_isFenced_of_status {owner : String} {token : LeaseToken} {now : DateTime} {job : Job}
    (h : job.status ≠ .running) : JobTable.isFenced owner token now job = false := by
  simp [JobTable.isFenced, h]

/-- A claim on the updated rows was one on the old rows, or is on a row the update wrote. -/
theorem isClaimed_update {jobs jobs' : List Job} {jobId : Uuid} {condition : Job → Bool}
    {assign : Job → Job} (h : JobTable.update jobs jobId condition assign = some jobs')
    {claim : JobCompletion} {now : DateTime} (hclaimed : isClaimed jobs' claim now = true) :
    (∃ job ∈ jobs, job.id = claim.jobId ∧
        JobTable.isFenced claim.owner claim.token now job = true ∧
        ¬ (job.id = jobId ∧ condition job = true)) ∨
      ∃ job ∈ jobs, condition job = true ∧ (assign job).id = claim.jobId ∧
        JobTable.isFenced claim.owner claim.token now (assign job) = true := by
  obtain ⟨job', hmem, hid, hfenced⟩ := isClaimed_iff.mp hclaimed
  rw [(JobTable.update_eq_some h).2, List.mem_map] at hmem
  obtain ⟨job, hjob, rfl⟩ := hmem
  by_cases hcond : job.id = jobId ∧ condition job = true
  · rw [if_pos hcond] at hid hfenced
    exact .inr ⟨job, hjob, hcond.2, hid, hfenced⟩
  · rw [if_neg hcond] at hid hfenced
    exact .inl ⟨job, hjob, hid, hfenced, hcond⟩

/-- An update that stops the rows it writes grants no claim. -/
theorem isClaimed_of_stops {jobs jobs' : List Job} {jobId : Uuid} {condition : Job → Bool}
    {assign : Job → Job} (h : JobTable.update jobs jobId condition assign = some jobs')
    (hstops : ∀ job, (assign job).status ≠ .running) {claim : JobCompletion} {now : DateTime}
    (hclaimed : isClaimed jobs' claim now = true) :
    ∃ job ∈ jobs, job.id = claim.jobId ∧
      JobTable.isFenced claim.owner claim.token now job = true ∧
      ¬ (job.id = jobId ∧ condition job = true) := by
  rcases isClaimed_update h hclaimed with hkept | ⟨job, -, -, -, hfenced⟩
  · exact hkept
  · rw [not_isFenced_of_status (hstops job)] at hfenced
    cases hfenced

/-- **What a fenced outcome does to claims**: the claim held, holds no longer, and no other claim
came of it. -/
structure Settles (jobs jobs' : List Job) (claim : JobCompletion) (now : DateTime) : Prop where
  held : isClaimed jobs claim now = true
  released : isClaimed jobs' claim now = false
  grantsNone : ∀ other, isClaimed jobs' other now = true → isClaimed jobs other now = true

theorem settles_update {jobs jobs' : List Job} {claim : JobCompletion} {now : DateTime}
    {condition : Job → Bool} {assign : Job → Job}
    (h : JobTable.update jobs claim.jobId condition assign = some jobs')
    (hfence : ∀ job, condition job = JobTable.isFenced claim.owner claim.token now job)
    (hstops : ∀ job, (assign job).status ≠ .running) : Settles jobs jobs' claim now := by
  refine ⟨?_, Bool.eq_false_iff.mpr fun hclaimed => ?_, fun other hclaimed => ?_⟩
  · obtain ⟨job, hmem, hid, hcond⟩ := (JobTable.update_eq_some h).1
    rw [hfence] at hcond
    exact isClaimed_iff.mpr ⟨job, hmem, hid, hcond⟩
  · obtain ⟨job, -, hid, hfenced, hnot⟩ := isClaimed_of_stops h hstops hclaimed
    rw [hfence] at hnot
    exact hnot ⟨hid, hfenced⟩
  · obtain ⟨job, hmem, hid, hfenced, -⟩ := isClaimed_of_stops h hstops hclaimed
    exact isClaimed_iff.mpr ⟨job, hmem, hid, hfenced⟩

theorem countFailure_not_running (waiting : JobStatus) (hwaiting : waiting ≠ .running)
    (now runAfter : DateTime) (error : String) (job : Job) :
    (JobTable.countFailure waiting now runAfter error job).status ≠ .running := by
  simp only [JobTable.countFailure]
  split_ifs
  · intro hrunning
    cases hrunning
  · exact hwaiting

/-- A claim on other rows than its own grants no other token. -/
theorem isClaimed_claim {jobs jobs' : List Job} {jobId : Uuid} {owner : String} {token : LeaseToken}
    {now leaseUntil : DateTime} (h : JobTable.claim jobs jobId owner token now leaseUntil = some jobs')
    {claim : JobCompletion} (hne : claim.token ≠ token) (hclaimed : isClaimed jobs' claim now = true) :
    isClaimed jobs claim now = true := by
  unfold JobTable.claim at h
  split_ifs at h
  rcases isClaimed_update h hclaimed with ⟨job, hmem, hid, hfenced, -⟩ | ⟨job, -, -, -, hfenced⟩
  · exact isClaimed_iff.mpr ⟨job, hmem, hid, hfenced⟩
  · simp only [JobTable.isFenced, Bool.and_eq_true, decide_eq_true_eq, Option.some.injEq] at hfenced
    exact absurd hfenced.1.2.symm hne

/-- A heartbeat extends only the claim that holds already. -/
theorem isClaimed_heartbeat {jobs jobs' : List Job} {claim : JobCompletion}
    {now leaseUntil : DateTime}
    (h : JobTable.heartbeat jobs claim.jobId claim.owner claim.token now leaseUntil = some jobs')
    {other : JobCompletion} (hclaimed : isClaimed jobs' other now = true) :
    isClaimed jobs other now = true := by
  unfold JobTable.heartbeat at h
  split_ifs at h
  rcases isClaimed_update h hclaimed with ⟨job, hmem, hid, hfenced, -⟩ | ⟨job, hmem, hcond, hid, hfenced⟩
  · exact isClaimed_iff.mpr ⟨job, hmem, hid, hfenced⟩
  · refine isClaimed_iff.mpr ⟨job, hmem, hid, ?_⟩
    simp only [JobTable.isFenced, Bool.and_eq_true, decide_eq_true_eq] at hfenced hcond ⊢
    exact ⟨hfenced.1, hcond.2⟩

theorem isClaimed_recoverExpired {jobs jobs' : List Job} {jobId : Uuid} {now : DateTime}
    (h : JobTable.recoverExpired jobs jobId now = some jobs') {claim : JobCompletion}
    (hclaimed : isClaimed jobs' claim now = true) : isClaimed jobs claim now = true := by
  obtain ⟨job, hmem, hid, hfenced, -⟩ := isClaimed_of_stops h
    (countFailure_not_running .queued nofun now now "worker lease expired") hclaimed
  exact isClaimed_iff.mpr ⟨job, hmem, hid, hfenced⟩

/-- **An outcome passes the fence or changes nothing.** -/
theorem settles_applyExecution {jobs jobs' : List Job} {claim : JobCompletion}
    {execution : JobExecution} {now : DateTime} (hnew : execution ≠ .committed)
    (h : FeedSystem.applyExecution jobs claim execution now = some jobs') :
    Settles jobs jobs' claim now := by
  cases execution with
  | succeeded =>
    simp only [FeedSystem.applyExecution, JobTable.succeed] at h
    split_ifs at h
    exact settles_update h (fun _ => rfl) fun _ => nofun
  | committed => exact absurd rfl hnew
  | deferred resumeAt =>
    simp only [FeedSystem.applyExecution, JobTable.defer] at h
    split_ifs at h
    obtain ⟨job, -, -, hcond⟩ := (JobTable.update_eq_some h).1
    have hlater : decide (now < resumeAt) = true := (Bool.and_eq_true _ _ ▸ hcond).2
    exact settles_update h (fun job => by rw [hlater, Bool.and_true]) fun _ => nofun
  | retry retryAt error =>
    simp only [FeedSystem.applyExecution, JobTable.retry] at h
    split_ifs at h
    exact settles_update h (fun _ => rfl) (countFailure_not_running .retryWait nofun now retryAt error)
  | failed error =>
    simp only [FeedSystem.applyExecution, JobTable.fail] at h
    split_ifs at h
    exact settles_update h (fun _ => rfl) fun _ => nofun

theorem settles_succeeded {jobs jobs' : List Job} {claim : JobCompletion} {now : DateTime}
    (h : FeedSystem.applyExecution jobs claim .succeeded now = some jobs') :
    Settles jobs jobs' claim now :=
  have hnew : JobExecution.succeeded ≠ .committed := nofun
  settles_applyExecution hnew h

/-- A new job is queued: enqueueing neither grants nor ends a claim. -/
theorem isClaimed_enqueueJob {jobs jobs' : List Job} {id : Uuid} {spec : NewJob}
    (h : enqueueJob jobs id spec = some jobs') (claim : JobCompletion) (now : DateTime) :
    isClaimed jobs' claim now = isClaimed jobs claim now := by
  unfold enqueueJob JobTable.enqueue at h
  cases hnew : Job.new id spec with
  | error e =>
    rw [hnew] at h
    cases h
  | ok job =>
    simp only [hnew] at h
    split_ifs at h
    · obtain rfl := Option.some.inj h
      rfl
    · obtain rfl := Option.some.inj h
      have hqueued : job.status = .queued := by
        unfold Job.new at hnew
        split_ifs at hnew
        obtain rfl := Except.ok.inj hnew
        rfl
      have hnot : JobTable.isFenced claim.owner claim.token now job = false :=
        not_isFenced_of_status (by rw [hqueued]; exact nofun)
      simp [isClaimed, hnot]

theorem isClaimed_enqueueJobs {specs : List (Uuid × NewJob)} {jobs jobs' : List Job}
    (h : enqueueJobs jobs specs = some jobs') (claim : JobCompletion) (now : DateTime) :
    isClaimed jobs' claim now = isClaimed jobs claim now := by
  induction specs generalizing jobs with
  | nil =>
    obtain rfl := Option.some.inj h
    rfl
  | cons entry specs ih =>
    obtain ⟨jobs₁, hfirst, hrest⟩ := Option.bind_eq_some_iff.mp h
    exact (ih hrest).trans (isClaimed_enqueueJob hfirst claim now)

theorem isClaimed_enqueueRebuild {jobs jobs' : List Job} {changed : Bool} {id : Uuid}
    {source : SourceRow} {now : DateTime} (h : enqueueRebuild jobs changed id source now = some jobs')
    (claim : JobCompletion) (at' : DateTime) :
    isClaimed jobs' claim at' = isClaimed jobs claim at' := by
  unfold enqueueRebuild at h
  split_ifs at h
  · exact isClaimed_enqueueJob h claim at'
  · obtain rfl := Option.some.inj h
    rfl

theorem isClaimed_enqueueRefreshed {Url : Type} [UrlCrate Url] [LawfulUrlCrate Url]
    {jobs jobs' : List Job} {sources : List SourceRow} {sourceId id : Uuid} {changed : Bool}
    {enqueuedAt : DateTime}
    (h : enqueueRefreshed Url jobs sources sourceId changed id enqueuedAt = some jobs')
    (claim : JobCompletion) (now : DateTime) :
    isClaimed jobs' claim now = isClaimed jobs claim now := by
  unfold enqueueRefreshed at h
  split_ifs at h
  · obtain ⟨source, -, h₁⟩ := Option.bind_eq_some_iff.mp h
    exact isClaimed_enqueueJob h₁ claim now
  · obtain rfl := Option.some.inj h
    rfl

/-- Jobs enqueued before and after a fenced outcome make no difference to it. -/
theorem Settles.enqueued {jobs jobs₁ jobs₂ jobs' : List Job} {claim : JobCompletion} {now : DateTime}
    (h : Settles jobs₁ jobs₂ claim now)
    (hbefore : ∀ other, isClaimed jobs₁ other now = isClaimed jobs other now)
    (hafter : ∀ other, isClaimed jobs' other now = isClaimed jobs₂ other now) :
    Settles jobs jobs' claim now where
  held := hbefore claim ▸ h.held
  released := (hafter claim).trans h.released
  grantsNone other hclaimed := hbefore other ▸ h.grantsNone other (hafter other ▸ hclaimed)

section Commits

variable {Url : Type} [UrlCrate Url] [LawfulUrlCrate Url] [DecidableEq Url]
variable {policy : AssetCachePolicy} {config : SourceSyncConfig} {tables tables' : WorkTables}
variable {claim : JobCompletion} {now : DateTime}

theorem failedRunOutcome_ne {finishedAt : DateTime} {classified : ClassifiedSyncFailure}
    {outcome : JobExecution} (h : failedRunOutcome config finishedAt classified = some outcome) :
    outcome ≠ .committed := by
  unfold failedRunOutcome at h
  split_ifs at h
  · obtain ⟨retryAt, -, h₁⟩ := Option.bind_eq_some_iff.mp h
    obtain rfl := Option.some.inj h₁
    exact nofun
  · obtain rfl := Option.some.inj h
    exact nofun

theorem SyncFinish.finishFailedRun_settles {work : SyncFinish Url}
    {classified : ClassifiedSyncFailure}
    (h : work.finishFailedRun config tables classified claim now = some tables') :
    Settles tables.jobs tables'.jobs claim now := by
  obtain ⟨jobs₁, hbackfills, h₁⟩ := Option.bind_eq_some_iff.mp h
  obtain ⟨sources, -, h₂⟩ := Option.bind_eq_some_iff.mp h₁
  obtain ⟨syncRuns, -, h₃⟩ := Option.bind_eq_some_iff.mp h₂
  obtain ⟨outcome, houtcome, h₄⟩ := Option.bind_eq_some_iff.mp h₃
  obtain ⟨jobs₂, happly, h₅⟩ := Option.bind_eq_some_iff.mp h₄
  obtain rfl := Option.some.inj h₅
  exact (settles_applyExecution (failedRunOutcome_ne houtcome) happly).enqueued
    (fun other => isClaimed_enqueueJobs hbackfills other now) fun _ => rfl

theorem RebuildFinish.publish_settles {work : RebuildFinish}
    (h : work.publish tables claim now = some tables') :
    Settles tables.jobs tables'.jobs claim now := by
  unfold RebuildFinish.publish at h
  split at h
  · cases h
  · obtain ⟨jobs, hsucceed, h₁⟩ := Option.bind_eq_some_iff.mp h
    obtain rfl := Option.some.inj h₁
    exact settles_succeeded hsucceed

theorem completeUnresolvable_settles (h : completeUnresolvable tables claim now = some tables') :
    Settles tables.jobs tables'.jobs claim now := by
  obtain ⟨-, -, h₁⟩ := Option.bind_eq_some_iff.mp h
  obtain ⟨jobs, hsucceed, h₂⟩ := Option.bind_eq_some_iff.mp h₁
  obtain rfl := Option.some.inj h₂
  exact settles_succeeded hsucceed

variable [Sha2Crate]

theorem SyncFinish.persistSuccess_settles {work : SyncFinish Url}
    (h : work.persistSuccess policy tables claim now = some tables') :
    Settles tables.jobs tables'.jobs claim now := by
  obtain ⟨preparation, -, h₁⟩ := Option.bind_eq_some_iff.mp h
  obtain ⟨current, -, h₂⟩ := Option.bind_eq_some_iff.mp h₁
  obtain ⟨persisted, -, h₃⟩ := Option.bind_eq_some_iff.mp h₂
  obtain ⟨jobs₁, hrebuild, h₄⟩ := Option.bind_eq_some_iff.mp h₃
  obtain ⟨jobs₂, hbackfills, h₅⟩ := Option.bind_eq_some_iff.mp h₄
  obtain ⟨sources, -, h₆⟩ := Option.bind_eq_some_iff.mp h₅
  obtain ⟨syncRuns, -, h₇⟩ := Option.bind_eq_some_iff.mp h₆
  obtain ⟨jobs₃, hsucceed, h₈⟩ := Option.bind_eq_some_iff.mp h₇
  obtain rfl := Option.some.inj h₈
  refine (settles_succeeded hsucceed).enqueued (fun other => ?_) fun _ => rfl
  rw [isClaimed_enqueueJobs hbackfills, isClaimed_enqueueRebuild hrebuild]

theorem BackfillFinish.persistSuccess_settles {work : BackfillFinish Url}
    (h : work.persistSuccess policy tables claim now = some tables') :
    Settles tables.jobs tables'.jobs claim now := by
  obtain ⟨preparation, -, h₁⟩ := Option.bind_eq_some_iff.mp h
  obtain ⟨current, -, h₂⟩ := Option.bind_eq_some_iff.mp h₁
  obtain ⟨persisted, -, h₃⟩ := Option.bind_eq_some_iff.mp h₂
  obtain ⟨sources, -, h₄⟩ := Option.bind_eq_some_iff.mp h₃
  obtain ⟨jobs₁, hrebuild, h₅⟩ := Option.bind_eq_some_iff.mp h₄
  obtain ⟨jobs₂, hsucceed, h₆⟩ := Option.bind_eq_some_iff.mp h₅
  obtain rfl := Option.some.inj h₆
  exact (settles_succeeded hsucceed).enqueued
    (fun other => isClaimed_enqueueRebuild hrebuild other now) fun _ => rfl

theorem RefreshFinish.finalize_settles {work : RefreshFinish Url}
    (h : work.finalize policy tables claim now = some tables') :
    Settles tables.jobs tables'.jobs claim now := by
  obtain ⟨preparation, -, h₁⟩ := Option.bind_eq_some_iff.mp h
  obtain ⟨-, -, h₂⟩ := Option.bind_eq_some_iff.mp h₁
  obtain ⟨persisted, -, h₃⟩ := Option.bind_eq_some_iff.mp h₂
  obtain ⟨sources, -, h₄⟩ := Option.bind_eq_some_iff.mp h₃
  obtain ⟨jobs₁, hrebuild, h₅⟩ := Option.bind_eq_some_iff.mp h₄
  obtain ⟨jobs₂, hsucceed, h₆⟩ := Option.bind_eq_some_iff.mp h₅
  obtain ⟨jobs₃, hsuccessors, h₇⟩ := Option.bind_eq_some_iff.mp h₆
  obtain rfl := Option.some.inj h₇
  exact (settles_succeeded hsucceed).enqueued
    (fun other => isClaimed_enqueueRefreshed hrebuild other now)
    fun other => isClaimed_enqueueJobs hsuccessors other now

/-- **Every final transaction passes the fence of its claim**, or commits nothing. -/
theorem FinalWork.commit_settles {work : FinalWork Url}
    (h : work.commit policy config tables claim now = some tables') :
    Settles tables.jobs tables'.jobs claim now := by
  cases work with
  | syncSucceeded work => exact SyncFinish.persistSuccess_settles h
  | syncFailed work classified => exact SyncFinish.finishFailedRun_settles h
  | backfill work => exact BackfillFinish.persistSuccess_settles h
  | rebuild work => exact RebuildFinish.publish_settles h
  | refresh work => exact RefreshFinish.finalize_settles h
  | unresolvable => exact completeUnresolvable_settles h
  | outcome execution =>
    simp only [FinalWork.commit] at h
    split_ifs at h with hcommitted
    obtain ⟨jobs, happly, rfl⟩ := Option.map_eq_some_iff.mp h
    exact settles_applyExecution hcommitted happly

end Commits

end Werrss
