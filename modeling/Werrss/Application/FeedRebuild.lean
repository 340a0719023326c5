import Mathlib.Data.List.Sort
import Werrss.Machinery.Run
import Werrss.Persistence.FeedCache
import Werrss.Persistence.JobRepository

/-!
# Application/FeedRebuild — feed rebuilds against the commits of one source

    worker:  claim ─▸ acquire ─▸ read source ─▸ read articles ─▸ render ─▸ publish + succeed
    commit:  articles, feed_revision + 1, enqueue (or: already active)

Each arrow is a step of its own, and any number of workers take theirs in any order.  The source and
the articles are read outside any transaction; the publication, the release of the build lease and
the job's completion share one.  `FeedSystem.step` is the system; the fields marked *ghost* are
written by no code and record what the committed states were and when a job was claimed.
-/

open Machinery

namespace Werrss

/-! ## What a rebuild reads -/

/-- A source as far as a rebuild reads it. -/
structure Source where
  id : Uuid
  displayName : String
  rssItemLimit : UInt32
  feedRevision : ℕ
  priority : ℤ
  maxAttempts : UInt32
deriving DecidableEq

/-- The committed state of a source that its feed shows. -/
structure FeedSnapshot (Url : Type) [UrlCrate Url] where
  source : Source
  articles : List (Article Url)

inductive FeedRebuildError
  | invalidSourceId | jobTypeMismatch | jobMissingSource | jobLeaseMissingOwner | emptyOwner
  | sourceNotFound | source | articles
  | lease (error : FeedBuildLeaseError)
  | render (error : RenderError)
  | cache (error : FeedCacheRepositoryError)
  | job | unitOfWork | config
deriving DecidableEq

/-- The rebuild service: its configuration, the crates it renders with, and the collation by which
the database orders review ids. -/
structure FeedRebuildService (Url : Type) [UrlCrate Url] where
  uuid : UuidParser
  writer : RssWriter
  digest : Html → String
  collation : String → String → Bool
  owner : String
  leaseFor : Duration
  cacheTtl : Duration
  retryAfter : Duration
  feedUrl : String
  description : String
  assetUrlRoot : Option Url

namespace FeedRebuildService

variable {Url : Type} [UrlCrate Url] (service : FeedRebuildService Url)

/-- `ORDER BY published_at DESC, review_id ASC`. -/
def listOrder (left right : Article Url) : Prop :=
  right.publishedAt < left.publishedAt ∨
    (left.publishedAt = right.publishedAt ∧ service.collation left.reviewId right.reviewId = true)

instance : DecidableRel service.listOrder := fun left right =>
  inferInstanceAs (Decidable (right.publishedAt < left.publishedAt ∨
    (left.publishedAt = right.publishedAt ∧ service.collation left.reviewId right.reviewId = true)))

/-- `list_for_feed`. -/
def listForFeed (articles : List (Article Url)) (limit : UInt32) :
    Except FeedRebuildError (List (Article Url)) :=
  if limit = 0 then .error .articles
  else .ok ((articles.insertionSort service.listOrder).take limit.toNat)

/-- The rendering of a source and its listed articles, stamped with the database clock. -/
def renderFeed (source : Source) (articles : List (Article Url)) (generatedAt : DateTime) :
    Except FeedRebuildError FeedCacheCandidate :=
  match DateTime.checkedAddSigned generatedAt service.cacheTtl with
  | none => .error .config
  | some expiresAt =>
    match render service.writer service.digest
      { sourceId := source.id
        title := source.displayName
        feedUrl := service.feedUrl
        description := service.description
        sourceRevision := source.feedRevision
        generatedAt := generatedAt
        expiresAt := expiresAt
        articles := articles.map fun article =>
          renderArticle service.uuid article service.assetUrlRoot } with
    | .error e => .error (.render e)
    | .ok candidate => .ok candidate

end FeedRebuildService

/-! ## What becomes of the job -/

/-- What a handler reports to its worker. -/
inductive JobExecution
  | succeeded | committed
  | deferred (resumeAt : DateTime)
  | retry (retryAt : DateTime) (error : String)
  | failed (error : String)
deriving DecidableEq

/-- `retry_or_fail`. -/
def retryOrFail (now : DateTime) (retryAfter : Duration) (message : String) :
    Except JobExecution DateTime :=
  match DateTime.checkedAddSigned now retryAfter with
  | some retryAt => .ok retryAt
  | none => .error (.failed (message ++ "; retry time is outside the supported range"))

/-- `classify_outcome` for `AlreadyActive`; the other outcomes were committed. -/
def classifyAlreadyActive (now : DateTime) (retryAfter : Duration) : JobExecution :=
  match retryOrFail now retryAfter "feed rebuild is already active" with
  | .ok retryAt => .deferred retryAt
  | .error execution => execution

/-- The errors `classify_error` takes for permanent. -/
def FeedRebuildError.isPermanent : FeedRebuildError → Bool
  | .invalidSourceId | .jobTypeMismatch | .jobMissingSource | .jobLeaseMissingOwner | .emptyOwner
  | .sourceNotFound | .render _ | .config => true
  | .source | .articles | .lease _ | .cache _ | .job | .unitOfWork => false

/-- `classify_error`. -/
def classifyError (error : FeedRebuildError) (now : DateTime) (retryAfter : Duration) :
    JobExecution :=
  if error.isPermanent then .failed "feed rebuild job data is invalid"
  else
    match retryOrFail now retryAfter "feed rebuild storage is temporarily unavailable" with
    | .ok retryAt => .retry retryAt "feed rebuild storage is temporarily unavailable"
    | .error execution => execution

/-! ## The system -/

/-- The claimed job a rebuild completes. -/
structure JobCompletion where
  jobId : Uuid
  owner : String
  token : LeaseToken
deriving DecidableEq

section System

variable (Url : Type) [UrlCrate Url]

/-- How far a rebuild under a build lease has come. -/
inductive RebuildStage
  | leased
  | sourceRead (source : Source)
  | snapshot (source : Source) (articles : List (Article Url))
  | rendered (candidate : FeedCacheCandidate)

/-- One worker, or one request that rebuilds without a job. -/
inductive Worker
  | idle
  | claimed (completion : JobCompletion)
  | building (completion : Option JobCompletion) (token : FeedBuildLeaseToken)
      (stage : RebuildStage Url)
  | finishing (completion : JobCompletion) (execution : JobExecution)

/-- **One source, its rows, the job table and the workers.** -/
structure FeedSystem where
  source : Source
  articles : List (Article Url)
  rows : FeedRows
  jobs : List Job
  workers : ℕ → Worker Url
  /-- *Ghost*: the committed state at each revision. -/
  committed : ℕ → Option (FeedSnapshot Url)
  /-- *Ghost*: the present revision was made by a commit that enqueues a rebuild. -/
  byArchive : Bool
  /-- *Ghost*: the revision at which a job was last claimed. -/
  claimedAt : Uuid → Option ℕ

/-- A step of the system. -/
inductive FeedAction
  /-- a source-sync or article-backfill commit -/
  | commit (articles : List (Article Url)) (jobId : Uuid) (now : DateTime)
  /-- a source update, which enqueues nothing -/
  | updateSource (displayName : String) (rssItemLimit : UInt32)
  /-- the fallback queue of feed delivery -/
  | enqueue (jobId : Uuid) (now : DateTime)
  | claim (worker : ℕ) (jobId : Uuid) (owner : String) (token : LeaseToken) (now leaseUntil : DateTime)
  | acquire (worker : ℕ) (token : FeedBuildLeaseToken) (now : DateTime)
  | readSource (worker : ℕ)
  | readArticles (worker : ℕ) (now : DateTime)
  | renderFeed (worker : ℕ) (generatedAt now : DateTime)
  | publish (worker : ℕ) (clock : PublishClock) (now : DateTime)
  /-- a storage error, a failed begin or commit, a source that is gone -/
  | fault (worker : ℕ) (error : FeedRebuildError) (now : DateTime)
  | timeout (worker : ℕ) (error : String) (now : DateTime)
  | crash (worker : ℕ)
  /-- the worker applies what its handler reported -/
  | finish (worker : ℕ) (now : DateTime)
  | heartbeatJob (worker : ℕ) (now leaseUntil : DateTime)
  | heartbeatBuild (token : FeedBuildLeaseToken) (now : DateTime)
  /-- the guard of a rebuild that failed or was dropped, at any later time -/
  | releaseBuild (token : FeedBuildLeaseToken) (now : DateTime)
  | recoverExpired (jobId : Uuid) (now : DateTime)

end System

namespace FeedSystem

variable {Url : Type} [UrlCrate Url]

/-- `feed_rebuild:{source_id}`, with the number of the id for its text. -/
def dedupeKey (source : Source) : String := "feed_rebuild:" ++ toString source.id.value

/-- `feed_rebuild_job`. -/
def feedRebuildJob (source : Source) (now : DateTime) : NewJob where
  jobType := .feedRebuild
  sourceId := some source.id
  priority := source.priority
  runAfter := now
  maxAttempts := source.maxAttempts
  payload := "\x7b\"source_id\":\"" ++ toString source.id.value ++ "\"\x7d"
  dedupeKey := dedupeKey source
  now := now

/-- Another state for one worker. -/
def setWorker (s : FeedSystem Url) (worker : ℕ) (state : Worker Url) : FeedSystem Url :=
  { s with workers := Function.update s.workers worker state }

/-- The commit of a new snapshot under the next revision. -/
def bump (s : FeedSystem Url) (source : Source) (articles : List (Article Url)) (jobs : List Job)
    (byArchive : Bool) : FeedSystem Url :=
  let source := { source with feedRevision := s.source.feedRevision + 1 }
  { s with
    source := source
    articles := articles
    jobs := jobs
    committed := Function.update s.committed source.feedRevision (some ⟨source, articles⟩)
    byArchive := byArchive }

variable (service : FeedRebuildService Url)

/-- The rebuild ends in an error: without a job nothing is left to do. -/
def failed (completion : Option JobCompletion) (error : FeedRebuildError) (now : DateTime) :
    Worker Url :=
  match completion with
  | none => .idle
  | some completion => .finishing completion (classifyError error now service.retryAfter)

/-- `acquire_build` by a worker with or without a job. -/
def acquire (s : FeedSystem Url) (worker : ℕ) (completion : Option JobCompletion)
    (token : FeedBuildLeaseToken) (now : DateTime) : FeedSystem Url :=
  match acquireBuild s.rows.lease s.source.id service.owner service.leaseFor token now with
  | .error e => s.setWorker worker (failed service completion (.lease e) now)
  | .ok none =>
    s.setWorker worker (match completion with
      | none => .idle
      | some completion => .finishing completion (classifyAlreadyActive now service.retryAfter))
  | .ok (some lease) =>
    { s with rows := { s.rows with lease := some lease } }.setWorker worker
      (.building completion token .leased)

/-- The final transaction: publication, completion of the job, commit. -/
def publish (s : FeedSystem Url) (worker : ℕ) (completion : Option JobCompletion)
    (token : FeedBuildLeaseToken) (candidate : FeedCacheCandidate) (clock : PublishClock)
    (now : DateTime) : FeedSystem Url :=
  match publishIfCurrent (some s.source.feedRevision) s.rows candidate service.owner token clock with
  | .error e => s.setWorker worker (failed service completion (.cache e) now)
  | .ok (rows, _) =>
    match completion with
    | none => { s with rows := rows }.setWorker worker .idle
    | some job =>
      match JobTable.succeed s.jobs job.jobId job.owner job.token now with
      | none => s.setWorker worker (failed service completion .job now)
      | some jobs => { s with rows := rows, jobs := jobs }.setWorker worker .idle

/-- The worker applies the reported execution to its job, if its lease still lives. -/
def applyExecution (jobs : List Job) (completion : JobCompletion) (execution : JobExecution)
    (now : DateTime) : Option (List Job) :=
  match execution with
  | .succeeded => JobTable.succeed jobs completion.jobId completion.owner completion.token now
  | .committed => some jobs
  | .deferred resumeAt =>
    JobTable.defer jobs completion.jobId completion.owner completion.token now resumeAt
  | .retry retryAt error =>
    JobTable.retry jobs completion.jobId completion.owner completion.token now retryAt error
  | .failed error =>
    JobTable.fail jobs completion.jobId completion.owner completion.token now error

/-- **One step.**  An action that the worker's state does not allow changes nothing. -/
def step (s : FeedSystem Url) : FeedAction Url → FeedSystem Url
  | .commit articles jobId now =>
    if 2 ^ 63 ≤ s.source.feedRevision + 1 then s
    else match JobTable.enqueue s.jobs jobId (feedRebuildJob s.source now) with
      | .error _ => s
      | .ok (jobs, _) => s.bump s.source articles jobs true
  | .updateSource displayName rssItemLimit =>
    if 2 ^ 63 ≤ s.source.feedRevision + 1 then s
    else s.bump { s.source with displayName := displayName, rssItemLimit := rssItemLimit }
      s.articles s.jobs false
  | .enqueue jobId now =>
    match JobTable.enqueue s.jobs jobId (feedRebuildJob s.source now) with
    | .error _ => s
    | .ok (jobs, _) => { s with jobs := jobs }
  | .claim worker jobId owner token now leaseUntil =>
    match s.workers worker with
    | .idle =>
      if s.jobs.any fun job => decide (job.id = jobId) && decide (job.dedupeKey ≠ dedupeKey s.source)
      then s
      else match JobTable.claim s.jobs jobId owner token now leaseUntil with
      | none => s
      | some jobs =>
        { s with
          jobs := jobs
          claimedAt := Function.update s.claimedAt jobId (some s.source.feedRevision) }.setWorker
            worker (.claimed ⟨jobId, owner, token⟩)
    | _ => s
  | .acquire worker token now =>
    match s.workers worker with
    | .idle => s.acquire service worker none token now
    | .claimed completion => s.acquire service worker (some completion) token now
    | _ => s
  | .readSource worker =>
    match s.workers worker with
    | .building completion token .leased =>
      s.setWorker worker (.building completion token (.sourceRead s.source))
    | _ => s
  | .readArticles worker now =>
    match s.workers worker with
    | .building completion token (.sourceRead source) =>
      s.setWorker worker (match service.listForFeed s.articles source.rssItemLimit with
        | .error e => failed service completion e now
        | .ok articles => .building completion token (.snapshot source articles))
    | _ => s
  | .renderFeed worker generatedAt now =>
    match s.workers worker with
    | .building completion token (.snapshot source articles) =>
      s.setWorker worker (match service.renderFeed source articles generatedAt with
        | .error e => failed service completion e now
        | .ok candidate => .building completion token (.rendered candidate))
    | _ => s
  | .publish worker clock now =>
    match s.workers worker with
    | .building completion token (.rendered candidate) =>
      s.publish service worker completion token candidate clock now
    | _ => s
  | .fault worker error now =>
    match s.workers worker with
    | .claimed completion => s.setWorker worker (failed service (some completion) error now)
    | .building completion _ _ => s.setWorker worker (failed service completion error now)
    | _ => s
  | .timeout worker error now =>
    match s.workers worker with
    | .claimed completion => s.setWorker worker (.finishing completion (.retry now error))
    | .building (some completion) _ _ =>
      s.setWorker worker (.finishing completion (.retry now error))
    | _ => s
  | .crash worker => s.setWorker worker .idle
  | .finish worker now =>
    match s.workers worker with
    | .finishing completion execution =>
      { s with jobs := (applyExecution s.jobs completion execution now).getD s.jobs }.setWorker
        worker .idle
    | _ => s
  | .heartbeatJob worker now leaseUntil =>
    match s.workers worker with
    | .claimed completion | .building (some completion) _ _ =>
      { s with jobs := (JobTable.heartbeat s.jobs completion.jobId completion.owner completion.token
          now leaseUntil).getD s.jobs }
    | _ => s
  | .heartbeatBuild token now =>
    match heartbeatBuild s.rows.lease s.source.id service.owner token service.leaseFor now with
    | .error _ => s
    | .ok lease => { s with rows := { s.rows with lease := some lease } }
  | .releaseBuild token now =>
    { s with rows := { s.rows with lease := releaseRow s.rows.lease service.owner token now } }
  | .recoverExpired jobId now =>
    { s with jobs := (JobTable.recoverExpired s.jobs jobId now).getD s.jobs }

/-- A source without a feed: no rows, no jobs, idle workers. -/
def init (source : Source) (articles : List (Article Url)) : FeedSystem Url where
  source := source
  articles := articles
  rows := ⟨none, none⟩
  jobs := []
  workers _ := .idle
  committed := Function.update (fun _ => none) source.feedRevision (some ⟨source, articles⟩)
  byArchive := false
  claimedAt _ := none

/-- The system after a list of actions. -/
def after (s : FeedSystem Url) (actions : List (FeedAction Url)) : FeedSystem Url :=
  run (step service) s actions

end FeedSystem

/-! ## A source that computes -/

/-- A service over plain URLs. -/
def plainService : FeedRebuildService PlainUrl where
  uuid := hyphenatedUuid
  writer := plainWriter
  digest _ := "0"
  collation left right := decide (left ≤ right)
  owner := "worker"
  leaseFor := 60000000000
  cacheTtl := 60000000000
  retryAfter := 60000000000
  feedUrl := "https://feeds.example/feed"
  description := "feed"
  assetUrlRoot := none

/-- A source at revision zero, with one attempt for its jobs. -/
def plainSource : Source := ⟨⟨7⟩, "feed", 20, 0, 0, 1⟩

/-- A clock that stands still. -/
def stillClock (now : DateTime) : PublishClock :=
  ⟨now, now, now, now, le_refl _, le_refl _, le_refl _⟩

/-- The steps of worker `0` from the claim of the job up to the read of the source. -/
def claimAndRead : List (FeedAction PlainUrl) :=
  [.claim 0 ⟨11⟩ "worker" ⟨⟨21⟩⟩ 1 1000, .acquire 0 ⟨⟨31⟩⟩ 1, .readSource 0]

/-- Its remaining steps. -/
def renderAndPublish : List (FeedAction PlainUrl) :=
  [.readArticles 0 2, .renderFeed 0 2 2, .publish 0 (stillClock 3) 3]

/-- A commit, and the rebuild it enqueues. -/
def rebuildRun : List (FeedAction PlainUrl) :=
  .commit [plainArticle "<p>new</p>"] ⟨11⟩ 0 :: claimAndRead ++ renderAndPublish

end Werrss
