import Werrss.Application.JobNames
import Werrss.Application.RetryDelay

/-!
# Application/SyncAccounting — what becomes of every listed reference

    references ──observe──▸ observed ──prepare──▸ prepared ──persist──▸ succeeded
         │  failed, queued      │  failed, queued        └── fails ──▸ the failed run
         └── the run ends here ─┴────────────────────────────────────▸ the failed run

Both loops count and queue as they go, and whatever ends the run carries the queue along.  **Each
reference is archived or counted as failed, and one that may succeed later has its backfill** when
either final transaction commits.
-/

open Machinery

namespace Werrss

/-! ## What a run holds -/

/-- `SyncStats`, without the number of stored assets. -/
structure SyncStats where
  articlesSeen : UInt32
  articlesCreated : UInt32
  articlesUpdated : UInt32
  articlesFailed : UInt32
  archivedArticles : UInt32
deriving DecidableEq, Repr

/-- `SyncStats::default`. -/
def SyncStats.none : SyncStats := ⟨0, 0, 0, 0, 0⟩

/-- `MAX_PENDING_ASSET_BYTES`. -/
def maxPendingAssetBytes : ℕ := 256 * 1024 * 1024

/-! ## Counting -/

theorem toNat_saturatingAdd_one {a : UInt32} (h : a.toNat + 1 < UInt32.size) :
    (saturatingAdd a 1).toNat = a.toNat + 1 := by
  have hadd : checkedAdd a 1 = some (a + 1) := if_pos h
  rw [saturatingAdd_of_checkedAdd hadd]
  exact toNat_add_of_lt h

/-- **What is queued is what may be retried.** -/
theorem shouldQueueArticleBackfill_iff (error : SyncAcquisitionError) :
    shouldQueueArticleBackfill error = true ↔
      (classifyAcquisitionError error).outcome = .retryableFailure := by
  rcases error with _ | ((_ | _ | _ | _) | _ | _ | _ | _ | _ | _ | _) | ((_ | _) | _ | _ | _)
    <;> simp [shouldQueueArticleBackfill, classifyAcquisitionError]

/-- An article was created, or changed. -/
def SyncStats.countPersisted (stats : SyncStats) (result : Bool × Bool) : SyncStats :=
  if result.1 then { stats with articlesCreated := saturatingAdd stats.articlesCreated 1 }
  else if result.2 then { stats with articlesUpdated := saturatingAdd stats.articlesUpdated 1 }
  else stats

section Run

variable {Url : Type} [UrlCrate Url]

/-- What `fetch_assets` answers: it numbers the images it tries. -/
abbrev FetchedAssets (Url : Type) [UrlCrate Url] :=
  { assets : List (AssetInput Url) // assets.Pairwise fun a b => a.occurrence < b.occurrence }

/-- **A listed reference**, and what the calls for it meet: the version allocated for it, its page,
and its assets. -/
structure ListedReference (Url : Type) [UrlCrate Url] extends BackfillReference Url where
  version : Option ℕ
  page : Except SyncAcquisitionError (ExtractedArticlePage Url)
  assets : FetchedAssets Url
  supply : ArticleSupply

/-- `SourceSyncRunContext`, of a source and a run that stay the same. -/
structure SyncRunContext (Url : Type) [UrlCrate Url] where
  stats : SyncStats
  backfillReferences : List (BackfillReference Url)

/-- `SourceSyncExecutionError::AfterRun`. -/
structure RunFailure (Url : Type) [UrlCrate Url] where
  context : SyncRunContext Url
  failure : ClassifiedSyncFailure

namespace SyncRunContext

/-- One more reference has failed. -/
def countFailed (context : SyncRunContext Url) : SyncRunContext Url :=
  { context with
    stats :=
      { context.stats with articlesFailed := saturatingAdd context.stats.articlesFailed 1 } }

/-- One more article is archived. -/
def countArchived (context : SyncRunContext Url) : SyncRunContext Url :=
  { context with
    stats :=
      { context.stats with archivedArticles := saturatingAdd context.stats.archivedArticles 1 } }

/-- A reference is left to a backfill. -/
def queue (context : SyncRunContext Url) (reference : BackfillReference Url) : SyncRunContext Url :=
  { context with backfillReferences := context.backfillReferences ++ [reference] }

end SyncRunContext

/-! ## The first loop -/

/-- An article that was fetched. -/
structure Observed (Url : Type) [UrlCrate Url] where
  listed : ListedReference Url
  page : ExtractedArticlePage Url
  version : ℕ

/-- One round of the first loop. -/
def observeReference (state : SyncRunContext Url × List (Observed Url))
    (listed : ListedReference Url) :
    Except (RunFailure Url) (SyncRunContext Url × List (Observed Url)) :=
  if listed.reference.articleUrl.isNone then .ok (state.1.countFailed, state.2)
  else
    match listed.version with
    | none => .error ⟨state.1, retryablePersistenceFailure⟩
    | some version =>
      match listed.page with
      | .ok page => .ok (state.1, state.2 ++ [⟨listed, page, version⟩])
      | .error error =>
        if shouldQueueArticleBackfill error then
          .ok (state.1.countFailed.queue listed.toBackfillReference, state.2)
        else if (classifyAcquisitionError error).outcome = .failed then
          .ok (state.1.countFailed, state.2)
        else .error ⟨state.1, classifyAcquisitionError error⟩

/-! ## What the references owe -/

/-- The acquisition of the reference fails with an error that is worth a retry. -/
def ListedReference.FailsRetryably (listed : ListedReference Url) : Prop :=
  listed.reference.articleUrl.isSome = true ∧ ∃ error, listed.page = .error error ∧
    (classifyAcquisitionError error).outcome = .retryableFailure

/-- The references among `done` that may succeed later are queued. -/
def Queues (done : List (ListedReference Url)) (context : SyncRunContext Url) : Prop :=
  ∀ listed ∈ done, listed.FailsRetryably → listed.toBackfillReference ∈ context.backfillReferences

/-- **After the references `done`** of a run that started with `stats`. -/
structure CountsListed (stats : SyncStats) (done : List (ListedReference Url))
    (state : SyncRunContext Url × List (Observed Url)) : Prop where
  stats : state.1.stats = { stats with articlesFailed := state.1.stats.articlesFailed }
  total : state.2.length + state.1.stats.articlesFailed.toNat = done.length
  queues : Queues done state.1
  observed : ∀ listed ∈ done, listed.reference.articleUrl.isSome = true → ∀ page version,
    listed.page = .ok page → listed.version = some version →
    (⟨listed, page, version⟩ : Observed Url) ∈ state.2

theorem CountsListed.failed {stats : SyncStats} {done : List (ListedReference Url)}
    {state : SyncRunContext Url × List (Observed Url)} {listed : ListedReference Url}
    {references : List (BackfillReference Url)} (h : CountsListed stats done state)
    (hsize : done.length + 1 < UInt32.size)
    (hkept : ∀ reference ∈ state.1.backfillReferences, reference ∈ references)
    (hqueued : listed.FailsRetryably → listed.toBackfillReference ∈ references)
    (hpage : listed.reference.articleUrl.isSome = true → ∀ page version, listed.page = .ok page →
      listed.version ≠ some version) :
    CountsListed stats (done ++ [listed])
      ({ state.1.countFailed with backfillReferences := references }, state.2) where
  stats := congrArg (fun counted : SyncStats =>
    { counted with articlesFailed := saturatingAdd state.1.stats.articlesFailed 1 }) h.stats
  total := by
    have htotal := h.total
    have hadd : (saturatingAdd state.1.stats.articlesFailed 1).toNat
        = state.1.stats.articlesFailed.toNat + 1 := toNat_saturatingAdd_one (by omega)
    show state.2.length + (saturatingAdd state.1.stats.articlesFailed 1).toNat = _
    rw [hadd, List.length_append, List.length_singleton]
    omega
  queues other hother hfails := by
    rcases List.mem_append.mp hother with hother | hother
    · exact hkept _ (h.queues other hother hfails)
    · obtain rfl := List.mem_singleton.mp hother
      exact hqueued hfails
  observed other hother hurl page version hok hversion := by
    rcases List.mem_append.mp hother with hother | hother
    · exact h.observed other hother hurl page version hok hversion
    · obtain rfl := List.mem_singleton.mp hother
      exact absurd hversion (hpage hurl page version hok)

variable [DecidableEq Url]

/-- `archive_assets`; `archiver` is whether assets are cached. -/
def archiveAssets (archiver : Bool) (assets : FetchedAssets Url) (prepared : PreparedArticle Url) :
    PreparedArticle Url :=
  if !archiver then prepared
  else if prepared.article.originalUrl.isNone then prepared
  else if prepared.externalAssets.isEmpty then prepared
  else prepared.withFetchedAssets assets.1 assets.2

/-- The bytes an article holds. -/
def PreparedArticle.fetchedBytes (prepared : PreparedArticle Url) : ℕ :=
  (prepared.fetchedAssets.map (·.bytes.length)).sum

/-- `retain_asset_batch_within_memory_budget`: the article, and the bytes then pending.  What is
held in memory at once does not overflow a sum. -/
def retainAssetBatchWithinMemoryBudget (prepared : PreparedArticle Url) (pendingAssetBytes : ℕ) :
    PreparedArticle Url × ℕ :=
  if maxPendingAssetBytes - pendingAssetBytes < prepared.fetchedBytes then
    (prepared.withFetchedAssets [] ordered_nil, pendingAssetBytes)
  else (prepared, pendingAssetBytes + prepared.fetchedBytes)

/-- What the second loop accumulates. -/
structure SyncPreparation (Url : Type) [UrlCrate Url] [DecidableEq Url] where
  context : SyncRunContext Url
  prepared : List (PreparedArticle Url × ArticleSupply)
  pendingAssetBytes : ℕ

variable [ScraperCrate] [Sha2Crate]

/-- The fetched page does not normalize. -/
def ListedReference.FailsNormalization (listed : ListedReference Url) (sourceId : Uuid)
    (finishedAt : DateTime) : Prop :=
  listed.reference.articleUrl.isSome = true ∧ ∃ page version error, listed.page = .ok page ∧
    listed.version = some version ∧
    prepareArticle sourceId listed.reference page version finishedAt = .error error

/-- One round of the second loop. -/
def prepareObserved (archiver : Bool) (sourceId : Uuid) (finishedAt : DateTime)
    (state : SyncPreparation Url) (observed : Observed Url) : SyncPreparation Url :=
  match prepareArticle sourceId observed.listed.reference observed.page observed.version
      finishedAt with
  | .ok article =>
    let retained := retainAssetBatchWithinMemoryBudget
      (archiveAssets archiver observed.listed.assets article) state.pendingAssetBytes
    { context := state.context.countArchived
      prepared := state.prepared ++ [(retained.1, observed.listed.supply)]
      pendingAssetBytes := retained.2 }
  | .error _ =>
    { state with
      context := state.context.countFailed.queue observed.listed.toBackfillReference }

/-- **After the articles `done`** of a run that left the first loop with `first`. -/
structure CountsPrepared (sourceId : Uuid) (finishedAt : DateTime) (first : SyncRunContext Url)
    (done : List (Observed Url)) (state : SyncPreparation Url) : Prop where
  stats : state.context.stats =
    { first.stats with
      articlesFailed := state.context.stats.articlesFailed
      archivedArticles := state.context.stats.archivedArticles }
  total : state.context.stats.archivedArticles.toNat + state.context.stats.articlesFailed.toNat
    = first.stats.archivedArticles.toNat + first.stats.articlesFailed.toNat + done.length
  archived : first.stats.archivedArticles.toNat + state.prepared.length
    = state.context.stats.archivedArticles.toNat
  kept : ∀ reference ∈ first.backfillReferences, reference ∈ state.context.backfillReferences
  queues : ∀ observed ∈ done, ∀ error, prepareArticle sourceId observed.listed.reference
    observed.page observed.version finishedAt = .error error →
    observed.listed.toBackfillReference ∈ state.context.backfillReferences
  held : (state.prepared.map (·.1.fetchedBytes)).sum = state.pendingAssetBytes
  bounded : state.pendingAssetBytes ≤ maxPendingAssetBytes

omit [ScraperCrate] [Sha2Crate] in
/-- **What is retained fits.** -/
theorem retainAssetBatch_spec (prepared : PreparedArticle Url) {pendingAssetBytes : ℕ}
    (h : pendingAssetBytes ≤ maxPendingAssetBytes) :
    pendingAssetBytes
          + (retainAssetBatchWithinMemoryBudget prepared pendingAssetBytes).1.fetchedBytes
        = (retainAssetBatchWithinMemoryBudget prepared pendingAssetBytes).2 ∧
      (retainAssetBatchWithinMemoryBudget prepared pendingAssetBytes).2 ≤ maxPendingAssetBytes := by
  unfold retainAssetBatchWithinMemoryBudget
  split_ifs with hover
  · exact ⟨rfl, h⟩
  · exact ⟨rfl, by omega⟩

/-- **One round of the second loop.** -/
theorem CountsPrepared.step {archiver : Bool} {sourceId : Uuid} {finishedAt : DateTime}
    {first : SyncRunContext Url} {done : List (Observed Url)} {state : SyncPreparation Url}
    (h : CountsPrepared sourceId finishedAt first done state) (observed : Observed Url)
    (hsize : first.stats.archivedArticles.toNat + first.stats.articlesFailed.toNat + done.length + 1
      < UInt32.size) :
    CountsPrepared sourceId finishedAt first (done ++ [observed])
      (prepareObserved archiver sourceId finishedAt state observed) := by
  have htotal := h.total
  unfold prepareObserved
  rcases hprepare : prepareArticle sourceId observed.listed.reference observed.page
      observed.version finishedAt with error | article
  · have hadd : (saturatingAdd state.context.stats.articlesFailed 1).toNat
        = state.context.stats.articlesFailed.toNat + 1 := toNat_saturatingAdd_one (by omega)
    exact
      { stats := congrArg (fun counted : SyncStats =>
          { counted with
            articlesFailed := saturatingAdd state.context.stats.articlesFailed 1 }) h.stats
        total := by
          show state.context.stats.archivedArticles.toNat
            + (saturatingAdd state.context.stats.articlesFailed 1).toNat = _
          rw [hadd, List.length_append, List.length_singleton]
          omega
        archived := h.archived
        kept := fun reference hmem => List.mem_append_left _ (h.kept reference hmem)
        queues := fun other hother error' herror => by
          rcases List.mem_append.mp hother with hother | hother
          · exact List.mem_append_left _ (h.queues other hother error' herror)
          · obtain rfl := List.mem_singleton.mp hother
            exact List.mem_append_right _ List.mem_cons_self
        held := h.held
        bounded := h.bounded }
  · have hadd : (saturatingAdd state.context.stats.archivedArticles 1).toNat
        = state.context.stats.archivedArticles.toNat + 1 := toNat_saturatingAdd_one (by omega)
    have hretained := retainAssetBatch_spec (archiveAssets archiver observed.listed.assets article)
      h.bounded
    exact
      { stats := congrArg (fun counted : SyncStats =>
          { counted with
            archivedArticles := saturatingAdd state.context.stats.archivedArticles 1 }) h.stats
        total := by
          show (saturatingAdd state.context.stats.archivedArticles 1).toNat
            + state.context.stats.articlesFailed.toNat = _
          rw [hadd, List.length_append, List.length_singleton]
          omega
        archived := by
          have harchived := h.archived
          show _ + (state.prepared ++ [_]).length
            = (saturatingAdd state.context.stats.archivedArticles 1).toNat
          rw [hadd, List.length_append, List.length_singleton]
          omega
        kept := h.kept
        queues := fun other hother error herror => by
          rcases List.mem_append.mp hother with hother | hother
          · exact h.queues other hother error herror
          · obtain rfl := List.mem_singleton.mp hother
            exact absurd (hprepare.symm.trans herror) nofun
        held := by
          rw [List.map_append, List.sum_append, h.held, List.map_singleton, List.sum_singleton]
          exact hretained.1
        bounded := hretained.2 }

/-- **The second loop.** -/
theorem CountsPrepared.foldl (archiver : Bool) {sourceId : Uuid} {finishedAt : DateTime}
    {first : SyncRunContext Url} :
    ∀ (rest done : List (Observed Url)) (state : SyncPreparation Url),
      CountsPrepared sourceId finishedAt first done state →
      first.stats.archivedArticles.toNat + first.stats.articlesFailed.toNat + (done ++ rest).length
        < UInt32.size →
      CountsPrepared sourceId finishedAt first (done ++ rest)
        (rest.foldl (prepareObserved archiver sourceId finishedAt) state)
  | [], done, state, h, _ => by rwa [List.append_nil]
  | observed :: rest, done, state, h, hsize => by
    have hlength : (done ++ observed :: rest).length = done.length + 1 + rest.length := by
      rw [List.length_append, List.length_cons]
      omega
    rw [List.append_cons] at hsize ⊢
    exact CountsPrepared.foldl archiver rest (done ++ [observed]) _ (h.step observed (by
      rw [← List.append_cons, hlength] at hsize
      omega)) hsize

/-! ## The final transaction -/

variable [LawfulUrlCrate Url]

/-- One article: with its assets, or without when none are cached. -/
def persistPrepared (context : Option AssetRepository.AssetWriteContext) (supply : ArticleSupply)
    (prepared : PreparedArticle Url) : ArchiveTx (Bool × Bool) :=
  match context with
  | some context => persistArticle context supply prepared
  | none => do
    let result ← ArchiveTx.upsert supply prepared.article
    return (result.created, result.feedVisibleChange)

/-- The loop of `persist_success`: the counters, and whether the feed changed. -/
def persistCounting (context : Option AssetRepository.AssetWriteContext) :
    SyncStats × Bool → List (PreparedArticle Url × ArticleSupply) → ArchiveTx (SyncStats × Bool)
  | state, [] => pure state
  | state, (prepared, supply) :: rest => do
    let result ← persistPrepared context supply prepared
    persistCounting context (state.1.countPersisted result, state.2 || result.2) rest

/-- `SourceSyncJobHandler::persist_success`, with the counters that it stores in the run. -/
def SyncFinish.persistCounted (policy : Option AssetCachePolicy) (tables : WorkTables)
    (work : SyncFinish Url) (stats : SyncStats) (claim : JobCompletion) (now : DateTime) :
    Option (WorkTables × SyncStats) := do
  let preparation ← prepareBatch tables.archive (work.prepared.flatMap (·.1.fetchedAssets))
  let current ← SourceRepository.findForUpdate Url tables.sources work.run.sourceId
  let persisted ← runArchive tables.archive
    (persistCounting (policy.map fun policy => ⟨policy, some preparation, work.startedAt⟩)
      (stats, false) work.prepared)
  let jobs ← enqueueRebuild tables.jobs persisted.1.2 work.rebuildId current work.run.finishedAt
  let jobs ← enqueueBackfillReferences jobs work.source work.backfills work.run.finishedAt
  let sources ← SourceSync.persistSuccess Url tables.sources work.run persisted.1.2
  let syncRuns ← SyncRunRepository.finish tables.syncRuns work.runId
    ⟨.succeeded, work.run.finishedAt, none,
      if persisted.1.2 then some (current.feedRevision + 1) else none⟩
  let jobs ← FeedSystem.applyExecution jobs claim .succeeded now
  return ({ tables with
    jobs := jobs
    sources := sources
    archive := persisted.2
    syncRuns := syncRuns }, persisted.1.1)

/-! ## A run -/

/-- **A started run of a source sync**: its source, the answers it gets, and the ids and clocks of
its final transactions. -/
structure SyncRunCalls (Url : Type) [UrlCrate Url] where
  source : SourceRow
  runId : Uuid
  list : Except SyncAcquisitionError (List (ListedReference Url))
  /-- `database_now`, after the articles -/
  finishedAt : Option DateTime
  rebuildId : Uuid
  startedAt : DateTime
  clock : DateTime
  finishes : Bool
  /-- `database_now`, of the failed run -/
  failedAt : Option DateTime
  failedClock : DateTime
  failedFinishes : Bool

namespace SyncRunCalls

/-- What a run ends with. -/
inductive SyncRunEnd
  | succeeded (tables : WorkTables) (stats : SyncStats)
  | failed (tables : WorkTables) (stats : SyncStats) (failure : ClassifiedSyncFailure)
  /-- neither final transaction commits -/
  | unfinished

/-- `execute_inner`, from the list to the prepared articles. -/
def prepare (calls : SyncRunCalls Url) (archiver : Bool) :
    Except (RunFailure Url) (SyncPreparation Url × DateTime) :=
  match calls.list with
  | .error error => .error ⟨⟨.none, []⟩, classifyAcquisitionError error⟩
  | .ok references =>
    if UInt32.size ≤ references.length then
      .error ⟨⟨.none, []⟩, .failed, .permanent, "source returned too many articles"⟩
    else do
      let stats : SyncStats := { SyncStats.none with articlesSeen := .ofNat references.length }
      let observed ← references.foldlM observeReference (⟨stats, []⟩, [])
      match calls.finishedAt with
      | none => .error ⟨observed.1, retryablePersistenceFailure⟩
      | some finishedAt =>
        return (observed.2.foldl (prepareObserved archiver calls.source.id finishedAt)
          ⟨observed.1, [], 0⟩, finishedAt)

/-- What `persist_success` finishes. -/
def finish (calls : SyncRunCalls Url) (state : SyncPreparation Url) (finishedAt : DateTime) :
    SyncFinish Url where
  source := calls.source
  runId := calls.runId
  run := ⟨calls.source.id, finishedAt, calls.clock, calls.finishes⟩
  backfills := state.context.backfillReferences
  rebuildId := calls.rebuildId
  prepared := state.prepared
  startedAt := calls.startedAt
  sourceId_eq := rfl

/-- What `finish_failed_run` finishes. -/
def finishFailed (calls : SyncRunCalls Url) (context : SyncRunContext Url) (failedAt : DateTime) :
    SyncFinish Url where
  source := calls.source
  runId := calls.runId
  run := ⟨calls.source.id, failedAt, calls.failedClock, calls.failedFinishes⟩
  backfills := context.backfillReferences
  rebuildId := calls.rebuildId
  prepared := []
  startedAt := calls.startedAt
  sourceId_eq := rfl

/-- `execute_inner`, from the started run on, over the tables its final transaction finds. -/
def executeInner (calls : SyncRunCalls Url) (policy : Option AssetCachePolicy)
    (tables : WorkTables) (claim : JobCompletion) (now : DateTime) :
    Except (RunFailure Url) (WorkTables × SyncStats) := do
  let (state, finishedAt) ← calls.prepare policy.isSome
  match (calls.finish state finishedAt).persistCounted policy tables state.context.stats claim
      now with
  | none => .error ⟨state.context, retryablePersistenceFailure⟩
  | some committed => return committed

/-- `SourceSyncJobHandler::execute`, of a started run.  The transaction of a failed run comes later
and finds tables of its own. -/
def execute (calls : SyncRunCalls Url) (policy : Option AssetCachePolicy)
    (config : SourceSyncConfig) (tables later : WorkTables) (claim : JobCompletion)
    (now laterNow : DateTime) : SyncRunEnd :=
  match calls.executeInner policy tables claim now with
  | .ok (tables, stats) => .succeeded tables stats
  | .error ended =>
    match calls.failedAt with
    | none => .unfinished
    | some failedAt =>
      match (calls.finishFailed ended.context failedAt).finishFailedRun config later ended.failure
          claim laterNow with
      | none => .unfinished
      | some tables => .failed tables ended.context.stats ended.failure

end SyncRunCalls

/-! ## The counters of the final transaction -/

omit [ScraperCrate] in
/-- Counting changes nothing that is persisted. -/
theorem persistCounting_persistEach (context : AssetRepository.AssetWriteContext) :
    ∀ (prepared : List (PreparedArticle Url × ArticleSupply)) (state : SyncStats × Bool)
      (s : ArchiveState),
      ((persistCounting (some context) state prepared s).1.map (·.2),
          (persistCounting (some context) state prepared s).2)
        = ((persistEach context prepared s).1.map (state.2 || ·),
          (persistEach context prepared s).2)
  | [], state, s => by
    show ((Except.ok state.2 : Except Unit Bool), s) = (Except.ok (state.2 || false), s)
    rw [Bool.or_false]
  | (prepared, supply) :: rest, state, s => by
    rw [persistCounting, persistEach]
    have hone : persistPrepared (some context) supply prepared
        = persistArticle context supply prepared := rfl
    rw [hone]
    rcases hrun : persistArticle context supply prepared s with ⟨_ | result, t⟩
    · rw [Tx.bind_of_error hrun, Tx.bind_of_error hrun]
      rfl
    · rw [Tx.bind_of_ok hrun, Tx.bind_of_ok hrun, persistCounting_persistEach context rest]
      rcases hrest : persistEach context rest t with ⟨_ | changed, u⟩
      · rw [Tx.bind_of_error hrest]
        rfl
      · rw [Tx.bind_of_ok hrest]
        show (Except.ok ((state.2 || result.2) || changed), u)
          = ((Except.ok (state.2 || (result.2 || changed)) : Except Unit Bool), u)
        rw [Bool.or_assoc]

omit [ScraperCrate] in
theorem runArchive_persistCounting (tables : ArchiveTables)
    (context : AssetRepository.AssetWriteContext) (stats : SyncStats)
    (prepared : List (PreparedArticle Url × ArticleSupply)) :
    (runArchive tables (persistCounting (some context) (stats, false) prepared)).map
        (fun persisted => (persisted.1.2, persisted.2))
      = runArchive tables (persistEach context prepared) := by
  have h := persistCounting_persistEach context prepared (stats, false)
    ⟨tables.articles, ⟨tables.assets, {}⟩⟩
  unfold runArchive
  rcases hcounted : persistCounting (some context) (stats, false) prepared
    ⟨tables.articles, ⟨tables.assets, {}⟩⟩ with ⟨_ | counted, s⟩
  · rcases heach : persistEach context prepared ⟨tables.articles, ⟨tables.assets, {}⟩⟩
      with ⟨_ | changed, t⟩
    · rfl
    · rw [hcounted, heach] at h
      exact absurd (congrArg Prod.fst h) nofun
  · rcases heach : persistEach context prepared ⟨tables.articles, ⟨tables.assets, {}⟩⟩
      with ⟨_ | changed, t⟩
    · rw [hcounted, heach] at h
      exact absurd (congrArg Prod.fst h) nofun
    · rw [hcounted, heach] at h
      obtain ⟨hchanged, rfl⟩ := Prod.mk.inj h
      have hsame : counted.2 = changed := Except.ok.inj hchanged
      rw [← hsame]
      rfl

omit [ScraperCrate] in
/-- **The counted transaction is the transaction of the sync.** -/
theorem SyncFinish.persistCounted_some (policy : AssetCachePolicy) (tables : WorkTables)
    (work : SyncFinish Url) (stats : SyncStats) (claim : JobCompletion) (now : DateTime) :
    (work.persistCounted (some policy) tables stats claim now).map Prod.fst
      = work.persistSuccess policy tables claim now := by
  have heach : ∀ preparation, runArchive tables.archive
      (persistEach ⟨policy, some preparation, work.startedAt⟩ work.prepared) = _ :=
    fun preparation => (runArchive_persistCounting tables.archive
      ⟨policy, some preparation, work.startedAt⟩ stats work.prepared).symm
  simp only [persistCounted, persistSuccess, heach, Option.map_some, Option.bind_eq_bind,
    Option.map_bind, Option.bind_map, Function.comp_def, Option.pure_def]

/-- **The counters of a run and the backfills it owes**, for its references. -/
structure Accounted (source : SourceRow) (references : List (ListedReference Url))
    (finishedAt : DateTime) (tables : WorkTables) (stats : SyncStats) : Prop where
  seen : stats.articlesSeen.toNat = references.length
  split : stats.articlesSeen.toNat = stats.archivedArticles.toNat + stats.articlesFailed.toNat
  persisted : stats.articlesCreated.toNat + stats.articlesUpdated.toNat
    ≤ stats.archivedArticles.toNat
  backfills : ∀ listed ∈ references,
    listed.FailsRetryably ∨ listed.FailsNormalization source.id finishedAt →
    isBlank listed.reference.reviewId = false →
    HasBackfill tables.jobs source.id listed.reference.reviewId

namespace SyncRunCalls

end SyncRunCalls

end Run

/-! ## A run over four references

One has no URL, one times out, one has a page without a date, and one is archived. -/

section Samples

open AssetRepository

attribute [local instance] plainDigest

@[reducible] def textScraper : ScraperCrate := ⟨fun html => .node (.text html) []⟩

attribute [local instance] textScraper

/-- The counters of a run that succeeded. -/
def SyncRunCalls.SyncRunEnd.stats : SyncRunCalls.SyncRunEnd → Option SyncStats
  | .succeeded _ stats => some stats
  | _ => none

end Samples

end Werrss
