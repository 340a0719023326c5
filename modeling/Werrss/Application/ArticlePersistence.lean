import Werrss.Application.SyncService
import Werrss.Persistence.ArticleUpsert
import Werrss.Persistence.AssetUnitOfWork

/-!
# Application/ArticlePersistence — the transactions that write articles and their assets

    source sync, backfill   lock the row ─▸ keep the old HTML ┊ replace the links, rewrite ─▸ upsert
    article refresh         lock the row ─▸ replace the links, rewrite ─▸ upsert

Each handler ends in one transaction over the article table and the asset tables.  Sync and backfill
look at the observation first: **a stale one writes nothing, an empty one touches no link, an
incomplete one keeps the HTML it cannot match**.  The refresh replaces the links of whatever it was
given.
-/

open Machinery

namespace Werrss

/-- The committed tables. -/
structure ArchiveTables where
  articles : ArticleTable
  assets : AssetTables

/-- Tables without a row. -/
def ArchiveTables.empty : ArchiveTables := ⟨fun _ => none, .empty⟩

/-- A transaction in progress. -/
structure ArchiveState where
  articles : ArticleTable
  assets : AssetState

/-- The programs of the handlers: their failures carry nothing. -/
abbrev ArchiveTx (A : Type) := Tx ArchiveState Unit A

/-- What the surroundings provide to the persistence of one article: the referenced `sources`, the
clocks, the ids of its inputs, and whether `reset_article_refresh_lineage` succeeds. -/
structure ArticleSupply where
  sources : Uuid → Bool
  clock : StatementClock
  asset : ℕ → AssetSupply
  lineageResets : Bool

namespace ArchiveTx

variable {A : Type}

/-- An asset operation whose result the handler looks at. -/
def assets (m : AssetTx A) : ArchiveTx (Except AssetRepositoryError A) := fun s =>
  (.ok (m s.assets).1, { s with assets := (m s.assets).2 })

section Articles

variable {Url : Type} [UrlCrate Url] [LawfulUrlCrate Url]

/-- `find_for_update`. -/
def findForUpdate (key : ArticleKey) : ArchiveTx (Option (Article Url)) := fun s =>
  match s.articles key with
  | none => (.ok none, s)
  | some row =>
    match (decodeArticle key row : Except ArticleRepositoryError (Article Url)) with
    | .error _ => (.error (), s)
    | .ok article => (.ok (some article), s)

/-- `upsert`, whose failure ends the transaction. -/
def upsert (supply : ArticleSupply) (article : NewArticle Url) :
    ArchiveTx (ArticleUpsertResult Url) := fun s =>
  match Werrss.upsert supply.sources supply.clock s.articles article with
  | .error _ => (.error (), s)
  | .ok (articles, result) => (.ok result, { s with articles := articles })

end Articles

end ArchiveTx

/-- The rejections the handlers live with. -/
def AssetRepositoryError.isRejection : AssetRepositoryError → Bool
  | .capacityExceeded .. => true
  | .assetTooLarge .. => true
  | .tooManyAssets .. => true
  | _ => false

/-- `clear_for_article`. -/
def AssetRepository.clearForArticle (sourceId : Uuid) (reviewId : String) : AssetTx Unit := do
  Tx.ofExcept (validateArticleIdentity sourceId reviewId)
  Tx.modify fun s => { s with tables := s.tables.deleteArticleAssets sourceId (trim reviewId) }

open AssetRepository (AssetWriteContext replaceForArticle clearForArticle prepareAssetBatch)

section Handlers

variable {Url : Type} [UrlCrate Url] [LawfulUrlCrate Url] [DecidableEq Url] [Sha2Crate]

/-- The public route of a stored asset. -/
def assetRoute (id : Uuid) : String := "/assets/" ++ id.toText

/-- The article with its images pointed at the stored assets, hashed again if that changes it. -/
def rewriteArticle (article : NewArticle Url) (stored : List (StoredAsset Url)) : NewArticle Url :=
  let rewritten := rewriteSanitizedHtml article.contentHtml.toList
    (stored.map fun asset => (asset.sourceUrl, assetRoute asset.id))
  if rewritten = article.contentHtml.toList then article
  else
    { article with
      contentHtml := String.ofList rewritten
      contentHash := some (sha256Text (String.ofList rewritten)) }

/-- The article with the representation that is already published. -/
def keepRepresentation (article : NewArticle Url) (current : Option (Article Url)) :
    NewArticle Url :=
  match current with
  | none => article
  | some current =>
    { article with contentHtml := current.contentHtml, contentHash := current.contentHash }

/-- The inputs of an article, with what storing each of them needs. -/
def suppliedInputs (supply : ArticleSupply) (inputs : List (AssetInput Url)) :
    List (AssetInput Url × AssetSupply) :=
  inputs.zipIdx.map fun entry => (entry.1, supply.asset entry.2)

/-- What is persisted when the links could not be replaced: the published representation if it has
local images, else the external one without links. -/
def rejected (article : NewArticle Url) (current : Option (Article Url))
    (e : AssetRepositoryError) : ArchiveTx (NewArticle Url × Bool) :=
  if !e.isRejection then Tx.fail ()
  else if current.any fun current => mentionsAssets current.contentHtml then
    pure (keepRepresentation article current, false)
  else do
    let cleared ← ArchiveTx.assets (clearForArticle article.sourceId article.reviewId)
    match cleared with
    | .error _ => Tx.fail ()
    | .ok () => return (article, false)

/-- What is persisted of an accepted observation, after its links are settled, and whether its
refresh lineage is reset. -/
def reconcile (context : AssetWriteContext) (supply : ArticleSupply)
    (prepared : PreparedArticle Url) (current : Option (Article Url)) :
    ArchiveTx (NewArticle Url × Bool) :=
  let article := prepared.article
  if shouldPreserveCachedAssetRepresentation (current.map (·.contentHtml)) prepared.externalAssets
      prepared.fetchedAssets then
    pure (keepRepresentation article current, false)
  else if shouldReconcileAssets article article.observationVersion then do
    let stored ← ArchiveTx.assets (replaceForArticle context article.sourceId article.reviewId
      (suppliedInputs supply prepared.fetchedAssets))
    match stored with
    | .ok stored =>
      return (rewriteArticle article stored,
        completeAssetSet prepared.externalAssets prepared.fetchedAssets)
    | .error e => rejected article current e
  else pure (article, false)

/-- One round of both `persist_success`: whether the article was created and whether the feed
changed.  The two handlers reset the lineage at different points; it is kept in other tables. -/
def persistArticle (context : AssetWriteContext) (supply : ArticleSupply)
    (prepared : PreparedArticle Url) : ArchiveTx (Bool × Bool) := do
  let article := prepared.article
  let current ← ArchiveTx.findForUpdate (article.sourceId, article.reviewId)
  if current.any fun current => article.observationVersion < current.observationVersion then
    return (false, false)
  else do
    let settled ← reconcile context supply prepared current
    let result ← ArchiveTx.upsert supply settled.1
    if settled.2 && !supply.lineageResets then Tx.fail ()
    else return (result.created, result.feedVisibleChange)

/-- The loop of the source sync: whether some article changed the feed. -/
def persistEach (context : AssetWriteContext) :
    List (PreparedArticle Url × ArticleSupply) → ArchiveTx Bool
  | [] => pure false
  | (prepared, supply) :: rest => do
    let result ← persistArticle context supply prepared
    let changed ← persistEach context rest
    return result.2 || changed

/-- A transaction that commits when all of its statements succeed; `finishes` says whether those on
the source, the queue, the run and the fenced job do. -/
def transact {A : Type} (tables : ArchiveTables) (finishes : Bool) (m : ArchiveTx A) :
    Option ArchiveTables :=
  match m ⟨tables.articles, ⟨tables.assets, {}⟩⟩ with
  | (.error _, _) => none
  | (.ok _, s) => if finishes then some ⟨s.articles, AssetRepository.commit s.assets⟩ else none

/-! ## The three handlers -/

/-- The final transaction of a source sync. -/
structure SourceSyncWork (Url : Type) [UrlCrate Url] [DecidableEq Url] where
  prepared : List (PreparedArticle Url × ArticleSupply)
  startedAt : DateTime
  finishes : Bool

/-- `SourceSyncJobHandler::persist_success`. -/
def SourceSyncWork.persistSuccess (policy : AssetCachePolicy) (tables : ArchiveTables)
    (work : SourceSyncWork Url) : Option ArchiveTables :=
  match prepareAssetBatch tables.assets (work.prepared.flatMap (·.1.fetchedAssets)) with
  | .error _ => none
  | .ok preparation =>
    transact tables work.finishes (persistEach ⟨policy, some preparation, work.startedAt⟩
      work.prepared)

/-- The final transaction of an article backfill. -/
structure ArticleBackfillWork (Url : Type) [UrlCrate Url] [DecidableEq Url] where
  prepared : PreparedArticle Url
  supply : ArticleSupply
  startedAt : DateTime
  finishes : Bool

/-- `ArticleBackfillJobHandler::persist_success`. -/
def ArticleBackfillWork.persistSuccess (policy : AssetCachePolicy) (tables : ArchiveTables)
    (work : ArticleBackfillWork Url) : Option ArchiveTables :=
  match prepareAssetBatch tables.assets work.prepared.fetchedAssets with
  | .error _ => none
  | .ok preparation =>
    transact tables work.finishes (persistArticle ⟨policy, some preparation, work.startedAt⟩
      work.supply work.prepared)

inductive ArticleRefreshOutcome
  | succeeded | inconclusive | superseded | deleted
deriving DecidableEq, Repr

/-- The finalization of an article refresh.  The prepared article is an observation of the target:
its reference is built from the target's row. -/
structure ArticleRefreshWork (Url : Type) [UrlCrate Url] [DecidableEq Url] where
  target : ArticleKey
  reservedVersion : ℕ
  prepared : Option (PreparedArticle Url)
  requestedOutcome : ArticleRefreshOutcome
  supply : ArticleSupply
  startedAt : DateTime
  finishes : Bool
  prepared_target : ∀ p ∈ prepared, (p.article.sourceId, p.article.reviewId) = target
  prepared_version : ∀ p ∈ prepared, p.article.observationVersion = reservedVersion

/-- The inputs a finalization prepares. -/
def ArticleRefreshWork.inputs (work : ArticleRefreshWork Url) : List (AssetInput Url) :=
  if work.requestedOutcome = .succeeded then (work.prepared.map (·.fetchedAssets)).getD [] else []

/-- The outcome under the locks. -/
def ArticleRefreshWork.outcome (work : ArticleRefreshWork Url) (current : Option (Article Url)) :
    ArticleRefreshOutcome :=
  match current with
  | none => .deleted
  | some current =>
    if !work.supply.sources work.target.1 then .deleted
    else if work.reservedVersion ≤ current.observationVersion then .superseded
    else work.requestedOutcome

/-- A refresh that succeeded replaces the links and the article; a rejection leaves both. -/
def applyRefresh (context : AssetWriteContext) (work : ArticleRefreshWork Url)
    (prepared : PreparedArticle Url) : ArchiveTx ArticleRefreshOutcome := do
  let stored ← ArchiveTx.assets (replaceForArticle context work.target.1 work.target.2
    (suppliedInputs work.supply work.inputs))
  match stored with
  | .error e => if e.isRejection then return .inconclusive else Tx.fail ()
  | .ok stored => do
    let _ ← ArchiveTx.upsert work.supply (rewriteArticle prepared.article stored)
    return .succeeded

/-- The statements of `finalize` on articles and assets. -/
def refreshArticle (context : AssetWriteContext) (work : ArticleRefreshWork Url) :
    ArchiveTx ArticleRefreshOutcome := do
  let current ← ArchiveTx.findForUpdate work.target
  if work.outcome current = .succeeded then
    match work.prepared with
    | none => Tx.fail ()
    | some prepared => applyRefresh context work prepared
  else return work.outcome current

/-- `AssetRefreshJobHandler::finalize`. -/
def ArticleRefreshWork.finalize (policy : AssetCachePolicy) (tables : ArchiveTables)
    (work : ArticleRefreshWork Url) : Option ArchiveTables :=
  match prepareAssetBatch tables.assets work.inputs with
  | .error _ => none
  | .ok preparation =>
    transact tables work.finishes (refreshArticle ⟨policy, some preparation, work.startedAt⟩ work)

/-! ## Runs -/

/-- The final transactions of the handlers. -/
inductive ArchiveOperation (Url : Type) [UrlCrate Url] [DecidableEq Url]
  | sourceSync (work : SourceSyncWork Url)
  | backfill (work : ArticleBackfillWork Url)
  | refresh (work : ArticleRefreshWork Url)

/-- What a transaction commits, if it does. -/
def ArchiveOperation.commit (policy : AssetCachePolicy) (tables : ArchiveTables) :
    ArchiveOperation Url → Option ArchiveTables
  | .sourceSync work => work.persistSuccess policy tables
  | .backfill work => work.persistSuccess policy tables
  | .refresh work => work.finalize policy tables

/-- One transaction: committed as a whole, or without effect. -/
def ArchiveTables.step (policy : AssetCachePolicy) (tables : ArchiveTables)
    (operation : ArchiveOperation Url) : ArchiveTables :=
  (operation.commit policy tables).getD tables

end Handlers

end Werrss
