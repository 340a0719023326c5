import Werrss.Application.LocalImages
import Werrss.Persistence.ResetOrder

/-!
# Application/PersistenceAgreement — source sync and backfill persist an article alike

    source sync   settle ──────────▸ upsert ─▸ reset
    backfill      settle ─▸ reset ─▸ upsert

The two handlers reset the refresh lineage of a complete article on the two sides of its upsert.  The
reset works on the chains of *other* articles, so only one row can tell: an article that is new has
no lineage yet when the backfill resets it, and a fresh one when the sync does.  **No reader sees the
difference**: a lineage without a row is fresh.
-/

open Machinery

namespace Werrss

open RefreshLineage

/-- The programs of the handlers over articles, assets and recovery jobs. -/
abbrev HandlerTx (A : Type) := Tx RecoveryState Unit A

namespace HandlerTx

variable {A : Type}

/-- A program over articles and assets. -/
def archive (m : ArchiveTx A) : HandlerTx A := fun s =>
  ((m ⟨s.articles, s.assets⟩).1,
    { s with
      articles := (m ⟨s.articles, s.assets⟩).2.articles
      assets := (m ⟨s.articles, s.assets⟩).2.assets })

/-- A program over the recovery jobs, whose failure ends the transaction. -/
def recovery (m : RecoveryTx A) : HandlerTx A := fun s =>
  ((m s).1.mapError fun _ => (), (m s).2)

theorem archive_bind {B : Type} (m : ArchiveTx A) (f : A → ArchiveTx B) :
    archive (m >>= f) = archive m >>= fun a => archive (f a) := by
  funext s
  show archive (Tx.bind m f) s = Tx.bind (archive m) (fun a => archive (f a)) s
  rw [archive, Tx.bind, Tx.bind, archive]
  rcases m ⟨s.articles, s.assets⟩ with ⟨_ | a, t⟩
  · rfl
  · rfl

theorem archive_pure_bind {B : Type} (a : A) (f : A → HandlerTx B) :
    (archive (pure a) >>= f) = f a := rfl

end HandlerTx

/-! ## What the two leave -/

/-- The row `reset_article_refresh_lineage` writes. -/
def freshRow : LineageRow := ⟨0, none, false, some .succeeded⟩

/-- **What the two handlers leave**: the same, but for the lineage of an article that was not stored,
which is fresh in the one and has no row in the other. -/
structure SamePersistence (key : ArticleKey) (before : ArticleTable) (t t' : RecoveryState) :
    Prop where
  articles : t.articles = t'.articles
  assets : t.assets = t'.assets
  states : t.recovery.states = t'.recovery.states
  entries : t.recovery.entries = t'.recovery.entries
  repairJobs : t.recovery.repairJobs = t'.recovery.repairJobs
  jobs : t.recovery.jobs = t'.recovery.jobs
  lineage : t.recovery.lineage = t'.recovery.lineage ∨
    (before key = none ∧ t'.recovery.lineage key = none ∧
      t.recovery.lineage = Function.update t'.recovery.lineage key (some freshRow))

theorem SamePersistence.refl (key : ArticleKey) (before : ArticleTable) (t : RecoveryState) :
    SamePersistence key before t t := ⟨rfl, rfl, rfl, rfl, rfl, rfl, .inl rfl⟩

/-- **The lineages admit the same refreshes.** -/
theorem SamePersistence.lineageAdmits {key : ArticleKey} {before : ArticleTable}
    {t t' : RecoveryState} (h : SamePersistence key before t t') {policy : RecoveryPolicy}
    (hattempts : 0 < policy.maxAttempts) (clock : DateTime) (other : ArticleKey) :
    t.recovery.lineageAdmits policy clock other = t'.recovery.lineageAdmits policy clock other := by
  rcases h.lineage with heq | ⟨-, hnone, heq⟩
  · rw [RecoveryTables.lineageAdmits, RecoveryTables.lineageAdmits, heq]
  · rw [RecoveryTables.lineageAdmits, RecoveryTables.lineageAdmits, heq]
    by_cases hother : other = key
    · rw [hother, Function.update_self, hnone]
      simp [freshRow, hattempts]
    · rw [Function.update_of_ne hother]

/-! ## The two handlers -/

/-- What a handler has for one article: the context of its asset writes if there is an archiver, and
what its reset reads from the surroundings. -/
structure HandlerSetting where
  archiver : Option AssetRepository.AssetWriteContext
  policy : RecoveryPolicy
  clock : DateTime
  admissions : ℕ → AdmissionSupply

/-! ## Before and after the upsert -/

/-- The reset behind its fresh lineage. -/
def resetBody (setting : HandlerSetting) (key : ArticleKey) : RecoveryTx Unit :=
  reconcileArticleRefreshEntries key >>= fun affected =>
    reevaluateEach setting.policy setting.clock setting.admissions affected 0

/-- The fresh lineage of an article that is stored, and of the same article before it was. -/
theorem freshLineage_stored {key : ArticleKey} {table : ArticleTable}
    (hstored : (table key).isSome = true) (s : RecoveryState) :
    freshLineage key { s with articles := table }
      = retarget key table (some freshRow) (freshLineage key s) := by
  obtain ⟨row, hrow⟩ := Option.isSome_iff_exists.mp hstored
  cases hbefore : s.articles key with
  | none => simp only [freshLineage, hrow, hbefore, retarget, RecoveryState.withRecovery, freshRow]
  | some old =>
    simp only [freshLineage, hrow, hbefore, retarget, RecoveryState.withRecovery, freshRow,
      Function.update_idem]

theorem articles_freshLineage (key : ArticleKey) (s : RecoveryState) :
    (freshLineage key s).articles = s.articles := by
  unfold freshLineage
  split
  · rfl
  · rfl

/-- A reset leaves the articles. -/
theorem articles_resetBody {setting : HandlerSetting} {key : ArticleKey} {s t : RecoveryState}
    (hrun : resetBody setting key (freshLineage key s) = (.ok (), t)) :
    t.articles = s.articles := by
  have hsame := @relates_reconcile key s.articles s.articles _ _ (fun _ _ => rfl) setting.policy setting.clock setting.admissions (freshLineage key s)
    (retarget key s.articles none (freshLineage key s)) ⟨articles_freshLineage key s, rfl, rfl⟩
  obtain ⟨t', -, halike⟩ := hsame.1 () t hrun
  exact halike.articles

/-- **The reset before the upsert and the reset after it.** -/
theorem relates_resetBody (setting : HandlerSetting) {key : ArticleKey} {table : ArticleTable}
    {s : RecoveryState} (hstored : (table key).isSome = true)
    (hother : ∀ other, other ≠ key → table other = s.articles other)
    (hlineage : s.articles key = none → s.recovery.lineage key = none) :
    (∀ t, resetBody setting key (freshLineage key s) = (.ok (), t) →
      ∃ t', resetBody setting key (freshLineage key { s with articles := table }) = (.ok (), t') ∧
        SamePersistence key s.articles t' { t with articles := table }) ∧
    ∀ e t, resetBody setting key (freshLineage key s) = (.error e, t) →
      ∃ t', resetBody setting key (freshLineage key { s with articles := table })
        = (.error e, t') := by
  obtain ⟨hok, herror⟩ := relates_reconcile hother setting.policy setting.clock setting.admissions
    (freshLineage key s) (freshLineage key { s with articles := table })
    ⟨articles_freshLineage key s, rfl, freshLineage_stored hstored s⟩
  refine ⟨fun t hrun => ?_, herror⟩
  obtain ⟨t', hrun', halike⟩ := hok () t hrun
  refine ⟨t', hrun', ?_⟩
  rw [halike.same]
  refine ⟨rfl, rfl, rfl, rfl, rfl, rfl, ?_⟩
  cases hbefore : s.articles key with
  | none =>
    have hnone : t.recovery.lineage key = none := by
      rw [halike.lineage, freshLineage, hbefore]
      exact hlineage hbefore
    exact .inr ⟨rfl, hnone, rfl⟩
  | some row =>
    have hfresh : t.recovery.lineage key = some freshRow := by
      rw [halike.lineage, freshLineage, hbefore]
      exact Function.update_self ..
    refine .inl ?_
    show Function.update t.recovery.lineage key (some freshRow) = t.recovery.lineage
    rw [← hfresh, Function.update_eq_self]

section Handlers

variable {Url : Type} [UrlCrate Url] [LawfulUrlCrate Url] [DecidableEq Url] [Sha2Crate]

/-- `reset_article_refresh_lineage` of the article. -/
def resetLineage (setting : HandlerSetting) (article : NewArticle Url) : HandlerTx Unit :=
  HandlerTx.recovery (resetArticleRefreshLineage setting.policy setting.clock setting.admissions
    article.sourceId article.reviewId)

namespace SourceSyncJobHandler

/-- The reset after the upsert. -/
def resetIf (setting : HandlerSetting) (article : NewArticle Url) (reset : Bool) : HandlerTx Unit :=
  if reset then resetLineage setting article else pure ()

/-- The part of `persist_success` about one article: whether it was created, and whether the feed
changed. -/
def persistArticle (setting : HandlerSetting) (supply : ArticleSupply)
    (prepared : PreparedArticle Url) : HandlerTx (Bool × Bool) :=
  let article := prepared.article
  match setting.archiver with
  | none => do
    let result ← HandlerTx.archive (ArchiveTx.upsert supply article)
    return (result.created, result.feedVisibleChange)
  | some context => do
    let current ← HandlerTx.archive
      (ArchiveTx.findForUpdate (article.sourceId, article.reviewId) : ArchiveTx (Option (Article Url)))
    if current.any fun current => article.observationVersion < current.observationVersion then
      return (false, false)
    else do
      let settled ← HandlerTx.archive (reconcile context supply prepared current)
      let result ← HandlerTx.archive (ArchiveTx.upsert supply settled.1)
      resetIf setting article settled.2
      return (result.created, result.feedVisibleChange)

end SourceSyncJobHandler

namespace ArticleBackfillJobHandler

/-- The reset before the upsert. -/
def resetIf (setting : HandlerSetting) (article : NewArticle Url) (completeAssets : Bool) :
    HandlerTx Unit :=
  if completeAssets then resetLineage setting article else pure ()

/-- The article to persist of an accepted observation. -/
def settle (setting : HandlerSetting) (context : AssetRepository.AssetWriteContext)
    (supply : ArticleSupply) (prepared : PreparedArticle Url) (current : Option (Article Url)) :
    HandlerTx (NewArticle Url) :=
  let article := prepared.article
  let completeAssets := completeAssetSet prepared.externalAssets prepared.fetchedAssets
  if shouldPreserveCachedAssetRepresentation (current.map (·.contentHtml)) prepared.externalAssets
      prepared.fetchedAssets then
    pure (keepRepresentation article current)
  else if shouldReconcileAssets article article.observationVersion then do
    let stored ← HandlerTx.archive (ArchiveTx.assets (AssetRepository.replaceForArticle context
      article.sourceId article.reviewId (suppliedInputs supply prepared.fetchedAssets)))
    match stored with
    | .ok stored => do
      resetIf setting article completeAssets
      return rewriteArticle article stored
    | .error e => do
      let settled ← HandlerTx.archive (rejected article current e)
      return settled.1
  else pure article

/-- The part of `persist_success` about the article: whether the feed changed. -/
def persistArticle (setting : HandlerSetting) (supply : ArticleSupply)
    (prepared : PreparedArticle Url) : HandlerTx Bool :=
  let article := prepared.article
  match setting.archiver with
  | none => do
    let result ← HandlerTx.archive (ArchiveTx.upsert supply article)
    return result.feedVisibleChange
  | some context => do
    let current ← HandlerTx.archive
      (ArchiveTx.findForUpdate (article.sourceId, article.reviewId) : ArchiveTx (Option (Article Url)))
    if current.any fun current => article.observationVersion < current.observationVersion then
      return false
    else do
      let settled ← settle setting context supply prepared current
      let result ← HandlerTx.archive (ArchiveTx.upsert supply settled)
      return result.feedVisibleChange

end ArticleBackfillJobHandler

/-! ## The upsert of an article -/

omit [DecidableEq Url] [Sha2Crate] in
theorem updateRow_frame {table table' : ArticleTable} {key : ArticleKey}
    {set : ArticleRow → ArticleRow} {row : ArticleRow}
    (h : updateRow table key set = .ok (table', row)) :
    (∀ other, other ≠ key → table' other = table other) ∧ (table' key).isSome = true := by
  unfold updateRow at h
  split at h
  · exact nomatch h
  · obtain ⟨rfl, -⟩ := Prod.mk.inj (Except.ok.inj h)
    exact ⟨fun other hne => Function.update_of_ne hne .., by rw [Function.update_self]; rfl⟩

omit [DecidableEq Url] [Sha2Crate] in
/-- **An upsert writes one row**, and leaves it there. -/
theorem upsert_frame {sources : Uuid → Bool} {clock : StatementClock} {table table' : ArticleTable}
    {article : NewArticle Url} {result : ArticleUpsertResult Url}
    (h : upsert sources clock table article = .ok (table', result)) :
    (∀ other, other ≠ (article.sourceId, trim article.reviewId) → table' other = table other) ∧
      (table' (article.sourceId, trim article.reviewId)).isSome = true := by
  unfold upsert at h
  split at h
  · cases h
  rename_i n hnormalize
  have hid : n.sourceId = article.sourceId ∧ n.reviewId = trim article.reviewId := by
    unfold NewArticle.normalize at hnormalize
    split_ifs at hnormalize
    obtain rfl := Except.ok.inj hnormalize
    exact ⟨rfl, rfl⟩
  have hkey : (n.sourceId, n.reviewId) = (article.sourceId, trim article.reviewId) :=
    Prod.ext hid.1 hid.2
  split at h
  · cases h
  simp only [hkey] at h
  split at h
  · rename_i row hrow
    split at h
    · cases h
    · rename_i current hdecode
      obtain ⟨-, hsource, hreview, -, -⟩ := decodeArticle_inv hdecode
      have hmerged : ((current.mergeObservation n).sourceId, (current.mergeObservation n).reviewId)
          = (article.sourceId, trim article.reviewId) :=
        Prod.ext hsource (hreview.trans (trim_trim _))
      by_cases hstale : n.observationVersion < current.observationVersion
      · rw [if_pos hstale] at h
        obtain ⟨rfl, -⟩ := Prod.mk.inj (Except.ok.inj h)
        exact ⟨fun _ _ => rfl, by rw [hrow]; rfl⟩
      · rw [if_neg hstale] at h
        split at h
        · cases h
        · rename_i written row' hwrite
          split at h
          · cases h
          · obtain ⟨rfl, -⟩ := Prod.mk.inj (Except.ok.inj h)
            split_ifs at hwrite
            · unfold updateChangedArticle at hwrite
              split at hwrite
              · cases hwrite
              · rw [hmerged] at hwrite
                exact updateRow_frame hwrite
            · unfold updateObservation at hwrite
              split at hwrite
              · cases hwrite
              · rw [hmerged] at hwrite
                exact updateRow_frame hwrite
  · split_ifs at h
    split at h
    · cases h
    · obtain ⟨rfl, -⟩ := Prod.mk.inj (Except.ok.inj h)
      exact ⟨fun other hne => Function.update_of_ne hne .., by rw [Function.update_self]; rfl⟩

/-! ## The agreement -/

/-- Both handlers are in this state: it has these articles and these recovery tables. -/
def Shared (articles : ArticleTable) (recovery : RecoveryTables) (s s' : RecoveryState) : Prop :=
  s' = s ∧ s.articles = articles ∧ s.recovery = recovery

variable {articles : ArticleTable} {recovery : RecoveryTables}

omit [DecidableEq Url] [Sha2Crate] in
theorem archive_upsert_ok {supply : ArticleSupply} {article : NewArticle Url} {s : RecoveryState}
    {table : ArticleTable} {result : ArticleUpsertResult Url}
    (h : Werrss.upsert supply.sources supply.clock s.articles article = .ok (table, result)) :
    HandlerTx.archive (ArchiveTx.upsert supply article) s
      = (.ok result, { s with articles := table }) := by
  unfold HandlerTx.archive ArchiveTx.upsert
  simp only [h]

omit [DecidableEq Url] [Sha2Crate] in
theorem archive_upsert_error {supply : ArticleSupply} {article : NewArticle Url} {s : RecoveryState}
    {e : ArticleRepositoryError}
    (h : Werrss.upsert supply.sources supply.clock s.articles article = .error e) :
    HandlerTx.archive (ArchiveTx.upsert supply article) s = (.error (), s) := by
  unfold HandlerTx.archive ArchiveTx.upsert
  simp only [h]

omit [LawfulUrlCrate Url] [DecidableEq Url] [Sha2Crate] in
theorem resetLineage_run (setting : HandlerSetting) (article : NewArticle Url) (s : RecoveryState) :
    resetLineage setting article s =
      match AssetRepository.validateArticleIdentity article.sourceId article.reviewId with
      | .error _ => (.error (), s)
      | .ok () =>
        HandlerTx.recovery (resetBody setting (article.sourceId, trim article.reviewId))
          (freshLineage (article.sourceId, trim article.reviewId) s) := by
  unfold resetLineage HandlerTx.recovery resetArticleRefreshLineage
  cases AssetRepository.validateArticleIdentity article.sourceId article.reviewId with
  | error e => rfl
  | ok _ => rfl

omit [DecidableEq Url] [Sha2Crate] in
/-- **A reset commutes with the upsert of its article**, but for the lineage of one that is new. -/
theorem relates_reset_upsert (setting : HandlerSetting) (supply : ArticleSupply)
    {article written : NewArticle Url} (hsource : written.sourceId = article.sourceId)
    (hreview : written.reviewId = article.reviewId)
    (hlineage : ∀ key, articles key = none → recovery.lineage key = none) :
    Tx.Relates (Shared articles recovery)
      (HandlerTx.archive (ArchiveTx.upsert supply written) >>= fun result =>
        resetLineage setting article >>= fun _ => pure result.feedVisibleChange)
      (resetLineage setting article >>= fun _ =>
        HandlerTx.archive (ArchiveTx.upsert supply written) >>= fun result =>
          pure result.feedVisibleChange)
      fun _ => SamePersistence (article.sourceId, trim article.reviewId) articles := by
  rintro s s' ⟨rfl, rfl, rfl⟩
  have hreset := resetLineage_run setting article
  cases hidentity : AssetRepository.validateArticleIdentity article.sourceId article.reviewId with
  | error e =>
    simp only [hidentity] at hreset
    rw [Tx.bind_of_error (hreset s')]
    refine ⟨fun a t hrun => ?_, fun _ _ _ => ⟨s', rfl⟩⟩
    obtain ⟨result, u, -, hrest⟩ := Tx.bind_eq_ok hrun
    rw [Tx.bind_of_error (hreset u)] at hrest
    exact nomatch hrest
  | ok _ =>
    simp only [hidentity, HandlerTx.recovery] at hreset
    have hbefore := hreset s'
    generalize hkey : (article.sourceId, trim article.reviewId) = key at hreset hbefore ⊢
    cases hupsert : Werrss.upsert supply.sources supply.clock s'.articles written with
    | error e =>
      rw [Tx.bind_of_error (archive_upsert_error hupsert)]
      refine ⟨fun a t hrun => (nomatch hrun), fun _ _ _ => ?_⟩
      rcases hbody : resetBody setting key (freshLineage key s') with ⟨e | _, t⟩
      · rw [hbody] at hbefore
        exact ⟨t, Tx.bind_of_error hbefore _⟩
      · rw [hbody] at hbefore
        rw [Tx.bind_of_ok hbefore]
        rw [← articles_resetBody hbody] at hupsert
        exact ⟨t, Tx.bind_of_error (archive_upsert_error hupsert) _⟩
    | ok upserted =>
      obtain ⟨table, result⟩ := upserted
      obtain ⟨hother, hstored⟩ := upsert_frame hupsert
      rw [hsource, hreview, hkey] at hother hstored
      obtain ⟨hok, herror⟩ := relates_resetBody setting hstored hother (hlineage key)
      have hafter := hreset { s' with articles := table }
      rw [Tx.bind_of_ok (archive_upsert_ok hupsert)]
      rcases hbody : resetBody setting key (freshLineage key s') with ⟨e | _, t⟩
      · obtain ⟨t', hbody'⟩ := herror e t hbody
        rw [hbody] at hbefore
        rw [hbody'] at hafter
        rw [Tx.bind_of_error hafter, Tx.bind_of_error hbefore]
        exact ⟨fun _ _ hrun => (nomatch hrun), fun _ _ _ => ⟨t, rfl⟩⟩
      · obtain ⟨t', hbody', hsame⟩ := hok t hbody
        rw [hbody] at hbefore
        rw [hbody'] at hafter
        rw [← articles_resetBody hbody] at hupsert
        rw [Tx.bind_of_ok hafter, Tx.bind_of_ok hbefore, Tx.bind_of_ok (archive_upsert_ok hupsert)]
        refine ⟨fun changed u hrun => ?_, fun e u hrun => (nomatch hrun)⟩
        obtain ⟨rfl, rfl⟩ : result.feedVisibleChange = changed ∧ t' = u := by
          simpa [Pure.pure, Tx.pure] using hrun
        exact ⟨_, rfl, hsame⟩

omit [DecidableEq Url] [Sha2Crate] in
/-- One program leaves one state. -/
theorem relates_self {A : Type} (m : HandlerTx A) (key : ArticleKey) :
    Tx.Relates (Shared articles recovery) m m fun _ => SamePersistence key articles := by
  rintro s s' ⟨rfl, -, -⟩
  refine ⟨fun a t hrun => ⟨t, hrun, .refl key articles t⟩, fun e t hrun => ⟨t, hrun⟩⟩

omit [DecidableEq Url] [Sha2Crate] in
/-- A program over the assets leaves the articles and the recovery tables. -/
theorem relates_archive {A : Type} {m : ArchiveTx A} {Q : A → Prop}
    (h : Tx.Triple (fun s : ArchiveState => s.articles = articles) m
      (fun a s => Q a ∧ s.articles = articles) fun _ => True) :
    Tx.Relates (Shared articles recovery) (HandlerTx.archive m) (HandlerTx.archive m)
      fun a s s' => Q a ∧ Shared articles recovery s s' := by
  rintro s s' ⟨rfl, harticles, hrecovery⟩
  refine ⟨fun a t hrun => ⟨t, hrun, ?_⟩, fun e t hrun => ⟨t, hrun⟩⟩
  obtain ⟨hanswer, rfl⟩ := Prod.mk.inj hrun
  have hpair : m ⟨s'.articles, s'.assets⟩ = (.ok a, (m ⟨s'.articles, s'.assets⟩).2) :=
    Prod.ext hanswer rfl
  obtain ⟨hq, hkept⟩ := (h ⟨s'.articles, s'.assets⟩ harticles).1 a _ hpair
  exact ⟨hq, rfl, hkept, hrecovery⟩

omit [DecidableEq Url] [Sha2Crate] in
theorem triple_assets {A : Type} (m : AssetTx A) :
    Tx.Triple (fun s : ArchiveState => s.articles = articles) (ArchiveTx.assets m)
      (fun _ s => True ∧ s.articles = articles) fun _ => True := by
  intro s hs
  refine ⟨fun a t hrun => ⟨trivial, ?_⟩, fun _ _ _ => trivial⟩
  obtain ⟨-, rfl⟩ := Prod.mk.inj hrun
  exact hs

omit [DecidableEq Url] [Sha2Crate] in
theorem triple_findForUpdate (key : ArticleKey) :
    Tx.Triple (fun s : ArchiveState => s.articles = articles)
      (ArchiveTx.findForUpdate key : ArchiveTx (Option (Article Url)))
      (fun _ s => True ∧ s.articles = articles) fun _ => True := by
  intro s hs
  refine ⟨fun a t hrun => ⟨trivial, ?_⟩, fun _ _ _ => trivial⟩
  unfold ArchiveTx.findForUpdate at hrun
  split at hrun
  · obtain ⟨-, rfl⟩ := Prod.mk.inj hrun
    exact hs
  · split at hrun
    · exact nomatch hrun
    · obtain ⟨-, rfl⟩ := Prod.mk.inj hrun
      exact hs

omit [LawfulUrlCrate Url] [DecidableEq Url] [Sha2Crate] in
/-- A rejection resets no lineage. -/
theorem triple_rejected (article : NewArticle Url) (current : Option (Article Url))
    (e : AssetRepositoryError) :
    Tx.Triple (fun s : ArchiveState => s.articles = articles) (rejected article current e)
      (fun settled s => settled.2 = false ∧ s.articles = articles) fun _ => True := by
  unfold rejected
  refine .ite (fun _ => .fail fun _ _ => trivial) fun _ =>
    .ite (fun _ => .pure fun _ hs => ?_) fun _ => ?_
  · exact ⟨rfl, hs⟩
  · refine .bind (R := fun _ s => s.articles = articles) ?_ fun cleared => ?_
    · exact (triple_assets _).mono (fun _ h => h) (fun _ _ h => h.2) fun _ h => h
    · cases cleared with
      | error _ => exact .fail fun _ _ => trivial
      | ok _ => exact .pure fun _ hs => ⟨rfl, hs⟩

/-- What follows the settling of an accepted observation. -/
theorem relates_settled (setting : HandlerSetting) (context : AssetRepository.AssetWriteContext)
    (supply : ArticleSupply) (prepared : PreparedArticle Url) (current : Option (Article Url))
    (hlineage : ∀ key, articles key = none → recovery.lineage key = none) :
    Tx.Relates (Shared articles recovery)
      (HandlerTx.archive (reconcile context supply prepared current) >>= fun settled =>
        HandlerTx.archive (ArchiveTx.upsert supply settled.1) >>= fun result =>
          SourceSyncJobHandler.resetIf setting prepared.article settled.2 >>= fun _ =>
            pure result.feedVisibleChange)
      (ArticleBackfillJobHandler.settle setting context supply prepared current >>= fun settled =>
        HandlerTx.archive (ArchiveTx.upsert supply settled) >>= fun result =>
          pure result.feedVisibleChange)
      fun _ => SamePersistence (prepared.article.sourceId, trim prepared.article.reviewId)
        articles := by
  unfold reconcile ArticleBackfillJobHandler.settle
  by_cases hpreserve : shouldPreserveCachedAssetRepresentation (current.map (·.contentHtml))
      prepared.externalAssets prepared.fetchedAssets = true
  · simp only [if_pos hpreserve]
    exact relates_self _ _
  by_cases hreconcile : shouldReconcileAssets prepared.article prepared.article.observationVersion
      = true
  · simp only [if_neg hpreserve, if_pos hreconcile, HandlerTx.archive_bind, Tx.bind_assoc]
    refine .bind (relates_archive (triple_assets _)) fun stored => ?_
    cases stored with
    | error e =>
      simp only [Tx.bind_assoc]
      have hrejected : Tx.Relates (Shared articles recovery)
          (HandlerTx.archive (rejected prepared.article current e))
          (HandlerTx.archive (rejected prepared.article current e))
          fun settled s s' => settled.2 = false ∧ Shared articles recovery s s' :=
        relates_archive (triple_rejected prepared.article current e)
      refine .bind (hrejected.mono (fun _ _ h => h.2) fun _ _ _ h => h) fun settled => ?_
      -- A rejection leaves the lineage in both.
      rintro s s' ⟨hno, hshared⟩
      obtain ⟨article, reset⟩ := settled
      obtain rfl : reset = false := hno
      exact relates_self _ _ s s' hshared
    | ok stored =>
      refine Tx.Relates.mono ?_ (fun _ _ h => h.2) fun _ _ _ h => h
      obtain ⟨hsource, hreview, -⟩ := rewriteArticle_identity prepared.article stored
      cases hcomplete : completeAssetSet prepared.externalAssets prepared.fetchedAssets with
      | true =>
        simp only [HandlerTx.archive_pure_bind, Tx.bind_assoc, Tx.pure_bind]
        exact relates_reset_upsert setting supply hsource hreview hlineage
      | false => exact relates_self _ _
  · simp only [if_neg hpreserve, if_neg hreconcile]
    exact relates_self _ _

/-- **Source sync and backfill persist an article alike**: from one state of the tables both fail, or
both report the same change of the feed and leave the same articles, assets, chains and jobs, and
lineages that admit the same refreshes.  Only the lineage of an article that was not stored before
may have a row after the one and none after the other. -/
theorem sync_backfill_agree (setting : HandlerSetting) (supply : ArticleSupply)
    (prepared : PreparedArticle Url) (s : RecoveryState)
    (hlineage : ∀ key, s.articles key = none → s.recovery.lineage key = none) :
    (∀ created changed t,
      SourceSyncJobHandler.persistArticle setting supply prepared s = (.ok (created, changed), t) →
      ∃ t', ArticleBackfillJobHandler.persistArticle setting supply prepared s = (.ok changed, t') ∧
        SamePersistence (prepared.article.sourceId, prepared.article.reviewId) s.articles t t' ∧
        ∀ policy clock key, 0 < policy.maxAttempts →
          t.recovery.lineageAdmits policy clock key
            = t'.recovery.lineageAdmits policy clock key) ∧
    ∀ t, SourceSyncJobHandler.persistArticle setting supply prepared s = (.error (), t) →
      ∃ t', ArticleBackfillJobHandler.persistArticle setting supply prepared s
        = (.error (), t') := by
  have hreview := prepared.normal.review.1
  have hrelates : Tx.Relates (Shared s.articles s.recovery)
      (SourceSyncJobHandler.persistArticle setting supply prepared >>= fun report => pure report.2)
      (ArticleBackfillJobHandler.persistArticle setting supply prepared)
      fun _ => SamePersistence (prepared.article.sourceId, prepared.article.reviewId)
        s.articles := by
    unfold SourceSyncJobHandler.persistArticle ArticleBackfillJobHandler.persistArticle
    cases setting.archiver with
    | none =>
      simp only [Tx.bind_assoc, Tx.pure_bind]
      exact relates_self _ _
    | some context =>
      simp only [Tx.bind_assoc]
      refine .bind (relates_archive (triple_findForUpdate _)) fun current => ?_
      refine Tx.Relates.mono ?_ (fun _ _ h => h.2) fun _ _ _ h => h
      by_cases hstale : (current.any fun current =>
          decide (prepared.article.observationVersion < current.observationVersion)) = true
      · simp only [if_pos hstale]
        exact relates_self _ _
      · simp only [if_neg hstale, Tx.bind_assoc]
        have hsettled := relates_settled setting context supply prepared current hlineage
        rw [hreview] at hsettled
        exact hsettled
  obtain ⟨hok, herror⟩ := hrelates s s ⟨rfl, rfl, rfl⟩
  refine ⟨fun created changed t hrun => ?_, fun t hrun => ?_⟩
  · obtain ⟨t', hrun', hsame⟩ := hok changed t (Tx.bind_of_ok hrun _)
    exact ⟨t', hrun', hsame, fun policy clock key hattempts =>
      hsame.lineageAdmits hattempts clock key⟩
  · exact herror () t (Tx.bind_of_error hrun _)

end Handlers

section Samples

open AssetRepository

attribute [local instance] plainDigest

/-- A page without images. -/
def wordsTree : DomTree := .node (.element "p" []) [.node (.text "words") []]

/-- Both handlers with the cache enabled, at the same moment. -/
def sampleSetting : HandlerSetting :=
  ⟨some ⟨smallCache, some ⟨[], []⟩, 0⟩, ⟨3, 100⟩, 5, fun n => ⟨⟨2 * n⟩, ⟨2 * n + 1⟩⟩⟩

/-- No article is stored, and no lineage. -/
def RecoveryState.empty : RecoveryState :=
  ⟨fun _ => none, ⟨.empty, {}⟩, ⟨fun _ => none, fun _ => none, [], [], []⟩⟩

/-- The first observation of an article. -/
def firstObservation : PreparedArticle PlainUrl :=
  preparedPage wordsTree 1 Nat.one_ne_zero [] ordered_nil

/-- **The sync leaves a lineage of a new article, and the backfill none.** -/
theorem new_article_lineage_differs :
    (SourceSyncJobHandler.persistArticle sampleSetting (pageSupply 10 20) firstObservation
      .empty).1 = .ok (true, true) ∧
    (ArticleBackfillJobHandler.persistArticle sampleSetting (pageSupply 10 20) firstObservation
      .empty).1 = .ok true ∧
    (SourceSyncJobHandler.persistArticle sampleSetting (pageSupply 10 20) firstObservation
      .empty).2.recovery.lineage (⟨7⟩, "review") = some freshRow ∧
    (ArticleBackfillJobHandler.persistArticle sampleSetting (pageSupply 10 20) firstObservation
      .empty).2.recovery.lineage (⟨7⟩, "review") = none := by
  decide +kernel

theorem sync_backfill_agree_new :
    ∃ t', ArticleBackfillJobHandler.persistArticle sampleSetting (pageSupply 10 20)
        firstObservation .empty = (.ok true, t') ∧
      SamePersistence (⟨7⟩, "review") RecoveryState.empty.articles
        (SourceSyncJobHandler.persistArticle sampleSetting (pageSupply 10 20) firstObservation
          .empty).2 t' := by
  have hok : (SourceSyncJobHandler.persistArticle sampleSetting (pageSupply 10 20)
      firstObservation .empty).1 = .ok (true, true) := by decide +kernel
  obtain ⟨t', hrun, hsame, -⟩ := (sync_backfill_agree sampleSetting (pageSupply 10 20)
    firstObservation .empty fun _ _ => rfl).1 true true _ (Prod.ext hok rfl)
  exact ⟨t', hrun, hsame⟩

end Samples

end Werrss
