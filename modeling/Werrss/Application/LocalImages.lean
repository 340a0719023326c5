import Werrss.Application.ArticlePersistence
import Werrss.Archive.ImageTags
import Werrss.Persistence.AssetCap
import Werrss.Persistence.AssetLinks

/-!
# Application/LocalImages — every local image of a stored article is linked

    <img … src="/assets/{id}" />  in content_html   ⟹   article_assets (article, id)

Sync and backfill settle the links and the HTML together.  A refresh replaces the links first and
leaves the HTML to the upsert, which keeps the old HTML when the new one is empty: **an empty page
takes the links of the images that are still shown**.
-/

open Machinery

namespace Werrss

open AssetRepository

/-- A source on the public asset route. -/
def localSource (id : Html) : Html := "/assets/".toList ++ id

/-- **The images a text shows on the asset route are linked to the article.** -/
def BackedHtml (html : String) (links : List ArticleAssetRow) (key : ArticleKey) : Prop :=
  ∀ id, Shows html.toList (localSource id) →
    ∃ recordId : Uuid, recordId.toText.toList = id ∧ Linked links key recordId

/-- **The local images of every stored article are linked to it.** -/
def Backed (articles : ArticleTable) (links : List ArticleAssetRow) : Prop :=
  ∀ key row, articles key = some row → BackedHtml row.contentHtml links key

/-- Links of the article that are there stay there. -/
def KeepsLinks (links links' : List ArticleAssetRow) (key : ArticleKey) : Prop :=
  ∀ row ∈ links, row.sourceId = key.1 → row.reviewId = key.2 → row ∈ links'

theorem BackedHtml.mono {html : String} {links links' : List ArticleAssetRow} {key : ArticleKey}
    (h : BackedHtml html links key) (hkeep : KeepsLinks links links' key) :
    BackedHtml html links' key := by
  intro id hshows
  obtain ⟨recordId, hid, row, hrow, hsource, hreview, hrecord⟩ := h id hshows
  exact ⟨recordId, hid, row, hkeep row hrow hsource hreview, hsource, hreview, hrecord⟩

theorem backedHtml_empty (links : List ArticleAssetRow) (key : ArticleKey) :
    BackedHtml "" links key :=
  fun _ hshows => absurd hshows (not_shows_nil _)

/-! ## What an upsert stores -/

/-- The HTML of a key, empty where there is no row. -/
def storedHtml (articles : ArticleTable) (key : ArticleKey) : String :=
  ((articles key).map (·.contentHtml)).getD ""

theorem Backed.stored {articles : ArticleTable} {links : List ArticleAssetRow}
    (h : Backed articles links) (key : ArticleKey) :
    BackedHtml (storedHtml articles key) links key := by
  unfold storedHtml
  cases hrow : articles key with
  | none => exact backedHtml_empty links key
  | some row => exact h key row hrow

section Upsert

variable {Url : Type} [UrlCrate Url] [LawfulUrlCrate Url]

/-- Decoding leaves the HTML alone. -/
theorem contentHtml_of_decode {key : ArticleKey} {row : ArticleRow} {a : Article Url}
    (h : decodeArticle key row = .ok a) : a.contentHtml = row.contentHtml := by
  unfold decodeArticle at h
  simp only at h
  split at h
  · cases h
  · split at h
    · cases h
    · simp only [Article.fromParts] at h
      split at h
      · cases h
      · rename_i hparts
        split at hparts
        · cases hparts
        · rename_i n hn
          obtain rfl := Except.ok.inj hparts
          obtain rfl := Except.ok.inj h
          exact contentHtml_of_normalize hn

/-- An update of one row. -/
theorem updateRow_html {table table' : ArticleTable} {key : ArticleKey} {row row' : ArticleRow}
    {set : ArticleRow → ArticleRow} (hrow : table key = some row)
    (h : updateRow table key set = .ok (table', row')) :
    (∀ key', key' ≠ key → table' key' = table key') ∧
      storedHtml table' key = (set row).contentHtml := by
  unfold updateRow at h
  simp only [hrow] at h
  obtain ⟨rfl, rfl⟩ := Prod.mk.inj (Except.ok.inj h)
  refine ⟨fun key' hne => Function.update_of_ne hne .., ?_⟩
  simp [storedHtml]

omit [LawfulUrlCrate Url] in
/-- Normalizing keeps identity and version. -/
theorem identity_of_normalize {a n : NewArticle Url} (h : a.normalize = .ok n) :
    n.sourceId = a.sourceId ∧ n.reviewId = trim a.reviewId ∧
      n.observationVersion = a.observationVersion := by
  unfold NewArticle.normalize at h
  split_ifs at h
  obtain rfl := Except.ok.inj h
  exact ⟨rfl, rfl, rfl⟩

/-- **What an upsert that is not stale stores**: the HTML it is given, the old one if that is
empty. -/
theorem upsert_html {sources : Uuid → Bool} {clock : StatementClock} {table table' : ArticleTable}
    {o article : NewArticle Url} {result : ArticleUpsertResult Url}
    (hnormalize : o.normalize = .ok article)
    (hfresh : ∀ row, ∀ current : Article Url,
      table (article.sourceId, article.reviewId) = some row →
      decodeArticle (article.sourceId, article.reviewId) row = .ok current →
      ¬ article.observationVersion < current.observationVersion)
    (h : upsert sources clock table o = .ok (table', result)) :
    (∀ key, key ≠ (article.sourceId, article.reviewId) → table' key = table key) ∧
    storedHtml table' (article.sourceId, article.reviewId) =
      if article.contentHtml = "" then storedHtml table (article.sourceId, article.reviewId)
      else article.contentHtml := by
  have hn := NewArticle.normal_of_normalize hnormalize
  unfold upsert at h
  rw [hnormalize] at h
  simp only at h
  split at h
  · cases h
  rename_i version hversion
  split at h
  · rename_i row hrow
    split at h
    · cases h
    · rename_i current hdecode
      have hle := hfresh row current hrow hdecode
      simp only [if_neg hle] at h
      obtain ⟨-, hsource, hreview, -, -⟩ := decodeArticle_inv hdecode
      have hkey : ((current.mergeObservation article).sourceId,
          (current.mergeObservation article).reviewId) = (article.sourceId, article.reviewId) :=
        Prod.ext hsource (hreview.trans hn.review.1)
      have hhtml : (current.mergeObservation article).contentHtml =
          if article.contentHtml = "" then storedHtml table (article.sourceId, article.reviewId)
          else article.contentHtml := by
        rw [storedHtml, hrow, Option.map_some, Option.getD_some, ← contentHtml_of_decode hdecode]
        rfl
      split at h
      · cases h
      · rename_i written row' hwrite
        split at h
        · cases h
        · obtain ⟨rfl, -⟩ := Prod.mk.inj (Except.ok.inj h)
          split_ifs at hwrite with hchanged
          · unfold updateChangedArticle at hwrite
            split at hwrite
            · cases hwrite
            · rw [hkey] at hwrite
              obtain ⟨hframe, hstored⟩ := updateRow_html hrow hwrite
              exact ⟨hframe, hstored.trans hhtml⟩
          · unfold updateObservation at hwrite
            split at hwrite
            · cases hwrite
            · rw [hkey] at hwrite
              obtain ⟨hframe, hstored⟩ := updateRow_html hrow hwrite
              refine ⟨hframe, hstored.trans ?_⟩
              -- Nothing visible changed, the HTML neither.
              have hsame : current.contentHtml = (current.mergeObservation article).contentHtml := by
                simp only [feedVisibleChange, Bool.or_eq_true, decide_eq_true_eq, not_or,
                  not_not] at hchanged
                exact hchanged.1.2
              rw [← hhtml, ← hsame, contentHtml_of_decode hdecode]
  · rename_i hrow
    split_ifs at h with hs
    split at h
    · cases h
    · obtain ⟨rfl, -⟩ := Prod.mk.inj (Except.ok.inj h)
      refine ⟨fun key' hne => Function.update_of_ne hne .., ?_⟩
      simp only [storedHtml, Function.update_self, hrow, Option.map_some, Option.map_none,
        Option.getD_some, Option.getD_none]
      split_ifs with hempty
      · exact hempty
      · rfl

end Upsert

/-! ## Rewritten articles -/

/-- Rewriting keeps everything but the representation. -/
theorem rewriteArticle_identity {Url : Type} [UrlCrate Url] [Sha2Crate] (article : NewArticle Url)
    (stored : List (StoredAsset Url)) :
    (rewriteArticle article stored).sourceId = article.sourceId ∧
    (rewriteArticle article stored).reviewId = article.reviewId ∧
    (rewriteArticle article stored).observationVersion = article.observationVersion ∧
    (rewriteArticle article stored).contentHtml.toList
      = rewriteSanitizedHtml article.contentHtml.toList
          (stored.map fun asset => (asset.sourceUrl, assetRoute asset.id)) := by
  unfold rewriteArticle
  simp only
  split_ifs with h
  · exact ⟨rfl, rfl, rfl, h.symm⟩
  · exact ⟨rfl, rfl, rfl, String.toList_ofList⟩

/-- The route of an asset is written as it is. -/
theorem escape_assetRoute (id : Uuid) :
    escapeAttribute (assetRoute id) = localSource id.toText.toList ∧
      ' ' ∉ escapeAttribute (assetRoute id) := by
  have htext : (assetRoute id).toList = localSource id.toText.toList := String.toList_append
  have hplain : ∀ c ∈ (assetRoute id).toList, c ∈ "/assets/-0123456789abcdef".toList := by
    intro c hc
    rw [htext] at hc
    have happend : "/assets/-0123456789abcdef".toList
      = "/assets/".toList ++ "-0123456789abcdef".toList := by decide
    rw [happend]
    rcases List.mem_append.mp hc with hc | hc
    · exact List.mem_append_left _ hc
    · exact List.mem_append_right _ (Uuid.mem_toText hc)
  have hescape : escapeAttribute (assetRoute id) = (assetRoute id).toList := by
    refine escapeAttribute_of_plain fun c hc => ?_
    have hall : ∀ c ∈ "/assets/-0123456789abcdef".toList, c ∉ ['&', '<', '>', '"', '\''] :=
      forall_mem_of_all (by decide)
    exact hall c (hplain c hc)
  refine ⟨hescape.trans htext, ?_⟩
  rw [hescape]
  intro hspace
  exact absurd (hplain ' ' hspace) (by decide)

/-! ## Settling the links of an observation -/

section Handlers

variable {Url : Type} [UrlCrate Url] [LawfulUrlCrate Url] [DecidableEq Url] [Sha2Crate]

/-- The links of a transaction. -/
def ArchiveState.links (s : ArchiveState) : List ArticleAssetRow := s.assets.links

/-- The transaction's articles are backed. -/
def ArchiveState.IsBacked (s : ArchiveState) : Prop := Backed s.articles s.links

/-- **What is settled before the upsert**: the HTML it will leave at the key is backed, and no other
article lost a link. -/
structure Settled (key : ArticleKey) (version : ℕ) (old : String) (article : NewArticle Url)
    (s t : ArchiveState) : Prop where
  source_eq : article.sourceId = key.1
  review_eq : article.reviewId = key.2
  version_eq : article.observationVersion = version
  articles_eq : t.articles = s.articles
  others : ∀ other, other ≠ key → KeepsLinks s.links t.links other
  backed : BackedHtml (if article.contentHtml = "" then old else article.contentHtml) t.links key

omit [DecidableEq Url] [Sha2Crate] in
/-- **A settled observation is upserted.** -/
theorem Settled.upsert {key : ArticleKey} {version : ℕ} {article : NewArticle Url}
    {s t u : ArchiveState} {supply : ArticleSupply} {result : ArticleUpsertResult Url}
    (h : Settled key version (storedHtml s.articles key) article s t) (hs : s.IsBacked)
    (htrim : trim key.2 = key.2)
    (hfresh : ∀ row, ∀ current : Article Url, s.articles key = some row →
      decodeArticle key row = .ok current → ¬ version < current.observationVersion)
    (hrun : ArchiveTx.upsert supply article t = (.ok result, u)) : u.IsBacked := by
  unfold ArchiveTx.upsert at hrun
  split at hrun
  · cases hrun
  rename_i articles result' hup
  obtain rfl : { t with articles := articles } = u := (Prod.mk.inj hrun).2
  rw [h.articles_eq] at hup
  obtain ⟨n, hn⟩ : ∃ n, article.normalize = .ok n := by
    cases hnormalize : article.normalize with
    | error e => simp [Werrss.upsert, hnormalize] at hup
    | ok n => exact ⟨n, rfl⟩
  obtain ⟨hsource, hreview, hversion⟩ := identity_of_normalize hn
  have hkey : (n.sourceId, n.reviewId) = key := by
    refine Prod.ext (hsource.trans h.source_eq) ?_
    rw [hreview, h.review_eq, htrim]
  obtain ⟨hframe, hhtml⟩ := upsert_html hn (by
    rw [hkey, hversion, h.version_eq]
    exact hfresh) hup
  rw [hkey] at hframe hhtml
  rw [contentHtml_of_normalize hn] at hhtml
  intro key' row hrow
  by_cases hkey' : key' = key
  · subst hkey'
    have hrow' : articles key' = some row := hrow
    have hstored : storedHtml articles key' = row.contentHtml := by
      simp only [storedHtml, hrow', Option.map_some, Option.getD_some]
    rw [← hstored, hhtml]
    exact h.backed
  · have hold : s.articles key' = some row := (hframe key' hkey').symm.trans hrow
    exact (hs key' row hold).mono (h.others key' hkey')

/-- **The rewritten article shows the assets it was given**, all of them linked. -/
theorem backed_rewriteArticle {prepared : PreparedArticle Url} {stored : List (StoredAsset Url)}
    {links : List ArticleAssetRow} {key : ArticleKey}
    (hlinked : ∀ asset ∈ stored, Linked links key asset.id) :
    BackedHtml (rewriteArticle prepared.article stored).contentHtml links key := by
  intro id hshows
  obtain ⟨document, hdocument⟩ := prepared.sanitized
  rw [(rewriteArticle_identity prepared.article stored).2.2.2, hdocument] at hshows
  have htarget : ∀ entry ∈ stored.map (fun asset => (asset.sourceUrl, assetRoute asset.id)),
      ' ' ∉ escapeAttribute entry.2 := by
    intro entry hentry
    obtain ⟨asset, -, rfl⟩ := List.mem_map.mp hentry
    exact (escape_assetRoute asset.id).2
  obtain ⟨entry, hentry, hroute⟩ := Shows.target_of_rewrite htarget hshows
  obtain ⟨asset, hasset, rfl⟩ := List.mem_map.mp hentry
  have hid : localSource asset.id.toText.toList = localSource id :=
    (escape_assetRoute asset.id).1.symm.trans hroute
  exact ⟨asset.id, List.append_cancel_left hid, hlinked asset hasset⟩

omit [LawfulUrlCrate Url] [DecidableEq Url] [Sha2Crate] in
/-- Nothing is settled where the old representation stays. -/
theorem Settled.of_old {key : ArticleKey} {version : ℕ} {old : String} {article : NewArticle Url}
    {s t : ArchiveState} (hsource : article.sourceId = key.1) (hreview : article.reviewId = key.2)
    (hversion : article.observationVersion = version) (harticles : t.articles = s.articles)
    (hlinks : t.links = s.links) (hhtml : article.contentHtml = "" ∨ article.contentHtml = old)
    (hold : BackedHtml old s.links key) : Settled key version old article s t where
  source_eq := hsource
  review_eq := hreview
  version_eq := hversion
  articles_eq := harticles
  others := fun _ _ row hrow _ _ => by rwa [hlinks]
  backed := by
    rw [hlinks]
    rcases hhtml with hempty | rfl
    · rwa [if_pos hempty]
    · rwa [ite_self]

omit [Sha2Crate] in
/-- A sanitized text shows no local image. -/
theorem backed_sanitized (prepared : PreparedArticle Url) (links : List ArticleAssetRow)
    (key : ArticleKey) : BackedHtml prepared.article.contentHtml links key := by
  intro id hshows
  obtain ⟨document, hdocument⟩ := prepared.sanitized
  rw [hdocument] at hshows
  obtain ⟨url, hurl⟩ := hshows.url_of_sanitize
  exact absurd hurl.symm (escapeAttribute_ne_slash url _)

omit [UrlCrate Url] [LawfulUrlCrate Url] [DecidableEq Url] [Sha2Crate] in
/-- The inputs keep their order. -/
theorem pairwise_suppliedInputs (supply : ArticleSupply) {inputs : List (AssetInput Url)}
    (h : inputs.Pairwise fun a b => a.occurrence < b.occurrence) :
    (suppliedInputs supply inputs).Pairwise fun a b => a.1.occurrence < b.1.occurrence := by
  have hfst : inputs = inputs.zipIdx.map Prod.fst := (List.zipIdx_map_fst 0 inputs).symm
  rw [hfst, List.pairwise_map] at h
  exact List.pairwise_map.mpr h

omit [LawfulUrlCrate Url] [DecidableEq Url] in
/-- What is left of a text is not empty unless the text is. -/
theorem rewriteArticle_nonempty {article : NewArticle Url} {stored : List (StoredAsset Url)}
    (h : article.contentHtml ≠ "") : (rewriteArticle article stored).contentHtml ≠ "" := by
  intro hempty
  have hlist := (rewriteArticle_identity article stored).2.2.2
  rw [hempty] at hlist
  have hnil : article.contentHtml.toList = [] := by
    unfold rewriteSanitizedHtml at hlist
    split_ifs at hlist with hguard
    · exact hlist.symm
    · have hedited : Markup.Edited srcMark '"' _ article.contentHtml.toList
          (rewriteSrcAttributes article.contentHtml.toList (replacementFor (stored.map fun asset =>
            (asset.sourceUrl, assetRoute asset.id)))) := Markup.Edited.rewrite _
      rw [← hlist] at hedited
      exact hedited.eq_nil
  exact h (String.toList_inj.mp hnil)

/-- **Replacing the links of an observation with content settles it.** -/
theorem Settled.of_replace {context : AssetWriteContext} {supply : ArticleSupply}
    {prepared : PreparedArticle Url} {old : String} {s t : ArchiveState}
    {stored : List (StoredAsset Url)}
    (hcontent : prepared.article.contentHtml ≠ "" ∨
      BackedHtml old t.links (prepared.article.sourceId, prepared.article.reviewId))
    (hrun : ArchiveTx.assets (replaceForArticle context prepared.article.sourceId
      prepared.article.reviewId (suppliedInputs supply prepared.fetchedAssets)) s
      = (.ok (.ok stored), t)) :
    Settled (prepared.article.sourceId, prepared.article.reviewId)
      prepared.article.observationVersion old (rewriteArticle prepared.article stored) s t := by
  obtain ⟨hanswer, rfl⟩ := Prod.mk.inj hrun
  have hreplace : replaceForArticle context prepared.article.sourceId prepared.article.reviewId
      (suppliedInputs supply prepared.fetchedAssets) s.assets = (.ok stored, _) :=
    Prod.ext (Except.ok.inj hanswer) rfl
  obtain ⟨hlinked, hothers⟩ :=
    replaceForArticle_links (pairwise_suppliedInputs supply prepared.ordered) hreplace
  rw [prepared.normal.review.1] at hlinked hothers
  obtain ⟨hsource, hreview, hversion, -⟩ := rewriteArticle_identity prepared.article stored
  refine ⟨hsource, hreview, hversion, rfl, fun other hne row hrow hs hr => ?_, ?_⟩
  · refine hothers row hrow fun hsame => hne (Prod.ext ?_ ?_)
    · exact hs.symm.trans hsame.1
    · exact hr.symm.trans hsame.2
  · split_ifs with hempty
    · exact hcontent.resolve_left fun hne => rewriteArticle_nonempty hne hempty
    · exact backed_rewriteArticle hlinked

omit [LawfulUrlCrate Url] [DecidableEq Url] [Sha2Crate] in
/-- The old representation is what the row holds. -/
theorem keepRepresentation_html {article : NewArticle Url} {current : Option (Article Url)}
    {old : String} (hold : (current.map (·.contentHtml)).getD "" = old)
    (hsome : current.isSome = true) : (keepRepresentation article current).contentHtml = old := by
  obtain ⟨a, rfl⟩ := Option.isSome_iff_exists.mp hsome
  exact hold

omit [LawfulUrlCrate Url] [DecidableEq Url] [Sha2Crate] in
theorem keepRepresentation_identity (article : NewArticle Url) (current : Option (Article Url)) :
    (keepRepresentation article current).sourceId = article.sourceId ∧
    (keepRepresentation article current).reviewId = article.reviewId ∧
    (keepRepresentation article current).observationVersion = article.observationVersion := by
  cases current with
  | none => exact ⟨rfl, rfl, rfl⟩
  | some a => exact ⟨rfl, rfl, rfl⟩

omit [Sha2Crate] in
/-- **A rejected replacement** keeps what is published, or leaves no local image. -/
theorem rejected_settled {prepared : PreparedArticle Url} {current : Option (Article Url)}
    {e : AssetRepositoryError} {old : String} {s t : ArchiveState} {settled : NewArticle Url × Bool}
    (hcurrent : (current.map (·.contentHtml)).getD "" = old)
    (hcontent : prepared.article.contentHtml ≠ "")
    (hold : BackedHtml old s.links (prepared.article.sourceId, prepared.article.reviewId))
    (hrun : rejected prepared.article current e s = (.ok settled, t)) :
    Settled (prepared.article.sourceId, prepared.article.reviewId)
      prepared.article.observationVersion old settled.1 s t := by
  obtain ⟨hsource, hreview, hversion⟩ := keepRepresentation_identity prepared.article current
  unfold rejected at hrun
  split_ifs at hrun with hrejection hcached
  · cases hrun
  · obtain ⟨rfl, rfl⟩ : (keepRepresentation prepared.article current, false) = settled ∧ s = t := by
      simpa [pure, Tx.pure] using hrun
    have hsome : current.isSome = true := by
      cases current with
      | none => cases hcached
      | some a => rfl
    exact .of_old hsource hreview hversion rfl rfl
      (.inr (keepRepresentation_html hcurrent hsome)) hold
  · obtain ⟨cleared, u, hclear, hrun⟩ := Tx.bind_eq_ok hrun
    obtain ⟨hanswer, rfl⟩ := Prod.mk.inj hclear
    cases cleared with
    | error e' => cases hrun
    | ok _ =>
      obtain ⟨rfl, rfl⟩ : (prepared.article, false) = settled ∧ _ = t := by
        simpa [pure, Tx.pure] using hrun
      have hidentity : validateArticleIdentity prepared.article.sourceId prepared.article.reviewId
          = .ok () := by
        cases hvalid : validateArticleIdentity prepared.article.sourceId
            prepared.article.reviewId with
        | error e' => simp [clearForArticle, hvalid, Tx.fail] at hanswer
        | ok _ => rfl
      refine ⟨rfl, rfl, rfl, rfl, fun other hne row hrow hs hr => ?_, ?_⟩
      · simp only [clearForArticle, hidentity, Tx.ofExcept_ok_bind]
        refine List.mem_filter.mpr ⟨hrow, decide_eq_true fun hsame => hne (Prod.ext ?_ ?_)⟩
        · exact hs.symm.trans hsame.1
        · exact hr.symm.trans (hsame.2.trans prepared.normal.review.1)
      · rw [if_neg hcontent]
        exact backed_sanitized prepared _ _

/-- **Every branch of an accepted observation settles it.** -/
theorem reconcile_settled {context : AssetWriteContext} {supply : ArticleSupply}
    {prepared : PreparedArticle Url} {current : Option (Article Url)} {old : String}
    {s t : ArchiveState} {settled : NewArticle Url × Bool}
    (hcurrent : (current.map (·.contentHtml)).getD "" = old)
    (hold : BackedHtml old s.links (prepared.article.sourceId, prepared.article.reviewId))
    (hrun : reconcile context supply prepared current s = (.ok settled, t)) :
    Settled (prepared.article.sourceId, prepared.article.reviewId)
      prepared.article.observationVersion old settled.1 s t := by
  obtain ⟨hsource, hreview, hversion⟩ := keepRepresentation_identity prepared.article current
  unfold reconcile at hrun
  split_ifs at hrun with hpreserve hreconcile
  · -- An incomplete observation keeps the old HTML and its links.
    obtain ⟨rfl, rfl⟩ : (keepRepresentation prepared.article current, false) = settled ∧ s = t := by
      simpa [pure, Tx.pure] using hrun
    have hsome : current.isSome = true := by
      cases current with
      | none => simp [shouldPreserveCachedAssetRepresentation] at hpreserve
      | some a => rfl
    exact .of_old hsource hreview hversion rfl rfl
      (.inr (keepRepresentation_html hcurrent hsome)) hold
  · obtain ⟨stored, u, hassets, hrun⟩ := Tx.bind_eq_ok hrun
    have hcontent : prepared.article.contentHtml ≠ "" := by
      simp only [shouldReconcileAssets, Bool.and_eq_true, decide_eq_true_eq] at hreconcile
      exact hreconcile.1
    cases stored with
    | ok stored =>
      obtain ⟨rfl, rfl⟩ : (rewriteArticle prepared.article stored,
          completeAssetSet prepared.externalAssets prepared.fetchedAssets) = settled ∧ u = t := by
        simpa [pure, Tx.pure] using hrun
      exact .of_replace (.inl hcontent) hassets
    | error e =>
      obtain ⟨hanswer, rfl⟩ := Prod.mk.inj hassets
      have hlinks := replaceForArticle_error (Prod.ext (Except.ok.inj hanswer) rfl)
      have hsettled := rejected_settled (s := { s with assets := _ }) hcurrent hcontent
        (hold.mono fun row hrow _ _ => by
          rw [ArchiveState.links, hlinks]
          exact hrow) hrun
      refine ⟨hsettled.source_eq, hsettled.review_eq, hsettled.version_eq, hsettled.articles_eq,
        fun other hne row hrow => hsettled.others other hne row ?_, hsettled.backed⟩
      rw [ArchiveState.links, hlinks]
      exact hrow
  · -- An empty observation leaves both alone.
    obtain ⟨rfl, rfl⟩ : (prepared.article, false) = settled ∧ s = t := by
      simpa [pure, Tx.pure] using hrun
    have hempty : prepared.article.contentHtml = "" := by
      simpa [shouldReconcileAssets] using hreconcile
    exact .of_old rfl rfl rfl rfl rfl (.inl hempty) hold

/-! ## One article -/

omit [DecidableEq Url] [Sha2Crate] in
/-- What the locked row holds. -/
theorem findForUpdate_inv {key : ArticleKey} {s t : ArchiveState} {current : Option (Article Url)}
    (h : ArchiveTx.findForUpdate key s = (.ok current, t)) :
    t = s ∧ (current.map (·.contentHtml)).getD "" = storedHtml s.articles key ∧
      ∀ article : Article Url, current = some article ↔
        ∃ row, s.articles key = some row ∧ decodeArticle key row = .ok article := by
  unfold ArchiveTx.findForUpdate at h
  split at h
  · rename_i hnone
    obtain ⟨hcurrent, rfl⟩ := Prod.mk.inj h
    obtain rfl := Except.ok.inj hcurrent
    refine ⟨rfl, ?_, fun article => ?_⟩
    · rw [storedHtml, hnone]
      rfl
    · simp [hnone]
  · rename_i row hrow
    split at h
    · cases h
    · rename_i article hdecode
      obtain ⟨hcurrent, rfl⟩ := Prod.mk.inj h
      obtain rfl := Except.ok.inj hcurrent
      refine ⟨rfl, ?_, fun article' => ?_⟩
      · rw [storedHtml, hrow]
        exact contentHtml_of_decode hdecode
      · simp [hrow, hdecode]

/-- **A round of sync or backfill keeps the images linked.** -/
theorem persistArticle_backed {context : AssetWriteContext} {supply : ArticleSupply}
    {prepared : PreparedArticle Url} {s t : ArchiveState} {result : Bool × Bool}
    (hs : s.IsBacked) (hrun : persistArticle context supply prepared s = (.ok result, t)) :
    t.IsBacked := by
  obtain ⟨current, u, hfind, hbody⟩ := Tx.bind_eq_ok hrun
  obtain ⟨rfl, hcurrent, hrow⟩ := findForUpdate_inv hfind
  clear hrun
  rename' hbody => hrun
  split_ifs at hrun with hstale
  · obtain rfl : u = t := (Prod.mk.inj hrun).2
    exact hs
  obtain ⟨settled, v, hreconcile, hrun⟩ := Tx.bind_eq_ok hrun
  obtain ⟨upserted, w, hupsert, hrun⟩ := Tx.bind_eq_ok hrun
  have hsettled := reconcile_settled hcurrent (hs.stored _) hreconcile
  have hbacked : w.IsBacked := by
    refine hsettled.upsert hs prepared.normal.review.1 (fun row article hkey hdecode => ?_) hupsert
    rw [(hrow article).mpr ⟨row, hkey, hdecode⟩] at hstale
    simpa using hstale
  split_ifs at hrun with hreset
  · cases hrun
  · obtain rfl : w = t := (Prod.mk.inj hrun).2
    exact hbacked

/-- The loop over the articles of a sync. -/
theorem persistEach_backed {context : AssetWriteContext}
    (prepared : List (PreparedArticle Url × ArticleSupply)) {s t : ArchiveState} {changed : Bool}
    (hs : s.IsBacked) (hrun : persistEach context prepared s = (.ok changed, t)) :
    t.IsBacked := by
  induction prepared generalizing s changed with
  | nil =>
    obtain rfl : s = t := (Prod.mk.inj hrun).2
    exact hs
  | cons entry rest ih =>
    obtain ⟨result, u, hone, hrun⟩ := Tx.bind_eq_ok hrun
    obtain ⟨changed', v, hrest, hrun⟩ := Tx.bind_eq_ok hrun
    obtain rfl : v = t := (Prod.mk.inj hrun).2
    exact ih (persistArticle_backed hs hone) hrest

/-! ## Refreshes -/

/-- **A refresh that commits an empty observation** meets an article without local images. -/
def ArticleRefreshWork.EmptyOnPlain (work : ArticleRefreshWork Url) (articles : ArticleTable) :
    Prop :=
  ∀ prepared ∈ work.prepared, prepared.article.contentHtml = "" → work.finishes = true →
    work.requestedOutcome = .succeeded → ∀ row, articles work.target = some row →
      row.observationVersion < work.reservedVersion →
        ∀ id, ¬ Shows row.contentHtml.toList (localSource id)

omit [LawfulUrlCrate Url] [Sha2Crate] in
/-- A refresh that goes on is newer than the row. -/
theorem outcome_succeeded {work : ArticleRefreshWork Url}
    {current : Option (Article Url)} (h : work.outcome current = .succeeded) :
    work.requestedOutcome = .succeeded ∧
      ∃ article, current = some article ∧ article.observationVersion < work.reservedVersion := by
  unfold ArticleRefreshWork.outcome at h
  split at h
  · cases h
  · rename_i article
    split_ifs at h with hsource hversion
    exact ⟨h, article, rfl, Nat.lt_of_not_le hversion⟩

/-- **The refresh of an older row keeps the images linked** when its observation has content or the
row shows no local image. -/
theorem applyRefresh_backed {context : AssetWriteContext} {work : ArticleRefreshWork Url}
    {prepared : PreparedArticle Url} {s t : ArchiveState} {outcome : ArticleRefreshOutcome}
    (hs : s.IsBacked) (hprepared : work.prepared = some prepared)
    (hrequested : work.requestedOutcome = .succeeded)
    (hcontent : prepared.article.contentHtml ≠ "" ∨
      ∀ id, ¬ Shows (storedHtml s.articles work.target).toList (localSource id))
    (hfresh : ∀ row, ∀ current : Article Url, s.articles work.target = some row →
      decodeArticle work.target row = .ok current →
        ¬ work.reservedVersion < current.observationVersion)
    (hrun : applyRefresh context work prepared s = (.ok outcome, t)) : t.IsBacked := by
  have htarget := work.prepared_target prepared hprepared
  have hreserved := work.prepared_version prepared hprepared
  have hinputs : work.inputs = prepared.fetchedAssets := by
    simp [ArticleRefreshWork.inputs, hrequested, hprepared]
  obtain ⟨stored, u, hassets, hbody⟩ := Tx.bind_eq_ok hrun
  rw [hinputs, ← htarget] at hassets
  rw [← htarget] at hcontent hfresh
  rw [← hreserved] at hfresh
  cases stored with
  | error e =>
    obtain ⟨hanswer, rfl⟩ := Prod.mk.inj hassets
    have hlinks := replaceForArticle_error (Prod.ext (Except.ok.inj hanswer) rfl)
    simp only at hbody
    split_ifs at hbody
    · obtain rfl := (Prod.mk.inj hbody).2
      intro key row hrow
      refine (hs key row hrow).mono fun link hlink _ _ => ?_
      rw [ArchiveState.links, hlinks]
      exact hlink
    · cases hbody
  | ok stored =>
    obtain ⟨result, v, hupsert, hbody⟩ := Tx.bind_eq_ok hbody
    obtain rfl : v = t := (Prod.mk.inj hbody).2
    have hsettled := Settled.of_replace (hcontent.imp_right fun hplain id hshows =>
      absurd hshows (hplain id)) hassets
    exact hsettled.upsert hs prepared.normal.review.1 hfresh hupsert

/-- **A refresh keeps the images linked** unless it empties the observation of an article that shows
some. -/
theorem refreshArticle_backed {context : AssetWriteContext} {work : ArticleRefreshWork Url}
    {s t : ArchiveState} {outcome : ArticleRefreshOutcome} (hs : s.IsBacked)
    (hplain : work.EmptyOnPlain s.articles) (hfinishes : work.finishes = true)
    (hrun : refreshArticle context work s = (.ok outcome, t)) : t.IsBacked := by
  obtain ⟨current, u, hfind, hbody⟩ := Tx.bind_eq_ok hrun
  obtain ⟨rfl, -, hrow⟩ := findForUpdate_inv hfind
  by_cases houtcome : work.outcome current = .succeeded
  · rw [if_pos houtcome] at hbody
    obtain ⟨hrequested, article, rfl, hversion⟩ := outcome_succeeded houtcome
    obtain ⟨row, htable, hdecode⟩ := (hrow article).mp rfl
    cases hprepared : work.prepared with
    | none =>
      rw [hprepared] at hbody
      cases hbody
    | some prepared =>
      rw [hprepared] at hbody
      refine applyRefresh_backed hs hprepared hrequested ?_ ?_ hbody
      · by_cases hempty : prepared.article.contentHtml = ""
        · obtain ⟨-, -, -, -, hdecoded⟩ := decodeArticle_inv hdecode
          have hnewer : row.observationVersion < work.reservedVersion := by omega
          right
          rw [storedHtml, htable]
          exact hplain prepared hprepared hempty hfinishes hrequested row htable hnewer
        · exact .inl hempty
      · intro row' current' hrow' hdecode'
        obtain rfl := Option.some.inj ((hrow current').mpr ⟨row', hrow', hdecode'⟩)
        omega
  · rw [if_neg houtcome] at hbody
    obtain rfl : u = t := (Prod.mk.inj hbody).2
    exact hs

/-! ## Runs -/

/-- What an operation must not do: refresh an article that shows local images to nothing. -/
def ArchiveOperation.EmptyOnPlain (tables : ArchiveTables) : ArchiveOperation Url → Prop
  | .refresh work => work.EmptyOnPlain tables.articles
  | _ => True

/-- The committed articles are backed. -/
def ArchiveTables.IsBacked (tables : ArchiveTables) : Prop :=
  Backed tables.articles tables.assets.articleAssets

omit [UrlCrate Url] [LawfulUrlCrate Url] [DecidableEq Url] [Sha2Crate] in
/-- A transaction commits what its program left, or nothing. -/
theorem transact_backed {A : Type} {tables tables' : ArchiveTables} {finishes : Bool}
    {m : ArchiveTx A} (hm : ∀ a s t, finishes = true → s.articles = tables.articles →
      s.links = tables.assets.articleAssets → m s = (.ok a, t) → t.IsBacked)
    (h : transact tables finishes m = some tables') : tables'.IsBacked := by
  unfold transact at h
  split at h
  · cases h
  · rename_i a s hrun
    split_ifs at h with hfinishes
    obtain rfl := Option.some.inj h
    exact hm a _ s hfinishes rfl rfl hrun

/-- **A transaction keeps the images linked.** -/
theorem step_backed {policy : AssetCachePolicy} {tables : ArchiveTables}
    {operation : ArchiveOperation Url} (htables : tables.IsBacked)
    (hplain : operation.EmptyOnPlain tables) :
    (tables.step policy operation).IsBacked := by
  unfold ArchiveTables.step
  cases hcommit : operation.commit policy tables with
  | none => exact htables
  | some tables' =>
    have hstart : ∀ s : ArchiveState, s.articles = tables.articles →
        s.links = tables.assets.articleAssets → s.IsBacked := by
      intro s harticles hlinks
      rw [ArchiveState.IsBacked, harticles, hlinks]
      exact htables
    cases operation with
    | sourceSync work =>
      simp only [ArchiveOperation.commit, SourceSyncWork.persistSuccess] at hcommit
      split at hcommit
      · cases hcommit
      · exact transact_backed (fun _ s _ _ ha hl =>
          persistEach_backed work.prepared (hstart s ha hl)) hcommit
    | backfill work =>
      simp only [ArchiveOperation.commit, ArticleBackfillWork.persistSuccess] at hcommit
      split at hcommit
      · cases hcommit
      · exact transact_backed (fun _ s _ _ ha hl => persistArticle_backed (hstart s ha hl)) hcommit
    | refresh work =>
      simp only [ArchiveOperation.commit, ArticleRefreshWork.finalize] at hcommit
      split at hcommit
      · cases hcommit
      · refine transact_backed (fun _ s _ hf ha hl =>
          refreshArticle_backed (hstart s ha hl) ?_ hf) hcommit
        rw [ha]
        exact hplain

/-- **Every local image of a stored article is linked to it**, in every run that does not refresh an
article with local images to nothing. -/
theorem images_linked (policy : AssetCachePolicy) (operations : List (ArchiveOperation Url))
    (hplain : Meets (ArchiveTables.step policy) (fun tables operation =>
      operation.EmptyOnPlain tables) .empty operations) :
    (run (ArchiveTables.step policy) .empty operations).IsBacked := by
  refine run_invariant (fun tables operation htables => step_backed htables) operations ?_ hplain
  intro key row hrow
  cases hrow

end Handlers

/-! ## An image, and a page that lost it -/

section Samples

attribute [local instance] plainDigest

/-- An observation of one article whose page parses to `document`. -/
def preparedPage (document : DomTree) (version : ℕ) (hversion : version ≠ 0)
    (assets : List (AssetInput PlainUrl))
    (ordered : assets.Pairwise fun a b => a.occurrence < b.occurrence) :
    PreparedArticle PlainUrl where
  article :=
    { sourceId := ⟨7⟩
      reviewId := "review"
      title := "title"
      author := none
      summary := none
      coverUrl := none
      originalUrl := none
      publishedAt := 0
      contentHtml := String.ofList (Renderer.sanitize document : Renderer PlainUrl).html
      contentHash := none
      observationVersion := version
      fetchedAt := 0 }
  externalAssets := (Renderer.sanitize document : Renderer PlainUrl).externalAssets
  fetchedAssets := assets
  normal :=
    { source := (by decide : (⟨7⟩ : Uuid) ≠ .nil)
      review := (by decide : trim "review" = "review" ∧ "review" ≠ "")
      title := (by decide : trim "title" = "title" ∧ "title" ≠ "")
      version := hversion
      author := rfl
      summary := rfl
      cover := ⟨rfl, rfl⟩
      hash := rfl }
  sanitized := ⟨document, String.toList_ofList⟩
  ordered := ordered

/-- The surroundings of an article with one image, of these ids. -/
def pageSupply (blobId recordId : ℕ) : ArticleSupply :=
  ⟨fun _ => true, ⟨0, 0⟩, fun _ => ⟨⟨blobId⟩, ⟨recordId⟩, 1⟩, true⟩

/-- A sync stores the article with its image. -/
def imageSync : ArchiveOperation PlainUrl :=
  .sourceSync ⟨[(preparedPage imageTree 1 (by decide) [plainImage sampleSource 1 6 1]
    (List.pairwise_singleton _ _), pageSupply 10 20)], 0, true⟩

/-- The image alone is in order. -/
theorem sampleImage_ordered :
    [plainImage sampleSource 1 6 1].Pairwise fun a b => a.occurrence < b.occurrence :=
  List.pairwise_singleton _ _

/-- A page of which the sanitizer leaves nothing. -/
def scriptTree : DomTree := .node (.element "script" []) [.node (.text "render()") []]

/-- A refresh of that article from a page with these images. -/
def pageRefresh (document : DomTree) (assets : List (AssetInput PlainUrl))
    (ordered : assets.Pairwise fun a b => a.occurrence < b.occurrence) :
    ArchiveOperation PlainUrl :=
  .refresh
    { target := (⟨7⟩, "review")
      reservedVersion := 2
      prepared := some (preparedPage document 2 (by decide) assets ordered)
      requestedOutcome := .succeeded
      supply := pageSupply 11 21
      startedAt := 5
      finishes := true
      prepared_target := fun p hp => by
        obtain rfl := Option.some.inj hp
        rfl
      prepared_version := fun p hp => by
        obtain rfl := Option.some.inj hp
        rfl }

/-- The image is stored, and fetched again by a refresh. -/
def imageRun : List (ArchiveOperation PlainUrl) :=
  [imageSync, pageRefresh imageTree [plainImage sampleSource 2 3 2] (List.pairwise_singleton _ _)]

/-- The refresh finds a script in the place of the page. -/
def scriptRun : List (ArchiveOperation PlainUrl) :=
  [imageSync, pageRefresh scriptTree [] .nil]

theorem images_linked_image :
    (run (ArchiveTables.step smallCache) .empty imageRun).IsBacked ∧
      storedHtml (run (ArchiveTables.step smallCache) .empty imageRun).articles (⟨7⟩, "review")
        = "<p><img alt=\"a\" src=\"/assets/00000000-0000-0000-0000-000000000015\" /></p>" := by
  refine ⟨images_linked smallCache imageRun ⟨trivial, ?_, trivial⟩, by decide +kernel⟩
  intro prepared hprepared hempty
  obtain rfl := Option.some.inj hprepared
  exact absurd hempty (by decide +kernel)

/-- **The image stays in the article and its link is gone.** -/
theorem empty_refresh_unlinks :
    ¬ (run (ArchiveTables.step smallCache) .empty scriptRun).IsBacked := by
  intro hbacked
  have hhtml : storedHtml (run (ArchiveTables.step smallCache) .empty scriptRun).articles
      (⟨7⟩, "review")
        = "<p><img alt=\"a\" src=\"/assets/00000000-0000-0000-0000-000000000014\" /></p>" := by
    decide +kernel
  have hlinks : (run (ArchiveTables.step smallCache) .empty scriptRun).assets.articleAssets = [] := by
    decide +kernel
  have hshows : Shows
      "<p><img alt=\"a\" src=\"/assets/00000000-0000-0000-0000-000000000014\" /></p>".toList
      (localSource "00000000-0000-0000-0000-000000000014".toList) :=
    ⟨by decide, "<p>".toList, " alt=\"a\"".toList, "</p>".toList, by decide, by decide⟩
  obtain ⟨recordId, -, row, hrow, -⟩ :=
    hbacked.stored (⟨7⟩, "review") "00000000-0000-0000-0000-000000000014".toList (hhtml ▸ hshows)
  rw [hlinks] at hrow
  cases hrow

end Samples

end Werrss
