import Werrss.Application.FeedRebuild
import Werrss.Persistence.ArticleUpsert
import Werrss.Rss.Renderable

/-!
# Application/FeedBytes — what the bytes of a feed depend on

    rows ──decode──▸ articles ──render_article──▸ render articles ──sort, write──▸ bytes
      │                  │                              │
    upsert         compared columns       ⊇        rendered columns

A feed's bytes are a function of its source's fields and of the **set** of its articles: the
renderer sorts by a key that no two articles of a feed share, and writes no instant of its own.  An
upsert compares every column the renderer reads, so **an upsert that reports no change leaves every
feed as it was**.
-/

open Machinery

namespace Werrss

/-! ## The order of the items -/

theorem feedOrder_iff {left right : RenderArticle} : feedOrder left right = true ↔
    right.publishedAt < left.publishedAt ∨
      (left.publishedAt = right.publishedAt ∧ left.reviewId ≤ right.reviewId) := by
  simp only [feedOrder, Bool.or_eq_true, Bool.and_eq_true, decide_eq_true_eq, beq_iff_eq, gt_iff_lt]

theorem feedOrder_trans (a b c : RenderArticle) (hab : feedOrder a b = true)
    (hbc : feedOrder b c = true) : feedOrder a c = true := by
  rw [feedOrder_iff] at hab hbc ⊢
  rcases hab with hab | ⟨heq, hab⟩
  · rcases hbc with hbc | ⟨heq', -⟩
    · exact .inl (Int.lt_trans hbc hab)
    · exact .inl (heq' ▸ hab)
  · rcases hbc with hbc | ⟨heq', hbc⟩
    · exact .inl (heq ▸ hbc)
    · exact .inr ⟨heq.trans heq', String.le_trans hab hbc⟩

theorem feedOrder_total (a b : RenderArticle) : (feedOrder a b || feedOrder b a) = true := by
  rw [Bool.or_eq_true, feedOrder_iff, feedOrder_iff]
  rcases Int.lt_trichotomy a.publishedAt b.publishedAt with hlt | heq | hgt
  · exact .inr (.inl hlt)
  · rcases String.le_total a.reviewId b.reviewId with hle | hge
    · exact .inl (.inr ⟨heq, hle⟩)
    · exact .inr (.inr ⟨heq.symm, hge⟩)
  · exact .inl (.inl hgt)

/-- Articles that stand before one another have one review id. -/
theorem reviewId_eq_of_feedOrder {a b : RenderArticle} (hab : feedOrder a b = true)
    (hba : feedOrder b a = true) : a.reviewId = b.reviewId := by
  rw [feedOrder_iff] at hab hba
  rcases hab with hab | ⟨heq, hab⟩
  · rcases hba with hba | ⟨heq', -⟩
    · exact absurd hab (Int.not_lt.mpr (Int.le_of_lt hba))
    · exact absurd heq'.symm (Int.ne_of_gt hab)
  · rcases hba with hba | ⟨-, hba⟩
    · exact absurd heq (Int.ne_of_gt hba).symm
    · exact String.le_antisymm hab hba

/-- **The sorted list of a set of articles with different review ids.** -/
theorem mergeSort_feedOrder_eq {articles articles' : List RenderArticle}
    (hperm : articles'.Perm articles) (hnodup : (articles.map RenderArticle.reviewId).Nodup) :
    articles'.mergeSort feedOrder = articles.mergeSort feedOrder := by
  refine List.Perm.eq_of_pairwise (fun a b ha hb hab hba => ?_)
    (List.pairwise_mergeSort feedOrder_trans feedOrder_total _)
    (List.pairwise_mergeSort feedOrder_trans feedOrder_total _)
    ((List.mergeSort_perm _ _).trans (hperm.trans (List.mergeSort_perm _ _).symm))
  rw [List.mem_mergeSort] at ha hb
  exact List.inj_on_of_nodup_map hnodup (hperm.subset ha) hb (reviewId_eq_of_feedOrder hab hba)

/-- **The items of a feed**: the later published first, the smaller review id first among those of
one instant. -/
def ItemBefore (left right : RssItem) : Prop :=
  right.pubDate < left.pubDate ∨ (left.pubDate = right.pubDate ∧ left.guid < right.guid)

theorem pairwise_itemBefore {input : RenderFeedInput} (h : input.Renderable) :
    (renderChannel input).items.Pairwise ItemBefore := by
  rw [renderChannel, List.pairwise_map]
  have hsorted := List.pairwise_mergeSort feedOrder_trans feedOrder_total input.articles
  have hnodup : ((input.articles.mergeSort feedOrder).map RenderArticle.reviewId).Nodup :=
    ((List.mergeSort_perm _ _).map _).nodup_iff.mpr h.distinct
  refine (hsorted.and (List.pairwise_map.mp hnodup)).imp fun {a b} hab => ?_
  rcases feedOrder_iff.mp hab.1 with hlater | ⟨heq, hle⟩
  · exact .inl hlater
  · exact .inr ⟨heq, Std.lt_of_le_of_ne hle hab.2⟩

/-! ## The bytes of an input -/

section Bytes

variable {writer : RssWriter} {digest : Html → String} {input : RenderFeedInput}

/-- What an input that is valid renders to. -/
theorem render_of_renderable (h : input.Renderable) : render writer digest input = .ok
    { sourceId := input.sourceId
      xml := writer.writeTo (renderChannel input)
      etag := "sha256:" ++ digest (writer.writeTo (renderChannel input))
      generatedAt := input.generatedAt
      expiresAt := input.expiresAt
      feedRevision := input.sourceRevision
      contentHash := digest (writer.writeTo (renderChannel input)) } := by
  rw [render, validateInput_eq_ok.mpr h]

/-- Another order of the articles is as valid. -/
theorem RenderFeedInput.Renderable.perm (h : input.Renderable) {articles : List RenderArticle}
    (hperm : articles.Perm input.articles) :
    RenderFeedInput.Renderable { input with articles := articles } where
  source := h.source
  title_filled := h.title_filled
  url_filled := h.url_filled
  title := h.title
  url := h.url
  description := h.description
  expiry := h.expiry
  articles article harticle := h.articles article (hperm.subset harticle)
  distinct := (hperm.map _).nodup_iff.mpr h.distinct

/-- **The order of the articles does not show.** -/
theorem render_perm (h : input.Renderable) {articles : List RenderArticle}
    (hperm : articles.Perm input.articles) :
    render writer digest { input with articles := articles } = render writer digest input := by
  rw [render_of_renderable h, render_of_renderable (h.perm hperm)]
  have hchannel : renderChannel { input with articles := articles } = renderChannel input := by
    rw [renderChannel, renderChannel, mergeSort_feedOrder_eq hperm h.distinct]
  rw [hchannel]

/-- **No instant of the rendering shows**, nor does the revision. -/
theorem render_instants {candidate candidate' : FeedCacheCandidate}
    {generatedAt expiresAt : DateTime} {revision : ℕ}
    (h : render writer digest input = .ok candidate)
    (h' : render writer digest
        { input with
          generatedAt := generatedAt
          expiresAt := expiresAt
          sourceRevision := revision } = .ok candidate') :
    candidate'.xml = candidate.xml ∧ candidate'.etag = candidate.etag
      ∧ candidate'.contentHash = candidate.contentHash := by
  have hvalid := (render_ok_iff writer digest input).mp ⟨candidate, h⟩
  have hvalid' := (render_ok_iff writer digest _).mp ⟨candidate', h'⟩
  rw [render_of_renderable hvalid] at h
  rw [render_of_renderable hvalid'] at h'
  obtain rfl := Except.ok.inj h
  obtain rfl := Except.ok.inj h'
  exact ⟨rfl, rfl, rfl⟩

end Bytes

/-! ## The rows a feed shows -/

section Rows

variable {Url : Type} [UrlCrate Url] [LawfulUrlCrate Url]

variable (Url) in
/-- The article a reader finds under a key. -/
def readArticle (table : ArticleTable) (key : ArticleKey) : Option (Article Url) :=
  (table key).bind fun row => (decodeArticle key row).toOption

variable (Url) in
/-- The articles found under some keys. -/
def readArticles (table : ArticleTable) (keys : List ArticleKey) : List (Article Url) :=
  keys.filterMap (readArticle Url table)

/-- **What the renderer reads of an article.** -/
structure RenderedColumns (Url : Type) [UrlCrate Url] where
  reviewId : String
  title : String
  author : Option String
  summary : Option String
  originalUrl : Option (VerifiedWechatArticleUrl Url)
  publishedAt : DateTime
  contentHtml : String

/-- The columns of an article that the renderer reads. -/
def Article.rendered (a : Article Url) : RenderedColumns Url :=
  ⟨a.reviewId, a.title, a.author, a.summary, a.originalUrl, a.publishedAt, a.contentHtml⟩

/-- `render_article`, from the columns it reads. -/
def RenderedColumns.toArticle (uuid : UuidParser) (root : Option Url) (c : RenderedColumns Url) :
    RenderArticle where
  reviewId := c.reviewId
  title := c.title
  author := c.author
  summary := c.summary
  originalUrl := c.originalUrl.map VerifiedWechatArticleUrl.asStr
  publishedAt := c.publishedAt
  contentHtml := match root with
    | none => c.contentHtml.toList
    | some root => absolutizeAssetUrls uuid c.contentHtml.toList root

omit [LawfulUrlCrate Url] in
theorem renderArticle_eq_toArticle (uuid : UuidParser) (root : Option Url) (a : Article Url) :
    renderArticle uuid a root = a.rendered.toArticle uuid root := rfl

omit [LawfulUrlCrate Url] in
/-- **The compared columns hold every rendered one**, besides the key. -/
theorem rendered_eq_of_content {a b : Article Url} (hreview : a.reviewId = b.reviewId)
    (hcontent : a.content = b.content) : a.rendered = b.rendered := by
  simp only [Article.content, FeedContent.mk.injEq] at hcontent
  obtain ⟨htitle, hauthor, hsummary, -, hurl, hpublished, hhtml, -⟩ := hcontent
  simp only [Article.rendered, hreview, htitle, hauthor, hsummary, hurl, hpublished, hhtml]

theorem readArticle_of_ok {table : ArticleTable} {key : ArticleKey} {row : ArticleRow}
    {a : Article Url} (hrow : table key = some row) (hdecode : decodeArticle key row = .ok a) :
    readArticle Url table key = some a := by
  rw [readArticle, hrow, Option.bind_some, hdecode]
  rfl

/-- An observation that changes nothing rewrites the row of its key, and leaves its columns. -/
theorem updateObservation_spec {clock : StatementClock} {table table' : ArticleTable}
    {key : ArticleKey} {existing row : ArticleRow} {current : Article Url} {n : NewArticle Url}
    (hnormal : n.Normal) (hkey : key = (n.sourceId, n.reviewId))
    (hexisting : table key = some existing)
    (hcurrent : decodeArticle key existing = .ok current)
    (h : updateObservation clock table (current.mergeObservation n) = .ok (table', row)) :
    table' = Function.update table key (some row) ∧
      ∃ stored : Article Url, decodeArticle key row = .ok stored ∧
        stored.rendered = current.rendered := by
  subst hkey
  obtain ⟨-, hsource, hreview, -, -⟩ := decodeArticle_inv hcurrent
  have hreview : current.reviewId = n.reviewId := hreview.trans hnormal.review.1
  have hmerged : ((current.mergeObservation n).sourceId, (current.mergeObservation n).reviewId)
      = (n.sourceId, n.reviewId) := Prod.ext hsource hreview
  have hversion : (current.mergeObservation n).observationVersion = n.observationVersion := rfl
  simp only [updateObservation, hmerged, updateRow, hexisting, observationVersionAsI64, hversion]
    at h
  split_ifs at h with hfits
  obtain ⟨rfl, rfl⟩ := Prod.mk.inj (Except.ok.inj h)
  exact ⟨rfl, _, decodeArticle_observed hcurrent hnormal.version _ _, rfl⟩

/-- **An upsert that reports no change shows nothing new**, whatever key is read. -/
theorem rendered_of_unchanged {sources : Uuid → Bool} {clock : StatementClock}
    {table table' : ArticleTable} {observed : NewArticle Url} {result : ArticleUpsertResult Url}
    (h : upsert sources clock table observed = .ok (table', result))
    (hunchanged : result.feedVisibleChange = false) (key : ArticleKey) :
    (readArticle Url table' key).map Article.rendered
      = (readArticle Url table key).map Article.rendered := by
  rw [upsert] at h
  split at h
  · cases h
  rename_i article hnormal
  split at h
  · cases h
  dsimp only at h
  split at h
  · rename_i existing hexisting
    split at h
    · cases h
    rename_i current hcurrent
    split_ifs at h with hstale hchanged
    · -- a delayed observation: nothing is written
      obtain ⟨rfl, rfl⟩ := Prod.mk.inj (Except.ok.inj h)
      rfl
    · -- a change is reported
      split at h
      · cases h
      split at h
      · cases h
      obtain ⟨rfl, rfl⟩ := Prod.mk.inj (Except.ok.inj h)
      exact absurd (hchanged.symm.trans hunchanged) (by decide)
    · split at h
      · cases h
      rename_i written row hwritten
      split at h
      · cases h
      obtain ⟨rfl, rfl⟩ := Prod.mk.inj (Except.ok.inj h)
      obtain ⟨htable, stored, hstored, hrendered⟩ := updateObservation_spec
        (NewArticle.normal_of_normalize hnormal) rfl hexisting hcurrent hwritten
      rw [htable]
      by_cases hkey : key = (article.sourceId, article.reviewId)
      · rw [hkey, readArticle_of_ok hexisting hcurrent,
          readArticle_of_ok (Function.update_self ..) hstored, Option.map_some, Option.map_some,
          hrendered]
      · rw [readArticle, readArticle, Function.update_of_ne hkey]
  · -- a new row is a change
    split_ifs at h
    split at h
    · cases h
    obtain ⟨rfl, rfl⟩ := Prod.mk.inj (Except.ok.inj h)
    exact absurd hunchanged Bool.true_eq_false.mp

/-! ## The feed of a table -/

/-- The order in which the database lists a feed, on the rendered columns. -/
def FeedRebuildService.renderedOrder (service : FeedRebuildService Url)
    (left right : RenderedColumns Url) : Prop :=
  right.publishedAt < left.publishedAt ∨
    (left.publishedAt = right.publishedAt ∧ service.collation left.reviewId right.reviewId = true)

instance (service : FeedRebuildService Url) : DecidableRel service.renderedOrder :=
  fun left right => inferInstanceAs (Decidable (right.publishedAt < left.publishedAt ∨
    (left.publishedAt = right.publishedAt ∧
      service.collation left.reviewId right.reviewId = true)))

/-- The feed a rebuild renders from the rows under some keys. -/
def FeedRebuildService.feedOf (service : FeedRebuildService Url) (source : Source)
    (table : ArticleTable) (keys : List ArticleKey) (generatedAt : DateTime) :
    Except FeedRebuildError FeedCacheCandidate := do
  let listed ← service.listForFeed (readArticles Url table keys) source.rssItemLimit
  service.renderFeed source listed generatedAt

omit [LawfulUrlCrate Url] in
/-- **The listing commutes with what is rendered.** -/
theorem map_rendered_insertionSort (service : FeedRebuildService Url)
    (articles : List (Article Url)) :
    (articles.insertionSort service.listOrder).map Article.rendered
      = (articles.map Article.rendered).insertionSort service.renderedOrder :=
  List.map_insertionSort _ _ _ _ fun _ _ _ _ => Iff.rfl

omit [LawfulUrlCrate Url] in
/-- What is rendered of a list is what is rendered of its columns. -/
theorem renderFeed_congr (service : FeedRebuildService Url) (source : Source)
    (generatedAt : DateTime) {articles articles' : List (Article Url)}
    (h : articles'.map Article.rendered = articles.map Article.rendered) :
    service.renderFeed source articles' generatedAt
      = service.renderFeed source articles generatedAt := by
  have hmap : ∀ list : List (Article Url),
      (list.map fun article => renderArticle service.uuid article service.assetUrlRoot)
        = (list.map Article.rendered).map
            (RenderedColumns.toArticle service.uuid service.assetUrlRoot) := fun list => by
    rw [List.map_map]
    rfl
  rw [FeedRebuildService.renderFeed, FeedRebuildService.renderFeed, hmap articles', hmap articles,
    h]

/-- **Tables that show the same under every key have the same feeds.** -/
theorem feedOf_congr (service : FeedRebuildService Url) (source : Source)
    {table table' : ArticleTable} (keys : List ArticleKey) (generatedAt : DateTime)
    (h : ∀ key, (readArticle Url table' key).map Article.rendered
      = (readArticle Url table key).map Article.rendered) :
    service.feedOf source table' keys generatedAt
      = service.feedOf source table keys generatedAt := by
  have hread : (readArticles Url table' keys).map Article.rendered
      = (readArticles Url table keys).map Article.rendered := by
    rw [readArticles, readArticles, List.map_filterMap, List.map_filterMap]
    exact List.filterMap_congr fun key _ => h key
  rw [FeedRebuildService.feedOf, FeedRebuildService.feedOf, FeedRebuildService.listForFeed,
    FeedRebuildService.listForFeed]
  split_ifs with hlimit
  · rfl
  · refine renderFeed_congr service source generatedAt ?_
    rw [List.map_take, List.map_take, map_rendered_insertionSort, map_rendered_insertionSort, hread]

/-! ## What the bytes depend on -/

/-- **The bytes of a feed depend on its source's fields and its set of articles, and the reported
changes are exact for them.** -/
theorem feed_bytes_of_set (Url : Type) [UrlCrate Url] [LawfulUrlCrate Url] (writer : RssWriter)
    (digest : Html → String) :
    (∀ (input : RenderFeedInput) (articles : List RenderArticle), input.Renderable →
      articles.Perm input.articles →
      render writer digest { input with articles := articles } = render writer digest input) ∧
    (∀ (input : RenderFeedInput) (generatedAt expiresAt : DateTime) (revision : ℕ)
      (candidate candidate' : FeedCacheCandidate),
      render writer digest input = .ok candidate →
      render writer digest
        { input with
          generatedAt := generatedAt
          expiresAt := expiresAt
          sourceRevision := revision } = .ok candidate' →
      candidate'.xml = candidate.xml ∧ candidate'.etag = candidate.etag
        ∧ candidate'.contentHash = candidate.contentHash) ∧
    (∀ (input : RenderFeedInput) (candidate : FeedCacheCandidate),
      render writer digest input = .ok candidate →
      ∃ items : List RssItem, items.Perm (input.articles.map toRssItem) ∧
        items.Pairwise ItemBefore ∧
        candidate.xml = writer.channelOpening (renderChannel input)
          ++ items.flatMap writer.itemXml ++ writer.channelClosing (renderChannel input)) ∧
    ∀ (sources : Uuid → Bool) (clock : StatementClock) (table table' : ArticleTable)
      (observed : NewArticle Url) (result : ArticleUpsertResult Url),
      upsert sources clock table observed = .ok (table', result) →
      (result.feedVisibleChange = false →
        ∀ (service : FeedRebuildService Url) (source : Source) (keys : List ArticleKey)
          (generatedAt : DateTime),
          service.feedOf source table' keys generatedAt
            = service.feedOf source table keys generatedAt) ∧
      ∀ (uuid : UuidParser) (root : Option Url) (key : ArticleKey) (before after : Article Url),
        readArticle Url table key = some before → readArticle Url table' key = some after →
        writer.itemXml (toRssItem (renderArticle uuid after root))
          ≠ writer.itemXml (toRssItem (renderArticle uuid before root)) →
        result.feedVisibleChange = true := by
  refine ⟨fun input articles h hperm => render_perm h hperm,
    fun input generatedAt expiresAt revision candidate candidate' h h' => render_instants h h',
    fun input candidate h => ?_,
    fun sources clock table table' observed result h => ⟨fun hunchanged => ?_, ?_⟩⟩
  · have hvalid := (render_ok_iff writer digest input).mp ⟨candidate, h⟩
    rw [render_of_renderable hvalid] at h
    obtain rfl := Except.ok.inj h
    exact ⟨(renderChannel input).items, (List.mergeSort_perm _ _).map _,
      pairwise_itemBefore hvalid, rfl⟩
  · intro service source keys generatedAt
    exact feedOf_congr service source keys generatedAt (rendered_of_unchanged h hunchanged)
  · intro uuid root key before after hbefore hafter hbytes
    by_contra hchange
    have hsame := rendered_of_unchanged h (Bool.eq_false_iff.mpr hchange) key
    rw [hbefore, hafter, Option.map_some, Option.map_some, Option.some.injEq] at hsame
    rw [renderArticle_eq_toArticle, renderArticle_eq_toArticle, hsame] at hbytes
    exact hbytes rfl

end Rows

section Samples

/-- An article published at an instant. -/
def datedArticle (reviewId : String) (publishedAt : DateTime) : RenderArticle where
  reviewId := reviewId
  title := "title"
  author := none
  summary := none
  originalUrl := none
  publishedAt := publishedAt
  contentHtml := "<p>text</p>".toList

/-- A feed of two articles of one instant. -/
def twinFeed : RenderFeedInput where
  sourceId := ⟨7⟩
  title := "feed"
  feedUrl := "https://feeds.example/a"
  description := ""
  sourceRevision := 1
  generatedAt := 10
  expiresAt := 20
  articles := [datedArticle "b" 5, datedArticle "a" 5]

/-- The twins render alike in either order. -/
theorem feed_bytes_of_set_twins :
    render plainWriter String.ofList { twinFeed with articles := twinFeed.articles.reverse }
      = render plainWriter String.ofList twinFeed := by
  have hvalid : twinFeed.Renderable := validateInput_eq_ok.mp (by decide +kernel)
  exact (feed_bytes_of_set PlainUrl plainWriter String.ofList).1 twinFeed _ hvalid
    (List.reverse_perm _)

end Samples

end Werrss
