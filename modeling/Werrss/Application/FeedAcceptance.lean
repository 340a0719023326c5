import Mathlib.Data.List.Dedup
import Werrss.Acquisition.ArticlePage
import Werrss.Acquisition.WeRead
import Werrss.Application.ContentHashes
import Werrss.Application.FeedDelivery
import Werrss.Application.FeedRebuild
import Werrss.Archive.SafeHtml
import Werrss.Persistence.ArticleUpsert
import Werrss.Rss.Renderable

/-!
# Application/FeedAcceptance — from the upstream texts of an article to the feed that holds it

    list entry ─┐
                ├─prepare──▸ NewArticle ──upsert──▸ row ──list_for_feed──▸ render
    page ───────┘

The sanitizer filters the characters of the HTML; nobody filters those of the other fields, and
nobody bounds the publication year.  So an article is taken by every later stage **exactly when** the
texts it is prepared from are XML texts and its year has four digits.
-/

open Machinery

namespace Werrss

/-! ## Texts that are XML texts by construction -/

section Texts

variable {Url : Type} [UrlCrate Url] [LawfulUrlCrate Url]

theorem isAllowed_of_printable {c : Char} (h : ' ' ≤ c ∧ c ≤ '~') :
    isAllowedHtmlCharacter c = true := by
  have hlo : 32 ≤ c.toNat := h.1
  have hhi : c.toNat ≤ 126 := h.2
  simp only [isAllowedHtmlCharacter, Bool.or_eq_true, Bool.and_eq_true, decide_eq_true_eq]
  omega

theorem isXmlText_asStr (url : Url) : IsXmlText (UrlCrate.asStr url).toList := fun c hc =>
  isAllowed_of_printable (LawfulUrlCrate.asStr_printable url c hc)

omit [LawfulUrlCrate Url] in
/-- A verified article URL is the serialisation of a URL. -/
theorem VerifiedWechatArticleUrl.exists_url (url : VerifiedWechatArticleUrl Url) :
    ∃ parsed : Url, url.asStr = UrlCrate.asStr parsed := by
  have h := url.canonical
  simp only [canonicalArticleUrl] at h
  split_ifs at h
  split at h
  · cases h
  · split_ifs at h
    · exact ⟨_, (Except.ok.inj h).symm⟩
    · exact ⟨_, (Except.ok.inj h).symm⟩

/-- Trimming adds no character. -/
theorem mem_of_mem_trim {s : String} {c : Char} (h : c ∈ (trim s).toList) : c ∈ s.toList := by
  rw [trim, String.toList_ofList, trimChars, List.mem_reverse] at h
  exact (List.dropWhile_suffix _).subset (List.mem_reverse.mp ((List.dropWhile_suffix _).subset h))

omit [LawfulUrlCrate Url] in
/-- An XML text holds no NUL. -/
theorem nul_not_mem {text : Html} (h : IsXmlText text) : '\x00' ∉ text := fun hmem => by
  cases h _ hmem

/-- Escaping keeps an XML text one. -/
theorem isXmlText_escapeAttribute {value : String} (h : IsXmlText value.toList) :
    IsXmlText (escapeAttribute value) := by
  have hall : ∀ entity ∈ ["&amp;", "&lt;", "&gt;", "&quot;", "&#39;"],
      IsXmlText entity.toList := by
    intro entity hentity
    simp only [List.mem_cons, List.not_mem_nil, or_false] at hentity
    rcases hentity with rfl | rfl | rfl | rfl | rfl <;> exact forall_mem_of_all (by decide)
  intro c hc
  obtain ⟨d, hd, hc⟩ := List.mem_flatMap.mp hc
  rw [escapeAttributeChar] at hc
  split_ifs at hc
  · exact hall "&amp;" (by decide) c hc
  · exact hall "&lt;" (by decide) c hc
  · exact hall "&gt;" (by decide) c hc
  · exact hall "&quot;" (by decide) c hc
  · exact hall "&#39;" (by decide) c hc
  · rw [List.mem_singleton.mp hc]
    exact h d hd

/-- Making asset routes absolute keeps an XML text one. -/
theorem isXmlText_absolutizeAssetUrls (uuid : UuidParser) {html : Html} (h : IsXmlText html)
    (root : Url) : IsXmlText (absolutizeAssetUrls uuid html root) := by
  rw [absolutizeAssetUrls]
  split
  · exact h
  · refine Scan.forall_mem_rewriteLoop (fun v w hw => ?_) h
    obtain ⟨target, htarget, rfl⟩ := Option.map_eq_some_iff.mp hw
    obtain ⟨assetId, -, hjoin⟩ := Option.bind_eq_some_iff.mp htarget
    obtain ⟨url, -, rfl⟩ := Option.map_eq_some_iff.mp hjoin
    exact isXmlText_escapeAttribute (isXmlText_asStr url)

/-- A text that is not empty when trimmed is not blank. -/
theorem isBlank_of_trimmed {s : String} (h : trim s = s ∧ s ≠ "") : isBlank s = false := by
  by_contra hblank
  rw [Bool.not_eq_false] at hblank
  have hnil : s.toList.dropWhile isWhiteSpace = [] :=
    List.dropWhile_eq_nil_iff.mpr (List.all_eq_true.mp hblank)
  refine h.2 (h.1.symm.trans ?_)
  rw [trim, trimChars, hnil]
  rfl

/-- What is not blank is not empty when trimmed. -/
theorem trim_ne_empty {s : String} (h : isBlank s = false) : trim s ≠ "" := by
  intro hempty
  have hchars : trimChars s.toList = [] := by
    rw [← String.toList_ofList (l := trimChars s.toList)]
    exact congrArg String.toList hempty
  have hall : ∀ c ∈ s.toList.dropWhile isWhiteSpace, isWhiteSpace c = true := by
    have hrev := List.dropWhile_eq_nil_iff.mp (List.reverse_eq_nil_iff.mp hchars)
    exact fun c hc => hrev c (List.mem_reverse.mpr hc)
  have hnil : s.toList.dropWhile isWhiteSpace = [] := by
    cases hcut : s.toList.dropWhile isWhiteSpace with
    | nil => rfl
    | cons c cs =>
      have hhead := head_dropWhile (congrArg List.head? hcut)
      rw [hall c (hcut ▸ List.mem_cons_self)] at hhead
      cases hhead
  have hblank : isBlank s = true := List.all_eq_true.mpr (List.dropWhile_eq_nil_iff.mp hnil)
  rw [h] at hblank
  cases hblank

end Texts

/-! ## Chosen texts -/

/-- The first of two texts that is not blank: the page's, then the list's. -/
def firstFilled (texts : List (Option String)) : Option String :=
  (texts.filterMap id).find? fun text => !isBlank text

theorem preferredTextOption_eq (primary fallback : Option String) :
    preferredTextOption primary fallback = firstFilled [primary, fallback] := by
  cases primary with
  | none => cases fallback <;> simp [preferredTextOption, firstFilled, Option.filter]
  | some text =>
    by_cases hblank : isBlank text = true
    · cases fallback <;> simp [preferredTextOption, firstFilled, Option.filter, hblank]
    · simp [preferredTextOption, firstFilled, Option.filter, hblank]

/-- What `normalize` makes of a chosen optional text. -/
theorem normalizeOptional_preferred (primary fallback : Option String) :
    normalizeOptional (preferredTextOption primary fallback)
      = (firstFilled [primary, fallback]).map trim := by
  rw [preferredTextOption_eq]
  cases hfound : firstFilled [primary, fallback] with
  | none => rfl
  | some text =>
    have hfilled : isBlank text = false := by simpa using List.find?_some hfound
    rw [normalizeOptional, Option.map_some]
    exact Option.filter_eq_some_iff.mpr ⟨rfl, by simpa using trim_ne_empty hfilled⟩

/-! ## One observed article -/

section Observed

variable {Url : Type} [UrlCrate Url] [LawfulUrlCrate Url] [UrlSegments Url] [DecidableEq Url]
variable [ScraperCrate] [Sha2Crate]

variable (Url) in
/-- **An article as it is observed**: an entry of an article list the adapter accepts, the page the
extraction accepts for it, and what `prepare_article` makes of the two for a source. -/
structure Observation (clock : PageClock) (sourceId : Uuid) where
  reference : WeReadArticleReference Url
  listed : ∃ payload references,
    parseArticleListPayload payload = .ok references ∧ reference ∈ references
  page : ExtractedArticlePage Url
  extracted : ∃ document canonicalUrl,
    parseArticleHtmlWithFallback clock document canonicalUrl reference.title reference.publishedAt
        = .ok page ∨
      parseArticleHtml clock document canonicalUrl = .ok page
  observationVersion : ℕ
  /-- versions come from a sequence of `bigint`s -/
  version_le : observationVersion ≤ i64Max
  fetchedAt : DateTime
  prepared : PreparedArticle Url
  prepared_eq : prepareArticle sourceId reference page observationVersion fetchedAt = .ok prepared

namespace Observation

variable {clock : PageClock} {sourceId : Uuid}

/-- **A clean observation**: the texts that are taken from it are XML texts, the cover URL, which is
stored but not rendered, holds no NUL, and the year of publication is one of 0 to 9999. -/
structure Clean (o : Observation Url clock sourceId) : Prop where
  review : IsXmlText (trim o.reference.reviewId).toList
  title : ∀ text ∈ firstFilled [some o.page.title, o.reference.title], IsXmlText (trim text).toList
  author : ∀ text ∈ firstFilled [o.page.author, o.reference.author], IsXmlText (trim text).toList
  summary : ∀ text ∈ firstFilled [o.page.summary, o.reference.summary],
    IsXmlText (trim text).toList
  cover : ∀ text ∈ firstFilled [o.page.coverUrl, o.reference.coverUrl],
    '\x00' ∉ (trim text).toList
  published : ∀ t ∈ o.page.publishedAt.or o.reference.publishedAt, FormatsRfc2822 t

/-- **The fields of a prepared article.** -/
structure Prepares (o : Observation Url clock sourceId) (a : NewArticle Url) : Prop where
  source : a.sourceId = sourceId
  review : a.reviewId = trim o.reference.reviewId
  title : ∃ text, firstFilled [some o.page.title, o.reference.title] = some text ∧
    a.title = trim text
  author : a.author = (firstFilled [o.page.author, o.reference.author]).map trim
  summary : a.summary = (firstFilled [o.page.summary, o.reference.summary]).map trim
  cover : a.coverUrl = (firstFilled [o.page.coverUrl, o.reference.coverUrl]).map trim
  url : a.originalUrl = some o.page.canonicalUrl
  published : o.page.publishedAt.or o.reference.publishedAt = some a.publishedAt
  hash : a.contentHash
    = normalizeOptional (archive o.page.contentHtml : ArchivedContent Url).contentHash
  version : a.observationVersion = o.observationVersion

theorem prepares (o : Observation Url clock sourceId) : o.Prepares o.prepared.article := by
  have h := o.prepared_eq
  simp only [prepareArticle] at h
  split at h
  · cases h
  · rename_i publishedAt hpublished
    split at h
    · cases h
    · rename_i article hnormal
      obtain hprepared := Except.ok.inj h
      have harticle : o.prepared.article = article := by rw [← hprepared]
      rw [harticle]
      simp only [NewArticle.normalize] at hnormal
      split_ifs at hnormal with hsource hreview htitle
      obtain rfl := Except.ok.inj hnormal
      refine ⟨rfl, rfl, ?_, ?_, ?_, ?_, rfl, hpublished, rfl, rfl⟩
      · simp only [observedArticle, preferredText, preferredTextOption_eq] at htitle ⊢
        cases hfound : firstFilled [some o.page.title, o.reference.title] with
        | none => exact absurd (by rw [hfound]; rfl) htitle
        | some text => exact ⟨text, rfl, rfl⟩
      · exact normalizeOptional_preferred _ _
      · exact normalizeOptional_preferred _ _
      · exact normalizeOptional_preferred _ _

end Observation

/-! ## What the later stages ask -/

/-- No text column of the article holds a NUL, which PostgreSQL refuses. -/
structure NulFree (a : NewArticle Url) : Prop where
  review : '\x00' ∉ a.reviewId.toList
  title : '\x00' ∉ a.title.toList
  author : ∀ text ∈ a.author, '\x00' ∉ text.toList
  summary : ∀ text ∈ a.summary, '\x00' ∉ text.toList
  cover : ∀ text ∈ a.coverUrl, '\x00' ∉ text.toList
  url : ∀ url ∈ a.originalUrl, '\x00' ∉ url.asStr.toList
  content : '\x00' ∉ a.contentHtml.toList
  hash : ∀ text ∈ a.contentHash, '\x00' ∉ text.toList

/-- **What `SELECT … WHERE source_id = $1` returns, decoded**: the rows of the source, each once. -/
structure Selects (table : ArticleTable) (sourceId : Uuid) (articles : List (Article Url)) :
    Prop where
  distinct : (articles.map Article.reviewId).Nodup
  mem_iff : ∀ a, a ∈ articles ↔ ∃ reviewId row, table (sourceId, reviewId) = some row ∧
    decodeArticle (sourceId, reviewId) row = .ok a

/-- The input a rebuild renders. -/
def FeedRebuildService.rebuildInput (service : FeedRebuildService Url) (source : Source)
    (articles : List (Article Url)) (generatedAt expiresAt : DateTime) : RenderFeedInput where
  sourceId := source.id
  title := source.displayName
  feedUrl := service.feedUrl
  description := service.description
  sourceRevision := source.feedRevision
  generatedAt := generatedAt
  expiresAt := expiresAt
  articles := articles.map fun article => renderArticle service.uuid article service.assetUrlRoot

omit [LawfulUrlCrate Url] [UrlSegments Url] [DecidableEq Url] [ScraperCrate] [Sha2Crate] in
/-- A rebuild renders its input, once its expiry is in range. -/
theorem FeedRebuildService.renderFeed_eq (service : FeedRebuildService Url) (source : Source)
    (articles : List (Article Url)) (generatedAt : DateTime) :
    service.renderFeed source articles generatedAt =
      match DateTime.checkedAddSigned generatedAt service.cacheTtl with
      | none => .error .config
      | some expiresAt =>
        match render service.writer service.digest
          (service.rebuildInput source articles generatedAt expiresAt) with
        | .error e => .error (.render e)
        | .ok candidate => .ok candidate := rfl

/-- **The feed of a table renders**: its rows can be read, and whatever the database lists of them
is rendered, every publication time formatted, for every clock and every later expiry. -/
structure FeedRenders (service : FeedRebuildService Url) (source : Source) (table : ArticleTable) :
    Prop where
  readable : ∃ articles : List (Article Url), Selects table source.id articles
  renders : ∀ articles : List (Article Url), Selects table source.id articles → ∀ listed,
    service.listForFeed articles source.rssItemLimit = .ok listed →
      (∀ a ∈ listed, FormatsRfc2822 a.publishedAt) ∧
      ∀ generatedAt expiresAt, generatedAt < expiresAt →
        ∃ candidate, render service.writer service.digest
          (service.rebuildInput source listed generatedAt expiresAt) = .ok candidate

/-- **The articles are acceptable to every later stage**: PostgreSQL takes their texts, and whatever
upserts of them the source has seen, each succeeded and the feed renders. -/
structure Acceptable (service : FeedRebuildService Url) (source : Source) {clock : PageClock}
    (observed : List (Observation Url clock source.id)) : Prop where
  storable : ∀ o ∈ observed, NulFree o.prepared.article
  stored : ∀ (sources : Uuid → Bool) (table : ArticleTable)
    (upserts : List (StatementClock × NewArticle Url)), sources source.id = true →
    (∀ reviewId, table (source.id, reviewId) = none) →
    (∀ u ∈ upserts, ∃ o ∈ observed, u.2 = o.prepared.article) →
      (∀ e ∈ ((articleMachine sources).exec table upserts).2, ∃ result, e.2 = .ok result) ∧
      FeedRenders service source ((articleMachine sources).exec table upserts).1

/-! ## Columns that render -/

/-- The compared columns of a row hold XML texts and a year of four digits. -/
structure FeedContent.Clean (c : FeedContent Url) : Prop where
  title : IsXmlText c.title.toList
  author : ∀ text ∈ c.author, IsXmlText text.toList
  summary : ∀ text ∈ c.summary, IsXmlText text.toList
  content : IsXmlText c.contentHtml.toList
  published : FormatsRfc2822 c.publishedAt

omit [LawfulUrlCrate Url] [UrlSegments Url] [DecidableEq Url] [ScraperCrate] [Sha2Crate] in
theorem FeedContent.Clean.merge {stored seen : FeedContent Url} (hstored : stored.Clean)
    (hseen : seen.Clean) : (FeedContent.merge stored seen).Clean where
  title := hseen.title
  author text htext := by
    rcases Option.or_eq_some_iff.mp htext with h | ⟨-, h⟩
    · exact hseen.author text h
    · exact hstored.author text h
  summary text htext := by
    rcases Option.or_eq_some_iff.mp htext with h | ⟨-, h⟩
    · exact hseen.summary text h
    · exact hstored.summary text h
  content := by
    simp only [FeedContent.merge]
    split_ifs
    · exact hstored.content
    · exact hseen.content
  published := hseen.published

omit [LawfulUrlCrate Url] [UrlSegments Url] [DecidableEq Url] [ScraperCrate] [Sha2Crate] in
/-- A register that absorbs clean columns stays clean. -/
theorem FeedContent.clean_absorb {r : Option (ℕ × FeedContent Url)} {o : ℕ × FeedContent Url}
    (hr : ∀ v c, r = some (v, c) → c.Clean) (ho : o.2.Clean) :
    ∀ v c, Register.absorb FeedContent.merge r o = some (v, c) → c.Clean := by
  intro v c h
  rcases r with _ | ⟨w, stored⟩
  · obtain rfl := Option.some.inj h
    exact ho
  · rw [Register.absorb] at h
    split_ifs at h
    · obtain ⟨rfl, rfl⟩ := Prod.mk.inj (Option.some.inj h)
      exact hr w stored rfl
    · obtain ⟨rfl, rfl⟩ := Prod.mk.inj (Option.some.inj h)
      exact (hr w stored rfl).merge ho

/-! ## What one observation brings -/

namespace Observation

variable {clock : PageClock} {sourceId : Uuid}

/-- Both parsers date an article to a whole second. -/
theorem whole (o : Observation Url clock sourceId) {t : DateTime}
    (ht : o.page.publishedAt.or o.reference.publishedAt = some t) : (1000 : ℤ) ∣ t := by
  obtain ⟨payload, references, hlisted, hmem⟩ := o.listed
  have hreference : o.reference.Whole := whole_of_parseArticleListPayload hlisted _ hmem
  have hsecond : (1000000000 : ℤ) ∣ t := by
    rcases Option.or_eq_some_iff.mp ht with ht | ⟨-, ht⟩
    · obtain ⟨document, canonicalUrl, hpage | hpage⟩ := o.extracted
      · exact whole_of_parseArticleHtmlWithFallback hreference hpage t ht
      · exact whole_of_parseArticleHtmlWithFallback (fun _ hnone => by cases hnone) hpage t ht
    · exact hreference t ht
  exact Int.dvd_trans ⟨1000000, rfl⟩ hsecond

/-- A prepared article is a valid observation of its own key. -/
theorem observes (o : Observation Url clock sourceId) :
    Observes (sourceId, o.prepared.article.reviewId) o.prepared.article o.prepared.article where
  normalize_eq := o.prepared.normal.normalize_eq
  key_eq := by rw [o.prepares.source]
  version_le := by
    rw [o.prepares.version]
    exact o.version_le
  whole := o.whole o.prepares.published

/-- The sanitizer writes XML text. -/
theorem content_xml (o : Observation Url clock sourceId) :
    IsXmlText o.prepared.article.contentHtml.toList := by
  obtain ⟨document, hdocument⟩ := o.prepared.sanitized
  rw [hdocument, sanitize_html]
  exact allowed_htmlList (safe_kept document)

/-- The columns of a clean observation render. -/
theorem Clean.content {o : Observation Url clock sourceId} (h : o.Clean) :
    o.prepared.article.content.Clean := by
  obtain ⟨chosen, hchosen, htitle⟩ := o.prepares.title
  refine ⟨?_, fun text ht => ?_, fun text ht => ?_, o.content_xml,
    h.published _ o.prepares.published⟩
  · change IsXmlText o.prepared.article.title.toList
    rw [htitle]
    exact h.title chosen hchosen
  · obtain ⟨given, hgiven, rfl⟩ := Option.map_eq_some_iff.mp (o.prepares.author.symm.trans ht)
    exact h.author given hgiven
  · obtain ⟨given, hgiven, rfl⟩ := Option.map_eq_some_iff.mp (o.prepares.summary.symm.trans ht)
    exact h.summary given hgiven

/-- What the columns of an observation and its cover tell about it. -/
theorem clean_of_content {o : Observation Url clock sourceId}
    (hreview : IsXmlText o.prepared.article.reviewId.toList)
    (hcontent : o.prepared.article.content.Clean) (hnul : NulFree o.prepared.article) :
    o.Clean where
  review := o.prepares.review ▸ hreview
  title text ht := by
    obtain ⟨chosen, hchosen, htitle⟩ := o.prepares.title
    obtain rfl := Option.some.inj (hchosen.symm.trans ht)
    have htext := hcontent.title
    change IsXmlText o.prepared.article.title.toList at htext
    rwa [htitle] at htext
  author text ht := hcontent.author _ (by
    change o.prepared.article.author = _
    rw [o.prepares.author, ht]
    rfl)
  summary text ht := hcontent.summary _ (by
    change o.prepared.article.summary = _
    rw [o.prepares.summary, ht]
    rfl)
  cover text ht := hnul.cover _ (by
    rw [o.prepares.cover, ht]
    rfl)
  published t ht := by
    obtain rfl := Option.some.inj (o.prepares.published.symm.trans ht)
    exact hcontent.published

/-- PostgreSQL takes a clean observation. -/
theorem Clean.nulFree [LawfulSha2Crate] {o : Observation Url clock sourceId} (h : o.Clean) :
    NulFree o.prepared.article where
  review := nul_not_mem (o.prepares.review ▸ h.review)
  title := nul_not_mem h.content.title
  author text ht := nul_not_mem (h.content.author text ht)
  summary text ht := nul_not_mem (h.content.summary text ht)
  cover text ht := by
    obtain ⟨given, hgiven, rfl⟩ := Option.map_eq_some_iff.mp (o.prepares.cover.symm.trans ht)
    exact h.cover given hgiven
  url url _ := by
    obtain ⟨parsed, hparsed⟩ := url.exists_url
    rw [hparsed]
    exact nul_not_mem (isXmlText_asStr parsed)
  content := nul_not_mem o.content_xml
  hash text ht := by
    intro hmem
    have hhash := o.prepares.hash.symm.trans ht
    obtain ⟨digest, hdigest, rfl⟩ := Option.map_eq_some_iff.mp (Option.filter_eq_some_iff.mp hhash).1
    simp only [archive] at hdigest
    split_ifs at hdigest
    obtain rfl := Option.some.inj hdigest
    have hhex := LawfulSha2Crate.mem_sha256Hex _ _ (mem_of_mem_trim hmem)
    exact absurd hhex (by decide)

end Observation

/-! ## What a run leaves in the table -/

section Run

variable {clock : PageClock} {sourceId : Uuid} {sources : Uuid → Bool} {table : ArticleTable}

/-- **A row of the source that renders**: it can be read, its review id is a trimmed XML text, and its
compared columns are clean. -/
structure CleanKey (Url : Type) [UrlCrate Url] [LawfulUrlCrate Url] (table : ArticleTable)
    (key : ArticleKey) : Prop where
  readable : Readable Url table key
  named : ∀ row, table key = some row → trim key.2 = key.2 ∧ key.2 ≠ "" ∧ IsXmlText key.2.toList
  content : ∀ v (c : FeedContent Url), articleRegister Url table key = some (v, c) → c.Clean

/-- The rows of the source are clean, and only upserted articles have one. -/
structure CleanTable (Url : Type) [UrlCrate Url] [LawfulUrlCrate Url] (sourceId : Uuid)
    (table : ArticleTable) (reviewIds : List String) : Prop where
  keys : ∀ reviewId, CleanKey Url table (sourceId, reviewId)
  known : ∀ reviewId, table (sourceId, reviewId) ≠ none → reviewId ∈ reviewIds

omit [UrlSegments Url] [DecidableEq Url] [ScraperCrate] [Sha2Crate] in
theorem cleanTable_empty (h : ∀ reviewId, table (sourceId, reviewId) = none) :
    CleanTable Url sourceId table [] where
  keys reviewId :=
    { readable := fun row hrow => absurd (hrow.symm.trans (h reviewId)) (by simp)
      named := fun row hrow => absurd (hrow.symm.trans (h reviewId)) (by simp)
      content := fun v c hc => by
        rw [articleRegister, h reviewId] at hc
        cases hc }
  known reviewId hrow := absurd (h reviewId) hrow

/-- **One more clean observation.** -/
theorem CleanTable.upserted {reviewIds : List String} (h : CleanTable Url sourceId table reviewIds)
    {o : Observation Url clock sourceId} (ho : o.Clean) {table' : ArticleTable}
    {result : ArticleUpsertResult Url}
    (hpost : Upserted (sourceId, o.prepared.article.reviewId) o.prepared.article table table' result) :
    CleanTable Url sourceId table' (reviewIds ++ [o.prepared.article.reviewId]) where
  keys reviewId := by
    by_cases hkey : reviewId = o.prepared.article.reviewId
    · subst hkey
      refine ⟨hpost.readable, fun _ _ => ?_, fun v c hc => ?_⟩
      · exact ⟨o.prepared.normal.review.1, o.prepared.normal.review.2, o.prepares.review ▸ ho.review⟩
      · rw [hpost.register_eq] at hc
        exact FeedContent.clean_absorb (h.keys _).content ho.content v c hc
    · have hframe := hpost.frame (sourceId, reviewId) fun heq => hkey (Prod.mk.inj heq).2
      have hold := h.keys reviewId
      refine ⟨fun row hrow => hold.readable row (hframe ▸ hrow),
        fun row hrow => hold.named row (hframe ▸ hrow), fun v c hc => hold.content v c ?_⟩
      rwa [articleRegister, hframe] at hc
  known reviewId hrow := by
    by_cases hkey : reviewId = o.prepared.article.reviewId
    · exact List.mem_append_right _ (List.mem_singleton.mpr hkey)
    · have hframe := hpost.frame (sourceId, reviewId) fun heq => hkey (Prod.mk.inj heq).2
      exact List.mem_append_left _ (h.known reviewId (hframe ▸ hrow))

/-- **A run of clean observations** succeeds and leaves a clean table. -/
theorem cleanTable_exec (hs : sources sourceId = true)
    (hempty : ∀ reviewId, table (sourceId, reviewId) = none)
    (upserts : List (StatementClock × NewArticle Url))
    (hclean : ∀ u ∈ upserts, ∃ o : Observation Url clock sourceId,
      o.Clean ∧ u.2 = o.prepared.article) :
    (∀ e ∈ ((articleMachine sources).exec table upserts).2, ∃ result, e.2 = .ok result) ∧
    CleanTable Url sourceId ((articleMachine sources).exec table upserts).1
      (upserts.map fun u => u.2.reviewId) := by
  induction upserts using List.reverseRecOn with
  | nil => exact ⟨by simp, cleanTable_empty hempty⟩
  | append_singleton upserts u ih =>
    obtain ⟨hok, htable⟩ := ih fun u' hu' => hclean u' (List.mem_append_left _ hu')
    obtain ⟨o, ho, hu⟩ := hclean u (by simp)
    obtain ⟨table', result, hstep, hpost⟩ :=
      articleMachine_step o.observes hs (htable.keys _).readable u.1
    rw [← hu] at hstep
    rw [Machine.exec_concat, Machine.advance, hstep, List.map_append]
    refine ⟨fun e he => ?_, ?_⟩
    · rcases List.mem_cons.mp he with rfl | he
      · exact ⟨result, rfl⟩
      · exact hok e he
    · rw [List.map_singleton, hu]
      exact htable.upserted ho hpost

omit [UrlSegments Url] [DecidableEq Url] [ScraperCrate] [Sha2Crate] in
/-- A row of a clean table is read under its own review id. -/
theorem CleanKey.reviewId_eq {reviewId : String} (h : CleanKey Url table (sourceId, reviewId))
    {row : ArticleRow} (hrow : table (sourceId, reviewId) = some row) {a : Article Url}
    (hdecode : decodeArticle (sourceId, reviewId) row = .ok a) : a.reviewId = reviewId := by
  obtain ⟨-, -, hreview, -, -⟩ := decodeArticle_inv hdecode
  exact hreview.trans (h.named row hrow).1

variable (Url) in
/-- The readable row of a review id. -/
def readRow (table : ArticleTable) (sourceId : Uuid) (reviewId : String) : Option (Article Url) :=
  (table (sourceId, reviewId)).bind fun row => (decodeArticle (sourceId, reviewId) row).toOption

omit [UrlSegments Url] [DecidableEq Url] [ScraperCrate] [Sha2Crate] in
theorem readRow_eq_some {reviewId : String} {a : Article Url} :
    readRow Url table sourceId reviewId = some a ↔
      ∃ row, table (sourceId, reviewId) = some row ∧
        decodeArticle (sourceId, reviewId) row = .ok a := by
  rw [readRow, Option.bind_eq_some_iff]
  refine exists_congr fun row => and_congr_right fun _ => ?_
  cases (decodeArticle (sourceId, reviewId) row : Except ArticleRepositoryError (Article Url)) with
  | error e => exact ⟨fun h => (nomatch h), fun h => (nomatch h)⟩
  | ok b => exact ⟨fun h => congrArg _ (Option.some.inj h), fun h => congrArg _ (Except.ok.inj h)⟩

omit [UrlSegments Url] [DecidableEq Url] [ScraperCrate] [Sha2Crate] in
/-- The rows of a clean table can be selected. -/
theorem CleanTable.exists_selects {reviewIds : List String}
    (h : CleanTable Url sourceId table reviewIds) :
    ∃ articles : List (Article Url), Selects table sourceId articles := by
  have hid : ∀ reviewId (a : Article Url), readRow Url table sourceId reviewId = some a →
      a.reviewId = reviewId := by
    intro reviewId a ha
    obtain ⟨row, hrow, hdecode⟩ := readRow_eq_some.mp ha
    exact (h.keys reviewId).reviewId_eq hrow hdecode
  refine ⟨reviewIds.dedup.filterMap (readRow Url table sourceId), ?_, fun a => ?_⟩
  · rw [List.Nodup, List.pairwise_map, List.pairwise_filterMap]
    refine List.Pairwise.imp (fun {r r'} hne a ha a' ha' heq => hne ?_) (List.nodup_dedup reviewIds)
    rw [← hid r a ha, ← hid r' a' ha', heq]
  · rw [List.mem_filterMap]
    refine ⟨fun ⟨reviewId, _, ha⟩ => ?_, fun ⟨reviewId, row, hrow, hdecode⟩ => ?_⟩
    · obtain ⟨row, hrow, hdecode⟩ := readRow_eq_some.mp ha
      exact ⟨reviewId, row, hrow, hdecode⟩
    · have hknown := h.known reviewId (by rw [hrow]; exact Option.some_ne_none _)
      exact ⟨reviewId, List.mem_dedup.mpr hknown, readRow_eq_some.mpr ⟨row, hrow, hdecode⟩⟩

end Run

/-! ## Rendering what is listed -/

/-- The rebuild as the runtime composes it: the feed URL is the configured public root, which is also
the asset root if there is one. -/
structure FeedRebuildService.Composed (service : FeedRebuildService Url) : Prop where
  root : ∃ root : Url, IsHttp root ∧ service.feedUrl = UrlCrate.asStr root
  description : service.description = "WeChat article feed"

/-- What `Source::validate` asks, as far as a feed reads it; the name is kept trimmed. -/
structure Source.Valid (source : Source) : Prop where
  id : source.id ≠ Uuid.nil
  name : isBlank source.displayName = false
  limit : source.rssItemLimit ≠ 0

omit [UrlSegments Url] [DecidableEq Url] [ScraperCrate] [Sha2Crate] in
/-- **A clean article renders.** -/
theorem renderable_renderArticle (uuid : UuidParser) {article : Article Url}
    (hnormal : article.asNew.Normal) (hreview : IsXmlText article.reviewId.toList)
    (hcontent : article.content.Clean) (root : Option Url) :
    (renderArticle uuid article root).Renderable where
  review_filled := isBlank_of_trimmed hnormal.review
  title_filled := isBlank_of_trimmed hnormal.title
  review := hreview
  title := hcontent.title
  content := by
    cases root with
    | none => exact hcontent.content
    | some root => exact isXmlText_absolutizeAssetUrls uuid hcontent.content root
  author := hcontent.author
  summary := hcontent.summary
  url text ht := by
    obtain ⟨url, -, rfl⟩ := Option.map_eq_some_iff.mp ht
    obtain ⟨parsed, hparsed⟩ := url.exists_url
    rw [hparsed]
    exact isXmlText_asStr parsed

omit [UrlSegments Url] [DecidableEq Url] [ScraperCrate] [Sha2Crate] in
/-- The text of a web URL is not blank. -/
theorem isBlank_asStr {root : Url} (hroot : IsHttp root) : isBlank (UrlCrate.asStr root) = false := by
  refine isBlank_of_trimmed ⟨trim_of_forall fun c hc => ?_, LawfulUrlCrate.asStr_ne_empty root⟩
  obtain ⟨hlo, hhi⟩ := LawfulUrlCrate.asStr_printable root c hc
  have hspace := (LawfulUrlCrate.asStr_encoded root hroot c hc).1
  have hlo' : 32 ≤ c.toNat := hlo
  have hhi' : c.toNat ≤ 126 := hhi
  have hne : c.toNat ≠ 32 := fun h => hspace (Char.toNat_inj.mp h)
  simp only [isWhiteSpace, Bool.or_eq_false_iff, Bool.and_eq_false_iff, decide_eq_false_iff_not,
    beq_eq_false_iff_ne]
  omega

section Feed

variable {service : FeedRebuildService Url} {source : Source} {table : ArticleTable}

omit [UrlSegments Url] [DecidableEq Url] [ScraperCrate] [Sha2Crate] [LawfulUrlCrate Url] in
/-- What is listed are articles that were selected, each once. -/
theorem listed_of_listForFeed {articles listed : List (Article Url)} {limit : UInt32}
    (h : service.listForFeed articles limit = .ok listed) :
    (∀ a ∈ listed, a ∈ articles) ∧
      ((articles.map Article.reviewId).Nodup → (listed.map Article.reviewId).Nodup) := by
  rw [FeedRebuildService.listForFeed] at h
  split_ifs at h
  obtain rfl := Except.ok.inj h
  have hperm := List.perm_insertionSort service.listOrder articles
  refine ⟨fun a ha => hperm.subset (List.mem_of_mem_take ha), fun hnodup => ?_⟩
  exact (((hperm.map Article.reviewId).nodup_iff.mpr hnodup).sublist
    ((List.take_sublist _ _).map Article.reviewId))

omit [UrlSegments Url] [DecidableEq Url] [ScraperCrate] [Sha2Crate] in
/-- **The feed of a clean table renders.** -/
theorem CleanTable.feedRenders {reviewIds : List String}
    (h : CleanTable Url source.id table reviewIds) (hservice : service.Composed)
    (hsource : source.Valid) (hname : IsXmlText source.displayName.toList) :
    FeedRenders service source table where
  readable := h.exists_selects
  renders articles hselects listed hlisted := by
    obtain ⟨hmem, hdistinct⟩ := listed_of_listForFeed hlisted
    have hrow : ∀ a ∈ listed, a.asNew.Normal ∧ IsXmlText a.reviewId.toList ∧ a.content.Clean := by
      intro a ha
      obtain ⟨reviewId, row, hrow, hdecode⟩ := (hselects.mem_iff a).mp (hmem a ha)
      have hkey := h.keys reviewId
      obtain ⟨hnormal, -, -, -, -⟩ := decodeArticle_inv hdecode
      have hreg : articleRegister Url table (source.id, reviewId)
          = some (a.observationVersion, a.content) := by
        simp only [articleRegister, hrow, hdecode]
      refine ⟨hnormal, ?_, hkey.content _ _ hreg⟩
      rw [hkey.reviewId_eq hrow hdecode]
      exact (hkey.named row hrow).2.2
    refine ⟨fun a ha => (hrow a ha).2.2.published, fun generatedAt expiresAt hexpiry => ?_⟩
    obtain ⟨root, hroot, hurl⟩ := hservice.root
    have hfilled : isBlank service.feedUrl = false := by
      rw [hurl]
      exact isBlank_asStr hroot
    have htext : IsXmlText service.feedUrl.toList := by
      rw [hurl]
      exact isXmlText_asStr root
    have hdescription : IsXmlText service.description.toList := by
      rw [hservice.description]
      exact forall_mem_of_all (by decide)
    refine (render_ok_iff _ _ _).mpr
      { source := hsource.id
        title_filled := hsource.name
        url_filled := hfilled
        title := hname
        url := htext
        description := hdescription
        expiry := hexpiry
        articles := fun article harticle => ?_
        distinct := ?_ }
    · obtain ⟨a, ha, rfl⟩ := List.mem_map.mp harticle
      obtain ⟨hnormal, hreview, hcontent⟩ := hrow a ha
      exact renderable_renderArticle service.uuid hnormal hreview hcontent service.assetUrlRoot
    · have hnodup := hdistinct hselects.distinct
      rw [FeedRebuildService.rebuildInput, List.map_map]
      exact hnodup

variable {clock : PageClock} {observed : List (Observation Url clock source.id)}

/-- **One upsert into an empty source is listed alone.** -/
theorem exists_single (o : Observation Url clock source.id) (statement : StatementClock)
    (sources : Uuid → Bool) (hs : sources source.id = true) :
    ∃ stored : Article Url,
      Selects ((articleMachine sources).exec (fun _ => none) [(statement, o.prepared.article)]).1
        source.id [stored] ∧
      stored.reviewId = o.prepared.article.reviewId ∧
      stored.content = o.prepared.article.content := by
  have hempty : Readable Url (fun _ => none) (source.id, o.prepared.article.reviewId) :=
    fun row hrow => by cases hrow
  obtain ⟨table', result, hstep, hpost⟩ := articleMachine_step o.observes hs hempty statement
  have htable : ((articleMachine sources).exec (fun _ => none)
      [(statement, o.prepared.article)]).1 = table' := congrArg Prod.fst hstep
  have hreg : articleRegister Url table' (source.id, o.prepared.article.reviewId)
      = some (o.prepared.article.observationVersion, o.prepared.article.content) :=
    hpost.register_eq
  cases hrow : table' (source.id, o.prepared.article.reviewId) with
  | none =>
    rw [articleRegister, hrow] at hreg
    cases hreg
  | some row =>
    obtain ⟨stored, hdecode⟩ := hpost.readable row hrow
    simp only [articleRegister, hrow, hdecode] at hreg
    obtain ⟨-, hcontent⟩ := Prod.mk.inj (Option.some.inj hreg)
    obtain ⟨-, -, hreview, -, -⟩ := decodeArticle_inv hdecode
    refine ⟨stored, ?_, hreview.trans o.prepared.normal.review.1, hcontent⟩
    rw [htable]
    refine ⟨List.nodup_singleton _, fun a => ?_⟩
    rw [List.mem_singleton]
    refine ⟨fun ha => ⟨_, row, hrow, ha ▸ hdecode⟩, ?_⟩
    rintro ⟨reviewId, row', hrow', hdecode'⟩
    by_cases hkey : (source.id, reviewId) = (source.id, o.prepared.article.reviewId)
    · rw [hkey] at hrow' hdecode'
      obtain rfl := Option.some.inj (hrow.symm.trans hrow')
      exact Except.ok.inj (hdecode'.symm.trans hdecode)
    · rw [hpost.frame _ hkey] at hrow'
      cases hrow'

omit [UrlSegments Url] [DecidableEq Url] [ScraperCrate] [Sha2Crate] [LawfulUrlCrate Url] in
/-- A source lists its only article. -/
theorem listForFeed_short {articles : List (Article Url)} (hshort : articles.length ≤ 1)
    (hsource : source.Valid) :
    service.listForFeed articles source.rssItemLimit = .ok articles := by
  have hpos : 1 ≤ source.rssItemLimit.toNat := by
    have hne : source.rssItemLimit.toNat ≠ 0 := fun h =>
      hsource.limit (UInt32.toNat_inj.mp (h.trans UInt32.toNat_zero.symm))
    omega
  rw [FeedRebuildService.listForFeed, if_neg hsource.limit]
  have hsorted : articles.insertionSort service.listOrder = articles := by
    rcases articles with _ | ⟨a, _ | ⟨b, rest⟩⟩
    · rfl
    · rw [List.insertionSort_cons, List.insertionSort_nil, List.orderedInsert_nil]
    · exact absurd hshort (by simp)
  rw [hsorted, List.take_of_length_le (hshort.trans hpos)]

/-- What an acceptable article tells about the texts it is prepared from. -/
theorem Acceptable.clean (h : Acceptable service source observed) (hsource : source.Valid)
    {o : Observation Url clock source.id} (ho : o ∈ observed) : o.Clean := by
  obtain ⟨stored, hselects, hreview, hcontent⟩ :=
    exists_single o ⟨0, 0⟩ (fun _ => true) rfl
  obtain ⟨-, hfeed⟩ := h.stored (fun _ => true) (fun _ => none) [(⟨0, 0⟩, o.prepared.article)] rfl
    (fun _ => rfl) fun u hu => ⟨o, ho, congrArg Prod.snd (List.mem_singleton.mp hu)⟩
  obtain ⟨hformats, hrenders⟩ := hfeed.renders [stored] hselects [stored]
    (listForFeed_short (le_refl 1) hsource)
  have hrendered := (render_ok_iff _ _ _).mp (hrenders 0 1 Int.one_pos)
  have harticle := hrendered.articles _ List.mem_cons_self
  refine Observation.clean_of_content (hreview ▸ harticle.review) (hcontent ▸ ?_) (h.storable o ho)
  have hpublished : FormatsRfc2822 stored.publishedAt := hformats stored List.mem_cons_self
  refine ⟨harticle.title, harticle.author, harticle.summary, ?_, hpublished⟩
  rw [hcontent]
  exact o.content_xml

theorem Acceptable.name (h : Acceptable service source observed) (hsource : source.Valid) :
    IsXmlText source.displayName.toList := by
  obtain ⟨-, hfeed⟩ := h.stored (fun _ => true) (fun _ => none) [] rfl (fun _ => rfl)
    fun _ hu => absurd hu List.not_mem_nil
  have hselects : Selects (fun _ => none) source.id ([] : List (Article Url)) :=
    ⟨List.nodup_nil, fun a => ⟨fun ha => absurd ha List.not_mem_nil, fun ⟨_, _, hrow, _⟩ => nomatch hrow⟩⟩
  obtain ⟨-, hrenders⟩ := hfeed.renders [] hselects [] (listForFeed_short (Nat.zero_le 1) hsource)
  exact ((render_ok_iff _ _ _).mp (hrenders 0 1 Int.one_pos)).title

/-- **Articles are taken by every later stage exactly when they are clean**: PostgreSQL stores them
and the feed of whatever upserts of them renders without a panic, if and only if the source's name is
an XML text and every observation is clean. -/
theorem articles_acceptable_iff [LawfulSha2Crate] (hservice : service.Composed)
    (hsource : source.Valid) :
    Acceptable service source observed ↔
      IsXmlText source.displayName.toList ∧ ∀ o ∈ observed, o.Clean := by
  refine ⟨fun h => ⟨h.name hsource, fun o ho => h.clean hsource ho⟩, fun ⟨hname, hclean⟩ => ?_⟩
  refine ⟨fun o ho => (hclean o ho).nulFree, fun sources table upserts hs hempty hupserts => ?_⟩
  obtain ⟨hok, htable⟩ := cleanTable_exec hs hempty upserts fun u hu => by
    obtain ⟨o, ho, hu⟩ := hupserts u hu
    exact ⟨o, hclean o ho, hu⟩
  exact ⟨hok, htable.feedRenders hservice hsource hname⟩

end Feed

end Observed

/-! ## An article with a summary -/

section Samples

open AssetRepository

attribute [local instance] plainDigest pageScraper

/-- An article list with one entry. -/
def listPayload (summary : String) : JsonValue :=
  .object [("data", .array [.object
    [("reviewId", .string "review"), ("title", .string "title"), ("content", .string summary),
      ("createTime", .number (.posInt 1700000000)),
      ("url", .string "https://mp.weixin.qq.com/s/a")]])]

/-- The entry, read. -/
def listedReference (summary : String) : WeReadArticleReference PlainUrl where
  reviewId := "review"
  articleUrl := some ⟨"https://mp.weixin.qq.com/s/a", canonicalArticleUrl_shortLink⟩
  title := some "title"
  summary := some summary
  author := none
  coverUrl := none
  publishedAt := some (1700000000 * 1000000000)

/-- A page with a body only. -/
def bodyDocument : PageDocument where
  select selector :=
    if selector = "#js_content" then some ⟨["text"], fun _ => none, "<p>text</p>"⟩ else none

/-- A clock that reads no date. -/
def blindClock : PageClock := ⟨fun _ _ => none, fun _ _ => none, fun _ => none⟩

/-- The page, extracted: its title and time are the entry's. -/
def bodyPage : ExtractedArticlePage PlainUrl where
  canonicalUrl := ⟨"https://mp.weixin.qq.com/s/a", canonicalArticleUrl_shortLink⟩
  title := "title"
  author := none
  summary := none
  publishedAt := some (1700000000 * 1000000000)
  contentHtml := "<p>text</p>"
  coverUrl := none

deriving instance DecidableEq for WeReadArticleReference, ExtractedArticlePage

theorem bodyPage_extracted : parseArticleHtmlWithFallback blindClock bodyDocument
    bodyPage.canonicalUrl (some "title") (some (1700000000 * 1000000000)) = .ok bodyPage := by
  decide +kernel

/-- The entry and the page, observed. -/
def observe (summary : String)
    (hlisted : parseArticleListPayload (listPayload summary) = .ok [listedReference summary])
    (hok : (prepareArticle ⟨7⟩ (listedReference summary) bodyPage 1 0).toOption.isSome = true) :
    Observation PlainUrl blindClock plainSource.id where
  reference := listedReference summary
  listed := ⟨_, _, hlisted, List.mem_cons_self⟩
  page := bodyPage
  extracted := ⟨bodyDocument, bodyPage.canonicalUrl, .inl bodyPage_extracted⟩
  observationVersion := 1
  version_le := by decide
  fetchedAt := 0
  prepared := (prepareArticle ⟨7⟩ (listedReference summary) bodyPage 1 0).toOption.get hok
  prepared_eq := eq_ok_get hok

/-- An article with a plain summary. -/
def plainObservation : Observation PlainUrl blindClock plainSource.id :=
  observe "a summary" (by decide +kernel) (by decide +kernel)

/-- An article whose summary holds U+0001, which JSON writes as an escape. -/
def spoiltObservation : Observation PlainUrl blindClock plainSource.id :=
  observe "a\x01b" (by decide +kernel) (by decide +kernel)

/-- The service of the plain source, composed. -/
def composedService : FeedRebuildService PlainUrl :=
  { plainService with description := "WeChat article feed" }

theorem composedService_composed : composedService.Composed where
  root := ⟨⟨"https://feeds.example/feed", by decide⟩, .inr rfl, rfl⟩
  description := rfl

theorem plainSource_valid : plainSource.Valid := ⟨by decide, by decide, by decide⟩

/-- The plain article is taken by every stage. -/
theorem articles_acceptable_plain :
    Acceptable composedService plainSource [plainObservation] := by
  refine (articles_acceptable_iff composedService_composed plainSource_valid).mpr
    ⟨forall_mem_of_all (by decide), fun o ho => ?_⟩
  rw [List.mem_singleton.mp ho]
  refine ⟨forall_mem_of_all (by decide), fun text ht => ?_, fun text ht => ?_, fun text ht => ?_,
    fun text ht => ?_, fun t ht => ?_⟩
  · have hfound : firstFilled [some "title", some "title"] = some "title" := by decide
    obtain rfl := Option.some.inj (hfound.symm.trans ht)
    exact forall_mem_of_all (by decide)
  · cases ht
  · have hfound : firstFilled [none, some "a summary"] = some "a summary" := by decide
    obtain rfl := Option.some.inj (hfound.symm.trans ht)
    exact forall_mem_of_all (by decide)
  · cases ht
  · obtain rfl := Option.some.inj ht
    decide

/-- The spoilt one is not: every rebuild of its feed fails. -/
theorem articles_not_acceptable_control :
    ¬ Acceptable composedService plainSource [spoiltObservation] := by
  intro h
  have hclean := h.clean plainSource_valid List.mem_cons_self
  have hfound : firstFilled [none, some "a\x01b"] = some "a\x01b" := by decide
  have hallowed := hclean.summary "a\x01b" hfound '\x01' (by decide)
  cases hallowed

end Samples

end Werrss
