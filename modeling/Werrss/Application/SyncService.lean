import Werrss.Domain.Article
import Werrss.Archive.AssetStore
import Werrss.Archive.UrlRewriter

/-!
# Application/SyncService — from an extracted page to a prepared article

    page HTML ──parse──▸ tree ──sanitize──▸ HTML, image URLs
    reference + page ──prefer the page──▸ NewArticle ──normalize──▸ PreparedArticle

A prepared article carries what preparation guarantees: its HTML is sanitized text, its fields are
normalized, and its fetched assets name the images in their order of occurrence.
-/

open Machinery

namespace Werrss

/-! ## Archiving -/

/-- The `scraper` crate: the tree an HTML fragment parses to. -/
class ScraperCrate where
  parseFragment : String → DomTree

/-- The bytes of a text. -/
def utf8Bytes (text : String) : List UInt8 := text.toList.flatMap String.utf8EncodeChar

/-- `sha256_hex`, of a text. -/
def sha256Text [Sha2Crate] (text : String) : String := Sha2Crate.sha256Hex (utf8Bytes text)

structure ArchivedContent (Url : Type) where
  html : String
  contentHash : Option String
  externalAssets : List Url

section Archive

variable {Url : Type} [UrlCrate Url] [DecidableEq Url] [ScraperCrate] [Sha2Crate]

/-- `ArchiveService::archive`. -/
def archive (rawHtml : String) : ArchivedContent Url :=
  let sanitized : Renderer Url := Renderer.sanitize (ScraperCrate.parseFragment rawHtml)
  let html := String.ofList sanitized.html
  ⟨html, if html = "" then none else some (sha256Text html), sanitized.externalAssets⟩

end Archive

/-! ## Preparing an article -/

/-- No assets are in order. -/
theorem ordered_nil {Url : Type} :
    ([] : List (AssetInput Url)).Pairwise fun a b => a.occurrence < b.occurrence := .nil

section Prepare

variable (Url : Type) [UrlCrate Url]

structure ExtractedArticlePage where
  canonicalUrl : VerifiedWechatArticleUrl Url
  title : String
  author : Option String
  summary : Option String
  publishedAt : Option DateTime
  contentHtml : String
  coverUrl : Option String

structure WeReadArticleReference where
  reviewId : String
  articleUrl : Option (VerifiedWechatArticleUrl Url)
  title : Option String
  summary : Option String
  author : Option String
  coverUrl : Option String
  publishedAt : Option DateTime

inductive SyncServiceError
  | article (error : ArticleError)
  | missingPublishedAt
deriving DecidableEq, Repr

/-- **One article prepared for its transaction.** -/
structure PreparedArticle [DecidableEq Url] where
  article : NewArticle Url
  externalAssets : List Url
  fetchedAssets : List (AssetInput Url)
  normal : article.Normal
  sanitized : ∃ document : DomTree,
    article.contentHtml.toList = (Renderer.sanitize document : Renderer Url).html
  /-- `fetch_assets` numbers the images it tries -/
  ordered : fetchedAssets.Pairwise fun a b => a.occurrence < b.occurrence

variable {Url}

/-- `preferred_text_option`. -/
def preferredTextOption (primary fallback : Option String) : Option String :=
  (primary.filter fun value => !isBlank value).or (fallback.filter fun value => !isBlank value)

/-- `preferred_text`. -/
def preferredText (primary : String) (fallback : Option String) : String :=
  (preferredTextOption (some primary) fallback).getD ""

/-- The article `prepare_article` normalizes. -/
def observedArticle (sourceId : Uuid) (reference : WeReadArticleReference Url)
    (page : ExtractedArticlePage Url) (publishedAt : DateTime) (archived : ArchivedContent Url)
    (observationVersion : ℕ) (fetchedAt : DateTime) : NewArticle Url where
  sourceId := sourceId
  reviewId := reference.reviewId
  title := preferredText page.title reference.title
  author := preferredTextOption page.author reference.author
  summary := preferredTextOption page.summary reference.summary
  coverUrl := preferredTextOption page.coverUrl reference.coverUrl
  originalUrl := some page.canonicalUrl
  publishedAt := publishedAt
  contentHtml := archived.html
  contentHash := archived.contentHash
  observationVersion := observationVersion
  fetchedAt := fetchedAt

/-- Normalizing leaves the HTML alone. -/
theorem contentHtml_of_normalize {a n : NewArticle Url} (h : a.normalize = .ok n) :
    n.contentHtml = a.contentHtml := by
  unfold NewArticle.normalize at h
  split_ifs at h
  obtain rfl := Except.ok.inj h
  rfl

variable [DecidableEq Url] [ScraperCrate] [Sha2Crate]

/-- `prepare_article`. -/
def prepareArticle (sourceId : Uuid) (reference : WeReadArticleReference Url)
    (page : ExtractedArticlePage Url) (observationVersion : ℕ) (fetchedAt : DateTime) :
    Except SyncServiceError (PreparedArticle Url) :=
  let archived : ArchivedContent Url := archive page.contentHtml
  match page.publishedAt.or reference.publishedAt with
  | none => .error .missingPublishedAt
  | some publishedAt =>
    match h : (observedArticle sourceId reference page publishedAt archived observationVersion
        fetchedAt).normalize with
    | .error e => .error (.article e)
    | .ok article =>
      .ok
        { article := article
          externalAssets := archived.externalAssets
          fetchedAssets := []
          normal := NewArticle.normal_of_normalize h
          sanitized := ⟨ScraperCrate.parseFragment page.contentHtml, by
            rw [contentHtml_of_normalize h]
            exact String.toList_ofList⟩
          ordered := .nil }

/-- `PreparedArticle::with_fetched_assets`. -/
def PreparedArticle.withFetchedAssets (prepared : PreparedArticle Url)
    (fetchedAssets : List (AssetInput Url))
    (ordered : fetchedAssets.Pairwise fun a b => a.occurrence < b.occurrence) :
    PreparedArticle Url :=
  { prepared with fetchedAssets := fetchedAssets, ordered := ordered }

end Prepare

/-! ## Deciding on the assets of an observation -/

section Assets

variable {Url : Type} [UrlCrate Url] [DecidableEq Url]

/-- `complete_asset_set`. -/
def completeAssetSet (externalAssets : List Url) (fetchedAssets : List (AssetInput Url)) : Bool :=
  externalAssets.length == fetchedAssets.length
    && externalAssets.all (fun url => !hasProviderSignature url)
    && fetchedAssets.all (fun asset => !hasProviderSignature asset.sourceUrl
      && !hasProviderSignature asset.finalUrl && !hasProviderSignature asset.refererUrl)
    && externalAssets.zipIdx.all fun (url, index) => decide (index < UInt32.size)
      && (fetchedAssets.filter fun asset =>
        asset.occurrence = index ∧ asset.sourceUrl = url).length == 1

/-- `html.contains("/assets/")`. -/
def mentionsAssets (html : String) : Bool := (Scan.cutAt "/assets/".toList html.toList).isSome

/-- `should_preserve_cached_asset_representation`. -/
def shouldPreserveCachedAssetRepresentation (currentContentHtml : Option String)
    (externalAssets : List Url) (fetchedAssets : List (AssetInput Url)) : Bool :=
  !completeAssetSet externalAssets fetchedAssets && currentContentHtml.any mentionsAssets

omit [DecidableEq Url] in
/-- `should_reconcile_assets`. -/
def shouldReconcileAssets (incoming : NewArticle Url) (persistedVersion : ℕ) : Bool :=
  incoming.contentHtml ≠ "" && incoming.observationVersion == persistedVersion

end Assets

end Werrss
