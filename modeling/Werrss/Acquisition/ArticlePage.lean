import Werrss.Application.SyncService

/-!
# Acquisition/ArticlePage — the fields of a rendered article page

    page ──selectors──▸ title, author, summary, time, body, cover

What the `scraper` crate answers about one page is a parameter, as are the date formats of `chrono`
and the configured time zone.  The texts of the page are trimmed and joined; which characters they
hold is not looked at.
-/

open Machinery

namespace Werrss

/-- One element of a page: its text nodes, its attributes and its inner HTML. -/
structure PageElement where
  text : List String
  attr : String → Option String
  innerHtml : String

/-- A parsed page: for a selector, its first element. -/
structure PageDocument where
  select : String → Option PageElement

/-- The readings of a local time: `NaiveDateTime::parse_from_str` and `NaiveDate::parse_from_str` by
text and format, and the time zone's unambiguous instant.  Local times and instants are in whole
seconds. -/
structure PageClock where
  parseDateTime : String → String → Option ℤ
  parseDate : String → String → Option ℤ
  single : ℤ → Option ℤ

/-- Failures of the extraction. -/
inductive ArticlePageError
  | invalidExtraction (message : String)
  | verificationRequired
deriving DecidableEq, Repr

/-! ## Texts -/

/-- `split_whitespace` and `join(" ")`. -/
def joinWords (cs : List Char) : List Char :=
  [' '].intercalate ((cs.splitOnP isWhiteSpace).filter (· ≠ []))

/-- `element_text`. -/
def elementText (element : PageElement) : String :=
  String.ofList (joinWords ([' '].intercalate (element.text.map String.toList)))

namespace PageDocument

variable (document : PageDocument)

/-- `first_text`: the first selector that finds an element decides. -/
def firstText (selectors : List String) : Option String :=
  ((selectors.findSome? document.select).map elementText).filter (· ≠ "")

/-- `first_attribute`. -/
def firstAttribute (selector name : String) : Option String :=
  (((document.select selector).bind fun element => element.attr name).map trim).filter (· ≠ "")

/-- `is_verification_page`. -/
def isVerificationPage : Bool :=
  (document.select "#js_verify").isSome ||
    (document.firstText ["h2.weui-msg__title"]).any fun title =>
      (Scan.cutAt "环境异常".toList title.toList).isSome
        || (Scan.cutAt "验证".toList title.toList).isSome

end PageDocument

/-! ## The publication time -/

/-- `parse_publication_time`. -/
def parsePublicationTime (clock : PageClock) (value : String) : Except ArticlePageError DateTime :=
  let value := trim value
  let parsed := (clock.parseDateTime value "%Y-%m-%d %H:%M:%S").or <|
    (clock.parseDateTime value "%Y-%m-%d %H:%M").or <|
    (clock.parseDateTime value "%Y年%m月%d日 %H:%M:%S").or <|
    (clock.parseDateTime value "%Y年%m月%d日 %H:%M").or <|
    clock.parseDate value "%Y-%m-%d"
  match parsed with
  | none => .error (.invalidExtraction ("article publication time is invalid: " ++ value))
  | some wallTime =>
    match clock.single wallTime with
    | none =>
      .error (.invalidExtraction "article publication time is ambiguous in configured timezone")
    | some seconds => .ok (seconds * 1000000000)

theorem whole_of_parsePublicationTime {clock : PageClock} {value : String} {t : DateTime}
    (h : parsePublicationTime clock value = .ok t) : (1000000000 : ℤ) ∣ t := by
  simp only [parsePublicationTime] at h
  split at h
  · cases h
  · split at h
    · cases h
    · obtain rfl := Except.ok.inj h
      exact Int.dvd_mul_left _ _

/-- The time a page shows, read. -/
def pagePublishedAt (clock : PageClock) (document : PageDocument) :
    Except ArticlePageError (Option DateTime) :=
  match document.firstText ["#publish_time"] with
  | none => .ok none
  | some value => (parsePublicationTime clock value).map some

theorem whole_of_pagePublishedAt {clock : PageClock} {document : PageDocument}
    {published : Option DateTime} (h : pagePublishedAt clock document = .ok published) :
    ∀ t ∈ published, (1000000000 : ℤ) ∣ t := by
  rw [pagePublishedAt] at h
  split at h
  · obtain rfl := Except.ok.inj h
    exact fun _ ht => by cases ht
  · rename_i value _
    intro t ht
    cases htime : parsePublicationTime clock value with
    | error e =>
      rw [htime] at h
      cases h
    | ok time =>
      rw [htime] at h
      obtain rfl := Except.ok.inj h
      obtain rfl := Option.some.inj ht
      exact whole_of_parsePublicationTime htime

/-! ## The page -/

section Page

variable {Url : Type} [UrlCrate Url]

/-- `parse_article_html_with_fallback`, on the parsed page. -/
def parseArticleHtmlWithFallback (clock : PageClock) (document : PageDocument)
    (canonicalUrl : VerifiedWechatArticleUrl Url) (fallbackTitle : Option String)
    (fallbackPublishedAt : Option DateTime) :
    Except ArticlePageError (ExtractedArticlePage Url) :=
  if document.isVerificationPage then .error .verificationRequired
  else
    let title := (document.firstText ["#activity-name", "h1.rich_media_title", "#js_title"]).or <|
      (document.firstAttribute "meta[property='og:title']" "content").or <|
      (document.firstText ["title"]).or ((fallbackTitle.map trim).filter (· ≠ ""))
    match title with
    | none => .error (.invalidExtraction "article title is missing")
    | some title =>
    match (document.select "#js_content").or <| (document.select ".rich_media_content").or <|
        document.select "#js_article" with
    | none => .error (.invalidExtraction "article body is missing")
    | some content =>
    let contentHtml := trim content.innerHtml
    if contentHtml = "" then .error (.invalidExtraction "article body is empty")
    else do
      let published ← pagePublishedAt clock document
      .ok
        { canonicalUrl := canonicalUrl
          title := title
          author := (document.firstText
            ["#js_name", "#js_author_name", "span.rich_media_meta_text"]).or
              (document.firstAttribute "meta[property='og:article:author']" "content")
          summary := (document.firstAttribute "meta[name='description']" "content").or
            (document.firstAttribute "meta[property='og:description']" "content")
          publishedAt := published.or fallbackPublishedAt
          contentHtml := contentHtml
          coverUrl := (document.firstAttribute "meta[property='og:image']" "content").or
            (document.firstAttribute "meta[property='twitter:image']" "content") }

/-- `parse_article_html`. -/
def parseArticleHtml (clock : PageClock) (document : PageDocument)
    (canonicalUrl : VerifiedWechatArticleUrl Url) :
    Except ArticlePageError (ExtractedArticlePage Url) :=
  parseArticleHtmlWithFallback clock document canonicalUrl none none

/-- **A page is dated to a whole second**, if its fallback is. -/
theorem whole_of_parseArticleHtmlWithFallback {clock : PageClock} {document : PageDocument}
    {canonicalUrl : VerifiedWechatArticleUrl Url} {fallbackTitle : Option String}
    {fallbackPublishedAt : Option DateTime}
    (hfallback : ∀ t ∈ fallbackPublishedAt, (1000000000 : ℤ) ∣ t) {page : ExtractedArticlePage Url}
    (h : parseArticleHtmlWithFallback clock document canonicalUrl fallbackTitle fallbackPublishedAt
      = .ok page) : ∀ t ∈ page.publishedAt, (1000000000 : ℤ) ∣ t := by
  simp only [parseArticleHtmlWithFallback] at h
  split_ifs at h
  split at h
  · cases h
  split at h
  · cases h
  split_ifs at h
  obtain ⟨published, hpublished, h⟩ := bind_eq_ok h
  obtain rfl := Except.ok.inj h
  intro t ht
  rcases Option.or_eq_some_iff.mp ht with rfl | ⟨-, ht⟩
  · exact whole_of_pagePublishedAt hpublished t rfl
  · exact hfallback t ht

end Page

end Werrss
