import Werrss.Archive.UrlRewriter
import Werrss.Domain.Article

/-!
# Rss/Renderer — from a snapshot to RSS bytes

    articles ──validate, sort──▸ channel ──rss crate──▸ xml

The `rss` crate is a parameter: it writes markup of its own around the texts it is given, escapes
the texts of plain elements, and emits `description` and `content:encoded` as CDATA.
-/

open Machinery

namespace Werrss

/-- A normalized article row prepared for rendering. -/
structure RenderArticle where
  reviewId : String
  title : String
  author : Option String
  summary : Option String
  originalUrl : Option String
  publishedAt : DateTime
  contentHtml : Html
deriving DecidableEq

/-- All normalized values needed for one feed render. -/
structure RenderFeedInput where
  sourceId : Uuid
  title : String
  feedUrl : String
  description : String
  sourceRevision : ℕ
  generatedAt : DateTime
  expiresAt : DateTime
  articles : List RenderArticle

/-- Errors raised before a feed candidate can be constructed. -/
inductive RenderError
  | invalidSourceId
  | emptyField (field : String)
  | duplicateReviewId (reviewId : String)
  | invalidExpiry
  | invalidXmlCharacter (field : String)
deriving DecidableEq, Repr

/-! ## The rss crate -/

/-- An `rss::Item` as far as the renderer fills it. -/
structure RssItem where
  title : String
  guid : String
  isPermalink : Bool
  creators : List String
  description : Option String
  link : Option String
  pubDate : DateTime
  content : Html

/-- An `rss::Channel` as far as the renderer fills it. -/
structure RssChannel where
  title : String
  link : String
  description : String
  items : List RssItem

/-- Markup the crate writes by itself, with escaped texts inside: it begins with a tag and holds no
source attribute. -/
structure Markup (cs : Html) : Prop where
  opens : ∃ rest, cs = '<' :: rest
  quiet : ¬ srcMark <:+: cs

/-- **The writer of the `rss` crate**: markup around CDATA sections.  A CDATA section holds its text
verbatim unless the text holds the delimiter `]]>`, which is split. -/
structure RssWriter where
  channelOpening : RssChannel → Html
  itemOpening : RssItem → Html
  itemMiddle : RssItem → Html
  itemClosing : RssItem → Html
  channelClosing : RssChannel → Html
  cdata : Html → Html
  channelOpening_markup (channel : RssChannel) : Markup (channelOpening channel)
  itemOpening_markup (item : RssItem) : Markup (itemOpening item)
  itemMiddle_markup (item : RssItem) : Markup (itemMiddle item)
  itemClosing_markup (item : RssItem) : Markup (itemClosing item)
  channelClosing_markup (channel : RssChannel) : Markup (channelClosing channel)
  cdata_verbatim (text : Html) : ¬ "]]>".toList <:+: text →
    cdata text = "<![CDATA[".toList ++ text ++ "]]>".toList
  cdata_opens (text : Html) : ∃ rest, cdata text = '<' :: rest

namespace RssWriter

variable (writer : RssWriter)

/-- The description element, if there is one. -/
def descriptionXml (description : Option String) : Html :=
  description.elim [] fun description =>
    "<description>".toList ++ writer.cdata description.toList ++ "</description>".toList

/-- The elements of one item. -/
def itemXml (item : RssItem) : Html :=
  writer.itemOpening item ++ writer.descriptionXml item.description ++ writer.itemMiddle item
    ++ "<content:encoded>".toList ++ writer.cdata item.content ++ "</content:encoded>".toList
    ++ writer.itemClosing item

/-- `Channel::write_to`. -/
def writeTo (channel : RssChannel) : Html :=
  writer.channelOpening channel ++ channel.items.flatMap writer.itemXml
    ++ writer.channelClosing channel

end RssWriter

/-! ### A writer that computes

The crate's element order and escapes, for channels without creators whose items are dated to the
start of the epoch. -/

/-- The predefined entities. -/
def xmlEscapeChar (c : Char) : Html :=
  if c = '&' then "&amp;".toList
  else if c = '<' then "&lt;".toList
  else if c = '>' then "&gt;".toList
  else if c = '"' then "&quot;".toList
  else if c = '\'' then "&apos;".toList
  else [c]

/-- A plain text element. -/
def textElement (name : String) (text : String) : Html :=
  ('<' :: name.toList) ++ ['>'] ++ text.toList.flatMap xmlEscapeChar ++ ("</".toList ++ name.toList)
    ++ ['>']

/-- A text with every `]]>` split across two sections. -/
def splitSections : Html → Html
  | ']' :: ']' :: '>' :: text => "]]]]><![CDATA[>".toList ++ splitSections text
  | c :: text => c :: splitSections text
  | [] => []

theorem splitSections_of_verbatim {text : Html} (h : ¬ "]]>".toList <:+: text) :
    splitSections text = text := by
  fun_induction splitSections text with
  | case1 text ih => exact absurd ⟨[], text, rfl⟩ h
  | case2 c text hnot ih => rw [ih fun hin => h (hin.trans (List.suffix_cons _ _).isInfix)]
  | case3 => rfl

theorem quote_not_mem_xmlEscapeChar (c : Char) : '"' ∉ xmlEscapeChar c := by
  intro hc
  unfold xmlEscapeChar at hc
  split_ifs at hc with h1 h2 h3 h4 h5
  all_goals first
    | exact absurd hc (by decide)
    | exact h4 (List.mem_singleton.mp hc).symm

theorem quote_not_mem_textElement {name : String} (hname : '"' ∉ name.toList) (text : String) :
    '"' ∉ textElement name text := by
  simp [textElement, hname, quote_not_mem_xmlEscapeChar]

theorem quiet_of_quote_not_mem {cs : Html} (h : '"' ∉ cs) : ¬ srcMark <:+: cs :=
  fun hin => h (hin.subset (by decide))

/-- An opening tag with fixed attributes, and elements without any behind it. -/
theorem Markup.of_tag {tag rest : Html} (hopens : ∃ cs, tag = '<' :: cs) (htag : ¬ srcMark <:+: tag)
    (hrest : '"' ∉ rest) : Markup (tag ++ '>' :: rest) := by
  have hbar : '>' ∉ srcMark := by decide
  obtain ⟨cs, rfl⟩ := hopens
  refine ⟨⟨_, rfl⟩, fun hin => ?_⟩
  rcases Scan.infix_barrier hbar hin with hin | hin
  · exact htag hin
  · exact quiet_of_quote_not_mem hrest hin

/-- **A writer**: the crate's, for the channels described above. -/
def plainWriter : RssWriter where
  channelOpening channel :=
    "<rss version=\"2.0\" xmlns:content=\"http://purl.org/rss/1.0/modules/content/\"".toList
      ++ '>' :: ("<channel>".toList ++ textElement "title" channel.title
        ++ textElement "link" channel.link ++ textElement "description" channel.description)
  itemOpening item :=
    "<item".toList ++ '>' :: (textElement "title" item.title
      ++ item.link.elim [] (textElement "link"))
  itemMiddle item :=
    "<guid isPermaLink=\"false\"".toList ++ '>' :: (item.guid.toList.flatMap xmlEscapeChar
      ++ "</guid>".toList ++ textElement "pubDate" "Thu, 1 Jan 1970 00:00:00 +0000")
  itemClosing _ := "</item".toList ++ ['>']
  channelClosing _ := "</channel".toList ++ '>' :: "</rss>".toList
  cdata text := "<![CDATA[".toList ++ splitSections text ++ "]]>".toList
  channelOpening_markup channel := by
    refine .of_tag ⟨_, rfl⟩ (by decide +kernel) ?_
    simp [quote_not_mem_textElement]
  itemOpening_markup item := by
    refine .of_tag ⟨_, rfl⟩ (by decide) ?_
    cases item.link <;> simp [quote_not_mem_textElement]
  itemMiddle_markup item := by
    refine .of_tag ⟨_, rfl⟩ (by decide) ?_
    simp [quote_not_mem_textElement, quote_not_mem_xmlEscapeChar]
  itemClosing_markup _ := .of_tag ⟨_, rfl⟩ (by decide) (by decide)
  channelClosing_markup _ := .of_tag ⟨_, rfl⟩ (by decide) (by decide)
  cdata_verbatim text h := by rw [splitSections_of_verbatim h]
  cdata_opens _ := ⟨_, rfl⟩

/-! ## Rendering -/

/-- `non_empty`. -/
def nonEmpty (value : Option String) : Option String := value.filter fun value => !isBlank value

/-- `to_rss_item`. -/
def toRssItem (article : RenderArticle) : RssItem where
  title := article.title
  guid := article.reviewId
  isPermalink := false
  creators := (nonEmpty article.author).toList
  description := nonEmpty article.summary
  link := nonEmpty article.originalUrl
  pubDate := article.publishedAt
  content := article.contentHtml

def validateRequiredText (field value : String) : Except RenderError Unit :=
  if isBlank value then .error (.emptyField field) else .ok ()

def validateXmlText (field : String) (value : Html) : Except RenderError Unit :=
  if value.any fun c => !isAllowedHtmlCharacter c then .error (.invalidXmlCharacter field)
  else .ok ()

/-- `validate_xml_text` on an optional field. -/
def validateXmlOption (field : String) (value : Option String) : Except RenderError Unit :=
  match value with
  | none => .ok ()
  | some value => validateXmlText field value.toList

/-- The checks of `validate_input` on one article. -/
def validateArticle (article : RenderArticle) : Except RenderError Unit := do
  validateRequiredText "article review_id" article.reviewId
  validateRequiredText "article title" article.title
  validateXmlText "article review_id" article.reviewId.toList
  validateXmlText "article title" article.title.toList
  validateXmlText "article content_html" article.contentHtml
  validateXmlOption "article author" article.author
  validateXmlOption "article summary" article.summary
  validateXmlOption "article original_url" article.originalUrl

/-- The article loop of `validate_input`, with the review ids seen so far. -/
def validateArticles : List String → List RenderArticle → Except RenderError Unit
  | _, [] => .ok ()
  | seen, article :: articles => do
    validateArticle article
    if article.reviewId ∈ seen then .error (.duplicateReviewId article.reviewId)
    else validateArticles (article.reviewId :: seen) articles

/-- `validate_input`. -/
def validateInput (input : RenderFeedInput) : Except RenderError Unit := do
  if input.sourceId = Uuid.nil then .error .invalidSourceId
  validateRequiredText "title" input.title
  validateRequiredText "feed_url" input.feedUrl
  validateXmlText "title" input.title.toList
  validateXmlText "feed_url" input.feedUrl.toList
  validateXmlText "description" input.description.toList
  if input.expiresAt ≤ input.generatedAt then .error .invalidExpiry
  validateArticles [] input.articles

/-- Publication time descending, then review id ascending. -/
def feedOrder (left right : RenderArticle) : Bool :=
  left.publishedAt > right.publishedAt
    || (left.publishedAt == right.publishedAt && decide (left.reviewId ≤ right.reviewId))

/-- The channel of a validated input. -/
def renderChannel (input : RenderFeedInput) : RssChannel where
  title := input.title
  link := input.feedUrl
  description := input.description
  items := (input.articles.mergeSort feedOrder).map toRssItem

/-- A rendered document waiting for fenced publication. -/
structure FeedCacheCandidate where
  sourceId : Uuid
  xml : Html
  etag : String
  generatedAt : DateTime
  expiresAt : DateTime
  feedRevision : ℕ
  contentHash : String
deriving DecidableEq

/-- `RssRenderer::render`; `digest` is the hexadecimal SHA-256 of the bytes. -/
def render (writer : RssWriter) (digest : Html → String) (input : RenderFeedInput) :
    Except RenderError FeedCacheCandidate :=
  match validateInput input with
  | .error e => .error e
  | .ok () =>
    let xml := writer.writeTo (renderChannel input)
    .ok
      { sourceId := input.sourceId
        xml := xml
        etag := "sha256:" ++ digest xml
        generatedAt := input.generatedAt
        expiresAt := input.expiresAt
        feedRevision := input.sourceRevision
        contentHash := digest xml }

/-! ## From stored articles -/

section Articles

variable {Url : Type} [UrlCrate Url] (uuid : UuidParser)

/-- `render_article`. -/
def renderArticle (article : Article Url) (assetUrlRoot : Option Url) : RenderArticle where
  reviewId := article.reviewId
  title := article.title
  author := article.author
  summary := article.summary
  originalUrl := article.originalUrl.map VerifiedWechatArticleUrl.asStr
  publishedAt := article.publishedAt
  contentHtml := match assetUrlRoot with
    | none => article.contentHtml.toList
    | some root => absolutizeAssetUrls uuid article.contentHtml.toList root

end Articles

end Werrss
