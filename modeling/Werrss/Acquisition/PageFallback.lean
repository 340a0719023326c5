import Werrss.Acquisition.ArticlePage

/-!
# Acquisition/PageFallback — which candidate of a page is taken

    #activity-name   h1.rich_media_title   #js_title   og:title   <title>   list
        absent             blank              "News"
                             ▴ found first        ▴ first usable

`first_text` looks for the first candidate that is there, and only then whether it reads anything:
**a candidate that is there but blank hides the ones after it in its list.**  The same holds of the
body.  Where nothing is hidden, the first usable candidate is taken.
-/

open Machinery

namespace Werrss

/-- A document tree: for a selector, its elements in document order. -/
structure PageTree where
  selectAll : String → List PageElement

/-- What the extraction asks of a tree. -/
def PageTree.document (tree : PageTree) : PageDocument :=
  ⟨fun selector => (tree.selectAll selector).head?⟩

/-! ## The candidates -/

/-- The places of a title. -/
def titleSelectors : List String := ["#activity-name", "h1.rich_media_title", "#js_title"]

/-- The places of an author. -/
def authorSelectors : List String := ["#js_name", "#js_author_name", "span.rich_media_meta_text"]

/-- The places of a body. -/
def bodySelectors : List String := ["#js_content", ".rich_media_content", "#js_article"]

namespace PageDocument

variable (document : PageDocument)

/-- A title from elsewhere: the page's metadata, its `title` element, the list. -/
def otherTitle (fallbackTitle : Option String) : Option String :=
  (document.firstAttribute "meta[property='og:title']" "content").or <|
    (document.firstText ["title"]).or ((fallbackTitle.map trim).filter (· ≠ ""))

/-- The title that is extracted. -/
def pageTitle (fallbackTitle : Option String) : Option String :=
  (document.firstText titleSelectors).or (document.otherTitle fallbackTitle)

/-- An author from elsewhere. -/
def otherAuthor : Option String :=
  document.firstAttribute "meta[property='og:article:author']" "content"

/-- The author that is extracted. -/
def pageAuthor : Option String := (document.firstText authorSelectors).or document.otherAuthor

/-- The body element that is taken. -/
def bodyElement : Option PageElement :=
  (document.select "#js_content").or <| (document.select ".rich_media_content").or <|
    document.select "#js_article"

/-- The body that is extracted. -/
def pageBody : Option String :=
  (document.bodyElement.map fun element => trim element.innerHtml).filter (· ≠ "")

/-! ## The first usable candidate -/

/-- **The first usable text**: of the first selector whose first element is not blank. -/
def usableText (selectors : List String) : Option String :=
  selectors.findSome? fun selector => ((document.select selector).map elementText).filter (· ≠ "")

/-- The first usable title. -/
def usableTitle (fallbackTitle : Option String) : Option String :=
  (document.usableText titleSelectors).or (document.otherTitle fallbackTitle)

/-- The first usable author. -/
def usableAuthor : Option String := (document.usableText authorSelectors).or document.otherAuthor

/-- **A blank element hides a usable one**: the first that is found reads nothing, another selector
of the list finds one that does. -/
def Hides (selectors : List String) : Prop :=
  (∃ element, selectors.findSome? document.select = some element ∧ elementText element = "") ∧
    ∃ selector ∈ selectors, ∃ element, document.select selector = some element ∧
      elementText element ≠ ""

variable {document} {selectors : List String} {element : PageElement}

/-- The first element that is found, if it reads something, is the first usable one. -/
theorem usableText_of_findSome (hfound : selectors.findSome? document.select = some element)
    (htext : elementText element ≠ "") :
    document.usableText selectors = some (elementText element) := by
  obtain ⟨before, selector, after, rfl, hselect, hbefore⟩ := List.findSome?_eq_some_iff.mp hfound
  refine List.findSome?_eq_some_iff.mpr ⟨before, selector, after, rfl, ?_, fun earlier hmem => ?_⟩
  · rw [hselect, Option.map_some, Option.filter_some, if_pos (decide_eq_true htext)]
  · rw [hbefore earlier hmem]
    rfl

theorem usableText_eq_none_iff : document.usableText selectors = none ↔
    ∀ selector ∈ selectors, ∀ element, document.select selector = some element →
      elementText element = "" := by
  rw [usableText, List.findSome?_eq_none_iff]
  refine forall₂_congr fun selector _ => ?_
  rw [Option.filter_eq_none_iff]
  simp only [Option.map_eq_some_iff, forall_exists_index, and_imp,
    forall_apply_eq_imp_iff₂, decide_eq_true_eq, not_not]

/-- **The text that is taken is the first usable one, unless a blank element hides it.** -/
theorem firstText_eq_usableText_iff :
    document.firstText selectors = document.usableText selectors ↔ ¬document.Hides selectors := by
  cases hfound : selectors.findSome? document.select with
  | none =>
    have hnone := List.findSome?_eq_none_iff.mp hfound
    refine iff_of_true ?_ fun hhides => ?_
    · rw [firstText, hfound]
      refine (usableText_eq_none_iff.mpr fun selector hmem element hselect => ?_).symm
      rw [hnone selector hmem] at hselect
      exact nomatch hselect
    · obtain ⟨⟨element, hselect, -⟩, -⟩ := hhides
      rw [hfound] at hselect
      exact nomatch hselect
  | some element =>
    rw [firstText, hfound, Option.map_some, Option.filter_some]
    by_cases htext : elementText element = ""
    · rw [if_neg (by simpa using htext), Hides, hfound, eq_comm, usableText_eq_none_iff, not_and_or]
      refine ⟨fun hall => .inr ?_, fun hor => ?_⟩
      · rintro ⟨selector, hmem, other, hselect, hother⟩
        exact hother (hall selector hmem other hselect)
      · intro selector hmem other hselect
        rcases hor with hblank | hother
        · exact absurd ⟨element, rfl, htext⟩ hblank
        · by_contra hne
          exact hother ⟨selector, hmem, other, hselect, hne⟩
    · rw [if_pos (by simpa using htext), usableText_of_findSome hfound htext]
      refine iff_of_true rfl fun hhides => ?_
      obtain ⟨⟨first, hfirst, hblank⟩, -⟩ := hhides
      rw [hfound] at hfirst
      obtain rfl := Option.some.inj hfirst
      exact htext hblank

/-- A list whose first usable text is hidden yields nothing. -/
theorem Hides.firstText (h : document.Hides selectors) : document.firstText selectors = none := by
  obtain ⟨⟨element, hfound, hblank⟩, -⟩ := h
  rw [PageDocument.firstText, hfound, Option.map_some, Option.filter_some,
    if_neg (by simpa using hblank)]

/-- **With a candidate from elsewhere behind a list**: the right one is taken unless it is hidden,
or if what is taken instead reads the same. -/
theorem or_eq_or_iff (other : Option String) :
    (document.firstText selectors).or other = (document.usableText selectors).or other ↔
      ¬document.Hides selectors ∨ other = document.usableText selectors := by
  by_cases hhides : document.Hides selectors
  · obtain ⟨-, selector, hmem, element, hselect, htext⟩ := id hhides
    cases husable : document.usableText selectors with
    | none => exact absurd (usableText_eq_none_iff.mp husable selector hmem element hselect) htext
    | some text =>
      rw [hhides.firstText, Option.none_or, Option.some_or]
      exact ⟨.inr, fun h => h.resolve_left (not_not.mpr hhides)⟩
  · rw [firstText_eq_usableText_iff.mpr hhides]
    exact iff_of_true rfl (.inl hhides)

end PageDocument

/-! ## The law -/

variable {tree : PageTree}

/-- Some body selector matches an element with inner HTML. -/
def UsableBody (tree : PageTree) : Prop :=
  ∃ selector ∈ bodySelectors, ∃ element ∈ tree.selectAll selector, trim element.innerHtml ≠ ""

/-- **A blank body hides a usable one.** -/
def HidesBody (tree : PageTree) : Prop :=
  (∃ element, tree.document.bodyElement = some element ∧ trim element.innerHtml = "") ∧
    UsableBody tree

/-- **The first usable candidates are taken.** -/
structure FallsBack (tree : PageTree) (fallbackTitle : Option String) : Prop where
  title : tree.document.pageTitle fallbackTitle = tree.document.usableTitle fallbackTitle
  author : tree.document.pageAuthor = tree.document.usableAuthor
  body : UsableBody tree → tree.document.pageBody ≠ none

/-- Where a usable body is, some body is found. -/
theorem UsableBody.bodyElement (h : UsableBody tree) : tree.document.bodyElement ≠ none := by
  obtain ⟨selector, hselector, element, helement, -⟩ := h
  have hselect : tree.document.select selector ≠ none := fun hnone =>
    List.ne_nil_of_mem helement (List.head?_eq_none_iff.mp hnone)
  intro hnone
  rw [PageDocument.bodyElement, Option.or_eq_none_iff, Option.or_eq_none_iff] at hnone
  obtain ⟨hcontent, hrich, harticle⟩ := hnone
  simp only [bodySelectors, List.mem_cons, List.not_mem_nil, or_false] at hselector
  rcases hselector with rfl | rfl | rfl
  · exact hselect hcontent
  · exact hselect hrich
  · exact hselect harticle

/-- **A usable body is extracted, unless a blank one hides it.** -/
theorem pageBody_iff : (UsableBody tree → tree.document.pageBody ≠ none) ↔ ¬HidesBody tree := by
  constructor
  · rintro hbody ⟨⟨element, helement, hblank⟩, husable⟩
    refine hbody husable ?_
    rw [PageDocument.pageBody, helement, Option.map_some, Option.filter_some,
      if_neg (by simpa using hblank)]
  · intro hhides husable
    obtain ⟨element, helement⟩ := Option.ne_none_iff_exists'.mp husable.bodyElement
    have htext : trim element.innerHtml ≠ "" := fun hblank =>
      hhides ⟨⟨element, helement, hblank⟩, husable⟩
    rw [PageDocument.pageBody, helement, Option.map_some, Option.filter_some,
      if_pos (by simpa using htext)]
    exact Option.some_ne_none _

/-- **When the law holds**: in no list a blank candidate hides a usable one, but where what is taken
instead reads the same. -/
def Unhidden (tree : PageTree) (fallbackTitle : Option String) : Prop :=
  (¬tree.document.Hides titleSelectors ∨
      tree.document.otherTitle fallbackTitle = tree.document.usableText titleSelectors) ∧
    (¬tree.document.Hides authorSelectors ∨
      tree.document.otherAuthor = tree.document.usableText authorSelectors) ∧
    ¬HidesBody tree

theorem fallsBack_iff {fallbackTitle : Option String} :
    FallsBack tree fallbackTitle ↔ Unhidden tree fallbackTitle := by
  refine ⟨fun h => ⟨?_, ?_, ?_⟩, fun ⟨htitle, hauthor, hbody⟩ => ⟨?_, ?_, ?_⟩⟩
  · exact (PageDocument.or_eq_or_iff _).mp h.title
  · exact (PageDocument.or_eq_or_iff _).mp h.author
  · exact pageBody_iff.mp h.body
  · exact (PageDocument.or_eq_or_iff _).mpr htitle
  · exact (PageDocument.or_eq_or_iff _).mpr hauthor
  · exact pageBody_iff.mpr hbody

/-! ## What the extraction answers -/

section Outcome

variable {Url : Type} [UrlCrate Url] {clock : PageClock} {document : PageDocument}
  {canonicalUrl : VerifiedWechatArticleUrl Url} {fallbackTitle : Option String}
  {fallbackPublishedAt : Option DateTime}

/-- A time that cannot be read is no missing title. -/
theorem pagePublishedAt_ne_missing :
    pagePublishedAt clock document ≠ .error (.invalidExtraction "article title is missing") := by
  rw [pagePublishedAt]
  split
  · intro h
    cases h
  · rename_i value hvalue
    rw [parsePublicationTime]
    split
    · intro h
      have hmessage := ArticlePageError.invalidExtraction.inj (Except.error.inj h)
      have htake := congrArg (fun message : String => message.toList.take 9) hmessage
      rw [String.toList_append, List.take_append_of_le_length (by decide)] at htake
      exact absurd htake (by decide)
    · split
      · intro h
        have hmessage := ArticlePageError.invalidExtraction.inj (Except.error.inj h)
        exact absurd hmessage (by decide)
      · intro h
        cases h

/-- The page that is shown, from its title, body and time. -/
def extractedPage (document : PageDocument) (canonicalUrl : VerifiedWechatArticleUrl Url)
    (title contentHtml : String) (publishedAt : Option DateTime) : ExtractedArticlePage Url where
  canonicalUrl := canonicalUrl
  title := title
  author := document.pageAuthor
  summary := (document.firstAttribute "meta[name='description']" "content").or
    (document.firstAttribute "meta[property='og:description']" "content")
  publishedAt := publishedAt
  contentHtml := contentHtml
  coverUrl := (document.firstAttribute "meta[property='og:image']" "content").or
    (document.firstAttribute "meta[property='twitter:image']" "content")

/-- **The steps of the extraction**: title, body, time. -/
theorem parse_eq_steps (h : document.isVerificationPage = false) :
    parseArticleHtmlWithFallback clock document canonicalUrl fallbackTitle fallbackPublishedAt
      = match document.pageTitle fallbackTitle with
        | none => .error (.invalidExtraction "article title is missing")
        | some title =>
          match document.bodyElement with
          | none => .error (.invalidExtraction "article body is missing")
          | some content =>
            if trim content.innerHtml = "" then
              .error (.invalidExtraction "article body is empty")
            else pagePublishedAt clock document >>= fun published =>
              .ok (extractedPage document canonicalUrl title (trim content.innerHtml)
                (published.or fallbackPublishedAt)) := by
  rw [parseArticleHtmlWithFallback, h]
  rfl

/-- **What is extracted are the candidates that were taken**: a title is missing when none was, and
a page shows them. -/
theorem parse_outcome (h : document.isVerificationPage = false) :
    (parseArticleHtmlWithFallback clock document canonicalUrl fallbackTitle fallbackPublishedAt
        = .error (.invalidExtraction "article title is missing")
      ↔ document.pageTitle fallbackTitle = none) ∧
    ∀ page, parseArticleHtmlWithFallback clock document canonicalUrl fallbackTitle
        fallbackPublishedAt = .ok page →
      document.pageTitle fallbackTitle = some page.title ∧ document.pageAuthor = page.author ∧
        document.pageBody = some page.contentHtml := by
  have hsome : ∀ {title : String}, ¬some title = none := Option.some_ne_none _
  have hmessage : ∀ {message : String}, message ≠ "article title is missing" →
      ¬(Except.error (.invalidExtraction message)
          : Except ArticlePageError (ExtractedArticlePage Url))
        = .error (.invalidExtraction "article title is missing") := fun hne herror =>
    hne (ArticlePageError.invalidExtraction.inj (Except.error.inj herror))
  rw [parse_eq_steps h]
  cases htitle : document.pageTitle fallbackTitle with
  | none => exact ⟨iff_of_true rfl rfl, fun page hpage => nomatch hpage⟩
  | some title =>
    cases hbody : document.bodyElement with
    | none =>
      exact ⟨iff_of_false (hmessage (by decide)) hsome, fun page hpage => nomatch hpage⟩
    | some content =>
      dsimp only
      by_cases hempty : trim content.innerHtml = ""
      · rw [if_pos hempty]
        exact ⟨iff_of_false (hmessage (by decide)) hsome, fun page hpage => nomatch hpage⟩
      · rw [if_neg hempty]
        cases hpublished : pagePublishedAt clock document with
        | error error =>
          refine ⟨iff_of_false (fun herror => ?_) hsome, fun page hpage => nomatch hpage⟩
          have herror : error = .invalidExtraction "article title is missing" :=
            Except.error.inj herror
          rw [herror] at hpublished
          exact pagePublishedAt_ne_missing hpublished
        | ok published =>
          refine ⟨iff_of_false nofun hsome, fun page hpage => ?_⟩
          obtain rfl := Except.ok.inj hpage
          refine ⟨rfl, rfl, ?_⟩
          rw [PageDocument.pageBody, hbody, Option.map_some, Option.filter_some,
            if_pos (by simpa using hempty)]
          rfl

end Outcome

/-- **Page metadata falls back to the first usable candidate exactly where no blank candidate hides
one**, for every document tree. -/
theorem page_falls_back_iff (Url : Type) [UrlCrate Url] (tree : PageTree)
    (fallbackTitle : Option String) :
    (FallsBack tree fallbackTitle ↔ Unhidden tree fallbackTitle) ∧
    ∀ (clock : PageClock) (canonicalUrl : VerifiedWechatArticleUrl Url)
      (fallbackPublishedAt : Option DateTime), tree.document.isVerificationPage = false →
      (parseArticleHtmlWithFallback clock tree.document canonicalUrl fallbackTitle
          fallbackPublishedAt = .error (.invalidExtraction "article title is missing")
        ↔ tree.document.pageTitle fallbackTitle = none) ∧
      ∀ page, parseArticleHtmlWithFallback clock tree.document canonicalUrl fallbackTitle
          fallbackPublishedAt = .ok page →
        tree.document.pageTitle fallbackTitle = some page.title ∧
          tree.document.pageAuthor = page.author ∧
          tree.document.pageBody = some page.contentHtml :=
  ⟨fallsBack_iff, fun _ _ _ h => parse_outcome h⟩

section Samples

/-- An element with one text and the same inner HTML. -/
def textNode (text : String) : PageElement := ⟨[text], fun _ => none, text⟩

/-- A page whose first heading is blank and whose second is not. -/
def blankHeading : PageTree where
  selectAll selector :=
    if selector = "#activity-name" then [textNode " "]
    else if selector = "h1.rich_media_title" then [textNode "News"]
    else if selector = "#js_content" then [textNode "text"]
    else []

def linkedArticle : VerifiedWechatArticleUrl PlainUrl :=
  ⟨"https://mp.weixin.qq.com/s/a", by decide⟩

/-- No clock is asked. -/
def silentClock : PageClock := ⟨fun _ _ => none, fun _ _ => none, some⟩

/-- **The blank heading hides the second one**: the page has a usable title, and is refused for want
of a title. -/
theorem blankHeading_not_fallsBack :
    ¬FallsBack blankHeading none ∧
      blankHeading.document.usableTitle none = some "News" ∧
      parseArticleHtmlWithFallback silentClock blankHeading.document linkedArticle none none
        = .error (.invalidExtraction "article title is missing") := by
  have husable : blankHeading.document.usableTitle none = some "News" := by decide +kernel
  have htitle : blankHeading.document.pageTitle none = none := by decide +kernel
  have hverification : blankHeading.document.isVerificationPage = false := by decide +kernel
  refine ⟨fun h => ?_, husable, (parse_outcome hverification).1.mpr htitle⟩
  have heq := h.title
  rw [htitle, husable] at heq
  exact nomatch heq

end Samples

end Werrss
