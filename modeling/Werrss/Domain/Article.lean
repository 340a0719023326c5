import Werrss.Domain.UrlPolicy

/-!
# Domain/Article — article observations, stored articles and their merge

    NewArticle ──normalize──▸ NewArticle ──merge_observation──▸ NewArticle ──▸ row

Texts are trimmed, an absent optional field keeps what is known, and non-empty HTML that comes
without a hash drops the old one.  `Normal` is what `normalize` establishes: normalising again
changes nothing.
-/

open Machinery

namespace Werrss

/-- Errors raised while normalizing or reconstructing an article. -/
inductive ArticleError
  | invalidSourceId | emptyReviewId | emptyTitle | invalidCoverUrl | invalidOriginalUrl
  | invalidObservationVersion
deriving DecidableEq, Repr

variable (Url : Type) [UrlCrate Url]

/-- Input produced by list/detail acquisition for one article. -/
structure NewArticle where
  sourceId : Uuid
  reviewId : String
  title : String
  author : Option String
  summary : Option String
  coverUrl : Option String
  originalUrl : Option (VerifiedWechatArticleUrl Url)
  publishedAt : DateTime
  contentHtml : String
  contentHash : Option String
  observationVersion : ℕ
  fetchedAt : DateTime
deriving DecidableEq

/-- A normalized article returned by persistence. -/
structure Article where
  sourceId : Uuid
  reviewId : String
  title : String
  author : Option String
  summary : Option String
  coverUrl : Option String
  originalUrl : Option (VerifiedWechatArticleUrl Url)
  publishedAt : DateTime
  contentHtml : String
  contentHash : Option String
  observationVersion : ℕ
  fetchedAt : DateTime
  createdAt : DateTime
  updatedAt : DateTime
deriving DecidableEq

/-! ## Normalization -/

def normalizeOptional (value : Option String) : Option String :=
  (value.map trim).filter (· ≠ "")

/-- The cover URLs `normalize` turns away: unparsable, not HTTP(S), without a host or signed. -/
def isRejectedCover (value : String) : Bool :=
  match (UrlCrate.parse value : Option Url) with
  | none => true
  | some url =>
    !(UrlCrate.scheme url == "http" || UrlCrate.scheme url == "https")
      || (UrlCrate.hostStr url).isNone
      || hasProviderSignature url

variable {Url}

namespace NewArticle

/-- `NewArticle::normalize`. -/
def normalize (self : NewArticle Url) : Except ArticleError (NewArticle Url) :=
  if self.sourceId = Uuid.nil then .error .invalidSourceId
  else if trim self.reviewId = "" then .error .emptyReviewId
  else if trim self.title = "" then .error .emptyTitle
  else if self.observationVersion = 0 then .error .invalidObservationVersion
  else if (normalizeOptional self.coverUrl).any (isRejectedCover Url) then .error .invalidCoverUrl
  else .ok
    { self with
      reviewId := trim self.reviewId
      title := trim self.title
      author := normalizeOptional self.author
      summary := normalizeOptional self.summary
      coverUrl := normalizeOptional self.coverUrl
      contentHash := normalizeOptional self.contentHash }

/-- **What normalization establishes.** -/
structure Normal (a : NewArticle Url) : Prop where
  source : a.sourceId ≠ Uuid.nil
  review : trim a.reviewId = a.reviewId ∧ a.reviewId ≠ ""
  title : trim a.title = a.title ∧ a.title ≠ ""
  version : a.observationVersion ≠ 0
  author : normalizeOptional a.author = a.author
  summary : normalizeOptional a.summary = a.summary
  cover : normalizeOptional a.coverUrl = a.coverUrl ∧
    a.coverUrl.any (isRejectedCover Url) = false
  hash : normalizeOptional a.contentHash = a.contentHash

end NewArticle

@[simp] theorem normalizeOptional_normalizeOptional (value : Option String) :
    normalizeOptional (normalizeOptional value) = normalizeOptional value := by
  cases value with
  | none => rfl
  | some s =>
    by_cases h : trim s = ""
    · simp [normalizeOptional, h, Option.filter]
    · simp [normalizeOptional, h, Option.filter]

/-- An optional text is normalized when each alternative of it is. -/
theorem normalizeOptional_or {a b : Option String} (ha : normalizeOptional a = a)
    (hb : normalizeOptional b = b) : normalizeOptional (a.or b) = a.or b := by
  cases a with
  | none => simpa using hb
  | some s => simpa using ha

namespace NewArticle

theorem normal_of_normalize {self n : NewArticle Url} (h : self.normalize = .ok n) : n.Normal := by
  unfold normalize at h
  split_ifs at h with hs hr ht hv hc
  obtain rfl := Except.ok.inj h
  exact ⟨hs, ⟨trim_trim _, hr⟩, ⟨trim_trim _, ht⟩, hv, normalizeOptional_normalizeOptional _,
    normalizeOptional_normalizeOptional _,
    ⟨normalizeOptional_normalizeOptional _, by simpa using hc⟩,
    normalizeOptional_normalizeOptional _⟩

/-- **A normal article normalizes to itself.** -/
theorem Normal.normalize_eq {self : NewArticle Url} (h : self.Normal) :
    self.normalize = .ok self := by
  unfold normalize
  simp only [h.source, h.review.1, h.review.2, h.title.1, h.title.2, h.version, h.author,
    h.summary, h.cover.1, h.cover.2, h.hash, if_false, Bool.false_eq_true]

end NewArticle

namespace Article

/-- `Article::from_parts`: the persisted fields, normalized. -/
def fromParts (parts : NewArticle Url) (createdAt updatedAt : DateTime) :
    Except ArticleError (Article Url) :=
  match parts.normalize with
  | .error e => .error e
  | .ok n =>
    .ok
      { sourceId := n.sourceId
        reviewId := n.reviewId
        title := n.title
        author := n.author
        summary := n.summary
        coverUrl := n.coverUrl
        originalUrl := n.originalUrl
        publishedAt := n.publishedAt
        contentHtml := n.contentHtml
        contentHash := n.contentHash
        observationVersion := n.observationVersion
        fetchedAt := n.fetchedAt
        createdAt := createdAt
        updatedAt := updatedAt }

/-- `Article::merge_observation`. -/
def mergeObservation (self : Article Url) (incoming : NewArticle Url) : NewArticle Url :=
  let contentHtml := if incoming.contentHtml = "" then self.contentHtml else incoming.contentHtml
  let contentHash :=
    incoming.contentHash.or (if contentHtml = self.contentHtml then self.contentHash else none)
  { sourceId := self.sourceId
    reviewId := self.reviewId
    title := incoming.title
    author := incoming.author.or self.author
    summary := incoming.summary.or self.summary
    coverUrl := incoming.coverUrl.or self.coverUrl
    originalUrl := incoming.originalUrl.or self.originalUrl
    publishedAt := incoming.publishedAt
    contentHtml := contentHtml
    contentHash := contentHash
    observationVersion := incoming.observationVersion
    fetchedAt := incoming.fetchedAt }

end Article

/-- `feed_visible_change`. -/
def feedVisibleChange (current : Article Url) (incoming : NewArticle Url) : Bool :=
  current.title ≠ incoming.title
    || current.author ≠ incoming.author
    || current.summary ≠ incoming.summary
    || current.coverUrl ≠ incoming.coverUrl
    || current.originalUrl ≠ incoming.originalUrl
    || current.publishedAt ≠ incoming.publishedAt
    || current.contentHtml ≠ incoming.contentHtml
    || current.contentHash ≠ incoming.contentHash

/-- An article as the observation it amounts to. -/
def Article.asNew (a : Article Url) : NewArticle Url :=
  { sourceId := a.sourceId
    reviewId := a.reviewId
    title := a.title
    author := a.author
    summary := a.summary
    coverUrl := a.coverUrl
    originalUrl := a.originalUrl
    publishedAt := a.publishedAt
    contentHtml := a.contentHtml
    contentHash := a.contentHash
    observationVersion := a.observationVersion
    fetchedAt := a.fetchedAt }

/-- **A merge of normal articles is normal.** -/
theorem Article.mergeObservation_normal {a : Article Url} {n : NewArticle Url}
    (ha : a.asNew.Normal) (hn : n.Normal) : (a.mergeObservation n).Normal where
  source := ha.source
  review := ha.review
  title := hn.title
  version := hn.version
  author := normalizeOptional_or hn.author ha.author
  summary := normalizeOptional_or hn.summary ha.summary
  cover := by
    refine ⟨normalizeOptional_or hn.cover.1 ha.cover.1, ?_⟩
    have hn2 := hn.cover.2
    have ha2 := ha.cover.2
    simp only [Article.mergeObservation]
    cases hc : n.coverUrl with
    | none => exact ha2
    | some c => simpa [hc] using hn2
  hash := by
    refine normalizeOptional_or hn.hash ?_
    have hkeep (p : Prop) [Decidable p] : normalizeOptional (if p then a.contentHash else none)
        = if p then a.contentHash else none := by
      split_ifs
      · exact ha.hash
      · rfl
    exact hkeep _

/-- Another version and another fetch time pass through normalization. -/
theorem NewArticle.normalize_observed {a n : NewArticle Url} (h : a.normalize = .ok n) {version : ℕ}
    (hv : version ≠ 0) (fetchedAt : DateTime) :
    NewArticle.normalize { a with observationVersion := version, fetchedAt := fetchedAt }
      = .ok { n with observationVersion := version, fetchedAt := fetchedAt } := by
  unfold NewArticle.normalize at h
  split_ifs at h with hs hr ht hver hc
  obtain rfl := Except.ok.inj h
  simp only [NewArticle.normalize, hs, hr, ht, hv, hc, if_false, Bool.false_eq_true]

/-! ## The compared columns -/

variable (Url) in
/-- **The columns `feed_visible_change` compares.** -/
structure FeedContent where
  title : String
  author : Option String
  summary : Option String
  coverUrl : Option String
  originalUrl : Option (VerifiedWechatArticleUrl Url)
  publishedAt : DateTime
  contentHtml : String
  contentHash : Option String
deriving DecidableEq

def NewArticle.content (a : NewArticle Url) : FeedContent Url :=
  ⟨a.title, a.author, a.summary, a.coverUrl, a.originalUrl, a.publishedAt, a.contentHtml,
    a.contentHash⟩

def Article.content (a : Article Url) : FeedContent Url :=
  ⟨a.title, a.author, a.summary, a.coverUrl, a.originalUrl, a.publishedAt, a.contentHtml,
    a.contentHash⟩

namespace FeedContent

/-- The merge of what is stored with what is observed. -/
def merge (stored seen : FeedContent Url) : FeedContent Url where
  title := seen.title
  author := seen.author.or stored.author
  summary := seen.summary.or stored.summary
  coverUrl := seen.coverUrl.or stored.coverUrl
  originalUrl := seen.originalUrl.or stored.originalUrl
  publishedAt := seen.publishedAt
  contentHtml := if seen.contentHtml = "" then stored.contentHtml else seen.contentHtml
  contentHash := seen.contentHash.or
    (if (if seen.contentHtml = "" then stored.contentHtml else seen.contentHtml)
        = stored.contentHtml
      then stored.contentHash else none)

/-- An observation that carries every field. -/
structure Complete (seen : FeedContent Url) : Prop where
  author : seen.author.isSome
  summary : seen.summary.isSome
  coverUrl : seen.coverUrl.isSome
  originalUrl : seen.originalUrl.isSome
  contentHtml : seen.contentHtml ≠ ""
  contentHash : seen.contentHash.isSome

/-- **Merging the same observation again changes nothing.** -/
theorem merge_merge (stored seen : FeedContent Url) :
    merge (merge stored seen) seen = merge stored seen := by
  have hor {α : Type} (a b : Option α) : a.or (a.or b) = a.or b := by cases a <;> rfl
  simp only [merge, hor, mk.injEq, true_and]
  by_cases hempty : seen.contentHtml = ""
  · simp [hempty, hor]
  · simp [hempty, hor]

end FeedContent

theorem Article.content_mergeObservation (self : Article Url) (incoming : NewArticle Url) :
    (self.mergeObservation incoming).content = FeedContent.merge self.content incoming.content := by
  rfl

/-- **The comparison sees exactly the compared columns.** -/
theorem feedVisibleChange_iff (current : Article Url) (incoming : NewArticle Url) :
    feedVisibleChange current incoming = true ↔ current.content ≠ incoming.content := by
  simp only [feedVisibleChange, Article.content, NewArticle.content, ne_eq, FeedContent.mk.injEq,
    Bool.or_eq_true, decide_eq_true_eq]
  tauto

/-- A published article over plain URLs. -/
def plainArticle (contentHtml : String) : Article PlainUrl where
  sourceId := ⟨7⟩
  reviewId := "review"
  title := "title"
  author := none
  summary := none
  coverUrl := none
  originalUrl := none
  publishedAt := 0
  contentHtml := contentHtml
  contentHash := none
  observationVersion := 1
  fetchedAt := 0
  createdAt := 0
  updatedAt := 0

end Werrss
