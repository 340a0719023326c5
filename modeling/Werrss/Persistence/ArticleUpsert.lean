import Werrss.Machinery.Run
import Werrss.Machinery.Register
import Werrss.Domain.Article

/-!
# Persistence/ArticleUpsert — the article table and its idempotent upsert

    observation ──normalize──▸ row absent?  ── insert
                               older?       ── nothing
                               otherwise    ── merge, then rewrite the row or only its observation

A row is what the columns hold; readers see it decoded.  Instants are stored as `timestamptz`, whole
microseconds.  The locked read and the write of one upsert are one step: the row lock serialises
them, and a lost insertion race re-reads the row as the next upsert would.
-/

open Machinery

namespace Werrss

/-- Errors of the article repository. -/
inductive ArticleRepositoryError
  | domain (error : ArticleError)
  | sourceNotFound (sourceId : Uuid)
  | storage (message : String)
deriving DecidableEq, Repr

/-- `(source_id, review_id)`. -/
abbrev ArticleKey := Uuid × String

/-- The columns of one row besides its key. -/
structure ArticleRow where
  title : String
  author : Option String
  summary : Option String
  coverUrl : Option String
  originalUrl : Option String
  publishedAt : DateTime
  contentHtml : String
  contentHash : Option String
  observationVersion : ℤ
  fetchedAt : DateTime
  createdAt : DateTime
  updatedAt : DateTime
deriving DecidableEq, Repr

/-- The `articles` table. -/
abbrev ArticleTable := ArticleKey → Option ArticleRow

/-- `CURRENT_TIMESTAMP` and `clock_timestamp()` at one upsert. -/
structure StatementClock where
  transaction : DateTime
  clock : DateTime

/-- 2000-01-01, the origin of `timestamptz`. -/
def pgEpoch : DateTime := 946684800 * 1000000000

/-- An instant as a `timestamptz` column keeps it: whole microseconds from its origin. -/
def timestamptz (t : DateTime) : DateTime := pgEpoch + (t - pgEpoch).tdiv 1000 * 1000

theorem timestamptz_of_dvd {t : DateTime} (h : (1000 : ℤ) ∣ t) : timestamptz t = t := by
  have hd : (1000 : ℤ) ∣ t - pgEpoch := Int.dvd_sub h ⟨946684800 * 1000000, by decide⟩
  have hsum (a b : ℤ) : a + (b - a) = b := by omega
  rw [timestamptz, Int.tdiv_mul_cancel hd]
  exact hsum _ _

/-- **Whole microseconds are kept, and nothing else.** -/
theorem timestamptz_eq_iff {t : DateTime} : timestamptz t = t ↔ (1000 : ℤ) ∣ t := by
  refine ⟨fun h => ?_, timestamptz_of_dvd⟩
  have hsum (a b c : ℤ) (habc : a + b = c) : c - a = b := by omega
  have hdvd : (1000 : ℤ) ∣ t - pgEpoch := by
    rw [hsum _ _ _ h]
    exact Int.dvd_mul_left _ _
  have hepoch : (1000 : ℤ) ∣ pgEpoch := ⟨946684800 * 1000000, by decide⟩
  exact (Int.dvd_iff_dvd_of_dvd_sub hdvd).mpr hepoch

def observationVersionFromI64 (value : ℤ) : Except ArticleRepositoryError ℕ :=
  if 0 < value then .ok value.toNat else .error (.domain .invalidObservationVersion)

def observationVersionAsI64 (value : ℕ) : Except ArticleRepositoryError ℤ :=
  if value ≤ i64Max then .ok value else .error (.domain .invalidObservationVersion)

section Rows

variable {Url : Type} [UrlCrate Url] [LawfulUrlCrate Url]

/-- `decode_article`. -/
def decodeArticle (key : ArticleKey) (row : ArticleRow) :
    Except ArticleRepositoryError (Article Url) :=
  let originalUrl : Except ArticleRepositoryError (Option (VerifiedWechatArticleUrl Url)) :=
    match row.originalUrl with
    | none => .ok none
    | some value =>
      match VerifiedWechatArticleUrl.parse value with
      | .error _ => .error (.domain .invalidOriginalUrl)
      | .ok url => .ok (some url)
  match originalUrl with
  | .error e => .error e
  | .ok originalUrl =>
  match observationVersionFromI64 row.observationVersion with
  | .error e => .error e
  | .ok observationVersion =>
  match Article.fromParts
    { sourceId := key.1
      reviewId := key.2
      title := row.title
      author := row.author
      summary := row.summary
      coverUrl := row.coverUrl
      originalUrl := originalUrl
      publishedAt := row.publishedAt
      contentHtml := row.contentHtml
      contentHash := row.contentHash
      observationVersion := observationVersion
      fetchedAt := row.fetchedAt } row.createdAt row.updatedAt with
  | .error e => .error (.domain e)
  | .ok article => .ok article

/-- The columns an insertion or a full update writes. -/
def rowOf (article : NewArticle Url) (version : ℤ) (createdAt updatedAt : DateTime) : ArticleRow :=
  { title := article.title
    author := article.author
    summary := article.summary
    coverUrl := article.coverUrl
    originalUrl := article.originalUrl.map VerifiedWechatArticleUrl.asStr
    publishedAt := timestamptz article.publishedAt
    contentHtml := article.contentHtml
    contentHash := article.contentHash
    observationVersion := version
    fetchedAt := timestamptz article.fetchedAt
    createdAt := createdAt
    updatedAt := updatedAt }

/-- `UPDATE articles SET … WHERE source_id = $1 AND review_id = $2 RETURNING …`. -/
def updateRow (table : ArticleTable) (key : ArticleKey) (set : ArticleRow → ArticleRow) :
    Except ArticleRepositoryError (ArticleTable × ArticleRow) :=
  match table key with
  | none => .error (.storage "no rows returned by a query that expected to return at least one row")
  | some row => .ok (Function.update table key (some (set row)), set row)

/-- `update_changed_article`. -/
def updateChangedArticle (clock : StatementClock) (table : ArticleTable)
    (article : NewArticle Url) : Except ArticleRepositoryError (ArticleTable × ArticleRow) :=
  match observationVersionAsI64 article.observationVersion with
  | .error e => .error e
  | .ok version =>
    updateRow table (article.sourceId, article.reviewId) fun row =>
      rowOf article version row.createdAt (timestamptz clock.clock)

/-- `update_observation`. -/
def updateObservation (clock : StatementClock) (table : ArticleTable)
    (article : NewArticle Url) : Except ArticleRepositoryError (ArticleTable × ArticleRow) :=
  match observationVersionAsI64 article.observationVersion with
  | .error e => .error e
  | .ok version =>
    updateRow table (article.sourceId, article.reviewId) fun row =>
      { row with
        observationVersion := version
        fetchedAt := timestamptz article.fetchedAt
        updatedAt := timestamptz clock.clock }

variable (Url) in
/-- Result of an idempotent article upsert. -/
structure ArticleUpsertResult where
  article : Article Url
  feedVisibleChange : Bool
  created : Bool
deriving DecidableEq

/-- `upsert`; `sources` is the referenced `sources` table. -/
def upsert (sources : Uuid → Bool) (clock : StatementClock) (table : ArticleTable)
    (article : NewArticle Url) :
    Except ArticleRepositoryError (ArticleTable × ArticleUpsertResult Url) :=
  match article.normalize with
  | .error e => .error (.domain e)
  | .ok article =>
  match observationVersionAsI64 article.observationVersion with
  | .error e => .error e
  | .ok version =>
  let key : ArticleKey := (article.sourceId, article.reviewId)
  match table key with
  | some existing =>
    match (decodeArticle key existing : Except ArticleRepositoryError (Article Url)) with
    | .error e => .error e
    | .ok current =>
      -- A delayed observation must not regress the row.
      if article.observationVersion < current.observationVersion then
        .ok (table, ⟨current, false, false⟩)
      else
        let merged := current.mergeObservation article
        let changed := feedVisibleChange current merged
        match (if changed then updateChangedArticle clock table merged
          else updateObservation clock table merged) with
        | .error e => .error e
        | .ok (table, row) =>
          match decodeArticle key row with
          | .error e => .error e
          | .ok stored => .ok (table, ⟨stored, changed, false⟩)
  | none =>
    if !sources article.sourceId then .error (.sourceNotFound article.sourceId)
    else
      let row := rowOf article version (timestamptz clock.transaction)
        (timestamptz clock.transaction)
      match decodeArticle key row with
      | .error e => .error e
      | .ok stored => .ok (Function.update table key (some row), ⟨stored, true, true⟩)

/-! ## Rows and what readers see of them -/

/-- The article a reader gets back after `article` was written. -/
def storedArticle (article : NewArticle Url) (createdAt updatedAt : DateTime) : Article Url :=
  { sourceId := article.sourceId
    reviewId := article.reviewId
    title := article.title
    author := article.author
    summary := article.summary
    coverUrl := article.coverUrl
    originalUrl := article.originalUrl
    publishedAt := article.publishedAt
    contentHtml := article.contentHtml
    contentHash := article.contentHash
    observationVersion := article.observationVersion
    fetchedAt := timestamptz article.fetchedAt
    createdAt := createdAt
    updatedAt := updatedAt }

theorem decodeArticle_inv {key : ArticleKey} {row : ArticleRow} {a : Article Url}
    (h : decodeArticle key row = .ok a) :
    a.asNew.Normal ∧ a.sourceId = key.1 ∧ a.reviewId = trim key.2 ∧ 0 < row.observationVersion ∧
      a.observationVersion = row.observationVersion.toNat := by
  unfold decodeArticle at h
  simp only at h
  split at h
  · cases h
  · split at h
    · cases h
    · rename_i version hversion
      simp only [Article.fromParts] at h
      split at h
      · cases h
      · rename_i hparts
        split at hparts
        · cases hparts
        · rename_i n hn
          obtain rfl := Except.ok.inj hparts
          obtain rfl := Except.ok.inj h
          have hnormal := NewArticle.normal_of_normalize hn
          unfold NewArticle.normalize at hn
          split_ifs at hn
          obtain rfl := Except.ok.inj hn
          unfold observationVersionFromI64 at hversion
          split_ifs at hversion with hpos
          obtain rfl := Except.ok.inj hversion
          exact ⟨hnormal, rfl, rfl, hpos, rfl⟩

/-- **What is written is what is read back.** -/
theorem decodeArticle_rowOf {n : NewArticle Url} (hn : n.Normal) (hwhole : (1000 : ℤ) ∣ n.publishedAt)
    (createdAt updatedAt : DateTime) :
    decodeArticle (n.sourceId, n.reviewId)
      (rowOf n (n.observationVersion : ℤ) createdAt updatedAt)
      = .ok (storedArticle n createdAt updatedAt) := by
  have hpos : (0 : ℤ) < (n.observationVersion : ℤ) := by
    have := hn.version
    omega
  have hnorm : NewArticle.normalize { n with fetchedAt := timestamptz n.fetchedAt }
      = .ok { n with fetchedAt := timestamptz n.fetchedAt } :=
    NewArticle.Normal.normalize_eq
      ⟨hn.source, hn.review, hn.title, hn.version, hn.author, hn.summary, hn.cover, hn.hash⟩
  cases hurl : n.originalUrl with
  | none =>
    simp only [hurl] at hnorm
    simp only [decodeArticle, rowOf, hurl, Option.map_none, observationVersionFromI64, if_pos hpos,
      timestamptz_of_dvd hwhole, Article.fromParts, Int.toNat_natCast, hnorm, storedArticle]
  | some url =>
    simp only [hurl] at hnorm
    simp only [decodeArticle, rowOf, hurl, Option.map_some, VerifiedWechatArticleUrl.parse_asStr,
      observationVersionFromI64, if_pos hpos, timestamptz_of_dvd hwhole, Article.fromParts,
      Int.toNat_natCast, hnorm, storedArticle]

/-- Rewriting only the observation of a row keeps the rest of what is read. -/
theorem decodeArticle_observed {key : ArticleKey} {row : ArticleRow} {a : Article Url}
    (h : decodeArticle key row = .ok a) {version : ℕ} (hv : version ≠ 0)
    (fetchedAt updatedAt : DateTime) :
    decodeArticle key
      { row with
        observationVersion := (version : ℤ)
        fetchedAt := fetchedAt
        updatedAt := updatedAt }
      = .ok { a with
          observationVersion := version
          fetchedAt := fetchedAt
          updatedAt := updatedAt } := by
  have hpos : (0 : ℤ) < (version : ℤ) := by omega
  unfold decodeArticle at h ⊢
  simp only [observationVersionFromI64, if_pos hpos, Int.toNat_natCast] at h ⊢
  split at h
  · cases h
  · split at h
    · cases h
    · simp only [Article.fromParts] at h ⊢
      split at h
      · cases h
      · rename_i hparts
        split at hparts
        · cases hparts
        · rename_i n hn
          obtain rfl := Except.ok.inj hparts
          obtain rfl := Except.ok.inj h
          rw [NewArticle.normalize_observed hn hv fetchedAt]

/-! ## The table as registers -/

/-- **The register an article key holds**: version and compared columns of its readable row. -/
def articleRegister (Url : Type) [UrlCrate Url] [LawfulUrlCrate Url] (table : ArticleTable)
    (key : ArticleKey) : Option (ℕ × FeedContent Url) :=
  match table key with
  | none => none
  | some row =>
    match (decodeArticle key row : Except ArticleRepositoryError (Article Url)) with
    | .error _ => none
    | .ok a => some (a.observationVersion, a.content)

variable (Url) in
/-- The row of a key, if there is one, can be decoded. -/
def Readable (table : ArticleTable) (key : ArticleKey) : Prop :=
  ∀ row, table key = some row → ∃ a : Article Url, decodeArticle key row = .ok a

/-- **A valid observation of a key**: it normalizes to `n`, its version fits the column, and its
publication time is a whole number of microseconds (WeRead and article pages give whole seconds). -/
structure Observes (key : ArticleKey) (o n : NewArticle Url) : Prop where
  normalize_eq : o.normalize = .ok n
  key_eq : (n.sourceId, n.reviewId) = key
  version_le : n.observationVersion ≤ i64Max
  whole : (1000 : ℤ) ∣ n.publishedAt

/-- **What one upsert of a valid observation does.** -/
structure Upserted (key : ArticleKey) (n : NewArticle Url) (table table' : ArticleTable)
    (result : ArticleUpsertResult Url) : Prop where
  readable : Readable Url table' key
  register_eq : articleRegister Url table' key
    = Register.absorb FeedContent.merge (articleRegister Url table key)
        (n.observationVersion, n.content)
  frame : ∀ key', key' ≠ key → table' key' = table key'
  older : n.observationVersion < Register.version (articleRegister Url table key) → table' = table
  visible : result.feedVisibleChange = true ↔
    (articleRegister Url table' key).map Prod.snd ≠ (articleRegister Url table key).map Prod.snd

theorem upsert_absent {sources : Uuid → Bool} {clock : StatementClock} {table : ArticleTable}
    {key : ArticleKey} {o n : NewArticle Url} (ho : Observes key o n) (hs : sources key.1 = true)
    (hrow : table key = none) :
    ∃ table' result, upsert sources clock table o = .ok (table', result) ∧
      Upserted key n table table' result := by
  obtain ⟨hnorm, rfl, hle, hwhole⟩ := ho
  have hnormal := NewArticle.normal_of_normalize hnorm
  have hdecode := decodeArticle_rowOf hnormal hwhole (timestamptz clock.transaction)
    (timestamptz clock.transaction)
  have hup : upsert sources clock table o = .ok
      (Function.update table (n.sourceId, n.reviewId) (some (rowOf n (n.observationVersion : ℤ)
        (timestamptz clock.transaction) (timestamptz clock.transaction))),
        ⟨storedArticle n (timestamptz clock.transaction) (timestamptz clock.transaction),
          true, true⟩) := by
    simp only [upsert, hnorm, observationVersionAsI64, if_pos hle, hrow, hs, Bool.not_true,
      Bool.false_eq_true, if_false, hdecode]
  have hold : articleRegister Url table (n.sourceId, n.reviewId) = none := by
    simp only [articleRegister, hrow]
  refine ⟨_, _, hup, ?_, ?_, fun key' hne => Function.update_of_ne hne .., ?_, ?_⟩
  · intro row hr
    rw [Function.update_self] at hr
    obtain rfl := Option.some.inj hr
    exact ⟨_, hdecode⟩
  · rw [hold]
    simp only [articleRegister, Function.update_self, hdecode]
    rfl
  · intro hlt
    rw [hold] at hlt
    exact absurd hlt (Nat.not_lt_zero _)
  · rw [hold]
    simp only [articleRegister, Function.update_self, hdecode]
    simp

theorem upsert_older {sources : Uuid → Bool} {clock : StatementClock} {table : ArticleTable}
    {key : ArticleKey} {o n : NewArticle Url} (ho : Observes key o n) {row : ArticleRow}
    {current : Article Url} (hrow : table key = some row)
    (hdecode : decodeArticle key row = .ok current)
    (hlt : n.observationVersion < current.observationVersion) :
    upsert sources clock table o = .ok (table, ⟨current, false, false⟩) ∧
      Upserted key n table table ⟨current, false, false⟩ := by
  obtain ⟨hnorm, rfl, hle, hwhole⟩ := ho
  refine ⟨?_, ?_⟩
  · simp only [upsert, hnorm, observationVersionAsI64, if_pos hle, hrow, hdecode, if_pos hlt]
  · refine ⟨?_, ?_, fun _ _ => rfl, fun _ => rfl, by simp⟩
    · intro row' hr
      obtain rfl := Option.some.inj (hrow.symm.trans hr)
      exact ⟨current, hdecode⟩
    · refine (Register.absorb_of_lt ?_).symm
      simp only [articleRegister, hrow, hdecode]
      exact hlt

/-- The two updates write the same readable row: the full one when something visible changed, the
other when only the observation did. -/
theorem upsert_newer {sources : Uuid → Bool} {clock : StatementClock} {table : ArticleTable}
    {key : ArticleKey} {o n : NewArticle Url} (ho : Observes key o n) {row : ArticleRow}
    {current : Article Url} (hrow : table key = some row)
    (hdecode : decodeArticle key row = .ok current)
    (hle' : current.observationVersion ≤ n.observationVersion) :
    ∃ table' result, upsert sources clock table o = .ok (table', result) ∧
      Upserted key n table table' result := by
  obtain ⟨hnorm, rfl, hle, hwhole⟩ := ho
  have hn := NewArticle.normal_of_normalize hnorm
  obtain ⟨hcurrent, hsource, hreview, -, -⟩ := decodeArticle_inv hdecode
  have hreview' : current.reviewId = n.reviewId := hreview.trans hn.review.1
  have hkey : ((current.mergeObservation n).sourceId, (current.mergeObservation n).reviewId)
      = (n.sourceId, n.reviewId) := Prod.ext hsource hreview'
  have hmerged := Article.mergeObservation_normal hcurrent hn
  have hfits : observationVersionAsI64 (current.mergeObservation n).observationVersion
      = .ok (n.observationVersion : ℤ) := if_pos hle
  -- The row written in either case, and what it decodes to.
  have hwrite : ∃ table' row' stored,
      (if feedVisibleChange current (current.mergeObservation n) = true
        then updateChangedArticle clock table (current.mergeObservation n)
        else updateObservation clock table (current.mergeObservation n)) = .ok (table', row') ∧
      table' = Function.update table (n.sourceId, n.reviewId) (some row') ∧
      decodeArticle (n.sourceId, n.reviewId) row' = .ok stored ∧
      stored.observationVersion = n.observationVersion ∧
      stored.content = FeedContent.merge current.content n.content := by
    by_cases hch : feedVisibleChange current (current.mergeObservation n) = true
    · have hd := decodeArticle_rowOf hmerged hwhole row.createdAt (timestamptz clock.clock)
      rw [hkey] at hd
      refine ⟨_, _, _, ?_, rfl, hd, rfl, rfl⟩
      simp only [if_pos hch, updateChangedArticle, hfits, hkey, updateRow, hrow]
      rfl
    · have hd := decodeArticle_observed hdecode hn.version (timestamptz n.fetchedAt)
        (timestamptz clock.clock)
      refine ⟨_, _, _, ?_, rfl, hd, rfl, ?_⟩
      · simp only [if_neg hch, updateObservation, hfits, hkey, updateRow, hrow]
        rfl
      · rw [feedVisibleChange_iff, not_not] at hch
        exact hch
  obtain ⟨table', row', stored, hupdate, rfl, hstored, hversion, hcontent⟩ := hwrite
  have hold : articleRegister Url table (n.sourceId, n.reviewId)
      = some (current.observationVersion, current.content) := by
    simp only [articleRegister, hrow, hdecode]
  have hnew : articleRegister Url
      (Function.update table (n.sourceId, n.reviewId) (some row')) (n.sourceId, n.reviewId)
      = some (n.observationVersion, FeedContent.merge current.content n.content) := by
    simp only [articleRegister, Function.update_self, hstored, hversion, hcontent]
  have hup : upsert sources clock table o = .ok
      (Function.update table (n.sourceId, n.reviewId) (some row'),
        ⟨stored, feedVisibleChange current (current.mergeObservation n), false⟩) := by
    simp only [upsert, hnorm, observationVersionAsI64, if_pos hle, hrow, hdecode,
      if_neg (not_lt.mpr hle'), hupdate, hstored]
  have hnlt : ¬ n.observationVersion < current.observationVersion := not_lt.mpr hle'
  refine ⟨_, _, hup, ?_, ?_, fun key' hne => Function.update_of_ne hne .., ?_, ?_⟩
  · intro r hr
    rw [Function.update_self] at hr
    obtain rfl := Option.some.inj hr
    exact ⟨stored, hstored⟩
  · rw [hnew, hold, Register.absorb, if_neg hnlt]
  · intro hlt
    rw [hold] at hlt
    exact absurd hlt hnlt
  · rw [hnew, hold, feedVisibleChange_iff, Article.content_mergeObservation]
    simp only [Option.map_some, ne_eq, Option.some.injEq]
    exact ⟨fun h he => h he.symm, fun h he => h he.symm⟩

/-- **Upserting a valid observation succeeds and is one step of the register.** -/
theorem upsert_upserted {sources : Uuid → Bool} {table : ArticleTable} {key : ArticleKey}
    {o n : NewArticle Url} (ho : Observes key o n) (hs : sources key.1 = true)
    (hread : Readable Url table key) (clock : StatementClock) :
    ∃ table' result, upsert sources clock table o = .ok (table', result) ∧
      Upserted key n table table' result := by
  cases hrow : table key with
  | none => exact upsert_absent ho hs hrow
  | some row =>
    obtain ⟨current, hdecode⟩ := hread row hrow
    rcases lt_or_ge n.observationVersion current.observationVersion with hlt | hge
    · exact ⟨_, _, upsert_older ho hrow hdecode hlt⟩
    · exact upsert_newer ho hrow hdecode hge

/-! ## Runs of upserts -/

/-- Version and compared columns of an observation, normalized. -/
def NewArticle.seen (o : NewArticle Url) : ℕ × FeedContent Url :=
  match o.normalize with
  | .error _ => (o.observationVersion, o.content)
  | .ok n => (n.observationVersion, n.content)

/-- Upserts one after another; a failed one rolls back. -/
def articleMachine (sources : Uuid → Bool) :
    Machine ArticleTable (StatementClock × NewArticle Url)
      (Except ArticleRepositoryError (ArticleUpsertResult Url)) where
  step table o :=
    match upsert sources o.1 table o.2 with
    | .error e => (table, .error e)
    | .ok (table', result) => (table', .ok result)

/-- What a merge keeps of the stored columns: nothing known is lost, but for the hash of HTML that
was replaced by other HTML observed without a hash. -/
structure FeedContent.Keeps (stored seen merged : FeedContent Url) : Prop where
  contentHtml : stored.contentHtml ≠ "" → merged.contentHtml ≠ ""
  author : stored.author.isSome → merged.author.isSome
  summary : stored.summary.isSome → merged.summary.isSome
  coverUrl : stored.coverUrl.isSome → merged.coverUrl.isSome
  originalUrl : stored.originalUrl.isSome → merged.originalUrl.isSome
  contentHash : stored.contentHash.isSome → merged.contentHash.isSome ∨
    (seen.contentHash = none ∧ seen.contentHtml ≠ "" ∧ merged.contentHtml = seen.contentHtml ∧
      merged.contentHtml ≠ stored.contentHtml)

omit [LawfulUrlCrate Url] in
theorem FeedContent.keeps_merge (stored seen : FeedContent Url) :
    Keeps stored seen (merge stored seen) := by
  have hor {α : Type} (a b : Option α) (h : b.isSome = true) : (a.or b).isSome = true := by
    cases a with
    | none => exact h
    | some _ => rfl
  refine ⟨fun h => ?_, hor _ _, hor _ _, hor _ _, hor _ _, fun h => ?_⟩
  · simp only [merge]
    split_ifs with hempty
    · exact h
    · exact hempty
  · cases hseen : seen.contentHash with
    | some hash => exact .inl (by simp [merge, hseen])
    | none =>
      by_cases hempty : seen.contentHtml = ""
      · exact .inl (by simpa [merge, hseen, hempty] using h)
      by_cases hsame : seen.contentHtml = stored.contentHtml
      · exact .inl (by simpa [merge, hseen, hempty, hsame] using h)
      · exact .inr ⟨rfl, hempty, by simp [merge, hempty], by simpa [merge, hempty] using hsame⟩

omit [LawfulUrlCrate Url] in
theorem FeedContent.keeps_refl (stored seen : FeedContent Url) : Keeps stored seen stored :=
  ⟨id, id, id, id, id, .inl⟩

section Run

variable {sources : Uuid → Bool} {key : ArticleKey} {table : ArticleTable}

/-- A valid observation is one successful step of the machine. -/
theorem articleMachine_step {o n : NewArticle Url} (ho : Observes key o n)
    (hs : sources key.1 = true) (hread : Readable Url table key) (clock : StatementClock) :
    ∃ table' result, (articleMachine sources).step table (clock, o) = (table', .ok result) ∧
      Upserted key n table table' result := by
  obtain ⟨table', result, hup, hpost⟩ := upsert_upserted ho hs hread clock
  exact ⟨table', result, by simp only [articleMachine, hup], hpost⟩

/-- One more upsert loses nothing that was known. -/
theorem Upserted.keeps {n : NewArticle Url} {table' : ArticleTable}
    {result : ArticleUpsertResult Url} (h : Upserted key n table table' result) {v : ℕ}
    {stored : FeedContent Url} (hreg : articleRegister Url table key = some (v, stored)) :
    ∃ w merged, articleRegister Url table' key = some (w, merged) ∧
      FeedContent.Keeps stored n.content merged := by
  have hnew := h.register_eq
  rw [hreg, Register.absorb] at hnew
  split_ifs at hnew
  · exact ⟨_, _, hnew, FeedContent.keeps_refl _ _⟩
  · exact ⟨_, _, hnew, FeedContent.keeps_merge _ _⟩

/-- The second of two equal observations changes nothing visible. -/
theorem Upserted.repeated {n : NewArticle Url} {table' table'' : ArticleTable}
    {result result' : ArticleUpsertResult Url} (h : Upserted key n table table' result)
    (h' : Upserted key n table' table'' result') : result'.feedVisibleChange = false := by
  have hstill : (articleRegister Url table'' key).map Prod.snd
      = (articleRegister Url table' key).map Prod.snd := by
    rw [h'.register_eq, h.register_eq]
    cases articleRegister Url table key with
    | none =>
      have hself : FeedContent.merge n.content n.content = n.content := by
        simp [FeedContent.merge]
      simp [Register.absorb, hself]
    | some r =>
      by_cases hlt : n.observationVersion < r.1
      · simp [Register.absorb, hlt]
      · simp [Register.absorb, hlt, FeedContent.merge_merge]
  by_contra hvis
  exact h'.visible.mp (by simpa using hvis) hstill

end Run

end Rows

/-! ## A late replica -/

end Werrss
