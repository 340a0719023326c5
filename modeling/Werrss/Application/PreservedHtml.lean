import Werrss.Application.LocalImages
import Werrss.Machinery.TagReader

/-!
# Application/PreservedHtml — when a newer observation is stored

    stored HTML        asset set      repository     what is stored
    "/assets/"         incomplete                    the stored HTML again
    "/assets/"         complete       rejects        the stored HTML again
    anything else                                    the new HTML, rewritten

Sync and backfill look for the letters `/assets/` anywhere in the stored HTML, not for an image on
that route.  **Where they occur otherwise, a newer observation is discarded** as if it would take
cached images away.
-/

open Machinery

namespace Werrss

open AssetRepository

/-! ## The images of a text -/

/-- The sources of the images that a reader of the tags finds. -/
def imageSources (html : String) : List Html :=
  (TagReader.read .text html.toList).2.filterMap fun token =>
    match token with
    | .opened name attrs => if name = "img".toList then attrs.lookup "src".toList else none
    | .empty name attrs => if name = "img".toList then attrs.lookup "src".toList else none
    | _ => none

/-- **The text shows a cached image**: one whose source is `/assets/{uuid}`. -/
def ShowsCachedImage (html : String) : Prop := ∃ id : Uuid, (assetRoute id).toList ∈ imageSources html

section Handlers

variable {Url : Type} [UrlCrate Url] [LawfulUrlCrate Url] [DecidableEq Url] [Sha2Crate]

/-- The row of an observation. -/
def PreparedArticle.key (prepared : PreparedArticle Url) : ArticleKey :=
  (prepared.article.sourceId, prepared.article.reviewId)

/-! ## What should be stored -/

/-- What the repository answers to the fetched assets of an observation. -/
def storedAssets (context : AssetWriteContext) (supply : ArticleSupply)
    (prepared : PreparedArticle Url) (s : AssetState) :
    Except AssetRepositoryError (List (StoredAsset Url)) :=
  (replaceForArticle context prepared.article.sourceId prepared.article.reviewId
    (suppliedInputs supply prepared.fetchedAssets) s).1

/-- **The representation of a new observation**: its HTML with the sources of the stored assets
rewritten, none of them where the repository rejects the set. -/
def newHtml (context : AssetWriteContext) (supply : ArticleSupply) (prepared : PreparedArticle Url)
    (s : AssetState) : Option String :=
  match storedAssets context supply prepared s with
  | .ok stored => some (rewriteArticle prepared.article stored).contentHtml
  | .error e => if e.isRejection then some prepared.article.contentHtml else none

/-- **Only cached images are protected**: the new representation is stored, unless the old one shows
a cached image. -/
def ProtectsOnlyCached (context : AssetWriteContext) (supply : ArticleSupply)
    (prepared : PreparedArticle Url) (s t : ArchiveState) : Prop :=
  ShowsCachedImage (storedHtml s.articles prepared.key) ∨
    newHtml context supply prepared s.assets = some (storedHtml t.articles prepared.key)

/-- The repository takes the fetched assets. -/
def TakesAssets (context : AssetWriteContext) (supply : ArticleSupply)
    (prepared : PreparedArticle Url) (s : AssetState) : Prop :=
  ∃ stored, storedAssets context supply prepared s = .ok stored

/-- **The condition**: there is a cached image to protect, or no trace of the route, or the assets are
complete and taken, or the stored HTML is the new one already. -/
def Replaces (context : AssetWriteContext) (supply : ArticleSupply)
    (prepared : PreparedArticle Url) (s : ArchiveState) : Prop :=
  ShowsCachedImage (storedHtml s.articles prepared.key) ∨
    mentionsAssets (storedHtml s.articles prepared.key) = false ∨
    (completeAssetSet prepared.externalAssets prepared.fetchedAssets = true ∧
      TakesAssets context supply prepared s.assets) ∨
    newHtml context supply prepared s.assets = some (storedHtml s.articles prepared.key)

/-! ## What is stored -/

/-- **What is settled for the upsert**, in four cases. -/
inductive SettlesHtml (context : AssetWriteContext) (supply : ArticleSupply)
    (prepared : PreparedArticle Url) (old : String) (s : AssetState) : String → Prop
  | incomplete (mentioned : mentionsAssets old = true)
      (set : completeAssetSet prepared.externalAssets prepared.fetchedAssets = false) :
      SettlesHtml context supply prepared old s old
  | taken {stored : List (StoredAsset Url)}
      (set : mentionsAssets old = true →
        completeAssetSet prepared.externalAssets prepared.fetchedAssets = true)
      (answer : storedAssets context supply prepared s = .ok stored) :
      SettlesHtml context supply prepared old s (rewriteArticle prepared.article stored).contentHtml
  | kept {e : AssetRepositoryError} (mentioned : mentionsAssets old = true)
      (answer : storedAssets context supply prepared s = .error e) (rejection : e.isRejection = true) :
      SettlesHtml context supply prepared old s old
  | external {e : AssetRepositoryError} (unmentioned : mentionsAssets old = false)
      (answer : storedAssets context supply prepared s = .error e) (rejection : e.isRejection = true) :
      SettlesHtml context supply prepared old s prepared.article.contentHtml

omit [LawfulUrlCrate Url] [DecidableEq Url] [Sha2Crate] in
/-- The mention is looked for in the stored HTML. -/
theorem any_mentionsAssets {current : Option (Article Url)} {old : String}
    (hcurrent : (current.map (·.contentHtml)).getD "" = old) :
    (current.map (·.contentHtml)).any mentionsAssets = mentionsAssets old := by
  subst hcurrent
  rcases current with _ | article
  · exact (by decide : false = mentionsAssets "")
  · rfl

omit [LawfulUrlCrate Url] [DecidableEq Url] [Sha2Crate] in
theorem isSome_of_mentioned {current : Option (Article Url)}
    (h : (current.map (·.contentHtml)).any mentionsAssets = true) : current.isSome = true := by
  rcases current with _ | article
  · exact nomatch h
  · rfl

/-- Another representation of the observation. -/
structure Represents (article other : NewArticle Url) : Prop where
  sourceId : other.sourceId = article.sourceId
  reviewId : other.reviewId = article.reviewId
  observationVersion : other.observationVersion = article.observationVersion

omit [LawfulUrlCrate Url] [DecidableEq Url] [Sha2Crate] in
theorem represents_keep (article : NewArticle Url) (current : Option (Article Url)) :
    Represents article (keepRepresentation article current) := by
  obtain ⟨hsource, hreview, hversion⟩ := keepRepresentation_identity article current
  exact ⟨hsource, hreview, hversion⟩

omit [LawfulUrlCrate Url] [DecidableEq Url] in
theorem represents_rewrite (article : NewArticle Url) (stored : List (StoredAsset Url)) :
    Represents article (rewriteArticle article stored) := by
  obtain ⟨hsource, hreview, hversion, -⟩ := rewriteArticle_identity article stored
  exact ⟨hsource, hreview, hversion⟩

omit [LawfulUrlCrate Url] in
/-- **Every branch of an accepted observation with content settles one of the four.** -/
theorem reconcile_settlesHtml {context : AssetWriteContext} {supply : ArticleSupply}
    {prepared : PreparedArticle Url} {current : Option (Article Url)} {old : String}
    {s t : ArchiveState} {settled : NewArticle Url × Bool}
    (hcurrent : (current.map (·.contentHtml)).getD "" = old)
    (hcontent : prepared.article.contentHtml ≠ "")
    (hrun : reconcile context supply prepared current s = (.ok settled, t)) :
    SettlesHtml context supply prepared old s.assets settled.1.contentHtml ∧
      Represents prepared.article settled.1 ∧ t.articles = s.articles := by
  have hany := any_mentionsAssets hcurrent
  rw [reconcile] at hrun
  by_cases hpreserve : shouldPreserveCachedAssetRepresentation (current.map (·.contentHtml))
      prepared.externalAssets prepared.fetchedAssets = true
  · rw [if_pos hpreserve] at hrun
    obtain ⟨rfl, rfl⟩ : (keepRepresentation prepared.article current, false) = settled ∧ s = t := by
      simpa [pure, Tx.pure] using hrun
    refine ⟨?_, represents_keep _ _, rfl⟩
    rw [shouldPreserveCachedAssetRepresentation, Bool.and_eq_true, Bool.not_eq_true'] at hpreserve
    rw [keepRepresentation_html hcurrent (isSome_of_mentioned hpreserve.2)]
    exact .incomplete (hany ▸ hpreserve.2) hpreserve.1
  rw [if_neg hpreserve, if_pos (by simp [shouldReconcileAssets, hcontent])] at hrun
  have hset : mentionsAssets old = true →
      completeAssetSet prepared.externalAssets prepared.fetchedAssets = true := by
    intro hmentioned
    rw [shouldPreserveCachedAssetRepresentation, hany, hmentioned, Bool.and_true,
      Bool.not_eq_true', Bool.not_eq_false] at hpreserve
    exact hpreserve
  obtain ⟨answer, u, hassets, hrun⟩ := Tx.bind_eq_ok hrun
  obtain ⟨hanswer, rfl⟩ := Prod.mk.inj hassets
  have hanswer : storedAssets context supply prepared s.assets = answer := Except.ok.inj hanswer
  rcases answer with e | stored
  · have hrun : rejected prepared.article current e _ = (.ok settled, t) := hrun
    rw [rejected] at hrun
    by_cases hrejection : e.isRejection = true
    swap
    · rw [if_pos (by simpa using hrejection)] at hrun
      cases (Prod.mk.inj hrun).1
    rw [if_neg (by simpa using hrejection)] at hrun
    by_cases hcached : (current.any fun current => mentionsAssets current.contentHtml) = true
    · rw [if_pos hcached] at hrun
      obtain ⟨rfl, rfl⟩ : (keepRepresentation prepared.article current, false) = settled ∧
          _ = t := by
        simpa [pure, Tx.pure] using hrun
      refine ⟨?_, represents_keep _ _, rfl⟩
      have hmentioned : (current.map (·.contentHtml)).any mentionsAssets = true := by
        rwa [Option.any_map]
      rw [keepRepresentation_html hcurrent (isSome_of_mentioned hmentioned)]
      exact .kept (hany ▸ hmentioned) hanswer hrejection
    · rw [if_neg hcached] at hrun
      obtain ⟨cleared, v, hclear, hrun⟩ := Tx.bind_eq_ok hrun
      have hunmentioned : mentionsAssets old = false := by
        rw [← hany, Option.any_map]
        exact Bool.eq_false_iff.mpr hcached
      rcases cleared with e' | _
      · cases (Prod.mk.inj hrun).1
      · obtain ⟨rfl, rfl⟩ : (prepared.article, false) = settled ∧ v = t := by
          simpa [pure, Tx.pure] using hrun
        obtain ⟨-, rfl⟩ := Prod.mk.inj hclear
        exact ⟨.external hunmentioned hanswer hrejection, ⟨rfl, rfl, rfl⟩, rfl⟩
  · obtain ⟨rfl, rfl⟩ : (rewriteArticle prepared.article stored,
        completeAssetSet prepared.externalAssets prepared.fetchedAssets) = settled ∧ _ = t := by
      simpa [pure, Tx.pure] using hrun
    exact ⟨.taken hset hanswer, represents_rewrite _ _, rfl⟩

omit [Sha2Crate] in
/-- **What an upsert leaves at the key** of a representation that is not empty. -/
theorem upsert_stores {prepared : PreparedArticle Url} {article : NewArticle Url}
    {supply : ArticleSupply} {s t : ArchiveState} {result : ArticleUpsertResult Url}
    (h : Represents prepared.article article) (hcontent : article.contentHtml ≠ "")
    (haccepted : ∀ row, ∀ current : Article Url, s.articles prepared.key = some row →
      decodeArticle prepared.key row = .ok current →
      current.observationVersion ≤ prepared.article.observationVersion)
    (hrun : ArchiveTx.upsert supply article s = (.ok result, t)) :
    storedHtml t.articles prepared.key = article.contentHtml := by
  rw [ArchiveTx.upsert] at hrun
  split at hrun
  · exact nomatch (Prod.mk.inj hrun).1
  rename_i articles result' hup
  obtain rfl : { s with articles := articles } = t := (Prod.mk.inj hrun).2
  obtain ⟨n, hn⟩ : ∃ n, article.normalize = .ok n := by
    rcases hnormalize : article.normalize with e | n
    · simp [Werrss.upsert, hnormalize] at hup
    · exact ⟨n, rfl⟩
  obtain ⟨hsource, hreview, hversion⟩ := identity_of_normalize hn
  have hkey : (n.sourceId, n.reviewId) = prepared.key := by
    refine Prod.ext (hsource.trans h.sourceId) ?_
    rw [hreview, h.reviewId]
    exact prepared.normal.review.1
  obtain ⟨-, hhtml⟩ := upsert_html hn (by
    rw [hkey, hversion, h.observationVersion]
    exact fun row current hrow hdecode => not_lt.mpr (haccepted row current hrow hdecode)) hup
  rw [hkey, contentHtml_of_normalize hn, if_neg hcontent] at hhtml
  exact hhtml

omit [LawfulUrlCrate Url] in
theorem SettlesHtml.ne_empty {context : AssetWriteContext} {supply : ArticleSupply}
    {prepared : PreparedArticle Url} {old html : String} {s : AssetState}
    (h : SettlesHtml context supply prepared old s html) (hcontent : prepared.article.contentHtml ≠ "") :
    html ≠ "" := by
  have hold (hmentioned : mentionsAssets old = true) : old ≠ "" := by
    rintro rfl
    exact absurd hmentioned (by decide)
  rcases h with hmentioned | _ | hmentioned | _
  · exact hold hmentioned
  · exact rewriteArticle_nonempty hcontent
  · exact hold hmentioned
  · exact hcontent

/-- **What a round of sync or backfill stores.** -/
theorem persistArticle_settlesHtml {context : AssetWriteContext} {supply : ArticleSupply}
    {prepared : PreparedArticle Url} {s t : ArchiveState} {result : Bool × Bool}
    (hcontent : prepared.article.contentHtml ≠ "")
    (haccepted : ∀ row, ∀ current : Article Url, s.articles prepared.key = some row →
      decodeArticle prepared.key row = .ok current →
      current.observationVersion ≤ prepared.article.observationVersion)
    (hrun : persistArticle context supply prepared s = (.ok result, t)) :
    SettlesHtml context supply prepared (storedHtml s.articles prepared.key) s.assets
      (storedHtml t.articles prepared.key) := by
  obtain ⟨current, u, hfind, hbody⟩ := Tx.bind_eq_ok hrun
  obtain ⟨rfl, hcurrent, hrow⟩ := findForUpdate_inv hfind
  have hfresh : ¬(current.any fun current =>
      prepared.article.observationVersion < current.observationVersion) = true := by
    rcases current with _ | article
    · exact Bool.false_ne_true
    · obtain ⟨row, hkey, hdecode⟩ := (hrow article).mp rfl
      simpa using haccepted row article hkey hdecode
  rw [if_neg hfresh] at hbody
  obtain ⟨settled, v, hreconcile, hbody⟩ := Tx.bind_eq_ok hbody
  obtain ⟨upserted, w, hupsert, hbody⟩ := Tx.bind_eq_ok hbody
  obtain ⟨hsettles, hrepresents, harticles⟩ := reconcile_settlesHtml hcurrent hcontent hreconcile
  rw [← harticles] at haccepted
  have hstored := upsert_stores hrepresents (hsettles.ne_empty hcontent) haccepted hupsert
  by_cases hreset : (settled.2 && !supply.lineageResets) = true
  · rw [if_pos hreset] at hbody
    exact nomatch (Prod.mk.inj hbody).1
  · rw [if_neg hreset] at hbody
    obtain rfl : w = t := (Prod.mk.inj hbody).2
    rwa [hstored]

/-- **Which newer observations are stored.**  Of an accepted observation with content, whatever was
fetched of its images and whatever the repository made of that, a round of source sync or backfill
that succeeds stores the new representation or protects a cached image exactly if there is one, or
the stored HTML has no trace of the route, or the assets are complete and taken, or nothing is new. -/
theorem protects_only_cached_iff (context : AssetWriteContext) (supply : ArticleSupply)
    (prepared : PreparedArticle Url) (s t : ArchiveState) (result : Bool × Bool)
    (hcontent : prepared.article.contentHtml ≠ "")
    (haccepted : ∀ row, ∀ current : Article Url, s.articles prepared.key = some row →
      decodeArticle prepared.key row = .ok current →
      current.observationVersion ≤ prepared.article.observationVersion)
    (hrun : persistArticle context supply prepared s = (.ok result, t)) :
    ProtectsOnlyCached context supply prepared s t ↔ Replaces context supply prepared s := by
  have hsettles := persistArticle_settlesHtml hcontent haccepted hrun
  refine or_congr_right ?_
  generalize storedHtml t.articles prepared.key = html at hsettles ⊢
  rcases hsettles with ⟨hmentioned, hset⟩ | ⟨hset, hanswer⟩ | ⟨hmentioned, hanswer, hrejection⟩ |
    ⟨hunmentioned, hanswer, hrejection⟩
  · refine ⟨fun hnew => .inr (.inr hnew), ?_⟩
    rintro (hplain | ⟨hcomplete, -⟩ | hnew)
    · exact absurd hmentioned (by rw [hplain]; exact Bool.false_ne_true)
    · exact absurd hcomplete (by rw [hset]; exact Bool.false_ne_true)
    · exact hnew
  · refine ⟨fun _ => ?_, fun _ => by rw [newHtml, hanswer]⟩
    rcases hmention : mentionsAssets (storedHtml s.articles prepared.key) with _ | _
    · exact .inl rfl
    · exact .inr (.inl ⟨hset hmention, _, hanswer⟩)
  · refine ⟨fun hnew => .inr (.inr hnew), ?_⟩
    rintro (hplain | ⟨-, stored, htaken⟩ | hnew)
    · exact absurd hmentioned (by rw [hplain]; exact Bool.false_ne_true)
    · exact nomatch hanswer.symm.trans htaken
    · exact hnew
  · refine ⟨fun _ => .inl hunmentioned, fun _ => ?_⟩
    rw [newHtml, hanswer]
    exact if_pos hrejection

end Handlers

/-! ## A page about the route -/

section Samples

attribute [local instance] plainDigest

/-- A page whose text mentions the route, without an image. -/
def routeTree : DomTree := .node (.element "p" []) [.node (.text "see /assets/ for files") []]

/-- Its first observation is stored. -/
def routeTables : ArchiveTables :=
  ArchiveTables.step smallCache .empty
    (.sourceSync ⟨[(preparedPage routeTree 1 Nat.one_ne_zero [] ordered_nil, pageSupply 10 20)], 0, true⟩)

/-- The version of the second observation. -/
theorem secondVersion_ne_zero : (2 : ℕ) ≠ 0 := by decide

/-- Its second observation: a page with one image, which could not be fetched. -/
def imageObservation : PreparedArticle PlainUrl := preparedPage imageTree 2 secondVersion_ne_zero [] ordered_nil

/-- The same page, with its image. -/
def fetchedObservation : PreparedArticle PlainUrl :=
  preparedPage imageTree 2 secondVersion_ne_zero [plainImage sampleSource 1 6 1] sampleImage_ordered

/-- The transaction in which a backfill stores the second observation. -/
def routeState : ArchiveState := ⟨routeTables.articles, ⟨routeTables.assets, {}⟩⟩

def routeContext (prepared : PreparedArticle PlainUrl) : AssetWriteContext :=
  ⟨smallCache, (prepareAssetBatch routeTables.assets prepared.fetchedAssets).toOption, 5⟩

/-- What it leaves. -/
def storedRound (prepared : PreparedArticle PlainUrl) : ArchiveState :=
  (persistArticle (routeContext prepared) (pageSupply 11 21) prepared routeState).2

theorem storedRound_run {prepared : PreparedArticle PlainUrl} {result : Bool × Bool}
    (h : (persistArticle (routeContext prepared) (pageSupply 11 21) prepared routeState).1 =
      .ok result) :
    persistArticle (routeContext prepared) (pageSupply 11 21) prepared routeState =
      (.ok result, storedRound prepared) :=
  Prod.ext h rfl

theorem routeState_accepts {prepared : PreparedArticle PlainUrl}
    (hkey : prepared.key = (⟨7⟩, "review")) (hversion : prepared.article.observationVersion = 2)
    (row : ArticleRow) (current : Article PlainUrl)
    (hrow : routeState.articles prepared.key = some row)
    (hdecode : decodeArticle prepared.key row = .ok current) :
    current.observationVersion ≤ prepared.article.observationVersion := by
  obtain ⟨-, -, -, -, hcurrent⟩ := decodeArticle_inv hdecode
  have hfirst : (routeState.articles (⟨7⟩, "review")).map (·.observationVersion) = some 1 := by
    decide +kernel
  rw [← hkey, hrow, Option.map_some, Option.some.injEq] at hfirst
  rw [hcurrent, hfirst, hversion]
  decide

/-- With its image the second observation is stored. -/
theorem protects_only_cached_iff_fetched :
    ProtectsOnlyCached (routeContext fetchedObservation) (pageSupply 11 21) fetchedObservation
      routeState (storedRound fetchedObservation) := by
  have hcontent : fetchedObservation.article.contentHtml ≠ "" := by decide +kernel
  refine (protects_only_cached_iff (routeContext fetchedObservation) (pageSupply 11 21)
    fetchedObservation routeState (storedRound fetchedObservation) (false, true) hcontent
    (routeState_accepts rfl rfl) (storedRound_run (by decide +kernel))).mpr
    (.inr (.inr (.inl ⟨?_, ?_⟩)))
  · decide +kernel
  · rcases hanswer : storedAssets (routeContext fetchedObservation) (pageSupply 11 21)
      fetchedObservation routeState.assets with e | stored
    · have htaken : (storedAssets (routeContext fetchedObservation) (pageSupply 11 21)
          fetchedObservation routeState.assets).toOption.isSome = true := by decide +kernel
      rw [hanswer] at htaken
      exact nomatch htaken
    · exact ⟨stored, hanswer⟩

/-- **The page about the route stays**: its newer observation, with an image that could not be
fetched, succeeds and is discarded, though the stored text shows no image at all. -/
theorem newer_observation_discarded :
    ¬ProtectsOnlyCached (routeContext imageObservation) (pageSupply 11 21) imageObservation
        routeState (storedRound imageObservation) ∧
      (persistArticle (routeContext imageObservation) (pageSupply 11 21) imageObservation
        routeState).1 = .ok (false, false) ∧
      storedHtml (storedRound imageObservation).articles (⟨7⟩, "review") =
        "<p>see /assets/ for files</p>" ∧
      newHtml (routeContext imageObservation) (pageSupply 11 21) imageObservation
        routeState.assets = some "<p><img alt=\"a\" src=\"https://cdn.example/a.png\" /></p>" := by
  have hstored : storedHtml (storedRound imageObservation).articles (⟨7⟩, "review") =
      "<p>see /assets/ for files</p>" := by decide +kernel
  have hnew : newHtml (routeContext imageObservation) (pageSupply 11 21) imageObservation
      routeState.assets = some "<p><img alt=\"a\" src=\"https://cdn.example/a.png\" /></p>" := by
    decide +kernel
  refine ⟨?_, by decide +kernel, hstored, hnew⟩
  rintro (⟨id, hid⟩ | hsame)
  · have hnone : imageSources (storedHtml routeState.articles imageObservation.key) = [] := by
      decide +kernel
    rw [hnone] at hid
    exact nomatch hid
  · have hdiffers : newHtml (routeContext imageObservation) (pageSupply 11 21) imageObservation
        routeState.assets ≠
        some (storedHtml (storedRound imageObservation).articles imageObservation.key) := by
      decide +kernel
    exact hdiffers hsame

end Samples

end Werrss
