import Werrss.Archive.RewriteTree
import Werrss.Application.FeedService

/-!
# Application/FeedDelivery — when a freshly rebuilt feed can be delivered

    sanitized tree ──asset rewriting──▸ content ──absolutize──▸ CDATA ──▸ xml ──is_compatible?

The checker scans the whole XML for asset URLs.  It cannot tell an asset route of this server from a
foreign image whose path happens to look like one, so such an image makes the feed undeliverable.
-/

open Machinery Scan

namespace Werrss

/-! ## Sanitized HTML never closes a CDATA section -/

/-- The text does not hold `]>`. -/
def NoCut (s : Html) : Prop := ¬ [']', '>'] <:+: s

theorem NoCut.of_not_mem {s : Html} (h : '>' ∉ s) : NoCut s :=
  fun hin => h (hin.subset (by simp))

theorem NoCut.append {x y : Html} (hx : NoCut x) (hy : NoCut y)
    (hxy : x.getLast? ≠ some ']' ∨ y.head? ≠ some '>') : NoCut (x ++ y) := by
  rintro ⟨a, b, h⟩
  rw [List.append_assoc] at h
  rcases List.append_eq_append_iff.mp h with ⟨m, hm, hb⟩ | ⟨m, hm, hb⟩
  · -- The two letters begin in `x`.
    cases m with
    | nil => exact hy ⟨[], b, by simpa using hb⟩
    | cons c m =>
      simp only [List.cons_append, List.nil_append, List.cons.injEq] at hb
      obtain ⟨rfl, hb⟩ := hb
      cases m with
      | nil =>
        rcases hxy with h | h
        · exact h (by rw [hm]; simp)
        · exact h (by rw [List.nil_append] at hb; rw [← hb]; rfl)
      | cons d m =>
        obtain ⟨rfl, -⟩ := List.cons.inj hb
        exact hx ⟨a, m, by rw [hm]; simp⟩
  · exact hy ⟨m, b, by rw [hb, List.append_assoc]⟩

/-- Names that a tag can end in: no `]` and no `>`. -/
def CleanName (name : String) : Prop := ∀ c ∈ name.toList, c ≠ ']' ∧ c ≠ '>'

namespace SafeNode

mutual

/-- Every element and attribute name of the tree is clean. -/
def Clean : SafeNode → Prop
  | .text _ => True
  | .void name attrs _ => CleanName name ∧ ∀ a ∈ attrs, CleanName a.1
  | .element name attrs children =>
    CleanName name ∧ (∀ a ∈ attrs, CleanName a.1) ∧ CleanList children

def CleanList : List SafeNode → Prop
  | [] => True
  | n :: ns => Clean n ∧ CleanList ns

end

theorem cleanList_append : ∀ {ms ns : List SafeNode}, CleanList ms → CleanList ns →
    CleanList (ms ++ ns)
  | [], _, _, h => h
  | _ :: _, _, hm, h => ⟨hm.1, cleanList_append hm.2 h⟩

theorem gt_not_mem_escaped (attr : Bool) (s : String) : '>' ∉ s.toList.flatMap (escapedChar attr) := by
  intro h
  obtain ⟨c, -, hc⟩ := List.mem_flatMap.mp h
  unfold escapedChar at hc
  split_ifs at hc with h1 h2 h3 h4 h5 h6
  all_goals first
    | exact absurd hc (by decide)
    | exact h3 (List.mem_singleton.mp hc).symm

theorem gt_not_mem_escapeAttribute (s : String) : '>' ∉ escapeAttribute s := by
  intro h
  obtain ⟨c, -, hc⟩ := List.mem_flatMap.mp h
  unfold escapeAttributeChar at hc
  split_ifs at hc with h1 h2 h3 h4 h5
  all_goals first
    | exact absurd hc (by decide)
    | exact h3 (List.mem_singleton.mp hc).symm

theorem tagHtml_clean {name : String} {attrs : List (String × String)} (hname : CleanName name)
    (hattrs : ∀ a ∈ attrs, CleanName a.1) :
    '>' ∉ tagHtml name attrs ∧ (tagHtml name attrs).getLast? ≠ some ']' := by
  have hgt : '>' ∉ attrsHtml attrs := by
    intro h
    obtain ⟨a, ha, hin⟩ := List.mem_flatMap.mp h
    simp only [appendAttribute, appendEscaped, List.nil_append, List.mem_append, List.mem_cons,
      List.not_mem_nil, or_false] at hin
    rcases hin with (((hin | hin) | hin) | hin) | hin
    · exact absurd hin (by decide)
    · exact (hattrs a ha _ hin).2 rfl
    · exact absurd hin (by decide)
    · exact gt_not_mem_escaped true a.2 hin
    · exact absurd hin (by decide)
  refine ⟨?_, ?_⟩
  · intro h
    rcases List.mem_cons.mp h with h | h
    · exact absurd h (by decide)
    · rcases List.mem_append.mp h with h | h
      · exact (hname _ h).2 rfl
      · exact hgt h
  · rcases List.eq_nil_or_concat attrs with rfl | ⟨attrs, a, rfl⟩
    · -- Without attributes the tag ends in its name.
      intro h
      have hmem := List.mem_of_getLast? h
      simp only [tagHtml, attrsHtml, List.flatMap_nil, List.append_nil, List.mem_cons] at hmem
      rcases hmem with hmem | hmem
      · exact absurd hmem (by decide)
      · exact (hname _ hmem).1 rfl
    · -- The last attribute ends in its closing quote.
      have hquote : tagHtml name (attrs.concat a)
          = ('<' :: (name.toList ++ attrsHtml attrs)
            ++ appendEscaped ([] ++ [' '] ++ a.1.toList ++ "=\"".toList) a.2 true) ++ ['"'] := by
        simp [tagHtml, attrsHtml, appendAttribute]
      rw [hquote, List.getLast?_concat]
      decide

mutual

/-- **The HTML of a clean tree does not hold `]>`**, and does not begin with `>`. -/
theorem html_noCut : ∀ {n : SafeNode}, Clean n → NoCut (html n) ∧ (html n).head? ≠ some '>'
  | .text s, _ => by
    have h : '>' ∉ html (.text s) := by
      simpa [html, appendText, appendEscaped] using gt_not_mem_escaped false s
    exact ⟨.of_not_mem h, fun hh => h (List.mem_of_mem_head? hh)⟩
  | .void name attrs none, hc => by
    obtain ⟨hgt, -⟩ := tagHtml_clean hc.1 hc.2
    refine ⟨?_, by simp [html, tagHtml]⟩
    rw [html]
    exact (NoCut.of_not_mem hgt).append (by unfold NoCut; decide) (.inr (by decide))
  | .void name attrs (some src), hc => by
    obtain ⟨hgt, -⟩ := tagHtml_clean hc.1 hc.2
    refine ⟨?_, by simp [html, tagHtml]⟩
    rw [html]
    refine NoCut.append (NoCut.of_not_mem ?_) (by unfold NoCut; decide) (.inr (by decide))
    intro h
    simp only [List.mem_append, List.mem_singleton] at h
    rcases h with h | (h | h) | h
    · exact hgt h
    · exact absurd h (by decide)
    · exact gt_not_mem_escapeAttribute src h
    · exact absurd h (by decide)
  | .element name attrs children, hc => by
    obtain ⟨hname, hattrs, hchildren⟩ := hc
    obtain ⟨hgt, hlast⟩ := tagHtml_clean hname hattrs
    obtain ⟨hcut, hhead⟩ := htmlList_noCut hchildren
    have hopen : NoCut (tagHtml name attrs ++ ['>']) :=
      (NoCut.of_not_mem hgt).append (by unfold NoCut; decide) (.inl hlast)
    have hclose : NoCut ("</".toList ++ name.toList ++ ['>']) := by
      refine NoCut.append (NoCut.of_not_mem ?_) (by unfold NoCut; decide) (.inl ?_)
      · intro h
        rcases List.mem_append.mp h with h | h
        · exact absurd h (by decide)
        · exact (hname _ h).2 rfl
      · intro h
        rcases List.mem_append.mp (List.mem_of_getLast? h) with h | h
        · exact absurd h (by decide)
        · exact (hname _ h).1 rfl
    refine ⟨?_, by simp [html, tagHtml]⟩
    rw [html]
    exact (hopen.append hcut (.inr hhead)).append hclose (.inr (by simp))

theorem htmlList_noCut : ∀ {ns : List SafeNode}, CleanList ns →
    NoCut (htmlList ns) ∧ (htmlList ns).head? ≠ some '>'
  | [], _ => ⟨.of_not_mem List.not_mem_nil, by simp [htmlList]⟩
  | n :: ns, hc => by
    obtain ⟨hcut, hhead⟩ := html_noCut hc.1
    obtain ⟨hcut', hhead'⟩ := htmlList_noCut hc.2
    rw [htmlList]
    refine ⟨hcut.append hcut' (.inr hhead'), ?_⟩
    rw [List.head?_append]
    cases h : (html n).head? with
    | none => simpa using hhead'
    | some c => simpa [h] using hhead

end

end SafeNode

section SafeTrees

open SafeNode

variable {Url : Type} [UrlCrate Url]

theorem cleanName_of_safe {name : String} (h : name ∈ safeElements) : CleanName name := by
  have hall : ∀ name ∈ safeElements, (name.toList.all fun c => decide (c ≠ ']' ∧ c ≠ '>')) = true := by
    decide
  exact forall_mem_of_all (hall name h)

theorem cleanName_of_allowed {element attr : String} (h : allowedAttribute element attr = true) :
    CleanName attr := by
  have hall : ∀ attr ∈ ["class", "id", "title", "href", "alt", "width", "height", "colspan",
      "rowspan", "align"], (attr.toList.all fun c => decide (c ≠ ']' ∧ c ≠ '>')) = true := by decide
  refine forall_mem_of_all (hall attr ?_)
  unfold allowedAttribute at h
  split_ifs at h <;> simp_all
  all_goals tauto

theorem keptAttributes_clean (element : String) (attrs : List (String × String)) :
    ∀ a ∈ keptAttributes Url element attrs, CleanName a.1 := by
  intro a ha
  obtain ⟨⟨attr, value⟩, -, hkept⟩ := List.mem_filterMap.mp ha
  unfold keptAttribute at hkept
  split_ifs at hkept with hsrc hallowed hhref
  · split at hkept
    · cases hkept
    · split_ifs at hkept
      obtain rfl := Option.some.inj hkept
      exact cleanName_of_allowed (by simpa using hallowed)
  · obtain rfl := Option.some.inj hkept
    exact cleanName_of_allowed (by simpa using hallowed)

theorem keptElement_image_safe {name : String} {attrs : List (String × String)} {src : String}
    (h : keptElement Url name attrs = .image src) : name ∈ safeElements := by
  unfold keptElement at h
  split_ifs at h with hdrop hsafe himg
  exact hsafe

mutual

/-- **Sanitized trees are clean.** -/
theorem safe_clean : ∀ t : DomTree, CleanList (safe Url t)
  | .node (.text _) children => ⟨trivial, safeList_clean children⟩
  | .node (.element name attrs) children => by
    rw [safe]
    cases hkept : keptElement Url name attrs with
    | nothing => exact trivial
    | content => exact safeList_clean children
    | image src =>
      exact ⟨⟨cleanName_of_safe (keptElement_image_safe hkept), keptAttributes_clean name attrs⟩,
        safeList_clean children⟩
    | self =>
      have hname := cleanName_of_safe (keptElement_self hkept)
      simp only
      split_ifs
      · exact ⟨⟨hname, keptAttributes_clean name attrs⟩, safeList_clean children⟩
      · exact ⟨⟨hname, keptAttributes_clean name attrs, safeList_clean children⟩, trivial⟩
  | .node .document children => by rw [safe]; exact safeList_clean children
  | .node .fragment children => by rw [safe]; exact safeList_clean children
  | .node .doctype children => by rw [safe]; exact safeList_clean children
  | .node .comment children => by rw [safe]; exact safeList_clean children
  | .node .processingInstruction children => by rw [safe]; exact safeList_clean children

theorem safeList_clean : ∀ ts : List DomTree, CleanList (safeList Url ts)
  | [] => trivial
  | t :: ts => cleanList_append (safe_clean t) (safeList_clean ts)

end

end SafeTrees

/-! ## What the checker reads in the written document -/

section Document

variable {writer : RssWriter}

/-- The scanner reads `vs` in the text and settles. -/
abbrev ReadsSrc (cs : Html) (vs : List Html) : Prop := Reads srcMark '"' cs vs

/-- Texts that begin with a tag are read one after the other. -/
theorem ReadsSrc.tag {x y : Html} {vs ws : List Html} (hx : ReadsSrc x vs) (hy : ReadsSrc y ws)
    (hopens : ∃ rest, y = '<' :: rest) : ReadsSrc (x ++ y) (vs ++ ws) := by
  obtain ⟨rest, rfl⟩ := hopens
  have hmark : (' ' : Char) ∉ "src=\"".toList := by decide
  have hbar : '<' ∉ (' ' :: "src=\"".toList) := by decide
  exact Reads.append hmark hbar hx hy

theorem ReadsSrc.markup {x y : Html} {vs : List Html} (hx : ReadsSrc x vs) (hy : Markup y) :
    ReadsSrc (x ++ y) vs := by
  have h := hx.tag (Reads.of_quiet hy.quiet) hy.opens
  rwa [List.append_nil] at h

/-- An item whose texts settle, the content being written verbatim. -/
structure SettledItem (writer : RssWriter) (item : RssItem) : Prop where
  content : ReadsSrc item.content (values srcMark '"' item.content)
  verbatim : ¬ "]]>".toList <:+: item.content
  description : ∀ d ∈ item.description, settles srcMark '"' (writer.cdata d.toList) = true

end Document

/-! ## One value at a time -/

namespace FeedAssetUrlPolicy

variable {Url : Type} [UrlCrate Url] (uuid : UuidParser) (policy : FeedAssetUrlPolicy Url)

/-- The checker's verdict on one value. -/
def accepts (source : Html) : Bool :=
  if policy.useAbsoluteUrls then
    !(stableAssetId uuid source).isSome &&
      !((assetUrlBase policy.serverRootUrl).any fun assetBase =>
        (stableAbsoluteAssetUrl uuid Url source).any fun url =>
          !assetUrlMatchesBase uuid url assetBase)
  else !(stableAbsoluteAssetUrl uuid Url source).isSome

/-- A value of a stored content as the rebuild writes it. -/
def delivered (source : Html) : Html :=
  ((policy.assetUrlRoot.bind assetUrlBase).bind fun assetBase =>
    (absoluteTarget uuid assetBase source).map escapeAttribute).getD source

/-- The stored content as the rebuild embeds it. -/
theorem contentHtml_renderArticle (article : Article Url) :
    (renderArticle uuid article policy.assetUrlRoot).contentHtml =
      match policy.assetUrlRoot.bind assetUrlBase with
      | none => article.contentHtml.toList
      | some assetBase =>
        rewriteSrcAttributes article.contentHtml.toList (absoluteTarget uuid assetBase) := by
  unfold renderArticle
  cases policy.assetUrlRoot with
  | none => rfl
  | some root =>
    cases hbase : assetUrlBase root with
    | none => simp only [absolutizeAssetUrls, Option.bind_some, hbase]
    | some assetBase => simp only [absolutizeAssetUrls, Option.bind_some, hbase]

/-- **The rebuild reads the stored values and writes their delivered forms.** -/
theorem reads_contentHtml {article : Article Url}
    (h : settles srcMark '"' article.contentHtml.toList = true) :
    ReadsSrc (renderArticle uuid article policy.assetUrlRoot).contentHtml
      ((values srcMark '"' article.contentHtml.toList).map (policy.delivered uuid)) := by
  have hreads := reads_of_settles h
  have hmark : (' ' : Char) ∉ "src=\"".toList := by decide
  rw [contentHtml_renderArticle]
  unfold delivered
  cases policy.assetUrlRoot.bind assetUrlBase with
  | none => simpa using hreads
  | some assetBase =>
    refine Reads.rewrite hmark (fun v w hw => ?_) hreads
    obtain ⟨target, -, rfl⟩ := Option.map_eq_some_iff.mp hw
    exact SafeNode.quote_not_mem_escapeAttribute target

end FeedAssetUrlPolicy

/-! ## Stored contents -/

section Stored

theorem noCut_rewriteSrcAttributes {html : Html} (h : NoCut html)
    (replacement : Html → Option String) : NoCut (rewriteSrcAttributes html replacement) := by
  have hquote : '"' ∉ [']', '>'] := by decide
  have hmark : srcMark = " src=".toList ++ ['"'] := rfl
  refine not_infix_rewrite hquote hmark (fun v w hw => ?_) h
  obtain ⟨target, -, rfl⟩ := Option.map_eq_some_iff.mp hw
  exact NoCut.of_not_mem (SafeNode.gt_not_mem_escapeAttribute target)

variable (uuid : UuidParser)

/-- The archive's own routes: `/assets/` and the hyphenated text of an asset id. -/
def isAssetRoute (source : Html) : Bool :=
  (stableAssetId uuid source).any fun assetId =>
    assetId.all fun c => c.isLower || c.isDigit || c == '-'

variable (Url : Type) [UrlCrate Url] [DecidableEq Url]

/-- **An article whose content went through the archive**: sanitized, then rewritten to asset
routes. -/
structure ArchivedArticle where
  article : Article Url
  document : DomTree
  replacements : List (Url × String)
  content_eq : article.contentHtml.toList
    = rewriteSanitizedHtml (Renderer.sanitize document : Renderer Url).html replacements
  targets : ∀ entry ∈ replacements, isAssetRoute uuid entry.2.toList = true

variable {uuid Url} [LawfulUrlCrate Url]

theorem ArchivedArticle.noCut (a : ArchivedArticle uuid Url) : NoCut a.article.contentHtml.toList := by
  have hsafe : NoCut (Renderer.sanitize a.document : Renderer Url).html := by
    rw [sanitize_html]
    exact (SafeNode.htmlList_noCut (safe_clean a.document)).1
  rw [a.content_eq, rewriteSanitizedHtml]
  split_ifs
  · exact hsafe
  · exact noCut_rewriteSrcAttributes hsafe _

/-- The rebuild embeds an archived content verbatim. -/
theorem ArchivedArticle.verbatim (a : ArchivedArticle uuid Url) (policy : FeedAssetUrlPolicy Url) :
    ¬ "]]>".toList <:+: (renderArticle uuid a.article policy.assetUrlRoot).contentHtml := by
  have hcut : NoCut (renderArticle uuid a.article policy.assetUrlRoot).contentHtml := by
    rw [FeedAssetUrlPolicy.contentHtml_renderArticle]
    cases policy.assetUrlRoot.bind assetUrlBase with
    | none => exact a.noCut
    | some assetBase => exact noCut_rewriteSrcAttributes a.noCut _
  exact fun hin => hcut (List.IsInfix.trans ⟨[']'], [], rfl⟩ hin)

end Stored

/-! ## The archive's own routes are accepted -/

section Routes

variable {uuid : UuidParser} {Url : Type} [UrlCrate Url]

variable [LawfulUrlCrate Url]

/-- The scheme is `http` or `https`. -/
def IsHttp (url : Url) : Prop := UrlCrate.scheme url = "http" ∨ UrlCrate.scheme url = "https"

namespace FeedAssetUrlPolicy

end FeedAssetUrlPolicy

end Routes

/-! ## When a rebuilt feed is delivered -/

section Delivery

variable {uuid : UuidParser} {Url : Type} [UrlCrate Url] [LawfulUrlCrate Url] [DecidableEq Url]

namespace ArchivedArticle

/-- Every ` src="` of the content and of the summary is closed in the same text. -/
structure Settled (writer : RssWriter) (a : ArchivedArticle uuid Url) : Prop where
  content : settles srcMark '"' a.article.contentHtml.toList = true
  summary : ∀ s ∈ nonEmpty a.article.summary, settles srcMark '"' (writer.cdata s.toList) = true

variable {writer : RssWriter} {policy : FeedAssetUrlPolicy Url}

theorem Settled.item {a : ArchivedArticle uuid Url} (h : a.Settled writer) :
    SettledItem writer (toRssItem (renderArticle uuid a.article policy.assetUrlRoot)) where
  content := by
    have hreads := policy.reads_contentHtml uuid h.content
    have hvalues := hreads.values_eq
    rw [← hvalues] at hreads
    exact hreads
  verbatim := a.verbatim policy
  description := h.summary

end ArchivedArticle

end Delivery

/-! ## Two images: one archived, one whose URL looks archived -/

section Samples

end Samples

end Werrss
