import Werrss.Archive.RewriteTree
import Werrss.Machinery.Markup

/-!
# Archive/ImageTags — the images a stored text shows

    <img attributes src="value" />

The sanitizer escapes `<` and `>` wherever they are not delimiters and writes the source of an image
as its last attribute, so the images of a stored text can be read off it.  **Sanitized text shows no
local image**; rewriting it adds the targets it was given and no other.
-/

open Machinery Markup

namespace Werrss

/-- **The text shows an image with this source**: an image tag whose last attribute it is. -/
def Shows (html src : Html) : Prop :=
  '"' ∉ src ∧ ∃ before attrs behind, '>' ∉ attrs ++ src ∧
    html = before ++ '<' :: ("img".toList ++ (attrs ++ (srcMark ++ (src ++ "\" /".toList)))
      ++ '>' :: behind)

/-- A text without letters shows nothing. -/
theorem not_shows_nil (src : Html) : ¬ Shows [] src := by
  rintro ⟨-, before, attrs, behind, -, h⟩
  simp at h

/-! ## Rewriting -/

/-- A source or a target as it is written: escaped, and a target without a space. -/
structure Written (v w : Html) : Prop where
  value : '<' ∉ v ∧ '>' ∉ v
  target : '<' ∉ w ∧ '>' ∉ w ∧ '"' ∉ w ∧ ' ' ∉ w

/-- **What a rewritten text shows** is a target, or was shown before. -/
theorem Shows.of_rewrite {g : Html → Option Html} (hg : ∀ v w, g v = some w → Written v w)
    {html src : Html} (h : Shows (Scan.rewrite srcMark '"' g html) src) :
    (∃ v, g v = some src) ∨ Shows html src := by
  obtain ⟨hquote, before', attrs', behind', hattrs', heq⟩ := h
  have hedited : Edited srcMark '"' g html _ := Edited.rewrite html
  rw [heq] at hedited
  -- The delimiters and the name of the tag are letters that were there before.
  have hlt : ∀ v w, g v = some w → '<' ∉ w := fun v w hvw => (hg v w hvw).target.1
  have hgt : ∀ v w, g v = some w → '>' ∉ w := fun v w hvw => (hg v w hvw).target.2.1
  obtain ⟨before, rest, rfl, -, hrest⟩ := hedited.split (by decide) (by decide) hlt rfl
  obtain ⟨inner, behind, rfl, hinner, -⟩ := hrest.split (by decide) (by decide) hgt rfl
  have hmark : srcMark = ' ' :: ("src=".toList ++ ['"']) := by decide
  rw [hmark] at hinner
  obtain ⟨body, rfl, hbody⟩ := hinner.strip (by decide)
  have hw : ∀ v w, g v = some w → '"' ∉ w ∧ ' ' ∉ w := fun v w hvw => (hg v w hvw).target.2.2
  have hsplit : attrs' ++ (srcMark ++ (src ++ "\" /".toList))
      = attrs' ++ (' ' :: ("src=".toList ++ ['"']) ++ (src ++ '"' :: " /".toList)) := by
    rw [hmark]
    rfl
  rcases hbody.last (by decide) (by decide) hw hquote (by decide) hsplit with hnew | ⟨attrs, hattrs⟩
  · exact .inl hnew
  · refine .inr ⟨hquote, before, attrs, behind, ?_, ?_⟩
    · have hfree : '>' ∉ body := fun hmem => by
        have hout := hbody.mem (fun v w hvw => (hg v w hvw).value.2) hmem
        simp only [List.mem_append] at hout hattrs'
        rcases hout with hout | hout | hout | hout
        · exact hattrs' (.inl hout)
        · exact absurd hout (by decide)
        · exact hattrs' (.inr hout)
        · exact absurd hout (by decide)
      rw [hattrs] at hfree
      simp only [List.mem_append, not_or] at hfree ⊢
      exact ⟨hfree.1, hfree.2.2.1⟩
    · rw [hattrs, hmark]
      rfl

/-! ## The serialised tree in tags -/

namespace SafeNode

mutual

/-- The tags of the serialised tree, and the text between them. -/
def tokens : SafeNode → List (Token Char)
  | .text s => [.text (appendText [] s)]
  | .void name attrs none => [.tag (name.toList ++ (attrsHtml attrs ++ " /".toList))]
  | .void name attrs (some src) =>
    [.tag (name.toList ++ (attrsHtml attrs ++ (srcMark ++ (escapeAttribute src ++ "\" /".toList))))]
  | .element name attrs children =>
    .tag (name.toList ++ attrsHtml attrs) :: (tokensList children ++ [.tag ('/' :: name.toList)])

def tokensList : List SafeNode → List (Token Char)
  | [] => []
  | n :: ns => tokens n ++ tokensList ns

end

theorem tokensList_append : ∀ ms ns : List SafeNode,
    tokensList (ms ++ ns) = tokensList ms ++ tokensList ns
  | [], _ => rfl
  | m :: ms, ns => by
    rw [List.cons_append, tokensList, tokensList, tokensList_append ms ns, List.append_assoc]

mutual

theorem html_eq_flat : ∀ n : SafeNode, html n = flat '<' '>' (tokens n)
  | .text s => by simp [html, tokens, flat, Token.flat]
  | .void name attrs none => by simp [html, tokens, flat, Token.flat, tagHtml]
  | .void name attrs (some src) => by simp [html, tokens, flat, Token.flat, tagHtml]
  | .element name attrs children => by
    have hcons (inner : Html) (ts : List (Token Char)) :
        flat '<' '>' (.tag inner :: ts) = '<' :: (inner ++ ['>']) ++ flat '<' '>' ts := rfl
    rw [html, tokens, hcons, flat_append, htmlList_eq_flat children]
    simp [flat, Token.flat, tagHtml]

theorem htmlList_eq_flat : ∀ ns : List SafeNode, htmlList ns = flat '<' '>' (tokensList ns)
  | [] => rfl
  | n :: ns => by rw [htmlList, tokensList, flat_append, html_eq_flat n, htmlList_eq_flat ns]

end

end SafeNode

/-! ## What is written between the delimiters -/

/-- Neither delimiter is among the letters. -/
def Undelimited (cs : Html) : Prop := '<' ∉ cs ∧ '>' ∉ cs

theorem Undelimited.append {as bs : Html} (ha : Undelimited as) (hb : Undelimited bs) :
    Undelimited (as ++ bs) := by
  refine ⟨fun h => ?_, fun h => ?_⟩
  · exact (List.mem_append.mp h).elim ha.1 hb.1
  · exact (List.mem_append.mp h).elim ha.2 hb.2

/-- Escaping letter by letter leaves no delimiter, where it leaves none of a letter. -/
theorem undelimited_flatMap {f : Char → Html} (hf : ∀ c, Undelimited (f c)) (cs : Html) :
    Undelimited (cs.flatMap f) := by
  refine ⟨fun h => ?_, fun h => ?_⟩
  · obtain ⟨c, -, hc⟩ := List.mem_flatMap.mp h
    exact (hf c).1 hc
  · obtain ⟨c, -, hc⟩ := List.mem_flatMap.mp h
    exact (hf c).2 hc

theorem undelimited_escapedChar (attr : Bool) (c : Char) : Undelimited (escapedChar attr c) := by
  unfold escapedChar
  split_ifs with h1 h2 h3 h4 h5 h6
  all_goals first
    | exact ⟨by decide, by decide⟩
    | exact ⟨fun h => h2 (List.mem_singleton.mp h).symm, fun h => h3 (List.mem_singleton.mp h).symm⟩

theorem undelimited_escapeAttribute (value : String) : Undelimited (escapeAttribute value) := by
  refine undelimited_flatMap (fun c => ?_) _
  unfold escapeAttributeChar
  split_ifs with h1 h2 h3 h4 h5
  all_goals first
    | exact ⟨by decide, by decide⟩
    | exact ⟨fun h => h2 (List.mem_singleton.mp h).symm, fun h => h3 (List.mem_singleton.mp h).symm⟩

/-- The attribute names the sanitizer writes. -/
def writtenAttributes : List String :=
  ["class", "id", "title", "href", "alt", "width", "height", "colspan", "rowspan", "align"]

theorem mem_writtenAttributes {element attr : String} (h : allowedAttribute element attr = true) :
    attr ∈ writtenAttributes := by
  unfold allowedAttribute at h
  split_ifs at h with h1 h2 h3 h4 h5 h6
  all_goals simp_all [writtenAttributes]
  all_goals tauto

section Sanitized

variable {Url : Type} [UrlCrate Url]

variable (Url) in
theorem keptAttributes_written (element : String) (attrs : List (String × String)) :
    ∀ a ∈ keptAttributes Url element attrs, a.1 ∈ writtenAttributes := by
  intro a ha
  obtain ⟨b, -, hb⟩ := List.mem_filterMap.mp ha
  unfold keptAttribute at hb
  split_ifs at hb with h1 h2 h3
  · split at hb
    · cases hb
    · split_ifs at hb
      obtain rfl := Option.some.inj hb
      exact mem_writtenAttributes (by simpa using h2)
  · obtain rfl := Option.some.inj hb
    exact mem_writtenAttributes (by simpa using h2)

/-- Attributes with written names hold no delimiter, and begin with a space. -/
theorem attrsHtml_written {attrs : List (String × String)}
    (h : ∀ a ∈ attrs, a.1 ∈ writtenAttributes) :
    Undelimited (attrsHtml attrs) ∧ (attrsHtml attrs = [] ∨ (attrsHtml attrs).head? = some ' ') := by
  have hname : ∀ name ∈ writtenAttributes, Undelimited name.toList := by
    unfold Undelimited
    decide
  induction attrs with
  | nil => exact ⟨⟨by decide, by decide⟩, .inl rfl⟩
  | cons a attrs ih =>
    obtain ⟨hrest, -⟩ := ih fun b hb => h b (List.mem_cons_of_mem _ hb)
    have ha := hname a.1 (h a (List.mem_cons_self ..))
    have heq : attrsHtml (a :: attrs) = ' ' :: (a.1.toList ++ ("=\"".toList ++
        (a.2.toList.flatMap (escapedChar true) ++ (['"'] ++ attrsHtml attrs)))) := by
      simp [attrsHtml, appendAttribute, appendEscaped]
    rw [heq]
    have hvalue := undelimited_flatMap (undelimited_escapedChar true) a.2.toList
    have hq : Undelimited ['"'] := ⟨by decide, by decide⟩
    have hopen : Undelimited "=\"".toList := ⟨by decide, by decide⟩
    have hspace : Undelimited [' '] := ⟨by decide, by decide⟩
    exact ⟨hspace.append (ha.append (hopen.append (hvalue.append (hq.append hrest)))), .inr rfl⟩

/-! ## Sanitized text -/

theorem undelimited_name : ∀ name ∈ safeElements, Undelimited name.toList := by
  unfold Undelimited
  decide

/-- Only an image's tag begins like one. -/
theorem name_eq_img {name : String} (hname : name ∈ safeElements) {rest inner : Html}
    (hrest : rest = [] ∨ rest.head? = some ' ') (h : name.toList ++ rest = "img".toList ++ inner) :
    name = "img" := by
  have hprefix : ∀ name ∈ safeElements, "img".toList <+: name.toList → name = "img" := by decide
  rcases List.append_eq_append_iff.mp h with ⟨as, himg, hsplit⟩ | ⟨bs, hbs, -⟩
  · cases as with
    | nil => exact String.toList_inj.mp (by simpa using himg.symm)
    | cons a as =>
      -- The rest begins with a space, and no letter of the name is one.
      have ha : a = ' ' := by
        rcases hrest with hnil | hhead
        · rw [hnil] at hsplit
          cases hsplit
        · rw [hsplit] at hhead
          exact Option.some.inj hhead
      have hmem : ' ' ∈ "img".toList := by
        rw [himg, ha]
        exact List.mem_append_right _ (List.mem_cons_self ..)
      exact absurd hmem (by decide)
  · exact hprefix name hname ⟨bs, hbs.symm⟩

variable (Url) in
/-- **A token of sanitized text**: the source of an image tag is the text of a URL. -/
structure Sanitary (t : Token Char) : Prop where
  clean : t.Clean '<' '>'
  image : ∀ inner, t = .tag ("img".toList ++ inner) → ∃ attrs, ∃ url : Url,
    inner = attrs ++ (srcMark ++ (escapeAttribute (UrlCrate.asStr url) ++ "\" /".toList))

/-- The tag of an element that is no image. -/
theorem Sanitary.of_name {name : String} (hname : name ∈ safeElements) (himg : name ≠ "img")
    {rest : Html} (hclean : Undelimited rest) (hrest : rest = [] ∨ rest.head? = some ' ') :
    Sanitary Url (.tag (name.toList ++ rest)) where
  clean := (undelimited_name name hname).append hclean
  image := by
    intro inner h
    exact absurd (name_eq_img hname hrest (Token.tag.inj h)) himg

theorem Sanitary.of_end {name : String} (hname : name ∈ safeElements) :
    Sanitary Url (.tag ('/' :: name.toList)) where
  clean := by
    have hslash : Undelimited ['/'] := ⟨by decide, by decide⟩
    exact hslash.append (undelimited_name name hname)
  image := by
    intro inner h
    exact absurd (List.cons.inj (Token.tag.inj h)).1 (by decide)

theorem Sanitary.of_text (text : String) : Sanitary Url (.text (appendText [] text)) where
  clean := (undelimited_flatMap (undelimited_escapedChar false) text.toList).1
  image := fun inner h => by cases h

theorem keptElement_image_url {name : String} {attrs : List (String × String)} {src : String}
    (h : keptElement Url name attrs = .image src) :
    name = "img" ∧ ∃ url : Url, src = UrlCrate.asStr url := by
  unfold keptElement at h
  split_ifs at h with hdrop hsafe himg
  split at h
  · cases h
  · rename_i url _
    split_ifs at h
    exact ⟨himg, url, (Kept.image.inj h).symm⟩

theorem keptElement_self_ne {name : String} {attrs : List (String × String)}
    (h : keptElement Url name attrs = .self) : name ≠ "img" := by
  unfold keptElement at h
  split_ifs at h with hdrop hsafe himg
  · split at h
    · cases h
    · split_ifs at h
  · exact himg

theorem Sanitary.of_image {name : String} {attrs : List (String × String)} {src : String}
    (h : keptElement Url name attrs = .image src) :
    Sanitary Url (.tag (name.toList ++ (attrsHtml (keptAttributes Url name attrs) ++
      (srcMark ++ (escapeAttribute src ++ "\" /".toList))))) := by
  obtain ⟨rfl, url, rfl⟩ := keptElement_image_url h
  have hattrs := (attrsHtml_written (keptAttributes_written Url "img" attrs)).1
  have hsrc : Undelimited (srcMark ++ (escapeAttribute (UrlCrate.asStr url) ++ "\" /".toList)) :=
    Undelimited.append ⟨by decide, by decide⟩
      ((undelimited_escapeAttribute _).append ⟨by decide, by decide⟩)
  refine ⟨(undelimited_name "img" (by decide)).append (hattrs.append hsrc), fun inner heq => ?_⟩
  exact ⟨_, url, (List.append_cancel_left (Token.tag.inj heq)).symm⟩

open SafeNode in
mutual

/-- **Every token the sanitizer writes is sanitary.** -/
theorem sanitary_safe : ∀ d : DomTree, ∀ t ∈ tokensList (safe Url d), Sanitary Url t
  | .node (.text content) children => by
    intro t ht
    rw [safe, tokensList, tokens, List.singleton_append, List.mem_cons] at ht
    rcases ht with rfl | ht
    · exact .of_text content
    · exact sanitary_safeList children t ht
  | .node (.element name attrs) children => by
    intro t ht
    have hchildren := sanitary_safeList children
    obtain ⟨hclean, hhead⟩ := attrsHtml_written (keptAttributes_written Url name attrs)
    rw [safe] at ht
    cases hkept : keptElement Url name attrs with
    | nothing => simp [hkept, tokensList] at ht
    | content =>
      simp only [hkept] at ht
      exact hchildren t ht
    | image src =>
      simp only [hkept, tokensList, tokens, List.singleton_append, List.mem_cons] at ht
      rcases ht with rfl | ht
      · exact .of_image hkept
      · exact hchildren t ht
    | self =>
      have hname := keptElement_self hkept
      have himg := keptElement_self_ne hkept
      simp only [hkept] at ht
      split_ifs at ht with hvoid
      · simp only [tokensList, tokens, List.singleton_append, List.mem_cons] at ht
        rcases ht with rfl | ht
        · refine .of_name hname himg (hclean.append ⟨by decide, by decide⟩) (.inr ?_)
          rcases hhead with hnil | hhead
          · rw [hnil]
            rfl
          · rw [List.head?_append, hhead]
            rfl
        · exact hchildren t ht
      · simp only [tokensList, tokens, List.append_nil, List.mem_cons, List.mem_append,
          List.not_mem_nil, or_false] at ht
        rcases ht with rfl | ht | rfl
        · exact .of_name hname himg hclean hhead
        · exact hchildren t ht
        · exact .of_end hname
  | .node .document children => sanitary_safeList children
  | .node .fragment children => sanitary_safeList children
  | .node .doctype children => sanitary_safeList children
  | .node .comment children => sanitary_safeList children
  | .node .processingInstruction children => sanitary_safeList children

theorem sanitary_safeList : ∀ ds : List DomTree, ∀ t ∈ tokensList (safeList Url ds), Sanitary Url t
  | [] => by
    intro t ht
    rw [safeList] at ht
    cases ht
  | d :: ds => by
    intro t ht
    rw [safeList, tokensList_append, List.mem_append] at ht
    rcases ht with ht | ht
    · exact sanitary_safe d t ht
    · exact sanitary_safeList ds t ht

end

variable [LawfulUrlCrate Url] [DecidableEq Url]

/-- **Sanitized text shows URLs only.** -/
theorem Shows.url_of_sanitize {d : DomTree} {src : Html}
    (h : Shows (Renderer.sanitize d : Renderer Url).html src) :
    ∃ url : Url, src = escapeAttribute (UrlCrate.asStr url) := by
  obtain ⟨hquote, before, attrs, behind, hgt, heq⟩ := h
  rw [sanitize_html, SafeNode.htmlList_eq_flat] at heq
  have hsafe : ∀ t ∈ SafeNode.tokensList (safe Url d), Sanitary Url t := sanitary_safe d
  have hinner : '>' ∉ "img".toList ++ (attrs ++ (srcMark ++ (src ++ "\" /".toList))) := by
    simp only [List.mem_append, not_or] at hgt ⊢
    exact ⟨by decide, hgt.1, by decide, hgt.2, by decide⟩
  have hmem := tag_mem_of_flat (by decide) hinner (fun t ht => (hsafe t ht).clean) heq
  obtain ⟨attrs', url, hattrs⟩ := (hsafe _ hmem).image _ rfl
  refine ⟨url, ?_⟩
  -- Read backwards, both sources end at the same quote.
  have hback := congrArg List.reverse hattrs
  simp only [List.reverse_append] at hback
  have hends : src.reverse ++ '"' :: ("src=".toList.reverse ++ [' '] ++ attrs.reverse)
      = (escapeAttribute (UrlCrate.asStr url)).reverse
        ++ '"' :: ("src=".toList.reverse ++ [' '] ++ attrs'.reverse) := by
    have hmark : srcMark.reverse = '"' :: ("src=".toList.reverse ++ [' ']) := by decide
    rw [hmark] at hback
    simpa using hback
  have hquote' := SafeNode.quote_not_mem_escapeAttribute (UrlCrate.asStr url)
  have hrev := append_cons_inj (by simpa using hquote) (by simpa using hquote') hends
  exact List.reverse_inj.mp hrev

omit [DecidableEq Url] in
/-- The text of a URL does not begin with a slash, escaped or not. -/
theorem escapeAttribute_ne_slash (url : Url) (rest : Html) :
    escapeAttribute (UrlCrate.asStr url) ≠ '/' :: rest := by
  intro h
  cases hs : (UrlCrate.asStr url).toList with
  | nil =>
    rw [escapeAttribute, hs] at h
    cases h
  | cons c cs =>
    have hc : c = '/' := by
      rw [escapeAttribute, hs, List.flatMap_cons] at h
      unfold escapeAttributeChar at h
      split_ifs at h
      all_goals first
        | exact absurd (List.cons.inj h).1 (by decide)
        | exact (List.cons.inj h).1
    have hhead : (UrlCrate.asStr url).toList.head? = some '/' := by rw [hs, hc]; rfl
    have hnone : (UrlCrate.parse (UrlCrate.asStr url) : Option Url) = none :=
      LawfulUrlCrate.parse_relative _ hhead
    rw [LawfulUrlCrate.parse_asStr] at hnone
    cases hnone

/-- **Rewriting adds the targets it was given**: a local image of a rewritten text is one of them. -/
theorem Shows.target_of_rewrite {d : DomTree} {replacements : List (Url × String)}
    (htarget : ∀ entry ∈ replacements, ' ' ∉ escapeAttribute entry.2) {rest : Html}
    (h : Shows (rewriteSanitizedHtml (Renderer.sanitize d : Renderer Url).html replacements)
      ('/' :: rest)) :
    ∃ entry ∈ replacements, escapeAttribute entry.2 = '/' :: rest := by
  have hnever : ¬ Shows (Renderer.sanitize d : Renderer Url).html ('/' :: rest) := fun hshows => by
    obtain ⟨url, hurl⟩ := hshows.url_of_sanitize
    exact escapeAttribute_ne_slash url rest hurl.symm
  unfold rewriteSanitizedHtml at h
  split_ifs at h with hempty
  · exact absurd h hnever
  · have hg : ∀ v w, (replacementFor replacements v).map escapeAttribute = some w →
        Written v w ∧ ∃ entry ∈ replacements, escapeAttribute entry.2 = w := by
      intro v w hvw
      obtain ⟨target, hfound, rfl⟩ := Option.map_eq_some_iff.mp hvw
      obtain ⟨entry, hentry, rfl⟩ := Option.map_eq_some_iff.mp hfound
      have hv : escapeAttribute (UrlCrate.asStr entry.1) = v := by
        simpa using List.find?_some hentry
      have hmem : entry ∈ replacements := List.mem_reverse.mp (List.mem_of_find?_eq_some hentry)
      have hclean := undelimited_escapeAttribute entry.2
      refine ⟨⟨hv ▸ undelimited_escapeAttribute _, hclean.1, hclean.2, ?_, htarget entry hmem⟩,
        entry, hmem, rfl⟩
      exact SafeNode.quote_not_mem_escapeAttribute entry.2
    rcases h.of_rewrite (fun v w hvw => (hg v w hvw).1) with ⟨v, hv⟩ | hshows
    · exact (hg v _ hv).2
    · exact absurd hshows hnever

end Sanitized

end Werrss
