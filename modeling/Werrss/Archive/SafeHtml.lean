import Werrss.Archive.RewriteTree
import Werrss.Machinery.TagReader

/-!
# Archive/SafeHtml — what a reader makes of sanitized HTML

    DOM ──edges──▸ Renderer ──▸ html ──read──▸ tokens, balanced
     ├──────safe─────▸ tree ──────readTokens─────────▴
     └──approvedSources──▸ external_assets

The reader finds the tags of the sanitized tree, with their attributes, and nothing else: no value
and no text opens a tag or ends an attribute.  Kept links and sources are absolute URLs without
credentials or signature, and the external assets are the approved image sources in document order.
-/

open Machinery TagReader

namespace Werrss

/-! ## The tokens of a sanitized tree -/

namespace SafeNode

/-- An attribute as a reader reports it: the value is still escaped. -/
def readAttr (a : String × String) : List Char × List Char :=
  (a.1.toList, a.2.toList.flatMap (escapedChar true))

/-- The attributes of an element, the image source last. -/
def readAttrs (attrs : List (String × String)) (src : Option String) :
    List (List Char × List Char) :=
  attrs.map readAttr ++ (src.map fun src => ("src".toList, escapeAttribute src)).toList

mutual

/-- What a reader reports of a node. -/
def readTokens : SafeNode → List Token
  | .text s => (s.toList.flatMap (escapedChar false)).map .char
  | .void name attrs src => [.empty name.toList (readAttrs attrs src)]
  | .element name attrs children =>
    [.opened name.toList (readAttrs attrs none)] ++ readTokensList children ++ [.closed name.toList]

def readTokensList : List SafeNode → List Token
  | [] => []
  | n :: ns => readTokens n ++ readTokensList ns

end

mutual

/-- The tags of a node satisfy `P`. -/
def All (P : String → List (String × String) → Option String → Prop) : SafeNode → Prop
  | .text _ => True
  | .void name attrs src => P name attrs src
  | .element name attrs children => P name attrs none ∧ AllList P children

def AllList (P : String → List (String × String) → Option String → Prop) : List SafeNode → Prop
  | [] => True
  | n :: ns => All P n ∧ AllList P ns

end

theorem allList_append {P : String → List (String × String) → Option String → Prop} :
    ∀ {ms ns : List SafeNode}, AllList P ms → AllList P ns → AllList P (ms ++ ns)
  | [], _, _, h => h
  | _ :: _, _, hm, h => ⟨hm.1, allList_append hm.2 h⟩

/-- Names a reader reads. -/
def Readable (name : String) (attrs : List (String × String)) : Prop :=
  IsName name.toList ∧ ∀ a ∈ attrs, IsName a.1.toList

/-- The tags of a node have names a reader reads. -/
abbrev Legible (n : SafeNode) : Prop := All (fun name attrs _ => Readable name attrs) n

abbrev LegibleList (ns : List SafeNode) : Prop := AllList (fun name attrs _ => Readable name attrs) ns

/-! ## Balance -/

mutual

/-- **The tags of a tree are balanced.** -/
theorem readTokens_balanced : ∀ n : SafeNode, Balanced (readTokens n)
  | .text _ => .chars _
  | .void _ _ _ => .empty _ _
  | .element _ _ children => (readTokensList_balanced children).element _ _

theorem readTokensList_balanced : ∀ ns : List SafeNode, Balanced (readTokensList ns)
  | [] => .nil
  | n :: ns => (readTokens_balanced n).append (readTokensList_balanced ns)

end

/-! ## Reading -/

/-- No escaped value holds a double quote, and no escaped text an angle bracket. -/
theorem not_mem_escaped (s : String) (attr : Bool) :
    '<' ∉ s.toList.flatMap (escapedChar attr) ∧
      (attr = true → '"' ∉ s.toList.flatMap (escapedChar attr)) := by
  refine ⟨fun h => ?_, fun hattr h => ?_⟩
  · obtain ⟨c, -, hc⟩ := List.mem_flatMap.mp h
    unfold escapedChar at hc
    split_ifs at hc with h1 h2 h3 h4 h5 h6
    all_goals first
      | exact absurd hc (by decide)
      | exact h2 (List.mem_singleton.mp hc).symm
  · obtain ⟨c, -, hc⟩ := List.mem_flatMap.mp h
    unfold escapedChar at hc
    split_ifs at hc with h1 h2 h3 h4 h5 h6
    all_goals first
      | exact absurd hc (by decide)
      | exact h4 ⟨(List.mem_singleton.mp hc).symm, hattr⟩

theorem attrText_readAttr (a : String × String) : attrText (readAttr a) = appendAttribute [] a.1 a.2 := by
  simp [attrText, readAttr, appendAttribute, appendEscaped]

theorem tagText_readAttrs (name : String) (attrs : List (String × String)) :
    tagText name.toList (readAttrs attrs none) = tagHtml name attrs := by
  have hattrs : (attrs.map readAttr).flatMap attrText = attrsHtml attrs := by
    rw [attrsHtml, List.flatMap_map]
    exact List.flatMap_congr fun a _ => attrText_readAttr a
  rw [readAttrs, Option.map_none, Option.toList_none, List.append_nil, tagText, hattrs]
  rfl

theorem tagText_readAttrs_src (name : String) (attrs : List (String × String)) (src : String) :
    tagText name.toList (readAttrs attrs (some src))
      = tagHtml name attrs ++ (srcMark ++ escapeAttribute src ++ ['"']) := by
  have hplain := tagText_readAttrs name attrs
  simp only [readAttrs, Option.map_none, Option.toList_none, List.append_nil, tagText] at hplain
  simp only [readAttrs, Option.map_some, Option.toList_some, tagText, List.flatMap_append]
  rw [← List.append_assoc, hplain]
  simp [attrText, srcMark]

theorem isName_src : IsName "src".toList := ⟨by decide, forall_mem_of_all (by decide)⟩

theorem readAttrs_readable {name : String} {attrs : List (String × String)}
    (h : Readable name attrs) (src : Option String) :
    ∀ a ∈ readAttrs attrs src, IsName a.1 ∧ '"' ∉ a.2 := by
  intro a ha
  rcases List.mem_append.mp ha with ha | ha
  · obtain ⟨b, hb, rfl⟩ := List.mem_map.mp ha
    exact ⟨h.2 b hb, (not_mem_escaped b.2 true).2 rfl⟩
  · obtain ⟨value, -, rfl⟩ := Option.map_eq_some_iff.mp (Option.mem_toList.mp ha)
    exact ⟨isName_src, quote_not_mem_escapeAttribute value⟩

mutual

/-- **A reader finds the tags of the tree**, and nothing else. -/
theorem reads_html : ∀ {n : SafeNode}, Legible n → Reads .text (html n) .text (readTokens n)
  | .text s, _ => by
    have hread := reads_text (not_mem_escaped s false).1
    rwa [html, readTokens, appendText, appendEscaped, List.nil_append]
  | .void name attrs none, h => by
    have hread := reads_empty h.1 (readAttrs_readable h none)
    rw [tagText_readAttrs] at hread
    exact hread
  | .void name attrs (some src), h => by
    have hread := reads_empty h.1 (readAttrs_readable h (some src))
    rw [tagText_readAttrs_src] at hread
    exact hread
  | .element name attrs children, h => by
    have hopen := reads_opened h.1.1 (readAttrs_readable h.1 none)
    rw [tagText_readAttrs] at hopen
    exact (hopen.append (reads_htmlList h.2)).append (reads_closed h.1.1.2)

theorem reads_htmlList : ∀ {ns : List SafeNode}, LegibleList ns →
    Reads .text (htmlList ns) .text (readTokensList ns)
  | [], _ => .refl _
  | _ :: _, h => (reads_html h.1).append (reads_htmlList h.2)

end

mutual

theorem All.mono {P Q : String → List (String × String) → Option String → Prop}
    (hpq : ∀ name attrs src, P name attrs src → Q name attrs src) :
    ∀ {n : SafeNode}, All P n → All Q n
  | .text _, _ => trivial
  | .void _ _ _, h => hpq _ _ _ h
  | .element _ _ _, h => ⟨hpq _ _ _ h.1, AllList.mono hpq h.2⟩

theorem AllList.mono {P Q : String → List (String × String) → Option String → Prop}
    (hpq : ∀ name attrs src, P name attrs src → Q name attrs src) :
    ∀ {ns : List SafeNode}, AllList P ns → AllList Q ns
  | [], _ => trivial
  | _ :: _, h => ⟨All.mono hpq h.1, AllList.mono hpq h.2⟩

end

mutual

/-- A property of the tags of a tree is one of the tokens it is read as. -/
theorem readTokens_of_all {P : String → List (String × String) → Option String → Prop}
    {Q : List (List Char × List Char) → Prop}
    (hpq : ∀ name attrs src, P name attrs src → Q (readAttrs attrs src)) :
    ∀ {n : SafeNode}, All P n → ∀ name attrs,
      (.opened name attrs ∈ readTokens n ∨ .empty name attrs ∈ readTokens n) → Q attrs
  | .text _, _, _, _, hmem => by simp [readTokens] at hmem
  | .void _ tagAttrs src, h, _, _, hmem => by
    simp only [readTokens, List.mem_singleton, reduceCtorEq, false_or, Token.empty.injEq] at hmem
    rw [hmem.2]
    exact hpq _ _ _ h
  | .element _ tagAttrs children, h, name, attrs, hmem => by
    simp only [readTokens, List.mem_append, List.mem_singleton, reduceCtorEq, or_false, false_or,
      Token.opened.injEq] at hmem
    rcases hmem with (⟨-, rfl⟩ | hmem) | hmem
    · exact hpq _ _ _ h.1
    · exact readTokensList_of_all hpq h.2 name attrs (.inl hmem)
    · exact readTokensList_of_all hpq h.2 name attrs (.inr hmem)

theorem readTokensList_of_all {P : String → List (String × String) → Option String → Prop}
    {Q : List (List Char × List Char) → Prop}
    (hpq : ∀ name attrs src, P name attrs src → Q (readAttrs attrs src)) :
    ∀ {ns : List SafeNode}, AllList P ns → ∀ name attrs,
      (.opened name attrs ∈ readTokensList ns ∨ .empty name attrs ∈ readTokensList ns) → Q attrs
  | [], _, _, _, hmem => by simp [readTokensList] at hmem
  | _ :: _, h, name, attrs, hmem => by
    simp only [readTokensList, List.mem_append] at hmem
    rcases hmem with (hmem | hmem) | (hmem | hmem)
    · exact readTokens_of_all hpq h.1 name attrs (.inl hmem)
    · exact readTokensList_of_all hpq h.2 name attrs (.inl hmem)
    · exact readTokens_of_all hpq h.1 name attrs (.inr hmem)
    · exact readTokensList_of_all hpq h.2 name attrs (.inr hmem)

end

/-! ## Characters -/

/-- What an escaped text holds is valid in XML 1.0. -/
theorem allowed_escaped (s : String) (attr : Bool) :
    ∀ c ∈ s.toList.flatMap (escapedChar attr), isAllowedHtmlCharacter c = true := by
  have hall : ∀ entity ∈ ["&amp;", "&lt;", "&gt;", "&quot;", "&#39;"],
      (entity.toList.all fun c => decide (isAllowedHtmlCharacter c = true)) = true := by decide
  have hentity : ∀ entity ∈ ["&amp;", "&lt;", "&gt;", "&quot;", "&#39;"], ∀ c ∈ entity.toList,
      isAllowedHtmlCharacter c = true := fun entity h => forall_mem_of_all (hall entity h)
  intro c hc
  obtain ⟨d, -, hd⟩ := List.mem_flatMap.mp hc
  unfold escapedChar at hd
  split_ifs at hd with h1 h2 h3 h4 h5 hallowed
  · exact hentity "&amp;" (by decide) c hd
  · exact hentity "&lt;" (by decide) c hd
  · exact hentity "&gt;" (by decide) c hd
  · exact hentity "&quot;" (by decide) c hd
  · exact hentity "&#39;" (by decide) c hd
  · rw [List.mem_singleton.mp hd]
    exact hallowed
  · exact absurd hd List.not_mem_nil

theorem allowed_of_isName {cs : List Char} (h : IsName cs) :
    ∀ c ∈ cs, isAllowedHtmlCharacter c = true := by
  intro c hc
  have hname := h.2 c hc
  simp only [isNameChar, Char.isDigit, Bool.or_eq_true, Bool.and_eq_true,
    decide_eq_true_eq, ge_iff_le, UInt32.le_iff_toNat_le] at hname
  simp only [isAllowedHtmlCharacter, Bool.or_eq_true, Bool.and_eq_true, decide_eq_true_eq]
  rcases hname with h | h
  · have h' : (decide (c.val ≥ 97) && decide (c.val ≤ 122)) = true := h
    rw [Bool.and_eq_true, decide_eq_true_eq, decide_eq_true_eq, ge_iff_le, UInt32.le_iff_toNat_le,
      UInt32.le_iff_toNat_le] at h'
    change 97 ≤ c.toNat ∧ c.toNat ≤ 122 at h'
    omega
  · change 48 ≤ c.toNat ∧ c.toNat ≤ 57 at h
    omega

theorem allowed_attrText {a : List Char × List Char} (hname : IsName a.1)
    (hvalue : ∀ c ∈ a.2, isAllowedHtmlCharacter c = true) :
    ∀ c ∈ attrText a, isAllowedHtmlCharacter c = true := by
  have hequals : ∀ c ∈ "=\"".toList, isAllowedHtmlCharacter c = true :=
    forall_mem_of_all (by decide)
  intro c hc
  simp only [attrText, List.cons_append, List.mem_cons, List.mem_append, List.not_mem_nil,
    or_false] at hc
  rcases hc with rfl | ((hc | hc) | hc) | rfl
  · decide
  · exact allowed_of_isName hname c hc
  · exact hequals c hc
  · exact hvalue c hc
  · decide

/-- The text of a tag, if its values are valid. -/
theorem allowed_tagText {name : List Char} {attrs : List (List Char × List Char)}
    (hname : IsName name) (hattrs : ∀ a ∈ attrs, IsName a.1 ∧
      ∀ c ∈ a.2, isAllowedHtmlCharacter c = true) :
    ∀ c ∈ tagText name attrs, isAllowedHtmlCharacter c = true := by
  intro c hc
  rcases List.mem_append.mp hc with hc | hc
  · rcases List.mem_cons.mp hc with rfl | hc
    · decide
    · exact allowed_of_isName hname c hc
  · obtain ⟨a, ha, hc⟩ := List.mem_flatMap.mp hc
    exact allowed_attrText (hattrs a ha).1 (hattrs a ha).2 c hc

end SafeNode

/-! ## What the sanitizer keeps -/

section Kept

open SafeNode

variable {Url : Type} [UrlCrate Url]

/-- **A kept tag**: a safe element with its allowed attributes; a source stands in images only, and
is the approved one. -/
structure KeptTag (Url : Type) [UrlCrate Url] (name : String) (attrs : List (String × String))
    (src : Option String) : Prop where
  safe : name ∈ safeElements
  attrs : ∃ given, attrs = keptAttributes Url name given ∧ ∀ value ∈ src,
    name = "img" ∧ ∃ url : Url, imageSource given = some url ∧ hasProviderSignature url = false ∧
      value = UrlCrate.asStr url

theorem keptElement_image_source {name value : String} {attrs : List (String × String)}
    (h : keptElement Url name attrs = .image value) : name ∈ safeElements ∧ name = "img" ∧
      ∃ url : Url, imageSource attrs = some url ∧ hasProviderSignature url = false ∧
        value = UrlCrate.asStr url := by
  unfold keptElement at h
  split_ifs at h with hdrop hsafe himg
  refine ⟨hsafe, himg, ?_⟩
  cases hsource : (imageSource attrs : Option Url) with
  | none =>
    rw [hsource] at h
    cases h
  | some url =>
    rw [hsource] at h
    simp only at h
    split_ifs at h with hsigned
    exact ⟨url, rfl, by simpa using hsigned, (Kept.image.inj h).symm⟩

theorem keptTag_plain {name : String} (attrs : List (String × String)) (h : name ∈ safeElements) :
    KeptTag Url name (keptAttributes Url name attrs) none := ⟨h, attrs, rfl, fun _ hmem => by cases hmem⟩

mutual

/-- **Every tag of a sanitized tree is a kept one.** -/
theorem safe_kept : ∀ t : DomTree, AllList (KeptTag Url) (safe Url t)
  | .node (.text _) children => ⟨trivial, safeList_kept children⟩
  | .node (.element name attrs) children => by
    rw [safe]
    cases hkept : keptElement Url name attrs with
    | nothing => exact trivial
    | content => exact safeList_kept children
    | image value =>
      obtain ⟨hsafe, himg, hsource⟩ := keptElement_image_source hkept
      refine ⟨⟨hsafe, attrs, rfl, ?_⟩, safeList_kept children⟩
      rintro _ ⟨⟩
      exact ⟨himg, hsource⟩
    | self =>
      have hname := keptElement_self hkept
      simp only
      split_ifs
      · exact ⟨keptTag_plain attrs hname, safeList_kept children⟩
      · exact ⟨⟨keptTag_plain attrs hname, safeList_kept children⟩, trivial⟩
  | .node .document children => by rw [safe]; exact safeList_kept children
  | .node .fragment children => by rw [safe]; exact safeList_kept children
  | .node .doctype children => by rw [safe]; exact safeList_kept children
  | .node .comment children => by rw [safe]; exact safeList_kept children
  | .node .processingInstruction children => by rw [safe]; exact safeList_kept children

theorem safeList_kept : ∀ ts : List DomTree, AllList (KeptTag Url) (safeList Url ts)
  | [] => trivial
  | t :: ts => allList_append (safe_kept t) (safeList_kept ts)

end

/-- The names of the allowed attributes. -/
theorem mem_of_allowedAttribute {element attr : String}
    (h : allowedAttribute element attr = true) :
    attr ∈ ["class", "id", "title", "href", "alt", "width", "height", "colspan", "rowspan",
      "align"] := by
  unfold allowedAttribute at h
  split_ifs at h <;> simp_all
  all_goals tauto

/-- What an attribute that is kept was. -/
theorem keptAttribute_eq_some {element attr value : String} {a : String × String}
    (h : keptAttribute Url element attr value = some a) :
    a.1 = attr ∧ attr ≠ "src" ∧ allowedAttribute element attr = true ∧
      (attr = "href" → ∃ url : Url, approvedHttpUrl value false = some url ∧
        hasProviderSignature url = false ∧ a.2 = UrlCrate.asStr url) := by
  unfold keptAttribute at h
  split_ifs at h with hsrc hallowed hhref
  · split at h
    · cases h
    · rename_i url hurl
      split_ifs at h with hsigned
      obtain rfl := Option.some.inj h
      exact ⟨rfl, fun heq => hsrc (.inl heq), by simpa using hallowed,
        fun _ => ⟨url, hurl, by simpa using hsigned, rfl⟩⟩
  · obtain rfl := Option.some.inj h
    exact ⟨rfl, fun heq => hsrc (.inl heq), by simpa using hallowed,
      fun heq => absurd heq hhref⟩

theorem isName_of_safe {name : String} (h : name ∈ safeElements) : IsName name.toList := by
  have hall : ∀ name ∈ safeElements, name.toList ≠ [] ∧
      (name.toList.all fun c => decide (isNameChar c = true)) = true := by decide
  exact ⟨(hall name h).1, forall_mem_of_all (hall name h).2⟩

theorem isName_of_allowed {element attr : String} (h : allowedAttribute element attr = true) :
    IsName attr.toList := by
  have hall : ∀ attr ∈ ["class", "id", "title", "href", "alt", "width", "height", "colspan",
      "rowspan", "align"], attr.toList ≠ [] ∧
      (attr.toList.all fun c => decide (isNameChar c = true)) = true := by decide
  have hmem := hall attr (mem_of_allowedAttribute h)
  exact ⟨hmem.1, forall_mem_of_all hmem.2⟩

/-- A kept tag has names a reader reads. -/
theorem KeptTag.readable {name : String} {attrs : List (String × String)} {src : Option String}
    (h : KeptTag Url name attrs src) : Readable name attrs := by
  refine ⟨isName_of_safe h.safe, ?_⟩
  obtain ⟨given, rfl, -⟩ := h.attrs
  intro a ha
  obtain ⟨b, -, hkept⟩ := List.mem_filterMap.mp ha
  obtain ⟨hname, -, hallowed, -⟩ := keptAttribute_eq_some hkept
  rw [hname]
  exact isName_of_allowed hallowed

/-! ## Links and sources -/

/-- **An `http` or `https` URL with a host** and without credentials. -/
structure HasPlainAuthority (url : Url) : Prop where
  scheme : UrlCrate.scheme url = "http" ∨ UrlCrate.scheme url = "https"
  host : (UrlCrate.hostStr url).isSome = true
  username : UrlCrate.username url = ""
  password : UrlCrate.password url = none

variable [LawfulUrlCrate Url] [LawfulUrlFragment Url]

omit [LawfulUrlFragment Url] in
theorem HasPlainAuthority.clearPort {url : Url} (h : HasPlainAuthority url) :
    HasPlainAuthority (UrlCrate.clearPort url) where
  scheme := by
    rw [LawfulUrlCrate.scheme_clearPort]
    exact h.scheme
  host := by
    rw [LawfulUrlCrate.hostStr_clearPort]
    exact h.host
  username := (LawfulUrlCrate.username_clearPort url).trans h.username
  password := (LawfulUrlCrate.password_clearPort url).trans h.password

omit [LawfulUrlCrate Url] in
theorem HasPlainAuthority.clearFragment {url : Url} (h : HasPlainAuthority url) :
    HasPlainAuthority (UrlCrate.clearFragment url) where
  scheme := by
    rw [LawfulUrlFragment.scheme_clearFragment]
    exact h.scheme
  host := by
    rw [LawfulUrlFragment.hostStr_clearFragment]
    exact h.host
  username := (LawfulUrlFragment.username_clearFragment url).trans h.username
  password := (LawfulUrlFragment.password_clearFragment url).trans h.password

/-- **An approved URL has a plain authority.** -/
theorem hasPlainAuthority_of_approved {value : String} {stripFragment : Bool} {url : Url}
    (h : approvedHttpUrl value stripFragment = some url) : HasPlainAuthority url := by
  unfold approvedHttpUrl at h
  simp only at h
  by_cases huserinfo : authorityContainsUserinfo (trim value) = true
  · rw [if_pos huserinfo] at h
    cases h
  rw [if_neg huserinfo] at h
  cases hparsed : (UrlCrate.parse (trim value) : Option Url) with
  | none =>
    rw [hparsed] at h
    cases h
  | some parsed =>
    rw [hparsed] at h
    simp only at h
    by_cases hrefused : (!(UrlCrate.scheme parsed == "http" || UrlCrate.scheme parsed == "https")
        || (UrlCrate.hostStr parsed).isNone || decide (UrlCrate.username parsed ≠ "")
        || (UrlCrate.password parsed).isSome) = true
    · rw [if_pos hrefused] at h
      cases h
    rw [if_neg hrefused] at h
    have hplain : HasPlainAuthority parsed := by
      have hkept := Bool.eq_false_iff.mpr hrefused
      simp only [Bool.or_eq_false_iff, Bool.not_eq_false', Bool.or_eq_true, beq_iff_eq,
        decide_eq_false_iff_not, not_not, Option.isNone_eq_false_iff, Option.isSome_eq_false_iff,
        Option.isNone_iff_eq_none] at hkept
      obtain ⟨⟨⟨hscheme, hhost⟩, husername⟩, hpassword⟩ := hkept
      exact ⟨hscheme, hhost, husername, hpassword⟩
    obtain rfl := Option.some.inj h
    have hport : HasPlainAuthority (if (UrlCrate.scheme parsed == "http" &&
        UrlCrate.port parsed == some 80 || UrlCrate.scheme parsed == "https" &&
        UrlCrate.port parsed == some 443) = true then UrlCrate.clearPort parsed else parsed) := by
      split_ifs
      · exact hplain.clearPort
      · exact hplain
    cases stripFragment
    · exact hport
    · exact hport.clearFragment

/-- **A safe destination**: the text of an absolute `http` or `https` URL without credentials and
without a signature, escaped. -/
def IsSafeTarget (Url : Type) [UrlCrate Url] (target : List Char) : Prop :=
  ∃ url : Url, target = escapeAttribute (UrlCrate.asStr url) ∧
    UrlCrate.parse (UrlCrate.asStr url) = some url ∧ HasPlainAuthority url ∧
    hasProviderSignature url = false

theorem isSafeTarget_of_approved {value : String} {stripFragment : Bool} {url : Url}
    (h : approvedHttpUrl value stripFragment = some url)
    (hunsigned : hasProviderSignature url = false) :
    IsSafeTarget Url (escapeAttribute (UrlCrate.asStr url)) :=
  ⟨url, rfl, LawfulUrlCrate.parse_asStr url, hasPlainAuthority_of_approved h, hunsigned⟩

omit [LawfulUrlCrate Url] [LawfulUrlFragment Url] in
/-- An approved image source is an approved URL. -/
theorem approved_of_imageSource {attrs : List (String × String)} {url : Url}
    (h : imageSource attrs = some url) : ∃ value, approvedHttpUrl value true = some url := by
  obtain ⟨attr, -, hattr⟩ := List.exists_of_findSome?_eq_some h
  obtain ⟨value, -, happroved⟩ := Option.bind_eq_some_iff.mp hattr
  exact ⟨value, happroved⟩

/-- The links and sources among read attributes. -/
def LinksSafe (Url : Type) [UrlCrate Url] (attrs : List (List Char × List Char)) : Prop :=
  ∀ a ∈ attrs, a.1 = "href".toList ∨ a.1 = "src".toList → IsSafeTarget Url a.2

/-- **The links and sources of a kept tag are safe.** -/
theorem KeptTag.linksSafe {name : String} {attrs : List (String × String)} {src : Option String}
    (h : KeptTag Url name attrs src) : LinksSafe Url (readAttrs attrs src) := by
  obtain ⟨given, rfl, hsource⟩ := h.attrs
  intro a ha hlink
  rcases List.mem_append.mp ha with ha | ha
  · obtain ⟨b, hb, rfl⟩ := List.mem_map.mp ha
    obtain ⟨c, -, hkept⟩ := List.mem_filterMap.mp hb
    obtain ⟨hname, hnotSrc, -, hhref⟩ := keptAttribute_eq_some hkept
    have hattr : c.1 = "href" := by
      rcases hlink with hlink | hlink
      · exact hname.symm.trans (String.toList_injective hlink)
      · exact absurd (hname.symm.trans (String.toList_injective hlink)) hnotSrc
    obtain ⟨url, happroved, hunsigned, hvalue⟩ := hhref hattr
    have htarget : (readAttr b).2 = escapeAttribute (UrlCrate.asStr url) := by
      rw [readAttr, hvalue]
      exact escapedChar_eq url
    rw [htarget]
    exact isSafeTarget_of_approved happroved hunsigned
  · obtain ⟨value, hvalue, rfl⟩ := Option.map_eq_some_iff.mp (Option.mem_toList.mp ha)
    obtain ⟨-, url, happroved, hunsigned, rfl⟩ := hsource value hvalue
    obtain ⟨given', happroved⟩ := approved_of_imageSource happroved
    exact isSafeTarget_of_approved happroved hunsigned

omit [LawfulUrlFragment Url] in
/-- The values of a kept tag are valid in XML 1.0. -/
theorem KeptTag.allowed {name : String} {attrs : List (String × String)} {src : Option String}
    (h : KeptTag Url name attrs src) :
    ∀ c ∈ tagText name.toList (readAttrs attrs src), isAllowedHtmlCharacter c = true := by
  obtain ⟨hname, hattrs⟩ := h.readable
  obtain ⟨given, -, hsource⟩ := h.attrs
  refine allowed_tagText hname fun a ha => ?_
  rcases List.mem_append.mp ha with ha | ha
  · obtain ⟨b, hb, rfl⟩ := List.mem_map.mp ha
    exact ⟨hattrs b hb, allowed_escaped b.2 true⟩
  · obtain ⟨value, hvalue, rfl⟩ := Option.map_eq_some_iff.mp (Option.mem_toList.mp ha)
    obtain ⟨-, url, -, -, rfl⟩ := hsource value hvalue
    refine ⟨isName_src, ?_⟩
    simp only
    rw [← escapedChar_eq url]
    exact allowed_escaped _ true

omit [LawfulUrlFragment Url] in
set_option linter.unusedSectionVars false in
mutual

/-- **Only XML 1.0 characters are written.** -/
theorem allowed_html : ∀ {n : SafeNode}, All (KeptTag Url) n →
    ∀ c ∈ html n, isAllowedHtmlCharacter c = true
  | .text s, _, c, hc => by
    rw [html, appendText, appendEscaped, List.nil_append] at hc
    exact allowed_escaped s false c hc
  | .void name attrs none, h, c, hc => by
    have hend : ∀ c ∈ " />".toList, isAllowedHtmlCharacter c = true := forall_mem_of_all (by decide)
    rw [html, ← tagText_readAttrs] at hc
    rcases List.mem_append.mp hc with hc | hc
    · exact KeptTag.allowed h c hc
    · exact hend c hc
  | .void name attrs (some src), h, c, hc => by
    have hend : ∀ c ∈ " />".toList, isAllowedHtmlCharacter c = true := forall_mem_of_all (by decide)
    rw [html, ← tagText_readAttrs_src] at hc
    rcases List.mem_append.mp hc with hc | hc
    · exact KeptTag.allowed h c hc
    · exact hend c hc
  | .element name attrs children, h, c, hc => by
    have hclose : ∀ c ∈ "</".toList, isAllowedHtmlCharacter c = true := forall_mem_of_all (by decide)
    rw [html, ← tagText_readAttrs] at hc
    simp only [List.mem_append, List.mem_singleton] at hc
    rcases hc with ((hc | rfl) | hc) | (hc | hc) | rfl
    · exact h.1.allowed c hc
    · decide
    · exact allowed_htmlList h.2 c hc
    · exact hclose c hc
    · exact allowed_of_isName h.1.readable.1 c hc
    · decide

theorem allowed_htmlList : ∀ {ns : List SafeNode}, AllList (KeptTag Url) ns →
    ∀ c ∈ htmlList ns, isAllowedHtmlCharacter c = true
  | [], _, c, hc => absurd hc List.not_mem_nil
  | _ :: _, h, c, hc => by
    rcases List.mem_append.mp hc with hc | hc
    · exact allowed_html h.1 c hc
    · exact allowed_htmlList h.2 c hc

end

end Kept

/-! ## External assets -/

section ExternalAssets

variable (Url : Type) [UrlCrate Url]

/-- The approved source of an image that is not dropped with its content. -/
def ownSource (name : String) (attrs : List (String × String)) : List Url :=
  if name ∈ dropContentElements then []
  else if name = "img" then (imageSource attrs : Option Url).toList
  else []

mutual

/-- **The approved image sources outside dropped subtrees**, in document order. -/
def approvedSources : DomTree → List Url
  | .node (.element name attrs) children =>
    ownSource Url name attrs ++
      match keptElement Url name attrs with
      | .nothing => []
      | _ => approvedSourcesList children
  | .node (.text _) children => approvedSourcesList children
  | .node .document children => approvedSourcesList children
  | .node .fragment children => approvedSourcesList children
  | .node .doctype children => approvedSourcesList children
  | .node .comment children => approvedSourcesList children
  | .node .processingInstruction children => approvedSourcesList children

def approvedSourcesList : List DomTree → List Url
  | [] => []
  | t :: ts => approvedSources t ++ approvedSourcesList ts

end

variable {Url} [DecidableEq Url]

/-- The renderer has met these sources. -/
structure HasMet (renderer : Renderer Url) (sources : List Url) : Prop where
  external : renderer.externalAssets = sources.eraseDups
  seen : ∀ source, source ∈ renderer.seenAssets ↔ source ∈ sources

omit [UrlCrate Url] in
/-- One more source, once. -/
theorem eraseDups_concat (sources : List Url) (source : Url) :
    (sources ++ [source]).eraseDups =
      if source ∈ sources then sources.eraseDups else sources.eraseDups ++ [source] := by
  rw [List.eraseDups_append]
  split_ifs with h
  · simp [List.removeAll, h]
  · simp [List.removeAll, h, List.eraseDups_cons]

omit [UrlCrate Url] in
/-- A source is met. -/
theorem HasMet.insert {renderer : Renderer Url} {sources : List Url} (h : HasMet renderer sources)
    (source : Url) (out : Html) (depth : ℕ) :
    HasMet { (if source ∈ renderer.seenAssets then renderer else
        { renderer with
          seenAssets := source :: renderer.seenAssets
          externalAssets := renderer.externalAssets ++ [source] }) with
        html := out, omittedDepth := depth } (sources ++ [source]) := by
  by_cases hseen : source ∈ renderer.seenAssets
  · simp only [if_pos hseen]
    refine ⟨?_, fun other => ?_⟩
    · rw [eraseDups_concat, if_pos ((h.seen source).mp hseen)]
      exact h.external
    · rw [List.mem_append, List.mem_singleton, h.seen]
      exact ⟨.inl, fun hmem => hmem.elim id fun heq => heq ▸ (h.seen source).mp hseen⟩
  · simp only [if_neg hseen]
    refine ⟨?_, fun other => ?_⟩
    · rw [eraseDups_concat, if_neg (mt (h.seen source).mpr hseen), h.external]
    · rw [List.mem_append, List.mem_singleton, List.mem_cons, h.seen, or_comm]

/-- **Opening an element meets its own source.** -/
theorem openNode_hasMet {renderer : Renderer Url} {sources : List Url}
    (hdepth : renderer.omittedDepth = 0) (h : HasMet renderer sources) (name : String)
    (attrs : List (String × String)) :
    HasMet (renderer.openNode (.element name attrs)) (sources ++ ownSource Url name attrs) ∧
      (renderer.openNode (.element name attrs)).omittedDepth =
        match keptElement Url name attrs with
        | .nothing => 1
        | _ => 0 := by
  have hopen : ¬ renderer.omittedDepth > 0 := by omega
  have hnil : sources ++ [] = sources := List.append_nil _
  simp only [Renderer.openNode, keptElement, ownSource, if_neg hopen]
  by_cases hdrop : name ∈ dropContentElements
  · simp only [if_pos hdrop, hnil]
    exact ⟨⟨h.external, h.seen⟩, trivial⟩
  by_cases hsafe : name ∈ safeElements
  · simp only [if_neg hdrop, if_pos hsafe, not_not.mpr hsafe, if_false, Renderer.renderOpenElement]
    by_cases himg : name = "img"
    · simp only [if_pos himg]
      cases hsource : (imageSource attrs : Option Url) with
      | none =>
        simp only [Option.toList_none, hnil]
        exact ⟨⟨h.external, h.seen⟩, trivial⟩
      | some source =>
        have hmet (out : Html) (depth : ℕ) := h.insert source out depth
        by_cases hsigned : hasProviderSignature source = true
        · simp only [if_pos hsigned, Option.toList_some]
          refine ⟨?_, trivial⟩
          have hsame := hmet (if source ∈ renderer.seenAssets then renderer else
            { renderer with
              seenAssets := source :: renderer.seenAssets
              externalAssets := renderer.externalAssets ++ [source] }).html 1
          exact ⟨hsame.external, hsame.seen⟩
        · simp only [if_neg hsigned, Option.toList_some]
          refine ⟨?_, ?_⟩
          · have hsame := hmet [] 0
            exact ⟨hsame.external, hsame.seen⟩
          · split_ifs <;> exact hdepth
    · simp only [if_neg himg, hnil]
      exact ⟨⟨h.external, h.seen⟩, hdepth⟩
  · have himg : name ≠ "img" := fun heq => hsafe (heq ▸ by decide)
    simp only [if_neg hdrop, if_neg hsafe, if_pos hsafe, if_neg himg, hnil]
    exact ⟨h, hdepth⟩

omit [UrlCrate Url] [DecidableEq Url] in
/-- Closing a node outside omitted content writes at most. -/
theorem closeNode_eq (renderer : Renderer Url) (hdepth : renderer.omittedDepth = 0)
    (value : NodeValue) : ∃ out, renderer.closeNode value = { renderer with html := out } := by
  have hopen : ¬ renderer.omittedDepth > 0 := by omega
  unfold Renderer.closeNode
  rw [if_neg hopen]
  split
  · split_ifs
    · exact ⟨_, rfl⟩
    · exact ⟨renderer.html, rfl⟩
  · exact ⟨renderer.html, rfl⟩

/-- A node that is no element meets what its children meet. -/
theorem foldl_hasMet_other {children : List DomTree} {renderer opened : Renderer Url}
    {value : NodeValue} {met : List Url}
    (hopen : renderer.openNode value = opened)
    (hchildren : ((DomTree.edgesList children).foldl Renderer.renderEdge opened).omittedDepth = 0 ∧
      HasMet ((DomTree.edgesList children).foldl Renderer.renderEdge opened) met) :
    ((DomTree.node value children).edges.foldl Renderer.renderEdge renderer).omittedDepth = 0 ∧
      HasMet ((DomTree.node value children).edges.foldl Renderer.renderEdge renderer) met := by
  rw [DomTree.edges, List.foldl_cons, List.foldl_append, List.foldl_cons, List.foldl_nil]
  simp only [Renderer.renderEdge, hopen]
  obtain ⟨out, hclose⟩ := closeNode_eq _ hchildren.1 value
  rw [hclose]
  exact ⟨hchildren.1, ⟨hchildren.2.external, hchildren.2.seen⟩⟩

mutual

/-- **Walking a tree meets its approved sources.** -/
theorem foldl_hasMet : ∀ (t : DomTree) {renderer : Renderer Url} {sources : List Url},
    renderer.omittedDepth = 0 → HasMet renderer sources →
    (t.edges.foldl Renderer.renderEdge renderer).omittedDepth = 0 ∧
      HasMet (t.edges.foldl Renderer.renderEdge renderer) (sources ++ approvedSources Url t)
  | .node (.element name attrs) children, renderer, sources, hdepth, h => by
    obtain ⟨hmet, hopened⟩ := openNode_hasMet hdepth h name attrs
    rw [approvedSources, ← List.append_assoc]
    cases hkept : keptElement Url name attrs with
    | nothing =>
      rw [hkept] at hopened
      simp only at hopened ⊢
      rw [List.append_nil, DomTree.edges, List.foldl_cons, List.foldl_append, List.foldl_cons,
        List.foldl_nil]
      simp only [Renderer.renderEdge]
      rw [foldl_omittedList children _ (by omega)]
      have hclose : Renderer.closeNode (renderer.openNode (.element name attrs))
          (.element name attrs) = { renderer.openNode (.element name attrs) with
            omittedDepth := (renderer.openNode (.element name attrs)).omittedDepth - 1 } :=
        if_pos (by omega)
      rw [hclose]
      exact ⟨by simp only; omega, ⟨hmet.external, hmet.seen⟩⟩
    | content =>
      rw [hkept] at hopened
      exact foldl_hasMet_other rfl (foldl_hasMetList children hopened hmet)
    | image value =>
      rw [hkept] at hopened
      exact foldl_hasMet_other rfl (foldl_hasMetList children hopened hmet)
    | self =>
      rw [hkept] at hopened
      exact foldl_hasMet_other rfl (foldl_hasMetList children hopened hmet)
  | .node (.text s) children, renderer, sources, hdepth, h => by
    have hopen : renderer.openNode (.text s)
        = { renderer with html := appendText renderer.html s } := if_neg (by omega)
    rw [approvedSources]
    exact foldl_hasMet_other hopen (foldl_hasMetList children hdepth ⟨h.external, h.seen⟩)
  | .node .document children, renderer, sources, hdepth, h => by
    rw [approvedSources]
    exact foldl_hasMet_other (if_neg (by omega)) (foldl_hasMetList children hdepth h)
  | .node .fragment children, renderer, sources, hdepth, h => by
    rw [approvedSources]
    exact foldl_hasMet_other (if_neg (by omega)) (foldl_hasMetList children hdepth h)
  | .node .doctype children, renderer, sources, hdepth, h => by
    rw [approvedSources]
    exact foldl_hasMet_other (if_neg (by omega)) (foldl_hasMetList children hdepth h)
  | .node .comment children, renderer, sources, hdepth, h => by
    rw [approvedSources]
    exact foldl_hasMet_other (if_neg (by omega)) (foldl_hasMetList children hdepth h)
  | .node .processingInstruction children, renderer, sources, hdepth, h => by
    rw [approvedSources]
    exact foldl_hasMet_other (if_neg (by omega)) (foldl_hasMetList children hdepth h)

theorem foldl_hasMetList : ∀ (ts : List DomTree) {renderer : Renderer Url} {sources : List Url},
    renderer.omittedDepth = 0 → HasMet renderer sources →
    ((DomTree.edgesList ts).foldl Renderer.renderEdge renderer).omittedDepth = 0 ∧
      HasMet ((DomTree.edgesList ts).foldl Renderer.renderEdge renderer)
        (sources ++ approvedSourcesList Url ts)
  | [], renderer, sources, hdepth, h => by
    rw [approvedSourcesList, List.append_nil]
    exact ⟨hdepth, h⟩
  | t :: ts, renderer, sources, hdepth, h => by
    obtain ⟨hdepth', h'⟩ := foldl_hasMet t hdepth h
    rw [DomTree.edgesList, List.foldl_append, approvedSourcesList, ← List.append_assoc]
    exact foldl_hasMetList ts hdepth' h'

end

/-- **The external assets are the approved sources, each once, in document order.** -/
theorem sanitize_externalAssets (t : DomTree) :
    (Renderer.sanitize t : Renderer Url).externalAssets = (approvedSources Url t).eraseDups := by
  have hstart : HasMet (⟨[], [], [], 0⟩ : Renderer Url) [] := ⟨rfl, fun _ => Iff.rfl⟩
  exact (foldl_hasMet t rfl hstart).2.external

end ExternalAssets

/-! ## The sanitizer -/

/-- **What the sanitizer writes is safe and faithful**: the serialised sanitized tree, whose tags a
reader finds balanced and with safe links and sources, in XML 1.0 characters. -/
theorem sanitize_safe_faithful {Url : Type} [UrlCrate Url] [LawfulUrlCrate Url]
    [LawfulUrlFragment Url] [DecidableEq Url] (t : DomTree) :
    let sanitized : Renderer Url := Renderer.sanitize t
    let tree := safe Url t
    sanitized.html = SafeNode.htmlList tree ∧
      Reads .text sanitized.html .text (SafeNode.readTokensList tree) ∧
      Balanced (SafeNode.readTokensList tree) ∧
      (∀ name attrs, (.opened name attrs ∈ SafeNode.readTokensList tree ∨
          .empty name attrs ∈ SafeNode.readTokensList tree) → LinksSafe Url attrs) ∧
      (∀ c ∈ sanitized.html, isAllowedHtmlCharacter c = true) ∧
      sanitized.externalAssets = (approvedSources Url t).eraseDups := by
  intro sanitized tree
  have hhtml : sanitized.html = SafeNode.htmlList tree := sanitize_html t
  have hkept : SafeNode.AllList (KeptTag Url) tree := safe_kept t
  have hlegible : SafeNode.LegibleList tree :=
    SafeNode.AllList.mono (fun _ _ _ h => KeptTag.readable h) hkept
  refine ⟨hhtml, ?_, SafeNode.readTokensList_balanced tree, ?_, ?_, sanitize_externalAssets t⟩
  · rw [hhtml]
    exact SafeNode.reads_htmlList hlegible
  · exact SafeNode.readTokensList_of_all (fun _ _ _ h => KeptTag.linksSafe h) hkept
  · rw [hhtml]
    exact allowed_htmlList hkept

/-- A heading whose attribute and text try to open tags, around a script and an image. -/
def hostileTree : DomTree :=
  .node (.element "h1" [("class", "a\"><b"), ("onclick", "run()")])
    [.node (.text "<i>") [], .node (.element "script" []) [imageTree], imageTree]

/-- On the hostile tree a reader finds the heading, the text and the image, balanced. -/
theorem sanitize_safe_faithful_hostile :
    (Renderer.sanitize hostileTree : Renderer PlainUrl).html
        = ("<h1 class=\"a&quot;&gt;&lt;b\">&lt;i&gt;<p>" ++
            "<img alt=\"a\" src=\"https://cdn.example/a.png\" /></p></h1>").toList ∧
      Balanced (SafeNode.readTokensList (safe PlainUrl hostileTree)) ∧
      (Renderer.sanitize hostileTree : Renderer PlainUrl).externalAssets = [sampleSource] := by
  obtain ⟨hhtml, -, hbalanced, -, -, hassets⟩ :=
    @sanitize_safe_faithful PlainUrl _ _ _ _ hostileTree
  exact ⟨hhtml.trans (by decide), hbalanced, hassets.trans (by decide)⟩

end Werrss
