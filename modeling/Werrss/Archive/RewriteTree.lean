import Werrss.Archive.UrlRewriter

/-!
# Archive/RewriteTree — flat rewriting against tree rewriting

    DOM ──safe──▸ tree ──html──▸ flat text
                   │                │
                mapSrc     rewrite_src_attributes
                   ▾                ▾
                  tree ──html──▸ flat text

The square commutes as long as nothing outside the image sources of the tree reads as a source
attribute.  Text keeps its double quotes, and an attribute value may end in ` src=`, so there are
trees on which it does not.
-/

open Machinery Scan

namespace Werrss

/-! ## Serialising the sanitized tree -/

/-- The written attributes of an element. -/
def attrsHtml (attrs : List (String × String)) : Html :=
  attrs.flatMap fun a => appendAttribute [] a.1 a.2

/-- An opening tag up to its end. -/
def tagHtml (name : String) (attrs : List (String × String)) : Html :=
  '<' :: (name.toList ++ attrsHtml attrs)

namespace SafeNode

mutual

/-- **The HTML of a sanitized node.** -/
def html : SafeNode → Html
  | .text s => appendText [] s
  | .void name attrs none => tagHtml name attrs ++ " />".toList
  | .void name attrs (some src) =>
    tagHtml name attrs ++ (srcMark ++ escapeAttribute src ++ ['"']) ++ " />".toList
  | .element name attrs children =>
    tagHtml name attrs ++ ['>'] ++ htmlList children ++ ("</".toList ++ name.toList ++ ['>'])

def htmlList : List SafeNode → Html
  | [] => []
  | n :: ns => html n ++ htmlList ns

end

mutual

/-- **Replacing image sources in the tree**, and nothing else. -/
def mapSrc (f : String → Option String) : SafeNode → SafeNode
  | .text s => .text s
  | .void name attrs none => .void name attrs none
  | .void name attrs (some src) => .void name attrs (some ((f src).getD src))
  | .element name attrs children => .element name attrs (mapSrcList f children)

def mapSrcList (f : String → Option String) : List SafeNode → List SafeNode
  | [] => []
  | n :: ns => mapSrc f n :: mapSrcList f ns

end

mutual

/-- The serialised tree in pieces: the image sources are the marked values. -/
def pieces : SafeNode → List (Piece Char)
  | .text s => [.raw (appendText [] s)]
  | .void name attrs none => [.raw (tagHtml name attrs ++ " />".toList)]
  | .void name attrs (some src) =>
    [.raw (tagHtml name attrs), .marked (escapeAttribute src), .raw " />".toList]
  | .element name attrs children =>
    .raw (tagHtml name attrs ++ ['>']) ::
      (piecesList children ++ [.raw ("</".toList ++ name.toList ++ ['>'])])

def piecesList : List SafeNode → List (Piece Char)
  | [] => []
  | n :: ns => pieces n ++ piecesList ns

end

theorem flatten_append (ps qs : List (Piece Char)) :
    flatten srcMark '"' (ps ++ qs) = flatten srcMark '"' ps ++ flatten srcMark '"' qs :=
  List.flatMap_append

mutual

theorem html_eq_flatten : ∀ n : SafeNode, html n = flatten srcMark '"' (pieces n)
  | .text s => by simp [html, pieces, flatten, Piece.flat]
  | .void name attrs none => by simp [html, pieces, flatten, Piece.flat]
  | .void name attrs (some src) => by simp [html, pieces, flatten, Piece.flat]
  | .element name attrs children => by
    have hcons (cs : Html) (ps : List (Piece Char)) :
        flatten srcMark '"' (.raw cs :: ps) = cs ++ flatten srcMark '"' ps := rfl
    rw [html, pieces, hcons, flatten_append, htmlList_eq_flatten children]
    simp [flatten, Piece.flat]

theorem htmlList_eq_flatten : ∀ ns : List SafeNode,
    htmlList ns = flatten srcMark '"' (piecesList ns)
  | [] => rfl
  | n :: ns => by
    rw [htmlList, piecesList, flatten_append, html_eq_flatten n, htmlList_eq_flatten ns]

end

/-- No escaped value holds a double quote. -/
theorem quote_not_mem_escapeAttribute (s : String) : '"' ∉ escapeAttribute s := by
  intro h
  obtain ⟨c, -, hc⟩ := List.mem_flatMap.mp h
  unfold escapeAttributeChar at hc
  split_ifs at hc with h1 h2 h3 h4 h5
  all_goals first
    | exact absurd hc (by decide)
    | exact h4 (List.mem_singleton.mp hc).symm

mutual

theorem pieces_closed : ∀ n : SafeNode, Closed '"' (pieces n)
  | .text _ => fun v hv => by simp [pieces] at hv
  | .void _ _ none => fun v hv => by simp [pieces] at hv
  | .void _ _ (some src) => fun v hv => by
    obtain rfl : v = escapeAttribute src := by simpa [pieces] using hv
    exact quote_not_mem_escapeAttribute src
  | .element _ _ children => fun v hv => by
    refine piecesList_closed children v ?_
    simpa [pieces] using hv

theorem piecesList_closed : ∀ ns : List SafeNode, Closed '"' (piecesList ns)
  | [] => fun v hv => by simp [piecesList] at hv
  | n :: ns => fun v hv => by
    rcases List.mem_append.mp hv with hv | hv
    · exact pieces_closed n v hv
    · exact piecesList_closed ns v hv

end

theorem escape_getD {f : String → Option String} {g : Html → Option Html}
    (hfg : ∀ s, g (escapeAttribute s) = (f s).map escapeAttribute) (src : String) :
    escapeAttribute ((f src).getD src) = (g (escapeAttribute src)).getD (escapeAttribute src) := by
  rw [hfg]
  cases f src <;> rfl

mutual

theorem pieces_mapSrc {f : String → Option String} {g : Html → Option Html}
    (hfg : ∀ s, g (escapeAttribute s) = (f s).map escapeAttribute) :
    ∀ n : SafeNode, pieces (mapSrc f n) = (pieces n).map (Piece.replace g)
  | .text _ => rfl
  | .void _ _ none => rfl
  | .void name attrs (some src) => by
    simp [mapSrc, pieces, Piece.replace, escape_getD hfg src]
  | .element name attrs children => by
    simp [mapSrc, pieces, Piece.replace, piecesList_mapSrc hfg children]

theorem piecesList_mapSrc {f : String → Option String} {g : Html → Option Html}
    (hfg : ∀ s, g (escapeAttribute s) = (f s).map escapeAttribute) :
    ∀ ns : List SafeNode, piecesList (mapSrcList f ns) = (piecesList ns).map (Piece.replace g)
  | [] => rfl
  | n :: ns => by
    rw [mapSrcList, piecesList, piecesList, List.map_append, pieces_mapSrc hfg n,
      piecesList_mapSrc hfg ns]

end

/-! ## Where the square commutes -/

/-- **Nothing reads as a source attribute but the image sources**: the text between two image
sources of the serialised tree holds no ` src="`, and the text behind the last one holds none that a
later `"` closes. -/
def Unambiguous (ns : List SafeNode) : Prop := Tame srcMark '"' (piecesList ns)

/-- **The square commutes on an unambiguous tree.** -/
theorem rewriteSrcAttributes_htmlList {ns : List SafeNode} (h : Unambiguous ns)
    {replacement : Html → Option String} {f : String → Option String}
    (hf : ∀ s, replacement (escapeAttribute s) = f s) :
    rewriteSrcAttributes (htmlList ns) replacement = htmlList (mapSrcList f ns) := by
  have hfg : ∀ s, (fun source => (replacement source).map escapeAttribute) (escapeAttribute s)
      = (f s).map escapeAttribute := fun s => by simp only [hf s]
  rw [htmlList_eq_flatten, htmlList_eq_flatten,
    piecesList_mapSrc (g := fun source => (replacement source).map escapeAttribute) hfg]
  have hmark : (' ' : Char) ∉ "src=\"".toList := by decide
  have := rewrite_flatten hmark (fun source => (replacement source).map escapeAttribute)
    (piecesList_closed ns) h
  rw [List.nil_append, List.nil_append] at this
  exact this

/-- **On an ambiguous tree it does not**: some replacement is written outside the image sources, or
misses one. -/
theorem exists_rewrite_ne_of_ambiguous {ns : List SafeNode} (h : ¬ Unambiguous ns) :
    ∃ replacement : Html → Option String, rewriteSrcAttributes (htmlList ns) replacement
      ≠ htmlList (mapSrcList (fun s => replacement (escapeAttribute s)) ns) := by
  have hmark : (' ' : Char) ∉ "src=\"".toList := by decide
  have hxy : ('a' : Char) ≠ 'b' := by decide
  obtain ⟨z, hz, hne⟩ := exists_rewrite_ne hmark hxy (piecesList_closed ns) h
  have hesc : escapeAttribute (String.ofList [z]) = [z] := by
    rcases hz with rfl | rfl <;> rfl
  refine ⟨fun _ => some (String.ofList [z]), ?_⟩
  have hfg (s : String) : (fun _ : Html => some [z]) (escapeAttribute s)
      = ((fun _ : String => some (String.ofList [z])) s).map escapeAttribute := by
    rw [Option.map_some, hesc]
  rw [htmlList_eq_flatten, htmlList_eq_flatten, piecesList_mapSrc (g := fun _ => some [z]) hfg]
  simp only [rewriteSrcAttributes, Option.map_some, hesc]
  exact hne

theorem escapeAttributeChar_prefixFree (c d : Char)
    (h : escapeAttributeChar c <+: escapeAttributeChar d) : c = d := by
  unfold escapeAttributeChar at h
  split_ifs at h with c1 c2 c3 c4 c5 d1 d2 d3 d4 d5 <;> subst_vars
  all_goals first
    | rfl
    | exact absurd h (by decide)
    | simp_all

theorem escapeAttribute_injective : Function.Injective escapeAttribute := by
  intro s s' h
  have hne (c : Char) : escapeAttributeChar c ≠ [] := by
    unfold escapeAttributeChar
    split_ifs <;> simp
  exact String.toList_inj.mp
    (flatMap_injective_of_prefixFree hne escapeAttributeChar_prefixFree h)

/-- Escaping can be undone, so what is done to sources can be done to their escaped values. -/
theorem exists_escaped (f : String → Option String) :
    ∃ g : Html → Option Html, ∀ s, g (escapeAttribute s) = (f s).map escapeAttribute := by
  classical
  refine ⟨fun v => if hv : ∃ s, escapeAttribute s = v then (f hv.choose).map escapeAttribute
    else none, fun s => ?_⟩
  have hv : ∃ s', escapeAttribute s' = escapeAttribute s := ⟨s, rfl⟩
  simp only [dif_pos hv, escapeAttribute_injective hv.choose_spec]

/-- Replacing sources does not touch what stands between them. -/
theorem Unambiguous.mapSrc {ns : List SafeNode} (h : Unambiguous ns) (f : String → Option String) :
    Unambiguous (mapSrcList f ns) := by
  obtain ⟨g, hfg⟩ := exists_escaped f
  rw [Unambiguous, Tame, piecesList_mapSrc hfg]
  exact h.replace g

theorem htmlList_append : ∀ ms ns : List SafeNode, htmlList (ms ++ ns) = htmlList ms ++ htmlList ns
  | [], _ => rfl
  | m :: ms, ns => by
    rw [List.cons_append, htmlList, htmlList, htmlList_append ms ns, List.append_assoc]

end SafeNode

/-! ## The sanitizer writes the sanitized tree -/

section Refinement

open SafeNode

variable {Url : Type} [UrlCrate Url] [LawfulUrlCrate Url] [DecidableEq Url]

omit [LawfulUrlCrate Url] in
mutual

/-- Inside omitted content the renderer only counts. -/
theorem foldl_omitted : ∀ (t : DomTree) (r : Renderer Url), r.omittedDepth > 0 →
    t.edges.foldl Renderer.renderEdge r = r
  | .node value children, r, h => by
    have hopen : r.renderEdge (.opened value) = { r with omittedDepth := r.omittedDepth + 1 } :=
      if_pos h
    rw [DomTree.edges, List.foldl_cons, List.foldl_append, hopen,
      foldl_omittedList children _ (Nat.succ_pos _), List.foldl_cons, List.foldl_nil]
    simp [Renderer.renderEdge, Renderer.closeNode]

theorem foldl_omittedList : ∀ (ts : List DomTree) (r : Renderer Url), r.omittedDepth > 0 →
    (DomTree.edgesList ts).foldl Renderer.renderEdge r = r
  | [], _, _ => rfl
  | t :: ts, r, h => by
    rw [DomTree.edgesList, List.foldl_append, foldl_omitted t r h, foldl_omittedList ts r h]

end

theorem foldl_appendAttribute (attrs : List (String × String)) (output : Html) :
    attrs.foldl (fun output a => appendAttribute output a.1 a.2) output
      = output ++ attrsHtml attrs := by
  induction attrs generalizing output with
  | nil => simp [attrsHtml]
  | cons a attrs ih =>
    rw [List.foldl_cons, ih]
    simp [attrsHtml, appendAttribute, appendEscaped]

omit [DecidableEq Url] in
/-- The two escapes agree on the text of a URL. -/
theorem escapedChar_eq (url : Url) :
    (UrlCrate.asStr url).toList.flatMap (escapedChar true) = escapeAttribute (UrlCrate.asStr url) := by
  refine List.flatMap_congr fun c hc => ?_
  obtain ⟨hlo, hhi⟩ := LawfulUrlCrate.asStr_printable url c hc
  have hlo' : 0x20 ≤ c.toNat := hlo
  have hhi' : c.toNat ≤ 0x7E := hhi
  have hallowed : isAllowedHtmlCharacter c = true := by
    simp only [isAllowedHtmlCharacter, Bool.or_eq_true, Bool.and_eq_true, decide_eq_true_eq]
    omega
  simp only [escapedChar, escapeAttributeChar, hallowed, and_true, if_true]

omit [DecidableEq Url] in
theorem appendAttributes_image (output : Html) (name : String) (attrs : List (String × String))
    (url : Url) : appendAttributes output name attrs (some url)
      = output ++ attrsHtml (keptAttributes Url name attrs)
        ++ (srcMark ++ escapeAttribute (UrlCrate.asStr url) ++ ['"']) := by
  simp only [appendAttributes, foldl_appendAttribute]
  simp [appendAttribute, appendEscaped, escapedChar_eq, srcMark]

omit [LawfulUrlCrate Url] [DecidableEq Url] in
theorem appendAttributes_none (output : Html) (name : String) (attrs : List (String × String)) :
    appendAttributes output name attrs (none : Option Url)
      = output ++ attrsHtml (keptAttributes Url name attrs) := by
  simp only [appendAttributes, foldl_appendAttribute]

/-- Opening an element outside omitted content, by what is kept of it. -/
theorem openNode_element (r : Renderer Url) (h : r.omittedDepth = 0) (name : String)
    (attrs : List (String × String)) :
    ∃ ext seen, r.openNode (.element name attrs) =
      match keptElement Url name attrs with
      | .nothing => ⟨r.html, ext, seen, 1⟩
      | .content => ⟨r.html, ext, seen, 0⟩
      | .image src =>
        ⟨r.html ++ html (.void name (keptAttributes Url name attrs) (some src)), ext, seen, 0⟩
      | .self =>
        ⟨r.html ++ tagHtml name (keptAttributes Url name attrs)
          ++ (if name ∈ voidElements then " />".toList else ['>']), ext, seen, 0⟩ := by
  obtain ⟨out, ext, seen, depth⟩ := r
  obtain rfl : depth = 0 := h
  simp only [Renderer.openNode, keptElement, gt_iff_lt, lt_irrefl, if_false]
  by_cases hdrop : name ∈ dropContentElements
  · exact ⟨ext, seen, by simp only [if_pos hdrop]⟩
  by_cases hsafe : name ∈ safeElements
  · simp only [if_neg hdrop, if_pos hsafe, not_not.mpr hsafe, if_false, Renderer.renderOpenElement]
    by_cases himg : name = "img"
    · simp only [if_pos himg]
      cases hsrc : (imageSource attrs : Option Url) with
      | none => exact ⟨ext, seen, rfl⟩
      | some source =>
        by_cases hseen : source ∈ seen
        · by_cases hsig : hasProviderSignature source = true
          · exact ⟨ext, seen, by simp only [hseen, hsig, if_true]⟩
          · refine ⟨ext, seen, ?_⟩
            simp [hseen, hsig, appendAttributes_image, html, tagHtml]
        · by_cases hsig : hasProviderSignature source = true
          · exact ⟨ext ++ [source], source :: seen, by simp only [hseen, hsig, if_true, if_false]⟩
          · refine ⟨ext ++ [source], source :: seen, ?_⟩
            simp [hseen, hsig, appendAttributes_image, html, tagHtml]
    · refine ⟨ext, seen, ?_⟩
      simp [himg, appendAttributes_none, tagHtml]
  · exact ⟨ext, seen, by simp [hdrop, hsafe]⟩

omit [LawfulUrlCrate Url] [DecidableEq Url] in
theorem keptElement_content {name : String} {attrs : List (String × String)}
    (h : keptElement Url name attrs = .content) : name ∉ safeElements := by
  unfold keptElement at h
  split_ifs at h with hdrop hsafe himg
  · split at h
    · cases h
    · split_ifs at h
  · exact hsafe

omit [LawfulUrlCrate Url] [DecidableEq Url] in
theorem keptElement_image {name : String} {attrs : List (String × String)} {src : String}
    (h : keptElement Url name attrs = .image src) : name ∈ voidElements := by
  unfold keptElement at h
  split_ifs at h with hdrop hsafe himg
  rw [himg]
  decide

omit [LawfulUrlCrate Url] [DecidableEq Url] in
theorem keptElement_self {name : String} {attrs : List (String × String)}
    (h : keptElement Url name attrs = .self) : name ∈ safeElements := by
  unfold keptElement at h
  split_ifs at h with hdrop hsafe himg
  · split at h
    · cases h
    · split_ifs at h
  · exact hsafe

omit [UrlCrate Url] [LawfulUrlCrate Url] [DecidableEq Url] in
/-- Closing an element outside omitted content. -/
theorem closeNode_element (out : Html) (ext seen : List Url) (name : String)
    (attrs : List (String × String)) :
    Renderer.closeNode ⟨out, ext, seen, 0⟩ (.element name attrs) =
      if name ∈ safeElements ∧ name ∉ voidElements
        then ⟨out ++ ("</".toList ++ name.toList ++ ['>']), ext, seen, 0⟩
        else ⟨out, ext, seen, 0⟩ := by
  simp only [Renderer.closeNode, gt_iff_lt, lt_irrefl, if_false, List.append_assoc]

omit [LawfulUrlCrate Url] in
/-- A node that writes nothing itself leaves what its children write. -/
theorem foldl_edges_other {children : List DomTree} {out out' : Html} {ext seen : List Url}
    {value : NodeValue}
    (hchildren : ∃ ext' seen', (DomTree.edgesList children).foldl Renderer.renderEdge
      ⟨out, ext, seen, 0⟩ = ⟨out', ext', seen', 0⟩)
    (hopen : Renderer.openNode ⟨out, ext, seen, 0⟩ value = ⟨out, ext, seen, 0⟩)
    (hclose : ∀ out ext seen, Renderer.closeNode (⟨out, ext, seen, 0⟩ : Renderer Url) value
      = ⟨out, ext, seen, 0⟩) :
    ∃ ext' seen', (DomTree.node value children).edges.foldl Renderer.renderEdge
      ⟨out, ext, seen, 0⟩ = ⟨out', ext', seen', 0⟩ := by
  obtain ⟨ext₁, seen₁, hchildren⟩ := hchildren
  refine ⟨ext₁, seen₁, ?_⟩
  rw [DomTree.edges, List.foldl_cons, List.foldl_append, List.foldl_cons, List.foldl_nil]
  simp only [Renderer.renderEdge]
  rw [hopen, hchildren, hclose]

set_option linter.unusedSectionVars false in
mutual

/-- **Walking the edges of a tree writes the HTML of its sanitized form.** -/
theorem foldl_edges : ∀ (t : DomTree) (out : Html) (ext seen : List Url), ∃ ext' seen',
    t.edges.foldl Renderer.renderEdge ⟨out, ext, seen, 0⟩
      = ⟨out ++ htmlList (safe Url t), ext', seen', 0⟩
  | .node (.element name attrs) children, out, ext, seen => by
    obtain ⟨ext₁, seen₁, hopen⟩ := openNode_element ⟨out, ext, seen, 0⟩ rfl name attrs
    rw [DomTree.edges, List.foldl_cons, List.foldl_append, List.foldl_cons, List.foldl_nil]
    simp only [Renderer.renderEdge]
    rw [hopen]
    cases hkept : keptElement Url name attrs with
    | nothing =>
      refine ⟨ext₁, seen₁, ?_⟩
      simp only
      rw [foldl_omittedList children _ Nat.one_pos]
      simp [Renderer.closeNode, safe, hkept, htmlList]
    | content =>
      obtain ⟨ext₂, seen₂, hchildren⟩ := foldl_edgesList children out ext₁ seen₁
      refine ⟨ext₂, seen₂, ?_⟩
      simp only
      rw [hchildren, closeNode_element, if_neg fun h => keptElement_content hkept h.1]
      simp only [safe, hkept]
    | image src =>
      obtain ⟨ext₂, seen₂, hchildren⟩ := foldl_edgesList children
        (out ++ html (.void name (keptAttributes Url name attrs) (some src))) ext₁ seen₁
      refine ⟨ext₂, seen₂, ?_⟩
      simp only
      rw [hchildren, closeNode_element, if_neg fun h => h.2 (keptElement_image hkept)]
      simp only [safe, hkept, htmlList, List.append_assoc]
    | self =>
      have hsafe := keptElement_self hkept
      by_cases hvoid : name ∈ voidElements
      · obtain ⟨ext₂, seen₂, hchildren⟩ := foldl_edgesList children
          (out ++ tagHtml name (keptAttributes Url name attrs) ++ " />".toList) ext₁ seen₁
        refine ⟨ext₂, seen₂, ?_⟩
        simp only [if_pos hvoid]
        rw [hchildren, closeNode_element, if_neg fun h => h.2 hvoid]
        simp only [safe, hkept, if_pos hvoid, htmlList, html, List.append_assoc]
      · obtain ⟨ext₂, seen₂, hchildren⟩ := foldl_edgesList children
          (out ++ tagHtml name (keptAttributes Url name attrs) ++ ['>']) ext₁ seen₁
        refine ⟨ext₂, seen₂, ?_⟩
        simp only [if_neg hvoid]
        rw [hchildren, closeNode_element, if_pos ⟨hsafe, hvoid⟩]
        simp only [safe, hkept, if_neg hvoid, htmlList, html, List.append_assoc, List.append_nil]
  | .node (.text s) children, out, ext, seen => by
    obtain ⟨ext₁, seen₁, hchildren⟩ := foldl_edgesList children (appendText out s) ext seen
    refine ⟨ext₁, seen₁, ?_⟩
    rw [DomTree.edges, List.foldl_cons, List.foldl_append, List.foldl_cons, List.foldl_nil]
    simp only [Renderer.renderEdge, Renderer.openNode, gt_iff_lt, lt_irrefl, if_false]
    rw [hchildren]
    simp [Renderer.closeNode, safe, htmlList, html, appendText, appendEscaped]
  | .node .document children, out, ext, seen => by
    rw [safe]
    exact foldl_edges_other (foldl_edgesList children out ext seen) rfl fun _ _ _ => rfl
  | .node .fragment children, out, ext, seen => by
    rw [safe]
    exact foldl_edges_other (foldl_edgesList children out ext seen) rfl fun _ _ _ => rfl
  | .node .doctype children, out, ext, seen => by
    rw [safe]
    exact foldl_edges_other (foldl_edgesList children out ext seen) rfl fun _ _ _ => rfl
  | .node .comment children, out, ext, seen => by
    rw [safe]
    exact foldl_edges_other (foldl_edgesList children out ext seen) rfl fun _ _ _ => rfl
  | .node .processingInstruction children, out, ext, seen => by
    rw [safe]
    exact foldl_edges_other (foldl_edgesList children out ext seen) rfl fun _ _ _ => rfl

theorem foldl_edgesList : ∀ (ts : List DomTree) (out : Html) (ext seen : List Url), ∃ ext' seen',
    (DomTree.edgesList ts).foldl Renderer.renderEdge ⟨out, ext, seen, 0⟩
      = ⟨out ++ htmlList (safeList Url ts), ext', seen', 0⟩
  | [], out, ext, seen => ⟨ext, seen, by simp [DomTree.edgesList, safeList, htmlList]⟩
  | t :: ts, out, ext, seen => by
    obtain ⟨ext₁, seen₁, ht⟩ := foldl_edges t out ext seen
    obtain ⟨ext₂, seen₂, hts⟩ := foldl_edgesList ts (out ++ htmlList (safe Url t)) ext₁ seen₁
    refine ⟨ext₂, seen₂, ?_⟩
    rw [DomTree.edgesList, List.foldl_append, ht, hts, safeList, htmlList_append, List.append_assoc]

end

/-- **The sanitizer's output is the serialised sanitized tree.** -/
theorem sanitize_html (t : DomTree) :
    (Renderer.sanitize t : Renderer Url).html = htmlList (safe Url t) := by
  obtain ⟨ext, seen, h⟩ := @foldl_edges Url _ _ _ t [] [] []
  rw [Renderer.sanitize, h, List.nil_append]

end Refinement

/-! ## Rewriting sources and asset routes -/

section Targets

open SafeNode

variable {Url : Type} [UrlCrate Url]

/-- The target of an image source: that of the last listed replacement of its URL. -/
def sourceTarget (replacements : List (Url × String)) (src : String) : Option String :=
  (replacements.reverse.find? fun entry => UrlCrate.asStr entry.1 = src).map Prod.snd

theorem replacementFor_escapeAttribute (replacements : List (Url × String)) (src : String) :
    replacementFor replacements (escapeAttribute src) = sourceTarget replacements src := by
  have hkey (entry : Url × String) :
      escapeAttribute (UrlCrate.asStr entry.1) = escapeAttribute src ↔
        UrlCrate.asStr entry.1 = src := escapeAttribute_injective.eq_iff
  simp only [replacementFor, sourceTarget, hkey]

mutual

theorem mapSrc_none : ∀ n : SafeNode, mapSrc (fun _ => none) n = n
  | .text _ => rfl
  | .void _ _ none => rfl
  | .void _ _ (some _) => rfl
  | .element name attrs children => by rw [mapSrc, mapSrcList_none children]

theorem mapSrcList_none : ∀ ns : List SafeNode, mapSrcList (fun _ => none) ns = ns
  | [] => rfl
  | n :: ns => by rw [mapSrcList, mapSrc_none n, mapSrcList_none ns]

end

/-- **`rewrite_sanitized_html` replaces the listed sources in the tree.** -/
theorem rewriteSanitizedHtml_htmlList {ns : List SafeNode} (h : Unambiguous ns)
    (replacements : List (Url × String)) :
    rewriteSanitizedHtml (htmlList ns) replacements
      = htmlList (mapSrcList (sourceTarget replacements) ns) := by
  have hmain := rewriteSrcAttributes_htmlList h (replacementFor_escapeAttribute replacements)
  unfold rewriteSanitizedHtml
  split_ifs with hempty
  · rcases hempty with rfl | hnil
    · have hnone : sourceTarget ([] : List (Url × String)) = fun _ => none := rfl
      rw [hnone, mapSrcList_none]
    · rw [← hmain, hnil]
      rfl
  · exact hmain

variable (uuid : UuidParser)

/-- The absolute form of an image source, for the relative asset routes. -/
def absoluteSource (serverRootUrl : Url) (src : String) : Option String :=
  (assetUrlBase serverRootUrl).bind fun assetBase => absoluteTarget uuid assetBase src.toList

/-- An asset route holds nothing that is escaped. -/
theorem plain_of_stableAssetId {source assetId : Html} (h : stableAssetId uuid source = some assetId) :
    ∀ c ∈ source, c ∉ ['&', '<', '>', '"', '\''] := by
  unfold stableAssetId stableAssetIdSegment at h
  split_ifs at h with hpre hbad hid
  have hroute : ∀ c ∈ "/assets/".toList, c ∉ ['&', '<', '>', '"', '\''] :=
    forall_mem_of_all (by decide)
  intro c hc
  rw [← List.prefix_iff_eq_append.mp hpre] at hc
  rcases List.mem_append.mp hc with hc | hc
  · exact hroute c hc
  · exact uuid.accepts_plain _ hid c hc

theorem escapeAttribute_of_plain {src : String}
    (h : ∀ c ∈ src.toList, c ∉ ['&', '<', '>', '"', '\'']) : escapeAttribute src = src.toList := by
  have hid : src.toList.flatMap escapeAttributeChar = src.toList.flatMap fun c => [c] := by
    refine List.flatMap_congr fun c hc => ?_
    have hne := h c hc
    simp only [List.mem_cons, List.not_mem_nil, or_false, not_or] at hne
    obtain ⟨h1, h2, h3, h4, h5⟩ := hne
    simp only [escapeAttributeChar, h1, h2, h3, h4, h5, if_false]
  rw [escapeAttribute, hid, List.flatMap_singleton']

theorem plain_of_escapeAttribute {src : String} (h : '&' ∉ escapeAttribute src) :
    ∀ c ∈ src.toList, c ∉ ['&', '<', '>', '"', '\''] := by
  intro c hc hmem
  refine h (List.mem_flatMap.mpr ⟨c, hc, ?_⟩)
  simp only [List.mem_cons, List.not_mem_nil, or_false] at hmem
  rcases hmem with rfl | rfl | rfl | rfl | rfl <;> decide

/-- The asset test does not see the escaping. -/
theorem stableAssetId_escapeAttribute (src : String) :
    stableAssetId uuid (escapeAttribute src) = stableAssetId uuid src.toList := by
  by_cases hplain : ∀ c ∈ src.toList, c ∉ ['&', '<', '>', '"', '\'']
  · rw [escapeAttribute_of_plain hplain]
  · have h1 : stableAssetId uuid src.toList = none := by
      by_contra hne
      obtain ⟨assetId, hid⟩ := Option.ne_none_iff_exists'.mp hne
      exact hplain (plain_of_stableAssetId uuid hid)
    have h2 : stableAssetId uuid (escapeAttribute src) = none := by
      by_contra hne
      obtain ⟨assetId, hid⟩ := Option.ne_none_iff_exists'.mp hne
      refine hplain (plain_of_escapeAttribute fun hamp => ?_)
      exact plain_of_stableAssetId uuid hid _ hamp (List.mem_cons_self ..)
    rw [h1, h2]

/-- **`absolutize_asset_urls` replaces the relative asset routes in the tree.** -/
theorem absolutizeAssetUrls_htmlList {ns : List SafeNode} (h : Unambiguous ns)
    (serverRootUrl : Url) :
    absolutizeAssetUrls uuid (htmlList ns) serverRootUrl
      = htmlList (mapSrcList (absoluteSource uuid serverRootUrl) ns) := by
  unfold absolutizeAssetUrls
  cases hbase : assetUrlBase serverRootUrl with
  | none =>
    have hnone : absoluteSource uuid serverRootUrl = fun _ => none := by
      funext src
      rw [absoluteSource, hbase, Option.bind_none]
    rw [hnone, mapSrcList_none]
  | some assetBase =>
    refine rewriteSrcAttributes_htmlList h fun src => ?_
    rw [absoluteSource, hbase, Option.bind_some, absoluteTarget, absoluteTarget,
      stableAssetId_escapeAttribute]

variable [LawfulUrlCrate Url] [DecidableEq Url]

/-- **Flat rewriting is attribute replacement exactly on unambiguous trees.**  On them, both
rewritings of the source replace image sources in the tree and nothing else; on any other tree the
scanner takes something else for a source attribute, and some replacement shows it. -/
theorem rewriting_exact (t : DomTree) :
    (Unambiguous (safe Url t) →
      (∀ replacements : List (Url × String),
        rewriteSanitizedHtml (Renderer.sanitize t : Renderer Url).html replacements
          = htmlList (mapSrcList (sourceTarget replacements) (safe Url t))) ∧
      (∀ (stored : String → Option String) (serverRootUrl : Url),
        absolutizeAssetUrls uuid (htmlList (mapSrcList stored (safe Url t))) serverRootUrl
          = htmlList (mapSrcList (absoluteSource uuid serverRootUrl)
              (mapSrcList stored (safe Url t))))) ∧
    (¬ Unambiguous (safe Url t) →
      ∃ replacement : Html → Option String,
        rewriteSrcAttributes (Renderer.sanitize t : Renderer Url).html replacement
          ≠ htmlList (mapSrcList (fun src => replacement (escapeAttribute src)) (safe Url t))) := by
  rw [sanitize_html]
  refine ⟨fun h => ⟨rewriteSanitizedHtml_htmlList h, fun stored serverRootUrl => ?_⟩,
    exists_rewrite_ne_of_ambiguous⟩
  exact absolutizeAssetUrls_htmlList uuid (h.mapSrc stored) serverRootUrl

end Targets

/-! ## An image, and a text that quotes one -/

/-- An image inside a paragraph. -/
def imageTree : DomTree :=
  .node (.element "p" [])
    [.node (.element "img" [("alt", "a"), ("src", "https://cdn.example/a.png")]) []]

/-- A paragraph whose text quotes an image source. -/
def quotedTree : DomTree :=
  .node (.element "p" []) [.node (.text "img src=\"https://cdn.example/a.png\"") []]

/-- The source of both. -/
def sampleSource : PlainUrl := ⟨"https://cdn.example/a.png", by decide⟩

/-- On the image tree the rewriting replaces the source and the alternative text stays. -/
theorem rewriting_exact_image :
    rewriteSanitizedHtml (Renderer.sanitize imageTree : Renderer PlainUrl).html
      [(sampleSource, "/assets/x")] = "<p><img alt=\"a\" src=\"/assets/x\" /></p>".toList := by
  have hgap : ¬ srcMark <:+: "<p><img alt=\"a\"".toList := by decide
  have hlast : ¬ srcMark <:+: " /></p>".toList := by decide
  have h : SafeNode.Unambiguous (safe PlainUrl imageTree) :=
    ⟨hgap, fun a b heq => absurd ⟨a, b, by rw [List.append_assoc]; exact heq.symm⟩ hlast⟩
  rw [((rewriting_exact ⟨fun _ => false, fun _ h => by cases h⟩ imageTree).1 h).1]
  decide

/-- **Quoted text is rewritten**: the scanner takes the quotation for an attribute. -/
theorem rewriting_not_exact_quoted :
    rewriteSanitizedHtml (Renderer.sanitize quotedTree : Renderer PlainUrl).html
      [(sampleSource, "/assets/x")]
      ≠ SafeNode.htmlList (SafeNode.mapSrcList (sourceTarget [(sampleSource, "/assets/x")])
          (safe PlainUrl quotedTree)) := by
  decide

end Werrss
