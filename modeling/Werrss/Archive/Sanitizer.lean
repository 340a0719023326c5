import Werrss.Machinery.Scan
import Werrss.Domain.UrlPolicy

/-!
# Archive/Sanitizer — the sanitizer as an edge machine, and the tree it writes

    DOM tree ──traverse──▸ open/close edges ──Renderer──▸ html
        └──────────safe──────▸ sanitized tree ──html──────▴

The source walks the edges of the parsed tree and keeps a depth of omitted content.  What it writes
is the serialisation of a smaller tree: `safe` keeps the allowed elements and attributes, drops the
omitted subtrees and lets unknown elements through.  HTML is a list of characters.
-/

open Machinery

namespace Werrss

/-- HTML text. -/
abbrev Html := List Char

/-! ## The DOM -/

/-- The node values of the parsed document. -/
inductive NodeValue
  | document | fragment | doctype | comment | processingInstruction
  | text (text : String)
  | element (name : String) (attrs : List (String × String))
deriving DecidableEq, Repr

/-- A parsed tree: any node may have children. -/
inductive DomTree
  | node (value : NodeValue) (children : List DomTree)

/-- The edges of a traversal. -/
inductive Edge
  | opened (value : NodeValue)
  | closed (value : NodeValue)

namespace DomTree

mutual

/-- `traverse`: a node is opened, its children are visited, and it is closed. -/
def edges : DomTree → List Edge
  | .node value children => .opened value :: (edgesList children ++ [.closed value])

def edgesList : List DomTree → List Edge
  | [] => []
  | t :: ts => edges t ++ edgesList ts

end

end DomTree

/-! ## Policy -/

def safeElements : List String :=
  ["a", "abbr", "article", "b", "blockquote", "br", "caption", "code", "col", "colgroup", "dd",
    "del", "div", "dl", "dt", "em", "figcaption", "figure", "h1", "h2", "h3", "h4", "h5", "h6",
    "hr", "i", "img", "ins", "kbd", "li", "mark", "ol", "p", "pre", "q", "s", "samp", "section",
    "small", "span", "strong", "sub", "sup", "table", "tbody", "td", "tfoot", "th", "thead", "tr",
    "u", "ul", "wbr"]

def dropContentElements : List String :=
  ["applet", "base", "embed", "frame", "frameset", "head", "iframe", "input", "link", "meta",
    "noscript", "object", "script", "select", "style", "svg", "template", "textarea", "video"]

def voidElements : List String := ["br", "col", "hr", "img", "wbr"]

def allowedAttribute (element attr : String) : Bool :=
  if attr ∈ ["class", "id", "title"] then true
  else if attr = "href" then element == "a"
  else if attr = "alt" then element == "img"
  else if attr ∈ ["width", "height"] then decide (element ∈ ["img", "td", "th"])
  else if attr ∈ ["colspan", "rowspan"] then decide (element ∈ ["td", "th"])
  else if attr = "align" then
    decide (element ∈ ["caption", "div", "p", "table", "td", "th"])
  else false

/-! ## Escaping -/

def isAllowedHtmlCharacter (c : Char) : Bool :=
  c.toNat == 0x9 || c.toNat == 0xA || c.toNat == 0xD || (0x20 ≤ c.toNat && c.toNat ≤ 0xD7FF) ||
    (0xE000 ≤ c.toNat && c.toNat ≤ 0xFFFD) || (0x10000 ≤ c.toNat && c.toNat ≤ 0x10FFFF)

/-- One character of `append_escaped`. -/
def escapedChar (attr : Bool) (c : Char) : Html :=
  if c = '&' then "&amp;".toList
  else if c = '<' then "&lt;".toList
  else if c = '>' then "&gt;".toList
  else if c = '"' ∧ attr then "&quot;".toList
  else if c = '\'' ∧ attr then "&#39;".toList
  else if isAllowedHtmlCharacter c then [c]
  else []

/-- `append_escaped`. -/
def appendEscaped (output : Html) (value : String) (attr : Bool) : Html :=
  output ++ value.toList.flatMap (escapedChar attr)

/-- `append_text`. -/
def appendText (output : Html) (text : String) : Html := appendEscaped output text false

/-- `append_attribute`. -/
def appendAttribute (output : Html) (name value : String) : Html :=
  appendEscaped (output ++ [' '] ++ name.toList ++ "=\"".toList) value true ++ ['"']

/-! ## URLs -/

/-- `authority_contains_userinfo`. -/
def authorityContainsUserinfo (value : String) : Bool :=
  match Scan.cutAt "://".toList value.toList with
  | none => false
  | some (_, remainder) =>
    (remainder.takeWhile fun c => c ≠ '/' ∧ c ≠ '?' ∧ c ≠ '#').contains '@'

section Urls

variable {Url : Type} [UrlCrate Url]

/-- `approved_http_url`. -/
def approvedHttpUrl (value : String) (stripFragment : Bool) : Option Url :=
  let value := trim value
  if authorityContainsUserinfo value then none
  else match (UrlCrate.parse value : Option Url) with
    | none => none
    | some url =>
      if !(UrlCrate.scheme url == "http" || UrlCrate.scheme url == "https")
          || (UrlCrate.hostStr url).isNone || UrlCrate.username url ≠ ""
          || (UrlCrate.password url).isSome then none
      else
        let url :=
          if (UrlCrate.scheme url == "http" && UrlCrate.port url == some 80)
              || (UrlCrate.scheme url == "https" && UrlCrate.port url == some 443)
          then UrlCrate.clearPort url else url
        some (if stripFragment then UrlCrate.clearFragment url else url)

/-- `image_source`: the lazy sources first, `src` last. -/
def imageSource (attrs : List (String × String)) : Option Url :=
  ["data-src", "data-original", "data-lazy-src", "src"].findSome? fun attr =>
    (attrs.lookup attr).bind fun value => approvedHttpUrl value true

/-- One attribute of the loop of `append_attributes`: the name and value it writes, if any. -/
def keptAttribute (Url : Type) [UrlCrate Url] (element : String) (attr value : String) :
    Option (String × String) :=
  if attr = "src" ∨ "data-".toList <+: attr.toList then none
  else if !allowedAttribute element attr then none
  else if attr = "href" then
    match (approvedHttpUrl value false : Option Url) with
    | none => none
    | some url => if hasProviderSignature url then none else some (attr, UrlCrate.asStr url)
  else some (attr, value)

/-- The attributes of an element that are written. -/
def keptAttributes (Url : Type) [UrlCrate Url] (element : String)
    (attrs : List (String × String)) : List (String × String) :=
  attrs.filterMap fun a => keptAttribute Url element a.1 a.2

/-- `append_attributes`. -/
def appendAttributes (output : Html) (element : String) (attrs : List (String × String))
    (imageSource : Option Url) : Html :=
  let output := (keptAttributes Url element attrs).foldl
    (fun output a => appendAttribute output a.1 a.2) output
  match imageSource with
  | none => output
  | some source => appendAttribute output "src" (UrlCrate.asStr source)

end Urls

/-! ## The renderer -/

/-- The state of the sanitizer. -/
structure Renderer (Url : Type) where
  html : Html
  externalAssets : List Url
  seenAssets : List Url
  omittedDepth : ℕ

namespace Renderer

variable {Url : Type} [UrlCrate Url] [DecidableEq Url]

/-- `render_open_element`. -/
def renderOpenElement (self : Renderer Url) (name : String) (attrs : List (String × String)) :
    Renderer Url :=
  if name = "img" then
    match (imageSource attrs : Option Url) with
    | none => { self with omittedDepth := 1 }
    | some source =>
      let self := if source ∈ self.seenAssets then self else
        { self with
          seenAssets := source :: self.seenAssets
          externalAssets := self.externalAssets ++ [source] }
      if hasProviderSignature source then { self with omittedDepth := 1 }
      else
        { self with
          html := appendAttributes (self.html ++ ['<'] ++ name.toList) name attrs (some source)
            ++ " />".toList }
  else
    let html := appendAttributes (self.html ++ ['<'] ++ name.toList) name attrs (none : Option Url)
    { self with html := html ++ if name ∈ voidElements then " />".toList else ['>'] }

/-- `open`. -/
def openNode (self : Renderer Url) (node : NodeValue) : Renderer Url :=
  if self.omittedDepth > 0 then { self with omittedDepth := self.omittedDepth + 1 }
  else match node with
    | .element name attrs =>
      if name ∈ dropContentElements then { self with omittedDepth := 1 }
      else if name ∈ safeElements then self.renderOpenElement name attrs
      else self
    | .text text => { self with html := appendText self.html text }
    | _ => self

/-- `close`. -/
def closeNode (self : Renderer Url) (node : NodeValue) : Renderer Url :=
  if self.omittedDepth > 0 then { self with omittedDepth := self.omittedDepth - 1 }
  else match node with
    | .element name _ =>
      if name ∈ safeElements ∧ name ∉ voidElements then
        { self with html := self.html ++ "</".toList ++ name.toList ++ ['>'] }
      else self
    | _ => self

/-- `render_edge`. -/
def renderEdge (self : Renderer Url) : Edge → Renderer Url
  | .opened node => self.openNode node
  | .closed node => self.closeNode node

/-- `sanitize` on a parsed document. -/
def sanitize (document : DomTree) : Renderer Url :=
  document.edges.foldl renderEdge ⟨[], [], [], 0⟩

end Renderer

/-! ## The sanitized tree -/

/-- A sanitized tree.  Void elements carry the image source when they are images. -/
inductive SafeNode
  | text (text : String)
  | void (name : String) (attrs : List (String × String)) (src : Option String)
  | element (name : String) (attrs : List (String × String)) (children : List SafeNode)

section Safe

variable (Url : Type) [UrlCrate Url]

/-- What opening an element leaves of it: nothing, not even its content; its content only; or the
element itself. -/
inductive Kept
  | nothing
  | content
  | image (src : String)
  | self

/-- The decision `open` and `render_open_element` take on an element. -/
def keptElement (name : String) (attrs : List (String × String)) : Kept :=
  if name ∈ dropContentElements then .nothing
  else if name ∉ safeElements then .content
  else if name = "img" then
    match (imageSource attrs : Option Url) with
    | none => .nothing
    | some source =>
      if hasProviderSignature source then .nothing else .image (UrlCrate.asStr source)
  else .self

mutual

/-- **The tree the sanitizer writes.** -/
def safe : DomTree → List SafeNode
  | .node (.text text) children => .text text :: safeList children
  | .node (.element name attrs) children =>
    match keptElement Url name attrs with
    | .nothing => []
    | .content => safeList children
    | .image src => .void name (keptAttributes Url name attrs) (some src) :: safeList children
    | .self =>
      if name ∈ voidElements then
        .void name (keptAttributes Url name attrs) none :: safeList children
      else [.element name (keptAttributes Url name attrs) (safeList children)]
  | .node .document children => safeList children
  | .node .fragment children => safeList children
  | .node .doctype children => safeList children
  | .node .comment children => safeList children
  | .node .processingInstruction children => safeList children

def safeList : List DomTree → List SafeNode
  | [] => []
  | t :: ts => safe t ++ safeList ts

end

end Safe

end Werrss
