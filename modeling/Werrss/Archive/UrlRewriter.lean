import Werrss.Archive.Sanitizer

/-!
# Archive/UrlRewriter — the flat-text scanners over sanitized HTML

Both scanners look for ` src="` in the flat HTML and read up to the next `"`: one rewrites the values
it finds, the other asks whether one of them satisfies a predicate.
-/

open Machinery

namespace Werrss

/-- The text that begins a source attribute. -/
def srcMark : Html := " src=\"".toList

/-- One character of `escape_attribute`. -/
def escapeAttributeChar (c : Char) : Html :=
  if c = '&' then "&amp;".toList
  else if c = '<' then "&lt;".toList
  else if c = '>' then "&gt;".toList
  else if c = '"' then "&quot;".toList
  else if c = '\'' then "&#39;".toList
  else [c]

/-- `escape_attribute`. -/
def escapeAttribute (value : String) : Html := value.toList.flatMap escapeAttributeChar

/-- `rewrite_src_attributes`. -/
def rewriteSrcAttributes (html : Html) (replacement : Html → Option String) : Html :=
  Scan.rewrite srcMark '"' (fun source => (replacement source).map escapeAttribute) html

section Rewrite

variable {Url : Type} [UrlCrate Url]

/-- The map `rewrite_sanitized_html` collects: a later entry replaces an earlier one. -/
def replacementFor (replacements : List (Url × String)) (source : Html) : Option String :=
  (replacements.reverse.find? fun entry =>
    escapeAttribute (UrlCrate.asStr entry.1) = source).map Prod.snd

/-- `rewrite_sanitized_html`. -/
def rewriteSanitizedHtml (html : Html) (replacements : List (Url × String)) : Html :=
  if replacements = [] ∨ html = [] then html
  else rewriteSrcAttributes html (replacementFor replacements)

end Rewrite

/-! ## Stable asset routes -/

section Assets

variable (uuid : UuidParser)

/-- `stable_asset_id_segment`. -/
def stableAssetIdSegment (assetId : Html) : Option Html :=
  if assetId = [] ∨ '/' ∈ assetId ∨ '?' ∈ assetId ∨ '#' ∈ assetId then none
  else if uuid.accepts assetId then some assetId
  else none

/-- `stable_asset_id`. -/
def stableAssetId (source : Html) : Option Html :=
  if "/assets/".toList <+: source then stableAssetIdSegment uuid (source.drop "/assets/".toList.length)
  else none

/-- `str::rsplit_once("/assets/")`, the part behind. -/
def behindLastAssets (path : Html) : Option Html :=
  (Scan.cutAt "/assets/".toList.reverse path.reverse).map fun ab => ab.1.reverse

variable {Url : Type} [UrlCrate Url]

/-- `asset_url_base`. -/
def assetUrlBase (serverRootUrl : Url) : Option Url :=
  UrlCrate.join (UrlCrate.setPath serverRootUrl (directoryPath (UrlCrate.path serverRootUrl)))
    "assets/"

/-- The absolute URL of a stable relative route. -/
def absoluteTarget (assetBase : Url) (source : Html) : Option String :=
  (stableAssetId uuid source).bind fun assetId =>
    (UrlCrate.join assetBase (String.ofList assetId)).map UrlCrate.asStr

/-- `absolutize_asset_urls`. -/
def absolutizeAssetUrls (html : Html) (serverRootUrl : Url) : Html :=
  match assetUrlBase serverRootUrl with
  | none => html
  | some assetBase => rewriteSrcAttributes html (absoluteTarget uuid assetBase)

variable (Url) in
/-- `stable_absolute_asset_url`. -/
def stableAbsoluteAssetUrl (source : Html) : Option Url :=
  match (UrlCrate.parse (String.ofList source) : Option Url) with
  | none => none
  | some url =>
    if !(UrlCrate.scheme url == "http" || UrlCrate.scheme url == "https")
        || (UrlCrate.hostStr url).isNone then none
    else
      ((behindLastAssets (UrlCrate.path url).toList).bind (stableAssetIdSegment uuid)).map fun _ => url

/-- `asset_url_matches_base`. -/
def assetUrlMatchesBase (url assetBase : Url) : Bool :=
  match behindLastAssets (UrlCrate.path url).toList with
  | none => false
  | some assetId =>
    (stableAssetIdSegment uuid assetId).isSome &&
      ((UrlCrate.join assetBase (String.ofList assetId)).any fun expected =>
        UrlCrate.asStr expected == UrlCrate.asStr url)

end Assets

end Werrss
