import Mathlib.Data.List.ReduceOption
import Werrss.Acquisition.Identity
import Werrss.Acquisition.PageFallback
import Werrss.Machinery.Regex
import Werrss.Machinery.Scan

/-!
# Acquisition/PageIdentity — the account behind a rendered page

    resolved URL   biz = '…'   msg_link = '…'   og:url, twitter:url, canonical   any article link
         └────────────┴─────────────┴───── first that decodes ─────┴──────────────────── ┘

The page is searched as it is written: the first `biz = '…'` of the whole source is the script's
candidate, wherever it stands.  **So an article text that reads like an assignment, before the
page's own one, is the identity.**  Article text leaves the identity alone exactly when it changes
no first match down to the one that decides.
-/

open Machinery

namespace Werrss

/-! ## Embedded texts -/

section Expressions

variable [RegexCrate]

end Expressions

/-! ## The page -/

namespace PageTree

variable (tree : PageTree)

end PageTree

/-! ## Candidates -/

variable {Url : Type} [UrlCrate Url]

/-- A value that may be an account's number, and where it comes from. -/
abbrev IdentityCandidate := String × IdentityMethod

section Page

variable [RegexCrate]

/-- A candidate and its number. -/
def decodeCandidate (candidate : IdentityCandidate) : Option (IdentityCandidate × String) :=
  (decodeBiz candidate.1).toOption.map fun bid => (candidate, bid)

end Page

/-- The first candidate that decodes. -/
def firstDecoded (candidates : List (Option IdentityCandidate)) :
    Option (IdentityCandidate × String) :=
  candidates.findSome? (·.bind decodeCandidate)

/-- What the candidates decide. -/
def outcome (candidates : List (Option IdentityCandidate)) :
    Except IdentityError (Option (IdentityCandidate × String)) :=
  if candidates.reduceOption = [] then .ok none
  else match firstDecoded candidates with
    | none => .error .invalidBiz
    | some found => .ok (some found)

/-- A piece of the source of a page: article text is what stands in the text nodes and in the
attribute values of the article body. -/
inductive PagePart
  | markup (text : String)
  | article (text : String)

def PagePart.text : PagePart → String
  | .markup text => text
  | .article text => text

section Decision

variable [RegexCrate] {parse : String → PageTree}
  {articleUrl resolvedUrl : VerifiedWechatArticleUrl Url}

end Decision

section Samples

/-- The word characters of ASCII. -/
abbrev asciiWords : RegexCrate := ⟨fun c => c.isAlphanum || c == '_'⟩

attribute [local instance] asciiWords

end Samples

end Werrss
