import Werrss.Machinery.Url

/-!
# Domain/UrlPolicy — signed URLs and verified article URLs

`has_provider_signature` recognises the query formats of signed cloud URLs; a
`VerifiedWechatArticleUrl` is the canonical text of a public article URL, and parsing that text
gives it back.
-/

open Machinery

namespace Werrss

variable {Url : Type} [UrlCrate Url]

/-- The `token` value of a signed download: `key:signature` with both parts present. -/
def isSignedToken (value : String) : Bool :=
  match splitOnce ':' value with
  | none => false
  | some (key, signature) =>
    key ≠ "" && signature ≠ "" && !(signature.toList.contains ':')

/-- `has_provider_signature`. -/
def hasProviderSignature (url : Url) : Bool :=
  let pairs := UrlCrate.queryPairs url
  let keys := pairs.map fun (name, _) => toAsciiLowercase name
  let has (name : String) : Bool := keys.contains name
  has "x-amz-signature"
    || has "x-goog-signature"
    || (has "googleaccessid" && has "signature" && has "expires")
    || (has "awsaccesskeyid" && has "signature" && has "expires")
    || (has "key-pair-id" && has "signature" && (has "expires" || has "policy"))
    || (has "sig" && has "se" && has "sv")
    || (has "e" && pairs.any fun (name, value) =>
          toAsciiLowercase name == "token" && isSignedToken value)
    || (has "ossaccesskeyid" && has "signature" && has "expires")
    || (has "q-signature" && has "q-ak" && has "q-sign-algorithm")
    || (has "sign" && has "key-time" && has "x-cos-security-token")
    || has "hdnts"

theorem hasProviderSignature_congr {u v : Url} (h : UrlCrate.queryPairs u = UrlCrate.queryPairs v) :
    hasProviderSignature u = hasProviderSignature v := by
  simp only [hasProviderSignature, h]

/-! ## Verified article URLs -/

/-- The errors of `VerifiedWechatArticleUrl::parse`. -/
inductive SourceError
  | emptyArticleUrl | invalidArticleUrl
deriving DecidableEq, Repr

/-- The URL is a public article page: `https`, the one host, nothing else in the authority, no
fragment and no signature. -/
def isPublicArticle (url : Url) : Bool :=
  UrlCrate.scheme url == "https"
    && UrlCrate.hostStr url == some "mp.weixin.qq.com"
    && UrlCrate.username url == ""
    && (UrlCrate.password url).isNone
    && (UrlCrate.fragment url).isNone
    && !(UrlCrate.port url).any (· ≠ 443)
    && !hasProviderSignature url

variable (Url) in
/-- The text `VerifiedWechatArticleUrl::parse` keeps. -/
def canonicalArticleUrl (value : String) : Except SourceError String :=
  let value := trim value
  if value = "" then .error .emptyArticleUrl
  else match (UrlCrate.parse value : Option Url) with
    | none => .error .invalidArticleUrl
    | some url =>
      if !isPublicArticle url then .error .invalidArticleUrl
      else if UrlCrate.port url = some 443 then .ok (UrlCrate.asStr (UrlCrate.clearPort url))
      else .ok (UrlCrate.asStr url)

variable (Url) in
/-- **The canonical text of a public article URL.** -/
structure VerifiedWechatArticleUrl where
  asStr : String
  canonical : canonicalArticleUrl Url asStr = .ok asStr

instance : DecidableEq (VerifiedWechatArticleUrl Url) := fun a b =>
  decidable_of_iff (a.asStr = b.asStr) (by cases a; cases b; simp)

variable [LawfulUrlCrate Url]

open LawfulUrlCrate

theorem isPublicArticle_clearPort {url : Url} (h : isPublicArticle url = true) :
    isPublicArticle (UrlCrate.clearPort url) = true := by
  simp only [isPublicArticle, Bool.and_eq_true] at h ⊢
  simp only [scheme_clearPort, hostStr_clearPort, username_clearPort, password_clearPort,
    fragment_clearPort, port_clearPort,
    hasProviderSignature_congr (queryPairs_clearPort url)]
  exact ⟨⟨h.1.1, rfl⟩, h.2⟩

/-- The text of a public article URL without an explicit default port is its own canonical text. -/
theorem canonicalArticleUrl_asStr {url : Url} (h : isPublicArticle url = true)
    (hp : UrlCrate.port url ≠ some 443) :
    canonicalArticleUrl Url (UrlCrate.asStr url) = .ok (UrlCrate.asStr url) := by
  have hs : UrlCrate.scheme url = "http" ∨ UrlCrate.scheme url = "https" := by
    simp only [isPublicArticle, Bool.and_eq_true, beq_iff_eq] at h
    exact .inr h.1.1.1.1.1.1
  have htrim : trim (UrlCrate.asStr url) = UrlCrate.asStr url := by
    refine trim_of_forall fun c hc => ?_
    obtain ⟨hlo, hhi⟩ := asStr_printable url c hc
    have hspace := (asStr_encoded url hs c hc).1
    have hlo' : 32 ≤ c.toNat := hlo
    have hhi' : c.toNat ≤ 126 := hhi
    have hne : c.toNat ≠ 32 := fun h => hspace (Char.toNat_inj.mp h)
    simp only [isWhiteSpace, Bool.or_eq_false_iff, Bool.and_eq_false_iff, decide_eq_false_iff_not,
      beq_eq_false_iff_ne]
    omega
  simp [canonicalArticleUrl, htrim, asStr_ne_empty, parse_asStr, h, hp]

/-- **Canonical texts are canonical.** -/
theorem canonicalArticleUrl_idem {value text : String}
    (h : canonicalArticleUrl Url value = .ok text) : canonicalArticleUrl Url text = .ok text := by
  unfold canonicalArticleUrl at h
  simp only at h
  split_ifs at h with hempty
  split at h
  · cases h
  · rename_i url hparse
    split_ifs at h with hpub hport
    · obtain rfl := Except.ok.inj h
      exact canonicalArticleUrl_asStr (isPublicArticle_clearPort (by simpa using hpub))
        (by simp [port_clearPort])
    · obtain rfl := Except.ok.inj h
      exact canonicalArticleUrl_asStr (by simpa using hpub) hport

/-- `VerifiedWechatArticleUrl::parse`. -/
def VerifiedWechatArticleUrl.parse (value : String) :
    Except SourceError (VerifiedWechatArticleUrl Url) :=
  match h : canonicalArticleUrl Url value with
  | .error e => .error e
  | .ok text => .ok ⟨text, canonicalArticleUrl_idem h⟩

theorem VerifiedWechatArticleUrl.parse_asStr (url : VerifiedWechatArticleUrl Url) :
    VerifiedWechatArticleUrl.parse url.asStr = .ok url := by
  unfold VerifiedWechatArticleUrl.parse
  split
  · rename_i e he
    rw [url.canonical] at he
    cases he
  · rename_i text htext
    obtain rfl := Except.ok.inj (htext.symm.trans url.canonical)
    rfl

/-- The text of a short link. -/
theorem canonicalArticleUrl_shortLink :
    canonicalArticleUrl PlainUrl "https://mp.weixin.qq.com/s/a"
      = .ok "https://mp.weixin.qq.com/s/a" := by
  decide

end Werrss
