import Werrss.Machinery.Std

/-!
# Domain/Credentials — the secrets of an account

Credentials are built by `new`, `with_web_cookie` and `refreshed` only, so the tokens of a value are
not blank and its cookie header, if it has one, is well formed: the structure carries both.
-/

open Machinery

namespace Werrss

inductive CredentialError
  | emptyToken | expiryNotAfterIssue | invalidWebCookie
deriving DecidableEq, Repr

/-- A part of a cookie header: a name that is not blank, an equals sign, and any value. -/
def isCookiePart (part : List Char) : Bool :=
  let part := String.ofList (trimChars part)
  part ≠ "" && (splitOnce '=' part).any fun pair => !isBlank pair.1

/-- The headers `with_web_cookie` accepts. -/
def isWebCookie (cookieHeader : String) : Bool :=
  !isBlank cookieHeader && !cookieHeader.toList.any isControl
    && (cookieHeader.toList.splitOn ';').all isCookiePart

/-- **The secret material of authenticated requests.** -/
structure WeReadCredentials where
  accessToken : String
  refreshToken : String
  webCookie : Option String
  accessExpiresAt : DateTime
  access_nonblank : isBlank accessToken = false
  refresh_nonblank : isBlank refreshToken = false
  cookie_valid : ∀ cookie ∈ webCookie, isWebCookie cookie = true
deriving DecidableEq

namespace WeReadCredentials

/-- `WeReadCredentials::new`. -/
def new (accessToken refreshToken : String) (accessExpiresAt issuedAt : DateTime) :
    Except CredentialError WeReadCredentials :=
  if h : isBlank accessToken = false ∧ isBlank refreshToken = false then
    if accessExpiresAt ≤ issuedAt then .error .expiryNotAfterIssue
    else .ok
      { accessToken := accessToken
        refreshToken := refreshToken
        webCookie := none
        accessExpiresAt := accessExpiresAt
        access_nonblank := h.1
        refresh_nonblank := h.2
        cookie_valid := nofun }
  else .error .emptyToken

/-- `with_web_cookie`. -/
def withWebCookie (self : WeReadCredentials) (cookieHeader : String) :
    Except CredentialError WeReadCredentials :=
  if h : isWebCookie cookieHeader = true then
    .ok
      { self with
        webCookie := some cookieHeader
        cookie_valid := fun _ hcookie => Option.some.inj hcookie ▸ h }
  else .error .invalidWebCookie

/-- `needs_refresh`. -/
def needsRefresh (self : WeReadCredentials) (now : DateTime) (refreshBefore : Duration) : Bool :=
  (DateTime.checkedAddSigned now refreshBefore).all fun deadline =>
    decide (self.accessExpiresAt ≤ deadline)

/-- `refreshed`. -/
def refreshed (self : WeReadCredentials) (accessToken : String) (refreshToken : Option String)
    (accessExpiresAt issuedAt : DateTime) : Except CredentialError WeReadCredentials := do
  let credentials ←
    new accessToken (refreshToken.getD self.refreshToken) accessExpiresAt issuedAt
  match self.webCookie with
  | some cookie => credentials.withWebCookie cookie
  | none => return credentials

end WeReadCredentials

/-- Non-secret account state. -/
structure WeReadAccount where
  accountId : Uuid
  displayName : String
  credentialVersion : ℤ
  accessExpiresAt : Option DateTime
  disabled : Bool
  setupRequired : Bool
deriving DecidableEq, Repr

end Werrss
