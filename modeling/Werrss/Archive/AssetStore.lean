import Werrss.Domain.UrlPolicy

/-!
# Archive/AssetStore — the values of the asset cache

An `AssetInput` is one fetched image: its URLs, its body, and the digest taken when it was built.  A
blob is a body with the metadata that describes it; several URL versions may share one blob.  What
the repository refuses, and in which order it looks, is `validateInput`.
-/

open Machinery

namespace Werrss

/-! ## Limits and errors -/

/-- The limits of the cache the repository reads. -/
structure AssetCachePolicy where
  /-- zero is unlimited -/
  maxCacheSizeBytes : ℕ
  /-- in nanoseconds; zero is unlimited -/
  maxAge : ℕ
  maxAssetSizeBytes : ℕ
  maxCountPerArticle : ℕ
deriving DecidableEq, Repr

inductive AssetBlobStoreError
  | invalidMetadata | checksumMismatch | conflict | sizeOverflow
  | backend (message : String)
deriving DecidableEq, Repr

inductive AssetRepositoryError
  | invalidArticleIdentity | invalidUrl | invalidMediaType | emptyBody
  | assetTooLarge (bytes maxBytes : ℕ)
  | tooManyAssets (maxCount : ℕ)
  | capacityExceeded (requestedBytes maxBytes : ℕ)
  | invalidMetadata | checksumMismatch | preparationRequired | leaseLost
  | storage (message : String)
  | blobStore (error : AssetBlobStoreError)
deriving DecidableEq, Repr

/-- The errors of the blob backend, as the repository reports them. -/
def AssetRepositoryError.ofBlobStore {α : Type} :
    Except AssetBlobStoreError α → Except AssetRepositoryError α
  | .ok value => .ok value
  | .error e => .error (.blobStore e)

/-! ## Blobs -/

structure AssetBlob where
  bytes : List UInt8
  mediaType : String
  checksum : String
deriving DecidableEq

def AssetBlob.byteSize (blob : AssetBlob) : ℕ := blob.bytes.length

/-- `AssetBlob::new`: the checksum must describe the bytes. -/
def AssetBlob.new [Sha2Crate] (bytes : List UInt8) (mediaType checksum : String) :
    Except AssetBlobStoreError AssetBlob :=
  if isBlank mediaType then .error .invalidMetadata
  else if checksum ≠ Sha2Crate.sha256Hex bytes then .error .checksumMismatch
  else .ok ⟨bytes, mediaType, checksum⟩

structure AssetBlobMetadata where
  checksum : String
  mediaType : String
  byteSize : ℕ
  present : Bool
deriving DecidableEq, Repr

/-- `u8::is_ascii_hexdigit`. -/
def isAsciiHexdigit (c : Char) : Bool :=
  c.isDigit || ('a' ≤ c && c ≤ 'f') || ('A' ≤ c && c ≤ 'F')

/-- `AssetBlobMetadata::new`. -/
def AssetBlobMetadata.new (checksum mediaType : String) (byteSize : ℕ) (present : Bool) :
    Except AssetBlobStoreError AssetBlobMetadata :=
  if isBlank mediaType || checksum.utf8ByteSize ≠ 64 || !checksum.toList.all isAsciiHexdigit then
    .error .invalidMetadata
  else .ok ⟨checksum, mediaType, byteSize, present⟩

/-- One persisted URL version and its shared blob. -/
structure StoredAsset (Url : Type) where
  id : Uuid
  sourceUrl : Url
  blobId : Uuid
  checksum : String
  mediaType : String
  byteSize : ℕ

/-! ## Inputs -/

structure AssetInput (Url : Type) where
  sourceUrl : Url
  finalUrl : Url
  mediaType : String
  bytes : List UInt8
  occurrence : ℕ
  refererUrl : Url
  origin : Option String
  userAgent : Option String
  checksum : String
  preparationId : Uuid

/-- `AssetInput::checksum_matches_bytes`. -/
def AssetInput.checksumMatchesBytes [Sha2Crate] {Url : Type} (input : AssetInput Url) : Bool :=
  Sha2Crate.sha256Hex input.bytes == input.checksum

/-! ## What the repository accepts -/

namespace AssetRepository

variable {Url : Type} [UrlCrate Url]

/-- `normalize_url`: a plain `http` or `https` URL, without its default port. -/
def normalizeUrl (url : Url) : Except AssetRepositoryError Url :=
  if (UrlCrate.scheme url ≠ "http" ∧ UrlCrate.scheme url ≠ "https")
      ∨ UrlCrate.hostStr url = none
      ∨ UrlCrate.username url ≠ ""
      ∨ (UrlCrate.password url).isSome
      ∨ (UrlCrate.fragment url).isSome then
    .error .invalidUrl
  else if (UrlCrate.scheme url = "http" ∧ UrlCrate.port url = some 80)
      ∨ (UrlCrate.scheme url = "https" ∧ UrlCrate.port url = some 443) then
    .ok (UrlCrate.clearPort url)
  else .ok url

/-- `input_byte_size`: the body's length as a `BIGINT`. -/
def inputByteSize (input : AssetInput Url) : Except AssetRepositoryError ℕ :=
  if input.bytes.length ≤ i64Max then .ok input.bytes.length
  else .error (.storage "asset body exceeds PostgreSQL byte range")

/-- An optional request header the repository stores. -/
def isHeaderValue (value : Option String) : Bool :=
  value.all fun text => text ≠ "" && text.utf8ByteSize ≤ 512 && !text.toList.any isControl

/-- `validate_input`. -/
def validateInput [Sha2Crate] (input : AssetInput Url) (policy : AssetCachePolicy) :
    Except AssetRepositoryError Unit := do
  if !input.checksumMatchesBytes then .error .checksumMismatch
  if hasProviderSignature input.sourceUrl || hasProviderSignature input.finalUrl
      || hasProviderSignature input.refererUrl then
    .error .invalidUrl
  let _ ← normalizeUrl input.sourceUrl
  let _ ← normalizeUrl input.finalUrl
  let _ ← normalizeUrl input.refererUrl
  if input.mediaType ∉ ["image/png", "image/jpeg", "image/gif", "image/webp"] then
    .error .invalidMediaType
  if input.bytes.isEmpty then .error .emptyBody
  if policy.maxAssetSizeBytes < input.bytes.length then
    .error (.assetTooLarge input.bytes.length policy.maxAssetSizeBytes)
  if !isHeaderValue input.origin || !isHeaderValue input.userAgent then .error .invalidMetadata

/-- `validate_article_identity`. -/
def validateArticleIdentity (sourceId : Uuid) (reviewId : String) :
    Except AssetRepositoryError Unit :=
  if sourceId = .nil ∨ isBlank reviewId then .error .invalidArticleIdentity else .ok ()

/-- `validate_input_count`. -/
def validateInputCount (policy : AssetCachePolicy) (inputs : List (AssetInput Url)) :
    Except AssetRepositoryError Unit :=
  if policy.maxCountPerArticle < inputs.length then .error (.tooManyAssets policy.maxCountPerArticle)
  else .ok ()

end AssetRepository

end Werrss
