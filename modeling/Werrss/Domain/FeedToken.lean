import Werrss.Machinery.Base64
import Werrss.Machinery.Std

/-!
# Domain/FeedToken — the capability in a public feed URL

    32 drawn bytes ──base64url──▸ token ──SHA-256──▸ digest

A token is the canonical text of 32 bytes.  Parsing accepts exactly those texts.
-/

open Machinery

namespace Werrss

/-- The `sha2` crate: the SHA-256 digest of a body. -/
class Sha256Crate where
  digest : List UInt8 → Vector UInt8 32

/-- Errors raised while parsing a public feed token. -/
inductive FeedTokenError
  | empty | invalidEncoding | invalidLength
deriving DecidableEq, Repr

/-- **An opaque bearer capability**: the unpadded base64url text of 32 bytes. -/
structure FeedToken where
  text : String
  canonical : ∃ bytes : List UInt8, bytes.length = 32 ∧ text = Base64.urlSafe.encode bytes

namespace FeedToken

/-- `generate`; the draw is the 32 random bytes. -/
def generate (draw : Vector UInt8 32) : FeedToken where
  text := Base64.urlSafe.encode draw.toList
  canonical := ⟨draw.toList, by simp, rfl⟩

/-- `parse`. -/
def parse (value : String) : Except FeedTokenError FeedToken :=
  if value = "" then .error .empty
  else if trim value ≠ value then .error .invalidEncoding
  else
    match Base64.urlSafe.decode value with
    | none => .error .invalidEncoding
    | some bytes =>
      if hlength : bytes.length ≠ 32 then .error .invalidLength
      else if hcanonical : Base64.urlSafe.encode bytes ≠ value then .error .invalidEncoding
      else .ok ⟨value, bytes, not_not.mp hlength, (not_not.mp hcanonical).symm⟩

/-- `hash`. -/
def hash [Sha256Crate] (self : FeedToken) : Vector UInt8 32 :=
  Sha256Crate.digest (self.text.toList.flatMap String.utf8EncodeChar)

theorem ext_text {a b : FeedToken} (h : a.text = b.text) : a = b := by
  cases a
  cases b
  exact FeedToken.mk.injEq .. ▸ h

/-- No letter of a token is white space. -/
theorem trim_text (token : FeedToken) : trim token.text = token.text := by
  obtain ⟨text, bytes, -, rfl⟩ := token
  refine trim_of_forall fun c hc => ?_
  exact forall_mem_of_all (P := fun c => isWhiteSpace c = false) (by decide) c
    (Base64.urlSafe.mem_encode hc)

/-- **Every token parses to itself.** -/
theorem parse_text (token : FeedToken) : parse token.text = .ok token := by
  have htrim := token.trim_text
  obtain ⟨text, bytes, hlength, rfl⟩ := token
  have hfilled : Base64.urlSafe.encode bytes ≠ "" :=
    Base64.urlSafe.encode_ne_empty fun hnil => by
      rw [hnil] at hlength
      cases hlength
  rw [parse, if_neg hfilled, if_neg (not_not.mpr htrim)]
  simp only [Base64.urlSafe.decode_encode, hlength, ne_eq, not_true_eq_false, dif_neg, not_false_eq_true]

/-- **Parsing adds nothing**: the token is the text that was parsed. -/
theorem text_of_parse {value : String} {token : FeedToken} (h : parse value = .ok token) :
    token.text = value := by
  rw [parse] at h
  split_ifs at h
  split at h
  · cases h
  · split_ifs at h
    obtain rfl := Except.ok.inj h
    rfl

theorem parse_eq_ok {value : String} {token : FeedToken} :
    parse value = .ok token ↔ token.text = value := by
  refine ⟨text_of_parse, fun h => ?_⟩
  rw [← h]
  exact token.parse_text

/-- Different draws make different tokens. -/
theorem generate_injective : Function.Injective generate := fun a b h => by
  have htext := Base64.urlSafe.encode_injective (congrArg FeedToken.text h)
  exact Vector.toList_inj.mp htext

end FeedToken

end Werrss
