import Werrss.Domain.UrlPolicy
import Werrss.Machinery.Base64
import Werrss.Machinery.Percent

/-!
# Acquisition/Identity — the account behind an article URL

    digits ──base64──▸ MTIzNDU= ──drop =, %XX, spaces──▸ spelling
    digits ◂──trim── bytes ◂──strict base64── re-padded ◂──trim, %XX── value

A public account's number is written in base64, as `__biz` or `biz`.  `decode_biz` reads every
spelling of a number — with or without its padding, with any character percent-encoded, with spaces
around — and **what it reads is the encoding of the number and nothing else**.
-/

open Machinery

namespace Werrss

/-! ## Decoding a value -/

/-- `IdentityMethod`. -/
inductive IdentityMethod
  | urlQuery
  | redirectUrl
  | htmlBiz
  | htmlMessageLink
  | htmlCanonical
  | htmlEmbeddedUrl
deriving DecidableEq, Repr

/-- `IdentityError`, without the browser's. -/
inductive IdentityError
  | invalidArticleUrl (error : SourceError)
  | invalidBiz
  | missingIdentity
  | unsafeRedirect
  | verificationRequired
deriving DecidableEq, Repr

/-- The value, padded again to a whole number of groups. -/
def repad (value : String) : String :=
  value ++ String.ofList (Base64.Alphabet.padding (asBytes value).length)

/-- `decode_biz`. -/
def decodeBiz (value : String) : Except IdentityError String :=
  match percentDecodeStr (trim value) with
  | none => .error .invalidBiz
  | some value =>
    let value := trim value
    if value = "" then .error .invalidBiz
    else match Base64.standard.decodePadded (repad value) with
      | none => .error .invalidBiz
      | some bytes =>
        match fromUtf8 bytes with
        | none => .error .invalidBiz
        | some decoded =>
          let decoded := trim decoded
          if decoded = "" ∨ ¬decoded.toList.all Char.isDigit then .error .invalidBiz
          else .ok decoded

/-! ## Resolving a URL -/

variable {Url : Type} [UrlCrate Url]

/-- `ArticleIdentity`. -/
structure ArticleIdentity (Url : Type) [UrlCrate Url] where
  articleUrl : VerifiedWechatArticleUrl Url
  resolvedUrl : VerifiedWechatArticleUrl Url
  biz : String
  bid : String
  bookId : String
  title : Option String
  accountName : Option String
  method : IdentityMethod

/-- `is_public_article_path`. -/
def isPublicArticlePath (path : String) : Bool :=
  path = "/s" ∨ "/s/".toList.isPrefixOf path.toList

/-- `is_public_article_url`. -/
def isPublicArticleUrl (url : VerifiedWechatArticleUrl Url) : Bool :=
  (UrlCrate.parse url.asStr : Option Url).any fun url => isPublicArticlePath (UrlCrate.path url)

/-- The names an account's number goes by. -/
def isBizKey (pair : String × String) : Bool := pair.1 = "__biz" ∨ pair.1 = "biz"

/-- The first `__biz` or `biz` of a query, unless it is blank. -/
def bizOfQuery (url : Url) : Option String :=
  (((UrlCrate.queryPairs url).find? isBizKey).map Prod.snd).filter fun value => trim value ≠ ""

/-- `biz_from_verified_url`. -/
def bizFromVerifiedUrl (url : VerifiedWechatArticleUrl Url) : Option String :=
  (UrlCrate.parse url.asStr : Option Url).bind fun url =>
    if !isPublicArticlePath (UrlCrate.path url) then none else bizOfQuery url

/-- `identity_from_biz`. -/
def identityFromBiz (articleUrl resolvedUrl : VerifiedWechatArticleUrl Url) (biz : String)
    (method : IdentityMethod) (title accountName : Option String) :
    Except IdentityError (ArticleIdentity Url) := do
  let bid ← decodeBiz biz
  .ok { articleUrl, resolvedUrl, biz, bookId := "MP_WXS_" ++ bid, bid, title, accountName, method }

/-- `resolve_from_url`. -/
def resolveFromUrl (articleUrl : VerifiedWechatArticleUrl Url) :
    Except IdentityError (ArticleIdentity Url) :=
  if !isPublicArticleUrl articleUrl then .error (.invalidArticleUrl .invalidArticleUrl)
  else match bizFromVerifiedUrl articleUrl with
    | none => .error .missingIdentity
    | some biz => identityFromBiz articleUrl articleUrl biz .urlQuery none none

/-! ## Spellings -/

/-- White space. -/
def White (cs : List Char) : Prop := ∀ c ∈ cs, isWhiteSpace c = true

/-- The encoding of an account's number, with some of its padding. -/
def encodedBiz (digits : String) (kept : ℕ) : List Char :=
  (Base64.standard.encode (asBytes digits)).toList ++ List.replicate kept '='

/-- **A spelling of an account's number**: its encoding without some of its padding, any characters
percent-encoded, and white space around. -/
structure Spelling (digits text : String) : Prop where
  spells : ∃ (kept : ℕ) (left spelled right : List Char),
    kept ≤ (Base64.Alphabet.padding (Base64.standard.encode (asBytes digits)).length).length ∧
    Spells (encodedBiz digits kept) spelled ∧ White left ∧ White right ∧
    text = String.ofList (left ++ spelled ++ right)

/-- An account's number. -/
def AccountNumber (digits : String) : Prop :=
  digits ≠ "" ∧ ∀ c ∈ digits.toList, c.isDigit = true

/-! ## Trimming -/

theorem White.dropWhile_append {cs : List Char} (h : White cs) (rest : List Char) :
    (cs ++ rest).dropWhile isWhiteSpace = rest.dropWhile isWhiteSpace :=
  List.dropWhile_append_of_pos h

/-- White space around is trimmed. -/
theorem trimChars_surround {left cs right : List Char} (hleft : White left) (hright : White right)
    (h : ∀ c ∈ cs, isWhiteSpace c = false) : trimChars (left ++ cs ++ right) = cs := by
  have hfront : ∀ {ds : List Char}, (∀ c ∈ ds, isWhiteSpace c = false) →
      ds.dropWhile isWhiteSpace = ds := fun hds =>
    dropWhile_eq_self_of_head fun c hc => hds c (List.mem_of_mem_head? hc)
  have hright' : White right.reverse := fun c hc => hright c (List.mem_reverse.mp hc)
  have hcs : ∀ c ∈ cs.reverse, isWhiteSpace c = false := fun c hc => h c (List.mem_reverse.mp hc)
  rw [trimChars, List.append_assoc, hleft.dropWhile_append]
  rcases cs with _ | ⟨c, cs⟩
  · have hnil : right.dropWhile isWhiteSpace = [] := List.dropWhile_eq_nil_iff.mpr hright
    rw [List.nil_append, hnil]
    rfl
  · have hhead : isWhiteSpace c = false := h c List.mem_cons_self
    rw [List.cons_append, List.dropWhile_cons_of_neg (by simp [hhead]), ← List.cons_append,
      List.reverse_append, hright'.dropWhile_append, hfront hcs, List.reverse_reverse]

/-- **What trimming takes away is white space.** -/
theorem exists_trim (s : String) : ∃ left right : List Char, White left ∧ White right ∧
    s = String.ofList left ++ trim s ++ String.ofList right := by
  refine ⟨s.toList.takeWhile isWhiteSpace,
    ((s.toList.dropWhile isWhiteSpace).reverse.takeWhile isWhiteSpace).reverse,
    fun c hc => List.mem_takeWhile_imp hc,
    fun c hc => List.mem_takeWhile_imp (List.mem_reverse.mp hc), ?_⟩
  refine String.toList_injective ?_
  rw [String.toList_append, String.toList_append, String.toList_ofList, String.toList_ofList, trim,
    String.toList_ofList, trimChars, List.append_assoc, ← List.reverse_append,
    List.takeWhile_append_dropWhile, List.reverse_reverse, List.takeWhile_append_dropWhile]

/-! ## Reading a value -/

/-- **What is read is an encoded number**, with nothing but white space around the number. -/
theorem decodeBiz_sound {value digits : String} (h : decodeBiz value = .ok digits) :
    AccountNumber digits ∧ ∃ (decoded : String) (left right : List Char),
      percentDecodeStr (trim value) = some decoded ∧ White left ∧ White right ∧
        repad (trim decoded) = Base64.standard.encodePadded
          (asBytes (String.ofList left ++ digits ++ String.ofList right)) := by
  unfold decodeBiz at h
  split at h
  · exact nomatch h
  rename_i decoded hdecoded
  dsimp only at h
  split_ifs at h with hempty
  split at h
  · exact nomatch h
  rename_i bytes hbytes
  split at h
  · exact nomatch h
  rename_i text htext
  split_ifs at h with hdigits
  obtain rfl := Except.ok.inj h
  rw [not_or, not_not, List.all_eq_true] at hdigits
  obtain ⟨left, right, hleft, hright, hsplit⟩ := exists_trim text
  refine ⟨hdigits, decoded, left, right, hdecoded, hleft, hright, ?_⟩
  rw [← hsplit, asBytes_of_fromUtf8 htext, Base64.standard.encodePadded_of_decodePadded hbytes]

/-! ## Reading a spelling -/

/-- The bytes of a number. -/
theorem asBytes_digits {digits : String} (h : ∀ c ∈ digits.toList, c.isDigit = true) :
    ∀ byte ∈ asBytes digits, 48 ≤ byte.toNat ∧ byte.toNat ≤ 57 := by
  have hdigit : ∀ c ∈ digits.toList, 48 ≤ c.toNat ∧ c.toNat ≤ 57 := fun c hc => by
    have hc := h c hc
    rw [Char.isDigit, Bool.and_eq_true, decide_eq_true_iff, decide_eq_true_iff] at hc
    exact hc
  rw [asBytes, flatMap_ascii fun c hc => Nat.lt_of_le_of_lt (hdigit c hc).2 (by decide)]
  intro byte hbyte
  obtain ⟨c, hc, rfl⟩ := List.mem_map.mp hbyte
  have hbounds := hdigit c hc
  rw [UInt8.toNat_ofNat_of_lt' (Nat.lt_of_le_of_lt hbounds.2 (by decide))]
  exact hbounds

/-- The encoding of digits holds no `+`. -/
theorem sextets_ne_plus (bytes : List UInt8) :
    (∀ byte ∈ bytes, 48 ≤ byte.toNat ∧ byte.toNat ≤ 57) → ∀ n ∈ Base64.sextets bytes, n ≠ 62 := by
  fun_induction Base64.sextets bytes with
  | case1 a b c rest ih =>
    intro h n hn
    simp only [List.forall_mem_cons] at h
    obtain ⟨ha, hb, hc, hrest⟩ := h
    simp only [List.mem_cons] at hn
    rcases hn with rfl | rfl | rfl | rfl | hn
    · omega
    · omega
    · omega
    · omega
    · exact ih hrest n hn
  | case2 a b =>
    intro h n hn
    simp only [List.forall_mem_cons] at h
    obtain ⟨ha, hb, -⟩ := h
    simp only [List.mem_cons, List.not_mem_nil, or_false] at hn
    omega
  | case3 a =>
    intro h n hn
    simp only [List.forall_mem_cons] at h
    obtain ⟨ha, -⟩ := h
    simp only [List.mem_cons, List.not_mem_nil, or_false] at hn
    omega
  | case4 => exact fun _ n hn => absurd hn List.not_mem_nil

theorem plus_not_mem_encode {digits : String} (h : ∀ c ∈ digits.toList, c.isDigit = true) :
    '+' ∉ (Base64.standard.encode (asBytes digits)).toList := by
  rw [Base64.Alphabet.encode, String.toList_ofList]
  intro hmem
  obtain ⟨n, hn, hchar⟩ := List.mem_map.mp hmem
  have hvalue := Base64.standard.value_char (Base64.sextets_lt _ n hn)
  rw [hchar, show Base64.standard.value '+' = some 62 by decide] at hvalue
  exact sextets_ne_plus _ (asBytes_digits h) n hn (Option.some.inj hvalue).symm

/-- The characters base64 is written with are neither white space nor percent signs. -/
theorem mem_encodedBiz {digits : String} {kept : ℕ} {c : Char} (hc : c ∈ encodedBiz digits kept) :
    c.toNat < 128 ∧ c ≠ '%' ∧ isWhiteSpace c = false := by
  have hall : ∀ c ∈ '=' :: Base64.standard.chars,
      c.toNat < 128 ∧ c ≠ '%' ∧ isWhiteSpace c = false :=
    forall_mem_of_all (by decide)
  refine hall c ?_
  rcases List.mem_append.mp hc with hencoded | hpad
  · exact List.mem_cons_of_mem _ (Base64.standard.mem_encode hencoded)
  · rw [List.eq_of_mem_replicate hpad]
    exact List.mem_cons_self

theorem hexDigits_not_white : ∀ c ∈ "0123456789abcdefABCDEF".toList, isWhiteSpace c = false :=
  forall_mem_of_all (by decide)

/-- A spelling holds no white space. -/
theorem spelled_not_white {digits : String} {kept : ℕ} {spelled : List Char}
    (h : Spells (encodedBiz digits kept) spelled) : ∀ c ∈ spelled, isWhiteSpace c = false := by
  intro c hc
  rcases h.mem c hc with hplain | rfl | hhex
  · exact (mem_encodedBiz hplain).2.2
  · decide
  · exact hexDigits_not_white c hhex

/-- The padding that was dropped comes back. -/
theorem repad_encodedBiz {digits : String} {kept : ℕ}
    (hkept : kept ≤ (Base64.Alphabet.padding
      (Base64.standard.encode (asBytes digits)).length).length) :
    repad (String.ofList (encodedBiz digits kept))
      = Base64.standard.encodePadded (asBytes digits) := by
  have hlength : (asBytes (String.ofList (encodedBiz digits kept))).length
      = (Base64.standard.encode (asBytes digits)).toList.length + kept := by
    rw [asBytes_ofList, flatMap_ascii fun c hc => (mem_encodedBiz hc).1, List.length_map,
      encodedBiz, List.length_append, List.length_replicate]
  rw [Base64.Alphabet.padding, List.length_replicate, ← String.length_toList] at hkept
  rw [repad, hlength, Base64.Alphabet.encodePadded, encodedBiz, ← String.ofList_append,
    List.append_assoc, Base64.Alphabet.padding, List.replicate_append_replicate]
  refine congrArg (fun n => String.ofList (_ ++ List.replicate n '=')) ?_
  omega

/-- **A value is read when it decodes and trims to an encoding.** -/
theorem decodeBiz_of_encodedBiz {value decoded digits : String} {kept : ℕ}
    (hdigits : AccountNumber digits)
    (hkept : kept ≤ (Base64.Alphabet.padding
      (Base64.standard.encode (asBytes digits)).length).length)
    (hdecoded : percentDecodeStr (trim value) = some decoded)
    (htrim : trim decoded = String.ofList (encodedBiz digits kept)) :
    decodeBiz value = .ok digits := by
  have hdigit : ∀ c ∈ digits.toList, isWhiteSpace c = false := by
    intro c hc
    have hdigit := hdigits.2 c hc
    rw [Char.isDigit, Bool.and_eq_true, decide_eq_true_iff, decide_eq_true_iff] at hdigit
    have hlow : 48 ≤ c.toNat := hdigit.1
    have hhigh : c.toNat ≤ 57 := hdigit.2
    simp only [isWhiteSpace, Bool.or_eq_false_iff, Bool.and_eq_false_iff, decide_eq_false_iff_not,
      beq_eq_false_iff_ne]
    omega
  have hbytes : asBytes digits ≠ [] := fun hnil => by
    have htext := fromUtf8_asBytes digits
    rw [hnil] at htext
    exact hdigits.1 (Option.some.inj (htext.symm.trans (fromUtf8_asBytes "")))
  have hne : trim decoded ≠ "" := by
    rw [htrim]
    intro hempty
    have hlist := congrArg String.toList hempty
    rw [String.toList_ofList] at hlist
    have hencode := (List.append_eq_nil_iff.mp hlist).1
    exact Base64.standard.encode_ne_empty hbytes (String.toList_eq_nil_iff.mp hencode)
  have hfree : '=' ∉ Base64.standard.chars := by decide
  have hread : trim digits = digits := trim_of_forall hdigit
  have hok : ¬(digits = "" ∨ ¬digits.toList.all Char.isDigit = true) := by
    rw [not_or, not_not, List.all_eq_true]
    exact hdigits
  rw [decodeBiz, hdecoded]
  dsimp only
  rw [if_neg hne, htrim, repad_encodedBiz hkept,
    Base64.standard.decodePadded_encodePadded hfree]
  dsimp only
  rw [fromUtf8_asBytes]
  dsimp only
  rw [hread, if_neg hok]

/-- A text without white space between white space is trimmed to itself. -/
theorem trim_surround {left cs right : List Char} (hleft : White left) (hright : White right)
    (h : ∀ c ∈ cs, isWhiteSpace c = false) :
    trim (String.ofList (left ++ cs ++ right)) = String.ofList cs := by
  rw [trim, String.toList_ofList, trimChars_surround hleft hright h]

/-- **Every spelling is read.** -/
theorem Spelling.decodeBiz {digits text : String} (h : Spelling digits text)
    (hdigits : AccountNumber digits) : Werrss.decodeBiz text = .ok digits := by
  obtain ⟨kept, left, spelled, right, hkept, hspells, hleft, hright, rfl⟩ := h
  have hascii : ∀ c ∈ encodedBiz digits kept, c.toNat < 128 := fun c hc => (mem_encodedBiz hc).1
  have hdecoded : percentDecodeStr (String.ofList spelled)
      = some (String.ofList (encodedBiz digits kept)) := by
    have hpercent := hspells.percentDecode
      (fun c hc => ⟨(mem_encodedBiz hc).1, (mem_encodedBiz hc).2.1⟩) []
    rw [List.append_nil, percentDecode_nil, List.append_nil] at hpercent
    rw [percentDecodeStr, asBytes_ofList, flatMap_ascii (hspells.ascii hascii), hpercent,
      ← flatMap_ascii hascii, ← asBytes_ofList, fromUtf8_asBytes]
  have htrim : trim (String.ofList (encodedBiz digits kept))
      = String.ofList (encodedBiz digits kept) := by
    refine trim_of_forall fun c hc => ?_
    rw [String.toList_ofList] at hc
    exact (mem_encodedBiz hc).2.2
  refine decodeBiz_of_encodedBiz hdigits hkept ?_ htrim
  rw [trim_surround hleft hright (spelled_not_white hspells), hdecoded]

/-! ## The value of a query -/

/-- White space, written in UTF-8, holds neither a percent sign nor a plus. -/
theorem White.bytes {cs : List Char} (h : White cs) :
    ∀ byte ∈ cs.flatMap String.utf8EncodeChar, byte ≠ percentByte ∧ byte ≠ 43 := by
  have hall : ∀ n ∈ [0x9, 0xA, 0xB, 0xC, 0xD, 0x20, 0x85, 0xA0, 0x1680, 0x2000, 0x2001, 0x2002,
      0x2003, 0x2004, 0x2005, 0x2006, 0x2007, 0x2008, 0x2009, 0x200A, 0x2028, 0x2029, 0x202F,
      0x205F, 0x3000], ∀ byte ∈ String.utf8EncodeChar (Char.ofNat n),
      byte ≠ percentByte ∧ byte ≠ 43 := by
    decide +kernel
  intro byte hbyte
  obtain ⟨c, hc, hmem⟩ := List.mem_flatMap.mp hbyte
  have hwhite := h c hc
  refine hall c.toNat ?_ byte (by rwa [Char.ofNat_toNat])
  simp only [isWhiteSpace, Bool.or_eq_true, Bool.and_eq_true, decide_eq_true_eq, beq_iff_eq]
    at hwhite
  simp only [List.mem_cons, List.not_mem_nil, or_false]
  omega

theorem map_plusToSpace {bytes : List UInt8} (h : ∀ byte ∈ bytes, byte ≠ 43) :
    bytes.map plusToSpace = bytes := by
  refine (List.map_congr_left fun byte hbyte => ?_).trans (List.map_id _)
  rw [plusToSpace, if_neg (h byte hbyte), id_eq]

/-- **A spelling in a query is read as one**: decoding the form undoes the percent-encoding, and
there is no plus to take for a space. -/
theorem Spelling.formDecode {digits text value : String} (h : Spelling digits text)
    (hdigits : AccountNumber digits) (hvalue : Machinery.formDecode text = some value) :
    Spelling digits value := by
  obtain ⟨kept, left, spelled, right, hkept, hspells, hleft, hright, rfl⟩ := h
  have hascii : ∀ c ∈ encodedBiz digits kept, c.toNat < 128 := fun c hc => (mem_encodedBiz hc).1
  have hplus : ∀ byte ∈ spelled.map fun c => UInt8.ofNat c.toNat, byte ≠ 43 := by
    intro byte hbyte
    obtain ⟨c, hc, rfl⟩ := List.mem_map.mp hbyte
    refine byte_ne (hspells.ascii hascii c hc) (by decide : '+'.toNat < 128) ?_
    rintro rfl
    rcases hspells.mem _ hc with hplain | hpercent | hhex
    · rcases List.mem_append.mp hplain with hencoded | hpad
      · exact plus_not_mem_encode hdigits.2 hencoded
      · exact absurd (List.eq_of_mem_replicate hpad) (by decide)
    · exact absurd hpercent (by decide)
    · exact absurd hhex (by decide)
  have hbytes : percentDecode ((asBytes (String.ofList (left ++ spelled ++ right))).map plusToSpace)
      = asBytes (String.ofList (left ++ encodedBiz digits kept ++ right)) := by
    rw [asBytes_ofList, asBytes_ofList, List.flatMap_append, List.flatMap_append,
      List.flatMap_append, List.flatMap_append, flatMap_ascii (hspells.ascii hascii),
      flatMap_ascii hascii, List.map_append, List.map_append,
      map_plusToSpace fun byte hbyte => (hleft.bytes byte hbyte).2, map_plusToSpace hplus,
      map_plusToSpace fun byte hbyte => (hright.bytes byte hbyte).2, List.append_assoc,
      percentDecode_append fun byte hbyte => (hleft.bytes byte hbyte).1,
      hspells.percentDecode fun c hc => ⟨(mem_encodedBiz hc).1, (mem_encodedBiz hc).2.1⟩,
      percentDecode_eq_self fun byte hbyte => (hright.bytes byte hbyte).1, List.append_assoc]
  rw [Machinery.formDecode, hbytes, fromUtf8_asBytes] at hvalue
  exact ⟨kept, left, _, right, hkept, Spells.refl _, hleft, hright, (Option.some.inj hvalue).symm⟩

/-- **The first value of a query decides**, if it is read. -/
theorem resolveFromUrl_of_decodeBiz {articleUrl : VerifiedWechatArticleUrl Url} {url : Url}
    {key value digits : String} (hparse : UrlCrate.parse articleUrl.asStr = some url)
    (hpath : isPublicArticlePath (UrlCrate.path url) = true)
    (hpair : (UrlCrate.queryPairs url).find? isBizKey = some (key, value))
    (hvalue : decodeBiz value = .ok digits) :
    ∃ identity, resolveFromUrl articleUrl = .ok identity
      ∧ identity.bookId = "MP_WXS_" ++ digits := by
  have hblank : trim value ≠ "" := by
    intro hempty
    have hdecoded : percentDecodeStr "" = some "" := fromUtf8_asBytes ""
    rw [decodeBiz, hempty, hdecoded] at hvalue
    exact nomatch hvalue
  have hbiz : bizFromVerifiedUrl articleUrl = some value := by
    rw [bizFromVerifiedUrl, hparse, Option.bind_some, hpath, bizOfQuery, hpair]
    simp [hblank]
  refine ⟨⟨articleUrl, articleUrl, value, digits, "MP_WXS_" ++ digits, none, none, .urlQuery⟩, ?_,
    rfl⟩
  rw [resolveFromUrl, isPublicArticleUrl, hparse, Option.any_some, hpath, hbiz]
  dsimp only
  rw [identityFromBiz, hvalue]
  rfl

/-- **An account's number is decoded from every spelling, and from nothing else.** -/
theorem account_ids_decode_uniquely (Url : Type) [UrlCrate Url] :
    (∀ digits text, AccountNumber digits → Spelling digits text →
      decodeBiz text = .ok digits ∧
      ∀ (articleUrl : VerifiedWechatArticleUrl Url) (url : Url) (key value : String),
        UrlCrate.parse articleUrl.asStr = some url →
        isPublicArticlePath (UrlCrate.path url) = true →
        (UrlCrate.queryPairs url).find? isBizKey = some (key, value) →
        value = text ∨ formDecode text = some value →
        ∃ identity, resolveFromUrl articleUrl = .ok identity
          ∧ identity.bookId = "MP_WXS_" ++ digits) ∧
    (∀ value digits, decodeBiz value = .ok digits →
      AccountNumber digits ∧ ∃ (decoded : String) (left right : List Char),
        percentDecodeStr (trim value) = some decoded ∧ White left ∧ White right ∧
          repad (trim decoded) = Base64.standard.encodePadded
            (asBytes (String.ofList left ++ digits ++ String.ofList right))) ∧
    ∀ digits digits' text, AccountNumber digits → AccountNumber digits' →
      Spelling digits text → Spelling digits' text → digits = digits' := by
  refine ⟨fun digits text hdigits htext => ⟨htext.decodeBiz hdigits, ?_⟩,
    fun value digits h => decodeBiz_sound h, fun digits digits' text hdigits hdigits' h h' => ?_⟩
  · intro articleUrl url key value hparse hpath hpair hvalue
    refine resolveFromUrl_of_decodeBiz hparse hpath hpair ?_
    rcases hvalue with rfl | hform
    · exact htext.decodeBiz hdigits
    · exact (htext.formDecode hdigits hform).decodeBiz hdigits
  · exact Except.ok.inj ((h.decodeBiz hdigits).symm.trans (h'.decodeBiz hdigits'))

section Samples

/-- Links of the public host that are known by their text. -/
structure LinkUrl where
  text : String
  path : String
  pairs : List (String × String)
deriving DecidableEq

/-- A long link, as the browser shows it. -/
def longLink : LinkUrl where
  text := "https://mp.weixin.qq.com/s/example?__biz=MTIzNDU%3D&mid=1"
  path := "/s/example"
  pairs := [("__biz", "MTIzNDU="), ("mid", "1")]

instance : UrlCrate LinkUrl where
  parse s := if s = longLink.text then some longLink else none
  asStr := LinkUrl.text
  scheme _ := "https"
  hostStr _ := some "mp.weixin.qq.com"
  username _ := ""
  password _ := none
  port _ := none
  path := LinkUrl.path
  fragment _ := none
  queryPairs := LinkUrl.pairs
  clearPort u := u
  clearFragment u := u
  setPath u _ := u
  join _ _ := none

def longArticleUrl : VerifiedWechatArticleUrl LinkUrl := ⟨longLink.text, by decide +kernel⟩

/-- The padding sign is percent-encoded. -/
theorem spelling_encodedPadding : Spelling "12345" "MTIzNDU%3D" := by
  have hencoded : encodedBiz "12345" 1 = ['M', 'T', 'I', 'z', 'N', 'D', 'U', '='] := by decide
  refine ⟨1, [], "MTIzNDU%3D".toList, [], by decide, ?_, fun c hc => absurd hc List.not_mem_nil,
    fun c hc => absurd hc List.not_mem_nil, by decide⟩
  rw [hencoded]
  have hsign : Spells ['='] ['%', '3', 'D'] :=
    .encoded (h := 3) (l := 13) (by decide) (by decide) (by decide) .nil
  exact .plain _ (.plain _ (.plain _ (.plain _ (.plain _ (.plain _ (.plain _ hsign))))))

/-- The long link is resolved without a browser. -/
theorem account_ids_decode_uniquely_longLink :
    ∃ identity, resolveFromUrl longArticleUrl = .ok identity
      ∧ identity.bookId = "MP_WXS_" ++ "12345" := by
  have hform : formDecode "MTIzNDU%3D" = some "MTIzNDU=" := by
    have hbytes : percentDecode ((asBytes "MTIzNDU%3D").map plusToSpace) = asBytes "MTIzNDU=" := by
      decide
    rw [formDecode, hbytes, fromUtf8_asBytes]
  exact ((account_ids_decode_uniquely LinkUrl).1 "12345" "MTIzNDU%3D" ⟨by decide, forall_mem_of_all (by decide)⟩
    spelling_encodedPadding).2 longArticleUrl longLink "__biz" "MTIzNDU=" rfl (by decide)
    (by decide) (.inr hform)

end Samples

end Werrss
