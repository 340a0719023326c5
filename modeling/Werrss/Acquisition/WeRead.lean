import Werrss.Application.SyncService

/-!
# Acquisition/WeRead — the article list as the adapter reads it

    {"data": [entry …]}                            ──┐
    {"reviews": [{"subReviews": [entry …]} …]}     ──┼──▸ references
    {"reviewId": …, "title": …}                    ──┘

An entry becomes a reference when it names a review and a title; a URL it carries is verified, and a
bad one fails the whole response.  Texts are trimmed and otherwise taken as the response has them.
-/

open Machinery

namespace Werrss

/-! ## JSON -/

/-- `serde_json::Number`; a float is the text it is written as. -/
inductive JsonNumber
  | posInt (value : UInt64)
  | negInt (value : Int64)
  | float (text : String)
deriving DecidableEq

/-- `serde_json::Value`. -/
inductive JsonValue
  | null
  | bool (value : Bool)
  | number (value : JsonNumber)
  | string (value : String)
  | array (items : List JsonValue)
  | object (fields : List (String × JsonValue))

/-- `serde_json::Map`, as far as it is read: the fields by name. -/
abbrev JsonObject := List (String × JsonValue)

/-- `Number::to_string`. -/
def JsonNumber.toText : JsonNumber → String
  | .posInt value => toString value.toNat
  | .negInt value => toString value.toInt
  | .float text => text

namespace JsonValue

def asObject : JsonValue → Option JsonObject
  | .object fields => some fields
  | _ => none

def asArray : JsonValue → Option (List JsonValue)
  | .array items => some items
  | _ => none

/-- `as_i64`; a number too large for it has no `i64` by way of `as_u64` either. -/
def asI64 : JsonValue → Option ℤ
  | .number (.posInt value) => if value.toNat ≤ i64Max then some value.toNat else none
  | .number (.negInt value) => some value.toInt
  | _ => none

def asStr : JsonValue → Option String
  | .string value => some value
  | _ => none

end JsonValue

/-- `str::parse::<i64>`: an optional sign and decimal digits. -/
def parseI64 (text : String) : Option ℤ :=
  let (negative, digits) : Bool × List Char :=
    match text.toList with
    | '-' :: digits => (true, digits)
    | '+' :: digits => (false, digits)
    | digits => (false, digits)
  if digits = [] ∨ digits.any (fun c => !c.isDigit) then none
  else
    let magnitude : ℕ := digits.foldl (fun n c => n * 10 + (c.toNat - '0'.toNat)) 0
    let value : ℤ := if negative then -magnitude else magnitude
    if -9223372036854775808 ≤ value ∧ value ≤ i64Max then some value else none

/-- `integer_value`. -/
def integerValue (value : JsonValue) : Option ℤ :=
  value.asI64.or (value.asStr.bind fun text => parseI64 (trim text))

/-- `DateTime::from_timestamp` at a whole second. -/
def fromTimestamp (seconds : ℤ) : Option DateTime :=
  let instant : DateTime := seconds * 1000000000
  if DateTime.minUtc ≤ instant ∧ instant ≤ DateTime.maxUtc then some instant else none

/-- `unix_timestamp`. -/
def unixTimestamp (value : JsonValue) : Option DateTime := (integerValue value).bind fromTimestamp

/-- The text `first_text` takes from one field. -/
def fieldText : JsonValue → Option String
  | .string value => if trim value = "" then none else some (trim value)
  | .number value => some value.toText
  | _ => none

/-- `first_text`. -/
def firstText (objects : List JsonObject) (keys : List String) : Option String :=
  objects.findSome? fun object => keys.findSome? fun key => (object.lookup key).bind fieldText

/-- `first_timestamp`. -/
def firstTimestamp (objects : List JsonObject) (keys : List String) : Option DateTime :=
  objects.findSome? fun object => keys.findSome? fun key => (object.lookup key).bind unixTimestamp

/-- An instant a response names is a whole second. -/
theorem whole_of_unixTimestamp {value : JsonValue} {t : DateTime} (h : unixTimestamp value = some t) :
    (1000000000 : ℤ) ∣ t := by
  obtain ⟨seconds, -, hseconds⟩ := Option.bind_eq_some_iff.mp h
  rw [fromTimestamp] at hseconds
  split_ifs at hseconds
  obtain rfl := Option.some.inj hseconds
  exact Int.dvd_mul_left _ _

theorem whole_of_firstTimestamp {objects : List JsonObject} {keys : List String} {t : DateTime}
    (h : firstTimestamp objects keys = some t) : (1000000000 : ℤ) ∣ t := by
  obtain ⟨object, -, hobject⟩ := List.exists_of_findSome?_eq_some h
  obtain ⟨key, -, hkey⟩ := List.exists_of_findSome?_eq_some hobject
  obtain ⟨value, -, hvalue⟩ := Option.bind_eq_some_iff.mp hkey
  exact whole_of_unixTimestamp hvalue

/-! ## Article URLs -/

/-- `path_segments_mut().push(segment)` of the `url` crate, for URLs that have segments. -/
class UrlSegments (Url : Type) where
  pushSegment : Url → String → Url

instance : UrlSegments PlainUrl where
  pushSegment url segment :=
    let base := if url.text.toList.getLast? = some '/' then url.text else url.text ++ "/"
    (PlainUrl.parse (base ++ segment)).getD url

/-- Errors of the response parser. -/
inductive WeReadAdapterError
  | authenticationExpired (code : ℤ)
  | riskControlled (code : ℤ)
  | unexpectedResponse (message : String)
  | invalidArticleUrl
deriving DecidableEq, Repr

variable (Url : Type) [UrlCrate Url] [LawfulUrlCrate Url] [UrlSegments Url]

/-- The URL `verify_article_url` tries for a text. -/
def candidateArticleUrl (value : String) : String :=
  if "http://".toList <+: value.toList ∨ "https://".toList <+: value.toList then value
  else if "/s".toList <+: value.toList then "https://mp.weixin.qq.com" ++ value
  else if "?".toList <+: value.toList ∨ "__biz=".toList <:+: value.toList then
    "https://mp.weixin.qq.com/s?" ++ String.ofList (value.toList.dropWhile (· = '?'))
  else
    match (UrlCrate.parse "https://mp.weixin.qq.com/" : Option Url) with
    | none => ""
    | some url =>
      UrlCrate.asStr (UrlSegments.pushSegment (UrlSegments.pushSegment url "s") value)

/-- `verify_article_url`. -/
def verifyArticleUrl (value : String) :
    Except WeReadAdapterError (Option (VerifiedWechatArticleUrl Url)) :=
  let parsed : Except SourceError (VerifiedWechatArticleUrl Url) :=
    VerifiedWechatArticleUrl.parse (candidateArticleUrl Url (trim value))
  match parsed with
  | .error _ => .error .invalidArticleUrl
  | .ok articleUrl =>
    let isArticlePath := (UrlCrate.parse articleUrl.asStr : Option Url).any fun url =>
      UrlCrate.path url == "/s" || "/s/".toList.isPrefixOf (UrlCrate.path url).toList
    if isArticlePath then .ok (some articleUrl) else .error .invalidArticleUrl

/-- `article_url`. -/
def articleUrl (objects : List JsonObject) :
    Except WeReadAdapterError (Option (VerifiedWechatArticleUrl Url)) :=
  match firstText objects ["doc_url", "docUrl", "url"] with
  | some value => verifyArticleUrl Url value
  | none =>
    match firstText objects ["originalId"] with
    | some original => verifyArticleUrl Url original
    | none => .ok none

/-- The article id behind the last `_` of a review id, `~` written for `_`. -/
def coverArticleId (reviewId : String) : Option String :=
  if "MP_WXS_".toList <+: reviewId.toList then
    let rest := (reviewId.toList.drop "MP_WXS_".toList.length).reverse
    match rest.dropWhile (· ≠ '_') with
    | [] => none
    | _ :: _ =>
      let articleId := String.ofList (rest.takeWhile (· ≠ '_')).reverse
      if isBlank articleId then none
      else some (articleId.map fun c => if c = '~' then '_' else c)
  else none

/-- `cover_article_url`. -/
def coverArticleUrl (reviewId : String) :
    Except WeReadAdapterError (Option (VerifiedWechatArticleUrl Url)) :=
  match coverArticleId reviewId with
  | none => .ok none
  | some articleId => verifyArticleUrl Url articleId

/-! ## Entries -/

variable {Url}

/-- `parse_cover_entry`. -/
def parseCoverEntry (object : JsonObject) :
    Except WeReadAdapterError (Option (WeReadArticleReference Url)) :=
  match firstText [object] ["reviewId"], firstText [object] ["title"] with
  | some reviewId, some title => do
    let listed ← articleUrl Url [object]
    let recovered ← coverArticleUrl Url reviewId
    .ok (some
      { reviewId := reviewId
        articleUrl := listed.or recovered
        title := some title
        summary := none
        author := firstText [object] ["name"]
        coverUrl := firstText [object] ["pic"]
        publishedAt := none })
  | _, _ => .ok none

/-- `parse_entry`. -/
def parseEntry (entry : JsonObject) (groupTime : Option DateTime) :
    Except WeReadAdapterError (Option (WeReadArticleReference Url)) :=
  let review := ((entry.lookup "review").bind JsonValue.asObject).getD entry
  let mpInfo := ((review.lookup "mpInfo").bind JsonValue.asObject).getD []
  match firstText [review, entry] ["reviewId"], firstText [review, mpInfo] ["title"] with
  | some reviewId, some title => do
    let articleUrl ← articleUrl Url [mpInfo, review]
    .ok (some
      { reviewId := reviewId
        articleUrl := articleUrl
        title := some title
        summary := firstText [mpInfo, review] ["content"]
        author := firstText [mpInfo] ["mp_name", "mpName"]
        coverUrl := firstText [mpInfo] ["pic_url", "picUrl"]
        publishedAt := (firstTimestamp [mpInfo, review] ["time", "createTime"]).or groupTime })
  | _, _ => .ok none

/-- `parse_entries`: what is no object is skipped, and so is an entry without an identity. -/
def parseEntries (entries : List JsonValue) (groupTime : Option DateTime) :
    Except WeReadAdapterError (List (WeReadArticleReference Url)) := do
  let parsed ← (entries.filterMap JsonValue.asObject).mapM fun entry => parseEntry entry groupTime
  .ok (parsed.filterMap id)

/-- `response_error`. -/
def responseError (object : JsonObject) :
    Except WeReadAdapterError (Option WeReadAdapterError) :=
  match (object.lookup "errcode").or (object.lookup "errCode") with
  | none => .ok none
  | some value =>
    match integerValue value with
    | none => .error (.unexpectedResponse "error code must be an integer")
    | some code =>
      if code = 0 then .ok none
      else if code = -2012 then .ok (some (.authenticationExpired code))
      else if code = -2041 ∨ code = -2010 then .ok (some (.riskControlled code))
      else .ok (some (.unexpectedResponse ("upstream error code " ++ toString code)))

/-- One group of the `reviews` envelope. -/
def parseGroup (group : JsonObject) :
    Except WeReadAdapterError (List (WeReadArticleReference Url)) :=
  let groupTime := (group.lookup "createTime").bind unixTimestamp
  match group.lookup "subReviews" with
  | none => .ok []
  | some subReviews =>
    match subReviews.asArray with
    | none => .error (.unexpectedResponse "subReviews must be an array")
    | some entries => parseEntries entries groupTime

/-- `parse_article_list_payload`. -/
def parseArticleListPayload (payload : JsonValue) :
    Except WeReadAdapterError (List (WeReadArticleReference Url)) :=
  match payload.asObject with
  | none => .error (.unexpectedResponse "response must be a JSON object")
  | some object => do
    match ← responseError object with
    | some error => .error error
    | none =>
      if (object.lookup "reviewId").isSome then
        let entry ← parseCoverEntry object
        .ok entry.toList
      else
        match object.lookup "data", object.lookup "reviews" with
        | some data, _ =>
          match data.asArray with
          | none => .error (.unexpectedResponse "data must be an array")
          | some entries => parseEntries entries none
        | none, none =>
          .error (.unexpectedResponse "response has no supported article-list envelope")
        | none, some reviews =>
          match reviews.asArray with
          | none => .error (.unexpectedResponse "reviews must be an array")
          | some groups => do
            let parsed ← (groups.filterMap JsonValue.asObject).mapM parseGroup
            .ok parsed.flatten

/-! ## What the list promises -/

/-- An entry is dated to a whole second. -/
def WeReadArticleReference.Whole (reference : WeReadArticleReference Url) : Prop :=
  ∀ t ∈ reference.publishedAt, (1000000000 : ℤ) ∣ t

theorem whole_of_parseCoverEntry {object : JsonObject} {reference : WeReadArticleReference Url}
    (h : parseCoverEntry object = .ok (some reference)) : reference.Whole := by
  rw [parseCoverEntry] at h
  split at h
  · obtain ⟨listed, -, h⟩ := bind_eq_ok h
    obtain ⟨recovered, -, h⟩ := bind_eq_ok h
    obtain rfl := Option.some.inj (Except.ok.inj h)
    exact fun t ht => by cases ht
  · cases Except.ok.inj h

theorem whole_of_parseEntry {entry : JsonObject} {groupTime : Option DateTime}
    (hgroup : ∀ t ∈ groupTime, (1000000000 : ℤ) ∣ t) {reference : WeReadArticleReference Url}
    (h : parseEntry entry groupTime = .ok (some reference)) : reference.Whole := by
  simp only [parseEntry] at h
  split at h
  · obtain ⟨url, -, h⟩ := bind_eq_ok h
    obtain rfl := Option.some.inj (Except.ok.inj h)
    intro t ht
    rcases Option.or_eq_some_iff.mp ht with ht | ⟨-, ht⟩
    · exact whole_of_firstTimestamp ht
    · exact hgroup t ht
  · cases Except.ok.inj h

theorem whole_of_parseEntries {entries : List JsonValue} {groupTime : Option DateTime}
    (hgroup : ∀ t ∈ groupTime, (1000000000 : ℤ) ∣ t)
    {references : List (WeReadArticleReference Url)}
    (h : parseEntries entries groupTime = .ok references) :
    ∀ reference ∈ references, reference.Whole := by
  obtain ⟨parsed, hparsed, h⟩ := bind_eq_ok h
  obtain rfl := Except.ok.inj h
  intro reference hmem
  obtain ⟨found, hfound, rfl⟩ := List.mem_filterMap.mp hmem
  obtain ⟨entry, -, hentry⟩ := exists_of_mem_mapM hparsed hfound
  exact whole_of_parseEntry hgroup hentry

theorem whole_of_parseGroup {group : JsonObject} {references : List (WeReadArticleReference Url)}
    (h : parseGroup group = .ok references) : ∀ reference ∈ references, reference.Whole := by
  simp only [parseGroup] at h
  split at h
  · obtain rfl := Except.ok.inj h
    exact fun _ hmem => absurd hmem List.not_mem_nil
  · split at h
    · cases h
    · refine whole_of_parseEntries (fun t ht => ?_) h
      obtain ⟨value, -, hvalue⟩ := Option.bind_eq_some_iff.mp ht
      exact whole_of_unixTimestamp hvalue

/-- **Every listed article is dated to a whole second**, if it is dated at all. -/
theorem whole_of_parseArticleListPayload {payload : JsonValue}
    {references : List (WeReadArticleReference Url)}
    (h : parseArticleListPayload payload = .ok references) :
    ∀ reference ∈ references, reference.Whole := by
  rw [parseArticleListPayload] at h
  split at h
  · cases h
  · obtain ⟨refusal, -, h⟩ := bind_eq_ok h
    split at h
    · cases h
    split_ifs at h
    · obtain ⟨entry, hentry, h⟩ := bind_eq_ok h
      obtain rfl := Except.ok.inj h
      intro reference hmem
      rw [Option.mem_toList] at hmem
      exact whole_of_parseCoverEntry (hentry.trans (congrArg _ hmem))
    · split at h
      · split at h
        · cases h
        · exact whole_of_parseEntries (fun _ ht => by cases ht) h
      · cases h
      · split at h
        · cases h
        · obtain ⟨parsed, hparsed, h⟩ := bind_eq_ok h
          obtain rfl := Except.ok.inj h
          intro reference hmem
          obtain ⟨listed, hlisted, hmem⟩ := List.mem_flatten.mp hmem
          obtain ⟨group, -, hgroup⟩ := exists_of_mem_mapM hparsed hlisted
          exact whole_of_parseGroup hgroup reference hmem

end Werrss
