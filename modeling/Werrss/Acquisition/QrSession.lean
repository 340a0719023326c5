import Werrss.Acquisition.WeRead
import Werrss.Application.QrLogin
import Werrss.Domain.Credentials
import Werrss.Machinery.Cookies

/-!
# Acquisition/QrSession — the session of a confirmed QR login

    Set-Cookie headers ──▸ jar ─┐
    cookie text or object ──────┴─▸ merged ──▸ + wr_vid, wr_skey, wr_rt where missing ──▸ session

Cookies are merged without regard to the case of their names, and missing ones are added where the
exact name has no value.  So **a cookie the response spelled differently, or left empty, is doubled**.
-/

open Machinery Cookies

namespace Werrss

/-! ## The jar -/

/-- `AttemptCookieJar`: the pairs, in the order of their names' first appearance. -/
abbrev AttemptCookieJar := List (String × String)

namespace AttemptCookieJar

/-- The pair of a part that `update_pair` takes. -/
def cleanPair (part : List Char) : Option (String × String) :=
  (readPart part).filter fun (name, value) =>
    name ≠ "" && !name.toList.any isControl && !value.toList.any isControl

/-- `update_pair`. -/
def updatePair (jar : AttemptCookieJar) (part : List Char) : AttemptCookieJar :=
  match cleanPair part with
  | none => jar
  | some pair => Cookies.write jar pair

/-- `update_from_response`, at the `Set-Cookie` headers of a response that are texts. -/
def updateFromResponse (jar : AttemptCookieJar) (setCookies : List String) : AttemptCookieJar :=
  setCookies.foldl (fun jar value => jar.updatePair (value.toList.takeWhile (· ≠ ';'))) jar

/-- `update_from_header`. -/
def updateFromHeader (jar : AttemptCookieJar) (cookieHeader : String) : AttemptCookieJar :=
  (cookieHeader.toList.splitOn ';').foldl updatePair jar

/-- `header`. -/
def header (jar : AttemptCookieJar) : Option String :=
  if jar = [] then none else some (String.ofList (joined jar))

end AttemptCookieJar

/-! ## The session -/

/-- `QrAuthenticatedSession`. -/
structure QrAuthenticatedSession where
  accessToken : String
  refreshToken : String
  cookieHeader : String
  accessExpiresAt : DateTime
  displayName : Option String
deriving DecidableEq, Repr

/-- `QrAuthenticatedSession::new`. -/
def QrAuthenticatedSession.new (accessToken refreshToken cookieHeader : String)
    (accessExpiresAt : DateTime) (displayName : Option String) :
    Except QrLoginTransportError QrAuthenticatedSession :=
  if trim accessToken = "" ∨ trim refreshToken = "" ∨ trim cookieHeader = ""
      ∨ cookieHeader.toList.any isControl ∨ accessExpiresAt ≤ 0 then
    .error .invalidResponse
  else
    .ok
      { accessToken := trim accessToken
        refreshToken := trim refreshToken
        cookieHeader := trim cookieHeader
        accessExpiresAt := accessExpiresAt
        displayName := (displayName.map trim).filter (· ≠ "") }

/-- `credential_ttl`, and the reader of RFC 3339 instants. -/
structure QrSessionConfig where
  credentialTtl : Duration
  parseFromRfc3339 : String → Option DateTime

namespace QrSession

/-- A text that is not blank, trimmed. -/
def filledText (value : JsonValue) : Option String :=
  (value.asStr.map trim).filter (· ≠ "")

/-- `find_string_from_objects`. -/
def findStringFromObjects (objects : List JsonObject) (keys : List String) : Option String :=
  objects.findSome? fun object => keys.findSome? fun key => (object.lookup key).bind filledText

/-- `find_value`. -/
def findValue (objects : List JsonObject) (keys : List String) : Option JsonValue :=
  objects.findSome? fun object => keys.findSome? fun key => object.lookup key

/-- A JSON object of cookies, as a header. -/
def cookieObjectText (cookies : JsonObject) : String :=
  "; ".intercalate (cookies.filterMap fun (name, value) =>
    value.asStr.map fun value => name ++ "=" ++ value)

/-- `find_cookie_header`. -/
def findCookieHeader (objects : List JsonObject) : Option String :=
  objects.findSome? fun object =>
    ((object.lookup "cookie").bind filledText).or <|
      (object.lookup "cookies").bind fun cookies =>
        (filledText cookies).or ((cookies.asObject.map cookieObjectText).filter (· ≠ ""))

/-- `merge_cookie_headers`. -/
def mergeCookieHeaders (primary secondary : Option String) : Option String :=
  ([primary, secondary].reduceOption.foldl AttemptCookieJar.updateFromHeader []).header

/-- `append_cookie`. -/
def appendCookie (header name value : String) : Except QrLoginTransportError String :=
  if value = "" ∨ value.toList.any isControl ∨ value.toList.contains ';' then
    .error .invalidResponse
  else if header = "" then .ok (String.ofList (pairText (name, value)))
  else .ok (String.ofList (header.toList ++ ([';', ' '] ++ pairText (name, value))))

/-- `cookie_value`. -/
def cookieValue (header name : String) : Option String :=
  (header.toList.splitOn ';').findSome? fun part =>
    (readPart part).bind fun (key, value) =>
      if key = name ∧ value ≠ "" then some value else none

/-- `DateTime::from_timestamp_millis`. -/
def fromTimestampMillis (millis : ℤ) : Option DateTime :=
  let instant : DateTime := millis * 1000000
  if DateTime.minUtc ≤ instant ∧ instant ≤ DateTime.maxUtc then some instant else none

/-- `find_expiry`. -/
def findExpiry (config : QrSessionConfig) (objects : List JsonObject) : Option DateTime := do
  match ← findValue objects ["expiresAt", "accessExpiresAt", "expires_at"] with
  | .number number =>
    let value ← (JsonValue.number number).asI64
    if 10000000000 < value then fromTimestampMillis value else fromTimestamp value
  | .string value => config.parseFromRfc3339 value
  | _ => none

/-- A cookie that is added when the exact name has no value. -/
def completeCookie (header name : String) (value : Option String) :
    Except QrLoginTransportError String :=
  if (cookieValue header name).isNone then
    match value with
    | none => .error .invalidResponse
    | some value => appendCookie header name value
  else .ok header

/-- `parse_authenticated_session_objects`. -/
def parseAuthenticatedSessionObjects (config : QrSessionConfig) (objects : List JsonObject)
    (responseCookieHeader : Option String) (now : DateTime) :
    Except QrLoginTransportError QrAuthenticatedSession := do
  let cookieHeader :=
    (mergeCookieHeaders responseCookieHeader (findCookieHeader objects)).getD ""
  let some accessToken :=
    (findStringFromObjects objects ["accessToken", "access_token"]).or
      (cookieValue cookieHeader "wr_skey") | .error .invalidResponse
  let some refreshToken :=
    (findStringFromObjects objects ["refreshToken", "refresh_token"]).or
      (cookieValue cookieHeader "wr_rt") | .error .invalidResponse
  let cookieHeader ← completeCookie cookieHeader "wr_vid"
    (findStringFromObjects objects ["vid", "webLoginVid", "userVid"])
  let cookieHeader ← completeCookie cookieHeader "wr_skey" (some accessToken)
  let cookieHeader ← completeCookie cookieHeader "wr_rt" (some refreshToken)
  QrAuthenticatedSession.new accessToken refreshToken cookieHeader
    ((findExpiry config objects).getD (now + config.credentialTtl))
    (findStringFromObjects objects ["name", "displayName"])

end QrSession

/-! ## Clean headers -/

/-- The text of clean pairs. -/
def cookieText (pairs : List (String × String)) : String := String.ofList (joined pairs)

/-- The pairs a cookie header writes. -/
def headerWrites (cookieHeader : String) : List (String × String) :=
  (cookieHeader.toList.splitOn ';').filterMap AttemptCookieJar.cleanPair

/-- The pairs that a history of `Set-Cookie` headers writes, response after response. -/
def responseWrites (responses : List (List String)) : List (String × String) :=
  (responses.flatten.map fun value => value.toList.takeWhile (· ≠ ';')).filterMap
    AttemptCookieJar.cleanPair

/-- The jar of an attempt. -/
def attemptJar (responses : List (List String)) : AttemptCookieJar :=
  responses.foldl AttemptCookieJar.updateFromResponse []

namespace AttemptCookieJar

/-- **What a jar takes is clean.** -/
theorem isPair_of_cleanPair {part : List Char} {pair : String × String} (hpart : ';' ∉ part)
    (h : cleanPair part = some pair) : IsPair pair := by
  obtain ⟨hread, hclean⟩ := Option.filter_eq_some_iff.mp h
  unfold readPart splitOnce at hread
  rw [String.toList_ofList] at hread
  obtain ⟨⟨before, after⟩, hsplit, rfl⟩ := Option.map_eq_some_iff.mp hread
  have hmem : ∀ c ∈ trimChars part, c ≠ ';' := fun c hc heq =>
    hpart (heq ▸ mem_of_mem_trimChars hc)
  split at hsplit
  · exact nomatch hsplit
  · rename_i separator rest hdrop
    obtain ⟨rfl, rfl⟩ := Prod.mk.inj (Option.some.inj hsplit)
    simp only [Bool.and_eq_true, Bool.not_eq_true', List.any_eq_false, decide_eq_true_eq,
      trim, String.toList_ofList] at hclean
    obtain ⟨⟨hname, hnameControl⟩, hvalueControl⟩ := hclean
    have htrim : ∀ cs : List Char, (trim (String.ofList cs)).toList = trimChars cs := fun cs => by
      rw [trim, String.toList_ofList, String.toList_ofList]
    refine ⟨fun hnil => hname ?_, ?_, fun c hc => ?_, ?_, fun c hc => ?_⟩
    · rw [htrim] at hnil
      rw [hnil]
    · rw [htrim, trimChars_trimChars]
    · rw [htrim] at hc
      have htake := mem_of_mem_trimChars hc
      refine ⟨by simpa using List.mem_takeWhile_imp htake, ?_, by simpa using hnameControl c hc⟩
      exact hmem c ((List.takeWhile_sublist _).mem htake)
    · dsimp only
      rw [htrim, trimChars_trimChars]
    · dsimp only at hc
      rw [htrim] at hc
      have hrest : c ∈ (trimChars part).dropWhile (· ≠ '=') := by
        rw [hdrop]
        exact List.mem_cons_of_mem _ (mem_of_mem_trimChars hc)
      exact ⟨hmem c ((List.dropWhile_sublist _).mem hrest), by simpa using hvalueControl c hc⟩

/-- A clean pair is taken as it is. -/
theorem cleanPair_of_isPair {part : List Char} {pair : String × String} (h : IsPair pair)
    (hread : readPart part = some pair) : cleanPair part = some pair := by
  rw [cleanPair, hread, Option.filter_some, if_pos]
  simp only [Bool.and_eq_true, Bool.not_eq_true', List.any_eq_false, decide_eq_true_eq]
  refine ⟨⟨fun hname => h.name_ne_nil ?_, fun c hc => ?_⟩, fun c hc => ?_⟩
  · rw [hname]
    rfl
  · simpa using (h.name_chars c hc).2.2
  · simpa using (h.value_chars c hc).2

/-- Updates write the clean pairs, one after the other. -/
theorem foldl_updatePair (parts : List (List Char)) (jar : AttemptCookieJar) :
    parts.foldl updatePair jar = (parts.filterMap cleanPair).foldl Cookies.write jar := by
  induction parts generalizing jar with
  | nil => rfl
  | cons part rest ih =>
    rw [List.foldl_cons, ih, List.filterMap_cons, updatePair]
    split <;> rename_i hpair <;> rw [hpair]
    rfl

theorem updateFromHeader_eq (jar : AttemptCookieJar) (cookieHeader : String) :
    jar.updateFromHeader cookieHeader = (headerWrites cookieHeader).foldl Cookies.write jar :=
  foldl_updatePair _ _

theorem updateFromResponse_eq (jar : AttemptCookieJar) (setCookies : List String) :
    jar.updateFromResponse setCookies = (responseWrites [setCookies]).foldl Cookies.write jar := by
  have hfold := foldl_updatePair (setCookies.map fun value => value.toList.takeWhile (· ≠ ';')) jar
  rw [List.foldl_map] at hfold
  rw [updateFromResponse, hfold, responseWrites, List.flatten_singleton]

end AttemptCookieJar

/-! ## Merging -/

theorem isPair_of_mem_headerWrites {cookieHeader : String} :
    ∀ pair ∈ headerWrites cookieHeader, IsPair pair := by
  intro pair hpair
  obtain ⟨part, hpart, hclean⟩ := List.mem_filterMap.mp hpair
  exact AttemptCookieJar.isPair_of_cleanPair (notMem_of_mem_splitOn hpart) hclean

theorem isPair_of_mem_responseWrites {responses : List (List String)} :
    ∀ pair ∈ responseWrites responses, IsPair pair := by
  intro pair hpair
  obtain ⟨part, hpart, hclean⟩ := List.mem_filterMap.mp hpair
  obtain ⟨value, -, rfl⟩ := List.mem_map.mp hpart
  refine AttemptCookieJar.isPair_of_cleanPair (fun hmem => ?_) hclean
  simpa using List.mem_takeWhile_imp hmem

/-- What is written to a jar of clean pairs is clean. -/
theorem isPair_of_mem_foldl_write {pairs jar : List (String × String)}
    (hpairs : ∀ pair ∈ pairs, IsPair pair) (hjar : ∀ pair ∈ jar, IsPair pair) :
    ∀ pair ∈ pairs.foldl Cookies.write jar, IsPair pair := by
  induction pairs generalizing jar with
  | nil => exact hjar
  | cons first rest ih =>
    refine ih (fun pair hpair => hpairs pair (List.mem_cons_of_mem _ hpair)) fun pair hpair => ?_
    rcases mem_write hpair with rfl | hpair
    · exact hpairs _ List.mem_cons_self
    · exact hjar _ hpair

/-- **A clean header writes its pairs.** -/
theorem headerWrites_cookieText {pairs : List (String × String)} (hne : pairs ≠ [])
    (h : ∀ pair ∈ pairs, IsPair pair) : headerWrites (cookieText pairs) = pairs := by
  have hread := splitOn_joined hne h
  have hclean : ∀ (parts : List (List Char)) (pairs : List (String × String)),
      (∀ pair ∈ pairs, IsPair pair) → parts.map readPart = pairs.map some →
      parts.filterMap AttemptCookieJar.cleanPair = pairs := by
    intro parts
    induction parts with
    | nil =>
      intro pairs _ hnil
      exact (List.map_eq_nil_iff.mp hnil.symm).symm
    | cons part parts ih =>
      intro pairs hpairs heq
      rcases pairs with _ | ⟨pair, pairs⟩
      · exact absurd heq (List.cons_ne_nil _ _)
      · obtain ⟨hpart, hrest⟩ := List.cons.inj heq
        rw [List.filterMap_cons_some
          (AttemptCookieJar.cleanPair_of_isPair (hpairs pair List.mem_cons_self) hpart),
          ih pairs (fun other hother => hpairs other (List.mem_cons_of_mem _ hother)) hrest]
  rw [headerWrites, cookieText, String.toList_ofList]
  exact hclean _ _ h hread

theorem attemptJar_eq (responses : List (List String)) :
    attemptJar responses = (responseWrites responses).foldl Cookies.write [] := by
  have hfold : ∀ (responses : List (List String)) (jar : AttemptCookieJar),
      responses.foldl AttemptCookieJar.updateFromResponse jar =
        (responseWrites responses).foldl Cookies.write jar := by
    intro responses
    induction responses with
    | nil => exact fun jar => rfl
    | cons first rest ih =>
      intro jar
      rw [List.foldl_cons, ih, AttemptCookieJar.updateFromResponse_eq, ← List.foldl_append,
        responseWrites, responseWrites, responseWrites, ← List.filterMap_append, ← List.map_append,
        ← List.flatten_append, List.singleton_append]
  exact hfold responses []

namespace QrSession

/-- **Merging headers keeps the last pair of each name.** -/
theorem mergeCookieHeaders_eq (primary secondary : Option String) :
    mergeCookieHeaders primary secondary = AttemptCookieJar.header
      ((primary.elim [] headerWrites ++ secondary.elim [] headerWrites).foldl Cookies.write []) := by
  have hfold : ∀ (jar : AttemptCookieJar) (optional : Option String),
      optional.toList.foldl AttemptCookieJar.updateFromHeader jar =
        (optional.elim [] headerWrites).foldl Cookies.write jar := by
    intro jar optional
    rcases optional with _ | cookieHeader
    · rfl
    · exact AttemptCookieJar.updateFromHeader_eq jar cookieHeader
  have hlist : [primary, secondary].reduceOption = primary.toList ++ secondary.toList := by
    rcases primary with _ | primary <;> rcases secondary with _ | secondary <;> rfl
  rw [mergeCookieHeaders, hlist, List.foldl_append, hfold, hfold, ← List.foldl_append]

/-- The jar of all the cookies of a response. -/
def mergedJar (responses : List (List String)) (objects : List JsonObject) :
    List (String × String) :=
  (responseWrites responses ++ (findCookieHeader objects).elim [] headerWrites).foldl
    Cookies.write []

theorem isPair_of_mem_mergedJar (responses : List (List String)) (objects : List JsonObject) :
    ∀ pair ∈ mergedJar responses objects, IsPair pair := by
  refine isPair_of_mem_foldl_write (fun pair hpair => ?_) fun pair hpair => nomatch hpair
  rcases List.mem_append.mp hpair with hresponse | hjson
  · exact isPair_of_mem_responseWrites pair hresponse
  · rcases hheader : findCookieHeader objects with _ | cookieHeader
    · rw [hheader] at hjson
      exact nomatch hjson
    · rw [hheader] at hjson
      exact isPair_of_mem_headerWrites pair hjson

theorem distinct_mergedJar (responses : List (List String)) (objects : List JsonObject) :
    Distinct (mergedJar responses objects) :=
  Distinct.foldl_write List.Pairwise.nil _

/-- The merged header of an attempt is the text of the merged jar. -/
theorem getD_mergeCookieHeaders (responses : List (List String)) (objects : List JsonObject) :
    (mergeCookieHeaders (attemptJar responses).header (findCookieHeader objects)).getD "" =
      cookieText (mergedJar responses objects) := by
  have hheader : ∀ jar : AttemptCookieJar, jar.header.getD "" = cookieText jar := by
    intro jar
    unfold AttemptCookieJar.header
    split_ifs with hnil
    · rw [hnil]
      rfl
    · rfl
  have hjar : (attemptJar responses).header.elim [] headerWrites = attemptJar responses := by
    unfold AttemptCookieJar.header
    split_ifs with hnil
    · exact hnil.symm
    · refine headerWrites_cookieText hnil ?_
      rw [attemptJar_eq]
      exact isPair_of_mem_foldl_write isPair_of_mem_responseWrites fun pair hpair => nomatch hpair
  have hdistinct : Distinct (attemptJar responses) := by
    rw [attemptJar_eq]
    exact Distinct.foldl_write List.Pairwise.nil _
  rw [mergeCookieHeaders_eq, hheader, hjar, List.foldl_append, hdistinct.foldl_write_nil,
    attemptJar_eq, ← List.foldl_append, mergedJar]

/-! ## Completing a header -/

/-- The exact name has a value. -/
def HasValue (pairs : List (String × String)) (name : String) : Prop :=
  ∃ pair ∈ pairs, pair.1 = name ∧ pair.2 ≠ ""

/-- `cookie_value` of a clean header. -/
theorem cookieValue_cookieText {pairs : List (String × String)} (h : ∀ pair ∈ pairs, IsPair pair)
    (name : String) : cookieValue (cookieText pairs) name =
      pairs.findSome? fun pair => if pair.1 = name ∧ pair.2 ≠ "" then some pair.2 else none := by
  rcases pairs with _ | ⟨first, rest⟩
  · rfl
  · have hread := splitOn_joined (List.cons_ne_nil first rest) h
    have hmap : ∀ (parts : List (List Char)) (f : String × String → Option String),
        parts.findSome? (fun part => (readPart part).bind f) =
          (parts.map readPart).findSome? (·.bind f) := fun parts f => by
      rw [List.findSome?_map]
      rfl
    rw [cookieValue, cookieText, String.toList_ofList, hmap, hread, List.findSome?_map]
    rfl

theorem cookieValue_isNone {pairs : List (String × String)} (h : ∀ pair ∈ pairs, IsPair pair)
    (name : String) :
    (cookieValue (cookieText pairs) name).isNone = true ↔ ¬ HasValue pairs name := by
  rw [cookieValue_cookieText h, Option.isNone_iff_eq_none, List.findSome?_eq_none_iff]
  constructor
  · rintro hnone ⟨pair, hpair, hname⟩
    have := hnone pair hpair
    rw [if_pos hname] at this
    exact nomatch this
  · intro hnone pair hpair
    rw [if_neg fun hname => hnone ⟨pair, hpair, hname⟩]

/-- A value that is read is trimmed. -/
theorem trim_of_cookieValue {pairs : List (String × String)} (h : ∀ pair ∈ pairs, IsPair pair)
    {name value : String} (hvalue : cookieValue (cookieText pairs) name = some value) :
    trim value = value := by
  rw [cookieValue_cookieText h] at hvalue
  obtain ⟨pair, hpair, hsome⟩ := List.exists_of_findSome?_eq_some hvalue
  split_ifs at hsome
  obtain rfl := Option.some.inj hsome
  rw [trim, (h pair hpair).value_trimmed, String.ofList_toList]

theorem trim_of_findStringFromObjects {objects : List JsonObject} {keys : List String}
    {value : String} (h : findStringFromObjects objects keys = some value) : trim value = value := by
  obtain ⟨object, -, hobject⟩ := List.exists_of_findSome?_eq_some h
  obtain ⟨key, -, hkey⟩ := List.exists_of_findSome?_eq_some hobject
  obtain ⟨json, -, hjson⟩ := Option.bind_eq_some_iff.mp hkey
  obtain ⟨hmap, -⟩ := Option.filter_eq_some_iff.mp hjson
  obtain ⟨text, -, rfl⟩ := Option.map_eq_some_iff.mp hmap
  exact trim_trim text

/-- The text of pairs is empty only where there are none. -/
theorem cookieText_eq_empty {pairs : List (String × String)} :
    cookieText pairs = "" ↔ pairs = [] := by
  rcases pairs with _ | ⟨first, rest⟩
  · exact ⟨fun _ => rfl, fun _ => rfl⟩
  · refine ⟨fun h => ?_, nofun⟩
    have hnil := congrArg String.toList h
    rw [cookieText, String.toList_ofList] at hnil
    exact absurd hnil (joined_ne_nil first rest)

/-- `append_cookie` of a clean header. -/
theorem appendCookie_eq_ok {pairs : List (String × String)} {name value header : String}
    (hname : IsPair (name, "")) (hvalue : trim value = value)
    (h : appendCookie (cookieText pairs) name value = .ok header) :
    header = cookieText (pairs ++ [(name, value)]) ∧ IsPair (name, value) ∧ value ≠ "" := by
  unfold appendCookie at h
  split_ifs at h with hbad hempty
  all_goals
    simp only [not_or, List.any_eq_true, not_exists, not_and, Bool.not_eq_true,
      List.contains_eq_mem, decide_eq_true_eq] at hbad
    obtain ⟨hne, hcontrol, hseparator⟩ := hbad
    have hpair : IsPair (name, value) :=
      ⟨hname.name_ne_nil, hname.name_trimmed, hname.name_chars,
        by rw [← String.toList_ofList (l := trimChars value.toList)]; exact congrArg _ hvalue,
        fun c hc => ⟨fun heq => hseparator (heq ▸ hc), hcontrol c hc⟩⟩
    refine ⟨?_, hpair, hne⟩
    obtain rfl := Except.ok.inj h
  · obtain rfl := cookieText_eq_empty.mp hempty
    simp [cookieText, joined]
  · rw [cookieText_eq_empty] at hempty
    rw [cookieText, cookieText, joined_concat hempty, String.toList_ofList]

/-- **A missing cookie is added**, and one that is there is not. -/
theorem completeCookie_eq_ok {pairs : List (String × String)} (h : ∀ pair ∈ pairs, IsPair pair)
    {name header : String} (hname : IsPair (name, "")) {value : Option String}
    (hvalue : ∀ v ∈ value, trim v = v)
    (hok : completeCookie (cookieText pairs) name value = .ok header) :
    ∃ extra, header = cookieText (pairs ++ extra) ∧ (∀ pair ∈ extra, IsPair pair) ∧
      ((HasValue pairs name ∧ extra = []) ∨
        (¬ HasValue pairs name ∧ ∃ v, v ≠ "" ∧ extra = [(name, v)])) := by
  unfold completeCookie at hok
  split_ifs at hok with hmissing
  · rw [cookieValue_isNone h] at hmissing
    split at hok
    · exact nomatch hok
    · rename_i v
      obtain ⟨hheader, hpair, hne⟩ := appendCookie_eq_ok hname (hvalue v rfl) hok
      refine ⟨[(name, v)], hheader, fun pair hmem => ?_, .inr ⟨hmissing, v, hne, rfl⟩⟩
      rwa [List.mem_singleton.mp hmem]
  · rw [cookieValue_isNone h, not_not] at hmissing
    obtain rfl := Except.ok.inj hok
    refine ⟨[], ?_, fun pair hmem => (nomatch hmem), .inl ⟨hmissing, rfl⟩⟩
    rw [List.append_nil]

/-! ## The session's cookies -/

/-- The cookies a session needs. -/
def sessionNames : List String := ["wr_vid", "wr_skey", "wr_rt"]

/-- The name occurs once, whatever its case, and with a value. -/
def OccursOnce (pairs : List (String × String)) (name : String) : Prop :=
  ∃ pair, pairs.filter (named name) = [pair] ∧ pair.2 ≠ ""

/-- **A well-formed cookie header of a session**: clean pairs joined by `; `, each needed cookie once
and with a value. -/
def IsSessionCookie (cookieHeader : String) : Prop :=
  ∃ pairs, cookieHeader = cookieText pairs ∧ (∀ pair ∈ pairs, IsPair pair) ∧
    ∀ name ∈ sessionNames, OccursOnce pairs name

/-- The pair of a name is spelled as the session needs it, and has a value. -/
def Spelled (pairs : List (String × String)) (name : String) : Prop :=
  ∀ pair, lastWrite pairs name = some pair → pair.1 = name ∧ pair.2 ≠ ""

theorem isPair_of_mem_sessionNames : ∀ name ∈ sessionNames, IsPair (name, "") := by
  intro name hname
  have hclean : ∀ name ∈ sessionNames, ';' ∉ pairText (name, "") ∧
      AttemptCookieJar.cleanPair (pairText (name, "")) = some (name, "") := by decide +kernel
  obtain ⟨hseparator, hpair⟩ := hclean name hname
  exact AttemptCookieJar.isPair_of_cleanPair hseparator hpair

/-- Two needed cookies have different names. -/
theorem named_sessionNames : ∀ name ∈ sessionNames, ∀ other ∈ sessionNames,
    ∀ value, named name (other, value) = decide (other = name) := by
  have hnames : ∀ name ∈ sessionNames, ∀ other ∈ sessionNames,
      eqIgnoreAsciiCase other name = decide (other = name) := by decide +kernel
  exact fun name hname other hother _ => hnames name hname other hother

/-- **A jar that is completed for some names**: each missing cookie is added, and nothing else. -/
structure Completes (names : List String) (jar extra : List (String × String)) : Prop where
  isPair : ∀ pair ∈ extra, IsPair pair
  present : ∀ name ∈ names, HasValue jar name → extra.filter (named name) = []
  missing : ∀ name ∈ names, ¬ HasValue jar name →
    ∃ v, v ≠ "" ∧ extra.filter (named name) = [(name, v)]
  other : ∀ name ∈ sessionNames, name ∉ names → extra.filter (named name) = []

theorem Completes.nil (jar : List (String × String)) : Completes [] jar [] where
  isPair := nofun
  present := nofun
  missing := nofun
  other _ _ _ := rfl

/-- One more name. -/
theorem Completes.step {names : List String} {jar extra : List (String × String)}
    (h : Completes names jar extra) (hnames : ∀ other ∈ names, other ∈ sessionNames)
    (hjar : ∀ pair ∈ jar, IsPair pair) {name header : String} (hname : name ∈ sessionNames)
    (hnew : name ∉ names) {value : Option String} (hvalue : ∀ v ∈ value, trim v = v)
    (hok : completeCookie (cookieText (jar ++ extra)) name value = .ok header) :
    ∃ extra', header = cookieText (jar ++ extra') ∧ Completes (name :: names) jar extra' := by
  have hpairs : ∀ pair ∈ jar ++ extra, IsPair pair := fun pair hpair =>
    (List.mem_append.mp hpair).elim (hjar pair) (h.isPair pair)
  have hextra := h.other name hname hnew
  -- What was added before has other names, so the jar alone says whether the cookie is there.
  have hhas : HasValue (jar ++ extra) name ↔ HasValue jar name := by
    constructor
    · rintro ⟨pair, hpair, hexact, hne⟩
      rcases List.mem_append.mp hpair with hpair | hpair
      · exact ⟨pair, hpair, hexact, hne⟩
      · refine absurd (List.filter_eq_nil_iff.mp hextra pair hpair) (not_not.mpr ?_)
        rw [named, hexact, eqIgnoreAsciiCase, beq_self_eq_true]
    · rintro ⟨pair, hpair, hexact⟩
      exact ⟨pair, List.mem_append_left _ hpair, hexact⟩
  obtain ⟨added, hheader, hisPair, hadded⟩ :=
    completeCookie_eq_ok hpairs (isPair_of_mem_sessionNames name hname) hvalue hok
  rw [hhas] at hadded
  have hsame : ∀ other ∈ sessionNames, other ≠ name →
      (extra ++ added).filter (named other) = extra.filter (named other) := by
    intro other hother hne
    have hnone : added.filter (named other) = [] := by
      rcases hadded with ⟨-, rfl⟩ | ⟨-, v, -, rfl⟩
      · rfl
      · rw [List.filter_singleton, named_sessionNames other hother name hname,
          decide_eq_false hne.symm]
        rfl
    rw [List.filter_append, hnone, List.append_nil]
  have hfilter : (extra ++ added).filter (named name) = added.filter (named name) := by
    rw [List.filter_append, hextra, List.nil_append]
  refine ⟨extra ++ added, by rw [hheader, List.append_assoc], ?_, ?_, ?_, ?_⟩
  · intro pair hpair
    exact (List.mem_append.mp hpair).elim (h.isPair pair) (hisPair pair)
  · intro other hother hpresent
    rcases List.mem_cons.mp hother with rfl | hother
    · rcases hadded with ⟨-, rfl⟩ | ⟨hmissing, -⟩
      · rw [hfilter]
        rfl
      · exact absurd hpresent hmissing
    · rw [hsame other (hnames other hother) fun heq => hnew (heq ▸ hother)]
      exact h.present other hother hpresent
  · intro other hother hmissing
    rcases List.mem_cons.mp hother with rfl | hother
    · rcases hadded with ⟨hpresent, -⟩ | ⟨-, v, hv, rfl⟩
      · exact absurd hpresent hmissing
      · refine ⟨v, hv, ?_⟩
        rw [hfilter, List.filter_singleton, named_sessionNames _ hname _ hname,
          decide_eq_true rfl]
        rfl
    · rw [hsame other (hnames other hother) fun heq => hnew (heq ▸ hother)]
      exact h.missing other hother hmissing
  · intro other hother hnotMem
    rw [List.mem_cons, not_or] at hnotMem
    rw [hsame other hother hnotMem.1]
    exact h.other other hother hnotMem.2

/-- **A completed jar has a cookie once just when it was spelled as needed.** -/
theorem occursOnce_iff {names : List String} {jar extra : List (String × String)}
    (hjar : Distinct jar) (h : Completes names jar extra) {name : String} (hname : name ∈ names) :
    OccursOnce (jar ++ extra) name ↔
      ∀ pair, jar.find? (named name) = some pair → pair.1 = name ∧ pair.2 ≠ "" := by
  unfold OccursOnce
  rw [List.filter_append, hjar.filter_named]
  by_cases hhas : HasValue jar name
  · rw [h.present name hname hhas, List.append_nil]
    obtain ⟨pair, hpair, hexact, hvalue⟩ := hhas
    have hfound : jar.find? (named name) = some pair := by
      have hmem : pair ∈ jar.filter (named name) :=
        List.mem_filter.mpr ⟨hpair, by rw [named, hexact, eqIgnoreAsciiCase, beq_self_eq_true]⟩
      rw [hjar.filter_named] at hmem
      exact Option.mem_toList.mp hmem
    rw [hfound]
    constructor
    · rintro - other hother
      obtain rfl := Option.some.inj hother
      exact ⟨hexact, hvalue⟩
    · exact fun _ => ⟨pair, rfl, hvalue⟩
  · obtain ⟨v, hv, hextra⟩ := h.missing name hname hhas
    rw [hextra]
    rcases hfound : jar.find? (named name) with _ | other
    · exact ⟨fun _ _ hmem => (by cases hmem), fun _ => ⟨(name, v), rfl, hv⟩⟩
    · constructor
      · rintro ⟨pair, hpair, -⟩
        exact absurd (List.cons.inj hpair).2 (List.cons_ne_nil _ _)
      · intro hspelled
        obtain ⟨hexact, hvalue⟩ := hspelled other rfl
        exact absurd ⟨other, List.mem_of_find?_eq_some hfound, hexact, hvalue⟩ hhas

/-- A clean header is trimmed. -/
theorem trim_cookieText {pairs : List (String × String)} (h : ∀ pair ∈ pairs, IsPair pair) :
    trim (cookieText pairs) = cookieText pairs := by
  rw [cookieText, trim, String.toList_ofList, joined_trimmed h]

theorem isBlank_trim {text : String} (h : trim text ≠ "") : isBlank (trim text) = false := by
  rw [Bool.eq_false_iff]
  intro hblank
  refine h ?_
  rw [← trim_trim, trim_of_isBlank hblank]

/-- A part that reads as a clean pair is one `with_web_cookie` accepts. -/
theorem isCookiePart_of_readPart {part : List Char} {pair : String × String} (h : IsPair pair)
    (hread : readPart part = some pair) : isCookiePart part = true := by
  obtain ⟨⟨name, value⟩, hsplit, rfl⟩ := Option.map_eq_some_iff.mp hread
  have hpart : String.ofList (trimChars part) ≠ "" := by
    intro hempty
    rw [hempty] at hsplit
    exact nomatch hsplit
  have hname : isBlank name = false := by
    rw [Bool.eq_false_iff]
    intro hblank
    refine h.name_ne_nil ?_
    dsimp only
    rw [trim_of_isBlank hblank]
    rfl
  unfold isCookiePart
  dsimp only
  rw [hsplit, Option.any_some, hname]
  simpa using hpart

/-- **`with_web_cookie` accepts clean headers.** -/
theorem isWebCookie_cookieText {pairs : List (String × String)} (hne : pairs ≠ [])
    (h : ∀ pair ∈ pairs, IsPair pair) : isWebCookie (cookieText pairs) = true := by
  have hread := splitOn_joined hne h
  have hblank : isBlank (cookieText pairs) = false := by
    rw [← trim_cookieText h]
    refine isBlank_trim ?_
    rw [trim_cookieText h, Ne, cookieText_eq_empty]
    exact hne
  have hcontrol : (cookieText pairs).toList.any isControl = false := by
    rw [cookieText, String.toList_ofList, List.any_eq_false]
    intro c hc
    rw [isControl_of_mem_joined h hc]
    exact Bool.false_ne_true
  have hparts : ∀ part ∈ (cookieText pairs).toList.splitOn ';', isCookiePart part = true := by
    intro part hpart
    rw [cookieText, String.toList_ofList] at hpart
    obtain ⟨pair, hpair, hsome⟩ := List.mem_map.mp (hread ▸ List.mem_map_of_mem hpart)
    exact isCookiePart_of_readPart (h pair hpair) hsome.symm
  rw [isWebCookie, hblank, hcontrol, List.all_eq_true.mpr hparts]
  rfl

/-- **What `parse_authenticated_session_objects` returns.** -/
theorem parse_eq_ok {config : QrSessionConfig} {objects : List JsonObject}
    {responses : List (List String)} {now : DateTime} {session : QrAuthenticatedSession}
    (h : parseAuthenticatedSessionObjects config objects (attemptJar responses).header now
      = .ok session) :
    ∃ extra, Completes ["wr_rt", "wr_skey", "wr_vid"] (mergedJar responses objects) extra ∧
      session.cookieHeader = cookieText (mergedJar responses objects ++ extra) ∧
      isBlank session.accessToken = false ∧ isBlank session.refreshToken = false := by
  unfold parseAuthenticatedSessionObjects at h
  rw [getD_mergeCookieHeaders] at h
  have hjar := isPair_of_mem_mergedJar responses objects
  generalize mergedJar responses objects = jar at h hjar ⊢
  dsimp only at h
  split at h
  · rename_i access haccess
    split at h
    · rename_i refresh hrefresh
      have haccessTrim : trim access = access := by
        rcases Option.or_eq_some_iff.mp haccess with hjson | ⟨-, hcookie⟩
        · exact trim_of_findStringFromObjects hjson
        · exact trim_of_cookieValue hjar hcookie
      have hrefreshTrim : trim refresh = refresh := by
        rcases Option.or_eq_some_iff.mp hrefresh with hjson | ⟨-, hcookie⟩
        · exact trim_of_findStringFromObjects hjson
        · exact trim_of_cookieValue hjar hcookie
      obtain ⟨header, hvid, h⟩ := bind_eq_ok h
      have hvidName : "wr_vid" ∈ sessionNames := by decide
      obtain ⟨extra, rfl, hcompletes⟩ := (Completes.nil jar).step nofun hjar hvidName
        List.not_mem_nil (fun v hv => trim_of_findStringFromObjects hv) (by rwa [List.append_nil])
      obtain ⟨header, hskey, h⟩ := bind_eq_ok h
      obtain ⟨extra, rfl, hcompletes⟩ := hcompletes.step (by decide) hjar (by decide) (by decide)
        (fun v hv => Option.mem_some.mp hv ▸ haccessTrim) hskey
      obtain ⟨header, hrt, h⟩ := bind_eq_ok h
      obtain ⟨extra, rfl, hcompletes⟩ := hcompletes.step (by decide) hjar (by decide) (by decide)
        (fun v hv => Option.mem_some.mp hv ▸ hrefreshTrim) hrt
      refine ⟨extra, hcompletes, ?_⟩
      unfold QrAuthenticatedSession.new at h
      split_ifs at h with hbad
      simp only [not_or] at hbad
      obtain ⟨haccess, hrefresh, -⟩ := hbad
      obtain rfl := Except.ok.inj h
      have hclean : ∀ pair ∈ jar ++ extra, IsPair pair := fun pair hpair =>
        (List.mem_append.mp hpair).elim (hjar pair) (hcompletes.isPair pair)
      exact ⟨trim_cookieText hclean, isBlank_trim haccess, isBlank_trim hrefresh⟩
    · exact nomatch h
  · exact nomatch h

/-- **The cookies of a session**: its header is well formed, credentials are built from it until it
expires, and merging keeps the last pair of a name. -/
structure SessionCookies (session : QrAuthenticatedSession) : Prop where
  header : IsSessionCookie session.cookieHeader
  accepted : ∀ issuedAt, issuedAt < session.accessExpiresAt →
    ∃ credentials, (WeReadCredentials.new session.accessToken session.refreshToken
      session.accessExpiresAt issuedAt >>= (·.withWebCookie session.cookieHeader))
        = .ok credentials
  lastWins : ∀ primary secondary : Option String, ∃ jar : AttemptCookieJar,
    mergeCookieHeaders primary secondary = jar.header ∧ Distinct jar ∧
      ∀ name, jar.find? (named name) =
        lastWrite (primary.elim [] headerWrites ++ secondary.elim [] headerWrites) name

/-- **The cookies of a session are well formed just when each needed cookie that the response sets is
spelled as it is needed, and has a value**, where it is set last. -/
theorem session_cookies_iff (config : QrSessionConfig) (objects : List JsonObject)
    (responses : List (List String)) (now : DateTime) (session : QrAuthenticatedSession)
    (h : parseAuthenticatedSessionObjects config objects (attemptJar responses).header now
      = .ok session) :
    SessionCookies session ↔ ∀ name ∈ sessionNames,
      Spelled (responseWrites responses ++ (findCookieHeader objects).elim [] headerWrites)
        name := by
  obtain ⟨extra, hcompletes, hheader, haccess, hrefresh⟩ := parse_eq_ok h
  have hjar := isPair_of_mem_mergedJar responses objects
  have hdistinct := distinct_mergedJar responses objects
  have hclean : ∀ pair ∈ mergedJar responses objects ++ extra, IsPair pair := fun pair hpair =>
    (List.mem_append.mp hpair).elim (hjar pair) (hcompletes.isPair pair)
  have hlast : ∀ name, (mergedJar responses objects).find? (named name) = lastWrite
      (responseWrites responses ++ (findCookieHeader objects).elim [] headerWrites) name := by
    intro name
    rw [mergedJar, find_foldl_write, List.find?_nil, Option.or_none]
  have honce : ∀ name ∈ sessionNames, OccursOnce (mergedJar responses objects ++ extra) name ↔
      Spelled (responseWrites responses ++ (findCookieHeader objects).elim [] headerWrites)
        name := by
    intro name hname
    have hnames : ∀ name ∈ sessionNames, name ∈ ["wr_rt", "wr_skey", "wr_vid"] := by decide
    rw [occursOnce_iff hdistinct hcompletes (hnames name hname), hlast, Spelled]
  have hne : mergedJar responses objects ++ extra ≠ [] := by
    intro hnil
    obtain ⟨hjarNil, hextraNil⟩ := List.append_eq_nil_iff.mp hnil
    obtain ⟨v, -, hfilter⟩ := hcompletes.missing "wr_vid" (by decide) fun ⟨pair, hpair, _⟩ => by
      rw [hjarNil] at hpair
      exact nomatch hpair
    rw [hextraNil] at hfilter
    exact nomatch hfilter
  constructor
  · rintro ⟨⟨pairs, htext, hpairs, honces⟩, -, -⟩ name hname
    have hsome : pairs ≠ [] := by
      rintro rfl
      obtain ⟨pair, hfilter, -⟩ := honces "wr_vid" (by decide)
      exact nomatch hfilter
    have hjoined : joined pairs = joined (mergedJar responses objects ++ extra) := by
      rw [hheader] at htext
      exact (String.ofList_injective htext).symm
    have hsame := joined_injective hsome hne hpairs hclean hjoined
    exact (honce name hname).mp (hsame ▸ honces name hname)
  · intro hspelled
    refine ⟨⟨_, hheader, hclean, fun name hname => (honce name hname).mpr (hspelled name hname)⟩,
      fun issuedAt hissued => ?_, fun primary secondary => ?_⟩
    · have hcookie : isWebCookie session.cookieHeader = true := by
        rw [hheader]
        exact isWebCookie_cookieText hne hclean
      unfold WeReadCredentials.new
      rw [dif_pos ⟨haccess, hrefresh⟩, if_neg (Int.not_le.mpr hissued)]
      exact ⟨_, dif_pos hcookie⟩
    · exact ⟨_, mergeCookieHeaders_eq primary secondary, Distinct.foldl_write List.Pairwise.nil _,
        fun name => by rw [find_foldl_write, List.find?_nil, Option.or_none]⟩

/-- A response that names its instants in no way. -/
def plainSessionConfig : QrSessionConfig := ⟨3600000000000, fun _ => none⟩

/-- The tokens of a login. -/
def loginObjects : List JsonObject :=
  [[("accessToken", .string "a"), ("refreshToken", .string "r"), ("vid", .string "5")]]

/-- The session of a response with one cookie. -/
def sessionOf (cookieHeader : String) : QrAuthenticatedSession :=
  ⟨"a", "r", cookieHeader, 3600000000001, none⟩

theorem session_cookies_plain : SessionCookies (sessionOf "wr_skey=x; wr_vid=5; wr_rt=r") := by
  have hok : parseAuthenticatedSessionObjects plainSessionConfig loginObjects
      (attemptJar [["wr_skey=x; Path=/; HttpOnly"]]).header 1
      = .ok (sessionOf "wr_skey=x; wr_vid=5; wr_rt=r") := by decide +kernel
  refine (session_cookies_iff _ _ _ _ _ hok).mpr fun name hname pair hpair => ?_
  have hwrites : responseWrites [["wr_skey=x; Path=/; HttpOnly"]] ++
      (findCookieHeader loginObjects).elim [] headerWrites = [("wr_skey", "x")] := by
    decide +kernel
  rw [hwrites] at hpair
  have hall : ∀ name ∈ sessionNames, ∀ pair ∈ lastWrite [("wr_skey", "x")] name,
      pair.1 = name ∧ pair.2 ≠ "" := by decide +kernel
  exact hall name hname pair hpair

/-- The cookies of a login whose response spelled one in capitals. -/
def doubledPairs : List (String × String) :=
  [("WR_SKEY", "x"), ("wr_vid", "5"), ("wr_skey", "a"), ("wr_rt", "r")]

theorem filter_doubledPairs :
    doubledPairs.filter (named "wr_skey") = [("WR_SKEY", "x"), ("wr_skey", "a")] := by
  decide +kernel

theorem isPair_of_mem_doubledPairs : ∀ pair ∈ doubledPairs, IsPair pair := by
  have hclean : ∀ pair ∈ doubledPairs,
      ';' ∉ pairText pair ∧ AttemptCookieJar.cleanPair (pairText pair) = some pair := by
    decide +kernel
  exact fun pair hpair =>
    AttemptCookieJar.isPair_of_cleanPair (hclean pair hpair).1 (hclean pair hpair).2

/-- **A cookie spelled in capitals is doubled**: the jar takes it for `wr_skey`, and the session adds
another. -/
theorem session_cookies_doubled :
    ∃ (config : QrSessionConfig) (objects : List JsonObject) (responses : List (List String))
      (now : DateTime) (session : QrAuthenticatedSession),
      parseAuthenticatedSessionObjects config objects (attemptJar responses).header now
        = .ok session ∧ ¬ IsSessionCookie session.cookieHeader := by
  have hok : parseAuthenticatedSessionObjects plainSessionConfig loginObjects
      (attemptJar [["WR_SKEY=x; Path=/; HttpOnly"]]).header 1
      = .ok (sessionOf (cookieText doubledPairs)) := by decide +kernel
  refine ⟨_, _, _, _, _, hok, ?_⟩
  rintro ⟨pairs, htext, hpairs, honces⟩
  obtain ⟨pair, hfilter, -⟩ := honces "wr_skey" (by decide)
  have hsome : pairs ≠ [] := by
    intro hnil
    rw [hnil] at hfilter
    exact absurd hfilter.symm (List.cons_ne_nil _ _)
  have hne : doubledPairs ≠ [] := List.cons_ne_nil _ _
  have hsame := joined_injective hsome hne hpairs isPair_of_mem_doubledPairs
    (String.ofList_injective htext).symm
  rw [hsame, filter_doubledPairs] at hfilter
  exact absurd (List.cons.inj hfilter).2 (List.cons_ne_nil _ _)

end QrSession

end Werrss
