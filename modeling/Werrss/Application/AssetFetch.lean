import Werrss.Application.AssetArchiveService
import Werrss.Archive.AssetStore
import Werrss.Machinery.Transaction
import Werrss.Persistence.AssetCap

/-!
# Application/AssetFetch — fetching the images of an article within its budgets

    urls ──count, time, bytes left?──▸ URL check ──▸ request ──▸ head check ──▸ body ──▸ signature ──▸ input
              │ no: stop                  └────────────┴───────────┴────────────┴──────────┘
                                                     no: the next URL

The budgets are counters of one article: the time since the start and the bytes received so far, of
rejected bodies too.  **What is fetched is what the repository accepts**, and no request is started
once the bytes are used up.
-/

open Machinery

namespace Werrss

/-- A URL with a host has the text of its host. -/
class LawfulUrlHosts (Url : Type) [UrlCrate Url] [UrlHosts Url] : Prop where
  hostStr_ne_none (u : Url) (host : Host) : UrlHosts.host u = some host → UrlCrate.hostStr u ≠ none

/-! ## Configuration -/

/-- The limits of the cache that the fetcher reads, durations in nanoseconds. -/
structure AssetFetchPolicy extends AssetCachePolicy where
  maxFetchBytesPerArticle : ℕ
  maxFetchTimePerArticle : ℕ
  /-- the count is a `u32`, the bytes a `u64` -/
  maxCount_lt : maxCountPerArticle < UInt32.size
  maxFetchBytes_le : maxFetchBytesPerArticle ≤ u64Max

/-- `ConfigError::InvalidValue`. -/
structure InvalidValue where
  variableName : String
  reason : String
deriving DecidableEq, Repr

def maxBrowserUserAgentLength : ℕ := 512

/-- `parse_browser_user_agent`. -/
def parseBrowserUserAgent : Option String → Except InvalidValue (Option String)
  | none => .ok none
  | some value =>
    let value := trim value
    if value = "" ∨ maxBrowserUserAgentLength < value.utf8ByteSize then
      .error ⟨"BROWSER_USER_AGENT", "must be non-empty and no longer than 512 characters"⟩
    else if value.toList.any isControl then
      .error ⟨"BROWSER_USER_AGENT", "must not contain control characters"⟩
    else .ok (some value)

/-- `AssetArchiveService`. -/
structure AssetArchiveService where
  policy : AssetFetchPolicy
  userAgent : Option String

/-- `AssetArchiveService::new`. -/
def AssetArchiveService.new (policy : AssetFetchPolicy) (userAgent : Option String) :
    AssetArchiveService :=
  ⟨policy, userAgent.filter (· ≠ "")⟩

/-! ## What the network answers -/

/-- How long a read takes, until the clock is read before and after it. -/
structure Pause where
  before : ℕ
  after : ℕ

/-- The end of a body. -/
inductive BodyEnd
  | complete | failed | timedOut
deriving DecidableEq, Repr

/-- A response: its head, and its body as the client reads it. -/
structure AssetResponse (Url : Type) where
  status : ℕ
  /-- `Content-Type`, if it is there and is text -/
  contentType : Option String
  contentLength : Option ℕ
  /-- where redirects ended -/
  url : Url
  chunks : List (Pause × List UInt8)
  rest : Pause × BodyEnd

inductive SendOutcome (Url : Type)
  | response (response : AssetResponse Url)
  | failed
  | timedOut

/-- What one URL meets: the time until its budgets are checked and until its request has an outcome,
and `Uuid::new_v4` for the input. -/
structure FetchExchange (Url : Type) where
  pause : Pause
  outcome : SendOutcome Url
  preparationId : Uuid

/-- A request as it is sent. -/
structure AssetRequest (Url : Type) where
  url : Url
  referer : String
  accept : String
  origin : Option String
  userAgent : Option String

/-- What the client does and sees. -/
inductive FetchEvent (Url : Type)
  | requested (request : AssetRequest Url)
  | received (size : ℕ)

/-- The state of one call. -/
structure FetchState (Url : Type) where
  elapsed : ℕ
  fetchedBytes : ℕ
  fetched : List (AssetInput Url)
  events : List (FetchEvent Url)

/-- How the work on one URL ends early: `continue` or `break`. -/
inductive FetchExit
  | next | stop
deriving DecidableEq, Repr

abbrev FetchTx (Url A : Type) := Tx (FetchState Url) FetchExit A

/-! ## Checks on a response -/

/-- `response_media_type`. -/
def responseMediaType {Url : Type} (response : AssetResponse Url) : Option String :=
  response.contentType.bind fun value =>
    let mediaType := toAsciiLowercase (trim (String.ofList (value.toList.takeWhile (· ≠ ';'))))
    if mediaType ∈ ["image/png", "image/jpeg", "image/gif", "image/webp"] then some mediaType
    else none

/-- The bytes of an ASCII text. -/
def asciiBytes (text : String) : List UInt8 := text.toList.map fun c => UInt8.ofNat c.toNat

def pngSignature : List UInt8 := [0x89, 0x50, 0x4e, 0x47, 0x0d, 0x0a, 0x1a, 0x0a]

/-- `signature_matches`. -/
def signatureMatches (mediaType : String) (bytes : List UInt8) : Bool :=
  if mediaType = "image/png" then pngSignature.isPrefixOf bytes
  else if mediaType = "image/jpeg" then [0xff, 0xd8, 0xff].isPrefixOf bytes
  else if mediaType = "image/gif" then
    (asciiBytes "GIF87a").isPrefixOf bytes || (asciiBytes "GIF89a").isPrefixOf bytes
  else if mediaType = "image/webp" then
    decide (12 ≤ bytes.length) && bytes.take 4 == asciiBytes "RIFF"
      && (bytes.take 12).drop 8 == asciiBytes "WEBP"
  else false

namespace AssetArchiveService

variable {Url : Type}

/-! ## Reading a body -/

/-- Time passes. -/
def passes (elapsed : ℕ) : FetchTx Url Unit :=
  Tx.modify fun s => { s with elapsed := s.elapsed + elapsed }

/-- A chunk arrives. -/
def receives (size : ℕ) : FetchTx Url Unit :=
  Tx.modify fun s => { s with events := s.events ++ [.received size] }

/-- `*fetched_bytes = fetched_bytes.saturating_add(size)`. -/
def counts (size : ℕ) : FetchTx Url Unit :=
  Tx.modify fun s => { s with fetchedBytes := min (s.fetchedBytes + size) u64Max }

/-- `remaining_fetch_time`, where it is over if there is none. -/
def checkFetchTime (service : AssetArchiveService) (exit : FetchExit) : FetchTx Url Unit := do
  let s ← Tx.read
  if service.policy.maxFetchTimePerArticle < s.elapsed then Tx.fail exit else return ()

/-- `read_body`; without a body the next URL follows. -/
def readBody (service : AssetArchiveService) (limit : ℕ) (rest : Pause × BodyEnd) :
    List (Pause × List UInt8) → List UInt8 → FetchTx Url (List UInt8)
  | [], bytes => do
    passes rest.1.before
    service.checkFetchTime .next
    passes rest.1.after
    match rest.2 with
    | .timedOut => Tx.fail .next
    | .failed => Tx.fail .next
    | .complete => do
      service.checkFetchTime .next
      if bytes.isEmpty then Tx.fail .next else return bytes
  | (pause, chunk) :: chunks, bytes => do
    passes pause.before
    service.checkFetchTime .next
    passes pause.after
    receives chunk.length
    service.checkFetchTime .next
    if limit - bytes.length < chunk.length then do
      -- the chunk has arrived, so it counts
      counts chunk.length
      Tx.fail .next
    else do
      counts chunk.length
      readBody service limit rest chunks (bytes ++ chunk)

/-! ## Fetching one URL -/

variable [UrlCrate Url] [UrlHosts Url]

/-- What all requests of a call share. -/
structure FetchContext (Url : Type) where
  referer : String
  refererUrl : Url
  origin : Option String
  userAgent : Option String

/-- The `Accept` header. -/
def accept : String := "image/avif,image/webp,image/apng,image/*,*/*;q=0.8"

/-- `AssetInput::new`. -/
def newInput [Sha2Crate] (sourceUrl finalUrl : Url) (mediaType : String) (bytes : List UInt8)
    (occurrence : ℕ) (refererUrl : Url) (origin userAgent : Option String) (preparationId : Uuid) :
    AssetInput Url where
  sourceUrl := sourceUrl
  finalUrl := finalUrl
  mediaType := mediaType
  bytes := bytes
  occurrence := occurrence
  refererUrl := refererUrl
  origin := origin
  userAgent := userAgent
  checksum := Sha2Crate.sha256Hex bytes
  preparationId := preparationId

/-- The loop body behind the response's head: the destination, the body and its signature. -/
def acceptResponse [Sha2Crate] (service : AssetArchiveService) (context : FetchContext Url)
    (preparationId : Uuid) (occurrence : ℕ) (sourceUrl : Url) (remaining : ℕ)
    (response : AssetResponse Url) : FetchTx Url Unit :=
  if ¬(200 ≤ response.status ∧ response.status < 300) then Tx.fail .next
  else
    match responseMediaType response with
    | none => Tx.fail .next
    | some mediaType =>
      let perAssetLimit := min service.policy.maxAssetSizeBytes remaining
      if response.contentLength.any fun length => perAssetLimit < length then Tx.fail .next
      else
        match validateAssetUrl response.url with
        | none => Tx.fail .next
        | some finalUrl =>
          if hasProviderSignature finalUrl then Tx.fail .next
          else do
            let bytes ← service.readBody perAssetLimit response.rest response.chunks []
            if signatureMatches mediaType bytes then
              Tx.modify fun s => { s with
                fetched := s.fetched ++ [newInput sourceUrl finalUrl mediaType bytes
                  (occurrence % UInt32.size) context.refererUrl context.origin service.userAgent
                  preparationId] }
            else Tx.fail .next

/-- The loop body of `fetch_assets_with_context`. -/
def fetchAsset [Sha2Crate] (service : AssetArchiveService) (context : FetchContext Url)
    (exchange : FetchExchange Url) (occurrence : ℕ) (sourceUrl : Url) : FetchTx Url Unit :=
  if service.policy.maxCountPerArticle ≤ occurrence then Tx.fail .stop
  else do
    passes exchange.pause.before
    service.checkFetchTime .stop
    let s ← Tx.read
    let remaining := service.policy.maxFetchBytesPerArticle - s.fetchedBytes
    if remaining = 0 then Tx.fail .stop
    else
      match validateAssetUrl sourceUrl with
      | none => Tx.fail .next
      | some sourceUrl =>
        if hasProviderSignature sourceUrl then Tx.fail .next
        else do
          Tx.modify fun s => { s with
            events := s.events ++ [.requested
              ⟨sourceUrl, context.referer, accept, context.origin, context.userAgent⟩] }
          passes exchange.pause.after
          match exchange.outcome with
          | .timedOut => Tx.fail .stop
          | .failed => Tx.fail .next
          | .response response =>
            service.acceptResponse context exchange.preparationId occurrence sourceUrl remaining
              response

/-- The loop of `fetch_assets_with_context`, from `occurrence` on. -/
def fetchAssets [Sha2Crate] (service : AssetArchiveService) (context : FetchContext Url)
    (exchanges : ℕ → FetchExchange Url) : ℕ → List Url → FetchState Url → FetchState Url
  | _, [], s => s
  | occurrence, sourceUrl :: urls, s =>
    match service.fetchAsset context (exchanges occurrence) occurrence sourceUrl s with
    | (.error .stop, t) => t
    | (.error .next, t) => fetchAssets service context exchanges (occurrence + 1) urls t
    | (.ok _, t) => fetchAssets service context exchanges (occurrence + 1) urls t

/-- `origin_for`. -/
def originFor (Url : Type) [UrlCrate Url] (value : String) : Option String :=
  (UrlCrate.parse value : Option Url).bind fun url =>
    (UrlCrate.hostStr url).map fun host =>
      UrlCrate.scheme url ++ "://" ++ host ++
        match UrlCrate.port url with
        | none => ""
        | some port => ":" ++ toString port

/-! ## The referer -/

section Referer

variable [LawfulUrlCrate Url]

omit [UrlHosts Url] in
/-- **A verified article URL remains parseable**, and is the URL of a public article. -/
theorem parse_referer (referer : VerifiedWechatArticleUrl Url) :
    ∃ url : Url, UrlCrate.parse referer.asStr = some url ∧ isPublicArticle url = true ∧
      UrlCrate.port url ≠ some 443 := by
  have h := referer.canonical
  rw [canonicalArticleUrl] at h
  split_ifs at h with hempty
  split at h
  · cases h
  rename_i url hparse
  split_ifs at h with hpublic hport
  · refine ⟨UrlCrate.clearPort url, ?_, isPublicArticle_clearPort (by simpa using hpublic), ?_⟩
    · rw [← Except.ok.inj h, LawfulUrlCrate.parse_asStr]
    · rw [LawfulUrlCrate.port_clearPort]
      intro hnone
      cases hnone
  · refine ⟨url, ?_, by simpa using hpublic, hport⟩
    rw [← Except.ok.inj h, LawfulUrlCrate.parse_asStr]

/-- `Url::parse(referer.as_str())`, which does not fail. -/
def refererUrl (referer : VerifiedWechatArticleUrl Url) : Url :=
  (UrlCrate.parse referer.asStr).get <| by
    obtain ⟨url, hurl, -⟩ := parse_referer referer
    rw [hurl]
    rfl

/-- `fetch_assets_with_context`: the state it ends in, whose inputs it returns. -/
def fetchAssetsWithContext [Sha2Crate] (service : AssetArchiveService)
    (referer : VerifiedWechatArticleUrl Url) (urls : List Url)
    (capturedOrigin capturedUserAgent : Option String) (exchanges : ℕ → FetchExchange Url) :
    FetchState Url :=
  service.fetchAssets
    { referer := referer.asStr
      refererUrl := refererUrl referer
      origin := capturedOrigin.or (originFor Url referer.asStr)
      userAgent := capturedUserAgent.or service.userAgent }
    exchanges 0 urls ⟨0, 0, [], []⟩

end Referer

/-! ## The byte budget -/

/-- The bytes that have arrived. -/
def receivedBytes (events : List (FetchEvent Url)) : ℕ :=
  (events.map fun event => match event with
    | .requested _ => 0
    | .received size => size).sum

omit [UrlCrate Url] [UrlHosts Url] in
theorem receivedBytes_append (events events' : List (FetchEvent Url)) :
    receivedBytes (events ++ events') = receivedBytes events + receivedBytes events' := by
  rw [receivedBytes, List.map_append, List.sum_append]
  rfl

/-- **Every request was started below the budget.** -/
def StartedBelow (budget : ℕ) (events : List (FetchEvent Url)) : Prop :=
  ∀ before request after, events = before ++ .requested request :: after →
    receivedBytes before < budget

/-- **The counter is what arrived**, up to what a `u64` holds, and to `pending` bytes that are yet to
be counted; or the time is over, and nothing will be requested any more. -/
structure WithinBudget (service : AssetArchiveService) (pending : ℕ) (s : FetchState Url) : Prop where
  counted : service.policy.maxFetchTimePerArticle < s.elapsed ∨
    ∃ counted, receivedBytes s.events = counted + pending ∧ s.fetchedBytes = min counted u64Max
  started : StartedBelow service.policy.maxFetchBytesPerArticle s.events

section Budget

variable {service : AssetArchiveService} {pending : ℕ} {s : FetchState Url}

omit [UrlCrate Url] [UrlHosts Url] in
theorem startedBelow_received {budget : ℕ} {events : List (FetchEvent Url)}
    (h : StartedBelow budget events) (size : ℕ) : StartedBelow budget (events ++ [.received size]) := by
  intro before request after hsplit
  rcases List.eq_nil_or_concat after with rfl | ⟨after', last, rfl⟩
  · exact nomatch (List.cons.inj (List.append_inj' hsplit rfl).2).1
  · rw [List.concat_eq_append, ← List.cons_append, ← List.append_assoc] at hsplit
    exact h before request after' (List.append_inj' hsplit rfl).1

omit [UrlCrate Url] [UrlHosts Url] in
theorem startedBelow_requested {budget : ℕ} {events : List (FetchEvent Url)}
    (h : StartedBelow budget events) (hbudget : receivedBytes events < budget)
    (request : AssetRequest Url) : StartedBelow budget (events ++ [.requested request]) := by
  intro before other after hsplit
  rcases List.eq_nil_or_concat after with rfl | ⟨after', last, rfl⟩
  · rwa [← (List.append_inj' hsplit rfl).1]
  · rw [List.concat_eq_append, ← List.cons_append, ← List.append_assoc] at hsplit
    exact h before other after' (List.append_inj' hsplit rfl).1

omit [UrlCrate Url] [UrlHosts Url] in
theorem WithinBudget.passes (h : WithinBudget service pending s) (elapsed : ℕ) :
    WithinBudget service pending { s with elapsed := s.elapsed + elapsed } :=
  ⟨h.counted.imp (fun hover => Nat.lt_add_right elapsed hover) fun hcounted => hcounted, h.started⟩

omit [UrlCrate Url] [UrlHosts Url] in
theorem WithinBudget.receives (h : WithinBudget service 0 s) (size : ℕ) :
    WithinBudget service size { s with events := s.events ++ [.received size] } := by
  refine ⟨h.counted.imp (fun hover => hover) ?_, startedBelow_received h.started size⟩
  rintro ⟨counted, hreceived, hcounter⟩
  refine ⟨counted, ?_, hcounter⟩
  rw [receivedBytes_append, hreceived]
  rfl

omit [UrlCrate Url] [UrlHosts Url] in
theorem WithinBudget.counts (h : WithinBudget service pending s) :
    WithinBudget service 0 { s with fetchedBytes := min (s.fetchedBytes + pending) u64Max } := by
  refine ⟨h.counted.imp (fun hover => hover) ?_, h.started⟩
  rintro ⟨counted, hreceived, hcounter⟩
  refine ⟨counted + pending, hreceived, ?_⟩
  change min (s.fetchedBytes + pending) u64Max = _
  omega

omit [UrlCrate Url] [UrlHosts Url] in
/-- Where the time is over, nothing needs to be counted. -/
theorem WithinBudget.over (h : WithinBudget service pending s)
    (hover : service.policy.maxFetchTimePerArticle < s.elapsed) : WithinBudget service 0 s :=
  ⟨.inl hover, h.started⟩

omit [UrlCrate Url] [UrlHosts Url] in
/-- **A request within the time and below the counter's budget.** -/
theorem WithinBudget.requests (h : WithinBudget service 0 s)
    (htime : s.elapsed ≤ service.policy.maxFetchTimePerArticle)
    (hbytes : s.fetchedBytes < service.policy.maxFetchBytesPerArticle) (request : AssetRequest Url) :
    WithinBudget service 0 { s with events := s.events ++ [.requested request] } := by
  have hmax := service.policy.maxFetchBytes_le
  obtain ⟨counted, hreceived, hcounter⟩ := h.counted.resolve_left (not_lt.mpr htime)
  refine ⟨.inr ⟨counted, ?_, hcounter⟩, startedBelow_requested h.started ?_ request⟩
  · rw [receivedBytes_append, hreceived]
    rfl
  · rw [hreceived]
    omega

end Budget

/-! ## Bodies -/

section Bodies

variable {service : AssetArchiveService} {P : FetchState Url → Prop}

omit [UrlCrate Url] [UrlHosts Url] in
/-- The time check, after which there is time left. -/
theorem checkFetchTime_spec (exit : FetchExit) {F : FetchState Url → Prop}
    (hF : ∀ s, P s → service.policy.maxFetchTimePerArticle < s.elapsed → F s) :
    Tx.Triple P (service.checkFetchTime exit)
      (fun _ s => P s ∧ s.elapsed ≤ service.policy.maxFetchTimePerArticle) F := by
  refine .read_bind fun s hs => .ite (fun hover => .fail ?_) fun hleft => .pure ?_
  · rintro t rfl
    exact hF t hs hover
  · rintro t rfl
    exact ⟨hs, not_lt.mp hleft⟩

/-- What reading a body keeps: the budget, the inputs so far, and a counter that only grows. -/
structure Reading (service : AssetArchiveService) (pending : ℕ) (fetched : List (AssetInput Url))
    (start : ℕ) (s : FetchState Url) : Prop where
  budget : WithinBudget service pending s
  fetched_eq : s.fetched = fetched
  start_le : start ≤ s.fetchedBytes

omit [UrlCrate Url] [UrlHosts Url] in
/-- **A body that is read fits**: it is not empty, within its limit, and counted. -/
theorem readBody_spec {limit start : ℕ} (hlimit : start + limit ≤ u64Max)
    (fetched : List (AssetInput Url)) (rest : Pause × BodyEnd) :
    ∀ (chunks : List (Pause × List UInt8)) (bytes : List UInt8), bytes.length ≤ limit →
      Tx.Triple (fun s => Reading service 0 fetched start s ∧ s.fetchedBytes = start + bytes.length)
        (service.readBody limit rest chunks bytes)
        (fun body s => (body ≠ [] ∧ body.length ≤ limit) ∧ Reading service 0 fetched start s ∧
          s.fetchedBytes = start + body.length)
        (Reading service 0 fetched start)
  | [], bytes, hbytes => by
    rw [readBody]
    refine .modify_bind (R := fun s => Reading service 0 fetched start s ∧
      s.fetchedBytes = start + bytes.length) ?_ fun s hs =>
        ⟨⟨hs.1.budget.passes _, hs.1.fetched_eq, hs.1.start_le⟩, hs.2⟩
    refine .bind (checkFetchTime_spec .next fun s hs _ => hs.1) fun _ => ?_
    refine .modify_bind (R := fun s => Reading service 0 fetched start s ∧
      s.fetchedBytes = start + bytes.length) ?_ fun s hs =>
        ⟨⟨hs.1.1.budget.passes _, hs.1.1.fetched_eq, hs.1.1.start_le⟩, hs.1.2⟩
    rcases rest with ⟨pause, _ | _ | _⟩
    · refine .bind (checkFetchTime_spec .next fun s hs _ => hs.1) fun _ => ?_
      refine .ite (fun _ => .fail fun s hs => hs.1.1) fun hne => .pure fun s hs => ?_
      exact ⟨⟨by simpa using hne, hbytes⟩, hs.1⟩
    · exact .fail fun s hs => hs.1
    · exact .fail fun s hs => hs.1
  | (pause, chunk) :: chunks, bytes, hbytes => by
    rw [readBody]
    refine .modify_bind (R := fun s => Reading service 0 fetched start s ∧
      s.fetchedBytes = start + bytes.length) ?_ fun s hs =>
        ⟨⟨hs.1.budget.passes _, hs.1.fetched_eq, hs.1.start_le⟩, hs.2⟩
    refine .bind (checkFetchTime_spec .next fun s hs _ => hs.1) fun _ => ?_
    refine .modify_bind (R := fun s => Reading service 0 fetched start s ∧
      s.fetchedBytes = start + bytes.length) ?_ fun s hs =>
        ⟨⟨hs.1.1.budget.passes _, hs.1.1.fetched_eq, hs.1.1.start_le⟩, hs.1.2⟩
    refine .modify_bind (R := fun s => Reading service chunk.length fetched start s ∧
      s.fetchedBytes = start + bytes.length) ?_ fun s hs =>
        ⟨⟨hs.1.budget.receives _, hs.1.fetched_eq, hs.1.start_le⟩, hs.2⟩
    refine .bind (checkFetchTime_spec .next fun s hs hover =>
      ⟨hs.1.budget.over hover, hs.1.fetched_eq, hs.1.start_le⟩) fun _ => ?_
    refine .ite (fun _ => ?_) fun hfits => ?_
    · refine .modify_bind (R := Reading service 0 fetched start) (.fail fun s hs => hs) fun s hs => ?_
      refine ⟨hs.1.1.budget.counts, hs.1.1.fetched_eq, le_min ?_ (by omega)⟩
      exact hs.1.1.start_le.trans (Nat.le_add_right _ _)
    · have hlength : (bytes ++ chunk).length ≤ limit := by
        rw [List.length_append]
        omega
      refine .modify_bind (readBody_spec hlimit fetched rest chunks (bytes ++ chunk) hlength)
        fun s hs => ?_
      have hcount : min (s.fetchedBytes + chunk.length) u64Max = start + (bytes ++ chunk).length := by
        rw [hs.1.2, List.length_append] at *
        omega
      refine ⟨⟨hs.1.1.budget.counts, hs.1.1.fetched_eq, ?_⟩, hcount⟩
      exact hcount ▸ Nat.le_add_right _ _

end Bodies

/-! ## What is fetched -/

/-- **The body starts with the signature of its media type.** -/
inductive HasSignature : String → List UInt8 → Prop
  | png (rest : List UInt8) : HasSignature "image/png" (pngSignature ++ rest)
  | jpeg (rest : List UInt8) : HasSignature "image/jpeg" ([0xff, 0xd8, 0xff] ++ rest)
  | gif87 (rest : List UInt8) : HasSignature "image/gif" (asciiBytes "GIF87a" ++ rest)
  | gif89 (rest : List UInt8) : HasSignature "image/gif" (asciiBytes "GIF89a" ++ rest)
  | webp (size rest : List UInt8) (size_length : size.length = 4) :
    HasSignature "image/webp" (asciiBytes "RIFF" ++ size ++ asciiBytes "WEBP" ++ rest)

theorem hasSignature_of_matches {mediaType : String} {bytes : List UInt8}
    (h : signatureMatches mediaType bytes = true) : HasSignature mediaType bytes := by
  rw [signatureMatches] at h
  split_ifs at h with hpng hjpeg hgif hwebp
  · obtain ⟨rest, rfl⟩ := List.isPrefixOf_iff_prefix.mp h
    exact hpng ▸ .png rest
  · obtain ⟨rest, rfl⟩ := List.isPrefixOf_iff_prefix.mp h
    exact hjpeg ▸ .jpeg rest
  · rcases Bool.or_eq_true_iff.mp h with h | h
    · obtain ⟨rest, rfl⟩ := List.isPrefixOf_iff_prefix.mp h
      exact hgif ▸ .gif87 rest
    · obtain ⟨rest, rfl⟩ := List.isPrefixOf_iff_prefix.mp h
      exact hgif ▸ .gif89 rest
  · rw [Bool.and_eq_true, Bool.and_eq_true, decide_eq_true_eq, beq_iff_eq, beq_iff_eq] at h
    obtain ⟨⟨hlength, hriff⟩, htag⟩ := h
    have hsplit : bytes = bytes.take 4 ++ (bytes.take 8).drop 4 ++ (bytes.take 12).drop 8 ++
        bytes.drop 12 := by
      have h4 : (bytes.take 8).take 4 = bytes.take 4 := by rw [List.take_take]; rfl
      have h8 : (bytes.take 12).take 8 = bytes.take 8 := by rw [List.take_take]; rfl
      rw [← h4, List.take_append_drop, ← h8, List.take_append_drop, List.take_append_drop]
    rw [hriff, htag] at hsplit
    rw [hsplit]
    refine hwebp ▸ .webp _ _ ?_
    rw [List.length_drop, List.length_take]
    omega

omit [UrlCrate Url] [UrlHosts Url] in
theorem mediaType_mem {response : AssetResponse Url} {mediaType : String}
    (h : responseMediaType response = some mediaType) :
    mediaType ∈ ["image/png", "image/jpeg", "image/gif", "image/webp"] := by
  rw [responseMediaType, Option.bind_eq_some_iff] at h
  obtain ⟨value, -, h⟩ := h
  dsimp only at h
  split_ifs at h with hmem
  exact Option.some.inj h ▸ hmem

/-- **An input as the fetcher builds it**, for one of the first `n` URLs. -/
structure Fetched [Sha2Crate] (service : AssetArchiveService) (context : FetchContext Url)
    (urls : List Url) (n : ℕ) (item : AssetInput Url) : Prop where
  occurrence_lt : item.occurrence < n
  count : item.occurrence < service.policy.maxCountPerArticle
  source : urls[item.occurrence]? = some item.sourceUrl
  safeSource : isSafeAssetUrl item.sourceUrl = true
  unsignedSource : hasProviderSignature item.sourceUrl = false
  safeFinal : isSafeAssetUrl item.finalUrl = true
  unsignedFinal : hasProviderSignature item.finalUrl = false
  mediaType : item.mediaType ∈ ["image/png", "image/jpeg", "image/gif", "image/webp"]
  signature : HasSignature item.mediaType item.bytes
  nonempty : item.bytes ≠ []
  size : item.bytes.length ≤ service.policy.maxAssetSizeBytes
  refererUrl : item.refererUrl = context.refererUrl
  origin : item.origin = context.origin
  userAgent : item.userAgent = service.userAgent
  checksum : item.checksum = Sha2Crate.sha256Hex item.bytes

/-- The bytes of the bodies. -/
def bodyBytes (fetched : List (AssetInput Url)) : ℕ := (fetched.map (·.bytes.length)).sum

/-- **What holds before the URL at `n`.** -/
structure Collected [Sha2Crate] (service : AssetArchiveService) (context : FetchContext Url)
    (urls : List Url) (n : ℕ) (s : FetchState Url) : Prop where
  budget : WithinBudget service 0 s
  items : ∀ item ∈ s.fetched, Fetched service context urls n item
  ordered : s.fetched.Pairwise fun a b => a.occurrence < b.occurrence
  total_le : bodyBytes s.fetched ≤ s.fetchedBytes
  total_budget : bodyBytes s.fetched ≤ service.policy.maxFetchBytesPerArticle

section Loop

variable [Sha2Crate] {service : AssetArchiveService} {context : FetchContext Url} {urls : List Url}
  {n : ℕ} {s t : FetchState Url}

theorem Fetched.mono {item : AssetInput Url} {m : ℕ} (h : Fetched service context urls n item)
    (hle : n ≤ m) : Fetched service context urls m item :=
  { h with occurrence_lt := Nat.lt_of_lt_of_le h.occurrence_lt hle }

/-- Only the budget looks at what else happens. -/
theorem Collected.same (h : Collected service context urls n s) (hbudget : WithinBudget service 0 t)
    (hfetched : t.fetched = s.fetched) (hbytes : s.fetchedBytes ≤ t.fetchedBytes) :
    Collected service context urls n t := by
  refine ⟨hbudget, ?_, ?_, ?_, ?_⟩
  · rw [hfetched]
    exact h.items
  · rw [hfetched]
    exact h.ordered
  · rw [hfetched]
    exact h.total_le.trans hbytes
  · rw [hfetched]
    exact h.total_budget

theorem Collected.succ (h : Collected service context urls n s) :
    Collected service context urls (n + 1) s :=
  { h with items := fun item hitem => (h.items item hitem).mono (Nat.le_succ n) }

omit [UrlHosts Url] [Sha2Crate] in
theorem validateAssetUrl_eq_some [UrlHosts Url] [LawfulClearFragment Url] {url valid : Url}
    (h : validateAssetUrl url = some valid) : valid = url ∧ isSafeAssetUrl url = true := by
  rw [validateAssetUrl] at h
  split_ifs at h with hsafe
  refine ⟨?_, hsafe⟩
  rw [← Option.some.inj h]
  exact LawfulClearFragment.clearFragment_eq url (isSafeAssetUrl_iff.mp hsafe).2.2.2.1

/-- **One more input.** -/
theorem Collected.push (h : Collected service context urls n s) {item : AssetInput Url}
    (hitem : Fetched service context urls (n + 1) item) (hn : item.occurrence = n)
    (hbudget : WithinBudget service 0 t) (hfetched : t.fetched = s.fetched)
    (hbytes : t.fetchedBytes = s.fetchedBytes + item.bytes.length)
    (hfits : s.fetchedBytes + item.bytes.length ≤ service.policy.maxFetchBytesPerArticle) :
    Collected service context urls (n + 1) { t with fetched := t.fetched ++ [item] } := by
  have htotal : bodyBytes (s.fetched ++ [item]) = bodyBytes s.fetched + item.bytes.length := by
    rw [bodyBytes, List.map_append, List.sum_append]
    rfl
  refine ⟨⟨hbudget.counted, hbudget.started⟩, ?_, ?_, ?_, ?_⟩
  · rw [hfetched]
    intro other hother
    rcases List.mem_append.mp hother with hold | hnew
    · exact (h.items other hold).mono (Nat.le_succ n)
    · exact List.mem_singleton.mp hnew ▸ hitem
  · rw [hfetched, List.pairwise_append]
    refine ⟨h.ordered, List.pairwise_singleton _ _, fun other hother last hlast => ?_⟩
    rw [List.mem_singleton.mp hlast, hn]
    exact (h.items other hother).occurrence_lt
  · rw [hfetched, htotal]
    exact (Nat.add_le_add_right h.total_le _).trans hbytes.ge
  · rw [hfetched, htotal]
    exact (Nat.add_le_add_right h.total_le _).trans hfits

variable [LawfulClearFragment Url]

/-- **From the head of a response to its input.** -/
theorem acceptResponse_spec {sourceUrl : Url} {preparationId : Uuid} {remaining : ℕ}
    (hn : n < service.policy.maxCountPerArticle) (hsource : urls[n]? = some sourceUrl)
    (hsafe : isSafeAssetUrl sourceUrl = true) (hunsigned : hasProviderSignature sourceUrl = false)
    (hremaining : remaining = service.policy.maxFetchBytesPerArticle - s.fetchedBytes)
    (hleft : remaining ≠ 0) (h : Collected service context urls n s) (response : AssetResponse Url) :
    Tx.Triple (· = s)
      (service.acceptResponse context preparationId n sourceUrl remaining response)
      (fun _ => Collected service context urls (n + 1)) (Collected service context urls (n + 1)) := by
  have hskip : ∀ t, t = s → Collected service context urls (n + 1) t := fun t ht => ht ▸ h.succ
  rw [acceptResponse]
  refine .ite (fun _ => .fail hskip) fun _ => ?_
  split
  · exact .fail hskip
  rename_i mediaType hmedia
  refine .ite (fun _ => .fail hskip) fun _ => ?_
  split
  · exact .fail hskip
  rename_i finalUrl hfinal
  obtain ⟨rfl, hsafeFinal⟩ := validateAssetUrl_eq_some hfinal
  refine .ite (fun _ => .fail hskip) fun hunsignedFinal => ?_
  have hmax := service.policy.maxFetchBytes_le
  have hlimit : s.fetchedBytes + min service.policy.maxAssetSizeBytes remaining ≤ u64Max := by omega
  refine .bind ((readBody_spec hlimit s.fetched response.rest response.chunks []
    (Nat.zero_le _)).mono ?_ (fun _ _ hread => hread) fun t hread => ?_) fun bytes => ?_
  · rintro t rfl
    exact ⟨⟨h.budget, rfl, le_rfl⟩, rfl⟩
  · exact h.succ.same hread.budget hread.fetched_eq hread.start_le
  · refine .ite (fun hsignature => ?_) fun _ => .fail fun t ht =>
      h.succ.same ht.2.1.budget ht.2.1.fetched_eq ht.2.1.start_le
    rintro t ⟨⟨hnonempty, hsize⟩, hread, hbytes⟩
    refine ⟨fun _ u hu => ?_, nofun⟩
    obtain ⟨-, rfl⟩ := Prod.mk.inj hu
    have hoccurrence : n % UInt32.size = n :=
      Nat.mod_eq_of_lt (hn.trans service.policy.maxCount_lt)
    refine h.push ⟨?_, ?_, ?_, hsafe, hunsigned, hsafeFinal, ?_, mediaType_mem hmedia,
      hasSignature_of_matches hsignature, hnonempty, ?_, rfl, rfl, rfl, rfl⟩ hoccurrence
      hread.budget hread.fetched_eq hbytes ?_
    · exact hoccurrence.symm ▸ Nat.lt_succ_self n
    · exact hoccurrence.symm ▸ hn
    · exact (congrArg (urls[·]?) hoccurrence).trans hsource
    · exact Bool.not_eq_true _ ▸ hunsignedFinal
    · exact hsize.trans (Nat.min_le_left _ _)
    · change s.fetchedBytes + bytes.length ≤ _
      omega

/-- **One URL**: at most one more input, and at most one request. -/
theorem fetchAsset_spec {exchange : FetchExchange Url} {sourceUrl : Url}
    (hsource : urls[n]? = some sourceUrl) :
    Tx.Triple (Collected service context urls n)
      (service.fetchAsset context exchange n sourceUrl)
      (fun _ => Collected service context urls (n + 1)) (Collected service context urls (n + 1)) := by
  have hskip : ∀ t, Collected service context urls n t → Collected service context urls (n + 1) t :=
    fun t ht => ht.succ
  rw [fetchAsset]
  refine .ite (fun _ => .fail hskip) fun hn => ?_
  refine .modify_bind (R := Collected service context urls n) ?_ fun s hs =>
    hs.same (hs.budget.passes _) rfl le_rfl
  refine .bind (checkFetchTime_spec .stop fun s hs _ => hs.succ) fun _ => ?_
  refine .read_bind fun s ⟨hs, htime⟩ => .ite (fun _ => .fail ?_) fun hleft => ?_
  · rintro t rfl
    exact hs.succ
  split
  · refine .fail ?_
    rintro t rfl
    exact hs.succ
  rename_i valid hvalid
  obtain ⟨rfl, hsafe⟩ := validateAssetUrl_eq_some hvalid
  refine .ite (fun _ => .fail ?_) fun hunsigned => ?_
  · rintro t rfl
    exact hs.succ
  refine .modify_bind (R := fun t => Collected service context urls n t ∧
    t.fetchedBytes = s.fetchedBytes) ?_ ?_
  swap
  · rintro t rfl
    exact ⟨hs.same (hs.budget.requests htime (by omega) _) rfl le_rfl, rfl⟩
  refine .modify_bind (R := fun t => Collected service context urls n t ∧
    t.fetchedBytes = s.fetchedBytes) ?_ fun t ht =>
      ⟨ht.1.same (ht.1.budget.passes _) rfl le_rfl, ht.2⟩
  rcases exchange.outcome with response | _ | _
  · refine .each fun t ⟨ht, hbytes⟩ => ?_
    refine acceptResponse_spec (not_le.mp hn) hsource hsafe (Bool.not_eq_true _ ▸ hunsigned) ?_ hleft
      ht response
    rw [hbytes]
  · exact .fail fun t ht => ht.1.succ
  · exact .fail fun t ht => ht.1.succ

/-- **The loop.** -/
theorem fetchAssets_collected {exchanges : ℕ → FetchExchange Url} :
    ∀ (rest : List Url) (n : ℕ) (s : FetchState Url), urls.drop n = rest →
      Collected service context urls n s →
      ∃ m, Collected service context urls m (service.fetchAssets context exchanges n rest s)
  | [], n, s, _, h => ⟨n, h⟩
  | sourceUrl :: rest, n, s, hrest, h => by
    have hsource : urls[n]? = some sourceUrl := by
      rw [← List.head?_drop, hrest, List.head?_cons]
    have hdrop : urls.drop (n + 1) = rest := by
      rw [← List.tail_drop, hrest, List.tail_cons]
    have hspec : Tx.Triple (Collected service context urls n)
        (service.fetchAsset context (exchanges n) n sourceUrl)
        (fun _ => Collected service context urls (n + 1))
        (Collected service context urls (n + 1)) := fetchAsset_spec hsource
    rw [fetchAssets]
    rcases hrun : service.fetchAsset context (exchanges n) n sourceUrl s with ⟨(_ | _) | _, t⟩
    · exact fetchAssets_collected rest (n + 1) t hdrop ((hspec s h).2 _ t hrun)
    · exact ⟨n + 1, (hspec s h).2 _ t hrun⟩
    · exact fetchAssets_collected rest (n + 1) t hdrop ((hspec s h).1 _ t hrun)

end Loop

/-! ## What the repository accepts -/

section Accepted

variable [Sha2Crate] [LawfulUrlCrate Url]

omit [Sha2Crate] [LawfulUrlCrate Url] [UrlHosts Url] in
/-- A plain `http` or `https` URL is normalized. -/
theorem normalizeUrl_isOk {url : Url}
    (hscheme : UrlCrate.scheme url = "http" ∨ UrlCrate.scheme url = "https")
    (hhost : UrlCrate.hostStr url ≠ none) (husername : UrlCrate.username url = "")
    (hpassword : UrlCrate.password url = none) (hfragment : UrlCrate.fragment url = none) :
    ∃ normalized, AssetRepository.normalizeUrl url = .ok normalized := by
  rw [AssetRepository.normalizeUrl, if_neg]
  · split_ifs
    · exact ⟨_, rfl⟩
    · exact ⟨_, rfl⟩
  · rw [husername, hpassword, hfragment]
    rintro (hneither | hnone | hname | hword | hmark)
    · exact hscheme.elim hneither.1 hneither.2
    · exact hhost hnone
    · exact hname rfl
    · exact nomatch hword
    · exact nomatch hmark

omit [Sha2Crate] [LawfulUrlCrate Url] in
theorem normalizeUrl_of_isSafe [LawfulUrlHosts Url] {url : Url} (h : isSafeAssetUrl url = true) :
    ∃ normalized, AssetRepository.normalizeUrl url = .ok normalized := by
  obtain ⟨hscheme, husername, hpassword, hfragment, -, host, hhost, -⟩ := isSafeAssetUrl_iff.mp h
  exact normalizeUrl_isOk hscheme (LawfulUrlHosts.hostStr_ne_none url host hhost) husername hpassword
    hfragment

omit [Sha2Crate] [UrlHosts Url] in
/-- The referer is the URL of a public article. -/
theorem isPublicArticle_refererUrl (referer : VerifiedWechatArticleUrl Url) :
    isPublicArticle (refererUrl referer) = true := by
  obtain ⟨url, hurl, hpublic, -⟩ := parse_referer referer
  have heq : refererUrl referer = url := Option.get_of_eq_some _ hurl
  rwa [heq]

omit [Sha2Crate] [UrlHosts Url] in
/-- **The origin of a verified article URL.** -/
theorem originFor_referer (referer : VerifiedWechatArticleUrl Url) :
    originFor Url referer.asStr = some "https://mp.weixin.qq.com" := by
  obtain ⟨url, hurl, hpublic, hport⟩ := parse_referer referer
  rw [isPublicArticle] at hpublic
  simp only [Bool.and_eq_true, beq_iff_eq] at hpublic
  obtain ⟨⟨⟨⟨⟨⟨hscheme, hhost⟩, -⟩, -⟩, -⟩, hdefault⟩, -⟩ := hpublic
  rw [originFor, hurl, Option.bind_some, hhost, Option.map_some, hscheme]
  rcases hvalue : UrlCrate.port url with _ | port
  · rfl
  · rw [hvalue] at hdefault hport
    simp only [Option.any_some, Bool.not_eq_true', decide_eq_false_iff_not, not_not] at hdefault
    exact absurd (congrArg some hdefault) hport

omit [Sha2Crate] in
/-- **A configured user agent is one the repository stores.** -/
theorem isHeaderValue_userAgent {policy : AssetFetchPolicy} {configured userAgent : Option String}
    (h : parseBrowserUserAgent configured = .ok userAgent) :
    AssetRepository.isHeaderValue (AssetArchiveService.new policy userAgent).userAgent = true := by
  rcases configured with _ | value
  · obtain rfl := Except.ok.inj h
    rfl
  · rw [parseBrowserUserAgent] at h
    split_ifs at h with hlength hcontrol
    rw [not_or, not_lt] at hlength
    obtain rfl := Except.ok.inj h
    have hkept : (AssetArchiveService.new policy (some (trim value))).userAgent = some (trim value) :=
      if_pos (decide_eq_true hlength.1)
    rw [hkept, AssetRepository.isHeaderValue, Option.all_some, Bool.and_eq_true, Bool.and_eq_true,
      decide_eq_true_eq, decide_eq_true_eq, Bool.not_eq_true', Bool.eq_false_iff]
    exact ⟨hlength, hcontrol⟩

omit [LawfulUrlCrate Url] in
/-- **The repository accepts what is fetched**, given an origin it stores. -/
theorem Fetched.validateInput [LawfulUrlHosts Url] {service : AssetArchiveService}
    {context : FetchContext Url} {urls : List Url} {n : ℕ} {item : AssetInput Url}
    (h : Fetched service context urls n item) (hreferer : isPublicArticle context.refererUrl = true)
    (horigin : AssetRepository.isHeaderValue context.origin = true)
    (huserAgent : AssetRepository.isHeaderValue service.userAgent = true) :
    AssetRepository.validateInput item service.policy.toAssetCachePolicy = .ok () := by
  rw [isPublicArticle] at hreferer
  simp only [Bool.and_eq_true, beq_iff_eq, Option.isNone_iff_eq_none, Bool.not_eq_true'] at hreferer
  obtain ⟨⟨⟨⟨⟨⟨hscheme, hhost⟩, husername⟩, hpassword⟩, hfragment⟩, -⟩, hunsigned⟩ := hreferer
  obtain ⟨source, hsource⟩ := normalizeUrl_of_isSafe h.safeSource
  obtain ⟨final, hfinal⟩ := normalizeUrl_of_isSafe h.safeFinal
  obtain ⟨referer, hreferer⟩ := normalizeUrl_isOk (.inr hscheme) (by rw [hhost]; exact nofun)
    husername hpassword hfragment
  have hchecksum : item.checksumMatchesBytes = true := by
    rw [AssetInput.checksumMatchesBytes, h.checksum]
    exact beq_self_eq_true _
  have hnonempty : item.bytes.isEmpty = false := by
    rw [List.isEmpty_eq_false_iff]
    exact h.nonempty
  rw [AssetRepository.validateInput]
  simp only [hchecksum, h.unsignedSource, h.unsignedFinal, h.refererUrl, hunsigned, hsource, hfinal,
    hreferer, h.mediaType, hnonempty, h.origin, h.userAgent, horigin, huserAgent,
    not_lt.mpr h.size]
  rfl

variable [LawfulClearFragment Url] [LawfulUrlHosts Url]

/-- **Fetched assets respect every budget and are storable.** -/
theorem fetch_respects_budgets (policy : AssetFetchPolicy) (configured userAgent : Option String)
    (hconfigured : parseBrowserUserAgent configured = .ok userAgent)
    (referer : VerifiedWechatArticleUrl Url) (urls : List Url)
    (capturedOrigin capturedUserAgent : Option String) (exchanges : ℕ → FetchExchange Url) :
    let result := (AssetArchiveService.new policy userAgent).fetchAssetsWithContext referer urls
      capturedOrigin capturedUserAgent exchanges
    (result.fetched.Pairwise fun a b => a.occurrence < b.occurrence) ∧
      (∀ item ∈ result.fetched,
        item.occurrence < policy.maxCountPerArticle ∧
          urls[item.occurrence]? = some item.sourceUrl ∧
          item.bytes ≠ [] ∧ item.bytes.length ≤ policy.maxAssetSizeBytes ∧
          HasSignature item.mediaType item.bytes ∧
          hasProviderSignature item.sourceUrl = false ∧ hasProviderSignature item.finalUrl = false) ∧
      bodyBytes result.fetched ≤ policy.maxFetchBytesPerArticle ∧
      StartedBelow policy.maxFetchBytesPerArticle result.events ∧
      (AssetRepository.isHeaderValue capturedOrigin = true → ∀ item ∈ result.fetched,
        AssetRepository.validateInput item policy.toAssetCachePolicy = .ok ()) := by
  intro result
  have hstart : ∀ context : FetchContext Url, Collected (AssetArchiveService.new policy userAgent)
      context urls 0 ⟨0, 0, [], []⟩ := by
    intro context
    refine ⟨⟨.inr ⟨0, rfl, rfl⟩, fun before request after hsplit => ?_⟩, nofun, .nil, le_rfl,
      Nat.zero_le _⟩
    exact absurd hsplit (by simp)
  obtain ⟨n, hresult⟩ : ∃ n, Collected (AssetArchiveService.new policy userAgent) _ urls n result :=
    fetchAssets_collected urls 0 _ List.drop_zero (hstart _)
  refine ⟨hresult.ordered, fun item hitem => ?_, hresult.total_budget, hresult.budget.started,
    fun hcaptured item hitem => ?_⟩
  · have h := hresult.items item hitem
    exact ⟨h.count, h.source, h.nonempty, h.size, h.signature, h.unsignedSource, h.unsignedFinal⟩
  · refine (hresult.items item hitem).validateInput (isPublicArticle_refererUrl referer) ?_
      (isHeaderValue_userAgent hconfigured)
    change AssetRepository.isHeaderValue (capturedOrigin.or (originFor Url referer.asStr)) = true
    rcases capturedOrigin with _ | origin
    · rw [Option.none_or, originFor_referer]
      decide
    · exact hcaptured

end Accepted

/-! ## Three images in twenty bytes -/

section Samples

attribute [local instance] AssetRepository.plainDigest

instance : LawfulUrlHosts PlainUrl := ⟨fun _ _ _ => nofun⟩

def twentyBytes : AssetFetchPolicy := ⟨⟨0, 0, 100, 10⟩, 20, 1000, by decide, by decide⟩

/-- A response with a PNG image in two chunks. -/
def pngResponse (url : PlainUrl) (chunk : List UInt8) : FetchExchange PlainUrl where
  pause := ⟨1, 1⟩
  outcome := .response ⟨200, some "image/png; q=1", none, url,
    [(⟨1, 1⟩, pngSignature), (⟨1, 1⟩, chunk)], (⟨1, 1⟩, .complete)⟩
  preparationId := ⟨1⟩

/-- The first image has ten bytes; the second is more than what is left. -/
def threeExchanges (occurrence : ℕ) : FetchExchange PlainUrl :=
  if occurrence = 0 then pngResponse cdnImage [1, 2] else pngResponse cdnImage [1, 2, 3, 4]

def articleReferer : VerifiedWechatArticleUrl PlainUrl :=
  ⟨"https://mp.weixin.qq.com/s/a", canonicalArticleUrl_shortLink⟩

def threeFetched : FetchState PlainUrl :=
  (AssetArchiveService.new twentyBytes (some "reader")).fetchAssetsWithContext articleReferer
    [cdnImage, cdnImage, cdnImage] none none threeExchanges

/-- One image is fetched, and the rejected body of the second one leaves no bytes for a third
request. -/
theorem fetch_respects_budgets_three :
    threeFetched.fetched.map (·.occurrence) = [0] ∧ bodyBytes threeFetched.fetched ≤ 20 ∧
      StartedBelow 20 threeFetched.events ∧
      ∀ item ∈ threeFetched.fetched,
        AssetRepository.validateInput item twentyBytes.toAssetCachePolicy = .ok () := by
  obtain ⟨-, -, htotal, hstarted, haccepted⟩ := fetch_respects_budgets twentyBytes
    (some " reader ") (some "reader") (by decide +kernel) articleReferer
    [cdnImage, cdnImage, cdnImage] none none threeExchanges
  exact ⟨by decide +kernel, htotal, hstarted, haccepted rfl⟩

end Samples

end AssetArchiveService

end Werrss
