import Werrss.Persistence.ConfigTransfer

/-!
# Application/ConfigTransfer — bundles on the wire, and what validation accepts

    bytes ──serde──▸ WireConfigBundle ──try_from──▸ ValidatedConfigBundle
                     header, sections   └─ ids, books once · texts, bounds · canonical URLs · size

A validated bundle is one `try_from` returned; **what it returned it accepts again, unchanged**.
-/

open Machinery

namespace Werrss

/-! ## The bundle -/

def configBundleFormat : String := "werrss-config"

def configBundleVersion : UInt32 := 1

/-- 2 MiB. -/
def maxBundleBytes : ℕ := 2 * 1024 * 1024

def maxSectionRecords : ℕ := 1000

/-- The `ConfigBundle` of the wire: the sections and their header. -/
structure WireConfigBundle extends ConfigBundle where
  format : String
  version : UInt32
  exportedAt : DateTime
deriving DecidableEq, Repr

/-- `ConfigBundle::new`. -/
def WireConfigBundle.new (exportedAt : DateTime) (sources : Option (List PortableSource))
    (wereadAccounts : Option (List PortableWeReadAccount)) : WireConfigBundle :=
  ⟨⟨sources, wereadAccounts⟩, configBundleFormat, configBundleVersion, exportedAt⟩

inductive ConfigTransferValidationError
  | payloadTooLarge (size limit : ℕ)
  | json (message : String)
  | unsupportedFormat (format : String)
  | unsupportedVersion (version : UInt32)
  | noSectionsPresent
  | emptySelection
  | sectionTooLarge (sectionName : String) (count limit : ℕ)
  | nilId (field : String)
  | emptyField (field : String)
  | invalidArticleUrl (message : String)
  | invalidNumericBound (field message : String)
  | nonCanonicalBookId (bookId : String)
  | duplicateSourceId (id : Uuid)
  | duplicateBookId (bookId : String)
  | duplicateAccountId (id : Uuid)
deriving DecidableEq, Repr

/-- The display text of the errors of an article URL. -/
def SourceError.text : SourceError → String
  | .emptyArticleUrl => "source article_url must not be empty"
  | .invalidArticleUrl =>
    "source article_url must be an https mp.weixin.qq.com URL without credentials, fragments, or a non-default port"

/-- `ConfigTransferConflict`. -/
structure ConfigTransferConflict where
  kind : String
  sourceId : Option Uuid
  bookId : Option String
  existingSourceId : Option Uuid
  message : String
deriving DecidableEq, Repr

/-- `ConfigTransferConflict::source_book_id`. -/
def ConfigTransferConflict.sourceBookId (sourceId existingSourceId : Uuid) (bookId : String) :
    ConfigTransferConflict where
  kind := "source_book_id_collision"
  sourceId := some sourceId
  bookId := some bookId
  existingSourceId := some existingSourceId
  message := "source '" ++ sourceId.toText ++ "' specifies book_id '" ++ bookId
    ++ "' which is already used by existing source '" ++ existingSourceId.toText ++ "'"

/-- `ImportResult`. -/
structure ImportResult where
  sourcesCreated : ℕ := 0
  sourcesUpdated : ℕ := 0
  accountsCreated : ℕ := 0
  accountsUpdated : ℕ := 0
  placeholdersCreated : ℕ := 0
  accountBindingsPreserved : ℕ := 0
  accountBindingsCleared : ℕ := 0
deriving DecidableEq, Repr

/-- `ImportPreview`: the counters of a result, and the conflicts. -/
structure ImportPreview extends ImportResult where
  conflicts : List ConfigTransferConflict := []
deriving DecidableEq, Repr

/-- The `serde_json` crate, at bundles; an error is its text. -/
class SerdeJsonCrate where
  toVecPretty : WireConfigBundle → Except String (List UInt8)
  fromSlice : List UInt8 → Except String WireConfigBundle

namespace ConfigTransfer

/-! ## Limits -/

/-- A section over the limit. -/
def checkSection (sectionName : String) (count : ℕ) : Except ConfigTransferValidationError Unit :=
  if maxSectionRecords < count then .error (.sectionTooLarge sectionName count maxSectionRecords)
  else .ok ()

/-- `serialize_limited`. -/
def serializeLimited [SerdeJsonCrate] (bundle : WireConfigBundle) :
    Except ConfigTransferValidationError (List UInt8) := do
  checkSection "sources" (bundle.sources.map List.length |>.getD 0)
  checkSection "weread_accounts" (bundle.wereadAccounts.map List.length |>.getD 0)
  match SerdeJsonCrate.toVecPretty bundle with
  | .error message => .error (.json message)
  | .ok bytes =>
    if maxBundleBytes < bytes.length then .error (.payloadTooLarge bytes.length maxBundleBytes)
    else .ok bytes

/-! ## Records -/

section Records

variable (Url : Type) [UrlCrate Url] [LawfulUrlCrate Url]

/-- The canonical text of an optional article URL. -/
def canonicalUrl (articleUrl : Option String) :
    Except ConfigTransferValidationError (Option String) :=
  match articleUrl with
  | none => .ok none
  | some value =>
    match (VerifiedWechatArticleUrl.parse value : Except SourceError (VerifiedWechatArticleUrl Url)) with
    | .error e => .error (.invalidArticleUrl e.text)
    | .ok url => .ok (some url.asStr)

/-- One round of the loop over the sources: the record with its URL in canonical form. -/
def checkSource (seenIds : List Uuid) (seenBookIds : List String) (source : PortableSource) :
    Except ConfigTransferValidationError PortableSource :=
  if source.id = .nil then .error (.nilId "id")
  else if source.id ∈ seenIds then .error (.duplicateSourceId source.id)
  else if isBlank source.bookId then .error (.emptyField "book_id")
  else if source.bookId ≠ trim source.bookId then .error (.nonCanonicalBookId source.bookId)
  else if source.bookId ∈ seenBookIds then .error (.duplicateBookId source.bookId)
  else if isBlank source.displayName then .error (.emptyField "display_name")
  else if source.accountId = some .nil then .error (.nilId "account_id")
  else
    match canonicalUrl Url source.articleUrl with
    | .error e => .error e
    | .ok articleUrl =>
      if source.syncIntervalSeconds ≤ 0 ∨ i64Max / 1000 < source.syncIntervalSeconds.natAbs then
        .error (.invalidNumericBound "sync_interval_seconds"
          "must be positive and representable as a duration")
      else if source.rssItemLimit = 0 then
        .error (.invalidNumericBound "rss_item_limit" "must be positive")
      else if source.maxAttempts = 0 then
        .error (.invalidNumericBound "max_attempts" "must be positive")
      else .ok { source with articleUrl := articleUrl }

/-- The loop over the sources. -/
def checkSources : List Uuid → List String → List PortableSource →
    Except ConfigTransferValidationError (List PortableSource)
  | _, _, [] => .ok []
  | seenIds, seenBookIds, source :: rest => do
    let checked ← checkSource Url seenIds seenBookIds source
    let others ← checkSources (source.id :: seenIds) (source.bookId :: seenBookIds) rest
    return checked :: others

/-- One round of the loop over the accounts. -/
def checkAccount (seenIds : List Uuid) (account : PortableWeReadAccount) :
    Except ConfigTransferValidationError Unit :=
  if account.accountId = .nil then .error (.nilId "account_id")
  else if account.accountId ∈ seenIds then .error (.duplicateAccountId account.accountId)
  else if isBlank account.displayName then .error (.emptyField "display_name")
  else .ok ()

/-- The loop over the accounts. -/
def checkAccounts : List Uuid → List PortableWeReadAccount →
    Except ConfigTransferValidationError Unit
  | _, [] => .ok ()
  | seenIds, account :: rest => do
    checkAccount seenIds account
    checkAccounts (account.accountId :: seenIds) rest

/-- The checked section of sources. -/
def checkSourceSection (sources : Option (List PortableSource)) :
    Except ConfigTransferValidationError (Option (List PortableSource)) :=
  match sources with
  | none => .ok none
  | some sources => do
    checkSection "sources" sources.length
    let checked ← checkSources Url [] [] sources
    return some checked

/-- The check of the section of accounts. -/
def checkAccountSection (accounts : Option (List PortableWeReadAccount)) :
    Except ConfigTransferValidationError Unit :=
  match accounts with
  | none => .ok ()
  | some accounts => do
    checkSection "weread_accounts" accounts.length
    checkAccounts [] accounts

/-- `ValidatedConfigBundle::try_from`. -/
def tryFrom [SerdeJsonCrate] (bundle : WireConfigBundle) :
    Except ConfigTransferValidationError WireConfigBundle := do
  if bundle.format ≠ configBundleFormat then .error (.unsupportedFormat bundle.format)
  else if bundle.version ≠ configBundleVersion then .error (.unsupportedVersion bundle.version)
  else if bundle.sources.isNone ∧ bundle.wereadAccounts.isNone then .error .noSectionsPresent
  else
    let sources ← checkSourceSection Url bundle.sources
    checkAccountSection bundle.wereadAccounts
    let bundle := { bundle with sources := sources }
    let _ ← serializeLimited bundle
    return bundle

/-- `parse_limited`. -/
def parseLimited [SerdeJsonCrate] (bytes : List UInt8) :
    Except ConfigTransferValidationError WireConfigBundle :=
  if maxBundleBytes < bytes.length then .error (.payloadTooLarge bytes.length maxBundleBytes)
  else
    match SerdeJsonCrate.fromSlice bytes with
    | .error message => .error (.json message)
    | .ok bundle => tryFrom Url bundle

end Records

end ConfigTransfer

/-- **A bundle whose size, schema, records and bounds have been checked.** -/
structure ValidatedConfigBundle (Url : Type) [UrlCrate Url] [LawfulUrlCrate Url]
    [SerdeJsonCrate] where
  bundle : WireConfigBundle
  checked : ∃ raw, ConfigTransfer.tryFrom Url raw = .ok bundle

/-! ## What validation establishes -/

section Records

variable (Url : Type) [UrlCrate Url] [LawfulUrlCrate Url]

/-- A text that is its own canonical article URL. -/
def IsCanonicalUrl (value : String) : Prop := canonicalArticleUrl Url value = .ok value

/-- **A source record validation accepts as it is.** -/
structure PortableSource.IsValid (source : PortableSource) : Prop where
  id : source.id ≠ .nil
  bookId : isBlank source.bookId = false ∧ trim source.bookId = source.bookId
  displayName : isBlank source.displayName = false
  accountId : source.accountId ≠ some .nil
  articleUrl : ∀ value ∈ source.articleUrl, IsCanonicalUrl Url value
  syncInterval : 0 < source.syncIntervalSeconds ∧ source.syncIntervalSeconds.natAbs ≤ i64Max / 1000
  rssItemLimit : source.rssItemLimit ≠ 0
  maxAttempts : source.maxAttempts ≠ 0

/-- **An account record validation accepts.** -/
structure PortableWeReadAccount.IsValid (account : PortableWeReadAccount) : Prop where
  id : account.accountId ≠ .nil
  displayName : isBlank account.displayName = false

/-- **Sections validation accepts as they are**: valid records, and no id and no book twice. -/
structure ConfigBundle.IsValid (bundle : ConfigBundle) : Prop where
  source : ∀ sources ∈ bundle.sources, ∀ source ∈ sources, source.IsValid Url
  sourceIds : ∀ sources ∈ bundle.sources, (sources.map (·.id)).Nodup
  bookIds : ∀ sources ∈ bundle.sources, (sources.map (·.bookId)).Nodup
  account : ∀ accounts ∈ bundle.wereadAccounts, ∀ account ∈ accounts, account.IsValid
  accountIds : ∀ accounts ∈ bundle.wereadAccounts, (accounts.map (·.accountId)).Nodup

omit [LawfulUrlCrate Url] in
variable {Url} in
/-- No id and no book comes twice, whichever sections the bundle has. -/
theorem ConfigBundle.IsValid.nodup {bundle : ConfigBundle} (h : bundle.IsValid Url) :
    ((bundle.sources.getD []).map (·.id)).Nodup ∧
      ((bundle.sources.getD []).map (·.bookId)).Nodup ∧
      ((bundle.wereadAccounts.getD []).map (·.accountId)).Nodup := by
  refine ⟨?_, ?_, ?_⟩
  · cases hsection : bundle.sources with
    | none => exact List.nodup_nil
    | some sources => exact h.sourceIds sources hsection
  · cases hsection : bundle.sources with
    | none => exact List.nodup_nil
    | some sources => exact h.bookIds sources hsection
  · cases hsection : bundle.wereadAccounts with
    | none => exact List.nodup_nil
    | some accounts => exact h.accountIds accounts hsection

namespace ConfigTransfer

variable {Url}

theorem canonicalUrl_eq_ok {articleUrl canonical : Option String}
    (h : canonicalUrl Url articleUrl = .ok canonical) :
    ∀ value ∈ canonical, IsCanonicalUrl Url value := by
  intro value hvalue
  unfold canonicalUrl at h
  split at h
  · obtain rfl := Except.ok.inj h
    cases hvalue
  · split at h
    · cases h
    · rename_i url _
      obtain rfl := Except.ok.inj h
      obtain rfl := Option.some.inj hvalue
      exact url.canonical

/-- Canonical URLs stay. -/
theorem canonicalUrl_of_canonical {articleUrl : Option String}
    (h : ∀ value ∈ articleUrl, IsCanonicalUrl Url value) :
    canonicalUrl Url articleUrl = .ok articleUrl := by
  cases articleUrl with
  | none => rfl
  | some value =>
    have hparse := VerifiedWechatArticleUrl.parse_asStr (⟨value, h value rfl⟩ :
      VerifiedWechatArticleUrl Url)
    simp only at hparse
    simp only [canonicalUrl, hparse]

/-- **What a round of the loop accepts**: a valid record of a new id and a new book. -/
theorem checkSource_eq_ok {seenIds : List Uuid} {seenBookIds : List String}
    {source checked : PortableSource} (h : checkSource Url seenIds seenBookIds source = .ok checked) :
    checked.IsValid Url ∧ checked.id = source.id ∧ checked.bookId = source.bookId ∧
      source.id ∉ seenIds ∧ source.bookId ∉ seenBookIds := by
  cases hurl : canonicalUrl Url source.articleUrl with
  | error e =>
    simp only [checkSource, hurl] at h
    split_ifs at h
  | ok articleUrl =>
    simp only [checkSource, hurl] at h
    split_ifs at h with hid hseen hblank htrim hbook hname haccount hinterval hlimit hattempts
    obtain rfl := Except.ok.inj h
    rw [not_or, not_le, not_lt] at hinterval
    exact ⟨⟨hid, ⟨by simpa using hblank, (not_not.mp htrim).symm⟩, by simpa using hname, haccount,
      canonicalUrl_eq_ok hurl, hinterval, hlimit, hattempts⟩, rfl, rfl, hseen, hbook⟩

/-- A valid record passes unchanged. -/
theorem checkSource_of_isValid {seenIds : List Uuid} {seenBookIds : List String}
    {source : PortableSource} (h : source.IsValid Url) (hid : source.id ∉ seenIds)
    (hbook : source.bookId ∉ seenBookIds) :
    checkSource Url seenIds seenBookIds source = .ok source := by
  have hinterval : ¬ (source.syncIntervalSeconds ≤ 0 ∨
      i64Max / 1000 < source.syncIntervalSeconds.natAbs) := by
    rw [not_or, not_le, not_lt]
    exact h.syncInterval
  unfold checkSource
  simp only [h.id, hid, h.bookId.1, h.bookId.2, hbook, h.displayName, h.accountId,
    canonicalUrl_of_canonical h.articleUrl, hinterval, h.rssItemLimit, h.maxAttempts, if_false,
    Bool.false_eq_true, ne_eq, not_true_eq_false]

theorem checkSources_eq_ok {seenIds : List Uuid} {seenBookIds : List String}
    {sources checked : List PortableSource}
    (h : checkSources Url seenIds seenBookIds sources = .ok checked) :
    (∀ source ∈ checked, source.IsValid Url) ∧
      (checked.map (·.id)).Nodup ∧ (∀ id ∈ checked.map (·.id), id ∉ seenIds) ∧
      (checked.map (·.bookId)).Nodup ∧ ∀ bookId ∈ checked.map (·.bookId), bookId ∉ seenBookIds := by
  induction sources generalizing seenIds seenBookIds checked with
  | nil =>
    obtain rfl := Except.ok.inj h
    simp
  | cons source rest ih =>
    obtain ⟨first, hfirst, h⟩ := bind_eq_ok h
    obtain ⟨others, hothers, h⟩ := bind_eq_ok h
    obtain rfl := Except.ok.inj h
    obtain ⟨hvalid, hid, hbook, hnewId, hnewBook⟩ := checkSource_eq_ok hfirst
    obtain ⟨hrest, hids, hseenIds, hbooks, hseenBooks⟩ := ih hothers
    simp only [List.map_cons, List.nodup_cons, List.forall_mem_cons, hid, hbook]
    refine ⟨⟨hvalid, hrest⟩, ⟨fun hmem => ?_, hids⟩, ⟨hnewId, fun id hmem hseen => ?_⟩,
      ⟨fun hmem => ?_, hbooks⟩, hnewBook, fun bookId hmem hseen => ?_⟩
    · exact hseenIds _ hmem (List.mem_cons_self ..)
    · exact hseenIds id hmem (List.mem_cons_of_mem _ hseen)
    · exact hseenBooks _ hmem (List.mem_cons_self ..)
    · exact hseenBooks bookId hmem (List.mem_cons_of_mem _ hseen)

theorem checkSources_of_isValid {seenIds : List Uuid} {seenBookIds : List String}
    {sources : List PortableSource} (hvalid : ∀ source ∈ sources, source.IsValid Url)
    (hids : (sources.map (·.id)).Nodup) (hnewIds : ∀ source ∈ sources, source.id ∉ seenIds)
    (hbooks : (sources.map (·.bookId)).Nodup)
    (hnewBooks : ∀ source ∈ sources, source.bookId ∉ seenBookIds) :
    checkSources Url seenIds seenBookIds sources = .ok sources := by
  induction sources generalizing seenIds seenBookIds with
  | nil => rfl
  | cons source rest ih =>
    simp only [List.map_cons, List.nodup_cons, List.mem_map, not_exists, not_and,
      List.forall_mem_cons] at hvalid hids hnewIds hbooks hnewBooks
    have hrest : checkSources Url (source.id :: seenIds) (source.bookId :: seenBookIds) rest
        = .ok rest := by
      refine ih hvalid.2 hids.2 (fun other hother hmem => ?_) hbooks.2 fun other hother hmem => ?_
      · rcases List.mem_cons.mp hmem with heq | hmem
        · exact hids.1 other hother heq
        · exact hnewIds.2 other hother hmem
      · rcases List.mem_cons.mp hmem with heq | hmem
        · exact hbooks.1 other hother heq
        · exact hnewBooks.2 other hother hmem
    rw [checkSources, checkSource_of_isValid hvalid.1 hnewIds.1 hnewBooks.1, ok_bind, hrest, ok_bind]
    rfl

theorem checkAccounts_eq_ok {seenIds : List Uuid} {accounts : List PortableWeReadAccount}
    {u : Unit} (h : checkAccounts seenIds accounts = .ok u) :
    (∀ account ∈ accounts, account.IsValid) ∧ (accounts.map (·.accountId)).Nodup ∧
      ∀ id ∈ accounts.map (·.accountId), id ∉ seenIds := by
  induction accounts generalizing seenIds with
  | nil => simp
  | cons account rest ih =>
    obtain ⟨_, hfirst, h⟩ := bind_eq_ok h
    obtain ⟨hrest, hids, hseen⟩ := ih h
    unfold checkAccount at hfirst
    split_ifs at hfirst with hid hnew hname
    simp only [List.map_cons, List.nodup_cons, List.forall_mem_cons]
    refine ⟨⟨⟨hid, by simpa using hname⟩, hrest⟩, ⟨fun hmem => ?_, hids⟩, hnew,
      fun id hmem hold => ?_⟩
    · exact hseen _ hmem (List.mem_cons_self ..)
    · exact hseen id hmem (List.mem_cons_of_mem _ hold)

theorem checkAccounts_of_isValid {seenIds : List Uuid} {accounts : List PortableWeReadAccount}
    (hvalid : ∀ account ∈ accounts, account.IsValid) (hids : (accounts.map (·.accountId)).Nodup)
    (hnew : ∀ account ∈ accounts, account.accountId ∉ seenIds) :
    checkAccounts seenIds accounts = .ok () := by
  induction accounts generalizing seenIds with
  | nil => rfl
  | cons account rest ih =>
    simp only [List.map_cons, List.nodup_cons, List.mem_map, not_exists, not_and,
      List.forall_mem_cons] at hvalid hids hnew
    have hfirst : checkAccount seenIds account = .ok () := by
      simp only [checkAccount, hvalid.1.id, hnew.1, hvalid.1.displayName, if_false,
        Bool.false_eq_true]
    rw [checkAccounts, hfirst, ok_bind]
    refine ih hvalid.2 hids.2 fun other hother hmem => ?_
    rcases List.mem_cons.mp hmem with heq | hmem
    · exact hids.1 other hother heq
    · exact hnew.2 other hother hmem

theorem checkSection_eq_ok {sectionName : String} {count : ℕ} {u : Unit}
    (h : checkSection sectionName count = .ok u) : count ≤ maxSectionRecords := by
  unfold checkSection at h
  split_ifs at h with hlarge
  exact not_lt.mp hlarge

theorem checkSection_of_le {sectionName : String} {count : ℕ} (h : count ≤ maxSectionRecords) :
    checkSection sectionName count = .ok () := if_neg (not_lt.mpr h)

variable [SerdeJsonCrate]

/-- **What `try_from` returns is valid**, of the one format and version, and fits the limits. -/
theorem tryFrom_eq_ok {raw bundle : WireConfigBundle} (h : tryFrom Url raw = .ok bundle) :
    bundle.toConfigBundle.IsValid Url ∧ bundle.format = configBundleFormat ∧
      bundle.version = configBundleVersion ∧
      (bundle.sources.isSome ∨ bundle.wereadAccounts.isSome) ∧
      ∃ bytes, serializeLimited bundle = .ok bytes := by
  unfold tryFrom at h
  split_ifs at h with hformat hversion hnone
  obtain ⟨sources, hsources, h⟩ := bind_eq_ok h
  obtain ⟨_, haccounts, h⟩ := bind_eq_ok h
  obtain ⟨bytes, hbytes, h⟩ := bind_eq_ok h
  obtain rfl := Except.ok.inj h
  have hvalidAccounts : ∀ accounts ∈ raw.wereadAccounts,
      (∀ account ∈ accounts, account.IsValid) ∧ (accounts.map (·.accountId)).Nodup := by
    intro accounts hmem
    rw [hmem, checkAccountSection] at haccounts
    obtain ⟨_, -, hchecked⟩ := bind_eq_ok haccounts
    exact ⟨(checkAccounts_eq_ok hchecked).1, (checkAccounts_eq_ok hchecked).2.1⟩
  have hvalidSources : ∀ section' ∈ sources, (∀ source ∈ section', source.IsValid Url) ∧
      (section'.map (·.id)).Nodup ∧ (section'.map (·.bookId)).Nodup := by
    intro section' hmem
    unfold checkSourceSection at hsources
    split at hsources
    · obtain rfl := Except.ok.inj hsources
      cases hmem
    · obtain ⟨_, -, hsources⟩ := bind_eq_ok hsources
      obtain ⟨checked, hchecked, hsources⟩ := bind_eq_ok hsources
      obtain rfl := Except.ok.inj hsources
      obtain rfl := Option.some.inj hmem
      obtain ⟨hvalid, hids, -, hbooks, -⟩ := checkSources_eq_ok hchecked
      exact ⟨hvalid, hids, hbooks⟩
  have hpresent : sources.isSome ∨ raw.wereadAccounts.isSome := by
    cases hraw : raw.sources with
    | none =>
      refine .inr (Option.isSome_iff_ne_none.mpr fun haccount => hnone ⟨?_, ?_⟩)
      · rw [hraw]
        rfl
      · rw [haccount]
        rfl
    | some list =>
      rw [hraw, checkSourceSection] at hsources
      obtain ⟨_, -, hsources⟩ := bind_eq_ok hsources
      obtain ⟨checked, -, hsources⟩ := bind_eq_ok hsources
      obtain rfl := Except.ok.inj hsources
      exact .inl rfl
  exact ⟨⟨fun l hl => (hvalidSources l hl).1, fun l hl => (hvalidSources l hl).2.1,
    fun l hl => (hvalidSources l hl).2.2, fun l hl => (hvalidAccounts l hl).1,
    fun l hl => (hvalidAccounts l hl).2⟩, not_not.mp hformat, not_not.mp hversion, hpresent, bytes,
    hbytes⟩

theorem serializeLimited_eq_ok {bundle : WireConfigBundle} {bytes : List UInt8}
    (h : serializeLimited bundle = .ok bytes) :
    (∀ sources ∈ bundle.sources, sources.length ≤ maxSectionRecords) ∧
      (∀ accounts ∈ bundle.wereadAccounts, accounts.length ≤ maxSectionRecords) ∧
      SerdeJsonCrate.toVecPretty bundle = .ok bytes ∧ bytes.length ≤ maxBundleBytes := by
  obtain ⟨_, hsources, h⟩ := bind_eq_ok h
  obtain ⟨_, haccounts, h⟩ := bind_eq_ok h
  split at h
  · cases h
  · rename_i written hwritten
    split_ifs at h with hlarge
    obtain rfl := Except.ok.inj h
    refine ⟨fun sources hmem => ?_, fun accounts hmem => ?_, hwritten, not_lt.mp hlarge⟩
    · have hcount := checkSection_eq_ok hsources
      rwa [hmem] at hcount
    · have hcount := checkSection_eq_ok haccounts
      rwa [hmem] at hcount

/-- **Valid sections under the one header that fit the limits are accepted as they are.** -/
theorem tryFrom_of_isValid {bundle : WireConfigBundle} {bytes : List UInt8}
    (hvalid : bundle.toConfigBundle.IsValid Url) (hformat : bundle.format = configBundleFormat)
    (hversion : bundle.version = configBundleVersion)
    (hpresent : bundle.sources.isSome ∨ bundle.wereadAccounts.isSome)
    (hbytes : serializeLimited bundle = .ok bytes) : tryFrom Url bundle = .ok bundle := by
  obtain ⟨hsourceCount, haccountCount, -, -⟩ := serializeLimited_eq_ok hbytes
  have hsources : checkSourceSection Url bundle.sources = .ok bundle.sources := by
    cases hsection : bundle.sources with
    | none => rfl
    | some sources =>
      rw [checkSourceSection, checkSection_of_le (hsourceCount sources hsection), ok_bind,
        checkSources_of_isValid (hvalid.source sources hsection) (hvalid.sourceIds sources hsection)
          (fun _ _ => List.not_mem_nil) (hvalid.bookIds sources hsection)
          (fun _ _ => List.not_mem_nil), ok_bind]
      rfl
  have haccounts : checkAccountSection bundle.wereadAccounts = .ok () := by
    cases hsection : bundle.wereadAccounts with
    | none => rfl
    | some accounts =>
      rw [checkAccountSection, checkSection_of_le (haccountCount accounts hsection), ok_bind]
      exact checkAccounts_of_isValid (hvalid.account accounts hsection)
        (hvalid.accountIds accounts hsection) fun _ _ => List.not_mem_nil
  have hsome : ¬ (bundle.sources.isNone = true ∧ bundle.wereadAccounts.isNone = true) := by
    rintro ⟨hnoSources, hnoAccounts⟩
    rw [Option.isNone_iff_eq_none] at hnoSources hnoAccounts
    rw [hnoSources, hnoAccounts] at hpresent
    simp at hpresent
  rw [tryFrom, if_neg (not_not.mpr hformat), if_neg (not_not.mpr hversion), if_neg hsome, hsources,
    ok_bind, haccounts, ok_bind]
  simp only [hbytes, ok_bind]
  rfl

end ConfigTransfer

variable {Url} [SerdeJsonCrate]

theorem ValidatedConfigBundle.isValid (validated : ValidatedConfigBundle Url) :
    validated.bundle.toConfigBundle.IsValid Url := by
  obtain ⟨raw, hraw⟩ := validated.checked
  exact (ConfigTransfer.tryFrom_eq_ok hraw).1

/-- **Validation accepts what it returned, unchanged.** -/
theorem ValidatedConfigBundle.tryFrom_eq (validated : ValidatedConfigBundle Url) :
    ConfigTransfer.tryFrom Url validated.bundle = .ok validated.bundle := by
  obtain ⟨raw, hraw⟩ := validated.checked
  obtain ⟨hvalid, hformat, hversion, hpresent, bytes, hbytes⟩ := ConfigTransfer.tryFrom_eq_ok hraw
  exact ConfigTransfer.tryFrom_of_isValid hvalid hformat hversion hpresent hbytes

end Records

end Werrss
