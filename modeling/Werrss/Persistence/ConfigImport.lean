import Mathlib.Data.List.Sort
import Werrss.Application.ConfigTransfer

/-!
# Persistence/ConfigImport — preview, import and export of a configuration

    preview   every record against the tables as they are
    apply     every record against what the records before it left ─▸ commit ┊ roll back
    export    portable columns, ordered by name

The counters are those the administrator sees.  Every statement reads a clock of its own, and a text
with a NUL is refused by the statement that binds it.  **With one clock, the tables an import leaves
are those of `ConfigTransfer.apply`.**
-/

open Machinery

namespace Werrss

inductive ConfigTransferRepositoryError
  | conflict (conflict : ConfigTransferConflict)
  | validation (error : ConfigTransferValidationError)
  | storage (message : String)
deriving DecidableEq, Repr

/-- The clock readings of an import: when the row of an account is read and when its sources are
resumed, when all accounts are read, and when a source is written. -/
structure ImportClock where
  selected : Uuid → DateTime
  resumed : Uuid → DateTime
  states : DateTime
  written : Uuid → DateTime

/-- All statements at one instant. -/
def ImportClock.constant (clock : DateTime) : ImportClock :=
  ⟨fun _ => clock, fun _ => clock, clock, fun _ => clock⟩

namespace ConfigTransfer

open CredentialRepository

/-! ## Preview -/

/-- One account: known ones are updated, others become placeholders. -/
def previewAccount (progress : ImportPreview × List Uuid) (account : PortableWeReadAccount) :
    ImportPreview × List Uuid :=
  if account.accountId ∈ progress.2 then
    ({ progress.1 with accountsUpdated := progress.1.accountsUpdated + 1 }, progress.2)
  else
    ({ progress.1 with
        accountsCreated := progress.1.accountsCreated + 1
        placeholdersCreated := progress.1.placeholdersCreated + 1 },
      account.accountId :: progress.2)

/-- `existing_sources_by_book_id`. -/
def sourcesByBookId (sources : List SourceRow) : String → Option Uuid :=
  sources.foldl (fun byBookId row => Function.update byBookId row.bookId (some row.id)) fun _ => none

/-- The counters of a source: by its id, and by the account it is bound to. -/
def countSource (known exists' : Bool) (source : PortableSource) (result : ImportResult) :
    ImportResult :=
  { result with
    sourcesCreated := if exists' then result.sourcesCreated else result.sourcesCreated + 1
    sourcesUpdated := if exists' then result.sourcesUpdated + 1 else result.sourcesUpdated
    accountBindingsPreserved :=
      if source.accountId.isSome ∧ known then result.accountBindingsPreserved + 1
      else result.accountBindingsPreserved
    accountBindingsCleared :=
      if source.accountId.isSome ∧ ¬known then result.accountBindingsCleared + 1
      else result.accountBindingsCleared }

/-- One source of the preview, against the sources as they are. -/
def previewSource (sources : List SourceRow) (knownAccountIds : List Uuid) (preview : ImportPreview)
    (source : PortableSource) : ImportPreview :=
  let idExists := decide (source.id ∈ sources.map (·.id))
  let conflicts :=
    match sourcesByBookId sources source.bookId with
    | none => []
    | some existing =>
      if idExists = true ∧ existing = source.id then []
      else [ConfigTransferConflict.sourceBookId source.id existing source.bookId]
  { countSource (source.accountId.any (· ∈ knownAccountIds)) idExists source preview.toImportResult with
    conflicts := preview.conflicts ++ conflicts }

/-- `preview`. -/
def preview (tables : AccountTables) (bundle : ConfigBundle) : ImportPreview :=
  let progress := (bundle.wereadAccounts.getD []).foldl previewAccount
    ({}, tables.accounts.map (·.accountId))
  (bundle.sources.getD []).foldl (previewSource tables.sources progress.2) progress.1

/-! ## Import -/

/-- A text PostgreSQL stores. -/
def isStorable (text : String) : Bool := decide ('\x00' ∉ text.toList)

/-- A statement that binds these texts. -/
def bindTexts (texts : List String) : Except ConfigTransferRepositoryError Unit :=
  if texts.all isStorable then .ok ()
  else .error (.storage
    "error returned from database: invalid byte sequence for encoding \"UTF8\": 0x00")

/-- One account of `apply_transaction`. -/
def importAccount (clock : ImportClock) (progress : ImportResult × AccountTables)
    (account : PortableWeReadAccount) :
    Except ConfigTransferRepositoryError (ImportResult × AccountTables) := do
  bindTexts [account.displayName]
  match findAccount progress.2.accounts account.accountId with
  | some existing =>
    let updated : AccountTables :=
      { progress.2 with
        accounts := Rows.update AccountRow.accountId progress.2.accounts account.accountId fun row =>
          { row with displayName := account.displayName, disabled := !account.enabled } }
    let credentialsUsable := existing.accessExpiresAt.any fun expiresAt =>
      decide (clock.selected account.accountId < expiresAt)
    let tables :=
      if !existing.setupRequired && existing.disabled && account.enabled && credentialsUsable then
        resumeAuthenticationGatedSources updated account.accountId (clock.resumed account.accountId)
      else updated
    return ({ progress.1 with accountsUpdated := progress.1.accountsUpdated + 1 }, tables)
  | none =>
    return ({ progress.1 with
        accountsCreated := progress.1.accountsCreated + 1
        placeholdersCreated := progress.1.placeholdersCreated + 1 },
      { progress.2 with
        accounts := progress.2.accounts ++
          [⟨account.accountId, account.displayName, none, none, 1, !account.enabled, true⟩] })

/-- The account a source stays bound to. -/
def resolvedAccountId (states : Uuid → Option Bool) (source : PortableSource) : Option Uuid :=
  source.accountId.filter fun accountId => (states accountId).isSome

/-- Another source has this book. -/
def conflictRow (sources : List SourceRow) (source : PortableSource) : Option SourceRow :=
  sources.find? fun row => decide (row.bookId = source.bookId ∧ row.id ≠ source.id)

/-- The rows an import of a source leaves, once it is known that it may be written. -/
def writtenSources (clock : ImportClock) (states : Uuid → Option Bool) (sources : List SourceRow)
    (source : PortableSource) : List SourceRow :=
  let resolved := resolvedAccountId states source
  match findSource sources source.id with
  | some existing =>
    Rows.update SourceRow.id sources source.id
      (importedRow (clock.written source.id) source resolved (resolved.bind states) existing)
  | none =>
    sources ++ [createdRow (clock.written source.id) source resolved (resolved.bind states)]

/-- The revision of a known source cannot be advanced, and would have to be. -/
def isExhausted (existing : Option SourceRow) (source : PortableSource) : Bool :=
  existing.any fun row => feedVisibleChanged row source && decide (row.feedRevision = i64Max)

/-- One source of `apply_transaction`, against the sources as they are by now. -/
def importSource (clock : ImportClock) (states : Uuid → Option Bool)
    (progress : ImportResult × List SourceRow) (source : PortableSource) :
    Except ConfigTransferRepositoryError (ImportResult × List SourceRow) := do
  bindTexts [source.bookId]
  match conflictRow progress.2 source with
  | some conflict =>
    .error (.conflict (ConfigTransferConflict.sourceBookId source.id conflict.id source.bookId))
  | none =>
    if isExhausted (findSource progress.2 source.id) source then
      .error (.storage "feed revision exhausted")
    else
      bindTexts (source.displayName :: source.articleUrl.toList)
      return (countSource (source.accountId.any fun accountId => (states accountId).isSome)
          (findSource progress.2 source.id).isSome source progress.1,
        writtenSources clock states progress.2 source)

/-- `apply_transaction`. -/
def applyTransaction (clock : ImportClock) (tables : AccountTables) (bundle : ConfigBundle) :
    Except ConfigTransferRepositoryError (ImportResult × AccountTables) := do
  let progress ← (bundle.wereadAccounts.getD []).foldlM (importAccount clock) ({}, tables)
  let written ← (bundle.sources.getD []).foldlM
    (importSource clock (accountState clock.states progress.2.accounts))
    (progress.1, progress.2.sources)
  return (written.1, { progress.2 with sources := written.2 })

/-- `PostgresConfigTransferRepository::apply`: committed as a whole, or rolled back. -/
def applyBundle (clock : ImportClock) (tables : AccountTables) (bundle : ConfigBundle) :
    Except ConfigTransferRepositoryError ImportResult × AccountTables :=
  match applyTransaction clock tables bundle with
  | .error e => (.error e, tables)
  | .ok (result, tables) => (.ok result, tables)

/-! ## Export -/

/-- `ConfigExportSelection`. -/
structure ConfigExportSelection where
  sources : Bool
  wereadAccounts : Bool
deriving DecidableEq, Repr

/-- The database's order of texts. -/
class Collation where
  le : String → String → Bool

/-- `ORDER BY display_name ASC, id ASC LIMIT 1001`. -/
def orderedRows {R : Type} [Collation] (name : R → String) (id : R → Uuid) (rows : List R) :
    List R :=
  (rows.insertionSort fun a b => (Collation.le (name a) (name b) && (!Collation.le (name b) (name a)
    || decide ((id a).value ≤ (id b).value))) = true).take (maxSectionRecords + 1)

/-- A portable row of `sources`. -/
def portableSource (row : SourceRow) : Except ConfigTransferRepositoryError PortableSource :=
  if ¬(0 ≤ row.rssItemLimit ∧ row.rssItemLimit < UInt32.size) then
    .error (.validation (.invalidNumericBound "rss_item_limit" "exceeds u32 limit"))
  else if ¬(0 ≤ row.maxAttempts ∧ row.maxAttempts < UInt32.size) then
    .error (.validation (.invalidNumericBound "max_attempts" "exceeds u32 limit"))
  else .ok
    { id := row.id
      bookId := row.bookId
      displayName := row.displayName
      articleUrl := row.articleUrl
      accountId := row.accountId
      enabled := row.enabled
      syncIntervalSeconds := row.syncIntervalSeconds
      rssItemLimit := UInt32.ofNat row.rssItemLimit.toNat
      priority := row.priority
      maxAttempts := UInt32.ofNat row.maxAttempts.toNat }

/-- A portable row of `weread_accounts`. -/
def portableAccount (row : AccountRow) : PortableWeReadAccount :=
  ⟨row.accountId, row.displayName, !row.disabled⟩

/-- A section of more rows than a bundle holds. -/
def checkExported (sectionName : String) (count : ℕ) : Except ConfigTransferRepositoryError Unit :=
  if maxSectionRecords < count then
    .error (.validation (.sectionTooLarge sectionName count maxSectionRecords))
  else .ok ()

/-- The section of sources. -/
def exportSources [Collation] (sources : List SourceRow) :
    Except ConfigTransferRepositoryError (List PortableSource) := do
  let rows := orderedRows SourceRow.displayName SourceRow.id sources
  checkExported "sources" rows.length
  rows.mapM portableSource

/-- The section of accounts. -/
def exportAccounts [Collation] (accounts : List AccountRow) :
    Except ConfigTransferRepositoryError (List PortableWeReadAccount) := do
  let rows := orderedRows AccountRow.displayName AccountRow.accountId accounts
  checkExported "weread_accounts" rows.length
  return rows.map portableAccount

/-- A section that is not selected is absent. -/
def selectSection {A : Type} (selected : Bool)
    (exported : Except ConfigTransferRepositoryError A) :
    Except ConfigTransferRepositoryError (Option A) :=
  if selected then exported.map some else .ok none

/-- `export`. -/
def exportBundle [Collation] [SerdeJsonCrate] (tables : AccountTables)
    (selection : ConfigExportSelection) (now : DateTime) :
    Except ConfigTransferRepositoryError WireConfigBundle := do
  if selection.sources = false ∧ selection.wereadAccounts = false then
    .error (.validation .emptySelection)
  else
    let sources ← selectSection selection.sources (exportSources tables.sources)
    let accounts ← selectSection selection.wereadAccounts (exportAccounts tables.accounts)
    let bundle := WireConfigBundle.new now sources accounts
    match serializeLimited bundle with
    | .error e => .error (.validation e)
    | .ok _ => return bundle

/-! ## One clock -/

/-- An import of an account leaves what `applyAccount` leaves. -/
theorem importAccount_constant {clock : DateTime} {progress progress' : ImportResult × AccountTables}
    {account : PortableWeReadAccount}
    (h : importAccount (.constant clock) progress account = .ok progress') :
    progress'.2 = applyAccount clock progress.2 account := by
  obtain ⟨_, -, h⟩ := bind_eq_ok h
  unfold applyAccount
  cases hexisting : findAccount progress.2.accounts account.accountId with
  | some existing =>
    rw [hexisting] at h
    obtain rfl := Except.ok.inj h
    rfl
  | none =>
    rw [hexisting] at h
    obtain rfl := Except.ok.inj h
    rfl

theorem importSource_constant {clock : DateTime} {accounts : List AccountRow}
    {progress progress' : ImportResult × List SourceRow} {source : PortableSource}
    (h : importSource (.constant clock) (accountState clock accounts) progress source
      = .ok progress') :
    applySource clock accounts progress.2 source = some progress'.2 := by
  obtain ⟨_, -, h⟩ := bind_eq_ok h
  split at h
  · cases h
  rename_i hconflict
  split_ifs at h with hexhausted
  obtain ⟨_, -, h⟩ := bind_eq_ok h
  obtain rfl := Except.ok.inj h
  have hfree : ¬ (progress.2.any fun row =>
      decide (row.bookId = source.bookId ∧ row.id ≠ source.id)) = true := by
    rw [List.any_eq_true]
    rintro ⟨row, hmem, hrow⟩
    exact List.find?_eq_none.mp hconflict row hmem hrow
  unfold applySource writtenSources
  simp only
  rw [if_neg hfree]
  cases hexisting : findSource progress.2 source.id with
  | none => rfl
  | some existing =>
    rw [hexisting] at hexhausted
    have hadvances : ¬ (feedVisibleChanged existing source = true ∧
        existing.feedRevision = i64Max) := fun hboth =>
      hexhausted (by simp [isExhausted, hboth.1, hboth.2])
    simp only
    rw [if_neg hadvances]
    rfl

/-- **With one clock, the tables an import leaves are those of `apply`.** -/
theorem apply_of_applyTransaction {clock : DateTime} {tables tables' : AccountTables}
    {bundle : ConfigBundle} {result : ImportResult}
    (h : applyTransaction (.constant clock) tables bundle = .ok (result, tables')) :
    apply tables bundle clock = some tables' := by
  obtain ⟨progress, haccounts, h⟩ := bind_eq_ok h
  obtain ⟨written, hsources, h⟩ := bind_eq_ok h
  obtain ⟨rfl, rfl⟩ := Prod.mk.inj (Except.ok.inj h)
  have hleft : ∀ (accounts : List PortableWeReadAccount) (start : ImportResult × AccountTables),
      accounts.foldlM (importAccount (.constant clock)) start = .ok progress →
      progress.2 = accounts.foldl (applyAccount clock) start.2 := by
    intro accounts
    induction accounts with
    | nil =>
      intro start hstart
      obtain rfl := Except.ok.inj hstart
      rfl
    | cons account rest ih =>
      intro start hstart
      rw [List.foldlM_cons] at hstart
      obtain ⟨next, hnext, hrest⟩ := bind_eq_ok hstart
      rw [ih next hrest, importAccount_constant hnext]
      rfl
  have hright : ∀ (sources : List PortableSource) (start : ImportResult × List SourceRow),
      sources.foldlM (importSource (.constant clock)
        (accountState clock progress.2.accounts)) start = .ok written →
      applySources clock progress.2.accounts start.2 sources = some written.2 := by
    intro sources
    induction sources with
    | nil =>
      intro start hstart
      obtain rfl := Except.ok.inj hstart
      rfl
    | cons source rest ih =>
      intro start hstart
      rw [List.foldlM_cons] at hstart
      obtain ⟨next, hnext, hrest⟩ := bind_eq_ok hstart
      rw [applySources, importSource_constant hnext]
      exact ih next hrest
  unfold apply
  rw [← hleft _ _ haccounts]
  simp only
  rw [hright _ _ hsources, Option.map_some]

end ConfigTransfer

end Werrss
