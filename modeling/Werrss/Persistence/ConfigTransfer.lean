import Werrss.Persistence.CredentialRepository

/-!
# Persistence/ConfigTransfer — importing a configuration bundle

    accounts ── known: label and pause, maybe waking sources     new: a placeholder
    sources  ── known: editable fields, gate by account          new: a row, gate by account

One transaction applies both sections.  The gate of an imported source follows the account it is
bound to, **except that `risk_controlled` stays**.
-/

open Machinery

namespace Werrss

/-- `PortableWeReadAccount`. -/
structure PortableWeReadAccount where
  accountId : Uuid
  displayName : String
  enabled : Bool
deriving DecidableEq, Repr

/-- `PortableSource`. -/
structure PortableSource where
  id : Uuid
  bookId : String
  displayName : String
  articleUrl : Option String
  accountId : Option Uuid
  enabled : Bool
  syncIntervalSeconds : ℤ
  rssItemLimit : UInt32
  priority : ℤ
  maxAttempts : UInt32
deriving DecidableEq, Repr

/-- The sections of a `ConfigBundle`. -/
structure ConfigBundle where
  sources : Option (List PortableSource)
  wereadAccounts : Option (List PortableWeReadAccount)
deriving DecidableEq, Repr

namespace ConfigTransfer

open CredentialRepository

/-- `imported_source_gate`. -/
def importedSourceGate (existingGate : Option SchedulingGate) (accountUsable : Option Bool) :
    SchedulingGate :=
  if existingGate = some .riskControlled then .riskControlled
  else if accountUsable = some false then .authenticationRequired
  else .ready

/-- One account of the bundle. -/
def applyAccount (clock : DateTime) (tables : AccountTables) (account : PortableWeReadAccount) :
    AccountTables :=
  match findAccount tables.accounts account.accountId with
  | some existing =>
    let updated : AccountTables :=
      { tables with
        accounts := Rows.update AccountRow.accountId tables.accounts account.accountId fun row =>
          { row with displayName := account.displayName, disabled := !account.enabled } }
    if !existing.setupRequired && existing.disabled && account.enabled
        && existing.accessExpiresAt.any (fun expiresAt => decide (clock < expiresAt)) then
      resumeAuthenticationGatedSources updated account.accountId clock
    else updated
  | none =>
    { tables with
      accounts := tables.accounts ++
        [⟨account.accountId, account.displayName, none, none, 1, !account.enabled, true⟩] }

/-- Whether an account can be used, as the import sees all of them at once. -/
def accountState (clock : DateTime) (accounts : List AccountRow) (accountId : Uuid) : Option Bool :=
  (findAccount accounts accountId).map (isUsable clock)

/-- The rendered feed changes. -/
def feedVisibleChanged (existing : SourceRow) (source : PortableSource) : Bool :=
  decide (existing.bookId ≠ source.bookId ∨ existing.displayName ≠ source.displayName
    ∨ existing.articleUrl ≠ source.articleUrl
    ∨ existing.rssItemLimit ≠ source.rssItemLimit.toNat)

/-- The columns an import writes to a known source. -/
def importedRow (clock : DateTime) (source : PortableSource) (resolvedAccountId : Option Uuid)
    (accountUsable : Option Bool) (existing row : SourceRow) : SourceRow :=
  let resumesAuthentication : Bool :=
    decide (existing.schedulingGate = .authenticationRequired) && resolvedAccountId.isSome
      && !decide (accountUsable = some false)
  { row with
    bookId := source.bookId
    displayName := source.displayName
    articleUrl := source.articleUrl
    accountId := resolvedAccountId
    schedulingGate := importedSourceGate (some existing.schedulingGate) accountUsable
    nextFetchAt :=
      if resumesAuthentication ∧ row.schedulingGate = .authenticationRequired then clock
      else row.nextFetchAt
    failureCooldownUntil := if resumesAuthentication then none else row.failureCooldownUntil
    scheduleReservedUntil := if resumesAuthentication then none else row.scheduleReservedUntil
    feedRevision :=
      if feedVisibleChanged existing source then existing.feedRevision + 1
      else existing.feedRevision
    enabled := source.enabled
    syncIntervalSeconds := source.syncIntervalSeconds
    rssItemLimit := source.rssItemLimit.toNat
    priority := source.priority
    maxAttempts := source.maxAttempts.toNat
    updatedAt := clock }

/-- The row of a source an import creates. -/
def createdRow (clock : DateTime) (source : PortableSource) (resolvedAccountId : Option Uuid)
    (accountUsable : Option Bool) : SourceRow where
  id := source.id
  bookId := source.bookId
  displayName := source.displayName
  articleUrl := source.articleUrl
  accountId := resolvedAccountId
  feedRevision := 0
  enabled := source.enabled
  schedulingGate := importedSourceGate none accountUsable
  syncIntervalSeconds := source.syncIntervalSeconds
  rssItemLimit := source.rssItemLimit.toNat
  nextFetchAt := clock
  failureCooldownUntil := none
  scheduleReservedUntil := none
  priority := source.priority
  maxAttempts := source.maxAttempts.toNat
  updatedAt := clock

/-- One source of the bundle; another source of its book is a conflict. -/
def applySource (clock : DateTime) (accounts : List AccountRow) (sources : List SourceRow)
    (source : PortableSource) : Option (List SourceRow) :=
  let resolvedAccountId :=
    source.accountId.filter fun accountId => (accountState clock accounts accountId).isSome
  let accountUsable := resolvedAccountId.bind (accountState clock accounts)
  if sources.any fun row => decide (row.bookId = source.bookId ∧ row.id ≠ source.id) then none
  else
    match findSource sources source.id with
    | some existing =>
      if feedVisibleChanged existing source ∧ existing.feedRevision = i64Max then none
      else
        some (Rows.update SourceRow.id sources source.id
          (importedRow clock source resolvedAccountId accountUsable existing))
    | none => some (sources ++ [createdRow clock source resolvedAccountId accountUsable])

/-- The loop over the sources. -/
def applySources (clock : DateTime) (accounts : List AccountRow) :
    List SourceRow → List PortableSource → Option (List SourceRow)
  | sources, [] => some sources
  | sources, source :: rest =>
    match applySource clock accounts sources source with
    | none => none
    | some sources => applySources clock accounts sources rest

/-- `apply`. -/
def apply (tables : AccountTables) (bundle : ConfigBundle) (clock : DateTime) :
    Option AccountTables :=
  let tables := (bundle.wereadAccounts.getD []).foldl (applyAccount clock) tables
  (applySources clock tables.accounts tables.sources (bundle.sources.getD [])).map fun sources =>
    { tables with sources := sources }

/-! ## Gates -/

/-- What an import leaves of a risk-controlled source. -/
theorem gateOf_applySource {clock : DateTime} {accounts : List AccountRow}
    {sources sources' : List SourceRow} {source : PortableSource} {sourceId : Uuid}
    (h : applySource clock accounts sources source = some sources')
    (hrisk : gateOf sources sourceId = some .riskControlled) :
    gateOf sources' sourceId = some .riskControlled := by
  unfold applySource at h
  simp only at h
  split_ifs at h with hconflict
  split at h
  · rename_i existing hexisting
    split_ifs at h with hexhausted
    obtain rfl := Option.some.inj h
    rw [gateOf, findSource, Rows.get_update]
    · split_ifs with heq
      · subst heq
        rw [findSource] at hexisting
        rw [hexisting, Option.map_some, Option.map_some]
        have hgate : existing.schedulingGate = .riskControlled := by
          simpa [gateOf, findSource, hexisting] using hrisk
        simp [importedRow, importedSourceGate, hgate]
      · exact hrisk
    · exact fun _ => rfl
  · rename_i hnone
    obtain rfl := Option.some.inj h
    obtain ⟨row, hrow, hgate⟩ := Option.map_eq_some_iff.mp hrisk
    rw [gateOf, findSource, Rows.get_append_singleton]
    rw [findSource] at hrow
    rw [hrow, Option.some_or, Option.map_some, hgate]

/-- The loop over the sources keeps it. -/
theorem gateOf_applySources {clock : DateTime} {accounts : List AccountRow} {sourceId : Uuid}
    (portable : List PortableSource) {sources sources' : List SourceRow}
    (h : applySources clock accounts sources portable = some sources')
    (hrisk : gateOf sources sourceId = some .riskControlled) :
    gateOf sources' sourceId = some .riskControlled := by
  induction portable generalizing sources with
  | nil =>
    obtain rfl := Option.some.inj h
    exact hrisk
  | cons source rest ih =>
    unfold applySources at h
    split at h
    · cases h
    · rename_i next hnext
      exact ih h (gateOf_applySource hnext hrisk)

end ConfigTransfer

end Werrss
