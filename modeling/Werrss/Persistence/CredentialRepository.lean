import Werrss.Domain.Credentials
import Werrss.Persistence.ArticleUpsert
import Werrss.Persistence.SourceRepository

/-!
# Persistence/CredentialRepository — accounts, their leases, and the sources they wake

    live lease ∧ expected version ──▸ new ciphertext, expiry, version + 1 ──▸ gated sources ready

The repository holds ciphertext only.  A replacement is fenced by the account's lease in the
statement that advances the version, and resumes the sources that wait for authentication in the
same transaction.  The expiry goes into a `timestamptz`: **what is below a microsecond is lost**.
-/

open Machinery

namespace Werrss

/-- A row of `weread_accounts`. -/
structure AccountRow where
  accountId : Uuid
  displayName : String
  credentialsCiphertext : Option (List UInt8)
  accessExpiresAt : Option DateTime
  credentialVersion : ℤ
  disabled : Bool
  setupRequired : Bool
deriving DecidableEq, Repr

/-- A row of `account_leases`. -/
structure AccountLeaseRow where
  accountId : Uuid
  leaseOwner : String
  leaseToken : Uuid
  leaseUntil : DateTime
deriving DecidableEq, Repr

/-- The tables of the credential repository. -/
structure AccountTables where
  accounts : List AccountRow
  leases : List AccountLeaseRow
  sources : List SourceRow
deriving DecidableEq

inductive CredentialRepositoryError
  | notFound (accountId : Uuid)
  | conflict (accountId : Uuid)
  | backend (message : String)
  | invalid (message : String)
deriving DecidableEq, Repr

/-- `CredentialRecord`. -/
structure CredentialRecord where
  account : WeReadAccount
  ciphertext : Option (List UInt8)
deriving DecidableEq

/-- `DateTime::UNIX_EPOCH`. -/
def unixEpoch : DateTime := 0

namespace CredentialRepository

/-- `decode_record`. -/
def decodeRecord (row : AccountRow) : Except CredentialRepositoryError CredentialRecord :=
  if row.accountId = .nil then .error (.invalid "account id must not be nil")
  else
    let validState : Bool :=
      if row.setupRequired then row.credentialsCiphertext.isNone && row.accessExpiresAt.isNone
      else (row.credentialsCiphertext.any fun value => !value.isEmpty) && row.accessExpiresAt.isSome
    if row.credentialVersion ≤ 0 ∨ isBlank row.displayName = true ∨ validState = false then
      .error (.invalid "account row contains invalid metadata")
    else
      .ok ⟨⟨row.accountId, row.displayName, row.credentialVersion, row.accessExpiresAt, row.disabled,
        row.setupRequired⟩, row.credentialsCiphertext⟩

/-- `validate_inputs`. -/
def validateInputs (accountId : Uuid) (displayName : String) (ciphertext : List UInt8)
    (accessExpiresAt : DateTime) : Except CredentialRepositoryError Unit :=
  if accountId = .nil then .error (.invalid "account id must not be nil")
  else if isBlank displayName then .error (.invalid "display name must not be empty")
  else if ciphertext.isEmpty then .error (.invalid "credential ciphertext must not be empty")
  else if accessExpiresAt ≤ unixEpoch then
    .error (.invalid "access expiry must be after the Unix epoch")
  else .ok ()

/-- The row of an account. -/
def findAccount (accounts : List AccountRow) (accountId : Uuid) : Option AccountRow :=
  Rows.get AccountRow.accountId accounts accountId

/-- `find`. -/
def find (tables : AccountTables) (accountId : Uuid) :
    Except CredentialRepositoryError (Option CredentialRecord) :=
  match findAccount tables.accounts accountId with
  | none => .ok none
  | some row => (decodeRecord row).map some

/-- `NOT disabled AND NOT setup_required AND access_expires_at > clock`. -/
def isUsable (clock : DateTime) (row : AccountRow) : Bool :=
  !row.disabled && !row.setupRequired
    && row.accessExpiresAt.any fun expiresAt => decide (clock < expiresAt)

/-- `resume_authentication_gated_sources`. -/
def resumeAuthenticationGatedSources (tables : AccountTables) (accountId : Uuid)
    (clock : DateTime) : AccountTables :=
  if (findAccount tables.accounts accountId).any (isUsable clock) then
    { tables with
      sources := tables.sources.map fun row =>
        if row.accountId = some accountId ∧ row.schedulingGate = .authenticationRequired then
          { row with
            schedulingGate := .ready
            failureCooldownUntil := none
            scheduleReservedUntil := none
            nextFetchAt := clock
            updatedAt := clock }
        else row }
  else tables

/-- `insert`. -/
def insert (tables : AccountTables) (accountId : Uuid) (displayName : String)
    (ciphertext : List UInt8) (accessExpiresAt : DateTime) :
    Except CredentialRepositoryError (CredentialRecord × AccountTables) := do
  validateInputs accountId displayName ciphertext accessExpiresAt
  if (findAccount tables.accounts accountId).isSome then .error (.conflict accountId)
  else
    let row : AccountRow :=
      ⟨accountId, trim displayName, some ciphertext, some (timestamptz accessExpiresAt), 1, false,
        false⟩
    let record ← decodeRecord row
    return (record, { tables with accounts := tables.accounts ++ [row] })

/-- The lease of the account is held by this owner under this token. -/
def hasLiveLease (tables : AccountTables) (accountId : Uuid) (owner : String) (token : Uuid)
    (clock : DateTime) : Bool :=
  tables.leases.any fun lease => decide (lease.accountId = accountId ∧ lease.leaseOwner = owner
    ∧ lease.leaseToken = token ∧ clock < lease.leaseUntil)

/-- `UPDATE weread_accounts SET … WHERE account_id = … AND …`, decoded; the version is a `BIGINT`. -/
def updateAccount (tables : AccountTables) (accountId : Uuid) (condition : AccountRow → Bool)
    (assign : AccountRow → AccountRow) :
    Except CredentialRepositoryError (CredentialRecord × AccountTables) :=
  match (findAccount tables.accounts accountId).filter condition with
  | none => .error (.conflict accountId)
  | some row =>
    if i64Max < (assign row).credentialVersion then .error (.backend "bigint out of range")
    else (decodeRecord (assign row)).map fun record =>
      (record, { tables with
        accounts := Rows.update AccountRow.accountId tables.accounts accountId assign })

/-- An enabled account wakes its sources. -/
def resumeIfEnabled (written : CredentialRecord × AccountTables) (clock : DateTime) :
    CredentialRecord × AccountTables :=
  if written.1.account.disabled then written
  else
    (written.1, resumeAuthenticationGatedSources written.2 written.1.account.accountId clock)

/-- `CredentialReplacement`. -/
structure CredentialReplacement where
  accountId : Uuid
  displayName : String
  expectedVersion : ℤ
  ciphertext : List UInt8
  accessExpiresAt : DateTime
  leaseOwner : String
  leaseToken : Uuid
deriving DecidableEq

/-- `replace`. -/
def replace (tables : AccountTables) (replacement : CredentialReplacement) (clock : DateTime) :
    Except CredentialRepositoryError (CredentialRecord × AccountTables) := do
  validateInputs replacement.accountId replacement.displayName replacement.ciphertext
    replacement.accessExpiresAt
  if replacement.expectedVersion ≤ 0 ∨ isBlank replacement.leaseOwner = true
      ∨ replacement.leaseToken = .nil then
    .error (.conflict replacement.accountId)
  else
    let written ← updateAccount tables replacement.accountId
      (fun row => decide (row.credentialVersion = replacement.expectedVersion)
        && !row.setupRequired && hasLiveLease tables replacement.accountId replacement.leaseOwner
          replacement.leaseToken clock)
      (fun row =>
        { row with
          displayName := trim replacement.displayName
          credentialsCiphertext := some replacement.ciphertext
          accessExpiresAt := some (timestamptz replacement.accessExpiresAt)
          credentialVersion := row.credentialVersion + 1 })
    return resumeIfEnabled written clock

/-- `enroll_placeholder`. -/
def enrollPlaceholder (tables : AccountTables) (accountId : Uuid) (displayName : String)
    (ciphertext : List UInt8) (accessExpiresAt : DateTime) (leaseOwner : String) (leaseToken : Uuid)
    (clock : DateTime) : Except CredentialRepositoryError (CredentialRecord × AccountTables) := do
  validateInputs accountId displayName ciphertext accessExpiresAt
  if isBlank leaseOwner = true ∨ leaseToken = .nil then .error (.conflict accountId)
  else
    let written ← updateAccount tables accountId
      (fun row => row.setupRequired && row.credentialsCiphertext.isNone
        && row.accessExpiresAt.isNone && hasLiveLease tables accountId leaseOwner leaseToken clock)
      (fun row =>
        { row with
          displayName := trim displayName
          credentialsCiphertext := some ciphertext
          accessExpiresAt := some (timestamptz accessExpiresAt)
          setupRequired := false
          credentialVersion := row.credentialVersion + 1 })
    return resumeIfEnabled written clock

/-- `set_disabled`. -/
def setDisabled (tables : AccountTables) (accountId : Uuid) (disabled : Bool) (clock : DateTime) :
    Except CredentialRepositoryError (CredentialRecord × AccountTables) :=
  match findAccount tables.accounts accountId with
  | none => .error (.notFound accountId)
  | some current => do
    let written ← updateAccount tables accountId (fun _ => true)
      fun row => { row with disabled := disabled }
    if current.disabled && !disabled && !current.setupRequired then
      return (written.1, resumeAuthenticationGatedSources written.2 accountId clock)
    else return written

/-! ## What the writes leave -/

/-- **The account's row holds this ciphertext, and this expiry as its column keeps it.** -/
structure Holds (tables : AccountTables) (accountId : Uuid) (ciphertext : List UInt8)
    (accessExpiresAt : DateTime) : Prop where
  after_epoch : unixEpoch < accessExpiresAt
  row : ∃ row record, findAccount tables.accounts accountId = some row ∧
    decodeRecord row = .ok record ∧ row.setupRequired = false ∧
    row.credentialsCiphertext = some ciphertext ∧
    row.accessExpiresAt = some (timestamptz accessExpiresAt)

/-- A record is its row. -/
theorem decodeRecord_eq_ok {row : AccountRow} {record : CredentialRecord}
    (h : decodeRecord row = .ok record) :
    record = ⟨⟨row.accountId, row.displayName, row.credentialVersion, row.accessExpiresAt,
      row.disabled, row.setupRequired⟩, row.credentialsCiphertext⟩ := by
  unfold decodeRecord at h
  by_cases hid : row.accountId = .nil
  · rw [if_pos hid] at h
    cases h
  · rw [if_neg hid] at h
    simp only at h
    by_cases hinvalid : row.credentialVersion ≤ 0 ∨ isBlank row.displayName = true ∨
        (if row.setupRequired = true then
          row.credentialsCiphertext.isNone && row.accessExpiresAt.isNone
        else (row.credentialsCiphertext.any fun value => !value.isEmpty)
          && row.accessExpiresAt.isSome) = false
    · rw [if_pos hinvalid] at h
      cases h
    · rw [if_neg hinvalid] at h
      exact (Except.ok.inj h).symm

theorem after_epoch_of_validateInputs {accountId : Uuid} {displayName : String}
    {ciphertext : List UInt8} {accessExpiresAt : DateTime} {u : Unit}
    (h : validateInputs accountId displayName ciphertext accessExpiresAt = .ok u) :
    unixEpoch < accessExpiresAt := by
  unfold validateInputs at h
  split_ifs at h with _ _ _ hexpiry
  exact Int.not_le.mp hexpiry

/-- Waking the sources leaves the accounts alone. -/
@[simp] theorem accounts_resume (tables : AccountTables) (accountId : Uuid) (clock : DateTime) :
    (resumeAuthenticationGatedSources tables accountId clock).accounts = tables.accounts := by
  unfold resumeAuthenticationGatedSources
  split_ifs <;> rfl

@[simp] theorem accounts_resumeIfEnabled (written : CredentialRecord × AccountTables)
    (clock : DateTime) : (resumeIfEnabled written clock).2.accounts = written.2.accounts := by
  unfold resumeIfEnabled
  split_ifs
  · rfl
  · exact accounts_resume ..

/-- What an update of an account leaves. -/
theorem updateAccount_eq_ok {tables tables' : AccountTables} {accountId : Uuid}
    {condition : AccountRow → Bool} {assign : AccountRow → AccountRow} {record : CredentialRecord}
    (h : updateAccount tables accountId condition assign = .ok (record, tables'))
    (hassign : ∀ row, (assign row).accountId = row.accountId) :
    ∃ row, findAccount tables.accounts accountId = some row ∧ condition row = true ∧
      decodeRecord (assign row) = .ok record ∧
      findAccount tables'.accounts accountId = some (assign row) ∧
      tables' = { tables with
        accounts := Rows.update AccountRow.accountId tables.accounts accountId assign } := by
  unfold updateAccount at h
  split at h
  · cases h
  · rename_i row hfind
    obtain ⟨hrow, hcondition⟩ := Option.filter_eq_some_iff.mp hfind
    split_ifs at h with hrange
    cases hdecode : decodeRecord (assign row) with
    | error e =>
      rw [hdecode] at h
      cases h
    | ok written =>
      rw [hdecode] at h
      obtain ⟨rfl, rfl⟩ := Prod.mk.inj (Except.ok.inj h)
      refine ⟨row, hrow, hcondition, hdecode, ?_, rfl⟩
      rw [findAccount, Rows.get_update hassign, if_pos rfl]
      exact congrArg (Option.map assign) hrow

theorem insert_holds {tables tables' : AccountTables} {accountId : Uuid} {displayName : String}
    {ciphertext : List UInt8} {accessExpiresAt : DateTime} {record : CredentialRecord}
    (h : insert tables accountId displayName ciphertext accessExpiresAt = .ok (record, tables')) :
    Holds tables' accountId ciphertext accessExpiresAt := by
  obtain ⟨_, hvalid, h⟩ := bind_eq_ok h
  split_ifs at h with hconflict
  obtain ⟨record', hdecode, h⟩ := bind_eq_ok h
  obtain ⟨rfl, rfl⟩ := Prod.mk.inj (Except.ok.inj h)
  refine ⟨after_epoch_of_validateInputs hvalid, _, record', ?_, hdecode, rfl, rfl, rfl⟩
  have hnone : findAccount tables.accounts accountId = none := by simpa using hconflict
  rw [findAccount, Rows.get_append_singleton, if_pos rfl]
  rw [findAccount] at hnone
  rw [hnone]
  rfl

theorem replace_holds {tables tables' : AccountTables} {replacement : CredentialReplacement}
    {clock : DateTime} {record : CredentialRecord}
    (h : replace tables replacement clock = .ok (record, tables')) :
    Holds tables' replacement.accountId replacement.ciphertext replacement.accessExpiresAt := by
  obtain ⟨_, hvalid, h⟩ := bind_eq_ok h
  split_ifs at h with hproof
  obtain ⟨⟨written, tables''⟩, hwrite, h⟩ := bind_eq_ok h
  obtain rfl : (resumeIfEnabled (written, tables'') clock).2 = tables' :=
    congrArg Prod.snd (Except.ok.inj h)
  obtain ⟨row, -, hcondition, hdecode, hfind, -⟩ := updateAccount_eq_ok hwrite fun _ => rfl
  simp only [Bool.and_eq_true, Bool.not_eq_true', decide_eq_true_eq] at hcondition
  refine ⟨after_epoch_of_validateInputs hvalid, _, written, ?_, hdecode, hcondition.1.2, rfl, rfl⟩
  rw [accounts_resumeIfEnabled]
  exact hfind

theorem enrollPlaceholder_holds {tables tables' : AccountTables} {accountId : Uuid}
    {displayName : String} {ciphertext : List UInt8} {accessExpiresAt : DateTime}
    {leaseOwner : String} {leaseToken : Uuid} {clock : DateTime} {record : CredentialRecord}
    (h : enrollPlaceholder tables accountId displayName ciphertext accessExpiresAt leaseOwner
      leaseToken clock = .ok (record, tables')) :
    Holds tables' accountId ciphertext accessExpiresAt := by
  obtain ⟨_, hvalid, h⟩ := bind_eq_ok h
  split_ifs at h with hproof
  obtain ⟨⟨written, tables''⟩, hwrite, h⟩ := bind_eq_ok h
  obtain rfl : (resumeIfEnabled (written, tables'') clock).2 = tables' :=
    congrArg Prod.snd (Except.ok.inj h)
  obtain ⟨row, -, -, hdecode, hfind, -⟩ := updateAccount_eq_ok hwrite fun _ => rfl
  refine ⟨after_epoch_of_validateInputs hvalid, _, written, ?_, hdecode, rfl, rfl, rfl⟩
  rw [accounts_resumeIfEnabled]
  exact hfind

/-! ## The sources an account wakes -/

/-- A source that waits for the authentication of this account. -/
def awaits (accountId : Uuid) (row : SourceRow) : Prop :=
  row.accountId = some accountId ∧ row.schedulingGate = .authenticationRequired

instance (accountId : Uuid) (row : SourceRow) : Decidable (awaits accountId row) :=
  inferInstanceAs (Decidable (_ ∧ _))

/-- **What waking does to a source**: it gets ready if it waits for an account that can be used. -/
theorem gateOf_resume (tables : AccountTables) (accountId : Uuid) (clock : DateTime)
    (sourceId : Uuid) :
    gateOf (resumeAuthenticationGatedSources tables accountId clock).sources sourceId =
      (findSource tables.sources sourceId).map fun row =>
        if (findAccount tables.accounts accountId).any (isUsable clock) = true ∧ awaits accountId row
        then .ready else row.schedulingGate := by
  unfold resumeAuthenticationGatedSources
  by_cases husable : (findAccount tables.accounts accountId).any (isUsable clock) = true
  · rw [if_pos husable, gateOf, findSource, Rows.get_map]
    · rw [Option.map_map, findSource]
      congr 1
      funext row
      simp only [Function.comp_apply, husable, true_and, awaits]
      split_ifs <;> rfl
    · intro row
      split_ifs <;> rfl
  · rw [if_neg husable, gateOf]
    congr 1
    funext row
    rw [if_neg fun h => husable h.1]

/-- Waking leaves the other gates alone. -/
theorem gateOf_resume_risk {tables : AccountTables} {accountId sourceId : Uuid} {clock : DateTime}
    (h : gateOf tables.sources sourceId = some .riskControlled) :
    gateOf (resumeAuthenticationGatedSources tables accountId clock).sources sourceId
      = some .riskControlled := by
  obtain ⟨row, hrow, hgate⟩ := Option.map_eq_some_iff.mp h
  have hawaits : ¬ awaits accountId row := fun hawaits => by
    rw [hawaits.2] at hgate
    cases hgate
  rw [gateOf_resume, hrow, Option.map_some, if_neg fun h => hawaits h.2, hgate]

/-- The bindings of sources to accounts stay. -/
theorem accountId_resume (tables : AccountTables) (accountId : Uuid) (clock : DateTime)
    (sourceId : Uuid) :
    (findSource (resumeAuthenticationGatedSources tables accountId clock).sources sourceId).map
      (·.accountId) = (findSource tables.sources sourceId).map (·.accountId) := by
  unfold resumeAuthenticationGatedSources
  split_ifs with husable
  · rw [findSource, Rows.get_map]
    · rw [Option.map_map, findSource]
      congr 1
      funext row
      simp only [Function.comp_apply]
      split_ifs <;> rfl
    · intro row
      split_ifs <;> rfl
  · rfl

/-- **What a fenced write leaves**: one account's row is assigned, and the account wakes its sources
unless it is paused. -/
structure Assigned (tables tables' : AccountTables) (accountId : Uuid) (clock : DateTime)
    (row row' : AccountRow) : Prop where
  before : findAccount tables.accounts accountId = some row
  after : findAccount tables'.accounts accountId = some row'
  others : ∀ other, other ≠ accountId →
    findAccount tables'.accounts other = findAccount tables.accounts other
  sources : ∃ woken : AccountTables, woken.sources = tables.sources ∧
    woken.accounts = tables'.accounts ∧
    tables'.sources = if row'.disabled then tables.sources
      else (resumeAuthenticationGatedSources woken accountId clock).sources

/-- An assignment followed by the waking. -/
theorem assigned_of_update {tables tables' : AccountTables} {accountId : Uuid}
    {condition : AccountRow → Bool} {assign : AccountRow → AccountRow} {record : CredentialRecord}
    (h : updateAccount tables accountId condition assign = .ok (record, tables'))
    (hassign : ∀ row, (assign row).accountId = row.accountId) (clock : DateTime) :
    ∃ row, Assigned tables (resumeIfEnabled (record, tables') clock).2 accountId clock row
      (assign row) := by
  obtain ⟨row, hrow, -, hdecode, hfind, rfl⟩ := updateAccount_eq_ok h hassign
  have hid : record.account.accountId = accountId := by
    rw [decodeRecord_eq_ok hdecode]
    exact (hassign row).trans (Rows.key_of_get hrow)
  have hdisabled : record.account.disabled = (assign row).disabled := by
    rw [decodeRecord_eq_ok hdecode]
  refine ⟨row, hrow, ?_, fun other hne => ?_, ?_⟩
  · rw [accounts_resumeIfEnabled]
    exact hfind
  · rw [accounts_resumeIfEnabled, findAccount, Rows.get_update hassign, if_neg hne]
    rfl
  · refine ⟨{ tables with
        accounts := Rows.update AccountRow.accountId tables.accounts accountId assign }, rfl,
      (accounts_resumeIfEnabled (record, _) clock).symm, ?_⟩
    unfold resumeIfEnabled
    rw [hdisabled, hid]
    split_ifs <;> rfl

theorem replace_assigned {tables tables' : AccountTables} {replacement : CredentialReplacement}
    {clock : DateTime} {record : CredentialRecord}
    (h : replace tables replacement clock = .ok (record, tables')) :
    ∃ row row', Assigned tables tables' replacement.accountId clock row row' := by
  obtain ⟨_, -, h⟩ := bind_eq_ok h
  split_ifs at h with hproof
  obtain ⟨⟨written, tables''⟩, hwrite, h⟩ := bind_eq_ok h
  obtain rfl : (resumeIfEnabled (written, tables'') clock).2 = tables' :=
    congrArg Prod.snd (Except.ok.inj h)
  obtain ⟨row, hassigned⟩ := assigned_of_update hwrite (fun _ => rfl) clock
  exact ⟨row, _, hassigned⟩

theorem enrollPlaceholder_assigned {tables tables' : AccountTables} {accountId : Uuid}
    {displayName : String} {ciphertext : List UInt8} {accessExpiresAt : DateTime}
    {leaseOwner : String} {leaseToken : Uuid} {clock : DateTime} {record : CredentialRecord}
    (h : enrollPlaceholder tables accountId displayName ciphertext accessExpiresAt leaseOwner
      leaseToken clock = .ok (record, tables')) :
    ∃ row row', Assigned tables tables' accountId clock row row' := by
  obtain ⟨_, -, h⟩ := bind_eq_ok h
  split_ifs at h with hproof
  obtain ⟨⟨written, tables''⟩, hwrite, h⟩ := bind_eq_ok h
  obtain rfl : (resumeIfEnabled (written, tables'') clock).2 = tables' :=
    congrArg Prod.snd (Except.ok.inj h)
  obtain ⟨row, hassigned⟩ := assigned_of_update hwrite (fun _ => rfl) clock
  exact ⟨row, _, hassigned⟩

/-- **What a write of credentials does**: its caller holds the live lease, the version of one
account's row advances by one, and nothing else of the accounts and the leases changes. -/
structure FencedWrite (tables tables' : AccountTables) (accountId : Uuid) (owner : String)
    (token : Uuid) (clock : DateTime) (row row' : AccountRow) : Prop where
  live : hasLiveLease tables accountId owner token clock = true
  before : findAccount tables.accounts accountId = some row
  after : findAccount tables'.accounts accountId = some row'
  version : row'.credentialVersion = row.credentialVersion + 1
  others : ∀ other, other ≠ accountId →
    findAccount tables'.accounts other = findAccount tables.accounts other
  leases : tables'.leases = tables.leases

/-- Waking the sources leaves the leases alone. -/
@[simp] theorem leases_resume (tables : AccountTables) (accountId : Uuid) (clock : DateTime) :
    (resumeAuthenticationGatedSources tables accountId clock).leases = tables.leases := by
  unfold resumeAuthenticationGatedSources
  split_ifs <;> rfl

@[simp] theorem leases_resumeIfEnabled (written : CredentialRecord × AccountTables)
    (clock : DateTime) : (resumeIfEnabled written clock).2.leases = written.2.leases := by
  unfold resumeIfEnabled
  split_ifs
  · rfl
  · exact leases_resume ..

/-- An update that demands the live lease, and advances the version. -/
theorem fencedWrite_of_update (clock : DateTime) {tables tables' : AccountTables}
    {accountId : Uuid} {owner : String} {token : Uuid} {condition : AccountRow → Bool}
    {assign : AccountRow → AccountRow} {record : CredentialRecord}
    (h : updateAccount tables accountId condition assign = .ok (record, tables'))
    (hlive : ∀ row, condition row = true → hasLiveLease tables accountId owner token clock = true)
    (hassign : ∀ row, (assign row).accountId = row.accountId)
    (hversion : ∀ row, (assign row).credentialVersion = row.credentialVersion + 1) :
    ∃ row, condition row = true ∧ FencedWrite tables (resumeIfEnabled (record, tables') clock).2
      accountId owner token clock row (assign row) := by
  obtain ⟨row, hrow, hcondition, -, hfind, rfl⟩ := updateAccount_eq_ok h hassign
  refine ⟨row, hcondition, hlive row hcondition, hrow, ?_, hversion row, fun other hne => ?_, ?_⟩
  · rw [accounts_resumeIfEnabled]
    exact hfind
  · rw [accounts_resumeIfEnabled, findAccount, Rows.get_update hassign, if_neg hne]
    rfl
  · rw [leases_resumeIfEnabled]

/-- **A replacement** is a write over the version it expects, of an account that is set up. -/
theorem replace_eq_ok {tables tables' : AccountTables} {replacement : CredentialReplacement}
    {clock : DateTime} {record : CredentialRecord}
    (h : replace tables replacement clock = .ok (record, tables')) :
    ∃ row row', row.credentialVersion = replacement.expectedVersion ∧ row.setupRequired = false ∧
      FencedWrite tables tables' replacement.accountId replacement.leaseOwner
        replacement.leaseToken clock row row' := by
  obtain ⟨_, -, h⟩ := bind_eq_ok h
  split_ifs at h with hproof
  obtain ⟨⟨written, tables''⟩, hwrite, h⟩ := bind_eq_ok h
  obtain rfl : (resumeIfEnabled (written, tables'') clock).2 = tables' :=
    congrArg Prod.snd (Except.ok.inj h)
  obtain ⟨row, hcondition, hfenced⟩ := fencedWrite_of_update clock hwrite
    (fun row hrow => (Bool.and_eq_true _ _ ▸ hrow).2) (fun _ => rfl) fun _ => rfl
  simp only [Bool.and_eq_true, Bool.not_eq_true', decide_eq_true_eq] at hcondition
  exact ⟨row, _, hcondition.1.1, hcondition.1.2, hfenced⟩

/-- **An enrolment** is a write to a placeholder. -/
theorem enrollPlaceholder_eq_ok {tables tables' : AccountTables} {accountId : Uuid}
    {displayName : String} {ciphertext : List UInt8} {accessExpiresAt : DateTime}
    {leaseOwner : String} {leaseToken : Uuid} {clock : DateTime} {record : CredentialRecord}
    (h : enrollPlaceholder tables accountId displayName ciphertext accessExpiresAt leaseOwner
      leaseToken clock = .ok (record, tables')) :
    ∃ row row', row.setupRequired = true ∧ row.credentialsCiphertext = none ∧
      row.accessExpiresAt = none ∧
      FencedWrite tables tables' accountId leaseOwner leaseToken clock row row' := by
  obtain ⟨_, -, h⟩ := bind_eq_ok h
  split_ifs at h with hproof
  obtain ⟨⟨written, tables''⟩, hwrite, h⟩ := bind_eq_ok h
  obtain rfl : (resumeIfEnabled (written, tables'') clock).2 = tables' :=
    congrArg Prod.snd (Except.ok.inj h)
  obtain ⟨row, hcondition, hfenced⟩ := fencedWrite_of_update clock hwrite
    (fun row hrow => (Bool.and_eq_true _ _ ▸ hrow).2) (fun _ => rfl) fun _ => rfl
  simp only [Bool.and_eq_true, Option.isNone_iff_eq_none] at hcondition
  exact ⟨row, _, hcondition.1.1.1, hcondition.1.1.2, hcondition.1.2, hfenced⟩

/-- **What pausing or enabling an account leaves**: its sources wake when it was paused, is enabled
now, and is set up. -/
theorem setDisabled_eq_ok {tables tables' : AccountTables} {accountId : Uuid} {disabled : Bool}
    {clock : DateTime} {record : CredentialRecord}
    (h : setDisabled tables accountId disabled clock = .ok (record, tables')) :
    ∃ row, findAccount tables.accounts accountId = some row ∧
      findAccount tables'.accounts accountId = some { row with disabled := disabled } ∧
      (∀ other, other ≠ accountId →
        findAccount tables'.accounts other = findAccount tables.accounts other) ∧
      ∃ written : AccountTables, written.sources = tables.sources ∧
        written.accounts = tables'.accounts ∧
        tables'.sources =
          if row.disabled && !disabled && !row.setupRequired then
            (resumeAuthenticationGatedSources written accountId clock).sources
          else tables.sources := by
  unfold setDisabled at h
  split at h
  · cases h
  · rename_i row hrow
    obtain ⟨⟨written, tables''⟩, hwrite, h⟩ := bind_eq_ok h
    obtain ⟨row', hrow', -, -, hfind, rfl⟩ := updateAccount_eq_ok hwrite fun _ => rfl
    obtain rfl := Option.some.inj (hrow.symm.trans hrow')
    have hothers : ∀ other, other ≠ accountId → findAccount (Rows.update AccountRow.accountId
        tables.accounts accountId fun row => { row with disabled := disabled }) other
        = findAccount tables.accounts other := by
      intro other hne
      rw [findAccount, Rows.get_update]
      · rw [if_neg hne]
        rfl
      · exact fun _ => rfl
    refine ⟨row, hrow, ?_⟩
    split_ifs at h with hresume
    · obtain rfl := congrArg Prod.snd (Except.ok.inj h)
      refine ⟨?_, ?_, ⟨Rows.update AccountRow.accountId tables.accounts accountId
        (fun row => { row with disabled := disabled }), tables.leases, tables.sources⟩, rfl,
        (accounts_resume _ accountId clock).symm, ?_⟩
      · rw [accounts_resume]
        exact hfind
      · rw [accounts_resume]
        exact hothers
      · rw [if_pos hresume]
    · obtain rfl := congrArg Prod.snd (Except.ok.inj h)
      refine ⟨hfind, hothers, ⟨Rows.update AccountRow.accountId tables.accounts accountId
        (fun row => { row with disabled := disabled }), tables.leases, tables.sources⟩, rfl, rfl, ?_⟩
      rw [if_neg hresume]

end CredentialRepository

end Werrss
