import Werrss.Application.CredentialReport
import Werrss.Persistence.ConfigTransfer
import Werrss.Persistence.LeaseStores

/-!
# Application/CredentialFence — credentials are replaced over what their caller has read

    caller   acquire(token) ─▸ load ─▸ write
                 │               │       └── token is live ∧ version unchanged
    account   lease row       row read
                 └── deletion takes the lease row along: an old token never comes back to life

An operation reads the account under its lease and writes under the same token.  As long as the
lease row carries that token nobody else has written, and the account was not deleted: a deletion
takes the lease with it, and a new acquisition draws a new token.  So **the row that is written over
is the row that was read**, through any order of the other operations.
-/

open Machinery

namespace Werrss

open CredentialRepository

/-- What a credential change changes: ciphertext, expiry, version, and whether it is a
placeholder. -/
def AccountRow.secrets (row : AccountRow) : Option (List UInt8) × Option DateTime × ℤ × Bool :=
  (row.credentialsCiphertext, row.accessExpiresAt, row.credentialVersion, row.setupRequired)

/-! ## The system -/

/-- How far an operation under the lease has come: what it read is the tables of that moment. -/
inductive CallerStage
  | acquired
  | loaded (seen : AccountTables)
  | finished

/-- An operation that has acquired the account lease. -/
structure CredentialCaller where
  accountId : Uuid
  guard : AccountLeaseGuard
  stage : CallerStage

namespace CredentialCaller

def token (caller : CredentialCaller) : Uuid := caller.guard.token

/-- The operation at another stage. -/
def reaching (caller : CredentialCaller) (stage : CallerStage) : CredentialCaller :=
  { caller with stage := stage }

end CredentialCaller

/-- The tables, the operations under way, and the tokens drawn so far. -/
structure CredentialState where
  accounts : List AccountRow
  sources : List SourceRow
  leases : List LeaseRecord
  callers : List CredentialCaller
  drawn : List Uuid

/-- One repository call, or the write of an operation with what it computes before. -/
inductive CredentialAction
  | provision (request : CredentialProvision) (nonce : Option CipherNonce)
  | setDisabled (accountId : Uuid) (disabled : Bool)
  | delete (accountId : Uuid)
  | importBundle (bundle : ConfigBundle)
  | acquire (accountId : Uuid) (owner : String) (leaseFor : Duration) (token : Uuid)
  | heartbeat (token : Uuid) (leaseFor : Duration)
  | release (token : Uuid)
  | load (token : Uuid)
  | replace (token : Uuid) (displayName : String) (credentials : WeReadCredentials)
      (nonce : Option CipherNonce) (lease : LeaseAnswers)
  | refresh (token : Uuid) (lease : LeaseAnswers) (answers : AuthService.RefreshAnswers)

/-- The operation whose write an action is. -/
def CredentialAction.writer : CredentialAction → Option Uuid
  | .replace token _ _ _ _ => some token
  | .refresh token _ _ => some token
  | _ => none

/-- `delete`: the account, and its lease. -/
def CredentialRepository.delete (accounts : List AccountRow) (leases : List LeaseRecord)
    (accountId : Uuid) : Except CredentialRepositoryError (List AccountRow × List LeaseRecord) :=
  if (findAccount accounts accountId).isSome then
    .ok (Rows.remove AccountRow.accountId accounts accountId,
      Rows.remove LeaseRecord.key leases accountId)
  else .error (.notFound accountId)

/-- A lease row as the credential repository looks at it. -/
def LeaseRecord.accountLease (lease : LeaseRecord) : AccountLeaseRow :=
  ⟨lease.key, lease.owner, lease.token, lease.leaseUntil⟩

namespace CredentialState

/-- The tables of the credential repository. -/
def tables (s : CredentialState) : AccountTables :=
  ⟨s.accounts, s.leases.map LeaseRecord.accountLease, s.sources⟩

/-- Before anyone has acquired a lease. -/
def start (accounts : List AccountRow) (sources : List SourceRow) : CredentialState :=
  ⟨accounts, sources, [], [], []⟩

/-- The accounts and sources that a call of the credential repository leaves, if it commits. -/
def applied (s : CredentialState) : Option AccountTables → CredentialState
  | none => s
  | some tables => { s with accounts := tables.accounts, sources := tables.sources }

/-- The operation under this token. -/
def caller (s : CredentialState) (token : Uuid) : Option CredentialCaller :=
  Rows.get CredentialCaller.token s.callers token

/-- The operation under this token comes to a stage. -/
def reach (s : CredentialState) (token : Uuid) (stage : CallerStage) : CredentialState :=
  { s with
    callers := Rows.update CredentialCaller.token s.callers token fun c => c.reaching stage }

/-- An acquisition; the operation goes on if it was given the lease. -/
def acquire (s : CredentialState) (now : DateTime) (accountId : Uuid) (owner : String)
    (leaseFor : Duration) (token : Uuid) : CredentialState :=
  let answered :=
    PostgresAccountLeaseRepository.acquire s.leases accountId owner leaseFor token now
  { s with
    leases := answered.1
    drawn := token :: s.drawn
    callers :=
      match answered.2 with
      | .ok (some lease) => ⟨accountId, ⟨lease.owner, lease.token⟩, .acquired⟩ :: s.callers
      | _ => s.callers }

/-- The body of the operation is over; it has stored credentials or not. -/
def write {A : Type} (s : CredentialState) (caller : CredentialCaller) (stores : A → Bool)
    (result : Except AuthServiceError (A × AccountTables)) : CredentialState × Option Uuid :=
  match result with
  | .error _ => (s.reach caller.token .finished, none)
  | .ok (a, tables) =>
    ((s.reach caller.token .finished).applied (some tables),
      if stores a then some caller.accountId else none)

variable [SerdeJson] [RingCrate] (service : AuthService)

/-- **One step**, and the account whose credentials it has replaced, if it has. -/
def step (s : CredentialState) (a : DateTime × CredentialAction) :
    CredentialState × Option Uuid :=
  match a.2 with
  | .provision request nonce =>
    (s.applied ((service.provision s.tables request nonce).toOption.map Prod.snd), none)
  | .setDisabled accountId disabled =>
    (s.applied ((CredentialRepository.setDisabled s.tables accountId disabled a.1).toOption.map
      Prod.snd), none)
  | .delete accountId =>
    match CredentialRepository.delete s.accounts s.leases accountId with
    | .error _ => (s, none)
    | .ok (accounts, leases) => ({ s with accounts := accounts, leases := leases }, none)
  | .importBundle bundle => (s.applied (ConfigTransfer.apply s.tables bundle a.1), none)
  | .acquire accountId owner leaseFor token => (s.acquire a.1 accountId owner leaseFor token, none)
  | .heartbeat token leaseFor =>
    match s.caller token with
    | none => (s, none)
    | some caller =>
      ({ s with leases := (PostgresAccountLeaseRepository.heartbeat s.leases caller.accountId
          caller.guard.owner caller.token leaseFor a.1).1 }, none)
  | .release token =>
    match s.caller token with
    | none => (s, none)
    | some caller =>
      ({ s.reach token .finished with
          leases := (PostgresAccountLeaseRepository.release s.leases caller.accountId
            caller.guard.owner caller.token a.1).1 }, none)
  | .load token =>
    match s.caller token with
    | some ⟨_, _, .acquired⟩ => (s.reach token (.loaded s.tables), none)
    | _ => (s, none)
  | .replace token displayName credentials nonce lease =>
    match s.caller token with
    | some ⟨accountId, guard, .loaded seen⟩ =>
      s.write ⟨accountId, guard, .loaded seen⟩ (fun _ => true) (service.replaceUnderLease seen
        s.tables ⟨accountId, displayName, credentials⟩ nonce lease a.1 guard)
    | _ => (s, none)
  | .refresh token lease answers =>
    match s.caller token with
    | some ⟨accountId, guard, .loaded seen⟩ =>
      s.write ⟨accountId, guard, .loaded seen⟩ AuthRefreshOutcome.refreshes
        (service.refreshUnderLease s.tables accountId lease
          { answers with seen := seen, clock := a.1 } guard)
    | _ => (s, none)

/-- An acquisition draws a token that was never drawn. -/
def DrawsFresh (s : CredentialState) (a : DateTime × CredentialAction) : Prop :=
  match a.2 with
  | .acquire _ _ _ token => token ∉ s.drawn
  | _ => True

end CredentialState

/-! ## What leaves the secrets alone -/

/-- **The accounts keep their secrets**, and new ones begin at version one. -/
structure SecretsStay (accounts accounts' : List AccountRow) : Prop where
  stays : ∀ accountId row, findAccount accounts accountId = some row →
    ∃ row', findAccount accounts' accountId = some row' ∧ row'.secrets = row.secrets
  appears : ∀ accountId row', findAccount accounts accountId = none →
    findAccount accounts' accountId = some row' → row'.credentialVersion = 1

theorem SecretsStay.refl (accounts : List AccountRow) : SecretsStay accounts accounts := by
  refine ⟨fun _ row h => ⟨row, h, rfl⟩, fun _ _ hnone h => ?_⟩
  rw [hnone] at h
  cases h

theorem SecretsStay.trans {accounts accounts' accounts'' : List AccountRow}
    (h : SecretsStay accounts accounts') (h' : SecretsStay accounts' accounts'') :
    SecretsStay accounts accounts'' := by
  refine ⟨fun accountId row hrow => ?_, fun accountId row'' hnone hrow => ?_⟩
  · obtain ⟨row', hrow', hsame⟩ := h.stays accountId row hrow
    obtain ⟨row'', hrow'', hsame'⟩ := h'.stays accountId row' hrow'
    exact ⟨row'', hrow'', hsame'.trans hsame⟩
  · cases hmiddle : findAccount accounts' accountId with
    | none => exact h'.appears accountId row'' hmiddle hrow
    | some row' =>
      obtain ⟨last, hlast, hsame⟩ := h'.stays accountId row' hmiddle
      obtain rfl := Option.some.inj (hlast.symm.trans hrow)
      have hversion : last.credentialVersion = row'.credentialVersion :=
        congrArg (fun secrets => secrets.2.2.1) hsame
      exact hversion.trans (h.appears accountId row' hnone hmiddle)

/-- An update of one account that leaves its secrets alone. -/
theorem SecretsStay.update (accounts : List AccountRow) (accountId : Uuid)
    {f : AccountRow → AccountRow} (hid : ∀ row, (f row).accountId = row.accountId)
    (hsecrets : ∀ row, (f row).secrets = row.secrets) :
    SecretsStay accounts (Rows.update AccountRow.accountId accounts accountId f) := by
  refine ⟨fun other row hrow => ?_, fun other row' hnone hrow => ?_⟩
  · rw [findAccount, Rows.get_update hid]
    change Rows.get AccountRow.accountId accounts other = some row at hrow
    rw [hrow, Option.map_some]
    split_ifs
    · exact ⟨f row, rfl, hsecrets row⟩
    · exact ⟨row, rfl, rfl⟩
  · rw [findAccount, Rows.get_update hid] at hrow
    change Rows.get AccountRow.accountId accounts other = none at hnone
    rw [hnone, Option.map_none, ite_self] at hrow
    cases hrow

/-- A new account. -/
theorem SecretsStay.concat (accounts : List AccountRow) {row : AccountRow}
    (hversion : row.credentialVersion = 1) : SecretsStay accounts (accounts ++ [row]) := by
  refine ⟨fun other old hold => ?_, fun other row' hnone hrow => ?_⟩
  · refine ⟨old, ?_, rfl⟩
    change Rows.get AccountRow.accountId accounts other = some old at hold
    rw [findAccount, Rows.get_append_singleton, hold]
    rfl
  · change Rows.get AccountRow.accountId accounts other = none at hnone
    rw [findAccount, Rows.get_append_singleton, hnone, Option.none_or] at hrow
    split_ifs at hrow
    rw [← Option.some.inj hrow]
    exact hversion

theorem insert_secretsStay {tables tables' : AccountTables} {accountId : Uuid}
    {displayName : String} {ciphertext : List UInt8} {accessExpiresAt : DateTime}
    {record : CredentialRecord}
    (h : insert tables accountId displayName ciphertext accessExpiresAt = .ok (record, tables')) :
    SecretsStay tables.accounts tables'.accounts := by
  obtain ⟨_, -, h⟩ := bind_eq_ok h
  split_ifs at h with hconflict
  obtain ⟨_, -, h⟩ := bind_eq_ok h
  obtain rfl := (Prod.mk.inj (Except.ok.inj h)).2
  exact .concat _ rfl

theorem setDisabled_secretsStay {tables tables' : AccountTables} {accountId : Uuid}
    {disabled : Bool} {clock : DateTime} {record : CredentialRecord}
    (h : setDisabled tables accountId disabled clock = .ok (record, tables')) :
    SecretsStay tables.accounts tables'.accounts := by
  obtain ⟨row, hrow, hrow', hothers, -⟩ := setDisabled_eq_ok h
  refine ⟨fun other old hold => ?_, fun other new hnone => ?_⟩
  · by_cases hother : other = accountId
    · subst hother
      obtain rfl := Option.some.inj (hrow.symm.trans hold)
      exact ⟨_, hrow', rfl⟩
    · exact ⟨old, (hothers other hother).trans hold, rfl⟩
  · by_cases hother : other = accountId
    · subst hother
      rw [hrow] at hnone
      cases hnone
    · rw [hothers other hother, hnone]
      exact fun hnew => nomatch hnew

/-- **An import leaves the secrets of the accounts alone.** -/
theorem apply_secretsStay {tables tables' : AccountTables} {bundle : ConfigBundle}
    {clock : DateTime} (h : ConfigTransfer.apply tables bundle clock = some tables') :
    SecretsStay tables.accounts tables'.accounts := by
  have hone (tables : AccountTables) (account : PortableWeReadAccount) :
      SecretsStay tables.accounts (ConfigTransfer.applyAccount clock tables account).accounts := by
    unfold ConfigTransfer.applyAccount
    split
    · dsimp only
      split_ifs
      · rw [accounts_resume]
        exact .update _ _ (fun _ => rfl) fun _ => rfl
      · exact .update _ _ (fun _ => rfl) fun _ => rfl
    · exact .concat _ rfl
  have hall : ∀ (portable : List PortableWeReadAccount) (tables : AccountTables),
      SecretsStay tables.accounts
        (portable.foldl (ConfigTransfer.applyAccount clock) tables).accounts := by
    intro portable
    induction portable with
    | nil => exact fun tables => .refl _
    | cons account portable ih => exact fun tables => (hone tables account).trans (ih _)
  obtain ⟨sources, -, rfl⟩ := Option.map_eq_some_iff.mp h
  exact hall _ tables

/-! ## Lease rows -/

namespace SqlLeases

variable {E : Type} (errors : LeaseErrors E) (references : Uuid → Except E Unit)

theorem map_key_put (rows : List LeaseRecord) (lease : LeaseRecord) :
    (put rows lease).map LeaseRecord.key = rows.map LeaseRecord.key := by
  rw [put, Rows.update, List.map_map]
  refine List.map_congr_left fun row _ => ?_
  rw [Function.comp_apply]
  split_ifs with hkey
  · exact hkey.symm
  · rfl

theorem nodup_remove {rows : List LeaseRecord} (hkeys : (rows.map LeaseRecord.key).Nodup)
    (key : Uuid) : ((Rows.remove LeaseRecord.key rows key).map LeaseRecord.key).Nodup :=
  (List.filter_sublist.map LeaseRecord.key).nodup hkeys

/-- The keys of the rows stay distinct. -/
theorem nodup_acquire {rows : List LeaseRecord} (hkeys : (rows.map LeaseRecord.key).Nodup)
    (key : Uuid) (owner : String) (leaseFor : Duration) (token : Uuid) (now : DateTime) :
    ((acquire errors references rows key owner leaseFor token now).1.map
      LeaseRecord.key).Nodup := by
  unfold acquire
  rcases hproposed : proposed errors key owner leaseFor token now with e | lease
  · exact hkeys
  obtain ⟨-, leaseUntil, -, rfl⟩ := proposed_eq_ok hproposed
  rcases hfind : find rows key with _ | row
  · dsimp only
    rcases references key with e | _
    · exact hkeys
    · rw [List.map_append, List.map_singleton]
      refine List.nodup_append.mpr ⟨hkeys, List.nodup_singleton _, ?_⟩
      rintro _ hmem _ hsingle rfl
      obtain ⟨row, hrow, hkey⟩ := List.mem_map.mp hmem
      exact Rows.get_eq_none.mp hfind row hrow (hkey.trans (List.mem_singleton.mp hsingle))
  · dsimp only
    split_ifs
    · rw [map_key_put]
      exact hkeys
    · exact hkeys

/-- **An acquisition brings its own token**, and no other. -/
theorem token_acquire (rows : List LeaseRecord) (key : Uuid) (owner : String) (leaseFor : Duration)
    (token : Uuid) (now : DateTime) :
    (∀ other lease,
        find (acquire errors references rows key owner leaseFor token now).1 other = some lease →
          find rows other = some lease ∨ lease.token = token) ∧
      ∀ lease, (acquire errors references rows key owner leaseFor token now).2 = .ok (some lease) →
        lease.token = token := by
  rcases @acquire_cases E errors references rows key owner leaseFor token now with
    ⟨answer, h, hrefused⟩ | ⟨new, hproposed, -, rows', h, hfind⟩
  · rw [h]
    exact ⟨fun _ _ => .inl, fun lease hlease => absurd hlease (hrefused lease)⟩
  · obtain ⟨-, leaseUntil, -, rfl⟩ := proposed_eq_ok hproposed
    rw [h]
    refine ⟨fun other lease hlease => ?_, fun lease hlease => ?_⟩
    · rw [hfind, Function.update_apply] at hlease
      split_ifs at hlease
      · exact .inr (Option.some.inj hlease ▸ rfl)
      · exact .inl hlease
    · rcases hdecode : errors.decodeLease ⟨key, owner, token, leaseUntil, now⟩ with e | decoded
      · rw [hdecode] at hlease
        cases hlease
      · rw [hdecode] at hlease
        obtain rfl := Option.some.inj (Except.ok.inj hlease)
        obtain ⟨_, -, hdecode⟩ := bind_eq_ok hdecode
        obtain ⟨_, -, hdecode⟩ := bind_eq_ok hdecode
        obtain ⟨_, -, hdecode⟩ := bind_eq_ok hdecode
        exact Except.ok.inj hdecode ▸ rfl

/-- The leases that are left had their token before. -/
def TokensStay (rows rows' : List LeaseRecord) : Prop :=
  ∀ key lease, find rows' key = some lease → ∃ old, find rows key = some old ∧
    old.token = lease.token

theorem tokensStay_refl (rows : List LeaseRecord) : TokensStay rows rows :=
  fun _ lease h => ⟨lease, h, rfl⟩

theorem tokensStay_remove (rows : List LeaseRecord) (key : Uuid) :
    TokensStay rows (Rows.remove LeaseRecord.key rows key) := by
  intro other lease h
  rw [find_remove, Function.update_apply] at h
  split_ifs at h
  exact ⟨lease, h, rfl⟩

theorem token_of_isHeldBy {row : LeaseRecord} {owner : String} {token : Uuid} {now : DateTime}
    (h : row.isHeldBy owner token now = true) : row.token = token := by
  simp only [LeaseRecord.isHeldBy, Bool.and_eq_true, decide_eq_true_eq] at h
  exact h.1.2

/-- **A heartbeat keeps the tokens.** -/
theorem tokensStay_heartbeat {rows : List LeaseRecord} (hkeys : (rows.map LeaseRecord.key).Nodup)
    (key : Uuid) (owner : String) (token : Uuid) (leaseFor : Duration) (now : DateTime) :
    TokensStay rows (heartbeat errors rows key owner token leaseFor now).1 ∧
      ((heartbeat errors rows key owner token leaseFor now).1.map LeaseRecord.key).Nodup := by
  rcases @heartbeat_cases E errors rows key owner token leaseFor now with
    ⟨e, h⟩ | ⟨row, leaseUntil, -, -, hrow, hheld, h⟩
  · rw [h]
    exact ⟨tokensStay_refl rows, hkeys⟩
  · rw [h]
    refine ⟨fun other lease hlease => ?_, ?_⟩
    · rw [find_put hrow, Function.update_apply] at hlease
      split_ifs at hlease with hother
      · rw [hother]
        exact ⟨row, hrow, (token_of_isHeldBy hheld).trans (Option.some.inj hlease ▸ rfl)⟩
      · exact ⟨lease, hlease, rfl⟩
    · rw [map_key_put]
      exact hkeys

/-- So does a release. -/
theorem tokensStay_release {rows : List LeaseRecord} (hkeys : (rows.map LeaseRecord.key).Nodup)
    (key : Uuid) (owner : String) (token : Uuid) (now : DateTime) :
    TokensStay rows (release errors rows key owner token now).1 ∧
      ((release errors rows key owner token now).1.map LeaseRecord.key).Nodup := by
  rcases @release_cases E errors rows key owner token now with ⟨e, h⟩ | ⟨row, -, -, h⟩
  · rw [h]
    exact ⟨tokensStay_refl rows, hkeys⟩
  · rw [h]
    exact ⟨tokensStay_remove rows key, nodup_remove hkeys key⟩

end SqlLeases

/-! ## The fence -/

namespace CredentialState

variable {s : CredentialState}

/-- **The invariant**: an operation whose token the lease row still carries has read what the
account still holds. -/
structure Fenced (s : CredentialState) : Prop where
  keys : (s.leases.map LeaseRecord.key).Nodup
  leased : ∀ key lease, SqlLeases.find s.leases key = some lease → lease.token ∈ s.drawn
  called : ∀ caller ∈ s.callers, caller.token ∈ s.drawn
  current : ∀ caller ∈ s.callers, ∀ seen, caller.stage = .loaded seen →
    ∀ lease, SqlLeases.find s.leases caller.accountId = some lease → lease.token = caller.token →
      ∀ read, findAccount seen.accounts caller.accountId = some read →
        ∃ row, findAccount s.accounts caller.accountId = some row ∧ row.secrets = read.secrets

theorem fenced_start (accounts : List AccountRow) (sources : List SourceRow) :
    (start accounts sources).Fenced :=
  ⟨List.nodup_nil, fun _ _ h => (nomatch h), fun _ h => absurd h List.not_mem_nil,
    fun _ h => absurd h List.not_mem_nil⟩

/-- Accounts that keep their secrets. -/
theorem Fenced.accounts (h : s.Fenced) {accounts : List AccountRow} (sources : List SourceRow)
    (hstay : SecretsStay s.accounts accounts) :
    { s with accounts := accounts, sources := sources }.Fenced := by
  refine ⟨h.keys, h.leased, h.called, ?_⟩
  intro caller hcaller seen hseen lease hlease htoken read hread
  obtain ⟨row, hrow, hsame⟩ := h.current caller hcaller seen hseen lease hlease htoken read hread
  obtain ⟨row', hrow', hsame'⟩ := hstay.stays _ row hrow
  exact ⟨row', hrow', hsame'.trans hsame⟩

/-- Leases that keep their tokens. -/
theorem Fenced.withLeases (h : s.Fenced) {leases : List LeaseRecord}
    (hstay : SqlLeases.TokensStay s.leases leases ∧ (leases.map LeaseRecord.key).Nodup) :
    { s with leases := leases }.Fenced := by
  obtain ⟨htokens, hkeys⟩ := hstay
  refine ⟨hkeys, fun key lease hlease => ?_, h.called, ?_⟩
  · obtain ⟨old, hold, hsame⟩ := htokens key lease hlease
    exact hsame ▸ h.leased key old hold
  · intro caller hcaller seen hseen lease hlease htoken
    obtain ⟨old, hold, hsame⟩ := htokens _ lease hlease
    exact h.current caller hcaller seen hseen old hold (hsame.trans htoken)

/-- Who is under way at a stage was under way, and has come to it only just. -/
theorem mem_reach {token : Uuid} {stage : CallerStage} {caller : CredentialCaller}
    (h : caller ∈ (s.reach token stage).callers) :
    ∃ old ∈ s.callers, old.accountId = caller.accountId ∧ old.token = caller.token ∧
      (caller.stage = old.stage ∧ old.token ≠ token ∨ caller.stage = stage) := by
  rcases Rows.mem_update h with ⟨hold, hother⟩ | ⟨old, hold, -, rfl⟩
  · exact ⟨caller, hold, rfl, rfl, .inl ⟨rfl, hother⟩⟩
  · exact ⟨old, hold, rfl, rfl, .inr rfl⟩

/-- An operation that comes to a stage: what it has read is what the account holds. -/
theorem Fenced.reach (h : s.Fenced) (token : Uuid) {stage : CallerStage}
    (hstage : ∀ seen, stage = .loaded seen → seen.accounts = s.accounts) :
    (s.reach token stage).Fenced := by
  refine ⟨h.keys, h.leased, fun caller hcaller => ?_, ?_⟩
  · obtain ⟨old, hold, -, htoken, -⟩ := mem_reach hcaller
    exact htoken ▸ h.called old hold
  · intro caller hcaller seen hseen lease hlease htoken read hread
    obtain ⟨old, hold, hid, holdtoken, ⟨hsame, -⟩ | hhere⟩ := mem_reach hcaller
    · rw [← hid] at hlease hread ⊢
      exact h.current old hold seen (hsame.symm.trans hseen) lease hlease
        (htoken.trans holdtoken.symm) read hread
    · rw [hstage seen (hhere.symm.trans hseen)] at hread
      exact ⟨read, hread, rfl⟩

theorem Fenced.finish (h : s.Fenced) (token : Uuid) : (s.reach token .finished).Fenced :=
  h.reach token fun _ hseen => (nomatch hseen)

/-- **A deletion** takes the lease along, so nobody is left who could write. -/
theorem Fenced.delete (h : s.Fenced) (accountId : Uuid) :
    { s with
      accounts := Rows.remove AccountRow.accountId s.accounts accountId
      leases := Rows.remove LeaseRecord.key s.leases accountId }.Fenced := by
  have hleft := h.withLeases ⟨SqlLeases.tokensStay_remove s.leases accountId,
    SqlLeases.nodup_remove h.keys accountId⟩
  refine ⟨hleft.keys, hleft.leased, h.called, ?_⟩
  intro caller hcaller seen hseen lease hlease htoken read hread
  have hother : caller.accountId ≠ accountId := by
    rintro heq
    rw [SqlLeases.find_remove, heq, Function.update_self] at hlease
    cases hlease
  obtain ⟨row, hrow, hsame⟩ :=
    hleft.current caller hcaller seen hseen lease hlease htoken read hread
  refine ⟨row, ?_, hsame⟩
  rw [findAccount, Rows.get_remove, if_neg hother]
  exact hrow

/-- **An acquisition** puts a token in the lease row, if any, that nobody under way has. -/
theorem Fenced.draw (h : s.Fenced) {token : Uuid} (hfresh : token ∉ s.drawn)
    {leases : List LeaseRecord} (hkeys : (leases.map LeaseRecord.key).Nodup)
    (hleases : ∀ key lease, SqlLeases.find leases key = some lease →
      SqlLeases.find s.leases key = some lease ∨ lease.token = token)
    {callers : List CredentialCaller}
    (hcallers : callers = s.callers ∨ ∃ caller : CredentialCaller,
      callers = caller :: s.callers ∧ caller.token = token ∧ caller.stage = .acquired) :
    { s with leases := leases, drawn := token :: s.drawn, callers := callers }.Fenced := by
  have hmem : ∀ caller ∈ callers, caller ∈ s.callers ∨
      caller.token = token ∧ caller.stage = .acquired := by
    intro caller hcaller
    rcases hcallers with rfl | ⟨new, rfl, hnew⟩
    · exact .inl hcaller
    · rcases List.mem_cons.mp hcaller with rfl | hold
      · exact .inr hnew
      · exact .inl hold
  have holder : ∀ caller ∈ s.callers, caller.token ≠ token := fun caller hcaller heq =>
    hfresh (heq ▸ h.called caller hcaller)
  refine ⟨hkeys, fun key lease hlease => ?_, fun caller hcaller => ?_, ?_⟩
  · rcases hleases key lease hlease with hold | hnew
    · exact List.mem_cons_of_mem _ (h.leased key lease hold)
    · exact hnew ▸ List.mem_cons_self
  · rcases hmem caller hcaller with hold | ⟨hnew, -⟩
    · exact List.mem_cons_of_mem _ (h.called caller hold)
    · exact hnew ▸ List.mem_cons_self
  · intro caller hcaller seen hseen lease hlease htoken
    rcases hmem caller hcaller with hold | ⟨-, hstage⟩
    · rcases hleases _ lease hlease with hsame | hnew
      · exact h.current caller hold seen hseen lease hsame htoken
      · exact absurd (htoken.symm.trans hnew) (holder caller hold)
    · rw [hstage] at hseen
      cases hseen

theorem Fenced.acquire (h : s.Fenced) (now : DateTime) (accountId : Uuid) (owner : String)
    (leaseFor : Duration) {token : Uuid} (hfresh : token ∉ s.drawn) :
    (s.acquire now accountId owner leaseFor token).Fenced := by
  have hkeys := SqlLeases.nodup_acquire accountLeaseErrors (fun _ => .ok ()) h.keys accountId owner
    leaseFor token now
  obtain ⟨hleases, hgranted⟩ := SqlLeases.token_acquire accountLeaseErrors (fun _ => .ok ())
    s.leases accountId owner leaseFor token now
  refine h.draw hfresh hkeys hleases ?_
  rcases hanswer : (PostgresAccountLeaseRepository.acquire s.leases accountId owner leaseFor token
    now).2 with e | (_ | lease)
  · exact .inl rfl
  · exact .inl rfl
  · exact .inr ⟨_, rfl, hgranted lease hanswer, rfl⟩

/-! ## Steps -/

/-- **A replacement of credentials**: an operation writes over what it has read under the lease it
still holds, and the version advances by one. -/
structure Replaced (s s' : CredentialState) (a : DateTime × CredentialAction) (accountId : Uuid)
    (caller : CredentialCaller) (seen : AccountTables) (read row row' : AccountRow) : Prop where
  writer : a.2.writer = some caller.token
  underWay : caller ∈ s.callers
  account : caller.accountId = accountId
  loaded : caller.stage = .loaded seen
  readThen : findAccount seen.accounts accountId = some read
  live : hasLiveLease s.tables accountId caller.guard.owner caller.guard.token a.1 = true
  before : findAccount s.accounts accountId = some row
  after : findAccount s'.accounts accountId = some row'
  unchanged : row.secrets = read.secrets
  version : row'.credentialVersion = row.credentialVersion + 1

/-- **What one step does to the accounts**: secrets change by a replacement only, accounts begin at
version one, and they go by a deletion. -/
structure Accounted (s s' : CredentialState) (a : DateTime × CredentialAction)
    (replaced : Option Uuid) : Prop where
  stays : ∀ accountId, replaced ≠ some accountId → ∀ row row',
    findAccount s.accounts accountId = some row → findAccount s'.accounts accountId = some row' →
      row'.secrets = row.secrets
  appears : ∀ accountId row', findAccount s.accounts accountId = none →
    findAccount s'.accounts accountId = some row' → row'.credentialVersion = 1
  vanishes : ∀ accountId row, findAccount s.accounts accountId = some row →
    findAccount s'.accounts accountId = none → a.2 = .delete accountId
  replaced : ∀ accountId, replaced = some accountId →
    ∃ caller seen read row row', Replaced s s' a accountId caller seen read row row'

variable {a : DateTime × CredentialAction}

/-- A step that leaves the secrets alone. -/
theorem accounted_of_stay {s' : CredentialState} (hstay : SecretsStay s.accounts s'.accounts) :
    Accounted s s' a none := by
  refine ⟨fun accountId _ row row' hrow hrow' => ?_, hstay.appears,
    fun accountId row hrow hnone => ?_, fun _ h => (nomatch h)⟩
  · obtain ⟨last, hlast, hsame⟩ := hstay.stays accountId row hrow
    exact Option.some.inj (hlast.symm.trans hrow') ▸ hsame
  · obtain ⟨last, hlast, -⟩ := hstay.stays accountId row hrow
    rw [hnone] at hlast
    cases hlast

/-- What the credential repository takes for a live lease is the lease row of the account. -/
theorem lease_of_hasLiveLease (h : s.Fenced) {accountId : Uuid} {owner : String} {token : Uuid}
    {clock : DateTime} (hlive : hasLiveLease s.tables accountId owner token clock = true) :
    ∃ lease, SqlLeases.find s.leases accountId = some lease ∧ lease.token = token := by
  obtain ⟨row, hrow, hheld⟩ := List.any_eq_true.mp hlive
  obtain ⟨lease, hlease, rfl⟩ := List.mem_map.mp hrow
  obtain ⟨hkey, -, htoken, -⟩ := of_decide_eq_true hheld
  refine ⟨lease, ?_, htoken⟩
  rw [SqlLeases.find, ← hkey]
  exact Rows.get_of_mem h.keys hlease

/-- **A write** goes over what its caller has read; the token of anyone else is out of the lease
row. -/
theorem Fenced.written (h : s.Fenced) {caller : CredentialCaller} (hcaller : caller ∈ s.callers)
    (hwriter : a.2.writer = some caller.token) {seen tables : AccountTables}
    {read row row' : AccountRow}
    (hstage : caller.stage = .loaded seen)
    (hread : findAccount seen.accounts caller.accountId = some read)
    (hwrite : FencedWrite s.tables tables caller.accountId caller.guard.owner caller.guard.token a.1
      row row') :
    ((s.reach caller.token .finished).applied (some tables)).Fenced ∧
      Accounted s ((s.reach caller.token .finished).applied (some tables)) a
        (some caller.accountId) := by
  obtain ⟨lease, hlease, hheld⟩ := lease_of_hasLiveLease h hwrite.live
  have hfinished := h.finish caller.token
  refine ⟨⟨h.keys, h.leased, hfinished.called, ?_⟩, ?_⟩
  · intro other hother seen' hseen lease' hlease' htoken read' hread'
    obtain ⟨old, hold, hid, holdtoken, ⟨hsame, hne⟩ | hhere⟩ := mem_reach hother
    · have hapart : other.accountId ≠ caller.accountId := by
        intro heq
        rw [heq] at hlease'
        obtain rfl := Option.some.inj (hlease.symm.trans hlease')
        exact hne (holdtoken.trans (htoken.symm.trans hheld))
      obtain ⟨row, hrow, hsecrets⟩ :=
        hfinished.current other hother seen' hseen lease' hlease' htoken read' hread'
      exact ⟨row, (hwrite.others _ hapart).trans hrow, hsecrets⟩
    · rw [hhere] at hseen
      cases hseen
  · refine ⟨?_, ?_, ?_, ?_⟩
    · intro accountId hne old new hold hnew
      have hother : accountId ≠ caller.accountId := fun heq => hne (congrArg some heq.symm)
      obtain rfl := Option.some.inj (((hwrite.others _ hother).symm.trans hnew).symm.trans hold)
      rfl
    · intro accountId new hnone hnew
      by_cases hother : accountId = caller.accountId
      · rw [hother] at hnone
        exact absurd (hwrite.before.symm.trans hnone) (fun h => nomatch h)
      · exact absurd (((hwrite.others _ hother).symm.trans hnew).symm.trans hnone)
          (fun h => nomatch h)
    · intro accountId old hold hnone
      by_cases hother : accountId = caller.accountId
      · rw [hother] at hnone
        exact absurd (hwrite.after.symm.trans hnone) (fun h => nomatch h)
      · exact absurd (((hwrite.others _ hother).symm.trans hnone).symm.trans hold)
          (fun h => nomatch h)
    · rintro accountId ⟨⟩
      obtain ⟨current, hcurrent, hsecrets⟩ :=
        h.current caller hcaller seen hstage lease hlease hheld read hread
      obtain rfl := Option.some.inj (hcurrent.symm.trans hwrite.before)
      exact ⟨caller, seen, read, current, row', hwriter, hcaller, rfl, hstage, hread, hwrite.live,
        hwrite.before, hwrite.after, hsecrets, hwrite.version⟩

/-! ## The bodies of the operations -/

section Bodies

variable [SerdeJson] [RingCrate] {service : AuthService}

omit [SerdeJson] [RingCrate] in
theorem find_of_load {tables : AccountTables} {accountId : Uuid} {record : CredentialRecord}
    (h : AuthService.load tables accountId = .ok record) :
    ∃ read, findAccount tables.accounts accountId = some read := by
  cases hread : findAccount tables.accounts accountId with
  | none =>
    rw [AuthService.load, CredentialRepository.find, hread] at h
    cases h
  | some read => exact ⟨read, rfl⟩

/-- **The body of `replace`** has read the account, and writes under its lease. -/
theorem replaceUnderLease_fenced {seen tables tables' : AccountTables}
    {request : CredentialProvision} {nonce : Option CipherNonce} {lease : LeaseAnswers}
    {clock : DateTime} {guard : AccountLeaseGuard} {account : WeReadAccount}
    (h : service.replaceUnderLease seen tables request nonce lease clock guard
      = .ok (account, tables')) :
    ∃ read row row', findAccount seen.accounts request.accountId = some read ∧
      FencedWrite tables tables' request.accountId guard.owner guard.token clock row row' := by
  obtain ⟨current, hload, h⟩ := bind_eq_ok h
  obtain ⟨read, hread⟩ := find_of_load hload
  obtain ⟨ciphertext, -, h⟩ := bind_eq_ok h
  obtain ⟨_, -, h⟩ := bind_eq_ok h
  split_ifs at h with hsetup
  · obtain ⟨written, hwrite, h⟩ := bind_eq_ok h
    obtain rfl : written.2 = tables' := congrArg Prod.snd (Except.ok.inj h)
    obtain ⟨row, row', -, -, -, hfenced⟩ :=
      enrollPlaceholder_eq_ok (AuthService.mapError_eq_ok hwrite)
    exact ⟨read, row, row', hread, hfenced⟩
  · obtain ⟨written, hwrite, h⟩ := bind_eq_ok h
    obtain rfl : written.2 = tables' := congrArg Prod.snd (Except.ok.inj h)
    obtain ⟨row, row', -, -, hfenced⟩ := replace_eq_ok (AuthService.mapError_eq_ok hwrite)
    exact ⟨read, row, row', hread, hfenced⟩

/-- **So does the body of a refresh**, unless it finds nothing to refresh. -/
theorem refreshUnderLease_fenced {tables tables' : AccountTables} {accountId : Uuid}
    {lease : LeaseAnswers} {answers : AuthService.RefreshAnswers} {guard : AccountLeaseGuard}
    {outcome : AuthRefreshOutcome}
    (h : service.refreshUnderLease tables accountId lease answers guard = .ok (outcome, tables')) :
    (outcome.refreshes = true → ∃ read row row',
        findAccount answers.seen.accounts accountId = some read ∧
          FencedWrite tables tables' accountId guard.owner guard.token answers.clock row row') ∧
      (outcome.refreshes = false → tables' = tables) := by
  obtain ⟨⟨record, found⟩, hneeds, h⟩ := bind_eq_ok h
  cases found with
  | none =>
    obtain ⟨rfl, rfl⟩ := Prod.mk.inj (Except.ok.inj h)
    exact ⟨fun h => (nomatch h), fun _ => rfl⟩
  | some current =>
    obtain ⟨loaded, hload, -⟩ := bind_eq_ok hneeds
    obtain ⟨read, hread⟩ := find_of_load hload
    obtain ⟨credentials, -, h⟩ := bind_eq_ok h
    obtain ⟨ciphertext, -, h⟩ := bind_eq_ok h
    obtain ⟨written, hwrite, h⟩ := bind_eq_ok h
    obtain ⟨rfl, rfl⟩ := Prod.mk.inj (Except.ok.inj h)
    obtain ⟨row, row', -, -, hfenced⟩ := replace_eq_ok (AuthService.mapError_eq_ok hwrite)
    exact ⟨fun _ => ⟨read, row, row', hread, hfenced⟩, fun h => (nomatch h)⟩

omit [SerdeJson] [RingCrate] in
/-- The end of a body. -/
theorem Fenced.write {A : Type} (h : s.Fenced) {caller : CredentialCaller}
    (hcaller : caller ∈ s.callers) (hwriter : a.2.writer = some caller.token) {seen : AccountTables}
    (hstage : caller.stage = .loaded seen) {stores : A → Bool}
    {result : Except AuthServiceError (A × AccountTables)}
    (hstores : ∀ answer tables, result = .ok (answer, tables) → stores answer = true →
      ∃ read row row', findAccount seen.accounts caller.accountId = some read ∧
        FencedWrite s.tables tables caller.accountId caller.guard.owner caller.guard.token a.1
          row row')
    (hkeeps : ∀ answer tables, result = .ok (answer, tables) → stores answer = false →
      tables = s.tables) :
    (s.write caller stores result).1.Fenced ∧
      Accounted s (s.write caller stores result).1 a (s.write caller stores result).2 := by
  rcases result with e | ⟨answer, tables⟩
  · exact ⟨h.finish caller.token, accounted_of_stay (.refl _)⟩
  · unfold CredentialState.write
    dsimp only
    by_cases hanswer : stores answer = true
    · obtain ⟨read, row, row', hread, hwrite⟩ := hstores answer tables rfl hanswer
      rw [if_pos hanswer]
      exact h.written hcaller hwriter hstage hread hwrite
    · obtain rfl := hkeeps answer tables rfl (Bool.not_eq_true _ ▸ hanswer)
      rw [if_neg hanswer]
      exact ⟨h.finish caller.token, accounted_of_stay (.refl _)⟩

omit [SerdeJson] [RingCrate] in
/-- The end of a call that leaves the secrets alone. -/
theorem Fenced.applied (h : s.Fenced) {tables : Option AccountTables}
    (hstay : ∀ left, tables = some left → SecretsStay s.accounts left.accounts) :
    (s.applied tables).Fenced ∧ Accounted s (s.applied tables) a none := by
  cases tables with
  | none => exact ⟨h, accounted_of_stay (.refl _)⟩
  | some left =>
    have hleft := hstay left rfl
    exact ⟨h.accounts left.sources hleft, accounted_of_stay hleft⟩

end Bodies

/-! ## Runs -/

theorem ok_of_toOption {E A : Type} {x : Except E A} {answer : A}
    (h : x.toOption = some answer) : x = .ok answer := by
  cases x with
  | error e => cases h
  | ok value => exact congrArg _ (Option.some.inj h)

/-- **A deletion** is accounted for. -/
theorem accounted_of_delete (leases : List LeaseRecord) {accountId : Uuid}
    (hdelete : a.2 = .delete accountId) :
    Accounted s { s with
      accounts := Rows.remove AccountRow.accountId s.accounts accountId
      leases := leases } a none := by
  have hleft (other : Uuid) : findAccount (Rows.remove AccountRow.accountId s.accounts accountId)
      other = if other = accountId then none else findAccount s.accounts other :=
    Rows.get_remove s.accounts accountId other
  refine ⟨fun other _ row row' hrow hrow' => ?_, fun other row' hnone hrow' => ?_,
    fun other row hrow hnone => ?_, fun _ h => (nomatch h)⟩
  · rw [hleft] at hrow'
    split_ifs at hrow'
    rw [Option.some.inj (hrow.symm.trans hrow')]
  · rw [hleft] at hrow'
    split_ifs at hrow'
    rw [hnone] at hrow'
    cases hrow'
  · rw [hleft] at hnone
    split_ifs at hnone with hother
    · rw [hother]
      exact hdelete
    · rw [hrow] at hnone
      cases hnone

section Runs

variable [SerdeJson] [RingCrate] (service : AuthService)

/-- **One step** keeps the invariant and accounts for what it changes. -/
theorem Fenced.step (h : s.Fenced) (hfresh : s.DrawsFresh a) :
    (s.step service a).1.Fenced ∧ Accounted s (s.step service a).1 a (s.step service a).2 := by
  obtain ⟨now, action⟩ := a
  cases action with
  | provision request nonce =>
    refine h.applied fun left hleft => ?_
    obtain ⟨⟨account, tables⟩, hcall, rfl⟩ := Option.map_eq_some_iff.mp hleft
    obtain ⟨ciphertext, -, hcall⟩ := bind_eq_ok (ok_of_toOption hcall)
    obtain ⟨written, hwrite, hcall⟩ := bind_eq_ok hcall
    obtain ⟨-, rfl⟩ := Prod.mk.inj (Except.ok.inj hcall)
    exact insert_secretsStay (AuthService.mapError_eq_ok hwrite)
  | setDisabled accountId disabled =>
    refine h.applied fun left hleft => ?_
    obtain ⟨⟨record, tables⟩, hcall, rfl⟩ := Option.map_eq_some_iff.mp hleft
    exact setDisabled_secretsStay (ok_of_toOption hcall)
  | delete accountId =>
    unfold CredentialState.step CredentialRepository.delete
    dsimp only
    by_cases hfound : (findAccount s.accounts accountId).isSome = true
    · rw [if_pos hfound]
      exact ⟨h.delete accountId, accounted_of_delete _ rfl⟩
    · rw [if_neg hfound]
      exact ⟨h, accounted_of_stay (.refl _)⟩
  | importBundle bundle => exact h.applied fun left hleft => apply_secretsStay hleft
  | acquire accountId owner leaseFor token =>
    exact ⟨h.acquire now accountId owner leaseFor hfresh, accounted_of_stay (.refl _)⟩
  | heartbeat token leaseFor =>
    unfold CredentialState.step
    dsimp only
    cases s.caller token with
    | none => exact ⟨h, accounted_of_stay (.refl _)⟩
    | some caller =>
      exact ⟨h.withLeases (SqlLeases.tokensStay_heartbeat accountLeaseErrors h.keys _ _ _ _ _),
        accounted_of_stay (.refl _)⟩
  | release token =>
    unfold CredentialState.step
    dsimp only
    cases s.caller token with
    | none => exact ⟨h, accounted_of_stay (.refl _)⟩
    | some caller =>
      exact ⟨(h.finish token).withLeases
        (SqlLeases.tokensStay_release accountLeaseErrors h.keys _ _ _ _),
        accounted_of_stay (.refl _)⟩
  | load token =>
    unfold CredentialState.step
    dsimp only
    split
    · refine ⟨h.reach token fun seen hseen => ?_, accounted_of_stay (.refl _)⟩
      cases hseen
      rfl
    · exact ⟨h, accounted_of_stay (.refl _)⟩
  | replace token displayName credentials nonce lease =>
    unfold CredentialState.step
    dsimp only
    split
    · rename_i accountId guard seen hcaller
      have htoken : CredentialCaller.token ⟨accountId, guard, .loaded seen⟩ = token :=
        Rows.key_of_get hcaller
      exact h.write (a := (now, .replace token displayName credentials nonce lease))
        (Rows.mem_of_get hcaller) (congrArg some htoken.symm) rfl
        (fun _ _ hbody _ => replaceUnderLease_fenced hbody) fun _ _ _ hno => (nomatch hno)
    · exact ⟨h, accounted_of_stay (.refl _)⟩
  | refresh token lease answers =>
    unfold CredentialState.step
    dsimp only
    split
    · rename_i accountId guard seen hcaller
      have htoken : CredentialCaller.token ⟨accountId, guard, .loaded seen⟩ = token :=
        Rows.key_of_get hcaller
      exact h.write (a := (now, .refresh token lease answers))
        (Rows.mem_of_get hcaller) (congrArg some htoken.symm) rfl
        (fun _ _ hbody => (refreshUnderLease_fenced hbody).1)
        fun _ _ hbody => (refreshUnderLease_fenced hbody).2
    · exact ⟨h, accounted_of_stay (.refl _)⟩

/-- **Credentials are replaced over what their caller has read, under its live lease, and the
version counts the replacements**: so for every step of every run in which each acquisition draws a
fresh token. -/
theorem replacements_fenced (accounts : List AccountRow) (sources : List SourceRow)
    (actions : List (DateTime × CredentialAction))
    (hfresh : Meets (fun s a => (s.step service a).1) DrawsFresh (start accounts sources) actions) :
    Meets (fun s a => (s.step service a).1)
      (fun s a => Accounted s (s.step service a).1 a (s.step service a).2)
      (start accounts sources) actions :=
  meets_of_invariant (P := Fenced) (fun _ _ h hdraws => h.step service hdraws) actions
    (fenced_start accounts sources) hfresh

end Runs

/-! ## A refresh between a pause and an import -/

section Samples

attribute [local instance] plainJson plainRing

/-- An operator pauses and an import enables the account while it is logged in anew. -/
def reloginActions : List (DateTime × CredentialAction) :=
  [(2000000000000000000, .provision ⟨⟨1⟩, "reader", loginCredentials 2000000000000000000⟩
      (some zeroNonce)),
    (2000000000000000000, .acquire ⟨1⟩ "worker" 30000000000 ⟨7⟩),
    (2000000000000000000, .load ⟨7⟩),
    (2000000000000000000, .setDisabled ⟨1⟩ true),
    (2000000000000000000, .importBundle ⟨none, some [⟨⟨1⟩, "reader", true⟩]⟩),
    (2000000001000000000, .heartbeat ⟨7⟩ 30000000000),
    (2000000001000000000, .replace ⟨7⟩ "reader" (loginCredentials 2000000600000000000)
      (some zeroNonce) ⟨.ok none, .ok (), .ok (), .ok (), .ok (), .ok ()⟩),
    (2000000002000000000, .release ⟨7⟩),
    (2000000003000000000, .delete ⟨1⟩)]

theorem replacements_fenced_relogin :
    Meets (fun s a => (CredentialState.step plainAuth s a).1)
      (fun s a => Accounted s (CredentialState.step plainAuth s a).1 a
        (CredentialState.step plainAuth s a).2) (start [] []) reloginActions := by
  refine replacements_fenced plainAuth [] [] reloginActions ?_
  simp only [reloginActions, Meets, DrawsFresh, true_and, and_true]
  decide +kernel

/-- The login is replaced once. -/
example : (reloginActions.foldl (fun (s, versions) a =>
    let next := CredentialState.step plainAuth s a
    (next.1, versions ++ next.2.toList)) (start [] [], ([] : List Uuid))).2 = [⟨1⟩] := by
  decide +kernel

end Samples

end CredentialState

end Werrss
