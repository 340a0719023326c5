import Werrss.Persistence.LeaseRepository

/-!
# Application/CredentialReport — what the answer of a credential operation says of the tables

    acquire ─▸ start ─▸ load ─▸ encrypt ─▸ WRITE ─▸ stop heartbeat ─▸ release ─▸ the body's answer
       └─ Err ──┴─ Err ──┴─ Err ──┴─ Err ───┴─ Err     └─ Err ───────────┴─ Err
                    nothing stored                       stored all the same

The other callers run between any two of these points: the tables of the load and those of the write
are whatever they have made of them, and what the lease store answers is whatever it is by then.
The errors of the heartbeat and of the release come before the answer of the body, so that a lost
lease is not taken for a clean operation: they are **the only errors behind a write**.
-/

open Machinery

namespace Werrss

/-- An outcome that reports a refresh. -/
def AuthRefreshOutcome.refreshes : AuthRefreshOutcome → Bool
  | .refreshed _ => true
  | .unchanged _ => false

/-- The error of an operation whose lease was lost behind its write. -/
def LeaseAnswers.LostBehind (lease : LeaseAnswers) (error : AuthServiceError) : Prop :=
  ∃ lost, error = .lease lost ∧
    (lease.stopped = .error lost ∨ lease.stopped = .ok () ∧ lease.released = .error lost)

namespace AuthService

/-- **The write of an operation**: the account's row holds these credentials under the next
version. -/
structure Written [SerdeJson] [RingCrate] (service : AuthService) (tables tables' : AccountTables)
    (accountId : Uuid) (credentials : WeReadCredentials) : Prop where
  holds : ∃ nonce ciphertext, service.cipher.encrypt nonce accountId credentials = .ok ciphertext ∧
    CredentialRepository.Holds tables' accountId ciphertext credentials.accessExpiresAt
  advances : ∃ row row', CredentialRepository.findAccount tables.accounts accountId = some row ∧
    CredentialRepository.findAccount tables'.accounts accountId = some row' ∧
    row'.credentialVersion = row.credentialVersion + 1

/-- **What an answer says**: of those that `stores` names, that `wrote` holds of the tables; of the
others, that nothing is stored; and of an error the same, unless the lease was lost behind the
write. -/
structure Reported {A : Type} (tables : AccountTables) (lease : LeaseAnswers) (stores : A → Prop)
    (wrote : AccountTables → Prop) (outcome : Except AuthServiceError A × AccountTables) :
    Prop where
  stored : ∀ a, outcome.1 = .ok a → stores a → wrote outcome.2
  unchanged : ∀ a, outcome.1 = .ok a → ¬ stores a → outcome.2 = tables
  failed : ∀ error, outcome.1 = .error error →
    outcome.2 = tables ∨ wrote outcome.2 ∧ lease.LostBehind error

/-! ## The lease around the body -/

section Lease

variable {A : Type} {tables : AccountTables} {lease : LeaseAnswers} {stores : A → Prop}
  {wrote : AccountTables → Prop}

/-- An operation that fails before its write. -/
theorem reported_error (error : AuthServiceError) :
    Reported tables lease stores wrote (.error error, tables) :=
  ⟨fun _ h => (nomatch h), fun _ h => (nomatch h), fun _ _ => .inl rfl⟩

/-- **The lease around a body**: what a body leaves is left, whatever the lease store answers
behind it. -/
theorem underLease_reported {accountId : Uuid}
    {body : AccountLeaseGuard → Except AuthServiceError (A × AccountTables)}
    (hstores : ∀ guard a tables', body guard = .ok (a, tables') → stores a → wrote tables')
    (hkeeps : ∀ guard a tables', body guard = .ok (a, tables') → ¬ stores a → tables' = tables) :
    Reported tables lease stores wrote (underLease tables accountId lease body) := by
  unfold underLease
  rcases lease.acquired with error | _ | guard
  · exact reported_error _
  · exact reported_error _
  rcases lease.started with error | _
  · exact reported_error _
  dsimp only
  rcases hbody : body guard with error | ⟨a, tables'⟩
  · rcases lease.stopped with lost | _
    · exact reported_error _
    · rcases lease.released with lost | _
      · exact reported_error _
      · exact reported_error error
  · have hleft : tables' = tables ∨ wrote tables' := by
      by_cases h : stores a
      · exact .inr (hstores guard a tables' hbody h)
      · exact .inl (hkeeps guard a tables' hbody h)
    rcases hstop : lease.stopped with lost | _
    · refine ⟨fun _ h => (nomatch h), fun _ h => (nomatch h), fun error herror => ?_⟩
      exact hleft.imp_right fun h => ⟨h, lost, (Except.error.inj herror).symm, .inl hstop⟩
    · rcases hrelease : lease.released with lost | _
      · refine ⟨fun _ h => (nomatch h), fun _ h => (nomatch h), fun error herror => ?_⟩
        exact hleft.imp_right fun h =>
          ⟨h, lost, (Except.error.inj herror).symm, .inr ⟨hstop, hrelease⟩⟩
      · refine ⟨fun _ h => ?_, fun _ h => ?_, fun error herror => (nomatch herror)⟩
        · obtain rfl := Except.ok.inj h
          exact hstores guard _ tables' hbody
        · obtain rfl := Except.ok.inj h
          exact hkeeps guard _ tables' hbody

end Lease

/-! ## The bodies -/

section Bodies

variable [SerdeJson] [RingCrate] {service : AuthService}

open CredentialRepository

/-- **The body of `replace` answers only behind its write.** -/
theorem replaceUnderLease_written {seen tables tables' : AccountTables}
    {request : CredentialProvision} {nonce : Option CipherNonce} {lease : LeaseAnswers}
    {clock : DateTime} {guard : AccountLeaseGuard} {account : WeReadAccount}
    (h : service.replaceUnderLease seen tables request nonce lease clock guard
      = .ok (account, tables')) :
    service.Written tables tables' request.accountId request.credentials := by
  obtain ⟨current, -, h⟩ := bind_eq_ok h
  obtain ⟨ciphertext, hencrypt, h⟩ := bind_eq_ok h
  obtain ⟨_, -, h⟩ := bind_eq_ok h
  split_ifs at h with hsetup
  · obtain ⟨written, hwrite, h⟩ := bind_eq_ok h
    obtain rfl : written.2 = tables' := congrArg Prod.snd (Except.ok.inj h)
    have hwrite := mapError_eq_ok hwrite
    obtain ⟨row, row', -, -, -, hfenced⟩ := enrollPlaceholder_eq_ok hwrite
    exact ⟨⟨nonce, ciphertext, mapError_eq_ok hencrypt, enrollPlaceholder_holds hwrite⟩,
      row, row', hfenced.before, hfenced.after, hfenced.version⟩
  · obtain ⟨written, hwrite, h⟩ := bind_eq_ok h
    obtain rfl : written.2 = tables' := congrArg Prod.snd (Except.ok.inj h)
    have hwrite := mapError_eq_ok hwrite
    obtain ⟨row, row', -, -, hfenced⟩ := replace_eq_ok hwrite
    exact ⟨⟨nonce, ciphertext, mapError_eq_ok hencrypt, replace_holds hwrite⟩,
      row, row', hfenced.before, hfenced.after, hfenced.version⟩

/-- **The body of a refresh** reports a refresh behind its write only, and otherwise leaves the
tables alone. -/
theorem refreshUnderLease_reports {tables tables' : AccountTables} {accountId : Uuid}
    {lease : LeaseAnswers} {answers : RefreshAnswers} {guard : AccountLeaseGuard}
    {outcome : AuthRefreshOutcome}
    (h : service.refreshUnderLease tables accountId lease answers guard = .ok (outcome, tables')) :
    (outcome.refreshes = true →
        ∃ credentials, service.Written tables tables' accountId credentials) ∧
      (¬ outcome.refreshes = true → tables' = tables) := by
  obtain ⟨⟨record, found⟩, -, h⟩ := bind_eq_ok h
  cases found with
  | none =>
    obtain ⟨rfl, rfl⟩ := Prod.mk.inj (Except.ok.inj h)
    exact ⟨fun h => (nomatch h), fun _ => rfl⟩
  | some current =>
    obtain ⟨credentials, -, h⟩ := bind_eq_ok h
    obtain ⟨ciphertext, hencrypt, h⟩ := bind_eq_ok h
    obtain ⟨written, hwrite, h⟩ := bind_eq_ok h
    obtain ⟨rfl, rfl⟩ := Prod.mk.inj (Except.ok.inj h)
    have hwrite := mapError_eq_ok hwrite
    obtain ⟨row, row', -, -, hfenced⟩ := replace_eq_ok hwrite
    refine ⟨fun _ => ⟨credentials, ?_⟩, fun h => absurd rfl h⟩
    exact ⟨⟨answers.nonce, ciphertext, mapError_eq_ok hencrypt, replace_holds hwrite⟩,
      row, row', hfenced.before, hfenced.after, hfenced.version⟩

/-! ## The operations -/

/-- `replace` reports what it stored. -/
theorem replace_reported (seen tables : AccountTables) (request : CredentialProvision)
    (nonce : Option CipherNonce) (lease : LeaseAnswers) (clock : DateTime) :
    Reported tables lease (fun _ => True)
      (fun tables' => service.Written tables tables' request.accountId request.credentials)
      (service.replace seen tables request nonce lease clock) :=
  underLease_reported (fun _ _ _ h _ => replaceUnderLease_written h)
    fun _ _ _ _ h => absurd trivial h

/-- So does `refresh_if_needed`. -/
theorem refreshIfNeeded_reported (initial tables : AccountTables) (accountId : Uuid)
    (now : DateTime) (lease : LeaseAnswers) (answers : RefreshAnswers) :
    Reported tables lease (fun outcome => outcome.refreshes = true)
      (fun tables' => ∃ credentials, service.Written tables tables' accountId credentials)
      (service.refreshIfNeeded initial tables accountId now lease answers) := by
  unfold refreshIfNeeded
  rcases service.needsRefresh initial accountId now with error | ⟨record, _ | current⟩
  · exact reported_error error
  · refine ⟨?_, fun _ _ _ => rfl, fun _ h => (nomatch h)⟩
    rintro outcome h hrefreshes
    obtain rfl := Except.ok.inj h
    cases hrefreshes
  · exact underLease_reported (fun _ _ _ h => (refreshUnderLease_reports h).1)
      fun _ _ _ h => (refreshUnderLease_reports h).2

/-- **What the answer of a credential operation says**: behind a success the write has happened; an
error has stored nothing, unless it is that of a lease lost behind the write. -/
theorem answers_reported :
    (∀ (seen tables : AccountTables) (request : CredentialProvision) (nonce : Option CipherNonce)
        (lease : LeaseAnswers) (clock : DateTime),
      Reported tables lease (fun _ => True)
        (fun tables' => service.Written tables tables' request.accountId request.credentials)
        (service.replace seen tables request nonce lease clock)) ∧
      ∀ (initial tables : AccountTables) (accountId : Uuid) (now : DateTime) (lease : LeaseAnswers)
        (answers : RefreshAnswers),
      Reported tables lease (fun outcome => outcome.refreshes = true)
        (fun tables' => ∃ credentials, service.Written tables tables' accountId credentials)
        (service.refreshIfNeeded initial tables accountId now lease answers) :=
  ⟨replace_reported, refreshIfNeeded_reported⟩

end Bodies

/-! ## A release that comes too late -/

section Samples

attribute [local instance] plainJson plainRing

/-- The lease of a worker that is suspended behind its write until the lease has run out. -/
def suspendedLease : LeaseAnswers :=
  let taken := PostgresAccountLeaseRepository.acquire [] ⟨1⟩ "worker" 30000000000 ⟨7⟩
    2000000000000000000
  { acquired := taken.2.map fun lease => lease.map fun lease => ⟨lease.owner, lease.token⟩
    started := .ok ()
    usable := .ok ()
    usableBehind := .ok ()
    stopped := .ok ()
    released := (PostgresAccountLeaseRepository.release taken.1 ⟨1⟩ "worker" ⟨7⟩
      2000000031000000000).2 }

/-- The tables of the login while the worker holds the lease. -/
def leasedTables : AccountTables :=
  { loginTables 2000000000000000000 with
    leases := [⟨⟨1⟩, "worker", ⟨7⟩, 2000000030000000000⟩] }

/-- New credentials for the login, from an operator. -/
def relogin : CredentialProvision :=
  ⟨⟨1⟩, "reader", loginCredentials 2000000600000000000⟩

/-- What a worker's call answers when it is suspended behind its write, and the tables it leaves. -/
def suspendedReplace : Except AuthServiceError WeReadAccount × AccountTables :=
  plainAuth.replace leasedTables leasedTables relogin (some zeroNonce) suspendedLease
    2000000001000000000

/-- The version and the expiry of the login. -/
def loginVersion (tables : AccountTables) : Option (ℤ × Option DateTime) :=
  (CredentialRepository.findAccount tables.accounts ⟨1⟩).map fun row =>
    (row.credentialVersion, row.accessExpiresAt)

/-- **The call reports a lost lease, and its credentials are stored.** -/
theorem replace_stored_behind_error :
    suspendedReplace.1 = .error (.lease (.leaseLost ⟨1⟩)) ∧
      loginVersion leasedTables = some (1, some 2000000000000000000) ∧
      loginVersion suspendedReplace.2 = some (2, some 2000000600000000000) := by
  refine ⟨?_, ?_, ?_⟩ <;> decide +kernel

end Samples

end AuthService

end Werrss
