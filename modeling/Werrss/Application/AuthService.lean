import Mathlib.Logic.Encodable.Basic
import Mathlib.Logic.Equiv.List
import Werrss.Persistence.CredentialRepository

/-!
# Application/AuthService — credentials encrypted, stored, refreshed and read back

    credentials ──encrypt──▸ ciphertext (expiry inside) ─┐
                                                         ├─▸ row ──decrypt──▸ the expiries must agree
    expiry ─────timestamptz──▸ column                   ─┘

Every storing path ends in one row whose expiry is kept twice, in the ciphertext to the nanosecond
and in a column to the microsecond.  Reading demands that both agree: **credentials can be read back
exactly when their expiry is a whole microsecond**.
-/

open Machinery

namespace Werrss

/-! ## The cipher -/

/-- The encrypted JSON payload. -/
structure CredentialPayload where
  accessToken : String
  refreshToken : String
  webCookie : Option String
  accessExpiresAt : DateTime
deriving DecidableEq

/-- `serde_json` on the payload. -/
class SerdeJson where
  toVec : CredentialPayload → List UInt8
  fromSlice : List UInt8 → Option CredentialPayload

/-- What is written is read back, instants to the nanosecond. -/
class LawfulSerdeJson extends SerdeJson where
  fromSlice_toVec : ∀ payload, fromSlice (toVec payload) = some payload

/-- `ring`'s authenticated encryption: key, nonce, associated data, text. -/
class RingCrate where
  sealInPlaceAppendTag : List UInt8 → List UInt8 → List UInt8 → List UInt8 → Option (List UInt8)
  openInPlace : List UInt8 → List UInt8 → List UInt8 → List UInt8 → Option (List UInt8)

/-- What was sealed is opened under the same key, nonce and associated data; a tag is appended. -/
class LawfulRingCrate extends RingCrate where
  open_seal : ∀ {key nonce aad text sealed : List UInt8},
    sealInPlaceAppendTag key nonce aad text = some sealed →
      openInPlace key nonce aad sealed = some text
  length_seal : ∀ {key nonce aad text sealed : List UInt8},
    sealInPlaceAppendTag key nonce aad text = some sealed → sealed.length = text.length + 16

inductive CredentialCipherError
  | invalidKey | invalidCiphertext | invalidPayload
deriving DecidableEq, Repr

def credentialBlobVersion : UInt8 := 1

def nonceLength : ℕ := 12

/-- Twelve random bytes. -/
structure CipherNonce where
  bytes : List UInt8
  length_eq : bytes.length = nonceLength

/-- `Uuid::as_bytes`. -/
def uuidBytes (id : Uuid) : List UInt8 :=
  (List.range 16).map fun i => UInt8.ofNat (id.value / 256 ^ (15 - i))

/-- The configured key. -/
structure RingCredentialCipher where
  key : List UInt8

namespace RingCredentialCipher

/-- `encrypt`, with the nonce the random source fills in, if it does. -/
def encrypt [SerdeJson] [RingCrate] (cipher : RingCredentialCipher) (nonce : Option CipherNonce)
    (accountId : Uuid) (credentials : WeReadCredentials) :
    Except CredentialCipherError (List UInt8) :=
  let payload : CredentialPayload :=
    ⟨credentials.accessToken, credentials.refreshToken, credentials.webCookie,
      credentials.accessExpiresAt⟩
  match nonce with
  | none => .error .invalidKey
  | some nonce =>
    match RingCrate.sealInPlaceAppendTag cipher.key nonce.bytes (uuidBytes accountId)
        (SerdeJson.toVec payload) with
    | none => .error .invalidCiphertext
    | some bytes => .ok (credentialBlobVersion :: (nonce.bytes ++ bytes))

/-- The credentials of a decrypted payload. -/
def ofPayload (payload : CredentialPayload) : Except CredentialCipherError WeReadCredentials :=
  match WeReadCredentials.new payload.accessToken payload.refreshToken payload.accessExpiresAt
      unixEpoch with
  | .error _ => .error .invalidPayload
  | .ok credentials =>
    match payload.webCookie with
    | none => .ok credentials
    | some cookie =>
      match credentials.withWebCookie cookie with
      | .error _ => .error .invalidPayload
      | .ok credentials => .ok credentials

/-- `decrypt`. -/
def decrypt [SerdeJson] [RingCrate] (cipher : RingCredentialCipher) (accountId : Uuid)
    (ciphertext : List UInt8) : Except CredentialCipherError WeReadCredentials :=
  match ciphertext with
  | [] => .error .invalidCiphertext
  | version :: rest =>
    if rest.length ≤ nonceLength ∨ version ≠ credentialBlobVersion then .error .invalidCiphertext
    else
      match RingCrate.openInPlace cipher.key (rest.take nonceLength) (uuidBytes accountId)
          (rest.drop nonceLength) with
      | none => .error .invalidCiphertext
      | some plaintext =>
        match SerdeJson.fromSlice plaintext with
        | none => .error .invalidPayload
        | some payload => ofPayload payload

end RingCredentialCipher

/-! ## The service -/

inductive AccountLeaseError
  | invalidAccountId | emptyOwner | invalidLeaseDuration
  | leaseLost (accountId : Uuid)
  | backend (message : String)
deriving DecidableEq, Repr

inductive CredentialRefreshError
  | authenticationRequired | riskControlled | transient | invalidResponse
deriving DecidableEq, Repr

inductive AuthServiceError
  | accountNotFound (accountId : Uuid)
  | accountDisabled (accountId : Uuid)
  | setupRequired (accountId : Uuid)
  | accountBusy (accountId : Uuid)
  | lease (error : AccountLeaseError)
  | repository (error : CredentialRepositoryError)
  | cipher (error : CredentialCipherError)
  | credentials (error : CredentialError)
  | refresh (error : CredentialRefreshError)
deriving DecidableEq, Repr

/-- A held account lease. -/
structure AccountLeaseGuard where
  owner : String
  token : Uuid
deriving DecidableEq, Repr

/-- What the lease store answers while an operation holds the account lease: the acquisition, the
heartbeat task, `ensure_usable` at its points, and the release. -/
structure LeaseAnswers where
  acquired : Except AccountLeaseError (Option AccountLeaseGuard)
  started : Except AccountLeaseError Unit
  usable : Except AccountLeaseError Unit
  usableBehind : Except AccountLeaseError Unit
  stopped : Except AccountLeaseError Unit
  released : Except AccountLeaseError Unit

/-- `CredentialProvision`. -/
structure CredentialProvision where
  accountId : Uuid
  displayName : String
  credentials : WeReadCredentials

/-- `RefreshedCredentials`. -/
structure RefreshedCredentials where
  accessToken : String
  refreshToken : Option String
  accessExpiresAt : DateTime

inductive AuthRefreshOutcome
  | unchanged (account : WeReadAccount)
  | refreshed (account : WeReadAccount)
deriving DecidableEq, Repr

/-- The service: its cipher and its refresh window. -/
structure AuthService where
  cipher : RingCredentialCipher
  refreshBefore : Duration

namespace AuthService

variable [SerdeJson] [RingCrate] (service : AuthService)

/-- `load`. -/
def load (tables : AccountTables) (accountId : Uuid) : Except AuthServiceError CredentialRecord :=
  match CredentialRepository.find tables accountId with
  | .error e => .error (.repository e)
  | .ok none => .error (.accountNotFound accountId)
  | .ok (some record) => .ok record

/-- `AuthService::decrypt`. -/
def decrypt (record : CredentialRecord) : Except AuthServiceError WeReadCredentials :=
  let accountId := record.account.accountId
  if record.account.setupRequired then .error (.setupRequired accountId)
  else
    match record.ciphertext with
    | none => .error (.setupRequired accountId)
    | some ciphertext =>
      match service.cipher.decrypt accountId ciphertext with
      | .error e => .error (.cipher e)
      | .ok credentials =>
        if some credentials.accessExpiresAt ≠ record.account.accessExpiresAt then
          .error (.cipher .invalidPayload)
        else .ok credentials

/-- The account can be used. -/
def ensureEnabled (record : CredentialRecord) : Except AuthServiceError Unit :=
  if record.account.setupRequired then .error (.setupRequired record.account.accountId)
  else if record.account.disabled then .error (.accountDisabled record.account.accountId)
  else .ok ()

/-- `credentials`. -/
def credentials (tables : AccountTables) (accountId : Uuid) :
    Except AuthServiceError WeReadCredentials := do
  let record ← load tables accountId
  ensureEnabled record
  service.decrypt record

/-- Encryption, with its error as the service reports it. -/
def encrypt (nonce : Option CipherNonce) (accountId : Uuid) (credentials : WeReadCredentials) :
    Except AuthServiceError (List UInt8) :=
  (service.cipher.encrypt nonce accountId credentials).mapError .cipher

/-- `provision`. -/
def provision (tables : AccountTables) (request : CredentialProvision)
    (nonce : Option CipherNonce) : Except AuthServiceError (WeReadAccount × AccountTables) := do
  let ciphertext ← service.encrypt nonce request.accountId request.credentials
  let written ← (CredentialRepository.insert tables request.accountId request.displayName ciphertext
    request.credentials.accessExpiresAt).mapError .repository
  return (written.1.account, written.2)

/-- An operation under the account lease: `body` commits its tables or not, and the errors of the
heartbeat and the release come before its own. -/
def underLease {A : Type} (tables : AccountTables) (accountId : Uuid) (lease : LeaseAnswers)
    (body : AccountLeaseGuard → Except AuthServiceError (A × AccountTables)) :
    Except AuthServiceError A × AccountTables :=
  match lease.acquired with
  | .error e => (.error (.lease e), tables)
  | .ok none => (.error (.accountBusy accountId), tables)
  | .ok (some guard) =>
    match lease.started with
    | .error e => (.error (.lease e), tables)
    | .ok () =>
      let tables' := match body guard with
        | .error _ => tables
        | .ok (_, written) => written
      match lease.stopped with
      | .error e => (.error (.lease e), tables')
      | .ok () =>
        match lease.released with
        | .error e => (.error (.lease e), tables')
        | .ok () => ((body guard).map Prod.fst, tables')

/-- The body of `replace`: the account is loaded from `seen` and written to `tables`. -/
def replaceUnderLease (seen tables : AccountTables) (request : CredentialProvision)
    (nonce : Option CipherNonce) (lease : LeaseAnswers) (clock : DateTime)
    (guard : AccountLeaseGuard) : Except AuthServiceError (WeReadAccount × AccountTables) := do
  let current ← load seen request.accountId
  let ciphertext ← service.encrypt nonce request.accountId request.credentials
  lease.usable.mapError .lease
  if current.account.setupRequired then
    let written ← (CredentialRepository.enrollPlaceholder tables request.accountId
      request.displayName ciphertext request.credentials.accessExpiresAt guard.owner guard.token
      clock).mapError .repository
    return (written.1.account, written.2)
  else
    let written ← (CredentialRepository.replace tables
      { accountId := request.accountId
        displayName := request.displayName
        expectedVersion := current.account.credentialVersion
        ciphertext := ciphertext
        accessExpiresAt := request.credentials.accessExpiresAt
        leaseOwner := guard.owner
        leaseToken := guard.token } clock).mapError .repository
    return (written.1.account, written.2)

/-- `replace`. -/
def replace (seen tables : AccountTables) (request : CredentialProvision)
    (nonce : Option CipherNonce) (lease : LeaseAnswers) (clock : DateTime) :
    Except AuthServiceError WeReadAccount × AccountTables :=
  underLease tables request.accountId lease
    (service.replaceUnderLease seen tables request nonce lease clock)

/-- What a refresh check finds: the account, and its credentials if they need a refresh. -/
def needsRefresh (seen : AccountTables) (accountId : Uuid) (now : DateTime) :
    Except AuthServiceError (CredentialRecord × Option WeReadCredentials) := do
  let current ← load seen accountId
  ensureEnabled current
  let credentials ← service.decrypt current
  if credentials.needsRefresh now service.refreshBefore then return (current, some credentials)
  else return (current, none)

/-- The credentials a refresh stores: the answer of the upstream, the old refresh token where it
brings none. -/
def refreshedCredentials (current : WeReadCredentials) (now : DateTime) (lease : LeaseAnswers)
    (answer : Except CredentialRefreshError RefreshedCredentials) :
    Except AuthServiceError WeReadCredentials := do
  lease.usable.mapError .lease
  let refreshed ← answer.mapError .refresh
  lease.usableBehind.mapError .lease
  (current.refreshed refreshed.accessToken refreshed.refreshToken refreshed.accessExpiresAt
    now).mapError .credentials

/-- What `refresh_under_lease` is given from outside. -/
structure RefreshAnswers where
  seen : AccountTables
  now : DateTime
  clock : DateTime
  answer : Except CredentialRefreshError RefreshedCredentials
  nonce : Option CipherNonce

/-- `refresh_under_lease`. -/
def refreshUnderLease (tables : AccountTables) (accountId : Uuid) (lease : LeaseAnswers)
    (answers : RefreshAnswers) (guard : AccountLeaseGuard) :
    Except AuthServiceError (AuthRefreshOutcome × AccountTables) := do
  let found ← service.needsRefresh answers.seen accountId answers.now
  match found.2 with
  | none => return (.unchanged found.1.account, tables)
  | some current =>
    let credentials ← refreshedCredentials current answers.now lease answers.answer
    let ciphertext ← service.encrypt answers.nonce accountId credentials
    let written ← (CredentialRepository.replace tables
      { accountId := accountId
        displayName := found.1.account.displayName
        expectedVersion := found.1.account.credentialVersion
        ciphertext := ciphertext
        accessExpiresAt := credentials.accessExpiresAt
        leaseOwner := guard.owner
        leaseToken := guard.token } answers.clock).mapError .repository
    return (.refreshed written.1.account, written.2)

/-- `refresh_if_needed`: the check without the lease sees the tables `initial`. -/
def refreshIfNeeded (initial tables : AccountTables) (accountId : Uuid) (now : DateTime)
    (lease : LeaseAnswers) (answers : RefreshAnswers) :
    Except AuthServiceError AuthRefreshOutcome × AccountTables :=
  match service.needsRefresh initial accountId now with
  | .error e => (.error e, tables)
  | .ok (record, none) => (.ok (.unchanged record.account), tables)
  | .ok (_, some _) =>
    underLease tables accountId lease (service.refreshUnderLease tables accountId lease answers)

/-! ## What is stored -/

/-- **A call that stored these credentials for the account**, and the tables it left. -/
inductive Stored : Uuid → WeReadCredentials → AccountTables → Prop
  | provision {tables tables' : AccountTables} {request : CredentialProvision}
      {nonce : Option CipherNonce} {account : WeReadAccount}
      (h : service.provision tables request nonce = .ok (account, tables')) :
      Stored request.accountId request.credentials tables'
  | replace {seen tables tables' : AccountTables} {request : CredentialProvision}
      {nonce : Option CipherNonce} {lease : LeaseAnswers} {clock : DateTime}
      {account : WeReadAccount}
      (h : service.replace seen tables request nonce lease clock = (.ok account, tables')) :
      Stored request.accountId request.credentials tables'
  | refresh {initial tables tables' : AccountTables} {accountId : Uuid} {now : DateTime}
      {lease : LeaseAnswers} {answers : RefreshAnswers} {record : CredentialRecord}
      {current credentials : WeReadCredentials} {account : WeReadAccount}
      (hcurrent : service.needsRefresh answers.seen accountId answers.now
        = .ok (record, some current))
      (hrefreshed : refreshedCredentials current answers.now lease answers.answer = .ok credentials)
      (h : service.refreshIfNeeded initial tables accountId now lease answers
        = (.ok (.refreshed account), tables')) :
      Stored accountId credentials tables'

end AuthService

/-! ## The round trip -/

section RoundTrip

variable [LawfulSerdeJson] [LawfulRingCrate]

open CredentialRepository

omit [LawfulSerdeJson] [LawfulRingCrate] in
/-- Credentials are what their payload says. -/
theorem RingCredentialCipher.ofPayload_eq {credentials : WeReadCredentials}
    (h : unixEpoch < credentials.accessExpiresAt) :
    RingCredentialCipher.ofPayload ⟨credentials.accessToken, credentials.refreshToken,
      credentials.webCookie, credentials.accessExpiresAt⟩ = .ok credentials := by
  obtain ⟨access, refresh, cookie, expiresAt, haccess, hrefresh, hcookie⟩ := credentials
  have hlate : ¬ expiresAt ≤ unixEpoch := Int.not_le.mpr h
  cases cookie with
  | none =>
    simp [RingCredentialCipher.ofPayload, WeReadCredentials.new, haccess, hrefresh, hlate]
  | some cookie =>
    simp [RingCredentialCipher.ofPayload, WeReadCredentials.new, WeReadCredentials.withWebCookie,
      haccess, hrefresh, hlate, hcookie cookie rfl]

/-- **The cipher opens what it sealed.** -/
theorem RingCredentialCipher.decrypt_encrypt {cipher : RingCredentialCipher}
    {nonce : Option CipherNonce} {accountId : Uuid} {credentials : WeReadCredentials}
    {ciphertext : List UInt8} (hexpiry : unixEpoch < credentials.accessExpiresAt)
    (h : cipher.encrypt nonce accountId credentials = .ok ciphertext) :
    cipher.decrypt accountId ciphertext = .ok credentials := by
  unfold RingCredentialCipher.encrypt at h
  cases nonce with
  | none => cases h
  | some nonce =>
    simp only at h
    split at h
    · cases h
    · rename_i sealed hseal
      obtain rfl := Except.ok.inj h
      have hlength := LawfulRingCrate.length_seal hseal
      have hlong : ¬ (nonce.bytes ++ sealed).length ≤ nonceLength := by
        rw [List.length_append, nonce.length_eq]
        omega
      have htake : (nonce.bytes ++ sealed).take nonceLength = nonce.bytes :=
        List.take_left' nonce.length_eq
      have hdrop : (nonce.bytes ++ sealed).drop nonceLength = sealed :=
        List.drop_left' nonce.length_eq
      simp only [RingCredentialCipher.decrypt, hlong, ne_eq, not_true_eq_false, or_self, if_false,
        htake, hdrop, LawfulRingCrate.open_seal hseal, LawfulSerdeJson.fromSlice_toVec]
      exact RingCredentialCipher.ofPayload_eq hexpiry

namespace AuthService

variable {service : AuthService}

omit [LawfulSerdeJson] [LawfulRingCrate] in
theorem mapError_eq_ok {E E' A : Type} {f : E → E'} {x : Except E A} {a : A}
    (h : x.mapError f = .ok a) : x = .ok a := by
  cases x with
  | error e => cases h
  | ok a' => exact congrArg _ (Except.ok.inj h)

omit [LawfulSerdeJson] [LawfulRingCrate] in
/-- What an operation under the lease answers, and leaves, its body did. -/
theorem underLease_eq_ok {A : Type} {tables tables' : AccountTables} {accountId : Uuid}
    {lease : LeaseAnswers} {body : AccountLeaseGuard → Except AuthServiceError (A × AccountTables)}
    {a : A} (h : underLease tables accountId lease body = (.ok a, tables')) :
    ∃ guard, body guard = .ok (a, tables') := by
  unfold underLease at h
  split at h
  · cases h
  · cases h
  · rename_i guard hguard
    split at h
    · cases h
    · simp only at h
      split at h
      · cases h
      · split at h
        · cases h
        · obtain ⟨hanswer, htables⟩ := Prod.mk.inj h
          refine ⟨guard, ?_⟩
          cases hbody : body guard with
          | error e =>
            rw [hbody] at hanswer
            cases hanswer
          | ok written =>
            rw [hbody] at hanswer htables
            exact congrArg _ (Prod.ext (Except.ok.inj hanswer) htables)

/-- **The row of stored credentials**: a ciphertext of theirs, and their expiry. -/
theorem Stored.holds {accountId : Uuid} {credentials : WeReadCredentials} {tables : AccountTables}
    (h : service.Stored accountId credentials tables) :
    ∃ nonce ciphertext, service.cipher.encrypt nonce accountId credentials = .ok ciphertext ∧
      Holds tables accountId ciphertext credentials.accessExpiresAt := by
  cases h with
  | @provision tables₀ _ request nonce account h =>
    obtain ⟨ciphertext, hencrypt, h⟩ := bind_eq_ok h
    obtain ⟨written, hinsert, h⟩ := bind_eq_ok h
    obtain rfl : written.2 = tables := congrArg Prod.snd (Except.ok.inj h)
    exact ⟨nonce, ciphertext, mapError_eq_ok hencrypt, insert_holds (mapError_eq_ok hinsert)⟩
  | @replace seen tables₀ _ request nonce lease clock account h =>
    obtain ⟨guard, h⟩ := underLease_eq_ok h
    obtain ⟨current, -, h⟩ := bind_eq_ok h
    obtain ⟨ciphertext, hencrypt, h⟩ := bind_eq_ok h
    obtain ⟨_, -, h⟩ := bind_eq_ok h
    refine ⟨nonce, ciphertext, mapError_eq_ok hencrypt, ?_⟩
    split_ifs at h with hsetup
    · obtain ⟨written, hwrite, h⟩ := bind_eq_ok h
      obtain rfl : written.2 = tables := congrArg Prod.snd (Except.ok.inj h)
      exact enrollPlaceholder_holds (mapError_eq_ok hwrite)
    · obtain ⟨written, hwrite, h⟩ := bind_eq_ok h
      obtain rfl : written.2 = tables := congrArg Prod.snd (Except.ok.inj h)
      exact replace_holds (mapError_eq_ok hwrite)
  | @refresh initial tables₀ _ _ now lease answers record current _ account hcurrent hrefreshed h =>
    unfold refreshIfNeeded at h
    split at h
    · cases h
    · cases h
    · obtain ⟨guard, h⟩ := underLease_eq_ok h
      obtain ⟨found, hfound, h⟩ := bind_eq_ok h
      obtain rfl := Except.ok.inj (hfound.symm.trans hcurrent)
      obtain ⟨credentials', hcredentials, h⟩ := bind_eq_ok h
      obtain rfl := Except.ok.inj (hcredentials.symm.trans hrefreshed)
      obtain ⟨ciphertext, hencrypt, h⟩ := bind_eq_ok h
      obtain ⟨written, hwrite, h⟩ := bind_eq_ok h
      obtain rfl : written.2 = tables := congrArg Prod.snd (Except.ok.inj h)
      exact ⟨answers.nonce, ciphertext, mapError_eq_ok hencrypt,
        replace_holds (mapError_eq_ok hwrite)⟩

/-- **What is read from a row that holds encrypted credentials**: they themselves if the column kept
their expiry. -/
theorem credentials_of_holds {accountId : Uuid} {credentials : WeReadCredentials}
    {tables : AccountTables} {nonce : Option CipherNonce} {ciphertext : List UInt8}
    (hencrypt : service.cipher.encrypt nonce accountId credentials = .ok ciphertext)
    (hholds : Holds tables accountId ciphertext credentials.accessExpiresAt)
    (henabled : ∀ row ∈ findAccount tables.accounts accountId, row.disabled = false) :
    service.credentials tables accountId =
      if timestamptz credentials.accessExpiresAt = credentials.accessExpiresAt then .ok credentials
      else .error (.cipher .invalidPayload) := by
  obtain ⟨hepoch, row, record, hfind, hdecode, hsetup, hciphertext, hexpiry⟩ := hholds
  have hid : row.accountId = accountId := Rows.key_of_get hfind
  have hdisabled : row.disabled = false := henabled row hfind
  have hopen := RingCredentialCipher.decrypt_encrypt hepoch hencrypt
  have hrecord : record = ⟨⟨accountId, row.displayName, row.credentialVersion,
      some (timestamptz credentials.accessExpiresAt), false, false⟩, some ciphertext⟩ := by
    rw [decodeRecord_eq_ok hdecode, hid, hexpiry, hdisabled, hsetup, hciphertext]
  have hload : load tables accountId = .ok record := by
    simp only [load, CredentialRepository.find, hfind, hdecode, Except.map]
  subst hrecord
  unfold AuthService.credentials
  rw [hload]
  simp only [ensureEnabled, AuthService.decrypt, hopen, bind, Except.bind, Bool.false_eq_true,
    if_false, ne_eq, Option.some.injEq, eq_comm (a := credentials.accessExpiresAt), ite_not]

/-- **Stored credentials are read back exactly when their expiry is a whole microsecond.** -/
theorem stored_credentials_readable_iff {accountId : Uuid} {credentials : WeReadCredentials}
    {tables : AccountTables} (hstored : service.Stored accountId credentials tables)
    (henabled : ∀ row ∈ findAccount tables.accounts accountId, row.disabled = false) :
    service.credentials tables accountId = .ok credentials ↔
      (1000 : ℤ) ∣ credentials.accessExpiresAt := by
  obtain ⟨nonce, ciphertext, hencrypt, hholds⟩ := hstored.holds
  rw [credentials_of_holds hencrypt hholds henabled, ← timestamptz_eq_iff]
  split_ifs with hwhole
  · exact ⟨fun _ => hwhole, fun _ => rfl⟩
  · exact ⟨fun h => (nomatch h), fun h => absurd h hwhole⟩

end AuthService

end RoundTrip

/-! ## Two logins -/

/-- A payload as numbers. -/
def payloadCode (payload : CredentialPayload) : List ℕ × List ℕ × Option (List ℕ) × ℤ :=
  (payload.accessToken.toList.map Char.toNat, payload.refreshToken.toList.map Char.toNat,
    payload.webCookie.map fun cookie => cookie.toList.map Char.toNat, payload.accessExpiresAt)

/-- The text of a list of code points. -/
def textOfCode (code : List ℕ) : String := String.ofList (code.map Char.ofNat)

theorem textOfCode_code (text : String) : textOfCode (text.toList.map Char.toNat) = text := by
  have hid : Char.ofNat ∘ Char.toNat = id := funext fun c => Char.ofNat_toNat c
  rw [textOfCode, List.map_map, hid, List.map_id, String.ofList_toList]

/-- A codec in place of JSON: as many zeros as the number of the payload. -/
@[reducible] def plainJson : LawfulSerdeJson where
  toVec payload := List.replicate (Encodable.encode (payloadCode payload)) 0
  fromSlice bytes :=
    (Encodable.decode bytes.length : Option (List ℕ × List ℕ × Option (List ℕ) × ℤ)).map
      fun code => ⟨textOfCode code.1, textOfCode code.2.1, code.2.2.1.map textOfCode, code.2.2.2⟩
  fromSlice_toVec payload := by
    obtain ⟨access, refresh, cookie, expiresAt⟩ := payload
    rw [List.length_replicate, Encodable.encodek]
    simp [payloadCode, textOfCode_code, Function.comp_def]

/-- A cipher that only appends its tag. -/
@[reducible] def plainRing : LawfulRingCrate where
  sealInPlaceAppendTag _ _ _ text := some (text ++ List.replicate 16 0)
  openInPlace _ _ _ ciphertext := some (ciphertext.take (ciphertext.length - 16))
  open_seal h := by
    obtain rfl := Option.some.inj h
    simp
  length_seal h := by
    obtain rfl := Option.some.inj h
    simp

section Samples

attribute [local instance] plainJson plainRing

/-- The credentials of a login that expires at the instant. -/
def loginCredentials (expiresAt : DateTime) : WeReadCredentials where
  accessToken := "skey"
  refreshToken := "rt"
  webCookie := some "wr_vid=1; wr_skey=skey"
  accessExpiresAt := expiresAt
  access_nonblank := by decide
  refresh_nonblank := by decide
  cookie_valid := fun _ h => Option.some.inj h ▸ by decide

def plainAuth : AuthService := ⟨⟨[]⟩, 0⟩

def zeroNonce : CipherNonce := ⟨List.replicate 12 0, rfl⟩

/-- The tables after the login was provisioned. -/
def loginTables (expiresAt : DateTime) : AccountTables :=
  match plainAuth.provision ⟨[], [], []⟩ ⟨⟨1⟩, "reader", loginCredentials expiresAt⟩
      (some zeroNonce) with
  | .ok (_, tables) => tables
  | .error _ => ⟨[], [], []⟩

theorem stored_credentials_readable_second :
    plainAuth.credentials (loginTables 2000000000000000000) ⟨1⟩
      = .ok (loginCredentials 2000000000000000000) := by
  have hprovision : plainAuth.provision ⟨[], [], []⟩
      ⟨⟨1⟩, "reader", loginCredentials 2000000000000000000⟩ (some zeroNonce)
      = .ok (⟨⟨1⟩, "reader", 1, some 2000000000000000000, false, false⟩,
        loginTables 2000000000000000000) := rfl
  refine (AuthService.stored_credentials_readable_iff (.provision hprovision) fun row hrow => ?_).mpr
    (by decide)
  obtain rfl := Option.some.inj hrow
  rfl

/-- **One nanosecond later the credentials cannot be read.** -/
theorem stored_credentials_lost :
    plainAuth.Stored ⟨1⟩ (loginCredentials 2000000000000000001) (loginTables 2000000000000000001) ∧
      (∀ row ∈ CredentialRepository.findAccount (loginTables 2000000000000000001).accounts ⟨1⟩,
        row.disabled = false) ∧
      plainAuth.credentials (loginTables 2000000000000000001) ⟨1⟩
        = .error (.cipher .invalidPayload) := by
  have hprovision : plainAuth.provision ⟨[], [], []⟩
      ⟨⟨1⟩, "reader", loginCredentials 2000000000000000001⟩ (some zeroNonce)
      = .ok (⟨⟨1⟩, "reader", 1, some 2000000000000000000, false, false⟩,
        loginTables 2000000000000000001) := rfl
  have hstored := AuthService.Stored.provision hprovision
  have henabled : ∀ row ∈ CredentialRepository.findAccount
      (loginTables 2000000000000000001).accounts ⟨1⟩, row.disabled = false := by
    intro row hrow
    obtain rfl := Option.some.inj hrow
    rfl
  refine ⟨hstored, henabled, ?_⟩
  obtain ⟨nonce, ciphertext, hencrypt, hholds⟩ := hstored.holds
  rw [AuthService.credentials_of_holds hencrypt hholds henabled]
  rfl

end Samples

end Werrss
