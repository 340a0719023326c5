import Werrss.Application.AuthService
import Werrss.Machinery.Run
import Werrss.Persistence.FeedCache
import Werrss.Persistence.JobRefinement

/-!
# Persistence/LeaseRepository — account leases and feed-build leases, in SQL and in memory

    acquire ──▸ row | nothing      heartbeat ──▸ row'      release ──▸ no row
       PostgreSQL: INSERT … ON CONFLICT … DO UPDATE … WHERE lease_until <= now
       memory:     a locked map, an injectable clock

Two stores keep leases by key, and each comes twice: as SQL statements that read the clock of the
database once, and as a map behind a mutex.  The four differ in their errors, and in that the
feed-build rows refer to a source.
-/

open Machinery

namespace Werrss

/-! ## Leases -/

/-- A lease, as a row of either table holds it and as both stores return it. -/
structure LeaseRecord where
  key : Uuid
  owner : String
  token : Uuid
  leaseUntil : DateTime
  heartbeatAt : DateTime
deriving DecidableEq, Repr

/-- `is_live_at`. -/
def LeaseRecord.isLiveAt (self : LeaseRecord) (now : DateTime) : Bool :=
  decide (now < self.leaseUntil)

/-- The lease is live, and it is this owner's under this token. -/
def LeaseRecord.isHeldBy (self : LeaseRecord) (owner : String) (token : Uuid) (now : DateTime) :
    Bool :=
  decide (self.owner = owner) && decide (self.token = token) && self.isLiveAt now

/-- The errors of a lease store. -/
structure LeaseErrors (E : Type) where
  invalidKey : E
  emptyOwner : E
  invalidLeaseDuration : E
  leaseLost : Uuid → E
  storage : String → E

namespace LeaseErrors

variable {E : Type} (errors : LeaseErrors E)

/-- The key is not nil. -/
def validateKey (key : Uuid) : Except E Unit :=
  if key = .nil then .error errors.invalidKey else .ok ()

/-- `validate_account_and_owner`, `validate_source_and_owner`. -/
def validateKeyAndOwner (key : Uuid) (owner : String) : Except E Unit := do
  errors.validateKey key
  if isBlank owner then .error errors.emptyOwner else .ok ()

/-- `validate_inputs`. -/
def validateInputs (key : Uuid) (owner : String) (leaseFor : Duration) : Except E Unit := do
  errors.validateKeyAndOwner key owner
  if leaseFor ≤ 0 then .error errors.invalidLeaseDuration else .ok ()

/-- `lease_milliseconds`. -/
def leaseMilliseconds (leaseFor : Duration) : Except E ℕ :=
  let milliseconds := leaseFor.tdiv 1000000
  if milliseconds ≤ 0 then .error errors.invalidLeaseDuration else .ok milliseconds.toNat

/-- What the database refuses is a storage error. -/
def ofStorage {A : Type} (x : Except JobRepositoryError A) : Except E A :=
  x.mapError fun error =>
    match error with
    | .storage message => errors.storage message
    | _ => errors.storage ""

/-- `decode_lease`. -/
def decodeLease (row : LeaseRecord) : Except E LeaseRecord := do
  errors.validateKey row.key
  let leaseUntil ← errors.ofStorage (decodeInstant row.leaseUntil)
  let heartbeatAt ← errors.ofStorage (decodeInstant row.heartbeatAt)
  return { row with leaseUntil := leaseUntil, heartbeatAt := heartbeatAt }

end LeaseErrors

/-! ## The statements -/

namespace SqlLeases

variable {E : Type} (errors : LeaseErrors E)

/-- The row of a key. -/
def find (rows : List LeaseRecord) (key : Uuid) : Option LeaseRecord :=
  Rows.get LeaseRecord.key rows key

/-- The row of a key is replaced. -/
def put (rows : List LeaseRecord) (lease : LeaseRecord) : List LeaseRecord :=
  Rows.update LeaseRecord.key rows lease.key fun _ => lease

/-- The row an `acquire` proposes. -/
def proposed (key : Uuid) (owner : String) (leaseFor : Duration) (token : Uuid) (now : DateTime) :
    Except E LeaseRecord := do
  errors.validateInputs key owner leaseFor
  let milliseconds ← errors.leaseMilliseconds leaseFor
  let owner ← errors.ofStorage (bindText owner)
  let leaseUntil ← errors.ofStorage (leaseEnd now milliseconds)
  return ⟨key, owner, token, leaseUntil, now⟩

/-- `INSERT … ON CONFLICT (key) DO UPDATE … WHERE lease_until <= now RETURNING …`; `references` is
the foreign key of the table. -/
def acquire (references : Uuid → Except E Unit) (rows : List LeaseRecord) (key : Uuid)
    (owner : String) (leaseFor : Duration) (token : Uuid) (now : DateTime) :
    List LeaseRecord × Except E (Option LeaseRecord) :=
  match proposed errors key owner leaseFor token now with
  | .error e => (rows, .error e)
  | .ok lease =>
    match find rows key with
    | some row =>
      if row.leaseUntil ≤ now then (put rows lease, (errors.decodeLease lease).map some)
      else (rows, .ok none)
    | none =>
      match references key with
      | .error e => (rows, .error e)
      | .ok () => (rows ++ [lease], (errors.decodeLease lease).map some)

/-- `UPDATE … WHERE key = … AND lease_owner = … AND lease_token = … AND lease_until > now
RETURNING …`. -/
def heartbeat (rows : List LeaseRecord) (key : Uuid) (owner : String) (token : Uuid)
    (leaseFor : Duration) (now : DateTime) : List LeaseRecord × Except E LeaseRecord :=
  let bound : Except E (ℕ × String) := do
    errors.validateInputs key owner leaseFor
    let milliseconds ← errors.leaseMilliseconds leaseFor
    let owner ← errors.ofStorage (bindText owner)
    return (milliseconds, owner)
  match bound with
  | .error e => (rows, .error e)
  | .ok (milliseconds, owner) =>
    if (find rows key).any fun row => row.isHeldBy owner token now then
      match errors.ofStorage (leaseEnd now milliseconds) with
      | .error e => (rows, .error e)
      | .ok leaseUntil =>
        let lease : LeaseRecord := ⟨key, owner, token, leaseUntil, now⟩
        (put rows lease, errors.decodeLease lease)
    else (rows, .error (errors.leaseLost key))

/-- `DELETE … WHERE key = … AND lease_owner = … AND lease_token = … AND lease_until > now
RETURNING …`. -/
def release (rows : List LeaseRecord) (key : Uuid) (owner : String) (token : Uuid)
    (now : DateTime) : List LeaseRecord × Except E Unit :=
  let bound : Except E String := do
    errors.validateKeyAndOwner key owner
    errors.ofStorage (bindText owner)
  match bound with
  | .error e => (rows, .error e)
  | .ok owner =>
    if (find rows key).any fun row => row.isHeldBy owner token now then
      (Rows.remove LeaseRecord.key rows key, .ok ())
    else (rows, .error (errors.leaseLost key))

end SqlLeases

/-! ## The locked map -/

namespace MemoryLeases

variable {E : Type} (errors : LeaseErrors E)

/-- The leases of a memory store. -/
abbrev State := HashMap Uuid LeaseRecord

def acquire (leases : State) (key : Uuid) (owner : String) (leaseFor : Duration) (token : Uuid)
    (now : DateTime) : State × Except E (Option LeaseRecord) :=
  match errors.validateInputs key owner leaseFor with
  | .error e => (leases, .error e)
  | .ok () =>
    if (leases.get key).any fun lease => lease.isLiveAt now then (leases, .ok none)
    else
      match DateTime.checkedAddSigned now leaseFor with
      | none => (leases, .error errors.invalidLeaseDuration)
      | some leaseUntil =>
        let lease : LeaseRecord := ⟨key, owner, token, leaseUntil, now⟩
        (leases.insert key lease, .ok (some lease))

def heartbeat (leases : State) (key : Uuid) (owner : String) (token : Uuid) (leaseFor : Duration)
    (now : DateTime) : State × Except E LeaseRecord :=
  match errors.validateInputs key owner leaseFor with
  | .error e => (leases, .error e)
  | .ok () =>
    if (leases.get key).any fun lease => lease.isHeldBy owner token now then
      match DateTime.checkedAddSigned now leaseFor with
      | none => (leases, .error errors.invalidLeaseDuration)
      | some leaseUntil =>
        let renewed : LeaseRecord := ⟨key, owner, token, leaseUntil, now⟩
        (leases.insert key renewed, .ok renewed)
    else (leases, .error (errors.leaseLost key))

def release (leases : State) (key : Uuid) (owner : String) (token : Uuid) (now : DateTime) :
    State × Except E Unit :=
  match errors.validateKeyAndOwner key owner with
  | .error e => (leases, .error e)
  | .ok () =>
    if (leases.get key).any fun lease => lease.isHeldBy owner token now then
      (leases.remove key, .ok ())
    else (leases, .error (errors.leaseLost key))

end MemoryLeases

/-! ## The two stores -/

/-- The errors of the account-lease store. -/
def accountLeaseErrors : LeaseErrors AccountLeaseError where
  invalidKey := .invalidAccountId
  emptyOwner := .emptyOwner
  invalidLeaseDuration := .invalidLeaseDuration
  leaseLost := .leaseLost
  storage := .backend

/-- The errors of the feed-build-lease store. -/
def feedBuildLeaseErrors : LeaseErrors FeedBuildLeaseError where
  invalidKey := .invalidSourceId
  emptyOwner := .emptyOwner
  invalidLeaseDuration := .invalidLeaseDuration
  leaseLost _ := .leaseLost
  storage := .storage

namespace PostgresAccountLeaseRepository

/-- `account_leases` has no foreign key. -/
def acquire := SqlLeases.acquire accountLeaseErrors fun _ => .ok ()

def heartbeat := SqlLeases.heartbeat accountLeaseErrors

def release := SqlLeases.release accountLeaseErrors

end PostgresAccountLeaseRepository

namespace MemoryAccountLeaseRepository

def acquire := MemoryLeases.acquire accountLeaseErrors

def heartbeat := MemoryLeases.heartbeat accountLeaseErrors

def release := MemoryLeases.release accountLeaseErrors

end MemoryAccountLeaseRepository

namespace PostgresFeedBuildLeaseRepository

/-- The foreign key of `feed_build_leases`, as `map_acquire_error` reports it. -/
def referencesSource (sources : List Uuid) (sourceId : Uuid) : Except FeedBuildLeaseError Unit :=
  if sourceId ∈ sources then .ok () else .error .sourceNotFound

def acquireBuild (sources : List Uuid) :=
  SqlLeases.acquire feedBuildLeaseErrors (referencesSource sources)

def heartbeatBuild := SqlLeases.heartbeat feedBuildLeaseErrors

def releaseBuild := SqlLeases.release feedBuildLeaseErrors

end PostgresFeedBuildLeaseRepository

namespace MemoryFeedBuildLeaseRepository

def acquireBuild := MemoryLeases.acquire feedBuildLeaseErrors

def heartbeatBuild := MemoryLeases.heartbeat feedBuildLeaseErrors

def releaseBuild := MemoryLeases.release feedBuildLeaseErrors

end MemoryFeedBuildLeaseRepository

/-! ## Calls -/

/-- A call of a lease store; an acquisition has drawn its token. -/
inductive LeaseCall
  | acquire (key : Uuid) (owner : String) (leaseFor : Duration) (token : Uuid)
  | heartbeat (key : Uuid) (owner : String) (token : Uuid) (leaseFor : Duration)
  | release (key : Uuid) (owner : String) (token : Uuid)
deriving DecidableEq, Repr

/-- The key a call is about. -/
def LeaseCall.key : LeaseCall → Uuid
  | .acquire key _ _ _ => key
  | .heartbeat key _ _ _ => key
  | .release key _ _ => key

/-- What a call answers. -/
inductive LeaseAnswer
  | acquired (lease : Option LeaseRecord)
  | renewed (lease : LeaseRecord)
  | released
deriving DecidableEq, Repr

/-- An implementation of a lease store over states `S`. -/
structure LeaseStore (S E : Type) where
  acquire : S → Uuid → String → Duration → Uuid → DateTime → S × Except E (Option LeaseRecord)
  heartbeat : S → Uuid → String → Uuid → Duration → DateTime → S × Except E LeaseRecord
  release : S → Uuid → String → Uuid → DateTime → S × Except E Unit

/-- **A store answers its calls**, each in one step at an instant of its clock. -/
def LeaseStore.machine {S E : Type} (store : LeaseStore S E) :
    Machine S (DateTime × LeaseCall) (Except E LeaseAnswer) where
  step s a :=
    match a.2 with
    | .acquire key owner leaseFor token =>
      let answered := store.acquire s key owner leaseFor token a.1
      (answered.1, answered.2.map .acquired)
    | .heartbeat key owner token leaseFor =>
      let answered := store.heartbeat s key owner token leaseFor a.1
      (answered.1, answered.2.map .renewed)
    | .release key owner token =>
      let answered := store.release s key owner token a.1
      (answered.1, answered.2.map fun _ => .released)

/-- The account-lease store of PostgreSQL. -/
def postgresAccountLeases : LeaseStore (List LeaseRecord) AccountLeaseError where
  acquire := PostgresAccountLeaseRepository.acquire
  heartbeat := PostgresAccountLeaseRepository.heartbeat
  release := PostgresAccountLeaseRepository.release

/-- The account-lease store of the tests. -/
def memoryAccountLeases : LeaseStore MemoryLeases.State AccountLeaseError where
  acquire := MemoryAccountLeaseRepository.acquire
  heartbeat := MemoryAccountLeaseRepository.heartbeat
  release := MemoryAccountLeaseRepository.release

/-- The feed-build-lease store of PostgreSQL, beside a table of sources. -/
def postgresFeedBuildLeases (sources : List Uuid) :
    LeaseStore (List LeaseRecord) FeedBuildLeaseError where
  acquire := PostgresFeedBuildLeaseRepository.acquireBuild sources
  heartbeat := PostgresFeedBuildLeaseRepository.heartbeatBuild
  release := PostgresFeedBuildLeaseRepository.releaseBuild

/-- The feed-build-lease store of the tests. -/
def memoryFeedBuildLeases : LeaseStore MemoryLeases.State FeedBuildLeaseError where
  acquire := MemoryFeedBuildLeaseRepository.acquireBuild
  heartbeat := MemoryFeedBuildLeaseRepository.heartbeatBuild
  release := MemoryFeedBuildLeaseRepository.releaseBuild

end Werrss
