import Werrss.Machinery.Std

/-!
# Domain/Job — the durable job and its transitions

    queued ──claim──▸ running ──succeed/fail/retry/defer──▸ …      running ──recovery──▸ queued | failed

A `&mut self` method is a function returning the job it leaves behind together with its result: an
early return after a mutation (the overflow of `retry`) leaves the mutated job.  The token a claim
draws (`LeaseToken::new`) and the identifier `Job::new` draws are arguments.
-/

open Machinery

namespace Werrss

/-- Categories of durable work. -/
inductive JobType
  | sourceSync | feedRebuild | articleBackfill | credentialRefresh | assetRepair | assetRefresh
deriving DecidableEq, Repr

/-- Persisted lifecycle state of a job. -/
inductive JobStatus
  | queued | running | retryWait | deferred | succeeded | failed
deriving DecidableEq, Repr

/-- The status can be selected as active work. -/
def JobStatus.isActive : JobStatus → Bool
  | .queued | .running | .retryWait | .deferred => true
  | .succeeded | .failed => false

/-- No further worker transition is expected. -/
def JobStatus.isTerminal : JobStatus → Bool
  | .succeeded | .failed => true
  | _ => false

/-- The statuses `claim` and `cancel` accept. -/
def JobStatus.isWaiting : JobStatus → Bool
  | .queued | .retryWait | .deferred => true
  | _ => false

/-- Identity of one claim of a job lease. -/
structure LeaseToken where
  uuid : Uuid
deriving DecidableEq, Repr

/-- Errors of the domain transitions. -/
inductive JobError
  | invalidAttemptLimit | emptyDedupeKey | emptyLeaseOwner | invalidLeaseDuration | notDue
  | attemptsExhausted | claimCountOverflow | failureCountOverflow | invalidDeferralTime
  | invalidTransition (status : JobStatus) (operation : String)
  | leaseOwnerMismatch | leaseTokenMismatch | leaseExpired | leaseMissing
  | invalidPersistedState (reason : String)
  | emptyError
deriving DecidableEq, Repr

/-- Input required to create a queued job; the payload is its JSON text. -/
structure NewJob where
  jobType : JobType
  sourceId : Option Uuid
  priority : Int
  runAfter : DateTime
  maxAttempts : UInt32
  payload : String
  dedupeKey : String
  now : DateTime
deriving DecidableEq, Repr

/-- A durable job and its lease state. -/
structure Job where
  id : Uuid
  jobType : JobType
  sourceId : Option Uuid
  status : JobStatus
  priority : Int
  runAfter : DateTime
  claimCount : UInt32
  failureCount : UInt32
  maxAttempts : UInt32
  leaseOwner : Option String
  leaseToken : Option LeaseToken
  leaseUntil : Option DateTime
  heartbeatAt : Option DateTime
  startedAt : Option DateTime
  finishedAt : Option DateTime
  lastError : Option String
  payload : String
  dedupeKey : String
  createdAt : DateTime
  updatedAt : DateTime
deriving DecidableEq, Repr

/-- Complete job state read from durable storage. -/
structure PersistedJob where
  id : Uuid
  jobType : JobType
  sourceId : Option Uuid
  status : JobStatus
  priority : Int
  runAfter : DateTime
  claimCount : UInt32
  failureCount : UInt32
  maxAttempts : UInt32
  leaseOwner : Option String
  leaseToken : Option LeaseToken
  leaseUntil : Option DateTime
  heartbeatAt : Option DateTime
  startedAt : Option DateTime
  finishedAt : Option DateTime
  lastError : Option String
  payload : String
  dedupeKey : String
  createdAt : DateTime
  updatedAt : DateTime
deriving DecidableEq, Repr

/-! ## Argument checks -/

def validateOwner (owner : String) : Except JobError Unit :=
  if isBlank owner then .error .emptyLeaseOwner else .ok ()

def nonemptyError (error : String) : Except JobError String :=
  if isBlank error then .error .emptyError else .ok error

def leaseExpiry (now : DateTime) (leaseFor : Duration) : Except JobError DateTime :=
  if leaseFor ≤ 0 then .error .invalidLeaseDuration
  else match DateTime.checkedAddSigned now leaseFor with
    | some until' => .ok until'
    | none => .error .invalidLeaseDuration

namespace Job

/-! ## Construction -/

/-- `Job::new`: a queued job with no lease and zero claims. -/
def new (id : Uuid) (spec : NewJob) : Except JobError Job :=
  if spec.maxAttempts = 0 then .error .invalidAttemptLimit
  else if isBlank spec.dedupeKey then .error .emptyDedupeKey
  else .ok
    { id := id
      jobType := spec.jobType
      sourceId := spec.sourceId
      status := .queued
      priority := spec.priority
      runAfter := spec.runAfter
      claimCount := 0
      failureCount := 0
      maxAttempts := spec.maxAttempts
      leaseOwner := none
      leaseToken := none
      leaseUntil := none
      heartbeatAt := none
      startedAt := none
      finishedAt := none
      lastError := none
      payload := spec.payload
      dedupeKey := spec.dedupeKey
      createdAt := spec.now
      updatedAt := spec.now }

/-- The lease fields `validate_persisted_state` calls complete. -/
def leaseIsComplete (self : Job) : Bool :=
  self.leaseOwner.isSome && self.leaseToken.isSome && self.leaseUntil.isSome

/-- The lease fields `validate_persisted_state` calls empty. -/
def leaseIsEmpty (self : Job) : Bool :=
  !self.leaseOwner.isSome && !self.leaseToken.isSome && !self.leaseUntil.isSome

def validatePersistedState (self : Job) : Except JobError Unit :=
  if self.maxAttempts = 0 ∨ self.failureCount > self.maxAttempts then
    .error (.invalidPersistedState "failure_count must be within a non-zero max_attempts limit")
  else if isBlank self.dedupeKey then
    .error (.invalidPersistedState "dedupe_key must not be empty")
  else match self.status with
    | .running =>
      if self.claimCount = 0 then
        .error (.invalidPersistedState "running jobs require at least one claim")
      else if !self.leaseIsComplete then
        .error (.invalidPersistedState "running jobs require owner, token, and lease expiry")
      else if self.leaseOwner.any isBlank then
        .error (.invalidPersistedState "running job lease owner must not be empty")
      else if self.finishedAt.isSome then
        .error (.invalidPersistedState "running jobs cannot have finished_at")
      else if self.failureCount ≥ self.maxAttempts then
        .error (.invalidPersistedState "running jobs must have failure budget remaining")
      else .ok ()
    | .queued | .retryWait | .deferred =>
      if !self.leaseIsEmpty then
        .error (.invalidPersistedState "queued jobs cannot retain a lease")
      else if self.finishedAt.isSome then
        .error (.invalidPersistedState "non-terminal jobs cannot have finished_at")
      else if self.failureCount ≥ self.maxAttempts then
        .error (.invalidPersistedState "active jobs must have failure budget remaining")
      else .ok ()
    | .succeeded | .failed =>
      if !self.leaseIsEmpty then
        .error (.invalidPersistedState "terminal jobs cannot retain a lease")
      else if self.finishedAt.isNone then
        .error (.invalidPersistedState "terminal jobs require finished_at")
      else .ok ()

/-- `Job::from_persisted`: rehydrates a row while checking the state invariants. -/
def fromPersisted (record : PersistedJob) : Except JobError Job :=
  let job : Job :=
    { id := record.id
      jobType := record.jobType
      sourceId := record.sourceId
      status := record.status
      priority := record.priority
      runAfter := record.runAfter
      claimCount := record.claimCount
      failureCount := record.failureCount
      maxAttempts := record.maxAttempts
      leaseOwner := record.leaseOwner
      leaseToken := record.leaseToken
      leaseUntil := record.leaseUntil
      heartbeatAt := record.heartbeatAt
      startedAt := record.startedAt
      finishedAt := record.finishedAt
      lastError := record.lastError
      payload := record.payload
      dedupeKey := record.dedupeKey
      createdAt := record.createdAt
      updatedAt := record.updatedAt }
  match job.validatePersistedState with
  | .error e => .error e
  | .ok () => .ok job

/-- The row a job is stored as: its own fields. -/
def toPersisted (self : Job) : PersistedJob :=
  { id := self.id
    jobType := self.jobType
    sourceId := self.sourceId
    status := self.status
    priority := self.priority
    runAfter := self.runAfter
    claimCount := self.claimCount
    failureCount := self.failureCount
    maxAttempts := self.maxAttempts
    leaseOwner := self.leaseOwner
    leaseToken := self.leaseToken
    leaseUntil := self.leaseUntil
    heartbeatAt := self.heartbeatAt
    startedAt := self.startedAt
    finishedAt := self.finishedAt
    lastError := self.lastError
    payload := self.payload
    dedupeKey := self.dedupeKey
    createdAt := self.createdAt
    updatedAt := self.updatedAt }

/-! ## Transitions -/

def clearLease (self : Job) : Job :=
  { self with leaseOwner := none, leaseToken := none, leaseUntil := none }

def ensureLiveOwner (self : Job) (owner : String) (token : LeaseToken) (now : DateTime)
    (operation : String) : Except JobError Unit :=
  if self.status ≠ .running then .error (.invalidTransition self.status operation)
  else if self.leaseOwner ≠ some owner then .error .leaseOwnerMismatch
  else if self.leaseToken ≠ some token then .error .leaseTokenMismatch
  else match self.leaseUntil with
    | some leaseUntil => if leaseUntil > now then .ok () else .error .leaseExpired
    | none => .error .leaseMissing

/-- `Job::claim`, drawing the token `draw`. -/
def claim (self : Job) (owner : String) (now : DateTime) (leaseFor : Duration)
    (draw : LeaseToken) : Job × Except JobError LeaseToken :=
  match validateOwner owner with
  | .error e => (self, .error e)
  | .ok () =>
  match leaseExpiry now leaseFor with
  | .error e => (self, .error e)
  | .ok leaseUntil =>
  if !self.status.isWaiting then (self, .error (.invalidTransition self.status "claim"))
  else if self.runAfter > now then (self, .error .notDue)
  else if self.failureCount ≥ self.maxAttempts then (self, .error .attemptsExhausted)
  else match checkedAdd self.claimCount 1 with
    | none => (self, .error .claimCountOverflow)
    | some claimCount =>
      ({ self with
          claimCount := claimCount
          status := .running
          leaseOwner := some owner
          leaseToken := some draw
          leaseUntil := some leaseUntil
          heartbeatAt := some now
          startedAt := some (self.startedAt.getD now)
          finishedAt := none
          updatedAt := now }, .ok draw)

/-- `Job::defer`: gives up a live lease without consuming retry budget. -/
def defer (self : Job) (owner : String) (token : LeaseToken) (now resumeAt : DateTime) :
    Job × Except JobError Unit :=
  match validateOwner owner with
  | .error e => (self, .error e)
  | .ok () =>
  if resumeAt ≤ now then (self, .error .invalidDeferralTime)
  else match self.ensureLiveOwner owner token now "defer" with
    | .error e => (self, .error e)
    | .ok () =>
      ({ ({ self with status := .deferred, runAfter := resumeAt } : Job).clearLease with
          lastError := none
          finishedAt := none
          updatedAt := now }, .ok ())

/-- `Job::heartbeat`: extends a live lease. -/
def heartbeat (self : Job) (owner : String) (token : LeaseToken) (now : DateTime)
    (leaseFor : Duration) : Job × Except JobError Unit :=
  match validateOwner owner with
  | .error e => (self, .error e)
  | .ok () =>
  match leaseExpiry now leaseFor with
  | .error e => (self, .error e)
  | .ok leaseUntil =>
  match self.ensureLiveOwner owner token now "heartbeat" with
  | .error e => (self, .error e)
  | .ok () =>
    ({ self with leaseUntil := some leaseUntil, heartbeatAt := some now, updatedAt := now }, .ok ())

/-- `Job::succeed`. -/
def succeed (self : Job) (owner : String) (token : LeaseToken) (now : DateTime) :
    Job × Except JobError Unit :=
  match validateOwner owner with
  | .error e => (self, .error e)
  | .ok () =>
  match self.ensureLiveOwner owner token now "succeed" with
  | .error e => (self, .error e)
  | .ok () =>
    ({ ({ self with status := .succeeded } : Job).clearLease with
        lastError := none
        finishedAt := some now
        updatedAt := now }, .ok ())

/-- `Job::retry`.  The lease is given up before the failure is counted, so an overflow returns its
error from a job already changed. -/
def retry (self : Job) (owner : String) (token : LeaseToken) (now retryAt : DateTime)
    (error : String) : Job × Except JobError JobStatus :=
  match validateOwner owner with
  | .error e => (self, .error e)
  | .ok () =>
  match nonemptyError error with
  | .error e => (self, .error e)
  | .ok error =>
  match self.ensureLiveOwner owner token now "retry" with
  | .error e => (self, .error e)
  | .ok () =>
    let job : Job :=
      { ({ self with lastError := some error, runAfter := retryAt } : Job).clearLease with
        updatedAt := now }
    match checkedAdd job.failureCount 1 with
    | none => (job, .error .failureCountOverflow)
    | some failureCount =>
      if failureCount ≥ job.maxAttempts then
        ({ job with failureCount := failureCount, status := .failed, finishedAt := some now },
          .ok .failed)
      else
        ({ job with failureCount := failureCount, status := .retryWait, finishedAt := none },
          .ok .retryWait)

/-- `Job::fail`. -/
def fail (self : Job) (owner : String) (token : LeaseToken) (now : DateTime) (error : String) :
    Job × Except JobError Unit :=
  match validateOwner owner with
  | .error e => (self, .error e)
  | .ok () =>
  match nonemptyError error with
  | .error e => (self, .error e)
  | .ok error =>
  match self.ensureLiveOwner owner token now "fail" with
  | .error e => (self, .error e)
  | .ok () =>
    ({ ({ self with status := .failed } : Job).clearLease with
        lastError := some error
        finishedAt := some now
        updatedAt := now }, .ok ())

/-- `Job::cancel`: the ownerless administrative failure of an unclaimed job. -/
def cancel (self : Job) (now : DateTime) (reason : String) : Job × Except JobError Unit :=
  match nonemptyError reason with
  | .error e => (self, .error e)
  | .ok reason =>
  if !self.status.isWaiting then (self, .error (.invalidTransition self.status "cancel"))
  else
    ({ ({ self with status := .failed } : Job).clearLease with
        lastError := some reason
        finishedAt := some now
        updatedAt := now }, .ok ())

/-- `Job::recover_expired_lease`: answers whether the call changed the job. -/
def recoverExpiredLease (self : Job) (now : DateTime) : Job × Bool :=
  if self.status ≠ .running ∨ self.leaseUntil.any (fun leaseUntil => decide (leaseUntil > now)) then
    (self, false)
  else
    let job : Job :=
      { self.clearLease with
        runAfter := now
        lastError := some "worker lease expired"
        updatedAt := now
        failureCount := saturatingAdd self.failureCount 1 }
    if job.failureCount ≥ job.maxAttempts then
      ({ job with status := .failed, finishedAt := some now }, true)
    else
      ({ job with status := .queued, finishedAt := none }, true)

end Job

end Werrss
