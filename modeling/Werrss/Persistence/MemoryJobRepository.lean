import Werrss.Machinery.HashMap
import Werrss.Machinery.Selection
import Werrss.Domain.JobRun

/-!
# Persistence/MemoryJobRepository — the in-memory job store and its transactions

    begin ── backup := jobs ──▸ call ── … ── call ──▸ commit ── keep | drop ── jobs := backup

The store is a `HashMap` behind a mutex.  A call mutates the entry it finds in place, so a domain
method that fails after a mutation would leave its trace; a transaction handle keeps the mutex and a
copy of the map, and puts the copy back when it is dropped uncommitted.  What the code draws or
leaves open — new identifiers and tokens, the order in which a map is iterated — is part of a call.
-/

open Machinery

namespace Werrss

/-- Errors returned by repository implementations. -/
inductive JobRepositoryError
  | domain (error : JobError)
  | notFound (jobId : Uuid)
  | storage (message : String)
deriving DecidableEq, Repr

/-- Result of attempting to enqueue a job. -/
inductive EnqueueResult
  | inserted (job : Job)
  | alreadyActive (jobId : Uuid)
deriving DecidableEq, Repr

/-- A claimed job together with the token required for mutations. -/
structure JobLease where
  job : Job
  token : LeaseToken
deriving DecidableEq, Repr

/-- `claim_order`: priority descending, then `run_after`, `created_at` and the identifier. -/
def claimOrder (left right : Job) : Ordering :=
  (compare right.priority left.priority).then
    ((compare left.runAfter right.runAfter).then
      ((compare left.createdAt right.createdAt).then (compare left.id.value right.id.value)))

/-- The jobs by identifier. -/
abbrev JobStore := HashMap Uuid Job

namespace JobStore

/-! ## The operations on the map -/

/-- A job that keeps others with its key out. -/
def holds (dedupeKey : String) (job : Job) : Bool :=
  job.status.isActive && decide (job.dedupeKey = dedupeKey)

/-- `enqueue_in_store`. -/
def enqueueInStore (jobs : JobStore) (order : Iteration (Uuid × Job)) (id : Uuid) (spec : NewJob) :
    JobStore × Except JobRepositoryError EnqueueResult :=
  match (jobs.iter order).find? fun entry => holds spec.dedupeKey entry.2 with
  | some (_, existing) => (jobs, .ok (.alreadyActive existing.id))
  | none =>
    match Job.new id spec with
    | .error e => (jobs, .error (.domain e))
    | .ok job => (jobs.insert job.id job, .ok (.inserted job))

/-- The filter of `claim_next_in_store`. -/
def isClaimable (now : DateTime) (allowedJobTypes : List JobType) (job : Job) : Bool :=
  job.status.isWaiting && decide (job.runAfter ≤ now) && decide (job.jobType ∈ allowedJobTypes)
    && decide (job.failureCount < job.maxAttempts)

/-- The entry `claim_next_in_store` takes. -/
def candidate (jobs : JobStore) (order : Iteration (Uuid × Job)) (now : DateTime)
    (allowedJobTypes : List JobType) : Option (Uuid × Job) :=
  minBy (fun left right => claimOrder left.2 right.2)
    ((jobs.iter order).filter fun entry => isClaimable now allowedJobTypes entry.2)

/-- `claim_next_in_store`. -/
def claimNextInStore (jobs : JobStore) (order : Iteration (Uuid × Job)) (owner : String)
    (now : DateTime) (leaseFor : Duration) (allowedJobTypes : List JobType) (draw : LeaseToken) :
    JobStore × Except JobRepositoryError (Option JobLease) :=
  match candidate jobs order now allowedJobTypes with
  | none => (jobs, .ok none)
  | some (candidateId, _) =>
    match jobs.get candidateId with
    | none => (jobs, .error (.notFound candidateId))
    | some job =>
      match job.claim owner now leaseFor draw with
      | (job, .error e) => (jobs.insert candidateId job, .error (.domain e))
      | (job, .ok token) => (jobs.insert candidateId job, .ok (some ⟨job, token⟩))

/-- The six operations on one job: `get_mut`, the domain method in place, a copy of the job. -/
def mutateInStore {A : Type} (jobs : JobStore) (jobId : Uuid)
    (method : Job → Job × Except JobError A) : JobStore × Except JobRepositoryError Job :=
  match jobs.get jobId with
  | none => (jobs, .error (.notFound jobId))
  | some job =>
    match method job with
    | (job, .error e) => (jobs.insert jobId job, .error (.domain e))
    | (job, .ok _) => (jobs.insert jobId job, .ok job)

def heartbeatInStore (jobs : JobStore) (jobId : Uuid) (owner : String) (token : LeaseToken)
    (now : DateTime) (leaseFor : Duration) : JobStore × Except JobRepositoryError Job :=
  mutateInStore jobs jobId fun job => job.heartbeat owner token now leaseFor

def deferInStore (jobs : JobStore) (jobId : Uuid) (owner : String) (token : LeaseToken)
    (now resumeAt : DateTime) : JobStore × Except JobRepositoryError Job :=
  mutateInStore jobs jobId fun job => job.defer owner token now resumeAt

def succeedInStore (jobs : JobStore) (jobId : Uuid) (owner : String) (token : LeaseToken)
    (now : DateTime) : JobStore × Except JobRepositoryError Job :=
  mutateInStore jobs jobId fun job => job.succeed owner token now

def retryInStore (jobs : JobStore) (jobId : Uuid) (owner : String) (token : LeaseToken)
    (now retryAt : DateTime) (error : String) : JobStore × Except JobRepositoryError Job :=
  mutateInStore jobs jobId fun job => job.retry owner token now retryAt error

def failInStore (jobs : JobStore) (jobId : Uuid) (owner : String) (token : LeaseToken)
    (now : DateTime) (error : String) : JobStore × Except JobRepositoryError Job :=
  mutateInStore jobs jobId fun job => job.fail owner token now error

def cancelInStore (jobs : JobStore) (jobId : Uuid) (now : DateTime) (reason : String) :
    JobStore × Except JobRepositoryError Job :=
  mutateInStore jobs jobId fun job => job.cancel now reason

/-- A running job whose lease is over. -/
def isExpired (now : DateTime) (job : Job) : Bool :=
  decide (job.status = .running) && job.leaseUntil.any fun leaseUntil => decide (leaseUntil ≤ now)

/-- `Option<DateTime>` in its order, `None` first. -/
def leaseLe (a b : Uuid × Option DateTime) : Bool :=
  match a.2, b.2 with
  | none, _ => true
  | some _, none => false
  | some x, some y => decide (x ≤ y)

/-- The loop of `recover_expired_in_store`; `none` is the panic of its `expect`. -/
def recoverEach (now : DateTime) : List (Uuid × Option DateTime) → JobStore → List Job →
    JobStore × Option (List Job)
  | [], jobs, recovered => (jobs, some recovered)
  | (jobId, _) :: candidates, jobs, recovered =>
    match jobs.get jobId with
    | none => (jobs, none)
    | some job =>
      match job.recoverExpiredLease now with
      | (job, true) => recoverEach now candidates (jobs.insert jobId job) (recovered ++ [job])
      | (job, false) => recoverEach now candidates (jobs.insert jobId job) recovered

/-- The entries `recover_expired_in_store` collects, by identifier and lease. -/
def expired (jobs : JobStore) (order : Iteration (Uuid × Job)) (now : DateTime) :
    List (Uuid × Option DateTime) :=
  ((jobs.iter order).filter fun entry => isExpired now entry.2).map
    fun entry => (entry.1, entry.2.leaseUntil)

/-- `recover_expired_in_store`. -/
def recoverExpiredInStore (jobs : JobStore) (order : Iteration (Uuid × Job)) (now : DateTime)
    (limit : ℕ) : JobStore × Option (List Job) :=
  recoverEach now (firstBy (fun a b => leaseLe a b = true) limit (expired jobs order now)) jobs []

end JobStore

/-! ## Calls -/

/-- A call of the repository or of a transaction handle. -/
inductive StoreCall
  | enqueue (order : Iteration (Uuid × Job)) (id : Uuid) (spec : NewJob)
  | claimNext (order : Iteration (Uuid × Job)) (owner : String) (now : DateTime)
      (leaseFor : Duration) (allowedJobTypes : List JobType) (draw : LeaseToken)
  | heartbeat (jobId : Uuid) (owner : String) (token : LeaseToken) (now : DateTime)
      (leaseFor : Duration)
  | defer (jobId : Uuid) (owner : String) (token : LeaseToken) (now resumeAt : DateTime)
  | succeed (jobId : Uuid) (owner : String) (token : LeaseToken) (now : DateTime)
  | retry (jobId : Uuid) (owner : String) (token : LeaseToken) (now retryAt : DateTime)
      (error : String)
  | fail (jobId : Uuid) (owner : String) (token : LeaseToken) (now : DateTime) (error : String)
  | cancel (jobId : Uuid) (now : DateTime) (reason : String)
  | recoverExpired (order : Iteration (Uuid × Job)) (now : DateTime) (limit : ℕ)

/-- What a call returned; a recovery returns no error. -/
inductive StoreAnswer
  | enqueued (result : Except JobRepositoryError EnqueueResult)
  | claimed (result : Except JobRepositoryError (Option JobLease))
  | mutated (result : Except JobRepositoryError Job)
  | recovered (jobs : Option (List Job))

/-- The call returned `Err`. -/
def StoreAnswer.isErr : StoreAnswer → Bool
  | .enqueued result => !result.isOk
  | .claimed result => !result.isOk
  | .mutated result => !result.isOk
  | .recovered _ => false

/-- One call on the map. -/
def StoreCall.run (jobs : JobStore) : StoreCall → JobStore × StoreAnswer
  | .enqueue order id spec =>
    let (jobs, result) := jobs.enqueueInStore order id spec
    (jobs, .enqueued result)
  | .claimNext order owner now leaseFor allowedJobTypes draw =>
    let (jobs, result) := jobs.claimNextInStore order owner now leaseFor allowedJobTypes draw
    (jobs, .claimed result)
  | .heartbeat jobId owner token now leaseFor =>
    let (jobs, result) := jobs.heartbeatInStore jobId owner token now leaseFor
    (jobs, .mutated result)
  | .defer jobId owner token now resumeAt =>
    let (jobs, result) := jobs.deferInStore jobId owner token now resumeAt
    (jobs, .mutated result)
  | .succeed jobId owner token now =>
    let (jobs, result) := jobs.succeedInStore jobId owner token now
    (jobs, .mutated result)
  | .retry jobId owner token now retryAt error =>
    let (jobs, result) := jobs.retryInStore jobId owner token now retryAt error
    (jobs, .mutated result)
  | .fail jobId owner token now error =>
    let (jobs, result) := jobs.failInStore jobId owner token now error
    (jobs, .mutated result)
  | .cancel jobId now reason =>
    let (jobs, result) := jobs.cancelInStore jobId now reason
    (jobs, .mutated result)
  | .recoverExpired order now limit =>
    let (jobs, recovered) := jobs.recoverExpiredInStore order now limit
    (jobs, .recovered recovered)

/-- The repository's own `defer`, `succeed`, `retry`, `fail` and `cancel` are a transaction each:
an error drops it. -/
def StoreCall.isConvenience : StoreCall → Bool
  | .defer .. | .succeed .. | .retry .. | .fail .. | .cancel .. => true
  | _ => false

/-! ## The repository and its one transaction -/

/-- The map, and the copy a transaction handle holds while it lives. -/
structure MemoryJobRepository where
  jobs : JobStore
  backup : Option JobStore

namespace MemoryJobRepository

/-- `MemoryJobRepository::new`. -/
def new : MemoryJobRepository := ⟨HashMap.empty, none⟩

/-- A call of the handle while there is one, else of the repository. -/
def call (self : MemoryJobRepository) (c : StoreCall) : MemoryJobRepository × StoreAnswer :=
  let (jobs, answer) := c.run self.jobs
  if self.backup.isNone && c.isConvenience && answer.isErr then (self, answer)
  else ({ self with jobs := jobs }, answer)

/-- What a program does with the repository. -/
inductive Action
  | call (c : StoreCall)
  | begin
  | commit
  | drop

/-- One action.  `begin` waits for the mutex while a handle lives. -/
def step (self : MemoryJobRepository) : Action → MemoryJobRepository
  | .call c => (self.call c).1
  | .begin =>
    match self.backup with
    | none => { self with backup := some self.jobs }
    | some _ => self
  | .commit => { self with backup := none }
  | .drop =>
    match self.backup with
    | none => self
    | some backup => ⟨backup, none⟩

end MemoryJobRepository

end Werrss
