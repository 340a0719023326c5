import Mathlib.Logic.Function.Basic
import Werrss.Application.SourceSync
import Werrss.Persistence.JobEnqueue
import Werrss.Persistence.Scheduler

/-!
# Application/SchedulingSystem — scheduler passes among enqueues, claims and finished runs

    begin ── clock ──▸ select ── snapshot ──▸ lock, lock, … ──▸ insert, insert, … ──▸ commit
                                               newest version     conflict: no job

A pass is one READ COMMITTED transaction, taken apart at every point where others may commit.  Its
`SELECT … FOR UPDATE SKIP LOCKED` finds the due sources of a snapshot, and locks them one by one: a
source locked by another pass is skipped, and one that was changed meanwhile is looked at again in
its newest committed version — **its columns, but not the jobs, which stay those of the snapshot**.
Enqueues, claims and the final transactions of runs happen as a whole.
-/

open Machinery

namespace Werrss

/-- `source_sync:{source_id}`. -/
def sourceSyncKey (sourceId : Uuid) : String := "source_sync:" ++ sourceId.toText

/-- `json!({ "source_id": source_id })`. -/
def sourceSyncPayload (sourceId : Uuid) : String :=
  "\x7b\"source_id\":\"" ++ sourceId.toText ++ "\"\x7d"

/-- `source_sync_job`. -/
def sourceSyncJob (source : SourceRow) (now : DateTime) : NewJob where
  jobType := .sourceSync
  sourceId := some source.id
  priority := source.priority
  runAfter := source.nextFetchAt
  maxAttempts := UInt32.ofNat source.maxAttempts.toNat
  payload := sourceSyncPayload source.id
  dedupeKey := sourceSyncKey source.id
  now := now

namespace Scheduler

/-- The row a pass inserts for a source. -/
def scheduledJob (source : SourceRow) (now : DateTime) (jobId : Uuid) : JobRow where
  id := jobId
  jobType := "source_sync"
  sourceId := some source.id
  status := "queued"
  priority := source.priority
  runAfter := now
  claimCount := 0
  failureCount := 0
  maxAttempts := source.maxAttempts
  leaseOwner := none
  leaseToken := none
  leaseUntil := none
  heartbeatAt := none
  startedAt := none
  finishedAt := none
  lastError := none
  payloadJson := sourceSyncPayload source.id
  dedupeKey := sourceSyncKey source.id
  createdAt := now
  updatedAt := now

/-- The reservation of a source whose job went in, in whole milliseconds. -/
def reserve (now : DateTime) (reservationFor : Duration) (source : SourceRow) : SourceRow :=
  { source with
    scheduleReservedUntil := some (now + reservationFor.tdiv 1000000 * 1000000)
    updatedAt := now }

/-! ## The state -/

/-- Where a pass is: the jobs of its snapshot, the candidates still to be locked, and the rest of
its `LIMIT`. -/
inductive PassPhase
  | begun
  | locking (jobs : List JobRow) (candidates : List SourceRow) (room : ℕ)
  | inserting
deriving DecidableEq

/-- A pass between its clock sample and its commit. -/
structure Pass where
  now : DateTime
  reservationFor : Duration
  phase : PassPhase
  /-- the locked versions whose job is still to be inserted -/
  locked : List SourceRow
deriving DecidableEq

/-- A job a pass has inserted and not committed, and the version of the source it locked. -/
structure PendingJob where
  pass : ℕ
  source : SourceRow
  job : JobRow
deriving DecidableEq

/-- The committed rows, the clock of the database, and what is under way. -/
structure SchedulingState where
  sources : List SourceRow
  jobs : List JobRow
  clock : DateTime
  passes : ℕ → Option Pass
  /-- the row locks of the passes -/
  locks : Uuid → Option ℕ
  pending : List PendingJob
  /-- the lease tokens that were drawn -/
  issued : List Uuid
  /-- the instants the holders of these tokens sampled to finish at -/
  samples : List (Uuid × DateTime)

/-- A row as its `timestamptz` columns keep it. -/
def stored (row : SourceRow) : SourceRow :=
  { row with
    nextFetchAt := timestamptz row.nextFetchAt
    failureCooldownUntil := row.failureCooldownUntil.map timestamptz
    scheduleReservedUntil := row.scheduleReservedUntil.map timestamptz
    updatedAt := timestamptz row.updatedAt }

/-- Committed sources, and nothing under way. -/
def SchedulingState.start (sources : List SourceRow) (clock : DateTime) : SchedulingState where
  sources := sources.map stored
  jobs := []
  clock := timestamptz clock
  passes _ := none
  locks _ := none
  pending := []
  issued := []
  samples := []

/-! ## Finished runs -/

/-- What a run ended with. -/
inductive RunResult
  | success (changed : Bool)
  | failure (outcome : SyncOutcome) (error : String)

/-- The final transaction of a run, with the lease it holds. -/
structure SyncFinish where
  jobId : Uuid
  owner : String
  token : LeaseToken
  run : RunFinish
  result : RunResult

/-- The statements of the transaction on the sources. -/
def SyncFinish.sources (Url : Type) [UrlCrate Url] [LawfulUrlCrate Url] (config : SourceSyncConfig)
    (finish : SyncFinish) (sources : List SourceRow) : Option (List SourceRow) :=
  let written := match finish.result with
    | .success changed => SourceSync.persistSuccess Url sources finish.run changed
    | .failure outcome _ => SourceSync.finishFailedRun Url config sources finish.run outcome
  written.map fun sources => Rows.update SourceRow.id sources finish.run.sourceId stored

/-- Its statement on a job; a retry that leaves the calendar does not get there. -/
def SyncFinish.job (config : SourceSyncConfig) (finish : SyncFinish) (now : DateTime)
    (row : JobRow) : Except JobRepositoryError (Option JobRow) :=
  match finish.result with
  | .success _ => row.succeed finish.jobId finish.owner finish.token now
  | .failure .retryableFailure error =>
    match DateTime.checkedAddSigned finish.run.finishedAt config.retryAfter with
    | none => .ok none
    | some retryAt => row.retry finish.jobId finish.owner finish.token now retryAt error
  | .failure _ error => row.fail finish.jobId finish.owner finish.token now error

/-- The job is one of the source that `validate_lease` lets through, and the statement changed
it. -/
def SyncFinish.lands (config : SourceSyncConfig) (finish : SyncFinish) (now : DateTime)
    (row : JobRow) : Bool :=
  decide (row.jobType = "source_sync") && decide (row.sourceId = some finish.run.sourceId) &&
    match finish.job config now row with
    | .ok (some _) => true
    | _ => false

/-! ## The steps -/

inductive SchedulingAction
  /-- microseconds pass -/
  | tick (elapsed : ℕ)
  /-- a pass samples the clock -/
  | begin (pass : ℕ) (reservationFor : Duration)
  /-- the snapshot of its `SELECT` -/
  | select (pass limit : ℕ)
  /-- its next candidate is locked, or skipped -/
  | lock (pass : ℕ)
  /-- its next job is inserted, or is a conflict -/
  | insert (pass : ℕ) (jobId : Uuid)
  | commit (pass : ℕ)
  | rollback (pass : ℕ)
  /-- a job of a source is enqueued by hand -/
  | enqueue (jobId sourceId : Uuid)
  | claim (owner : String) (leaseFor : Duration) (allowedJobTypes : List JobType)
      (draw : LeaseToken)
  /-- the holder of a token samples the instant it finishes at -/
  | sample (token : LeaseToken)
  | finish (finish : SyncFinish)

namespace SchedulingState

/-- The due predicate on a version of a source, with the jobs of a snapshot. -/
def isDueIn (jobs : List JobRow) (now : DateTime) (row : SourceRow) : Bool :=
  isDue ⟨fun sourceId => jobs.any (JobRow.holds (sourceSyncKey sourceId)), fun _ => false,
    fun _ => true⟩ now row

/-- The candidates of a snapshot, in order. -/
def candidates (s : SchedulingState) (now : DateTime) : List SourceRow :=
  (s.sources.filter (isDueIn s.jobs now)).insertionSort isBefore

def setPass (s : SchedulingState) (id : ℕ) (pass : Pass) : SchedulingState :=
  { s with passes := Function.update s.passes id (some pass) }

/-- The end of a pass: its locks are free, and what it has not committed is gone. -/
def endPass (s : SchedulingState) (id : ℕ) : SchedulingState :=
  { s with
    passes := Function.update s.passes id none
    locks := fun sourceId => if s.locks sourceId = some id then none else s.locks sourceId
    pending := s.pending.filter (·.pass ≠ id) }

/-- The next candidate: skipped if it is locked or gone, or if its newest version is not due. -/
def lockNext (s : SchedulingState) (id : ℕ) (pass : Pass) (jobs : List JobRow)
    (candidate : SourceRow) (rest : List SourceRow) (room : ℕ) : SchedulingState :=
  let skipped := s.setPass id { pass with phase := .locking jobs rest (room + 1) }
  if (s.locks candidate.id).isSome then skipped
  else
    match findSource s.sources candidate.id with
    | none => skipped
    | some current =>
      if isDueIn jobs pass.now current then
        { s.setPass id { pass with
            phase := .locking jobs rest room
            locked := pass.locked ++ [current] } with
          locks := Function.update s.locks candidate.id (some id) }
      else skipped

/-- Some job with this key is committed and active, or pending. -/
def keyTaken (s : SchedulingState) (key : String) : Bool :=
  s.jobs.any (JobRow.holds key) || s.pending.any (fun pending => pending.job.holds key)

/-- An insertion waits for the other transaction that has inserted its key. -/
def keyWaits (s : SchedulingState) (id : ℕ) (key : String) : Bool :=
  s.pending.any fun pending => pending.pass ≠ id && pending.job.holds key

def jobIdTaken (s : SchedulingState) (jobId : Uuid) : Bool :=
  decide (jobId ∈ s.jobs.map JobRow.id) || decide (jobId ∈ s.pending.map (·.job.id))

/-- **The insertion goes in.** -/
def insertsJob (s : SchedulingState) (id : ℕ) (source : SourceRow) (jobId : Uuid) : Bool :=
  decide (0 ≤ source.maxAttempts ∧ source.maxAttempts < UInt32.size)
    && !s.keyWaits id (sourceSyncKey source.id) && !s.keyTaken (sourceSyncKey source.id)
    && !s.jobIdTaken jobId

/-- The job of one locked source: an attempt limit that does not convert or an id that is in use is
an error, which drops the pass. -/
def insertNext (s : SchedulingState) (id : ℕ) (pass : Pass) (source : SourceRow)
    (rest : List SourceRow) (jobId : Uuid) : SchedulingState :=
  if ¬(0 ≤ source.maxAttempts ∧ source.maxAttempts < UInt32.size) then s.endPass id
  else if s.keyWaits id (sourceSyncKey source.id) then s
  else if s.keyTaken (sourceSyncKey source.id) then s.setPass id { pass with locked := rest }
  else if s.jobIdTaken jobId then s.endPass id
  else
    { s.setPass id { pass with locked := rest } with
      pending := s.pending ++ [⟨id, source, scheduledJob source pass.now jobId⟩] }

/-- The jobs a pass has inserted. -/
def inserted (s : SchedulingState) (id : ℕ) : List PendingJob := s.pending.filter (·.pass = id)

/-- **A pass commits its jobs and its reservations.** -/
def commitPass (s : SchedulingState) (id : ℕ) (pass : Pass) : SchedulingState :=
  { s.endPass id with
    sources := s.sources.map fun row =>
      if row.id ∈ (s.inserted id).map (·.source.id) then reserve pass.now pass.reservationFor row
      else row
    jobs := s.jobs ++ (s.inserted id).map (·.job) }

variable (Url : Type) [UrlCrate Url] [LawfulUrlCrate Url]

/-- The final transaction of a run, if every statement of it succeeds. -/
def finished (config : SourceSyncConfig) (s : SchedulingState) (finish : SyncFinish) :
    Option SchedulingState :=
  if (s.locks finish.run.sourceId).isNone ∧ (finish.token.uuid, finish.run.finishedAt) ∈ s.samples
      ∧ s.jobs.any (finish.lands config s.clock) then
    (finish.sources Url config s.sources).map fun sources =>
      { s with
        sources := sources
        jobs := s.jobs.map fun row => JobTransaction.left row (finish.job config s.clock row) }
  else none

/-- **One step**; one that has to wait, or that is not the turn of its pass, changes nothing. -/
def step (config : SourceSyncConfig) (s : SchedulingState) : SchedulingAction → SchedulingState
  | .tick elapsed => { s with clock := s.clock + elapsed * 1000 }
  | .begin id reservationFor =>
    match s.passes id with
    | none => s.setPass id ⟨s.clock, reservationFor, .begun, []⟩
    | some _ => s
  | .select id limit =>
    match s.passes id with
    | some ⟨now, reservationFor, .begun, locked⟩ =>
      s.setPass id ⟨now, reservationFor, .locking s.jobs (s.candidates now) limit, locked⟩
    | _ => s
  | .lock id =>
    match s.passes id with
    | some pass =>
      match pass.phase with
      | .locking jobs (candidate :: rest) (room + 1) => s.lockNext id pass jobs candidate rest room
      | .locking _ _ _ => s.setPass id { pass with phase := .inserting }
      | _ => s
    | none => s
  | .insert id jobId =>
    match s.passes id with
    | some ⟨now, reservationFor, .inserting, source :: rest⟩ =>
      s.insertNext id ⟨now, reservationFor, .inserting, source :: rest⟩ source rest jobId
    | _ => s
  | .commit id =>
    match s.passes id with
    | some ⟨now, reservationFor, .inserting, []⟩ =>
      s.commitPass id ⟨now, reservationFor, .inserting, []⟩
    | _ => s
  | .rollback id => s.endPass id
  | .enqueue jobId sourceId =>
    match findSource s.sources sourceId with
    | none => s
    | some source =>
      if s.pending.any (fun pending => pending.job.holds (sourceSyncKey source.id))
          || decide (jobId ∈ s.pending.map (·.job.id)) then s
      else { s with
        jobs := (JobTransaction.enqueue jobId (sourceSyncJob source s.clock)).commit s.jobs }
  | .claim owner leaseFor allowedJobTypes draw =>
    if draw.uuid ∈ s.issued then s
    else { s with
      jobs := (JobTransaction.claimNext owner s.clock leaseFor allowedJobTypes draw).commit s.jobs
      issued := draw.uuid :: s.issued }
  | .sample token =>
    if s.jobs.any fun row => decide (row.leaseToken = some token.uuid) then
      { s with samples := (token.uuid, s.clock) :: s.samples }
    else s
  | .finish finish => (finished Url config s finish).getD s

end SchedulingState

end Scheduler

end Werrss
