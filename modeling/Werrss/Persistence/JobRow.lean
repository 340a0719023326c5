import Werrss.Machinery.Selection
import Werrss.Persistence.ArticleUpsert
import Werrss.Persistence.MemoryJobRepository

/-!
# Persistence/JobRow — the `jobs` table: its columns, its CHECK, its UPDATE statements

    row ──decode_job──▸ Job        row ── UPDATE … WHERE … ──▸ no row | row'

A row is what the columns hold: enumerations as text, counters as `BIGINT`, instants as
`timestamptz`.  Each worker operation validates its arguments and runs one statement at the
database's clock; `clock_timestamp()` is an argument, as are the drawn tokens.  A statement that
PostgreSQL refuses — a text with a NUL, an instant out of range — is a storage error.
-/

open Machinery

namespace Werrss

/-! ## Values -/

/-- The first instant of `timestamptz`, in 4714 BC. -/
def pgFirst : DateTime := -210866803200 * 1000000000

/-- The end of `timestamptz`, with the year 294276. -/
def pgEnd : DateTime := 9224318016000 * 1000000000

/-- A parameter of type `timestamptz`. -/
def bindTimestamptz (t : DateTime) : Except JobRepositoryError DateTime :=
  if pgFirst ≤ timestamptz t ∧ timestamptz t < pgEnd then .ok (timestamptz t)
  else .error (.storage "timestamp out of range")

/-- A parameter of type `text`, which holds no NUL. -/
def bindText (s : String) : Except JobRepositoryError String :=
  if '\x00' ∈ s.toList then .error (.storage "invalid byte sequence for encoding \"UTF8\": 0x00")
  else .ok s

/-- `btrim(s) = ''`: spaces only. -/
def isSpaces (s : String) : Bool := s.toList.all (· = ' ')

/-- The microseconds of `$n::double precision * INTERVAL '1 millisecond'`. -/
def intervalMicroseconds (milliseconds : ℕ) : ℕ := roundDouble (1000 * roundDouble milliseconds)

/-- `now + ($n::double precision * INTERVAL '1 millisecond')`. -/
def leaseEnd (now : DateTime) (milliseconds : ℕ) : Except JobRepositoryError DateTime :=
  let micros := intervalMicroseconds milliseconds
  if micros ≤ i64Max ∧ now + micros * 1000 < pgEnd then .ok (now + micros * 1000)
  else .error (.storage "timestamp out of range")

/-! ## Rows -/

/-- A row of `jobs`. -/
structure JobRow where
  id : Uuid
  jobType : String
  sourceId : Option Uuid
  status : String
  priority : ℤ
  runAfter : DateTime
  claimCount : ℤ
  failureCount : ℤ
  maxAttempts : ℤ
  leaseOwner : Option String
  leaseToken : Option Uuid
  leaseUntil : Option DateTime
  heartbeatAt : Option DateTime
  startedAt : Option DateTime
  finishedAt : Option DateTime
  lastError : Option String
  payloadJson : String
  dedupeKey : String
  createdAt : DateTime
  updatedAt : DateTime
deriving DecidableEq, Repr

def jobTypeName : JobType → String
  | .sourceSync => "source_sync"
  | .feedRebuild => "feed_rebuild"
  | .articleBackfill => "article_backfill"
  | .credentialRefresh => "credential_refresh"
  | .assetRepair => "asset_repair"
  | .assetRefresh => "asset_refresh"

def statusName : JobStatus → String
  | .queued => "queued"
  | .running => "running"
  | .retryWait => "retry_wait"
  | .deferred => "deferred"
  | .succeeded => "succeeded"
  | .failed => "failed"

def parseJobType (value : String) : Except JobRepositoryError JobType :=
  if value = "source_sync" then .ok .sourceSync
  else if value = "feed_rebuild" then .ok .feedRebuild
  else if value = "article_backfill" then .ok .articleBackfill
  else if value = "credential_refresh" then .ok .credentialRefresh
  else if value = "asset_repair" then .ok .assetRepair
  else if value = "asset_refresh" then .ok .assetRefresh
  else .error (.storage ("unknown persisted job_type: " ++ value))

def parseJobStatus (value : String) : Except JobRepositoryError JobStatus :=
  if value = "queued" then .ok .queued
  else if value = "running" then .ok .running
  else if value = "retry_wait" then .ok .retryWait
  else if value = "deferred" then .ok .deferred
  else if value = "succeeded" then .ok .succeeded
  else if value = "failed" then .ok .failed
  else .error (.storage ("unknown persisted job status: " ++ value))

/-- `persisted_u32`. -/
def persistedU32 (value : ℤ) (column : String) : Except JobRepositoryError UInt32 :=
  if 0 ≤ value ∧ value < UInt32.size then .ok (UInt32.ofNat value.toNat)
  else .error (.storage ("persisted job column " ++ column ++ " is outside the u32 range"))

/-- A `timestamptz` column as `chrono`'s calendar holds it. -/
def decodeInstant (t : DateTime) : Except JobRepositoryError DateTime :=
  if DateTime.minUtc ≤ t ∧ t ≤ DateTime.maxUtc then .ok t
  else .error (.storage "timestamp outside the calendar")

def decodeInstant? : Option DateTime → Except JobRepositoryError (Option DateTime)
  | none => .ok none
  | some t => (decodeInstant t).map some

namespace JobRow

/-- `decode_job`. -/
def decodeJob (row : JobRow) : Except JobRepositoryError Job := do
  let jobType ← parseJobType row.jobType
  let status ← parseJobStatus row.status
  let runAfter ← decodeInstant row.runAfter
  let claimCount ← persistedU32 row.claimCount "claim_count"
  let failureCount ← persistedU32 row.failureCount "failure_count"
  let maxAttempts ← persistedU32 row.maxAttempts "max_attempts"
  let leaseUntil ← decodeInstant? row.leaseUntil
  let heartbeatAt ← decodeInstant? row.heartbeatAt
  let startedAt ← decodeInstant? row.startedAt
  let finishedAt ← decodeInstant? row.finishedAt
  let createdAt ← decodeInstant row.createdAt
  let updatedAt ← decodeInstant row.updatedAt
  (Job.fromPersisted
    { id := row.id
      jobType := jobType
      sourceId := row.sourceId
      status := status
      priority := row.priority
      runAfter := runAfter
      claimCount := claimCount
      failureCount := failureCount
      maxAttempts := maxAttempts
      leaseOwner := row.leaseOwner
      leaseToken := row.leaseToken.map LeaseToken.mk
      leaseUntil := leaseUntil
      heartbeatAt := heartbeatAt
      startedAt := startedAt
      finishedAt := finishedAt
      lastError := row.lastError
      payload := row.payloadJson
      dedupeKey := row.dedupeKey
      createdAt := createdAt
      updatedAt := updatedAt }).mapError .domain

/-! ## The CHECK constraints -/

/-- The lease columns are null. -/
def leaseIsNull (row : JobRow) : Bool :=
  row.leaseOwner.isNone && row.leaseToken.isNone && row.leaseUntil.isNone

/-- The constraints on single columns, the list of job types as its last migration has it. -/
def checkColumns (row : JobRow) : Bool :=
  decide (row.jobType ∈ ["source_sync", "feed_rebuild", "article_backfill", "credential_refresh",
      "asset_repair", "asset_refresh"])
    && decide (row.status ∈ ["queued", "running", "retry_wait", "deferred", "succeeded", "failed"])
    && decide (0 ≤ row.claimCount) && decide (0 ≤ row.failureCount) && decide (0 < row.maxAttempts)
    && !isSpaces row.dedupeKey

def checkRunning (row : JobRow) : Bool :=
  decide (row.status = "running") && decide (0 < row.claimCount)
    && decide (row.failureCount < row.maxAttempts)
    && row.leaseOwner.any (fun owner => !isSpaces owner) && row.leaseToken.isSome
    && row.leaseUntil.isSome && row.heartbeatAt.isSome && row.startedAt.isSome
    && row.finishedAt.isNone

def checkWaiting (row : JobRow) : Bool :=
  decide (row.status ∈ ["queued", "retry_wait", "deferred"])
    && decide (row.failureCount < row.maxAttempts) && row.leaseIsNull && row.finishedAt.isNone

def checkSucceeded (row : JobRow) : Bool :=
  decide (row.status = "succeeded") && decide (0 < row.claimCount)
    && decide (row.failureCount < row.maxAttempts) && row.leaseIsNull && row.startedAt.isSome
    && row.finishedAt.isSome

def checkFailed (row : JobRow) : Bool :=
  decide (row.status = "failed") && decide (row.failureCount ≤ row.maxAttempts)
    && row.leaseIsNull && row.finishedAt.isSome

/-- **The CHECK constraints of the table.** -/
def check (row : JobRow) : Bool :=
  row.checkColumns
    && (row.checkRunning || row.checkWaiting || row.checkSucceeded || row.checkFailed)

/-! ## The statements on one row -/

/-- `lease_milliseconds`. -/
def leaseMilliseconds (leaseFor : Duration) : Except JobRepositoryError ℕ :=
  if leaseFor ≤ 0 then .error (.domain .invalidLeaseDuration)
  else
    let milliseconds := leaseFor / 1000000
    if milliseconds ≤ 0 then .error (.domain .invalidLeaseDuration) else .ok milliseconds.toNat

/-- `WHERE id = … AND status = 'running' AND lease_owner = … AND lease_token = … AND
lease_until > now`. -/
def isFenced (row : JobRow) (jobId : Uuid) (owner : String) (token : LeaseToken) (now : DateTime) :
    Bool :=
  decide (row.id = jobId) && decide (row.status = "running") && decide (row.leaseOwner = some owner)
    && decide (row.leaseToken = some token.uuid)
    && row.leaseUntil.any fun leaseUntil => decide (now < leaseUntil)

def heartbeat (row : JobRow) (jobId : Uuid) (owner : String) (token : LeaseToken) (now : DateTime)
    (leaseFor : Duration) : Except JobRepositoryError (Option JobRow) := do
  (validateOwner owner).mapError .domain
  let milliseconds ← leaseMilliseconds leaseFor
  let owner ← bindText owner
  if row.isFenced jobId owner token now then
    let leaseUntil ← leaseEnd now milliseconds
    return some { row with
      leaseUntil := some leaseUntil
      heartbeatAt := some now
      updatedAt := now }
  else return none

def defer (row : JobRow) (jobId : Uuid) (owner : String) (token : LeaseToken)
    (now resumeAt : DateTime) : Except JobRepositoryError (Option JobRow) := do
  (validateOwner owner).mapError .domain
  let owner ← bindText owner
  let resumeAt ← bindTimestamptz resumeAt
  if row.isFenced jobId owner token now ∧ now < resumeAt then
    return some { row with
      status := "deferred"
      runAfter := resumeAt
      leaseOwner := none
      leaseToken := none
      leaseUntil := none
      lastError := none
      finishedAt := none
      updatedAt := now }
  else return none

def succeed (row : JobRow) (jobId : Uuid) (owner : String) (token : LeaseToken) (now : DateTime) :
    Except JobRepositoryError (Option JobRow) := do
  (validateOwner owner).mapError .domain
  let owner ← bindText owner
  if row.isFenced jobId owner token now then
    return some { row with
      status := "succeeded"
      leaseOwner := none
      leaseToken := none
      leaseUntil := none
      lastError := none
      finishedAt := some now
      updatedAt := now }
  else return none

/-- The `CASE` of `retry` and `recover_expired`: one more failure spends the budget. -/
def isSpent (row : JobRow) : Bool := decide (row.maxAttempts ≤ row.failureCount + 1)

def retry (row : JobRow) (jobId : Uuid) (owner : String) (token : LeaseToken)
    (now retryAt : DateTime) (error : String) : Except JobRepositoryError (Option JobRow) := do
  (validateOwner owner).mapError .domain
  let error ← (nonemptyError error).mapError .domain
  let owner ← bindText owner
  let retryAt ← bindTimestamptz retryAt
  let error ← bindText error
  if row.isFenced jobId owner token now then
    return some { row with
      status := if row.isSpent then "failed" else "retry_wait"
      failureCount := row.failureCount + 1
      leaseOwner := none
      leaseToken := none
      leaseUntil := none
      runAfter := retryAt
      lastError := some error
      finishedAt := if row.isSpent then some now else none
      updatedAt := now }
  else return none

def fail (row : JobRow) (jobId : Uuid) (owner : String) (token : LeaseToken) (now : DateTime)
    (error : String) : Except JobRepositoryError (Option JobRow) := do
  (validateOwner owner).mapError .domain
  let error ← (nonemptyError error).mapError .domain
  let owner ← bindText owner
  let error ← bindText error
  if row.isFenced jobId owner token now then
    return some { row with
      status := "failed"
      leaseOwner := none
      leaseToken := none
      leaseUntil := none
      lastError := some error
      finishedAt := some now
      updatedAt := now }
  else return none

/-- `ACTIVE_STATUSES`. -/
def activeStatuses : List String := ["queued", "running", "retry_wait", "deferred"]

/-- `cancel`: the lease columns are null already. -/
def cancel (row : JobRow) (jobId : Uuid) (now : DateTime) (reason : String) :
    Except JobRepositoryError (Option JobRow) := do
  let reason ← (nonemptyError reason).mapError .domain
  let reason ← bindText reason
  if row.id = jobId ∧ row.status ∈ activeStatuses ∧ row.leaseIsNull then
    return some { row with
      status := "failed"
      lastError := some reason
      finishedAt := some now
      updatedAt := now }
  else return none

/-! ## The statements that pick rows -/

/-- The `WHERE` of `claim_next`. -/
def isDue (now : DateTime) (allowedJobTypes : List JobType) (row : JobRow) : Bool :=
  decide (row.status ∈ ["queued", "retry_wait", "deferred"])
    && decide (row.jobType ∈ allowedJobTypes.map jobTypeName) && decide (row.runAfter ≤ now)
    && decide (row.failureCount < row.maxAttempts)

/-- `ORDER BY priority DESC, run_after ASC, created_at ASC, id ASC`. -/
def claimCompare (a b : JobRow) : Ordering :=
  (compare b.priority a.priority).then
    ((compare a.runAfter b.runAfter).then
      ((compare a.createdAt b.createdAt).then (compare a.id.value b.id.value)))

/-- The `SET` of `claim_next`. -/
def claimed (owner : String) (token : LeaseToken) (now leaseUntil : DateTime) (row : JobRow) :
    JobRow :=
  { row with
    status := "running"
    claimCount := row.claimCount + 1
    leaseOwner := some owner
    leaseToken := some token.uuid
    leaseUntil := some leaseUntil
    heartbeatAt := some now
    startedAt := some (row.startedAt.getD now)
    finishedAt := none
    updatedAt := now }

/-- `claim_next` on rows none of which is locked: the row it returns, and the rows after it. -/
def claimNext (rows : List JobRow) (owner : String) (now : DateTime) (leaseFor : Duration)
    (allowedJobTypes : List JobType) (draw : LeaseToken) :
    Except JobRepositoryError (Option JobRow × List JobRow) := do
  (validateOwner owner).mapError .domain
  let milliseconds ← leaseMilliseconds leaseFor
  let owner ← bindText owner
  match firstBy (fun a b => (claimCompare a b).isLE = true) 1
      (rows.filter (isDue now allowedJobTypes)) with
  | [] => return (none, rows)
  | candidate :: _ =>
    let leaseUntil ← leaseEnd now milliseconds
    return (some (claimed owner draw now leaseUntil candidate), rows.map fun row =>
      if row.id = candidate.id then claimed owner draw now leaseUntil row else row)

/-- The `WHERE` of `recover_expired`. -/
def isExpired (now : DateTime) (row : JobRow) : Bool :=
  decide (row.status = "running") && row.leaseUntil.any fun leaseUntil => decide (leaseUntil ≤ now)

/-- `ORDER BY lease_until ASC, id ASC`, nulls last. -/
def expiresBefore (a b : JobRow) : Bool :=
  match a.leaseUntil, b.leaseUntil with
  | some x, some y => decide (x < y) || (decide (x = y) && decide (a.id.value ≤ b.id.value))
  | some _, none => true
  | none, some _ => false
  | none, none => decide (a.id.value ≤ b.id.value)

/-- The `SET` of `recover_expired`. -/
def recovered (now : DateTime) (row : JobRow) : JobRow :=
  { row with
    status := if row.isSpent then "failed" else "queued"
    failureCount := row.failureCount + 1
    runAfter := now
    leaseOwner := none
    leaseToken := none
    leaseUntil := none
    lastError := some "worker lease expired"
    finishedAt := if row.isSpent then some now else none
    updatedAt := now }

/-- The rows `recover_expired` picks. -/
def expired (rows : List JobRow) (now : DateTime) (limit : ℕ) : List JobRow :=
  firstBy (fun a b => expiresBefore a b = true) limit (rows.filter (isExpired now))

/-- `recover_expired` on rows none of which is locked: the rows it returns, and the rows after it. -/
def recoverExpired (rows : List JobRow) (now : DateTime) (limit : ℕ) :
    Except JobRepositoryError (List JobRow × List JobRow) :=
  if limit = 0 then .ok ([], rows)
  else if i64Max < limit then
    .error (.storage "recovery batch limit exceeds PostgreSQL range")
  else
    .ok ((expired rows now limit).map (recovered now), rows.map fun row =>
      if row.id ∈ (expired rows now limit).map JobRow.id then recovered now row else row)

end JobRow

end Werrss
