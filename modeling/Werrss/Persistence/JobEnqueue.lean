import Werrss.Machinery.Run
import Werrss.Persistence.JobRefinement

/-!
# Persistence/JobEnqueue — an enqueue is two statements, and others commit in between

    INSERT … ON CONFLICT DO NOTHING ── others commit ──▸ SELECT id … WHERE active LIMIT 1
      conflict with the active holder       its job ends        no holder left: a storage error

Under READ COMMITTED each statement of `enqueue_internal` sees what is committed when it starts.  The
enclosing transaction's own rows are seen by both and touched by nobody else; the committed rows are
changed between the two statements by whole transactions of other workers.
-/

open Machinery

namespace Werrss

namespace JobRow

/-- `dedupe_key = $1 AND status IN (…)` with the active statuses. -/
def holds (dedupeKey : String) (row : JobRow) : Bool :=
  decide (row.dedupeKey = dedupeKey) && decide (row.status ∈ activeStatuses)

end JobRow

/-! ## Transactions of other workers -/

/-- A job transaction of another worker. -/
inductive JobTransaction
  | claimNext (owner : String) (now : DateTime) (leaseFor : Duration)
      (allowedJobTypes : List JobType) (draw : LeaseToken)
  | heartbeat (jobId : Uuid) (owner : String) (token : LeaseToken) (now : DateTime)
      (leaseFor : Duration)
  | defer (jobId : Uuid) (owner : String) (token : LeaseToken) (now resumeAt : DateTime)
  | succeed (jobId : Uuid) (owner : String) (token : LeaseToken) (now : DateTime)
  | retry (jobId : Uuid) (owner : String) (token : LeaseToken) (now retryAt : DateTime)
      (error : String)
  | fail (jobId : Uuid) (owner : String) (token : LeaseToken) (now : DateTime) (error : String)
  | cancel (jobId : Uuid) (now : DateTime) (reason : String)
  | recoverExpired (now : DateTime) (limit : ℕ)
  | enqueue (id : Uuid) (spec : NewJob)

namespace JobTransaction

/-- The row a statement leaves; one that fails is rolled back. -/
def left (row : JobRow) : Except JobRepositoryError (Option JobRow) → JobRow
  | .ok (some row') => row'
  | _ => row

/-- The committed rows after a transaction. -/
def commit (rows : List JobRow) : JobTransaction → List JobRow
  | .claimNext owner now leaseFor allowedJobTypes draw =>
    match JobRow.claimNext rows owner now leaseFor allowedJobTypes draw with
    | .ok (_, rows') => rows'
    | .error _ => rows
  | .heartbeat jobId owner token now leaseFor =>
    rows.map fun row => left row (row.heartbeat jobId owner token now leaseFor)
  | .defer jobId owner token now resumeAt =>
    rows.map fun row => left row (row.defer jobId owner token now resumeAt)
  | .succeed jobId owner token now =>
    rows.map fun row => left row (row.succeed jobId owner token now)
  | .retry jobId owner token now retryAt error =>
    rows.map fun row => left row (row.retry jobId owner token now retryAt error)
  | .fail jobId owner token now error =>
    rows.map fun row => left row (row.fail jobId owner token now error)
  | .cancel jobId now reason => rows.map fun row => left row (row.cancel jobId now reason)
  | .recoverExpired now limit =>
    match JobRow.recoverExpired rows now limit with
    | .ok (_, rows') => rows'
    | .error _ => rows
  | .enqueue id spec =>
    match Job.new id spec with
    | .error _ => rows
    | .ok job =>
      if rows.any (JobRow.holds job.dedupeKey) || decide (id ∈ rows.map JobRow.id) then rows
      else rows ++ [JobRow.ofJob job]

end JobTransaction

/-! ## The enqueue -/

/-- The row `enqueue_internal` inserts, its instants the caller's or the database's. -/
def newRow (job : Job) (now : DateTime) (useDatabaseTime : Bool) :
    Except JobRepositoryError JobRow := do
  let runAfter ← bindTimestamptz job.runAfter
  let payload ← bindText job.payload
  let dedupeKey ← bindText job.dedupeKey
  let createdAt ← bindTimestamptz job.createdAt
  let updatedAt ← bindTimestamptz job.updatedAt
  return JobRow.ofJob { job with
    runAfter := if useDatabaseTime then now else runAfter
    payload := payload
    dedupeKey := dedupeKey
    createdAt := if useDatabaseTime then now else createdAt
    updatedAt := if useDatabaseTime then now else updatedAt }

/-- `SELECT id FROM jobs WHERE … ORDER BY created_at ASC LIMIT 1`. -/
def activeHolder (rows : List JobRow) (dedupeKey : String) : Option Uuid :=
  (firstBy (fun a b => a.createdAt ≤ b.createdAt) 1 (rows.filter (JobRow.holds dedupeKey))).head?.map
    JobRow.id

/-- `enqueue_internal`, the transactions `between` committing between its two statements.  `own` are
the rows the enclosing transaction has written, `rows` the others. -/
def enqueueInternal (own rows : List JobRow) (between : List JobTransaction) (id : Uuid)
    (spec : NewJob) (now : DateTime) (useDatabaseTime : Bool) :
    Except JobRepositoryError EnqueueResult := do
  let job ← (Job.new id spec).mapError .domain
  let row ← newRow job now useDatabaseTime
  if (own ++ rows).any (JobRow.holds job.dedupeKey) then
    match activeHolder (own ++ Machinery.run JobTransaction.commit rows between) job.dedupeKey with
    | none => .error (.storage "active job conflict was not found after insert conflict")
    | some jobId => .ok (.alreadyActive jobId)
  else if id ∈ (own ++ rows).map JobRow.id then
    .error (.storage "duplicate key value violates unique constraint \"jobs_pkey\"")
  else do
    let job ← row.decodeJob
    return .inserted job

/-! ## When the holder is lost -/

/-- Some row holds the key. -/
def Held (rows : List JobRow) (dedupeKey : String) : Prop :=
  rows.any (JobRow.holds dedupeKey) = true

/-- **The transaction ends the last active job of the key.** -/
def Completes (dedupeKey : String) (rows : List JobRow) (t : JobTransaction) : Prop :=
  Held rows dedupeKey ∧ ¬ Held (t.commit rows) dedupeKey

/-- **The transaction makes a job of the key active again.** -/
def Reopens (dedupeKey : String) (rows : List JobRow) (t : JobTransaction) : Prop :=
  ¬ Held rows dedupeKey ∧ Held (t.commit rows) dedupeKey

/-- **The holder is lost between the statements**: the insert meets an active job of another
transaction, one of the transactions that commit before the lookup ends it, and none after that one
makes the key active again. -/
def LosesHolder (own rows : List JobRow) (between : List JobTransaction) (dedupeKey : String) :
    Prop :=
  ¬ Held own dedupeKey ∧ Held rows dedupeKey ∧
    ∃ first t rest, between = first ++ t :: rest ∧
      Completes dedupeKey (Machinery.run JobTransaction.commit rows first) t ∧
      Meets JobTransaction.commit (fun rows u => ¬ Reopens dedupeKey rows u)
        (Machinery.run JobTransaction.commit rows (first ++ [t])) rest

theorem held_append {own rows : List JobRow} {dedupeKey : String} :
    Held (own ++ rows) dedupeKey ↔ Held own dedupeKey ∨ Held rows dedupeKey := by
  simp only [Held, List.any_append, Bool.or_eq_true]

/-- A key that is not active stays so while nothing reopens it. -/
theorem not_held_of_meets {dedupeKey : String} : ∀ (ts : List JobTransaction) {rows : List JobRow},
    ¬ Held rows dedupeKey →
    Meets JobTransaction.commit (fun rows u => ¬ Reopens dedupeKey rows u) rows ts →
    ¬ Held (Machinery.run JobTransaction.commit rows ts) dedupeKey := by
  intro ts rows hfree hmeets
  refine run_invariant (P := fun rows => ¬ Held rows dedupeKey) ?_ ts hfree hmeets
  intro rows t hfree hnot hheld
  exact hnot ⟨hfree, hheld⟩

/-- **A key that was active and is not was completed, and not reopened since.** -/
theorem completed_of_not_held {dedupeKey : String} (ts : List JobTransaction) {rows : List JobRow}
    (hheld : Held rows dedupeKey)
    (hlost : ¬ Held (Machinery.run JobTransaction.commit rows ts) dedupeKey) :
    ∃ first t rest, ts = first ++ t :: rest ∧
      Completes dedupeKey (Machinery.run JobTransaction.commit rows first) t ∧
      Meets JobTransaction.commit (fun rows u => ¬ Reopens dedupeKey rows u)
        (Machinery.run JobTransaction.commit rows (first ++ [t])) rest := by
  -- From the end of the run: the last transaction completed the key, or left it free.
  induction ts using List.reverseRecOn with
  | nil => exact absurd hheld hlost
  | append_singleton ts t ih =>
    rw [run_append] at hlost
    by_cases hbefore : Held (Machinery.run JobTransaction.commit rows ts) dedupeKey
    · exact ⟨ts, t, [], rfl, ⟨hbefore, hlost⟩, trivial⟩
    · obtain ⟨first, u, rest, rfl, hcompletes, hmeets⟩ := ih hbefore
      refine ⟨first, u, rest ++ [t], by simp, hcompletes, ?_⟩
      have hsplit : first ++ u :: rest = (first ++ [u]) ++ rest := by simp
      rw [hsplit, run_append] at hlost
      rw [meets_append]
      exact ⟨hmeets, fun hreopens => hlost hreopens.2, trivial⟩

theorem losesHolder_iff {own rows : List JobRow} {between : List JobTransaction}
    {dedupeKey : String} : LosesHolder own rows between dedupeKey ↔
      Held (own ++ rows) dedupeKey ∧
        ¬ Held (own ++ Machinery.run JobTransaction.commit rows between) dedupeKey := by
  rw [held_append, held_append, not_or]
  constructor
  · rintro ⟨hown, hrows, first, t, rest, rfl, hcompletes, hmeets⟩
    refine ⟨.inr hrows, hown, ?_⟩
    have hsplit : first ++ t :: rest = (first ++ [t]) ++ rest := by simp
    rw [hsplit, run_append]
    refine not_held_of_meets rest ?_ hmeets
    rw [run_append]
    exact hcompletes.2
  · rintro ⟨hheld, hown, hlost⟩
    have hrows := hheld.resolve_left hown
    exact ⟨hown, hrows, completed_of_not_held between hrows hlost⟩

/-! ## Which transactions end a job -/

/-- The transaction takes the row out of the active statuses. -/
def JobTransaction.Ends (rows : List JobRow) (row : JobRow) : JobTransaction → Prop
  | .succeed jobId owner token now => row.isFenced jobId owner token now = true
  | .fail jobId owner token now _ => row.isFenced jobId owner token now = true
  | .retry jobId owner token now _ _ =>
    row.isFenced jobId owner token now = true ∧ row.isSpent = true
  | .cancel jobId _ _ => row.id = jobId ∧ row.leaseIsNull = true
  | .recoverExpired now limit =>
    row.id ∈ (JobRow.expired rows now limit).map JobRow.id ∧ row.isSpent = true
  | _ => False

theorem holds_congr {dedupeKey : String} {row row' : JobRow} (h : row.holds dedupeKey = true)
    (hkey : row'.dedupeKey = row.dedupeKey) (hstatus : row'.status ∈ JobRow.activeStatuses) :
    row'.holds dedupeKey = true := by
  simp only [JobRow.holds, Bool.and_eq_true, decide_eq_true_eq] at h ⊢
  exact ⟨hkey.trans h.1, hstatus⟩

/-- A row that a statement takes from its key was changed by it. -/
theorem changed_of_lost {dedupeKey : String} {row : JobRow}
    {result : Except JobRepositoryError (Option JobRow)} (hholds : row.holds dedupeKey = true)
    (hlost : (JobTransaction.left row result).holds dedupeKey ≠ true) :
    ∃ row', result = .ok (some row') ∧ row'.holds dedupeKey ≠ true := by
  match result with
  | .ok (some row') => exact ⟨row', rfl, hlost⟩
  | .ok none => exact absurd hholds hlost
  | .error _ => exact absurd hholds hlost

namespace JobRow

variable {row row' : JobRow} {jobId : Uuid} {owner : String} {token : LeaseToken} {now : DateTime}

theorem status_of_isFenced (h : row.isFenced jobId owner token now = true) :
    row.status ∈ activeStatuses := by
  simp only [isFenced, Bool.and_eq_true, decide_eq_true_eq] at h
  rw [h.1.1.1.2]
  decide

theorem heartbeat_changes {leaseFor : Duration}
    (h : row.heartbeat jobId owner token now leaseFor = .ok (some row')) :
    row'.dedupeKey = row.dedupeKey ∧ row'.status ∈ activeStatuses := by
  obtain ⟨_, _, h₁⟩ := bind_eq_ok h
  obtain ⟨_, _, h₂⟩ := bind_eq_ok h₁
  obtain ⟨_, _, h₃⟩ := bind_eq_ok h₂
  split_ifs at h₃ with hfenced
  · have hstatus := status_of_isFenced hfenced
    obtain ⟨_, _, h₄⟩ := bind_eq_ok h₃
    obtain rfl := Option.some.inj (Except.ok.inj h₄)
    exact ⟨rfl, hstatus⟩
  · cases h₃

theorem defer_changes {resumeAt : DateTime}
    (h : row.defer jobId owner token now resumeAt = .ok (some row')) :
    row'.dedupeKey = row.dedupeKey ∧ row'.status ∈ activeStatuses := by
  have hactive : "deferred" ∈ activeStatuses := by decide
  obtain ⟨_, _, h₁⟩ := bind_eq_ok h
  obtain ⟨_, _, h₂⟩ := bind_eq_ok h₁
  obtain ⟨_, _, h₃⟩ := bind_eq_ok h₂
  split_ifs at h₃
  · obtain rfl := Option.some.inj (Except.ok.inj h₃)
    exact ⟨rfl, hactive⟩
  · cases h₃

theorem succeed_changes (h : row.succeed jobId owner token now = .ok (some row')) :
    row.isFenced jobId owner token now = true := by
  obtain ⟨_, _, h₁⟩ := bind_eq_ok h
  obtain ⟨_, howner, h₂⟩ := bind_eq_ok h₁
  rw [bindText_eq_ok howner] at h₂
  split_ifs at h₂ with hfenced
  · exact hfenced
  · cases h₂

theorem fail_changes {error : String} (h : row.fail jobId owner token now error = .ok (some row')) :
    row.isFenced jobId owner token now = true := by
  obtain ⟨_, _, h₁⟩ := bind_eq_ok h
  obtain ⟨_, _, h₂⟩ := bind_eq_ok h₁
  obtain ⟨_, howner, h₃⟩ := bind_eq_ok h₂
  obtain ⟨_, _, h₄⟩ := bind_eq_ok h₃
  rw [bindText_eq_ok howner] at h₄
  split_ifs at h₄ with hfenced
  · exact hfenced
  · cases h₄

/-- A retry ends the job, or leaves it waiting under its key. -/
theorem retry_changes {retryAt : DateTime} {error : String}
    (h : row.retry jobId owner token now retryAt error = .ok (some row')) :
    row.isFenced jobId owner token now = true ∧
      (row.isSpent = true ∨
        (row'.dedupeKey = row.dedupeKey ∧ row'.status ∈ activeStatuses)) := by
  have hactive : "retry_wait" ∈ activeStatuses := by decide
  obtain ⟨_, _, h₁⟩ := bind_eq_ok h
  obtain ⟨_, _, h₂⟩ := bind_eq_ok h₁
  obtain ⟨_, howner, h₃⟩ := bind_eq_ok h₂
  obtain ⟨_, _, h₄⟩ := bind_eq_ok h₃
  obtain ⟨_, _, h₅⟩ := bind_eq_ok h₄
  rw [bindText_eq_ok howner] at h₅
  by_cases hfenced : row.isFenced jobId owner token now = true
  · rw [if_pos hfenced] at h₅
    obtain rfl := Option.some.inj (Except.ok.inj h₅)
    refine ⟨hfenced, ?_⟩
    by_cases hspent : row.isSpent = true
    · exact .inl hspent
    · refine .inr ⟨rfl, ?_⟩
      simp only [hspent]
      exact hactive
  · rw [if_neg hfenced] at h₅
    cases h₅

theorem cancel_changes {reason : String} (h : row.cancel jobId now reason = .ok (some row')) :
    row.id = jobId ∧ row.leaseIsNull = true := by
  obtain ⟨_, _, h₁⟩ := bind_eq_ok h
  obtain ⟨_, _, h₂⟩ := bind_eq_ok h₁
  split_ifs at h₂ with hwhere
  · exact ⟨hwhere.1, hwhere.2.2⟩
  · cases h₂

end JobRow

/-- A transaction that maps the rows and loses the key loses it at a row. -/
theorem lost_of_map {dedupeKey : String} {rows : List JobRow} {f : JobRow → JobRow}
    (hheld : Held rows dedupeKey) (hlost : ¬ Held (rows.map f) dedupeKey) :
    ∃ row ∈ rows, row.holds dedupeKey = true ∧ (f row).holds dedupeKey ≠ true := by
  obtain ⟨row, hmem, hholds⟩ := List.any_eq_true.mp hheld
  refine ⟨row, hmem, hholds, fun hstill => hlost ?_⟩
  exact List.any_eq_true.mpr ⟨f row, List.mem_map_of_mem hmem, hstill⟩

theorem held_claimNext {dedupeKey : String} {rows : List JobRow} (hheld : Held rows dedupeKey)
    (owner : String) (now : DateTime) (leaseFor : Duration) (allowedJobTypes : List JobType)
    (draw : LeaseToken) :
    Held ((JobTransaction.claimNext owner now leaseFor allowedJobTypes draw).commit rows)
      dedupeKey := by
  simp only [JobTransaction.commit]
  split
  · rename_i answer rows' hclaim
    have hactive : "running" ∈ JobRow.activeStatuses := by decide
    obtain ⟨_, _, h₁⟩ := bind_eq_ok hclaim
    obtain ⟨_, _, h₂⟩ := bind_eq_ok h₁
    obtain ⟨_, _, h₃⟩ := bind_eq_ok h₂
    split at h₃
    · have hrows : rows = rows' := congrArg Prod.snd (Except.ok.inj h₃)
      rw [← hrows]
      exact hheld
    · obtain ⟨leaseUntil, _, h₄⟩ := bind_eq_ok h₃
      obtain ⟨-, rfl⟩ := Prod.mk.inj (Except.ok.inj h₄)
      by_contra hlost
      obtain ⟨row, -, hholds, hnot⟩ := lost_of_map hheld hlost
      split_ifs at hnot
      · exact hnot (holds_congr hholds rfl hactive)
      · exact hnot hholds
  · exact hheld

/-- **Only an outcome completes a key**: a success, a failure, a cancellation, or a retry or recovery
that spends the budget, of the job that holds it. -/
theorem ends_of_completes {dedupeKey : String} {rows : List JobRow} {t : JobTransaction}
    (h : Completes dedupeKey rows t) :
    ∃ row ∈ rows, row.holds dedupeKey = true ∧ t.Ends rows row := by
  obtain ⟨hheld, hlost⟩ := h
  cases t with
  | claimNext owner now leaseFor allowedJobTypes draw =>
    exact absurd (held_claimNext hheld owner now leaseFor allowedJobTypes draw) hlost
  | heartbeat jobId owner token now leaseFor =>
    obtain ⟨row, -, hholds, hrow⟩ := lost_of_map hheld hlost
    obtain ⟨row', hrun, hnot⟩ := changed_of_lost hholds hrow
    obtain ⟨hkey, hstatus⟩ := JobRow.heartbeat_changes hrun
    exact absurd (holds_congr hholds hkey hstatus) hnot
  | defer jobId owner token now resumeAt =>
    obtain ⟨row, -, hholds, hrow⟩ := lost_of_map hheld hlost
    obtain ⟨row', hrun, hnot⟩ := changed_of_lost hholds hrow
    obtain ⟨hkey, hstatus⟩ := JobRow.defer_changes hrun
    exact absurd (holds_congr hholds hkey hstatus) hnot
  | succeed jobId owner token now =>
    obtain ⟨row, hmem, hholds, hrow⟩ := lost_of_map hheld hlost
    obtain ⟨row', hrun, -⟩ := changed_of_lost hholds hrow
    exact ⟨row, hmem, hholds, JobRow.succeed_changes hrun⟩
  | retry jobId owner token now retryAt error =>
    obtain ⟨row, hmem, hholds, hrow⟩ := lost_of_map hheld hlost
    obtain ⟨row', hrun, hnot⟩ := changed_of_lost hholds hrow
    obtain ⟨hfenced, hspent | ⟨hkey, hstatus⟩⟩ := JobRow.retry_changes hrun
    · exact ⟨row, hmem, hholds, hfenced, hspent⟩
    · exact absurd (holds_congr hholds hkey hstatus) hnot
  | fail jobId owner token now error =>
    obtain ⟨row, hmem, hholds, hrow⟩ := lost_of_map hheld hlost
    obtain ⟨row', hrun, -⟩ := changed_of_lost hholds hrow
    exact ⟨row, hmem, hholds, JobRow.fail_changes hrun⟩
  | cancel jobId now reason =>
    obtain ⟨row, hmem, hholds, hrow⟩ := lost_of_map hheld hlost
    obtain ⟨row', hrun, -⟩ := changed_of_lost hholds hrow
    exact ⟨row, hmem, hholds, JobRow.cancel_changes hrun⟩
  | recoverExpired now limit =>
    simp only [JobTransaction.commit, JobRow.recoverExpired] at hlost
    by_cases hzero : limit = 0
    · rw [if_pos hzero] at hlost
      exact absurd hheld hlost
    by_cases hlimit : i64Max < limit
    · rw [if_neg hzero, if_pos hlimit] at hlost
      exact absurd hheld hlost
    rw [if_neg hzero, if_neg hlimit] at hlost
    obtain ⟨row, hmem, hholds, hnot⟩ := lost_of_map hheld hlost
    split_ifs at hnot with hpicked
    · refine ⟨row, hmem, hholds, hpicked, ?_⟩
      by_contra hspent
      have hactive : "queued" ∈ JobRow.activeStatuses := by decide
      refine hnot (holds_congr hholds rfl ?_)
      simp only [JobRow.recovered, hspent]
      exact hactive
    · exact absurd hholds hnot
  | enqueue id spec =>
    refine absurd ?_ hlost
    simp only [JobTransaction.commit]
    split
    · exact hheld
    · split_ifs
      · exact hheld
      · exact held_append.mpr (.inl hheld)

/-! ## When an enqueue answers -/

/-- A job that can be stored: accepted by `Job::new`, of values PostgreSQL holds. -/
structure ValidSpec (spec : NewJob) : Prop where
  limit : spec.maxAttempts ≠ 0
  key : isBlank spec.dedupeKey = false
  keyText : IsText spec.dedupeKey
  payloadText : IsText spec.payload
  runAfter : Instant spec.runAfter
  now : Instant spec.now

/-- The instants a new row carries. -/
def stamped (job : Job) (now : DateTime) (useDatabaseTime : Bool) : Job :=
  { job with
    runAfter := if useDatabaseTime then now else job.runAfter
    createdAt := if useDatabaseTime then now else job.createdAt
    updatedAt := if useDatabaseTime then now else job.updatedAt }

/-- What `Job::new` makes of a job that can be stored. -/
structure New (spec : NewJob) (job : Job) : Prop where
  valid : job.Valid
  status : job.status = .queued
  key : job.dedupeKey = spec.dedupeKey
  payload : job.payload = spec.payload
  runAfter : job.runAfter = spec.runAfter
  createdAt : job.createdAt = spec.now
  updatedAt : job.updatedAt = spec.now
  lease : job.leaseUntil = none
  heartbeat : job.heartbeatAt = none
  started : job.startedAt = none
  finished : job.finishedAt = none

theorem ValidSpec.new {spec : NewJob} (h : ValidSpec spec) (id : Uuid) :
    ∃ job, Job.new id spec = .ok job ∧ New spec job := by
  have hkey : ¬ isBlank spec.dedupeKey = true := by simp [h.key]
  cases hnew : Job.new id spec with
  | error e =>
    rw [Job.new, if_neg h.limit, if_neg hkey] at hnew
    cases hnew
  | ok job =>
    have hvalid := Job.new_valid hnew
    rw [Job.new, if_neg h.limit, if_neg hkey] at hnew
    obtain rfl := Except.ok.inj hnew
    exact ⟨_, rfl, hvalid, rfl, rfl, rfl, rfl, rfl, rfl, rfl, rfl, rfl, rfl⟩

/-- **The row of a new job is written and read back.** -/
theorem newRow_decodes {spec : NewJob} (hspec : ValidSpec spec) {job : Job} (hnew : New spec job)
    {now : DateTime} (hnow : Instant now) (useDatabaseTime : Bool) :
    ∃ row, newRow job now useDatabaseTime = .ok row ∧
      row.decodeJob = .ok (stamped job now useDatabaseTime) := by
  have hinstant : ∀ {t : DateTime}, Instant t →
      DateTime.minUtc ≤ (if useDatabaseTime = true then now else t) ∧
        (if useDatabaseTime = true then now else t) ≤ DateTime.maxUtc := by
    intro t ht
    split_ifs
    · exact hnow.inCalendar
    · exact ht.inCalendar
  have hrun : Instant job.runAfter := hnew.runAfter ▸ hspec.runAfter
  have hcreated : Instant job.createdAt := hnew.createdAt ▸ hspec.now
  have hupdated : Instant job.updatedAt := hnew.updatedAt ▸ hspec.now
  have hpayload : IsText job.payload := hnew.payload ▸ hspec.payloadText
  have hkey : IsText job.dedupeKey := hnew.key ▸ hspec.keyText
  refine ⟨JobRow.ofJob (stamped job now useDatabaseTime), ?_, JobRow.decodeJob_ofJob ?_ ?_⟩
  · rw [newRow]
    simp only [bindTimestamptz_of_instant hrun, bindText_of_isText hpayload,
      bindText_of_isText hkey, bindTimestamptz_of_instant hcreated,
      bindTimestamptz_of_instant hupdated, ok_bind]
    rfl
  · have hphase := hnew.valid.phase
    have hstatus : (stamped job now useDatabaseTime).status = .queued := hnew.status
    simp only [Job.Phase, hnew.status] at hphase
    obtain ⟨hlease, hfinished, hbudget⟩ := hphase
    refine ⟨hnew.valid.limit, hnew.valid.budget, hnew.valid.key, ?_⟩
    simp only [Job.Phase, hstatus]
    exact ⟨⟨hlease.owner, hlease.token, hlease.until'⟩, hfinished, hbudget⟩
  · refine ⟨hinstant hrun, fun t ht => ?_, fun t ht => ?_, fun t ht => ?_, fun t ht => ?_,
      hinstant hcreated, hinstant hupdated⟩
    · cases hnew.lease.symm.trans ht
    · cases hnew.heartbeat.symm.trans ht
    · cases hnew.started.symm.trans ht
    · cases hnew.finished.symm.trans ht

/-- The lookup finds a holder exactly when there is one. -/
theorem activeHolder_isSome {rows : List JobRow} {dedupeKey : String} :
    (activeHolder rows dedupeKey).isSome = true ↔ Held rows dedupeKey := by
  have hlength := length_firstBy (fun a b : JobRow => a.createdAt ≤ b.createdAt) 1
    (rows.filter (JobRow.holds dedupeKey))
  have hheld : Held rows dedupeKey ↔ rows.filter (JobRow.holds dedupeKey) ≠ [] := by
    rw [Held, List.any_eq_true, ne_eq, List.filter_eq_nil_iff]
    simp
  rw [activeHolder, Option.isSome_map, hheld, List.isSome_head?, ← List.length_pos_iff,
    ← List.length_pos_iff, hlength]
  omega

/-- **An enqueue answers exactly when its holder is not lost between its statements**, and a holder is
lost to an outcome of its job. -/
theorem enqueue_answers_iff {own rows : List JobRow} (between : List JobTransaction) {id : Uuid}
    {spec : NewJob} (hspec : ValidSpec spec) {now : DateTime} (hnow : Instant now)
    (useDatabaseTime : Bool) (hfresh : id ∉ (own ++ rows).map JobRow.id) :
    ((∃ result, enqueueInternal own rows between id spec now useDatabaseTime = .ok result) ↔
      ¬ LosesHolder own rows between spec.dedupeKey) ∧
    ∀ rows t, Completes spec.dedupeKey rows t →
      ∃ row ∈ rows, row.holds spec.dedupeKey = true ∧ t.Ends rows row := by
  refine ⟨?_, fun _ _ => ends_of_completes⟩
  obtain ⟨job, hjob, hnew⟩ := hspec.new id
  obtain ⟨row, hrow, hdecode⟩ := newRow_decodes hspec hnew hnow useDatabaseTime
  rw [losesHolder_iff, enqueueInternal, hjob]
  simp only [Except.mapError, ok_bind, hrow, hnew.key]
  by_cases hheld : Held (own ++ rows) spec.dedupeKey
  · have hconflict : (own ++ rows).any (JobRow.holds spec.dedupeKey) = true := hheld
    rw [if_pos hconflict]
    cases hholder : activeHolder (own ++ Machinery.run JobTransaction.commit rows between)
        spec.dedupeKey with
    | none =>
      have hlost : ¬ Held (own ++ Machinery.run JobTransaction.commit rows between)
          spec.dedupeKey := by
        rw [← activeHolder_isSome, hholder]
        exact Bool.false_ne_true
      refine ⟨fun ⟨result, h⟩ => ?_, fun h => absurd ⟨hheld, hlost⟩ h⟩
      cases h
    | some jobId =>
      have hfound : Held (own ++ Machinery.run JobTransaction.commit rows between)
          spec.dedupeKey := by
        rw [← activeHolder_isSome, hholder]
        rfl
      exact ⟨fun _ h => h.2 hfound, fun _ => ⟨_, rfl⟩⟩
  · have hfree : ¬ (own ++ rows).any (JobRow.holds spec.dedupeKey) = true := hheld
    rw [if_neg hfree, if_neg hfresh, hdecode]
    exact ⟨fun _ h => hheld h.1, fun _ => ⟨_, rfl⟩⟩

/-- The rebuild of a feed, under a lease of a minute. -/
def rebuildJob : Job :=
  { id := ⟨1⟩
    jobType := .feedRebuild
    sourceId := some ⟨5⟩
    status := .running
    priority := 0
    runAfter := 0
    claimCount := 1
    failureCount := 0
    maxAttempts := 3
    leaseOwner := some "worker"
    leaseToken := some ⟨⟨7⟩⟩
    leaseUntil := some 60000000000
    heartbeatAt := some 0
    startedAt := some 0
    finishedAt := none
    lastError := none
    payload := "null"
    dedupeKey := "feed_rebuild:5"
    createdAt := 0
    updatedAt := 0 }

/-- The rebuild the next synchronization asks for. -/
def rebuildSpec : NewJob :=
  { jobType := .feedRebuild
    sourceId := some ⟨5⟩
    priority := 0
    runAfter := 0
    maxAttempts := 3
    payload := "null"
    dedupeKey := "feed_rebuild:5"
    now := 0 }

theorem validSpec_rebuildSpec : ValidSpec rebuildSpec where
  limit := by decide
  key := by decide
  keyText := by unfold IsText; decide
  payloadText := by unfold IsText; decide
  runAfter := ⟨by decide, by decide, by decide⟩
  now := ⟨by decide, by decide, by decide⟩

/-- While the rebuild runs, the enqueue answers. -/
theorem enqueue_answers_running :
    ¬ LosesHolder [] [JobRow.ofJob rebuildJob] [] "feed_rebuild:5" ∧
      ∃ result, enqueueInternal [] [JobRow.ofJob rebuildJob] [] ⟨2⟩ rebuildSpec 0 false
        = .ok result := by
  have hkept : ¬ LosesHolder [] [JobRow.ofJob rebuildJob] [] "feed_rebuild:5" := by
    rintro ⟨-, -, first, t, rest, hnil, -⟩
    cases first <;> cases hnil
  exact ⟨hkept, (enqueue_answers_iff [] validSpec_rebuildSpec ⟨by decide, by decide, by decide⟩
    false (by decide)).1.mpr hkept⟩

/-- **The enqueue fails because a rebuild succeeds**: it commits between the two statements. -/
theorem enqueue_loses_holder :
    ValidSpec rebuildSpec ∧ (JobRow.ofJob rebuildJob).check = true ∧
      enqueueInternal [] [JobRow.ofJob rebuildJob] [.succeed ⟨1⟩ "worker" ⟨⟨7⟩⟩ 30000000000] ⟨2⟩
        rebuildSpec 0 false
        = .error (.storage "active job conflict was not found after insert conflict") :=
  ⟨validSpec_rebuildSpec, by decide +kernel, rfl⟩

end Werrss
