import Werrss.Domain.Job

/-!
# Persistence/JobRepository — the job table as PostgreSQL updates it

Every worker operation is one `UPDATE … WHERE id = … AND status = 'running' AND <lease is live>`: it
changes the row or, when no row matches, returns an error that drops the transaction.  **A row leaves
the active statuses only through `succeed`, `fail`, `retry` or `recover_expired`**, and `enqueue`
inserts a row only when no active one has its key.
-/

open Machinery

namespace Werrss

namespace JobTable

/-- The `WHERE` of the five worker operations. -/
def isFenced (owner : String) (token : LeaseToken) (now : DateTime) (job : Job) : Bool :=
  decide (job.status = .running) && decide (job.leaseOwner = some owner)
    && decide (job.leaseToken = some token)
    && job.leaseUntil.any fun leaseUntil => decide (now < leaseUntil)

/-- `UPDATE jobs SET … WHERE id = … AND …`, or no row. -/
def update (jobs : List Job) (jobId : Uuid) (condition : Job → Bool) (assign : Job → Job) :
    Option (List Job) :=
  if jobs.any fun job => decide (job.id = jobId) && condition job then
    some (jobs.map fun job => if job.id = jobId ∧ condition job = true then assign job else job)
  else none

/-- Some active row has the key. -/
def hasActive (jobs : List Job) (dedupeKey : String) : Bool :=
  jobs.any fun job => decide (job.dedupeKey = dedupeKey) && job.status.isActive

inductive EnqueueResult
  | inserted | alreadyActive
deriving DecidableEq, Repr

/-- `enqueue_internal`: a conflict on the key of an active row inserts nothing. -/
def enqueue (jobs : List Job) (id : Uuid) (spec : NewJob) : Except JobError (List Job × EnqueueResult) :=
  match Job.new id spec with
  | .error e => .error e
  | .ok job =>
    if hasActive jobs job.dedupeKey then .ok (jobs, .alreadyActive)
    else .ok (jobs ++ [job], .inserted)

/-- A row `claim_next` may take. -/
def isClaimable (now : DateTime) (job : Job) : Bool :=
  job.status.isWaiting && decide (job.runAfter ≤ now) && decide (job.failureCount < job.maxAttempts)

/-- `claim_next`, having picked the row. -/
def claim (jobs : List Job) (jobId : Uuid) (owner : String) (token : LeaseToken)
    (now leaseUntil : DateTime) : Option (List Job) :=
  if isBlank owner then none
  else update jobs jobId (isClaimable now) fun job =>
    { job with
      status := .running
      claimCount := job.claimCount + 1
      leaseOwner := some owner
      leaseToken := some token
      leaseUntil := some leaseUntil
      heartbeatAt := some now
      startedAt := some (job.startedAt.getD now)
      finishedAt := none
      updatedAt := now }

/-- `heartbeat`. -/
def heartbeat (jobs : List Job) (jobId : Uuid) (owner : String) (token : LeaseToken)
    (now leaseUntil : DateTime) : Option (List Job) :=
  if isBlank owner then none
  else update jobs jobId (isFenced owner token now) fun job =>
    { job with leaseUntil := some leaseUntil, heartbeatAt := some now, updatedAt := now }

/-- `defer`. -/
def defer (jobs : List Job) (jobId : Uuid) (owner : String) (token : LeaseToken)
    (now resumeAt : DateTime) : Option (List Job) :=
  if isBlank owner then none
  else update jobs jobId (fun job => isFenced owner token now job && decide (now < resumeAt))
    fun job =>
      { job.clearLease with
        status := .deferred
        runAfter := resumeAt
        lastError := none
        finishedAt := none
        updatedAt := now }

/-- `succeed`. -/
def succeed (jobs : List Job) (jobId : Uuid) (owner : String) (token : LeaseToken)
    (now : DateTime) : Option (List Job) :=
  if isBlank owner then none
  else update jobs jobId (isFenced owner token now) fun job =>
    { job.clearLease with
      status := .succeeded
      lastError := none
      finishedAt := some now
      updatedAt := now }

/-- One more failure spends the budget. -/
def isSpent (job : Job) : Bool := decide (job.maxAttempts.toNat ≤ job.failureCount.toNat + 1)

/-- A counted failure: the row fails when its budget is spent, else it waits as `waiting`. -/
def countFailure (waiting : JobStatus) (now runAfter : DateTime) (error : String) (job : Job) : Job :=
  { job.clearLease with
    status := if isSpent job then .failed else waiting
    failureCount := job.failureCount + 1
    runAfter := runAfter
    lastError := some error
    finishedAt := if isSpent job then some now else none
    updatedAt := now }

/-- `retry`.  Unlike the domain operation, the statement takes any `retry_at`. -/
def retry (jobs : List Job) (jobId : Uuid) (owner : String) (token : LeaseToken)
    (now retryAt : DateTime) (error : String) : Option (List Job) :=
  if isBlank owner || isBlank error then none
  else update jobs jobId (isFenced owner token now) (countFailure .retryWait now retryAt error)

/-- `fail`. -/
def fail (jobs : List Job) (jobId : Uuid) (owner : String) (token : LeaseToken) (now : DateTime)
    (error : String) : Option (List Job) :=
  if isBlank owner || isBlank error then none
  else update jobs jobId (isFenced owner token now) fun job =>
    { job.clearLease with
      status := .failed
      lastError := some error
      finishedAt := some now
      updatedAt := now }

/-- A row `recover_expired` may take. -/
def isExpired (now : DateTime) (job : Job) : Bool :=
  decide (job.status = .running) && job.leaseUntil.any fun leaseUntil => decide (leaseUntil ≤ now)

/-- `recover_expired`, on one of the rows it picks. -/
def recoverExpired (jobs : List Job) (jobId : Uuid) (now : DateTime) : Option (List Job) :=
  update jobs jobId (isExpired now) (countFailure .queued now now "worker lease expired")

/-! ## Rows under an update -/

theorem update_eq_some {jobs jobs' : List Job} {jobId : Uuid} {condition : Job → Bool}
    {assign : Job → Job} (h : update jobs jobId condition assign = some jobs') :
    (∃ job ∈ jobs, job.id = jobId ∧ condition job = true) ∧
      jobs' = jobs.map fun job =>
        if job.id = jobId ∧ condition job = true then assign job else job := by
  unfold update at h
  split_ifs at h with hany
  obtain ⟨job, hmem, hjob⟩ := List.any_eq_true.mp hany
  rw [Bool.and_eq_true, decide_eq_true_eq] at hjob
  exact ⟨⟨job, hmem, hjob⟩, (Option.some.inj h).symm⟩

/-- Where every old row goes. -/
theorem mem_update_of_mem {jobs jobs' : List Job} {jobId : Uuid} {condition : Job → Bool}
    {assign : Job → Job} (h : update jobs jobId condition assign = some jobs') {job : Job}
    (hmem : job ∈ jobs) :
    (job ∈ jobs' ∧ ¬ (job.id = jobId ∧ condition job = true)) ∨
      (job.id = jobId ∧ condition job = true ∧ assign job ∈ jobs') := by
  have hmap : (if job.id = jobId ∧ condition job = true then assign job else job) ∈ jobs' := by
    rw [(update_eq_some h).2]
    exact List.mem_map_of_mem hmem
  split_ifs at hmap with hcond
  · exact .inr ⟨hcond.1, hcond.2, hmap⟩
  · exact .inl ⟨hmap, hcond⟩

theorem hasActive_iff {jobs : List Job} {dedupeKey : String} : hasActive jobs dedupeKey = true ↔
    ∃ job ∈ jobs, job.dedupeKey = dedupeKey ∧ job.status.isActive = true := by
  simp [hasActive, List.any_eq_true]

/-- A row of the next table stands for a row of this one. -/
def Carries (jobs' : List Job) (job : Job) (p : JobStatus → Prop) : Prop :=
  ∃ job' ∈ jobs', job'.id = job.id ∧ job'.dedupeKey = job.dedupeKey ∧ p job'.status

/-- **What the worker operations do to rows**: failed rows stay, and active rows stay active or, where
`ends` says so, fail. -/
structure RowsMove (ends : Job → Prop) (jobs jobs' : List Job) : Prop where
  failed : ∀ job ∈ jobs, job.status = .failed → Carries jobs' job (· = .failed)
  active : ∀ job ∈ jobs, job.status.isActive = true →
    Carries jobs' job (·.isActive = true) ∨ (ends job ∧ Carries jobs' job (· = .failed))

theorem RowsMove.refl (ends : Job → Prop) (jobs : List Job) : RowsMove ends jobs jobs where
  failed job hmem hstatus := ⟨job, hmem, rfl, rfl, hstatus⟩
  active job hmem hstatus := .inl ⟨job, hmem, rfl, rfl, hstatus⟩

/-- An update of active rows that leaves them active, or fails them where `ends` says so. -/
theorem rowsMove_update {ends : Job → Prop} {jobs jobs' : List Job} {jobId : Uuid}
    {condition : Job → Bool} {assign : Job → Job}
    (h : update jobs jobId condition assign = some jobs')
    (hactive : ∀ job, condition job = true → job.status.isActive = true)
    (hkey : ∀ job, (assign job).id = job.id ∧ (assign job).dedupeKey = job.dedupeKey)
    (hassign : ∀ job, job.id = jobId → condition job = true →
      (assign job).status.isActive = true ∨ ((assign job).status = .failed ∧ ends job)) :
    RowsMove ends jobs jobs' where
  failed job hmem hstatus := by
    rcases mem_update_of_mem h hmem with ⟨hmem', -⟩ | ⟨-, hcond, -⟩
    · exact ⟨job, hmem', rfl, rfl, hstatus⟩
    · have := hactive job hcond
      rw [hstatus] at this
      cases this
  active job hmem hstatus := by
    rcases mem_update_of_mem h hmem with ⟨hmem', -⟩ | ⟨hid, hcond, hmem'⟩
    · exact .inl ⟨job, hmem', rfl, rfl, hstatus⟩
    · rcases hassign job hid hcond with hstill | ⟨hfailed, hends⟩
      · exact .inl ⟨_, hmem', (hkey job).1, (hkey job).2, hstill⟩
      · exact .inr ⟨hends, _, hmem', (hkey job).1, (hkey job).2, hfailed⟩

theorem isActive_of_isFenced {owner : String} {token : LeaseToken} {now : DateTime} {job : Job}
    (h : isFenced owner token now job = true) : job.status.isActive = true := by
  simp only [isFenced, Bool.and_eq_true, decide_eq_true_eq] at h
  rw [h.1.1.1]
  rfl

theorem isActive_of_isExpired {now : DateTime} {job : Job} (h : isExpired now job = true) :
    job.status.isActive = true := by
  simp only [isExpired, Bool.and_eq_true, decide_eq_true_eq] at h
  rw [h.1]
  rfl

theorem isActive_of_isClaimable {now : DateTime} {job : Job} (h : isClaimable now job = true) :
    job.status.isActive = true := by
  simp only [isClaimable, Bool.and_eq_true] at h
  have hwait := h.1.1
  cases hstatus : job.status <;> rw [hstatus] at hwait <;> first | rfl | cases hwait

/-- A counted failure leaves the row active unless it spends the budget. -/
theorem countFailure_status (waiting : JobStatus) (hwaiting : waiting.isActive = true)
    (now runAfter : DateTime) (error : String) (job : Job) :
    (countFailure waiting now runAfter error job).status.isActive = true ∨
      ((countFailure waiting now runAfter error job).status = .failed ∧ isSpent job = true) := by
  simp only [countFailure]
  cases isSpent job with
  | false => exact .inl (by simpa using hwaiting)
  | true => exact .inr ⟨rfl, rfl⟩

theorem rowsMove_claim {jobs jobs' : List Job} {jobId : Uuid} {owner : String} {token : LeaseToken}
    {now leaseUntil : DateTime} (ends : Job → Prop)
    (h : claim jobs jobId owner token now leaseUntil = some jobs') : RowsMove ends jobs jobs' := by
  unfold claim at h
  split_ifs at h
  exact rowsMove_update h (fun _ => isActive_of_isClaimable) (fun _ => ⟨rfl, rfl⟩)
    fun _ _ _ => .inl rfl

theorem rowsMove_heartbeat {jobs jobs' : List Job} {jobId : Uuid} {owner : String}
    {token : LeaseToken} {now leaseUntil : DateTime} (ends : Job → Prop)
    (h : heartbeat jobs jobId owner token now leaseUntil = some jobs') :
    RowsMove ends jobs jobs' := by
  unfold heartbeat at h
  split_ifs at h
  refine rowsMove_update h (fun _ => isActive_of_isFenced) (fun _ => ⟨rfl, rfl⟩) ?_
  intro job _ hfenced
  have hactive : job.status.isActive = true := isActive_of_isFenced hfenced
  exact .inl hactive

theorem rowsMove_defer {jobs jobs' : List Job} {jobId : Uuid} {owner : String} {token : LeaseToken}
    {now resumeAt : DateTime} (ends : Job → Prop)
    (h : defer jobs jobId owner token now resumeAt = some jobs') : RowsMove ends jobs jobs' := by
  unfold defer at h
  split_ifs at h
  exact rowsMove_update h (fun _ hcond => isActive_of_isFenced (Bool.and_eq_true _ _ ▸ hcond).1)
    (fun _ => ⟨rfl, rfl⟩) fun _ _ _ => .inl rfl

theorem rowsMove_retry {jobs jobs' : List Job} {jobId : Uuid} {owner : String} {token : LeaseToken}
    {now retryAt : DateTime} {error : String}
    (h : retry jobs jobId owner token now retryAt error = some jobs') :
    RowsMove (fun job => job.id = jobId ∧ isFenced owner token now job = true ∧ isSpent job = true)
      jobs jobs' := by
  unfold retry at h
  split_ifs at h
  refine rowsMove_update h (fun _ => isActive_of_isFenced) (fun _ => ⟨rfl, rfl⟩) ?_
  intro job hid hfenced
  rcases countFailure_status .retryWait rfl now retryAt error job with hstill | ⟨hfailed, hspent⟩
  · exact .inl hstill
  · exact .inr ⟨hfailed, hid, hfenced, hspent⟩

theorem rowsMove_fail {jobs jobs' : List Job} {jobId : Uuid} {owner : String} {token : LeaseToken}
    {now : DateTime} {error : String} (h : fail jobs jobId owner token now error = some jobs') :
    RowsMove (fun job => job.id = jobId ∧ isFenced owner token now job = true) jobs jobs' := by
  unfold fail at h
  split_ifs at h
  exact rowsMove_update h (fun _ => isActive_of_isFenced) (fun _ => ⟨rfl, rfl⟩)
    fun _ hid hfenced => .inr ⟨rfl, hid, hfenced⟩

theorem rowsMove_recoverExpired {jobs jobs' : List Job} {jobId : Uuid} {now : DateTime}
    (h : recoverExpired jobs jobId now = some jobs') :
    RowsMove (fun job => job.id = jobId ∧ isExpired now job = true ∧ isSpent job = true)
      jobs jobs' := by
  refine rowsMove_update h (fun _ => isActive_of_isExpired) (fun _ => ⟨rfl, rfl⟩) ?_
  intro job hid hexpired
  rcases countFailure_status .queued rfl now now "worker lease expired" job with
    hstill | ⟨hfailed, hspent⟩
  · exact .inl hstill
  · exact .inr ⟨hfailed, hid, hexpired, hspent⟩

/-- After an enqueue some active row has the key. -/
theorem hasActive_enqueue {jobs jobs' : List Job} {id : Uuid} {spec : NewJob}
    {result : EnqueueResult} (h : enqueue jobs id spec = .ok (jobs', result)) :
    hasActive jobs' spec.dedupeKey = true := by
  unfold enqueue at h
  cases hnew : Job.new id spec with
  | error e => simp [hnew] at h
  | ok job =>
    have hjob : job.dedupeKey = spec.dedupeKey ∧ job.status = .queued := by
      unfold Job.new at hnew
      split_ifs at hnew
      obtain rfl := Except.ok.inj hnew
      exact ⟨rfl, rfl⟩
    simp only [hnew] at h
    split_ifs at h with hactive
    · obtain ⟨rfl, -⟩ := Prod.mk.inj (Except.ok.inj h)
      exact hjob.1 ▸ hactive
    · obtain ⟨rfl, -⟩ := Prod.mk.inj (Except.ok.inj h)
      refine hasActive_iff.mpr ⟨job, by simp, hjob.1, ?_⟩
      rw [hjob.2]
      rfl

theorem rowsMove_enqueue {jobs jobs' : List Job} {id : Uuid} {spec : NewJob}
    {result : EnqueueResult} (ends : Job → Prop)
    (h : enqueue jobs id spec = .ok (jobs', result)) : RowsMove ends jobs jobs' := by
  have hsub : ∀ job ∈ jobs, job ∈ jobs' := by
    intro job hmem
    unfold enqueue at h
    cases hnew : Job.new id spec with
    | error e => simp [hnew] at h
    | ok new =>
      simp only [hnew] at h
      split_ifs at h
      · obtain ⟨rfl, -⟩ := Prod.mk.inj (Except.ok.inj h)
        exact hmem
      · obtain ⟨rfl, -⟩ := Prod.mk.inj (Except.ok.inj h)
        exact List.mem_append_left _ hmem
  exact ⟨fun job hmem hstatus => ⟨job, hsub job hmem, rfl, rfl, hstatus⟩,
    fun job hmem hstatus => .inl ⟨job, hsub job hmem, rfl, rfl, hstatus⟩⟩

end JobTable

end Werrss
