import Werrss.Machinery.Run
import Werrss.Domain.Job

/-!
# Domain/JobStep — the eight job operations as one machine, and all a step can do

`Job.apply` runs one operation; its answer says whether the operation took effect.  `Moves` lists
every effect an accepted operation can have, guards included, and `apply_cases` says that nothing
else happens: a rejected operation leaves the job as it was.
-/

open Machinery

namespace Werrss

/-- A call of one of the eight job operations.  The token a claim draws is part of the call. -/
inductive JobOp
  | claim (owner : String) (now : DateTime) (leaseFor : Duration) (draw : LeaseToken)
  | defer (owner : String) (token : LeaseToken) (now resumeAt : DateTime)
  | heartbeat (owner : String) (token : LeaseToken) (now : DateTime) (leaseFor : Duration)
  | succeed (owner : String) (token : LeaseToken) (now : DateTime)
  | retry (owner : String) (token : LeaseToken) (now retryAt : DateTime) (error : String)
  | fail (owner : String) (token : LeaseToken) (now : DateTime) (error : String)
  | cancel (now : DateTime) (reason : String)
  | recoverExpiredLease (now : DateTime)
deriving DecidableEq, Repr

/-- What an operation returned. -/
inductive JobAnswer
  | claimed (result : Except JobError LeaseToken)
  | done (result : Except JobError Unit)
  | retried (result : Except JobError JobStatus)
  | recovered (changed : Bool)

/-- The call returned `Ok`; for a recovery, it returned `true`. -/
def JobAnswer.accepted : JobAnswer → Bool
  | .claimed result => result.isOk
  | .done result => result.isOk
  | .retried result => result.isOk
  | .recovered changed => changed

@[simp] theorem accepted_claimed_error (e : JobError) :
    (JobAnswer.claimed (.error e)).accepted = false := rfl

@[simp] theorem accepted_claimed_ok (token : LeaseToken) :
    (JobAnswer.claimed (.ok token)).accepted = true := rfl

@[simp] theorem accepted_done_error (e : JobError) :
    (JobAnswer.done (.error e)).accepted = false := rfl

@[simp] theorem accepted_done_ok : (JobAnswer.done (.ok ())).accepted = true := rfl

@[simp] theorem accepted_retried_error (e : JobError) :
    (JobAnswer.retried (.error e)).accepted = false := rfl

@[simp] theorem accepted_retried_ok (status : JobStatus) :
    (JobAnswer.retried (.ok status)).accepted = true := rfl

@[simp] theorem accepted_recovered (changed : Bool) :
    (JobAnswer.recovered changed).accepted = changed := rfl

/-- Owner, token and clock of the five operations that act under a lease. -/
def JobOp.fence : JobOp → Option (String × LeaseToken × DateTime)
  | .defer owner token now _ => some (owner, token, now)
  | .heartbeat owner token now _ => some (owner, token, now)
  | .succeed owner token now => some (owner, token, now)
  | .retry owner token now _ _ => some (owner, token, now)
  | .fail owner token now _ => some (owner, token, now)
  | _ => none

theorem isActive_of_isWaiting {status : JobStatus} (h : status.isWaiting = true) :
    status.isActive = true := by
  cases status with
  | queued | retryWait | deferred => rfl
  | running | succeeded | failed => cases h

namespace Job

/-- One call on a job. -/
def apply (self : Job) : JobOp → Job × JobAnswer
  | .claim owner now leaseFor draw =>
    let (job, result) := self.claim owner now leaseFor draw
    (job, .claimed result)
  | .defer owner token now resumeAt =>
    let (job, result) := self.defer owner token now resumeAt
    (job, .done result)
  | .heartbeat owner token now leaseFor =>
    let (job, result) := self.heartbeat owner token now leaseFor
    (job, .done result)
  | .succeed owner token now =>
    let (job, result) := self.succeed owner token now
    (job, .done result)
  | .retry owner token now retryAt error =>
    let (job, result) := self.retry owner token now retryAt error
    (job, .retried result)
  | .fail owner token now error =>
    let (job, result) := self.fail owner token now error
    (job, .done result)
  | .cancel now reason =>
    let (job, result) := self.cancel now reason
    (job, .done result)
  | .recoverExpiredLease now =>
    let (job, changed) := self.recoverExpiredLease now
    (job, .recovered changed)

theorem apply_claim (job : Job) (owner : String) (now : DateTime) (leaseFor : Duration)
    (draw : LeaseToken) :
    job.apply (.claim owner now leaseFor draw) =
      ((job.claim owner now leaseFor draw).1, .claimed (job.claim owner now leaseFor draw).2) := rfl

theorem apply_defer (job : Job) (owner : String) (token : LeaseToken)
    (now resumeAt : DateTime) :
    job.apply (.defer owner token now resumeAt) =
      ((job.defer owner token now resumeAt).1, .done (job.defer owner token now resumeAt).2) := rfl

theorem apply_heartbeat (job : Job) (owner : String) (token : LeaseToken)
    (now : DateTime) (leaseFor : Duration) :
    job.apply (.heartbeat owner token now leaseFor) =
      ((job.heartbeat owner token now leaseFor).1,
        .done (job.heartbeat owner token now leaseFor).2) := rfl

theorem apply_succeed (job : Job) (owner : String) (token : LeaseToken)
    (now : DateTime) :
    job.apply (.succeed owner token now) =
      ((job.succeed owner token now).1, .done (job.succeed owner token now).2) := rfl

theorem apply_retry (job : Job) (owner : String) (token : LeaseToken)
    (now retryAt : DateTime) (error : String) :
    job.apply (.retry owner token now retryAt error) =
      ((job.retry owner token now retryAt error).1,
        .retried (job.retry owner token now retryAt error).2) := rfl

theorem apply_fail (job : Job) (owner : String) (token : LeaseToken)
    (now : DateTime) (error : String) :
    job.apply (.fail owner token now error) =
      ((job.fail owner token now error).1, .done (job.fail owner token now error).2) := rfl

theorem apply_cancel (job : Job) (now : DateTime) (reason : String) :
    job.apply (.cancel now reason) =
      ((job.cancel now reason).1, .done (job.cancel now reason).2) := rfl

theorem apply_recoverExpiredLease (job : Job) (now : DateTime) :
    job.apply (.recoverExpiredLease now) =
      ((job.recoverExpiredLease now).1, .recovered (job.recoverExpiredLease now).2) := rfl

/-- The job operations as a machine. -/
def machine : Machine Job JobOp JobAnswer := ⟨apply⟩

/-! ## The lease guard -/

/-- `owner` holds the lease `token` of a running job, and the lease outlives `now`. -/
structure Live (job : Job) (owner : String) (token : LeaseToken) (now : DateTime) : Prop where
  running : job.status = .running
  owner_eq : job.leaseOwner = some owner
  token_eq : job.leaseToken = some token
  ahead : ∃ leaseUntil, job.leaseUntil = some leaseUntil ∧ now < leaseUntil

theorem ensureLiveOwner_cases (job : Job) (owner : String) (token : LeaseToken) (now : DateTime)
    (operation : String) :
    (∃ e, job.ensureLiveOwner owner token now operation = .error e) ∨
      (job.ensureLiveOwner owner token now operation = .ok () ∧ job.Live owner token now) := by
  unfold ensureLiveOwner
  split_ifs with hs ho ht
  · exact .inl ⟨_, rfl⟩
  · exact .inl ⟨_, rfl⟩
  · exact .inl ⟨_, rfl⟩
  · cases hu : job.leaseUntil with
    | none => exact .inl ⟨_, rfl⟩
    | some leaseUntil =>
      by_cases hlt : leaseUntil > now
      · exact .inr ⟨by simp [hlt], not_not.mp hs, not_not.mp ho, not_not.mp ht, leaseUntil, hu, hlt⟩
      · exact .inl ⟨.leaseExpired, by simp [hlt]⟩

/-! ## All a step can do -/

/-- **The effects of accepted operations.** -/
inductive Moves (job : Job) : JobOp → Job → Prop
  | claim {owner now leaseFor draw leaseUntil claimCount} (howner : isBlank owner = false)
      (hwait : job.status.isWaiting) (hbudget : job.failureCount < job.maxAttempts)
      (hcount : checkedAdd job.claimCount 1 = some claimCount) :
      Moves job (.claim owner now leaseFor draw)
        { job with
          claimCount := claimCount
          status := .running
          leaseOwner := some owner
          leaseToken := some draw
          leaseUntil := some leaseUntil
          heartbeatAt := some now
          startedAt := some (job.startedAt.getD now)
          finishedAt := none
          updatedAt := now }
  | defer {owner token now resumeAt} (hlive : job.Live owner token now) :
      Moves job (.defer owner token now resumeAt)
        { job.clearLease with
          status := .deferred
          runAfter := resumeAt
          lastError := none
          finishedAt := none
          updatedAt := now }
  | heartbeat {owner token now leaseFor leaseUntil} (hlive : job.Live owner token now) :
      Moves job (.heartbeat owner token now leaseFor)
        { job with leaseUntil := some leaseUntil, heartbeatAt := some now, updatedAt := now }
  | succeed {owner token now} (hlive : job.Live owner token now) :
      Moves job (.succeed owner token now)
        { job.clearLease with
          status := .succeeded
          lastError := none
          finishedAt := some now
          updatedAt := now }
  | retryLast {owner token now retryAt error failureCount} (hlive : job.Live owner token now)
      (hcount : checkedAdd job.failureCount 1 = some failureCount)
      (hlast : job.maxAttempts ≤ failureCount) :
      Moves job (.retry owner token now retryAt error)
        { job.clearLease with
          lastError := some error
          runAfter := retryAt
          updatedAt := now
          failureCount := failureCount
          status := .failed
          finishedAt := some now }
  | retryWait {owner token now retryAt error failureCount} (hlive : job.Live owner token now)
      (hcount : checkedAdd job.failureCount 1 = some failureCount)
      (hmore : failureCount < job.maxAttempts) :
      Moves job (.retry owner token now retryAt error)
        { job.clearLease with
          lastError := some error
          runAfter := retryAt
          updatedAt := now
          failureCount := failureCount
          status := .retryWait
          finishedAt := none }
  | fail {owner token now error} (hlive : job.Live owner token now) :
      Moves job (.fail owner token now error)
        { job.clearLease with
          status := .failed
          lastError := some error
          finishedAt := some now
          updatedAt := now }
  | cancel {now reason} (hwait : job.status.isWaiting) :
      Moves job (.cancel now reason)
        { job.clearLease with
          status := .failed
          lastError := some reason
          finishedAt := some now
          updatedAt := now }
  | recoverLast {now} (hrun : job.status = .running)
      (hlast : job.maxAttempts ≤ saturatingAdd job.failureCount 1) :
      Moves job (.recoverExpiredLease now)
        { job.clearLease with
          runAfter := now
          lastError := some "worker lease expired"
          updatedAt := now
          failureCount := saturatingAdd job.failureCount 1
          status := .failed
          finishedAt := some now }
  | recoverQueue {now} (hrun : job.status = .running)
      (hmore : saturatingAdd job.failureCount 1 < job.maxAttempts) :
      Moves job (.recoverExpiredLease now)
        { job.clearLease with
          runAfter := now
          lastError := some "worker lease expired"
          updatedAt := now
          failureCount := saturatingAdd job.failureCount 1
          status := .queued
          finishedAt := none }

/-- A call was rejected and left the job alone, or it was accepted and moved the job. -/
abbrev Settles (job : Job) (op : JobOp) : Prop :=
  ((job.apply op).2.accepted = false ∧ (job.apply op).1 = job) ∨
    ((job.apply op).2.accepted = true ∧ Moves job op (job.apply op).1)

/-- A step settles by what its own function returned. -/
theorem settles_of_apply {job job' : Job} {op : JobOp} {answer : JobAnswer}
    (happly : job.apply op = (job', answer))
    (h : (answer.accepted = false ∧ job' = job) ∨ (answer.accepted = true ∧ Moves job op job')) :
    job.Settles op := by
  rw [Settles, happly]
  exact h

theorem validateOwner_cases (owner : String) :
    validateOwner owner = .error .emptyLeaseOwner ∨
      (validateOwner owner = .ok () ∧ isBlank owner = false) := by
  unfold validateOwner
  split_ifs with h
  · exact .inl rfl
  · exact .inr ⟨rfl, by simpa using h⟩

theorem nonemptyError_cases (error : String) :
    nonemptyError error = .error .emptyError ∨ nonemptyError error = .ok error := by
  unfold nonemptyError
  split_ifs
  · exact .inl rfl
  · exact .inr rfl

theorem claim_settles (job : Job) (owner : String) (now : DateTime) (leaseFor : Duration)
    (draw : LeaseToken) : job.Settles (.claim owner now leaseFor draw) := by
  refine settles_of_apply (job.apply_claim owner now leaseFor draw) ?_
  simp only [claim]
  rcases validateOwner_cases owner with ho | ⟨ho, hblank⟩
  · exact .inl (by simp [ho])
  cases hexp : leaseExpiry now leaseFor with
  | error e => exact .inl (by simp [ho])
  | ok leaseUntil =>
    by_cases hw : job.status.isWaiting = true
    · by_cases hdue : job.runAfter > now
      · exact .inl (by simp [ho, hw, hdue])
      by_cases hb : job.failureCount ≥ job.maxAttempts
      · exact .inl (by simp [ho, hw, hdue, hb])
      cases hc : checkedAdd job.claimCount 1 with
      | none => exact .inl (by simp [ho, hw, hdue, hb])
      | some claimCount =>
        simp only [ho, hw, hdue, hb, Bool.not_true, Bool.false_eq_true, if_false]
        exact .inr ⟨rfl, .claim hblank hw (UInt32.not_le.mp hb) hc⟩
    · exact .inl (by simp [ho, hw])

theorem defer_settles (job : Job) (owner : String) (token : LeaseToken) (now resumeAt : DateTime) :
    job.Settles (.defer owner token now resumeAt) := by
  refine settles_of_apply (job.apply_defer owner token now resumeAt) ?_
  simp only [defer]
  rcases validateOwner_cases owner with ho | ⟨ho, -⟩
  · exact .inl (by simp [ho])
  by_cases hr : resumeAt ≤ now
  · exact .inl (by simp [ho, hr])
  rcases job.ensureLiveOwner_cases owner token now "defer" with ⟨e, he⟩ | ⟨he, hlive⟩
  · exact .inl (by simp [ho, hr, he])
  · simp only [ho, hr, he, if_false]
    exact .inr ⟨rfl, .defer hlive⟩

theorem heartbeat_settles (job : Job) (owner : String) (token : LeaseToken) (now : DateTime)
    (leaseFor : Duration) : job.Settles (.heartbeat owner token now leaseFor) := by
  refine settles_of_apply (job.apply_heartbeat owner token now leaseFor) ?_
  simp only [heartbeat]
  rcases validateOwner_cases owner with ho | ⟨ho, -⟩
  · exact .inl (by simp [ho])
  cases hexp : leaseExpiry now leaseFor with
  | error e => exact .inl (by simp [ho])
  | ok leaseUntil =>
    rcases job.ensureLiveOwner_cases owner token now "heartbeat" with ⟨e, he⟩ | ⟨he, hlive⟩
    · exact .inl (by simp [ho, he])
    · simp only [ho, he]
      exact .inr ⟨rfl, .heartbeat hlive⟩

theorem succeed_settles (job : Job) (owner : String) (token : LeaseToken) (now : DateTime) :
    job.Settles (.succeed owner token now) := by
  refine settles_of_apply (job.apply_succeed owner token now) ?_
  simp only [succeed]
  rcases validateOwner_cases owner with ho | ⟨ho, -⟩
  · exact .inl (by simp [ho])
  rcases job.ensureLiveOwner_cases owner token now "succeed" with ⟨e, he⟩ | ⟨he, hlive⟩
  · exact .inl (by simp [ho, he])
  · simp only [ho, he]
    exact .inr ⟨rfl, .succeed hlive⟩

/-- The overflow branch of `retry` is out of reach while a running job has budget left. -/
theorem retry_settles (job : Job) (hbudget : job.status = .running →
    job.failureCount < job.maxAttempts) (owner : String) (token : LeaseToken)
    (now retryAt : DateTime) (error : String) :
    job.Settles (.retry owner token now retryAt error) := by
  refine settles_of_apply (job.apply_retry owner token now retryAt error) ?_
  simp only [retry]
  rcases validateOwner_cases owner with ho | ⟨ho, -⟩
  · exact .inl (by simp [ho])
  rcases nonemptyError_cases error with hr | hr
  · exact .inl (by simp [ho, hr])
  rcases job.ensureLiveOwner_cases owner token now "retry" with ⟨e, he⟩ | ⟨he, hlive⟩
  · exact .inl (by simp [ho, hr, he])
  obtain ⟨count, hcount, -⟩ := checkedAdd_one_of_lt (hbudget hlive.running)
  simp only [ho, hr, he, clearLease, hcount]
  by_cases hlast : count ≥ job.maxAttempts
  · simp only [hlast, if_true]
    exact .inr ⟨rfl, .retryLast hlive hcount hlast⟩
  · simp only [hlast, if_false]
    exact .inr ⟨rfl, .retryWait hlive hcount (UInt32.not_le.mp hlast)⟩

theorem fail_settles (job : Job) (owner : String) (token : LeaseToken) (now : DateTime)
    (error : String) : job.Settles (.fail owner token now error) := by
  refine settles_of_apply (job.apply_fail owner token now error) ?_
  simp only [fail]
  rcases validateOwner_cases owner with ho | ⟨ho, -⟩
  · exact .inl (by simp [ho])
  rcases nonemptyError_cases error with hr | hr
  · exact .inl (by simp [ho, hr])
  rcases job.ensureLiveOwner_cases owner token now "fail" with ⟨e, he⟩ | ⟨he, hlive⟩
  · exact .inl (by simp [ho, hr, he])
  · simp only [ho, hr, he]
    exact .inr ⟨rfl, .fail hlive⟩

theorem cancel_settles (job : Job) (now : DateTime) (reason : String) :
    job.Settles (.cancel now reason) := by
  refine settles_of_apply (job.apply_cancel now reason) ?_
  simp only [cancel]
  rcases nonemptyError_cases reason with hr | hr
  · exact .inl (by simp [hr])
  by_cases hw : job.status.isWaiting = true
  · simp only [hr, hw, Bool.not_true, Bool.false_eq_true, if_false]
    exact .inr ⟨rfl, .cancel hw⟩
  · exact .inl (by simp [hr, hw])

theorem recoverExpiredLease_settles (job : Job) (now : DateTime) :
    job.Settles (.recoverExpiredLease now) := by
  refine settles_of_apply (job.apply_recoverExpiredLease now) ?_
  simp only [recoverExpiredLease]
  by_cases hlive : job.status ≠ .running ∨
      job.leaseUntil.any (fun leaseUntil => decide (leaseUntil > now)) = true
  · exact .inl (by rw [if_pos hlive]; exact ⟨rfl, rfl⟩)
  · have hrun : job.status = .running := not_not.mp fun h => hlive (.inl h)
    rw [if_neg hlive]
    simp only [clearLease]
    by_cases hlast : saturatingAdd job.failureCount 1 ≥ job.maxAttempts
    · simp only [hlast, if_true]
      exact .inr ⟨rfl, .recoverLast hrun hlast⟩
    · simp only [hlast, if_false]
      exact .inr ⟨rfl, .recoverQueue hrun (UInt32.not_le.mp hlast)⟩

/-- **All an operation can do**: rejected without a trace, or one of `Moves`. -/
theorem apply_cases (job : Job)
    (hbudget : job.status = .running → job.failureCount < job.maxAttempts) (op : JobOp) :
    job.Settles op := by
  cases op with
  | claim owner now leaseFor draw => exact job.claim_settles owner now leaseFor draw
  | defer owner token now resumeAt => exact job.defer_settles owner token now resumeAt
  | heartbeat owner token now leaseFor => exact job.heartbeat_settles owner token now leaseFor
  | succeed owner token now => exact job.succeed_settles owner token now
  | retry owner token now retryAt error =>
    exact job.retry_settles hbudget owner token now retryAt error
  | fail owner token now error => exact job.fail_settles owner token now error
  | cancel now reason => exact job.cancel_settles now reason
  | recoverExpiredLease now => exact job.recoverExpiredLease_settles now

/-- An accepted operation under a lease acts on a live lease of its caller. -/
theorem Moves.live {job job' : Job} {op : JobOp} (h : Moves job op job') {owner : String}
    {token : LeaseToken} {now : DateTime} (hf : op.fence = some (owner, token, now)) :
    job.Live owner token now := by
  cases h <;> simp only [JobOp.fence, Option.some.injEq, Prod.mk.injEq, reduceCtorEq] at hf <;>
    (obtain ⟨rfl, rfl, rfl⟩ := hf; assumption)

/-- No operation renames a job. -/
theorem Moves.same_key {job job' : Job} {op : JobOp} (h : Moves job op job') :
    job'.id = job.id ∧ job'.dedupeKey = job.dedupeKey := by
  cases h <;> exact ⟨rfl, rfl⟩

/-- **Only active jobs move.** -/
theorem Moves.of_active {job job' : Job} {op : JobOp} (h : Moves job op job') :
    job.status.isActive = true := by
  cases h with
  | claim _ hwait => exact isActive_of_isWaiting hwait
  | cancel hwait => exact isActive_of_isWaiting hwait
  | defer hlive | heartbeat hlive | succeed hlive | retryLast hlive | retryWait hlive | fail hlive =>
    rw [hlive.running]
    rfl
  | recoverLast hrun | recoverQueue hrun =>
    rw [hrun]
    rfl

end Job

end Werrss
