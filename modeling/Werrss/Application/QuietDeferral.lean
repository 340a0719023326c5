import Werrss.Domain.Pacing
import Werrss.Application.FeedRebuild
import Werrss.Persistence.JobTableRefinement

/-!
# Application/QuietDeferral — a job that meets quiet hours

    claim ── heartbeats ──▸ handler reads the clock ──▸ outcome ──▸ recovery passes
                                │ deferred to resume_at     │
                                ╰───────────────────────────╯ resume_at > now, once more

The handler decides by one reading of the database clock, and the statement that defers the job asks
a second one whether the instant it is deferred to still lies ahead.  **A deferral costs nothing
exactly when the quiet hours outlast its outcome**: after that no outcome is applied at all, and the
job runs on until its lease expires and an attempt is counted.
-/

open Machinery

namespace Werrss

/-! ## The row of one job under a statement -/

namespace JobTable

variable {jobs jobs' : List Job} {jobId : Uuid} {job : Job} {condition : Job → Bool}
  {assign : Job → Job}

/-- **A statement on the row of one job** asks that row and no other. -/
theorem update_of_row (hkeys : (jobs.map Job.id).Nodup)
    (hjob : Rows.get Job.id jobs jobId = some job) :
    update jobs jobId condition assign =
      if condition job = true then some (Rows.update Job.id jobs jobId assign) else none := by
  have hunique : ∀ other ∈ jobs, other.id = jobId → other = job := fun other hmem hid =>
    List.inj_on_of_nodup_map hkeys hmem (Rows.mem_of_get hjob) (hid.trans (Rows.key_of_get hjob).symm)
  unfold update
  by_cases hcondition : condition job = true
  · rw [if_pos hcondition, if_pos]
    · refine congrArg some (List.map_congr_left fun other hmem => ?_)
      by_cases hid : other.id = jobId
      · rw [if_pos hid, if_pos ⟨hid, hunique other hmem hid ▸ hcondition⟩]
      · rw [if_neg hid, if_neg fun h => hid h.1]
    · refine List.any_eq_true.mpr ⟨job, Rows.mem_of_get hjob, ?_⟩
      rw [hcondition, Bool.and_true, decide_eq_true_eq]
      exact Rows.key_of_get hjob
  · rw [if_neg hcondition, if_neg]
    intro hany
    obtain ⟨other, hmem, hother⟩ := List.any_eq_true.mp hany
    rw [Bool.and_eq_true, decide_eq_true_eq] at hother
    exact hcondition (hunique other hmem hother.1 ▸ hother.2)

/-- What a statement that matched leaves of the row, and of the keys. -/
theorem row_of_update (hkeys : (jobs.map Job.id).Nodup)
    (hjob : Rows.get Job.id jobs jobId = some job)
    (h : update jobs jobId condition assign = some jobs')
    (hassign : ∀ job, (assign job).id = job.id) :
    condition job = true ∧ (jobs'.map Job.id).Nodup ∧
      Rows.get Job.id jobs' jobId = some (assign job) := by
  rw [update_of_row hkeys hjob] at h
  split_ifs at h with hcondition
  obtain rfl := Option.some.inj h
  refine ⟨hcondition, ?_, ?_⟩
  · rw [Rows.map_key_update hassign]
    exact hkeys
  · rw [Rows.get_update hassign, if_pos rfl, hjob, Option.map_some]

end JobTable

/-! ## A pass -/

/-- A pass of a worker over one job, up to the outcome of a handler that defers it, and the recovery
passes of any worker afterwards: the instants of the database clock at each step. -/
structure DeferralPass where
  claim : JobCompletion
  claimedAt : DateTime
  leaseUntil : DateTime
  /-- each with the lease it asks for -/
  heartbeats : List (DateTime × DateTime)
  /-- the clock the handler decides by -/
  startedAt : DateTime
  outcomeAt : DateTime
  recoveries : List DateTime

namespace DeferralPass

/-- One heartbeat, while the lease holds. -/
def beat (pass : DeferralPass) (jobs : List Job) (heartbeat : DateTime × DateTime) :
    Option (List Job) :=
  JobTable.heartbeat jobs pass.claim.jobId pass.claim.owner pass.claim.token heartbeat.1 heartbeat.2

/-- The jobs when the handler is done: claimed, the lease kept alive. -/
def held (pass : DeferralPass) (jobs : List Job) : Option (List Job) := do
  let jobs ← JobTable.claim jobs pass.claim.jobId pass.claim.owner pass.claim.token pass.claimedAt
    pass.leaseUntil
  pass.heartbeats.foldlM pass.beat jobs

/-- The outcome transaction of the worker; refused, it is dropped and nothing takes its place. -/
def applied (pass : DeferralPass) (jobs : List Job) (resumeAt : DateTime) : List Job :=
  (FeedSystem.applyExecution jobs pass.claim (.deferred resumeAt) pass.outcomeAt).getD jobs

/-- A recovery pass over this job. -/
def recover (pass : DeferralPass) (jobs : List Job) (now : DateTime) : List Job :=
  (JobTable.recoverExpired jobs pass.claim.jobId now).getD jobs

/-- The rest of the pass, if its handler defers the job. -/
def finish (pass : DeferralPass) (quietHours : Option QuietHours) (retryAfter : Duration)
    (held : List Job) : Option (List Job) := do
  let resumeAt ← QuietHours.deferral quietHours retryAfter pass.startedAt
  return pass.recoveries.foldl pass.recover (pass.applied held resumeAt)

/-- The lease is live when the outcome is applied. -/
def IsLive (pass : DeferralPass) (held : List Job) : Prop :=
  ∃ job, Rows.get Job.id held pass.claim.jobId = some job ∧
    JobTable.isFenced pass.claim.owner pass.claim.token pass.outcomeAt job = true

/-- **The job is deferred or claimable again, with the failures it had.** -/
def KeepsBudget (pass : DeferralPass) (before : Job) (jobs : List Job) : Prop :=
  ∃ job, Rows.get Job.id jobs pass.claim.jobId = some job ∧
    (job.status = .deferred ∨ ∃ now, JobTable.isClaimable now job = true) ∧
    job.failureCount = before.failureCount

/-! ## Its steps -/

variable {pass : DeferralPass} {jobs jobs' : List Job} {job : Job}

/-- What a claim and its heartbeats leave of the row. -/
structure Holds (pass : DeferralPass) (before : Job) (jobs : List Job) : Prop where
  keys : (jobs.map Job.id).Nodup
  row : ∃ job, Rows.get Job.id jobs pass.claim.jobId = some job ∧ job.status = .running ∧
    job.failureCount = before.failureCount

theorem holds_claim {leaseUntil : DateTime} (hkeys : (jobs.map Job.id).Nodup)
    (hjob : Rows.get Job.id jobs pass.claim.jobId = some job)
    (h : JobTable.claim jobs pass.claim.jobId pass.claim.owner pass.claim.token pass.claimedAt
      leaseUntil = some jobs') : pass.Holds job jobs' := by
  unfold JobTable.claim at h
  split_ifs at h
  obtain ⟨-, hkeys', hjob'⟩ := JobTable.row_of_update hkeys hjob h fun _ => rfl
  exact ⟨hkeys', _, hjob', rfl, rfl⟩

theorem holds_beat {heartbeat : DateTime × DateTime} (hholds : pass.Holds job jobs)
    (h : pass.beat jobs heartbeat = some jobs') : pass.Holds job jobs' := by
  obtain ⟨hkeys, row, hrow, hrunning, hcount⟩ := hholds
  unfold beat JobTable.heartbeat at h
  split_ifs at h
  obtain ⟨-, hkeys', hrow'⟩ := JobTable.row_of_update hkeys hrow h fun _ => rfl
  exact ⟨hkeys', _, hrow', hrunning, hcount⟩

theorem holds_beats {heartbeats : List (DateTime × DateTime)} :
    ∀ {jobs jobs' : List Job}, pass.Holds job jobs →
      heartbeats.foldlM pass.beat jobs = some jobs' → pass.Holds job jobs' := by
  induction heartbeats with
  | nil =>
    intro jobs jobs' hholds h
    exact Option.some.inj h ▸ hholds
  | cons heartbeat rest ih =>
    intro jobs jobs' hholds h
    rw [List.foldlM_cons] at h
    obtain ⟨beaten, hbeat, h⟩ := Option.bind_eq_some_iff.mp h
    exact ih (holds_beat hholds hbeat) h

/-- **The job runs, with its failures uncounted, until its outcome is applied.** -/
theorem holds_held {held : List Job} (hkeys : (jobs.map Job.id).Nodup)
    (hjob : Rows.get Job.id jobs pass.claim.jobId = some job)
    (h : pass.held jobs = some held) : pass.Holds job held := by
  obtain ⟨claimed, hclaim, h⟩ := Option.bind_eq_some_iff.mp h
  exact holds_beats (holds_claim hkeys hjob hclaim) h

/-- A job is not claimed for a blank owner. -/
theorem owner_of_held {held : List Job} (h : pass.held jobs = some held) :
    isBlank pass.claim.owner = false := by
  obtain ⟨claimed, hclaim, -⟩ := Option.bind_eq_some_iff.mp h
  unfold JobTable.claim at hclaim
  split_ifs at hclaim with hblank
  exact eq_false_of_ne_true hblank

/-- What a recovery pass keeps of a job that is not running. -/
theorem recover_of_not_running {now : DateTime} (hkeys : (jobs.map Job.id).Nodup)
    (hjob : Rows.get Job.id jobs pass.claim.jobId = some job) (hstatus : job.status ≠ .running) :
    pass.recover jobs now = jobs := by
  have hexpired : JobTable.isExpired now job = false := by
    rw [JobTable.isExpired, decide_eq_false hstatus, Bool.false_and]
  rw [recover, JobTable.recoverExpired, JobTable.update_of_row hkeys hjob, hexpired]
  rfl

theorem recoveries_of_not_running {recoveries : List DateTime} (hkeys : (jobs.map Job.id).Nodup)
    (hjob : Rows.get Job.id jobs pass.claim.jobId = some job) (hstatus : job.status ≠ .running) :
    recoveries.foldl pass.recover jobs = jobs := by
  induction recoveries with
  | nil => rfl
  | cons now recoveries ih => rw [List.foldl_cons, recover_of_not_running hkeys hjob hstatus, ih]

/-- A counted failure shows in the count: it is taken modulo `2^32`. -/
theorem failureCount_countFailure_ne {waiting : JobStatus} {now runAfter : DateTime}
    {error : String} : (JobTable.countFailure waiting now runAfter error job).failureCount
      ≠ job.failureCount := by
  intro h
  have hadd : job.failureCount + 1 = job.failureCount := h
  simp at hadd

theorem status_countFailure_ne {now runAfter : DateTime} {error : String} :
    (JobTable.countFailure .queued now runAfter error job).status ≠ .running := by
  unfold JobTable.countFailure
  dsimp only
  split_ifs
  · decide
  · decide

/-- **A job left running does not keep its budget**, whatever recovery passes follow: it runs, or a
failure has been counted. -/
theorem not_keepsBudget_of_running {recoveries : List DateTime} :
    ∀ {jobs : List Job}, pass.Holds job jobs →
      ¬ pass.KeepsBudget job (recoveries.foldl pass.recover jobs) := by
  induction recoveries with
  | nil =>
    rintro jobs ⟨-, row, hrow, hrunning, -⟩ ⟨other, hother, hwaits, -⟩
    obtain rfl : row = other := Option.some.inj (hrow.symm.trans hother)
    rcases hwaits with hdeferred | ⟨now, hclaimable⟩
    · exact absurd (hrunning.symm.trans hdeferred) (by decide)
    · rw [JobTable.isClaimable, hrunning] at hclaimable
      exact absurd hclaimable (by simp [JobStatus.isWaiting])
  | cons now recoveries ih =>
    rintro jobs hholds
    obtain ⟨hkeys, row, hrow, hrunning, hcount⟩ := hholds
    rw [List.foldl_cons]
    cases hrecovered : JobTable.recoverExpired jobs pass.claim.jobId now with
    | none =>
      rw [recover, hrecovered]
      exact ih ⟨hkeys, row, hrow, hrunning, hcount⟩
    | some recovered =>
      obtain ⟨-, hkeys', hrow'⟩ := JobTable.row_of_update hkeys hrow hrecovered fun _ => rfl
      rw [recover, hrecovered, Option.getD_some,
        recoveries_of_not_running hkeys' hrow' status_countFailure_ne]
      rintro ⟨other, hother, -, hsame⟩
      obtain rfl := Option.some.inj (hrow'.symm.trans hother)
      exact failureCount_countFailure_ne (hsame.trans hcount.symm)

/-- A deferral that is applied leaves the job deferred. -/
theorem keepsBudget_of_applied {held : List Job} {resumeAt : DateTime}
    (hholds : pass.Holds job held) (hlive : pass.IsLive held)
    (howner : isBlank pass.claim.owner = false) (hlater : pass.outcomeAt < resumeAt) :
    pass.KeepsBudget job (pass.recoveries.foldl pass.recover (pass.applied held resumeAt)) := by
  obtain ⟨hkeys, row, hrow, hrunning, hcount⟩ := hholds
  obtain ⟨live, hlive, hfenced⟩ := hlive
  obtain rfl : row = live := Option.some.inj (hrow.symm.trans hlive)
  obtain ⟨deferred, hdeferred⟩ : ∃ deferred, JobTable.defer held pass.claim.jobId pass.claim.owner
      pass.claim.token pass.outcomeAt resumeAt = some deferred := by
    rw [JobTable.defer, if_neg (by simp [howner]), JobTable.update_of_row hkeys hrow, if_pos]
    · exact ⟨_, rfl⟩
    · rw [hfenced, decide_eq_true hlater, Bool.and_self]
  have happlied : pass.applied held resumeAt = deferred := by
    rw [applied, show FeedSystem.applyExecution held pass.claim (.deferred resumeAt) pass.outcomeAt
      = some deferred from hdeferred, Option.getD_some]
  rw [JobTable.defer, if_neg (by simp [howner])] at hdeferred
  obtain ⟨-, hkeys', hrow'⟩ := JobTable.row_of_update hkeys hrow hdeferred fun _ => rfl
  rw [happlied, recoveries_of_not_running hkeys' hrow' (by simp)]
  exact ⟨_, hrow', .inl rfl, hcount⟩

/-- A deferral into the past is refused, and nothing takes its place. -/
theorem applied_of_not_lt {held : List Job} {resumeAt : DateTime} (hholds : pass.Holds job held)
    (hpast : ¬ pass.outcomeAt < resumeAt) : pass.applied held resumeAt = held := by
  obtain ⟨hkeys, row, hrow, hrunning, hcount⟩ := hholds
  have hrefused : JobTable.defer held pass.claim.jobId pass.claim.owner pass.claim.token
      pass.outcomeAt resumeAt = none := by
    rw [JobTable.defer, JobTable.update_of_row hkeys hrow, decide_eq_false hpast, Bool.and_false]
    exact ite_self none
  rw [applied, show FeedSystem.applyExecution held pass.claim (.deferred resumeAt) pass.outcomeAt
    = none from hrefused, Option.getD_none]

end DeferralPass

/-- **A deferral costs no retry budget exactly when the quiet hours outlast its outcome.**  Whatever
the quiet hours and their time zone, the heartbeats that kept the lease alive and the recovery passes
that follow: a job whose handler defers it is deferred or claimable again with the failures it had
if, and only if, its outcome is applied before the instant the handler resumes at. -/
theorem deferral_keepsBudget_iff (quietHours : QuietHours) (retryAfter : Duration)
    (pass : DeferralPass) {jobs held after : List Job} {job : Job}
    (hkeys : (jobs.map Job.id).Nodup) (hjob : Rows.get Job.id jobs pass.claim.jobId = some job)
    (hheld : pass.held jobs = some held) (hlive : pass.IsLive held)
    (hfinish : pass.finish (some quietHours) retryAfter held = some after) :
    pass.KeepsBudget job after ↔ pass.outcomeAt < quietHours.resumeAt retryAfter pass.startedAt := by
  have hholds := DeferralPass.holds_held hkeys hjob hheld
  obtain ⟨resumeAt, hdefers, hfinish⟩ := Option.bind_eq_some_iff.mp hfinish
  obtain rfl := Option.some.inj hfinish
  have hresume : quietHours.resumeAt retryAfter pass.startedAt = resumeAt := by
    unfold QuietHours.deferral at hdefers
    dsimp only at hdefers
    split_ifs at hdefers
    exact Option.some.inj hdefers
  rw [hresume]
  constructor
  · intro hkeeps
    by_contra hpast
    rw [DeferralPass.applied_of_not_lt hholds hpast] at hkeeps
    exact DeferralPass.not_keepsBudget_of_running hholds hkeeps
  · exact DeferralPass.keepsBudget_of_applied hholds hlive (DeferralPass.owner_of_held hheld)

/-! ## The last second of a night -/

/-- From eleven in the evening to seven in the morning, `UTC`. -/
def nightHours : QuietHours where
  timezone := .utc
  start := 23 * 3600000000000
  «end» := 7 * 3600000000000
  start_isTime := by decide
  end_isTime := by decide
  start_ne_end := by decide

/-- A pass that decides at one second to seven and applies its outcome at `outcomeAt`, with a
recovery pass at eight. -/
def nightPass (outcomeAt : DateTime) : DeferralPass where
  claim := ⟨⟨1⟩, "worker", ⟨⟨7⟩⟩⟩
  claimedAt := 25198 * 1000000000
  leaseUntil := 25260 * 1000000000
  heartbeats := []
  startedAt := 25199 * 1000000000
  outcomeAt := outcomeAt
  recoveries := [8 * 3600000000000]

/-- The jobs at the end of that pass. -/
def nightEnds (outcomeAt : DateTime) : Option (List Job) :=
  ((nightPass outcomeAt).held [JobRow.wornJob 0]).bind
    ((nightPass outcomeAt).finish (some nightHours) 60000000000)

/-- Applied in the same second, the deferral keeps the budget. -/
theorem deferral_keepsBudget_night :
    (nightPass (25199 * 1000000000)).KeepsBudget (JobRow.wornJob 0)
      ((nightEnds (25199 * 1000000000)).getD []) := by
  have hkeys : ([JobRow.wornJob 0].map Job.id).Nodup := by decide
  exact (deferral_keepsBudget_iff nightHours 60000000000 (nightPass (25199 * 1000000000)) hkeys rfl
    rfl ⟨_, rfl, by decide⟩ rfl).mpr (by decide)

/-- **Applied at seven, it is refused**: the job runs on until its lease has expired, and the recovery
pass counts a failure. -/
theorem deferral_not_keepsBudget_morning :
    (¬ ∀ (quietHours : QuietHours) (retryAfter : Duration) (pass : DeferralPass)
      (jobs held after : List Job) (job : Job), (jobs.map Job.id).Nodup →
      Rows.get Job.id jobs pass.claim.jobId = some job → pass.held jobs = some held →
      pass.IsLive held → pass.finish (some quietHours) retryAfter held = some after →
      pass.KeepsBudget job after) ∧
    (nightEnds (7 * 3600000000000)).map (·.map fun job => (job.status, job.failureCount))
      = some [(.queued, 1)] := by
  refine ⟨fun hkeeps => ?_, by decide⟩
  obtain ⟨job, hjob, -, hcount⟩ := hkeeps nightHours 60000000000 (nightPass (7 * 3600000000000))
    [JobRow.wornJob 0] _ _ (JobRow.wornJob 0) (by decide) rfl rfl ⟨_, rfl, by decide⟩ rfl
  obtain rfl := Option.some.inj hjob
  exact absurd hcount (by decide)

end Werrss
