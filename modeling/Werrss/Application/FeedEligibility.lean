import Werrss.Application.FeedConsistency

/-!
# Application/FeedEligibility — when a committed change is sure to reach the feed

    commit ──▸ feed_revision + 1, job active
                   │ publish of an older candidate + succeed   ──▸ job gone, feed old: lost
                   │ failure of a job claimed before the commit ──▸ job gone, feed old: lost
                   ▾ otherwise
               feed current, or job active, or a job claimed since then has failed

A commit finds the job active and enqueues nothing.  If that job's rebuild has read the source before
the commit, its publication answers *source revision changed* and still marks the job succeeded.
-/

open Machinery

namespace Werrss

namespace FeedSystem

variable {Url : Type} [UrlCrate Url]

/-! ## What must be kept -/

/-- The stored feed has the present revision. -/
def cacheCurrent (s : FeedSystem Url) : Bool :=
  s.rows.cache.any fun cache => decide (cache.candidate.feedRevision = s.source.feedRevision)

/-- A rebuild job claimed at the present revision has failed. -/
def failedSince (s : FeedSystem Url) : Bool :=
  s.jobs.any fun job => decide (job.dedupeKey = dedupeKey s.source) && decide (job.status = .failed)
    && decide (s.claimedAt job.id = some s.source.feedRevision)

/-- **The present revision is in the feed, on its way, or known to have failed.** -/
def rebuildKept (s : FeedSystem Url) : Bool :=
  s.cacheCurrent || JobTable.hasActive s.jobs (dedupeKey s.source) || s.failedSince

/-! ## The two steps that lose a rebuild -/

/-- The step completes a job with a candidate of another revision than the present one. -/
def completesStale (s : FeedSystem Url) : FeedAction Url → Bool
  | .publish worker _ _ =>
    match s.workers worker with
    | .building (some _) _ (.rendered candidate) =>
      decide (candidate.feedRevision ≠ s.source.feedRevision)
    | _ => false
  | _ => false

/-- The step makes the job fail. -/
def failsJob (s : FeedSystem Url) (action : FeedAction Url) (job : Job) : Bool :=
  match action with
  | .finish worker now =>
    match s.workers worker with
    | .finishing completion (.failed _) =>
      decide (job.id = completion.jobId)
        && JobTable.isFenced completion.owner completion.token now job
    | .finishing completion (.retry _ _) =>
      decide (job.id = completion.jobId)
        && JobTable.isFenced completion.owner completion.token now job && JobTable.isSpent job
    | _ => false
  | .recoverExpired jobId now =>
    decide (job.id = jobId) && JobTable.isExpired now job && JobTable.isSpent job
  | _ => false

/-- **The step is on time**: it completes no job with an old candidate, and a job it makes fail was
claimed at the present revision, unless the feed is current anyway. -/
structure OnTime (s : FeedSystem Url) (action : FeedAction Url) : Prop where
  completes : s.completesStale action = false
  fails : ∀ job ∈ s.jobs, s.failsJob action job = true →
    s.cacheCurrent = true ∨ s.claimedAt job.id = some s.source.feedRevision

instance (s : FeedSystem Url) (action : FeedAction Url) : Decidable (s.OnTime action) :=
  decidable_of_iff (s.completesStale action = false ∧ ∀ job ∈ s.jobs, s.failsJob action job = true →
      s.cacheCurrent = true ∨ s.claimedAt job.id = some s.source.feedRevision)
    ⟨fun h => ⟨h.1, h.2⟩, fun h => ⟨h.1, h.2⟩⟩

/-! ## One step -/

variable {service : FeedRebuildService Url} {s t : FeedSystem Url}

theorem rebuildKept_of_cacheCurrent (h : s.cacheCurrent = true) : s.rebuildKept = true := by
  rw [rebuildKept, h, Bool.true_or, Bool.true_or]

theorem rebuildKept_of_hasActive (h : JobTable.hasActive s.jobs (dedupeKey s.source) = true) :
    s.rebuildKept = true := by
  rw [rebuildKept, h, Bool.or_true, Bool.true_or]

theorem rebuildKept_of_failedSince (h : s.failedSince = true) : s.rebuildKept = true := by
  rw [rebuildKept, h, Bool.or_true]

/-- **Moving rows keeps the rebuild** as long as the rows that fail were claimed in time. -/
theorem rebuildKept_of_rowsMove {ends : Job → Prop} (h : s.rebuildKept = true)
    (hsource : t.source = s.source) (hcache : t.rows.cache = s.rows.cache)
    (hclaimed : ∀ id, s.claimedAt id = some s.source.feedRevision →
      t.claimedAt id = some s.source.feedRevision)
    (hrows : JobTable.RowsMove ends s.jobs t.jobs)
    (hends : ∀ job ∈ s.jobs, ends job →
      s.cacheCurrent = true ∨ s.claimedAt job.id = some s.source.feedRevision) :
    t.rebuildKept = true := by
  have hcurrent : s.cacheCurrent = true → t.rebuildKept = true := fun hc =>
    rebuildKept_of_cacheCurrent (by rw [cacheCurrent, hcache, hsource]; exact hc)
  have hfailed : ∀ job, job.dedupeKey = dedupeKey s.source →
      JobTable.Carries t.jobs job (· = .failed) →
      s.claimedAt job.id = some s.source.feedRevision → t.rebuildKept = true := by
    rintro job hkey ⟨job', hmem, hid, hkey', hstatus⟩ hclaim
    refine rebuildKept_of_failedSince (List.any_eq_true.mpr ⟨job', hmem, ?_⟩)
    rw [hsource]
    simp [hkey', hkey, hstatus, hid, hclaimed _ hclaim]
  simp only [rebuildKept, Bool.or_eq_true] at h
  rcases h with (h | h) | h
  · exact hcurrent h
  · obtain ⟨job, hmem, hkey, hactive⟩ := JobTable.hasActive_iff.mp h
    rcases hrows.active job hmem hactive with ⟨job', hmem', -, hkey', hactive'⟩ | ⟨hend, hcarries⟩
    · refine rebuildKept_of_hasActive (JobTable.hasActive_iff.mpr ⟨job', hmem', ?_, hactive'⟩)
      rw [hkey', hkey, hsource]
    · rcases hends job hmem hend with hc | hclaim
      · exact hcurrent hc
      · exact hfailed job hkey hcarries hclaim
  · obtain ⟨job, hmem, hjob⟩ := List.any_eq_true.mp h
    simp only [Bool.and_eq_true, decide_eq_true_eq] at hjob
    exact hfailed job hjob.1.1 (hrows.failed job hmem hjob.1.2) hjob.2

/-- What is kept is kept by a step that touches neither jobs nor the stored feed. -/
theorem rebuildKept_of_frame (h : s.rebuildKept = true) (hsource : t.source = s.source)
    (hcache : t.rows.cache = s.rows.cache) (hjobs : t.jobs = s.jobs)
    (hclaimed : t.claimedAt = s.claimedAt) : t.rebuildKept = true := by
  have hrows : JobTable.RowsMove (fun _ => False) s.jobs t.jobs := by
    rw [hjobs]
    exact JobTable.RowsMove.refl _ _
  refine rebuildKept_of_rowsMove h hsource hcache ?_ hrows fun _ _ hfalse => hfalse.elim
  rw [hclaimed]
  exact fun _ => id

/-- Rows that nothing ends. -/
theorem rebuildKept_of_noneEnds (h : s.rebuildKept = true) (hsource : t.source = s.source)
    (hcache : t.rows.cache = s.rows.cache)
    (hclaimed : ∀ id, s.claimedAt id = some s.source.feedRevision →
      t.claimedAt id = some s.source.feedRevision)
    (hrows : JobTable.RowsMove (fun _ => False) s.jobs t.jobs) : t.rebuildKept = true :=
  rebuildKept_of_rowsMove h hsource hcache hclaimed hrows fun _ _ hfalse => hfalse.elim

/-- A publication that is not stale leaves the feed current. -/
theorem cacheCurrent_of_publishes (hconsistent : Consistent service s)
    {candidate : FeedCacheCandidate} {rows : FeedRows} {result : FeedCachePublishResult}
    (h : Publishes s.source.feedRevision s.rows candidate rows result)
    (hcurrent : candidate.feedRevision = s.source.feedRevision) :
    rows.cache.any (fun cache => decide (cache.candidate.feedRevision = s.source.feedRevision))
      = true := by
  cases h with
  | published hcache hrevision _ => simp [hcache, hrevision]
  | sourceRevisionChanged hrevision => exact absurd hcurrent hrevision
  | existingCacheNewer hrevision hreplaces =>
    -- The row that was not replaced has at least this revision, and no row has a later one.
    cases hstored : s.rows.cache with
    | none => simp [replaces, hstored] at hreplaces
    | some cache =>
      have hle := (hconsistent.cache cache hstored).1
      simp only [replaces, hstored, Option.all_some, Bool.or_eq_false_iff, decide_eq_false_iff_not]
        at hreplaces
      have heq : cache.candidate.feedRevision = s.source.feedRevision := by omega
      simp [heq]

/-- **The final transaction keeps the rebuild** unless it completes a job with an old candidate. -/
theorem rebuildKept_publish (hconsistent : Consistent service s) {worker : ℕ}
    {completion : Option JobCompletion} {token : FeedBuildLeaseToken}
    {candidate : FeedCacheCandidate} {clock : PublishClock} {now : DateTime}
    (hcurrent : completion ≠ none → candidate.feedRevision = s.source.feedRevision)
    (h : s.rebuildKept = true) :
    (s.publish service worker completion token candidate clock now).rebuildKept = true := by
  rcases publish_cases service s worker completion token candidate clock now with
    ⟨error, heq⟩ | ⟨rows, result, jobs, -, hpublishes, -, hjobs, heq⟩
  · rw [heq]
    exact rebuildKept_of_frame h rfl rfl rfl rfl
  · rw [heq]
    by_cases hrevision : candidate.feedRevision = s.source.feedRevision
    · exact rebuildKept_of_cacheCurrent (cacheCurrent_of_publishes hconsistent hpublishes hrevision)
    · have hnone : completion = none := not_not.mp fun hne => hrevision (hcurrent hne)
      cases hpublishes with
      | published _ hrevision' _ => exact absurd hrevision' hrevision
      | sourceRevisionChanged _ => exact rebuildKept_of_frame h rfl rfl (hjobs hnone) rfl
      | existingCacheNewer hrevision' _ => exact absurd hrevision' hrevision

/-- **What the worker reports keeps the rebuild** if a job that fails was claimed in time. -/
theorem rebuildKept_finish {worker : ℕ} {completion : JobCompletion} {execution : JobExecution}
    {now : DateTime} (hworker : s.workers worker = .finishing completion execution)
    (hexecution : execution ≠ .succeeded) (hontime : s.OnTime (.finish worker now))
    (h : s.rebuildKept = true) {jobs : List Job}
    (hjobs : applyExecution s.jobs completion execution now = some jobs) :
    ({ s with jobs := jobs } : FeedSystem Url).rebuildKept = true := by
  have hfails := hontime.fails
  simp only [failsJob, hworker] at hfails
  cases execution with
  | succeeded => exact absurd rfl hexecution
  | committed =>
    obtain rfl := Option.some.inj hjobs
    exact h
  | deferred resumeAt =>
    exact rebuildKept_of_noneEnds h rfl rfl (fun _ => id) (JobTable.rowsMove_defer _ hjobs)
  | retry retryAt error =>
    refine rebuildKept_of_rowsMove h rfl rfl (fun _ => id) (JobTable.rowsMove_retry hjobs) ?_
    rintro job hmem ⟨hid, hfenced, hspent⟩
    exact hfails job hmem (by simp [hid, hfenced, hspent])
  | failed error =>
    refine rebuildKept_of_rowsMove h rfl rfl (fun _ => id) (JobTable.rowsMove_fail hjobs) ?_
    rintro job hmem ⟨hid, hfenced⟩
    exact hfails job hmem (by simp [hid, hfenced])

/-- No worker is left to complete its job without a publication. -/
def NoBareSuccess (s : FeedSystem Url) : Prop :=
  ∀ worker completion, s.workers worker ≠ .finishing completion .succeeded

theorem Advances.ne_bareSuccess {worker state : Worker Url} (h : Advances service s worker state)
    (completion : JobCompletion) : state ≠ .finishing completion .succeeded := by
  rintro rfl
  cases h with
  | finishing _ hexecution => exact hexecution rfl

theorem NoBareSuccess.effect (h : NoBareSuccess s) (heffect : Effect service s t) :
    NoBareSuccess t := by
  have hadvance : WorkersAdvance service s t → NoBareSuccess t := by
    intro hworkers worker completion heq
    rcases hworkers worker with hsame | hadvances
    · exact h worker completion (hsame ▸ heq)
    · exact hadvances.ne_bareSuccess completion heq
  cases heffect with
  | bump source articles jobs byArchive => exact h
  | frame _ _ _ _ hworkers => exact hadvance hworkers
  | published _ _ _ _ _ _ _ _ hworkers => exact hadvance hworkers

/-- A revision made by a commit that enqueues is kept. -/
def Kept (s : FeedSystem Url) : Prop := s.byArchive = true → s.rebuildKept = true

/-- An update of the job table that may not match. -/
theorem rebuildKept_getD {jobs : Option (List Job)} (h : s.rebuildKept = true)
    (hjobs : ∀ jobs', jobs = some jobs' → ({ s with jobs := jobs' } : FeedSystem Url).rebuildKept = true) :
    ({ s with jobs := jobs.getD s.jobs } : FeedSystem Url).rebuildKept = true := by
  cases jobs with
  | none => exact h
  | some jobs' => exact hjobs jobs' rfl

/-- **A step that is on time keeps the rebuild.** -/
theorem Kept.step (h : Kept s) (hconsistent : Consistent service s) (hbare : NoBareSuccess s)
    {action : FeedAction Url} (hontime : s.OnTime action) : Kept (s.step service action) := by
  cases action with
  | commit articles jobId now =>
    simp only [FeedSystem.step]
    split_ifs
    · exact h
    · split
      · exact h
      · rename_i jobs result henqueue
        exact fun _ => rebuildKept_of_hasActive (JobTable.hasActive_enqueue henqueue)
  | updateSource displayName rssItemLimit =>
    simp only [FeedSystem.step]
    split_ifs
    · exact h
    · exact fun hfalse => by cases hfalse
  | enqueue jobId now =>
    simp only [FeedSystem.step]
    split
    · exact h
    · rename_i jobs result henqueue
      exact fun hby => rebuildKept_of_noneEnds (h hby) rfl rfl (fun _ => id)
        (JobTable.rowsMove_enqueue _ henqueue)
  | claim worker jobId owner token now leaseUntil =>
    simp only [FeedSystem.step]
    split
    · split_ifs
      · exact h
      · split
        · exact h
        · rename_i jobs hclaim
          intro hby
          refine rebuildKept_of_noneEnds (h hby) rfl rfl (fun id hid => ?_)
            (JobTable.rowsMove_claim _ hclaim)
          simp only [setWorker, Function.update_apply]
          split_ifs
          · rfl
          · exact hid
    · exact h
  | acquire worker token now =>
    have hacquire : ∀ completion, Kept (s.acquire service worker completion token now) := by
      intro completion
      unfold FeedSystem.acquire
      split <;> exact fun hby => rebuildKept_of_frame (h hby) rfl rfl rfl rfl
    simp only [FeedSystem.step]
    split
    · exact hacquire none
    · exact hacquire _
    · exact h
  | readSource worker | readArticles worker now | renderFeed worker generatedAt now =>
    simp only [FeedSystem.step]
    split
    · exact fun hby => rebuildKept_of_frame (h hby) rfl rfl rfl rfl
    · exact h
  | publish worker clock now =>
    have hcompletes := hontime.completes
    simp only [FeedSystem.step]
    split
    · rename_i completion token candidate hworker
      have hby : (s.publish service worker completion token candidate clock now).byArchive
          = s.byArchive := by
        rcases publish_cases service s worker completion token candidate clock now with
          ⟨error, heq⟩ | ⟨rows, result, jobs, -, -, -, -, heq⟩ <;> rw [heq] <;> rfl
      intro harchive
      refine rebuildKept_publish hconsistent (fun hsome => ?_) (h (hby ▸ harchive))
      cases completion with
      | none => exact absurd rfl hsome
      | some completion => simpa [completesStale, hworker] using hcompletes
    · exact h
  | fault worker error now | timeout worker error now =>
    simp only [FeedSystem.step]
    split
    · exact fun hby => rebuildKept_of_frame (h hby) rfl rfl rfl rfl
    · exact fun hby => rebuildKept_of_frame (h hby) rfl rfl rfl rfl
    · exact h
  | crash worker => exact fun hby => rebuildKept_of_frame (h hby) rfl rfl rfl rfl
  | finish worker now =>
    simp only [FeedSystem.step]
    split
    · rename_i completion execution hworker
      have hexecution : execution ≠ .succeeded := fun heq => hbare worker completion (heq ▸ hworker)
      intro hby
      have hkept := rebuildKept_getD (h hby) fun jobs hjobs =>
        rebuildKept_finish hworker hexecution hontime (h hby) hjobs
      exact rebuildKept_of_frame hkept rfl rfl rfl rfl
    · exact h
  | heartbeatJob worker now leaseUntil =>
    have hbeat : ∀ completion : JobCompletion, Kept ({ s with
        jobs := (JobTable.heartbeat s.jobs completion.jobId completion.owner completion.token now
          leaseUntil).getD s.jobs } : FeedSystem Url) := by
      intro completion hby
      exact rebuildKept_getD (h hby) fun jobs hjobs =>
        rebuildKept_of_noneEnds (h hby) rfl rfl (fun _ => id) (JobTable.rowsMove_heartbeat _ hjobs)
    simp only [FeedSystem.step]
    split
    · exact hbeat _
    · exact hbeat _
    · exact h
  | heartbeatBuild token now =>
    simp only [FeedSystem.step]
    split
    · exact h
    · exact fun hby => rebuildKept_of_frame (h hby) rfl rfl rfl rfl
  | releaseBuild token now => exact fun hby => rebuildKept_of_frame (h hby) rfl rfl rfl rfl
  | recoverExpired jobId now =>
    intro hby
    refine rebuildKept_getD (h hby) fun jobs hjobs =>
      rebuildKept_of_rowsMove (h hby) rfl rfl (fun _ => id)
        (JobTable.rowsMove_recoverExpired hjobs) ?_
    rintro job hmem ⟨hid, hexpired, hspent⟩
    exact hontime.fails job hmem (by simp [failsJob, hid, hexpired, hspent])

/-! ## Whole runs -/

end FeedSystem

end Werrss
