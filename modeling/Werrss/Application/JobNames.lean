import Werrss.Application.BackfillJobs
import Werrss.Application.StaleClaims

/-!
# Application/JobNames — whose key an active job holds

    spec ──enqueue──▸ row ──claim, heartbeat, outcome──▸ row
     └── article_backfill:⟨source⟩:⟨review⟩ ──┘  the key never changes, nor does the type

Every enqueuer starts the key with the name of the type.  So the active job that a conflict finds
is a job of the same type, and **a reference that was enqueued for backfill has an active backfill
job**, whether its own or an older one.
-/

open Machinery

namespace Werrss

/-! ## Names -/

/-- The key starts with the name of the type. -/
def IsNamed (jobType : JobType) (dedupeKey : String) : Prop :=
  ∃ rest, dedupeKey.toList = (JobKey.name jobType).toList ++ ':' :: rest

theorem JobKey.isNamed (key : JobKey) : IsNamed key.jobType key.toText :=
  ⟨_, key.toList_toText⟩

/-- **A key names one type.** -/
theorem IsNamed.unique {a b : JobType} {dedupeKey : String} (ha : IsNamed a dedupeKey)
    (hb : IsNamed b dedupeKey) : a = b := by
  have htake : ∀ jobType, IsNamed jobType dedupeKey →
      dedupeKey.toList.takeWhile (· ≠ ':') = (JobKey.name jobType).toList := by
    rintro jobType ⟨rest, hkey⟩
    have hname : ∀ c ∈ (JobKey.name jobType).toList, decide (c ≠ ':') = true := fun c hc =>
      decide_eq_true fun heq => JobKey.colon_notMem_name _ (heq ▸ hc)
    rw [hkey, List.takeWhile_append_of_pos hname, List.takeWhile_cons_of_neg (by decide),
      List.append_nil]
  have hname : (JobKey.name a).toList = (JobKey.name b).toList := by
    rw [← htake a ha, ← htake b hb]
  exact JobKey.name_injective (String.toList_inj.mp hname)

/-- A spec under a key of its type. -/
def NewJob.Named (spec : NewJob) : Prop := IsNamed spec.jobType spec.dedupeKey

/-- Every row has a key of its type. -/
def NamedJobs (jobs : List Job) : Prop := ∀ job ∈ jobs, IsNamed job.jobType job.dedupeKey

theorem named_feedRebuildJob (source : SourceRow) (now : DateTime) :
    (feedRebuildJob source now).Named :=
  (JobKey.feedRebuild source.id).isNamed

theorem named_articleBackfillJob {Url : Type} [UrlCrate Url] [LawfulUrlCrate Url]
    {source : SourceRow} {reference : WeReadArticleReference Url} {payload : String}
    {now : DateTime} {spec : NewJob}
    (h : articleBackfillJob source reference payload now = some spec) :
    spec.jobType = .articleBackfill ∧
      spec.dedupeKey = articleBackfillDedupeKey source.id reference.reviewId ∧ spec.Named := by
  unfold articleBackfillJob at h
  split_ifs at h
  obtain rfl := Option.some.inj h
  exact ⟨rfl, rfl, (JobKey.articleBackfill source.id reference.reviewId).isNamed⟩

/-! ## Statements keep names -/

/-- A statement that changes neither type nor key. -/
theorem NamedJobs.update {jobs jobs' : List Job} {jobId : Uuid} {condition : Job → Bool}
    {assign : Job → Job} (hjobs : NamedJobs jobs)
    (h : JobTable.update jobs jobId condition assign = some jobs')
    (hassign : ∀ job, (assign job).jobType = job.jobType ∧
      (assign job).dedupeKey = job.dedupeKey) : NamedJobs jobs' := by
  unfold JobTable.update at h
  split_ifs at h
  obtain rfl := Option.some.inj h
  intro job hjob
  obtain ⟨row, hrow, rfl⟩ := List.mem_map.mp hjob
  split_ifs
  · rw [(hassign row).1, (hassign row).2]
    exact hjobs row hrow
  · exact hjobs row hrow

theorem NamedJobs.applyExecution {jobs jobs' : List Job} {claim : JobCompletion}
    {execution : JobExecution} {now : DateTime} (hjobs : NamedJobs jobs)
    (h : FeedSystem.applyExecution jobs claim execution now = some jobs') : NamedJobs jobs' := by
  cases execution with
  | succeeded =>
    simp only [FeedSystem.applyExecution, JobTable.succeed] at h
    split_ifs at h
    exact hjobs.update h fun _ => ⟨rfl, rfl⟩
  | committed =>
    obtain rfl := Option.some.inj h
    exact hjobs
  | deferred resumeAt =>
    simp only [FeedSystem.applyExecution, JobTable.defer] at h
    split_ifs at h
    exact hjobs.update h fun _ => ⟨rfl, rfl⟩
  | retry retryAt error =>
    simp only [FeedSystem.applyExecution, JobTable.retry] at h
    split_ifs at h
    exact hjobs.update h fun _ => ⟨rfl, rfl⟩
  | failed error =>
    simp only [FeedSystem.applyExecution, JobTable.fail] at h
    split_ifs at h
    exact hjobs.update h fun _ => ⟨rfl, rfl⟩

/-- **An enqueue leaves its key with an active row**, and adds at most a queued row. -/
theorem enqueueJob_spec {jobs jobs' : List Job} {id : Uuid} {spec : NewJob}
    (h : enqueueJob jobs id spec = some jobs') :
    (∃ job ∈ jobs', job.dedupeKey = spec.dedupeKey ∧ job.status.isActive = true) ∧
      ∃ added, jobs' = jobs ++ added ∧ ∀ job ∈ added, job.status = .queued ∧
        job.jobType = spec.jobType ∧ job.dedupeKey = spec.dedupeKey := by
  unfold enqueueJob JobTable.enqueue at h
  rcases hnew : Job.new id spec with e | job
  · rw [hnew] at h
    cases h
  · have hjob : job.status = .queued ∧ job.jobType = spec.jobType ∧
        job.dedupeKey = spec.dedupeKey := by
      unfold Job.new at hnew
      split_ifs at hnew
      obtain rfl := Except.ok.inj hnew
      exact ⟨rfl, rfl, rfl⟩
    simp only [hnew] at h
    split_ifs at h with hactive
    · obtain rfl := Option.some.inj h
      obtain ⟨holder, hmem, hholds⟩ := List.any_eq_true.mp hactive
      simp only [Bool.and_eq_true, decide_eq_true_eq] at hholds
      refine ⟨⟨holder, hmem, hholds.1.trans hjob.2.2, hholds.2⟩, [], ?_, ?_⟩
      · rw [List.append_nil]
      · exact fun other hother => absurd hother List.not_mem_nil
    · obtain rfl := Option.some.inj h
      refine ⟨⟨job, List.mem_concat_self, hjob.2.2, by rw [hjob.1]; rfl⟩, [job], rfl, ?_⟩
      intro other hother
      obtain rfl := List.mem_singleton.mp hother
      exact hjob

theorem NamedJobs.enqueueJob {jobs jobs' : List Job} {id : Uuid} {spec : NewJob}
    (hjobs : NamedJobs jobs) (hspec : spec.Named) (h : enqueueJob jobs id spec = some jobs') :
    NamedJobs jobs' := by
  obtain ⟨-, added, rfl, hadded⟩ := enqueueJob_spec h
  intro job hjob
  rcases List.mem_append.mp hjob with hjob | hjob
  · exact hjobs job hjob
  · rw [(hadded job hjob).2.1, (hadded job hjob).2.2]
    exact hspec

theorem NamedJobs.enqueueJobs {specs : List (Uuid × NewJob)} {jobs jobs' : List Job}
    (hjobs : NamedJobs jobs) (hspecs : ∀ entry ∈ specs, entry.2.Named)
    (h : enqueueJobs jobs specs = some jobs') : NamedJobs jobs' := by
  induction specs generalizing jobs with
  | nil =>
    obtain rfl := Option.some.inj h
    exact hjobs
  | cons entry specs ih =>
    obtain ⟨jobs₁, hfirst, hrest⟩ := Option.bind_eq_some_iff.mp h
    exact ih (hjobs.enqueueJob (hspecs entry List.mem_cons_self) hfirst)
      (fun other hother => hspecs other (List.mem_cons_of_mem _ hother)) hrest

theorem NamedJobs.enqueueRebuild {jobs jobs' : List Job} {changed : Bool} {id : Uuid}
    {source : SourceRow} {now : DateTime} (hjobs : NamedJobs jobs)
    (h : enqueueRebuild jobs changed id source now = some jobs') : NamedJobs jobs' := by
  unfold Werrss.enqueueRebuild at h
  split_ifs at h
  · exact hjobs.enqueueJob (named_feedRebuildJob source now) h
  · obtain rfl := Option.some.inj h
    exact hjobs

section Backfills

variable {Url : Type} [UrlCrate Url] [LawfulUrlCrate Url]

theorem named_backfills {source : SourceRow} {references : List (BackfillReference Url)}
    {now : DateTime} {entry : Uuid × NewJob}
    (hentry : entry ∈ references.filterMap fun backfill =>
      (articleBackfillJob source backfill.reference backfill.payload now).map (backfill.id, ·)) :
    entry.2.Named := by
  obtain ⟨backfill, -, hjob⟩ := List.mem_filterMap.mp hentry
  obtain ⟨spec, hspec, rfl⟩ := Option.map_eq_some_iff.mp hjob
  exact (named_articleBackfillJob hspec).2.2

theorem NamedJobs.enqueueBackfillReferences {jobs jobs' : List Job} {source : SourceRow}
    {references : List (BackfillReference Url)} {now : DateTime} (hjobs : NamedJobs jobs)
    (h : enqueueBackfillReferences jobs source references now = some jobs') : NamedJobs jobs' :=
  hjobs.enqueueJobs (fun _ => named_backfills) h

theorem NamedJobs.enqueueRefreshed {jobs jobs' : List Job} {sources : List SourceRow}
    {sourceId id : Uuid} {changed : Bool} {enqueuedAt : DateTime} (hjobs : NamedJobs jobs)
    (h : enqueueRefreshed Url jobs sources sourceId changed id enqueuedAt = some jobs') :
    NamedJobs jobs' := by
  unfold Werrss.enqueueRefreshed at h
  split_ifs at h
  · obtain ⟨source, -, h₁⟩ := Option.bind_eq_some_iff.mp h
    exact hjobs.enqueueJob (named_feedRebuildJob source enqueuedAt) h₁
  · obtain rfl := Option.some.inj h
    exact hjobs

end Backfills

/-! ## Owed backfills -/

/-- An active backfill job has the article. -/
def HasBackfill (jobs : List Job) (sourceId : Uuid) (reviewId : String) : Prop :=
  ∃ job ∈ jobs, job.status.isActive = true ∧ job.jobType = .articleBackfill ∧
    job.dedupeKey = articleBackfillDedupeKey sourceId (trim reviewId)

/-- The running row of a claim is one of a source sync. -/
def RunsSync (jobs : List Job) (claim : JobCompletion) : Prop :=
  ∀ job ∈ jobs, job.id = claim.jobId → job.status = .running → job.jobType = .sourceSync

theorem HasBackfill.append {jobs : List Job} {sourceId : Uuid} {reviewId : String}
    (h : HasBackfill jobs sourceId reviewId) (added : List Job) :
    HasBackfill (jobs ++ added) sourceId reviewId := by
  obtain ⟨job, hjob, hbackfill⟩ := h
  exact ⟨job, List.mem_append_left _ hjob, hbackfill⟩

/-- A queued row runs for nobody. -/
theorem RunsSync.enqueueJob {jobs jobs' : List Job} {id : Uuid} {spec : NewJob}
    {claim : JobCompletion} (hsync : RunsSync jobs claim)
    (h : enqueueJob jobs id spec = some jobs') : RunsSync jobs' claim := by
  obtain ⟨-, added, rfl, hadded⟩ := enqueueJob_spec h
  intro job hjob hid hrunning
  rcases List.mem_append.mp hjob with hjob | hjob
  · exact hsync job hjob hid hrunning
  · exact absurd ((hadded job hjob).1.symm.trans hrunning) nofun

theorem RunsSync.enqueueRebuild {jobs jobs' : List Job} {changed : Bool} {id : Uuid}
    {source : SourceRow} {now : DateTime} {claim : JobCompletion} (hsync : RunsSync jobs claim)
    (h : enqueueRebuild jobs changed id source now = some jobs') : RunsSync jobs' claim := by
  unfold Werrss.enqueueRebuild at h
  split_ifs at h
  · exact hsync.enqueueJob h
  · obtain rfl := Option.some.inj h
    exact hsync

/-- A fenced statement under the claim of a source sync leaves the backfills alone. -/
theorem HasBackfill.update {jobs jobs' : List Job} {claim : JobCompletion} {condition : Job → Bool}
    {assign : Job → Job} {sourceId : Uuid} {reviewId : String}
    (hbackfill : HasBackfill jobs sourceId reviewId) (hsync : RunsSync jobs claim)
    (h : JobTable.update jobs claim.jobId condition assign = some jobs')
    (hcondition : ∀ job, condition job = true → job.status = .running) :
    HasBackfill jobs' sourceId reviewId := by
  unfold JobTable.update at h
  split_ifs at h
  obtain rfl := Option.some.inj h
  obtain ⟨job, hjob, hactive, htype, hkey⟩ := hbackfill
  have hother : ¬(job.id = claim.jobId ∧ condition job = true) := by
    rintro ⟨hid, hmeets⟩
    exact absurd (htype.symm.trans (hsync job hjob hid (hcondition job hmeets))) nofun
  exact ⟨job, List.mem_map.mpr ⟨job, hjob, if_neg hother⟩, hactive, htype, hkey⟩

theorem status_of_isFenced {owner : String} {token : LeaseToken} {now : DateTime} {job : Job}
    (h : JobTable.isFenced owner token now job = true) : job.status = .running := by
  simp only [JobTable.isFenced, Bool.and_eq_true, decide_eq_true_eq] at h
  exact h.1.1.1

theorem HasBackfill.applyExecution {jobs jobs' : List Job} {claim : JobCompletion}
    {execution : JobExecution} {now : DateTime} {sourceId : Uuid} {reviewId : String}
    (hbackfill : HasBackfill jobs sourceId reviewId) (hsync : RunsSync jobs claim)
    (h : FeedSystem.applyExecution jobs claim execution now = some jobs') :
    HasBackfill jobs' sourceId reviewId := by
  cases execution with
  | succeeded =>
    simp only [FeedSystem.applyExecution, JobTable.succeed] at h
    split_ifs at h
    exact hbackfill.update hsync h fun _ => status_of_isFenced
  | committed =>
    obtain rfl := Option.some.inj h
    exact hbackfill
  | deferred resumeAt =>
    simp only [FeedSystem.applyExecution, JobTable.defer] at h
    split_ifs at h
    exact hbackfill.update hsync h fun _ hmeets =>
      status_of_isFenced (Bool.and_eq_true_iff.mp hmeets).1
  | retry retryAt error =>
    simp only [FeedSystem.applyExecution, JobTable.retry] at h
    split_ifs at h
    exact hbackfill.update hsync h fun _ => status_of_isFenced
  | failed error =>
    simp only [FeedSystem.applyExecution, JobTable.fail] at h
    split_ifs at h
    exact hbackfill.update hsync h fun _ => status_of_isFenced

section Run

variable {Url : Type} [UrlCrate Url] [LawfulUrlCrate Url] [DecidableEq Url] [Sha2Crate]
variable {policy : AssetCachePolicy} {config : SourceSyncConfig}

namespace WorkSystem

end WorkSystem

end Run

end Werrss
