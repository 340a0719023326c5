import Mathlib.Data.List.Pairwise
import Werrss.Application.PassLocks

/-!
# Application/ScheduledJobs — the jobs of the sources, and the instants they are due at

    free ── insert, enqueue ──▸ active: due at the clock, or waiting ── finish ──▸ free, or waiting
                                                                     due later      due at the retry

**A key is held by one job.**  While it is, its source is due by now or the job waits until it is;
so the holder of a token never samples an instant before that, and its final transaction only ever
moves the due instant forward.
-/

open Machinery

namespace Werrss

/-! ## Instants -/

theorem timestamptz_mono {t u : DateTime} (h : t ≤ u) : timestamptz t ≤ timestamptz u := by
  have hmono : ∀ a b epoch : ℤ, a ≤ b →
      epoch + (a - epoch).tdiv 1000 * 1000 ≤ epoch + (b - epoch).tdiv 1000 * 1000 := by
    intro a b epoch h
    have hdiv : (a - epoch).tdiv 1000 ≤ (b - epoch).tdiv 1000 :=
      Int.tdiv_le_tdiv (by decide) (by omega)
    omega
  exact hmono t u pgEpoch h

theorem dvd_timestamptz (t : DateTime) : (1000 : ℤ) ∣ timestamptz t :=
  Int.dvd_add ⟨946684800000000, rfl⟩ (Int.dvd_mul_left ..)

/-- What is added to whole microseconds does not get lost before them. -/
theorem le_timestamptz_add {t : DateTime} {d : Duration} (hwhole : (1000 : ℤ) ∣ t) (hd : 0 < d) :
    t ≤ timestamptz (t + d) := by
  have hle : t ≤ t + d := Int.le_add_of_nonneg_right (Int.le_of_lt hd)
  have hmono := timestamptz_mono hle
  rwa [timestamptz_of_dvd hwhole] at hmono

/-! ## The rows of jobs -/

namespace JobRow

/-- One of the active statuses. -/
def IsActive (row : JobRow) : Prop := row.status ∈ activeStatuses

/-- Two rows of different ids that do not both hold one key. -/
def Apart (a b : JobRow) : Prop :=
  a.id ≠ b.id ∧ ¬(a.IsActive ∧ b.IsActive ∧ a.dedupeKey = b.dedupeKey)

instance : Std.Symm Apart where
  symm _ _ h := ⟨Ne.symm h.1, fun ⟨hb, ha, hkey⟩ => h.2 ⟨ha, hb, hkey.symm⟩⟩

/-- Two of the rows that hold one key are one row. -/
theorem eq_of_apart {rows : List JobRow} (h : rows.Pairwise Apart) {a b : JobRow} (ha : a ∈ rows)
    (hb : b ∈ rows) (hactive : a.IsActive) (hactive' : b.IsActive)
    (hkey : a.dedupeKey = b.dedupeKey) : a = b := by
  by_contra hne
  exact (h.forall ha hb hne).2 ⟨hactive, hactive', hkey⟩

theorem eq_of_id {rows : List JobRow} (h : rows.Pairwise Apart) {a b : JobRow} (ha : a ∈ rows)
    (hb : b ∈ rows) (hid : a.id = b.id) : a = b := by
  by_contra hne
  exact (h.forall ha hb hne).1 hid

/-- A new row of a new id under a free key. -/
theorem apart_append {rows : List JobRow} (h : rows.Pairwise Apart) {row : JobRow}
    (hid : row.id ∉ rows.map JobRow.id)
    (hfree : ∀ other ∈ rows, other.IsActive → other.dedupeKey ≠ row.dedupeKey) :
    (rows ++ [row]).Pairwise Apart := by
  refine List.pairwise_append.mpr ⟨h, List.pairwise_singleton .., fun other hother b hb => ?_⟩
  obtain rfl := List.mem_singleton.mp hb
  refine ⟨fun heq => hid ?_, fun ⟨hactive, _, hkey⟩ => hfree other hother hactive hkey⟩
  rw [← heq]
  exact List.mem_map_of_mem hother

/-- A statement that keeps what a job is, and reopens none. -/
structure Keeps (row row' : JobRow) : Prop where
  id : row'.id = row.id
  jobType : row'.jobType = row.jobType
  sourceId : row'.sourceId = row.sourceId
  dedupeKey : row'.dedupeKey = row.dedupeKey
  active : row'.IsActive → row.IsActive

theorem Keeps.refl (row : JobRow) : Keeps row row := ⟨rfl, rfl, rfl, rfl, fun h => h⟩

theorem Keeps.apart {a a' b b' : JobRow} (ha : Keeps a a') (hb : Keeps b b') (h : Apart a b) :
    Apart a' b' := by
  refine ⟨?_, fun ⟨hactive, hactive', hkey⟩ => h.2 ⟨ha.active hactive, hb.active hactive', ?_⟩⟩
  · rw [ha.id, hb.id]
    exact h.1
  · rw [← ha.dedupeKey, ← hb.dedupeKey]
    exact hkey

theorem apart_map {rows : List JobRow} {f : JobRow → JobRow} (h : rows.Pairwise Apart)
    (hf : ∀ row ∈ rows, Keeps row (f row)) : (rows.map f).Pairwise Apart := by
  refine List.pairwise_map.mpr (h.imp_of_mem ?_)
  intro a b ha hb hab
  exact (hf a ha).apart (hf b hb) hab

theorem holds_iff {key : String} {row : JobRow} :
    row.holds key = true ↔ row.dedupeKey = key ∧ row.IsActive := by
  simp only [holds, Bool.and_eq_true, decide_eq_true_eq, IsActive]

end JobRow

namespace Scheduler

open JobRow

/-- A job of a source, under the key of that source. -/
def IsSyncJob (job : JobRow) : Prop :=
  job.jobType = "source_sync" ∧
    ∃ sourceId, job.sourceId = some sourceId ∧ job.dedupeKey = sourceSyncKey sourceId

theorem IsSyncJob.keeps {job job' : JobRow} (h : IsSyncJob job) (hkeeps : Keeps job job') :
    IsSyncJob job' := by
  obtain ⟨htype, sourceId, hsource, hkey⟩ := h
  exact ⟨hkeeps.jobType.trans htype, sourceId, hkeeps.sourceId.trans hsource,
    hkeeps.dedupeKey.trans hkey⟩

/-- Two jobs of one source have one key. -/
theorem IsSyncJob.sameKey {a b : JobRow} (ha : IsSyncJob a) (hb : IsSyncJob b)
    (h : a.sourceId = b.sourceId) : a.dedupeKey = b.dedupeKey := by
  obtain ⟨-, σ, hσ, hkey⟩ := ha
  obtain ⟨-, τ, hτ, hkey'⟩ := hb
  obtain rfl : σ = τ := Option.some.inj (hσ.symm.trans (h.trans hτ))
  exact hkey.trans hkey'.symm

/-! ## Claims and outcomes -/

/-- **A claim takes one waiting job that is due.** -/
theorem commit_claimNext (rows : List JobRow) (owner : String) (now : DateTime)
    (leaseFor : Duration) (allowedJobTypes : List JobType) (draw : LeaseToken) :
    (JobTransaction.claimNext owner now leaseFor allowedJobTypes draw).commit rows = rows ∨
    ∃ candidate ∈ rows, ∃ leaseUntil, JobRow.isDue now allowedJobTypes candidate = true ∧
      (JobTransaction.claimNext owner now leaseFor allowedJobTypes draw).commit rows
        = rows.map fun row =>
          if row.id = candidate.id then claimed owner draw now leaseUntil row else row := by
  simp only [JobTransaction.commit]
  split
  · rename_i answer rows' hclaim
    obtain ⟨_, _, h₁⟩ := bind_eq_ok hclaim
    obtain ⟨_, _, h₂⟩ := bind_eq_ok h₁
    obtain ⟨bound, hbound, h₃⟩ := bind_eq_ok h₂
    obtain rfl := bindText_eq_ok hbound
    split at h₃
    · exact .inl (congrArg Prod.snd (Except.ok.inj h₃)).symm
    · rename_i candidate rest hfirst
      obtain ⟨leaseUntil, _, h₄⟩ := bind_eq_ok h₃
      obtain ⟨-, rfl⟩ := Prod.mk.inj (Except.ok.inj h₄)
      have hmem : candidate ∈ rows.filter (JobRow.isDue now allowedJobTypes) :=
        mem_of_mem_firstBy _ (hfirst ▸ List.mem_cons_self)
      obtain ⟨hrows, hdue⟩ := List.mem_filter.mp hmem
      exact .inr ⟨candidate, hrows, leaseUntil, hdue, rfl⟩
  · exact .inl rfl

/-- **What the statement of a final transaction leaves of a job**: its lease is gone, and if it is
still active it waits for the retry. -/
structure SyncFinish.Leaves (config : SourceSyncConfig) (finish : SyncFinish) (now : DateTime)
    (row row' : JobRow) : Prop where
  fenced : row.isFenced finish.jobId finish.owner finish.token now = true
  keeps : Keeps row row'
  token : row'.leaseToken = none
  waits : row'.IsActive → row'.status ≠ "running" ∧
    ∃ error retryAt, finish.result = .failure .retryableFailure error ∧
      DateTime.checkedAddSigned finish.run.finishedAt config.retryAfter = some retryAt ∧
      row'.runAfter = timestamptz retryAt

theorem not_active_succeeded {row : JobRow} (h : row.status = "succeeded") : ¬ row.IsActive := by
  unfold IsActive
  rw [h]
  decide

theorem not_active_failed {row : JobRow} (h : row.status = "failed") : ¬ row.IsActive := by
  unfold IsActive
  rw [h]
  decide

theorem leaves_succeed {config : SourceSyncConfig} {finish : SyncFinish} {now : DateTime}
    {row row' : JobRow}
    (h : row.succeed finish.jobId finish.owner finish.token now = .ok (some row')) :
    finish.Leaves config now row row' := by
  have hfenced := succeed_changes h
  obtain ⟨_, _, h₁⟩ := bind_eq_ok h
  obtain ⟨_, _, h₂⟩ := bind_eq_ok h₁
  split_ifs at h₂
  · obtain rfl := Option.some.inj (Except.ok.inj h₂)
    exact ⟨hfenced, ⟨rfl, rfl, rfl, rfl, fun h => absurd h (not_active_succeeded rfl)⟩, rfl,
      fun h => absurd h (not_active_succeeded rfl)⟩
  · exact nomatch h₂

theorem leaves_fail {config : SourceSyncConfig} {finish : SyncFinish} {now : DateTime}
    {row row' : JobRow} {error : String}
    (h : row.fail finish.jobId finish.owner finish.token now error = .ok (some row')) :
    finish.Leaves config now row row' := by
  have hfenced := fail_changes h
  obtain ⟨_, _, h₁⟩ := bind_eq_ok h
  obtain ⟨_, _, h₂⟩ := bind_eq_ok h₁
  obtain ⟨_, _, h₃⟩ := bind_eq_ok h₂
  obtain ⟨_, _, h₄⟩ := bind_eq_ok h₃
  split_ifs at h₄
  · obtain rfl := Option.some.inj (Except.ok.inj h₄)
    exact ⟨hfenced, ⟨rfl, rfl, rfl, rfl, fun h => absurd h (not_active_failed rfl)⟩, rfl,
      fun h => absurd h (not_active_failed rfl)⟩
  · exact nomatch h₄

theorem bindTimestamptz_eq_ok {t t' : DateTime} (h : bindTimestamptz t = .ok t') :
    t' = timestamptz t := by
  unfold bindTimestamptz at h
  split_ifs at h
  · exact (Except.ok.inj h).symm

theorem leaves_retry {config : SourceSyncConfig} {finish : SyncFinish} {now retryAt : DateTime}
    {row row' : JobRow} {error : String}
    (hresult : finish.result = .failure .retryableFailure error)
    (hretry : DateTime.checkedAddSigned finish.run.finishedAt config.retryAfter = some retryAt)
    (h : row.retry finish.jobId finish.owner finish.token now retryAt error = .ok (some row')) :
    finish.Leaves config now row row' := by
  have hfenced := (retry_changes h).1
  obtain ⟨_, _, h₁⟩ := bind_eq_ok h
  obtain ⟨_, _, h₂⟩ := bind_eq_ok h₁
  obtain ⟨_, howner, h₃⟩ := bind_eq_ok h₂
  obtain ⟨bound, hbound, h₄⟩ := bind_eq_ok h₃
  obtain ⟨_, _, h₅⟩ := bind_eq_ok h₄
  rw [bindText_eq_ok howner, if_pos hfenced] at h₅
  obtain rfl := Option.some.inj (Except.ok.inj h₅)
  refine ⟨hfenced, ⟨rfl, rfl, rfl, rfl, fun _ => status_of_isFenced hfenced⟩, rfl, fun _ => ?_⟩
  refine ⟨?_, error, retryAt, hresult, hretry, bindTimestamptz_eq_ok hbound⟩
  show (if row.isSpent = true then "failed" else "retry_wait") ≠ "running"
  split_ifs
  · decide
  · decide

theorem SyncFinish.leaves {config : SourceSyncConfig} {finish : SyncFinish} {now : DateTime}
    {row row' : JobRow} (h : finish.job config now row = .ok (some row')) :
    finish.Leaves config now row row' := by
  unfold SyncFinish.job at h
  split at h
  · exact leaves_succeed h
  · rename_i error hresult
    split at h
    · exact nomatch h
    · rename_i retryAt hretry
      exact leaves_retry hresult hretry h
  · exact leaves_fail h

/-- A job is as it was, or as the statement leaves it. -/
theorem SyncFinish.left_cases (config : SourceSyncConfig) (finish : SyncFinish) (now : DateTime)
    (row : JobRow) : JobTransaction.left row (finish.job config now row) = row ∨
      finish.Leaves config now row (JobTransaction.left row (finish.job config now row)) := by
  match hjob : finish.job config now row with
  | .ok (some row') => exact .inr (finish.leaves hjob)
  | .ok none => exact .inl rfl
  | .error _ => exact .inl rfl

theorem SyncFinish.keeps_left (config : SourceSyncConfig) (finish : SyncFinish) (now : DateTime)
    (row : JobRow) : Keeps row (JobTransaction.left row (finish.job config now row)) := by
  rcases finish.left_cases config now row with h | h
  · rw [h]
    exact .refl row
  · exact h.keeps

namespace SchedulingState

variable {s s' : SchedulingState}

/-- The committed jobs, and those a pass has inserted. -/
def allJobs (s : SchedulingState) : List JobRow := s.jobs ++ s.pending.map (·.job)

/-- The source of this job is due by now, or the job waits until it is. -/
def DueOrWaiting (s : SchedulingState) (job : JobRow) : Prop :=
  ∀ sourceId row, job.sourceId = some sourceId → findSource s.sources sourceId = some row →
    row.nextFetchAt ≤ s.clock ∨ (job.status ≠ "running" ∧ row.nextFetchAt ≤ job.runAfter)

/-- The source of this job was due at that instant. -/
def DueBy (s : SchedulingState) (job : JobRow) (t : DateTime) : Prop :=
  ∀ sourceId row, job.sourceId = some sourceId → findSource s.sources sourceId = some row →
    row.nextFetchAt ≤ t

/-- **The jobs and the due instants of their sources.** -/
structure JobInv (s : SchedulingState) : Prop where
  jobs : ∀ job ∈ s.allJobs, IsSyncJob job
  apart : s.allJobs.Pairwise Apart
  tokens : ∀ job ∈ s.jobs, ∀ token, job.leaseToken = some token →
    job.status = "running" ∧ token ∈ s.issued
  scheduled : ∀ job ∈ s.jobs, job.IsActive → s.DueOrWaiting job
  samples : ∀ x ∈ s.samples, x.1 ∈ s.issued ∧ (1000 : ℤ) ∣ x.2 ∧
    ∀ job ∈ s.jobs, job.leaseToken = some x.1 → s.DueBy job x.2
  clock : (1000 : ℤ) ∣ s.clock
  instants : ∀ sourceId row, findSource s.sources sourceId = some row →
    (1000 : ℤ) ∣ row.nextFetchAt

theorem jobInv_start (sources : List SourceRow) (clock : DateTime) :
    (start sources clock).JobInv where
  jobs _ h := nomatch h
  apart := .nil
  tokens _ h := nomatch h
  scheduled _ h := nomatch h
  samples _ h := nomatch h
  clock := dvd_timestamptz clock
  instants sourceId row h := by
    have hstored := @Rows.get_map Uuid SourceRow _ SourceRow.id stored (fun _ => rfl) sources
      sourceId
    obtain ⟨_, -, rfl⟩ := Option.map_eq_some_iff.mp (hstored.symm.trans h)
    exact dvd_timestamptz _

theorem mem_allJobs {job : JobRow} (h : job ∈ s.jobs) : job ∈ s.allJobs :=
  List.mem_append_left _ h

theorem JobInv.apartJobs (h : s.JobInv) : s.jobs.Pairwise Apart :=
  (List.pairwise_append.mp h.apart).1

/-- **The frame of the jobs**: a change of passes and locks that may drop what is pending. -/
theorem JobInv.frame (h : s.JobInv) (hsources : s'.sources = s.sources) (hjobs : s'.jobs = s.jobs)
    (hclock : s'.clock = s.clock) (hissued : s'.issued = s.issued)
    (hsamples : s'.samples = s.samples) (hpending : s'.pending.Sublist s.pending) : s'.JobInv := by
  have hall : s'.allJobs.Sublist s.allJobs := by
    unfold allJobs
    rw [hjobs]
    exact (List.Sublist.refl _).append (hpending.map _)
  constructor
  · exact fun job hjob => h.jobs job (hall.subset hjob)
  · exact h.apart.sublist hall
  · rw [hjobs, hissued]
    exact h.tokens
  · unfold DueOrWaiting
    rw [hjobs, hclock, hsources]
    exact h.scheduled
  · unfold DueBy
    rw [hjobs, hissued, hsamples, hsources]
    exact h.samples
  · rw [hclock]
    exact h.clock
  · rw [hsources]
    exact h.instants

/-! ## Time, and what is sampled -/

theorem JobInv.tick (h : s.JobInv) (elapsed : ℕ) :
    JobInv { s with clock := s.clock + elapsed * 1000 } := by
  have hclock : s.clock ≤ s.clock + elapsed * 1000 :=
    Int.le_add_of_nonneg_right (Int.mul_nonneg (Int.natCast_nonneg _) (by decide))
  refine ⟨h.jobs, h.apart, h.tokens, fun job hjob hactive sourceId row hsource hrow => ?_,
    h.samples, Int.dvd_add h.clock (Int.dvd_mul_left ..), h.instants⟩
  rcases h.scheduled job hjob hactive sourceId row hsource hrow with hdue | hwaits
  · exact .inl (Int.le_trans hdue hclock)
  · exact .inr hwaits

/-- A job under a lease is running, so its source is due. -/
theorem JobInv.dueBy_clock (h : s.JobInv) {job : JobRow} (hjob : job ∈ s.jobs) {token : Uuid}
    (htoken : job.leaseToken = some token) : s.DueBy job s.clock := by
  have hrunning := (h.tokens job hjob token htoken).1
  have hactive : job.IsActive := by
    unfold IsActive
    rw [hrunning]
    decide
  intro sourceId row hsource hrow
  rcases h.scheduled job hjob hactive sourceId row hsource hrow with hdue | hwaits
  · exact hdue
  · exact absurd hrunning hwaits.1

theorem JobInv.sample (h : s.JobInv) {token : LeaseToken}
    (hheld : s.jobs.any (fun row => decide (row.leaseToken = some token.uuid)) = true) :
    JobInv { s with samples := (token.uuid, s.clock) :: s.samples } := by
  obtain ⟨holder, hmem, hholder⟩ := List.any_eq_true.mp hheld
  have hissued := (h.tokens holder hmem token.uuid (of_decide_eq_true hholder)).2
  refine ⟨h.jobs, h.apart, h.tokens, h.scheduled, fun x hx => ?_, h.clock, h.instants⟩
  rcases List.mem_cons.mp hx with rfl | hx
  · exact ⟨hissued, h.clock, fun job hjob htoken => h.dueBy_clock hjob htoken⟩
  · exact h.samples x hx

/-! ## New jobs -/

/-- **A new job under a free key**, its source due or waited for. -/
theorem JobInv.add (h : s.JobInv) {job : JobRow} (hsync : IsSyncJob job)
    (hid : job.id ∉ s.allJobs.map JobRow.id)
    (hfree : ∀ other ∈ s.allJobs, other.IsActive → other.dedupeKey ≠ job.dedupeKey)
    (htoken : job.leaseToken = none) (hdue : s.DueOrWaiting job) :
    JobInv { s with jobs := s.jobs ++ [job] } := by
  have hperm : ((s.jobs ++ [job]) ++ s.pending.map (·.job)).Perm (s.allJobs ++ [job]) := by
    unfold allJobs
    rw [List.append_assoc, List.append_assoc]
    exact List.perm_append_comm.append_left s.jobs
  have hold : ∀ {P : JobRow → Prop}, (∀ other ∈ s.jobs, P other) → P job →
      ∀ other ∈ s.jobs ++ [job], P other := by
    intro P hjobs hnew other hother
    rcases List.mem_append.mp hother with hother | hother
    · exact hjobs other hother
    · rw [List.mem_singleton.mp hother]
      exact hnew
  constructor
  · intro other hother
    rcases List.mem_append.mp (hperm.mem_iff.mp hother) with hother | hother
    · exact h.jobs other hother
    · rw [List.mem_singleton.mp hother]
      exact hsync
  · exact (hperm.pairwise_iff (Std.Symm.symm _ _)).mpr (apart_append h.apart hid hfree)
  · refine hold h.tokens fun token heq => ?_
    rw [htoken] at heq
    exact nomatch heq
  · exact hold h.scheduled fun _ => hdue
  · intro x hx
    obtain ⟨hissued, hwhole, hdueBy⟩ := h.samples x hx
    refine ⟨hissued, hwhole, hold hdueBy fun heq => ?_⟩
    rw [htoken] at heq
    exact nomatch heq
  · exact h.clock
  · exact h.instants

/-- Nobody holds a key that is not taken. -/
theorem free_of_keyTaken {key : String} (h : ¬ s.keyTaken key = true) :
    ∀ other ∈ s.allJobs, other.IsActive → other.dedupeKey ≠ key := by
  intro other hother hactive hkey
  refine h ?_
  have hholds : other.holds key = true := holds_iff.mpr ⟨hkey, hactive⟩
  rw [keyTaken, Bool.or_eq_true, List.any_eq_true, List.any_eq_true]
  rcases List.mem_append.mp hother with hother | hother
  · exact .inl ⟨other, hother, hholds⟩
  · obtain ⟨w, hw, rfl⟩ := List.mem_map.mp hother
    exact .inr ⟨w, hw, hholds⟩

theorem fresh_of_jobIdTaken {jobId : Uuid} (h : ¬ s.jobIdTaken jobId = true) :
    jobId ∉ s.allJobs.map JobRow.id := by
  intro hmem
  refine h ?_
  rw [jobIdTaken, Bool.or_eq_true, decide_eq_true_eq, decide_eq_true_eq]
  rw [allJobs, List.map_append, List.map_map, List.mem_append] at hmem
  exact hmem

theorem isSyncJob_scheduledJob (source : SourceRow) (now : DateTime) (jobId : Uuid) :
    IsSyncJob (scheduledJob source now jobId) := ⟨rfl, source.id, rfl, rfl⟩

/-- An insertion that goes in. -/
theorem JobInv.insert (h : s.JobInv) {id : ℕ} {source : SourceRow} {jobId : Uuid} (now : DateTime)
    (hfree : ¬ s.keyTaken (sourceSyncKey source.id) = true)
    (hfresh : ¬ s.jobIdTaken jobId = true) :
    JobInv { s with pending := s.pending ++ [⟨id, source, scheduledJob source now jobId⟩] } := by
  have hall :
      allJobs { s with pending := s.pending ++ [⟨id, source, scheduledJob source now jobId⟩] } =
        s.allJobs ++ [scheduledJob source now jobId] := by
    simp only [allJobs, List.map_append, List.map_cons, List.map_nil, List.append_assoc]
  refine ⟨?_, ?_, h.tokens, h.scheduled, h.samples, h.clock, h.instants⟩
  · rw [hall]
    intro other hother
    rcases List.mem_append.mp hother with hother | hother
    · exact h.jobs other hother
    · rw [List.mem_singleton.mp hother]
      exact isSyncJob_scheduledJob source now jobId
  · rw [hall]
    exact apart_append h.apart (fresh_of_jobIdTaken hfresh) (free_of_keyTaken hfree)

/-- The row of an enqueue by hand. -/
theorem commit_enqueue (rows : List JobRow) (jobId : Uuid) (source : SourceRow) (now : DateTime) :
    (JobTransaction.enqueue jobId (sourceSyncJob source now)).commit rows = rows ∨
    ∃ row, (JobTransaction.enqueue jobId (sourceSyncJob source now)).commit rows = rows ++ [row] ∧
      rows.any (JobRow.holds (sourceSyncKey source.id)) = false ∧ jobId ∉ rows.map JobRow.id ∧
      row.id = jobId ∧ IsSyncJob row ∧ row.dedupeKey = sourceSyncKey source.id ∧
      row.sourceId = some source.id ∧ row.leaseToken = none ∧ row.status = "queued" ∧
      row.runAfter = source.nextFetchAt := by
  simp only [JobTransaction.commit]
  split
  · exact .inl rfl
  · rename_i job hnew
    unfold Job.new at hnew
    split_ifs at hnew
    obtain rfl := Except.ok.inj hnew
    split_ifs with hconflict
    · exact .inl rfl
    · rw [Bool.or_eq_true, not_or, decide_eq_true_eq, Bool.not_eq_true] at hconflict
      exact .inr ⟨_, rfl, hconflict.1, hconflict.2, rfl, ⟨rfl, source.id, rfl, rfl⟩, rfl, rfl, rfl,
        rfl, rfl⟩

theorem JobInv.enqueue (h : s.JobInv) {jobId sourceId : Uuid} {source : SourceRow}
    (hsource : findSource s.sources sourceId = some source)
    (hwaits : ¬ (s.pending.any (fun pending => pending.job.holds (sourceSyncKey source.id))
      || decide (jobId ∈ s.pending.map (·.job.id))) = true) :
    JobInv { s with
      jobs := (JobTransaction.enqueue jobId (sourceSyncJob source s.clock)).commit s.jobs } := by
  rcases commit_enqueue s.jobs jobId source s.clock with heq |
    ⟨row, heq, hfree, hfresh, hid, hsync, hkey, hof, htoken, hstatus, hrun⟩
  · rw [heq]
    exact h
  rw [Bool.or_eq_true, not_or, decide_eq_true_eq] at hwaits
  rw [heq]
  refine h.add hsync ?_ ?_ htoken ?_
  · rw [hid]
    refine fresh_of_jobIdTaken fun htaken => ?_
    rw [jobIdTaken, Bool.or_eq_true, decide_eq_true_eq, decide_eq_true_eq] at htaken
    exact htaken.elim hfresh hwaits.2
  · rw [hkey]
    refine free_of_keyTaken fun htaken => ?_
    rw [keyTaken, hfree, Bool.false_or] at htaken
    exact hwaits.1 htaken
  · intro σ current hσ hcurrent
    obtain rfl : source.id = σ := Option.some.inj (hof.symm.trans hσ)
    have hkey : source.id = sourceId := Rows.key_of_get hsource
    rw [hkey, hsource] at hcurrent
    obtain rfl := Option.some.inj hcurrent
    refine .inr ⟨?_, hrun ▸ Int.le_refl _⟩
    rw [hstatus]
    decide

/-! ## A pass commits -/

/-- What a pass has inserted becomes committed. -/
theorem perm_commitPass (id : ℕ) (pass : Pass) :
    (s.commitPass id pass).allJobs.Perm s.allJobs := by
  have hsplit : (s.inserted id ++ (s.endPass id).pending).Perm s.pending := by
    have hrest : (s.endPass id).pending = s.pending.filter fun w => !decide (w.pass = id) := by
      simp only [endPass, ne_eq, decide_not]
    rw [hrest]
    exact List.filter_append_perm _ _
  have hjobs := (hsplit.map (·.job)).append_left s.jobs
  rw [List.map_append, ← List.append_assoc] at hjobs
  exact hjobs

/-- The reservations leave every due instant. -/
theorem nextFetchAt_commitPass {id : ℕ} {pass : Pass} {sourceId : Uuid} {row : SourceRow}
    (h : findSource (s.commitPass id pass).sources sourceId = some row) :
    ∃ before, findSource s.sources sourceId = some before ∧
      before.nextFetchAt = row.nextFetchAt := by
  rw [findSource_commitPass] at h
  split_ifs at h
  · obtain ⟨before, hbefore, rfl⟩ := Option.map_eq_some_iff.mp h
    exact ⟨before, hbefore, rfl⟩
  · exact ⟨row, h, rfl⟩

theorem JobInv.commitPass (h : s.JobInv) (hpasses : s.PassInv) (id : ℕ) (pass : Pass) :
    (s.commitPass id pass).JobInv := by
  have hperm := perm_commitPass (s := s) id pass
  have hdueBy : ∀ {job t}, s.DueBy job t → (s.commitPass id pass).DueBy job t := by
    intro job t hdue sourceId row hsource hrow
    obtain ⟨before, hbefore, hnext⟩ := nextFetchAt_commitPass hrow
    rw [← hnext]
    exact hdue sourceId before hsource hbefore
  constructor
  · exact fun job hjob => h.jobs job (hperm.mem_iff.mp hjob)
  · exact (hperm.pairwise_iff (Std.Symm.symm _ _)).mpr h.apart
  · intro job hjob token htoken
    rcases List.mem_append.mp hjob with hjob | hjob
    · exact h.tokens job hjob token htoken
    · obtain ⟨w, hw, rfl⟩ := List.mem_map.mp hjob
      obtain ⟨_, _, hscheduled, _⟩ := hpasses.pending w (List.mem_of_mem_filter hw)
      rw [hscheduled] at htoken
      exact nomatch htoken
  · intro job hjob hactive sourceId row hsource hrow
    obtain ⟨before, hbefore, hnext⟩ := nextFetchAt_commitPass hrow
    rw [← hnext]
    rcases List.mem_append.mp hjob with hjob | hjob
    · exact h.scheduled job hjob hactive sourceId before hsource hbefore
    -- A new job is for a source that is still due at the clock sample of its pass.
    · obtain ⟨w, hw, rfl⟩ := List.mem_map.mp hjob
      obtain ⟨p, hp, hscheduled, hlocked⟩ := hpasses.pending w (List.mem_of_mem_filter hw)
      rw [hscheduled] at hsource
      obtain rfl : w.source.id = sourceId := Option.some.inj hsource
      rw [hlocked.newest] at hbefore
      obtain rfl := Option.some.inj hbefore
      exact .inl (Int.le_trans hlocked.schedulable.due (hpasses.sampled _ p hp))
  · intro x hx
    obtain ⟨hissued, hwhole, hall⟩ := h.samples x hx
    refine ⟨hissued, hwhole, fun job hjob htoken => ?_⟩
    rcases List.mem_append.mp hjob with hjob | hjob
    · exact hdueBy (hall job hjob htoken)
    · obtain ⟨w, hw, rfl⟩ := List.mem_map.mp hjob
      obtain ⟨_, _, hscheduled, _⟩ := hpasses.pending w (List.mem_of_mem_filter hw)
      rw [hscheduled] at htoken
      exact nomatch htoken
  · exact h.clock
  · intro sourceId row hrow
    obtain ⟨before, hbefore, hnext⟩ := nextFetchAt_commitPass hrow
    rw [← hnext]
    exact h.instants sourceId before hbefore

/-! ## A claim -/

/-- A statement on the committed jobs. -/
theorem apart_mapJobs (h : s.JobInv) {f : JobRow → JobRow}
    (hf : ∀ row ∈ s.jobs, Keeps row (f row)) :
    (∀ job ∈ s.jobs.map f ++ s.pending.map (·.job), IsSyncJob job) ∧
      (s.jobs.map f ++ s.pending.map (·.job)).Pairwise Apart := by
  obtain ⟨hjobs, hpending, hacross⟩ := List.pairwise_append.mp h.apart
  constructor
  · intro job hjob
    rcases List.mem_append.mp hjob with hjob | hjob
    · obtain ⟨row, hrow, rfl⟩ := List.mem_map.mp hjob
      exact (h.jobs row (mem_allJobs hrow)).keeps (hf row hrow)
    · exact h.jobs job (List.mem_append_right _ hjob)
  · refine List.pairwise_append.mpr ⟨apart_map hjobs hf, hpending, fun a ha b hb => ?_⟩
    obtain ⟨row, hrow, rfl⟩ := List.mem_map.mp ha
    exact (hf row hrow).apart (.refl b) (hacross row hrow b hb)

theorem JobInv.claim (h : s.JobInv) (owner : String) (leaseFor : Duration)
    (allowedJobTypes : List JobType) {draw : LeaseToken} (hdraw : draw.uuid ∉ s.issued) :
    JobInv { s with
      jobs := (JobTransaction.claimNext owner s.clock leaseFor allowedJobTypes draw).commit s.jobs
      issued := draw.uuid :: s.issued } := by
  rcases commit_claimNext s.jobs owner s.clock leaseFor allowedJobTypes draw with heq |
    ⟨candidate, hmem, leaseUntil, hdue, heq⟩
  · rw [heq]
    refine ⟨h.jobs, h.apart, fun job hjob token htoken => ?_, h.scheduled, fun x hx => ?_, h.clock,
      h.instants⟩
    · obtain ⟨hrunning, hissued⟩ := h.tokens job hjob token htoken
      exact ⟨hrunning, List.mem_cons_of_mem _ hissued⟩
    · obtain ⟨hissued, hrest⟩ := h.samples x hx
      exact ⟨List.mem_cons_of_mem _ hissued, hrest⟩
  rw [heq]
  simp only [JobRow.isDue, Bool.and_eq_true, decide_eq_true_eq] at hdue
  obtain ⟨⟨⟨hwaiting, -⟩, hrun⟩, -⟩ := hdue
  have hactive : candidate.IsActive := by
    unfold IsActive
    revert hwaiting
    generalize candidate.status = status
    decide +revert
  have hkeeps : ∀ row ∈ s.jobs, Keeps row
      (if row.id = candidate.id then claimed owner draw s.clock leaseUntil row else row) := by
    intro row hrow
    split_ifs with hid
    · rw [eq_of_id h.apartJobs hrow hmem hid]
      exact ⟨rfl, rfl, rfl, rfl, fun _ => hactive⟩
    · exact .refl row
  obtain ⟨hjobs, hapart⟩ := apart_mapJobs h hkeeps
  refine ⟨hjobs, hapart, fun job hjob token htoken => ?_, fun job hjob hjobActive => ?_,
    fun x hx => ?_, h.clock, h.instants⟩
  · obtain ⟨row, hrow, rfl⟩ := List.mem_map.mp hjob
    split_ifs at htoken ⊢
    · obtain rfl : draw.uuid = token := Option.some.inj htoken
      exact ⟨rfl, List.mem_cons_self ..⟩
    · obtain ⟨hrunning, hissued⟩ := h.tokens row hrow token htoken
      exact ⟨hrunning, List.mem_cons_of_mem _ hissued⟩
  · obtain ⟨row, hrow, rfl⟩ := List.mem_map.mp hjob
    split_ifs at hjobActive ⊢ with hid
    -- The claimed job was waiting, and waits no longer.
    · obtain rfl := eq_of_id h.apartJobs hrow hmem hid
      intro sourceId current hsource hcurrent
      rcases h.scheduled row hrow hactive sourceId current hsource hcurrent with hdue | hwaits
      · exact .inl hdue
      · exact .inl (Int.le_trans hwaits.2 hrun)
    · exact h.scheduled row hrow hjobActive
  · obtain ⟨hissued, hwhole, hall⟩ := h.samples x hx
    refine ⟨List.mem_cons_of_mem _ hissued, hwhole, fun job hjob htoken => ?_⟩
    obtain ⟨row, hrow, rfl⟩ := List.mem_map.mp hjob
    split_ifs at htoken ⊢
    · obtain heq : draw.uuid = x.1 := Option.some.inj htoken
      exact absurd (heq ▸ hissued) hdraw
    · exact hall row hrow htoken

/-! ## A final transaction -/

section Finish

variable {Url : Type} [UrlCrate Url] [LawfulUrlCrate Url] {config : SourceSyncConfig}
  {finish : SyncFinish}

/-- What a final transaction found: the running job of its source, its token sampled. -/
structure Lands (config : SourceSyncConfig) (s : SchedulingState) (finish : SyncFinish)
    (job : JobRow) : Prop where
  mem : job ∈ s.jobs
  sourceId : job.sourceId = some finish.run.sourceId
  leaves : finish.Leaves config s.clock job
    (JobTransaction.left job (finish.job config s.clock job))
  sample : (finish.token.uuid, finish.run.finishedAt) ∈ s.samples

theorem finished_cases (h : finished Url config s finish = some s') :
    (∃ job, Lands config s finish job) ∧ ∃ sources,
      finish.sources Url config s.sources = some sources ∧
      s' = { s with
        sources := sources
        jobs := s.jobs.map fun row =>
          JobTransaction.left row (finish.job config s.clock row) } := by
  unfold finished at h
  split_ifs at h with hmay
  obtain ⟨-, hsample, hany⟩ := hmay
  obtain ⟨sources, hsources, rfl⟩ := Option.map_eq_some_iff.mp h
  obtain ⟨job, hmem, hlands⟩ := List.any_eq_true.mp hany
  rw [SyncFinish.lands, Bool.and_eq_true, Bool.and_eq_true, decide_eq_true_eq,
    decide_eq_true_eq] at hlands
  obtain ⟨⟨-, hsource⟩, hchanged⟩ := hlands
  refine ⟨⟨job, hmem, hsource, ?_, hsample⟩, sources, hsources, rfl⟩
  rcases hjob : finish.job config s.clock job with error | _ | job'
  · rw [hjob] at hchanged
    cases hchanged
  · rw [hjob] at hchanged
    cases hchanged
  · exact finish.leaves hjob

theorem Leaves.running {now : DateTime} {row row' : JobRow}
    (h : finish.Leaves config now row row') :
    row.id = finish.jobId ∧ row.status = "running" ∧
      row.leaseToken = some finish.token.uuid := by
  have hfenced := h.fenced
  simp only [isFenced, Bool.and_eq_true, decide_eq_true_eq] at hfenced
  obtain ⟨⟨⟨⟨hid, hrunning⟩, -⟩, htoken⟩, -⟩ := hfenced
  exact ⟨hid, hrunning, htoken⟩

/-- The source is rescheduled forward, from an instant at which it was due. -/
theorem JobInv.forward (h : s.JobInv) (hretry : 0 < config.retryAfter) {job : JobRow}
    (hlands : Lands config s finish job) {before after : SourceRow}
    (hbefore : findSource s.sources finish.run.sourceId = some before)
    (hnext : finish.Reschedules config before.nextFetchAt after.nextFetchAt) :
    before.nextFetchAt ≤ after.nextFetchAt ∧ (1000 : ℤ) ∣ after.nextFetchAt := by
  obtain ⟨-, hwhole, hall⟩ := h.samples _ hlands.sample
  have hdue : before.nextFetchAt ≤ finish.run.finishedAt :=
    hall job hlands.mem (Leaves.running hlands.leaves).2.2 _ before hlands.sourceId hbefore
  have hlater : ∀ {d : Duration}, 0 < d →
      after.nextFetchAt = timestamptz (finish.run.finishedAt + d) →
      before.nextFetchAt ≤ after.nextFetchAt ∧ (1000 : ℤ) ∣ after.nextFetchAt := by
    intro d hd heq
    rw [heq]
    exact ⟨Int.le_trans hdue (le_timestamptz_add hwhole hd), dvd_timestamptz _⟩
  unfold SyncFinish.Reschedules at hnext
  split at hnext
  · obtain ⟨retryAt, hadd, heq⟩ := hnext
    rw [add_of_checkedAddSigned hadd] at heq
    exact hlater hretry heq
  · rcases hnext with heq | ⟨interval, hpositive, heq⟩
    · rw [heq, timestamptz_of_dvd (h.instants _ _ hbefore)]
      exact ⟨Int.le_refl _, h.instants _ _ hbefore⟩
    · exact hlater hpositive heq

/-- **A final transaction keeps the jobs and the due instants in order.** -/
theorem JobInv.finished (h : s.JobInv) (hretry : 0 < config.retryAfter)
    (hfinished : SchedulingState.finished Url config s finish = some s') : s'.JobInv := by
  obtain ⟨⟨landed, hlands⟩, sources, hsources, rfl⟩ := finished_cases hfinished
  obtain ⟨hother, before, after, hbefore, hafter, hnext⟩ := finish.writes hsources
  obtain ⟨hforward, hwhole⟩ := h.forward hretry hlands hbefore hnext
  obtain ⟨hid, hrunning, -⟩ := Leaves.running hlands.leaves
  obtain ⟨hjobs, hapart⟩ := apart_mapJobs h fun row _ => finish.keeps_left config s.clock row
  have hlandedActive : landed.IsActive := status_of_isFenced hlands.leaves.fenced
  -- The job of this source that is active is the one that landed.
  have hunique : ∀ row ∈ s.jobs, row.IsActive → row.sourceId = some finish.run.sourceId →
      row = landed := by
    intro row hrow hactive hsource
    refine eq_of_apart h.apartJobs hrow hlands.mem hactive hlandedActive ?_
    exact (h.jobs row (mem_allJobs hrow)).sameKey (h.jobs landed (mem_allJobs hlands.mem))
      (hsource.trans hlands.sourceId.symm)
  have hchanged : JobTransaction.left landed (finish.job config s.clock landed) ≠ landed := by
    intro hsame
    have hnone := hlands.leaves.token
    rw [hsame, (Leaves.running hlands.leaves).2.2] at hnone
    cases hnone
  have hleft : ∀ row ∈ s.jobs, row = landed ∨
      JobTransaction.left row (finish.job config s.clock row) = row := by
    intro row hrow
    rcases finish.left_cases config s.clock row with hsame | hleaves
    · exact .inr hsame
    · exact .inl (eq_of_id h.apartJobs hrow hlands.mem
        ((Leaves.running hleaves).1.trans hid.symm))
  refine ⟨hjobs, hapart, fun job hjob token htoken => ?_, fun job hjob hactive => ?_,
    fun x hx => ?_, h.clock, fun sourceId row hrow => ?_⟩
  · obtain ⟨row, hrow, rfl⟩ := List.mem_map.mp hjob
    rcases hleft row hrow with rfl | hsame
    · rw [hlands.leaves.token] at htoken
      cases htoken
    · rw [hsame] at htoken ⊢
      exact h.tokens row hrow token htoken
  · obtain ⟨row, hrow, rfl⟩ := List.mem_map.mp hjob
    intro sourceId current hsource hcurrent
    rcases hleft row hrow with rfl | hsame
    -- The job of the run: still active only if it waits for its retry.
    · obtain ⟨hwaits, error, retryAt, hresult, hadd, hrun⟩ := hlands.leaves.waits hactive
      rw [hlands.leaves.keeps.sourceId, hlands.sourceId] at hsource
      obtain rfl := Option.some.inj hsource
      obtain rfl : after = current := Option.some.inj (hafter.symm.trans hcurrent)
      simp only [SyncFinish.Reschedules, hresult] at hnext
      obtain ⟨retryAt', hadd', heq⟩ := hnext
      obtain rfl : retryAt = retryAt' := Option.some.inj (hadd.symm.trans hadd')
      exact .inr ⟨hwaits, by rw [heq, hrun]⟩
    · rw [hsame] at hactive hsource ⊢
      by_cases heq : sourceId = finish.run.sourceId
      · rw [hunique row hrow hactive (heq ▸ hsource)] at hsame
        exact absurd hsame hchanged
      · exact h.scheduled row hrow hactive sourceId current hsource
          ((hother sourceId heq).symm.trans hcurrent)
  · obtain ⟨hissued, hsampled, hall⟩ := h.samples x hx
    refine ⟨hissued, hsampled, fun job hjob htoken sourceId current hsource hcurrent => ?_⟩
    obtain ⟨row, hrow, rfl⟩ := List.mem_map.mp hjob
    rcases hleft row hrow with rfl | hsame
    · rw [hlands.leaves.token] at htoken
      cases htoken
    · rw [hsame] at htoken hsource
      by_cases heq : sourceId = finish.run.sourceId
      · have hactive : row.IsActive := by
          unfold IsActive
          rw [(h.tokens row hrow x.1 htoken).1]
          decide
        rw [hunique row hrow hactive (heq ▸ hsource)] at hsame
        exact absurd hsame hchanged
      · exact hall row hrow htoken sourceId current hsource
          ((hother sourceId heq).symm.trans hcurrent)
  · by_cases heq : sourceId = finish.run.sourceId
    · subst heq
      obtain rfl : after = row := Option.some.inj (hafter.symm.trans hrow)
      exact hwhole
    · exact h.instants sourceId row ((hother sourceId heq).symm.trans hrow)

end Finish

end SchedulingState

end Scheduler

end Werrss
