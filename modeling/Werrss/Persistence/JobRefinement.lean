import Werrss.Persistence.JobRow
import Werrss.Persistence.JobStoreContract

/-!
# Persistence/JobRefinement — the UPDATE statements do what the domain methods do

    row ──UPDATE──▸ row'
     │decode         │decode
     ▼               ▼
    job ──method──▸ job'

A row that decodes is the row of its job (`decode_eq_ok`), so a statement's guard and assignments can
be read on the job.  The CHECK is stronger than what `decode_job` demands by what `Started` says:
running and succeeded jobs have been claimed.
-/

open Machinery

namespace Werrss

namespace Job

/-! ## Jobs and their rows -/

/-- The instants of a job are in the calendar. -/
structure InCalendar (job : Job) : Prop where
  runAfter : DateTime.minUtc ≤ job.runAfter ∧ job.runAfter ≤ DateTime.maxUtc
  leaseUntil : ∀ t ∈ job.leaseUntil, DateTime.minUtc ≤ t ∧ t ≤ DateTime.maxUtc
  heartbeatAt : ∀ t ∈ job.heartbeatAt, DateTime.minUtc ≤ t ∧ t ≤ DateTime.maxUtc
  startedAt : ∀ t ∈ job.startedAt, DateTime.minUtc ≤ t ∧ t ≤ DateTime.maxUtc
  finishedAt : ∀ t ∈ job.finishedAt, DateTime.minUtc ≤ t ∧ t ≤ DateTime.maxUtc
  createdAt : DateTime.minUtc ≤ job.createdAt ∧ job.createdAt ≤ DateTime.maxUtc
  updatedAt : DateTime.minUtc ≤ job.updatedAt ∧ job.updatedAt ≤ DateTime.maxUtc

/-- What the CHECK asks of running and succeeded jobs and `validate_persisted_state` does not. -/
structure Started (job : Job) : Prop where
  running : job.status = .running → job.heartbeatAt ≠ none ∧ job.startedAt ≠ none
  succeeded : job.status = .succeeded →
    job.claimCount ≠ 0 ∧ job.failureCount < job.maxAttempts ∧ job.startedAt ≠ none

/-- **What the validator accepts is valid.** -/
theorem valid_of_validatePersistedState {job : Job}
    (h : job.validatePersistedState = .ok ()) : job.Valid := by
  unfold validatePersistedState at h
  by_cases hlimit : job.maxAttempts = 0 ∨ job.failureCount > job.maxAttempts
  · rw [if_pos hlimit] at h
    cases h
  by_cases hkey : isBlank job.dedupeKey = true
  · rw [if_neg hlimit, if_pos hkey] at h
    cases h
  rw [if_neg hlimit, if_neg hkey] at h
  rw [not_or] at hlimit
  refine ⟨hlimit.1, UInt32.not_lt.mp hlimit.2, Bool.eq_false_iff.mpr hkey, ?_⟩
  unfold Phase
  cases hs : job.status with
  | running =>
    simp only [hs] at h ⊢
    split_ifs at h with hclaim hcomplete hblank hfin hbudget
    obtain ⟨owner, token, leaseUntil, ho, ht, hu⟩ :=
      (leaseIsComplete_iff job).mp (by simpa using hcomplete)
    refine ⟨hclaim, ⟨owner, token, leaseUntil, ho, ?_, ht, hu⟩, by simpa using hfin,
      UInt32.not_le.mp hbudget⟩
    simpa [ho] using hblank
  | queued | retryWait | deferred =>
    simp only [hs] at h ⊢
    split_ifs at h with hempty hfin hbudget
    exact ⟨(leaseIsEmpty_iff job).mp (by simpa using hempty), by simpa using hfin,
      UInt32.not_le.mp hbudget⟩
  | succeeded | failed =>
    simp only [hs] at h ⊢
    split_ifs at h with hempty hfin
    exact ⟨(leaseIsEmpty_iff job).mp (by simpa using hempty), by simpa using hfin⟩

end Job

theorem parseJobType_name (jobType : JobType) : parseJobType (jobTypeName jobType) = .ok jobType := by
  cases jobType <;> rfl

theorem parseJobStatus_name (status : JobStatus) : parseJobStatus (statusName status) = .ok status := by
  cases status <;> rfl

theorem eq_jobTypeName {value : String} {jobType : JobType} (h : parseJobType value = .ok jobType) :
    value = jobTypeName jobType := by
  unfold parseJobType at h
  split_ifs at h with h1 h2 h3 h4 h5 h6 <;>
  · obtain rfl := Except.ok.inj h
    assumption

theorem eq_statusName {value : String} {status : JobStatus} (h : parseJobStatus value = .ok status) :
    value = statusName status := by
  unfold parseJobStatus at h
  split_ifs at h with h1 h2 h3 h4 h5 h6 <;>
  · obtain rfl := Except.ok.inj h
    assumption

/-- Statuses have different names. -/
theorem statusName_inj {a b : JobStatus} : statusName a = statusName b ↔ a = b := by
  refine ⟨fun h => ?_, fun h => by rw [h]⟩
  have ha := parseJobStatus_name a
  rw [h, parseJobStatus_name b] at ha
  exact (Except.ok.inj ha).symm

theorem jobTypeName_inj {a b : JobType} : jobTypeName a = jobTypeName b ↔ a = b := by
  refine ⟨fun h => ?_, fun h => by rw [h]⟩
  have ha := parseJobType_name a
  rw [h, parseJobType_name b] at ha
  exact (Except.ok.inj ha).symm

theorem persistedU32_toNat (n : UInt32) (column : String) :
    persistedU32 (n.toNat : ℤ) column = .ok n := by
  have hlt : ((n.toNat : ℤ)) < UInt32.size := by exact_mod_cast n.toNat_lt_size
  rw [persistedU32, if_pos ⟨Int.natCast_nonneg _, hlt⟩, Int.toNat_natCast, UInt32.ofNat_toNat]

theorem eq_of_persistedU32 {value : ℤ} {column : String} {n : UInt32}
    (h : persistedU32 value column = .ok n) : value = n.toNat := by
  unfold persistedU32 at h
  split_ifs at h with hrange
  obtain rfl := Except.ok.inj h
  have hlt : value.toNat < UInt32.size := by omega
  rw [UInt32.toNat_ofNat_of_lt' hlt]
  omega

theorem decodeInstant_eq_ok {t u : DateTime} : decodeInstant t = .ok u ↔
    t = u ∧ DateTime.minUtc ≤ u ∧ u ≤ DateTime.maxUtc := by
  unfold decodeInstant
  split_ifs with h
  · refine ⟨fun heq => ?_, fun heq => by rw [heq.1]⟩
    obtain rfl := Except.ok.inj heq
    exact ⟨rfl, h⟩
  · refine ⟨nofun, fun heq => ?_⟩
    obtain ⟨rfl, hrange⟩ := heq
    exact absurd hrange h

theorem decodeInstant?_eq_ok {t u : Option DateTime} : decodeInstant? t = .ok u ↔
    t = u ∧ ∀ x ∈ u, DateTime.minUtc ≤ x ∧ x ≤ DateTime.maxUtc := by
  cases t with
  | none =>
    refine ⟨fun h => ?_, fun h => by rw [← h.1]; rfl⟩
    obtain rfl := Except.ok.inj h
    exact ⟨rfl, nofun⟩
  | some t =>
    constructor
    · intro h
      cases hdec : decodeInstant t with
      | error e => simp [decodeInstant?, hdec, Except.map] at h
      | ok x =>
        obtain ⟨rfl, hrange⟩ := decodeInstant_eq_ok.mp hdec
        simp only [decodeInstant?, hdec, Except.map] at h
        obtain rfl := Except.ok.inj h
        refine ⟨rfl, fun y hy => ?_⟩
        obtain rfl := Option.some.inj hy
        exact hrange
    · rintro ⟨rfl, hrange⟩
      rw [decodeInstant?, decodeInstant_eq_ok.mpr ⟨rfl, hrange t rfl⟩]
      rfl

namespace JobRow

/-- The row a job is stored as. -/
def ofJob (job : Job) : JobRow :=
  { id := job.id
    jobType := jobTypeName job.jobType
    sourceId := job.sourceId
    status := statusName job.status
    priority := job.priority
    runAfter := job.runAfter
    claimCount := job.claimCount.toNat
    failureCount := job.failureCount.toNat
    maxAttempts := job.maxAttempts.toNat
    leaseOwner := job.leaseOwner
    leaseToken := job.leaseToken.map LeaseToken.uuid
    leaseUntil := job.leaseUntil
    heartbeatAt := job.heartbeatAt
    startedAt := job.startedAt
    finishedAt := job.finishedAt
    lastError := job.lastError
    payloadJson := job.payload
    dedupeKey := job.dedupeKey
    createdAt := job.createdAt
    updatedAt := job.updatedAt }

theorem map_uuid_map_mk (token : Option Uuid) :
    (token.map LeaseToken.mk).map LeaseToken.uuid = token := by
  cases token <;> rfl

theorem map_mk_map_uuid (token : Option LeaseToken) :
    (token.map LeaseToken.uuid).map LeaseToken.mk = token := by
  cases token <;> rfl

/-- **A valid job with instants in the calendar is read back from its row.** -/
theorem decodeJob_ofJob {job : Job} (hvalid : job.Valid) (hcal : job.InCalendar) :
    (ofJob job).decodeJob = .ok job := by
  have hpersisted := hvalid.fromPersisted_toPersisted
  have hjobType : parseJobType (ofJob job).jobType = .ok job.jobType := parseJobType_name _
  have hstatus : parseJobStatus (ofJob job).status = .ok job.status := parseJobStatus_name _
  have hrunAfter : decodeInstant (ofJob job).runAfter = .ok job.runAfter :=
    decodeInstant_eq_ok.mpr ⟨rfl, hcal.runAfter⟩
  have hclaim : persistedU32 (ofJob job).claimCount "claim_count" = .ok job.claimCount :=
    persistedU32_toNat _ _
  have hfailure : persistedU32 (ofJob job).failureCount "failure_count" = .ok job.failureCount :=
    persistedU32_toNat _ _
  have hmax : persistedU32 (ofJob job).maxAttempts "max_attempts" = .ok job.maxAttempts :=
    persistedU32_toNat _ _
  have huntil : decodeInstant? (ofJob job).leaseUntil = .ok job.leaseUntil :=
    decodeInstant?_eq_ok.mpr ⟨rfl, hcal.leaseUntil⟩
  have hheartbeat : decodeInstant? (ofJob job).heartbeatAt = .ok job.heartbeatAt :=
    decodeInstant?_eq_ok.mpr ⟨rfl, hcal.heartbeatAt⟩
  have hstarted : decodeInstant? (ofJob job).startedAt = .ok job.startedAt :=
    decodeInstant?_eq_ok.mpr ⟨rfl, hcal.startedAt⟩
  have hfinished : decodeInstant? (ofJob job).finishedAt = .ok job.finishedAt :=
    decodeInstant?_eq_ok.mpr ⟨rfl, hcal.finishedAt⟩
  have hcreated : decodeInstant (ofJob job).createdAt = .ok job.createdAt :=
    decodeInstant_eq_ok.mpr ⟨rfl, hcal.createdAt⟩
  have hupdated : decodeInstant (ofJob job).updatedAt = .ok job.updatedAt :=
    decodeInstant_eq_ok.mpr ⟨rfl, hcal.updatedAt⟩
  have htoken : (ofJob job).leaseToken.map LeaseToken.mk = job.leaseToken := map_mk_map_uuid _
  rw [decodeJob, hjobType, ok_bind, hstatus, ok_bind, hrunAfter, ok_bind, hclaim, ok_bind, hfailure,
    ok_bind, hmax, ok_bind, huntil, ok_bind, hheartbeat, ok_bind, hstarted, ok_bind, hfinished,
    ok_bind, hcreated, ok_bind, hupdated, ok_bind, htoken]
  exact congrArg (Except.mapError JobRepositoryError.domain) hpersisted

/-- **A row that decodes is the row of its job**, which is valid and in the calendar. -/
theorem decode_eq_ok {row : JobRow} {job : Job} (h : row.decodeJob = .ok job) :
    row = ofJob job ∧ job.Valid ∧ job.InCalendar := by
  obtain ⟨jobType, hjobType, h⟩ := bind_eq_ok h
  obtain ⟨status, hstatus, h⟩ := bind_eq_ok h
  obtain ⟨runAfter, hrunAfter, h⟩ := bind_eq_ok h
  obtain ⟨claimCount, hclaim, h⟩ := bind_eq_ok h
  obtain ⟨failureCount, hfailure, h⟩ := bind_eq_ok h
  obtain ⟨maxAttempts, hmax, h⟩ := bind_eq_ok h
  obtain ⟨leaseUntil, huntil, h⟩ := bind_eq_ok h
  obtain ⟨heartbeatAt, hheartbeat, h⟩ := bind_eq_ok h
  obtain ⟨startedAt, hstarted, h⟩ := bind_eq_ok h
  obtain ⟨finishedAt, hfinished, h⟩ := bind_eq_ok h
  obtain ⟨createdAt, hcreated, h⟩ := bind_eq_ok h
  obtain ⟨updatedAt, hupdated, h⟩ := bind_eq_ok h
  replace hjobType := eq_jobTypeName hjobType
  replace hstatus := eq_statusName hstatus
  replace hclaim := eq_of_persistedU32 hclaim
  replace hfailure := eq_of_persistedU32 hfailure
  replace hmax := eq_of_persistedU32 hmax
  rw [decodeInstant_eq_ok] at hrunAfter hcreated hupdated
  rw [decodeInstant?_eq_ok] at huntil hheartbeat hstarted hfinished
  simp only [Job.fromPersisted] at h
  split at h
  · cases h
  · rename_i hvalidate
    obtain rfl := Except.ok.inj h
    refine ⟨?_, Job.valid_of_validatePersistedState hvalidate, hrunAfter.2, huntil.2, hheartbeat.2,
      hstarted.2, hfinished.2, hcreated.2, hupdated.2⟩
    rw [ofJob, map_uuid_map_mk, ← hjobType, ← hstatus, ← hclaim, ← hfailure, ← hmax, ← hrunAfter.1,
      ← huntil.1, ← hheartbeat.1, ← hstarted.1, ← hfinished.1, ← hcreated.1, ← hupdated.1]

/-! ## The CHECK -/

theorem isSpaces_of_not_blank {s : String} (h : isBlank s = false) : isSpaces s = false := by
  by_contra hspaces
  rw [Bool.not_eq_false, isSpaces, List.all_eq_true] at hspaces
  have hblank : isBlank s = true := by
    rw [isBlank, List.all_eq_true]
    intro c hc
    obtain rfl : c = ' ' := by simpa using hspaces c hc
    rfl
  rw [h] at hblank
  cases hblank

theorem leaseIsNull_ofJob {job : Job} : (ofJob job).leaseIsNull = true ↔ job.NoLease := by
  rw [← Job.leaseIsEmpty_iff]
  simp [leaseIsNull, ofJob, Job.leaseIsEmpty]

theorem checkColumns_ofJob {job : Job} (hvalid : job.Valid) : (ofJob job).checkColumns = true := by
  have htype : jobTypeName job.jobType ∈ ["source_sync", "feed_rebuild", "article_backfill",
      "credential_refresh", "asset_repair", "asset_refresh"] := by
    cases job.jobType <;> decide
  have hstatus : statusName job.status ∈ ["queued", "running", "retry_wait", "deferred", "succeeded",
      "failed"] := by
    cases job.status <;> decide
  have hmax : (0 : ℤ) < job.maxAttempts.toNat := by
    have hne : job.maxAttempts.toNat ≠ 0 := fun h => hvalid.limit (UInt32.toNat_inj.mp h)
    omega
  simp only [checkColumns, ofJob, htype, hstatus, hmax, isSpaces_of_not_blank hvalid.key,
    Int.natCast_nonneg, decide_true, Bool.not_false, Bool.and_self]

/-- Counters compare in a row as they do in the job. -/
theorem budget_ofJob (job : Job) : (ofJob job).failureCount < (ofJob job).maxAttempts ↔
    job.failureCount < job.maxAttempts := by
  rw [UInt32.lt_iff_toNat_lt]
  exact Int.ofNat_lt

theorem claimed_ofJob (job : Job) : 0 < (ofJob job).claimCount ↔ job.claimCount ≠ 0 := by
  have hzero : job.claimCount.toNat = 0 ↔ job.claimCount = 0 := by
    rw [← UInt32.toNat_inj]
    rfl
  have hcount : (ofJob job).claimCount = (job.claimCount.toNat : ℤ) := rfl
  rw [hcount, ← not_iff_not, not_not, ← hzero]
  omega

/-- **The row of a valid job that started properly passes the CHECK.** -/
theorem check_ofJob {job : Job} (hvalid : job.Valid) (hstarted : job.Started) :
    (ofJob job).check = true := by
  have hphase := hvalid.phase
  rw [check, checkColumns_ofJob hvalid, Bool.true_and]
  cases hs : job.status with
  | running =>
    simp only [Job.Phase, hs] at hphase
    obtain ⟨hclaim, ⟨owner, token, leaseUntil, ho, hblank, ht, hu⟩, hfin, hlt⟩ := hphase
    obtain ⟨hheartbeat, hstart⟩ := hstarted.running hs
    have hrunning : (ofJob job).checkRunning = true := by
      have hstatus : (ofJob job).status = "running" := congrArg statusName hs
      rw [checkRunning]
      simp only [(claimed_ofJob job).mpr hclaim, (budget_ofJob job).mpr hlt, hstatus]
      simp [ofJob, ho, isSpaces_of_not_blank hblank, ht, hu, hfin, Option.isSome_iff_ne_none,
        hheartbeat, hstart]
    simp [hrunning]
  | queued | retryWait | deferred =>
    simp only [Job.Phase, hs] at hphase
    obtain ⟨hlease, hfin, hlt⟩ := hphase
    have hwaiting : (ofJob job).checkWaiting = true := by
      have hstatus : (ofJob job).status = _ := congrArg statusName hs
      rw [checkWaiting]
      simp only [(budget_ofJob job).mpr hlt, hstatus, leaseIsNull_ofJob.mpr hlease]
      simp [ofJob, hfin, statusName]
    simp [hwaiting]
  | succeeded =>
    simp only [Job.Phase, hs] at hphase
    obtain ⟨hlease, hfin⟩ := hphase
    obtain ⟨hclaim, hlt, hstart⟩ := hstarted.succeeded hs
    have hsucceeded : (ofJob job).checkSucceeded = true := by
      have hstatus : (ofJob job).status = "succeeded" := congrArg statusName hs
      rw [checkSucceeded]
      simp only [(claimed_ofJob job).mpr hclaim, (budget_ofJob job).mpr hlt, hstatus,
        leaseIsNull_ofJob.mpr hlease]
      simp [ofJob, Option.isSome_iff_ne_none, hfin, hstart]
    simp [hsucceeded]
  | failed =>
    simp only [Job.Phase, hs] at hphase
    obtain ⟨hlease, hfin⟩ := hphase
    have hbudget : (ofJob job).failureCount ≤ (ofJob job).maxAttempts :=
      Int.ofNat_le.mpr (UInt32.le_iff_toNat_le.mp hvalid.budget)
    have hfailed : (ofJob job).checkFailed = true := by
      have hstatus : (ofJob job).status = "failed" := congrArg statusName hs
      rw [checkFailed]
      simp only [hbudget, hstatus, leaseIsNull_ofJob.mpr hlease]
      simp [ofJob, Option.isSome_iff_ne_none, hfin]
    simp [hfailed]

/-- **A row that passes the CHECK started properly.** -/
theorem started_of_check {job : Job} (h : (ofJob job).check = true) : job.Started := by
  have hshape : (ofJob job).checkRunning = true ∨ (ofJob job).checkWaiting = true ∨
      (ofJob job).checkSucceeded = true ∨ (ofJob job).checkFailed = true := by
    simp only [check, Bool.and_eq_true, Bool.or_eq_true, or_assoc] at h
    exact h.2
  refine ⟨fun hs => ?_, fun hs => ?_⟩
  · have hstatus : (ofJob job).status = "running" := congrArg statusName hs
    rcases hshape with hrow | hrow | hrow | hrow
    · simp only [checkRunning, Bool.and_eq_true, Option.isSome_iff_ne_none] at hrow
      exact ⟨hrow.1.1.2, hrow.1.2⟩
    · simp [checkWaiting, hstatus] at hrow
    · simp [checkSucceeded, hstatus] at hrow
    · simp [checkFailed, hstatus] at hrow
  · have hstatus : (ofJob job).status = "succeeded" := congrArg statusName hs
    rcases hshape with hrow | hrow | hrow | hrow
    · simp [checkRunning, hstatus] at hrow
    · simp [checkWaiting, hstatus] at hrow
    · simp only [checkSucceeded, Bool.and_eq_true, decide_eq_true_eq,
        Option.isSome_iff_ne_none] at hrow
      exact ⟨(claimed_ofJob job).mp hrow.1.1.1.1.2, (budget_ofJob job).mp hrow.1.1.1.2, hrow.1.2⟩
    · simp [checkFailed, hstatus] at hrow

end JobRow

/-! ## Arguments -/

/-- **An instant that the database and the calendar both hold**, in whole microseconds. -/
structure Instant (t : DateTime) : Prop where
  first : pgFirst ≤ t
  last : t ≤ DateTime.maxUtc
  micro : (1000 : ℤ) ∣ t

/-- A text PostgreSQL can hold. -/
def IsText (s : String) : Prop := '\x00' ∉ s.toList

/-- **The lease ends inside the calendar, and double precision counts its microseconds exactly.** -/
structure LeaseFits (now : DateTime) (milliseconds : ℕ) : Prop where
  positive : 0 < milliseconds
  exact : intervalMicroseconds milliseconds = 1000 * milliseconds
  calendar : now + milliseconds * 1000000 ≤ DateTime.maxUtc

theorem Instant.inCalendar {t : DateTime} (h : Instant t) :
    DateTime.minUtc ≤ t ∧ t ≤ DateTime.maxUtc := by
  have hfirst : DateTime.minUtc ≤ pgFirst := by decide
  exact ⟨Int.le_trans hfirst h.first, h.last⟩

theorem bindTimestamptz_of_instant {t : DateTime} (h : Instant t) : bindTimestamptz t = .ok t := by
  have hlast : DateTime.maxUtc < pgEnd := by decide
  have hkept := timestamptz_of_dvd h.micro
  rw [bindTimestamptz, hkept, if_pos ⟨h.first, Int.lt_of_le_of_lt h.last hlast⟩]

theorem bindText_eq_ok {s t : String} (h : bindText s = .ok t) : t = s := by
  unfold bindText at h
  split_ifs at h
  exact (Except.ok.inj h).symm

theorem bindText_of_isText {s : String} (h : IsText s) : bindText s = .ok s := by
  rw [bindText, if_neg h]

theorem leaseMilliseconds_of_pos {milliseconds : ℕ} (h : 0 < milliseconds) :
    JobRow.leaseMilliseconds (milliseconds * 1000000) = .ok milliseconds := by
  have hdiv : ((milliseconds : ℤ) * 1000000) / 1000000 = milliseconds :=
    Int.mul_ediv_cancel _ (by decide)
  have hpos : ¬ ((milliseconds : ℤ) * 1000000 ≤ 0) := by omega
  have hpos' : ¬ ((milliseconds : ℤ) ≤ 0) := by omega
  rw [JobRow.leaseMilliseconds, if_neg hpos]
  simp only [hdiv, if_neg hpos', Int.toNat_natCast]

theorem leaseEnd_of_fits {now : DateTime} {milliseconds : ℕ} (hnow : Instant now)
    (h : LeaseFits now milliseconds) :
    leaseEnd now milliseconds = .ok (now + milliseconds * 1000000) := by
  have hfirst := hnow.first
  have hcal := h.calendar
  have hsum (a : ℤ) (n : ℕ) : a + ((1000 * n : ℕ) : ℤ) * 1000 = a + n * 1000000 := by omega
  have hsmall : 1000 * milliseconds ≤ i64Max := by
    simp only [pgFirst, DateTime.maxUtc] at hfirst hcal
    unfold i64Max
    have harith (a b c : ℤ) (h₁ : -210866803200 * 1000000000 ≤ a) (h₂ : a + b * 1000000 ≤ c)
        (hc : c = 8210266876799 * 1000000000 + 999999999) : 1000 * b ≤ 9223372036854775807 := by
      omega
    have := harith now milliseconds _ hfirst hcal rfl
    omega
  have hlast : DateTime.maxUtc < pgEnd := by decide
  simp only [leaseEnd, h.exact, hsum]
  rw [if_pos ⟨hsmall, Int.lt_of_le_of_lt hcal hlast⟩]

theorem leaseExpiry_of_fits {now : DateTime} {milliseconds : ℕ} (hnow : Instant now)
    (h : LeaseFits now milliseconds) :
    leaseExpiry now (milliseconds * 1000000) = .ok (now + milliseconds * 1000000) := by
  have hpos := h.positive
  have hlease : ¬ ((milliseconds : ℤ) * 1000000 ≤ 0) := by omega
  have hafter : DateTime.minUtc ≤ now + milliseconds * 1000000 := by
    have hle (a b c : ℤ) (h₁ : a ≤ b) (h₂ : ¬ c ≤ 0) : a ≤ b + c := by omega
    exact hle _ _ _ hnow.inCalendar.1 hlease
  rw [leaseExpiry, if_neg hlease, DateTime.checkedAddSigned, if_pos ⟨hafter, h.calendar⟩]

/-- **A lease on which the statements and the domain agree**: it ends at `leaseUntil` for both. -/
structure Leases (now : DateTime) (leaseFor : Duration) (leaseUntil : DateTime) : Prop where
  statement : ∃ milliseconds, JobRow.leaseMilliseconds leaseFor = .ok milliseconds ∧
    leaseEnd now milliseconds = .ok leaseUntil
  domain : leaseExpiry now leaseFor = .ok leaseUntil
  inCalendar : DateTime.minUtc ≤ leaseUntil ∧ leaseUntil ≤ DateTime.maxUtc

theorem LeaseFits.leases {now : DateTime} {milliseconds : ℕ} (hnow : Instant now)
    (h : LeaseFits now milliseconds) :
    Leases now (milliseconds * 1000000) (now + milliseconds * 1000000) where
  statement := ⟨milliseconds, leaseMilliseconds_of_pos h.positive, leaseEnd_of_fits hnow h⟩
  domain := leaseExpiry_of_fits hnow h
  inCalendar := by
    have hle (a b c : ℤ) (h₁ : a ≤ b) (h₂ : 0 ≤ c) : a ≤ b + c := by omega
    have hpos : (0 : ℤ) ≤ milliseconds * 1000000 := by omega
    exact ⟨hle _ _ _ hnow.inCalendar.1 hpos, h.calendar⟩

/-- **Every lease under 2283 years is exact.** -/
theorem intervalMicroseconds_exact {milliseconds : ℕ} (h : milliseconds < 72057594037927) :
    intervalMicroseconds milliseconds = 1000 * milliseconds := by
  by_cases hzero : milliseconds = 0
  · rw [hzero]
    rfl
  have hlog : Nat.log2 milliseconds < 53 := (Nat.log2_lt hzero).mpr (by omega)
  have hlog' : Nat.log2 (1000 * milliseconds) < 56 := (Nat.log2_lt (by omega)).mpr (by omega)
  have hround : roundDouble milliseconds = milliseconds := by
    refine roundDouble_of_dvd ?_
    have hunit : Nat.log2 milliseconds - 52 = 0 := by omega
    rw [hunit]
    exact Nat.one_dvd _
  rw [intervalMicroseconds, hround]
  -- The last bit of the product is worth at most eight, and it is a multiple of eight.
  refine roundDouble_of_dvd ?_
  have hunit : 2 ^ (Nat.log2 (1000 * milliseconds) - 52) ∣ 2 ^ 3 := Nat.pow_dvd_pow 2 (by omega)
  have height : 2 ^ 3 ∣ 1000 * milliseconds := ⟨125 * milliseconds, by omega⟩
  exact Nat.dvd_trans hunit height

/-! ## The operations under a lease -/

namespace Job

theorem ensureLiveOwner_of_live {job : Job} {owner : String} {token : LeaseToken} {now : DateTime}
    (h : job.Live owner token now) (operation : String) :
    job.ensureLiveOwner owner token now operation = .ok () := by
  obtain ⟨hrun, howner, htoken, leaseUntil, huntil, hahead⟩ := h
  simp [ensureLiveOwner, hrun, howner, htoken, huntil, hahead]

theorem ensureLiveOwner_of_not_live {job : Job} {owner : String} {token : LeaseToken}
    {now : DateTime} (h : ¬ job.Live owner token now) (operation : String) :
    ∃ e, job.ensureLiveOwner owner token now operation = .error e := by
  rcases job.ensureLiveOwner_cases owner token now operation with herror | ⟨-, hlive⟩
  · exact herror
  · exact absurd hlive h

/-- **An accepted operation keeps `Started`.** -/
theorem Moves.started {job job' : Job} {op : JobOp} (h : Moves job op job') (hvalid : job.Valid)
    (hstarted : job.Started) : job'.Started := by
  -- What a live job has: a claim, budget, and a start.
  have hlive : ∀ {owner token now}, job.Live owner token now →
      job.claimCount ≠ 0 ∧ job.failureCount < job.maxAttempts ∧ job.startedAt ≠ none := by
    intro owner token now hlive
    have hphase := hvalid.phase
    simp only [Phase, hlive.running] at hphase
    exact ⟨hphase.1, hphase.2.2.2, (hstarted.running hlive.running).2⟩
  cases h with
  | claim =>
    exact ⟨fun _ => ⟨Option.some_ne_none _, Option.some_ne_none _⟩, (fun hs => by cases hs)⟩
  | heartbeat h =>
    refine ⟨fun _ => ⟨Option.some_ne_none _, (hlive h).2.2⟩, fun hs => ?_⟩
    have hrun : job.status = .succeeded := hs
    rw [h.running] at hrun
    cases hrun
  | succeed h => exact ⟨(fun hs => by cases hs), fun _ => hlive h⟩
  | defer | retryLast | retryWait | fail | cancel | recoverLast | recoverQueue =>
    exact ⟨(fun hs => by cases hs), (fun hs => by cases hs)⟩

end Job

namespace JobRow

/-- **A statement refines an operation**: it changes the row exactly when the operation is accepted,
and then the row decodes to the job the operation leaves and passes the CHECK. -/
def Refines (result : Except JobRepositoryError (Option JobRow)) (job : Job) (op : JobOp) : Prop :=
  ((∃ row, result = .ok (some row)) ↔ (job.apply op).2.accepted = true) ∧
    ∀ row, result = .ok (some row) → row.decodeJob = .ok (job.apply op).1 ∧ row.check = true

theorem refines_of_rejected {result : Except JobRepositoryError (Option JobRow)} {job : Job}
    {op : JobOp} (hnone : ∀ row, result ≠ .ok (some row))
    (hrejected : (job.apply op).2.accepted = false) : Refines result job op := by
  refine ⟨⟨fun ⟨row, hrow⟩ => absurd hrow (hnone row), fun h => ?_⟩, fun row hrow => ?_⟩
  · rw [hrejected] at h
    cases h
  · exact absurd hrow (hnone row)

/-- The statement leaves the row of the job that the operation leaves. -/
theorem refines_of_accepted {result : Except JobRepositoryError (Option JobRow)} {job : Job}
    {op : JobOp} (hvalid : job.Valid) (hstarted : job.Started)
    (haccepted : (job.apply op).2.accepted = true) (hcal : (job.apply op).1.InCalendar)
    (hrow : result = .ok (some (ofJob (job.apply op).1))) : Refines result job op := by
  refine ⟨⟨fun _ => haccepted, fun _ => ⟨_, hrow⟩⟩, fun row h => ?_⟩
  obtain rfl := Option.some.inj (Except.ok.inj (hrow.symm.trans h))
  rcases hvalid.settles op with ⟨hrejected, -⟩ | ⟨-, hmoves⟩
  · rw [hrejected] at haccepted
    cases haccepted
  · exact ⟨decodeJob_ofJob (hmoves.valid hvalid) hcal,
      check_ofJob (hmoves.valid hvalid) (hmoves.started hvalid hstarted)⟩

/-- **The guard of a statement is the lease guard of the domain.** -/
theorem isFenced_ofJob {job : Job} {owner : String} {token : LeaseToken} {now : DateTime} :
    (ofJob job).isFenced job.id owner token now = true ↔ job.Live owner token now := by
  have hstatus : (ofJob job).status = "running" ↔ job.status = .running :=
    statusName_inj (a := job.status) (b := .running)
  have htoken : (ofJob job).leaseToken = some token.uuid ↔ job.leaseToken = some token := by
    change job.leaseToken.map LeaseToken.uuid = some token.uuid ↔ _
    cases job.leaseToken with
    | none => exact ⟨nofun, nofun⟩
    | some t =>
      cases t
      cases token
      simp
  have hid : (ofJob job).id = job.id := rfl
  simp only [isFenced, hid, Bool.and_eq_true, decide_eq_true_eq, hstatus, htoken, Option.any_eq_true,
    true_and]
  constructor
  · rintro ⟨⟨⟨hrun, howner⟩, htok⟩, leaseUntil, huntil, hahead⟩
    exact ⟨hrun, howner, htok, leaseUntil, huntil, hahead⟩
  · rintro ⟨hrun, howner, htok, leaseUntil, huntil, hahead⟩
    exact ⟨⟨⟨hrun, howner⟩, htok⟩, leaseUntil, huntil, hahead⟩

section Operations

variable {job : Job} {owner : String} {token : LeaseToken} {now : DateTime}

/-- A statement that only asks for a live lease refines an operation that only asks for one. -/
theorem refines_fenced {result : Except JobRepositoryError (Option JobRow)} {op : JobOp}
    (_hfence : op.fence = some (owner, token, now)) (hvalid : job.Valid) (hstarted : job.Started)
    (hlive : job.Live owner token now → (ofJob job).isFenced job.id owner token now = true →
      (job.apply op).2.accepted = true ∧ (job.apply op).1.InCalendar ∧
        result = .ok (some (ofJob (job.apply op).1)))
    (hdead : ¬ job.Live owner token now → (ofJob job).isFenced job.id owner token now = false →
      (job.apply op).2.accepted = false ∧ result = .ok none) :
    Refines result job op := by
  by_cases h : job.Live owner token now
  · obtain ⟨haccepted, hcal, hresult⟩ := hlive h (isFenced_ofJob.mpr h)
    exact refines_of_accepted hvalid hstarted haccepted hcal hresult
  · obtain ⟨hrejected, hresult⟩ :=
      hdead h (Bool.eq_false_iff.mpr fun hf => h (isFenced_ofJob.mp hf))
    exact refines_of_rejected (fun row hrow => nomatch hresult.symm.trans hrow) hrejected

theorem refines_heartbeat (hvalid : job.Valid) (hcal : job.InCalendar) (hstarted : job.Started)
    (hnow : Instant now) (htext : IsText owner) {leaseFor : Duration} {leaseUntil : DateTime}
    (hleases : Leases now leaseFor leaseUntil) :
    Refines ((ofJob job).heartbeat job.id owner token now leaseFor) job
      (.heartbeat owner token now leaseFor) := by
  obtain ⟨⟨milliseconds, hms, hend⟩, hexpiry, huntil⟩ := hleases
  rcases Job.validateOwner_cases owner with howner | ⟨howner, -⟩
  · refine refines_of_rejected (fun row => ?_) (by simp [Job.apply, Job.heartbeat, howner])
    rw [heartbeat, howner]
    intro hok
    cases hok
  refine refines_fenced rfl hvalid hstarted (fun hlive hfenced => ?_) fun hdead hfenced => ?_
  · have hlive := Job.ensureLiveOwner_of_live hlive "heartbeat"
    simp only [Job.apply, Job.heartbeat, howner, hexpiry, hlive]
    refine ⟨rfl, { hcal with
      leaseUntil := fun t ht => Option.some.inj ht ▸ huntil
      heartbeatAt := fun t ht => Option.some.inj ht ▸ hnow.inCalendar
      updatedAt := hnow.inCalendar }, ?_⟩
    rw [heartbeat, howner, hms, bindText_of_isText htext]
    simp only [Except.mapError, ok_bind, hfenced, if_true, hend]
    rfl
  · obtain ⟨e, herror⟩ := Job.ensureLiveOwner_of_not_live hdead "heartbeat"
    refine ⟨by simp [Job.apply, Job.heartbeat, howner, hexpiry, herror], ?_⟩
    rw [heartbeat, howner, hms, bindText_of_isText htext]
    simp only [Except.mapError, ok_bind, hfenced, Bool.false_eq_true, if_false]
    rfl

theorem refines_defer (hvalid : job.Valid) (hcal : job.InCalendar) (hstarted : job.Started)
    (hnow : Instant now) (htext : IsText owner) {resumeAt : DateTime} (hresume : Instant resumeAt) :
    Refines ((ofJob job).defer job.id owner token now resumeAt) job
      (.defer owner token now resumeAt) := by
  rcases Job.validateOwner_cases owner with howner | ⟨howner, -⟩
  · refine refines_of_rejected (fun row => ?_) (by simp [Job.apply, Job.defer, howner])
    rw [defer, howner]
    intro hok
    cases hok
  have hstatement : (ofJob job).defer job.id owner token now resumeAt =
      if (ofJob job).isFenced job.id owner token now ∧ now < resumeAt then
        .ok (some { ofJob job with
          status := "deferred", runAfter := resumeAt, leaseOwner := none, leaseToken := none,
          leaseUntil := none, lastError := none, finishedAt := none, updatedAt := now })
      else .ok none := by
    rw [defer, howner, bindText_of_isText htext, bindTimestamptz_of_instant hresume]
    rfl
  by_cases hpast : resumeAt ≤ now
  · refine refines_of_rejected (fun row => ?_) (by simp [Job.apply, Job.defer, howner, hpast])
    rw [hstatement, if_neg fun h => not_lt.mpr hpast h.2]
    intro hok
    cases hok
  have hahead : now < resumeAt := not_le.mp hpast
  refine refines_fenced rfl hvalid hstarted (fun hlive hfenced => ?_) fun hdead hfenced => ?_
  · have hlive := Job.ensureLiveOwner_of_live hlive "defer"
    simp only [Job.apply, Job.defer, howner, if_neg hpast, hlive]
    refine ⟨rfl, { hcal with
      runAfter := hresume.inCalendar
      leaseUntil := fun _ ht => by cases ht
      finishedAt := fun _ ht => by cases ht
      updatedAt := hnow.inCalendar }, ?_⟩
    rw [hstatement, if_pos ⟨hfenced, hahead⟩]
    rfl
  · obtain ⟨e, herror⟩ := Job.ensureLiveOwner_of_not_live hdead "defer"
    refine ⟨by simp [Job.apply, Job.defer, howner, hpast, herror], ?_⟩
    rw [hstatement, if_neg fun h => Bool.false_ne_true (hfenced.symm.trans h.1)]

theorem refines_succeed (hvalid : job.Valid) (hcal : job.InCalendar) (hstarted : job.Started)
    (hnow : Instant now) (htext : IsText owner) :
    Refines ((ofJob job).succeed job.id owner token now) job (.succeed owner token now) := by
  rcases Job.validateOwner_cases owner with howner | ⟨howner, -⟩
  · refine refines_of_rejected (fun row => ?_) (by simp [Job.apply, Job.succeed, howner])
    rw [succeed, howner]
    intro hok
    cases hok
  refine refines_fenced rfl hvalid hstarted (fun hlive hfenced => ?_) fun hdead hfenced => ?_
  · have hlive := Job.ensureLiveOwner_of_live hlive "succeed"
    simp only [Job.apply, Job.succeed, howner, hlive]
    refine ⟨rfl, { hcal with
      leaseUntil := fun _ ht => by cases ht
      finishedAt := fun t ht => Option.some.inj ht ▸ hnow.inCalendar
      updatedAt := hnow.inCalendar }, ?_⟩
    rw [succeed, howner, bindText_of_isText htext]
    simp only [Except.mapError, ok_bind, hfenced, if_true]
    rfl
  · obtain ⟨e, herror⟩ := Job.ensureLiveOwner_of_not_live hdead "succeed"
    refine ⟨by simp [Job.apply, Job.succeed, howner, herror], ?_⟩
    rw [succeed, howner, bindText_of_isText htext]
    simp only [Except.mapError, ok_bind, hfenced, Bool.false_eq_true, if_false]
    rfl

theorem refines_fail (hvalid : job.Valid) (hcal : job.InCalendar) (hstarted : job.Started)
    (hnow : Instant now) (htext : IsText owner) {error : String} (htext' : IsText error) :
    Refines ((ofJob job).fail job.id owner token now error) job (.fail owner token now error) := by
  rcases Job.validateOwner_cases owner with howner | ⟨howner, -⟩
  · refine refines_of_rejected (fun row => ?_) (by simp [Job.apply, Job.fail, howner])
    rw [fail, howner]
    intro hok
    cases hok
  rcases Job.nonemptyError_cases error with hempty | hempty
  · refine refines_of_rejected (fun row => ?_) (by simp [Job.apply, Job.fail, howner, hempty])
    rw [fail, howner, hempty]
    intro hok
    cases hok
  refine refines_fenced rfl hvalid hstarted (fun hlive hfenced => ?_) fun hdead hfenced => ?_
  · have hlive := Job.ensureLiveOwner_of_live hlive "fail"
    simp only [Job.apply, Job.fail, howner, hempty, hlive]
    refine ⟨rfl, { hcal with
      leaseUntil := fun _ ht => by cases ht
      finishedAt := fun t ht => Option.some.inj ht ▸ hnow.inCalendar
      updatedAt := hnow.inCalendar }, ?_⟩
    rw [fail, howner, hempty, bindText_of_isText htext]
    simp only [Except.mapError, ok_bind, bindText_of_isText htext', hfenced, if_true]
    rfl
  · obtain ⟨e, herror⟩ := Job.ensureLiveOwner_of_not_live hdead "fail"
    refine ⟨by simp [Job.apply, Job.fail, howner, hempty, herror], ?_⟩
    rw [fail, howner, hempty, bindText_of_isText htext]
    simp only [Except.mapError, ok_bind, bindText_of_isText htext', hfenced, Bool.false_eq_true,
      if_false]
    rfl

/-- **The `CASE` of a row is the branch of the domain.** -/
theorem isSpent_ofJob {count : UInt32} (hcount : checkedAdd job.failureCount 1 = some count) :
    (ofJob job).isSpent = true ↔ job.maxAttempts ≤ count := by
  have hnat := toNat_of_checkedAdd_one hcount
  have hmax : (ofJob job).maxAttempts = (job.maxAttempts.toNat : ℤ) := rfl
  have hfail : (ofJob job).failureCount = (job.failureCount.toNat : ℤ) := rfl
  rw [isSpent, decide_eq_true_eq, hmax, hfail, UInt32.le_iff_toNat_le, hnat]
  omega

/-- The counter of a row counts as the counter of the job. -/
theorem failureCount_ofJob {count : UInt32} (hcount : checkedAdd job.failureCount 1 = some count) :
    (ofJob job).failureCount + 1 = (count.toNat : ℤ) := by
  have hnat := toNat_of_checkedAdd_one hcount
  have hfail : (ofJob job).failureCount = (job.failureCount.toNat : ℤ) := rfl
  rw [hfail, hnat]
  omega

theorem refines_retry (hvalid : job.Valid) (hcal : job.InCalendar) (hstarted : job.Started)
    (hnow : Instant now) (htext : IsText owner) {retryAt : DateTime} (hretry : Instant retryAt)
    {error : String} (htext' : IsText error) :
    Refines ((ofJob job).retry job.id owner token now retryAt error) job
      (.retry owner token now retryAt error) := by
  rcases Job.validateOwner_cases owner with howner | ⟨howner, -⟩
  · refine refines_of_rejected (fun row => ?_) (by simp [Job.apply, Job.retry, howner])
    rw [retry, howner]
    intro hok
    cases hok
  rcases Job.nonemptyError_cases error with hempty | hempty
  · refine refines_of_rejected (fun row => ?_) (by simp [Job.apply, Job.retry, howner, hempty])
    rw [retry, howner, hempty]
    intro hok
    cases hok
  refine refines_fenced rfl hvalid hstarted (fun hlive hfenced => ?_) fun hdead hfenced => ?_
  · obtain ⟨count, hcount, -, -⟩ := hvalid.count_failure hlive.running
    have hlive := Job.ensureLiveOwner_of_live hlive "retry"
    have hspent := isSpent_ofJob hcount
    have hrow : (ofJob job).retry job.id owner token now retryAt error = .ok (some { ofJob job with
        status := if (ofJob job).isSpent then "failed" else "retry_wait"
        failureCount := (count.toNat : ℤ)
        leaseOwner := none
        leaseToken := none
        leaseUntil := none
        runAfter := retryAt
        lastError := some error
        finishedAt := if (ofJob job).isSpent then some now else none
        updatedAt := now }) := by
      rw [retry, howner, hempty, bindText_of_isText htext, bindTimestamptz_of_instant hretry]
      simp only [Except.mapError, ok_bind, bindText_of_isText htext', hfenced, if_true,
        failureCount_ofJob hcount]
      rfl
    by_cases hlast : job.maxAttempts ≤ count
    · simp only [Job.apply, Job.retry, howner, hempty, hlive, Job.clearLease, hcount, ge_iff_le,
        hlast, if_true]
      refine ⟨rfl, { hcal with
        runAfter := hretry.inCalendar
        leaseUntil := fun _ ht => by cases ht
        finishedAt := fun t ht => Option.some.inj ht ▸ hnow.inCalendar
        updatedAt := hnow.inCalendar }, ?_⟩
      rw [hrow, if_pos (hspent.mpr hlast), if_pos (hspent.mpr hlast)]
      rfl
    · simp only [Job.apply, Job.retry, howner, hempty, hlive, Job.clearLease, hcount, ge_iff_le,
        hlast, if_false]
      refine ⟨rfl, { hcal with
        runAfter := hretry.inCalendar
        leaseUntil := fun _ ht => by cases ht
        finishedAt := fun _ ht => by cases ht
        updatedAt := hnow.inCalendar }, ?_⟩
      rw [hrow, if_neg fun h => hlast (hspent.mp h), if_neg fun h => hlast (hspent.mp h)]
      rfl
  · obtain ⟨e, herror⟩ := Job.ensureLiveOwner_of_not_live hdead "retry"
    refine ⟨by simp [Job.apply, Job.retry, howner, hempty, herror], ?_⟩
    rw [retry, howner, hempty, bindText_of_isText htext, bindTimestamptz_of_instant hretry]
    simp only [Except.mapError, ok_bind, bindText_of_isText htext', hfenced, Bool.false_eq_true,
      if_false]
    rfl

/-- A row without a lease in an active status is a waiting one: a running row has its lease. -/
theorem isWaiting_ofJob (hvalid : job.Valid) :
    ((ofJob job).status ∈ activeStatuses ∧ (ofJob job).leaseIsNull = true) ↔
      job.status.isWaiting = true := by
  have hphase := hvalid.phase
  have hstatus : (ofJob job).status = statusName job.status := rfl
  rw [leaseIsNull_ofJob, hstatus]
  cases hs : job.status with
  | running =>
    simp only [Job.Phase, hs] at hphase
    obtain ⟨-, ⟨owner, -, -, ho, -⟩, -⟩ := hphase
    refine ⟨fun h => ?_, fun h => by cases h⟩
    rw [h.2.owner] at ho
    cases ho
  | queued | retryWait | deferred =>
    simp only [Job.Phase, hs] at hphase
    exact ⟨fun _ => rfl, fun _ => ⟨by decide, hphase.1⟩⟩
  | succeeded | failed => exact ⟨fun h => absurd h.1 (by decide), fun h => by cases h⟩

theorem refines_cancel (hvalid : job.Valid) (hcal : job.InCalendar) (hstarted : job.Started)
    (hnow : Instant now) {reason : String} (htext : IsText reason) :
    Refines ((ofJob job).cancel job.id now reason) job (.cancel now reason) := by
  rcases Job.nonemptyError_cases reason with hempty | hempty
  · refine refines_of_rejected (fun row => ?_) (by simp [Job.apply, Job.cancel, hempty])
    rw [cancel, hempty]
    intro hok
    cases hok
  have hwaiting := isWaiting_ofJob hvalid
  have hid : (ofJob job).id = job.id := rfl
  have hstatement : (ofJob job).cancel job.id now reason =
      if job.status.isWaiting = true then .ok (some { ofJob job with
        status := "failed", lastError := some reason, finishedAt := some now, updatedAt := now })
      else .ok none := by
    rw [cancel, hempty]
    simp only [Except.mapError, ok_bind, bindText_of_isText htext, hid, true_and, hwaiting]
    rfl
  by_cases hwait : job.status.isWaiting = true
  · have hlease : job.NoLease := leaseIsNull_ofJob.mp (hwaiting.mpr hwait).2
    have hdomain : job.cancel now reason = ({ job with
        status := .failed, lastError := some reason, finishedAt := some now, updatedAt := now },
        .ok ()) := by
      simp [Job.cancel, hempty, hwait, Job.clearLease, hlease.owner, hlease.token, hlease.until']
    refine refines_of_accepted hvalid hstarted ?_ ?_ ?_
    · simp [Job.apply, hdomain]
    · simp only [Job.apply, hdomain]
      exact { hcal with
        finishedAt := fun t ht => Option.some.inj ht ▸ hnow.inCalendar
        updatedAt := hnow.inCalendar }
    · rw [hstatement, if_pos hwait]
      simp only [Job.apply, hdomain]
      rfl
  · refine refines_of_rejected (fun row => ?_) (by simp [Job.apply, Job.cancel, hempty, hwait])
    rw [hstatement, if_neg hwait]
    intro hok
    cases hok

end Operations

end JobRow

end Werrss
