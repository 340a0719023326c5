import Werrss.Persistence.JobRefinement

/-!
# Persistence/JobTableRefinement — `claim_next` and `recover_expired` on the whole table

    rows ── WHERE … ORDER BY … LIMIT n ──▸ picked ── SET … ──▸ rows'

What a statement picks is decided on the rows and read on their jobs: the filter is the domain's, the
order is `claim_order`, and the assignment leaves the row of the job the domain method leaves.
-/

open Machinery

namespace Werrss

namespace JobRow

/-! ## Claims -/

instance : Std.TransCmp claimCompare :=
  inferInstanceAs (Std.TransCmp (compareLex
    (fun a b => compareOn JobRow.priority b a)
    (compareLex (compareOn JobRow.runAfter)
      (compareLex (compareOn JobRow.createdAt) (compareOn fun a : JobRow => a.id.value)))))

/-- **The `WHERE` of `claim_next` is the filter of the domain's store.** -/
theorem isDue_ofJob {now : DateTime} {allowedJobTypes : List JobType} {job : Job} :
    isDue now allowedJobTypes (ofJob job) = JobStore.isClaimable now allowedJobTypes job := by
  have hstatus : (ofJob job).status ∈ ["queued", "retry_wait", "deferred"] ↔
      job.status.isWaiting = true := by
    change statusName job.status ∈ _ ↔ _
    cases job.status <;> decide
  have htype : (ofJob job).jobType ∈ allowedJobTypes.map jobTypeName ↔
      job.jobType ∈ allowedJobTypes := by
    change jobTypeName job.jobType ∈ _ ↔ _
    rw [List.mem_map]
    exact ⟨fun ⟨t, ht, heq⟩ => jobTypeName_inj.mp heq ▸ ht, fun h => ⟨_, h, rfl⟩⟩
  have hdue : (ofJob job).runAfter ≤ now ↔ job.runAfter ≤ now := Iff.rfl
  rw [Bool.eq_iff_iff]
  simp only [isDue, JobStore.isClaimable, Bool.and_eq_true, decide_eq_true_eq, hstatus, htype,
    budget_ofJob, hdue]
  tauto

theorem refines_claimed {job : Job} (hvalid : job.Valid) (hcal : job.InCalendar)
    (hstarted : job.Started) {owner : String} (howner : isBlank owner = false) {now : DateTime}
    (hnow : Instant now) {leaseFor : Duration} {leaseUntil : DateTime}
    (hexpiry : leaseExpiry now leaseFor = .ok leaseUntil)
    (huntil : DateTime.minUtc ≤ leaseUntil ∧ leaseUntil ≤ DateTime.maxUtc)
    {allowedJobTypes : List JobType}
    (hclaimable : JobStore.isClaimable now allowedJobTypes job = true)
    (hcount : job.claimCount.toNat + 1 < UInt32.size) (draw : LeaseToken) :
    (job.claim owner now leaseFor draw).2 = .ok draw ∧
      (claimed owner draw now leaseUntil (ofJob job)).decodeJob
        = .ok (job.claim owner now leaseFor draw).1 ∧
      (claimed owner draw now leaseUntil (ofJob job)).check = true := by
  simp only [JobStore.isClaimable, Bool.and_eq_true, decide_eq_true_eq] at hclaimable
  obtain ⟨⟨⟨hwait, hdue⟩, -⟩, hbudget⟩ := hclaimable
  have hchecked : checkedAdd job.claimCount 1 = some (job.claimCount + 1) := by
    rw [checkedAdd, UInt32.toNat_one, if_pos hcount]
  have hnat := toNat_of_checkedAdd_one hchecked
  have hvalidOwner : validateOwner owner = .ok () := by simp [validateOwner, howner]
  have hdue' : ¬ job.runAfter > now := not_lt.mpr hdue
  have hbudget' : ¬ job.failureCount ≥ job.maxAttempts := UInt32.not_le.mpr hbudget
  have hdomain : job.claim owner now leaseFor draw = ({ job with
      claimCount := job.claimCount + 1
      status := .running
      leaseOwner := some owner
      leaseToken := some draw
      leaseUntil := some leaseUntil
      heartbeatAt := some now
      startedAt := some (job.startedAt.getD now)
      finishedAt := none
      updatedAt := now }, .ok draw) := by
    simp [Job.claim, hvalidOwner, hexpiry, hwait, hdue', hbudget', hchecked]
  have hmoves := (job.claim_settles owner now leaseFor draw)
  simp only [Job.Settles, Job.apply, hdomain] at hmoves
  rcases hmoves with ⟨hrejected, -⟩ | ⟨-, hmoves⟩
  · cases hrejected
  have hrow : claimed owner draw now leaseUntil (ofJob job) =
      ofJob (job.claim owner now leaseFor draw).1 := by
    have hclaims : (ofJob job).claimCount + 1 = ((job.claimCount + 1).toNat : ℤ) := by
      rw [hnat]
      rfl
    rw [hdomain, claimed, hclaims]
    rfl
  have hcal' : (job.claim owner now leaseFor draw).1.InCalendar := by
    rw [hdomain]
    refine { hcal with
      leaseUntil := fun t ht => Option.some.inj ht ▸ huntil
      heartbeatAt := fun t ht => Option.some.inj ht ▸ hnow.inCalendar
      startedAt := fun t ht => ?_
      finishedAt := fun _ ht => by cases ht
      updatedAt := hnow.inCalendar }
    obtain rfl := Option.some.inj ht
    cases hstart : job.startedAt with
    | none => exact hnow.inCalendar
    | some start => exact hcal.startedAt start hstart
  rw [hrow]
  refine ⟨by rw [hdomain], decodeJob_ofJob ?_ hcal', check_ofJob ?_ ?_⟩
  · rw [hdomain]
    exact hmoves.valid hvalid
  · rw [hdomain]
    exact hmoves.valid hvalid
  · rw [hdomain]
    exact hmoves.started hvalid hstarted

/-- **What a claim does to the table** when `job`, in the row `candidate`, is the one to claim. -/
structure Claims (rows : List JobRow) (result : Except JobRepositoryError (Option JobRow × List JobRow))
    (candidate : JobRow) (job : Job) (op : JobOp) : Prop where
  accepted : (∃ row rows', result = .ok (some row, rows')) ↔ (job.apply op).2.accepted = true
  updated : ∀ row rows', result = .ok (some row, rows') →
    row.decodeJob = .ok (job.apply op).1 ∧ row.check = true ∧
      rows' = rows.map fun other => if other = candidate then row else other

/-- **The row a claim is for**: its job is claimable, and before every other claimable job. -/
structure Picks (rows : List JobRow) (now : DateTime) (allowedJobTypes : List JobType)
    (candidate : JobRow) (job : Job) : Prop where
  mem : candidate ∈ rows
  decodes : candidate.decodeJob = .ok job
  claimable : JobStore.isClaimable now allowedJobTypes job = true
  first : ∀ other ∈ rows, other ≠ candidate → ∀ job', other.decodeJob = .ok job' →
    JobStore.isClaimable now allowedJobTypes job' = true → claimOrder job job' = .lt

/-- Rows of the table: their identifiers differ, they pass the CHECK, and they decode. -/
structure Table (rows : List JobRow) : Prop where
  primaryKey : (rows.map JobRow.id).Nodup
  checked : ∀ row ∈ rows, row.check = true
  decodes : ∀ row ∈ rows, ∃ job, row.decodeJob = .ok job

section Table

variable {rows : List JobRow} (htable : Table rows)
include htable

theorem Table.eq_of_id {a b : JobRow} (ha : a ∈ rows) (hb : b ∈ rows) (h : a.id = b.id) : a = b :=
  List.inj_on_of_nodup_map htable.primaryKey ha hb h

/-- A row of the table is the row of its job. -/
theorem Table.row {row : JobRow} (hrow : row ∈ rows) :
    ∃ job, row = ofJob job ∧ row.decodeJob = .ok job ∧ job.Valid ∧ job.InCalendar ∧
      job.Started := by
  obtain ⟨job, hjob⟩ := htable.decodes row hrow
  obtain ⟨rfl, hvalid, hcal⟩ := decode_eq_ok hjob
  exact ⟨job, rfl, hjob, hvalid, hcal, started_of_check (htable.checked _ hrow)⟩

/-- **What `ORDER BY … LIMIT 1` picks is the job to claim.** -/
theorem Table.picks {now : DateTime} {allowedJobTypes : List JobType} {candidate : JobRow}
    {others : List JobRow}
    (hfirst : firstBy (fun a b => (claimCompare a b).isLE = true) 1
      (rows.filter (isDue now allowedJobTypes)) = candidate :: others) :
    ∃ job, Picks rows now allowedJobTypes candidate job := by
  let before (a b : JobRow) : Prop := (claimCompare a b).isLE = true
  have : Std.Total before := ⟨fun a b => by
    cases h : claimCompare a b with
    | lt | eq => exact .inl (by simp [before, h])
    | gt => exact .inr (by simp [before, Std.OrientedCmp.lt_of_gt h])⟩
  have : IsTrans JobRow before := ⟨fun _ _ _ hab hbc => Std.TransCmp.isLE_trans hab hbc⟩
  have hmem : candidate ∈ firstBy before 1 (rows.filter (isDue now allowedJobTypes)) := by
    rw [hfirst]
    exact List.mem_cons_self
  have hothers : others = [] := by
    have hlength := length_firstBy before 1 (rows.filter (isDue now allowedJobTypes))
    rw [hfirst, List.length_cons] at hlength
    exact List.length_eq_zero_iff.mp (by omega)
  obtain ⟨hrow, hdue⟩ := List.mem_filter.mp (mem_of_mem_firstBy before hmem)
  obtain ⟨job, heq, hjob, -⟩ := htable.row hrow
  refine ⟨job, hrow, hjob, by rw [← isDue_ofJob, ← heq]; exact hdue, ?_⟩
  intro other hother hne job' hjob' hclaimable
  obtain ⟨heq', -, -⟩ := decode_eq_ok hjob'
  have hdue' : isDue now allowedJobTypes other = true := by
    rw [heq', isDue_ofJob]
    exact hclaimable
  have hrest : other ∈ restBy before 1 (rows.filter (isDue now allowedJobTypes)) := by
    refine mem_restBy before (List.mem_filter.mpr ⟨hother, hdue'⟩) ?_
    rw [hfirst, hothers, List.mem_singleton]
    exact hne
  have hle := firstBy_before before hmem hrest
  refine lt_of_isLE_of_id_ne ?_ fun hid => hne ?_
  · rw [heq, heq'] at hle
    exact hle
  · refine htable.eq_of_id hother hrow ?_
    rw [heq, heq']
    exact hid.symm

/-- No row is due exactly when no job is claimable. -/
theorem Table.none_due {now : DateTime} {allowedJobTypes : List JobType} :
    rows.filter (isDue now allowedJobTypes) = [] ↔
      ∀ row ∈ rows, ∀ job, row.decodeJob = .ok job →
        JobStore.isClaimable now allowedJobTypes job = false := by
  rw [List.filter_eq_nil_iff]
  refine ⟨fun h row hrow job hjob => ?_, fun h row hrow hdue => ?_⟩
  · have hnot := h row hrow
    rw [(decode_eq_ok hjob).1, isDue_ofJob] at hnot
    exact Bool.eq_false_iff.mpr hnot
  · obtain ⟨job, heq, hjob, -⟩ := htable.row hrow
    have hnot := h row hrow job hjob
    rw [heq, isDue_ofJob, hnot] at hdue
    cases hdue

/-- **A claim takes the first job there is to claim**, or none where there is none. -/
theorem Table.claimNext_spec {now : DateTime} (hnow : Instant now) {owner : String}
    (htext : IsText owner) {leaseFor : Duration} {leaseUntil : DateTime}
    (hleases : Leases now leaseFor leaseUntil) (allowedJobTypes : List JobType)
    (draw : LeaseToken) :
    ((∀ row ∈ rows, ∀ job, row.decodeJob = .ok job →
        JobStore.isClaimable now allowedJobTypes job = false) ∧
      (isBlank owner = false →
        claimNext rows owner now leaseFor allowedJobTypes draw = .ok (none, rows))) ∨
    ∃ candidate job, Picks rows now allowedJobTypes candidate job ∧
      (job.claimCount.toNat + 1 < UInt32.size →
        Claims rows (claimNext rows owner now leaseFor allowedJobTypes draw) candidate job
          (.claim owner now leaseFor draw)) := by
  obtain ⟨⟨milliseconds, hms, hend⟩, hexpiry, huntil⟩ := hleases
  cases hfirst : firstBy (fun a b => (claimCompare a b).isLE = true) 1
      (rows.filter (isDue now allowedJobTypes)) with
  | nil =>
    have hnil : rows.filter (isDue now allowedJobTypes) = [] := by
      have hlength := length_firstBy (fun a b => (claimCompare a b).isLE = true) 1
        (rows.filter (isDue now allowedJobTypes))
      rw [hfirst, List.length_nil] at hlength
      exact List.length_eq_zero_iff.mp (by omega)
    refine .inl ⟨htable.none_due.mp hnil, fun howner => ?_⟩
    have hvalidOwner : validateOwner owner = .ok () := by simp [validateOwner, howner]
    rw [claimNext, hvalidOwner, hms, bindText_of_isText htext]
    simp only [Except.mapError, ok_bind, hfirst]
    rfl
  | cons candidate others =>
    obtain ⟨job, hpicks⟩ := htable.picks hfirst
    refine .inr ⟨candidate, job, hpicks, fun hcount => ?_⟩
    obtain ⟨job', heq, hjob, hvalid, hcal, hstarted⟩ := htable.row hpicks.mem
    obtain rfl := Except.ok.inj (hpicks.decodes.symm.trans hjob)
    rcases Job.validateOwner_cases owner with howner | ⟨howner, hblank⟩
    · have hresult : ∀ row rows',
          claimNext rows owner now leaseFor allowedJobTypes draw ≠ .ok (some row, rows') := by
        intro row rows'
        rw [claimNext, howner]
        intro hok
        cases hok
      have hrejected : (job.apply (.claim owner now leaseFor draw)).2.accepted = false := by
        simp [Job.apply, Job.claim, howner]
      refine ⟨⟨fun hok => ?_, fun h => ?_⟩,
        fun row rows' h => absurd h (hresult row rows')⟩
      · obtain ⟨row, rows', h⟩ := hok
        exact absurd h (hresult row rows')
      · rw [hrejected] at h
        cases h
    · obtain ⟨hok, hdecode, hcheck⟩ :=
        refines_claimed hvalid hcal hstarted hblank hnow hexpiry huntil hpicks.claimable hcount draw
      rw [← heq] at hdecode hcheck
      have hresult : claimNext rows owner now leaseFor allowedJobTypes draw =
          .ok (some (claimed owner draw now leaseUntil candidate), rows.map fun row =>
            if row.id = candidate.id then claimed owner draw now leaseUntil row else row) := by
        rw [claimNext, howner, hms, bindText_of_isText htext]
        simp only [Except.mapError, ok_bind, hfirst, hend]
        rfl
      have haccepted : (job.apply (.claim owner now leaseFor draw)).2.accepted = true := by
        simp only [Job.apply, hok]
        rfl
      refine ⟨⟨fun _ => haccepted, fun _ => ⟨_, _, hresult⟩⟩, fun row rows' h => ?_⟩
      obtain ⟨hrow, hrows⟩ := Prod.mk.inj (Except.ok.inj (hresult.symm.trans h))
      obtain rfl := Option.some.inj hrow
      refine ⟨hdecode, hcheck, hrows.symm.trans ?_⟩
      refine List.map_congr_left fun other hother => ?_
      by_cases hid : other.id = candidate.id
      · rw [if_pos hid, if_pos (htable.eq_of_id hother hpicks.mem hid),
          htable.eq_of_id hother hpicks.mem hid]
      · rw [if_neg hid, if_neg fun h => hid (congrArg JobRow.id h)]

end Table

/-! ## Recoveries -/

theorem isExpired_ofJob {now : DateTime} {job : Job} :
    isExpired now (ofJob job) = JobStore.isExpired now job := by
  have hstatus : (ofJob job).status = "running" ↔ job.status = .running :=
    statusName_inj (a := job.status) (b := .running)
  have huntil : (ofJob job).leaseUntil = job.leaseUntil := rfl
  simp only [isExpired, JobStore.isExpired, hstatus, huntil]

/-- **The assignment of `recover_expired` leaves the row of the recovered job.** -/
theorem recovered_ofJob {now : DateTime} {job : Job} (hvalid : job.Valid)
    (hexpired : JobStore.isExpired now job = true) :
    recovered now (ofJob job) = ofJob (JobStore.recovered now job) := by
  have hmoves := JobStore.moves_recovered hexpired
  generalize JobStore.recovered now job = job' at hmoves
  -- Both outcomes count a failure; the `CASE` chooses as the domain does.
  have hsum : ∀ {count}, checkedAdd job.failureCount 1 = some count →
      saturatingAdd job.failureCount 1 = count := saturatingAdd_of_checkedAdd
  cases hmoves with
  | recoverLast hrun hlast =>
    obtain ⟨count, hcount, -, -⟩ := hvalid.count_failure hrun
    rw [hsum hcount] at hlast ⊢
    have hspent := (isSpent_ofJob hcount).mpr hlast
    rw [recovered, failureCount_ofJob hcount, if_pos hspent, if_pos hspent]
    rfl
  | recoverQueue hrun hmore =>
    obtain ⟨count, hcount, -, -⟩ := hvalid.count_failure hrun
    rw [hsum hcount] at hmore ⊢
    have hspent : ¬ (ofJob job).isSpent = true := fun h =>
      UInt32.not_le.mpr hmore ((isSpent_ofJob hcount).mp h)
    rw [recovered, failureCount_ofJob hcount, if_neg hspent, if_neg hspent]
    rfl

theorem inCalendar_recovered {now : DateTime} {job : Job} (hnow : Instant now)
    (hcal : job.InCalendar) (hexpired : JobStore.isExpired now job = true) :
    (JobStore.recovered now job).InCalendar := by
  have hmoves := JobStore.moves_recovered hexpired
  generalize JobStore.recovered now job = job' at hmoves
  cases hmoves with
  | recoverLast =>
    exact { hcal with
      runAfter := hnow.inCalendar
      leaseUntil := nofun
      finishedAt := fun t ht => Option.some.inj ht ▸ hnow.inCalendar
      updatedAt := hnow.inCalendar }
  | recoverQueue =>
    exact { hcal with
      runAfter := hnow.inCalendar
      leaseUntil := nofun
      finishedAt := nofun
      updatedAt := hnow.inCalendar }

/-- **What a recovery does to the table**: the first `limit` expired rows, no others, become the rows
of their recovered jobs. -/
structure Recovers (rows : List JobRow) (now : DateTime) (limit : ℕ) (taken rows' : List JobRow) :
    Prop where
  distinct : taken.Nodup
  expired : ∀ row ∈ taken, row ∈ rows ∧ ∃ job, row.decodeJob = .ok job ∧
    JobStore.isExpired now job = true ∧
    (recovered now row).decodeJob = .ok (job.recoverExpiredLease now).1 ∧
    (job.recoverExpiredLease now).2 = true ∧ (recovered now row).check = true
  count : taken.length = min limit (rows.filter (isExpired now)).length
  first : ∀ row ∈ taken, ∀ other ∈ rows, isExpired now other = true → other ∉ taken →
    expiresBefore row other = true
  updated : rows' = rows.map fun row => if row ∈ taken then recovered now row else row

theorem expiresBefore_total (a b : JobRow) : expiresBefore a b = true ∨ expiresBefore b a = true := by
  unfold expiresBefore
  cases a.leaseUntil with
  | none =>
    cases b.leaseUntil with
    | none => simpa using Nat.le_total _ _
    | some y => exact .inr rfl
  | some x =>
    cases b.leaseUntil with
    | none => exact .inl rfl
    | some y =>
      simp only [Bool.or_eq_true, Bool.and_eq_true, decide_eq_true_eq]
      have hxy (x y : ℤ) : x < y ∨ x = y ∨ y < x := by omega
      rcases hxy x y with h | h | h
      · exact .inl (.inl h)
      · rcases Nat.le_total a.id.value b.id.value with hid | hid
        · exact .inl (.inr ⟨h, hid⟩)
        · exact .inr (.inr ⟨h.symm, hid⟩)
      · exact .inr (.inl h)

theorem expiresBefore_trans {a b c : JobRow} (hab : expiresBefore a b = true)
    (hbc : expiresBefore b c = true) : expiresBefore a c = true := by
  unfold expiresBefore at *
  cases ha : a.leaseUntil with
  | none =>
    cases hb : b.leaseUntil with
    | some y => simp [ha, hb] at hab
    | none =>
      cases hc : c.leaseUntil with
      | some z => simp [hb, hc] at hbc
      | none =>
        simp only [ha, hb, hc, decide_eq_true_eq] at hab hbc ⊢
        exact Nat.le_trans hab hbc
  | some x =>
    cases hc : c.leaseUntil with
    | none => rfl
    | some z =>
      cases hb : b.leaseUntil with
      | none => simp [hb, hc] at hbc
      | some y =>
        simp only [ha, hb, hc, Bool.or_eq_true, Bool.and_eq_true, decide_eq_true_eq] at hab hbc ⊢
        have harith (x y z : ℤ) (i j k : ℕ) (h₁ : x < y ∨ x = y ∧ i ≤ j)
            (h₂ : y < z ∨ y = z ∧ j ≤ k) : x < z ∨ x = z ∧ i ≤ k := by omega
        exact harith _ _ _ _ _ _ hab hbc

theorem Table.recoverExpired_spec {rows : List JobRow} (htable : Table rows) {now : DateTime}
    (hnow : Instant now) {limit : ℕ} (hlimit : limit ≤ i64Max) :
    ∃ taken rows', recoverExpired rows now limit = .ok (taken.map (recovered now), rows') ∧
      Recovers rows now limit taken rows' := by
  let before (a b : JobRow) : Prop := expiresBefore a b = true
  have : Std.Total before := ⟨expiresBefore_total⟩
  have : IsTrans JobRow before := ⟨fun _ _ _ => expiresBefore_trans⟩
  have hmem : ∀ row ∈ JobRow.expired rows now limit, row ∈ rows ∧ isExpired now row = true :=
    fun row hrow => List.mem_filter.mp (mem_of_mem_firstBy before hrow)
  have hnodup : (JobRow.expired rows now limit).Nodup := by
    have hall : (rows.filter (isExpired now)).Nodup := (htable.primaryKey.of_map _).filter _
    have hsplit := firstBy_append_restBy before limit (rows.filter (isExpired now))
    rw [← hsplit.nodup_iff] at hall
    exact (List.nodup_append.mp hall).1
  refine ⟨JobRow.expired rows now limit,
    rows.map fun row => if row ∈ JobRow.expired rows now limit then recovered now row else row, ?_,
    hnodup, fun row hrow => ?_, length_firstBy before limit _, fun row hrow other hother hexp hnot => ?_,
    rfl⟩
  · rw [recoverExpired]
    by_cases hzero : limit = 0
    · have hnil : JobRow.expired rows now limit = [] := by
        rw [hzero, JobRow.expired, firstBy, List.take_zero]
      rw [if_pos hzero, hnil]
      simp
    · rw [if_neg hzero, if_neg (not_lt.mpr hlimit)]
      congr 2
      refine List.map_congr_left fun row hrow => ?_
      have hiff : row.id ∈ (JobRow.expired rows now limit).map JobRow.id ↔
          row ∈ JobRow.expired rows now limit := by
        rw [List.mem_map]
        refine ⟨?_, fun h => ⟨row, h, rfl⟩⟩
        rintro ⟨other, hother, hid⟩
        rw [← htable.eq_of_id (hmem other hother).1 hrow hid]
        exact hother
      simp only [hiff]
  · obtain ⟨hrow, hexp⟩ := hmem row hrow
    obtain ⟨job, heq, hjob, hvalid, hcal, hstarted⟩ := htable.row hrow
    rw [heq, isExpired_ofJob] at hexp
    have hmoves := JobStore.moves_recovered hexp
    refine ⟨hrow, job, hjob, hexp, ?_, ?_, ?_⟩
    · rw [heq, recovered_ofJob hvalid hexp]
      exact decodeJob_ofJob (hmoves.valid hvalid) (inCalendar_recovered hnow hcal hexp)
    · rw [JobStore.recoverExpiredLease_of_isExpired hexp]
    · rw [heq, recovered_ofJob hvalid hexp]
      exact check_ofJob (hmoves.valid hvalid) (hmoves.started hvalid hstarted)
  · have hrest := mem_restBy before (List.mem_filter.mpr ⟨hother, hexp⟩) hnot
    exact firstBy_before before hrow hrest

/-! ## The statements and the domain -/

/-- **The statements on a table at an instant do what the domain methods do**, for arguments the
database can hold, leases it can count, claims the domain can count and limits it can bind. -/
structure StatementsRefine (rows : List JobRow) (now : DateTime) : Prop where
  heartbeat : ∀ row ∈ rows, ∀ job, row.decodeJob = .ok job → ∀ owner token milliseconds,
    IsText owner → LeaseFits now milliseconds →
    Refines (row.heartbeat row.id owner token now (milliseconds * 1000000)) job
      (.heartbeat owner token now (milliseconds * 1000000))
  defer : ∀ row ∈ rows, ∀ job, row.decodeJob = .ok job → ∀ owner token resumeAt,
    IsText owner → Instant resumeAt →
    Refines (row.defer row.id owner token now resumeAt) job (.defer owner token now resumeAt)
  succeed : ∀ row ∈ rows, ∀ job, row.decodeJob = .ok job → ∀ owner token, IsText owner →
    Refines (row.succeed row.id owner token now) job (.succeed owner token now)
  retry : ∀ row ∈ rows, ∀ job, row.decodeJob = .ok job → ∀ owner token retryAt error,
    IsText owner → Instant retryAt → IsText error →
    Refines (row.retry row.id owner token now retryAt error) job
      (.retry owner token now retryAt error)
  fail : ∀ row ∈ rows, ∀ job, row.decodeJob = .ok job → ∀ owner token error,
    IsText owner → IsText error →
    Refines (row.fail row.id owner token now error) job (.fail owner token now error)
  cancel : ∀ row ∈ rows, ∀ job, row.decodeJob = .ok job → ∀ reason, IsText reason →
    Refines (row.cancel row.id now reason) job (.cancel now reason)
  claimNext : ∀ owner milliseconds allowedJobTypes draw, IsText owner →
    LeaseFits now milliseconds →
    ((∀ row ∈ rows, ∀ job, row.decodeJob = .ok job →
        JobStore.isClaimable now allowedJobTypes job = false) ∧
      (isBlank owner = false →
        JobRow.claimNext rows owner now (milliseconds * 1000000) allowedJobTypes draw
          = .ok (none, rows))) ∨
    ∃ candidate job, Picks rows now allowedJobTypes candidate job ∧
      (job.claimCount.toNat + 1 < UInt32.size →
        Claims rows
          (JobRow.claimNext rows owner now (milliseconds * 1000000) allowedJobTypes draw)
          candidate job (.claim owner now (milliseconds * 1000000) draw))
  recoverExpired : ∀ limit ≤ i64Max, ∃ taken rows',
    JobRow.recoverExpired rows now limit = .ok (taken.map (recovered now), rows') ∧
      Recovers rows now limit taken rows'

/-- **The SQL job transitions refine the domain state machine.** -/
theorem statements_refine {rows : List JobRow} (htable : Table rows) {now : DateTime}
    (hnow : Instant now) : StatementsRefine rows now := by
  -- On a row of the table, what was shown on the row of its job.
  have hrow : ∀ {row job}, row ∈ rows → row.decodeJob = .ok job →
      row = ofJob job ∧ job.Valid ∧ job.InCalendar ∧ job.Started := by
    intro row job hmem hjob
    obtain ⟨heq, hvalid, hcal⟩ := decode_eq_ok hjob
    exact ⟨heq, hvalid, hcal, started_of_check (heq ▸ htable.checked row hmem)⟩
  constructor
  case heartbeat =>
    intro row hmem job hjob owner token milliseconds htext hfits
    obtain ⟨rfl, hvalid, hcal, hstarted⟩ := hrow hmem hjob
    exact refines_heartbeat hvalid hcal hstarted hnow htext (hfits.leases hnow)
  case defer =>
    intro row hmem job hjob owner token resumeAt htext hresume
    obtain ⟨rfl, hvalid, hcal, hstarted⟩ := hrow hmem hjob
    exact refines_defer hvalid hcal hstarted hnow htext hresume
  case succeed =>
    intro row hmem job hjob owner token htext
    obtain ⟨rfl, hvalid, hcal, hstarted⟩ := hrow hmem hjob
    exact refines_succeed hvalid hcal hstarted hnow htext
  case retry =>
    intro row hmem job hjob owner token retryAt error htext hretry htext'
    obtain ⟨rfl, hvalid, hcal, hstarted⟩ := hrow hmem hjob
    exact refines_retry hvalid hcal hstarted hnow htext hretry htext'
  case fail =>
    intro row hmem job hjob owner token error htext htext'
    obtain ⟨rfl, hvalid, hcal, hstarted⟩ := hrow hmem hjob
    exact refines_fail hvalid hcal hstarted hnow htext htext'
  case cancel =>
    intro row hmem job hjob reason htext
    obtain ⟨rfl, hvalid, hcal, hstarted⟩ := hrow hmem hjob
    exact refines_cancel hvalid hcal hstarted hnow htext
  case claimNext =>
    intro owner milliseconds allowedJobTypes draw htext hfits
    exact htable.claimNext_spec hnow htext (hfits.leases hnow) allowedJobTypes draw
  case recoverExpired =>
    intro limit hlimit
    exact htable.recoverExpired_spec hnow hlimit

/-- A queued job that was claimed `claimCount` times. -/
def wornJob (claimCount : UInt32) : Job :=
  { id := ⟨1⟩
    jobType := .sourceSync
    sourceId := none
    status := .queued
    priority := 0
    runAfter := 0
    claimCount := claimCount
    failureCount := 0
    maxAttempts := 3
    leaseOwner := none
    leaseToken := none
    leaseUntil := none
    heartbeatAt := none
    startedAt := none
    finishedAt := none
    lastError := none
    payload := "null"
    dedupeKey := "source-sync:1"
    createdAt := 0
    updatedAt := 0 }

/-- The same job under a lease of a minute. -/
def heldJob : Job :=
  { wornJob 1 with
    status := .running
    leaseOwner := some "worker"
    leaseToken := some ⟨⟨7⟩⟩
    leaseUntil := some 60000000000
    heartbeatAt := some 0
    startedAt := some 0 }

theorem statements_refine_held : Table [ofJob heldJob] ∧ StatementsRefine [ofJob heldJob] 0 := by
  have htable : Table [ofJob heldJob] :=
    { primaryKey := by decide
      checked := by decide +kernel
      decodes := fun row hrow => ⟨heldJob, by rw [List.mem_singleton.mp hrow]; rfl⟩ }
  exact ⟨htable, statements_refine htable ⟨by decide, by decide, by decide⟩⟩

/-- **Where the statements and the domain part**: a claim the domain cannot count is written to a row
that no longer decodes, a lease beyond the calendar is granted, and a limit beyond `BIGINT` is
refused. -/
theorem statements_outrun_domain :
    ((ofJob (wornJob 4294967295)).check = true ∧
      (ofJob (wornJob 4294967295)).decodeJob.toOption = some (wornJob 4294967295) ∧
      ((wornJob 4294967295).claim "worker" 0 60000000000 ⟨⟨7⟩⟩).2.toOption = none ∧
      (claimNext [ofJob (wornJob 4294967295)] "worker" 0 60000000000 [.sourceSync] ⟨⟨7⟩⟩).toOption
        = some (some (claimed "worker" ⟨⟨7⟩⟩ 0 60000000000 (ofJob (wornJob 4294967295))),
            [claimed "worker" ⟨⟨7⟩⟩ 0 60000000000 (ofJob (wornJob 4294967295))]) ∧
      (claimed "worker" ⟨⟨7⟩⟩ 0 60000000000 (ofJob (wornJob 4294967295))).decodeJob.toOption = none) ∧
    ((ofJob heldJob).check = true ∧ (ofJob heldJob).decodeJob.toOption = some heldJob ∧
      (heldJob.heartbeat "worker" ⟨⟨7⟩⟩ 0 8210266876800000000000).2.toOption = none ∧
      ((ofJob heldJob).heartbeat ⟨1⟩ "worker" ⟨⟨7⟩⟩ 0 8210266876800000000000).toOption.join.isSome
        = true) ∧
    (recoverExpired [ofJob heldJob] 60000000000 9223372036854775808).toOption = none := by
  decide +kernel

end JobRow

end Werrss
