import Werrss.Persistence.JobEnqueue

/-!
# Persistence/JobActivity — which transactions end a job

    active ── heartbeat, defer, claim ──▸ active
           ── retry, recover ───────────▸ active ┊ failed
           ── fail, cancel ─────────────▸ failed         ── succeed ──▸ succeeded

A statement keeps what a job is about, and touches active jobs only: **no transaction makes a job
active again**, and the jobs it ends as failed are the ones it returns.
-/

open Machinery

namespace Werrss

namespace JobRow

/-- What a statement keeps of the row it writes, and that it writes an active row. -/
structure Follows (row row' : JobRow) : Prop where
  id : row'.id = row.id
  jobType : row'.jobType = row.jobType
  dedupeKey : row'.dedupeKey = row.dedupeKey
  active : row.status ∈ activeStatuses

variable {row row' : JobRow} {jobId : Uuid} {owner : String} {token : LeaseToken} {now : DateTime}

theorem heartbeat_follows {leaseFor : Duration}
    (h : row.heartbeat jobId owner token now leaseFor = .ok (some row')) :
    Follows row row' ∧ row'.status ∈ activeStatuses := by
  obtain ⟨_, _, h⟩ := bind_eq_ok h
  obtain ⟨_, _, h⟩ := bind_eq_ok h
  obtain ⟨_, _, h⟩ := bind_eq_ok h
  split_ifs at h with hfenced
  · have hactive := status_of_isFenced hfenced
    obtain ⟨_, _, h⟩ := bind_eq_ok h
    obtain rfl := Option.some.inj (Except.ok.inj h)
    exact ⟨⟨rfl, rfl, rfl, hactive⟩, hactive⟩
  · cases h

theorem defer_follows {resumeAt : DateTime}
    (h : row.defer jobId owner token now resumeAt = .ok (some row')) :
    Follows row row' ∧ row'.status ∈ activeStatuses := by
  have hdeferred : "deferred" ∈ activeStatuses := by decide
  obtain ⟨_, _, h⟩ := bind_eq_ok h
  obtain ⟨_, _, h⟩ := bind_eq_ok h
  obtain ⟨_, _, h⟩ := bind_eq_ok h
  split_ifs at h with hfenced
  · have hactive := status_of_isFenced hfenced.1
    obtain rfl := Option.some.inj (Except.ok.inj h)
    exact ⟨⟨rfl, rfl, rfl, hactive⟩, hdeferred⟩
  · cases h

theorem succeed_follows (h : row.succeed jobId owner token now = .ok (some row')) :
    Follows row row' ∧ row.id = jobId ∧ row'.status = "succeeded" := by
  obtain ⟨_, _, h⟩ := bind_eq_ok h
  obtain ⟨_, _, h⟩ := bind_eq_ok h
  split_ifs at h with hfenced
  · have hactive := status_of_isFenced hfenced
    have hid : row.id = jobId := by
      simp only [isFenced, Bool.and_eq_true, decide_eq_true_eq] at hfenced
      exact hfenced.1.1.1.1
    obtain rfl := Option.some.inj (Except.ok.inj h)
    exact ⟨⟨rfl, rfl, rfl, hactive⟩, hid, rfl⟩
  · cases h

theorem retry_follows {retryAt : DateTime} {error : String}
    (h : row.retry jobId owner token now retryAt error = .ok (some row')) :
    Follows row row' ∧ (row'.status ∈ activeStatuses ∨ row'.status = "failed") := by
  have hwaiting : "retry_wait" ∈ activeStatuses := by decide
  obtain ⟨_, _, h₁⟩ := bind_eq_ok h
  obtain ⟨_, _, h₂⟩ := bind_eq_ok h₁
  obtain ⟨_, howner, h₃⟩ := bind_eq_ok h₂
  obtain ⟨_, _, h₄⟩ := bind_eq_ok h₃
  obtain ⟨_, _, h₅⟩ := bind_eq_ok h₄
  rw [bindText_eq_ok howner] at h₅
  by_cases hfenced : row.isFenced jobId owner token now = true
  · rw [if_pos hfenced] at h₅
    have hactive := status_of_isFenced hfenced
    obtain rfl := Option.some.inj (Except.ok.inj h₅)
    refine ⟨⟨rfl, rfl, rfl, hactive⟩, ?_⟩
    by_cases hspent : row.isSpent = true
    · exact .inr (if_pos hspent)
    · refine .inl ?_
      show (if row.isSpent = true then "failed" else "retry_wait") ∈ activeStatuses
      rw [if_neg hspent]
      exact hwaiting
  · rw [if_neg hfenced] at h₅
    cases h₅

theorem fail_follows {error : String} (h : row.fail jobId owner token now error = .ok (some row')) :
    Follows row row' ∧ row'.status = "failed" := by
  obtain ⟨_, _, h⟩ := bind_eq_ok h
  obtain ⟨_, _, h⟩ := bind_eq_ok h
  obtain ⟨_, _, h⟩ := bind_eq_ok h
  obtain ⟨_, _, h⟩ := bind_eq_ok h
  split_ifs at h with hfenced
  · have hactive := status_of_isFenced hfenced
    obtain rfl := Option.some.inj (Except.ok.inj h)
    exact ⟨⟨rfl, rfl, rfl, hactive⟩, rfl⟩
  · cases h

theorem cancel_follows {reason : String} (h : row.cancel jobId now reason = .ok (some row')) :
    Follows row row' ∧ row'.status = "failed" := by
  obtain ⟨_, _, h⟩ := bind_eq_ok h
  obtain ⟨_, _, h⟩ := bind_eq_ok h
  split_ifs at h with hwhere
  · obtain rfl := Option.some.inj (Except.ok.inj h)
    exact ⟨⟨rfl, rfl, rfl, hwhere.2.1⟩, rfl⟩
  · cases h

theorem status_of_isDue {types : List JobType} (h : row.isDue now types = true) :
    row.status ∈ activeStatuses := by
  simp only [isDue, Bool.and_eq_true, decide_eq_true_eq] at h
  exact (by decide : ["queued", "retry_wait", "deferred"] ⊆ activeStatuses) h.1.1.1

theorem status_of_isExpired (h : row.isExpired now = true) : row.status ∈ activeStatuses := by
  simp only [isExpired, Bool.and_eq_true, decide_eq_true_eq] at h
  rw [h.1]
  decide

end JobRow

namespace JobTransaction

open JobRow

/-- The rows a transaction ends as failed, as its statement returns them. -/
def failures (rows : List JobRow) : JobTransaction → List JobRow
  | .retry jobId owner token now retryAt error =>
    (rows.filterMap fun row => ((row.retry jobId owner token now retryAt error).toOption).join).filter
      (·.status = "failed")
  | .fail jobId owner token now error =>
    rows.filterMap fun row => ((row.fail jobId owner token now error).toOption).join
  | .cancel jobId now reason =>
    rows.filterMap fun row => ((row.cancel jobId now reason).toOption).join
  | .recoverExpired now limit =>
    match JobRow.recoverExpired rows now limit with
    | .ok (returned, _) => returned.filter (·.status = "failed")
    | .error _ => []
  | _ => []

/-- The transaction settles this job as succeeded. -/
def Succeeds (jobId : Uuid) : JobTransaction → Prop
  | .succeed succeeded _ _ _ => succeeded = jobId
  | _ => False

/-- What a transaction makes of a row. -/
structure Turns (rows : List JobRow) (t : JobTransaction) (row row' : JobRow) : Prop where
  id : row'.id = row.id
  jobType : row'.jobType = row.jobType
  dedupeKey : row'.dedupeKey = row.dedupeKey
  active : row'.status ∈ activeStatuses → row.status ∈ activeStatuses
  ended : row.status ∈ activeStatuses →
    row'.status ∈ activeStatuses ∨ row' ∈ t.failures rows ∨ t.Succeeds row.id

theorem Turns.refl (rows : List JobRow) (t : JobTransaction) (row : JobRow) : Turns rows t row row :=
  ⟨rfl, rfl, rfl, fun h => h, .inl⟩

/-- A statement that wrote a row. -/
theorem Turns.of_follows {rows : List JobRow} {t : JobTransaction} {row row' : JobRow}
    (h : Follows row row')
    (hended : row'.status ∈ activeStatuses ∨ row' ∈ t.failures rows ∨ t.Succeeds row.id) :
    Turns rows t row row' :=
  ⟨h.id, h.jobType, h.dedupeKey, fun _ => h.active, fun _ => hended⟩

/-- A statement on a row. -/
theorem turns_left {rows : List JobRow} {t : JobTransaction} {row : JobRow}
    {result : Except JobRepositoryError (Option JobRow)}
    (h : ∀ row', result = .ok (some row') → Turns rows t row row') :
    Turns rows t row (left row result) := by
  rcases result with error | _ | row'
  · exact .refl rows t row
  · exact .refl rows t row
  · exact h row' rfl

theorem mem_returned {rows : List JobRow} {row row' : JobRow}
    {f : JobRow → Except JobRepositoryError (Option JobRow)} (hmem : row ∈ rows)
    (h : f row = .ok (some row')) :
    row' ∈ rows.filterMap fun row => ((f row).toOption).join :=
  List.mem_filterMap.mpr ⟨row, hmem, by rw [h]; rfl⟩

/-- **A transaction turns each row into one about the same**, or adds a row of a new identifier under
a free key. -/
theorem commit_turns (t : JobTransaction) {rows : List JobRow}
    (hids : (rows.map JobRow.id).Nodup) :
    (∃ f : JobRow → JobRow, t.commit rows = rows.map f ∧ ∀ row ∈ rows, Turns rows t row (f row)) ∨
    ∃ row : JobRow, t.commit rows = rows ++ [row] ∧ row.id ∉ rows.map JobRow.id ∧
      rows.any (JobRow.holds row.dedupeKey) = false ∧ t.failures rows = [] := by
  cases t with
  | claimNext owner now leaseFor types draw =>
    refine .inl ?_
    rw [commit]
    split
    · rename_i picked rows' hclaim
      obtain ⟨_, _, h⟩ := bind_eq_ok hclaim
      obtain ⟨_, _, h⟩ := bind_eq_ok h
      obtain ⟨owner, _, h⟩ := bind_eq_ok h
      split at h
      · obtain ⟨-, rfl⟩ := Prod.mk.inj (Except.ok.inj h)
        exact ⟨fun row => row, (List.map_id' _).symm, fun row _ => .refl ..⟩
      · rename_i candidate rest hpick
        obtain ⟨leaseUntil, _, h⟩ := bind_eq_ok h
        obtain ⟨-, rfl⟩ := Prod.mk.inj (Except.ok.inj h)
        have hmem : candidate ∈ firstBy (fun a b => (claimCompare a b).isLE = true) 1
            (rows.filter (isDue now types)) := hpick ▸ List.mem_cons_self
        obtain ⟨hcandidate, hdue⟩ := List.mem_filter.mp (mem_of_mem_firstBy _ hmem)
        refine ⟨_, rfl, fun row hrow => ?_⟩
        by_cases hid : row.id = candidate.id
        · obtain rfl := List.inj_on_of_nodup_map hids hrow hcandidate hid
          rw [if_pos rfl]
          have hrunning : "running" ∈ activeStatuses := by decide
          exact .of_follows ⟨rfl, rfl, rfl, status_of_isDue hdue⟩ (.inl hrunning)
        · rw [if_neg hid]
          exact .refl ..
    · exact ⟨fun row => row, (List.map_id' _).symm, fun row _ => .refl ..⟩
  | heartbeat jobId owner token now leaseFor =>
    refine .inl ⟨_, rfl, fun row hrow => turns_left fun row' h => ?_⟩
    obtain ⟨hfollows, hactive⟩ := heartbeat_follows h
    exact .of_follows hfollows (.inl hactive)
  | defer jobId owner token now resumeAt =>
    refine .inl ⟨_, rfl, fun row hrow => turns_left fun row' h => ?_⟩
    obtain ⟨hfollows, hactive⟩ := defer_follows h
    exact .of_follows hfollows (.inl hactive)
  | succeed jobId owner token now =>
    refine .inl ⟨_, rfl, fun row hrow => turns_left fun row' h => ?_⟩
    obtain ⟨hfollows, hid, -⟩ := succeed_follows h
    exact .of_follows hfollows (.inr (.inr hid.symm))
  | retry jobId owner token now retryAt error =>
    refine .inl ⟨_, rfl, fun row hrow => turns_left fun row' h => ?_⟩
    obtain ⟨hfollows, hactive | hfailed⟩ := retry_follows h
    · exact .of_follows hfollows (.inl hactive)
    · exact .of_follows hfollows (.inr (.inl
        (List.mem_filter.mpr ⟨mem_returned hrow h, decide_eq_true hfailed⟩)))
  | fail jobId owner token now error =>
    refine .inl ⟨_, rfl, fun row hrow => turns_left fun row' h => ?_⟩
    exact .of_follows (fail_follows h).1 (.inr (.inl (mem_returned hrow h)))
  | cancel jobId now reason =>
    refine .inl ⟨_, rfl, fun row hrow => turns_left fun row' h => ?_⟩
    exact .of_follows (cancel_follows h).1 (.inr (.inl (mem_returned hrow h)))
  | recoverExpired now limit =>
    refine .inl ?_
    rw [commit]
    split
    · rename_i returned rows' hrecover
      unfold JobRow.recoverExpired at hrecover
      split_ifs at hrecover with hzero hrange
      · obtain ⟨-, rfl⟩ := Prod.mk.inj (Except.ok.inj hrecover)
        exact ⟨fun row => row, (List.map_id' _).symm, fun row _ => .refl ..⟩
      · obtain ⟨-, rfl⟩ := Prod.mk.inj (Except.ok.inj hrecover)
        refine ⟨_, rfl, fun row hrow => ?_⟩
        by_cases hpicked : row.id ∈ (expired rows now limit).map JobRow.id
        · rw [if_pos hpicked]
          obtain ⟨other, hother, hid⟩ := List.mem_map.mp hpicked
          obtain ⟨hmem, hexpired⟩ := List.mem_filter.mp (mem_of_mem_firstBy _ hother)
          obtain rfl := List.inj_on_of_nodup_map hids hmem hrow hid
          refine .of_follows ⟨rfl, rfl, rfl, status_of_isExpired hexpired⟩ ?_
          by_cases hspent : other.isSpent = true
          · refine .inr (.inl ?_)
            rw [failures, JobRow.recoverExpired, if_neg hzero, if_neg hrange]
            refine List.mem_filter.mpr ⟨List.mem_map_of_mem hother, decide_eq_true ?_⟩
            exact if_pos hspent
          · refine .inl ?_
            show (if other.isSpent = true then "failed" else "queued") ∈ activeStatuses
            rw [if_neg hspent]
            decide
        · rw [if_neg hpicked]
          exact .refl ..
    · exact ⟨fun row => row, (List.map_id' _).symm, fun row _ => .refl ..⟩
  | enqueue jobId spec =>
    rw [commit]
    split
    · exact .inl ⟨fun row => row, (List.map_id' _).symm, fun row _ => .refl ..⟩
    · rename_i job hnew
      split_ifs with hkept
      · exact .inl ⟨fun row => row, (List.map_id' _).symm, fun row _ => .refl ..⟩
      · rw [Bool.or_eq_true, decide_eq_true_eq, not_or, Bool.not_eq_true] at hkept
        have hid : (ofJob job).id = jobId := by
          unfold Job.new at hnew
          split_ifs at hnew
          obtain rfl := Except.ok.inj hnew
          rfl
        exact .inr ⟨ofJob job, rfl, hid ▸ hkept.2, hkept.1, rfl⟩

/-- **What a transaction ends as failed** is a row it leaves, and was active before. -/
theorem failures_spec (t : JobTransaction) {rows : List JobRow} {job : JobRow}
    (h : job ∈ t.failures rows) :
    job ∈ t.commit rows ∧ job.status = "failed" ∧
      ∃ row ∈ rows, row.id = job.id ∧ row.status ∈ activeStatuses := by
  have hstatement {f : JobRow → Except JobRepositoryError (Option JobRow)}
      (hfollows : ∀ row row', f row = .ok (some row') → Follows row row')
      (hfailed : ∀ row, f row = .ok (some job) → job.status = "failed")
      (hmem : job ∈ rows.filterMap fun row => ((f row).toOption).join) :
      job ∈ rows.map (fun row => left row (f row)) ∧ job.status = "failed" ∧
        ∃ row ∈ rows, row.id = job.id ∧ row.status ∈ activeStatuses := by
    obtain ⟨row, hrow, hjob⟩ := List.mem_filterMap.mp hmem
    have hok : f row = .ok (some job) := by
      rcases hresult : f row with error | _ | row'
      · rw [hresult] at hjob
        cases hjob
      · rw [hresult] at hjob
        cases hjob
      · rw [hresult] at hjob
        rw [Option.some.inj hjob]
    refine ⟨List.mem_map.mpr ⟨row, hrow, by rw [hok]; rfl⟩, hfailed row hok, row, hrow, ?_⟩
    exact ⟨(hfollows row job hok).id.symm, (hfollows row job hok).active⟩
  cases t with
  | retry jobId owner token now retryAt error =>
    obtain ⟨hmem, hfailed⟩ := List.mem_filter.mp h
    exact hstatement (fun _ _ h => (retry_follows h).1) (fun _ _ => of_decide_eq_true hfailed) hmem
  | fail jobId owner token now error =>
    exact hstatement (fun _ _ h => (fail_follows h).1) (fun _ h => (fail_follows h).2) h
  | cancel jobId now reason =>
    exact hstatement (fun _ _ h => (cancel_follows h).1) (fun _ h => (cancel_follows h).2) h
  | recoverExpired now limit =>
    rw [failures] at h
    rw [commit]
    unfold JobRow.recoverExpired at h ⊢
    split_ifs at h ⊢ with hzero hrange
    · exact absurd h List.not_mem_nil
    · exact absurd h List.not_mem_nil
    · obtain ⟨hreturned, hfailed⟩ := List.mem_filter.mp h
      obtain ⟨row, hrow, rfl⟩ := List.mem_map.mp hreturned
      obtain ⟨hmem, hexpired⟩ := List.mem_filter.mp (mem_of_mem_firstBy _ hrow)
      refine ⟨List.mem_map.mpr ⟨row, hmem, if_pos (List.mem_map_of_mem hrow)⟩,
        of_decide_eq_true hfailed, row, hmem, rfl, ?_⟩
      exact status_of_isExpired hexpired
  | _ => exact absurd h List.not_mem_nil

end JobTransaction

end Werrss
