import Werrss.Persistence.RefreshEnds

/-!
# Persistence/RefreshCleanup — what the queue leaves behind a refresh that fails for good

    carried ── the queue fails the job ─▸ left ── cleanup, in the same transaction ─▸ grounded

The queue may fail any number of jobs at once, among them jobs that carry chains.  The assets they
leave are exactly those the cleanup takes off their chains.
-/

open Machinery

namespace Werrss

open Docket Sketch

namespace RefreshLineage

variable {policy : RecoveryPolicy} {clock : DateTime} {s t u : RecoveryState} {assetId : Uuid}
  {n : ℕ}

/-! ## Jobs that fail for good -/

section Cleanup

variable {target : ArticleRefreshTarget} {entry : RefreshEntryRow} {job : JobRow}
  {rest : List JobRow}

/-- The entry and the chain of a failed job are let go. -/
theorem releaseTarget_spec (hsound : Sound n s.recovery) (hboards : Boards s target entry)
    (notBefore : Option DateTime) :
    Tx.Triple (Calm n s) (releaseTarget target notBefore)
      (fun _ => Lands n target.expiredAssetRecordId none target.servedGeneration s)
      fun _ => True := by
  refine .bind (landFlying_spec hsound hboards (fun _ => rfl) fun _ h => ?_)
    fun _ => Tx.Triple.read_bind fun t ht => ?_
  · by_cases hnone : notBefore.isNone = true
    · rw [if_pos hnone] at h
      cases h
    · rw [if_neg hnone] at h
      cases h
  refine (lands_clear target.chainId s (· = t) fun u row hlands hu hrow hchain hserved => ?_).mono
    (fun u hu => ⟨hu ▸ ht, hu⟩) (fun _ _ h => h) fun _ h => h
  subst hu
  refine ⟨_, if_pos ⟨hchain, hserved⟩, ?_⟩
  refine calm_state hrow rfl rfl (fun hpos hle hle' => ?_)
    fun other hother hasset hne hof hopen => ?_
  · dsimp only
    split_ifs
    · exact ⟨hpos, hle, hle'⟩
    · exact ⟨hpos.trans (le_max_left _ _), max_le hle hserved.ge, hle'⟩
  · dsimp only
    split_ifs with hwork
    · exact hopen
    · refine absurd (List.any_eq_true.mpr ⟨other, hother, ?_⟩) hwork
      rw [RefreshEntryRow.isOf, decide_eq_true hasset, decide_eq_true (hof.trans hserved),
        decide_eq_true hne]
      rfl

/-- The job of the asset has ended, and what it held is to be cleaned up. -/
def Leaves (rest : List JobRow) (s : RecoveryState) (assetId : Uuid) : Prop :=
  s.recovery.docket.carriers assetId = [] ∧ ∃ chain repair entry,
    s.sketch.Flies assetId chain repair entry ∧ repair ∈ s.recovery.repairJobs ∧
    repair.refreshes assetId = true ∧ ∃ job ∈ rest, job.id = repair.jobId ∧
      job.jobType = jobTypeName .assetRefresh

/-- Nothing is left to clean up for the asset. -/
def Cleaned (rest : List JobRow) (s : RecoveryState) (assetId : Uuid) : Prop :=
  s.sketch.LinkedAt assetId ∧ ∀ repair ∈ s.recovery.repairJobs, repair.refreshes assetId = true →
    (∃ job ∈ rest, job.id = repair.jobId) → s.sketch.Grounded assetId

/-- **While the jobs that have failed are cleaned up.** -/
structure Cleaning (n : ℕ) (rest : List JobRow) (s : RecoveryState) : Prop where
  filed : Filed s.recovery.docket
  sound : Sound n s.recovery
  each : ∀ assetId, Cleaned rest s assetId ∨ Leaves rest s assetId

theorem Cleaned.tail (h : Cleaned (job :: rest) s assetId) : Cleaned rest s assetId := by
  refine ⟨h.1, fun repair hrepair hrefreshes hjob => h.2 repair hrepair hrefreshes ?_⟩
  obtain ⟨other, hother, hid⟩ := hjob
  exact ⟨other, List.mem_cons_of_mem _ hother, hid⟩

/-- A job that holds nothing is passed over. -/
theorem Cleaning.skip (h : Cleaning n (job :: rest) s)
    (hskip : ∀ assetId chain repair entry, s.sketch.Flies assetId chain repair entry →
      repair ∈ s.recovery.repairJobs → repair.refreshes assetId = true → job.id = repair.jobId →
      job.jobType = jobTypeName .assetRefresh → False) : Cleaning n rest s := by
  refine ⟨h.filed, h.sound, fun assetId => ?_⟩
  rcases h.each assetId with hcleaned | ⟨hcarriers, chain, repair, entry, hflies, hrepair,
    hrefreshes, other, hother, hid, htype⟩
  · exact .inl hcleaned.tail
  · rcases List.mem_cons.mp hother with rfl | hother
    · exact (hskip assetId chain repair entry hflies hrepair hrefreshes hid htype).elim
    · exact .inr ⟨hcarriers, chain, repair, entry, hflies, hrepair, hrefreshes, other, hother, hid,
        htype⟩

/-- The entry in flight is the one of the target. -/
theorem isInFlight_iff (hflying : s.sketch.flyingOf target.expiredAssetRecordId = [entry]) :
    s.recovery.isInFlight target = true ↔
      target.names entry = true ∧ entry.article = target.article := by
  have hentry : entry ∈ flyingIn s.recovery.entries target.expiredAssetRecordId := by
    rw [show flyingIn s.recovery.entries target.expiredAssetRecordId = [entry] from hflying]
    exact List.mem_singleton.mpr rfl
  obtain ⟨hmem, hflight, -⟩ := mem_flyingIn.mp hentry
  simp only [RecoveryTables.isInFlight, List.any_eq_true, Bool.and_eq_true, decide_eq_true_eq]
  refine ⟨?_, fun h => ⟨entry, hmem, ⟨h.1, h.2⟩, hflight⟩⟩
  rintro ⟨other, hother, ⟨hnames, harticle⟩, hstate⟩
  have hsame : other ∈ flyingIn s.recovery.entries target.expiredAssetRecordId :=
    mem_flyingIn.mpr ⟨hother, hstate, asset_of_names hnames⟩
  rw [show flyingIn s.recovery.entries target.expiredAssetRecordId = [entry] from hflying,
    List.mem_singleton] at hsame
  exact hsame ▸ ⟨hnames, harticle⟩

/-- **One job is cleaned up.** -/
theorem cleanupTerminalRefresh_spec (cooldown : ℕ) (h : Cleaning n (job :: rest) s) :
    Tx.Triple (· = s) (cleanupTerminalRefresh policy cooldown clock job)
      (fun _ t => Cleaning n rest t ∧ t.recovery.docket = s.recovery.docket) fun _ => True := by
  have hpass (hskip : Cleaning n rest s) : ∀ t, t = s →
      Cleaning n rest t ∧ t.recovery.docket = s.recovery.docket := by
    rintro t rfl
    exact ⟨hskip, rfl⟩
  refine .ite (fun htype => .pure (hpass ?_)) fun _ => ?_
  · exact h.skip fun _ _ _ _ _ _ _ _ heq => htype heq
  refine Tx.Triple.read_bind fun u hu => ?_
  subst hu
  rcases htarget : u.recovery.readRefreshTarget job.id with _ | target
  · refine .pure (hpass (h.skip fun _ _ repair _ hflies hrepair hrefreshes hid _ => ?_))
    have hsome := readRefreshTarget_of_flies h.filed hflies hrepair hrefreshes
    rw [← hid, htarget] at hsome
    cases hsome
  refine .ite (fun hnot => .pure (hpass ?_)) fun hflight => ?_
  · refine h.skip fun assetId _ repair entry hflies hrepair hrefreshes hid _ => ?_
    have hsome := readRefreshTarget_of_flies h.filed hflies hrepair hrefreshes
    rw [← hid, htarget] at hsome
    obtain rfl := Option.some.inj hsome
    rw [Bool.not_eq_true', Bool.eq_false_iff] at hnot
    refine hnot ((isInFlight_iff hflies.flying).mpr ⟨?_, rfl⟩)
    have hentry : entry ∈ u.sketch.flyingOf assetId := by
      rw [hflies.flying]
      exact List.mem_singleton.mpr rfl
    rw [ArticleRefreshTarget.names, RefreshEntryRow.isOf,
      decide_eq_true (mem_flyingIn.mp hentry).2.2, decide_eq_true rfl, decide_eq_true rfl]
    rfl
  · rw [Bool.not_eq_true', Bool.not_eq_false] at hflight
    obtain ⟨carrier, row, htargets⟩ := targets_of_readRefreshTarget htarget
    have houtline : u.outline target.expiredAssetRecordId
        = some (some target.chainId, target.servedGeneration) := by
      rw [RecoveryState.outline, htargets.stored, Option.map_some, htargets.chain, htargets.served]
    obtain ⟨hcarriers, entry, hboards⟩ : u.recovery.docket.carriers target.expiredAssetRecordId = []
        ∧ ∃ entry, Boards u target entry := by
      rcases h.each target.expiredAssetRecordId with hcleaned | ⟨hcarriers, chain, repair, entry,
        hflies, -⟩
      · have hgrounded := hcleaned.2 carrier htargets.mem htargets.refreshes
          ⟨job, List.mem_cons_self, htargets.jobId.symm⟩
        cases hgrounded.1 _ _ houtline
      · exact ⟨hcarriers, entry, houtline, hflies.flying,
          ((isInFlight_iff hflies.flying).mp hflight).1⟩
    refine Tx.Triple.ofExcept_bind (fun _ _ => trivial) fun resumeAt _ =>
      .bind ((calm_step (n := n) (calm_updateLineage ?_) u).mono
        (fun t ht => ht ▸ refl_of (Calm n) u) (fun _ _ h => h) fun _ h => h)
        fun _ => Tx.Triple.read_bind fun t ht => ?_
    · exact fun row => Nat.le_refl _
    refine (releaseTarget_spec h.sound hboards _).mono (fun v hv => hv ▸ ht) (fun _ v hv => ?_)
      fun _ h => h
    have hserves : Serves n target.expiredAssetRecordId target.servedGeneration u v :=
      ⟨hv, hcarriers⟩
    refine ⟨⟨hv.docket.symm ▸ h.filed, hv.sound, fun other => ?_⟩, hv.docket⟩
    have hrepairs : v.recovery.repairJobs = u.recovery.repairJobs :=
      congrArg Docket.repairs hv.docket
    by_cases hother : other = target.expiredAssetRecordId
    · subst hother
      exact .inl ⟨hserves.advances.linked, fun _ _ _ _ => hserves.grounded⟩
    · have hsame := hv.others other hother
      rcases h.each other with hcleaned | ⟨hcarriers', chain, repair, flown, hflies, hrepair,
        hrefreshes, job', hjob', hid, htype⟩
      · refine .inl ⟨hsame.linkedAt hcleaned.1, fun repair hrepair hrefreshes hjob => ?_⟩
        have hgrounded := hcleaned.tail.2 repair (hrepairs ▸ hrepair) hrefreshes hjob
        exact ⟨fun chain served houtline =>
          hgrounded.1 chain served (hsame.outline.symm.trans houtline), hsame.empty hgrounded.2⟩
      · refine .inr ⟨hsame.carriers.trans hcarriers', chain, repair, flown, hsame.flies hflies,
          hrepairs.symm ▸ hrepair, hrefreshes, job', ?_, hid, htype⟩
        refine (List.mem_cons.mp hjob').resolve_left ?_
        rintro rfl
        -- a job has one row, and that is about one asset
        obtain rfl := List.inj_on_of_nodup_map h.filed.rows hrepair htargets.mem
          (hid.symm.trans htargets.jobId.symm)
        have hrefreshes' := htargets.refreshes
        rw [RepairJobRow.refreshes, Bool.and_eq_true, decide_eq_true_eq, decide_eq_true_eq]
          at hrefreshes hrefreshes'
        exact hother (Option.some.inj (hrefreshes.2.symm.trans hrefreshes'.2))

theorem cleanupEach_spec (cooldown : ℕ) (jobs : List JobRow) (h : Cleaning n jobs s) :
    Tx.Triple (· = s) (cleanupEach policy cooldown clock jobs)
      (fun _ t => Cleaning n [] t ∧ t.recovery.docket = s.recovery.docket) fun _ => True := by
  induction jobs generalizing s with
  | nil =>
    refine .pure ?_
    rintro t rfl
    exact ⟨h, rfl⟩
  | cons job rest ih =>
    refine .bind (cleanupTerminalRefresh_spec cooldown h) fun _ => .each fun t ht => ?_
    exact (ih ht.1).mono (fun _ h => h) (fun _ u hu => ⟨hu.1, hu.2.trans ht.2⟩) fun _ h => h

section Commit

variable {f : JobRow → JobRow} {t : JobTransaction}

/-- The state behind a transaction of the queue. -/
def withCommit (s : RecoveryState) (t : JobTransaction) : RecoveryState :=
  s.withRecovery fun r => { r with jobs := t.commit r.jobs }

/-- The rows as a transaction turns them. -/
structure Turning (s : RecoveryState) (t : JobTransaction) (f : JobRow → JobRow) : Prop where
  commit : t.commit s.recovery.jobs = s.recovery.jobs.map f
  turns : ∀ job ∈ s.recovery.jobs, JobTransaction.Turns s.recovery.jobs t job (f job)

theorem Turning.turned (h : Turning s t f) : ∀ job ∈ s.recovery.docket.jobs, Turned f job := by
  intro job hjob
  have turn := h.turns job hjob
  exact ⟨turn.id, turn.jobType, turn.dedupeKey, turn.active⟩

theorem Turning.docket (h : Turning s t f) :
    (withCommit s t).recovery.docket = s.recovery.docket.turn f :=
  congrArg (Docket.mk · _) h.commit

theorem Turning.carriers (h : Turning s t f) (assetId : Uuid) :
    (withCommit s t).recovery.docket.carriers assetId
      = (s.recovery.docket.carriers assetId).filter (s.recovery.docket.turn f).isActive :=
  (congrArg (Docket.carriers · assetId) h.docket).trans (carriers_turned h.turned assetId)

/-- A job that has failed carries nothing, and carried something only if it was active. -/
theorem failed_spec (hfiled : Filed (withCommit s t).recovery.docket) {failed : JobRow}
    (hfailed : failed ∈ t.failures s.recovery.jobs) {repair : RepairJobRow}
    (hid : failed.id = repair.jobId) :
    s.recovery.docket.isActive repair = true ∧
      (withCommit s t).recovery.docket.isActive repair = false := by
  obtain ⟨hmem, hstatus, row, hrow, hrowId, hwas⟩ := t.failures_spec hfailed
  refine ⟨isActive_iff.mpr ⟨row, hrow, hrowId.trans hid, hwas⟩,
    Bool.eq_false_iff.mpr fun hactive => ?_⟩
  obtain ⟨still, hstill, hstillId, hrunning⟩ := isActive_iff.mp hactive
  obtain rfl := List.inj_on_of_nodup_map hfiled.ids hstill hmem (hstillId.trans hid.symm)
  rw [JobRow.Active, hstatus] at hrunning
  exact absurd hrunning (by decide)

/-- A carrier that is active no more has failed. -/
theorem failed_of_ended (h : Turning s t f) (hfiled : Filed s.recovery.docket)
    (hrefresh : RepairCircuit.succeedsRefresh s.recovery.jobs t = false) {repair : RepairJobRow}
    (hrepair : repair ∈ s.recovery.docket.carriers assetId)
    (hended : (s.recovery.docket.turn f).isActive repair = false) :
    ∃ job ∈ t.failures s.recovery.jobs, job.id = repair.jobId ∧
      job.jobType = jobTypeName .assetRefresh := by
  obtain ⟨hmem, hrefreshes, hactive⟩ := mem_carriers.mp hrepair
  rw [RepairJobRow.refreshes, Bool.and_eq_true, decide_eq_true_eq] at hrefreshes
  obtain ⟨job, hjob, hid, hnames, hiff⟩ := hfiled.job hmem
  have htype := hnames.jobType hrefreshes.1
  have hturned := h.turned job hjob
  rcases (h.turns job hjob).ended (hiff.mp hactive) with hstill | hfailed | hsucceeds
  · exact absurd (isActive_iff.mpr ⟨f job, List.mem_map_of_mem hjob, hturned.id.trans hid, hstill⟩)
      (Bool.eq_false_iff.mp hended)
  · exact ⟨f job, hfailed, hturned.id.trans hid, hturned.jobType.trans htype⟩
  · refine absurd ?_ (Bool.eq_false_iff.mp hrefresh)
    cases t with
    | succeed jobId owner token now =>
      refine List.any_eq_true.mpr ⟨job, hjob, ?_⟩
      rw [decide_eq_true (show job.id = jobId from hsucceeds.symm), decide_eq_true htype]
      rfl
    | _ => cases hsucceeds

/-- An asset behind a transaction that turns the rows. -/
theorem cleaning_turned (h : Steady n s) (hturning : Turning s t f)
    (hfiled : Filed (withCommit s t).recovery.docket)
    (hrefresh : RepairCircuit.succeedsRefresh s.recovery.jobs t = false) (assetId : Uuid) :
    Cleaned (t.failures s.recovery.jobs) (withCommit s t) assetId ∨
      Leaves (t.failures s.recovery.jobs) (withCommit s t) assetId := by
  have hcarriers := hturning.carriers assetId
  rcases h.linked assetId with hgrounded | ⟨chain, repair, entry, hcarries⟩
  · have hnone : (withCommit s t).sketch.Grounded assetId := by
      refine ⟨hgrounded.1, hcarriers.trans ?_, hgrounded.2.2⟩
      rw [show s.recovery.docket.carriers assetId = [] from hgrounded.2.1]
      rfl
    exact .inl ⟨.inl hnone, fun _ _ _ _ => hnone⟩
  have hone : s.recovery.docket.carriers assetId = [repair] := hcarries.carriers
  have hmem : repair ∈ s.recovery.docket.carriers assetId := hone ▸ List.mem_singleton.mpr rfl
  have hflies : (withCommit s t).sketch.Flies assetId chain repair entry :=
    ⟨hcarries.outline, hcarries.flying, hcarries.chainId, hcarries.ordinal, hcarries.sourceId,
      hcarries.reviewId⟩
  rw [hone, List.filter_singleton] at hcarriers
  by_cases hkept : (s.recovery.docket.turn f).isActive repair = true
  · rw [hkept] at hcarriers
    refine .inl ⟨.inr ⟨chain, repair, entry, hflies, hcarriers⟩,
      fun other hother hrefreshes hjob => ?_⟩
    -- the job that has failed is not the one that carries
    obtain ⟨failed, hfailed, hid⟩ := hjob
    obtain ⟨hwas, hended⟩ := failed_spec hfiled hfailed hid
    have hcarrier : other ∈ s.recovery.docket.carriers assetId :=
      mem_carriers.mpr ⟨hother, hrefreshes, hwas⟩
    rw [hone, List.mem_singleton] at hcarrier
    rw [hcarrier, hturning.docket, hkept] at hended
    cases hended
  · rw [Bool.not_eq_true] at hkept
    rw [hkept] at hcarriers
    exact .inr ⟨hcarriers, chain, repair, entry, hflies, (mem_carriers.mp hmem).1,
      (mem_carriers.mp hmem).2.1, failed_of_ended hturning h.filed hrefresh hmem hkept⟩

/-- **What a transaction of the queue leaves to clean up**: assets whose job it has failed, and no
others. -/
theorem cleaning_commit (h : Steady n s)
    (hrefresh : RepairCircuit.succeedsRefresh s.recovery.jobs t = false) :
    Cleaning n (t.failures s.recovery.jobs) (withCommit s t) := by
  have hfiled : Filed (withCommit s t).recovery.docket := (commit_spec t h.filed).1
  refine ⟨hfiled, ⟨h.sound.attempts, h.sound.ordered, h.sound.stated, h.sound.keys⟩,
    fun assetId => ?_⟩
  rcases t.commit_turns h.filed.ids with ⟨f, hcommit, hturns⟩ | ⟨row, hcommit, hid, hfree, hfails⟩
  · exact cleaning_turned h ⟨hcommit, hturns⟩ hfiled hrefresh assetId
  · have hfresh : Fresh s.recovery.docket row := fresh_of_free hid hfree
    have hdocket : (withCommit s t).recovery.docket
        = ⟨s.recovery.docket.jobs ++ [row], s.recovery.docket.repairs⟩ :=
      congrArg (Docket.mk · _) hcommit
    have hsame : SameAt s.sketch (withCommit s t).sketch assetId :=
      ⟨rfl, (congrArg (Docket.carriers · assetId) hdocket).trans
        (carriers_enqueued h.filed hfresh assetId), rfl⟩
    refine .inl ⟨hsame.linkedAt (h.linked assetId), fun _ _ _ hjob => ?_⟩
    rw [show t.failures s.recovery.jobs = [] from hfails] at hjob
    obtain ⟨_, hnone, -⟩ := hjob
    exact absurd hnone List.not_mem_nil

end Commit

/-- **Whatever the queue commits**, with the cleanup of what it has failed, keeps the recovery
steady. -/
theorem jobTransaction_spec {publicMaxPending : ℕ} (cooldown : ℕ) (t : JobTransaction)
    (h : Governed policy publicMaxPending s)
    (hrefresh : RepairCircuit.succeedsRefresh s.recovery.jobs t = false) :
    Tx.Triple (· = s) (jobTransaction policy cooldown clock t)
      (fun _ => Governed policy publicMaxPending) fun _ => True := by
  refine Tx.Triple.read_bind fun u hu => ?_
  subst hu
  have hslots := (commit_spec t h.1.filed).2
  refine .modify_bind (R := (· = withCommit u t)) ?_ fun v hv => hv ▸ rfl
  refine (cleanupEach_spec cooldown _ (cleaning_commit h.1 hrefresh)).mono (fun _ h => h)
    (fun _ v hv => ?_) fun _ h => h
  obtain ⟨hcleaning, hdocket⟩ := hv
  refine ⟨⟨hcleaning.filed, hcleaning.sound, fun assetId => ?_⟩, ?_⟩
  · rcases hcleaning.each assetId with hcleaned | ⟨-, _, _, _, -, -, -, _, hnone, -⟩
    · exact hcleaned.1
    · exact absurd hnone List.not_mem_nil
  · rw [hdocket]
    exact ⟨(hslots _).trans h.2.all, (hslots _).trans h.2.publics⟩

end Cleanup

end RefreshLineage

end Werrss
