import Werrss.Persistence.RefreshRoutes

/-!
# Persistence/RefreshEnds — jobs end, and what they held is let go

    carried ── outcome ─▸ entry lands ── succeed ─▸ no job ── pass on ─▸ carried ┊ grounded
            ── unresolvable ─▸ entry lands, chain cleared ── succeed ─▸ grounded

A job of a refresh ends in the transaction that lands its entry.  Behind it the slot is passed on,
to the chain, to a follow-up or to nobody: its asset is on a chain of one job again, or on none.
-/

open Machinery

namespace Werrss

open Docket Sketch

/-! ## A job that ends -/

namespace Docket

variable {d : Docket} {jobId : Uuid} {f : JobRow → JobRow} {repair : RepairJobRow}

/-- **One job ends**, and the others stay as they are. -/
structure Ended (d : Docket) (jobId : Uuid) (f : JobRow → JobRow) : Prop where
  turned : ∀ job ∈ d.jobs, Turned f job
  others : ∀ job ∈ d.jobs, job.id ≠ jobId → f job = job
  ended : ∀ job ∈ d.jobs, job.id = jobId → ¬(f job).Active

/-- The docket with the jobs as they are turned. -/
def turn (d : Docket) (f : JobRow → JobRow) : Docket := ⟨d.jobs.map f, d.repairs⟩

theorem Ended.isActive_of_ne (h : Ended d jobId f) (hne : repair.jobId ≠ jobId) :
    (d.turn f).isActive repair = d.isActive repair := by
  refine Bool.eq_iff_iff.mpr ⟨isActive_turned h.turned, fun hactive => ?_⟩
  obtain ⟨job, hjob, hid, hstatus⟩ := isActive_iff.mp hactive
  have hsame := h.others job hjob fun heq => hne (hid.symm.trans heq)
  exact isActive_iff.mpr ⟨f job, List.mem_map_of_mem hjob, (congrArg JobRow.id hsame).trans hid,
    hsame.symm ▸ hstatus⟩

theorem Ended.isActive_of_eq (h : Ended d jobId f) (heq : repair.jobId = jobId) :
    (d.turn f).isActive repair = false := by
  refine Bool.eq_false_iff.mpr fun hactive => ?_
  obtain ⟨_, hmem, hid, hstatus⟩ := isActive_iff.mp hactive
  obtain ⟨job, hjob, rfl⟩ := List.mem_map.mp hmem
  exact h.ended job hjob ((h.turned job hjob).id.symm.trans (hid.trans heq)) hstatus

/-- It carries nothing any more. -/
theorem Ended.carriers (h : Ended d jobId f) (assetId : Uuid) : (d.turn f).carriers assetId
    = (d.carriers assetId).filter fun repair => decide (repair.jobId ≠ jobId) := by
  refine (carriers_turned h.turned assetId).trans (List.filter_congr fun repair hrepair => ?_)
  by_cases heq : repair.jobId = jobId
  · exact (h.isActive_of_eq heq).trans (decide_eq_false (not_not_intro heq)).symm
  · exact (h.isActive_of_ne heq).trans
      ((mem_carriers.mp hrepair).2.2.trans (decide_eq_true heq).symm)

end Docket

namespace RefreshLineage

open ConfigTransfer (Collation)

variable {policy : RecoveryPolicy} {clock : DateTime} {s t u : RecoveryState} {assetId : Uuid}
  {generation : ℤ} {n : ℕ} {lease : JobLease}

/-- The state with the jobs as they are turned. -/
def withTurn (s : RecoveryState) (f : JobRow → JobRow) : RecoveryState :=
  s.withRecovery fun t => { t with jobs := t.jobs.map f }

/-- A lease that is held is one of an active job. -/
theorem lockLiveRepairLease_spec (s : RecoveryState) :
    Tx.Triple (· = s) (lockLiveRepairLease clock lease)
      (fun _ t => t = s ∧ ∃ job ∈ s.recovery.jobs, job.id = lease.job.id ∧ job.Active)
      fun _ => True := by
  unfold lockLiveRepairLease
  rcases lease.job.leaseOwner with _ | owner
  · exact .fail fun _ _ => trivial
  refine Tx.Triple.read_bind fun u hu => ?_
  subst hu
  refine .ite (fun hany => .pure fun t ht => ⟨ht, ?_⟩) fun _ => .fail fun _ _ => trivial
  obtain ⟨job, hjob, hfenced⟩ := List.any_eq_true.mp hany
  have hid : job.id = lease.job.id := by
    simp only [JobRow.isFenced, Bool.and_eq_true, decide_eq_true_eq] at hfenced
    exact hfenced.1.1.1.1
  exact ⟨job, hjob, hid, JobRow.status_of_isFenced hfenced⟩

/-- **The job of a lease ends.** -/
theorem succeedJob_spec (hfiled : Filed s.recovery.docket) :
    Tx.Triple (· = s) (succeedJob clock lease)
      (fun _ t => ∃ f, Ended s.recovery.docket lease.job.id f ∧ t = withTurn s f ∧
        ∃ job ∈ s.recovery.jobs, job.id = lease.job.id ∧ job.Active) fun _ => True := by
  unfold succeedJob
  rcases lease.job.leaseOwner with _ | owner
  · exact .fail fun _ _ => trivial
  refine Tx.Triple.read_bind fun u hu => ?_
  subst hu
  refine .ite (fun hany => ?_) fun _ => .fail fun _ _ => trivial
  rintro v rfl
  refine ⟨fun _ t hrun => ?_, fun _ _ _ => trivial⟩
  obtain ⟨row, hrow, hsome⟩ := List.any_eq_true.mp hany
  obtain ⟨row', hrow'⟩ : ∃ row', row.succeed lease.job.id owner lease.token clock
      = .ok (some row') := by
    rcases hresult : row.succeed lease.job.id owner lease.token clock with error | _ | row'
    · rw [hresult] at hsome
      cases hsome
    · rw [hresult] at hsome
      cases hsome
    · exact ⟨row', rfl⟩
  obtain ⟨hfollows, hid, hstatus⟩ := JobRow.succeed_follows hrow'
  refine ⟨fun job => JobTransaction.left job (job.succeed lease.job.id owner lease.token clock),
    ⟨fun job hjob => ?_, fun job hjob hne => ?_, fun job hjob heq hactive => ?_⟩,
    (Prod.mk.inj hrun).2.symm, row, hrow, hid, hfollows.active⟩
  · have turn : JobTransaction.Turns v.recovery.jobs
        (.succeed lease.job.id owner lease.token clock) job
        (JobTransaction.left job (job.succeed lease.job.id owner lease.token clock)) := by
      refine JobTransaction.turns_left fun job' hjob' => ?_
      obtain ⟨hfollows, hid, -⟩ := JobRow.succeed_follows hjob'
      exact .of_follows hfollows (.inr (.inr hid.symm))
    exact ⟨turn.id, turn.jobType, turn.dedupeKey, turn.active⟩
  · rcases hresult : job.succeed lease.job.id owner lease.token clock with error | _ | job'
    · rfl
    · rfl
    · exact absurd (JobRow.succeed_follows hresult).2.1 hne
  · obtain rfl := List.inj_on_of_nodup_map hfiled.ids hjob hrow (heq.trans hid.symm)
    rw [hrow', JobTransaction.left, JobRow.Active, hstatus] at hactive
    exact absurd hactive (by decide)

/-! ## Targets -/

/-- A row that flies an entry is the target of its job. -/
theorem readRefreshTarget_of_flies (hfiled : Filed s.recovery.docket) {chain : Uuid}
    {repair : RepairJobRow} {entry : RefreshEntryRow}
    (hflies : s.sketch.Flies assetId chain repair entry) (hrepair : repair ∈ s.recovery.repairJobs)
    (hrefreshes : repair.refreshes assetId = true) :
    s.recovery.readRefreshTarget repair.jobId
      = some ⟨entry.sourceId, entry.reviewId, assetId, chain, entry.ordinal, entry.generation⟩ := by
  rw [RepairJobRow.refreshes, Bool.and_eq_true, decide_eq_true_eq, decide_eq_true_eq] at hrefreshes
  have hfind : (s.recovery.repairJobs.find? fun other =>
      decide (other.jobId = repair.jobId) && decide (other.admissionClass = .internalRefresh))
        = some repair := by
    rcases hfound : s.recovery.repairJobs.find? _ with _ | other
    · refine absurd (List.find?_eq_none.mp hfound repair hrepair) (not_not_intro ?_)
      rw [decide_eq_true rfl, decide_eq_true hrefreshes.1]
      rfl
    · have hsome := List.find?_some hfound
      rw [Bool.and_eq_true, decide_eq_true_eq] at hsome
      rw [List.inj_on_of_nodup_map hfiled.rows (List.mem_of_find?_eq_some hfound) hrepair hsome.1]
  obtain ⟨row, hrow, houtline⟩ := Option.map_eq_some_iff.mp hflies.outline
  obtain ⟨hchain, hserved⟩ := Prod.mk.inj houtline
  rw [RecoveryTables.readRefreshTarget, hfind]
  simp only [Option.bind_eq_bind, Option.bind_some, hflies.sourceId, hflies.reviewId, hrefreshes.2,
    hflies.chainId, hflies.ordinal, hrow]
  rw [if_pos hchain, hserved]

/-- **What a target is read from.** -/
structure Targets (t : RecoveryTables) (jobId : Uuid) (target : ArticleRefreshTarget)
    (repair : RepairJobRow) (row : RefreshStateRow) : Prop where
  mem : repair ∈ t.repairJobs
  jobId : repair.jobId = jobId
  refreshes : repair.refreshes target.expiredAssetRecordId = true
  ordinal : repair.chainOrdinal = some target.chainOrdinal
  stored : t.states target.expiredAssetRecordId = some row
  chain : row.activeChainId = some target.chainId
  served : row.servedGeneration = target.servedGeneration

theorem targets_of_readRefreshTarget {t : RecoveryTables} {jobId : Uuid}
    {target : ArticleRefreshTarget} (h : t.readRefreshTarget jobId = some target) :
    ∃ repair row, Targets t jobId target repair row := by
  rw [RecoveryTables.readRefreshTarget] at h
  obtain ⟨repair, hfind, h⟩ := Option.bind_eq_some_iff.mp h
  obtain ⟨sourceId, hsource, h⟩ := Option.bind_eq_some_iff.mp h
  obtain ⟨reviewId, hreview, h⟩ := Option.bind_eq_some_iff.mp h
  obtain ⟨assetId, hasset, h⟩ := Option.bind_eq_some_iff.mp h
  obtain ⟨chainId, hchain, h⟩ := Option.bind_eq_some_iff.mp h
  obtain ⟨ordinal, hordinal, h⟩ := Option.bind_eq_some_iff.mp h
  obtain ⟨row, hrow, h⟩ := Option.bind_eq_some_iff.mp h
  split_ifs at h with hactive
  obtain rfl := Option.some.inj h
  have hsome := List.find?_some hfind
  rw [Bool.and_eq_true, decide_eq_true_eq, decide_eq_true_eq] at hsome
  refine ⟨repair, row, List.mem_of_find?_eq_some hfind, hsome.1, ?_, hordinal, hrow, hactive, rfl⟩
  rw [RepairJobRow.refreshes, decide_eq_true hsome.2, decide_eq_true hasset]
  rfl

/-- The entry that a target names is the one in flight. -/
structure Boards (s : RecoveryState) (target : ArticleRefreshTarget) (entry : RefreshEntryRow) :
    Prop where
  outline : s.outline target.expiredAssetRecordId
    = some (some target.chainId, target.servedGeneration)
  flying : s.sketch.flyingOf target.expiredAssetRecordId = [entry]
  names : target.names entry = true

/-- **The target of an active job** names the entry in flight, and its job is the only one. -/
theorem boards_of_linked (hlinked : s.sketch.Linked) {jobId : Uuid} {target : ArticleRefreshTarget}
    (htarget : s.recovery.readRefreshTarget jobId = some target)
    (hactive : ∃ job ∈ s.recovery.jobs, job.id = jobId ∧ job.Active) :
    ∃ repair entry, Boards s target entry ∧ repair.jobId = jobId ∧
      s.recovery.docket.carriers target.expiredAssetRecordId = [repair] := by
  obtain ⟨repair, row, h⟩ := targets_of_readRefreshTarget htarget
  have houtline : s.outline target.expiredAssetRecordId
      = some (some target.chainId, target.servedGeneration) := by
    rw [RecoveryState.outline, h.stored, Option.map_some, h.chain, h.served]
  obtain ⟨carrier, entry, hcarries, hgeneration⟩ :=
    (hlinked target.expiredAssetRecordId).carries houtline
  obtain ⟨job, hjob, hid, hstatus⟩ := hactive
  have hmem : repair ∈ s.recovery.docket.carriers target.expiredAssetRecordId :=
    mem_carriers.mpr ⟨h.mem, h.refreshes,
      isActive_iff.mpr ⟨job, hjob, hid.trans h.jobId.symm, hstatus⟩⟩
  have hcarriers : s.recovery.docket.carriers target.expiredAssetRecordId = [carrier] :=
    hcarries.carriers
  rw [hcarriers, List.mem_singleton] at hmem
  subst hmem
  refine ⟨repair, entry, ⟨houtline, hcarries.flying, ?_⟩, h.jobId, hcarriers⟩
  have hentry : entry ∈ s.sketch.flyingOf target.expiredAssetRecordId := by
    rw [hcarries.flying]
    exact List.mem_singleton.mpr rfl
  have hordinal := Option.some.inj (hcarries.ordinal.symm.trans h.ordinal)
  rw [ArticleRefreshTarget.names, RefreshEntryRow.isOf,
    decide_eq_true (mem_flyingIn.mp hentry).2.2, decide_eq_true hgeneration,
    decide_eq_true hordinal]
  rfl

/-! ## Entries land -/

section Landing

variable {target : ArticleRefreshTarget} {entry : RefreshEntryRow}

theorem Boards.mem (h : Boards s target entry) : entry ∈ s.recovery.entries ∧
    entry.state = .inFlight ∧ entry.assetRecordId = target.expiredAssetRecordId := by
  have hmem : entry ∈ s.sketch.flyingOf target.expiredAssetRecordId := by
    rw [h.flying]
    exact List.mem_singleton.mpr rfl
  exact mem_flyingIn.mp hmem

theorem Boards.calm (h : Boards s target entry) (hcalm : Calm n s t) : Boards t target entry :=
  ⟨(congrFun (outline_of_sketch hcalm.sketch) _).trans h.outline, hcalm.sketch.symm ▸ h.flying,
    h.names⟩

theorem key_of_names {other : RefreshEntryRow} (h : target.names entry = true)
    (h' : target.names other = true) : other.key = entry.key := by
  rw [ArticleRefreshTarget.names, RefreshEntryRow.isOf, Bool.and_eq_true, Bool.and_eq_true,
    decide_eq_true_eq, decide_eq_true_eq, decide_eq_true_eq] at h h'
  rw [RefreshEntryRow.key, RefreshEntryRow.key, h.1.1, h.1.2, h.2, h'.1.1, h'.1.2, h'.2]

theorem asset_of_names (h : target.names entry = true) :
    entry.assetRecordId = target.expiredAssetRecordId := by
  rw [ArticleRefreshTarget.names, RefreshEntryRow.isOf, Bool.and_eq_true, Bool.and_eq_true,
    decide_eq_true_eq] at h
  exact h.1.1

/-- **The entry lands**: it is the only one that the update is about. -/
theorem lands_update (hsound : Sound n s.recovery) (hboards : Boards s target entry)
    {condition : RefreshEntryRow → Bool}
    (hcondition : ∀ other, condition other = true → target.names other = true)
    (hentry : condition entry = true) {assign : RefreshEntryRow → RefreshEntryRow}
    (hkey : ∀ other, (assign other).key = other.key)
    (hstate : ∀ other, (assign other).state ≠ .inFlight) :
    Lands n target.expiredAssetRecordId (some target.chainId) target.servedGeneration s
      (s.withRecovery (·.updateEntries condition assign)) := by
  obtain ⟨hmem, hflight, hasset⟩ := hboards.mem
  have hkeys : ∀ other, (if condition other = true then assign other else other).key
      = other.key := by
    intro other
    split_ifs
    · exact hkey other
    · rfl
  have honly : ∀ other ∈ s.recovery.entries, condition other = true → other = entry :=
    fun other hother hcond => List.inj_on_of_nodup_map hsound.keys hother hmem
      (key_of_names hboards.names (hcondition other hcond))
  refine ⟨sound_entries hsound (fun other _ => hkeys other) fun other hother hdone => ?_, rfl,
    hboards.outline, ?_, fun other hother => ⟨rfl, rfl, ?_⟩⟩
  · by_cases hcond : condition other = true
    · rw [honly other hother hcond, hflight]
      decide
    · rwa [if_neg hcond] at hdone
  · refine List.eq_nil_iff_forall_not_mem.mpr fun other hother => ?_
    obtain ⟨hmem', hflight', hasset'⟩ := mem_flyingIn.mp hother
    obtain ⟨old, hold, rfl⟩ := List.mem_map.mp hmem'
    by_cases hcond : condition old = true
    · rw [if_pos hcond] at hflight'
      exact hstate old hflight'
    · rw [if_neg hcond] at hflight' hasset'
      have hflying : old ∈ s.sketch.flyingOf target.expiredAssetRecordId :=
        mem_flyingIn.mpr ⟨hold, hflight', hasset'⟩
      rw [hboards.flying, List.mem_singleton] at hflying
      exact hcond (hflying ▸ hentry)
  · refine flyingIn_map_of_ne (fun old => congrArg Prod.fst (hkeys old)) fun old _ hold => ?_
    exact if_neg fun hcond => hother (hold.symm.trans (asset_of_names (hcondition old hcond)))

theorem Lands.of_calm {chain : Option Uuid} (hcalm : Calm n s t)
    (h : Lands n assetId chain generation t u) : Lands n assetId chain generation s u :=
  ⟨h.sound, h.docket.trans (docket_of_sketch hcalm.sketch), h.outline, h.flying,
    fun other hother => (SameAt.of_eq hcalm.sketch other).trans (h.others other hother)⟩

theorem lands_modify (hsound : Sound n s.recovery) (hboards : Boards s target entry)
    {condition : RefreshEntryRow → Bool}
    (hcondition : ∀ other, condition other = true → target.names other = true)
    (hentry : condition entry = true) {assign : RefreshEntryRow → RefreshEntryRow}
    (hkey : ∀ other, (assign other).key = other.key)
    (hstate : ∀ other, (assign other).state ≠ .inFlight) :
    Tx.Triple (Calm n s)
      (Tx.modify fun t => t.withRecovery (·.updateEntries condition assign) : RecoveryTx Unit)
      (fun _ => Lands n target.expiredAssetRecordId (some target.chainId) target.servedGeneration s)
      fun _ => True := by
  refine .each fun t ht => ?_
  rintro u rfl
  refine ⟨fun _ v hrun => ?_, fun _ _ _ => trivial⟩
  rw [← (Prod.mk.inj hrun).2]
  exact .of_calm ht
    (lands_update (ht.sound hsound) (hboards.calm ht) hcondition hentry hkey hstate)

/-- What is in flight of the target lands. -/
theorem landFlying_spec (hsound : Sound n s.recovery) (hboards : Boards s target entry)
    {assign : RefreshEntryRow → RefreshEntryRow} (hkey : ∀ other, (assign other).key = other.key)
    (hstate : ∀ other, (assign other).state ≠ .inFlight) :
    Tx.Triple (Calm n s)
      (Tx.modify fun t => t.withRecovery (·.updateEntries
        (fun other => target.names other && decide (other.state = .inFlight)) assign) :
        RecoveryTx Unit)
      (fun _ => Lands n target.expiredAssetRecordId (some target.chainId) target.servedGeneration s)
      fun _ => True := by
  refine lands_modify hsound hboards (fun other h => ?_) ?_ hkey hstate
  · rw [Bool.and_eq_true] at h
    exact h.1
  · rw [hboards.names, hboards.mem.2.1]
    rfl

theorem setRefreshEntryDone_spec (hsound : Sound n s.recovery) (hboards : Boards s target entry) :
    Tx.Triple (Calm n s) (setRefreshEntryDone target)
      (fun _ => Lands n target.expiredAssetRecordId (some target.chainId) target.servedGeneration s)
      fun _ => True :=
  lands_modify hsound hboards (fun _ h => h) hboards.names (fun _ => rfl) fun _ h => by cases h

theorem coolRefreshEntry_spec (hsound : Sound n s.recovery) (hboards : Boards s target entry)
    (notBefore : DateTime) :
    Tx.Triple (Calm n s) (coolRefreshEntry target notBefore)
      (fun _ => Lands n target.expiredAssetRecordId (some target.chainId) target.servedGeneration s)
      fun _ => True :=
  lands_modify hsound hboards (fun _ h => h) hboards.names (fun _ => rfl) fun _ h => by cases h

theorem finishArticle_spec (hsound : Sound n s.recovery) (hboards : Boards s target entry) :
    Tx.Triple (Calm n s) (finishArticle target)
      (fun _ => Lands n target.expiredAssetRecordId (some target.chainId) target.servedGeneration s)
      fun _ => True :=
  .bind (setRefreshEntryDone_spec hsound hboards) fun _ =>
    .bind (lands_moves (calm_reconcile _) s) fun _ => .pure fun _ h => h

/-- A calm step, where failures are rolled back. -/
theorem calm_step {A : Type} {m : RecoveryTx A} (h : Tx.Moves (Calm n) m) (s : RecoveryState) :
    Tx.Triple (Calm n s) m (fun _ => Calm n s) fun _ => True :=
  (h.triple s).mono (fun _ h => h) (fun _ _ h => h) fun _ _ => trivial

/-- **Every outcome lands the entry.** -/
theorem applyOutcome_spec (hsound : Sound n s.recovery) (hboards : Boards s target entry)
    (cooldown : ℕ) (outcome : ArticleRefreshOutcome) :
    Tx.Triple (· = s) (applyOutcome policy cooldown clock target outcome)
      (fun _ => Lands n target.expiredAssetRecordId (some target.chainId) target.servedGeneration s)
      fun _ => True := by
  have hrefl : ∀ t, t = s → Calm n s t := fun t ht => ht ▸ refl_of (Calm n) s
  refine Tx.Triple.mono (P := Calm n s) ?_ hrefl (fun _ _ h => h) fun _ h => h
  cases outcome with
  | succeeded =>
    exact .bind (calm_step (calm_updateLineage fun row => Nat.zero_le _) s) fun _ =>
      finishArticle_spec hsound hboards
  | inconclusive =>
    refine Tx.Triple.ofExcept_bind (fun _ _ => trivial) fun resumeAt _ =>
      .bind (calm_step (calm_updateLineage ?_) s) fun _ => ?_
    · exact fun row => Nat.le_refl _
    refine Tx.Triple.read_bind fun t ht => .ite (fun _ => ?_) fun _ => ?_
    · exact (finishArticle_spec hsound hboards).mono (fun u hu => hu ▸ ht) (fun _ _ h => h)
        fun _ h => h
    · exact (coolRefreshEntry_spec hsound hboards resumeAt).mono (fun u hu => hu ▸ ht)
        (fun _ _ h => h) fun _ h => h
  | superseded => exact setRefreshEntryDone_spec hsound hboards
  | deleted => exact setRefreshEntryDone_spec hsound hboards

end Landing

/-! ## Chains are cleared -/

section Clearing

/-- An `UPDATE` of the row of an asset. -/
theorem updateState_spec (s : RecoveryState) (assetId : Uuid)
    (assign : RefreshStateRow → RefreshStateRow) :
    Tx.Triple (· = s) (updateState assetId assign)
      (fun _ t => (s.recovery.states assetId = none ∧ t = s) ∨
        ∃ row, s.recovery.states assetId = some row ∧ t = s.withRecovery fun t =>
          { t with states := Function.update t.states assetId (some (assign row)) })
      fun _ => True := by
  refine Tx.Triple.read_bind fun u hu => ?_
  subst hu
  rcases hrow : u.recovery.states assetId with _ | row
  · exact .pure fun t ht => .inl ⟨rfl, ht⟩
  · exact (writeState_spec u assetId (assign row)).mono (fun _ h => h)
      (fun _ t ht => .inr ⟨row, rfl, ht.2⟩) fun _ h => h

/-- **A chain is cleared.** -/
theorem Lands.clear {chain : Option Uuid} (h : Lands n assetId chain generation s t)
    {row : RefreshStateRow} (hrow : t.recovery.states assetId = some row) :
    Lands n assetId none generation s (t.withRecovery fun r => { r with
      states := Function.update r.states assetId (some { row with activeChainId := none }) }) := by
  have hserved : row.servedGeneration = generation := by
    have houtline := h.outline
    rw [RecoveryState.outline, hrow, Option.map_some] at houtline
    exact (Prod.mk.inj (Option.some.inj houtline)).2
  refine ⟨sound_states h.sound fun other => ?_, h.docket, ?_, h.flying, fun other hother => ?_⟩
  · by_cases hother : other = assetId
    · rw [hother, Function.update_self, hrow]
      rfl
    · rw [Function.update_of_ne hother]
  · change (Function.update t.recovery.states assetId _ assetId).map _ = _
    rw [Function.update_self, Option.map_some, hserved]
  · have hsame := h.others other hother
    refine ⟨Eq.trans ?_ hsame.outline, hsame.carriers, hsame.flying⟩
    change (Function.update t.recovery.states assetId _ other).map _ = _
    rw [Function.update_of_ne hother]
    rfl

/-- **The rule for an update that clears the chain**, and may complete the generation. -/
theorem lands_clear (chain : Uuid) (s : RecoveryState) {assign : RefreshStateRow → RefreshStateRow}
    (P : RecoveryState → Prop)
    (hassign : ∀ t row, Lands n assetId (some chain) generation s t → P t →
      t.recovery.states assetId = some row → row.activeChainId = some chain →
      row.servedGeneration = generation → ∃ completed,
        assign row = { row with activeChainId := none, completedGeneration := completed } ∧
        Calm n t (t.withRecovery fun r => { r with
          states := Function.update r.states assetId
            (some { row with completedGeneration := completed }) })) :
    Tx.Triple (fun t => Lands n assetId (some chain) generation s t ∧ P t)
      (updateState assetId assign) (fun _ => Lands n assetId none generation s) fun _ => True := by
  refine .each fun t ht => ?_
  obtain ⟨hlands, hp⟩ := ht
  refine (updateState_spec t assetId assign).mono (fun _ h => h) (fun _ u hu => ?_) fun _ h => h
  obtain ⟨old, hold, heq⟩ := Option.map_eq_some_iff.mp hlands.outline
  obtain ⟨hchain, hserved⟩ := Prod.mk.inj heq
  rcases hu with ⟨hnone, -⟩ | ⟨row, hrow, rfl⟩
  · exact absurd (hold.symm.trans hnone) (Option.some_ne_none old)
  · obtain rfl : old = row := Option.some.inj (hold.symm.trans hrow)
    obtain ⟨completed, hwritten, hcalm⟩ := hassign t old hlands hp hrow hchain hserved
    have hcompleted : (t.withRecovery fun r => { r with
        states := Function.update r.states assetId
          (some { old with completedGeneration := completed }) }).recovery.states assetId
        = some { old with completedGeneration := completed } := Function.update_self ..
    have hclear := (hlands.calm hcalm).clear hcompleted
    rw [hwritten]
    simpa only [RecoveryState.withRecovery, Function.update_idem] using hclear

/-- The row as it is completes nothing. -/
theorem calm_row {row : RefreshStateRow} (hrow : t.recovery.states assetId = some row) :
    Calm n t (t.withRecovery fun r => { r with
      states := Function.update r.states assetId (some row) }) := by
  have hsame : t.withRecovery (fun r => { r with
      states := Function.update r.states assetId (some row) }) = t := by
    rw [RecoveryState.withRecovery, ← hrow, Function.update_eq_self]
  exact hsame.symm ▸ refl_of (Calm n) t

theorem clearChain_spec (chain : Uuid) (s : RecoveryState) :
    Tx.Triple (Lands n assetId (some chain) generation s) (clearChain assetId chain)
      (fun _ => Lands n assetId none generation s) fun _ => True := by
  refine (lands_clear chain s (fun _ => True) fun t row _ _ hrow hchain _ => ?_).mono
    (fun _ h => ⟨h, trivial⟩) (fun _ _ h => h) fun _ h => h
  exact ⟨row.completedGeneration, if_pos hchain, calm_row hrow⟩

end Clearing

/-! ## The slot is passed on -/

section Passing

variable {target : ArticleRefreshTarget} (hpos : 0 < policy.maxAttempts)
  (hfiled : Filed s.recovery.docket)
  (hcarriers : s.recovery.docket.carriers target.expiredAssetRecordId = [])
include hpos hfiled hcarriers

/-- The next entry is launched on the chain, or the chain is over. -/
def Passed (n : ℕ) (target : ArticleRefreshTarget) (s : RecoveryState) (next : Option Uuid)
    (t : RecoveryState) : Prop :=
  (next ≠ none ∧ Advances n target.expiredAssetRecordId s t) ∨
    (next = none ∧ Serves n target.expiredAssetRecordId target.servedGeneration s t)

theorem continueRefreshChain_spec (supply : AdmissionSupply) :
    Tx.Triple (Lands policy.maxAttempts target.expiredAssetRecordId (some target.chainId)
        target.servedGeneration s) (continueRefreshChain policy clock supply target)
      (Passed policy.maxAttempts target s) fun _ => True := by
  refine .bind (lands_moves (calm_markExhaustedRefreshEntries policy _ _) s) fun _ =>
    .bind (lands_select s _ _) fun selection => ?_
  refine .bind (R := fun next t => (next ≠ none ∧
      Advances policy.maxAttempts target.expiredAssetRecordId s t) ∨ (next = none ∧
        Lands policy.maxAttempts target.expiredAssetRecordId (some target.chainId)
          target.servedGeneration s t)) ?_ fun next => ?_
  · rcases selection with _ | entry
    · exact .pure fun t ht => .inr ⟨rfl, ht.1⟩
    refine .each fun t ht => ?_
    obtain ⟨hlands, hwaits⟩ := ht
    have houtline : t.outline target.expiredAssetRecordId = some (if false = true then none
        else some (⟨target.chainId, supply.jobId⟩ : AdmissionSupply).chainId,
          target.servedGeneration) := hlands.outline
    refine (admitRefreshEntry_spec hpos hlands.sound (hlands.docket.symm ▸ hfiled)
      (hlands.empty hcarriers) houtline (hwaits entry rfl)).mono (fun _ h => h)
      (fun answer u hu => ?_) fun _ h => h
    rcases hu with ⟨hnone, hcalm⟩ | ⟨hsome, hlaunched⟩
    · exact .inr ⟨hnone, hlands.calm hcalm⟩
    · refine .inl ⟨fun hnone => ?_, ?_⟩
      · rw [hnone] at hsome
        cases hsome
      · obtain ⟨repair, flown, hcarries⟩ := hlaunched.carries
        exact ⟨hlaunched.sound, .inr ⟨_, repair, flown, hcarries⟩, fun other hother =>
          (hlands.others other hother).trans (hlaunched.others other hother),
          .inr (hlands.docket ▸ hlaunched.docket)⟩
  · rcases next with _ | jobId
    · refine .bind (R := fun _ => Serves policy.maxAttempts target.expiredAssetRecordId
        target.servedGeneration s) ?_ fun _ => .pure fun t ht => .inr ⟨rfl, ht⟩
      refine (clearChain_spec target.chainId s).mono (fun t ht => ?_)
        (fun _ t ht => ⟨ht, hcarriers⟩) fun _ h => h
      rcases ht with ⟨hne, -⟩ | ⟨-, hlands⟩
      · exact absurd rfl hne
      · exact hlands
    · refine .pure fun t ht => ?_
      rcases ht with ⟨hne, hadvances⟩ | ⟨hnone, -⟩
      · exact .inl ⟨hne, hadvances⟩
      · cases hnone

variable [Collation]

/-- **The slot is passed on**, to the chain, to a follow-up or to nobody. -/
theorem passOn_spec (supply : ℕ → AdmissionSupply) :
    Tx.Triple (Lands policy.maxAttempts target.expiredAssetRecordId (some target.chainId)
        target.servedGeneration s) (passOn policy clock supply target)
      (fun _ => Advances policy.maxAttempts target.expiredAssetRecordId s) fun _ => True := by
  refine .bind (continueRefreshChain_spec hpos hfiled hcarriers (supply 0)) fun next =>
    .each fun t ht => ?_
  rcases ht with ⟨hne, hadvances⟩ | ⟨rfl, hserves⟩
  · have hcalm {A : Type} {m : RecoveryTx A} (h : Tx.Moves (Calm policy.maxAttempts) m) :
        Tx.Triple (Advances policy.maxAttempts target.expiredAssetRecordId s) m
          (fun _ => Advances policy.maxAttempts target.expiredAssetRecordId s) fun _ => True :=
      (Tx.Triple.iff_final.mpr fun u hu => hu.calm (h u)).mono (fun _ h => h) (fun _ _ h => h)
        fun _ _ => trivial
    refine Tx.Triple.mono (P := Advances policy.maxAttempts target.expiredAssetRecordId s) ?_
      (fun u hu => hu ▸ hadvances) (fun _ _ h => h) fun _ h => h
    refine .bind (hcalm (calm_completeGenerationIfTerminal _ _)) fun _ =>
      Tx.Triple.read_bind fun u hu => ?_
    rcases u.recovery.states target.expiredAssetRecordId with _ | row
    · exact .fail fun _ _ => trivial
    refine .bind (R := fun _ => Advances policy.maxAttempts target.expiredAssetRecordId s) ?_
      fun completed => .ite (fun hnext => absurd hnext.1 hne) fun _ => .pure fun _ h => h
    exact (hcalm (calm_refreshGenerationCompleted _ _)).mono (fun v hv => hv ▸ hu) (fun _ _ h => h)
      fun _ h => h
  · refine Tx.Triple.mono (P := Serves policy.maxAttempts target.expiredAssetRecordId
      target.servedGeneration s) ?_ (fun u hu => hu ▸ hserves) (fun _ _ h => h) fun _ h => h
    refine .bind (serves_moves (calm_completeGenerationIfTerminal _ _) s) fun _ =>
      Tx.Triple.read_bind fun u hu => ?_
    rcases hrow : u.recovery.states target.expiredAssetRecordId with _ | row
    · exact .fail fun _ _ => trivial
    have hserved : ∀ row, u.recovery.states target.expiredAssetRecordId = some row →
        row.servedGeneration = target.servedGeneration := by
      intro row hrow
      have houtline := hu.outline
      rw [RecoveryState.outline, hrow, Option.map_some] at houtline
      exact (Prod.mk.inj (Option.some.inj houtline)).2
    refine .bind (refreshGenerationCompleted_spec hu.sound hserved) fun completed => ?_
    refine .ite (fun hnext => ?_) fun _ => .pure fun v hv => hv.1 ▸ hu.advances
    refine .bind (R := fun _ => Advances policy.maxAttempts target.expiredAssetRecordId s) ?_
      fun _ => .pure fun _ h => h
    refine .each fun v hv => ?_
    obtain ⟨rfl, hsettled⟩ := hv
    exact (startFollowUpGeneration_spec hpos (hu.docket.symm ▸ hfiled) hu.sound hu.advances.linked
      (fun _ _ _ => hsettled hnext.2.1) (supply 1)).mono (fun _ h => h) (fun _ _ h => hu.then h)
      fun _ h => h

end Passing

/-! ## The job of a refresh ends -/

section Endings

variable {f : JobRow → JobRow} {jobId : Uuid} {publicMaxPending : ℕ}

/-- What the job does not carry. -/
theorem sameAt_ended (hended : Ended s.recovery.docket jobId f)
    (h : ∀ repair ∈ s.recovery.docket.carriers assetId, repair.jobId ≠ jobId) :
    SameAt s.sketch (withTurn s f).sketch assetId := by
  refine ⟨rfl, (hended.carriers assetId).trans ?_, rfl⟩
  exact List.filter_eq_self.mpr fun repair hrepair => decide_eq_true (h repair hrepair)

/-- A job carries one asset at most. -/
theorem carries_one (hfiled : Filed s.recovery.docket) {repair : RepairJobRow} {other : Uuid}
    (hrepair : repair ∈ s.recovery.docket.carriers assetId) (hother : other ≠ assetId) :
    ∀ row ∈ s.recovery.docket.carriers other, row.jobId ≠ repair.jobId := by
  intro row hrow hid
  obtain ⟨hmem, hrefreshes, -⟩ := mem_carriers.mp hrepair
  obtain ⟨hmem', hrefreshes', -⟩ := mem_carriers.mp hrow
  obtain rfl := List.inj_on_of_nodup_map hfiled.rows hmem' hmem hid
  rw [RepairJobRow.refreshes, Bool.and_eq_true, decide_eq_true_eq, decide_eq_true_eq]
    at hrefreshes hrefreshes'
  exact hother (Option.some.inj (hrefreshes'.2.symm.trans hrefreshes.2))

/-- **The job of a lease gives its slot back.** -/
theorem slots_withTurn (hended : Ended s.recovery.docket jobId f) {repair : RepairJobRow}
    (hrepair : repair ∈ s.recovery.docket.repairs) (hid : repair.jobId = jobId)
    (hactive : ∃ job ∈ s.recovery.jobs, job.id = jobId ∧ job.Active) :
    (withTurn s f).recovery.docket.slots (fun _ => true) + 1
        ≤ s.recovery.docket.slots (fun _ => true) ∧
      (withTurn s f).recovery.docket.slots isPublic ≤ s.recovery.docket.slots isPublic := by
  obtain ⟨job, hjob, hjobId, hstatus⟩ := hactive
  have hbefore : s.recovery.docket.isActive repair = true :=
    isActive_iff.mpr ⟨job, hjob, hjobId.trans hid.symm, hstatus⟩
  exact ⟨slots_ended hended.turned hrepair hbefore (hended.isActive_of_eq hid) rfl,
    slots_turned hended.turned isPublic⟩

theorem sound_withTurn (h : Sound n s.recovery) (f : JobRow → JobRow) :
    Sound n (withTurn s f).recovery :=
  ⟨h.attempts, h.ordered, h.stated, h.keys⟩

/-- What has landed is known behind the end of the job, too. -/
theorem Lands.ended {chain : Option Uuid} (h : Lands n assetId chain generation s t)
    (f : JobRow → JobRow) :
    Lands n assetId chain generation (withTurn t f) (withTurn t f) :=
  ⟨sound_withTurn h.sound f, rfl, h.outline, h.flying, fun other _ => .of_eq rfl other⟩

/-- **The entry has landed, and its job ends**: the other assets do not notice. -/
theorem lands_ended {chain : Option Uuid} (hsteady : Steady n s)
    (hlands : Lands n assetId chain generation s t) {repair : RepairJobRow}
    (hcarriers : s.recovery.docket.carriers assetId = [repair])
    (hended : Ended t.recovery.docket repair.jobId f) :
    Filed (withTurn t f).recovery.docket ∧
      (withTurn t f).recovery.docket.carriers assetId = [] ∧
      ∀ other, other ≠ assetId → (withTurn t f).sketch.LinkedAt other := by
  have hfiled : Filed t.recovery.docket := hlands.docket.symm ▸ hsteady.filed
  have hsame : t.recovery.docket.carriers assetId = [repair] :=
    (congrArg (Docket.carriers · assetId) hlands.docket).trans hcarriers
  refine ⟨hfiled.turned hended.turned, ?_, fun other hother => ?_⟩
  · refine (hended.carriers assetId).trans ?_
    rw [hsame, List.filter_singleton, decide_eq_false (not_not_intro rfl)]
    rfl
  · have hmem : repair ∈ t.recovery.docket.carriers assetId := hsame ▸ List.mem_singleton.mpr rfl
    exact (sameAt_ended hended (carries_one hfiled hmem hother)).linkedAt
      ((hlands.others other hother).linkedAt (hsteady.linked other))

variable [RefreshPayloadReader]

theorem beginArticleRefresh_spec (s : RecoveryState) :
    Tx.Triple (· = s) (beginArticleRefresh clock lease)
      (fun found t => t = s ∧ (∃ job ∈ s.recovery.jobs, job.id = lease.job.id ∧ job.Active) ∧
        ∀ target, found = some target →
          s.recovery.readRefreshTarget lease.job.id = some target) fun _ => True := by
  refine .bind (lockLiveRepairLease_spec s) fun _ => .each fun t ht => ?_
  obtain ⟨rfl, hactive⟩ := ht
  refine .ite (fun _ => .fail fun _ _ => trivial) fun _ => Tx.Triple.read_bind fun u hu => ?_
  subst hu
  rcases htarget : u.recovery.readRefreshTarget lease.job.id with _ | target
  · exact .pure fun t ht => ⟨ht, hactive, fun _ heq => by cases heq⟩
  · refine .ite (fun _ => .fail fun _ _ => trivial) fun _ => .pure fun t ht => ⟨ht, hactive, ?_⟩
    exact fun found heq => heq ▸ rfl

variable [Collation]

/-- **A refresh that finishes** keeps the recovery steady: its job ends, and another takes the slot
at most. -/
theorem finishArticleRefresh_spec (hpos : 0 < policy.maxAttempts) (cooldown : ℕ)
    (supply : ℕ → AdmissionSupply) (outcome : ArticleRefreshOutcome) :
    Tx.Triple (Governed policy publicMaxPending)
      (finishArticleRefresh policy cooldown clock supply lease outcome)
      (fun _ => Governed policy publicMaxPending) fun _ => True := by
  refine .each fun s hs => .bind (beginArticleRefresh_spec s) fun found => .each fun t ht => ?_
  obtain ⟨rfl, hactive, htarget⟩ := ht
  rcases found with _ | target
  · exact .fail fun _ _ => trivial
  obtain ⟨repair, entry, hboards, hid, hcarriers⟩ :=
    boards_of_linked hs.1.linked (htarget target rfl) hactive
  have hrepair : repair ∈ t.recovery.docket.carriers target.expiredAssetRecordId :=
    hcarriers ▸ List.mem_singleton.mpr rfl
  refine .bind (applyOutcome_spec hs.1.sound hboards cooldown outcome) fun _ =>
    .each fun u hu => ?_
  refine .bind (succeedJob_spec (hu.docket.symm ▸ hs.1.filed)) fun _ => .each fun v hv => ?_
  obtain ⟨f, hended, rfl, hactive'⟩ := hv
  obtain ⟨hfiled, hnone, hothers⟩ := lands_ended hs.1 hu hcarriers (hid ▸ hended)
  refine (passOn_spec hpos hfiled hnone supply).mono (fun w hw => hw ▸ hu.ended f)
    (fun _ w hw => ⟨hw.steady hfiled hothers, ?_⟩) fun _ h => h
  -- one slot is given back, and one is taken at most
  obtain ⟨hback, hpublics⟩ := slots_withTurn hended (hu.docket ▸ (mem_carriers.mp hrepair).1) hid
    hactive'
  obtain ⟨htaken, hsame⟩ := hw.slots hfiled
  rw [hu.docket] at hback hpublics
  exact ⟨htaken.trans (hback.trans hs.2.all), hsame.le.trans (hpublics.trans hs.2.publics)⟩

omit [RefreshPayloadReader] [Collation]

/-- A job that nothing can be made of lets its entry and its chain go. -/
theorem abandonTarget_spec {target : ArticleRefreshTarget} {entry : RefreshEntryRow}
    (hsound : Sound n s.recovery) (hboards : Boards s target entry) :
    Tx.Triple (· = s) (abandonTarget target)
      (fun _ => Lands n target.expiredAssetRecordId none target.servedGeneration s)
      fun _ => True := by
  refine .bind (.mono (P := Calm n s) (landFlying_spec hsound hboards (fun _ => rfl) ?_)
    (fun t ht => ht ▸ refl_of (Calm n) s) (fun _ _ h => h) fun _ h => h)
    fun _ => .bind (lands_moves (calm_completeGenerationIfTerminal _ _) s) fun _ => ?_
  · exact fun _ h => by cases h
  · refine (lands_clear target.chainId s (fun _ => True)
      fun t row _ _ hrow hchain hserved => ?_).mono (fun _ h => ⟨h, trivial⟩) (fun _ _ h => h)
      fun _ h => h
    exact ⟨row.completedGeneration, if_pos ⟨hchain, hserved⟩, calm_row hrow⟩

/-- **A refresh that nothing can be made of** keeps the recovery steady. -/
theorem completeUnresolvableArticleRefresh_spec :
    Tx.Triple (Governed policy publicMaxPending) (completeUnresolvableArticleRefresh clock lease)
      (fun _ => Governed policy publicMaxPending) fun _ => True := by
  refine .each fun s hs => .ite (fun _ => .fail fun _ _ => trivial) fun _ =>
    .bind (lockLiveRepairLease_spec s) fun _ => .each fun t ht => ?_
  obtain ⟨rfl, hactive⟩ := ht
  refine Tx.Triple.read_bind fun u hu => ?_
  subst hu
  rcases htarget : u.recovery.readRefreshTarget lease.job.id with _ | target
  · -- the job carries nothing
    refine (succeedJob_spec hs.1.filed).mono (fun _ h => h) (fun _ t ht => ?_) fun _ h => h
    obtain ⟨f, hended, rfl, -⟩ := ht
    have hslots := slots_turned hended.turned
    refine ⟨⟨hs.1.filed.turned hended.turned, sound_withTurn hs.1.sound f, fun assetId => ?_⟩,
      (hslots _).trans hs.2.all, (hslots _).trans hs.2.publics⟩
    refine (sameAt_ended hended fun repair hrepair hid => ?_).linkedAt (hs.1.linked assetId)
    rcases hs.1.linked assetId with hgrounded | ⟨chain, carrier, entry, hcarries⟩
    · rw [show u.recovery.docket.carriers assetId = [] from hgrounded.2.1] at hrepair
      exact List.not_mem_nil hrepair
    · obtain ⟨hmem, hrefreshes, -⟩ := mem_carriers.mp hrepair
      rw [show u.recovery.docket.carriers assetId = [carrier] from hcarries.carriers,
        List.mem_singleton] at hrepair
      subst hrepair
      have hsome := readRefreshTarget_of_flies hs.1.filed hcarries.toFlies hmem hrefreshes
      rw [hid, htarget] at hsome
      cases hsome
  · obtain ⟨repair, entry, hboards, hid, hcarriers⟩ :=
      boards_of_linked hs.1.linked htarget hactive
    have hrepair : repair ∈ u.recovery.docket.carriers target.expiredAssetRecordId :=
      hcarriers ▸ List.mem_singleton.mpr rfl
    refine .bind (abandonTarget_spec hs.1.sound hboards) fun _ => .each fun t ht => ?_
    refine (succeedJob_spec (ht.docket.symm ▸ hs.1.filed)).mono (fun _ h => h) (fun _ v hv => ?_)
      fun _ h => h
    obtain ⟨f, hended, rfl, hactive'⟩ := hv
    obtain ⟨hfiled, hnone, hothers⟩ := lands_ended hs.1 ht hcarriers (hid ▸ hended)
    have hserves : Serves policy.maxAttempts target.expiredAssetRecordId target.servedGeneration
      (withTurn t f) (withTurn t f) := ⟨ht.ended f, hnone⟩
    obtain ⟨hback, hpublics⟩ := slots_withTurn hended (ht.docket ▸ (mem_carriers.mp hrepair).1) hid
      hactive'
    rw [ht.docket] at hback hpublics
    exact ⟨hserves.advances.steady hfiled hothers, (Nat.le_of_succ_le hback).trans hs.2.all,
      hpublics.trans hs.2.publics⟩

end Endings

end RefreshLineage

end Werrss
