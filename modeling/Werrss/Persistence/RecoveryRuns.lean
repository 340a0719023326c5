import Werrss.Machinery.Run
import Werrss.Persistence.RefreshCleanup

/-!
# Persistence/RecoveryRuns — whatever happens to the recovery of assets

    start ── perform ─▸ … ── perform ─▸ s     slots ≤ max_pending ┊ attempts ≤ max_attempts
                                              one chain per asset, one job per chain

Cache misses, expiries, refreshes that end or fail, resets, sweeps, the queue and the archive take
turns in any order; a transaction that fails is rolled back.
-/

open Machinery

namespace Werrss

open Docket Sketch

namespace RepairCircuit

open AssetRepository RefreshLineage
open ConfigTransfer (Collation)

variable {settings : RepairSettings} {clock : DateTime} {s : CircuitState} {assetId : Uuid}
  {lease : JobLease} {A : Type}

/-- **What every transaction keeps**: the recovery is steady and within its bounds, and so are the
circuits. -/
structure Governs (settings : RepairSettings) (s : CircuitState) : Prop where
  recovery : Governed settings.admission settings.repair.publicMaxPending s.recovery
  attempts : ∀ assetId row, s.circuit assetId = some row →
    row.admittedAttempts ≤ settings.repair.maxAttempts

theorem maxAttempts_pos (settings : RepairSettings) : 0 < settings.admission.maxAttempts :=
  settings.refresh.maxAttempts_range.1

/-! ## Programs over the recovery jobs -/

/-- A program over the recovery jobs leaves the circuits. -/
theorem recovery_triple {P F : RecoveryState → Prop} {Q : A → RecoveryState → Prop}
    {m : RecoveryTx A} (h : Tx.Triple P m Q F) (R : (Uuid → Option RepairStateRow) → Prop) :
    Tx.Triple (fun s => P s.recovery ∧ R s.circuit) (RepairTx.recovery m)
      (fun a t => Q a t.recovery ∧ R t.circuit) fun _ => True := by
  rintro s ⟨hp, hr⟩
  refine ⟨fun a t hrun => ?_, fun _ _ _ => trivial⟩
  obtain ⟨hanswer, rfl⟩ := Prod.mk.inj hrun
  exact ⟨(h s.recovery hp).1 a _ (Prod.ext hanswer rfl), hr⟩

/-- From a state of the recovery jobs. -/
theorem recovery_spec {F : RecoveryState → Prop} {Q : A → RecoveryState → Prop} {m : RecoveryTx A}
    (h : Tx.Triple (· = s.recovery) m Q F) :
    Tx.Triple (· = s) (RepairTx.recovery m)
      (fun a t => Q a t.recovery ∧ t.circuit = s.circuit) fun _ => True :=
  (recovery_triple h (· = s.circuit)).mono (fun _ ht => ht ▸ ⟨rfl, rfl⟩) (fun _ _ h => h)
    fun _ h => h

/-- What keeps the recovery governed keeps all. -/
theorem governs_recovery {m : RecoveryTx A}
    (h : Tx.Triple (Governed settings.admission settings.repair.publicMaxPending) m
      (fun _ => Governed settings.admission settings.repair.publicMaxPending) fun _ => True) :
    Tx.Triple (Governs settings) (RepairTx.recovery m) (fun _ => Governs settings) fun _ => True :=
  (recovery_triple h fun circuit => ∀ assetId row, circuit assetId = some row →
    row.admittedAttempts ≤ settings.repair.maxAttempts).mono (fun _ h => ⟨h.recovery, h.attempts⟩)
      (fun _ _ h => ⟨h.1, h.2⟩) fun _ h => h

/-- A circuit is written within its bound. -/
theorem Governs.update (h : Governs settings s) {row : Option RepairStateRow}
    (hrow : ∀ new, row = some new → new.admittedAttempts ≤ settings.repair.maxAttempts) :
    Governs settings { s with circuit := Function.update s.circuit assetId row } := by
  refine ⟨h.recovery, fun other new hnew => ?_⟩
  change Function.update s.circuit assetId row other = some new at hnew
  by_cases hother : other = assetId
  · rw [hother, Function.update_self] at hnew
    exact hrow new hnew
  · rw [Function.update_of_ne hother] at hnew
    exact h.attempts other new hnew

theorem governs_updateCircuit {assign : RepairStateRow → RepairStateRow}
    (hassign : ∀ row, (assign row).admittedAttempts ≤ row.admittedAttempts) :
    Tx.Triple (Governs settings) (RepairTx.updateCircuit assetId assign)
      (fun _ => Governs settings) fun _ => True := by
  intro t ht
  refine ⟨fun _ u hrun => ?_, fun _ _ _ => trivial⟩
  rw [← (Prod.mk.inj hrun).2]
  refine ht.update fun new hnew => ?_
  obtain ⟨old, hold, rfl⟩ := Option.map_eq_some_iff.mp hnew
  exact (hassign old).trans (ht.attempts assetId old hold)

/-! ## Cache misses -/

/-- The row of a repair job. -/
def repairRow (assetId jobId : Uuid) : RepairJobRow where
  jobId := jobId
  assetRecordId := some assetId
  admissionClass := .publicRepair
  refreshSourceId := none
  refreshReviewId := none
  chainId := none
  chainOrdinal := none
  expiredAssetRecordId := none
  expiryRefunded := false

/-- **A repair is admitted**: it takes one public slot, and carries no chain. -/
theorem governs_admitted {t : RecoveryState}
    (h : Governed settings.admission settings.repair.publicMaxPending t) {job : JobRow}
    (hadmits : Admits t.recovery.docket job (repairRow assetId job.id))
    (hglobal : globalPending t.recovery < settings.repair.maxPending)
    (hpublic : publicPending t.recovery < settings.repair.publicMaxPending) :
    Governed settings.admission settings.repair.publicMaxPending
      (withJob t job (repairRow assetId job.id)) := by
  have hdocket : (withJob t job (repairRow assetId job.id)).recovery.docket
      = t.recovery.docket.entered job (repairRow assetId job.id) := rfl
  refine ⟨⟨h.1.filed.entered hadmits, ⟨h.1.sound.attempts, h.1.sound.ordered, h.1.sound.stated,
    h.1.sound.keys⟩, fun other => ?_⟩, ?_, ?_⟩
  · have hsame : SameAt t.sketch (withJob t job (repairRow assetId job.id)).sketch other :=
      ⟨rfl, (carriers_entered h.1.filed hadmits other).trans (List.append_nil _), rfl⟩
    exact hsame.linkedAt (h.1.linked other)
  · rw [hdocket, slots_entered h.1.filed hadmits, if_pos rfl]
    exact hglobal
  · rw [hdocket, slots_entered h.1.filed hadmits,
      if_pos (show isPublic (repairRow assetId job.id) = true from rfl)]
    exact hpublic

theorem insertRepair_spec (h : Governs settings s) {jobId : Uuid}
    (hcircuit : ∀ row, s.circuit assetId = some row →
      row.admittedAttempts < settings.repair.maxAttempts)
    (hglobal : globalPending s.recovery.recovery < settings.repair.maxPending)
    (hpublic : publicPending s.recovery.recovery < settings.repair.publicMaxPending) :
    Tx.Triple (· = s) (insertRepair clock jobId assetId) (fun _ => Governs settings)
      fun _ => True := by
  refine Tx.Triple.read_bind fun t ht => ?_
  subst ht
  split
  · exact .fail fun _ _ => trivial
  · exact .pure fun u hu => hu ▸ h
  · rename_i job hinserted
    obtain ⟨hfresh, -, hkey, -, hactive⟩ :=
      inserted_spec hinserted t.recovery.recovery.repairJobs
    have hadmits : Admits t.recovery.recovery.docket (.ofJob job)
        (repairRow assetId (JobRow.ofJob job).id) := by
      refine ⟨hfresh, rfl, ⟨fun other hother => ?_, fun _ _ hsource => ?_, fun hclass => ?_⟩,
        hactive⟩
      · obtain rfl := Option.some.inj hother
        exact hkey
      · cases hsource
      · cases hclass
    refine .modify_bind (R := (· = { t with
      circuit := Function.update t.circuit assetId (some (admitted (t.circuit assetId))) })) ?_
      fun u hu => hu ▸ rfl
    refine .bind (R := fun _ => Governs settings) ?_ fun _ => .pure fun _ h => h
    rintro u rfl
    refine ⟨fun _ v hrun => ?_, fun _ _ _ => trivial⟩
    rw [← (Prod.mk.inj hrun).2]
    refine ⟨governs_admitted h.recovery hadmits hglobal hpublic, ?_⟩
    have hbound : (admitted (t.circuit assetId)).admittedAttempts
        ≤ settings.repair.maxAttempts := by
      rcases hrow : t.circuit assetId with _ | row
      · exact settings.repair.maxAttempts_pos
      · exact hcircuit row hrow
    have hupdated : Governs settings { t with
        circuit := Function.update t.circuit assetId (some (admitted (t.circuit assetId))) } :=
      h.update fun new hnew => Option.some.inj hnew ▸ hbound
    exact hupdated.attempts

/-- **The circuit and the capacity** let a repair through. -/
theorem governs_admitRepair (jobId : Uuid) :
    Tx.Triple (Governs settings) (admitRepair settings clock jobId assetId)
      (fun _ => Governs settings) fun _ => True := by
  refine Tx.Triple.read_bind fun s hs => ?_
  rcases lineageVerdict settings clock s.recovery assetId with _ | result
  · dsimp only
    rcases hverdict : circuitVerdict settings clock (s.circuit assetId) with _ | result
    · refine .ite (fun _ => .pure fun t ht => ht ▸ hs) fun hcapacity => ?_
      rw [not_or, not_le, not_le] at hcapacity
      refine insertRepair_spec hs (fun row hrow => ?_) hcapacity.1 hcapacity.2
      rw [hrow, circuitVerdict] at hverdict
      split_ifs at hverdict with hexhausted hbackoff hspent
      exact not_le.mp hspent
    · exact .pure fun t ht => ht ▸ hs
  · exact .pure fun t ht => ht ▸ hs

section Misses

variable [Collation]

theorem governs_resume (supply : AdmissionSupply) :
    Tx.Triple (Governs settings)
      (RepairTx.recovery (resumeRefreshAfterCacheMiss settings.admission clock supply assetId))
      (fun _ => Governs settings) fun _ => True := by
  refine governs_recovery (.each fun t ht => ?_)
  refine (resumeRefreshAfterCacheMiss_spec (maxAttempts_pos settings) ht.1.filed ht.1.sound
    (ht.1.linked assetId) supply).mono (fun _ h => h) (fun _ u hu => ?_) fun _ h => h
  exact ⟨hu.1.steady ht.1.filed fun other _ => ht.1.linked other,
    hu.1.within ht.1.filed ht.2 hu.2⟩

/-- **A cache miss.** -/
theorem governs_enqueueRepair (supply : AdmissionSupply) :
    Tx.Triple (Governs settings) (enqueueRepair settings clock supply assetId)
      (fun _ => Governs settings) fun _ => True := by
  refine Tx.Triple.read_bind fun s hs => .ite (fun _ => ?_) fun _ => ?_
  · refine .bind (R := fun _ => Governs settings) ?_ fun _ => .pure fun _ h => h
    exact (governs_resume supply).mono (fun t ht => ht ▸ hs) (fun _ _ h => h) fun _ h => h
  · refine Tx.Triple.ofExcept_bind (fun _ _ => trivial) fun present _ => .ite
      (fun _ => .pure fun t ht => ht ▸ hs) fun _ => ?_
    rcases activeRepair s.recovery.recovery assetId with _ | jobId
    · refine .bind (R := fun _ => Governs settings) ?_ fun resumed => ?_
      · exact (governs_resume supply).mono (fun t ht => ht ▸ hs) (fun _ _ h => h) fun _ h => h
      · rcases resumed with _ | result
        · exact governs_admitRepair supply.jobId
        · exact .pure fun _ h => h
    · exact .pure fun t ht => ht ▸ hs

theorem governs_resumePending (supply : ℕ → AdmissionSupply) (assets : List Uuid) :
    Tx.Triple (Governs settings)
      (RepairTx.recovery (resumePendingRefreshes settings clock supply assets))
      (fun _ => Governs settings) fun _ => True := by
  refine governs_recovery (Tx.Triple.read_bind fun t ht => ?_)
  exact (resumeEach_spec (maxAttempts_pos settings) supply _ 0).mono (fun u hu => hu ▸ ht)
    (fun _ _ h => h) fun _ h => h

end Misses

/-! ## The end of a repair job -/

section Expiry

/-- What a refund writes in a row. -/
def refunded (jobId : Uuid) (row : RepairJobRow) : RepairJobRow :=
  if row.jobId = jobId ∧ row.admissionClass = .publicRepair then
    { row with expiryRefunded := true }
  else row

theorem annotated_refunded (jobId : Uuid) (row : RepairJobRow) :
    Annotated (refunded jobId) row := by
  unfold refunded
  refine ⟨?_, ?_, fun job hnames => ?_⟩
  · split_ifs <;> rfl
  · split_ifs <;> rfl
  · split_ifs
    · exact ⟨hnames.asset, hnames.article, hnames.jobType⟩
    · exact hnames

/-- The rows of refreshes are left. -/
theorem refunded_of_refreshes {jobId : Uuid} {row : RepairJobRow}
    (h : row.refreshes assetId = true) : refunded jobId row = row := by
  rw [RepairJobRow.refreshes, Bool.and_eq_true, decide_eq_true_eq] at h
  refine if_neg fun hrefund => ?_
  rw [h.1] at hrefund
  cases hrefund.2

theorem refreshes_annotated {g : RepairJobRow → RepairJobRow} {row : RepairJobRow}
    (hclass : (g row).admissionClass = row.admissionClass)
    (hasset : (g row).expiredAssetRecordId = row.expiredAssetRecordId) (assetId : Uuid) :
    (g row).refreshes assetId = row.refreshes assetId := by
  rw [RepairJobRow.refreshes, RepairJobRow.refreshes, hclass, hasset]

/-- **Rows are annotated**: whatever they forget, no chain notices. -/
theorem governed_annotated {t u : RecoveryState} {policy : RecoveryPolicy} {publicMaxPending : ℕ}
    (h : Governed policy publicMaxPending t) {g : RepairJobRow → RepairJobRow}
    (hg : ∀ row, Annotated g row)
    (hchain : ∀ row, (g row).chainId = row.chainId ∧ (g row).chainOrdinal = row.chainOrdinal ∧
      (g row).expiredAssetRecordId = row.expiredAssetRecordId ∧
      (g row).refreshSourceId = row.refreshSourceId ∧ (g row).refreshReviewId = row.refreshReviewId)
    (hdocket : u.recovery.docket = ⟨t.recovery.docket.jobs, t.recovery.docket.repairs.map g⟩)
    (houtline : u.outline = t.outline) (hflying : u.flying = t.flying)
    (hsound : Sound policy.maxAttempts u.recovery) : Governed policy publicMaxPending u := by
  have hcarriers (assetId : Uuid) :
      u.recovery.docket.carriers assetId = (t.recovery.docket.carriers assetId).map g := by
    rw [hdocket]
    exact carriers_annotated (fun row _ => hg row) fun row _ =>
      refreshes_annotated (hg row).admissionClass (hchain row).2.2.1 assetId
  have hslots {kind : RepairJobRow → Bool} (hkind : ∀ row, kind (g row) = kind row) :
      u.recovery.docket.slots kind = t.recovery.docket.slots kind := by
    rw [hdocket]
    exact slots_annotated (fun row _ => hg row) fun row _ => hkind row
  have hflyingOf (assetId : Uuid) : u.sketch.flyingOf assetId = t.sketch.flyingOf assetId :=
    congrArg (List.filter _) hflying
  refine ⟨⟨hdocket.symm ▸ h.1.filed.annotated fun row _ => hg row, hsound, fun assetId => ?_⟩,
    ?_, ?_⟩
  · rcases h.1.linked assetId with hgrounded | ⟨chain, repair, entry, hcarries⟩
    · refine .inl ⟨fun chain served hchain => ?_, ?_, (hflyingOf assetId).trans hgrounded.2.2⟩
      · exact hgrounded.1 chain served ((congrFun houtline assetId).symm.trans hchain)
      · refine (hcarriers assetId).trans ?_
        rw [show t.recovery.docket.carriers assetId = [] from hgrounded.2.1]
        rfl
    · obtain ⟨hchainId, hordinal, -, hsource, hreview⟩ := hchain repair
      refine .inr ⟨chain, g repair, entry, ⟨(congrFun houtline assetId).trans hcarries.outline,
        (hflyingOf assetId).trans hcarries.flying, hchainId.trans hcarries.chainId,
        hordinal.trans hcarries.ordinal, hsource.trans hcarries.sourceId,
        hreview.trans hcarries.reviewId⟩, (hcarriers assetId).trans ?_⟩
      rw [show t.recovery.docket.carriers assetId = [repair] from hcarries.carriers]
      rfl
  · exact (hslots fun _ => rfl).le.trans h.2.all
  · refine (hslots fun row => ?_).le.trans h.2.publics
    rw [isPublic, isPublic, (hg row).admissionClass]

/-- **The refund of an expiry**: the row of the job is still there. -/
theorem refundExpiry_spec (h : Governs settings s) {jobId : Uuid} (repair : RepairJobRow) :
    Tx.Triple (· = s) (refundExpiry settings clock jobId assetId repair)
      (fun _ t => Governs settings t ∧ t.recovery.recovery.jobs = s.recovery.recovery.jobs ∧
        ∀ row ∈ s.recovery.recovery.repairJobs, ∃ row' ∈ t.recovery.recovery.repairJobs,
          row'.jobId = row.jobId) fun _ => True := by
  refine .ite (fun _ => .ite (fun _ => .fail fun _ _ => trivial) fun _ =>
    Tx.Triple.ofExcept_bind (fun _ _ => trivial) fun resumeAt _ => ?_) fun _ => .pure ?_
  · refine .modify_bind (R := fun t => Governs settings t ∧ t.recovery = s.recovery) ?_ ?_
    · rintro t ⟨hgoverns, hsame⟩
      refine ⟨fun _ u hrun => ?_, fun _ _ _ => trivial⟩
      rw [← (Prod.mk.inj hrun).2]
      refine ⟨⟨?_, hgoverns.attempts⟩, congrArg (·.recovery.jobs) hsame, fun row hrow => ?_⟩
      · have hsound := hgoverns.recovery.1.sound
        refine governed_annotated hgoverns.recovery (annotated_refunded jobId) (fun row => ?_) rfl
          rfl rfl ⟨hsound.attempts, hsound.ordered, hsound.stated, hsound.keys⟩
        unfold refunded
        split_ifs <;> exact ⟨rfl, rfl, rfl, rfl, rfl⟩
      · exact ⟨refunded jobId row, List.mem_map_of_mem (hsame.symm ▸ hrow),
          (annotated_refunded jobId row).jobId⟩
    · rintro t rfl
      refine ⟨h.update fun new hnew => ?_, rfl⟩
      obtain ⟨old, hold, rfl⟩ := Option.map_eq_some_iff.mp hnew
      exact (Nat.sub_le _ _).trans (h.attempts assetId old hold)
  · rintro t rfl
    exact ⟨h, rfl, fun row hrow => ⟨row, hrow, rfl⟩⟩

/-- A repair job carries no chain. -/
theorem ne_of_refreshes {t : RecoveryState} (hfiled : Filed t.recovery.docket) {job : JobRow}
    (hjob : job ∈ t.recovery.jobs) (htype : job.jobType = jobTypeName .assetRepair)
    {repair : RepairJobRow} (hrepair : repair ∈ t.recovery.docket.carriers assetId) :
    repair.jobId ≠ job.id := by
  intro hid
  obtain ⟨hmem, hrefreshes, -⟩ := mem_carriers.mp hrepair
  rw [RepairJobRow.refreshes, Bool.and_eq_true, decide_eq_true_eq] at hrefreshes
  obtain ⟨own, hown, hownId, hnames, -⟩ := hfiled.job hmem
  obtain rfl := List.inj_on_of_nodup_map hfiled.ids hown hjob (hownId.trans hid)
  have htypes := (hnames.jobType hrefreshes.1).symm.trans htype
  exact absurd htypes (by decide)

/-- **A repair job that ends** behind the step of an asset gives back what the step has taken. -/
theorem governed_settled {t u : RecoveryState} {policy : RecoveryPolicy} {publicMaxPending : ℕ}
    (h : Governed policy publicMaxPending t)
    (hadvances : Advances policy.maxAttempts assetId t u) {job : JobRow}
    (hjob : job ∈ t.recovery.jobs) (htype : job.jobType = jobTypeName .assetRepair)
    (hrow : ∃ row ∈ t.recovery.repairJobs, row.jobId = job.id) {f : JobRow → JobRow}
    (hended : Ended u.recovery.docket job.id f)
    (hactive : ∃ other ∈ u.recovery.jobs, other.id = job.id ∧ other.Active) :
    Governed policy publicMaxPending (withTurn u f) := by
  have hsteady := hadvances.steady h.1.filed fun other _ => h.1.linked other
  obtain ⟨hjobs, hrepairs⟩ : (∀ job ∈ t.recovery.docket.jobs, job ∈ u.recovery.docket.jobs) ∧
      ∀ row ∈ t.recovery.docket.repairs, row ∈ u.recovery.docket.repairs := by
    rcases hadvances.docket with hsame | ⟨new, repair, -, -, hdocket⟩
    · rw [hsame]
      exact ⟨fun _ h => h, fun _ h => h⟩
    · rw [hdocket]
      exact ⟨fun _ h => List.mem_append_left _ h, fun _ h => List.mem_append_left _ h⟩
  obtain ⟨row, hmem, hid⟩ := hrow
  obtain ⟨hback, hpublics⟩ := slots_withTurn hended (hrepairs row hmem) hid hactive
  obtain ⟨htaken, hsame⟩ := hadvances.slots h.1.filed
  refine ⟨⟨hsteady.filed.turned hended.turned, sound_withTurn hsteady.sound f, fun other => ?_⟩,
    Nat.le_of_succ_le_succ (hback.trans (htaken.trans (Nat.succ_le_succ h.2.all))),
    hpublics.trans (hsame.le.trans h.2.publics)⟩
  exact (sameAt_ended hended fun _ hrepair =>
    ne_of_refreshes hsteady.filed (hjobs job hjob) htype hrepair).linkedAt (hsteady.linked other)

/-- **A confirmed expiry.** -/
theorem governs_finishConfirmedExpiry [Collation] (h : Governs settings s)
    (hlease : leasesRepair s.recovery.recovery.jobs lease = true) (supply : AdmissionSupply) :
    Tx.Triple (· = s) (finishConfirmedExpiry settings clock supply lease assetId)
      (fun _ => Governs settings) fun _ => True := by
  refine .ite (fun _ => .fail fun _ _ => trivial) fun _ =>
    .bind (recovery_spec (lockLiveRepairLease_spec s.recovery)) fun _ => .each fun t ht => ?_
  obtain ⟨⟨hrecovery, job, hjob, hid, -⟩, hcircuit⟩ := ht
  obtain rfl : t = s := congr (congrArg CircuitState.mk hrecovery) hcircuit
  have htype : job.jobType = jobTypeName .assetRepair := by
    have hall := List.all_eq_true.mp hlease job hjob
    rwa [decide_eq_true hid, Bool.not_true, Bool.false_or, decide_eq_true_eq] at hall
  refine Tx.Triple.read_bind fun u hu => ?_
  subst hu
  generalize hfound : u.recovery.recovery.repairJobs.find? (·.jobId = lease.job.id) = found
  rcases found with _ | repair
  · exact .fail fun _ _ => trivial
  have hrepair := List.mem_of_find?_eq_some hfound
  have hsome := List.find?_some hfound
  have hrepairId : repair.jobId = lease.job.id := of_decide_eq_true hsome
  refine .ite (fun _ => .fail fun _ _ => trivial) fun _ =>
    .bind (refundExpiry_spec h repair) fun _ => .each fun t ht => ?_
  obtain ⟨hgoverns, hjobs, hrows⟩ := ht
  obtain ⟨row, hrow, hrowId⟩ := hrows repair hrepair
  have hsteady := hgoverns.recovery.1
  refine .bind (recovery_spec (routeConfirmedExpiry_spec (maxAttempts_pos settings) hsteady.filed
    hsteady.sound (hsteady.linked assetId) supply)) fun _ => .each fun v hv => ?_
  obtain ⟨hadvances, hcircuit'⟩ := hv
  have hfiled := (hadvances.steady hsteady.filed fun other _ => hsteady.linked other).filed
  refine .bind (R := fun _ => Governs settings) ?_ fun _ => .pure fun _ h => h
  refine (recovery_spec (succeedJob_spec hfiled)).mono (fun _ h => h) (fun _ w hw => ?_)
    fun _ h => h
  obtain ⟨⟨f, hended, hturn, hactive⟩, hsame⟩ := hw
  refine ⟨hturn ▸ governed_settled hgoverns.recovery hadvances (hjobs ▸ hjob) htype
    ⟨row, hrow, hrowId.trans (hrepairId.trans hid.symm)⟩ (hid ▸ hended) (hid ▸ hactive), ?_⟩
  rw [hsame, hcircuit']
  exact hgoverns.attempts

end Expiry

theorem governs_lock {A : Type} {k : RepairTx A}
    (h : Tx.Triple (Governs settings) k (fun _ => Governs settings) fun _ => True) :
    Tx.Triple (Governs settings)
      (RepairTx.recovery (lockLiveRepairLease clock lease) >>= fun _ => k)
      (fun _ => Governs settings) fun _ => True := by
  refine .bind (R := fun _ => Governs settings) (governs_recovery (.each fun t ht => ?_)) fun _ => h
  exact (lockLiveRepairLease_spec t).mono (fun _ h => h) (fun _ u hu => hu.1 ▸ ht) fun _ h => h

/-- **A repair that fails**: the circuit waits, or is exhausted. -/
theorem governs_recordRepairFailure (error : String) :
    Tx.Triple (Governs settings) (recordRepairFailure settings clock lease assetId error)
      (fun _ => Governs settings) fun _ => True := by
  refine .ite (fun _ => .fail fun _ _ => trivial) fun _ => governs_lock ?_
  refine Tx.Triple.ofExcept_bind (fun _ _ => trivial) fun resumeAt _ =>
    .bind (governs_updateCircuit fun row => ?_) fun _ => Tx.Triple.read_bind fun t ht =>
      .pure fun u hu => hu ▸ ht
  exact Nat.le_refl _

theorem governs_completeRepair :
    Tx.Triple (Governs settings) (completeRepair clock lease assetId) (fun _ => Governs settings)
      fun _ => True :=
  governs_lock (governs_updateCircuit fun _ => Nat.zero_le _)

/-! ## Sweeps and the archive -/

section Sweeps

variable [RefreshPayloadReader] {t : RecoveryState} {policy : RecoveryPolicy} {publicMaxPending : ℕ}

/-- **Old snapshots are pruned**, and nothing that is under way. -/
theorem calm_pruneGenerations (n : ℕ) : Calm n t (t.withRecovery pruneGenerations) := by
  refine ⟨congrArg (Sketch.mk _ _) ?_, fun h => ⟨h.attempts, h.ordered, fun entry hentry => ?_, ?_⟩⟩
  · change (t.recovery.entries.filter _).filter _ = t.recovery.entries.filter _
    rw [List.filter_filter]
    refine List.filter_congr fun entry hentry => ?_
    by_cases hflight : entry.state = .inFlight
    · have hunfinished : t.recovery.isUnfinished entry.assetRecordId entry.generation = true := by
        refine List.any_eq_true.mpr ⟨entry, hentry, ?_⟩
        rw [RefreshEntryRow.isOf, decide_eq_true rfl, decide_eq_true rfl, hflight]
        rfl
      rw [isPrunable, hunfinished, Bool.not_true, Bool.and_false, Bool.false_and, Bool.not_false,
        Bool.and_true]
    · rw [decide_eq_false hflight, Bool.false_and]
  · exact h.stated entry (List.mem_of_mem_filter hentry)
  · exact h.keys.sublist (List.filter_sublist.map _)

/-- A row of an orphan names no chain, and nothing refers to it. -/
theorem orphan_spec {row : RefreshStateRow} (h : isOrphanState t assetId row = true) :
    row.activeChainId = none ∧ ∀ entry ∈ t.recovery.entries, entry.assetRecordId ≠ assetId := by
  simp only [isOrphanState, Bool.and_eq_true, Option.isNone_iff_eq_none, Bool.not_eq_true'] at h
  obtain ⟨⟨⟨⟨⟨hchain, -⟩, -⟩, hentries⟩, -⟩, -⟩ := h
  exact ⟨hchain, fun entry hentry heq => Bool.eq_false_iff.mp hentries
    (List.any_eq_true.mpr ⟨entry, hentry, decide_eq_true heq⟩)⟩

/-- **States of orphans are pruned.** -/
theorem governed_pruneOrphanStates (h : Governed policy publicMaxPending t) :
    Governed policy publicMaxPending (pruneOrphanStates t) := by
  have hsound := h.1.sound
  have hfilter {assetId : Uuid} {row : RefreshStateRow}
      (hrow : (pruneOrphanStates t).recovery.states assetId = some row) :
      t.recovery.states assetId = some row := (Option.filter_eq_some_iff.mp hrow).1
  refine ⟨⟨h.1.filed, ⟨hsound.attempts, fun assetId row hrow => ?_, fun entry hentry => ?_,
    hsound.keys⟩, fun assetId => ?_⟩, h.2⟩
  · exact hsound.ordered assetId row (hfilter hrow)
  · obtain ⟨row, hrow, hwork⟩ := hsound.stated entry hentry
    refine ⟨row, Option.filter_eq_some_iff.mpr ⟨hrow, ?_⟩, hwork⟩
    refine (Bool.not_eq_true' _).mpr (Bool.eq_false_iff.mpr fun horphan => ?_)
    exact (orphan_spec horphan).2 entry hentry rfl
  · have houtline {chain : Option Uuid} {served : ℤ}
        (heq : (pruneOrphanStates t).outline assetId = some (chain, served)) :
        t.outline assetId = some (chain, served) := by
      obtain ⟨row, hrow, hpair⟩ := Option.map_eq_some_iff.mp heq
      exact Option.map_eq_some_iff.mpr ⟨row, hfilter hrow, hpair⟩
    rcases h.1.linked assetId with hgrounded | ⟨chain, repair, entry, hcarries⟩
    · exact .inl ⟨fun chain served heq => hgrounded.1 chain served (houtline heq), hgrounded.2⟩
    · refine .inr ⟨chain, repair, entry, ⟨?_, hcarries.flying, hcarries.chainId, hcarries.ordinal,
        hcarries.sourceId, hcarries.reviewId⟩, hcarries.carriers⟩
      obtain ⟨row, hrow, hpair⟩ := Option.map_eq_some_iff.mp hcarries.outline
      refine Option.map_eq_some_iff.mpr ⟨row, Option.filter_eq_some_iff.mpr ⟨hrow, ?_⟩, hpair⟩
      refine (Bool.not_eq_true' _).mpr (Bool.eq_false_iff.mpr fun horphan => ?_)
      exact Option.some_ne_none chain
        ((Prod.mk.inj hpair).1.symm.trans (orphan_spec horphan).1)

theorem governed_pruneRefreshState (h : Governed policy publicMaxPending t) :
    Governed policy publicMaxPending (pruneRefreshState t) := by
  have hcalm := calm_pruneGenerations (t := t) policy.maxAttempts
  exact governed_pruneOrphanStates ⟨h.1.calm hcalm, docket_of_sketch hcalm.sketch ▸ h.2⟩

/-- A repair row forgets a record that is gone. -/
def forgetting (assets : AssetState) (row : RepairJobRow) : RepairJobRow :=
  { row with
    assetRecordId := row.assetRecordId.filter fun assetId =>
      assets.tables.records.any (·.id = assetId) }

omit [RefreshPayloadReader] in
/-- **Whatever becomes of articles and assets.** -/
theorem governs_withArchive (h : Governs settings s) (articles : ArticleTable)
    (assets : AssetState) : Governs settings (withArchive articles assets s) := by
  have hsound := h.recovery.1.sound
  refine ⟨governed_annotated (g := forgetting assets) h.recovery (fun row => ⟨rfl, rfl,
    fun job hnames => ⟨fun assetId hasset => ?_, hnames.article, hnames.jobType⟩⟩)
    (fun row => ⟨rfl, rfl, rfl, rfl, rfl⟩) rfl rfl rfl ⟨fun article row hrow => ?_, hsound.ordered,
      hsound.stated, hsound.keys⟩, fun assetId row hrow => ?_⟩
  · exact hnames.asset assetId (Option.filter_eq_some_iff.mp hasset).1
  · refine hsound.attempts article row ?_
    change (if (articles article).isSome then s.recovery.recovery.lineage article else none)
      = some row at hrow
    split_ifs at hrow
    exact hrow
  · refine h.attempts assetId row ?_
    change (if assets.tables.records.any (·.id = assetId) then s.circuit assetId else none)
      = some row at hrow
    split_ifs at hrow
    exact hrow

end Sweeps

/-! ## Runs -/

section Runs

/-- A transaction that fails is rolled back. -/
theorem governs_committed {m : RepairTx A} (h : Governs settings s)
    (hm : Tx.Triple (· = s) m (fun _ => Governs settings) fun _ => True) :
    Governs settings (committed m s) := by
  rcases hrun : m s with ⟨error | answer, t⟩
  · rw [committed, hrun]
    exact h
  · rw [committed, hrun]
    exact (hm s rfl).1 answer t hrun

theorem governs_rolledBack {m : RepairTx A} (h : Governs settings s)
    (hm : Tx.Triple (Governs settings) m (fun _ => Governs settings) fun _ => True) :
    Governs settings (committed m s) :=
  governs_committed h (hm.mono (fun _ ht => ht ▸ h) (fun _ _ h => h) fun _ h => h)

variable [Collation] [RefreshPayloadReader]

/-- **Every transaction keeps the recovery governed.** -/
theorem governs_perform (h : Governs settings s) (operation : DateTime × RecoveryOperation) :
    Governs settings (perform settings s operation) := by
  have hpos := maxAttempts_pos settings
  obtain ⟨clock, operation⟩ := operation
  cases operation with
  | enqueueRepair supply assetId => exact governs_rolledBack h (governs_enqueueRepair supply)
  | resumePending supply assets => exact governs_rolledBack h (governs_resumePending supply assets)
  | finishExpiry supply lease assetId =>
    rw [perform]
    split_ifs with hlease
    · exact governs_committed h (governs_finishConfirmedExpiry h hlease supply)
    · exact h
  | recordFailure lease assetId error =>
    exact governs_rolledBack h (governs_recordRepairFailure error)
  | completeRepair lease assetId => exact governs_rolledBack h governs_completeRepair
  | finishRefresh supply lease outcome =>
    exact governs_rolledBack h
      (governs_recovery (finishArticleRefresh_spec hpos _ supply outcome))
  | completeUnresolvable lease =>
    exact governs_rolledBack h (governs_recovery completeUnresolvableArticleRefresh_spec)
  | resetLineage supply sourceId reviewId =>
    exact governs_rolledBack h
      (governs_recovery (resetArticleRefreshLineage_spec hpos supply sourceId reviewId))
  | job t =>
    rw [perform]
    split_ifs with hrefresh
    · exact h
    · rw [Bool.not_eq_true] at hrefresh
      refine governs_committed h ?_
      refine (recovery_spec (jobTransaction_spec settings.refresh.cooldown t h.recovery
        hrefresh)).mono (fun _ h => h) (fun _ u hu => ⟨hu.1, ?_⟩) fun _ h => h
      rw [hu.2]
      exact h.attempts
  | prune => exact ⟨governed_pruneRefreshState h.recovery, h.attempts⟩
  | archive articles assets => exact governs_withArchive h articles assets

omit [Collation] [RefreshPayloadReader] in
theorem governs_start (settings : RepairSettings) (articles : ArticleTable) (assets : AssetState) :
    Governs settings (start articles assets) := by
  have hnone {A : Type} {P : A → Prop} : ∀ a ∈ ([] : List A), P a :=
    fun a ha => absurd ha List.not_mem_nil
  have hsound : Sound settings.admission.maxAttempts (start articles assets).recovery.recovery :=
    ⟨fun _ _ h => (by cases h), fun _ _ h => (by cases h), hnone, List.nodup_nil⟩
  refine ⟨⟨⟨⟨List.nodup_nil, hnone, List.nodup_nil, hnone⟩, hsound, fun assetId => ?_⟩,
    Nat.zero_le _, Nat.zero_le _⟩, fun _ _ h => (by cases h)⟩
  exact .inl ⟨fun _ _ h => (by cases h), rfl, rfl⟩

/-- The state after transactions at the database's clock. -/
def after (settings : RepairSettings) (articles : ArticleTable) (assets : AssetState)
    (operations : List (DateTime × RecoveryOperation)) : CircuitState :=
  run (perform settings) (start articles assets) operations

/-- **After every run**, whatever was asked for and in which order. -/
theorem governs_after (settings : RepairSettings) (articles : ArticleTable) (assets : AssetState)
    (operations : List (DateTime × RecoveryOperation)) :
    Governs settings (after settings articles assets operations) := by
  have hstep : ∀ s operation, Governs settings s →
      Governs settings (perform settings s operation) :=
    fun _ operation h => governs_perform h operation
  exact run_preserves hstep operations (governs_start settings articles assets)

/-- **The capacity is never exceeded**: the active jobs of recovery are within their bound, and so
are those that cache misses have asked for. -/
theorem recovery_capacity (settings : RepairSettings) (articles : ArticleTable)
    (assets : AssetState) (operations : List (DateTime × RecoveryOperation)) :
    globalPending (after settings articles assets operations).recovery.recovery
        ≤ settings.repair.maxPending ∧
      publicPending (after settings articles assets operations).recovery.recovery
        ≤ settings.repair.publicMaxPending :=
  have h := (governs_after settings articles assets operations).recovery.2
  ⟨h.all, h.publics⟩

/-- **Every asset is on one chain or on none**: either its row names no chain, no active job
refreshes an article for it and no entry of it is in flight, or exactly one job carries its chain
and exactly the entry at the ordinal of that job is in flight. -/
theorem recovery_chains (settings : RepairSettings) (articles : ArticleTable)
    (assets : AssetState) (operations : List (DateTime × RecoveryOperation)) :
    (after settings articles assets operations).recovery.sketch.Linked :=
  (governs_after settings articles assets operations).recovery.1.linked

/-- **Budgets and generations**: no article and no circuit has more attempts than are allowed,
generations are completed, served and requested in this order, and only the generation that is
served and not completed has work. -/
theorem recovery_sound (settings : RepairSettings) (articles : ArticleTable)
    (assets : AssetState) (operations : List (DateTime × RecoveryOperation)) :
    Sound settings.refresh.maxAttempts
        (after settings articles assets operations).recovery.recovery ∧
      ∀ assetId row, (after settings articles assets operations).circuit assetId = some row →
        row.admittedAttempts ≤ settings.repair.maxAttempts :=
  have h := governs_after settings articles assets operations
  ⟨h.recovery.1.sound, h.attempts⟩

/-- **One job at a time**: active rows that repair the same asset are the same row, and so are those
that refresh the same article. -/
theorem recovery_exclusive (settings : RepairSettings) (articles : ArticleTable)
    (assets : AssetState) (operations : List (DateTime × RecoveryOperation)) :
    let t := (after settings articles assets operations).recovery.recovery
    ∀ a ∈ t.repairJobs, ∀ b ∈ t.repairJobs, t.isActive a = true → t.isActive b = true →
      (∀ assetId, a.assetRecordId = some assetId → b.assetRecordId = some assetId → a = b) ∧
      ∀ sourceId reviewId, a.refreshSourceId = some sourceId → a.refreshReviewId = some reviewId →
        b.refreshSourceId = some sourceId → b.refreshReviewId = some reviewId → a = b := by
  intro t a ha b hb hactive hactive'
  have hfiled := (governs_after settings articles assets operations).recovery.1.filed
  refine ⟨fun assetId hasset hasset' => ?_, fun sourceId reviewId hsource hreview hsource'
    hreview' => ?_⟩
  · exact hfiled.eq_of_key ha hb hactive hactive' fun _ _ h h' =>
      (h.asset assetId hasset).trans (h'.asset assetId hasset').symm
  · exact hfiled.eq_of_key ha hb hactive hactive' fun _ _ h h' =>
      (h.article sourceId reviewId hsource hreview).trans
        (h'.article sourceId reviewId hsource' hreview').symm

end Runs

end RepairCircuit

end Werrss
