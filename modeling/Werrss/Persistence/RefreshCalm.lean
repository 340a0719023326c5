import Werrss.Persistence.RecoveryDocket

/-!
# Persistence/RefreshCalm — the steps of a refresh that move no chain

    sketch   the docket ┊ the chain and the served generation of each asset ┊ the entries in flight
    sound    attempts ≤ max ┊ completed ≤ served ≤ requested ┊ work of the served generation only

Most statements of a refresh only settle entries that wait, count attempts and complete generations:
they leave the sketch of the state as it is and keep it sound.
-/

open Machinery

namespace Werrss

/-! ## Sketches -/

/-- What chains are read off. -/
structure Sketch where
  docket : Docket
  outline : Uuid → Option (Option Uuid × ℤ)
  flying : List RefreshEntryRow

/-- The chain and the served generation of each asset. -/
def RecoveryState.outline (s : RecoveryState) (assetId : Uuid) : Option (Option Uuid × ℤ) :=
  (s.recovery.states assetId).map fun row => (row.activeChainId, row.servedGeneration)

/-- The entries in flight. -/
def RecoveryState.flying (s : RecoveryState) : List RefreshEntryRow :=
  s.recovery.entries.filter fun entry => decide (entry.state = .inFlight)

def RecoveryState.sketch (s : RecoveryState) : Sketch := ⟨s.recovery.docket, s.outline, s.flying⟩

/-- The key of an entry. -/
def RefreshEntryRow.key (entry : RefreshEntryRow) : Uuid × ℤ × ℤ :=
  (entry.assetRecordId, entry.generation, entry.ordinal)

/-- An entry that is not done belongs to the served generation, which is not completed. -/
def RefreshEntryRow.Stated (t : RecoveryTables) (entry : RefreshEntryRow) : Prop :=
  ∃ row, t.states entry.assetRecordId = some row ∧ entry.generation ≤ row.servedGeneration ∧
    (entry.state ≠ .done → entry.generation = row.servedGeneration ∧
      row.completedGeneration < row.servedGeneration)

/-- **The state is sound**: attempts are bounded, generations ordered, and all work is that of the
served generations. -/
structure Sound (maxAttempts : ℕ) (t : RecoveryTables) : Prop where
  attempts : ∀ article row, t.lineage article = some row → row.attempts ≤ maxAttempts
  ordered : ∀ assetId row, t.states assetId = some row → 0 ≤ row.completedGeneration ∧
    row.completedGeneration ≤ row.servedGeneration ∧ row.servedGeneration ≤ row.requestedGeneration
  stated : ∀ entry ∈ t.entries, entry.Stated t
  keys : (t.entries.map RefreshEntryRow.key).Nodup

/-- **A calm step.** -/
structure Calm (maxAttempts : ℕ) (s t : RecoveryState) : Prop where
  sketch : t.sketch = s.sketch
  sound : Sound maxAttempts s.recovery → Sound maxAttempts t.recovery

instance (maxAttempts : ℕ) : IsPreorder RecoveryState (Calm maxAttempts) where
  refl _ := ⟨rfl, id⟩
  trans _ _ _ h h' := ⟨h'.sketch.trans h.sketch, h'.sound ∘ h.sound⟩

namespace RefreshLineage

variable {n : ℕ} {s : RecoveryState}

/-! ## Entries that wait are settled -/

theorem sound_entries {t : RecoveryTables} (h : Sound n t) {f : RefreshEntryRow → RefreshEntryRow}
    (hkey : ∀ entry ∈ t.entries, (f entry).key = entry.key)
    (hstate : ∀ entry ∈ t.entries, (f entry).state ≠ .done → entry.state ≠ .done) :
    Sound n { t with entries := t.entries.map f } := by
  refine ⟨h.attempts, h.ordered, ?_, ?_⟩
  · intro entry hentry
    obtain ⟨old, hold, rfl⟩ := List.mem_map.mp hentry
    obtain ⟨row, hrow, hle, hwork⟩ := h.stated old hold
    obtain ⟨hasset, hgeneration, -⟩ : (f old).assetRecordId = old.assetRecordId ∧
        (f old).generation = old.generation ∧ (f old).ordinal = old.ordinal := by
      simpa [RefreshEntryRow.key] using hkey old hold
    exact ⟨row, hasset.symm ▸ hrow, hgeneration.symm ▸ hle,
      fun hne => hgeneration.symm ▸ hwork (hstate old hold hne)⟩
  · have hkeys : (t.entries.map f).map RefreshEntryRow.key = t.entries.map RefreshEntryRow.key := by
      rw [List.map_map]
      exact List.map_congr_left hkey
    exact hkeys.symm ▸ h.keys

/-- **Entries that are not in flight are settled.** -/
theorem calm_finish {condition : RefreshEntryRow → Bool}
    (h : ∀ entry ∈ s.recovery.entries, condition entry = true → entry.state ≠ .inFlight) :
    Calm n s (s.withRecovery (·.updateEntries condition RefreshEntryRow.finish)) := by
  refine ⟨?_, fun hsound => sound_entries hsound (fun entry _ => ?_) fun entry _ => ?_⟩
  · have hflying : (s.withRecovery (·.updateEntries condition RefreshEntryRow.finish)).flying
        = s.flying := by
      change (s.recovery.entries.map _).filter _ = s.recovery.entries.filter _
      rw [List.filter_map]
      have hsame : (s.recovery.entries.filter ((fun entry => decide (entry.state = .inFlight)) ∘
          fun entry => if condition entry = true then entry.finish else entry))
          = s.recovery.entries.filter fun entry => decide (entry.state = .inFlight) := by
        refine List.filter_congr fun entry hentry => ?_
        rw [Function.comp_apply]
        split_ifs with hcondition
        · rw [decide_eq_false (h entry hentry hcondition)]
          rfl
        · rfl
      rw [hsame]
      refine (List.map_congr_left fun entry hentry => ?_).trans (List.map_id _)
      obtain ⟨hmem, hflight⟩ := List.mem_filter.mp hentry
      exact if_neg fun hcondition => h entry hmem hcondition (of_decide_eq_true hflight)
    exact congrArg (Sketch.mk _ _) hflying
  · split_ifs <;> rfl
  · split_ifs with hcondition
    · exact fun hne => absurd rfl hne
    · exact id

theorem ne_inFlight_of_isPending {entry : RefreshEntryRow} (h : entry.isPending = true) :
    entry.state ≠ .inFlight := by
  rintro hflight
  rw [RefreshEntryRow.isPending, hflight] at h
  cases h

/-- Pending entries are settled. -/
theorem calm_finish_pending {condition : RefreshEntryRow → Bool}
    (h : ∀ entry, condition entry = true → entry.isPending = true) :
    Calm n s (s.withRecovery (·.updateEntries condition RefreshEntryRow.finish)) :=
  calm_finish fun entry _ hcondition => ne_inFlight_of_isPending (h entry hcondition)

theorem calm_markExhaustedRefreshEntries (policy : RecoveryPolicy) (assetId : Uuid)
    (generation : ℤ) :
    Tx.Moves (Calm n) (markExhaustedRefreshEntries policy assetId generation) := by
  refine .modify fun s => calm_finish_pending fun entry hcondition => ?_
  simp only [Bool.and_eq_true] at hcondition
  exact hcondition.1.2

/-! ## States -/

theorem sketch_states {states : Uuid → Option RefreshStateRow}
    (h : ∀ assetId, (states assetId).map (fun row => (row.activeChainId, row.servedGeneration))
      = s.outline assetId) :
    (s.withRecovery fun t => { t with states := states }).sketch = s.sketch :=
  congrArg (fun outline => Sketch.mk _ outline _) (funext h)

/-- **A row keeps its chain and its served generation**, and completes nothing that has work. -/
theorem calm_state {assetId : Uuid} {row row' : RefreshStateRow}
    (hrow : s.recovery.states assetId = some row) (hchain : row'.activeChainId = row.activeChainId)
    (hserved : row'.servedGeneration = row.servedGeneration)
    (hordered : 0 ≤ row.completedGeneration → row.completedGeneration ≤ row.servedGeneration →
      row.servedGeneration ≤ row.requestedGeneration → 0 ≤ row'.completedGeneration ∧
        row'.completedGeneration ≤ row'.servedGeneration ∧
        row'.servedGeneration ≤ row'.requestedGeneration)
    (hwork : ∀ entry ∈ s.recovery.entries, entry.assetRecordId = assetId → entry.state ≠ .done →
      entry.generation = row.servedGeneration → row.completedGeneration < row.servedGeneration →
        row'.completedGeneration < row.servedGeneration) :
    Calm n s (s.withRecovery fun t =>
      { t with states := Function.update t.states assetId (some row') }) := by
  refine ⟨sketch_states fun other => ?_, fun h => ⟨h.attempts, fun other row'' hrow'' => ?_, ?_,
    h.keys⟩⟩
  · by_cases hother : other = assetId
    · rw [hother, Function.update_self, RecoveryState.outline, hrow, Option.map_some,
        Option.map_some, hchain, hserved]
    · rw [Function.update_of_ne hother]
      rfl
  · change Function.update s.recovery.states assetId (some row') other = some row'' at hrow''
    by_cases hother : other = assetId
    · rw [hother, Function.update_self] at hrow''
      obtain rfl := Option.some.inj hrow''
      obtain ⟨hpos, hle, hle'⟩ := h.ordered assetId row hrow
      exact hordered hpos hle hle'
    · rw [Function.update_of_ne hother] at hrow''
      exact h.ordered other row'' hrow''
  · intro entry hentry
    obtain ⟨old, hold, hle, hdone⟩ := h.stated entry hentry
    change entry ∈ s.recovery.entries at hentry
    by_cases hasset : entry.assetRecordId = assetId
    · obtain rfl : row = old := Option.some.inj (hrow.symm.trans (hasset ▸ hold))
      refine ⟨row', ?_, hserved.symm ▸ hle, fun hne => ?_⟩
      · change Function.update s.recovery.states assetId (some row') _ = _
        rw [hasset, Function.update_self]
      · obtain ⟨hgeneration, hopen⟩ := hdone hne
        rw [hserved]
        exact ⟨hgeneration, hwork entry hentry hasset hne hgeneration hopen⟩
    · refine ⟨old, ?_, hle, hdone⟩
      change Function.update s.recovery.states assetId (some row') _ = _
      rw [Function.update_of_ne hasset]
      exact hold

theorem calm_requestFollowUp (assetId : Uuid) : Tx.Moves (Calm n) (requestFollowUp assetId) := by
  refine Tx.Moves.read_bind fun s => ?_
  dsimp only
  rcases hrow : s.recovery.states assetId with _ | row
  · exact refl_of (Calm n) s
  · dsimp only
    unfold writeState
    split_ifs
    · refine calm_state hrow rfl rfl (fun hpos hle hle' => ⟨hpos, hle, ?_⟩) fun _ _ _ _ _ h => h
      exact hle'.trans (le_max_left _ _)
    · exact refl_of (Calm n) s

/-- **A generation whose entries are all done is completed.** -/
theorem calm_completeGenerationIfTerminal (assetId : Uuid) (generation : ℤ) :
    Tx.Moves (Calm n) (completeGenerationIfTerminal assetId generation) := by
  refine Tx.Moves.read_bind fun s => ?_
  split_ifs with hwork
  · exact refl_of (Calm n) s
  · rcases hrow : s.recovery.states assetId with _ | row
    · exact refl_of (Calm n) s
    · change Calm n s ((if max row.completedGeneration generation ≤ row.servedGeneration then _
        else _ : RecoveryTx Unit) s).2
      by_cases hle : max row.completedGeneration generation ≤ row.servedGeneration
      · rw [if_pos hle]
        refine calm_state hrow rfl rfl
          (fun hpos _ hle' => ⟨hpos.trans (le_max_left _ _), hle, hle'⟩) ?_
        intro entry hentry hasset hne hgeneration hopen
        refine max_lt hopen (lt_of_le_of_ne ((le_max_right _ _).trans hle) fun heq => hwork ?_)
        refine List.any_eq_true.mpr ⟨entry, hentry, ?_⟩
        rw [RefreshEntryRow.isOf, decide_eq_true hasset,
          decide_eq_true (hgeneration.trans heq.symm), decide_eq_true hne]
        rfl
      · rw [if_neg hle]
        exact refl_of (Calm n) s

theorem calm_completeEach (affected : List (Uuid × ℤ)) :
    Tx.Moves (Calm n) (completeEach affected) := by
  induction affected with
  | nil => exact .pure ()
  | cons pair rest ih => exact (calm_completeGenerationIfTerminal _ _).bind fun _ => ih

theorem calm_reconcile (article : ArticleKey) :
    Tx.Moves (Calm n) (reconcileArticleRefreshEntries article) := by
  refine Tx.Moves.read_bind fun s => ?_
  refine (Tx.Moves.bind (r := Calm n) (.modify fun s => ?_) fun _ =>
    (calm_completeEach _).bind fun _ => .pure _) s
  refine calm_finish_pending fun entry hcondition => ?_
  rw [Bool.and_eq_true] at hcondition
  exact hcondition.2

theorem calm_refreshGenerationCompleted (assetId : Uuid) (generation : ℤ) :
    Tx.Moves (Calm n) (refreshGenerationCompleted assetId generation) := by
  refine Tx.Moves.read_bind fun s => ?_
  rcases s.recovery.states assetId with _ | row
  · exact refl_of (Calm n) s
  · exact refl_of (Calm n) s

/-! ## Selections -/

section Selections

variable (policy : RecoveryPolicy) (clock : DateTime)

/-- What a selection answers is an entry of the generation that waits. -/
def Waits (assetId : Uuid) (generation : ℤ) (t : RecoveryState) (entry : RefreshEntryRow) : Prop :=
  entry ∈ t.recovery.entries ∧ entry.isOf assetId generation = true ∧ entry.isPending = true

theorem isPending_of_eligible {entry : RefreshEntryRow} (h : entry.isEligible clock = true) :
    entry.isPending = true := by
  rw [RefreshEntryRow.isEligible, Bool.or_eq_true, Bool.and_eq_true] at h
  rw [RefreshEntryRow.isPending, Bool.or_eq_true]
  exact h.imp id And.left

/-- The selection loop moves no chain, and picks an entry that waits. -/
theorem selectLoop_spec (s₀ : RecoveryState) (assetId : Uuid) (generation : ℤ) (fuel : ℕ)
    (cursor : Option ℤ) :
    Tx.Triple (Calm n s₀) (selectLoop policy clock assetId generation fuel cursor)
      (fun found t => Calm n s₀ t ∧ ∀ entry, found = some entry → Waits assetId generation t entry)
      (Calm n s₀) := by
  induction fuel generalizing cursor with
  | zero => exact .pure fun _ h => ⟨h, fun _ heq => by cases heq⟩
  | succ fuel ih =>
    refine Tx.Triple.read_bind fun s hs => ?_
    rcases hfirst : (firstBy (fun a b : RefreshEntryRow => a.ordinal ≤ b.ordinal) 1
        (s.recovery.entries.filter
          (isAdmissible s policy clock assetId generation cursor))).head? with _ | entry
    · refine .pure ?_
      rintro t rfl
      exact ⟨hs, fun _ heq => by cases heq⟩
    · obtain ⟨hmem, hadmissible⟩ :=
        List.mem_filter.mp (mem_of_mem_firstBy _ (List.mem_of_mem_head? hfirst))
      simp only [isAdmissible, Bool.and_eq_true] at hadmissible
      obtain ⟨⟨⟨⟨hof, -⟩, heligible⟩, -⟩, -⟩ := hadmissible
      refine .ite (fun _ => ?_) fun _ => .ite (fun _ => ?_) fun _ => .pure ?_
      · refine Tx.Triple.modify_bind (ih _) ?_
        rintro t rfl
        refine trans_of (Calm n) hs (calm_finish_pending fun other hcondition => ?_)
        rw [Bool.and_eq_true] at hcondition
        exact hcondition.2
      · refine (ih _).mono ?_ (fun _ _ h => h) fun _ h => h
        rintro t rfl
        exact hs
      · rintro t rfl
        refine ⟨hs, fun other heq => ?_⟩
        obtain rfl := Option.some.inj heq
        exact ⟨hmem, hof, isPending_of_eligible clock heligible⟩

theorem calm_supersede (present : Bool) (assetId : Uuid) (generation : ℤ) :
    Tx.Moves (Calm n) (supersede present assetId generation) := by
  refine .ite (.modify fun s => calm_finish_pending fun entry hcondition => ?_) (.pure ())
  rw [Bool.and_eq_true] at hcondition
  exact hcondition.2

/-- **A selection moves no chain**, and picks an entry that waits. -/
theorem selectRefreshEntry_spec (s₀ : RecoveryState) (assetId : Uuid) (generation : ℤ)
    (cursor : Option ℤ) :
    Tx.Triple (Calm n s₀) (selectRefreshEntry policy clock assetId generation cursor)
      (fun found t => Calm n s₀ t ∧ ∀ entry, found = some entry → Waits assetId generation t entry)
      (Calm n s₀) := by
  refine Tx.Triple.modify_bind (R := Calm n s₀) ?_ fun s hs => ?_
  · refine Tx.Triple.read_bind fun s hs => ?_
    refine Tx.Triple.ofExcept_bind (fun t ht => ht ▸ hs) fun present _ => ?_
    refine .bind (R := fun _ => Calm n s₀) ?_ fun _ => ?_
    · exact ((calm_supersede present assetId generation).triple s₀).mono (fun t ht => ht ▸ hs)
        (fun _ _ h => h) fun _ h => h
    · refine Tx.Triple.read_bind fun t ht => ?_
      exact (selectLoop_spec policy clock s₀ assetId generation _ cursor).mono
        (fun u hu => hu ▸ ht) (fun _ _ h => h) fun _ h => h
  · refine trans_of (Calm n) hs (calm_finish_pending fun entry hcondition => ?_)
    simp only [Bool.and_eq_true] at hcondition
    exact hcondition.1.2

theorem calm_selectRefreshEntry (assetId : Uuid) (generation : ℤ) (cursor : Option ℤ) :
    Tx.Moves (Calm n) (selectRefreshEntry policy clock assetId generation cursor) :=
  .of_triple fun s => (selectRefreshEntry_spec policy clock s assetId generation cursor).mono
    (fun _ h => h) (fun _ _ h => h.1) fun _ h => h

/-- The next entry of a generation that is served and has work, while its asset is on no chain. -/
theorem nextEntry_spec (s : RecoveryState) (assetId : Uuid) (generation : ℤ) :
    Tx.Triple (· = s) (nextEntry policy clock assetId generation)
      (fun found t => Calm n s t ∧ ∀ entry, found = some entry →
        Waits assetId generation t entry ∧ s.recovery.capacityAvailable policy = true ∧
          s.recovery.generationPending assetId generation = true) (Calm n s) := by
  refine Tx.Triple.read_bind fun t ht => ?_
  subst ht
  refine .ite (fun _ => .pure ?_) fun hopen => ?_
  · rintro u rfl
    exact ⟨refl_of (Calm n) u, fun _ heq => by cases heq⟩
  · rw [Bool.or_eq_true, not_or, Bool.not_eq_true', Bool.not_eq_true', Bool.not_eq_false,
      Bool.not_eq_false] at hopen
    refine (selectRefreshEntry_spec policy clock t assetId generation none).mono ?_ ?_ fun _ h => h
    · rintro u rfl
      exact refl_of (Calm n) u
    · exact fun found u h => ⟨h.1, fun entry heq => ⟨h.2 entry heq, hopen⟩⟩

/-! ## Lineages -/

theorem calm_lineage {lineage : ArticleKey → Option LineageRow}
    (h : (∀ article row, s.recovery.lineage article = some row → row.attempts ≤ n) →
      ∀ article row, lineage article = some row → row.attempts ≤ n) :
    Calm n s (s.withRecovery fun t => { t with lineage := lineage }) :=
  ⟨rfl, fun hsound => ⟨h hsound.attempts, hsound.ordered, hsound.stated, hsound.keys⟩⟩

/-- One lineage is written. -/
theorem calm_lineage_update {article : ArticleKey} {row : Option LineageRow}
    (h : (∀ old, s.recovery.lineage article = some old → old.attempts ≤ n) →
      ∀ new, row = some new → new.attempts ≤ n) :
    Calm n s (s.withRecovery fun t =>
      { t with lineage := Function.update t.lineage article row }) := by
  refine calm_lineage fun hbound other new hnew => ?_
  by_cases hother : other = article
  · rw [hother, Function.update_self] at hnew
    exact h (hbound article) new hnew
  · rw [Function.update_of_ne hother] at hnew
    exact hbound other new hnew

/-- **An attempt is taken from what is left.** -/
theorem calm_reserveLineage (hpolicy : policy.maxAttempts = n) (hpos : 0 < n)
    (article : ArticleKey) : Tx.Moves (Calm n) (reserveLineage policy clock article) := by
  refine Tx.Moves.read_bind fun s => ?_
  split_ifs with hadmits
  · refine calm_lineage_update fun _ new hnew => ?_
    obtain rfl := Option.some.inj hnew
    rcases hrow : s.recovery.lineage article with _ | row
    · exact hpos
    · rw [RecoveryTables.lineageAdmits, hrow, Option.all_some, Bool.and_eq_true, Bool.and_eq_true,
        decide_eq_true_eq, hpolicy] at hadmits
      exact hadmits.1.2
  · exact refl_of (Calm n) s

theorem calm_freshLineage (article : ArticleKey) :
    Tx.Moves (Calm n) (Tx.modify (freshLineage article) : RecoveryTx Unit) := by
  refine .modify fun s => ?_
  unfold freshLineage
  split
  · exact refl_of (Calm n) s
  · exact calm_lineage_update fun _ new hnew => Option.some.inj hnew ▸ Nat.zero_le n

/-- A lineage is written without an attempt. -/
theorem calm_updateLineage {article : ArticleKey} {assign : LineageRow → LineageRow}
    (h : ∀ row, (assign row).attempts ≤ row.attempts) :
    Tx.Moves (Calm n) (updateLineage article assign) := by
  refine .modify fun s => calm_lineage_update fun hold new hnew => ?_
  obtain ⟨old, holdrow, rfl⟩ := Option.map_eq_some_iff.mp hnew
  exact (h old).trans (hold old holdrow)

end Selections

/-! ## Leases -/

theorem calm_lockLiveRepairLease (clock : DateTime) (lease : JobLease) :
    Tx.Moves (Calm n) (lockLiveRepairLease clock lease) := by
  unfold lockLiveRepairLease
  rcases lease.job.leaseOwner with _ | owner
  · exact .fail _
  · refine Tx.Moves.read_bind fun s => ?_
    split_ifs
    · exact refl_of (Calm n) s
    · exact refl_of (Calm n) s

end RefreshLineage

end Werrss
