import Werrss.Persistence.RefreshChains

/-!
# Persistence/RefreshRoutes — generations start, and go on

    served, no chain ── select ─▸ nothing waits ┊ an entry waits ── admit ─▸ on a chain
    all done ── a later generation is served ─▸ snapshot ─▸ select ─▸ …

Whatever asks for a refresh works on one asset: it leaves the others as they are, and its own asset
on a chain of one job or on none.
-/

open Machinery

namespace Werrss

open Docket Sketch

namespace RefreshLineage

open ConfigTransfer (Collation)

variable {policy : RecoveryPolicy} {clock : DateTime} {s t u : RecoveryState} {assetId : Uuid}
  {generation : ℤ} {n : ℕ}

/-! ## One asset moves on -/

/-- **A step on one asset**, with one job more at most. -/
structure Advances (n : ℕ) (assetId : Uuid) (s t : RecoveryState) : Prop where
  sound : Sound n t.recovery
  linked : t.sketch.LinkedAt assetId
  others : ∀ other, other ≠ assetId → SameAt s.sketch t.sketch other
  docket : t.recovery.docket = s.recovery.docket ∨
    ∃ job repair, Admits s.recovery.docket job repair ∧ repair.admissionClass = .internalRefresh ∧
      t.recovery.docket = s.recovery.docket.entered job repair

/-- **The generation has nothing in flight**, and its chain is known. -/
structure Lands (n : ℕ) (assetId : Uuid) (chain : Option Uuid) (generation : ℤ)
    (s t : RecoveryState) : Prop where
  sound : Sound n t.recovery
  docket : t.recovery.docket = s.recovery.docket
  outline : t.outline assetId = some (chain, generation)
  flying : t.sketch.flyingOf assetId = []
  others : ∀ other, other ≠ assetId → SameAt s.sketch t.sketch other

/-- The generation is served to an asset that is on no chain. -/
structure Serves (n : ℕ) (assetId : Uuid) (generation : ℤ) (s t : RecoveryState) : Prop
    extends Lands n assetId none generation s t where
  carriers : s.recovery.docket.carriers assetId = []

/-- All entries of the asset are done. -/
def Settled (assetId : Uuid) (s : RecoveryState) : Prop :=
  ∀ entry ∈ s.recovery.entries, entry.assetRecordId = assetId → entry.state = .done

/-- The sketches agree in all of their parts. -/
theorem docket_of_sketch (h : t.sketch = s.sketch) : t.recovery.docket = s.recovery.docket :=
  congrArg Sketch.docket h

theorem outline_of_sketch (h : t.sketch = s.sketch) : t.outline = s.outline :=
  congrArg Sketch.outline h

theorem Advances.of_calm (hsound : Sound n s.recovery) (hlinked : s.sketch.LinkedAt assetId)
    (h : Calm n s t) : Advances n assetId s t :=
  ⟨h.sound hsound, h.sketch.symm ▸ hlinked, fun other _ => .of_eq h.sketch other,
    .inl (docket_of_sketch h.sketch)⟩

theorem Advances.calm (h : Advances n assetId s t) (hcalm : Calm n t u) : Advances n assetId s u :=
  ⟨hcalm.sound h.sound, hcalm.sketch.symm ▸ h.linked, fun other hother =>
    (h.others other hother).trans (.of_eq hcalm.sketch other),
    docket_of_sketch hcalm.sketch ▸ h.docket⟩

theorem Lands.calm {chain : Option Uuid} (h : Lands n assetId chain generation s t)
    (hcalm : Calm n t u) : Lands n assetId chain generation s u :=
  ⟨hcalm.sound h.sound, (docket_of_sketch hcalm.sketch).trans h.docket,
    (congrFun (outline_of_sketch hcalm.sketch) assetId).trans h.outline,
    hcalm.sketch.symm ▸ h.flying, fun other hother => (h.others other hother).trans
      (.of_eq hcalm.sketch other)⟩

theorem Serves.calm (h : Serves n assetId generation s t) (hcalm : Calm n t u) :
    Serves n assetId generation s u :=
  ⟨h.toLands.calm hcalm, h.carriers⟩

/-- No job carries the asset, and nothing of it is in flight. -/
theorem Lands.empty {chain : Option Uuid} (h : Lands n assetId chain generation s t)
    (hcarriers : s.recovery.docket.carriers assetId = []) : t.sketch.Empty assetId :=
  ⟨(congrArg (Docket.carriers · assetId) h.docket).trans hcarriers, h.flying⟩

theorem Serves.grounded (h : Serves n assetId generation s t) : t.sketch.Grounded assetId := by
  refine ⟨fun chain served houtline => ?_, h.empty h.carriers⟩
  exact (Prod.mk.inj (Option.some.inj (houtline.symm.trans h.outline))).1

theorem Serves.advances (h : Serves n assetId generation s t) : Advances n assetId s t :=
  ⟨h.sound, .inl h.grounded, h.others, .inl h.docket⟩

/-- What comes behind. -/
theorem Serves.then (h : Serves n assetId generation s t) (h' : Advances n assetId t u) :
    Advances n assetId s u :=
  ⟨h'.sound, h'.linked, fun other hother => (h.others other hother).trans (h'.others other hother),
    h.docket ▸ h'.docket⟩

theorem Serves.launched (h : Serves n assetId generation s t) {chain : Uuid}
    (h' : Launched n assetId chain t u) : Advances n assetId s u := by
  obtain ⟨repair, entry, hcarries⟩ := h'.carries
  exact h.then ⟨h'.sound, .inr ⟨chain, repair, entry, hcarries⟩, h'.others, .inr h'.docket⟩

/-- The generation of an asset that is on no chain. -/
theorem serves_refl (hsound : Sound n s.recovery) {row : RefreshStateRow}
    (hrow : s.recovery.states assetId = some row) (hchain : row.activeChainId = none)
    (hgrounded : s.sketch.Grounded assetId) : Serves n assetId row.servedGeneration s s := by
  refine ⟨⟨hsound, rfl, ?_, hgrounded.2.2, fun other _ => .of_eq rfl other⟩, hgrounded.2.1⟩
  rw [RecoveryState.outline, hrow, Option.map_some, hchain]

/-- An asset whose row names no chain is on none. -/
theorem grounded_of_row (hlinked : s.sketch.LinkedAt assetId)
    (hchain : ∀ row, s.recovery.states assetId = some row → row.activeChainId = none) :
    s.sketch.Grounded assetId := by
  refine hlinked.grounded fun chain served houtline => ?_
  obtain ⟨row, hrow, heq⟩ := Option.map_eq_some_iff.mp houtline
  exact (Prod.mk.inj heq).1.symm.trans (hchain row hrow)

/-- The asset has no work once its served generation is completed. -/
theorem settled_of_completed (hsound : Sound n s.recovery)
    (h : ∀ row, s.recovery.states assetId = some row →
      row.servedGeneration ≤ row.completedGeneration) : Settled assetId s := by
  intro entry hentry hasset
  obtain ⟨row, hrow, -, hwork⟩ := hsound.stated entry hentry
  by_contra hne
  exact absurd (hwork hne).2 (not_lt.mpr (h row (hasset ▸ hrow)))

/-! ## Selections and admissions -/

section Steps

/-- A calm step of a served generation. -/
theorem lands_moves {A : Type} {m : RecoveryTx A} {chain : Option Uuid}
    (h : Tx.Moves (Calm n) m) (s : RecoveryState) :
    Tx.Triple (Lands n assetId chain generation s) m (fun _ => Lands n assetId chain generation s)
      fun _ => True :=
  (Tx.Triple.iff_final.mpr fun t ht => ht.calm (h t)).mono (fun _ ht => ht) (fun _ _ ht => ht)
    fun _ _ => trivial

theorem serves_moves {A : Type} {m : RecoveryTx A} (h : Tx.Moves (Calm n) m) (s : RecoveryState) :
    Tx.Triple (Serves n assetId generation s) m (fun _ => Serves n assetId generation s)
      fun _ => True :=
  (Tx.Triple.iff_final.mpr fun t ht => ht.calm (h t)).mono (fun _ ht => ht) (fun _ _ ht => ht)
    fun _ _ => trivial

/-- A selection, whatever chain the asset is on. -/
theorem lands_select (s : RecoveryState) (chain : Option Uuid) (cursor : Option ℤ) :
    Tx.Triple (Lands n assetId chain generation s)
      (selectRefreshEntry policy clock assetId generation cursor)
      (fun found t => Lands n assetId chain generation s t ∧
        ∀ entry, found = some entry → Waits assetId generation t entry) fun _ => True := by
  refine .each fun t ht => ?_
  refine (selectRefreshEntry_spec (n := n) policy clock t assetId generation cursor).mono ?_ ?_
    fun _ _ => trivial
  · rintro v rfl
    exact refl_of (Calm n) v
  · exact fun found v hv => ⟨ht.calm hv.1, hv.2⟩

theorem serves_select (s : RecoveryState) (cursor : Option ℤ) :
    Tx.Triple (Serves n assetId generation s)
      (selectRefreshEntry policy clock assetId generation cursor)
      (fun found t => Serves n assetId generation s t ∧
        ∀ entry, found = some entry → Waits assetId generation t entry) fun _ => True := by
  refine .each fun t ht => ?_
  refine (lands_select (n := n) s none cursor).mono ?_ (fun found u hu => ?_)
    fun _ h => h
  · rintro u rfl
    exact ht.toLands
  · exact ⟨⟨hu.1, ht.carriers⟩, hu.2⟩

variable (hpos : 0 < policy.maxAttempts)
include hpos

theorem serves_entered (hfiled : Filed s.recovery.docket) (supply : AdmissionSupply)
    (entry : RefreshEntryRow) :
    Tx.Triple
      (fun t => Serves policy.maxAttempts assetId generation s t ∧ Waits assetId generation t entry)
      (admitRefreshEntry policy clock assetId generation supply entry true)
      (fun _ t => Advances policy.maxAttempts assetId s t) fun _ => True := by
  refine .each fun t ht => ?_
  obtain ⟨hserves, hwaits⟩ := ht
  have houtline : t.outline assetId
      = some (if true = true then none else some supply.chainId, generation) := hserves.outline
  refine (admitRefreshEntry_spec hpos hserves.sound (hserves.docket.symm ▸ hfiled)
    (hserves.empty hserves.carriers) houtline hwaits).mono (fun _ h => h) (fun answer v hv => ?_)
    fun _ h => h
  rcases hv with ⟨-, hcalm⟩ | ⟨-, hlaunched⟩
  · exact (hserves.calm hcalm).advances
  · exact hserves.launched hlaunched

end Steps

/-! ## A generation is opened -/

theorem writeState_spec (s : RecoveryState) (assetId : Uuid) (row : RefreshStateRow) :
    Tx.Triple (· = s) (writeState assetId row) (fun _ t => row.check = true ∧
      t = s.withRecovery fun t => { t with states := Function.update t.states assetId (some row) })
      fun _ => True := by
  refine .ite (fun hcheck => ?_) fun _ => .fail fun _ _ => trivial
  rintro u rfl
  refine ⟨fun _ t hrun => ?_, fun _ _ _ => trivial⟩
  exact ⟨hcheck, (Prod.mk.inj hrun).2.symm⟩

/-- **The generation is completed**, once it has no work. -/
theorem serves_setCompleted (s : RecoveryState) :
    Tx.Triple (fun t => Serves n assetId generation s t ∧
        Settled assetId t ∧ ∃ row, t.recovery.states assetId = some row)
      (setCompleted assetId generation) (fun _ => Serves n assetId generation s) fun _ => True := by
  refine .each fun t ht => ?_
  obtain ⟨hserves, hsettled, row, hrow⟩ := ht
  refine Tx.Triple.read_bind fun v hv => ?_
  subst hv
  rw [hrow]
  refine (writeState_spec v assetId _).mono (fun _ h => h) (fun _ w hw => ?_) fun _ h => h
  obtain ⟨-, rfl⟩ := hw
  have hserved : row.servedGeneration = generation := by
    have houtline := hserves.outline
    rw [RecoveryState.outline, hrow, Option.map_some] at houtline
    exact (Prod.mk.inj (Option.some.inj houtline)).2
  refine hserves.calm (calm_state hrow rfl rfl (fun hcompleted hle hle' => ?_) ?_)
  · exact ⟨hserved ▸ hcompleted.trans hle, hserved.ge, hle'⟩
  · exact fun entry hentry hasset hne => absurd (hsettled entry hentry hasset) hne

/-- The row of a generation that is opened. -/
structure Opens (assetId : Uuid) (generation : ℤ) (s : RecoveryState) (row : RefreshStateRow) :
    Prop where
  chain : row.activeChainId = none
  served : row.servedGeneration = generation
  completed : row.completedGeneration < generation
  older : ∀ entry ∈ s.recovery.entries, entry.assetRecordId = assetId →
    entry.generation ≤ generation

/-- The row of the generation is written. -/
theorem serves_opened (hsound : Sound n s.recovery) (hgrounded : s.sketch.Grounded assetId)
    (hsettled : Settled assetId s) {row : RefreshStateRow} (hcheck : row.check = true)
    (hopens : Opens assetId generation s row) :
    Serves n assetId generation s (s.withRecovery fun t =>
      { t with states := Function.update t.states assetId (some row) }) := by
  rw [RefreshStateRow.check, Bool.and_eq_true, Bool.and_eq_true, Bool.and_eq_true,
    decide_eq_true_eq, decide_eq_true_eq, decide_eq_true_eq] at hcheck
  refine ⟨⟨⟨hsound.attempts, fun other row' hrow' => ?_, fun entry hentry => ?_, hsound.keys⟩, rfl,
    ?_, hgrounded.2.2, fun other hother => ⟨?_, rfl, rfl⟩⟩, hgrounded.2.1⟩
  · change Function.update s.recovery.states assetId (some row) other = some row' at hrow'
    by_cases hother : other = assetId
    · rw [hother, Function.update_self] at hrow'
      obtain rfl := Option.some.inj hrow'
      exact ⟨hcheck.1.1.1, hcheck.1.1.2, hcheck.1.2⟩
    · rw [Function.update_of_ne hother] at hrow'
      exact hsound.ordered other row' hrow'
  · by_cases hasset : entry.assetRecordId = assetId
    · refine ⟨row, ?_, hopens.served ▸ hopens.older entry hentry hasset, fun hne => ?_⟩
      · change Function.update s.recovery.states assetId (some row) _ = _
        rw [hasset, Function.update_self]
      · exact absurd (hsettled entry hentry hasset) hne
    · obtain ⟨old, hold, hrest⟩ := hsound.stated entry hentry
      refine ⟨old, ?_, hrest⟩
      change Function.update s.recovery.states assetId (some row) _ = _
      rw [Function.update_of_ne hasset]
      exact hold
  · change (Function.update s.recovery.states assetId (some row) assetId).map _ = _
    rw [Function.update_self, Option.map_some, hopens.chain, hopens.served]
  · change (Function.update s.recovery.states assetId (some row) other).map _ = _
    rw [Function.update_of_ne hother]
    rfl

/-! ## Snapshots -/

/-- A generation that is served and has no entry yet. -/
structure Opened (n : ℕ) (assetId : Uuid) (generation : ℤ) (s t : RecoveryState) : Prop where
  serves : Serves n assetId generation s t
  settled : Settled assetId t
  row : ∃ row, t.recovery.states assetId = some row ∧ row.completedGeneration < generation

section Snapshots

variable [Collation]

theorem mem_snapshotEntries {entry : RefreshEntryRow}
    (h : entry ∈ snapshotEntries s assetId generation) :
    entry.assetRecordId = assetId ∧ entry.generation = generation ∧ entry.state = .unseen := by
  obtain ⟨numbered, -, rfl⟩ := List.mem_map.mp h
  exact ⟨rfl, rfl, rfl⟩

/-- The ordinals of a snapshot count its entries. -/
theorem nodup_snapshotEntries :
    ((snapshotEntries s assetId generation).map RefreshEntryRow.key).Nodup := by
  have hordinals : (snapshotEntries s assetId generation).map RefreshEntryRow.key
      = ((liveArticles s assetId).zipIdx.map Prod.snd).map fun k : ℕ =>
          (assetId, generation, (k : ℤ) + 1) := by
    rw [snapshotEntries, List.map_map, List.map_map]
    rfl
  rw [hordinals, List.zipIdx_map_snd]
  refine List.Nodup.map (fun k k' heq => ?_) List.nodup_range'
  have hordinal : (k : ℤ) + 1 = (k' : ℤ) + 1 := congrArg (fun key => key.2.2) heq
  omega

omit [Collation] in
/-- An entry the table takes has a key of its own. -/
theorem key_ne_of_isRefused {entry : RefreshEntryRow} (h : isRefused s entry = false)
    {other : RefreshEntryRow} (hother : other ∈ s.recovery.entries) : other.key ≠ entry.key := by
  rw [isRefused, Bool.or_eq_false_iff, Bool.or_eq_false_iff, Bool.or_eq_false_iff] at h
  intro hkey
  obtain ⟨hasset, hgeneration, hordinal⟩ : other.assetRecordId = entry.assetRecordId ∧
      other.generation = entry.generation ∧ other.ordinal = entry.ordinal := by
    simpa [RefreshEntryRow.key] using hkey
  refine Bool.eq_false_iff.mp h.1.1.1 (List.any_eq_true.mpr ⟨other, hother, ?_⟩)
  rw [RefreshEntryRow.clashes, RefreshEntryRow.isOf, decide_eq_true hasset,
    decide_eq_true hgeneration, decide_eq_true hordinal]
  rfl

/-- The snapshot is filed with the other entries. -/
theorem opened_append (h : Opened n assetId generation s t)
    (hnone : (snapshotEntries t assetId generation).any (isRefused t) = false) :
    Serves n assetId generation s (t.withRecovery fun r =>
      { r with entries := r.entries ++ snapshotEntries t assetId generation }) := by
  obtain ⟨row, hrow, hopen⟩ := h.row
  have hserved : row.servedGeneration = generation := by
    have houtline := h.serves.outline
    rw [RecoveryState.outline, hrow, Option.map_some] at houtline
    exact (Prod.mk.inj (Option.some.inj houtline)).2
  have hflying : (snapshotEntries t assetId generation).filter
      (fun entry => decide (entry.state = .inFlight)) = [] := by
    refine List.filter_eq_nil_iff.mpr fun entry hentry hflight => ?_
    rw [decide_eq_true_eq, (mem_snapshotEntries hentry).2.2] at hflight
    cases hflight
  have hsketch : (t.withRecovery fun r => { r with
      entries := r.entries ++ snapshotEntries t assetId generation }).sketch = t.sketch := by
    refine congrArg (Sketch.mk _ _) ?_
    change (t.recovery.entries ++ snapshotEntries t assetId generation).filter _ = _
    rw [List.filter_append, hflying, List.append_nil]
    rfl
  refine h.serves.calm ⟨hsketch, fun hsound => ⟨hsound.attempts, hsound.ordered, ?_, ?_⟩⟩
  · intro entry hentry
    rcases List.mem_append.mp hentry with hold | hnew
    · exact hsound.stated entry hold
    · obtain ⟨hasset, hgeneration, -⟩ := mem_snapshotEntries hnew
      refine ⟨row, hasset.symm ▸ hrow, (hgeneration.trans hserved.symm).le, fun _ => ?_⟩
      exact ⟨hgeneration.trans hserved.symm, hserved.symm ▸ hopen⟩
  · change ((t.recovery.entries ++ snapshotEntries t assetId generation).map _).Nodup
    rw [List.map_append]
    refine List.nodup_append.mpr ⟨hsound.keys, nodup_snapshotEntries, fun a ha b hb heq => ?_⟩
    obtain ⟨old, hold, rfl⟩ := List.mem_map.mp ha
    obtain ⟨new, hnew, rfl⟩ := List.mem_map.mp hb
    refine key_ne_of_isRefused ?_ hold heq
    exact Bool.eq_false_iff.mpr fun hrefused =>
      Bool.eq_false_iff.mp hnone (List.any_eq_true.mpr ⟨new, hnew, hrefused⟩)

/-- **A snapshot** of a generation that was opened; one without entries leaves nothing to do. -/
theorem snapshot_spec (s : RecoveryState) :
    Tx.Triple (Opened n assetId generation s) (snapshotAssetGeneration assetId generation)
      (fun count t => Serves n assetId generation s t ∧
        (count = 0 → Settled assetId t ∧ ∃ row, t.recovery.states assetId = some row))
      fun _ => True := by
  refine Tx.Triple.read_bind fun t ht => .ite (fun _ => .fail fun _ _ => trivial) fun hnone => ?_
  rw [Bool.not_eq_true] at hnone
  refine .modify_bind (R := (· = t.withRecovery fun r =>
    { r with entries := r.entries ++ snapshotEntries t assetId generation })) ?_
    fun u hu => hu ▸ rfl
  refine Tx.Triple.read_bind fun u hu => .pure fun v hv => ?_
  subst hv
  refine ⟨hu ▸ opened_append ht hnone, fun hcount => ?_⟩
  obtain ⟨row, hrow, -⟩ := ht.row
  have hnil : snapshotEntries t assetId generation = [] := by
    refine List.eq_nil_iff_forall_not_mem.mpr fun entry hentry => ?_
    obtain ⟨hasset, hgeneration, -⟩ := mem_snapshotEntries hentry
    have hnot := List.filter_eq_nil_iff.mp (List.length_eq_zero_iff.mp hcount) entry
      (hu ▸ List.mem_append_right _ hentry)
    rw [RefreshEntryRow.isOf, decide_eq_true hasset, decide_eq_true hgeneration] at hnot
    exact hnot rfl
  have hsame : v = t := by
    rw [hu, hnil]
    exact congrArg (RecoveryState.mk t.articles t.assets) (congrArg
      (fun entries => { t.recovery with entries := entries }) (List.append_nil _))
  exact ⟨hsame.symm ▸ ht.settled, row, hsame.symm ▸ hrow⟩

end Snapshots

/-! ## Follow-ups -/

section Generations

variable [Collation] {A : Type} {Q : A → RecoveryState → Prop}

omit [Collation] in
theorem opened (hsound : Sound n s.recovery) (hgrounded : s.sketch.Grounded assetId)
    (hsettled : Settled assetId s) {row : RefreshStateRow} (hcheck : row.check = true)
    (hopens : Opens assetId generation s row) :
    Opened n assetId generation s (s.withRecovery fun t =>
      { t with states := Function.update t.states assetId (some row) }) := by
  refine ⟨serves_opened hsound hgrounded hsettled hcheck hopens, hsettled, row, ?_,
    hopens.completed⟩
  exact Function.update_self ..

/-- **A generation starts**: its row is written and its snapshot taken, and the rest goes on from a
generation that is served, or is about one that has nothing to do. -/
theorem start_bind (hsound : Sound n s.recovery) (hgrounded : s.sketch.Grounded assetId)
    (hsettled : Settled assetId s) {row : RefreshStateRow} (hopens : Opens assetId generation s row)
    {k : ℕ → RecoveryTx A}
    (hnone : Tx.Triple (fun t => Serves n assetId generation s t ∧
      Settled assetId t ∧ ∃ row, t.recovery.states assetId = some row) (k 0) Q fun _ => True)
    (hsome : ∀ count, count ≠ 0 →
      Tx.Triple (Serves n assetId generation s) (k count) Q fun _ => True) :
    Tx.Triple (· = s) (writeState assetId row >>= fun _ =>
      snapshotAssetGeneration assetId generation >>= k) Q fun _ => True := by
  refine .bind (R := fun _ => Opened n assetId generation s) ?_ fun _ =>
    .bind (snapshot_spec s) fun count => ?_
  · refine (writeState_spec s assetId row).mono (fun _ h => h) (fun _ t ht => ?_) fun _ h => h
    obtain ⟨hcheck, rfl⟩ := ht
    exact opened hsound hgrounded hsettled hcheck hopens
  · by_cases hcount : count = 0
    · subst hcount
      exact hnone.mono (fun t ht => ⟨ht.1, ht.2 rfl⟩) (fun _ _ h => h) fun _ h => h
    · exact (hsome count hcount).mono (fun t ht => ht.1) (fun _ _ h => h) fun _ h => h

omit [Collation] in
/-- Whether a generation has nothing left to do. -/
theorem refreshGenerationCompleted_spec {m : ℕ} (hsound : Sound m s.recovery)
    (hserved : ∀ row, s.recovery.states assetId = some row → row.servedGeneration = generation) :
    Tx.Triple (· = s) (refreshGenerationCompleted assetId generation)
      (fun completed t => t = s ∧ (completed = true → Settled assetId s)) fun _ => True := by
  refine Tx.Triple.read_bind fun u hu => ?_
  subst hu
  rcases hrow : u.recovery.states assetId with _ | row
  · exact .fail fun _ _ => trivial
  refine .pure fun t ht => ⟨ht, fun hcompleted entry hentry hasset => ?_⟩
  obtain ⟨row', hrow', -, hwork⟩ := hsound.stated entry hentry
  obtain rfl : row = row' := Option.some.inj (hrow.symm.trans (hasset ▸ hrow'))
  by_contra hne
  obtain ⟨hgeneration, hopen⟩ := hwork hne
  rw [Bool.or_eq_true, decide_eq_true_eq, Bool.not_eq_true'] at hcompleted
  rcases hcompleted with hcompleted | hnone
  · exact absurd (hserved row hrow ▸ hopen) (not_lt.mpr hcompleted)
  · refine Bool.eq_false_iff.mp hnone (List.any_eq_true.mpr ⟨entry, hentry, ?_⟩)
    rw [RefreshEntryRow.isOf, decide_eq_true hasset,
      decide_eq_true (hgeneration.trans (hserved row hrow)), decide_eq_true hne]
    rfl

variable (hpos : 0 < policy.maxAttempts) (hfiled : Filed s.recovery.docket)
  (hsound : Sound policy.maxAttempts s.recovery)
include hpos hfiled hsound

/-- **The follow-up of an asset that has nothing left to do.** -/
theorem startFollowUpGeneration_spec (hlinked : s.sketch.LinkedAt assetId)
    (hsettled : ∀ row, s.recovery.states assetId = some row → row.activeChainId = none →
      Settled assetId s) (supply : AdmissionSupply) :
    Tx.Triple (· = s) (startFollowUpGeneration policy clock supply assetId generation)
      (fun _ => Advances policy.maxAttempts assetId s) fun _ => True := by
  have hrefl : Advances policy.maxAttempts assetId s s :=
    .of_calm hsound hlinked (refl_of (Calm policy.maxAttempts) s)
  refine Tx.Triple.read_bind fun u hu => ?_
  subst hu
  rcases hrow : u.recovery.states assetId with _ | row
  · exact .pure fun t ht => ht ▸ hrefl
  refine .ite (fun hnext => ?_) fun _ => .pure fun t ht => ht ▸ hrefl
  obtain ⟨hrequested, hserved, hchain⟩ := hnext
  have hgrounded : u.sketch.Grounded assetId := grounded_of_row hlinked fun row' hrow' =>
    Option.some.inj (hrow.symm.trans hrow') ▸ hchain
  obtain ⟨-, hle, -⟩ := hsound.ordered assetId row hrow
  have hopens : Opens assetId generation u { row with servedGeneration := generation } := by
    refine ⟨hchain, rfl, lt_of_le_of_lt hle hserved, fun entry hentry hasset => ?_⟩
    obtain ⟨old, hold, holder, -⟩ := hsound.stated entry hentry
    obtain rfl : row = old := Option.some.inj (hrow.symm.trans (hasset ▸ hold))
    exact holder.trans hserved.le
  refine start_bind hsound hgrounded (hsettled row hrow hchain) hopens ?_ fun count hcount => ?_
  · rw [if_pos rfl]
    exact .bind (serves_setCompleted u) fun _ => .pure fun t ht => ht.advances
  · rw [if_neg hcount]
    refine .bind (serves_moves (calm_markExhaustedRefreshEntries policy assetId generation) u)
      fun _ => .bind (serves_moves (calm_completeGenerationIfTerminal assetId generation) u)
      fun _ => .bind (serves_select u none) fun selection => ?_
    rcases selection with _ | entry
    · exact .pure fun t ht => ht.1.advances
    · exact (serves_entered hpos hfiled supply entry).mono (fun t ht => ⟨ht.1, ht.2 entry rfl⟩)
        (fun _ _ h => h) fun _ h => h

/-- The follow-up of the generation that is served, once that has nothing left to do. -/
theorem resumeFollowUpGeneration_spec (hserves : Serves policy.maxAttempts assetId generation s s)
    (supply : AdmissionSupply) :
    Tx.Triple (· = s) (resumeFollowUpGeneration policy clock supply assetId generation)
      (fun _ => Advances policy.maxAttempts assetId s) fun _ => True := by
  have hrefl : Advances policy.maxAttempts assetId s s := hserves.advances
  have hserved : ∀ row, s.recovery.states assetId = some row →
      row.servedGeneration = generation := by
    intro row hrow
    have houtline := hserves.outline
    rw [RecoveryState.outline, hrow, Option.map_some] at houtline
    exact (Prod.mk.inj (Option.some.inj houtline)).2
  refine .bind (refreshGenerationCompleted_spec hsound hserved) fun completed => ?_
  refine .ite (fun _ => .pure fun t ht => ht.1 ▸ hrefl) fun hcompleted => ?_
  rw [Bool.not_eq_true', Bool.not_eq_false] at hcompleted
  refine Tx.Triple.read_bind fun t ht => ?_
  obtain ⟨rfl, hsettled⟩ := ht
  refine .ite (fun _ => .pure fun t ht => ht ▸ hrefl) fun _ => ?_
  refine .bind (startFollowUpGeneration_spec hpos hfiled hsound hserves.advances.linked
    (fun _ _ _ => hsettled hcompleted) supply) fun jobId => .pure fun t ht => ht

end Generations

section Generations

variable [Collation] (hpos : 0 < policy.maxAttempts) (hfiled : Filed s.recovery.docket)
include hpos hfiled

/-- **The generation that is served goes on**, or its follow-up starts. -/
theorem resumeServedGeneration_spec (supply : AdmissionSupply) :
    Tx.Triple (Serves policy.maxAttempts assetId generation s)
      (resumeServedGeneration policy clock supply assetId generation)
      (fun _ => Advances policy.maxAttempts assetId s) fun _ => True := by
  refine .bind (serves_moves (calm_markExhaustedRefreshEntries policy assetId generation) s)
    fun _ => .bind (serves_select s none) fun selection => ?_
  rcases selection with _ | entry
  · refine .bind (R := fun _ => Serves policy.maxAttempts assetId generation s) ?_ fun _ =>
      .each fun t ht => ?_
    · exact (serves_moves (calm_completeGenerationIfTerminal assetId generation) s).mono
        (fun _ ht => ht.1) (fun _ _ h => h) fun _ h => h
    · have hserves : Serves policy.maxAttempts assetId generation t t :=
        ⟨⟨ht.sound, rfl, ht.outline, ht.flying, fun other _ => .of_eq rfl other⟩,
          ht.docket.symm ▸ ht.carriers⟩
      exact (resumeFollowUpGeneration_spec hpos (ht.docket.symm ▸ hfiled) ht.sound hserves
        supply).mono (fun _ h => h) (fun _ _ h => ht.then h) fun _ h => h
  · refine .bind (R := fun _ => Advances policy.maxAttempts assetId s) ?_ fun _ =>
      .pure fun _ h => h
    exact (serves_entered hpos hfiled supply entry).mono (fun t ht => ⟨ht.1, ht.2 entry rfl⟩)
      (fun _ _ h => h) fun _ h => h

variable (hsound : Sound policy.maxAttempts s.recovery)
include hsound

/-- **A cache miss moves one asset on**, if there is capacity. -/
theorem resumeRefreshAfterCacheMiss_spec (hlinked : s.sketch.LinkedAt assetId)
    (supply : AdmissionSupply) :
    Tx.Triple (· = s) (resumeRefreshAfterCacheMiss policy clock supply assetId)
      (fun _ t => Advances policy.maxAttempts assetId s t ∧
        (t.recovery.docket = s.recovery.docket ∨ s.recovery.capacityAvailable policy = true))
      fun _ => True := by
  refine Tx.Triple.read_bind fun u hu => ?_
  subst hu
  have hrefl : ∀ t, t = u → Advances policy.maxAttempts assetId u t ∧
      (t.recovery.docket = u.recovery.docket ∨ u.recovery.capacityAvailable policy = true) := by
    rintro t rfl
    exact ⟨.of_calm hsound hlinked (refl_of (Calm policy.maxAttempts) t), .inl rfl⟩
  rcases hrow : u.recovery.states assetId with _ | row
  · exact .pure hrefl
  refine .ite (fun _ => ?_) fun hchain => .ite (fun _ => .pure hrefl) fun _ =>
    .ite (fun _ => .pure hrefl) fun hcapacity => ?_
  · refine .bind (R := fun _ => Calm policy.maxAttempts u) ?_ fun _ => .pure fun t ht =>
      ⟨.of_calm hsound hlinked ht, .inl (docket_of_sketch ht.sketch)⟩
    exact ((calm_requestFollowUp assetId).triple u).mono
      (fun t ht => ht ▸ refl_of (Calm policy.maxAttempts) u) (fun _ _ h => h) fun _ _ => trivial
  · rw [Bool.not_eq_true', Bool.not_eq_false] at hcapacity
    rw [Bool.not_eq_true, Option.isSome_eq_false_iff, Option.isNone_iff_eq_none] at hchain
    have hrows : ∀ row', u.recovery.states assetId = some row' → row'.activeChainId = none :=
      fun row' hrow' => Option.some.inj (hrow.symm.trans hrow') ▸ hchain
    refine .ite (fun hdone => ?_) fun _ => ?_
    · have hsettled : Settled assetId u := settled_of_completed hsound fun row' hrow' =>
        Option.some.inj (hrow.symm.trans hrow') ▸ hdone
      refine .bind (startFollowUpGeneration_spec hpos hfiled hsound hlinked
        (fun _ _ _ => hsettled) supply) fun _ => .pure fun t ht => ⟨ht, .inr hcapacity⟩
    · refine .bind (R := fun _ => Advances policy.maxAttempts assetId u) ?_ fun _ =>
        .pure fun t ht => ⟨ht, .inr hcapacity⟩
      refine (resumeServedGeneration_spec hpos hfiled supply).mono (fun t ht => ?_)
        (fun _ _ h => h) fun _ h => h
      exact ht ▸ serves_refl hsound hrow hchain (grounded_of_row hlinked hrows)

/-! ## A confirmed expiry -/

omit [Collation] hsound in
/-- The entry that was selected takes the slot. -/
theorem routeSelection_spec (supply : AdmissionSupply) (selection : Option RefreshEntryRow) :
    Tx.Triple (fun t => Serves policy.maxAttempts assetId generation s t ∧
        ∀ entry, selection = some entry → Waits assetId generation t entry)
      (routeSelection policy clock supply assetId generation selection)
      (fun _ => Advances policy.maxAttempts assetId s) fun _ => True := by
  rcases selection with _ | entry
  · refine .bind (R := fun _ => Serves policy.maxAttempts assetId generation s) ?_ fun _ =>
      .pure fun t ht => ht.advances
    exact (serves_moves (calm_completeGenerationIfTerminal assetId generation) s).mono
      (fun _ ht => ht.1) (fun _ _ h => h) fun _ h => h
  · refine .bind (R := fun _ => Advances policy.maxAttempts assetId s) ?_ fun _ =>
      .pure fun _ h => h
    exact (serves_entered hpos hfiled supply entry).mono (fun t ht => ⟨ht.1, ht.2 entry rfl⟩)
      (fun _ _ h => h) fun _ h => h

/-- **A confirmed expiry moves one asset on**: the chain it is on, its generation or a new one. -/
theorem routeConfirmedExpiry_spec (hlinked : s.sketch.LinkedAt assetId) (supply : AdmissionSupply) :
    Tx.Triple (· = s) (routeConfirmedExpiry policy clock supply assetId)
      (fun _ => Advances policy.maxAttempts assetId s) fun _ => True := by
  refine Tx.Triple.read_bind fun u hu => ?_
  subst hu
  dsimp only
  refine .ite (fun _ => ?_) fun hchain => ?_
  · refine .bind (R := fun _ => Calm policy.maxAttempts u) ?_ fun _ => .pure fun t ht =>
      .of_calm hsound hlinked ht
    exact ((calm_requestFollowUp assetId).triple u).mono
      (fun t ht => ht ▸ refl_of (Calm policy.maxAttempts) u) (fun _ _ h => h) fun _ _ => trivial
  rw [Bool.not_eq_true, Option.isSome_eq_false_iff, Option.isNone_iff_eq_none] at hchain
  have hgrounded : u.sketch.Grounded assetId := grounded_of_row hlinked fun row hrow => by
    rwa [hrow] at hchain
  -- a generation of its own
  have hnew (generation : ℤ) (hserved : ((u.recovery.states assetId).getD
        ⟨0, 0, 0, none⟩).servedGeneration
          ≤ ((u.recovery.states assetId).getD ⟨0, 0, 0, none⟩).completedGeneration)
      (hnext : ((u.recovery.states assetId).getD ⟨0, 0, 0, none⟩).completedGeneration
        < generation) :
      Tx.Triple (· = u) (routeNewGeneration policy clock supply assetId
          ((u.recovery.states assetId).getD ⟨0, 0, 0, none⟩).completedGeneration generation)
        (fun _ => Advances policy.maxAttempts assetId u) fun _ => True := by
    have hrow : ∀ row, u.recovery.states assetId = some row →
        row.servedGeneration ≤ row.completedGeneration ∧ row.completedGeneration < generation := by
      intro row hrow
      rw [hrow] at hserved hnext
      exact ⟨hserved, hnext⟩
    refine start_bind hsound hgrounded (settled_of_completed hsound fun row h => (hrow row h).1)
      ⟨rfl, rfl, hnext, fun entry hentry hasset => ?_⟩ ?_ fun count hcount => ?_
    · obtain ⟨old, hold, holder, -⟩ := hsound.stated entry hentry
      obtain ⟨hle, hlt⟩ := hrow old (hasset ▸ hold)
      exact (holder.trans hle).trans hlt.le
    · rw [if_pos rfl]
      exact .bind (serves_setCompleted u) fun _ => .pure fun t ht => ht.advances
    · rw [if_neg hcount]
      exact .bind (serves_moves (calm_markExhaustedRefreshEntries policy assetId generation) u)
        fun _ => .bind (serves_select u none) fun selection =>
          routeSelection_spec hpos hfiled supply selection
  refine .ite (fun hopen => ?_) fun hdone => ?_
  · rcases hrow : u.recovery.states assetId with _ | row
    · rw [hrow] at hopen
      exact absurd hopen (lt_irrefl 0)
    · rw [hrow] at hchain
      refine .bind (R := fun _ => Serves policy.maxAttempts assetId row.servedGeneration u) ?_
        fun _ => .bind (serves_moves (calm_markExhaustedRefreshEntries policy assetId _) u)
        fun _ => .bind (serves_select u none) fun selection =>
          routeSelection_spec hpos hfiled supply selection
      refine (serves_moves (calm_requestFollowUp assetId) u).mono (fun t ht => ?_) (fun _ _ h => h)
        fun _ h => h
      exact ht ▸ serves_refl hsound hrow hchain hgrounded
  · rw [not_lt] at hdone
    refine .ite (fun hrequested => hnew _ hdone hrequested) fun hrequested => .ite (fun _ => ?_)
      fun _ => .fail fun _ _ => trivial
    refine hnew _ hdone ?_
    rcases hrow : u.recovery.states assetId with _ | row
    · exact Int.zero_lt_one
    · rw [hrow] at hdone
      obtain ⟨-, hle, hle'⟩ := hsound.ordered assetId row hrow
      exact lt_of_le_of_lt (hle.trans hle') (lt_add_one _)

end Generations

section Reset

variable (hpos : 0 < policy.maxAttempts) (hfiled : Filed s.recovery.docket)
  (hsound : Sound policy.maxAttempts s.recovery)
include hpos hfiled hsound

/-- **A generation that an article has left moves on**, if there is capacity. -/
theorem reevaluate_spec (hlinked : s.sketch.LinkedAt assetId) (supply : AdmissionSupply) :
    Tx.Triple (· = s) (reevaluate policy clock supply assetId generation)
      (fun _ t => Advances policy.maxAttempts assetId s t ∧
        (t.recovery.docket = s.recovery.docket ∨ s.recovery.capacityAvailable policy = true))
      fun _ => True := by
  refine .bind ((nextEntry_spec (n := policy.maxAttempts) policy clock s assetId generation).mono
    (fun _ h => h) (fun _ _ h => h) fun _ _ => trivial) fun selection => ?_
  rcases selection with _ | entry
  · refine ((calm_completeGenerationIfTerminal assetId generation).triple s).mono
      (fun t ht => ht.1) (fun _ t ht => ?_) fun _ _ => trivial
    exact ⟨.of_calm hsound hlinked ht, .inl (docket_of_sketch ht.sketch)⟩
  · refine .each fun t ht => ?_
    obtain ⟨hcalm, hentry⟩ := ht
    obtain ⟨hwaits, hcapacity, hpending⟩ := hentry entry rfl
    rcases hrow : s.recovery.states assetId with _ | row
    · rw [RecoveryTables.generationPending, hrow] at hpending
      cases hpending
    · rw [RecoveryTables.generationPending, hrow, Option.any_some, Bool.and_eq_true,
        Bool.and_eq_true, decide_eq_true_eq, Option.isNone_iff_eq_none] at hpending
      obtain ⟨⟨rfl, hchain⟩, -⟩ := hpending
      have hgrounded := grounded_of_row hlinked fun row' hrow' =>
        Option.some.inj (hrow.symm.trans hrow') ▸ hchain
      have hserves := (serves_refl hsound hrow hchain hgrounded).calm hcalm
      refine .bind (R := fun _ => Advances policy.maxAttempts assetId s) ?_ fun _ =>
        .pure fun u hu => ⟨hu, .inr hcapacity⟩
      exact (serves_entered hpos hfiled supply entry).mono (fun u hu => hu ▸ ⟨hserves, hwaits⟩)
        (fun _ _ h => h) fun _ h => h

end Reset

/-! ## One asset after the other -/

/-- **The recovery is steady**: filed, sound, and every asset on one chain or on none. -/
structure Steady (n : ℕ) (s : RecoveryState) : Prop where
  filed : Filed s.recovery.docket
  sound : Sound n s.recovery
  linked : s.sketch.Linked

/-- The row is that of a public repair. -/
def isPublic (repair : RepairJobRow) : Bool := decide (repair.admissionClass = .publicRepair)

/-- **The slots are within their bounds.** -/
structure WithinCapacity (maxPending publicMaxPending : ℕ) (d : Docket) : Prop where
  all : d.slots (fun _ => true) ≤ maxPending
  publics : d.slots isPublic ≤ publicMaxPending

theorem Steady.calm (h : Steady n s) (hcalm : Calm n s t) : Steady n t :=
  ⟨docket_of_sketch hcalm.sketch ▸ h.filed, hcalm.sound h.sound, hcalm.sketch.symm ▸ h.linked⟩

theorem Advances.steady (h : Advances n assetId s t) (hfiled : Filed s.recovery.docket)
    (hlinked : ∀ other, other ≠ assetId → s.sketch.LinkedAt other) : Steady n t := by
  refine ⟨?_, h.sound, fun other => ?_⟩
  · rcases h.docket with hsame | ⟨job, repair, hadmits, -, hdocket⟩
    · exact hsame.symm ▸ hfiled
    · exact hdocket.symm ▸ hfiled.entered hadmits
  · by_cases hother : other = assetId
    · exact hother ▸ h.linked
    · exact (h.others other hother).linkedAt (hlinked other hother)

/-- An admission takes one slot, which is not a public one. -/
theorem Advances.slots (h : Advances n assetId s t) (hfiled : Filed s.recovery.docket) :
    t.recovery.docket.slots (fun _ => true) ≤ s.recovery.docket.slots (fun _ => true) + 1 ∧
      t.recovery.docket.slots isPublic = s.recovery.docket.slots isPublic := by
  rcases h.docket with hsame | ⟨job, repair, hadmits, hclass, hdocket⟩
  · rw [hsame]
    exact ⟨Nat.le_succ _, rfl⟩
  · rw [hdocket, slots_entered hfiled hadmits, slots_entered hfiled hadmits, if_pos rfl, isPublic,
      hclass]
    exact ⟨Nat.le_refl _, rfl⟩

/-- Where there is capacity, it is one below the bound. -/
theorem slots_of_capacityAvailable (h : s.recovery.capacityAvailable policy = true) :
    s.recovery.docket.slots (fun _ => true) < policy.maxPending := by
  rw [RecoveryTables.capacityAvailable, decide_eq_true_eq] at h
  rw [Docket.slots, List.countP_eq_length_filter]
  exact h

theorem Advances.within (h : Advances policy.maxAttempts assetId s t)
    (hfiled : Filed s.recovery.docket) {publicMaxPending : ℕ}
    (hwithin : WithinCapacity policy.maxPending publicMaxPending s.recovery.docket)
    (hcapacity : t.recovery.docket = s.recovery.docket ∨
      s.recovery.capacityAvailable policy = true) :
    WithinCapacity policy.maxPending publicMaxPending t.recovery.docket := by
  obtain ⟨hall, hpublics⟩ := h.slots hfiled
  rcases hcapacity with hsame | hcapacity
  · exact hsame.symm ▸ hwithin
  · exact ⟨hall.trans (slots_of_capacityAvailable hcapacity), hpublics.le.trans hwithin.publics⟩

section Each

variable {publicMaxPending : ℕ} (hpos : 0 < policy.maxAttempts)
include hpos

/-- What runs under the bounds. -/
def Governed (policy : RecoveryPolicy) (publicMaxPending : ℕ) (s : RecoveryState) : Prop :=
  Steady policy.maxAttempts s ∧ WithinCapacity policy.maxPending publicMaxPending s.recovery.docket

theorem reevaluateEach_spec (supply : ℕ → AdmissionSupply) (affected : List (Uuid × ℤ)) (k : ℕ) :
    Tx.Triple (Governed policy publicMaxPending)
      (reevaluateEach policy clock supply affected k) (fun _ => Governed policy publicMaxPending)
      fun _ => True := by
  induction affected generalizing k with
  | nil => exact .pure fun _ h => h
  | cons pair rest ih =>
    refine .bind (R := fun _ => Governed policy publicMaxPending) ?_ fun _ => ih (k + 1)
    refine .each fun s hs => ?_
    refine (reevaluate_spec hpos hs.1.filed hs.1.sound (hs.1.linked pair.1) (supply k)).mono
      (fun _ h => h) (fun _ t ht => ?_) fun _ h => h
    exact ⟨ht.1.steady hs.1.filed fun other _ => hs.1.linked other,
      ht.1.within hs.1.filed hs.2 ht.2⟩

/-- **A reset keeps the recovery steady** and within its bounds. -/
theorem resetArticleRefreshLineage_spec (supply : ℕ → AdmissionSupply) (sourceId : Uuid)
    (reviewId : String) :
    Tx.Triple (Governed policy publicMaxPending)
      (resetArticleRefreshLineage policy clock supply sourceId reviewId)
      (fun _ => Governed policy publicMaxPending) fun _ => True := by
  have hcalm {A : Type} {m : RecoveryTx A} (h : Tx.Moves (Calm policy.maxAttempts) m) :
      Tx.Triple (Governed policy publicMaxPending) m (fun _ => Governed policy publicMaxPending)
        fun _ => True := by
    refine .each fun s hs =>
      (h.triple s).mono (fun t ht => ?_) (fun _ t ht => ?_) fun _ _ => trivial
    · exact ht ▸ refl_of (Calm policy.maxAttempts) s
    · exact ⟨hs.1.calm ht, docket_of_sketch ht.sketch ▸ hs.2⟩
  refine Tx.Triple.ofExcept_bind (fun _ _ => trivial) fun _ _ => ?_
  exact .bind (hcalm (calm_freshLineage _)) fun _ =>
    .bind (hcalm (calm_reconcile _)) fun affected => reevaluateEach_spec hpos supply affected 0

variable [Collation]

theorem resumeEach_spec (supply : ℕ → AdmissionSupply) (assets : List Uuid) (k : ℕ) :
    Tx.Triple (Governed policy publicMaxPending)
      (RepairCircuit.resumeEach policy clock supply assets k)
      (fun _ => Governed policy publicMaxPending) fun _ => True := by
  induction assets generalizing k with
  | nil => exact .pure fun _ h => h
  | cons assetId rest ih =>
    refine .bind (R := fun _ => Governed policy publicMaxPending) ?_ fun _ => ih (k + 1)
    refine .each fun s hs => ?_
    refine (resumeRefreshAfterCacheMiss_spec hpos hs.1.filed hs.1.sound (hs.1.linked assetId)
      (supply k)).mono (fun _ h => h) (fun _ t ht => ?_) fun _ h => h
    exact ⟨ht.1.steady hs.1.filed fun other _ => hs.1.linked other,
      ht.1.within hs.1.filed hs.2 ht.2⟩

end Each

end RefreshLineage

end Werrss
