import Werrss.Persistence.RefreshCalm

/-!
# Persistence/RefreshChains — one chain per asset, one job per chain, one entry in flight

    grounded   no chain ┊ no job ┊ nothing in flight
    carried    chain c  ┊ one job that carries c at ordinal o ┊ one entry in flight, at o

Every transaction of the recovery leaves each asset in one of the two.  An admission takes an asset
from the first to the second: a job is inserted, an attempt of the article reserved and its entry
put in flight, or nothing of this is left.
-/

open Machinery

namespace Werrss

open Docket

/-! ## The jobs of an asset -/

/-- The row is that of a refresh of an article, for this asset. -/
def RepairJobRow.refreshes (repair : RepairJobRow) (assetId : Uuid) : Bool :=
  decide (repair.admissionClass = .internalRefresh)
    && decide (repair.expiredAssetRecordId = some assetId)

namespace Docket

variable {d : Docket} {job : JobRow} {repair : RepairJobRow} {assetId : Uuid}

/-- The active jobs that refresh articles for an asset. -/
def carriers (d : Docket) (assetId : Uuid) : List RepairJobRow :=
  d.repairs.filter fun repair => repair.refreshes assetId && d.isActive repair

theorem mem_carriers : repair ∈ d.carriers assetId ↔
    repair ∈ d.repairs ∧ repair.refreshes assetId = true ∧ d.isActive repair = true := by
  rw [carriers, List.mem_filter, Bool.and_eq_true]

/-- A job and its row, both new. -/
structure Admits (d : Docket) (job : JobRow) (repair : RepairJobRow) : Prop where
  fresh : Fresh d job
  id : job.id = repair.jobId
  names : Names repair job
  active : job.Active

/-- The docket with one more job. -/
def entered (d : Docket) (job : JobRow) (repair : RepairJobRow) : Docket :=
  ⟨d.jobs ++ [job], d.repairs ++ [repair]⟩

theorem Filed.entered (h : Filed d) (hadmits : Admits d job repair) :
    Filed (d.entered job repair) :=
  h.admitted hadmits.fresh hadmits.id hadmits.names

theorem slots_entered (h : Filed d) (hadmits : Admits d job repair) (kind : RepairJobRow → Bool) :
    (d.entered job repair).slots kind = d.slots kind + if kind repair = true then 1 else 0 :=
  slots_admitted h hadmits.fresh hadmits.id hadmits.active kind

theorem carriers_entered (h : Filed d) (hadmits : Admits d job repair) (assetId : Uuid) :
    (d.entered job repair).carriers assetId
      = d.carriers assetId ++ if repair.refreshes assetId = true then [repair] else [] := by
  have hnew : (d.entered job repair).isActive repair = true := isActive_iff.mpr
    ⟨job, List.mem_append_right _ (List.mem_singleton.mpr rfl), hadmits.id, hadmits.active⟩
  have hold : (d.repairs.filter fun other =>
      other.refreshes assetId && (d.entered job repair).isActive other) = d.carriers assetId :=
    List.filter_congr fun other hother => by
      rw [Docket.entered, isActive_enqueued h hadmits.fresh (d.repairs ++ [repair]) hother]
  have hrepairs : (d.entered job repair).repairs = d.repairs ++ [repair] := rfl
  rw [carriers, hrepairs, List.filter_append, hold, List.filter_singleton, hnew, Bool.and_true,
    Bool.cond_eq_ite]

/-- Jobs that end leave the others. -/
theorem carriers_turned {f : JobRow → JobRow} (hf : ∀ job ∈ d.jobs, Turned f job) (assetId : Uuid) :
    carriers ⟨d.jobs.map f, d.repairs⟩ assetId
      = (d.carriers assetId).filter (isActive ⟨d.jobs.map f, d.repairs⟩) := by
  rw [carriers, carriers, List.filter_filter]
  refine List.filter_congr fun other _ => ?_
  by_cases hactive : isActive ⟨d.jobs.map f, d.repairs⟩ other = true
  · rw [hactive, isActive_turned hf hactive, Bool.true_and, Bool.and_true]
  · rw [Bool.not_eq_true] at hactive
    rw [hactive, Bool.false_and, Bool.and_false]

theorem carriers_enqueued (h : Filed d) (hfresh : Fresh d job) (assetId : Uuid) :
    carriers ⟨d.jobs ++ [job], d.repairs⟩ assetId = d.carriers assetId :=
  List.filter_congr fun other hother => by
    rw [isActive_enqueued h hfresh d.repairs hother]

theorem carriers_annotated {g : RepairJobRow → RepairJobRow}
    (hg : ∀ repair ∈ d.repairs, Annotated g repair)
    (hkind : ∀ repair ∈ d.repairs, (g repair).refreshes assetId = repair.refreshes assetId) :
    carriers ⟨d.jobs, d.repairs.map g⟩ assetId = (d.carriers assetId).map g := by
  rw [carriers, carriers, List.filter_map]
  refine congrArg (List.map g) (List.filter_congr fun other hother => ?_)
  rw [Function.comp_apply, hkind other hother, isActive_annotated (hg other hother)]

end Docket

/-! ## The entries in flight of an asset -/

/-- The entries of an asset in flight. -/
def flyingIn (entries : List RefreshEntryRow) (assetId : Uuid) : List RefreshEntryRow :=
  (entries.filter fun entry => decide (entry.state = .inFlight)).filter fun entry =>
    decide (entry.assetRecordId = assetId)

section Entries

variable {entries : List RefreshEntryRow} {assetId : Uuid}

theorem mem_flyingIn {entry : RefreshEntryRow} : entry ∈ flyingIn entries assetId ↔
    entry ∈ entries ∧ entry.state = .inFlight ∧ entry.assetRecordId = assetId := by
  rw [flyingIn, List.mem_filter, List.mem_filter, decide_eq_true_eq, decide_eq_true_eq, and_assoc]

/-- What is written of other assets. -/
theorem flyingIn_map_of_ne {f : RefreshEntryRow → RefreshEntryRow}
    (hkey : ∀ entry, (f entry).assetRecordId = entry.assetRecordId)
    (h : ∀ entry ∈ entries, entry.assetRecordId = assetId → f entry = entry) :
    flyingIn (entries.map f) assetId = flyingIn entries assetId := by
  rw [flyingIn, flyingIn, List.filter_filter, List.filter_filter, List.filter_map]
  have hsame : (entries.filter ((fun entry => decide (entry.assetRecordId = assetId)
      && decide (entry.state = .inFlight)) ∘ f)) = entries.filter fun entry =>
        decide (entry.assetRecordId = assetId) && decide (entry.state = .inFlight) := by
    refine List.filter_congr fun entry hentry => ?_
    rw [Function.comp_apply, hkey]
    by_cases hasset : entry.assetRecordId = assetId
    · rw [h entry hentry hasset]
    · rw [decide_eq_false hasset, Bool.false_and, Bool.false_and]
  rw [hsame]
  refine (List.map_congr_left fun entry hentry => ?_).trans (List.map_id _)
  obtain ⟨hmem, hflight⟩ := List.mem_filter.mp hentry
  rw [Bool.and_eq_true, decide_eq_true_eq] at hflight
  exact h entry hmem hflight.1

/-- The only one. -/
theorem flyingIn_eq_singleton (hkeys : (entries.map RefreshEntryRow.key).Nodup)
    {entry : RefreshEntryRow}
    (h : ∀ other, other ∈ flyingIn entries assetId ↔ other = entry) :
    flyingIn entries assetId = [entry] := by
  have hnodup : (flyingIn entries assetId).Nodup := ((hkeys.of_map _).filter _).filter _
  refine List.perm_singleton.mp
    ((List.perm_ext_iff_of_nodup hnodup (List.nodup_singleton _)).mpr fun other => ?_)
  exact (h other).trans List.mem_singleton.symm

end Entries

/-! ## Chains -/

namespace Sketch

/-- The entries of an asset in flight. -/
def flyingOf (k : Sketch) (assetId : Uuid) : List RefreshEntryRow :=
  k.flying.filter fun entry => decide (entry.assetRecordId = assetId)

/-- No job and no entry is under way for the asset. -/
def Empty (k : Sketch) (assetId : Uuid) : Prop :=
  k.docket.carriers assetId = [] ∧ k.flyingOf assetId = []

/-- **The asset is on no chain.** -/
def Grounded (k : Sketch) (assetId : Uuid) : Prop :=
  (∀ chain served, k.outline assetId = some (chain, served) → chain = none) ∧ k.Empty assetId

/-- One entry of the asset is in flight, and the row is about this entry and its chain. -/
structure Flies (k : Sketch) (assetId chain : Uuid) (repair : RepairJobRow)
    (entry : RefreshEntryRow) : Prop where
  outline : k.outline assetId = some (some chain, entry.generation)
  flying : k.flyingOf assetId = [entry]
  chainId : repair.chainId = some chain
  ordinal : repair.chainOrdinal = some entry.ordinal
  sourceId : repair.refreshSourceId = some entry.sourceId
  reviewId : repair.refreshReviewId = some entry.reviewId

/-- **The asset is on a chain**: one job carries it, and the entry at the ordinal of the job is the
one in flight. -/
structure Carries (k : Sketch) (assetId chain : Uuid) (repair : RepairJobRow)
    (entry : RefreshEntryRow) : Prop extends Flies k assetId chain repair entry where
  carriers : k.docket.carriers assetId = [repair]

def LinkedAt (k : Sketch) (assetId : Uuid) : Prop :=
  k.Grounded assetId ∨ ∃ chain repair entry, k.Carries assetId chain repair entry

/-- **Every asset is on one chain or on none.** -/
def Linked (k : Sketch) : Prop := ∀ assetId, k.LinkedAt assetId

/-- Nothing of the asset has changed. -/
structure SameAt (k k' : Sketch) (assetId : Uuid) : Prop where
  outline : k'.outline assetId = k.outline assetId
  carriers : k'.docket.carriers assetId = k.docket.carriers assetId
  flying : k'.flyingOf assetId = k.flyingOf assetId

variable {k k' k'' : Sketch} {assetId : Uuid}

theorem SameAt.of_eq (h : k' = k) (assetId : Uuid) : SameAt k k' assetId := by
  rw [h]
  exact ⟨rfl, rfl, rfl⟩

theorem SameAt.trans (h : SameAt k k' assetId) (h' : SameAt k' k'' assetId) :
    SameAt k k'' assetId :=
  ⟨h'.outline.trans h.outline, h'.carriers.trans h.carriers, h'.flying.trans h.flying⟩

theorem SameAt.empty (h : SameAt k k' assetId) (hempty : k.Empty assetId) : k'.Empty assetId :=
  ⟨h.carriers.trans hempty.1, h.flying.trans hempty.2⟩

theorem SameAt.flies (h : SameAt k k' assetId) {chain : Uuid} {repair : RepairJobRow}
    {entry : RefreshEntryRow} (hflies : k.Flies assetId chain repair entry) :
    k'.Flies assetId chain repair entry :=
  ⟨h.outline.trans hflies.outline, h.flying.trans hflies.flying, hflies.chainId, hflies.ordinal,
    hflies.sourceId, hflies.reviewId⟩

theorem SameAt.linkedAt (h : SameAt k k' assetId) (hlinked : k.LinkedAt assetId) :
    k'.LinkedAt assetId := by
  rcases hlinked with ⟨hchain, hempty⟩ | ⟨chain, repair, entry, hcarries⟩
  · refine .inl ⟨fun chain served houtline => ?_, h.empty hempty⟩
    exact hchain chain served (h.outline.symm.trans houtline)
  · exact .inr ⟨chain, repair, entry, h.flies hcarries.toFlies,
      h.carriers.trans hcarries.carriers⟩

/-- An asset without a chain is grounded. -/
theorem LinkedAt.grounded (h : k.LinkedAt assetId)
    (hchain : ∀ chain served, k.outline assetId = some (chain, served) → chain = none) :
    k.Grounded assetId := by
  refine h.resolve_right ?_
  rintro ⟨chain, repair, entry, hcarries⟩
  exact Option.some_ne_none _ (hchain _ _ hcarries.outline)

/-- An asset on a chain is carried. -/
theorem LinkedAt.carries (h : k.LinkedAt assetId) {chain : Uuid} {served : ℤ}
    (houtline : k.outline assetId = some (some chain, served)) :
    ∃ repair entry, k.Carries assetId chain repair entry ∧ entry.generation = served := by
  rcases h with ⟨hchain, -⟩ | ⟨chain', repair, entry, hcarries⟩
  · exact absurd (hchain _ _ houtline) (Option.some_ne_none _)
  · obtain ⟨hchain, hserved⟩ := Prod.mk.inj (Option.some.inj (hcarries.outline.symm.trans houtline))
    obtain rfl := Option.some.inj hchain
    exact ⟨repair, entry, hcarries, hserved⟩

end Sketch

open Sketch

namespace RefreshLineage

variable {policy : RecoveryPolicy} {clock : DateTime} {s t : RecoveryState} {assetId : Uuid}
  {generation : ℤ}

/-! ## Launches -/

/-- **One entry is launched**: a job carries the chain of its asset, and the entry is in flight. -/
structure Launched (n : ℕ) (assetId chain : Uuid) (s t : RecoveryState) : Prop where
  sound : Sound n t.recovery
  docket : ∃ job repair, Admits s.recovery.docket job repair ∧
    repair.admissionClass = .internalRefresh ∧
    t.recovery.docket = s.recovery.docket.entered job repair
  carries : ∃ repair entry, t.sketch.Carries assetId chain repair entry
  others : ∀ other, other ≠ assetId → SameAt s.sketch t.sketch other

/-- The row of a refresh job. -/
def refreshRow (assetId : Uuid) (supply : AdmissionSupply) (entry : RefreshEntryRow)
    (jobId : Uuid) : RepairJobRow where
  jobId := jobId
  assetRecordId := none
  admissionClass := .internalRefresh
  refreshSourceId := some entry.sourceId
  refreshReviewId := some entry.reviewId
  chainId := some supply.chainId
  chainOrdinal := some entry.ordinal
  expiredAssetRecordId := some assetId
  expiryRefunded := false

/-- The state with one more job. -/
def withJob (s : RecoveryState) (job : JobRow) (repair : RepairJobRow) : RecoveryState :=
  s.withRecovery fun t => { t with jobs := t.jobs ++ [job], repairJobs := t.repairJobs ++ [repair] }

/-- The job of a refresh is inserted, or its article has one. -/
theorem insertRefreshJob_spec (s : RecoveryState) (supply : AdmissionSupply)
    (entry : RefreshEntryRow) :
    Tx.Triple (· = s) (insertRefreshJob clock assetId generation supply entry)
      (fun answer t => (answer = none ∧ t = s) ∨ ∃ job, answer = some job.id ∧
        Admits s.recovery.docket job (refreshRow assetId supply entry job.id) ∧
        t = withJob s job (refreshRow assetId supply entry job.id)) fun _ => True := by
  refine Tx.Triple.read_bind fun u hu => ?_
  subst hu
  dsimp only
  split
  · exact .fail fun _ _ => trivial
  · exact .pure fun t ht => .inl ⟨rfl, ht⟩
  · rename_i job hinserted
    obtain ⟨hfresh, -, hkey, htype, hactive⟩ := inserted_spec hinserted u.recovery.repairJobs
    refine .modify_bind (R := (· = withJob u (.ofJob job) (refreshRow assetId supply entry job.id)))
      (.pure fun t ht => ?_) fun t ht => ht ▸ rfl
    refine .inr ⟨.ofJob job, rfl, ⟨hfresh, rfl, ⟨fun _ hasset => ?_, ?_, fun _ => ?_⟩, hactive⟩, ht⟩
    · cases hasset
    · intro sourceId reviewId hsource hreview
      obtain rfl := Option.some.inj hsource
      obtain rfl := Option.some.inj hreview
      exact hkey
    · exact congrArg jobTypeName htype

/-- An attempt is reserved: nothing but the lineage is written. -/
theorem reserveLineage_spec (hpos : 0 < policy.maxAttempts) (s : RecoveryState)
    (article : ArticleKey) :
    Tx.Triple (· = s) (reserveLineage policy clock article)
      (fun _ t => Calm policy.maxAttempts s t ∧
        ∃ lineage, t = s.withRecovery fun r => { r with lineage := lineage }) fun _ => True := by
  have hspec : Tx.Triple (· = s) (reserveLineage policy clock article)
      (fun _ t => ∃ lineage, t = s.withRecovery fun r => { r with lineage := lineage })
      fun _ => True := by
    refine Tx.Triple.read_bind fun u hu => ?_
    subst hu
    refine .ite (fun _ => ?_) fun _ => .pure fun t ht => ⟨u.recovery.lineage, ht⟩
    refine .modify_bind (R := fun t => ∃ lineage, t = u.withRecovery fun r =>
      { r with lineage := lineage }) (.pure fun t ht => ht) fun t ht => ?_
    subst ht
    exact ⟨_, rfl⟩
  refine hspec.self.mono (fun _ h => h) (fun _ t h => ⟨?_, h.2⟩) fun _ h => h
  exact (calm_reserveLineage policy clock rfl hpos article).ok h.1

/-- The generations of an asset, without its chain. -/
def generations (row : RefreshStateRow) : ℤ × ℤ × ℤ :=
  (row.requestedGeneration, row.completedGeneration, row.servedGeneration)

/-- Chains are written, and the generations stay. -/
theorem sound_states {n : ℕ} {t : RecoveryTables} (h : Sound n t)
    {states : Uuid → Option RefreshStateRow}
    (hstates : ∀ assetId, (states assetId).map generations = (t.states assetId).map generations) :
    Sound n { t with states := states } := by
  refine ⟨h.attempts, fun assetId row hrow => ?_, fun entry hentry => ?_, h.keys⟩
  · have hrow : states assetId = some row := hrow
    have hmap := hstates assetId
    rw [hrow, Option.map_some] at hmap
    obtain ⟨old, hold, heq⟩ := Option.map_eq_some_iff.mp hmap.symm
    obtain ⟨hrequested, hcompleted, hserved⟩ : old.requestedGeneration = row.requestedGeneration ∧
        old.completedGeneration = row.completedGeneration ∧
        old.servedGeneration = row.servedGeneration := by
      simpa [generations] using heq
    rw [← hrequested, ← hcompleted, ← hserved]
    exact h.ordered assetId old hold
  · obtain ⟨old, hold, hle, hwork⟩ := h.stated entry hentry
    have hmap := hstates entry.assetRecordId
    rw [hold, Option.map_some] at hmap
    obtain ⟨row, hrow, heq⟩ := Option.map_eq_some_iff.mp hmap
    obtain ⟨-, hcompleted, hserved⟩ : row.requestedGeneration = old.requestedGeneration ∧
        row.completedGeneration = old.completedGeneration ∧
        row.servedGeneration = old.servedGeneration := by
      simpa [generations] using heq
    refine ⟨row, hrow, hserved ▸ hle, fun hne => ?_⟩
    rw [hserved, hcompleted]
    exact hwork hne

/-- The entry takes off. -/
def takeOff (assetId : Uuid) (generation : ℤ) (entry other : RefreshEntryRow) : RefreshEntryRow :=
  if (other.isOf assetId generation && decide (other.ordinal = entry.ordinal) && other.isPending)
      = true then
    { other with state := .inFlight, notBefore := none }
  else other

theorem takeOff_self {entry : RefreshEntryRow} (hof : entry.isOf assetId generation = true)
    (hpending : entry.isPending = true) : takeOff assetId generation entry entry
      = { entry with state := .inFlight, notBefore := none } := by
  rw [takeOff, hof, hpending, decide_eq_true rfl]
  rfl

theorem takeOff_of_ne {entry other : RefreshEntryRow} (h : other.assetRecordId ≠ assetId) :
    takeOff assetId generation entry other = other := by
  rw [takeOff, RefreshEntryRow.isOf, decide_eq_false h]
  rfl

theorem key_takeOff (entry other : RefreshEntryRow) :
    (takeOff assetId generation entry other).key = other.key := by
  unfold takeOff
  split_ifs <;> rfl

/-- **One entry takes off** from where nothing is in flight. -/
theorem flyingIn_takeOff {entries : List RefreshEntryRow} {entry : RefreshEntryRow}
    (hkeys : (entries.map RefreshEntryRow.key).Nodup) (hmem : entry ∈ entries)
    (hof : entry.isOf assetId generation = true) (hpending : entry.isPending = true)
    (hempty : flyingIn entries assetId = []) :
    flyingIn (entries.map (takeOff assetId generation entry)) assetId
      = [{ entry with state := .inFlight, notBefore := none }] := by
  have hself := takeOff_self hof hpending
  have hasset : entry.assetRecordId = assetId := by
    rw [RefreshEntryRow.isOf, Bool.and_eq_true, decide_eq_true_eq] at hof
    exact hof.1
  refine flyingIn_eq_singleton ?_ fun other => ⟨fun hother => ?_, ?_⟩
  · have hsame : (entries.map (takeOff assetId generation entry)).map RefreshEntryRow.key
        = entries.map RefreshEntryRow.key := by
      rw [List.map_map]
      exact List.map_congr_left fun other _ => key_takeOff entry other
    rwa [hsame]
  · obtain ⟨hmem', hflight, hasset'⟩ := mem_flyingIn.mp hother
    obtain ⟨old, hold, rfl⟩ := List.mem_map.mp hmem'
    by_cases hcondition : (old.isOf assetId generation && decide (old.ordinal = entry.ordinal)
        && old.isPending) = true
    · -- the key is that of the entry
      rw [Bool.and_eq_true, Bool.and_eq_true, decide_eq_true_eq] at hcondition
      obtain ⟨⟨hof', hordinal⟩, -⟩ := hcondition
      have hkey : old.key = entry.key := by
        rw [RefreshEntryRow.isOf, Bool.and_eq_true, decide_eq_true_eq, decide_eq_true_eq]
          at hof hof'
        rw [RefreshEntryRow.key, RefreshEntryRow.key, hof'.1, hof'.2, hof.1, hof.2, hordinal]
      rw [List.inj_on_of_nodup_map hkeys hold hmem hkey]
      exact hself
    · rw [takeOff, if_neg hcondition] at hflight hasset'
      have hnone : old ∈ flyingIn entries assetId := mem_flyingIn.mpr ⟨hold, hflight, hasset'⟩
      rw [hempty] at hnone
      exact absurd hnone List.not_mem_nil
  · rintro rfl
    refine mem_flyingIn.mpr ⟨?_, rfl, hasset⟩
    rw [← hself]
    exact List.mem_map_of_mem hmem

/-- **A launch**, from where nothing of the asset is under way. -/
theorem launched (states : Uuid → Option RefreshStateRow) (hfiled : Filed s.recovery.docket)
    (hempty : s.sketch.Empty assetId)
    {supply : AdmissionSupply} {entry : RefreshEntryRow} (hwaits : Waits assetId generation s entry)
    {job : JobRow} (hadmits : Admits s.recovery.docket job (refreshRow assetId supply entry job.id))
    {n : ℕ} {lineage : ArticleKey → Option LineageRow}
    (hsound : Sound n { s.recovery with lineage := lineage })
    (hgenerations : ∀ other, (states other).map generations
      = (s.recovery.states other).map generations)
    (hchain : (states assetId).map (fun row => (row.activeChainId, row.servedGeneration))
      = some (some supply.chainId, generation))
    (hothers : ∀ other, other ≠ assetId → states other = s.recovery.states other) :
    Launched n assetId supply.chainId s
      { s with
        recovery :=
          { lineage := lineage
            states := states
            entries := s.recovery.entries.map (takeOff assetId generation entry)
            repairJobs := s.recovery.repairJobs ++ [refreshRow assetId supply entry job.id]
            jobs := s.recovery.jobs ++ [job] } } := by
  obtain ⟨hmem, hof, hpending⟩ := hwaits
  obtain ⟨hasset, hgeneration⟩ : entry.assetRecordId = assetId ∧ entry.generation = generation := by
    rw [RefreshEntryRow.isOf, Bool.and_eq_true, decide_eq_true_eq, decide_eq_true_eq] at hof
    exact hof
  have hrefreshes : (refreshRow assetId supply entry job.id).refreshes assetId = true := by
    rw [RepairJobRow.refreshes, Bool.and_eq_true, decide_eq_true_eq, decide_eq_true_eq]
    exact ⟨rfl, rfl⟩
  have hcarriers := carriers_entered hfiled hadmits
  refine ⟨?_, ⟨job, _, hadmits, rfl, rfl⟩,
    ⟨refreshRow assetId supply entry job.id, { entry with state := .inFlight, notBefore := none },
      ⟨?_, ?_, rfl, rfl, rfl, rfl⟩, ?_⟩, fun other hother => ⟨?_, ?_, ?_⟩⟩
  · have hentries := sound_entries hsound (f := takeOff assetId generation entry)
      (fun other _ => key_takeOff entry other) fun other _ hdone => ?_
    · have hstates := sound_states hentries hgenerations
      exact ⟨hstates.attempts, hstates.ordered, hstates.stated, hstates.keys⟩
    · -- what takes off was pending
      by_cases hcondition : (other.isOf assetId generation && decide (other.ordinal = entry.ordinal)
          && other.isPending) = true
      · rw [Bool.and_eq_true] at hcondition
        intro hstate
        rw [RefreshEntryRow.isPending, hstate] at hcondition
        exact Bool.false_ne_true hcondition.2
      · rwa [takeOff, if_neg hcondition] at hdone
  · rw [hgeneration]
    exact hchain
  · exact flyingIn_takeOff hsound.keys hmem hof hpending hempty.2
  · refine (hcarriers assetId).trans ?_
    rw [if_pos hrefreshes, show s.recovery.docket.carriers assetId = [] from hempty.1]
    rfl
  · exact congrArg (Option.map _) (hothers other hother)
  · refine (hcarriers other).trans ?_
    have hrow : ¬(refreshRow assetId supply entry job.id).refreshes other = true := by
      rw [RepairJobRow.refreshes, Bool.and_eq_true, decide_eq_true_eq, decide_eq_true_eq]
      exact fun h => hother (Option.some.inj h.2).symm
    rw [if_neg hrow]
    exact List.append_nil _
  · exact flyingIn_map_of_ne
      (fun old => congrArg Prod.fst (key_takeOff entry old)) fun old _ hold =>
        takeOff_of_ne (hold ▸ hother)

/-- **An admission** launches one entry, or leaves things as they are. -/
theorem admitRefreshEntry_spec (hpos : 0 < policy.maxAttempts) {supply : AdmissionSupply}
    {entry : RefreshEntryRow} {resume : Bool} (hsound : Sound policy.maxAttempts s.recovery)
    (hfiled : Filed s.recovery.docket) (hempty : s.sketch.Empty assetId)
    (houtline : s.outline assetId
      = some (if resume = true then none else some supply.chainId, generation))
    (hwaits : Waits assetId generation s entry) :
    Tx.Triple (· = s) (admitRefreshEntry policy clock assetId generation supply entry resume)
      (fun answer t => (answer = none ∧ Calm policy.maxAttempts s t) ∨
        (answer.isSome = true ∧ Launched policy.maxAttempts assetId supply.chainId s t))
      fun _ => True := by
  refine .bind (insertRefreshJob_spec s supply entry) fun answer => .each fun u hu => ?_
  rcases hu with ⟨rfl, rfl⟩ | ⟨job, rfl, hadmits, rfl⟩
  · exact .pure fun t ht => .inl ⟨rfl, ht ▸ refl_of (Calm policy.maxAttempts) _⟩
  refine .bind (reserveLineage_spec hpos _ entry.article) fun reserved => .each fun v hv => ?_
  obtain ⟨hcalm, lineage, rfl⟩ := hv
  have hsound' : Sound policy.maxAttempts { s.recovery with lineage := lineage } := by
    have h := hcalm.sound ⟨hsound.attempts, hsound.ordered, hsound.stated, hsound.keys⟩
    exact ⟨h.attempts, h.ordered, h.stated, h.keys⟩
  obtain ⟨hmem, hof, hpending⟩ := hwaits
  have hgrounded : ∀ other ∈ s.recovery.entries, other.isOf assetId generation = true →
      other.state ≠ .inFlight := by
    intro other hother hof' hflight
    rw [RefreshEntryRow.isOf, Bool.and_eq_true, decide_eq_true_eq] at hof'
    have hnone : other ∈ s.sketch.flyingOf assetId := mem_flyingIn.mpr ⟨hother, hflight, hof'.1⟩
    rw [hempty.2] at hnone
    exact List.not_mem_nil hnone
  dsimp only
  refine .ite (fun _ => ?_) fun _ => ?_
  · -- no attempt is left: the job is withdrawn
    refine .modify_bind (R := (Calm policy.maxAttempts s ·)) (.pure fun t ht => .inl ⟨rfl, ht⟩)
      fun t ht => ?_
    subst ht
    have hjobs : (s.recovery.jobs ++ [job]).filter (fun other => other.id ≠ job.id)
        = s.recovery.jobs := (withdraw_admitted hfiled hadmits.fresh hadmits.id).1
    have hrepairs : (s.recovery.repairJobs ++ [refreshRow assetId supply entry job.id]).filter
        (fun other => other.jobId ≠ job.id) = s.recovery.repairJobs :=
      (withdraw_admitted hfiled hadmits.fresh hadmits.id).2
    have hlineage : Calm policy.maxAttempts s
        (s.withRecovery fun t => { t with lineage := lineage }) := ⟨rfl, fun _ => hsound'⟩
    refine trans_of (Calm policy.maxAttempts) hlineage ?_
    simp only [RecoveryState.withRecovery, withJob, RecoveryTables.deleteJob, hjobs, hrepairs]
    refine calm_finish (s := s.withRecovery fun t => { t with lineage := lineage })
      fun other hother hcondition => ?_
    rw [Bool.and_eq_true, Bool.and_eq_true] at hcondition
    exact hgrounded other hother hcondition.1.1
  refine .read_bind fun w hw => ?_
  subst hw
  refine .ite (fun hnone => ?_) fun _ => ?_
  · -- the entry still waits
    refine absurd (List.any_eq_true.mpr ⟨entry, hmem, ?_⟩) (Bool.eq_false_iff.mp
      ((Bool.not_eq_true' _).mp hnone))
    rw [hof, hpending, decide_eq_true rfl]
    rfl
  · have hlaunched := fun states =>
      launched states hfiled hempty ⟨hmem, hof, hpending⟩ hadmits hsound'
    refine .modify_bind (R := (· = { s with
      recovery :=
        { lineage := lineage
          states := s.recovery.states
          entries := s.recovery.entries.map (takeOff assetId generation entry)
          repairJobs := s.recovery.repairJobs ++ [refreshRow assetId supply entry job.id]
          jobs := s.recovery.jobs ++ [job] } })) ?_ fun t ht => ht ▸ rfl
    rcases resume with _ | _
    · refine .pure fun t ht => .inr ⟨rfl, ht ▸ hlaunched _ (fun _ => rfl) ?_ fun _ _ => rfl⟩
      exact houtline
    · refine .modify_bind (R := Launched policy.maxAttempts assetId supply.chainId s)
        (.pure fun t ht => .inr ⟨rfl, ht⟩) fun t ht => ?_
      subst ht
      obtain ⟨row, hrow, hchain⟩ := Option.map_eq_some_iff.mp houtline
      obtain ⟨hchain, hserved⟩ : row.activeChainId = none ∧ row.servedGeneration = generation :=
        Prod.mk.inj hchain
      refine hlaunched _ (fun other => ?_) ?_ fun other hother => if_neg hother
      · by_cases hother : other = assetId
        · rw [if_pos hother, Option.map_map]
          refine congrArg (fun f => Option.map f _) (funext fun row => ?_)
          rw [Function.comp_apply]
          split_ifs <;> rfl
        · rw [if_neg hother]
      · rw [if_pos rfl, hrow, Option.map_some, Option.map_some, hchain, Option.all_none, if_pos rfl,
          hserved]

end RefreshLineage

end Werrss
