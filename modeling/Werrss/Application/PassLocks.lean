import Werrss.Application.SchedulingSystem

/-!
# Application/PassLocks — what a pass has locked stays as it was locked

    lock ── newest version, due ──▸ held ── others commit ──▸ held, the same version

Nobody else changes a row under the lock of a pass, so at the insertion of its job a source still is
the version that was looked at.
-/

open Machinery

namespace Werrss

namespace Scheduler

/-- **A version of a source that may be scheduled** at a clock sample, whatever its jobs. -/
structure Schedulable (now : DateTime) (row : SourceRow) : Prop where
  enabled : row.enabled = true
  ready : row.schedulingGate = .ready
  due : row.nextFetchAt ≤ now
  cooled : ∀ cooldown, row.failureCooldownUntil = some cooldown → cooldown ≤ now
  unreserved : ∀ reserved, row.scheduleReservedUntil = some reserved → reserved ≤ now

/-- The predicate of the `SELECT`, with the jobs of a snapshot. -/
theorem schedulable_of_isDueIn {jobs : List JobRow} {now : DateTime} {row : SourceRow}
    (h : SchedulingState.isDueIn jobs now row = true) : Schedulable now row := by
  simp only [SchedulingState.isDueIn, isDue, Bool.and_eq_true, decide_eq_true_eq,
    Option.all_eq_true] at h
  obtain ⟨⟨⟨⟨⟨⟨henabled, hready⟩, hdue⟩, hcooled⟩, hunreserved⟩, -⟩, -⟩ := h
  exact ⟨henabled, hready, hdue, hcooled, hunreserved⟩

/-! ## What a final transaction writes -/

section Finish

variable {Url : Type} [UrlCrate Url] [LawfulUrlCrate Url] {config : SourceSyncConfig}
  {sources sources' : List SourceRow}

open SourceRepository SourceSync

/-- **What a final transaction makes of the due instant**: a retryable failure takes that of the
retry, a gate leaves it, and every other run starts the next interval. -/
def SyncFinish.Reschedules (config : SourceSyncConfig) (finish : SyncFinish)
    (before after : DateTime) : Prop :=
  match finish.result with
  | .failure .retryableFailure _ => ∃ retryAt,
    DateTime.checkedAddSigned finish.run.finishedAt config.retryAfter = some retryAt ∧
      after = timestamptz retryAt
  | _ => after = timestamptz before ∨
    ∃ interval : Duration, 0 < interval ∧ after = timestamptz (finish.run.finishedAt + interval)

/-- The row of one source is edited, and no other. -/
def Edits (sourceId : Uuid) (f : SourceRow → SourceRow) (sources sources' : List SourceRow) :
    Prop :=
  ∀ other, findSource sources' other =
    if other = sourceId then (findSource sources other).map f else findSource sources other

theorem Edits.trans {sourceId : Uuid} {f g : SourceRow → SourceRow}
    {sources middle sources' : List SourceRow} (h : Edits sourceId f sources middle)
    (hnext : Edits sourceId g middle sources') : Edits sourceId (g ∘ f) sources sources' := by
  intro other
  rw [hnext other, h other]
  split_ifs
  · rw [Option.map_map]
  · rfl

theorem edits_stored (sourceId : Uuid) (sources : List SourceRow) :
    Edits sourceId stored sources (Rows.update SourceRow.id sources sourceId stored) :=
  Rows.get_update (f := stored) (fun _ => rfl) sources sourceId

/-- What an update returns is the row it leaves. -/
theorem written_updateSource {sourceId : Uuid} {assign : SourceRow → SourceRow}
    {written : SourceRow}
    (h : updateSource Url sources sourceId assign = some (sources', written)) :
    ∃ row, findSource sources sourceId = some row ∧ written = assign row := by
  unfold updateSource at h
  split_ifs at h
  split at h
  · cases h
  · rename_i row hrow
    split_ifs at h
    obtain ⟨-, rfl⟩ := Prod.mk.inj (Option.some.inj h)
    exact ⟨row, hrow, rfl⟩

theorem edits_bumpIfChanged {run : RunFinish} {changed : Bool} {expected : ℤ}
    (h : bumpIfChanged sources run changed expected = some sources') :
    ∃ f : SourceRow → SourceRow, Edits run.sourceId f sources sources' := by
  cases changed with
  | false =>
    obtain rfl := Option.some.inj h
    refine ⟨id, fun other => ?_⟩
    rw [Option.map_id_fun, id_eq, ite_self]
  | true =>
    replace h : bumpFeedRevision sources run.sourceId expected run.clock = some sources' := h
    unfold bumpFeedRevision at h
    split_ifs at h
    split at h
    · cases h
    · split_ifs at h
      obtain rfl := Option.some.inj h
      refine ⟨fun row =>
        { row with feedRevision := row.feedRevision + 1, updatedAt := run.clock }, ?_⟩
      refine Rows.get_update ?_ sources run.sourceId
      exact fun _ => rfl

/-- A row that is read for an update has a positive interval. -/
theorem interval_of_findForUpdate {sourceId : Uuid} {row : SourceRow}
    (h : findForUpdate Url sources sourceId = some row) :
    findSource sources sourceId = some row ∧ 0 < row.syncIntervalSeconds * 1000000000 := by
  unfold findForUpdate at h
  split_ifs at h
  obtain ⟨hfind, hdecodes⟩ := Option.filter_eq_some_iff.mp h
  simp only [decodes, Bool.and_eq_true, decide_eq_true_eq] at hdecodes
  have hpositive := hdecodes.1.1.1.2
  exact ⟨hfind, by omega⟩

theorem add_of_checkedAddSigned {t later : DateTime} {d : Duration}
    (h : DateTime.checkedAddSigned t d = some later) : later = t + d := by
  unfold DateTime.checkedAddSigned at h
  split_ifs at h
  exact (Option.some.inj h).symm

theorem edits_persistSuccess {run : RunFinish} {changed : Bool}
    (h : persistSuccess Url sources run changed = some sources') :
    ∃ row f, findSource sources run.sourceId = some row ∧ Edits run.sourceId f sources sources' ∧
      ∃ interval : Duration, 0 < interval ∧ (f row).nextFetchAt = run.finishedAt + interval := by
  obtain ⟨current, hcurrent, h⟩ := Option.bind_eq_some_iff.mp h
  obtain ⟨bumped, hbump, h⟩ := Option.bind_eq_some_iff.mp h
  obtain ⟨nextFetchAt, hnext, h⟩ := Option.bind_eq_some_iff.mp h
  obtain ⟨written, hschedule, h⟩ := Option.bind_eq_some_iff.mp h
  obtain ⟨hfind, hpositive⟩ := interval_of_findForUpdate hcurrent
  obtain ⟨f, hf⟩ := edits_bumpIfChanged hbump
  split_ifs at h
  obtain rfl := Option.some.inj h
  exact ⟨current, _, hfind, hf.trans (find_updateSource hschedule fun _ => rfl), _, hpositive,
    add_of_checkedAddSigned hnext⟩

theorem edits_gateSource {run : RunFinish} {gate : SchedulingGate}
    (h : gateSource Url sources run gate = some sources') :
    ∃ row f, findSource sources run.sourceId = some row ∧ Edits run.sourceId f sources sources' ∧
      (f row).nextFetchAt = row.nextFetchAt := by
  obtain ⟨gated, hgate, h⟩ := Option.bind_eq_some_iff.mp h
  obtain ⟨written, hschedule, h⟩ := Option.bind_eq_some_iff.mp h
  obtain rfl := Option.some.inj h
  obtain ⟨row, hrow, hwritten⟩ := written_updateSource hgate
  have hkept : gated.2.nextFetchAt = row.nextFetchAt := by rw [hwritten]
  exact ⟨row, _, hrow, Edits.trans (find_updateSource hgate fun _ => rfl)
    (find_updateSource hschedule fun _ => rfl), hkept⟩

/-- **The row of a finished run is rescheduled, and no other row is touched.** -/
theorem SyncFinish.writes {finish : SyncFinish}
    (h : finish.sources Url config sources = some sources') :
    (∀ sourceId, sourceId ≠ finish.run.sourceId →
      findSource sources' sourceId = findSource sources sourceId) ∧
    ∃ row row', findSource sources finish.run.sourceId = some row ∧
      findSource sources' finish.run.sourceId = some row' ∧
      finish.Reschedules config row.nextFetchAt row'.nextFetchAt := by
  obtain ⟨written, hwritten, rfl⟩ := Option.map_eq_some_iff.mp h
  suffices hedits : ∃ row f, findSource sources finish.run.sourceId = some row ∧
      Edits finish.run.sourceId f sources written ∧
      finish.Reschedules config row.nextFetchAt (timestamptz (f row).nextFetchAt) by
    obtain ⟨row, f, hrow, hf, hnext⟩ := hedits
    have hall := hf.trans (edits_stored finish.run.sourceId written)
    refine ⟨fun other hother => (hall other).trans (if_neg hother), row, stored (f row), hrow, ?_,
      hnext⟩
    rw [hall, if_pos rfl, hrow]
    rfl
  cases hresult : finish.result with
  | success changed =>
    simp only [hresult] at hwritten
    obtain ⟨row, f, hrow, hf, interval, hpositive, hnext⟩ := edits_persistSuccess hwritten
    refine ⟨row, f, hrow, hf, ?_⟩
    simp only [SyncFinish.Reschedules, hresult]
    exact .inr ⟨interval, hpositive, by rw [hnext]⟩
  | failure outcome error =>
    simp only [hresult, finishFailedRun] at hwritten
    split_ifs at hwritten
    have hgated : ∀ gate, gateSource Url sources finish.run gate = some written →
        (∀ before after, after = timestamptz before →
          finish.Reschedules config before after) →
        ∃ row f, findSource sources finish.run.sourceId = some row ∧
          Edits finish.run.sourceId f sources written ∧
          finish.Reschedules config row.nextFetchAt (timestamptz (f row).nextFetchAt) := by
      intro gate hgate hkept
      obtain ⟨row, f, hrow, hf, hnext⟩ := edits_gateSource hgate
      exact ⟨row, f, hrow, hf, hkept _ _ (by rw [hnext])⟩
    cases outcome with
    | authenticationRequired =>
      refine hgated _ hwritten fun before after hkept => ?_
      simp only [SyncFinish.Reschedules, hresult]
      exact .inl hkept
    | riskControlled =>
      refine hgated _ hwritten fun before after hkept => ?_
      simp only [SyncFinish.Reschedules, hresult]
      exact .inl hkept
    | blocked =>
      refine hgated _ hwritten fun before after hkept => ?_
      simp only [SyncFinish.Reschedules, hresult]
      exact .inl hkept
    | retryableFailure =>
      obtain ⟨retryAt, hretry, hwritten⟩ := Option.bind_eq_some_iff.mp hwritten
      obtain ⟨scheduled, hschedule, hwritten⟩ := Option.bind_eq_some_iff.mp hwritten
      obtain rfl := Option.some.inj hwritten
      obtain ⟨row, hrow, -⟩ := written_updateSource hschedule
      refine ⟨row, _, hrow, find_updateSource hschedule fun _ => rfl, ?_⟩
      simp only [SyncFinish.Reschedules, hresult]
      exact ⟨retryAt, hretry, rfl⟩
    | failed =>
      obtain ⟨current, hcurrent, hwritten⟩ := Option.bind_eq_some_iff.mp hwritten
      obtain ⟨nextFetchAt, hnext, hwritten⟩ := Option.bind_eq_some_iff.mp hwritten
      obtain ⟨scheduled, hschedule, hwritten⟩ := Option.bind_eq_some_iff.mp hwritten
      obtain rfl := Option.some.inj hwritten
      obtain ⟨hfind, hpositive⟩ := interval_of_findForUpdate hcurrent
      refine ⟨current, _, hfind, find_updateSource hschedule fun _ => rfl, ?_⟩
      simp only [SyncFinish.Reschedules, hresult]
      exact .inr ⟨_, hpositive, by rw [add_of_checkedAddSigned hnext]⟩
    | running => cases hwritten
    | succeeded => cases hwritten
    | deferred => cases hwritten

end Finish

namespace SchedulingState

variable {s s' : SchedulingState}

/-- The pass has locked this version, the newest one, and may schedule it. -/
structure HasLocked (s : SchedulingState) (id : ℕ) (now : DateTime) (row : SourceRow) : Prop where
  lock : s.locks row.id = some id
  newest : findSource s.sources row.id = some row
  schedulable : Schedulable now row

theorem HasLocked.congr {id : ℕ} {now : DateTime} {row : SourceRow} (h : s.HasLocked id now row)
    (hlocks : s'.locks = s.locks) (hsources : s'.sources = s.sources) :
    s'.HasLocked id now row := by
  refine ⟨?_, ?_, h.schedulable⟩
  · rw [hlocks]
    exact h.lock
  · rw [hsources]
    exact h.newest

/-- **The passes and what they have locked.** -/
structure PassInv (s : SchedulingState) : Prop where
  sampled : ∀ id pass, s.passes id = some pass → pass.now ≤ s.clock
  locked : ∀ id pass, s.passes id = some pass → ∀ row ∈ pass.locked, s.HasLocked id pass.now row
  pending : ∀ w ∈ s.pending, ∃ pass, s.passes w.pass = some pass ∧
    w.job = scheduledJob w.source pass.now w.job.id ∧ s.HasLocked w.pass pass.now w.source

theorem passInv_start (sources : List SourceRow) (clock : DateTime) :
    (start sources clock).PassInv where
  sampled _ _ h := nomatch h
  locked _ _ h := nomatch h
  pending _ h := nomatch h

/-- **The frame of the passes**: a change that leaves them, their locks and the locked rows. -/
theorem PassInv.frame (h : s.PassInv) (hpasses : s'.passes = s.passes) (hlocks : s'.locks = s.locks)
    (hpending : s'.pending = s.pending) (hclock : s.clock ≤ s'.clock)
    (hsources : ∀ sourceId, s.locks sourceId ≠ none →
      findSource s'.sources sourceId = findSource s.sources sourceId) : s'.PassInv := by
  have hkept : ∀ id now row, s.HasLocked id now row → s'.HasLocked id now row := by
    intro id now row hrow
    refine ⟨by rw [hlocks]; exact hrow.lock, ?_, hrow.schedulable⟩
    rw [hsources row.id (by rw [hrow.lock]; exact Option.some_ne_none id)]
    exact hrow.newest
  refine ⟨fun id pass hpass => ?_, fun id pass hpass row hrow => ?_, fun w hw => ?_⟩
  · rw [hpasses] at hpass
    exact Int.le_trans (h.sampled id pass hpass) hclock
  · rw [hpasses] at hpass
    exact hkept _ _ _ (h.locked id pass hpass row hrow)
  · rw [hpending] at hw
    obtain ⟨pass, hpass, hjob, hrow⟩ := h.pending w hw
    exact ⟨pass, by rw [hpasses]; exact hpass, hjob, hkept _ _ _ hrow⟩

/-! ## A pass moves on -/

/-- A pass keeps its clock sample, and what it has locked comes from what it had. -/
theorem PassInv.setPass (h : s.PassInv) {id : ℕ} {pass pass' : Pass}
    (hpass : s.passes id = some pass) (hnow : pass'.now = pass.now)
    (hlocked : ∀ row ∈ pass'.locked, s.HasLocked id pass.now row) :
    (s.setPass id pass').PassInv := by
  refine ⟨fun other p hp => ?_, fun other p hp row hrow => ?_, fun w hw => ?_⟩
  · by_cases hother : other = id
    · subst hother
      obtain rfl : pass' = p := by simpa [SchedulingState.setPass] using hp
      rw [hnow]
      exact h.sampled _ _ hpass
    · exact h.sampled other p (by simpa [SchedulingState.setPass, hother] using hp)
  · by_cases hother : other = id
    · subst hother
      obtain rfl : pass' = p := by simpa [SchedulingState.setPass] using hp
      rw [hnow]
      exact (hlocked row hrow).congr rfl rfl
    · have hp : s.passes other = some p := by simpa [SchedulingState.setPass, hother] using hp
      exact (h.locked other p hp row hrow).congr rfl rfl
  · obtain ⟨p, hp, hjob, hrow⟩ := h.pending w hw
    by_cases hother : w.pass = id
    · rw [hother, hpass] at hp
      obtain rfl := Option.some.inj hp
      refine ⟨pass', ?_, ?_, ?_⟩
      · rw [hother]
        exact Function.update_self ..
      · rw [hnow]
        exact hjob
      · rw [hnow]
        exact hrow.congr rfl rfl
    · exact ⟨p, (Function.update_of_ne hother _ _).trans hp, hjob, hrow.congr rfl rfl⟩

theorem PassInv.begin (h : s.PassInv) {id : ℕ} (hfree : s.passes id = none)
    (reservationFor : Duration) :
    (s.setPass id ⟨s.clock, reservationFor, .begun, []⟩).PassInv := by
  refine ⟨fun other p hp => ?_, fun other p hp row hrow => ?_, fun w hw => ?_⟩
  · by_cases hother : other = id
    · subst hother
      obtain rfl : _ = p := by simpa [SchedulingState.setPass] using hp
      exact Int.le_refl _
    · exact h.sampled other p (by simpa [SchedulingState.setPass, hother] using hp)
  · by_cases hother : other = id
    · subst hother
      obtain rfl : _ = p := by simpa [SchedulingState.setPass] using hp
      exact nomatch hrow
    · have hp : s.passes other = some p := by simpa [SchedulingState.setPass, hother] using hp
      exact (h.locked other p hp row hrow).congr rfl rfl
  · obtain ⟨p, hp, hjob, hrow⟩ := h.pending w hw
    have hother : w.pass ≠ id := fun heq => by rw [heq, hfree] at hp; exact nomatch hp
    exact ⟨p, (Function.update_of_ne hother _ _).trans hp, hjob, hrow.congr rfl rfl⟩

/-- A free lock is taken. -/
theorem PassInv.takeLock (h : s.PassInv) {sourceId : Uuid} (hfree : s.locks sourceId = none)
    (id : ℕ) : PassInv { s with locks := Function.update s.locks sourceId (some id) } := by
  have hkept : ∀ other now row, s.HasLocked other now row →
      HasLocked { s with locks := Function.update s.locks sourceId (some id) } other now row := by
    rintro other now row ⟨hlock, hnewest, hdue⟩
    have hne : row.id ≠ sourceId := fun heq => by rw [heq, hfree] at hlock; exact nomatch hlock
    exact ⟨(Function.update_of_ne hne _ _).trans hlock, hnewest, hdue⟩
  refine ⟨h.sampled, fun other p hp row hrow => ?_, fun w hw => ?_⟩
  · exact hkept _ _ _ (h.locked other p hp row hrow)
  · obtain ⟨p, hp, hjob, hrow⟩ := h.pending w hw
    exact ⟨p, hp, hjob, hkept _ _ _ hrow⟩

/-- **The next candidate is locked in its newest version**, or skipped. -/
theorem PassInv.lockNext (h : s.PassInv) {id : ℕ} {pass : Pass} (hpass : s.passes id = some pass)
    (jobs : List JobRow) (candidate : SourceRow) (rest : List SourceRow) (room : ℕ) :
    (s.lockNext id pass jobs candidate rest room).PassInv := by
  have hskipped : (s.setPass id
      { pass with phase := .locking jobs rest (room + 1) }).PassInv :=
    h.setPass hpass rfl (h.locked id pass hpass)
  unfold SchedulingState.lockNext
  simp only
  split_ifs with htaken
  · exact hskipped
  · have hfree : s.locks candidate.id = none := by simpa using htaken
    split
    · exact hskipped
    · rename_i current hcurrent
      split_ifs with hdue
      · have hid : current.id = candidate.id := Rows.key_of_get hcurrent
        have htake := h.takeLock hfree id
        refine @PassInv.setPass _ htake id pass { pass with
          phase := .locking jobs rest room, locked := pass.locked ++ [current] } hpass rfl ?_
        intro row hrow
        rcases List.mem_append.mp hrow with hrow | hrow
        · exact htake.locked id pass hpass row hrow
        · obtain rfl := List.mem_singleton.mp hrow
          refine ⟨?_, ?_, schedulable_of_isDueIn hdue⟩
          · rw [hid]
            exact Function.update_self ..
          · rw [hid]
            exact hcurrent
      · exact hskipped

/-! ## A pass ends -/

/-- The locks of the others stay. -/
theorem locks_endPass {id other : ℕ} (hother : other ≠ id) {sourceId : Uuid}
    (h : s.locks sourceId = some other) : (s.endPass id).locks sourceId = some other := by
  have hne : s.locks sourceId ≠ some id := by
    rw [h]
    exact fun heq => hother (Option.some.inj heq)
  exact (if_neg hne).trans h

theorem passes_endPass {id other : ℕ} {pass : Pass} (h : (s.endPass id).passes other = some pass) :
    other ≠ id ∧ s.passes other = some pass := by
  by_cases hother : other = id
  · rw [hother] at h
    exact nomatch (Function.update_self ..).symm.trans h
  · exact ⟨hother, (Function.update_of_ne hother _ _).symm.trans h⟩

/-- **The end of a pass, with what it may have written**: only to rows under its own lock. -/
theorem PassInv.endPass (h : s.PassInv) (id : ℕ) {sources : List SourceRow} {jobs : List JobRow}
    (hsources : ∀ sourceId other, other ≠ id → s.locks sourceId = some other →
      findSource sources sourceId = findSource s.sources sourceId) :
    PassInv { s.endPass id with sources := sources, jobs := jobs } := by
  have hkept : ∀ other now row, other ≠ id → s.HasLocked other now row →
      HasLocked { s.endPass id with sources := sources, jobs := jobs } other now row := by
    intro other now row hother hrow
    refine ⟨locks_endPass hother hrow.lock, ?_, hrow.schedulable⟩
    exact (hsources row.id other hother hrow.lock).trans hrow.newest
  refine ⟨fun other p hp => ?_, fun other p hp row hrow => ?_, fun w hw => ?_⟩
  · exact h.sampled other p (passes_endPass hp).2
  · obtain ⟨hother, hpass⟩ := passes_endPass hp
    exact hkept _ _ _ hother (h.locked other p hpass row hrow)
  · obtain ⟨hmem, hother⟩ := List.mem_filter.mp hw
    have hother : w.pass ≠ id := by simpa using hother
    obtain ⟨p, hp, hjob, hrow⟩ := h.pending w hmem
    exact ⟨p, (Function.update_of_ne hother _ _).trans hp, hjob, hkept _ _ _ hother hrow⟩

/-- What a pass has inserted is for sources it has locked. -/
theorem PassInv.lock_of_inserted (h : s.PassInv) {id : ℕ} {sourceId : Uuid}
    (hmem : sourceId ∈ (s.inserted id).map (·.source.id)) : s.locks sourceId = some id := by
  obtain ⟨w, hw, rfl⟩ := List.mem_map.mp hmem
  obtain ⟨hpending, hpass⟩ := List.mem_filter.mp hw
  have hpass : w.pass = id := by simpa using hpass
  obtain ⟨_, _, _, hrow⟩ := h.pending w hpending
  rw [← hpass]
  exact hrow.lock

/-- What a commit leaves of a source. -/
theorem findSource_commitPass (id : ℕ) (pass : Pass) (sourceId : Uuid) :
    findSource (s.commitPass id pass).sources sourceId =
      if sourceId ∈ (s.inserted id).map (·.source.id) then
        (findSource s.sources sourceId).map (reserve pass.now pass.reservationFor)
      else findSource s.sources sourceId := by
  have hmap := @Rows.get_map Uuid SourceRow _ SourceRow.id
    (fun row => if row.id ∈ (s.inserted id).map (·.source.id) then
      reserve pass.now pass.reservationFor row else row)
    (fun row => by split_ifs <;> rfl) s.sources sourceId
  refine hmap.trans ?_
  show (findSource s.sources sourceId).map _ = _
  cases hrow : findSource s.sources sourceId with
  | none => simp
  | some row =>
    have hid : row.id = sourceId := Rows.key_of_get hrow
    simp only [Option.map_some, hid]
    split_ifs <;> rfl

theorem PassInv.commitPass (h : s.PassInv) (id : ℕ) (pass : Pass) :
    (s.commitPass id pass).PassInv := by
  refine h.endPass id fun sourceId other hother hlock => ?_
  refine (findSource_commitPass id pass sourceId).trans (if_neg fun hmem => ?_)
  rw [h.lock_of_inserted hmem] at hlock
  exact hother (Option.some.inj hlock).symm

/-! ## An insertion -/

theorem PassInv.insertNext (h : s.PassInv) {id : ℕ} {pass : Pass} {source : SourceRow}
    {rest : List SourceRow} (hpass : s.passes id = some pass)
    (hlocked : pass.locked = source :: rest) (jobId : Uuid) :
    (s.insertNext id pass source rest jobId).PassInv := by
  have hall := h.locked id pass hpass
  rw [hlocked] at hall
  have hnext : (s.setPass id { pass with locked := rest }).PassInv :=
    h.setPass hpass rfl fun row hrow => hall row (List.mem_cons_of_mem _ hrow)
  have hend : (s.endPass id).PassInv := h.endPass id fun _ _ _ _ => rfl
  unfold SchedulingState.insertNext
  by_cases hlimit : 0 ≤ source.maxAttempts ∧ source.maxAttempts < UInt32.size
  · rw [if_neg (not_not_intro hlimit)]
    split_ifs
    · exact h
    · exact hnext
    · exact hend
    · refine ⟨hnext.sampled, fun other p hp row hrow => ?_, fun w hw => ?_⟩
      · exact (hnext.locked other p hp row hrow).congr rfl rfl
      rcases List.mem_append.mp hw with hw | hw
      · obtain ⟨p, hp, hjob, hrow⟩ := hnext.pending w hw
        exact ⟨p, hp, hjob, hrow.congr rfl rfl⟩
      · obtain rfl := List.mem_singleton.mp hw
        have hsource := hall source (List.mem_cons_self ..)
        exact ⟨{ pass with locked := rest }, Function.update_self .., rfl, hsource.congr rfl rfl⟩
  · rw [if_pos hlimit]
    exact hend

/-! ## The steps -/

variable {Url : Type} [UrlCrate Url] [LawfulUrlCrate Url]

theorem PassInv.finished (h : s.PassInv) {config : SourceSyncConfig} {finish : SyncFinish}
    (hfinished : SchedulingState.finished Url config s finish = some s') : s'.PassInv := by
  unfold SchedulingState.finished at hfinished
  split_ifs at hfinished with hmay
  obtain ⟨sources, hsources, rfl⟩ := Option.map_eq_some_iff.mp hfinished
  refine h.frame rfl rfl rfl (Int.le_refl _) fun sourceId hlocked => ?_
  refine (SyncFinish.writes hsources).1 sourceId fun heq => hlocked ?_
  rw [heq]
  exact Option.isNone_iff_eq_none.mp hmay.1

/-- **Every step keeps what the passes have locked.** -/
theorem PassInv.step (h : s.PassInv) (config : SourceSyncConfig) (action : SchedulingAction) :
    (SchedulingState.step Url config s action).PassInv := by
  have hrefl : s.clock ≤ s.clock := Int.le_refl _
  cases action with
  | tick elapsed =>
    refine h.frame rfl rfl rfl ?_ fun _ _ => rfl
    exact Int.le_add_of_nonneg_right (Int.mul_nonneg (Int.natCast_nonneg _) (by decide))
  | begin id reservationFor =>
    simp only [SchedulingState.step]
    split
    · rename_i hfree
      exact h.begin hfree reservationFor
    · exact h
  | select id limit =>
    simp only [SchedulingState.step]
    split
    · rename_i hpass
      have hlocked := h.locked id _ hpass
      exact h.setPass hpass rfl hlocked
    · exact h
  | lock id =>
    simp only [SchedulingState.step]
    split
    · rename_i pass hpass
      split
      · exact h.lockNext hpass _ _ _ _
      · exact h.setPass hpass rfl (h.locked id pass hpass)
      · exact h
    · exact h
  | insert id jobId =>
    simp only [SchedulingState.step]
    split
    · rename_i hpass
      exact h.insertNext hpass rfl jobId
    · exact h
  | commit id =>
    simp only [SchedulingState.step]
    split
    · exact h.commitPass id _
    · exact h
  | rollback id => exact h.endPass id fun _ _ _ _ => rfl
  | enqueue jobId sourceId =>
    simp only [SchedulingState.step]
    split
    · exact h
    · split_ifs
      · exact h
      · exact h.frame rfl rfl rfl hrefl fun _ _ => rfl
  | claim owner leaseFor allowedJobTypes draw =>
    simp only [SchedulingState.step]
    split_ifs
    · exact h
    · exact h.frame rfl rfl rfl hrefl fun _ _ => rfl
  | sample token =>
    simp only [SchedulingState.step]
    split_ifs
    · exact h.frame rfl rfl rfl hrefl fun _ _ => rfl
    · exact h
  | finish finish =>
    simp only [SchedulingState.step]
    cases hfinished : SchedulingState.finished Url config s finish with
    | none => exact h
    | some s' => exact h.finished hfinished

end SchedulingState

end Scheduler

end Werrss
