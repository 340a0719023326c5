import Werrss.Persistence.SourceRepository

/-!
# Application/SourceSync — what a finished synchronization writes to its source

    succeeded                  next fetch, no cooldown
    retryable                  next fetch, cooldown
    failed                     next fetch, no cooldown
    authentication required ─▸ gate authentication_required
    risk controlled, blocked ─▸ gate risk_controlled

The final transaction of a run gates its source by the outcome it observed, whatever the gate has
become in the meantime.
-/

open Machinery

namespace Werrss

/-- `SyncOutcome`. -/
inductive SyncOutcome
  | running | succeeded | deferred | authenticationRequired | riskControlled | blocked
  | retryableFailure | failed
deriving DecidableEq, Repr

/-- `SourceSyncJobHandlerConfig`. -/
structure SourceSyncConfig where
  retryAfter : Duration
  failureCooldown : Duration
deriving DecidableEq, Repr

/-- The final transaction of a run: its source, its instant, the clock of its statements, and
whether its statements on other tables (backfills, the run, the fenced job) succeed. -/
structure RunFinish where
  sourceId : Uuid
  finishedAt : DateTime
  clock : DateTime
  finishes : Bool
deriving DecidableEq, Repr

namespace SourceSync

open SourceRepository

variable (Url : Type) [UrlCrate Url] [LawfulUrlCrate Url]

/-- The gate is set and the schedule cleared. -/
def gateSource (sources : List SourceRow) (run : RunFinish) (gate : SchedulingGate) :
    Option (List SourceRow) := do
  let gated ← setSchedulingGate Url sources run.sourceId gate run.clock
  let written ← updateSchedule Url gated.1 run.sourceId gated.2.nextFetchAt none none run.clock
  return written.1

/-- The statements of `finish_failed_run` on the source. -/
def finishFailedSource (config : SourceSyncConfig) (sources : List SourceRow) (run : RunFinish) :
    SyncOutcome → Option (List SourceRow)
  | .authenticationRequired => gateSource Url sources run .authenticationRequired
  | .riskControlled => gateSource Url sources run .riskControlled
  | .blocked => gateSource Url sources run .riskControlled
  | .retryableFailure => do
    let retryAt ← DateTime.checkedAddSigned run.finishedAt config.retryAfter
    let written ← updateSchedule Url sources run.sourceId retryAt
      (DateTime.checkedAddSigned run.finishedAt config.failureCooldown) none run.clock
    return written.1
  | .failed => do
    let current ← findForUpdate Url sources run.sourceId
    let nextFetchAt ←
      DateTime.checkedAddSigned run.finishedAt (current.syncIntervalSeconds * 1000000000)
    let written ← updateSchedule Url sources run.sourceId nextFetchAt none none run.clock
    return written.1
  | .running | .succeeded | .deferred => none

/-- `finish_failed_run`: committed as a whole or not at all. -/
def finishFailedRun (config : SourceSyncConfig) (sources : List SourceRow) (run : RunFinish)
    (outcome : SyncOutcome) : Option (List SourceRow) :=
  if run.finishes then finishFailedSource Url config sources run outcome else none

/-- The revision advances when the articles changed the feed. -/
def bumpIfChanged (sources : List SourceRow) (run : RunFinish) (changed : Bool) (expected : ℤ) :
    Option (List SourceRow) :=
  if changed then bumpFeedRevision sources run.sourceId expected run.clock else some sources

/-- The statements of `persist_success` on the source. -/
def persistSuccess (sources : List SourceRow) (run : RunFinish) (changed : Bool) :
    Option (List SourceRow) := do
  let current ← findForUpdate Url sources run.sourceId
  let bumped ← bumpIfChanged sources run changed current.feedRevision
  let nextFetchAt ←
    DateTime.checkedAddSigned run.finishedAt (current.syncIntervalSeconds * 1000000000)
  let written ← updateSchedule Url bumped run.sourceId nextFetchAt none none run.clock
  if run.finishes then some written.1 else none

variable {Url}

/-! ## Gates -/

/-- What a gating run leaves. -/
theorem gateOf_gateSource {sources sources' : List SourceRow} {run : RunFinish}
    {gate : SchedulingGate} (h : gateSource Url sources run gate = some sources') (other : Uuid) :
    gateOf sources' other =
      if other = run.sourceId then (gateOf sources other).map fun _ => gate
      else gateOf sources other := by
  obtain ⟨gated, hgate, h⟩ := Option.bind_eq_some_iff.mp h
  obtain ⟨written, hschedule, h⟩ := Option.bind_eq_some_iff.mp h
  obtain rfl := Option.some.inj h
  rw [gateOf_updateSchedule hschedule, gateOf_setSchedulingGate hgate]

/-- A row that decodes does so under any gate and schedule. -/
theorem gateSource_isSome {sources : List SourceRow} {run : RunFinish} (gate : SchedulingGate)
    (h : (findForUpdate Url sources run.sourceId).isSome = true) :
    (gateSource Url sources run gate).isSome = true := by
  obtain ⟨row, hrow⟩ := Option.isSome_iff_exists.mp h
  unfold findForUpdate at hrow
  split_ifs at hrow with hnil
  obtain ⟨hfind, hdecodes⟩ := Option.filter_eq_some_iff.mp hrow
  have hgated : decodes Url { row with schedulingGate := gate, updatedAt := run.clock } = true :=
    hdecodes
  have hset : setSchedulingGate Url sources run.sourceId gate run.clock
      = some (Rows.update SourceRow.id sources run.sourceId (fun row =>
          { row with schedulingGate := gate, updatedAt := run.clock }),
        { row with schedulingGate := gate, updatedAt := run.clock }) := by
    simp only [setSchedulingGate, updateSource, if_neg hnil, hfind, hgated, if_true]
  have hagain := find_updateSource hset (fun _ => rfl) run.sourceId
  rw [if_pos rfl, hfind, Option.map_some] at hagain
  have hscheduled : decodes Url
      { row with
        schedulingGate := gate
        nextFetchAt := row.nextFetchAt
        failureCooldownUntil := none
        scheduleReservedUntil := none
        updatedAt := run.clock } = true := hdecodes
  simp only [gateSource, hset, updateSchedule, updateSource, if_neg hnil, hagain, hscheduled,
    if_true, Option.bind_eq_bind, Option.bind_some, Option.isSome_some, Option.pure_def]

/-- A gating run that commits found a row that decodes. -/
theorem findForUpdate_of_gateSource {sources sources' : List SourceRow} {run : RunFinish}
    {gate : SchedulingGate} (h : gateSource Url sources run gate = some sources') :
    ∃ row, findForUpdate Url sources run.sourceId = some row ∧
      findSource sources run.sourceId = some row := by
  obtain ⟨gated, hgate, -⟩ := Option.bind_eq_some_iff.mp h
  unfold setSchedulingGate updateSource at hgate
  split_ifs at hgate with hnil
  split at hgate
  · cases hgate
  · rename_i row hrow
    split_ifs at hgate with hdecodes
    refine ⟨row, ?_, hrow⟩
    rw [findForUpdate, if_neg hnil, hrow]
    exact Option.filter_eq_some_iff.mpr ⟨rfl, hdecodes⟩

/-- **The gate a failed run sets**, if its outcome sets one. -/
def outcomeGate : SyncOutcome → Option SchedulingGate
  | .authenticationRequired => some .authenticationRequired
  | .riskControlled | .blocked => some .riskControlled
  | _ => none

theorem outcomeGate_ne {outcome : SyncOutcome} (h : outcome ≠ .authenticationRequired) :
    outcomeGate outcome ≠ some .authenticationRequired := by
  cases outcome <;> first | exact absurd rfl h | decide

/-- **What a failed run leaves of the gates.** -/
theorem gateOf_finishFailedRun {config : SourceSyncConfig} {sources sources' : List SourceRow}
    {run : RunFinish} {outcome : SyncOutcome}
    (h : finishFailedRun Url config sources run outcome = some sources') (other : Uuid) :
    gateOf sources' other =
      if other = run.sourceId then
        (gateOf sources other).map fun gate => (outcomeGate outcome).getD gate
      else gateOf sources other := by
  unfold finishFailedRun at h
  split_ifs at h with hfinishes
  have hkeep : gateOf sources other = if other = run.sourceId then
      (gateOf sources other).map (fun gate => gate) else gateOf sources other := by
    simp
  cases outcome with
  | authenticationRequired => exact gateOf_gateSource h other
  | riskControlled => exact gateOf_gateSource h other
  | blocked => exact gateOf_gateSource h other
  | retryableFailure =>
    obtain ⟨retryAt, -, h⟩ := Option.bind_eq_some_iff.mp h
    obtain ⟨written, hschedule, h⟩ := Option.bind_eq_some_iff.mp h
    obtain rfl := Option.some.inj h
    rw [gateOf_updateSchedule hschedule]
    exact hkeep
  | failed =>
    obtain ⟨current, -, h⟩ := Option.bind_eq_some_iff.mp h
    obtain ⟨nextFetchAt, -, h⟩ := Option.bind_eq_some_iff.mp h
    obtain ⟨written, hschedule, h⟩ := Option.bind_eq_some_iff.mp h
    obtain rfl := Option.some.inj h
    rw [gateOf_updateSchedule hschedule]
    exact hkeep
  | running => cases h
  | succeeded => cases h
  | deferred => cases h

/-- A failed run leaves the account of every source. -/
theorem accountId_finishFailedRun {config : SourceSyncConfig} {sources sources' : List SourceRow}
    {run : RunFinish} {outcome : SyncOutcome}
    (h : finishFailedRun Url config sources run outcome = some sources') (other : Uuid) :
    (findSource sources' other).map (·.accountId) = (findSource sources other).map (·.accountId) := by
  unfold finishFailedRun at h
  split_ifs at h with hfinishes
  have hgated : ∀ gate, gateSource Url sources run gate = some sources' →
      (findSource sources' other).map (·.accountId)
        = (findSource sources other).map (·.accountId) := by
    intro gate h
    obtain ⟨gated, hgate, h⟩ := Option.bind_eq_some_iff.mp h
    obtain ⟨written, hschedule, h⟩ := Option.bind_eq_some_iff.mp h
    obtain rfl := Option.some.inj h
    exact (map_updateSource hschedule (fun _ => ⟨rfl, rfl⟩) other).trans
      (map_updateSource hgate (fun _ => ⟨rfl, rfl⟩) other)
  cases outcome with
  | authenticationRequired => exact hgated _ h
  | riskControlled => exact hgated _ h
  | blocked => exact hgated _ h
  | retryableFailure =>
    obtain ⟨retryAt, -, h⟩ := Option.bind_eq_some_iff.mp h
    obtain ⟨written, hschedule, h⟩ := Option.bind_eq_some_iff.mp h
    obtain rfl := Option.some.inj h
    exact map_updateSource hschedule (fun _ => ⟨rfl, rfl⟩) other
  | failed =>
    obtain ⟨current, -, h⟩ := Option.bind_eq_some_iff.mp h
    obtain ⟨nextFetchAt, -, h⟩ := Option.bind_eq_some_iff.mp h
    obtain ⟨written, hschedule, h⟩ := Option.bind_eq_some_iff.mp h
    obtain rfl := Option.some.inj h
    exact map_updateSource hschedule (fun _ => ⟨rfl, rfl⟩) other
  | running => cases h
  | succeeded => cases h
  | deferred => cases h

theorem gateOf_persistSuccess {sources sources' : List SourceRow} {run : RunFinish} {changed : Bool}
    (h : persistSuccess Url sources run changed = some sources') (other : Uuid) :
    gateOf sources' other = gateOf sources other := by
  obtain ⟨current, -, h⟩ := Option.bind_eq_some_iff.mp h
  obtain ⟨bumped, hbump, h⟩ := Option.bind_eq_some_iff.mp h
  obtain ⟨nextFetchAt, -, h⟩ := Option.bind_eq_some_iff.mp h
  obtain ⟨written, hschedule, h⟩ := Option.bind_eq_some_iff.mp h
  have hbumped : gateOf bumped other = gateOf sources other := by
    cases changed with
    | true => exact gateOf_bumpFeedRevision hbump other
    | false =>
      obtain rfl := Option.some.inj hbump
      rfl
  split_ifs at h with hfinishes
  obtain rfl := Option.some.inj h
  rw [gateOf_updateSchedule hschedule, hbumped]

end SourceSync

end Werrss
