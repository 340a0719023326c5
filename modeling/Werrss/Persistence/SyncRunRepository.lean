import Werrss.Application.SourceSync
import Werrss.Persistence.ArticleUpsert

/-!
# Persistence/SyncRunRepository — the audit record of a synchronization

    start ──▸ running ──finish──▸ succeeded ┊ deferred ┊ … ┊ failed

A run is started in a transaction of its own, before anything is fetched, and finished in the final
transaction of its handler — **once**: a finished run takes no second completion.  The counters of a
run decide nothing and are left out.
-/

open Machinery

namespace Werrss

/-- `SyncFailureClass`. -/
inductive SyncFailureClass
  | authenticationExpired | riskControlled | blocked | retryable | permanent
deriving DecidableEq, Repr

/-- `SyncFailure`. -/
structure SyncFailure where
  class' : SyncFailureClass
  message : String
deriving DecidableEq, Repr

/-- `SyncRun`. -/
structure SyncRun where
  id : Uuid
  sourceId : Uuid
  jobId : Option Uuid
  outcome : SyncOutcome
  failure : Option SyncFailure
  feedRevision : Option ℤ
  startedAt : DateTime
  finishedAt : Option DateTime
deriving DecidableEq, Repr

/-- `NewSyncRun`. -/
structure NewSyncRun where
  id : Uuid
  sourceId : Uuid
  jobId : Option Uuid
  startedAt : DateTime
deriving DecidableEq, Repr

/-- `SyncRunCompletion`. -/
structure SyncRunCompletion where
  outcome : SyncOutcome
  finishedAt : DateTime
  failure : Option SyncFailure
  feedRevision : Option ℤ
deriving DecidableEq, Repr

def SyncOutcome.isFinished : SyncOutcome → Bool
  | .running => false
  | _ => true

def SyncOutcome.requiresFailure : SyncOutcome → Bool
  | .authenticationRequired | .riskControlled | .blocked | .retryableFailure | .failed => true
  | .running | .succeeded | .deferred => false

/-- The failure classes an outcome admits. -/
def SyncOutcome.admits : SyncOutcome → SyncFailureClass → Bool
  | .authenticationRequired, .authenticationExpired => true
  | .riskControlled, .riskControlled => true
  | .blocked, .blocked => true
  | .retryableFailure, .retryable => true
  | .failed, .permanent | .failed, .retryable => true
  | _, _ => false

/-- `validate_outcome`, of a completion. -/
def SyncRunCompletion.isValid (completion : SyncRunCompletion) : Bool :=
  completion.outcome.isFinished
    && completion.outcome.requiresFailure == completion.failure.isSome
    && completion.failure.all fun failure => completion.outcome.admits failure.class'

namespace SyncRunRepository

/-- `SyncRun::start`. -/
def started (spec : NewSyncRun) : Option SyncRun :=
  if spec.id = .nil ∨ spec.sourceId = .nil ∨ spec.jobId = some .nil then none
  else some
    { id := spec.id
      sourceId := spec.sourceId
      jobId := spec.jobId
      outcome := .running
      failure := none
      feedRevision := none
      startedAt := timestamptz spec.startedAt
      finishedAt := none }

/-- `start`: repeating a start is no error, another run under its id is. -/
def start (runs : List SyncRun) (spec : NewSyncRun) : Option (List SyncRun) :=
  match started spec with
  | none => none
  | some run =>
    match Rows.get SyncRun.id runs spec.id with
    | none => some (runs ++ [run])
    | some existing =>
      if existing.startedAt = run.startedAt ∧ existing.sourceId = run.sourceId
          ∧ existing.jobId = run.jobId then
        some runs
      else none

/-- `SyncRun::finish` and the columns it is stored in. -/
def finished (run : SyncRun) (completion : SyncRunCompletion) : Option SyncRun :=
  if run.outcome.isFinished = true ∨ completion.isValid = false
      ∨ completion.finishedAt < run.startedAt then
    none
  else some
    { run with
      outcome := completion.outcome
      failure := completion.failure
      feedRevision := completion.feedRevision
      finishedAt := some (timestamptz completion.finishedAt) }

/-- `finish`. -/
def finish (runs : List SyncRun) (runId : Uuid) (completion : SyncRunCompletion) :
    Option (List SyncRun) :=
  if runId = .nil then none
  else do
    let run ← Rows.get SyncRun.id runs runId
    let run ← finished run completion
    return Rows.update SyncRun.id runs runId fun _ => run

/-- **A finished run is finished for good.** -/
theorem finish_of_isFinished {runs : List SyncRun} {runId : Uuid} {run : SyncRun}
    (hrun : Rows.get SyncRun.id runs runId = some run) (hfinished : run.outcome.isFinished = true)
    (completion : SyncRunCompletion) : finish runs runId completion = none := by
  have hrefused : finished run completion = none := if_pos (.inl hfinished)
  unfold finish
  split_ifs
  · rfl
  · rw [hrun, Option.bind_eq_bind, Option.bind_some, hrefused]
    rfl

theorem isFinished_of_finished {run run' : SyncRun} {completion : SyncRunCompletion}
    (h : finished run completion = some run') :
    run'.id = run.id ∧ run'.outcome.isFinished = true := by
  unfold finished at h
  split_ifs at h with hrefused
  obtain rfl := Option.some.inj h
  obtain ⟨-, hvalid, -⟩ : _ ∧ _ ∧ _ := by simpa only [not_or] using hrefused
  simp only [SyncRunCompletion.isValid, Bool.not_eq_false, Bool.and_eq_true] at hvalid
  exact ⟨rfl, hvalid.1.1⟩

/-- **A run is finished once**: what `finish` leaves admits no second completion. -/
theorem finish_finish {runs runs' : List SyncRun} {runId : Uuid} {first : SyncRunCompletion}
    (h : finish runs runId first = some runs') (second : SyncRunCompletion) :
    finish runs' runId second = none := by
  unfold finish at h
  split_ifs at h with hnil
  obtain ⟨run, hrun, h⟩ := Option.bind_eq_some_iff.mp h
  obtain ⟨run', hfinished, h⟩ := Option.bind_eq_some_iff.mp h
  obtain rfl := Option.some.inj h
  obtain ⟨hid, hdone⟩ := isFinished_of_finished hfinished
  have hkey : run'.id = runId := hid.trans (Rows.key_of_get hrun)
  suffices hget : Rows.get SyncRun.id (Rows.update SyncRun.id runs runId fun _ => run') runId
      = some run' from finish_of_isFinished hget hdone second
  rw [Rows.get, Rows.update, List.find?_map]
  obtain ⟨row, hrow⟩ := Option.isSome_iff_exists.mp (Option.isSome_of_eq_some hrun)
  have hpred : ((fun row : SyncRun => decide (row.id = runId)) ∘
      fun row => if row.id = runId then run' else row) = fun row => decide (row.id = runId) := by
    funext row
    by_cases hrow : row.id = runId
    · simp [hrow, hkey]
    · simp [hrow]
  rw [hpred]
  change (Rows.get SyncRun.id runs runId).map _ = _
  rw [hrun, Option.map_some, if_pos (Rows.key_of_get hrun)]

end SyncRunRepository

end Werrss
