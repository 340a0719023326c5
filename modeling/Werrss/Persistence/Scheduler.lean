import Mathlib.Data.List.Sort
import Werrss.Persistence.SourceRepository

/-!
# Persistence/Scheduler — reserving the sources that are due

A pass locks due sources in the order of priority, due instant and id, inserts a job for each, and
reserves those whose job went in.  Only `ready` sources are looked at.
-/

open Machinery

namespace Werrss

namespace Scheduler

/-- What the pass sees of the jobs and of the locks of others. -/
structure SchedulerView where
  hasActiveJob : Uuid → Bool
  isLocked : Uuid → Bool
  /-- the insertion of the job is not a conflict -/
  inserts : Uuid → Bool

/-- A source the pass may pick. -/
def isDue (view : SchedulerView) (now : DateTime) (row : SourceRow) : Bool :=
  row.enabled && decide (row.schedulingGate = .ready) && decide (row.nextFetchAt ≤ now)
    && row.failureCooldownUntil.all (fun cooldown => decide (cooldown ≤ now))
    && row.scheduleReservedUntil.all (fun reserved => decide (reserved ≤ now))
    && !view.hasActiveJob row.id && !view.isLocked row.id

/-- `ORDER BY priority DESC, next_fetch_at ASC, id ASC`. -/
def isBefore (a b : SourceRow) : Prop :=
  b.priority < a.priority ∨ (a.priority = b.priority ∧
    (a.nextFetchAt < b.nextFetchAt ∨ (a.nextFetchAt = b.nextFetchAt ∧ a.id.value ≤ b.id.value)))

instance : DecidableRel isBefore := fun a b =>
  inferInstanceAs (Decidable (b.priority < a.priority ∨ (a.priority = b.priority ∧
    (a.nextFetchAt < b.nextFetchAt ∨ (a.nextFetchAt = b.nextFetchAt ∧ a.id.value ≤ b.id.value)))))

/-- The sources of a pass. -/
def dueSources (view : SchedulerView) (now : DateTime) (limit : ℕ) (sources : List SourceRow) :
    List SourceRow :=
  ((sources.filter (isDue view now)).insertionSort isBefore).take limit

/-- The statements of `enqueue_due_sources` on the sources, outside quiet hours; the reservation is
in whole milliseconds. -/
def enqueueDueSources (view : SchedulerView) (now : DateTime) (limit : ℕ) (reservationFor : Duration)
    (sources : List SourceRow) : List SourceRow :=
  let picked := ((dueSources view now limit sources).filter fun row => view.inserts row.id).map (·.id)
  sources.map fun row =>
    if row.id ∈ picked then
      { row with
        scheduleReservedUntil := some (now + reservationFor.tdiv 1000000 * 1000000)
        updatedAt := now }
    else row

/-- A pass leaves the gates alone. -/
theorem gateOf_enqueueDueSources (view : SchedulerView) (now : DateTime) (limit : ℕ)
    (reservationFor : Duration) (sources : List SourceRow) (sourceId : Uuid) :
    gateOf (enqueueDueSources view now limit reservationFor sources) sourceId
      = gateOf sources sourceId := by
  unfold enqueueDueSources
  simp only
  rw [gateOf, findSource, Rows.get_map]
  · rw [Option.map_map, gateOf, findSource]
    congr 1
    funext row
    simp only [Function.comp_apply]
    split_ifs <;> rfl
  · intro row
    split_ifs <;> rfl

end Scheduler

end Werrss
