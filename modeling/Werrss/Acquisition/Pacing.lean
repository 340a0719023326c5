import Werrss.Machinery.Std

/-!
# Acquisition/Pacing — scroll plans

    max_pixels  ├──── d₁ ────┼── d₂ ──┼─ … ─┼──── remaining ────┤
                                             ├─ min ─┼─ … ─┼─ min ─┤   reserved for the later steps

A page is scrolled in a few steps whose distances are drawn at random.  **What remains always has
room for the steps to come**, at the minimum distance each: the reserved product stays below the
pixel limit, the subtraction below what remains, and no range drawn from is empty.
-/

open Machinery

namespace Werrss

/-! ## The policy -/

/-- `MAX_SCROLL_STEPS`. -/
def maxScrollStepsLimit : ℕ := 64

/-- `MAX_SCROLL_PIXELS`. -/
def maxScrollPixelsLimit : ℕ := 1000000

/-- `DelayKind`. -/
inductive DelayKind
  | request
  | pageNavigation
  | pageAction
  | scrollSettle
deriving DecidableEq, Repr

/-- The part of `PacingError` a policy is refused with. -/
inductive PacingError
  | invalidScrollLimits
  | scrollLimitTooLarge (field : String)
deriving DecidableEq, Repr

/-- `PacingPolicy`: the limits are the ones `PacingPolicy::new` accepts.  A page operation's time is
in nanoseconds. -/
structure PacingPolicy (DelayDistribution : Type) where
  request : DelayDistribution
  pageNavigation : DelayDistribution
  pageAction : DelayDistribution
  scrollSettle : DelayDistribution
  maxScrollSteps : ℕ
  maxScrollPixels : ℕ
  maxPageOperation : ℕ
  steps_pos : 0 < maxScrollSteps
  steps_le : maxScrollSteps ≤ maxScrollStepsLimit
  pixels_pos : 0 < maxScrollPixels
  pixels_le : maxScrollPixels ≤ maxScrollPixelsLimit
  operation_pos : 0 < maxPageOperation

namespace PacingPolicy

variable {DelayDistribution : Type}

/-- `PacingPolicy::new`. -/
def new (request pageNavigation pageAction scrollSettle : DelayDistribution)
    (maxScrollSteps maxScrollPixels maxPageOperation : ℕ) :
    Except PacingError (PacingPolicy DelayDistribution) :=
  if hzero : maxScrollSteps = 0 ∨ maxScrollPixels = 0 ∨ maxPageOperation = 0 then
    .error .invalidScrollLimits
  else if hsteps : maxScrollStepsLimit < maxScrollSteps then
    .error (.scrollLimitTooLarge "max_scroll_steps")
  else if hpixels : maxScrollPixelsLimit < maxScrollPixels then
    .error (.scrollLimitTooLarge "max_scroll_pixels")
  else .ok
    { request, pageNavigation, pageAction, scrollSettle, maxScrollSteps, maxScrollPixels,
      maxPageOperation
      steps_pos := by omega
      steps_le := by omega
      pixels_pos := by omega
      pixels_le := by omega
      operation_pos := by omega }

/-- `PacingPolicy::distribution`. -/
def distribution (policy : PacingPolicy DelayDistribution) : DelayKind → DelayDistribution
  | .request => policy.request
  | .pageNavigation => policy.pageNavigation
  | .pageAction => policy.pageAction
  | .scrollSettle => policy.scrollSettle

end PacingPolicy

/-! ## Checked arithmetic and draws -/

/-- How a plan could go wrong: a `u32` operation out of its range, or a draw from no range. -/
inductive PlanFault
  | overflow
  | underflow
  | emptyRange
deriving DecidableEq, Repr

/-- `-` on `u32`. -/
def subU32 (a b : ℕ) : Except PlanFault ℕ := if b ≤ a then .ok (a - b) else .error .underflow

/-- `*` on `u32`. -/
def mulU32 (a b : ℕ) : Except PlanFault ℕ :=
  if a * b < UInt32.size then .ok (a * b) else .error .overflow

/-- `+` on `u32`. -/
def addU32 (a b : ℕ) : Except PlanFault ℕ :=
  if a + b < UInt32.size then .ok (a + b) else .error .overflow

/-- A random generator: **a draw lies in the range asked for**.  A sampled delay is in
nanoseconds. -/
structure RandomSource (DelayDistribution S : Type) where
  range : S → ℕ → ℕ → ℕ × S
  range_mem : ∀ state low high, low ≤ high →
    low ≤ (range state low high).1 ∧ (range state low high).1 ≤ high
  sample : DelayDistribution → S → ℕ × S

variable {DelayDistribution S : Type}

/-- `random_range` of an inclusive range. -/
def RandomSource.randomRange (rng : RandomSource DelayDistribution S) (state : S) (low high : ℕ) :
    Except PlanFault (ℕ × S) :=
  if low ≤ high then .ok (rng.range state low high) else .error .emptyRange

theorem subU32_of_le {a b : ℕ} (h : b ≤ a) : subU32 a b = .ok (a - b) := by
  rw [subU32, if_pos h]

theorem mulU32_of_lt {a b : ℕ} (h : a * b < UInt32.size) : mulU32 a b = .ok (a * b) := by
  rw [mulU32, if_pos h]

theorem addU32_of_lt {a b : ℕ} (h : a + b < UInt32.size) : addU32 a b = .ok (a + b) := by
  rw [addU32, if_pos h]

/-- A draw from a range that is not empty comes, and lies in the range. -/
theorem RandomSource.randomRange_spec (rng : RandomSource DelayDistribution S) (state : S)
    {low high : ℕ} (h : low ≤ high) : ∃ draw next, rng.randomRange state low high = .ok (draw, next)
      ∧ low ≤ draw ∧ draw ≤ high :=
  ⟨(rng.range state low high).1, (rng.range state low high).2, if_pos h,
    rng.range_mem state low high h⟩

/-! ## The plan -/

/-- `ScrollStep`. -/
structure ScrollStep where
  distance : ℕ
  settle : ℕ
deriving DecidableEq, Repr

/-- The variables of the loop: the generator, what remains, and the steps so far. -/
structure ScrollProgress (S : Type) where
  rng : S
  remainingPixels : ℕ
  steps : List ScrollStep

/-- One turn of the loop. -/
def scrollStep (rng : RandomSource DelayDistribution S) (policy : PacingPolicy DelayDistribution)
    (viewportHeight minimumDistance stepCount : ℕ) (progress : ScrollProgress S) (index : ℕ) :
    Except PlanFault (ScrollProgress S) := do
  let later ← subU32 stepCount index
  let remainingSteps ← subU32 later 1
  let pixelsReservedForRemaining ← mulU32 remainingSteps minimumDistance
  -- `saturating_sub` on `u32` is subtraction on `ℕ`
  let maximumDistance :=
    max (min (progress.remainingPixels - pixelsReservedForRemaining) viewportHeight) minimumDistance
  let (distance, state) ← rng.randomRange progress.rng minimumDistance maximumDistance
  let remainingPixels ← subU32 progress.remainingPixels distance
  let (settle, state) := rng.sample (policy.distribution .scrollSettle) state
  pure ⟨state, remainingPixels, progress.steps ++ [⟨distance, settle⟩]⟩

/-- `minimum_distance`, from the viewport's height. -/
def minimumScroll (policy : PacingPolicy DelayDistribution) (viewportHeight : ℕ) : ℕ :=
  min (max (viewportHeight / 2) 1) policy.maxScrollPixels

/-- `maximum_steps`. -/
def maximumSteps (policy : PacingPolicy DelayDistribution) (minimumDistance : ℕ) : ℕ :=
  max (min policy.maxScrollSteps (policy.maxScrollPixels / minimumDistance)) 1

/-- `PacingController::scroll_plan`.  The total is summed for the log. -/
def scrollPlan (rng : RandomSource DelayDistribution S) (policy : PacingPolicy DelayDistribution)
    (viewportHeight : UInt32) (state : S) : Except PlanFault (List ScrollStep × S) := do
  let maxPixels := policy.maxScrollPixels
  let viewportHeight := max viewportHeight.toNat 1
  let minimumDistance := minimumScroll policy viewportHeight
  let maximumSteps := maximumSteps policy minimumDistance
  let (stepCount, state) ← rng.randomRange state 1 maximumSteps
  let progress ← (List.range stepCount).foldlM
    (scrollStep rng policy viewportHeight minimumDistance stepCount) ⟨state, maxPixels, []⟩
  let _totalPixels ← (progress.steps.map ScrollStep.distance).foldlM addU32 0
  pure (progress.steps, progress.rng)

/-! ## The loop's invariant -/

/-- **After some turns of the loop**: the distances so far and what remains make up the limit, and
what remains has room for the steps to come. -/
structure Planned (policy : PacingPolicy DelayDistribution) (viewportHeight minimumDistance
    stepCount index : ℕ) (progress : ScrollProgress S) : Prop where
  length : progress.steps.length = index
  total : (progress.steps.map ScrollStep.distance).sum + progress.remainingPixels
    = policy.maxScrollPixels
  room : (stepCount - index) * minimumDistance ≤ progress.remainingPixels
  bounds : ∀ step ∈ progress.steps,
    minimumDistance ≤ step.distance ∧ step.distance ≤ viewportHeight

variable {rng : RandomSource DelayDistribution S} {policy : PacingPolicy DelayDistribution}
  {viewportHeight minimumDistance stepCount index : ℕ} {progress : ScrollProgress S}

/-- The pixel limit is far below the range of `u32`. -/
theorem PacingPolicy.pixels_lt (policy : PacingPolicy DelayDistribution) :
    policy.maxScrollPixels < UInt32.size := by
  have hle := policy.pixels_le
  have hlimit : maxScrollPixelsLimit < UInt32.size := by decide
  omega

variable (rng) in
/-- **One turn goes through and keeps the invariant.** -/
theorem Planned.step (hmin : minimumDistance ≤ viewportHeight) (hindex : index < stepCount)
    (h : Planned policy viewportHeight minimumDistance stepCount index progress) :
    ∃ next, scrollStep rng policy viewportHeight minimumDistance stepCount progress index = .ok next
      ∧ Planned policy viewportHeight minimumDistance stepCount (index + 1) next := by
  have hroom := h.room
  have htotal := h.total
  have hlimit := policy.pixels_lt
  -- the step's own minimum, and the product reserved for the later ones
  obtain ⟨later, hlater⟩ : ∃ later, stepCount - index = later + 1 :=
    ⟨stepCount - index - 1, by omega⟩
  rw [hlater, Nat.succ_mul] at hroom
  obtain ⟨distance, state, hdraw, hlow, hhigh⟩ := rng.randomRange_spec progress.rng
    (le_max_right (min (progress.remainingPixels - later * minimumDistance) viewportHeight)
      minimumDistance)
  have hdistance : distance ≤ progress.remainingPixels - later * minimumDistance := by omega
  have hviewport : distance ≤ viewportHeight := by omega
  have hproduct : later * minimumDistance < UInt32.size := by omega
  refine ⟨⟨(rng.sample (policy.distribution .scrollSettle) state).2,
    progress.remainingPixels - distance,
    progress.steps ++ [⟨distance, (rng.sample (policy.distribution .scrollSettle) state).1⟩]⟩,
    ?_, ?_⟩
  · rw [scrollStep, subU32_of_le (Nat.le_of_lt hindex), ok_bind, hlater,
      subU32_of_le (by omega), ok_bind, Nat.add_sub_cancel, mulU32_of_lt hproduct, ok_bind]
    dsimp only
    rw [hdraw, ok_bind]
    dsimp only
    rw [subU32_of_le (by omega)]
    rfl
  · refine ⟨?_, ?_, ?_, fun step hstep => ?_⟩
    · rw [List.length_append, h.length, List.length_singleton]
    · rw [List.map_append, List.sum_append, List.map_singleton, List.sum_singleton]
      dsimp only
      omega
    · have hnext : stepCount - (index + 1) = later := by omega
      rw [hnext]
      dsimp only
      omega
    · rcases List.mem_append.mp hstep with hold | hnew
      · exact h.bounds step hold
      · rw [List.mem_singleton.mp hnew]
        exact ⟨hlow, hviewport⟩

variable (rng) in
/-- **The loop goes through, whatever is drawn.** -/
theorem planned_loop (hmin : minimumDistance ≤ viewportHeight)
    (hstart : Planned policy viewportHeight minimumDistance stepCount 0 progress) :
    ∀ turns ≤ stepCount, ∃ next, (List.range turns).foldlM
        (scrollStep rng policy viewportHeight minimumDistance stepCount) progress = .ok next
      ∧ Planned policy viewportHeight minimumDistance stepCount turns next
  | 0, _ => ⟨progress, rfl, hstart⟩
  | turns + 1, hle => by
    obtain ⟨before, hbefore, hplanned⟩ := planned_loop hmin hstart turns (by omega)
    obtain ⟨next, hnext, hkept⟩ := hplanned.step rng hmin hle
    refine ⟨next, ?_, hkept⟩
    rw [List.range_succ, List.foldlM_append, hbefore, ok_bind, List.foldlM_cons, hnext,
      ok_bind]
    rfl

/-- Summing distances within the limit does not overflow. -/
theorem foldlM_addU32 : ∀ (distances : List ℕ) (start : ℕ), start + distances.sum < UInt32.size →
    distances.foldlM addU32 start = .ok (start + distances.sum)
  | [], start, _ => by rw [List.sum_nil, Nat.add_zero]; rfl
  | distance :: distances, start, h => by
    rw [List.sum_cons] at h ⊢
    rw [List.foldlM_cons, addU32_of_lt (by omega), ok_bind, foldlM_addU32 distances _ (by omega),
      Nat.add_assoc]

/-! ## The limits -/

theorem minimumScroll_pos (policy : PacingPolicy DelayDistribution) (viewportHeight : ℕ) :
    0 < minimumScroll policy viewportHeight := by
  have hpixels := policy.pixels_pos
  rw [minimumScroll]
  omega

theorem minimumScroll_le (policy : PacingPolicy DelayDistribution) {viewportHeight : ℕ}
    (h : 0 < viewportHeight) : minimumScroll policy viewportHeight ≤ viewportHeight := by
  rw [minimumScroll]
  omega

/-- A number of steps drawn has room at the minimum distance. -/
theorem room_of_le_maximumSteps {stepCount minimumDistance : ℕ}
    (hmin : minimumDistance ≤ policy.maxScrollPixels)
    (h : stepCount ≤ maximumSteps policy minimumDistance) :
    stepCount * minimumDistance ≤ policy.maxScrollPixels := by
  rw [maximumSteps] at h
  rcases Nat.le_total stepCount 1 with hone | hmany
  · calc stepCount * minimumDistance ≤ 1 * minimumDistance := Nat.mul_le_mul_right _ hone
      _ ≤ policy.maxScrollPixels := by rwa [Nat.one_mul]
  · rcases Nat.eq_or_lt_of_le hmany with rfl | hlt
    · rwa [Nat.one_mul]
    · have hquotient : stepCount ≤ policy.maxScrollPixels / minimumDistance := by omega
      calc stepCount * minimumDistance
          ≤ policy.maxScrollPixels / minimumDistance * minimumDistance :=
            Nat.mul_le_mul_right _ hquotient
        _ ≤ policy.maxScrollPixels := Nat.div_mul_le_self _ _

theorem maximumSteps_le (policy : PacingPolicy DelayDistribution) (minimumDistance : ℕ) :
    maximumSteps policy minimumDistance ≤ policy.maxScrollSteps := by
  have hsteps := policy.steps_pos
  rw [maximumSteps]
  omega

/-- **A scroll plan keeps to both limits and never faults**, for every policy, viewport and
generator. -/
theorem scroll_plan_within_limits (rng : RandomSource DelayDistribution S)
    (policy : PacingPolicy DelayDistribution) (viewportHeight : UInt32) (state : S) :
    ∃ steps next, scrollPlan rng policy viewportHeight state = .ok (steps, next) ∧
      1 ≤ steps.length ∧ steps.length ≤ policy.maxScrollSteps ∧
      (∀ step ∈ steps,
        min (max (viewportHeight.toNat / 2) 1) policy.maxScrollPixels ≤ step.distance ∧
          step.distance ≤ max viewportHeight.toNat 1) ∧
      (steps.map ScrollStep.distance).sum ≤ policy.maxScrollPixels := by
  have hviewport : 0 < max viewportHeight.toNat 1 := by omega
  have hmin := minimumScroll_le policy hviewport
  have hpixels : minimumScroll policy (max viewportHeight.toNat 1) ≤ policy.maxScrollPixels :=
    Nat.min_le_right _ _
  have hone : 1 ≤ maximumSteps policy (minimumScroll policy (max viewportHeight.toNat 1)) :=
    Nat.le_max_right _ _
  obtain ⟨stepCount, drawn, hcount, hlow, hhigh⟩ := rng.randomRange_spec state hone
  have hstart : Planned policy (max viewportHeight.toNat 1)
      (minimumScroll policy (max viewportHeight.toNat 1)) stepCount 0
      ⟨drawn, policy.maxScrollPixels, []⟩ :=
    ⟨rfl, Nat.zero_add _, room_of_le_maximumSteps hpixels hhigh,
      fun step hstep => absurd hstep List.not_mem_nil⟩
  obtain ⟨progress, hloop, hplanned⟩ :=
    planned_loop rng hmin hstart stepCount (Nat.le_refl _)
  have htotal := hplanned.total
  have hlimit := policy.pixels_lt
  refine ⟨progress.steps, progress.rng, ?_, ?_, ?_, fun step hstep => ?_, by omega⟩
  · have hsum := foldlM_addU32 (progress.steps.map ScrollStep.distance) 0 (by omega)
    rw [scrollPlan]
    dsimp only
    rw [hcount, ok_bind]
    dsimp only
    rw [hloop, ok_bind, hsum]
    rfl
  · rw [hplanned.length]
    exact hlow
  · rw [hplanned.length]
    exact Nat.le_trans hhigh (maximumSteps_le policy _)
  · obtain ⟨hbelow, habove⟩ := hplanned.bounds step hstep
    refine ⟨?_, habove⟩
    rw [minimumScroll] at hbelow
    omega

end Werrss
