import Werrss.Machinery.Std

/-!
# Domain/Pacing — quiet hours

    ──── start ═══════ quiet ═══════ end ────        start < end
    ════ end ──────────────────── start ═════        end < start: across midnight

A window of local times of day, from its start up to, but not at, its end.  Work that meets the
window may go on when the local clock shows the end: today, or tomorrow when the window crosses
midnight and the evening is not yet over.
-/

open Machinery

namespace Werrss

/-- The nanoseconds of a day. -/
def dayNanoseconds : ℤ := 86400000000000

/-- `chrono::LocalResult`: the instants at which a local clock shows a time. -/
inductive LocalResult
  | none
  | single (instant : DateTime)
  | ambiguous (first second : DateTime)
deriving DecidableEq, Repr

/-- `Tz`: the offset of the local clock at an instant, and `from_local_datetime`.  Local times are
counted in nanoseconds as instants are. -/
structure TimeZone where
  offset : DateTime → Duration
  fromLocalDatetime : ℤ → LocalResult

/-- `with_timezone`, as the local clock shows it. -/
def TimeZone.toLocal (timezone : TimeZone) (instant : DateTime) : ℤ :=
  instant + timezone.offset instant

/-- `UTC`. -/
def TimeZone.utc : TimeZone := ⟨fun _ => 0, .single⟩

/-- The time of day of a local time. -/
def timeOfDay (clock : ℤ) : ℤ := clock % dayNanoseconds

/-- The day of a local time. -/
def dateOf (clock : ℤ) : ℤ := clock / dayNanoseconds

/-- `NaiveDate::succ_opt`. -/
def succDate (date : ℤ) : Option ℤ :=
  if (date + 1) * dayNanoseconds ≤ DateTime.maxUtc then some (date + 1) else none

/-- `QuietHours`: two different times of day in a time zone. -/
structure QuietHours where
  timezone : TimeZone
  start : ℤ
  «end» : ℤ
  start_isTime : 0 ≤ start ∧ start < dayNanoseconds
  end_isTime : 0 ≤ «end» ∧ «end» < dayNanoseconds
  start_ne_end : start ≠ «end»

namespace QuietHours

/-- A time of day inside the window. -/
def covers (self : QuietHours) (time : ℤ) : Bool :=
  if self.start < self.end then decide (self.start ≤ time) && decide (time < self.end)
  else decide (self.start ≤ time) || decide (time < self.end)

/-- `is_quiet_at`. -/
def isQuietAt (self : QuietHours) (instant : DateTime) : Bool :=
  self.covers (timeOfDay (self.timezone.toLocal instant))

/-- The day on which the window around a local time ends. -/
def endDate (self : QuietHours) (clock : ℤ) : Option ℤ :=
  if self.start < self.end ∨ timeOfDay clock < self.end then some (dateOf clock)
  else succDate (dateOf clock)

/-- `next_allowed_at`. -/
def nextAllowedAt (self : QuietHours) (instant : DateTime) : Option DateTime :=
  if self.isQuietAt instant then do
    let endDate ← self.endDate (self.timezone.toLocal instant)
    match self.timezone.fromLocalDatetime (endDate * dayNanoseconds + self.end) with
    | .single «end» => some «end»
    | .ambiguous first second => some (max first second)
    | .none => none
  else some instant

/-- The instant a handler resumes at: `next_allowed_at`, else a bounded retry, else at once. -/
def resumeAt (self : QuietHours) (retryAfter : Duration) (startedAt : DateTime) : DateTime :=
  ((self.nextAllowedAt startedAt).or (DateTime.checkedAddSigned startedAt retryAfter)).getD startedAt

/-- The check that handlers of upstream work make before anything else: during quiet hours the job is
deferred to the instant this returns. -/
def deferral (quietHours : Option QuietHours) (retryAfter : Duration) (startedAt : DateTime) :
    Option DateTime :=
  match quietHours with
  | none => none
  | some quietHours =>
    if quietHours.isQuietAt startedAt then some (quietHours.resumeAt retryAfter startedAt) else none

/-! ## The window under a steady clock -/

theorem end_of_covers {self : QuietHours} {clock : ℤ}
    (hcovers : self.covers (timeOfDay clock) = true) {date : ℤ}
    (hdate : self.endDate clock = some date) :
    clock < date * dayNanoseconds + self.end ∧
      date * dayNanoseconds + self.end ≤ clock + dayNanoseconds := by
  have hday : 0 < dayNanoseconds := by decide
  have hclock : dayNanoseconds * dateOf clock + timeOfDay clock = clock :=
    Int.mul_ediv_add_emod clock dayNanoseconds
  have hnonneg : 0 ≤ timeOfDay clock := Int.emod_nonneg _ (by decide)
  have hlt : timeOfDay clock < dayNanoseconds := Int.emod_lt_of_pos _ hday
  obtain ⟨hstart, -⟩ := self.start_isTime
  obtain ⟨hend, hendlt⟩ := self.end_isTime
  have hne := self.start_ne_end
  unfold endDate at hdate
  unfold covers at hcovers
  split_ifs at hdate hcovers with htoday hwindow hwindow
  · obtain rfl := Option.some.inj hdate
    simp only [Bool.and_eq_true, decide_eq_true_eq] at hcovers
    rw [Int.mul_comm]
    omega
  · obtain rfl := Option.some.inj hdate
    have htime := htoday.resolve_left hwindow
    rw [Int.mul_comm]
    omega
  · exact absurd (.inl hwindow) htoday
  · unfold succDate at hdate
    split_ifs at hdate
    obtain rfl := Option.some.inj hdate
    simp only [Bool.or_eq_true, decide_eq_true_eq] at hcovers
    rw [Int.add_mul, Int.one_mul, Int.mul_comm]
    omega

/-- **Where the local clock keeps its offset, quiet hours end later**, and within a day. -/
theorem lt_nextAllowedAt {self : QuietHours} {offset : Duration}
    (htimezone : self.timezone = ⟨fun _ => offset, fun clock => .single (clock - offset)⟩)
    {instant resumeAt : DateTime} (hquiet : self.isQuietAt instant = true)
    (hresume : self.nextAllowedAt instant = some resumeAt) :
    instant < resumeAt ∧ resumeAt ≤ instant + dayNanoseconds := by
  rw [nextAllowedAt, if_pos hquiet] at hresume
  obtain ⟨date, hdate, hresume⟩ := Option.bind_eq_some_iff.mp hresume
  have hwindow := end_of_covers hquiet hdate
  have hlocal : self.timezone.toLocal instant = instant + offset := by
    rw [TimeZone.toLocal, htimezone]
  rw [hlocal] at hwindow
  have hend : date * dayNanoseconds + self.end - offset = resumeAt := by
    rw [htimezone] at hresume
    exact Option.some.inj hresume
  have hbounds : ∀ i r : ℤ, i = instant → r = resumeAt → i < r ∧ r ≤ i + dayNanoseconds := by
    omega
  exact hbounds _ _ rfl rfl

end QuietHours

end Werrss
