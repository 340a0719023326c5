import Werrss.Domain.Pacing

/-!
# Domain/QuietEnd — where quiet hours end under a clock that is changed

    instant    ─────────●───────────────●────────▸
    clock     L = quiet │   set back or │ E = end of the window
                        └── forward ────┘

A local clock may be set back and forward any number of times; looking up a local time gives the
instants that show it.  The end of the window is later on the clock, but an instant that shows it
may be long gone: **it comes again unless the clock skips what it took back**.
-/

open Machinery

namespace Werrss

namespace TimeZone

/-- **A lookup gives the instants that show a local time**: none, one or two. -/
def Lawful (timezone : TimeZone) : Prop :=
  ∀ clock, match timezone.fromLocalDatetime clock with
    | .none => ∀ t, timezone.toLocal t ≠ clock
    | .single instant => ∀ t, timezone.toLocal t = clock ↔ t = instant
    | .ambiguous first second =>
        first ≠ second ∧ ∀ t, timezone.toLocal t = clock ↔ t = first ∨ t = second

/-- **A clock that was set back shows again what it has shown**: it is not set forward over it. -/
def Repeats (timezone : TimeZone) : Prop :=
  ∀ t i : DateTime, t < i → timezone.toLocal i < timezone.toLocal t →
    ∃ u : DateTime, i < u ∧ timezone.toLocal u = timezone.toLocal t

end TimeZone

namespace QuietHours

variable {self : QuietHours}

/-- The end of a window is not in it. -/
theorem covers_end (self : QuietHours) (date : ℤ) :
    self.covers (timeOfDay (date * dayNanoseconds + self.end)) = false := by
  obtain ⟨hstart, -⟩ := self.start_isTime
  obtain ⟨hend, hendlt⟩ := self.end_isTime
  have hne := self.start_ne_end
  have htime : timeOfDay (date * dayNanoseconds + self.end) = self.end := by
    rw [timeOfDay, Int.add_comm, Int.add_mul_emod_self_right]
    exact Int.emod_eq_of_lt hend hendlt
  rw [htime, covers]
  split_ifs with hwindow
  · simp
  · have hlt : self.end < self.start := by omega
    simp [hlt]

/-- **The clock stays in the window until its end.** -/
theorem covers_until_end {clock later : ℤ} (hcovers : self.covers (timeOfDay clock) = true)
    {date : ℤ} (hdate : self.endDate clock = some date) (hle : clock ≤ later)
    (hlt : later < date * dayNanoseconds + self.end) :
    self.covers (timeOfDay later) = true := by
  have hne := self.start_ne_end
  have hclock : dayNanoseconds * dateOf clock + timeOfDay clock = clock :=
    Int.mul_ediv_add_emod clock dayNanoseconds
  have hlater : dayNanoseconds * dateOf later + timeOfDay later = later :=
    Int.mul_ediv_add_emod later dayNanoseconds
  -- The clock is still on its day, or on the next one where the window crosses midnight.
  have hdays : dateOf clock ≤ dateOf later := Int.ediv_le_ediv (by decide) hle
  have hnonneg : 0 ≤ timeOfDay later := Int.emod_nonneg _ (by decide)
  have hday : timeOfDay clock < dayNanoseconds := Int.emod_lt_of_pos _ (by decide)
  obtain ⟨hend, hendlt⟩ := self.end_isTime
  simp only [dayNanoseconds] at hclock hlater hlt hday hendlt
  unfold endDate at hdate
  unfold covers at hcovers ⊢
  split_ifs at hdate with htoday
  · obtain rfl := Option.some.inj hdate
    have hsame : dateOf later = dateOf clock := by omega
    split_ifs at hcovers ⊢ with hwindow
    · simp only [Bool.and_eq_true, decide_eq_true_eq] at hcovers ⊢
      omega
    · have htime := htoday.resolve_left hwindow
      simp only [Bool.or_eq_true, decide_eq_true_eq]
      omega
  · unfold succDate at hdate
    split_ifs at hdate
    obtain rfl := Option.some.inj hdate
    rw [not_or] at htoday
    rw [if_neg htoday.1] at hcovers ⊢
    simp only [Bool.or_eq_true, decide_eq_true_eq] at hcovers ⊢
    rcases Int.lt_or_le (dateOf clock) (dateOf later) with hnext | hsame
    · omega
    · omega

/-- What a lookup that answers says of the instant. -/
theorem toLocal_of_nextAllowedAt (hlawful : self.timezone.Lawful) {instant t : DateTime}
    (hquiet : self.isQuietAt instant = true) (h : self.nextAllowedAt instant = some t) :
    ∃ date, self.endDate (self.timezone.toLocal instant) = some date ∧
      self.timezone.toLocal t = date * dayNanoseconds + self.end ∧
      ∀ u, self.timezone.toLocal u = date * dayNanoseconds + self.end → u ≤ t := by
  rw [nextAllowedAt, if_pos hquiet] at h
  obtain ⟨date, hdate, h⟩ := Option.bind_eq_some_iff.mp h
  refine ⟨date, hdate, ?_⟩
  have hlookup := hlawful (date * dayNanoseconds + self.end)
  split at h
  · rename_i found hfound
    rw [hfound] at hlookup
    obtain rfl := Option.some.inj h
    exact ⟨(hlookup found).mpr rfl, fun u hu => Int.le_of_eq ((hlookup u).mp hu)⟩
  · rename_i first second hfound
    rw [hfound] at hlookup
    obtain rfl := Option.some.inj h
    obtain ⟨-, hboth⟩ := hlookup
    refine ⟨?_, fun u hu => ?_⟩
    · rcases Int.le_total first second with hle | hle
      · exact (hboth _).mpr (.inr (Int.max_eq_right hle))
      · exact (hboth _).mpr (.inl (Int.max_eq_left hle))
    · rcases (hboth u).mp hu with rfl | rfl
      · exact Int.le_max_left _ _
      · exact Int.le_max_right _ _
  · cases h

/-- **A window ends later**, under a clock that repeats what it takes back. -/
theorem lt_nextAllowedAt_of_repeats (hlawful : self.timezone.Lawful)
    (hrepeats : self.timezone.Repeats) {instant t : DateTime}
    (hquiet : self.isQuietAt instant = true) (h : self.nextAllowedAt instant = some t) :
    instant < t := by
  obtain ⟨date, hdate, hlocal, hlatest⟩ := toLocal_of_nextAllowedAt hlawful hquiet h
  obtain ⟨hlater, -⟩ := end_of_covers hquiet hdate
  rw [← hlocal] at hlater
  rcases Int.lt_trichotomy instant t with hlt | rfl | hgt
  · exact hlt
  · exact absurd hlater (Int.lt_irrefl _)
  · obtain ⟨u, hu, hsame⟩ := hrepeats t instant hgt hlater
    exact absurd (hlatest u (hsame.trans hlocal)) (Int.not_le.mpr (Int.lt_trans hgt hu))

/-- **Quiet hours end correctly**: work resumes at an instant that is not quiet, at the first such
instant where the clock is not changed in between, and later than a quiet instant under every clock
that repeats what it takes back; there is no such instant only where the end is never shown. -/
theorem quiet_hours_end (self : QuietHours) (hlawful : self.timezone.Lawful) (instant : DateTime) :
    (∀ t, self.nextAllowedAt instant = some t →
      (self.timezone.Repeats →
        instant ≤ t ∧ (self.isQuietAt instant = true → instant < t)) ∧
      self.isQuietAt t = false ∧
      ((∀ u, instant ≤ u → u ≤ t → self.timezone.offset u = self.timezone.offset instant) →
        ∀ u, instant ≤ u → u < t → self.isQuietAt u = true)) ∧
    (self.nextAllowedAt instant = none → self.isQuietAt instant = true ∧
      ∀ date, self.endDate (self.timezone.toLocal instant) = some date →
        ∀ u, self.timezone.toLocal u ≠ date * dayNanoseconds + self.end) := by
  refine ⟨fun t h => ?_, fun h => ?_⟩
  · by_cases hquiet : self.isQuietAt instant = true
    · obtain ⟨date, hdate, hlocal, -⟩ := toLocal_of_nextAllowedAt hlawful hquiet h
      refine ⟨fun hrepeats => ?_, ?_, fun hsteady u hle hbefore => ?_⟩
      · have hlt := lt_nextAllowedAt_of_repeats hlawful hrepeats hquiet h
        exact ⟨Int.le_of_lt hlt, fun _ => hlt⟩
      · rw [isQuietAt, hlocal]
        exact covers_end self date
      · have hlt : instant < t := Int.lt_of_le_of_lt hle hbefore
        rw [TimeZone.toLocal, hsteady t (Int.le_of_lt hlt) (Int.le_refl t)] at hlocal
        rw [isQuietAt, TimeZone.toLocal, hsteady u hle (Int.le_of_lt hbefore)]
        refine covers_until_end hquiet hdate (Int.add_le_add_right hle _) ?_
        rw [← hlocal]
        exact Int.add_lt_add_right hbefore _
    · rw [nextAllowedAt, if_neg hquiet] at h
      obtain rfl := Option.some.inj h
      exact ⟨fun _ => ⟨Int.le_refl instant, fun hq => absurd hq hquiet⟩, by simpa using hquiet,
        fun _ u hle hlt => absurd (Int.lt_of_le_of_lt hle hlt) (Int.lt_irrefl _)⟩
  · by_cases hquiet : self.isQuietAt instant = true
    · refine ⟨hquiet, fun date hdate u hu => ?_⟩
      rw [nextAllowedAt, if_pos hquiet, hdate, Option.bind_eq_bind, Option.bind_some] at h
      have hlookup := hlawful (date * dayNanoseconds + self.end)
      split at h
      · cases h
      · cases h
      · rename_i hnone
        rw [hnone] at hlookup
        exact hlookup u hu
    · rw [nextAllowedAt, if_neg hquiet] at h
      cases h

/-! ## Clocks that are changed -/

/-- The nanoseconds of an hour. -/
def hour : ℤ := 3600000000000

/-- Summer time ends: the clock is set back by an hour at the epoch. -/
def setBack : TimeZone where
  offset instant := if (instant : ℤ) < 0 then hour else 0
  fromLocalDatetime clock :=
    if clock < 0 then .single (clock - hour)
    else if clock < hour then .ambiguous (clock - hour) clock
    else .single clock

private theorem toLocal_setBack (t : ℤ) :
    setBack.toLocal t = if t < 0 then t + hour else t := by
  show t + (if t < 0 then hour else 0) = _
  split_ifs <;> omega

private theorem lawful_setBack : setBack.Lawful := by
  intro clock
  have hshows := toLocal_setBack
  rcases Int.lt_or_le clock 0 with hbefore | hle
  · have hlookup : setBack.fromLocalDatetime clock = .single (clock - hour) := if_pos hbefore
    rw [hlookup]
    intro (t : ℤ)
    rw [hshows t]
    show _ ↔ (t : ℤ) = clock - hour
    unfold hour
    split_ifs <;> omega
  · have hlookup : setBack.fromLocalDatetime clock =
        if clock < hour then .ambiguous (clock - hour) clock else .single clock :=
      if_neg (Int.not_lt.mpr hle)
    rcases Int.lt_or_le clock hour with htwice | hafter
    · rw [hlookup, if_pos htwice]
      refine ⟨Int.ne_of_lt (Int.sub_lt_self clock (by decide)), fun (t : ℤ) => ?_⟩
      rw [hshows t]
      show _ ↔ (t : ℤ) = clock - hour ∨ (t : ℤ) = clock
      unfold hour at htwice ⊢
      split_ifs <;> omega
    · rw [hlookup, if_neg (Int.not_lt.mpr hafter)]
      intro (t : ℤ)
      rw [hshows t]
      show _ ↔ (t : ℤ) = clock
      unfold hour at hafter ⊢
      split_ifs <;> omega

private theorem repeats_setBack : setBack.Repeats := by
  intro (t : ℤ) (i : ℤ) hlt hback
  have hti : (t : ℤ) < i := hlt
  rw [toLocal_setBack t, toLocal_setBack i] at hback
  refine ⟨(t + hour : ℤ), ?_⟩
  show (i : ℤ) < t + hour ∧ setBack.toLocal (t + hour : ℤ) = setBack.toLocal t
  rw [toLocal_setBack, toLocal_setBack]
  unfold hour at hback ⊢
  split_ifs at hback ⊢ <;> omega

/-- From half past midnight to two. -/
def nights : QuietHours where
  timezone := setBack
  start := hour / 2
  «end» := 2 * hour
  start_isTime := by decide
  end_isTime := by decide
  start_ne_end := by decide

/-- Half past midnight is shown twice, two o'clock once. -/
theorem quiet_hours_end_setBack :
    nights.nextAllowedAt (-hour / 2 : ℤ) = some (2 * hour : ℤ) ∧
    ((-hour / 2 : ℤ) : DateTime) < (2 * hour : ℤ) ∧ nights.isQuietAt (2 * hour : ℤ) = false := by
  have hend := quiet_hours_end nights lawful_setBack (-hour / 2 : ℤ)
  have hnext : nights.nextAllowedAt (-hour / 2 : ℤ) = some (2 * hour : ℤ) := by decide
  obtain ⟨hlater, hquiet, -⟩ := hend.1 _ hnext
  exact ⟨hnext, (hlater repeats_setBack).2 (by decide), hquiet⟩

/-- Set back by three hours at noon, and forward again two hours later: the end of the morning that
was taken back is skipped. -/
def skipping : TimeZone where
  offset instant := if 12 * hour ≤ (instant : ℤ) ∧ (instant : ℤ) < 14 * hour then -3 * hour else 0
  fromLocalDatetime clock :=
    if 9 * hour ≤ clock ∧ clock < 11 * hour then .ambiguous clock (clock + 3 * hour)
    else if 12 * hour ≤ clock ∧ clock < 14 * hour then .none
    else .single clock

private theorem toLocal_skipping (t : ℤ) :
    skipping.toLocal t = if 12 * hour ≤ t ∧ t < 14 * hour then t - 3 * hour else t := by
  show t + (if 12 * hour ≤ t ∧ t < 14 * hour then -3 * hour else 0) = _
  split_ifs <;> omega

private theorem lawful_skipping : skipping.Lawful := by
  intro clock
  have hshows := toLocal_skipping
  by_cases htwice : 9 * hour ≤ clock ∧ clock < 11 * hour
  · have hlookup : skipping.fromLocalDatetime clock = .ambiguous clock (clock + 3 * hour) :=
      if_pos htwice
    rw [hlookup]
    refine ⟨Int.ne_of_lt (Int.lt_add_of_pos_right clock (by decide)), fun (t : ℤ) => ?_⟩
    rw [hshows t]
    show _ ↔ (t : ℤ) = clock ∨ (t : ℤ) = clock + 3 * hour
    unfold hour at htwice ⊢
    split_ifs <;> omega
  · have hlookup : skipping.fromLocalDatetime clock =
        if 12 * hour ≤ clock ∧ clock < 14 * hour then .none else .single clock := if_neg htwice
    by_cases hskipped : 12 * hour ≤ clock ∧ clock < 14 * hour
    · rw [hlookup, if_pos hskipped]
      intro (t : ℤ)
      rw [Ne, hshows t]
      unfold hour at htwice hskipped ⊢
      split_ifs <;> omega
    · rw [hlookup, if_neg hskipped]
      intro (t : ℤ)
      rw [hshows t]
      show _ ↔ (t : ℤ) = clock
      unfold hour at htwice hskipped ⊢
      split_ifs <;> omega

/-- From eight to half past eleven. -/
def mornings : QuietHours where
  timezone := skipping
  start := 8 * hour
  «end» := 23 * hour / 2
  start_isTime := by decide
  end_isTime := by decide
  start_ne_end := by decide

/-- **A clock may skip the end of the hours it repeats**: at one o'clock it shows ten, and the end
of the window, which it has shown, never comes again. -/
theorem quiet_hours_end_skipped :
    ∃ self : QuietHours, self.timezone.Lawful ∧
      (∀ t u : DateTime, -dayNanoseconds < self.timezone.offset t - self.timezone.offset u) ∧
      ∃ instant t, self.isQuietAt instant = true ∧ self.nextAllowedAt instant = some t ∧
        t < instant := by
  refine ⟨mornings, lawful_skipping, fun (t u : ℤ) => ?_, (13 * hour : ℤ), (23 * hour / 2 : ℤ),
    by decide, by decide, by decide⟩
  show -dayNanoseconds < (if 12 * hour ≤ t ∧ t < 14 * hour then -3 * hour else 0) -
    (if 12 * hour ≤ u ∧ u < 14 * hour then -3 * hour else 0)
  unfold dayNanoseconds hour
  split_ifs <;> omega

end QuietHours

end Werrss
