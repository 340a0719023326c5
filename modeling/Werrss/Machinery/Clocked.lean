import Mathlib.Data.Int.Notation
import Mathlib.Data.Nat.Notation
import Mathlib.Tactic.Common

/-!
# Machinery/Clocked — computations that take time

    start ──wait──▸ start + elapsed ──instant──▸ the clock is read
      │                                             │
      └────────── start ≤ end, whatever ends ───────┘

A computation starts at an instant of a clock, answers or fails, and **never turns the clock back**:
the structure carries the bound.  What a computation may fail with is stated of the error and of the
instant it fails at, and is proved of a sequence from its parts.
-/

namespace Machinery

/-- A computation under a clock: what it answers or fails with, and the clock when it ends. -/
structure Clocked (E A : Type) where
  run : ℤ → Except E A × ℤ
  le_run (t : ℤ) : t ≤ (run t).2

namespace Clocked

variable {E F A B : Type}

/-- An answer that takes no time. -/
protected def pure (a : A) : Clocked E A := ⟨fun t => (.ok a, t), Int.le_refl⟩

/-- One computation after another; a failure ends the sequence. -/
protected def bind (m : Clocked E A) (f : A → Clocked E B) : Clocked E B where
  run t :=
    match m.run t with
    | (.ok a, t') => (f a).run t'
    | (.error e, t') => (.error e, t')
  le_run t := by
    have hm := m.le_run t
    rcases hresult : m.run t with ⟨e | a, t'⟩
    · rw [hresult] at hm
      exact hm
    · rw [hresult] at hm
      exact Int.le_trans hm ((f a).le_run t')

instance : Monad (Clocked E) where
  pure := Clocked.pure
  bind := Clocked.bind

/-- A failure. -/
def throw (e : E) : Clocked E A := ⟨fun t => (.error e, t), Int.le_refl⟩

/-- Time that passes. -/
def wait (elapsed : ℕ) : Clocked E Unit :=
  ⟨fun t => (.ok (), t + elapsed), fun _ => Int.le_add_of_nonneg_right (Int.natCast_nonneg elapsed)⟩

/-- The clock, read. -/
def instant : Clocked E ℤ := ⟨fun t => (.ok t, t), Int.le_refl⟩

/-- A failure that knows its instant. -/
def throwAt (e : ℤ → E) : Clocked E A := ⟨fun t => (.error (e t), t), Int.le_refl⟩

/-! ## What it may fail with -/

/-- **Every failure is as stated**, of the error and the clock at that instant. -/
def Throws (m : Clocked E A) (Q : E → ℤ → Prop) : Prop :=
  ∀ t e t', m.run t = (.error e, t') → Q e t'

variable {Q : E → ℤ → Prop}

theorem throws_pure (a : A) : Throws (pure a : Clocked E A) Q := fun _ _ _ h =>
  nomatch (Prod.mk.inj h).1

theorem throws_wait (elapsed : ℕ) : Throws (wait elapsed : Clocked E Unit) Q := fun _ _ _ h =>
  nomatch (Prod.mk.inj h).1

theorem throws_instant : Throws (instant : Clocked E ℤ) Q := fun _ _ _ h =>
  nomatch (Prod.mk.inj h).1

theorem throws_throw {e : E} (h : ∀ t, Q e t) : Throws (throw e : Clocked E A) Q := by
  intro t e' t' hrun
  obtain ⟨he, rfl⟩ := Prod.mk.inj hrun
  obtain rfl := Except.error.inj he
  exact h t

theorem throws_throwAt {e : ℤ → E} (h : ∀ t, Q (e t) t) : Throws (throwAt e : Clocked E A) Q := by
  intro t e' t' hrun
  obtain ⟨he, rfl⟩ := Prod.mk.inj hrun
  obtain rfl := Except.error.inj he
  exact h t

/-- **The rule for a sequence.** -/
theorem Throws.bind {m : Clocked E A} {f : A → Clocked E B} (hm : Throws m Q)
    (hf : ∀ a, Throws (f a) Q) : Throws (m >>= f) Q := by
  intro t e t' hrun
  have hrun : (match m.run t with
    | (.ok a, t') => (f a).run t'
    | (.error e, t') => (.error e, t')) = (.error e, t') := hrun
  rcases hresult : m.run t with ⟨e' | a, t₁⟩
  · rw [hresult] at hrun
    obtain ⟨he, rfl⟩ := Prod.mk.inj hrun
    obtain rfl := Except.error.inj he
    exact hm t e' t₁ hresult
  · rw [hresult] at hrun
    exact hf a t₁ e t' hrun

/-- A sequence that answers is two computations that answer. -/
theorem ok_of_bind {m : Clocked E A} {f : A → Clocked E B} {t t' : ℤ} {b : B}
    (h : (m >>= f).run t = (.ok b, t')) :
    ∃ a t₁, m.run t = (.ok a, t₁) ∧ (f a).run t₁ = (.ok b, t') := by
  have h : (match m.run t with
    | (.ok a, t') => (f a).run t'
    | (.error e, t') => (.error e, t')) = (.ok b, t') := h
  rcases hresult : m.run t with ⟨e | a, t₁⟩
  · rw [hresult] at h
    exact nomatch (Prod.mk.inj h).1
  · rw [hresult] at h
    exact ⟨a, t₁, rfl, h⟩

/-- The clock when a computation ends is not before its start. -/
theorem le_of_run {m : Clocked E A} {t t' : ℤ} {result : Except E A} (h : m.run t = (result, t')) :
    t ≤ t' := by
  have hle := m.le_run t
  rwa [h] at hle

end Clocked

end Machinery
