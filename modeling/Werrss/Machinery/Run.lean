import Mathlib.Data.List.Induction

/-!
# Machinery/Run — runs of a machine, their histories, and invariants along them

    start ──a₁/r₁──▸ s₁ ──a₂/r₂──▸ s₂ ── … ──▸ sₙ

A *machine* answers an action with a result and a next state; its run over a list of actions keeps
the answers, newest first, as a **history**.  A system without answers is a bare step function, and
its runs may be asked to meet a guard.  For both, an invariant is proved once, at the start and
across one step.
-/

namespace Machinery

/-! ## Machines with answers -/

/-- A machine over states `S`: each action moves the state and answers with a result. -/
structure Machine (S A R : Type*) where
  step : S → A → S × R

namespace Machine

variable {S A R : Type*} (m : Machine S A R)

/-- One more answered action, on top of a state and the history that led to it. -/
def advance (c : S × List (A × R)) (a : A) : S × List (A × R) :=
  ((m.step c.1 a).1, (a, (m.step c.1 a).2) :: c.2)

/-- **The run over a list of actions**: the state reached and the history, newest answer first. -/
def exec (s : S) (as : List A) : S × List (A × R) :=
  as.foldl m.advance (s, [])

@[simp] theorem exec_nil (s : S) : m.exec s [] = (s, []) := rfl

theorem exec_concat (s : S) (as : List A) (a : A) :
    m.exec s (as ++ [a]) = m.advance (m.exec s as) a := by
  simp [exec, List.foldl_append]

/-- **The invariant rule for runs with a history** — true at the start with nothing answered, kept
by one answered action, hence true of every run. -/
theorem exec_invariant {P : S → List (A × R) → Prop} {s : S} (h0 : P s [])
    (hstep : ∀ s h a, P s h → P (m.step s a).1 ((a, (m.step s a).2) :: h)) (as : List A) :
    P (m.exec s as).1 (m.exec s as).2 := by
  induction as using List.reverseRecOn with
  | nil => exact h0
  | append_singleton as a ih =>
    rw [exec_concat]
    exact hstep _ _ a ih

/-- The histories of a run grow at the front: a longer run extends the history of a shorter one. -/
theorem exec_append_history (s : S) (as bs : List A) :
    ∃ h, (m.exec s (as ++ bs)).2 = h ++ (m.exec s as).2 := by
  induction bs using List.reverseRecOn with
  | nil => exact ⟨[], by simp⟩
  | append_singleton bs b ih =>
    obtain ⟨h, hh⟩ := ih
    refine ⟨(b, (m.step (m.exec s (as ++ bs)).1 b).2) :: h, ?_⟩
    rw [← List.append_assoc, exec_concat]
    simp [advance, hh]

/-- A history is the list of the actions, each with its answer. -/
theorem map_fst_exec (s : S) (as : List A) : (m.exec s as).2.map Prod.fst = as.reverse := by
  induction as using List.reverseRecOn with
  | nil => rfl
  | append_singleton as a ih =>
    rw [exec_concat, advance, List.map_cons, ih, List.reverse_append]
    rfl

end Machine

/-! ## Systems without answers -/

section Runs

variable {S A : Type*} (step : S → A → S)

/-- The state after a list of actions. -/
def run (s : S) (as : List A) : S := as.foldl step s

/-- **Every action of the run meets `G`** in the state it is taken in. -/
def Meets (G : S → A → Prop) : S → List A → Prop
  | _, [] => True
  | s, a :: as => G s a ∧ Meets G (step s a) as

instance Meets.decidable {G : S → A → Prop} [∀ s a, Decidable (G s a)] :
    ∀ (s : S) (as : List A), Decidable (Meets step G s as)
  | _, [] => inferInstanceAs (Decidable True)
  | s, a :: as => @instDecidableAnd _ _ _ (Meets.decidable (step s a) as)

variable {step}

theorem run_append (s : S) (as bs : List A) : run step s (as ++ bs) = run step (run step s as) bs :=
  List.foldl_append

theorem meets_append {G : S → A → Prop} (s : S) (as bs : List A) :
    Meets step G s (as ++ bs) ↔ Meets step G s as ∧ Meets step G (run step s as) bs := by
  induction as generalizing s with
  | nil => exact ⟨fun h => ⟨trivial, h⟩, fun h => h.2⟩
  | cons a as ih =>
    have h := ih (step s a)
    exact ⟨fun hall => ⟨⟨hall.1, (h.mp hall.2).1⟩, (h.mp hall.2).2⟩,
      fun hboth => ⟨hboth.1.1, h.mpr ⟨hboth.1.2, hboth.2⟩⟩⟩

/-- **The invariant rule for guarded runs.** -/
theorem run_invariant {P : S → Prop} {G : S → A → Prop}
    (hstep : ∀ s a, P s → G s a → P (step s a)) :
    ∀ (as : List A) {s : S}, P s → Meets step G s as → P (run step s as)
  | [], _, h, _ => h
  | a :: as, s, h, hmeets => run_invariant hstep as (hstep s a h hmeets.1) hmeets.2

/-- **The rule for what every step shows**: where an invariant that the guard keeps turns the guard
into `Q`, a run that meets the guard meets `Q`. -/
theorem meets_of_invariant {P : S → Prop} {G Q : S → A → Prop}
    (hstep : ∀ s a, P s → G s a → P (step s a) ∧ Q s a) :
    ∀ (as : List A) {s : S}, P s → Meets step G s as → Meets step Q s as
  | [], _, _, _ => trivial
  | a :: as, s, h, hmeets =>
    have hhere := hstep s a h hmeets.1
    ⟨hhere.2, meets_of_invariant hstep as hhere.1 hmeets.2⟩

/-- **The rule for guards that agree**: where an invariant that the first guard keeps makes the two
guards the same, the runs that meet them are. -/
theorem meets_congr {P : S → Prop} {G G' : S → A → Prop}
    (hstep : ∀ s a, P s → G s a → P (step s a)) (hguard : ∀ s a, P s → (G s a ↔ G' s a)) :
    ∀ (as : List A) {s : S}, P s → (Meets step G s as ↔ Meets step G' s as)
  | [], _, _ => Iff.rfl
  | a :: as, s, h => by
    refine ⟨fun hall => ?_, fun hall => ?_⟩
    · exact ⟨(hguard s a h).mp hall.1,
        (meets_congr hstep hguard as (hstep s a h hall.1)).mp hall.2⟩
    · have hhere := (hguard s a h).mpr hall.1
      exact ⟨hhere, (meets_congr hstep hguard as (hstep s a h hhere)).mpr hall.2⟩

/-- **The invariant rule for all runs.** -/
theorem run_preserves {P : S → Prop} (hstep : ∀ s a, P s → P (step s a)) :
    ∀ (as : List A) {s : S}, P s → P (run step s as)
  | [], _, h => h
  | a :: as, s, h => run_preserves hstep as (hstep s a h)

/-- **The rule for what never goes back**: a preorder that every step respects relates the start of a
run to its end. -/
theorem run_mono {R : S → S → Prop} (hrefl : ∀ s, R s s)
    (htrans : ∀ s t u, R s t → R t u → R s u) (hstep : ∀ s a, R s (step s a)) :
    ∀ (as : List A) (s : S), R s (run step s as)
  | [], s => hrefl s
  | a :: as, s => htrans _ _ _ (hstep s a) (run_mono hrefl htrans hstep as (step s a))

end Runs

end Machinery
