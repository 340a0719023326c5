import Werrss.Machinery.Run

/-!
# Machinery/Fencing — claims that go dead and stay dead

    granted ──▸ live ──▸ live ──▸ dead ──▸ dead ──▸ …
                  └── commits at most once, and is dead afterwards

A system grants *claims* and logs the claims under which something was committed.  A claim commits
only while it is live and is dead afterwards; no step brings a granted claim back to life.  So **a
dead claim commits nothing more, and no claim is logged twice** — whatever the order of the steps.
-/

namespace Machinery

/-- **A fence**: which claims were granted, which of them live, and which have committed.  The steps
are those a guard `G` admits, from states that meet an invariant. -/
structure Fence {S A : Type*} (C : Type*) (step : S → A → S) (G : S → A → Prop) where
  Invariant : S → Prop
  Granted : S → C → Prop
  Live : S → C → Prop
  log : S → List C
  invariant_step : ∀ s a, Invariant s → G s a → Invariant (step s a)
  granted_step : ∀ s a c, Invariant s → G s a → Granted s c → Granted (step s a) c
  live_step : ∀ s a c, Invariant s → G s a → Granted s c → Live (step s a) c → Live s c
  log_step : ∀ s a, Invariant s → G s a → log (step s a) = log s ∨
    ∃ c, log (step s a) = c :: log s ∧ Granted s c ∧ Live s c ∧ ¬ Live (step s a) c

namespace Fence

variable {S A C : Type*} {step : S → A → S} {G : S → A → Prop} (fence : Fence C step G)

/-- A granted claim that is dead. -/
def Dead (s : S) (c : C) : Prop := fence.Granted s c ∧ ¬ fence.Live s c

theorem dead_step {s : S} {a : A} {c : C} (hinv : fence.Invariant s) (hguard : G s a)
    (hdead : fence.Dead s c) : fence.Dead (step s a) c :=
  ⟨fence.granted_step s a c hinv hguard hdead.1,
    fun hlive => hdead.2 (fence.live_step s a c hinv hguard hdead.1 hlive)⟩

/-- **No resurrection**: along a run, a dead claim stays dead. -/
theorem dead_run {s : S} {as : List A} {c : C} (hinv : fence.Invariant s)
    (hmeets : Meets step G s as) (hdead : fence.Dead s c) : fence.Dead (run step s as) c :=
  (run_invariant (P := fun s => fence.Invariant s ∧ fence.Dead s c)
    (fun s a h hguard => ⟨fence.invariant_step s a h.1 hguard, fence.dead_step h.1 hguard h.2⟩)
    as ⟨hinv, hdead⟩ hmeets).2

/-- What holds of every step where a claim is dead holds all along a run from there. -/
theorem meets_of_dead {Q : S → A → Prop} {c : C}
    (hstep : ∀ s a, fence.Invariant s → G s a → fence.Dead s c → Q s a) :
    ∀ (as : List A) {s : S}, fence.Invariant s → fence.Dead s c → Meets step G s as →
      Meets step Q s as
  | [], _, _, _, _ => trivial
  | a :: as, s, hinv, hdead, hmeets =>
    ⟨hstep s a hinv hmeets.1 hdead, meets_of_dead hstep as (fence.invariant_step s a hinv hmeets.1)
      (fence.dead_step hinv hmeets.1 hdead) hmeets.2⟩

/-- The logged claims are dead, and each was logged once. -/
structure Settled (s : S) : Prop where
  dead : ∀ c ∈ fence.log s, fence.Dead s c
  nodup : (fence.log s).Nodup

theorem settled_step {s : S} {a : A} (hinv : fence.Invariant s) (hguard : G s a)
    (h : fence.Settled s) : fence.Settled (step s a) := by
  rcases fence.log_step s a hinv hguard with hsame | ⟨c, hnew, hgranted, hlive, hover⟩
  · refine ⟨fun c hc => ?_, ?_⟩
    · rw [hsame] at hc
      exact fence.dead_step hinv hguard (h.dead c hc)
    · rw [hsame]
      exact h.nodup
  · refine ⟨fun c' hc' => ?_, ?_⟩
    · rw [hnew, List.mem_cons] at hc'
      rcases hc' with rfl | hold
      · exact ⟨fence.granted_step s a c' hinv hguard hgranted, hover⟩
      · exact fence.dead_step hinv hguard (h.dead c' hold)
    · rw [hnew, List.nodup_cons]
      exact ⟨fun hc => (h.dead c hc).2 hlive, h.nodup⟩

/-- **Every claim commits at most once.** -/
theorem nodup_run {s : S} {as : List A} (hinv : fence.Invariant s) (hempty : fence.log s = [])
    (hmeets : Meets step G s as) : (fence.log (run step s as)).Nodup := by
  have hstart : fence.Settled s := by
    refine ⟨fun c hc => ?_, ?_⟩
    · rw [hempty] at hc
      exact absurd hc List.not_mem_nil
    · rw [hempty]
      exact List.nodup_nil
  exact (run_invariant (P := fun s => fence.Invariant s ∧ fence.Settled s)
    (fun s a h hguard => ⟨fence.invariant_step s a h.1 hguard, fence.settled_step h.1 hguard h.2⟩)
    as ⟨hinv, hstart⟩ hmeets).2.nodup

end Fence

end Machinery
