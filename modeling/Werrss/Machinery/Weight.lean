import Mathlib.Algebra.Order.BigOperators.Group.List
import Mathlib.Algebra.Order.Ring.Nat
import Mathlib.Data.List.Nodup

/-!
# Machinery/Weight — what the selected entries of a list weigh

    weight w p [x, y, z, …] = Σ { w x | p x }

The weight of a list under a selection: monotone in the selection, subadditive over a cover, and for
a selection that a key pins down at most the weight of one entry.
-/

namespace Machinery

variable {A K : Type} {w : A → ℕ} {p q r : A → Bool} {l : List A}

/-- The entries that `p` selects, weighed by `w`. -/
def weight (w : A → ℕ) (p : A → Bool) (l : List A) : ℕ := ((l.filter p).map w).sum

@[simp] theorem weight_nil (w : A → ℕ) (p : A → Bool) : weight w p [] = 0 := rfl

theorem weight_cons (w : A → ℕ) (p : A → Bool) (x : A) (l : List A) :
    weight w p (x :: l) = (if p x = true then w x else 0) + weight w p l := by
  by_cases h : p x = true
  · simp [weight, h]
  · simp [weight, h]

theorem weight_mono (h : ∀ x ∈ l, p x = true → q x = true) : weight w p l ≤ weight w q l := by
  induction l with
  | nil => exact le_rfl
  | cons x l ih =>
    have hx := h x List.mem_cons_self
    have hl := ih fun y hy => h y (List.mem_cons_of_mem x hy)
    rw [weight_cons, weight_cons]
    by_cases hp : p x = true
    · rw [if_pos hp, if_pos (hx hp)]
      omega
    · rw [if_neg hp]
      omega

theorem weight_congr (h : ∀ x ∈ l, p x = q x) : weight w p l = weight w q l :=
  le_antisymm (weight_mono fun x hx hp => (h x hx) ▸ hp) (weight_mono fun x hx hq => (h x hx) ▸ hq)

/-- **A cover weighs at least as much.** -/
theorem weight_le_add (h : ∀ x ∈ l, p x = true → q x = true ∨ r x = true) :
    weight w p l ≤ weight w q l + weight w r l := by
  induction l with
  | nil => exact le_rfl
  | cons x l ih =>
    have hx := h x List.mem_cons_self
    have hl := ih fun y hy => h y (List.mem_cons_of_mem x hy)
    rw [weight_cons, weight_cons, weight_cons]
    by_cases hp : p x = true
    · rcases hx hp with hq | hr
      · rw [if_pos hp, if_pos hq]
        omega
      · rw [if_pos hp, if_pos hr]
        omega
    · rw [if_neg hp]
      omega

/-- **Dropping an entry from the selection drops its weight.** -/
theorem weight_add_le {x : A} (hx : x ∈ l) (hq : q x = true) (hp : p x = false)
    (h : ∀ y ∈ l, p y = true → q y = true) : weight w p l + w x ≤ weight w q l := by
  induction l with
  | nil => cases hx
  | cons y l ih =>
    have hy := h y List.mem_cons_self
    have hmono : weight w p l ≤ weight w q l :=
      weight_mono fun z hz => h z (List.mem_cons_of_mem y hz)
    rw [weight_cons, weight_cons]
    rcases List.mem_cons.mp hx with rfl | hmem
    · rw [if_neg (by simp [hp]), if_pos hq]
      omega
    · have hl := ih hmem fun z hz => h z (List.mem_cons_of_mem y hz)
      by_cases hpy : p y = true
      · rw [if_pos hpy, if_pos (hy hpy)]
        omega
      · rw [if_neg hpy]
        omega

/-- **A key selects at most one entry.** -/
theorem weight_le_of_key {key : A → K} {k : K} {n : ℕ} (hkey : (l.map key).Nodup)
    (h : ∀ x ∈ l, p x = true → key x = k ∧ w x ≤ n) : weight w p l ≤ n := by
  induction l with
  | nil => exact Nat.zero_le n
  | cons x l ih =>
    rw [List.map_cons, List.nodup_cons] at hkey
    rw [weight_cons]
    by_cases hp : p x = true
    · obtain ⟨hk, hn⟩ := h x List.mem_cons_self hp
      have hnone : ∀ y ∈ l, p y = (fun _ => false) y := by
        intro y hy
        refine Bool.eq_false_iff.mpr fun hpy => hkey.1 (List.mem_map.mpr ⟨y, hy, ?_⟩)
        exact (h y (List.mem_cons_of_mem x hy) hpy).1.trans hk.symm
      rw [if_pos hp, weight_congr hnone]
      simpa [weight] using hn
    · rw [if_neg hp, Nat.zero_add]
      exact ih hkey.2 fun y hy => h y (List.mem_cons_of_mem x hy)

/-- A rewriting of the entries that keeps weights and selects no more. -/
theorem weight_map_le {f : A → A} (hw : ∀ x, w (f x) = w x)
    (hp : ∀ x, p (f x) = true → q x = true) (l : List A) :
    weight w p (l.map f) ≤ weight w q l := by
  induction l with
  | nil => exact le_rfl
  | cons x l ih =>
    have hx := hp x
    rw [List.map_cons, weight_cons, weight_cons, hw]
    by_cases hpx : p (f x) = true
    · rw [if_pos hpx, if_pos (hx hpx)]
      omega
    · rw [if_neg hpx]
      omega

/-- A rewriting of the entries that keeps weights and selection. -/
theorem weight_map {f : A → A} (hw : ∀ x, w (f x) = w x) (hp : ∀ x, p (f x) = p x) (l : List A) :
    weight w p (l.map f) = weight w p l := by
  induction l with
  | nil => rfl
  | cons x l ih => rw [List.map_cons, weight_cons, weight_cons, hw, hp, ih]

/-- **A weight is the weight inside a test and outside it.** -/
theorem weight_split (w : A → ℕ) (p q : A → Bool) (l : List A) :
    weight w (fun x => p x && q x) l + weight w (fun x => p x && !q x) l = weight w p l := by
  induction l with
  | nil => rfl
  | cons x l ih =>
    rw [weight_cons, weight_cons, weight_cons, ← ih]
    by_cases hp : p x = true
    · by_cases hq : q x = true
      · simp [hp, hq, Nat.add_assoc]
      · simp [hp, hq, Nat.add_left_comm]
    · simp [hp]

/-- **What is outside both tests, with the first test**, is what is outside the second, with both. -/
theorem weight_exchange (w : A → ℕ) (p q r : A → Bool) (l : List A) :
    weight w (fun x => p x && (!q x && !r x)) l + weight w (fun x => p x && q x) l =
      weight w (fun x => p x && !r x) l + weight w (fun x => p x && (q x && r x)) l := by
  have hq := weight_split w (fun x => p x && q x) r l
  have hr := weight_split w (fun x => p x && !r x) q l
  have hkept : weight w (fun x => (p x && q x) && !r x) l =
      weight w (fun x => (p x && !r x) && q x) l :=
    weight_congr fun x _ => Bool.and_right_comm _ _ _
  have hold : weight w (fun x => p x && (!q x && !r x)) l =
      weight w (fun x => (p x && !r x) && !q x) l :=
    weight_congr fun x _ => (Bool.and_assoc _ _ _).symm.trans (Bool.and_right_comm _ _ _)
  have hboth : weight w (fun x => p x && (q x && r x)) l =
      weight w (fun x => (p x && q x) && r x) l :=
    weight_congr fun x _ => (Bool.and_assoc _ _ _).symm
  omega

/-- The one entry of a key weighs what it weighs. -/
theorem weight_of_key {key : A → K} {x : A} (hkey : (l.map key).Nodup) (hx : x ∈ l)
    (hp : ∀ y ∈ l, p y = true ↔ key y = key x) : weight w p l = w x := by
  refine le_antisymm (weight_le_of_key (k := key x) hkey fun y hy hpy => ?_) ?_
  · have hyx := (hp y hy).mp hpy
    exact ⟨hyx, by rw [List.inj_on_of_nodup_map hkey hy hx hyx]⟩
  · have hle : weight w (fun _ => false) l + w x ≤ weight w p l :=
      weight_add_le hx ((hp x hx).mpr rfl) rfl fun _ _ h => nomatch h
    exact (Nat.le_add_left _ _).trans hle

theorem weight_filter (w : A → ℕ) (p q : A → Bool) (l : List A) :
    weight w p (l.filter q) = weight w (fun x => p x && q x) l := by
  rw [weight, weight, List.filter_filter]

end Machinery
