import Mathlib.Data.List.Sort

/-!
# Machinery/Selection — the least element of a list, and the first few of its order

    minBy cmp l ── the first least element          firstBy r n l ── ORDER BY r LIMIT n

`minBy` keeps the earlier of two equal elements, so with a comparison that tells all elements apart
its answer does not depend on the order of the list.
-/

namespace Machinery

variable {A : Type*}

/-! ## The least element -/

/-- The smaller of two elements, the first if they are equal. -/
def lesser (cmp : A → A → Ordering) (a b : A) : A :=
  match cmp a b with
  | .gt => b
  | _ => a

/-- `Iterator::min_by`. -/
def minBy (cmp : A → A → Ordering) : List A → Option A
  | [] => none
  | a :: as => some (as.foldl (lesser cmp) a)

section MinBy

variable {cmp : A → A → Ordering}

theorem lesser_cases (a b : A) : lesser cmp a b = a ∨ lesser cmp a b = b := by
  unfold lesser
  split
  · exact .inr rfl
  · exact .inl rfl

theorem minBy_eq_none {l : List A} : minBy cmp l = none ↔ l = [] := by
  cases l with
  | nil => exact ⟨fun _ => rfl, fun _ => rfl⟩
  | cons a as => exact ⟨nofun, nofun⟩

theorem mem_of_foldl_lesser (as : List A) (a : A) : as.foldl (lesser cmp) a ∈ a :: as := by
  induction as generalizing a with
  | nil => simp
  | cons b bs ih =>
    have hmem := ih (lesser cmp a b)
    have hcases : lesser cmp a b = a ∨ lesser cmp a b = b := lesser_cases a b
    rcases hcases with h | h
    · rw [h] at hmem
      rw [List.foldl_cons, h]
      rcases List.mem_cons.mp hmem with heq | hin
      · simp [heq]
      · simp [hin]
    · rw [h] at hmem
      rw [List.foldl_cons, h]
      exact List.mem_cons_of_mem _ hmem

theorem mem_of_minBy {l : List A} {m : A} (h : minBy cmp l = some m) : m ∈ l := by
  cases l with
  | nil => cases h
  | cons a as =>
    obtain rfl := Option.some.inj h
    exact mem_of_foldl_lesser as a

variable [Std.TransCmp cmp]

theorem lesser_isLE (a b : A) :
    (cmp (lesser cmp a b) a).isLE = true ∧ (cmp (lesser cmp a b) b).isLE = true := by
  unfold lesser
  split
  · rename_i hgt
    exact ⟨by rw [Std.OrientedCmp.lt_of_gt hgt]; rfl, Std.ReflCmp.isLE_rfl⟩
  · rename_i hle
    refine ⟨Std.ReflCmp.isLE_rfl, ?_⟩
    cases h : cmp a b with
    | gt => exact absurd h hle
    | lt | eq => rfl

theorem foldl_lesser_isLE (as : List A) (a : A) :
    ∀ b ∈ a :: as, (cmp (as.foldl (lesser cmp) a) b).isLE = true := by
  induction as generalizing a with
  | nil =>
    intro b hb
    obtain rfl := List.mem_singleton.mp hb
    exact Std.ReflCmp.isLE_rfl
  | cons c cs ih =>
    intro b hb
    have hrest := ih (lesser cmp a c)
    have hhead := hrest _ List.mem_cons_self
    have hlesser : (cmp (lesser cmp a c) a).isLE = true ∧ (cmp (lesser cmp a c) c).isLE = true :=
      lesser_isLE a c
    obtain ⟨hleft, hright⟩ := hlesser
    rw [List.foldl_cons]
    rcases List.mem_cons.mp hb with rfl | hb
    · exact Std.TransCmp.isLE_trans hhead hleft
    rcases List.mem_cons.mp hb with rfl | hb
    · exact Std.TransCmp.isLE_trans hhead hright
    · exact hrest b (List.mem_cons_of_mem _ hb)

/-- **What `minBy` returns is at most every element.** -/
theorem isLE_of_minBy {l : List A} {m : A} (h : minBy cmp l = some m) :
    ∀ b ∈ l, (cmp m b).isLE = true := by
  cases l with
  | nil => cases h
  | cons a as =>
    obtain rfl := Option.some.inj h
    exact foldl_lesser_isLE as a

end MinBy

/-! ## The first few -/

section FirstBy

variable (r : A → A → Prop) [DecidableRel r]

/-- The first `n` elements in the order `r`, equal elements in the order of the list. -/
def firstBy (n : ℕ) (l : List A) : List A := (l.insertionSort r).take n

/-- The elements `firstBy` passes over. -/
def restBy (n : ℕ) (l : List A) : List A := (l.insertionSort r).drop n

theorem firstBy_append_restBy (n : ℕ) (l : List A) : (firstBy r n l ++ restBy r n l).Perm l := by
  rw [firstBy, restBy, List.take_append_drop]
  exact List.perm_insertionSort r l

theorem length_firstBy (n : ℕ) (l : List A) : (firstBy r n l).length = min n l.length := by
  rw [firstBy, List.length_take, List.length_insertionSort]

theorem mem_of_mem_firstBy {n : ℕ} {l : List A} {a : A} (h : a ∈ firstBy r n l) : a ∈ l :=
  (firstBy_append_restBy r n l).subset (List.mem_append_left _ h)

/-- An element that was not taken was passed over. -/
theorem mem_restBy {n : ℕ} {l : List A} {a : A} (h : a ∈ l) (hnot : a ∉ firstBy r n l) :
    a ∈ restBy r n l := by
  have hboth := (firstBy_append_restBy r n l).symm.subset h
  exact (List.mem_append.mp hboth).resolve_left hnot

/-- **What is taken comes before what is passed over.** -/
theorem firstBy_before [Std.Total r] [IsTrans A r] {n : ℕ} {l : List A} {a b : A}
    (ha : a ∈ firstBy r n l) (hb : b ∈ restBy r n l) : r a b := by
  have hsorted := List.pairwise_insertionSort r l
  rw [← List.take_append_drop n (l.insertionSort r), List.pairwise_append] at hsorted
  exact hsorted.2.2 a ha b hb

/-- The first few of a list of images. -/
theorem firstBy_map {B : Type*} (f : B → A) (n : ℕ) (l : List B) :
    firstBy r n (l.map f) = (firstBy (fun a b => r (f a) (f b)) n l).map f := by
  rw [firstBy, firstBy, List.map_take]
  congr 1
  exact (List.map_insertionSort (fun a b => r (f a) (f b)) r f l fun _ _ _ _ => Iff.rfl).symm

end FirstBy

end Machinery
