import Mathlib.Data.List.Nodup

/-!
# Machinery/Rows — tables as lists of rows with a key

    get t k ── the first row of key k          t.map f ── an update that leaves the keys alone

A table is the list of its rows.  An update is a `map` that keeps the key of every row, so what it
does to the row of a key is what it does to that row, and to no other.
-/

namespace Machinery

namespace Rows

variable {K R : Type} [DecidableEq K] {key : R → K}

/-- The row of a key. -/
def get (key : R → K) (t : List R) (k : K) : Option R := t.find? fun row => key row = k

@[simp] theorem get_nil (k : K) : get key [] k = none := rfl

theorem key_of_get {t : List R} {k : K} {row : R} (h : get key t k = some row) : key row = k := by
  simpa using List.find?_some h

theorem mem_of_get {t : List R} {k : K} {row : R} (h : get key t k = some row) : row ∈ t :=
  List.mem_of_find?_eq_some h

theorem get_eq_none {t : List R} {k : K} : get key t k = none ↔ ∀ row ∈ t, key row ≠ k := by
  simp [get, List.find?_eq_none]

/-- **A row is found under its key**, if no key comes twice. -/
theorem get_of_mem {t : List R} {row : R} (hkeys : (t.map key).Nodup) (h : row ∈ t) :
    get key t (key row) = some row := by
  cases hget : get key t (key row) with
  | none => exact absurd rfl (get_eq_none.mp hget row h)
  | some other =>
    rw [List.inj_on_of_nodup_map hkeys (mem_of_get hget) h (key_of_get hget)]

/-- **An update that keeps the keys** does to the row of a key what it does to that row. -/
theorem get_map {f : R → R} (hf : ∀ row, key (f row) = key row) (t : List R) (k : K) :
    get key (t.map f) k = (get key t k).map f := by
  rw [get, get, List.find?_map]
  congr 2
  funext row
  simp [hf]

/-- A new row is found under its own key, if there was none. -/
theorem get_append_singleton (t : List R) (row : R) (k : K) :
    get key (t ++ [row]) k = (get key t k).or (if key row = k then some row else none) := by
  rw [get, get, List.find?_append]
  congr 1
  by_cases h : key row = k
  · simp [h]
  · simp [h]

/-- An update of the row of one key. -/
def update (key : R → K) (t : List R) (k : K) (f : R → R) : List R :=
  t.map fun row => if key row = k then f row else row

theorem get_update {f : R → R} (hf : ∀ row, key (f row) = key row) (t : List R) (k k' : K) :
    get key (update key t k f) k' = if k' = k then (get key t k').map f else get key t k' := by
  rw [update, get_map]
  · by_cases h : k' = k
    · rw [if_pos h]
      cases hrow : get key t k' with
      | none => rfl
      | some row =>
        have hkey := key_of_get hrow
        simp only [Option.map_some, if_pos (hkey.trans h)]
    · rw [if_neg h]
      cases hrow : get key t k' with
      | none => rfl
      | some row =>
        have hkey := key_of_get hrow
        simp only [Option.map_some, if_neg (fun heq => h (hkey.symm.trans heq))]
  · intro row
    by_cases h : key row = k
    · rw [if_pos h]
      exact hf row
    · rw [if_neg h]

/-- **Replacing the row of a key** is an update that keeps the keys. -/
theorem get_replace {row : R} {k : K} (hkey : key row = k) (t : List R) (k' : K) :
    get key (update key t k fun _ => row) k' =
      if k' = k then (get key t k').map fun _ => row else get key t k' := by
  have hkeep : ∀ other, key (if key other = k then row else other) = key other := by
    intro other
    split_ifs with h
    · rw [hkey, h]
    · rfl
  have hsame : (update key t k fun _ => row) =
      update key t k fun other => if key other = k then row else other := by
    refine List.map_congr_left fun other _ => ?_
    by_cases h : key other = k
    · simp only [if_pos h]
    · simp only [if_neg h]
  rw [hsame, get_update hkeep]
  split_ifs with h
  · cases hget : get key t k' with
    | none => rfl
    | some other => rw [Option.map_some, Option.map_some, if_pos ((key_of_get hget).trans h)]
  · rfl

/-- An update that keeps the keys, as the list of the keys. -/
theorem map_key_update {f : R → R} (hf : ∀ row, key (f row) = key row) (t : List R) (k : K) :
    (update key t k f).map key = t.map key := by
  rw [update, List.map_map]
  refine List.map_congr_left fun row _ => ?_
  rw [Function.comp_apply]
  split_ifs
  · exact hf row
  · rfl

theorem mem_update {f : R → R} {t : List R} {k : K} {row : R} (h : row ∈ update key t k f) :
    (row ∈ t ∧ key row ≠ k) ∨ ∃ old ∈ t, key old = k ∧ row = f old := by
  obtain ⟨old, hold, rfl⟩ := List.mem_map.mp h
  by_cases hkey : key old = k
  · exact .inr ⟨old, hold, hkey, if_pos hkey⟩
  · rw [if_neg hkey]
    exact .inl ⟨hold, hkey⟩

/-- **A unique column stays unique** when the row of one key takes a value that is free. -/
theorem nodup_map_update {C : Type} {col : R → C} {f : R → R} {k : K} {c : C}
    (hf : ∀ row, col (f row) = c) : ∀ {t : List R}, (t.map key).Nodup → (t.map col).Nodup →
      (∀ row ∈ t, key row ≠ k → col row ≠ c) → ((update key t k f).map col).Nodup
  | [], _, _, _ => List.nodup_nil
  | row :: t, hkeys, hcols, hfree => by
    rw [List.map_cons, List.nodup_cons] at hkeys hcols
    have htail := nodup_map_update hf hkeys.2 hcols.2 fun r hr => hfree r (List.mem_cons_of_mem _ hr)
    rw [update, List.map_cons, List.map_cons, List.nodup_cons]
    refine ⟨fun hmem => ?_, htail⟩
    obtain ⟨other, hother, hsame⟩ := List.mem_map.mp hmem
    rcases mem_update hother with ⟨hin, hne⟩ | ⟨old, hold, holdkey, rfl⟩
    · by_cases hkey : key row = k
      · rw [if_pos hkey, hf] at hsame
        exact hfree other (List.mem_cons_of_mem _ hin) hne hsame
      · rw [if_neg hkey] at hsame
        exact hcols.1 (List.mem_map.mpr ⟨other, hin, hsame⟩)
    · have hkey : key row ≠ k := fun hkey =>
        hkeys.1 (List.mem_map.mpr ⟨old, hold, holdkey.trans hkey.symm⟩)
      rw [if_neg hkey, hf] at hsame
      exact hfree row List.mem_cons_self hkey hsame.symm

/-- The table without the rows of a key. -/
def remove (key : R → K) (t : List R) (k : K) : List R := t.filter fun row => key row ≠ k

theorem get_remove (t : List R) (k k' : K) :
    get key (remove key t k) k' = if k' = k then none else get key t k' := by
  rw [get, remove, List.find?_filter]
  split_ifs with h
  · refine List.find?_eq_none.mpr fun row _ => ?_
    simp only [h, decide_eq_true_eq]
    exact fun hboth => hboth.1 hboth.2
  · rw [get]
    congr 1
    funext row
    by_cases hrow : key row = k'
    · simp [hrow, h]
    · simp [hrow]

/-! ## Rows one by one -/

/-- A transitive relation between rows relates tables row by row, transitively. -/
theorem forall₂_trans {R : Type} {r : R → R → Prop} (htrans : ∀ a b c, r a b → r b c → r a c) :
    ∀ {s t u : List R}, List.Forall₂ r s t → List.Forall₂ r t u → List.Forall₂ r s u
  | _, _, _, .nil, .nil => .nil
  | _, _, _, .cons hfirst hrest, .cons hfirst' hrest' =>
    .cons (htrans _ _ _ hfirst hfirst') (forall₂_trans htrans hrest hrest')

end Rows

end Machinery
