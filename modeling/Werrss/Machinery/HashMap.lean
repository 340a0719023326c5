import Mathlib.Data.List.Nodup
import Werrss.Machinery.Rows

/-!
# Machinery/HashMap — finite maps that are iterated in no particular order

    get (insert m k v) k' = if k' = k then some v else get m k'          iter order m ~ entries m

A map is the list of its entries, no two with one key.  Its iteration order is whatever an
`Iteration` makes of that list: a statement for every `Iteration` rests on no order.
-/

namespace Machinery

/-- A finite map. -/
structure HashMap (K V : Type) where
  entries : List (K × V)
  nodup : (entries.map Prod.fst).Nodup

/-- **An order of iteration**: some rearrangement of any list. -/
structure Iteration (A : Type) where
  order : List A → List A
  perm : ∀ l, (order l).Perm l

namespace HashMap

variable {K V : Type} [DecidableEq K]

/-- `HashMap::new`. -/
def empty : HashMap K V := ⟨[], List.nodup_nil⟩

/-- `HashMap::get`. -/
def get (m : HashMap K V) (k : K) : Option V := (Rows.get Prod.fst m.entries k).map Prod.snd

/-- `HashMap::iter`. -/
def iter (m : HashMap K V) (order : Iteration (K × V)) : List (K × V) := order.order m.entries

/-- The entries after `HashMap::insert`: the entry of the key is replaced, or a new one comes. -/
def insertEntries (entries : List (K × V)) (k : K) (v : V) : List (K × V) :=
  if k ∈ entries.map Prod.fst then Rows.update Prod.fst entries k fun e => (e.1, v)
  else entries ++ [(k, v)]

theorem map_fst_update (entries : List (K × V)) (k : K) (v : V) :
    (Rows.update Prod.fst entries k fun e => (e.1, v)).map Prod.fst = entries.map Prod.fst := by
  rw [Rows.update, List.map_map]
  refine List.map_congr_left fun e _ => ?_
  by_cases h : e.1 = k
  · simp [h]
  · simp [h]

theorem nodup_insertEntries {entries : List (K × V)} (h : (entries.map Prod.fst).Nodup) (k : K)
    (v : V) : ((insertEntries entries k v).map Prod.fst).Nodup := by
  unfold insertEntries
  split_ifs with hmem
  · rwa [map_fst_update]
  · rw [List.map_append, List.map_singleton, List.nodup_append]
    refine ⟨h, List.nodup_singleton k, ?_⟩
    rintro a ha b hb rfl
    obtain rfl := List.mem_singleton.mp hb
    exact hmem ha

/-- `HashMap::insert`. -/
def insert (m : HashMap K V) (k : K) (v : V) : HashMap K V :=
  ⟨insertEntries m.entries k v, nodup_insertEntries m.nodup k v⟩

omit [DecidableEq K] in
theorem ext_entries {m m' : HashMap K V} (h : m.entries = m'.entries) : m = m' := by
  cases m
  cases m'
  cases h
  rfl

@[simp] theorem get_empty (k : K) : (empty : HashMap K V).get k = none := rfl

/-- **An entry is what `get` answers.** -/
theorem mem_entries {m : HashMap K V} {k : K} {v : V} : (k, v) ∈ m.entries ↔ m.get k = some v := by
  constructor
  · intro hmem
    cases hget : Rows.get Prod.fst m.entries k with
    | none => exact absurd rfl (Rows.get_eq_none.mp hget (k, v) hmem)
    | some e =>
      have heq : e = (k, v) :=
        List.inj_on_of_nodup_map m.nodup (Rows.mem_of_get hget) hmem (Rows.key_of_get hget)
      rw [get, hget, heq]
      rfl
  · intro h
    obtain ⟨e, he, rfl⟩ := Option.map_eq_some_iff.mp h
    obtain rfl := Rows.key_of_get he
    exact Rows.mem_of_get he

theorem mem_iter {m : HashMap K V} {order : Iteration (K × V)} {e : K × V} :
    e ∈ m.iter order ↔ m.get e.1 = some e.2 := by
  rw [iter, (order.perm m.entries).mem_iff]
  exact mem_entries

omit [DecidableEq K] in
/-- No key comes twice in an iteration. -/
theorem nodup_iter (m : HashMap K V) (order : Iteration (K × V)) :
    ((m.iter order).map Prod.fst).Nodup :=
  ((order.perm m.entries).map Prod.fst).nodup_iff.mpr m.nodup

/-- **Insertion changes the value of one key.** -/
theorem get_insert (m : HashMap K V) (k k' : K) (v : V) :
    (m.insert k v).get k' = if k' = k then some v else m.get k' := by
  have hentries : (m.insert k v).entries = insertEntries m.entries k v := rfl
  rw [get, hentries]
  by_cases hmem : k ∈ m.entries.map Prod.fst
  · have hkeys : ∀ e : K × V, (e.1, v).1 = e.1 := fun _ => rfl
    rw [insertEntries, if_pos hmem, Rows.get_update hkeys]
    split_ifs with hk
    · obtain ⟨e, hin, rfl⟩ := List.mem_map.mp hmem
      obtain ⟨row, hrow, -⟩ := Option.map_eq_some_iff.mp (mem_entries.mp hin)
      rw [hk, hrow]
      rfl
    · rfl
  · have hnone : Rows.get Prod.fst m.entries k = none :=
      Rows.get_eq_none.mpr fun row hrow heq => hmem (List.mem_map.mpr ⟨row, hrow, heq⟩)
    rw [insertEntries, if_neg hmem, Rows.get_append_singleton]
    split_ifs with hkk hk hk
    · rw [← hkk, hnone]
      rfl
    · exact absurd hkk.symm hk
    · exact absurd hk.symm hkk
    · rw [Option.or_none, get]

/-- `HashMap::remove`. -/
def remove (m : HashMap K V) (k : K) : HashMap K V :=
  ⟨Rows.remove Prod.fst m.entries k, m.nodup.sublist (List.filter_sublist.map _)⟩

theorem get_remove (m : HashMap K V) (k k' : K) :
    (m.remove k).get k' = if k' = k then none else m.get k' := by
  have hentries : (m.remove k).entries = Rows.remove Prod.fst m.entries k := rfl
  rw [get, hentries, Rows.get_remove]
  split_ifs with h
  · rfl
  · rfl

/-- `HashMap::retain`. -/
def retain (m : HashMap K V) (keep : K → V → Bool) : HashMap K V :=
  ⟨m.entries.filter fun e => keep e.1 e.2, m.nodup.sublist (List.filter_sublist.map _)⟩

theorem get_retain (m : HashMap K V) (keep : K → V → Bool) (k : K) :
    (m.retain keep).get k = (m.get k).filter (keep k) := by
  refine Option.ext fun v => ?_
  rw [← mem_entries, retain, List.mem_filter, mem_entries, Option.filter_eq_some_iff]

/-- **Inserting what is there changes nothing.** -/
theorem insert_self {m : HashMap K V} {k : K} {v : V} (h : m.get k = some v) :
    m.insert k v = m := by
  have hmem := mem_entries.mpr h
  have hkeys : k ∈ m.entries.map Prod.fst := List.mem_map_of_mem hmem
  refine ext_entries ?_
  have hentries : (m.insert k v).entries = insertEntries m.entries k v := rfl
  rw [hentries, insertEntries, if_pos hkeys, Rows.update]
  refine (List.map_congr_left fun e he => ?_).trans (List.map_id _)
  by_cases hk : e.1 = k
  · have hv : some e.2 = some v := by
      rw [← h, ← hk]
      exact (mem_entries.mp he).symm
    rw [if_pos hk, ← Option.some.inj hv, id_eq]
  · rw [if_neg hk, id_eq]

end HashMap

end Machinery
