import Werrss.Machinery.Weight
import Werrss.Persistence.AssetRepository

/-!
# Persistence/AssetEviction — what one store does to the cache

    held(∉ deferred) ≤ total          total + additional ≤ max
          └── kept by every round of the loop ──┘   when it ends

Storing an input either reuses a blob or inserts one.  An insertion first runs the eviction loop,
whose invariants are all proved by one rule; the blob it then writes adds at most its own size.
-/

open Machinery

namespace Werrss

/-! ## The oldest row -/

namespace AssetBlobRow

/-- The order on rows, over the integers their instants are. -/
theorem older_iff (a b : AssetBlobRow) : a.older b = true ↔
    @LT.lt ℤ _ a.lastAccessedAt b.lastAccessedAt ∨
      (@Eq ℤ a.lastAccessedAt b.lastAccessedAt ∧ a.id.value ≤ b.id.value) := by
  simp [older]

theorem older_refl (a : AssetBlobRow) : a.older a = true := by
  simp [older]

theorem older_total {a b : AssetBlobRow} (h : ¬a.older b = true) : b.older a = true := by
  rw [older_iff] at *
  omega

theorem older_trans {a b c : AssetBlobRow} (hab : a.older b = true) (hbc : b.older c = true) :
    a.older c = true := by
  rw [older_iff] at *
  omega

theorem older_antisymm {a b : AssetBlobRow} (hab : a.older b = true) (hba : b.older a = true) :
    a.id = b.id := by
  rw [older_iff] at *
  have hvalue : a.id.value = b.id.value := by omega
  cases ha : a.id
  cases hb : b.id
  simp_all

theorem oldest_eq_none {rows : List AssetBlobRow} (h : oldest rows = none) : rows = [] := by
  cases rows with
  | nil => rfl
  | cons row rows =>
    rw [oldest] at h
    split at h
    · cases h
    · split at h <;> cases h

theorem oldest_spec {rows : List AssetBlobRow} {row : AssetBlobRow} (h : oldest rows = some row) :
    row ∈ rows ∧ ∀ other ∈ rows, row.older other = true := by
  induction rows generalizing row with
  | nil => cases h
  | cons first rows ih =>
    rw [oldest] at h
    split at h
    · rename_i hnone
      obtain rfl := Option.some.inj h
      rw [oldest_eq_none hnone]
      exact ⟨List.mem_cons_self, by simp [older_refl]⟩
    · rename_i other hother
      obtain ⟨hmem, hmin⟩ := ih hother
      split at h
      · rename_i holder
        obtain rfl := Option.some.inj h
        refine ⟨List.mem_cons_self, fun third hthird => ?_⟩
        rcases List.mem_cons.mp hthird with rfl | hthird
        · exact older_refl _
        · exact older_trans holder (hmin third hthird)
      · rename_i holder
        obtain rfl := Option.some.inj h
        refine ⟨List.mem_cons_of_mem first hmem, fun third hthird => ?_⟩
        rcases List.mem_cons.mp hthird with rfl | hthird
        · exact older_total holder
        · exact hmin third hthird

end AssetBlobRow

namespace AssetRepository

/-! ## Held bytes -/

/-- **The bytes held** by the rows whose id `p` selects. -/
def heldBytes (p : Uuid → Bool) (blobs : List AssetBlobRow) : ℕ :=
  weight (·.byteSize) (fun row => row.data.isSome && p row.id) blobs

/-- The two states agree on the blobs, the deletion queue and the mutation state. -/
structure SameCache (s t : AssetState) : Prop where
  blobs : t.tables.blobs = s.tables.blobs
  deletionQueue : t.tables.deletionQueue = s.tables.deletionQueue
  mutation : t.mutation = s.mutation

theorem SameCache.refl (s : AssetState) : SameCache s s := ⟨rfl, rfl, rfl⟩

theorem SameCache.trans {s t u : AssetState} (h : SameCache s t) (h' : SameCache t u) :
    SameCache s u :=
  ⟨h'.blobs.trans h.blobs, h'.deletionQueue.trans h.deletionQueue, h'.mutation.trans h.mutation⟩

theorem cachedByteSize_eq {t : AssetTables} {excluded : List Uuid} {n : ℕ}
    (h : t.cachedByteSize excluded = .ok n) : n = heldBytes (· ∉ excluded) t.blobs := by
  rw [AssetTables.cachedByteSize] at h
  split at h
  · exact (Except.ok.inj h).symm
  · cases h

/-! ## The eviction loop -/

/-- A round of the loop: the total exceeds the limit, and `row` is the oldest blob with bytes that is
neither protected nor deferred. -/
structure Round (limit : CacheLimit) (blobs : List AssetBlobRow) (total : ℤ) (deferred : List Uuid)
    (row : AssetBlobRow) : Prop where
  exceeds : (limit.maxBytes : ℤ) < total + limit.additionalBytes
  mem : row ∈ blobs
  present : row.data.isSome = true
  unprotected : row.id ∉ limit.protectedBlobIds
  undeferred : row.id ∉ deferred
  oldest : ∀ other ∈ blobs, other.data.isSome = true →
    other.id ∉ limit.protectedBlobIds ++ deferred → row.older other = true

theorem round_of_oldestStored {limit : CacheLimit} {t : AssetTables} {total : ℤ}
    {deferred : List Uuid} {row : AssetBlobRow}
    (hexceeds : ¬total + limit.additionalBytes ≤ limit.maxBytes)
    (h : t.oldestStored (limit.protectedBlobIds ++ deferred) = some row) :
    Round limit t.blobs total deferred row := by
  obtain ⟨hmem, hmin⟩ := AssetBlobRow.oldest_spec h
  simp only [List.mem_filter, Bool.and_eq_true, decide_eq_true_eq] at hmem hmin
  obtain ⟨hrow, hpresent, hfree⟩ := hmem
  rw [List.mem_append, not_or] at hfree
  exact ⟨not_le.mp hexceeds, hrow, hpresent, hfree.1, hfree.2,
    fun other hother hp hf => hmin other ⟨hother, hp, hf⟩⟩

/-- **The rule of the loop**: what every round keeps holds when it ends, with a total that fits. -/
theorem evictLoop_spec {limit : CacheLimit} {s : AssetState} {I : ℤ → List Uuid → Prop}
    (hround : ∀ total deferred row, I total deferred →
      Round limit s.tables.blobs total deferred row →
      I (saturatingSub total row.byteSize) (deferred ++ [row.id])) :
    ∀ (fuel : ℕ) (total : ℤ) (deferred : List Uuid) (evicted : ℕ), I total deferred →
      Tx.Triple (SameCache s) (evictLoop limit fuel total deferred evicted)
        (fun result t => SameCache s t ∧
          ∃ total, I total result.2 ∧ total + limit.additionalBytes ≤ limit.maxBytes)
        (SameCache s)
  | 0, total, deferred, evicted, hI => by
    rw [evictLoop]
    refine .ite (fun hfits => .pure fun t ht => ⟨ht, total, hI, hfits⟩) fun _ => .fail fun _ h => h
  | fuel + 1, total, deferred, evicted, hI => by
    rw [evictLoop]
    refine .ite (fun hfits => .pure fun t ht => ⟨ht, total, hI, hfits⟩) fun hexceeds => ?_
    refine .read_bind fun t ht => ?_
    split
    · exact .fail fun u hu => hu ▸ ht
    · rename_i row hrow
      have hr := round_of_oldestStored hexceeds hrow
      rw [ht.blobs] at hr
      refine .modify_bind (R := SameCache s)
        (evictLoop_spec hround fuel _ _ _ (hround total deferred row hI hr)) fun u hu => ?_
      rw [hu]
      exact ⟨ht.blobs, ht.deletionQueue, ht.mutation⟩

/-- The rows the loop may still evict. -/
def candidates (limit : CacheLimit) (deferred : List Uuid) (blobs : List AssetBlobRow) :
    List AssetBlobRow :=
  blobs.filter fun row => row.data.isSome && row.id ∉ limit.protectedBlobIds ++ deferred

/-- An evicted row is a candidate no more. -/
theorem length_candidates_lt {limit : CacheLimit} {deferred : List Uuid}
    {blobs : List AssetBlobRow} {row : AssetBlobRow} (h : row ∈ candidates limit deferred blobs) :
    (candidates limit (deferred ++ [row.id]) blobs).length <
      (candidates limit deferred blobs).length := by
  have hshrink : candidates limit (deferred ++ [row.id]) blobs
      = (candidates limit deferred blobs).filter (·.id ≠ row.id) := by
    rw [candidates, candidates, List.filter_filter]
    refine List.filter_congr fun other _ => ?_
    rw [Bool.eq_iff_iff]
    simp only [Bool.and_eq_true, decide_eq_true_eq, List.mem_append, List.mem_singleton, not_or]
    tauto
  rw [hshrink]
  exact List.length_filter_lt_length_iff_exists.mpr ⟨row, h, by simp⟩

/-- **More fuel than candidates changes nothing**: the loop of the source, which has none, computes
what `evictLoop` does. -/
theorem evictLoop_fuel (limit : CacheLimit) :
    ∀ (fuel : ℕ) (total : ℤ) (deferred : List Uuid) (evicted : ℕ) (s : AssetState),
      (candidates limit deferred s.tables.blobs).length ≤ fuel →
      evictLoop limit (fuel + 1) total deferred evicted s = evictLoop limit fuel total deferred evicted s
  | 0, total, deferred, evicted, s, h => by
    have hnone : s.tables.oldestStored (limit.protectedBlobIds ++ deferred) = none := by
      have hempty := List.length_eq_zero_iff.mp (Nat.le_zero.mp h)
      rw [AssetTables.oldestStored]
      exact congrArg AssetBlobRow.oldest hempty
    rw [evictLoop, evictLoop]
    by_cases hfits : total + limit.additionalBytes ≤ limit.maxBytes
    · rw [if_pos hfits, if_pos hfits]
    · rw [if_neg hfits, if_neg hfits]
      rw [Tx.read_bind_apply]
      rw [hnone]
  | fuel + 1, total, deferred, evicted, s, h => by
    rw [evictLoop, evictLoop]
    by_cases hfits : total + limit.additionalBytes ≤ limit.maxBytes
    · rw [if_pos hfits, if_pos hfits]
    · rw [if_neg hfits, if_neg hfits]
      rw [Tx.read_bind_apply, Tx.read_bind_apply]
      rcases hrow : s.tables.oldestStored (limit.protectedBlobIds ++ deferred) with _ | row
      · rfl
      · refine evictLoop_fuel limit fuel _ _ _ _ ?_
        obtain ⟨hmem, -⟩ := AssetBlobRow.oldest_spec hrow
        exact Nat.le_of_lt_succ (Nat.lt_of_lt_of_le (length_candidates_lt hmem) h)

/-- The limit is one the source enforces. -/
def CacheLimit.isEnforced (limit : CacheLimit) : Prop :=
  limit.maxBytes ≠ 0 ∧ limit.maxBytes ≤ i64Max

/-- **The rule of `enforce_cache_limit`.** -/
theorem enforceCacheLimit_spec {limit : CacheLimit} {s : AssetState} {I : ℤ → List Uuid → Prop}
    (hinit : limit.isEnforced → limit.additionalBytes ≤ limit.maxBytes →
      I (heldBytes (· ∉ limit.pendingBlobIds ++ limit.deferredEvictions) s.tables.blobs
        + limit.pendingBytes : ℕ) limit.deferredEvictions)
    (hround : ∀ total deferred row, I total deferred →
      Round limit s.tables.blobs total deferred row →
      I (saturatingSub total row.byteSize) (deferred ++ [row.id])) :
    Tx.Triple (· = s) (enforceCacheLimit limit)
      (fun result t => SameCache s t ∧
        ((¬limit.isEnforced ∧ result.2 = limit.deferredEvictions) ∨
          ∃ total, I total result.2 ∧ total + limit.additionalBytes ≤ limit.maxBytes))
      (SameCache s) := by
  have hsame : ∀ t, t = s → SameCache s t := fun t ht => ht ▸ SameCache.refl s
  rw [enforceCacheLimit]
  refine .ite (fun hoff => .pure fun t ht => ⟨hsame t ht, .inl ⟨fun hon => ?_, rfl⟩⟩) fun hon => ?_
  · exact hoff.elim hon.1 (not_lt.mpr hon.2)
  refine .ite (fun _ => .fail hsame) fun hsmall => ?_
  rw [not_or] at hon
  rw [not_or, not_or] at hsmall
  have hI := hinit ⟨hon.1, not_lt.mp hon.2⟩ (not_lt.mp hsmall.2.1)
  refine .read_bind fun t ht => .ofExcept_bind (fun u hu => hu ▸ hsame t ht) fun cached hcached => ?_
  subst ht
  refine .ite (fun _ => .fail hsame) fun _ => ?_
  rw [cachedByteSize_eq hcached]
  exact (evictLoop_spec hround _ _ _ 0 hI).mono hsame (fun r u h => ⟨h.1, .inr h.2⟩) fun _ h => h

/-- Enforcing the limit leaves the cache alone. -/
theorem enforceCacheLimit_run (limit : CacheLimit) (s : AssetState) :
    Tx.Triple (· = s) (enforceCacheLimit limit)
      (fun result t => enforceCacheLimit limit s = (.ok result, t) ∧ SameCache s t)
      (SameCache s) :=
  ((enforceCacheLimit_spec (I := fun _ _ => True) (fun _ _ => trivial)
    fun _ _ _ _ _ => trivial).self).mono (fun _ h => h) (fun _ _ h => ⟨h.1, h.2.1⟩) fun _ h => h

/-! ## What the loop defers -/

section Enforced

variable {limit : CacheLimit} {s t : AssetState} {evicted : ℕ} {deferred : List Uuid}

/-- What every round keeps holds of the answer. -/
theorem enforce_invariant {I : ℤ → List Uuid → Prop}
    (h : enforceCacheLimit limit s = (.ok (evicted, deferred), t))
    (hinit : limit.isEnforced → limit.additionalBytes ≤ limit.maxBytes →
      I (heldBytes (· ∉ limit.pendingBlobIds ++ limit.deferredEvictions) s.tables.blobs
        + limit.pendingBytes : ℕ) limit.deferredEvictions)
    (hround : ∀ total deferred row, I total deferred →
      Round limit s.tables.blobs total deferred row →
      I (saturatingSub total row.byteSize) (deferred ++ [row.id])) :
    (¬limit.isEnforced ∧ deferred = limit.deferredEvictions) ∨
      ∃ total, I total deferred ∧ total + limit.additionalBytes ≤ limit.maxBytes :=
  (((enforceCacheLimit_spec hinit hround) s rfl).1 _ t h).2

/-- The evictions come from `limit`, or are of unprotected blobs with bytes. -/
def Chosen (limit : CacheLimit) (blobs : List AssetBlobRow) (deferred : List Uuid) : Prop :=
  limit.deferredEvictions <+: deferred ∧
    ∀ id ∈ deferred, id ∈ limit.deferredEvictions ∨
      (id ∉ limit.protectedBlobIds ∧ id ∈ blobs.map AssetBlobRow.id)

/-- The loop only adds, and only unprotected blobs with bytes. -/
theorem chosen_of_enforce (h : enforceCacheLimit limit s = (.ok (evicted, deferred), t)) :
    Chosen limit s.tables.blobs deferred := by
  have hstart : Chosen limit s.tables.blobs limit.deferredEvictions :=
    ⟨List.prefix_refl _, fun id hid => .inl hid⟩
  have hround : ∀ (total : ℤ) (before : List Uuid) (row : AssetBlobRow),
      Chosen limit s.tables.blobs before → Round limit s.tables.blobs total before row →
      Chosen limit s.tables.blobs (before ++ [row.id]) := by
    intro total before row hI hround
    refine ⟨hI.1.trans (List.prefix_append _ _), fun id hid => ?_⟩
    rcases List.mem_append.mp hid with hbefore | hlast
    · exact hI.2 id hbefore
    · rw [List.mem_singleton.mp hlast]
      exact .inr ⟨hround.unprotected, List.mem_map_of_mem hround.mem⟩
  rcases enforce_invariant h (fun _ _ => hstart) hround with ⟨-, rfl⟩ | ⟨total, hI, -⟩
  · exact hstart
  · exact hI

/-- A round takes its row's size off what is held. -/
theorem Round.held_le {total : ℤ} {row : AssetBlobRow}
    (h : Round limit s.tables.blobs total deferred row) :
    heldBytes (· ∉ deferred ++ [row.id]) s.tables.blobs + row.byteSize
      ≤ heldBytes (· ∉ deferred) s.tables.blobs := by
  refine weight_add_le h.mem ?_ ?_ fun other _ hother => ?_
  · simp [h.present, h.undeferred]
  · simp
  · simp only [List.mem_append, Bool.and_eq_true, decide_eq_true_eq, not_or] at hother ⊢
    exact ⟨hother.1, hother.2.1⟩

/-- **What stays held, together with what is to come, fits.** -/
theorem held_of_enforce (hlimit : limit.isEnforced)
    (hpending : heldBytes (fun id => id ∈ limit.pendingBlobIds && id ∉ limit.deferredEvictions)
      s.tables.blobs ≤ limit.pendingBytes)
    (h : enforceCacheLimit limit s = (.ok (evicted, deferred), t)) :
    heldBytes (· ∉ deferred) s.tables.blobs + limit.additionalBytes ≤ limit.maxBytes := by
  -- the total starts above what is held: pending blobs are counted by `pending_bytes`
  have hcover : heldBytes (· ∉ limit.deferredEvictions) s.tables.blobs
      ≤ heldBytes (· ∉ limit.pendingBlobIds ++ limit.deferredEvictions) s.tables.blobs
        + heldBytes (fun id => id ∈ limit.pendingBlobIds && id ∉ limit.deferredEvictions)
          s.tables.blobs := by
    refine weight_le_add fun row _ hrow => ?_
    by_cases hmem : row.id ∈ limit.pendingBlobIds
    · exact .inr (by simpa [hmem] using hrow)
    · exact .inl (by simpa [hmem] using hrow)
  have hround : ∀ (total : ℤ) (before : List Uuid) (row : AssetBlobRow),
      (heldBytes (· ∉ before) s.tables.blobs : ℤ) ≤ total →
      Round limit s.tables.blobs total before row →
      (heldBytes (· ∉ before ++ [row.id]) s.tables.blobs : ℤ)
        ≤ saturatingSub total row.byteSize := by
    intro total before row hI hround
    have hdrop := hround.held_le
    have hsub : total - row.byteSize ≤ saturatingSub total row.byteSize := le_max_right _ _
    omega
  rcases enforce_invariant
      (I := fun total deferred => (heldBytes (· ∉ deferred) s.tables.blobs : ℤ) ≤ total) h
      (fun _ _ => by exact_mod_cast hcover.trans (Nat.add_le_add_left hpending _)) hround
    with ⟨hoff, -⟩ | ⟨total, hI, hfits⟩
  · exact absurd hlimit hoff
  · omega

end Enforced

/-! ## Writing a blob -/

/-- Rows with one id are one row. -/
theorem eq_of_id_eq {blobs : List AssetBlobRow} (hkeys : (blobs.map AssetBlobRow.id).Nodup)
    {a b : AssetBlobRow} (ha : a ∈ blobs) (hb : b ∈ blobs) (h : a.id = b.id) : a = b :=
  List.inj_on_of_nodup_map hkeys ha hb h

/-- **Writing a blob** leaves the rows of other ids alone, and this id has bytes of this size. -/
structure Puts (blobId : Uuid) (size : ℕ) (before after : List AssetBlobRow) : Prop where
  others : after.filter (·.id ≠ blobId) = before.filter (·.id ≠ blobId)
  ids : ∀ id ∈ after.map AssetBlobRow.id, id = blobId ∨ id ∈ before.map AssetBlobRow.id
  present : ∃ row ∈ after, row.id = blobId ∧ row.data.isSome = true
  keys : (before.map AssetBlobRow.id).Nodup → (after.map AssetBlobRow.id).Nodup
  sized : (before.map AssetBlobRow.id).Nodup → ∀ row ∈ after, row.id = blobId → row.byteSize = size

theorem findBlob_eq_some {t : AssetTables} {blobId : Uuid} {row : AssetBlobRow}
    (h : t.findBlob blobId = some row) : row ∈ t.blobs ∧ row.id = blobId :=
  ⟨List.mem_of_find?_eq_some h, by simpa using List.find?_some h⟩

/-- An update keeps ids. -/
theorem map_id_updateBlob (t : AssetTables) (blobId : Uuid) {f : AssetBlobRow → AssetBlobRow}
    (hf : ∀ row, (f row).id = row.id) :
    (t.updateBlob blobId f).blobs.map AssetBlobRow.id = t.blobs.map AssetBlobRow.id := by
  rw [AssetTables.updateBlob, List.map_map]
  refine List.map_congr_left fun row _ => ?_
  by_cases h : row.id = blobId
  · simp [h, hf]
  · simp [h]

theorem filter_updateBlob (t : AssetTables) (blobId : Uuid) {f : AssetBlobRow → AssetBlobRow}
    (hf : ∀ row, (f row).id = row.id) :
    (t.updateBlob blobId f).blobs.filter (·.id ≠ blobId) = t.blobs.filter (·.id ≠ blobId) := by
  rw [AssetTables.updateBlob]
  induction t.blobs with
  | nil => rfl
  | cons row rows ih =>
    by_cases h : row.id = blobId
    · simpa [h, hf] using ih
    · simpa [h] using ih

theorem blobPut_spec {t u : AssetTables} {blobId : Uuid} {blob : AssetBlob}
    {startedAt clock : DateTime} (h : t.blobPut blobId blob startedAt clock = .ok u) :
    Puts blobId blob.byteSize t.blobs u.blobs ∧ u.deletionQueue = t.deletionQueue := by
  rw [AssetTables.blobPut] at h
  split at h
  swap
  · cases h
  split at h
  · -- a new row
    rename_i hnone
    obtain rfl := Except.ok.inj h
    have hnew : blobId ∉ t.blobs.map AssetBlobRow.id := by
      intro hmem
      obtain ⟨row, hrow, hid⟩ := List.mem_map.mp hmem
      simpa [hid] using List.find?_eq_none.mp hnone row hrow
    refine ⟨⟨by simp, by simp [or_comm], ⟨_, List.mem_append_right _ (List.mem_singleton_self _),
      rfl, rfl⟩, fun hkeys => ?_, fun _ row hrow hid => ?_⟩, rfl⟩
    · rw [List.map_append, List.nodup_append]
      refine ⟨hkeys, by simp, fun a ha b hb => ?_⟩
      obtain rfl : b = blobId := by simpa using hb
      exact fun hab => hnew (hab ▸ ha)
    · rcases List.mem_append.mp hrow with hold | hlast
      · exact absurd (List.mem_map.mpr ⟨row, hold, hid⟩) hnew
      · obtain rfl := List.mem_singleton.mp hlast
        rfl
  · -- an old row, with the same immutable data
    rename_i row hfound
    obtain ⟨hrow, hid⟩ := findBlob_eq_some hfound
    split at h
    · cases h
    rename_i hsame
    simp only [not_or, not_not] at hsame
    have hsized : (t.blobs.map AssetBlobRow.id).Nodup → ∀ other ∈ t.blobs, other.id = blobId →
        other.byteSize = blob.byteSize := fun hkeys other hother hotherId =>
      (eq_of_id_eq hkeys hother hrow (hotherId.trans hid.symm)) ▸ hsame.2.2.1
    split at h
    · obtain rfl := Except.ok.inj h
      have hids : ∀ r : AssetBlobRow,
          ({ r with data := some blob.bytes, lastAccessedAt := clock } : AssetBlobRow).id = r.id :=
        fun _ => rfl
      refine ⟨⟨filter_updateBlob t blobId hids, fun id hmem => .inr ?_, ?_, fun hkeys => ?_,
        fun hkeys other hother hotherId => ?_⟩, rfl⟩
      · rwa [map_id_updateBlob t blobId hids] at hmem
      · refine ⟨{ row with data := some blob.bytes, lastAccessedAt := clock },
          List.mem_map.mpr ⟨row, hrow, by simp [hid]⟩, hid, rfl⟩
      · rwa [map_id_updateBlob t blobId hids]
      · obtain ⟨old, hold, rfl⟩ := List.mem_map.mp hother
        by_cases hkey : old.id = blobId
        · simpa [hkey] using hsized hkeys old hold hkey
        · simp [hkey] at hotherId
    · rename_i hdata
      obtain rfl := Except.ok.inj h
      exact ⟨⟨rfl, fun id hmem => .inr hmem, ⟨row, hrow, hid, Option.isSome_iff_ne_none.mpr
        (by simpa using hdata)⟩, id, hsized⟩, rfl⟩

/-- **Writing a blob adds at most its size.** -/
theorem Puts.held_le {blobId : Uuid} {size : ℕ} {before after : List AssetBlobRow}
    (h : Puts blobId size before after) (hkeys : (before.map AssetBlobRow.id).Nodup)
    {p q : Uuid → Bool} (hpq : ∀ id, id ≠ blobId → p id = true → q id = true) :
    heldBytes p after ≤ heldBytes q before + size := by
  have hrest : weight (·.byteSize) (fun row => (row.data.isSome && p row.id) && row.id ≠ blobId)
      after ≤ heldBytes q before := by
    rw [← weight_filter, h.others, weight_filter]
    refine weight_mono fun row _ hrow => ?_
    simp only [Bool.and_eq_true, decide_eq_true_eq] at hrow ⊢
    exact ⟨hrow.1.1, hpq row.id hrow.2 hrow.1.2⟩
  have hhere : weight (·.byteSize) (fun row => decide (row.id = blobId)) after ≤ size :=
    weight_le_of_key (h.keys hkeys) fun row hrow hid =>
      ⟨of_decide_eq_true hid, (h.sized hkeys row hrow (of_decide_eq_true hid)).le⟩
  refine (weight_le_add fun row _ hrow => ?_).trans (Nat.add_le_add hrest hhere)
  by_cases hid : row.id = blobId
  · exact .inr (by simpa using hid)
  · exact .inl (by simpa [hid] using hrow)

/-! ## Storing an input -/

/-- What a program that failed may have added to the mutation state: blobs it wrote under new ids,
and deferred evictions. -/
structure Extends (newIds : List Uuid) (s t : AssetState) : Prop where
  newlyWritten : ∃ ids, t.mutation.newlyWritten = s.mutation.newlyWritten ++ ids ∧
    ∀ id ∈ ids, id ∈ newIds
  deferred : s.mutation.deferredEvictions <+: t.mutation.deferredEvictions

theorem SameCache.extends {newIds : List Uuid} {s t : AssetState} (h : SameCache s t) :
    Extends newIds s t := by
  refine ⟨⟨[], ?_, nofun⟩, ?_⟩
  · rw [h.mutation, List.append_nil]
  · exact h.mutation ▸ List.prefix_refl _

theorem Extends.of_eq {newIds : List Uuid} {s t : AssetState} (h : t = s) : Extends newIds s t :=
  SameCache.extends (h ▸ SameCache.refl t)

theorem Extends.trans {newIds : List Uuid} {s t u : AssetState} (h : Extends newIds s t)
    (h' : Extends newIds t u) : Extends newIds s u := by
  obtain ⟨⟨ids, hids, hnew⟩, hdeferred⟩ := h
  obtain ⟨⟨ids', hids', hnew'⟩, hdeferred'⟩ := h'
  refine ⟨⟨ids ++ ids', ?_, fun id hid => ?_⟩, hdeferred.trans hdeferred'⟩
  · rw [hids', hids, List.append_assoc]
  · exact (List.mem_append.mp hid).elim (hnew id) (hnew' id)

/-- **An insertion**: the limit was enforced, and the blob written under its new id. -/
structure Inserts (policy : AssetCachePolicy) (protectedBlobIds : List Uuid) (blobId : Uuid)
    (size : ℕ) (s t : AssetState) : Prop where
  enforced : ∃ evicted u, enforceCacheLimit (insertLimit policy s.mutation size protectedBlobIds) s
    = (.ok (evicted, t.mutation.deferredEvictions), u)
  newlyWritten : t.mutation.newlyWritten = s.mutation.newlyWritten ++ [blobId]
  pendingBytes : t.mutation.pendingBytes = s.mutation.pendingBytes + size
  puts : Puts blobId size s.tables.blobs t.tables.blobs
  deletionQueue : t.tables.deletionQueue = s.tables.deletionQueue

/-- An insertion looks at the cache only. -/
theorem Inserts.sameCache {policy : AssetCachePolicy} {protectedBlobIds : List Uuid} {blobId : Uuid}
    {size : ℕ} {s t u : AssetState} (h : Inserts policy protectedBlobIds blobId size s t)
    (hsame : SameCache t u) : Inserts policy protectedBlobIds blobId size s u := by
  obtain ⟨henforced, hnewly, hpending, hputs, hqueue⟩ := h
  refine ⟨?_, ?_, ?_, ?_, ?_⟩
  · rwa [hsame.mutation]
  · rwa [hsame.mutation]
  · rwa [hsame.mutation]
  · rwa [hsame.blobs]
  · rwa [hsame.deletionQueue]

theorem eq_ok_of_ofBlobStore {A : Type} {x : Except AssetBlobStoreError A} {a : A}
    (h : AssetRepositoryError.ofBlobStore x = .ok a) : x = .ok a := by
  cases x with
  | error e => cases h
  | ok b => exact congrArg _ (Except.ok.inj h)

/-- A blob that an input may share: its row has bytes and is not queued for deletion. -/
structure Usable (tables : AssetTables) (blobId : Uuid) : Prop where
  present : ∃ row ∈ tables.blobs, row.id = blobId ∧ row.data.isSome = true
  unqueued : blobId ∉ tables.deletionQueue

/-- Looking for a usable blob changes nothing. -/
theorem usableBlob_spec (blobId : Uuid) (checksum : String) (byteSize : ℕ) (s : AssetState) :
    Tx.Triple (· = s) (usableBlob blobId checksum byteSize)
      (fun found t => t = s ∧ (found.isSome → Usable s.tables blobId)) (· = s) := by
  refine .read_bind fun t ht => .ite (fun hc => ?_) fun _ => .pure fun u hu => ⟨hu.trans ht, nofun⟩
  subst ht
  refine .ofExcept_bind (fun u hu => hu) fun metadata hstat => .pure fun u hu => ⟨hu, fun hsome => ?_⟩
  refine ⟨?_, hc.2⟩
  have hstat' := eq_ok_of_ofBlobStore hstat
  rw [AssetTables.blobStat] at hstat'
  split at hstat'
  · obtain rfl := Except.ok.inj hstat'
    cases hsome
  · rename_i row hrow
    obtain ⟨hmem, hid⟩ := findBlob_eq_some hrow
    refine ⟨row, hmem, hid, ?_⟩
    rw [AssetBlobMetadata.new] at hstat'
    split at hstat'
    · cases hstat'
    · obtain rfl := Except.ok.inj hstat'
      simp only [Option.filter] at hsome
      split at hsome
      · rename_i hkeep
        simp only [Bool.and_eq_true] at hkeep
        exact hkeep.1.1
      · cases hsome

section Insert

variable {Url : Type} [Sha2Crate]

/-- The blob that an input's body is read from: `AssetBlob::new` keeps its bytes. -/
theorem byteSize_of_new {bytes : List UInt8} {mediaType checksum : String} {blob : AssetBlob}
    (h : AssetRepositoryError.ofBlobStore (AssetBlob.new bytes mediaType checksum) = .ok blob) :
    blob.byteSize = bytes.length := by
  rw [AssetBlob.new] at h
  split at h
  · cases h
  · split at h
    · cases h
    · obtain rfl := Except.ok.inj h
      rfl

theorem insertBlob_spec (context : AssetWriteContext) (supply : AssetSupply)
    (input : AssetInput Url) (protectedBlobIds newIds : List Uuid) (hnew : supply.blobId ∈ newIds)
    (s : AssetState) :
    Tx.Triple (· = s)
      (insertBlob context supply input input.bytes.length protectedBlobIds)
      (fun result t => result.1 = supply.blobId ∧
        Inserts context.policy protectedBlobIds supply.blobId input.bytes.length s t)
      (Extends newIds s) := by
  refine .read_bind fun before hbefore => ?_
  subst hbefore
  refine .bind ((enforceCacheLimit_run _ before).mono (fun _ h => h) (fun _ _ h => h)
    fun _ h => h.extends) fun evicted => ?_
  refine .each fun t ⟨henforced, hsame⟩ => ?_
  have hdeferred := (chosen_of_enforce henforced).1
  refine .modify_bind (R := fun u => u.tables = t.tables ∧
    u.mutation = { before.mutation with deferredEvictions := evicted.2 }) ?_ ?_
  swap
  · rintro u rfl
    exact ⟨rfl, by rw [hsame.mutation]⟩
  refine .ofExcept_bind (fun u hu => ?_) fun blob hblob => .read_bind fun u hu => ?_
  · exact ⟨⟨[], by simp [hu.2], nofun⟩, by rw [hu.2]; exact hdeferred⟩
  obtain ⟨htables, hmutation⟩ := hu
  refine .ofExcept_bind (fun v hv => ?_) fun tables hput => ?_
  · subst hv
    exact ⟨⟨[], by simp [hmutation], nofun⟩, by rw [hmutation]; exact hdeferred⟩
  obtain ⟨hputs, hqueue⟩ := blobPut_spec (eq_ok_of_ofBlobStore hput)
  rw [byteSize_of_new hblob, htables, hsame.blobs] at hputs
  rw [htables, hsame.deletionQueue] at hqueue
  refine .modify_bind (R := fun v => v.tables = tables ∧ v.mutation =
    { before.mutation with
      newlyWritten := before.mutation.newlyWritten ++ [supply.blobId]
      deferredEvictions := evicted.2 }) ?_ ?_
  swap
  · rintro v rfl
    exact ⟨rfl, by rw [hmutation]⟩
  refine .ite (fun _ => ?_) fun _ => .fail fun v hv => ?_
  · refine .modify_bind (R := fun v => Inserts context.policy protectedBlobIds supply.blobId
      input.bytes.length before v) (.pure fun v hv => ⟨rfl, hv⟩) fun v hv => ?_
    refine ⟨⟨evicted.1, t, ?_⟩, ?_, ?_, ?_, ?_⟩
    · simpa [hv.2] using henforced
    · simp [hv.2]
    · simp [byteSize_of_new hblob]
    · rwa [hv.1]
    · rwa [hv.1]
  · refine ⟨⟨[supply.blobId], by simp [hv.2], by simpa using hnew⟩, ?_⟩
    rw [hv.2]
    exact hdeferred

end Insert

section Stores

variable {Url : Type}

/-- A match of this batch. -/
def batchMatch (preparation : AssetBatchPreparation) (input : AssetInput Url)
    (batchBlobs : List (Uuid × Uuid)) : Option Uuid :=
  (preparation.matchingInput input).bind (List.lookup · batchBlobs)

/-- No blob that was matched for the input can be shared. -/
def NeedsBlob (preparation : AssetBatchPreparation) (input : AssetInput Url)
    (batchBlobs : List (Uuid × Uuid)) (s : AssetState) : Prop :=
  ∀ prepared blobId, preparation.matchingBlob input = .ok prepared →
    (batchMatch preparation input batchBlobs).or prepared = some blobId →
    (usableBlob blobId input.checksum input.bytes.length s).1 = .ok none

/-- **What storing one input does to the cache.**  A reused blob was matched by the preparation or in
the batch; an insertion means that there was no such blob. -/
inductive Stores (policy : AssetCachePolicy) (preparation : AssetBatchPreparation)
    (supply : AssetSupply) (input : AssetInput Url) (protectedBlobIds : List Uuid)
    (batchBlobs : List (Uuid × Uuid)) (s t : AssetState) : Uuid → Prop
  | reuse {blobId : Uuid}
      (matched : preparation.matchingBlob input = .ok (some blobId) ∨
        batchMatch preparation input batchBlobs = some blobId)
      (usable : Usable s.tables blobId)
      (blobs : t.tables.blobs = (s.tables.touchBlob blobId supply.clock).blobs)
      (deletionQueue : t.tables.deletionQueue = s.tables.deletionQueue)
      (mutation : t.mutation = s.mutation) :
      Stores policy preparation supply input protectedBlobIds batchBlobs s t blobId
  | insert (needed : NeedsBlob preparation input batchBlobs s)
      (inserts : Inserts policy protectedBlobIds supply.blobId input.bytes.length s t) :
      Stores policy preparation supply input protectedBlobIds batchBlobs s t supply.blobId

variable {policy : AssetCachePolicy} {preparation : AssetBatchPreparation} {supply : AssetSupply}
  {input : AssetInput Url} {protectedBlobIds : List Uuid} {batchBlobs : List (Uuid × Uuid)}
  {s t u : AssetState} {blobId : Uuid}

theorem Stores.sameCache
    (h : Stores policy preparation supply input protectedBlobIds batchBlobs s t blobId)
    (hsame : SameCache t u) :
    Stores policy preparation supply input protectedBlobIds batchBlobs s u blobId := by
  cases h with
  | reuse matched usable blobs deletionQueue mutation =>
    exact .reuse matched usable (hsame.blobs.trans blobs) (hsame.deletionQueue.trans deletionQueue)
      (hsame.mutation.trans mutation)
  | insert needed inserts => exact .insert needed (inserts.sameCache hsame)

theorem Stores.extends
    (h : Stores policy preparation supply input protectedBlobIds batchBlobs s t blobId)
    {newIds : List Uuid} (hnew : supply.blobId ∈ newIds) : Extends newIds s t := by
  cases h with
  | reuse matched usable blobs deletionQueue mutation =>
    refine ⟨⟨[], by simp [mutation], nofun⟩, ?_⟩
    exact mutation ▸ List.prefix_refl _
  | insert needed inserts =>
    obtain ⟨evicted, u, henforced⟩ := inserts.enforced
    exact ⟨⟨[supply.blobId], inserts.newlyWritten, by simpa using hnew⟩,
      (chosen_of_enforce henforced).1⟩

/-- The same-URL path reuses a blob of the preparation, or does nothing. -/
theorem reuseCurrent_spec [UrlCrate Url] (policy : AssetCachePolicy) (protectedBlobIds : List Uuid)
    (batchBlobs : List (Uuid × Uuid)) (sourceUrl finalUrl : Url) (byteSize : ℕ)
    (current : Option AssetRecordRow) (s : AssetState) :
    Tx.Triple (· = s)
      (reuseCurrent preparation supply input sourceUrl finalUrl byteSize current)
      (fun found t => match found with
        | none => t = s
        | some asset =>
          Stores policy preparation supply input protectedBlobIds batchBlobs s t asset.blobId)
      (· = s) := by
  rw [reuseCurrent.eq_def]
  cases current with
  | none => exact .pure fun _ h => h
  | some record =>
    refine .read_bind fun t ht => .ofExcept_bind (fun u hu => hu.trans ht) fun prepared hprepared => ?_
    subst ht
    refine .ite (fun hc => ?_) fun _ => .pure fun _ h => h
    rcases hblob : record.blobId with _ | blobId
    · exact .fail fun _ h => h
    refine .bind (usableBlob_spec blobId input.checksum byteSize t) fun found => ?_
    refine .each fun v ⟨hv, husable⟩ => ?_
    subst hv
    cases found with
    | none => exact .pure fun _ h => h
    | some metadata =>
      refine .modify_bind (.pure fun w hw => hw) fun w hw => ?_
      subst hw
      refine .reuse (.inl ?_) (husable rfl) rfl rfl rfl
      rw [hprepared, hc.1, hblob]

theorem inputByteSize_eq [UrlCrate Url] {n : ℕ} (h : inputByteSize input = .ok n) :
    n = input.bytes.length := by
  rw [inputByteSize] at h
  split at h
  · exact (Except.ok.inj h).symm
  · cases h

variable [Sha2Crate]

/-- A new record takes a matched blob, or a new one. -/
theorem placeBlob_spec (context : AssetWriteContext) (newIds : List Uuid)
    (hnew : supply.blobId ∈ newIds) (s : AssetState) :
    Tx.Triple (· = s)
      (placeBlob context preparation supply input input.bytes.length protectedBlobIds batchBlobs)
      (fun result t =>
        Stores context.policy preparation supply input protectedBlobIds batchBlobs s t result.1)
      (Extends newIds s) := by
  have hself : ∀ t, t = s → Extends newIds s t := fun t => Extends.of_eq
  have hinsert (hneeded : NeedsBlob preparation input batchBlobs s) :
      Tx.Triple (· = s) (insertBlob context supply input input.bytes.length protectedBlobIds)
        (fun result t =>
          Stores context.policy preparation supply input protectedBlobIds batchBlobs s t result.1)
        (Extends newIds s) := by
    refine (insertBlob_spec context supply input protectedBlobIds newIds hnew s).mono
      (fun _ h => h) (fun result t h => ?_) fun _ h => h
    rw [h.1]
    exact .insert hneeded h.2
  refine .ofExcept_bind hself fun prepared hprepared => ?_
  split
  · rename_i hnone
    refine hinsert fun other blobId hother hmatch => ?_
    rw [hprepared] at hother
    obtain rfl := Except.ok.inj hother
    exact absurd (hnone.symm.trans hmatch) nofun
  · rename_i blobId hmatch
    refine .bind ((usableBlob_spec blobId input.checksum input.bytes.length s).self.mono (fun _ h => h)
      (fun _ _ h => h) hself) fun found => .each fun t ⟨hrun, ht, husable⟩ => ?_
    subst ht
    cases found with
    | none =>
      refine hinsert fun other blobId' hother hmatch' => ?_
      rw [hprepared] at hother
      obtain rfl := Except.ok.inj hother
      obtain rfl : blobId = blobId' := Option.some.inj (hmatch.symm.trans hmatch')
      rw [hrun]
    | some metadata =>
      refine .modify_bind (.pure fun u hu => hu) fun u hu => ?_
      subst hu
      refine .reuse ?_ (husable rfl) rfl rfl rfl
      rcases hbatch : batchMatch preparation input batchBlobs with _ | other
      · refine .inl (hprepared.trans ?_)
        rw [batchMatch] at hbatch
        rw [hbatch] at hmatch
        exact congrArg _ hmatch
      · rw [batchMatch] at hbatch
        rw [hbatch] at hmatch
        exact .inr hmatch

theorem storeOne_spec [UrlCrate Url] {context : AssetWriteContext}
    (hcontext : context.preparation = some preparation) (newIds : List Uuid)
    (hnew : supply.blobId ∈ newIds) (s : AssetState) :
    Tx.Triple (· = s) (storeOne context supply input protectedBlobIds batchBlobs)
      (fun asset t =>
        Stores context.policy preparation supply input protectedBlobIds batchBlobs s t asset.blobId)
      (Extends newIds s) := by
  have hself : ∀ t, t = s → Extends newIds s t := fun t => Extends.of_eq
  rw [storeOne, hcontext]
  refine .ofExcept_bind hself fun sourceUrl _ => .ofExcept_bind hself fun finalUrl _ =>
    .ofExcept_bind hself fun byteSize hsize => .read_bind fun t ht => ?_
  subst ht
  refine .bind ((reuseCurrent_spec context.policy protectedBlobIds batchBlobs sourceUrl finalUrl
    byteSize _ t).mono (fun _ h => h) (fun _ _ h => h) hself) fun found => ?_
  cases found with
  | some asset => exact .pure fun u hu => hu
  | none =>
    rw [inputByteSize_eq hsize]
    refine .bind (placeBlob_spec context newIds hnew t) fun placed => ?_
    refine .ite (fun _ => ?_) fun _ => .fail fun u hu => ?_
    · exact .modify_bind (.pure fun u hu => hu) fun u hu => hu.sameCache ⟨rfl, rfl, rfl⟩
    · exact hu.extends hnew

/-- **One round of the batch loop.** -/
theorem storeInput_spec [UrlCrate Url] {context : AssetWriteContext}
    (hcontext : context.preparation = some preparation) (sourceId : Uuid) (reviewId : String)
    {newIds : List Uuid} (hnew : supply.blobId ∈ newIds) (s : AssetState) :
    Tx.Triple (· = s)
      (storeInput context sourceId reviewId supply input protectedBlobIds batchBlobs)
      (fun asset t =>
        Stores context.policy preparation supply input protectedBlobIds batchBlobs s t asset.blobId)
      (Extends newIds s) := by
  refine .ofExcept_bind (fun t => Extends.of_eq) fun _ _ =>
    .bind (storeOne_spec hcontext newIds hnew s) fun asset => .bind ?_ fun _ => .pure fun _ h => h
  rw [attach]
  refine .ite (fun _ => ?_) fun _ => .fail fun u hu => hu.extends hnew
  intro t ht
  refine ⟨fun _ u hu => ?_, nofun⟩
  obtain ⟨-, rfl⟩ := Prod.mk.inj hu
  exact ht.sameCache ⟨rfl, rfl, rfl⟩

end Stores

end AssetRepository

end Werrss
