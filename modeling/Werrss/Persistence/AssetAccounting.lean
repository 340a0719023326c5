import Werrss.Persistence.AssetCap

/-!
# Persistence/AssetAccounting — the running total of a unit of work

    present, not deferred  =  cached (∉ written ++ deferred)  +  pending bytes  -  fresh victims
                                       └──────── running total ────────┘

The total is rebuilt on each call from the stored sizes and a counter of what the unit of work has
written.  A blob of an earlier batch may be deferred by a later one, and **the counter never forgets
it**: the total is exact exactly while no blob with bytes is both written and deferred.
-/

open Machinery

namespace Werrss

namespace AssetRepository

/-! ## What a call counts, and what it should -/

/-- The running total that `enforce_cache_limit` starts from. -/
def runningTotal (limit : CacheLimit) (blobs : List AssetBlobRow) : ℕ :=
  heldBytes (· ∉ limit.pendingBlobIds ++ limit.deferredEvictions) blobs + limit.pendingBytes

/-- The blobs that are present and will stay. -/
def trueTotal (limit : CacheLimit) (blobs : List AssetBlobRow) : ℕ :=
  heldBytes (· ∉ limit.deferredEvictions) blobs

/-- The bytes of blobs that this unit of work wrote and then deferred. -/
def freshVictims (limit : CacheLimit) (blobs : List AssetBlobRow) : ℕ :=
  heldBytes (fun id => id ∈ limit.pendingBlobIds && id ∈ limit.deferredEvictions) blobs

/-- **Victims in the order of their last access**, each chosen while the limit was still exceeded. -/
def Evicts (limit : CacheLimit) (blobs victims : List AssetBlobRow) : Prop :=
  ∀ before row after, victims = before ++ row :: after →
    Round limit blobs
      (heldBytes (· ∉ limit.deferredEvictions ++ before.map AssetBlobRow.id) blobs)
      (limit.deferredEvictions ++ before.map AssetBlobRow.id) row

/-- **Exact accounting** of one call: the total is what is present and will stay; with the new body
that fits afterwards; the victims are the oldest ones, as many as it takes; and the call is refused
only if the new body and the protected blobs do not fit.  A maximum of zero or past `i64` is no
limit. -/
structure ExactAccounting (limit : CacheLimit) (s : AssetState) : Prop where
  total : limit.isEnforced → limit.additionalBytes ≤ limit.maxBytes →
    runningTotal limit s.tables.blobs = trueTotal limit s.tables.blobs
  fits : ∀ evicted deferred t, limit.isEnforced →
    enforceCacheLimit limit s = (.ok (evicted, deferred), t) →
      heldBytes (· ∉ deferred) s.tables.blobs + limit.additionalBytes ≤ limit.maxBytes
  chosen : ∀ evicted deferred t, enforceCacheLimit limit s = (.ok (evicted, deferred), t) →
    ∃ victims, deferred = limit.deferredEvictions ++ victims.map AssetBlobRow.id ∧
      Evicts limit s.tables.blobs victims
  refused : ∀ requested max t,
    enforceCacheLimit limit s = (.error (.capacityExceeded requested max), t) →
      limit.maxBytes <
        heldBytes (· ∈ limit.protectedBlobIds) s.tables.blobs + limit.additionalBytes

/-- **The condition**: an enforced limit that may admit the body meets no fresh victims. -/
def CountsExactly (limit : CacheLimit) (blobs : List AssetBlobRow) : Prop :=
  limit.isEnforced → limit.additionalBytes ≤ limit.maxBytes → freshVictims limit blobs = 0

/-! ## The loop under an exact total -/

section Loop

variable {limit : CacheLimit} {blobs : List AssetBlobRow}

theorem Evicts.nil : Evicts limit blobs [] := fun before row after h =>
  absurd h (by simp)

theorem Evicts.concat {victims : List AssetBlobRow} {row : AssetBlobRow}
    (h : Evicts limit blobs victims)
    (hrow : Round limit blobs
      (heldBytes (· ∉ limit.deferredEvictions ++ victims.map AssetBlobRow.id) blobs)
      (limit.deferredEvictions ++ victims.map AssetBlobRow.id) row) :
    Evicts limit blobs (victims ++ [row]) := by
  intro before other after hsplit
  rcases List.eq_nil_or_concat after with rfl | ⟨after', last, rfl⟩
  · obtain ⟨rfl, hlast⟩ := List.append_inj' hsplit rfl
    obtain rfl : row = other := (List.cons.inj hlast).1
    exact hrow
  · rw [List.concat_eq_append, ← List.cons_append, ← List.append_assoc] at hsplit
    obtain ⟨hfront, -⟩ := List.append_inj' hsplit rfl
    exact h before other after' hfront

/-- What the loop keeps: the total is exact, and the victims are the oldest. -/
def Exact (limit : CacheLimit) (blobs : List AssetBlobRow) (total : ℤ) (deferred : List Uuid) :
    Prop :=
  total = heldBytes (· ∉ deferred) blobs ∧
    ∃ victims, deferred = limit.deferredEvictions ++ victims.map AssetBlobRow.id ∧
      Evicts limit blobs victims

/-- Taking a victim off leaves exactly the rest. -/
theorem Round.held_eq {total : ℤ} {deferred : List Uuid} {row : AssetBlobRow}
    (hkeys : (blobs.map AssetBlobRow.id).Nodup) (h : Round limit blobs total deferred row) :
    heldBytes (· ∉ deferred ++ [row.id]) blobs + row.byteSize = heldBytes (· ∉ deferred) blobs := by
  have hsplit := weight_split (·.byteSize)
    (fun other : AssetBlobRow => other.data.isSome && decide (other.id ∉ deferred))
    (fun other => decide (other.id = row.id)) blobs
  have hrow : weight (·.byteSize) (fun other : AssetBlobRow =>
      (other.data.isSome && decide (other.id ∉ deferred)) && decide (other.id = row.id)) blobs =
      row.byteSize := by
    refine weight_of_key (w := AssetBlobRow.byteSize) hkeys h.mem fun other hother => ?_
    simp only [Bool.and_eq_true, decide_eq_true_eq]
    refine ⟨fun hboth => hboth.2, fun hid => ⟨?_, hid⟩⟩
    rw [eq_of_id_eq hkeys hother h.mem hid]
    exact ⟨h.present, h.undeferred⟩
  have hrest : weight (·.byteSize) (fun other : AssetBlobRow =>
      (other.data.isSome && decide (other.id ∉ deferred)) && !decide (other.id = row.id)) blobs =
      heldBytes (· ∉ deferred ++ [row.id]) blobs := by
    refine weight_congr fun other _ => ?_
    rw [Bool.eq_iff_iff]
    simp only [List.mem_append, List.mem_singleton, Bool.and_eq_true, decide_eq_true_eq,
      Bool.not_eq_true', decide_eq_false_iff_not, not_or]
    tauto
  rw [hrow, hrest] at hsplit
  exact (Nat.add_comm _ _).trans hsplit

/-- **A round keeps the total exact.** -/
theorem Exact.round {total : ℤ} {deferred : List Uuid} {row : AssetBlobRow}
    (hkeys : (blobs.map AssetBlobRow.id).Nodup) (h : Exact limit blobs total deferred)
    (hround : Round limit blobs total deferred row) :
    Exact limit blobs (saturatingSub total row.byteSize) (deferred ++ [row.id]) := by
  obtain ⟨htotal, victims, rfl, hvictims⟩ := h
  have hheld := hround.held_eq hkeys
  refine ⟨?_, victims ++ [row], ?_, hvictims.concat (htotal ▸ hround)⟩
  · have hleft : total - row.byteSize =
        heldBytes (· ∉ (limit.deferredEvictions ++ victims.map AssetBlobRow.id) ++ [row.id])
          blobs := by
      rw [htotal, ← hheld]
      push_cast
      exact add_sub_cancel_right _ _
    rw [saturatingSub, hleft]
    exact max_eq_right ((by decide : (-9223372036854775808 : ℤ) ≤ 0).trans (Int.natCast_nonneg _))
  · rw [List.map_append, List.map_singleton, List.append_assoc]

/-- **A loop that gives up** has nothing left that it may evict. -/
theorem evictLoop_error {I : ℤ → List Uuid → Prop} (hround : ∀ total deferred row,
      I total deferred → Round limit blobs total deferred row →
      I (saturatingSub total row.byteSize) (deferred ++ [row.id])) :
    ∀ (fuel : ℕ) (total : ℤ) (deferred : List Uuid) (evicted : ℕ) (s : AssetState)
      {e : AssetRepositoryError} {t : AssetState}, s.tables.blobs = blobs → I total deferred →
      (candidates limit deferred blobs).length ≤ fuel →
      evictLoop limit fuel total deferred evicted s = (.error e, t) →
      ∃ total deferred, I total deferred ∧ (limit.maxBytes : ℤ) < total + limit.additionalBytes ∧
        candidates limit deferred blobs = []
  | 0, total, deferred, evicted, s, e, t, hblobs, hI, hfuel, h => by
    rw [evictLoop] at h
    by_cases hfits : total + limit.additionalBytes ≤ limit.maxBytes
    · rw [if_pos hfits] at h
      cases (Prod.mk.inj h).1
    · exact ⟨total, deferred, hI, not_le.mp hfits,
        List.length_eq_zero_iff.mp (Nat.le_zero.mp hfuel)⟩
  | fuel + 1, total, deferred, evicted, s, e, t, hblobs, hI, hfuel, h => by
    rw [evictLoop] at h
    by_cases hfits : total + limit.additionalBytes ≤ limit.maxBytes
    · rw [if_pos hfits] at h
      cases (Prod.mk.inj h).1
    · rw [if_neg hfits] at h
      rw [Tx.read_bind_apply] at h
      rcases hrow : s.tables.oldestStored (limit.protectedBlobIds ++ deferred) with _ | row
      · refine ⟨total, deferred, hI, not_le.mp hfits, ?_⟩
        rw [← hblobs]
        exact AssetBlobRow.oldest_eq_none hrow
      · rw [hrow] at h
        have hr := round_of_oldestStored hfits hrow
        rw [hblobs] at hr
        obtain ⟨hmem, -⟩ := AssetBlobRow.oldest_spec hrow
        rw [hblobs] at hmem
        refine evictLoop_error hround fuel _ _ (evicted + 1)
          ⟨s.tables.markMissing [row.id] "asset bytes evicted by size policy", s.mutation⟩ hblobs
          (hround total deferred row hI hr) ?_ h
        exact Nat.le_of_lt_succ (Nat.lt_of_lt_of_le (length_candidates_lt hmem) hfuel)

theorem cachedByteSize_error {t : AssetTables} {excluded : List Uuid} {e : AssetRepositoryError}
    (h : t.cachedByteSize excluded = .error e) : e = .storage "bigint out of range" := by
  rw [AssetTables.cachedByteSize] at h
  split at h
  · cases h
  · exact (Except.error.inj h).symm

theorem cachedByteSize_le {t : AssetTables} {excluded : List Uuid} {n : ℕ}
    (h : t.cachedByteSize excluded = .ok n) : n ≤ i64Max := by
  rw [AssetTables.cachedByteSize] at h
  split at h
  · rename_i hle
    exact Except.ok.inj h ▸ hle
  · cases h

/-- **How a call is refused** for want of room: the body or the counter is too big, the total is out
of range, or the loop gives up. -/
theorem enforceCacheLimit_refused {s t : AssetState} {requested max : ℕ}
    (h : enforceCacheLimit limit s = (.error (.capacityExceeded requested max), t)) :
    limit.isEnforced ∧ (limit.maxBytes < limit.additionalBytes ∨ i64Max < limit.pendingBytes ∨
      ∃ cached, s.tables.cachedByteSize (limit.pendingBlobIds ++ limit.deferredEvictions)
          = .ok cached ∧
        (i64Max < cached + limit.pendingBytes ∨
          evictLoop limit s.tables.blobs.length (cached + limit.pendingBytes : ℕ)
            limit.deferredEvictions 0 s = (.error (.capacityExceeded requested max), t))) := by
  rw [enforceCacheLimit] at h
  by_cases hoff : limit.maxBytes = 0 ∨ i64Max < limit.maxBytes
  · rw [if_pos hoff] at h
    cases (Prod.mk.inj h).1
  rw [if_neg hoff] at h
  rw [not_or, not_lt] at hoff
  refine ⟨hoff, ?_⟩
  by_cases hbig : i64Max < limit.additionalBytes ∨ limit.maxBytes < limit.additionalBytes
      ∨ i64Max < limit.pendingBytes
  · rcases hbig with hbody | hbody | hpending
    · exact .inl (lt_of_le_of_lt hoff.2 hbody)
    · exact .inl hbody
    · exact .inr (.inl hpending)
  rw [if_neg hbig] at h
  have hrun : (Tx.ofExcept
      (s.tables.cachedByteSize (limit.pendingBlobIds ++ limit.deferredEvictions)) >>=
        fun cached => if i64Max < cached + limit.pendingBytes then
          Tx.fail (.capacityExceeded limit.additionalBytes limit.maxBytes)
        else evictLoop limit s.tables.blobs.length (cached + limit.pendingBytes : ℕ)
          limit.deferredEvictions 0 : AssetTx (ℕ × List Uuid)) s
      = (.error (.capacityExceeded requested max), t) := h
  rcases hcached : s.tables.cachedByteSize (limit.pendingBlobIds ++ limit.deferredEvictions)
    with e | cached
  · rw [hcached, cachedByteSize_error hcached] at hrun
    cases (Prod.mk.inj hrun).1
  · rw [hcached, Tx.ofExcept_ok_bind] at hrun
    refine .inr (.inr ⟨cached, rfl, ?_⟩)
    by_cases hrange : i64Max < cached + limit.pendingBytes
    · exact .inl hrange
    · rw [if_neg hrange] at hrun
      exact .inr hrun

end Loop

/-! ## One call -/

/-- **What holds before a call** in a unit of work: the counter is what was written, and beside a
counter that is not zero the rest fits. -/
structure Counted (policy : AssetCachePolicy) (s : AssetState) : Prop where
  keys : (s.tables.blobs.map AssetBlobRow.id).Nodup
  pending : s.mutation.pendingBytes = heldBytes (· ∈ s.mutation.newlyWritten) s.tables.blobs
  capped : policy.maxCacheSizeBytes ≠ 0 → policy.maxCacheSizeBytes ≤ i64Max →
    s.mutation.pendingBytes = 0 ∨
      heldBytes (· ∉ s.mutation.deferredEvictions) s.tables.blobs ≤ policy.maxCacheSizeBytes

section Call

variable {policy : AssetCachePolicy} {s t : AssetState} {size : ℕ} {protectedBlobIds : List Uuid}

/-- **The running total is the true one and the fresh victims.** -/
theorem Counted.runningTotal_eq (h : Counted policy s) (size : ℕ) (protectedBlobIds : List Uuid) :
    runningTotal (insertLimit policy s.mutation size protectedBlobIds) s.tables.blobs =
      trueTotal (insertLimit policy s.mutation size protectedBlobIds) s.tables.blobs +
        freshVictims (insertLimit policy s.mutation size protectedBlobIds) s.tables.blobs := by
  have hold : heldBytes (· ∉ s.mutation.newlyWritten ++ s.mutation.deferredEvictions)
      s.tables.blobs = weight (·.byteSize) (fun row => row.data.isSome &&
        (!decide (row.id ∈ s.mutation.newlyWritten) &&
          !decide (row.id ∈ s.mutation.deferredEvictions))) s.tables.blobs := by
    refine weight_congr fun row _ => ?_
    simp only [List.mem_append, not_or, Bool.decide_and, decide_not]
  have hstays : heldBytes (· ∉ s.mutation.deferredEvictions) s.tables.blobs =
      weight (·.byteSize) (fun row => row.data.isSome &&
        !decide (row.id ∈ s.mutation.deferredEvictions)) s.tables.blobs := by
    refine weight_congr fun row _ => ?_
    simp only [decide_not]
  change heldBytes (· ∉ s.mutation.newlyWritten ++ s.mutation.deferredEvictions) s.tables.blobs +
      s.mutation.pendingBytes = heldBytes (· ∉ s.mutation.deferredEvictions) s.tables.blobs + _
  rw [h.pending, hold, hstays]
  exact weight_exchange _ _ _ _ _

theorem Counted.exact_start (h : Counted policy s)
    (hexact : freshVictims (insertLimit policy s.mutation size protectedBlobIds) s.tables.blobs = 0) :
    Exact (insertLimit policy s.mutation size protectedBlobIds) s.tables.blobs
      (runningTotal (insertLimit policy s.mutation size protectedBlobIds) s.tables.blobs)
      s.mutation.deferredEvictions := by
  refine ⟨?_, [], (List.append_nil _).symm, Evicts.nil⟩
  rw [h.runningTotal_eq, hexact, Nat.add_zero]
  rfl

/-- **A refused body does not fit** beside the protected blobs. -/
theorem Counted.refused (h : Counted policy s)
    (hexact : CountsExactly (insertLimit policy s.mutation size protectedBlobIds) s.tables.blobs)
    {requested max : ℕ}
    (hrun : enforceCacheLimit (insertLimit policy s.mutation size protectedBlobIds) s =
      (.error (.capacityExceeded requested max), t)) :
    policy.maxCacheSizeBytes < heldBytes (· ∈ protectedBlobIds) s.tables.blobs + size := by
  obtain ⟨hon, hwhy⟩ := enforceCacheLimit_refused hrun
  by_cases hsmall : size ≤ policy.maxCacheSizeBytes
  swap
  · exact Nat.lt_of_lt_of_le (not_le.mp hsmall) (Nat.le_add_left _ _)
  have hfresh := hexact hon hsmall
  have htotal := h.runningTotal_eq size protectedBlobIds
  rw [hfresh, Nat.add_zero] at htotal
  have htotal : heldBytes (· ∉ s.mutation.newlyWritten ++ s.mutation.deferredEvictions)
      s.tables.blobs + s.mutation.pendingBytes =
      heldBytes (· ∉ s.mutation.deferredEvictions) s.tables.blobs := htotal
  have hmax : policy.maxCacheSizeBytes ≤ i64Max := hon.2
  have hcapped := h.capped hon.1 hmax
  rcases hwhy with hbody | hpending | ⟨cached, hcached, hrange | hloop⟩
  · exact absurd hsmall (not_le.mpr hbody)
  · have hpending : i64Max < s.mutation.pendingBytes := hpending
    omega
  · have hrange : i64Max < cached + s.mutation.pendingBytes := hrange
    have hle := cachedByteSize_le hcached
    have hheld := cachedByteSize_eq hcached
    change cached = heldBytes (· ∉ s.mutation.newlyWritten ++ s.mutation.deferredEvictions)
      s.tables.blobs at hheld
    omega
  · rw [cachedByteSize_eq hcached] at hloop
    obtain ⟨total, deferred, ⟨hexact, -⟩, hexceeds, hnone⟩ := evictLoop_error
      (I := Exact _ s.tables.blobs) (fun _ _ _ hI hround => hI.round h.keys hround) _ _ _ 0 s rfl
      (h.exact_start hfresh) (List.length_filter_le _ _) hloop
    have hrest : heldBytes (· ∉ deferred) s.tables.blobs ≤
        heldBytes (· ∈ protectedBlobIds) s.tables.blobs := by
      refine weight_mono fun row hrow hheld => ?_
      rw [Bool.and_eq_true, decide_eq_true_eq] at hheld ⊢
      refine ⟨hheld.1, Decidable.byContradiction fun hfree => ?_⟩
      have hmem : row ∈ candidates (insertLimit policy s.mutation size protectedBlobIds) deferred
          s.tables.blobs := by
        refine List.mem_filter.mpr ⟨hrow, ?_⟩
        rw [Bool.and_eq_true, decide_eq_true_eq, List.mem_append, not_or]
        exact ⟨hheld.1, hfree, hheld.2⟩
      rw [hnone] at hmem
      exact nomatch hmem
    have hexceeds : (policy.maxCacheSizeBytes : ℤ) < total + size := hexceeds
    omega

/-- **One call accounts exactly iff it meets no fresh victims.** -/
theorem Counted.accounts_iff (h : Counted policy s) :
    ExactAccounting (insertLimit policy s.mutation size protectedBlobIds) s ↔
      CountsExactly (insertLimit policy s.mutation size protectedBlobIds) s.tables.blobs := by
  have htotal := h.runningTotal_eq size protectedBlobIds
  refine ⟨fun haccounts hon hsmall => ?_, fun hexact => ?_⟩
  · have hequal := haccounts.total hon hsmall
    omega
  have hrun : ∀ evicted deferred t,
      enforceCacheLimit (insertLimit policy s.mutation size protectedBlobIds) s
        = (.ok (evicted, deferred), t) →
      (¬(insertLimit policy s.mutation size protectedBlobIds).isEnforced ∧
        deferred = s.mutation.deferredEvictions) ∨
      ∃ total, Exact (insertLimit policy s.mutation size protectedBlobIds) s.tables.blobs total
          deferred ∧ total + size ≤ policy.maxCacheSizeBytes :=
    fun evicted deferred t hrun => enforce_invariant hrun
      (fun hon hsmall => h.exact_start (hexact hon hsmall))
      fun _ _ _ hI hround => hI.round h.keys hround
  refine ⟨fun hon hsmall => ?_, fun evicted deferred t hon hok => ?_,
    fun evicted deferred t hok => ?_, fun requested max t hrefused => h.refused hexact hrefused⟩
  · rw [htotal, hexact hon hsmall, Nat.add_zero]
  · rcases hrun evicted deferred t hok with ⟨hoff, -⟩ | ⟨total, ⟨hheld, -⟩, hfits⟩
    · exact absurd hon hoff
    · rw [hheld] at hfits
      exact_mod_cast hfits
  · rcases hrun evicted deferred t hok with ⟨-, hsame⟩ | ⟨total, ⟨-, hvictims⟩, -⟩
    · exact ⟨[], hsame.trans (List.append_nil _).symm, Evicts.nil⟩
    · exact hvictims

end Call

/-! ## What a store adds, exactly -/

/-- **Writing under a new id adds exactly its size.** -/
theorem Puts.held_eq {blobId : Uuid} {size : ℕ} {before after : List AssetBlobRow}
    (h : Puts blobId size before after) (hkeys : (before.map AssetBlobRow.id).Nodup)
    (hnew : blobId ∉ before.map AssetBlobRow.id) (p : Uuid → Bool) :
    heldBytes p after = heldBytes p before + if p blobId then size else 0 := by
  obtain ⟨row, hrow, hid, hpresent⟩ := h.present
  have hsplit := weight_split (·.byteSize)
    (fun other : AssetBlobRow => other.data.isSome && p other.id)
    (fun other => decide (other.id = blobId)) after
  have hother : weight (·.byteSize) (fun other : AssetBlobRow =>
      (other.data.isSome && p other.id) && !decide (other.id = blobId)) after =
      heldBytes p before := by
    have hbefore : before.filter (·.id ≠ blobId) = before := by
      refine List.filter_eq_self.mpr fun other hother => decide_eq_true fun heq => hnew ?_
      exact heq ▸ List.mem_map_of_mem hother
    have hafter := h.others
    rw [hbefore] at hafter
    rw [heldBytes, ← hafter, weight_filter]
    refine weight_congr fun other _ => ?_
    simp only [ne_eq, decide_not]
  have hhere : weight (·.byteSize) (fun other : AssetBlobRow =>
      (other.data.isSome && p other.id) && decide (other.id = blobId)) after =
      if p blobId then size else 0 := by
    by_cases hp : p blobId = true
    · rw [if_pos hp, ← h.sized hkeys row hrow hid]
      refine weight_of_key (w := AssetBlobRow.byteSize) (h.keys hkeys) hrow fun other hmem => ?_
      rw [Bool.and_eq_true, Bool.and_eq_true, decide_eq_true_eq, hid]
      refine ⟨fun hboth => hboth.2, fun hother => ⟨?_, hother⟩⟩
      rw [eq_of_id_eq (h.keys hkeys) hmem hrow (hother.trans hid.symm), hid]
      exact ⟨hpresent, hp⟩
    · rw [if_neg hp]
      refine Nat.le_zero.mp (le_of_le_of_eq (weight_mono (q := fun _ => false) ?_) (by simp [weight]))
      intro other _ hheld
      rw [Bool.and_eq_true, Bool.and_eq_true, decide_eq_true_eq] at hheld
      exact absurd (hheld.2 ▸ hheld.1.2) hp
  change weight _ _ _ = _
  omega

theorem held_touchBlob_eq (t : AssetTables) (blobId : Uuid) (clock : DateTime) (p : Uuid → Bool) :
    heldBytes p (t.touchBlob blobId clock).blobs = heldBytes p t.blobs := by
  refine weight_map (fun row => ?_) (fun row => ?_) t.blobs
  · by_cases h : row.id = blobId
    · rw [if_pos h]
    · rw [if_neg h]
  · by_cases h : row.id = blobId
    · rw [if_pos h]
    · rw [if_neg h]

/-! ## The run of a unit of work -/

/-- None of the ids is taken. -/
def Untaken (s : AssetState) (ids : List Uuid) : Prop := ∀ id ∈ ids, id ∉ s.tables.blobs.map (·.id)

section Stores

variable {Url : Type} {policy : AssetCachePolicy} {preparation : AssetBatchPreparation}
  {supply : AssetSupply} {input : AssetInput Url} {protectedBlobIds : List Uuid}
  {batchBlobs : List (Uuid × Uuid)} {s t : AssetState} {blobId : Uuid} {size : ℕ} {ids : List Uuid}

theorem Counted.sameCache (h : Counted policy s) (hsame : SameCache s t) : Counted policy t := by
  refine ⟨?_, ?_, ?_⟩
  · rw [hsame.blobs]
    exact h.keys
  · rw [hsame.blobs, hsame.mutation]
    exact h.pending
  · rw [hsame.blobs, hsame.mutation]
    exact h.capped

/-- **An insertion is counted.** -/
theorem Counted.inserts (h : Counted policy s) (hnew : blobId ∉ s.tables.blobs.map AssetBlobRow.id)
    (hins : Inserts policy protectedBlobIds blobId size s t) : Counted policy t := by
  obtain ⟨evicted, u, henforced⟩ := hins.enforced
  refine ⟨hins.puts.keys h.keys, ?_, fun hpos hmax => .inr ?_⟩
  · have hold : heldBytes (· ∈ s.mutation.newlyWritten ++ [blobId]) s.tables.blobs =
        heldBytes (· ∈ s.mutation.newlyWritten) s.tables.blobs := by
      refine weight_congr fun row hrow => ?_
      have hne : row.id ≠ blobId := fun heq => hnew (heq ▸ List.mem_map_of_mem hrow)
      simp [hne]
    rw [hins.pendingBytes, hins.newlyWritten, hins.puts.held_eq h.keys hnew, hold, h.pending,
      if_pos (by simp)]
  · have hpending : heldBytes
        (fun id => id ∈ s.mutation.newlyWritten && id ∉ s.mutation.deferredEvictions)
        s.tables.blobs ≤ s.mutation.pendingBytes := by
      rw [h.pending]
      refine weight_mono fun row _ hheld => ?_
      rw [Bool.and_eq_true, Bool.and_eq_true] at hheld
      exact Bool.and_eq_true_iff.mpr ⟨hheld.1, hheld.2.1⟩
    exact (hins.puts.held_le h.keys fun id _ hid => hid).trans
      (held_of_enforce ⟨hpos, hmax⟩ hpending henforced)

theorem Counted.stores (h : Counted policy s)
    (hnew : supply.blobId ∉ s.tables.blobs.map AssetBlobRow.id)
    (hstores : Stores policy preparation supply input protectedBlobIds batchBlobs s t blobId) :
    Counted policy t := by
  rcases hstores with ⟨matched, usable, blobs, deletionQueue, mutation⟩ | ⟨needed, inserts⟩
  · refine ⟨?_, ?_, ?_⟩
    · rw [blobs, map_id_touchBlob]
      exact h.keys
    · rw [blobs, mutation, held_touchBlob_eq]
      exact h.pending
    · rw [blobs, mutation, held_touchBlob_eq]
      exact h.capped
  · exact h.inserts hnew inserts

/-- A store takes its own id only. -/
theorem Untaken.stores (h : Untaken s (supply.blobId :: ids)) (hids : (supply.blobId :: ids).Nodup)
    (hstores : Stores policy preparation supply input protectedBlobIds batchBlobs s t blobId) :
    Untaken t ids := by
  intro id hid
  have hold := h id (List.mem_cons_of_mem _ hid)
  rcases hstores with ⟨matched, usable, blobs, deletionQueue, mutation⟩ | ⟨needed, inserts⟩
  · rw [blobs, map_id_touchBlob]
    exact hold
  · intro hmem
    rcases inserts.puts.ids id hmem with rfl | hbefore
    · exact (List.nodup_cons.mp hids).1 hid
    · exact hold hbefore

end Stores

section Batches

variable {Url : Type} [UrlCrate Url] [Sha2Crate] {context : AssetWriteContext}

/-- The ids a batch may write under. -/
def AssetBatch.blobIds (batch : AssetBatch Url) : List Uuid := batch.inputs.map (·.2.blobId)

/-- **The inputs of a batch are counted one by one.** -/
theorem Counted.storeEach {preparation : AssetBatchPreparation}
    (hcontext : context.preparation = some preparation) (sourceId : Uuid) (reviewId : String)
    (ids : List Uuid) :
    ∀ (inputs : List (AssetInput Url × AssetSupply)) (protectedBlobIds : List Uuid)
      (batchBlobs : List (Uuid × Uuid)) {s t : AssetState} {assets : List (StoredAsset Url)},
      Counted context.policy s → Untaken s (inputs.map (·.2.blobId) ++ ids) →
      (inputs.map (·.2.blobId) ++ ids).Nodup →
      AssetRepository.storeEach context sourceId reviewId inputs protectedBlobIds batchBlobs s
        = (.ok assets, t) →
      Counted context.policy t ∧ Untaken t ids
  | [], _, _, s, t, assets, h, hunused, _, hrun => by
    obtain ⟨-, rfl⟩ := Prod.mk.inj hrun
    exact ⟨h, hunused⟩
  | (input, supply) :: inputs, protectedBlobIds, batchBlobs, s, t, assets, h, hunused, hids, hrun => by
    rw [AssetRepository.storeEach] at hrun
    obtain ⟨asset, u, hfirst, hrun⟩ := Tx.bind_eq_ok hrun
    obtain ⟨stored, v, hrest, hlast⟩ := Tx.bind_eq_ok hrun
    obtain ⟨-, rfl⟩ := Prod.mk.inj hlast
    have hstores := (storeInput_spec hcontext sourceId reviewId
      (List.mem_singleton_self supply.blobId) s s rfl).1 asset u hfirst
    have hnew := hunused supply.blobId List.mem_cons_self
    exact Counted.storeEach hcontext sourceId reviewId ids inputs _ _ (h.stores hnew hstores)
      (Untaken.stores hunused hids hstores) (List.nodup_cons.mp hids).2 hrest

omit [UrlCrate Url] [Sha2Crate] in
/-- Cleaning up ids that are not taken deletes nothing. -/
theorem blobs_cleanupNewBlobs {t : AssetTables} {ids : List Uuid}
    (h : ∀ id ∈ ids, id ∉ t.blobs.map AssetBlobRow.id) :
    (cleanupNewBlobs t ids).blobs = t.blobs := by
  have hdelete : (ids.foldl AssetTables.blobDelete t).blobs = t.blobs := by
    induction ids generalizing t with
    | nil => rfl
    | cons id ids ih =>
      have hsame : (t.blobDelete id).blobs = t.blobs := by
        refine (List.map_congr_left fun row hrow => ?_).trans (List.map_id t.blobs)
        have hne : row.id ≠ id := fun heq =>
          h id List.mem_cons_self (heq ▸ List.mem_map_of_mem hrow)
        rw [if_neg hne]
        rfl
      rw [List.foldl_cons, ih fun other hother => ?_, hsame]
      rw [hsame]
      exact h other (List.mem_cons_of_mem _ hother)
  rw [cleanupNewBlobs, AssetTables.deleteBlobs]
  refine (congrArg _ hdelete).trans (List.filter_eq_self.mpr fun row hrow => ?_)
  exact decide_eq_true fun hid => h row.id hid (List.mem_map_of_mem hrow)

/-- **A batch is counted, or leaves no trace in the count.** -/
theorem Counted.storeBatch {preparation : AssetBatchPreparation}
    (hcontext : context.preparation = some preparation) (batch : AssetBatch Url) {ids : List Uuid}
    {s : AssetState} (h : Counted context.policy s) (hunused : Untaken s (batch.blobIds ++ ids))
    (hids : (batch.blobIds ++ ids).Nodup) :
    Counted context.policy (AssetRepository.storeBatch context batch s).2 ∧
      Untaken (AssetRepository.storeBatch context batch s).2 ids := by
  have hrest : Untaken s ids := fun id hid => hunused id (List.mem_append_right _ hid)
  have hcases := storeBatch_cases hcontext batch s
  generalize (AssetRepository.storeBatch context batch s).1 = outcome at hcases
  generalize (AssetRepository.storeBatch context batch s).2 = t at hcases ⊢
  rcases hcases with e | _ | hrun | ⟨e, hadded⟩
  · exact ⟨h, hrest⟩
  · exact ⟨h, hrest⟩
  · have hsame := sameCache_batchStart batch s
    refine Counted.storeEach hcontext _ _ ids batch.inputs [] [] (h.sameCache hsame) ?_ hids hrun
    intro id hid
    rw [hsame.blobs]
    exact hunused id hid
  · -- what the batch wrote goes, and its ids were not taken before
    rename_i u
    have hblobs : (rolledBack s u).tables.blobs = s.tables.blobs := by
      refine blobs_cleanupNewBlobs fun id hid => ?_
      obtain ⟨⟨written, hwritten, hnew⟩, -⟩ := hadded
      rw [hwritten, List.drop_left] at hid
      exact hunused id (List.mem_append_left _ (hnew id hid))
    have hmutation := mutation_rolledBack hadded
    refine ⟨⟨?_, ?_, ?_⟩, ?_⟩
    · rw [hblobs]
      exact h.keys
    · rw [hblobs, hmutation]
      exact h.pending
    · rw [hblobs, hmutation]
      exact h.capped
    · rw [Untaken, hblobs]
      exact hrest

theorem state_step (session : AssetSession Url) (batch : AssetBatch Url) :
    (AssetSession.step context session batch).state = (storeBatch context batch session.state).2 := by
  rw [AssetSession.step]
  split
  · rename_i hrun
    rw [hrun]
  · rename_i hrun
    rw [hrun]

/-- **Every batch of a unit of work is counted.** -/
theorem Counted.run {preparation : AssetBatchPreparation}
    (hcontext : context.preparation = some preparation) {ids : List Uuid} :
    ∀ (batches : List (AssetBatch Url)) (session : AssetSession Url),
      Counted context.policy session.state →
      Untaken session.state (batches.flatMap AssetBatch.blobIds ++ ids) →
      (batches.flatMap AssetBatch.blobIds ++ ids).Nodup →
      Counted context.policy (Machinery.run (AssetSession.step context) session batches).state ∧
        Untaken (Machinery.run (AssetSession.step context) session batches).state ids
  | [], _, h, hunused, _ => ⟨h, hunused⟩
  | batch :: batches, session, h, hunused, hids => by
    rw [List.flatMap_cons, List.append_assoc] at hunused hids
    obtain ⟨hstep, hrest⟩ := h.storeBatch hcontext batch hunused hids
    rw [← state_step session batch] at hstep hrest
    exact Counted.run hcontext batches _ hstep hrest (List.nodup_append.mp hids).2.1

omit [UrlCrate Url] [Sha2Crate] in
theorem counted_begin (policy : AssetCachePolicy) {tables : AssetTables}
    (hkeys : (tables.blobs.map AssetBlobRow.id).Nodup) :
    Counted policy (AssetSession.begin tables : AssetSession Url).state :=
  ⟨hkeys, by simp [AssetSession.begin, heldBytes, weight], fun _ _ => .inl rfl⟩

/-- The blobs that the current batch has returned, as its loop protects them. -/
def returnedBlobs (assets : List (StoredAsset Url)) : List Uuid :=
  assets.foldl (fun blobIds asset => protect blobIds asset.blobId) []

/-- **Accounting inside one unit of work.**  After any batches, and the inputs of the `current` one
stored so far, a further body of any size is accounted for exactly if and only if no blob with bytes
is both written by this unit of work and deferred.  The new ids are new. -/
theorem accounting_exact_iff (context : AssetWriteContext) (hcontext : context.preparation.isSome)
    (tables : AssetTables) (batches : List (AssetBatch Url)) (current : AssetBatch Url)
    (hids : (tables.blobs.map AssetBlobRow.id ++
      (batches.flatMap AssetBatch.blobIds ++ current.blobIds)).Nodup)
    (assets : List (StoredAsset Url)) (t : AssetState)
    (hrun : storeEach context current.sourceId current.reviewId current.inputs [] []
      (batchStart current
        (Machinery.run (AssetSession.step context) (AssetSession.begin tables) batches).state)
      = (.ok assets, t)) (size : ℕ) :
    ExactAccounting (insertLimit context.policy t.mutation size (returnedBlobs assets)) t ↔
      CountsExactly (insertLimit context.policy t.mutation size (returnedBlobs assets))
        t.tables.blobs := by
  obtain ⟨preparation, hpreparation⟩ := Option.isSome_iff_exists.mp hcontext
  obtain ⟨hkeys, hnew, hdisjoint⟩ := List.nodup_append.mp hids
  have hunused : Untaken (AssetSession.begin tables : AssetSession Url).state
      (batches.flatMap AssetBatch.blobIds ++ current.blobIds) :=
    fun id hid htaken => hdisjoint id htaken id hid rfl
  obtain ⟨hcounted, hrest⟩ :=
    (counted_begin context.policy hkeys).run hpreparation batches _ hunused hnew
  have hsame := sameCache_batchStart current
    (Machinery.run (AssetSession.step context) (AssetSession.begin tables) batches).state
  refine (Counted.storeEach hpreparation _ _ [] current.inputs [] [] (hcounted.sameCache hsame) ?_ ?_
    hrun).1.accounts_iff
  · rw [List.append_nil, Untaken, hsame.blobs]
    exact hrest
  · rw [List.append_nil]
    exact (List.nodup_append.mp hnew).2.1

end Batches

/-! ## Three images in ten bytes -/

section Samples

attribute [local instance] plainDigest

/-- An image of `size` bytes for one article. -/
def imageBatch (input : AssetInput PlainUrl) (reviewId : String) (blobId : ℕ) :
    AssetBatch PlainUrl where
  replace := true
  sourceId := ⟨1⟩
  reviewId := reviewId
  inputs := [(input, ⟨⟨blobId⟩, ⟨blobId + 10⟩, blobId⟩)]

def firstImage : AssetInput PlainUrl := plainImage ⟨"https://a/p", isPlainText_firstImage⟩ 1 6 1

def secondImage : AssetInput PlainUrl := plainImage ⟨"https://a/q", isPlainText_secondImage⟩ 2 6 2

/-- A unit of work on an empty cache, for images of two articles. -/
def smallContext : AssetWriteContext :=
  ⟨smallCache, (prepareAssetBatch .empty [firstImage, secondImage]).toOption, 0⟩

/-- The article of a third image, before its body is stored. -/
def thirdBatch : AssetBatch PlainUrl := ⟨true, ⟨1⟩, "third", []⟩

/-- The unit of work after `batches`, before the third body. -/
def beforeThird (batches : List (AssetBatch PlainUrl)) : AssetState :=
  batchStart thirdBatch
    (Machinery.run (AssetSession.step smallContext) (AssetSession.begin .empty) batches).state

def afterOne : AssetState := beforeThird [imageBatch firstImage "first" 10]

def afterTwo : AssetState :=
  beforeThird [imageBatch firstImage "first" 10, imageBatch secondImage "second" 11]

/-- Beside six bytes a body of four is accounted for. -/
theorem accounting_exact_iff_one :
    ExactAccounting (insertLimit smallCache afterOne.mutation 4 []) afterOne :=
  (accounting_exact_iff smallContext (by decide +kernel) .empty [imageBatch firstImage "first" 10]
    thirdBatch (by decide) [] afterOne rfl 4).mpr fun _ _ => by decide +kernel

/-- **The second image of six bytes defers the first**, but the counter keeps both: for a third body
of four bytes the total is twelve and not six, and the second image is evicted, though it fits. -/
theorem accounting_inexact :
    ¬ExactAccounting (insertLimit smallCache afterTwo.mutation 4 []) afterTwo ∧
      runningTotal (insertLimit smallCache afterTwo.mutation 4 []) afterTwo.tables.blobs = 12 ∧
      trueTotal (insertLimit smallCache afterTwo.mutation 4 []) afterTwo.tables.blobs = 6 ∧
      (enforceCacheLimit (insertLimit smallCache afterTwo.mutation 4 []) afterTwo).1.toOption =
        some (1, [⟨10⟩, ⟨11⟩]) := by
  have hrunning : runningTotal (insertLimit smallCache afterTwo.mutation 4 [])
      afterTwo.tables.blobs = 12 := by decide +kernel
  have htrue : trueTotal (insertLimit smallCache afterTwo.mutation 4 [])
      afterTwo.tables.blobs = 6 := by decide +kernel
  refine ⟨fun haccounts => ?_, hrunning, htrue, by decide +kernel⟩
  have hequal := haccounts.total ⟨by decide, by decide⟩ (by decide)
  rw [hrunning, htrue] at hequal
  exact absurd hequal (by decide)

end Samples

end AssetRepository

end Werrss
