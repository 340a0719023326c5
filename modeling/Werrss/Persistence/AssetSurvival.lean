import Werrss.Persistence.AssetCap

/-!
# Persistence/AssetSurvival — whether a stored asset survives its own commit

    batch of a ─▸ blob b ─▸ … ─▸ batch of c inserts ─▸ evicts b ─▸ commit queues b
                                 input of c reuses a blob that is already deferred ─▸ commit queues it

A batch protects the blobs it has returned itself; blobs of earlier batches are fair game for the
eviction loop, and a deferred blob looks usable to the reuse paths.  **Where neither happens, every
asset that an article was last given survives the commit.**
-/

open Machinery

namespace Werrss

namespace AssetRepository

/-! ## Safe blobs -/

/-- The blob has its bytes, and neither the queue nor the deferred evictions will take them. -/
structure Safe (s : AssetState) (blobId : Uuid) : Prop where
  present : ∃ row ∈ s.tables.blobs, row.id = blobId ∧ row.data.isSome = true
  unqueued : blobId ∉ s.tables.deletionQueue
  undeferred : blobId ∉ s.mutation.deferredEvictions

/-- After the commit the blob has its bytes and is not queued for deletion. -/
structure Survives (tables : AssetTables) (blobId : Uuid) : Prop where
  present : ∃ row ∈ tables.blobs, row.id = blobId ∧ row.data.isSome = true
  unqueued : blobId ∉ tables.deletionQueue

theorem Safe.commit {s : AssetState} {blobId : Uuid} (h : Safe s blobId) :
    Survives (AssetRepository.commit s) blobId := by
  refine ⟨h.present, fun hmem => ?_⟩
  rcases mem_enqueueDeletions.mp hmem with hqueued | hdeferred
  · exact h.unqueued hqueued
  · exact h.undeferred hdeferred

theorem Safe.sameCache {s t : AssetState} {blobId : Uuid} (h : Safe s blobId)
    (hsame : SameCache s t) : Safe t blobId := by
  refine ⟨?_, ?_, ?_⟩
  · rw [hsame.blobs]
    exact h.present
  · rw [hsame.deletionQueue]
    exact h.unqueued
  · rw [hsame.mutation]
    exact h.undeferred

/-- Ids that nothing in the transaction uses. -/
def Unused (newIds : List Uuid) (s : AssetState) : Prop :=
  ∀ id ∈ newIds, id ∉ s.tables.blobs.map AssetBlobRow.id ∧ id ∉ s.tables.deletionQueue ∧
    id ∉ s.mutation.deferredEvictions

theorem Unused.sameCache {newIds : List Uuid} {s t : AssetState} (h : Unused newIds s)
    (hsame : SameCache s t) : Unused newIds t := by
  rw [Unused, hsame.blobs, hsame.deletionQueue, hsame.mutation]
  exact h

/-! ## What the loop spares -/

/-- The bytes of the blobs that the loop would take before `row`. -/
def olderBytes (limit : CacheLimit) (deferred : List Uuid) (row : AssetBlobRow)
    (blobs : List AssetBlobRow) : ℕ :=
  weight (·.byteSize) (fun other => (other.data.isSome && other.id ∉ limit.protectedBlobIds ++ deferred)
    && (other.older row && other.id ≠ row.id)) blobs

/-- **The blob is spared**: what exceeds the limit is no more than the blobs older than it hold. -/
def Spared (limit : CacheLimit) (blobs : List AssetBlobRow) (blobId : Uuid) : Prop :=
  limit.isEnforced → ∀ row ∈ blobs, row.id = blobId →
    heldBytes (· ∉ limit.pendingBlobIds ++ limit.deferredEvictions) blobs + limit.pendingBytes
        + limit.additionalBytes
      ≤ limit.maxBytes + olderBytes limit limit.deferredEvictions row blobs

/-- A round with an older blob left takes another blob than `row`, and no more than was counted. -/
theorem Round.spares {limit : CacheLimit} {blobs : List AssetBlobRow} {total : ℤ}
    {deferred : List Uuid} {victim row : AssetBlobRow}
    (hkeys : (blobs.map AssetBlobRow.id).Nodup) (hrow : row ∈ blobs)
    (hround : Round limit blobs total deferred victim)
    (hroom : total + limit.additionalBytes ≤ limit.maxBytes + olderBytes limit deferred row blobs) :
    victim.id ≠ row.id ∧
      olderBytes limit deferred row blobs
        ≤ olderBytes limit (deferred ++ [victim.id]) row blobs + victim.byteSize := by
  have hexceeds := hround.exceeds
  -- some blob is older than `row`, so the victim, the oldest of all, is not `row`
  obtain ⟨other, hother, hsel⟩ : ∃ other ∈ blobs,
      ((other.data.isSome && other.id ∉ limit.protectedBlobIds ++ deferred)
        && (other.older row && other.id ≠ row.id)) = true := by
    by_contra hnone
    have hzero : olderBytes limit deferred row blobs = 0 := by
      rw [olderBytes, weight_congr (q := fun _ => false) fun x hx => ?_]
      · simp [weight]
      · exact Bool.eq_false_iff.mpr fun hx' => hnone ⟨x, hx, hx'⟩
    omega
  simp only [Bool.and_eq_true, decide_eq_true_eq] at hsel
  obtain ⟨⟨hpresent, hfree⟩, holder, hne⟩ := hsel
  have hfirst := hround.oldest other hother hpresent hfree
  have hvictim : victim.id ≠ row.id := by
    intro heq
    obtain rfl := eq_of_id_eq hkeys hround.mem hrow heq
    exact hne (AssetBlobRow.older_antisymm holder hfirst)
  refine ⟨hvictim, ?_⟩
  have hone : weight (·.byteSize) (fun x : AssetBlobRow => decide (x.id = victim.id)) blobs
      ≤ victim.byteSize := by
    refine weight_le_of_key hkeys fun x hx hid => ⟨of_decide_eq_true hid, ?_⟩
    rw [eq_of_id_eq hkeys hx hround.mem (of_decide_eq_true hid)]
  refine (weight_le_add fun x _ hx => ?_).trans (Nat.add_le_add_left hone _)
  by_cases hid : x.id = victim.id
  · exact .inr (by simpa using hid)
  · refine .inl ?_
    simp only [Bool.and_eq_true, decide_eq_true_eq, List.mem_append, List.mem_singleton,
      not_or] at hx ⊢
    exact ⟨⟨hx.1.1, hx.1.2.1, hx.1.2.2, hid⟩, hx.2⟩

/-- **The loop does not take a spared blob.** -/
theorem not_deferred_of_spared {limit : CacheLimit} {s t : AssetState} {evicted : ℕ}
    {deferred : List Uuid} {row : AssetBlobRow}
    (hkeys : (s.tables.blobs.map AssetBlobRow.id).Nodup) (hrow : row ∈ s.tables.blobs)
    (hspared : Spared limit s.tables.blobs row.id) (hfree : row.id ∉ limit.deferredEvictions)
    (h : enforceCacheLimit limit s = (.ok (evicted, deferred), t)) : row.id ∉ deferred := by
  have hround : ∀ (total : ℤ) (before : List Uuid) (victim : AssetBlobRow),
      (limit.additionalBytes ≤ limit.maxBytes ∧ row.id ∉ before ∧
        total + limit.additionalBytes
          ≤ limit.maxBytes + olderBytes limit before row s.tables.blobs) →
      Round limit s.tables.blobs total before victim →
      limit.additionalBytes ≤ limit.maxBytes ∧ row.id ∉ before ++ [victim.id] ∧
        saturatingSub total victim.byteSize + limit.additionalBytes
          ≤ limit.maxBytes + olderBytes limit (before ++ [victim.id]) row s.tables.blobs := by
    rintro total before victim ⟨hsmall, hout, hroom⟩ hround
    have hexceeds := hround.exceeds
    obtain ⟨hne, hcount⟩ := hround.spares hkeys hrow hroom
    refine ⟨hsmall, ?_, ?_⟩
    · simp [hout, hne.symm]
    · rw [saturatingSub_of_pos (by omega) victim.byteSize_le]
      omega
  rcases enforce_invariant (I := fun total before => limit.additionalBytes ≤ limit.maxBytes ∧
      row.id ∉ before ∧ total + limit.additionalBytes
        ≤ limit.maxBytes + olderBytes limit before row s.tables.blobs) h
      (fun hon hsmall => ⟨hsmall, hfree, by exact_mod_cast hspared hon row hrow rfl⟩) hround
    with ⟨-, rfl⟩ | ⟨total, hI, -⟩
  · exact hfree
  · exact hI.2.1

/-! ## One store -/

section Stores

variable {Url : Type} {policy : AssetCachePolicy} {preparation : AssetBatchPreparation}
  {supply : AssetSupply} {input : AssetInput Url} {protectedBlobIds : List Uuid}
  {batchBlobs : List (Uuid × Uuid)} {s t : AssetState} {blobId : Uuid} {newIds : List Uuid}

/-- **A store that takes nothing away**: the blob the preparation matched is not deferred, and where
a new blob is needed, `kept` is spared. -/
structure InputSafe (policy : AssetCachePolicy) (preparation : AssetBatchPreparation)
    (kept : Uuid → Prop) (protectedBlobIds : List Uuid) (batchBlobs : List (Uuid × Uuid))
    (input : AssetInput Url) (s : AssetState) : Prop where
  undeferred : ∀ blobId, preparation.matchingBlob input = .ok (some blobId) →
    blobId ∉ s.mutation.deferredEvictions
  spared : NeedsBlob preparation input batchBlobs s → ∀ blobId, kept blobId →
    Spared (insertLimit policy s.mutation input.bytes.length protectedBlobIds) s.tables.blobs blobId

/-- Touching a blob keeps which rows have bytes. -/
theorem present_touchBlob {tables : AssetTables} {touched : Uuid} {clock : DateTime}
    (h : ∃ row ∈ tables.blobs, row.id = blobId ∧ row.data.isSome = true) :
    ∃ row ∈ (tables.touchBlob touched clock).blobs, row.id = blobId ∧ row.data.isSome = true := by
  obtain ⟨row, hmem, hid, hdata⟩ := h
  refine ⟨_, List.mem_map_of_mem hmem, ?_, ?_⟩
  · by_cases h : row.id = touched
    · rw [if_pos h]
      exact hid
    · rw [if_neg h]
      exact hid
  · by_cases h : row.id = touched
    · rw [if_pos h]
      exact hdata
    · rw [if_neg h]
      exact hdata

theorem Safe.inserts (h : Safe s blobId)
    (hins : Inserts policy protectedBlobIds supply.blobId input.bytes.length s t)
    (hunused : supply.blobId ∉ s.tables.blobs.map AssetBlobRow.id)
    (hundeferred : blobId ∉ t.mutation.deferredEvictions) : Safe t blobId := by
  obtain ⟨row, hmem, hid, hdata⟩ := h.present
  have hne : row.id ≠ supply.blobId := fun heq => hunused (heq ▸ List.mem_map_of_mem hmem)
  have hfilter : row ∈ t.tables.blobs.filter (·.id ≠ supply.blobId) := by
    rw [hins.puts.others]
    exact List.mem_filter.mpr ⟨hmem, by simpa using hne⟩
  refine ⟨⟨row, (List.mem_filter.mp hfilter).1, hid, hdata⟩, ?_, hundeferred⟩
  rw [hins.deletionQueue]
  exact h.unqueued

/-- **A safe blob that is protected or spared stays safe.** -/
theorem Safe.stores (h : Safe s blobId)
    {stored : Uuid}
    (hstores : Stores policy preparation supply input protectedBlobIds batchBlobs s t stored)
    (hkeys : (s.tables.blobs.map AssetBlobRow.id).Nodup)
    (hunused : supply.blobId ∉ s.tables.blobs.map AssetBlobRow.id)
    (hkept : blobId ∈ protectedBlobIds ∨ (NeedsBlob preparation input batchBlobs s →
      Spared (insertLimit policy s.mutation input.bytes.length protectedBlobIds) s.tables.blobs
        blobId)) : Safe t blobId := by
  cases hstores with
  | reuse matched usable blobs deletionQueue mutation =>
    refine ⟨?_, ?_, ?_⟩
    · rw [blobs]
      exact present_touchBlob h.present
    · rw [deletionQueue]
      exact h.unqueued
    · rw [mutation]
      exact h.undeferred
  | insert needed inserts =>
    obtain ⟨evicted, u, henforced⟩ := inserts.enforced
    refine h.inserts inserts hunused ?_
    rcases hkept with hprotected | hspared
    · intro hdeferred
      rcases (chosen_of_enforce henforced).2 blobId hdeferred with hbefore | ⟨hout, -⟩
      · exact h.undeferred hbefore
      · exact hout hprotected
    · obtain ⟨row, hmem, rfl, -⟩ := h.present
      exact not_deferred_of_spared hkeys hmem (hspared needed) h.undeferred henforced

/-- What a deferred eviction of a new state was before. -/
theorem Inserts.mem_deferred {size : ℕ} {newId : Uuid}
    (h : Inserts policy protectedBlobIds newId size s t) {id : Uuid}
    (hid : id ∈ t.mutation.deferredEvictions) :
    id ∈ s.mutation.deferredEvictions ∨ id ∈ s.tables.blobs.map AssetBlobRow.id := by
  obtain ⟨evicted, u, henforced⟩ := h.enforced
  rcases (chosen_of_enforce henforced).2 id hid with hbefore | ⟨-, hrow⟩
  · exact .inl hbefore
  · exact .inr hrow

/-- **The stored blob is safe.** -/
theorem Stores.safe
    (hstores : Stores policy preparation supply input protectedBlobIds batchBlobs s t blobId)
    (hunused : Unused [supply.blobId] s)
    (hprepared : ∀ id, preparation.matchingBlob input = .ok (some id) →
      id ∉ s.mutation.deferredEvictions)
    (hbatch : ∀ entry ∈ batchBlobs, Safe s entry.2) : Safe t blobId := by
  cases hstores with
  | reuse matched usable blobs deletionQueue mutation =>
    refine ⟨?_, ?_, ?_⟩
    · rw [blobs]
      exact present_touchBlob usable.present
    · rw [deletionQueue]
      exact usable.unqueued
    · rw [mutation]
      rcases matched with hmatch | hmatch
      · exact hprepared _ hmatch
      · obtain ⟨previous, -, hlookup⟩ := Option.bind_eq_some_iff.mp hmatch
        obtain ⟨front, back, hsplit, -⟩ := List.lookup_eq_some_iff.mp hlookup
        exact (hbatch (previous, _) (by simp [hsplit])).undeferred
  | insert needed inserts =>
    obtain ⟨hrows, hqueue, hdeferred⟩ := hunused supply.blobId (List.mem_singleton_self _)
    refine ⟨inserts.puts.present, ?_, fun hmem => ?_⟩
    · rw [inserts.deletionQueue]
      exact hqueue
    · exact (inserts.mem_deferred hmem).elim hdeferred hrows

theorem Stores.keys
    (hstores : Stores policy preparation supply input protectedBlobIds batchBlobs s t blobId)
    (hkeys : (s.tables.blobs.map AssetBlobRow.id).Nodup) :
    (t.tables.blobs.map AssetBlobRow.id).Nodup := by
  cases hstores with
  | reuse matched usable blobs deletionQueue mutation =>
    rw [blobs, map_id_touchBlob]
    exact hkeys
  | insert needed inserts => exact inserts.puts.keys hkeys

/-- Ids that were unused stay so, but for the one a store may take. -/
theorem Unused.stores (h : Unused newIds s) (hnew : supply.blobId ∉ newIds)
    (hstores : Stores policy preparation supply input protectedBlobIds batchBlobs s t blobId) :
    Unused newIds t := by
  intro id hid
  obtain ⟨hrows, hqueue, hdeferred⟩ := h id hid
  cases hstores with
  | reuse matched usable blobs deletionQueue mutation =>
    rw [blobs, map_id_touchBlob, deletionQueue, mutation]
    exact ⟨hrows, hqueue, hdeferred⟩
  | insert needed inserts =>
    refine ⟨fun hmem => ?_, ?_, fun hmem => ?_⟩
    · rcases inserts.puts.ids id hmem with rfl | hbefore
      · exact hnew hid
      · exact hrows hbefore
    · rw [inserts.deletionQueue]
      exact hqueue
    · exact (inserts.mem_deferred hmem).elim hdeferred hrows

end Stores

/-! ## A batch -/

section Batches

variable {Url : Type} [UrlCrate Url] [Sha2Crate] {context : AssetWriteContext}
  {preparation : AssetBatchPreparation} {kept : Uuid → Prop}

/-- **Every store of a batch takes nothing away**, each in the state it is made in. -/
def InputsSafe (context : AssetWriteContext) (preparation : AssetBatchPreparation)
    (kept : Uuid → Prop) (sourceId : Uuid) (reviewId : String) :
    List (AssetInput Url × AssetSupply) → List Uuid → List (Uuid × Uuid) → AssetState → Prop
  | [], _, _, _ => True
  | (input, supply) :: inputs, protectedBlobIds, batchBlobs, s =>
    InputSafe context.policy preparation kept protectedBlobIds batchBlobs input s ∧
      ∀ asset t, storeInput context sourceId reviewId supply input protectedBlobIds batchBlobs s
          = (.ok asset, t) →
        InputsSafe context preparation kept sourceId reviewId inputs
          (protect protectedBlobIds asset.blobId)
          ((input.preparationId, asset.blobId) :: batchBlobs) t

/-- What holds between two stores of a batch. -/
structure BatchInv (kept : Uuid → Prop) (newIds protectedBlobIds : List Uuid)
    (batchBlobs : List (Uuid × Uuid)) (s : AssetState) : Prop where
  keys : (s.tables.blobs.map AssetBlobRow.id).Nodup
  unused : Unused newIds s
  kept : ∀ id, kept id → Safe s id
  shielded : ∀ id ∈ protectedBlobIds, Safe s id
  batch : ∀ entry ∈ batchBlobs, entry.2 ∈ protectedBlobIds

omit [UrlCrate Url] [Sha2Crate] in
theorem mem_protect {protectedBlobIds : List Uuid} {blobId id : Uuid} :
    id ∈ protect protectedBlobIds blobId ↔ id ∈ protectedBlobIds ∨ id = blobId := by
  by_cases h : blobId ∈ protectedBlobIds
  · rw [protect, if_pos h]
    exact ⟨.inl, fun hid => hid.elim (fun hmem => hmem) fun heq => heq ▸ h⟩
  · rw [protect, if_neg h, List.mem_append, List.mem_singleton]

/-- **One safe store keeps all of it**, and its own blob is protected from now on. -/
theorem BatchInv.storeInput (hcontext : context.preparation = some preparation) {sourceId : Uuid}
    {reviewId : String} {supply : AssetSupply} {input : AssetInput Url}
    {newIds protectedBlobIds : List Uuid} {batchBlobs : List (Uuid × Uuid)} {s t : AssetState}
    {asset : StoredAsset Url} (h : BatchInv kept (supply.blobId :: newIds) protectedBlobIds batchBlobs s)
    (hnew : supply.blobId ∉ newIds)
    (hsafe : InputSafe context.policy preparation kept protectedBlobIds batchBlobs input s)
    (hrun : AssetRepository.storeInput context sourceId reviewId supply input protectedBlobIds
      batchBlobs s = (.ok asset, t)) :
    BatchInv kept newIds (protect protectedBlobIds asset.blobId)
      ((input.preparationId, asset.blobId) :: batchBlobs) t := by
  have hstores := (storeInput_spec hcontext sourceId reviewId
    (List.mem_singleton_self supply.blobId) s s rfl).1 asset t hrun
  have hhead : Unused [supply.blobId] s := fun id hid =>
    h.unused id (List.mem_singleton.mp hid ▸ List.mem_cons_self)
  have hrows := (hhead supply.blobId (List.mem_singleton_self _)).1
  have hown : Safe t asset.blobId := hstores.safe hhead hsafe.undeferred
    fun entry hentry => h.shielded _ (h.batch entry hentry)
  refine ⟨hstores.keys h.keys, ?_, fun id hid => ?_, fun id hid => ?_, fun entry hentry => ?_⟩
  · exact Unused.stores (fun id hid => h.unused id (List.mem_cons_of_mem _ hid)) hnew hstores
  · exact (h.kept id hid).stores hstores h.keys hrows (.inr fun hneeds => hsafe.spared hneeds id hid)
  · rcases mem_protect.mp hid with hbefore | rfl
    · exact (h.shielded id hbefore).stores hstores h.keys hrows (.inl hbefore)
    · exact hown
  · rcases List.mem_cons.mp hentry with rfl | hbefore
    · exact mem_protect.mpr (.inr rfl)
    · exact mem_protect.mpr (.inl (h.batch entry hbefore))

/-- **A safe batch**: what was kept stays safe, and so is everything it stored. -/
theorem storeEach_safe (hcontext : context.preparation = some preparation) (sourceId : Uuid)
    (reviewId : String) (rest : List Uuid) :
    ∀ (inputs : List (AssetInput Url × AssetSupply)) (protectedBlobIds : List Uuid)
      (batchBlobs : List (Uuid × Uuid)) (s t : AssetState) (assets : List (StoredAsset Url)),
      (inputs.map (·.2.blobId) ++ rest).Nodup →
      BatchInv kept (inputs.map (·.2.blobId) ++ rest) protectedBlobIds batchBlobs s →
      InputsSafe context preparation kept sourceId reviewId inputs protectedBlobIds batchBlobs s →
      storeEach context sourceId reviewId inputs protectedBlobIds batchBlobs s = (.ok assets, t) →
      (t.tables.blobs.map AssetBlobRow.id).Nodup ∧ Unused rest t ∧ (∀ id, kept id → Safe t id) ∧
        (∀ id ∈ protectedBlobIds, Safe t id) ∧ ∀ asset ∈ assets, Safe t asset.blobId
  | [], protectedBlobIds, batchBlobs, s, t, assets, _, h, _, hrun => by
    obtain ⟨hassets, rfl⟩ := Prod.mk.inj hrun
    obtain rfl := Except.ok.inj hassets
    exact ⟨h.keys, h.unused, h.kept, h.shielded, nofun⟩
  | (input, supply) :: inputs, protectedBlobIds, batchBlobs, s, t, assets, hnodup, h, hsafe, hrun => by
    rw [List.map_cons, List.cons_append, List.nodup_cons] at hnodup
    obtain ⟨asset, u, hfirst, hothers⟩ := Tx.bind_eq_ok hrun
    obtain ⟨stored, v, hstored, hlast⟩ := Tx.bind_eq_ok hothers
    obtain ⟨hassets, rfl⟩ := Prod.mk.inj hlast
    obtain rfl := Except.ok.inj hassets
    have hnext := h.storeInput hcontext hnodup.1 hsafe.1 hfirst
    obtain ⟨hkeys, hunused, hkept, hprotected, hall⟩ := storeEach_safe hcontext sourceId reviewId rest
      inputs _ _ u v stored hnodup.2 hnext (hsafe.2 asset u hfirst) hstored
    refine ⟨hkeys, hunused, hkept, fun id hid => ?_, fun other hother => ?_⟩
    · exact hprotected id (mem_protect.mpr (.inl hid))
    · rcases List.mem_cons.mp hother with rfl | htail
      · exact hprotected _ (mem_protect.mpr (.inr rfl))
      · exact hall other htail

end Batches

/-! ## A unit of work -/

section Sessions

variable {Url : Type} [UrlCrate Url] [Sha2Crate] {context : AssetWriteContext}
  {preparation : AssetBatchPreparation}

/-- What an article was last given. -/
def AssetSession.last (session : AssetSession Url) (article : Uuid × String) :
    List (StoredAsset Url) :=
  (session.stored.lookup article).getD []

/-- The blobs of the other articles. -/
def KeptFor (session : AssetSession Url) (article : Uuid × String) (blobId : Uuid) : Prop :=
  ∃ other, other ≠ article ∧ ∃ asset ∈ session.last other, asset.blobId = blobId

/-- **A safe batch**: if it succeeds, none of its stores takes away what another article was given,
or hands out a blob that is already deferred. -/
def BatchSafe (context : AssetWriteContext) (preparation : AssetBatchPreparation)
    (session : AssetSession Url) (batch : AssetBatch Url) : Prop :=
  (∃ assets t, storeBatch context batch session.state = (.ok assets, t)) →
    InputsSafe context preparation (KeptFor session batch.article) batch.sourceId batch.reviewId
      batch.inputs [] [] (batchStart batch session.state)

/-- The new blob ids of a list of batches. -/
def newBlobIds (batches : List (AssetBatch Url)) : List Uuid :=
  batches.flatMap fun batch => batch.inputs.map (·.2.blobId)

/-- The invariant of a unit of work. -/
structure SessionInv (newIds : List Uuid) (session : AssetSession Url) : Prop where
  keys : (session.state.tables.blobs.map AssetBlobRow.id).Nodup
  unused : Unused newIds session.state
  safe : ∀ article, ∀ asset ∈ session.last article, Safe session.state asset.blobId

omit [UrlCrate Url] [Sha2Crate] in
theorem mem_foldl_blobDelete {ids : List Uuid} {row : AssetBlobRow} (hid : row.id ∉ ids) :
    ∀ {t : AssetTables}, row ∈ t.blobs → row ∈ (ids.foldl AssetTables.blobDelete t).blobs := by
  induction ids with
  | nil => exact fun h => h
  | cons id ids ih =>
    intro t h
    rw [List.mem_cons, not_or] at hid
    refine ih hid.2 (List.mem_map.mpr ⟨row, h, ?_⟩)
    rw [if_neg hid.1]

omit [UrlCrate Url] [Sha2Crate] in
/-- **Rolling back takes only new blobs.** -/
theorem Safe.rolledBack {newIds : List Uuid} {s t : AssetState} {blobId : Uuid} (h : Safe s blobId)
    (hadded : Extends newIds s t) (hunused : Unused newIds s) :
    Safe (AssetRepository.rolledBack s t) blobId := by
  obtain ⟨row, hmem, hid, hdata⟩ := h.present
  obtain ⟨ids, hids, hnew⟩ := hadded.newlyWritten
  have hout : row.id ∉ t.mutation.newlyWritten.drop s.mutation.newlyWritten.length := by
    rw [hids, List.drop_left]
    exact fun hmem' => (hunused _ (hnew _ hmem')).1 (List.mem_map_of_mem hmem)
  refine ⟨⟨row, ?_, hid, hdata⟩, ?_, ?_⟩
  · exact List.mem_filter.mpr ⟨mem_foldl_blobDelete hout hmem, by simpa using hout⟩
  · rw [(takes_rolledBack s t).deletionQueue]
    exact h.unqueued
  · rw [mutation_rolledBack hadded]
    exact h.undeferred

omit [UrlCrate Url] [Sha2Crate] in
theorem Unused.rolledBack {newIds rest : List Uuid} {s t : AssetState} (h : Unused rest s)
    (hadded : Extends newIds s t) : Unused rest (AssetRepository.rolledBack s t) := by
  have htakes := takes_rolledBack s t
  intro id hid
  obtain ⟨hrows, hqueue, hdeferred⟩ := h id hid
  rw [htakes.deletionQueue, mutation_rolledBack hadded]
  exact ⟨fun hmem => hrows (htakes.ids hmem), hqueue, hdeferred⟩

omit [UrlCrate Url] [Sha2Crate] in
theorem last_cons (session : AssetSession Url) (t : AssetState) (article other : Uuid × String)
    (assets : List (StoredAsset Url)) :
    AssetSession.last ⟨t, (article, assets) :: session.stored⟩ other
      = if other = article then assets else session.last other := by
  by_cases h : other = article
  · simp [AssetSession.last, h]
  · rw [if_neg h, AssetSession.last, AssetSession.last, List.lookup_cons, beq_false_of_ne h]

/-- **A safe batch keeps the invariant.** -/
theorem SessionInv.step (hcontext : context.preparation = some preparation)
    {session : AssetSession Url} {batch : AssetBatch Url} {rest : List Uuid}
    (hnodup : (batch.inputs.map (·.2.blobId) ++ rest).Nodup)
    (h : SessionInv (batch.inputs.map (·.2.blobId) ++ rest) session)
    (hsafe : BatchSafe context preparation session batch) :
    SessionInv rest (session.step context batch) := by
  have hrest : Unused rest session.state := fun id hid => h.unused id (List.mem_append_right _ hid)
  have hcases := storeBatch_cases hcontext batch session.state
  rw [AssetSession.step]
  rcases hrun : storeBatch context batch session.state with ⟨outcome, t⟩
  rw [hrun] at hcases
  cases hcases with
  | refused e => exact ⟨h.keys, hrest, h.safe⟩
  | empty =>
    refine ⟨h.keys, hrest, fun other asset hasset => ?_⟩
    rw [last_cons] at hasset
    split at hasset
    · cases hasset
    · exact h.safe other asset hasset
  | @stored assets _ run =>
    have hsame := sameCache_batchStart batch session.state
    have hstart : BatchInv (KeptFor session batch.article) (batch.inputs.map (·.2.blobId) ++ rest) []
        [] (batchStart batch session.state) := by
      refine ⟨?_, h.unused.sameCache hsame, ?_, fun _ hmem => absurd hmem List.not_mem_nil,
        fun _ hmem => absurd hmem List.not_mem_nil⟩
      · rw [hsame.blobs]
        exact h.keys
      · rintro id ⟨other, -, asset, hasset, rfl⟩
        exact (h.safe other asset hasset).sameCache hsame
    obtain ⟨hkeys, hunused, hkept, -, hall⟩ := storeEach_safe hcontext batch.sourceId batch.reviewId
      rest batch.inputs [] [] _ t assets hnodup hstart (hsafe ⟨assets, t, hrun⟩) run
    refine ⟨hkeys, hunused, fun other asset hasset => ?_⟩
    rw [last_cons] at hasset
    split at hasset
    · exact hall asset hasset
    · rename_i hother
      exact hkept _ ⟨other, hother, asset, hasset, rfl⟩
  | @rolledBack e u added =>
    have hbatch : Unused (batch.inputs.map (·.2.blobId)) session.state :=
      fun id hid => h.unused id (List.mem_append_left _ hid)
    exact ⟨(takes_rolledBack _ u).keys h.keys, hrest.rolledBack added,
      fun other asset hasset => (h.safe other asset hasset).rolledBack added hbatch⟩

theorem SessionInv.run (hcontext : context.preparation = some preparation) :
    ∀ (batches : List (AssetBatch Url)) (session : AssetSession Url), (newBlobIds batches).Nodup →
      SessionInv (newBlobIds batches) session →
      Meets (AssetSession.step context) (BatchSafe context preparation) session batches →
      SessionInv [] (Machinery.run (AssetSession.step context) session batches)
  | [], _, _, h, _ => h
  | batch :: batches, session, hnodup, h, hmeets => by
    rw [newBlobIds, List.flatMap_cons] at hnodup h
    exact SessionInv.run hcontext batches _ (List.nodup_append.mp hnodup).2.1
      (h.step hcontext hnodup hmeets.1) hmeets.2

/-- **Stored assets survive their own commit**: of every unit of work over tables with a primary key,
with new blob ids not yet in use and safe batches only, every asset that an article was last given
has its bytes after the commit and is not queued for deletion. -/
theorem stored_assets_survive (policy : AssetCachePolicy) (tables : AssetTables)
    (work : AssetUnitOfWork Url) (preparation : AssetBatchPreparation)
    (hkeys : (tables.blobs.map AssetBlobRow.id).Nodup)
    (hnew : (newBlobIds work.batches).Nodup)
    (hunused : ∀ id ∈ newBlobIds work.batches,
      id ∉ tables.blobs.map AssetBlobRow.id ∧ id ∉ tables.deletionQueue)
    (hsafe : Meets (AssetSession.step ⟨policy, some preparation, work.startedAt⟩)
      (BatchSafe ⟨policy, some preparation, work.startedAt⟩ preparation) (.begin tables)
      work.batches) :
    ∀ article, ∀ asset ∈ (work.run policy tables preparation).last article,
      Survives (commit (work.run policy tables preparation).state) asset.blobId := by
  intro article asset hasset
  have hstart : SessionInv (newBlobIds work.batches) (.begin tables : AssetSession Url) :=
    ⟨hkeys, fun id hid => ⟨(hunused id hid).1, (hunused id hid).2, nofun⟩, nofun⟩
  exact ((SessionInv.run rfl work.batches _ hnew hstart hsafe).safe article asset hasset).commit

end Sessions

/-! ## Two articles in one unit of work -/

section Samples

attribute [local instance] plainDigest

/-- Two images of `size` bytes, of two articles. -/
def twoArticles (size : ℕ) : AssetUnitOfWork PlainUrl where
  prepared :=
    [plainImage ⟨"https://a/p", isPlainText_firstImage⟩ 1 size 1,
      plainImage ⟨"https://a/q", isPlainText_secondImage⟩ 2 size 2]
  batches :=
    [⟨true, ⟨1⟩, "first",
        [(plainImage ⟨"https://a/p", isPlainText_firstImage⟩ 1 size 1, ⟨⟨10⟩, ⟨20⟩, 1⟩)]⟩,
      ⟨true, ⟨1⟩, "second",
        [(plainImage ⟨"https://a/q", isPlainText_secondImage⟩ 2 size 2, ⟨⟨11⟩, ⟨21⟩, 2⟩)]⟩]
  startedAt := 0

/-- What an empty store prepares for them. -/
def nothingMatched : AssetBatchPreparation := ⟨[(⟨2⟩, none), (⟨1⟩, none), (⟨1⟩, none), (⟨2⟩, none)], []⟩

/-- Three bytes each fit the cache of ten. -/
theorem stored_assets_survive_small :
    (∃ asset, asset ∈ ((twoArticles 3).run smallCache .empty nothingMatched).last (⟨1⟩, "first")) ∧
      ∀ article, ∀ asset ∈ ((twoArticles 3).run smallCache .empty nothingMatched).last article,
        Survives (commit ((twoArticles 3).run smallCache .empty nothingMatched).state)
          asset.blobId := by
  refine ⟨⟨_, List.mem_singleton_self _⟩, stored_assets_survive smallCache .empty (twoArticles 3)
    nothingMatched List.nodup_nil (by decide) (by decide) ?_⟩
  refine ⟨fun _ => ⟨⟨fun blobId h => ?_, ?_⟩, fun _ _ _ => trivial⟩,
    fun _ => ⟨⟨fun blobId h => ?_, ?_⟩, fun _ _ _ => trivial⟩, trivial⟩
  · have hnone : nothingMatched.matchingBlob
        (plainImage ⟨"https://a/p", isPlainText_firstImage⟩ 1 3 1) = .ok none := rfl
    exact absurd (hnone.symm.trans h) nofun
  · rintro _ blobId ⟨other, -, asset, hasset, -⟩
    cases hasset
  · have hnone : nothingMatched.matchingBlob
        (plainImage ⟨"https://a/q", isPlainText_secondImage⟩ 2 3 2) = .ok none := rfl
    exact absurd (hnone.symm.trans h) nofun
  · intro _ blobId _ _ row _ _
    exact le_trans (by decide +kernel) (Nat.le_add_right _ _)

/-- Six bytes each do not: the second batch evicts the image of the first, and **the commit queues an
asset it has just handed out**. -/
theorem stored_asset_lost :
    prepareAssetBatch .empty (twoArticles 6).prepared = .ok nothingMatched ∧
      ¬∀ article, ∀ asset ∈ ((twoArticles 6).run smallCache .empty nothingMatched).last article,
        Survives (commit ((twoArticles 6).run smallCache .empty nothingMatched).state)
          asset.blobId := by
  refine ⟨by decide +kernel, fun h => ?_⟩
  have hfirst : (⟨10⟩ : Uuid) ∈ (((twoArticles 6).run smallCache .empty nothingMatched).last
      (⟨1⟩, "first")).map (·.blobId) := by decide +kernel
  obtain ⟨asset, hasset, hid⟩ := List.mem_map.mp hfirst
  refine (h _ asset hasset).unqueued ?_
  rw [hid]
  decide +kernel

end Samples

end AssetRepository

end Werrss
