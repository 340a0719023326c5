import Werrss.Persistence.AssetEvolution

/-!
# Persistence/AssetIdentity — what a public asset id denotes over a run

    store ─▸ id ↦ blob        evict, delete, maintain ─▸ id ↦ nothing        restore ─▸ id ↦ blob′

`/assets/{id}` is embedded in articles, so what `read_and_touch` answers for one id should never
change.  Storing, evicting and deleting keep that promise.  **A restore points the record at whatever
was fetched**: it keeps the promise exactly where that is what the id denoted before.
-/

open Machinery

namespace Werrss

namespace AssetRepository

open Tx AssetTables

section Cache

variable {Url : Type} [UrlCrate Url] [Sha2Crate]

/-! ## Reading -/

/-- `AssetRead`. -/
inductive AssetRead (Url : Type)
  | available (blob : AssetBlob)
  | missing (sourceUrl : Url)

/-- `read_and_touch`. -/
def readAndTouch (assetId : Uuid) (clock : DateTime) : AssetTx (Option (AssetRead Url)) := do
  let s ← Tx.read
  match s.tables.records.find? fun record =>
      record.id = assetId ∧ s.tables.articleAssets.any (·.assetRecordId = record.id) with
  | none => return none
  | some record =>
    match UrlCrate.parse record.sourceUrl with
    | none => Tx.fail .invalidUrl
    | some url => do
      let sourceUrl ← Tx.ofExcept (normalizeUrl url)
      match record.blobId.filter (· ∉ s.tables.deletionQueue) with
      | none => return some (.missing sourceUrl)
      | some blobId => do
        let blob ← Tx.ofExcept (AssetRepositoryError.ofBlobStore (s.tables.blobRead blobId))
        match blob with
        | none => return some (.missing sourceUrl)
        | some blob => do
          Tx.modify fun s => { s with tables := s.tables.touchBlob blobId clock }
          return some (.available blob)

omit [UrlCrate Url] [Sha2Crate] in
/-- The record a statement selects among those an article shows is the record of the id. -/
theorem findRecord_of_shown {t : AssetTables} {assetId : Uuid} {record : AssetRecordRow}
    (h : (t.records.find? fun record => decide
      (record.id = assetId ∧ t.articleAssets.any (·.assetRecordId = record.id))) = some record) :
    t.findRecord assetId = some record := by
  have hshown := List.find?_some h
  simp only [decide_eq_true_eq] at hshown
  have hsame : (fun record : AssetRecordRow => decide
      (record.id = assetId ∧ t.articleAssets.any (·.assetRecordId = record.id)))
      = fun record => decide (record.id = assetId) := by
    funext other
    by_cases hid : other.id = assetId
    · simpa [hid, hshown.1] using hshown.2
    · simp [hid]
  rwa [hsame] at h

/-- **An available read shows what the id denotes.** -/
theorem readAndTouch_spec (assetId : Uuid) (clock : DateTime) (s : AssetState) :
    Tx.Triple (· = s) (readAndTouch assetId clock : AssetTx (Option (AssetRead Url)))
      (fun found _ => ∀ blob, found = some (.available blob) → s.tables.Denotes assetId blob)
      (fun _ => True) := by
  refine .read_bind fun t ht => ?_
  subst ht
  split
  · exact .pure nofun
  rename_i record hrecord
  split
  · exact .fail fun _ _ => trivial
  refine .ofExcept_bind (fun _ _ => trivial) fun sourceUrl _ => ?_
  split
  · exact .pure fun _ _ _ h => (nomatch h)
  rename_i blobId hblobId
  refine .ofExcept_bind (fun _ _ => trivial) fun found hfound => ?_
  split
  · exact .pure fun _ _ _ h => (nomatch h)
  rename_i blob
  refine .modify_bind (R := fun _ => True) (.pure fun _ _ other h => ?_) fun _ _ => trivial
  obtain rfl : blob = other := by simpa using h
  refine ⟨record, blobId, findRecord_of_shown hrecord, ?_, eq_ok_of_ofBlobStore hfound⟩
  exact (Option.filter_eq_some_iff.mp hblobId).1

/-- Reading writes no contents. -/
theorem evolves_readAndTouch {blobIds recordIds : List Uuid} (assetId : Uuid) (clock : DateTime) :
    Moves (StateEvolves blobIds recordIds)
      (readAndTouch assetId clock : AssetTx (Option (AssetRead Url))) := by
  refine .bind .read fun s => ?_
  split
  · exact .pure _
  split
  · exact .fail _
  refine .bind (.ofExcept _) fun sourceUrl => ?_
  split
  · exact .pure _
  refine .bind (.ofExcept _) fun blob => ?_
  split
  · exact .pure _
  · exact .bind (.modify fun s => .touchBlob _ _) fun _ => .pure _

/-! ## Restoring -/

/-- **What a restore would make the record denote**: the blob it reuses, or the one it inserts if the
cache finds room for it; nothing if it does not point the record anywhere. -/
def restoredAs (policy : AssetCachePolicy) (tables : AssetTables) (request : AssetRestore Url) :
    Option AssetBlob :=
  if request.leaseIsLive then
    match restorePlan policy tables request with
    | .ok (.reuse blobId) => (tables.blobRead blobId).toOption.join
    | .ok .insert =>
      match (enforceCacheLimit (insertLimit policy {} request.input.bytes.length [])
          ⟨tables, {}⟩).1 with
      | .ok _ => some ⟨request.input.bytes, request.input.mediaType, request.input.checksum⟩
      | .error _ => none
    | _ => none
  else none

omit [UrlCrate Url] [Sha2Crate] in
/-- A blob that was put has its row. -/
theorem findBlob_of_blobPut {t u : AssetTables} {blobId : Uuid} {blob : AssetBlob}
    {startedAt clock : DateTime} (h : t.blobPut blobId blob startedAt clock = .ok u) :
    ∃ row, u.findBlob blobId = some row ∧ row.data = some blob.bytes ∧
      row.byteSize = blob.byteSize ∧ row.mediaType = blob.mediaType ∧ row.checksum = blob.checksum := by
  rw [AssetTables.blobPut] at h
  split_ifs at h with hsize
  split at h
  · rename_i hnone
    obtain rfl := Except.ok.inj h
    refine ⟨⟨blobId, blob.checksum, blob.byteSize, hsize, blob.mediaType, some blob.bytes,
      startedAt⟩, ?_, rfl, rfl, rfl, rfl⟩
    rw [findBlob] at hnone ⊢
    rw [List.find?_append, hnone]
    simp
  · rename_i row hrow
    split_ifs at h with hconflict hdata
    · obtain rfl := Except.ok.inj h
      simp only [not_or, not_not] at hconflict
      obtain ⟨hchecksum, hmedia, hsized, -⟩ := hconflict
      refine ⟨{ row with data := some blob.bytes, lastAccessedAt := clock }, ?_, rfl, hsized, hmedia,
        hchecksum⟩
      refine (Evolves.findBlob_updateBlob ?_ blobId blobId).trans ?_
      · exact fun _ => rfl
      · rw [hrow, Option.map_some, if_pos (findBlob_eq_some hrow).2]
    · obtain rfl := Except.ok.inj h
      simp only [not_or, not_not] at hconflict
      obtain ⟨hchecksum, hmedia, hsized, hbytes⟩ := hconflict
      refine ⟨row, hrow, ?_, hsized, hmedia, hchecksum⟩
      rcases hcase : row.data with _ | bytes
      · rw [hcase] at hdata
        exact absurd rfl hdata
      · rw [hcase] at hbytes
        simpa using hbytes

omit [UrlCrate Url] in
/-- What is read has its row. -/
theorem mem_of_blobRead {t : AssetTables} {blobId : Uuid} {blob : AssetBlob}
    (h : t.blobRead blobId = .ok (some blob)) : blobId ∈ t.blobs.map AssetBlobRow.id := by
  rw [blobRead_eq] at h
  rcases hfind : t.findBlob blobId with _ | row
  · rw [hfind] at h
    cases h
  · obtain ⟨hmem, hid⟩ := findBlob_eq_some hfind
    exact hid ▸ List.mem_map_of_mem hmem

/-- The blob a restore reuses is in the tables. -/
theorem mem_of_found {policy : AssetCachePolicy} {tables : AssetTables}
    {request : AssetRestore Url} {blobId : Uuid} (h : Found policy tables request (some blobId)) :
    blobId ∈ tables.blobs.map AssetBlobRow.id := by
  obtain ⟨row, hrow, rfl⟩ := List.mem_map.mp (mem_of_matchingCandidate h.candidate)
  rw [candidateRows, List.mem_insertionSort] at hrow
  exact List.mem_map_of_mem (List.mem_filter.mp hrow).1

omit [UrlCrate Url] in
/-- **A blob that was put is read back.** -/
theorem blobRead_of_blobPut {t u : AssetTables} {blobId : Uuid} {blob : AssetBlob}
    {startedAt clock : DateTime} (h : t.blobPut blobId blob startedAt clock = .ok u)
    (hblob : AssetBlob.new blob.bytes blob.mediaType blob.checksum = .ok blob) :
    u.blobRead blobId = .ok (some blob) := by
  obtain ⟨row, hrow, hdata, hsize, hmedia, hchecksum⟩ := findBlob_of_blobPut h
  have hlength : ¬row.byteSize ≠ blob.bytes.length := not_not.mpr hsize
  rw [blobRead_of_findBlob hrow, AssetBlobRow.read, hdata]
  dsimp only
  rw [if_neg hlength, hmedia, hchecksum, hblob]
  rfl

omit [UrlCrate Url] in
/-- **An insertion that succeeds** found room, and its blob is read back. -/
theorem insertBlob_reads (context : AssetWriteContext) (supply : AssetSupply)
    (input : AssetInput Url) (byteSize : ℕ) (protectedBlobIds : List Uuid) (s : AssetState) :
    Tx.Triple (· = s) (insertBlob context supply input byteSize protectedBlobIds)
      (fun inserted t => inserted.1 = supply.blobId ∧
        (∃ evicted u, enforceCacheLimit
          (insertLimit context.policy s.mutation byteSize protectedBlobIds) s = (.ok evicted, u)) ∧
        t.tables.blobRead supply.blobId
          = .ok (some ⟨input.bytes, input.mediaType, input.checksum⟩)) (fun _ => True) := by
  refine .read_bind fun before hbefore => ?_
  subst hbefore
  refine .bind ((enforceCacheLimit_run _ before).mono (fun _ h => h) (fun _ _ h => h)
    fun _ _ => trivial) fun evicted => .each fun t ⟨henforced, _⟩ => ?_
  refine .modify_bind (R := fun _ => True) ?_ fun _ _ => trivial
  refine .ofExcept_bind (fun _ _ => trivial) fun blob hblob => .read_bind fun u _ => ?_
  have hnew := eq_ok_of_ofBlobStore hblob
  obtain rfl : blob = ⟨input.bytes, input.mediaType, input.checksum⟩ := by
    rw [AssetBlob.new] at hnew
    split_ifs at hnew
    exact (Except.ok.inj hnew).symm
  refine .ofExcept_bind (fun _ _ => trivial) fun tables hput => ?_
  have hread := blobRead_of_blobPut (eq_ok_of_ofBlobStore hput) hnew
  refine .modify_bind (R := fun v => v.tables = tables) ?_ fun _ _ => rfl
  refine .ite (fun _ => ?_) fun _ => .fail fun _ _ => trivial
  refine .modify_bind (R := fun v => v.tables = tables) (.pure fun v hv => ?_) fun _ hv => hv
  exact ⟨rfl, ⟨evicted, t, henforced⟩, hv ▸ hread⟩

omit [UrlCrate Url] in
/-- A record that was pointed at a blob denotes what the blob is read as. -/
theorem blobRead_of_repointed {t : AssetTables} {f : AssetRecordRow → AssetRecordRow}
    {recordId blobId : Uuid} {clock : DateTime} (hid : ∀ record, (f record).id = record.id)
    (hblob : ∀ record, (f record).blobId = some blobId) {blob : AssetBlob}
    (h : ((t.updateRecord recordId f).touchBlob blobId clock).Denotes recordId blob) :
    t.blobRead blobId = .ok (some blob) := by
  obtain ⟨record, pointed, hrecord, hpoints, hread⟩ := h
  have hfound : (t.updateRecord recordId f).findRecord recordId = some record := hrecord
  rw [findRecord_updateRecord hid, Option.map_eq_some_iff] at hfound
  obtain ⟨old, hold, rfl⟩ := hfound
  rw [if_pos (findRecord_id hold)] at hpoints
  obtain rfl := Option.some.inj ((hblob old).symm.trans hpoints)
  have htouched : Evolves [] [] (t.updateRecord recordId f)
      ((t.updateRecord recordId f).touchBlob blobId clock) := .touchBlob blobId clock
  exact htouched.blob blobId List.not_mem_nil blob hread

/-- **Behind a restore that succeeded**, the record points at the blob. -/
structure Repointed (request : AssetRestore Url) (blobId : Uuid) (s t : AssetState) : Prop where
  live : request.leaseIsLive = true
  evolves : blobId ∈ s.tables.blobs.map AssetBlobRow.id →
    StateEvolves [request.supply.blobId] [request.assetId] s t
  reads : ∀ blob, t.tables.Denotes request.assetId blob →
    s.tables.blobRead blobId = .ok (some blob)

theorem repointed_finishRestore (request : AssetRestore Url) (blobId : Uuid) (s : AssetState) :
    Tx.Triple (· = s) (finishRestore request blobId) (fun _ t => Repointed request blobId s t)
      (fun _ => True) := by
  rw [finishRestore]
  refine .ite (fun hlive => ?_) fun _ => .fail fun _ _ => trivial
  refine .ofExcept_bind (fun _ _ => trivial) fun finalUrl _ => ?_
  refine .modify_bind (R := fun t => Repointed request blobId s t) (.pure fun t ht => ht) ?_
  rintro t rfl
  refine ⟨hlive, fun hmem => ?_, fun blob hdenotes => ?_⟩
  · refine Evolves.trans (.repoint ?_ ?_ (List.mem_singleton_self _) hmem) (.touchBlob _ _)
    · exact fun _ => rfl
    · exact fun _ => rfl
  · refine blobRead_of_repointed ?_ ?_ hdenotes
    · exact fun _ => rfl
    · exact fun _ => rfl

/-- **What a restore does**: nothing to the tables, or it makes a record it has found denote what
`restoredAs` says. -/
theorem restoreMissingAsset_reads (policy : AssetCachePolicy) (request : AssetRestore Url)
    (tables : AssetTables) :
    Tx.Triple (· = ⟨tables, {}⟩) (restoreMissingAsset policy request)
      (fun _ t => t.tables = tables ∨ (request.assetId ∈ tables.records.map AssetRecordRow.id ∧
        Evolves [request.supply.blobId] [request.assetId] tables t.tables ∧
        ∀ blob, t.tables.Denotes request.assetId blob →
          restoredAs policy tables request = some blob)) (fun _ => True) := by
  refine .read_bind fun s hs => .ofExcept_bind (fun _ _ => trivial) fun plan hplan => ?_
  subst hs
  rcases restorePlan_cases hplan with rfl | rfl | ⟨rfl, hfound⟩ | ⟨blobId, rfl, hfound⟩
  · exact .pure fun t ht => .inl (ht ▸ rfl)
  · exact .pure fun t ht => .inl (ht ▸ rfl)
  · refine .bind ((insertBlob_reads ⟨policy, none, request.startedAt⟩ request.supply request.input
      request.input.bytes.length [] ⟨tables, {}⟩).self.mono (fun _ h => h) (fun _ _ h => h)
      fun _ _ => trivial) fun inserted => .each fun u ⟨hrun, hid, ⟨evicted, v, hroom⟩, hread⟩ => ?_
    have hevolves : StateEvolves [request.supply.blobId] [request.assetId] ⟨tables, {}⟩ u :=
      (evolves_insertBlob _ (List.mem_singleton_self _) _ _ _).ok hrun
    refine (repointed_finishRestore request inserted.1 u).mono (fun _ h => h) (fun _ t ht => ?_)
      fun _ h => h
    rw [hid] at ht
    have hmem : request.supply.blobId ∈ u.tables.blobs.map AssetBlobRow.id := mem_of_blobRead hread
    refine .inr ⟨hfound.record, hevolves.trans (ht.evolves hmem), fun blob hdenotes => ?_⟩
    have hblob := hread.symm.trans (ht.reads blob hdenotes)
    rw [restoredAs, if_pos ht.live, hplan]
    dsimp only
    rw [hroom]
    exact Except.ok.inj hblob
  · refine (repointed_finishRestore request blobId ⟨tables, {}⟩).mono (fun _ h => h)
      (fun _ t ht => ?_) fun _ h => h
    have hmem : blobId ∈ tables.blobs.map AssetBlobRow.id := mem_of_found hfound
    refine .inr ⟨hfound.record, ht.evolves hmem, fun blob hdenotes => ?_⟩
    rw [restoredAs, if_pos ht.live, hplan]
    dsimp only
    rw [ht.reads blob hdenotes]
    rfl

/-! ## Runs -/

/-- What happens to the cache: the operations that commit to it, the deletion of an article's
relationships, and a read. -/
inductive AssetEvent (Url : Type)
  | operation (operation : AssetOperation Url)
  | deleteArticle (sourceId : Uuid) (reviewId : String)
  | read (assetId : Uuid) (clock : DateTime)

namespace AssetEvent

def apply (policy : AssetCachePolicy) (tables : AssetTables) : AssetEvent Url → AssetTables
  | .operation performed => (perform policy tables performed).1
  | .deleteArticle sourceId reviewId => tables.deleteArticleAssets sourceId reviewId
  | .read assetId clock =>
    match (readAndTouch assetId clock : AssetTx (Option (AssetRead Url))) ⟨tables, {}⟩ with
    | (.ok _, t) => t.tables
    | (.error _, _) => tables

def suppliedBlobIds : AssetEvent Url → List Uuid
  | .operation performed => performed.suppliedBlobIds
  | _ => []

def suppliedRecordIds : AssetEvent Url → List Uuid
  | .operation performed => performed.suppliedRecordIds
  | _ => []

/-- **One event** writes under the ids it was handed, or it is a restore. -/
theorem evolves_apply (policy : AssetCachePolicy) (tables : AssetTables) (event : AssetEvent Url) :
    Evolves event.suppliedBlobIds event.suppliedRecordIds tables (event.apply policy tables) ∨
      ∃ request, event = .operation (.restore request) ∧
        request.assetId ∈ tables.records.map AssetRecordRow.id ∧
        Evolves event.suppliedBlobIds [request.assetId] tables (event.apply policy tables) ∧
        ∀ blob, (event.apply policy tables).Denotes request.assetId blob →
          restoredAs policy tables request = some blob := by
  cases event with
  | deleteArticle sourceId reviewId => exact .inl (.of_eq rfl rfl)
  | read assetId clock =>
    have hmoves : Moves (StateEvolves [] [])
        (readAndTouch assetId clock : AssetTx (Option (AssetRead Url))) :=
      evolves_readAndTouch assetId clock
    left
    rw [apply]
    split
    · rename_i hrun
      exact hmoves.ok hrun
    · exact .refl tables
  | operation performed =>
    rw [apply]
    cases performed with
    | unitOfWork work =>
      left
      rw [perform]
      split
      · exact .refl tables
      · refine Evolves.trans (evolves_session _ work.batches (.begin tables) (fun batch hbatch => ?_)
          fun batch hbatch => ?_) (.of_eq rfl rfl)
        · exact fun id hid => List.mem_flatMap_of_mem hbatch hid
        · exact fun id hid => List.mem_flatMap_of_mem hbatch hid
    | maintenance clock hasActiveRepair =>
      have hmoves : Moves (StateEvolves [] [])
          (Werrss.AssetRepository.maintenance policy clock hasActiveRepair) :=
        evolves_maintenance policy clock hasActiveRepair
      left
      rw [perform]
      split
      · rename_i hrun
        exact hmoves.ok hrun
      · exact .refl tables
    | drain => exact .inl ((Evolves.foldl_blobDelete _ tables).trans (.of_eq rfl rfl))
    | restore request =>
      have hspec := restoreMissingAsset_reads policy request tables ⟨tables, {}⟩ rfl
      rw [perform]
      split
      · rename_i result t hrun
        rcases hspec.1 _ t hrun with hsame | ⟨hmem, hevolves, hreads⟩
        · exact .inl (hsame ▸ .refl t.tables)
        · exact .inr ⟨request, rfl, hmem, hevolves, hreads⟩
      · exact .inl (.foldl_blobDelete _ tables)

/-- The tables after an event, and all tables before it. -/
def extend (policy : AssetCachePolicy) (history : AssetTables × List AssetTables)
    (event : AssetEvent Url) : AssetTables × List AssetTables :=
  (event.apply policy history.1, history.1 :: history.2)

/-- **A restore that points a record elsewhere has fetched what the record's id denoted**, whenever it
denoted anything. -/
def RestoresSame (policy : AssetCachePolicy) (history : AssetTables × List AssetTables) :
    AssetEvent Url → Prop
  | .operation (.restore request) =>
    ∀ blob ∈ restoredAs policy history.1 request, ∀ t ∈ history.1 :: history.2,
      ∀ old ∈ t.denoted request.assetId, blob = old
  | _ => True

instance (policy : AssetCachePolicy) (history : AssetTables × List AssetTables)
    (event : AssetEvent Url) : Decidable (RestoresSame policy history event) := by
  cases event with
  | operation performed =>
    cases performed with
    | restore request => exact inferInstanceAs (Decidable (∀ blob ∈ restoredAs policy history.1 request,
        ∀ t ∈ history.1 :: history.2, ∀ old ∈ t.denoted request.assetId, blob = old))
    | _ => exact inferInstanceAs (Decidable True)
  | _ => exact inferInstanceAs (Decidable True)

end AssetEvent

/-- The tables after `events`, from the empty store. -/
def afterEvents (policy : AssetCachePolicy) (events : List (AssetEvent Url)) : AssetTables :=
  Machinery.run (AssetEvent.apply policy) .empty events

/-- Every id that was handed out was handed out once. -/
structure Supplied (events : List (AssetEvent Url)) : Prop where
  blobIds : (events.flatMap AssetEvent.suppliedBlobIds).Nodup
  recordIds : (events.flatMap AssetEvent.suppliedRecordIds).Nodup

/-- A read of the run answered with this blob. -/
def Answers (policy : AssetCachePolicy) (events : List (AssetEvent Url)) (assetId : Uuid)
    (blob : AssetBlob) : Prop :=
  ∃ before clock rest t, events = before ++ .read assetId clock :: rest ∧
    (readAndTouch assetId clock : AssetTx (Option (AssetRead Url))) ⟨afterEvents policy before, {}⟩
      = (.ok (some (.available blob)), t)

omit [UrlCrate Url] [Sha2Crate] in
theorem Supplied.of_append {events rest : List (AssetEvent Url)} (h : Supplied (events ++ rest)) :
    Supplied events := by
  obtain ⟨hblobIds, hrecordIds⟩ := h
  rw [List.flatMap_append, List.nodup_append'] at hblobIds hrecordIds
  exact ⟨hblobIds.1, hrecordIds.1⟩

variable {policy : AssetCachePolicy}

/-- What a read answered, its id denoted then. -/
theorem Answers.denotes {events : List (AssetEvent Url)} {assetId : Uuid} {blob : AssetBlob}
    (h : Answers policy events assetId blob) :
    ∃ before, before <+: events ∧ (afterEvents policy before).Denotes assetId blob := by
  obtain ⟨before, clock, rest, t, rfl, hread⟩ := h
  have hspec := @readAndTouch_spec Url _ _ assetId clock ⟨afterEvents policy before, {}⟩ _ rfl
  exact ⟨before, List.prefix_append _ _, hspec.1 _ t hread blob rfl⟩

theorem afterEvents_concat (events : List (AssetEvent Url)) (event : AssetEvent Url) :
    afterEvents policy (events ++ [event]) = event.apply policy (afterEvents policy events) := by
  rw [afterEvents, run_append]
  rfl

/-- The history of a run holds the tables after each of its prefixes. -/
theorem run_extend (events : List (AssetEvent Url)) :
    (Machinery.run (AssetEvent.extend policy) (.empty, []) events).1 = afterEvents policy events ∧
      ∀ earlier, earlier <+: events → afterEvents policy earlier ∈ afterEvents policy events ::
        (Machinery.run (AssetEvent.extend policy) (.empty, []) events).2 := by
  induction events using List.reverseRecOn with
  | nil =>
    refine ⟨rfl, fun earlier hprefix => ?_⟩
    rw [List.prefix_nil.mp hprefix]
    exact List.mem_cons_self
  | append_singleton events event ih =>
    obtain ⟨hnow, hearlier⟩ := ih
    rw [run_append]
    refine ⟨?_, fun earlier hprefix => ?_⟩
    · rw [afterEvents_concat, ← hnow]
      rfl
    · rcases List.prefix_concat_iff.mp hprefix with rfl | hprefix
      · exact List.mem_cons_self
      · refine List.mem_cons_of_mem _ ?_
        change _ ∈ (Machinery.run (AssetEvent.extend policy) (.empty, []) events).1 :: _
        rw [hnow]
        exact hearlier earlier hprefix

/-- All ids in the tables were handed out in the run. -/
theorem known_afterEvents (events : List (AssetEvent Url)) :
    (afterEvents policy events).Known (· ∈ events.flatMap AssetEvent.suppliedBlobIds)
      (· ∈ events.flatMap AssetEvent.suppliedRecordIds) := by
  induction events using List.reverseRecOn with
  | nil => exact ⟨nofun, nofun, nofun⟩
  | append_singleton events event ih =>
    rw [afterEvents_concat, List.flatMap_append, List.flatMap_append, List.flatMap_singleton,
      List.flatMap_singleton]
    have hgrown := ih.mono (fun id hid => List.mem_append_left event.suppliedBlobIds hid)
      fun id hid => List.mem_append_left event.suppliedRecordIds hid
    rcases AssetEvent.evolves_apply policy (afterEvents policy events) event with
      hevolves | ⟨request, -, hmem, hevolves, -⟩
    · exact hevolves.known (fun id hid => List.mem_append_right _ hid)
        (fun id hid => List.mem_append_right _ hid) hgrown
    · refine hevolves.known (fun id hid => List.mem_append_right _ hid) (fun id hid => ?_) hgrown
      obtain ⟨record, hrecord, hid'⟩ := List.mem_map.mp hmem
      rw [List.mem_singleton.mp hid, ← hid']
      exact hgrown.records record hrecord

/-- **What an id denotes, it denoted whenever it denoted anything.** -/
theorem denotes_agree {events : List (AssetEvent Url)} (hsupplied : Supplied events)
    (hsame : Meets (AssetEvent.extend policy) (AssetEvent.RestoresSame policy) (.empty, []) events) :
    ∀ earlier, earlier <+: events → ∀ assetId blob blob',
      (afterEvents policy earlier).Denotes assetId blob →
      (afterEvents policy events).Denotes assetId blob' → blob = blob' := by
  induction events using List.reverseRecOn with
  | nil =>
    intro earlier hprefix assetId blob blob' h h'
    rw [List.prefix_nil.mp hprefix] at h
    exact h.unique h'
  | append_singleton events event ih =>
    intro earlier hprefix assetId blob blob' h h'
    rcases List.prefix_concat_iff.mp hprefix with rfl | hshorter
    · exact h.unique h'
    obtain ⟨hbefore, hlast, -⟩ := (meets_append _ _ _).mp hsame
    obtain ⟨hblobIds, hrecordIds⟩ := hsupplied
    rw [List.flatMap_append, List.flatMap_singleton, List.nodup_append'] at hblobIds hrecordIds
    have hagree := ih ⟨hblobIds.1, hrecordIds.1⟩ hbefore earlier hshorter assetId blob
    rw [afterEvents_concat] at h'
    have hknown : (afterEvents policy events).Known _ _ := known_afterEvents events
    have hfresh : ∀ id ∈ event.suppliedBlobIds, id ∉ events.flatMap AssetEvent.suppliedBlobIds :=
      fun id hid hold => hblobIds.2.2 hold hid
    -- an id that denoted something was handed out before
    have hold : assetId ∉ event.suppliedRecordIds := by
      obtain ⟨record, -, hrecord, -⟩ := h
      have hmem := (known_afterEvents earlier).records record (List.mem_of_find?_eq_some hrecord)
      rw [findRecord_id hrecord] at hmem
      obtain ⟨old, hmem, hid⟩ := List.mem_flatMap.mp hmem
      exact hrecordIds.2.2 (List.mem_flatMap_of_mem (hshorter.subset hmem) hid)
    rcases AssetEvent.evolves_apply policy (afterEvents policy events) event with
      hevolves | ⟨request, rfl, -, hevolves, hrestored⟩
    · exact hagree blob' h (hevolves.denotes hknown hfresh hold h')
    · by_cases hid : assetId = request.assetId
      · subst hid
        obtain ⟨hnow, hhistory⟩ := @run_extend Url _ _ policy events
        refine (hlast blob' ?_ (afterEvents policy earlier) ?_ blob ?_).symm
        · rw [hnow]
          exact hrestored blob' h'
        · rw [hnow]
          exact hhistory earlier hshorter
        · exact mem_denoted.mpr h
      · refine hagree blob' h (hevolves.denotes hknown hfresh ?_ h')
        rwa [List.mem_singleton]

/-- **A public asset id denotes one blob over the whole run**, provided every restore that points a
record elsewhere has fetched what its id denoted. -/
theorem asset_id_denotes_one_blob (policy : AssetCachePolicy) (events : List (AssetEvent Url))
    (hsupplied : Supplied events)
    (hsame : Meets (AssetEvent.extend policy) (AssetEvent.RestoresSame policy) (.empty, []) events)
    (assetId : Uuid) (blob blob' : AssetBlob) (h : Answers policy events assetId blob)
    (h' : Answers policy events assetId blob') : blob = blob' := by
  obtain ⟨before, hbefore, hdenotes⟩ := h.denotes
  obtain ⟨before', hbefore', hdenotes'⟩ := h'.denotes
  have hmeets : ∀ prior, prior <+: events → Supplied prior ∧
      Meets (AssetEvent.extend policy) (AssetEvent.RestoresSame policy) (.empty, []) prior := by
    rintro prior ⟨rest, rfl⟩
    exact ⟨hsupplied.of_append, ((meets_append _ _ _).mp hsame).1⟩
  rcases List.prefix_or_prefix_of_prefix hbefore hbefore' with hle | hle
  · obtain ⟨hids, hguards⟩ := hmeets before' hbefore'
    exact denotes_agree hids hguards before hle assetId blob blob' hdenotes hdenotes'
  · obtain ⟨hids, hguards⟩ := hmeets before hbefore
    exact (denotes_agree hids hguards before' hle assetId blob' blob hdenotes' hdenotes).symm

end Cache

/-! ## An image that is evicted and fetched again -/

section Samples

attribute [local instance] plainDigest

/-- The image of record 20 is read, evicted by another one, fetched again as six bytes `body`, and
read once more. -/
def refetching (body : UInt8) : List (AssetEvent PlainUrl) :=
  [.operation (storing (plainImage ⟨"https://a/p", isPlainText_firstImage⟩ 1 6 1) "first" 10 20 0),
    .read ⟨20⟩ 5,
    .operation (storing (plainImage ⟨"https://a/q", isPlainText_secondImage⟩ 2 6 2) "second" 11 21 10),
    .operation .drain,
    .operation (.restore ⟨⟨20⟩, plainImage ⟨"https://a/p", isPlainText_firstImage⟩ body 6 3,
      ⟨⟨12⟩, ⟨22⟩, 21⟩, 20, true⟩),
    .read ⟨20⟩ 30]

/-- The six bytes `body`, as a blob. -/
def sixBytes (body : UInt8) : AssetBlob :=
  ⟨List.replicate 6 body, "image/png", Sha2Crate.sha256Hex (List.replicate 6 body)⟩

/-- An available read, as a test. -/
def readsAs (tables : AssetTables) (assetId : Uuid) (clock : DateTime) (blob : AssetBlob) : Bool :=
  match ((readAndTouch assetId clock : AssetTx (Option (AssetRead PlainUrl))) ⟨tables, {}⟩).1 with
  | .ok (some (.available found)) => found = blob
  | _ => false

theorem answers_of_readsAs {policy : AssetCachePolicy} {events before rest : List (AssetEvent PlainUrl)}
    {assetId : Uuid} {clock : DateTime} {blob : AssetBlob}
    (hevents : events = before ++ .read assetId clock :: rest)
    (h : readsAs (afterEvents policy before) assetId clock blob = true) :
    Answers policy events assetId blob := by
  refine ⟨before, clock, rest, _, hevents, Prod.ext ?_ rfl⟩
  rw [readsAs] at h
  split at h
  · rename_i found hfound
    rw [hfound, of_decide_eq_true h]
  · cases h

theorem answers_refetching (body : UInt8) (blob : AssetBlob)
    (h : readsAs (afterEvents smallCache ((refetching body).take 5)) ⟨20⟩ 30 blob = true) :
    Answers smallCache (refetching body) ⟨20⟩ blob :=
  answers_of_readsAs (List.take_append_drop 5 (refetching body)).symm h

/-- Fetched again unchanged, the image is what it was. -/
theorem asset_id_denotes_one_blob_refetched :
    Answers smallCache (refetching 1) ⟨20⟩ (sixBytes 1) ∧
      ∀ blob, Answers smallCache (refetching 1) ⟨20⟩ blob → blob = sixBytes 1 := by
  have hlast : Answers smallCache (refetching 1) ⟨20⟩ (sixBytes 1) :=
    answers_refetching 1 (sixBytes 1) (by decide +kernel)
  have hmeets : Meets (AssetEvent.extend smallCache) (AssetEvent.RestoresSame smallCache) (.empty, [])
      (refetching 1) := by decide +kernel
  exact ⟨hlast, fun blob h => asset_id_denotes_one_blob smallCache (refetching 1)
    ⟨by decide, by decide⟩ hmeets ⟨20⟩ blob (sixBytes 1) h hlast⟩

/-- Fetched again as something else, **the image of the same id is something else**. -/
theorem asset_id_denotes_two_blobs :
    Supplied (refetching 3) ∧ ¬∀ blob blob', Answers smallCache (refetching 3) ⟨20⟩ blob →
      Answers smallCache (refetching 3) ⟨20⟩ blob' → blob.bytes = blob'.bytes := by
  refine ⟨⟨by decide, by decide⟩, fun hall => ?_⟩
  have hfirst : Answers smallCache (refetching 3) ⟨20⟩ (sixBytes 1) :=
    answers_of_readsAs (List.take_append_drop 1 (refetching 3)).symm (by decide +kernel)
  have hlast : Answers smallCache (refetching 3) ⟨20⟩ (sixBytes 3) :=
    answers_refetching 3 (sixBytes 3) (by decide +kernel)
  exact absurd (hall _ _ hfirst hlast) (by decide)

end Samples

end AssetRepository

end Werrss
