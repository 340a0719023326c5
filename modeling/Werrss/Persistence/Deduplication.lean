import Werrss.Persistence.AssetPreparation

/-!
# Persistence/Deduplication — the cache keeps one copy of a body

    fetched ─▸ newest version of its URL? ─▸ same record
                    └─▸ a blob with its body? ─▸ next version on it
                              └─▸ new blob, next version

With no limit on the cache nothing is evicted, and every store moves the ledger: **a body gets one
blob, and a URL a version for each change**.  The preparation looks at the tables before the unit of
work, and a batch at itself, so a body that is new must not come from two articles at once.
-/

open Machinery

namespace Werrss

namespace AssetRepository

open AssetTables

section Stores

variable {Url : Type} [Sha2Crate] {ledger : AssetLedger} {s t : AssetState}

/-- The ledger of a transaction in progress, which evicts nothing. -/
structure Accounts (ledger : AssetLedger) (s : AssetState) : Prop where
  describes : ledger.Describes s.tables
  deferred : s.mutation.deferredEvictions = []

/-! ## Blobs -/

omit [Sha2Crate] in
/-- A put under a new id adds a row. -/
theorem blobPut_fresh {tables written : AssetTables} {blobId : Uuid} {blob : AssetBlob}
    {startedAt clock : DateTime} (hfresh : tables.findBlob blobId = none)
    (h : tables.blobPut blobId blob startedAt clock = .ok written) :
    ∃ row : AssetBlobRow,
      row.contents = ⟨blobId, blob.checksum, blob.byteSize, some blob.bytes⟩ ∧
      written = { tables with blobs := tables.blobs ++ [row] } := by
  rw [AssetTables.blobPut, hfresh] at h
  split_ifs at h
  exact ⟨_, rfl, (Except.ok.inj h).symm⟩

/-- A blob has the body and the digest of its input. -/
theorem eq_of_blobNew {bytes : List UInt8} {mediaType checksum : String} {blob : AssetBlob}
    (h : AssetBlob.new bytes mediaType checksum = .ok blob) :
    blob.bytes = bytes ∧ blob.checksum = Sha2Crate.sha256Hex bytes := by
  rw [AssetBlob.new] at h
  split_ifs at h with _ hchecksum
  obtain rfl := Except.ok.inj h
  exact ⟨rfl, not_not.mp hchecksum⟩

/-- **Without a limit an insertion adds its row** and does nothing else to the tables. -/
theorem insertBlob_unlimited {context : AssetWriteContext}
    (hmax : context.policy.maxCacheSizeBytes = 0) {supply : AssetSupply} {input : AssetInput Url}
    {byteSize : ℕ} {protectedBlobIds : List Uuid} (hfresh : s.tables.findBlob supply.blobId = none) :
    Tx.Triple (· = s) (insertBlob context supply input byteSize protectedBlobIds)
      (fun placed t => placed.1 = supply.blobId ∧
        (∃ row : AssetBlobRow, row.contents = .holding (supply.blobId, input.bytes) ∧
          t.tables = { s.tables with blobs := s.tables.blobs ++ [row] }) ∧
        t.mutation.deferredEvictions = s.mutation.deferredEvictions) fun _ => True := by
  refine .read_bind fun before hbefore => ?_
  subst hbefore
  rw [enforceCacheLimit, if_pos (.inl hmax)]
  refine .bind (R := fun evicted t => evicted.2 = before.mutation.deferredEvictions ∧ t = before)
    (.pure fun u hu => ⟨rfl, hu⟩) fun evicted => ?_
  refine .modify_bind (R := fun u => u.tables = before.tables ∧
    u.mutation.deferredEvictions = before.mutation.deferredEvictions) ?_ ?_
  swap
  · rintro u ⟨hevicted, rfl⟩
    exact ⟨rfl, hevicted⟩
  refine .ofExcept_bind (fun _ _ => trivial) fun blob hblob => .read_bind fun u hu => ?_
  obtain ⟨htables, hdeferred⟩ := hu
  refine .ofExcept_bind (fun _ _ => trivial) fun tables hput => ?_
  have hwritten := eq_ok_of_ofBlobStore hput
  rw [htables] at hwritten
  obtain ⟨row, hcontents, hrow⟩ := blobPut_fresh hfresh hwritten
  obtain ⟨hbytes, hchecksum⟩ := eq_of_blobNew (eq_ok_of_ofBlobStore hblob)
  rw [AssetBlob.byteSize, hbytes, hchecksum] at hcontents
  refine .modify_bind (R := fun v => v.tables = tables ∧
    v.mutation.deferredEvictions = before.mutation.deferredEvictions) ?_ ?_
  swap
  · rintro v rfl
    exact ⟨rfl, hdeferred⟩
  refine .ite (fun _ => ?_) fun _ => .fail fun _ _ => trivial
  refine .modify_bind (R := fun v => v.tables = tables ∧
    v.mutation.deferredEvictions = before.mutation.deferredEvictions) ?_ fun v hv => hv
  exact .pure fun v hv => ⟨rfl, ⟨row, hcontents, hv.1.trans hrow⟩, hv.2⟩

/-- **The blob of an entry can be shared.** -/
theorem usableBlob_entry (h : ledger.Describes s.tables) {id : Uuid} {body : List UInt8}
    (hentry : (id, body) ∈ ledger.entries) :
    Tx.Triple (· = s) (usableBlob id (Sha2Crate.sha256Hex body) body.length)
      (fun found t => found.isSome = true ∧ t = s) fun _ => True := by
  obtain ⟨row, hrow, hmem, hcontents⟩ := h.findBlob hentry
  obtain ⟨hid, hchecksum, hsize, hdata⟩ := AssetLedger.Describes.eq_of_contents hcontents
  refine .read_bind fun u hu => .ite (fun _ => ?_) fun hunusable => ?_
  · subst hu
    refine .ofExcept_bind (fun _ _ => trivial) fun metadata hstat => .pure fun v hv => ⟨?_, hv⟩
    have hmetadata := eq_ok_of_ofBlobStore hstat
    rw [blobStat, hrow] at hmetadata
    dsimp only at hmetadata
    rw [AssetBlobMetadata.new] at hmetadata
    split_ifs at hmetadata
    · cases hmetadata
    · obtain rfl := Except.ok.inj hmetadata
      simp [hdata, hchecksum, hsize]
  · subst hu
    refine absurd ⟨List.any_eq_true.mpr ⟨row, hmem, ?_⟩, ?_⟩ hunusable
    · simp [hid, hchecksum, hsize]
    · rw [h.unqueued]
      exact List.not_mem_nil

/-! ## One input -/

/-- What the matches of an input lead to: entries of its body. -/
structure Matches (ledger : AssetLedger) (preparation : AssetBatchPreparation)
    (input : AssetInput Url) (batchBlobs : List (Uuid × Uuid)) : Prop where
  batch : ∀ id, batchMatch preparation input batchBlobs = some id →
    (id, input.bytes) ∈ ledger.entries
  prepared : ∃ found, preparation.matchingBlob input = .ok found ∧
    (∀ id, found = some id → (id, input.bytes) ∈ ledger.entries) ∧
    (found = none → batchMatch preparation input batchBlobs = none → input.bytes ∉ ledger.bodies)

/-- The ledger with at most one more entry: the body under the id that was handed out. -/
def Grows (ledger grown : AssetLedger) (id : Uuid) (body : List UInt8) : Prop :=
  grown.log = ledger.log ∧ (grown.entries = ledger.entries ∨
    grown.entries = ledger.entries ++ [(id, body)])

theorem checksum_of_matches {input : AssetInput Url} (h : input.checksumMatchesBytes = true) :
    input.checksum = Sha2Crate.sha256Hex input.bytes := by
  rw [AssetInput.checksumMatchesBytes, beq_iff_eq] at h
  exact h.symm

/-- **The blob of a new record**: the entry of its body, which is new only if the body is. -/
theorem placeBlob_entry {context : AssetWriteContext}
    (hmax : context.policy.maxCacheSizeBytes = 0) {preparation : AssetBatchPreparation}
    {supply : AssetSupply} {input : AssetInput Url} {protectedBlobIds : List Uuid}
    {batchBlobs : List (Uuid × Uuid)} (h : Accounts ledger s)
    (hmatches : Matches ledger preparation input batchBlobs)
    (hchecksum : input.checksumMatchesBytes = true)
    (hfresh : supply.blobId ∉ ledger.entries.map Prod.fst) :
    Tx.Triple (· = s)
      (placeBlob context preparation supply input input.bytes.length protectedBlobIds batchBlobs)
      (fun placed t => ∃ grown, Accounts grown t ∧ Grows ledger grown supply.blobId input.bytes ∧
        (placed.1, input.bytes) ∈ grown.entries ∧ t.tables.records = s.tables.records)
      fun _ => True := by
  obtain ⟨found, hfound, hentry, hnew⟩ := hmatches.prepared
  have hsum := checksum_of_matches hchecksum
  refine .ofExcept_bind (fun _ _ => trivial) fun prepared hprepared => ?_
  obtain rfl := Except.ok.inj (hfound.symm.trans hprepared)
  split
  · rename_i hnone
    obtain ⟨hbatch, hprepared⟩ := Option.or_eq_none_iff.mp hnone
    have hfind : s.tables.findBlob supply.blobId = none := by
      refine List.find?_eq_none.mpr fun row hrow hid => hfresh ?_
      rw [← h.describes.map_id]
      exact List.mem_map.mpr ⟨row, hrow, of_decide_eq_true hid⟩
    refine (insertBlob_unlimited hmax hfind).mono (fun _ hu => hu) ?_ fun _ _ => trivial
    rintro ⟨blobId, mediaType⟩ t ⟨rfl, ⟨row, hrow, htables⟩, hdeferred⟩
    refine ⟨⟨ledger.entries ++ [(supply.blobId, input.bytes)], ledger.log⟩, ⟨?_, ?_⟩,
      ⟨rfl, .inr rfl⟩, List.mem_append_right _ (List.mem_singleton_self _), ?_⟩
    · rw [htables]
      exact h.describes.insert hrow hfresh (hnew hprepared hbatch)
    · rw [hdeferred, h.deferred]
    · rw [htables]
  · rename_i blobId hmatch
    have hmem : (blobId, input.bytes) ∈ ledger.entries := by
      rcases Option.or_eq_some_iff.mp hmatch with hbatch | ⟨-, hprepared⟩
      · exact hmatches.batch blobId hbatch
      · exact hentry blobId hprepared
    rw [hsum]
    refine .bind (usableBlob_entry h.describes hmem) fun usable => .each fun u ⟨hsome, hu⟩ => ?_
    subst hu
    obtain ⟨metadata, rfl⟩ := Option.isSome_iff_exists.mp hsome
    refine .modify_bind (R := fun t => t = { u with
      tables := u.tables.touchBlob blobId supply.clock }) (.pure fun t ht => ?_) fun t ht => ht ▸ rfl
    subst ht
    exact ⟨ledger, ⟨h.describes.touchBlob _ _, h.deferred⟩, ⟨rfl, .inl rfl⟩, hmem, rfl⟩

variable [UrlCrate Url]

omit [Sha2Crate] in
/-- The columns of a record a reuse of it writes are none of its version. -/
theorem keeps_reused (finalUrl : String) (record : AssetRecordRow) :
    let reused : AssetRecordRow := { record with
      finalUrl := finalUrl
      fetchStatus := .available
      lastError := none }
    reused.sourceUrl = record.sourceUrl ∧ reused.version = record.version ∧
      reused.blobId = record.blobId := ⟨rfl, rfl, rfl⟩

/-- **The newest record of a URL is reused** exactly if it has the body. -/
theorem reuseCurrent_entry {preparation : AssetBatchPreparation} {supply : AssetSupply}
    {input : AssetInput Url} {sourceUrl finalUrl : Url} (h : Accounts ledger s)
    {found : Option Uuid} (hfound : preparation.matchingBlob input = .ok found)
    (hentry : ∀ id, found = some id → (id, input.bytes) ∈ ledger.entries)
    (hnewest : found = none → (Versions.history ledger.log (UrlCrate.asStr sourceUrl)).getLast?
      ≠ some input.bytes)
    (hchecksum : input.checksumMatchesBytes = true) :
    Tx.Triple (· = s)
      (reuseCurrent preparation supply input sourceUrl finalUrl input.bytes.length
        (s.tables.latestRecord (UrlCrate.asStr sourceUrl)))
      (fun reused t => match reused with
        | none => t = s ∧ (Versions.history ledger.log (UrlCrate.asStr sourceUrl)).getLast?
            ≠ some input.bytes
        | some asset => Accounts ledger t ∧ (asset.blobId, input.bytes) ∈ ledger.entries ∧
            (Versions.history ledger.log (UrlCrate.asStr sourceUrl)).getLast? = some input.bytes)
      fun _ => True := by
  have hlast := h.describes.newest (UrlCrate.asStr sourceUrl)
  have hsum := checksum_of_matches hchecksum
  rw [reuseCurrent.eq_def]
  split
  · rename_i hnone
    rw [hnone] at hlast
    exact .pure fun t ht => ⟨ht, hlast ▸ (Option.some_ne_none _).symm⟩
  rename_i record hrecord
  rw [hrecord, Option.bind_some] at hlast
  refine .read_bind fun u hu => .ofExcept_bind (fun _ _ => trivial) fun prepared hprepared => ?_
  subst hu
  obtain rfl := Except.ok.inj (hfound.symm.trans hprepared)
  refine .ite (fun hsame => ?_) fun hother => .pure fun t ht => ⟨ht, fun hbody => ?_⟩
  · split
    · exact .fail fun _ _ => trivial
    · rename_i blobId hblobId
      have hmem : (blobId, input.bytes) ∈ ledger.entries := hentry blobId (hsame.1.trans hblobId)
      rw [hsum]
      refine .bind (usableBlob_entry h.describes hmem) fun usable => .each fun v hv => ?_
      obtain ⟨hsome, rfl⟩ := hv
      obtain ⟨metadata, rfl⟩ := Option.isSome_iff_exists.mp hsome
      refine .modify_bind (R := fun t => Accounts ledger t) (.pure fun t ht => ⟨ht, hmem, ?_⟩)
        fun t ht => ht ▸ ⟨(h.describes.updateRecord (keeps_reused _) _).touchBlob _ _, h.deferred⟩
      exact hlast.trans (h.describes.bodyOf_eq_some.mpr ⟨blobId, hblobId, hmem⟩)
  · obtain ⟨id, hid, hmem⟩ := h.describes.bodyOf_eq_some.mp (hlast.symm.trans hbody)
    obtain ⟨row, hrow, -, hcontents⟩ := h.describes.findBlob hmem
    obtain ⟨-, hrowChecksum, hrowSize, -⟩ := AssetLedger.Describes.eq_of_contents hcontents
    rcases hcase : found with _ | other
    · exact hnewest hcase hbody
    · have hids := AssetLedger.Describes.eq_of_body h.describes.bodies (hentry other hcase) hmem
      refine hother ⟨hcase.trans (hids ▸ hid.symm), ?_, ?_⟩
      · rw [hid, Option.bind_some, hrow, Option.map_some, hrowChecksum, hsum]
      · rw [hid, Option.bind_some, hrow, Option.map_some, hrowSize]

/-- **Storing one input**: its body has one entry, and its URL a version more if the body is not the
newest. -/
theorem storeOne_entry {context : AssetWriteContext}
    (hmax : context.policy.maxCacheSizeBytes = 0) {preparation : AssetBatchPreparation}
    (hcontext : context.preparation = some preparation) {supply : AssetSupply}
    {input : AssetInput Url} {protectedBlobIds : List Uuid} {batchBlobs : List (Uuid × Uuid)}
    (h : Accounts ledger s) (hmatches : Matches ledger preparation input batchBlobs)
    (hnewest : preparation.matchingBlob input = .ok none → ∀ sourceUrl,
      normalizeUrl input.sourceUrl = .ok sourceUrl →
      (Versions.history ledger.log (UrlCrate.asStr sourceUrl)).getLast? ≠ some input.bytes)
    (hchecksum : input.checksumMatchesBytes = true)
    (hfresh : supply.blobId ∉ ledger.entries.map Prod.fst) :
    Tx.Triple (· = s) (storeOne context supply input protectedBlobIds batchBlobs)
      (fun asset t => ∃ sourceUrl grown, normalizeUrl input.sourceUrl = .ok sourceUrl ∧
        Accounts ⟨grown, ledger.log ++ [(UrlCrate.asStr sourceUrl, input.bytes)]⟩ t ∧
        (asset.blobId, input.bytes) ∈ grown ∧
        (grown = ledger.entries ∨ grown = ledger.entries ++ [(supply.blobId, input.bytes)]))
      fun _ => True := by
  obtain ⟨found, hfound, hentry, hnew⟩ := hmatches.prepared
  rw [storeOne, hcontext]
  refine .ofExcept_bind (fun _ _ => trivial) fun sourceUrl hsource =>
    .ofExcept_bind (fun _ _ => trivial) fun finalUrl _ =>
    .ofExcept_bind (fun _ _ => trivial) fun byteSize hsize => .read_bind fun u hu => ?_
  subst hu
  rw [inputByteSize_eq hsize]
  refine .bind (reuseCurrent_entry h hfound hentry
    (fun hnone => hnewest (hnone ▸ hfound) sourceUrl hsource) hchecksum) fun reused => ?_
  rcases reused with _ | asset
  · refine .each fun v hv => ?_
    obtain ⟨rfl, hlast⟩ := hv
    refine .bind (placeBlob_entry hmax h hmatches hchecksum hfresh) fun placed => ?_
    refine .each fun w hw => ?_
    obtain ⟨grown, haccounts, ⟨hlog, hentries⟩, hmem, hrecords⟩ := hw
    refine .ite (fun _ => ?_) fun _ => .fail fun _ _ => trivial
    refine .modify_bind (R := fun t => Accounts ⟨grown.entries,
      ledger.log ++ [(UrlCrate.asStr sourceUrl, input.bytes)]⟩ t)
      (.pure fun t ht => ⟨sourceUrl, grown.entries, hsource, ht, hmem, hentries⟩) fun t ht => ?_
    subst ht
    rw [← hlog] at hlast ⊢
    refine ⟨?_, haccounts.deferred⟩
    have hversion := h.describes.version (UrlCrate.asStr sourceUrl)
    rw [← hlog] at hversion
    exact @AssetLedger.Describes.observeNew _ grown t.tables haccounts.describes
      ⟨supply.recordId, UrlCrate.asStr sourceUrl, _, UrlCrate.asStr finalUrl, some placed.1,
        .available, none⟩ placed.1 input.bytes hlast rfl hmem (congrArg (· + 1) hversion)
  · refine .pure fun t ht => ?_
    obtain ⟨haccounts, hmem, hlast⟩ := ht
    exact ⟨sourceUrl, ledger.entries, hsource,
      ⟨haccounts.describes.observeSame hlast, haccounts.deferred⟩, hmem, .inl rfl⟩

end Stores

end AssetRepository

end Werrss
