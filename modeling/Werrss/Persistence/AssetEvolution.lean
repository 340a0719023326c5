import Werrss.Persistence.AssetCap

/-!
# Persistence/AssetEvolution — what the operations may do to records and to bytes

    id ──findRecord──▸ record ──blobId──▸ blob row ──blobRead──▸ bytes, checksum, media type
                           └────────────── Denotes ──────────────┘

Rows come and go, and bytes are deleted; but **outside the ids an operation was handed, nothing is
written**: a blob that can be read could be read before, with the same contents, and a record that
points at a blob pointed there before.  `Evolves` says so; it is a preorder, so it is proved of each
statement and holds of every program.
-/

open Machinery

namespace Werrss

/-- What a row is read as. -/
def AssetBlobRow.read [Sha2Crate] (row : AssetBlobRow) :
    Except AssetBlobStoreError (Option AssetBlob) :=
  match row.data with
  | none => .ok none
  | some bytes =>
    if row.byteSize ≠ bytes.length then .error .invalidMetadata
    else (AssetBlob.new bytes row.mediaType row.checksum).map some

theorem AssetBlobRow.read_none [Sha2Crate] {row : AssetBlobRow} (h : row.data = none) :
    row.read = .ok none := by
  rw [read, h]

namespace AssetTables

open AssetRepository

def findRecord (t : AssetTables) (recordId : Uuid) : Option AssetRecordRow :=
  t.records.find? (·.id = recordId)

/-- All ids in the tables, and all blobs the records point at, are known ones. -/
structure Known (blobIds recordIds : Uuid → Prop) (t : AssetTables) : Prop where
  blobs : ∀ row ∈ t.blobs, blobIds row.id
  records : ∀ record ∈ t.records, recordIds record.id
  pointers : ∀ record ∈ t.records, ∀ blobId, record.blobId = some blobId → blobIds blobId

theorem Known.mono {p q p' q' : Uuid → Prop} {t : AssetTables} (h : t.Known p q)
    (hp : ∀ id, p id → p' id) (hq : ∀ id, q id → q' id) : t.Known p' q' :=
  ⟨fun row hrow => hp _ (h.blobs row hrow), fun record hrecord => hq _ (h.records record hrecord),
    fun record hrecord blobId hpoints => hp _ (h.pointers record hrecord blobId hpoints)⟩

variable [Sha2Crate]

/-- **What an asset id denotes**: the blob its record points at, if it has its bytes. -/
def Denotes (t : AssetTables) (recordId : Uuid) (blob : AssetBlob) : Prop :=
  ∃ record blobId, t.findRecord recordId = some record ∧ record.blobId = some blobId ∧
    t.blobRead blobId = .ok (some blob)

theorem blobRead_eq (t : AssetTables) (blobId : Uuid) : t.blobRead blobId
    = ((t.findBlob blobId).map AssetBlobRow.read).getD (.ok none) := by
  rw [blobRead]
  cases t.findBlob blobId with
  | none => rfl
  | some row => rfl

theorem blobRead_of_findBlob {t : AssetTables} {blobId : Uuid} {row : AssetBlobRow}
    (h : t.findBlob blobId = some row) : t.blobRead blobId = row.read := by
  rw [blobRead_eq, h]
  rfl

omit [Sha2Crate] in
theorem findRecord_id {t : AssetTables} {recordId : Uuid} {record : AssetRecordRow}
    (h : t.findRecord recordId = some record) : record.id = recordId := by
  simpa using List.find?_some h

omit [Sha2Crate] in
/-- An update of one record is seen by its id alone. -/
theorem findRecord_updateRecord {t : AssetTables} {f : AssetRecordRow → AssetRecordRow}
    (hf : ∀ record, (f record).id = record.id) (recordId other : Uuid) :
    (t.updateRecord recordId f).findRecord other
      = (t.findRecord other).map fun record => if record.id = recordId then f record else record := by
  rw [findRecord, AssetTables.updateRecord, List.find?_map, findRecord]
  congr 2
  funext record
  by_cases h : record.id = recordId
  · simp [h, hf]
  · simp [h]

theorem Denotes.unique {t : AssetTables} {recordId : Uuid} {blob blob' : AssetBlob}
    (h : t.Denotes recordId blob) (h' : t.Denotes recordId blob') : blob = blob' := by
  obtain ⟨record, blobId, hrecord, hblobId, hread⟩ := h
  obtain ⟨record', blobId', hrecord', hblobId', hread'⟩ := h'
  obtain rfl := Option.some.inj (hrecord.symm.trans hrecord')
  obtain rfl := Option.some.inj (hblobId.symm.trans hblobId')
  exact Option.some.inj (Except.ok.inj (hread.symm.trans hread'))

/-- `Denotes`, computed. -/
def denoted (t : AssetTables) (recordId : Uuid) : Option AssetBlob :=
  ((t.findRecord recordId).bind (·.blobId)).bind fun blobId => (t.blobRead blobId).toOption.join

theorem mem_denoted {t : AssetTables} {recordId : Uuid} {blob : AssetBlob} :
    blob ∈ t.denoted recordId ↔ t.Denotes recordId blob := by
  have hread : ∀ blobId, (t.blobRead blobId).toOption.join = some blob ↔
      t.blobRead blobId = .ok (some blob) := by
    intro blobId
    rcases t.blobRead blobId with e | found
    · exact ⟨nofun, nofun⟩
    · exact ⟨fun h => congrArg _ h, fun h => Except.ok.inj h⟩
  rw [denoted, Option.mem_def, Option.bind_eq_some_iff]
  constructor
  · rintro ⟨blobId, hblobId, h⟩
    obtain ⟨record, hrecord, hpoints⟩ := Option.bind_eq_some_iff.mp hblobId
    exact ⟨record, blobId, hrecord, hpoints, (hread blobId).mp h⟩
  · rintro ⟨record, blobId, hrecord, hpoints, h⟩
    exact ⟨blobId, Option.bind_eq_some_iff.mpr ⟨record, hrecord, hpoints⟩, (hread blobId).mpr h⟩

/-- **Outside the ids that were handed out, nothing is written.** -/
structure Evolves (blobIds recordIds : List Uuid) (t u : AssetTables) : Prop where
  blob : ∀ blobId ∉ blobIds, ∀ blob,
    u.blobRead blobId = .ok (some blob) → t.blobRead blobId = .ok (some blob)
  record : ∀ recordId ∉ recordIds, ∀ record blobId,
    u.findRecord recordId = some record → record.blobId = some blobId →
    ∃ old, t.findRecord recordId = some old ∧ old.blobId = some blobId
  known : ∀ {p q : Uuid → Prop}, (∀ id ∈ blobIds, p id) → (∀ id ∈ recordIds, q id) →
    t.Known p q → u.Known p q

namespace Evolves

variable {blobIds recordIds : List Uuid} {t u v : AssetTables}

theorem refl (t : AssetTables) : Evolves blobIds recordIds t t :=
  ⟨fun _ _ _ h => h, fun _ _ record _ h hblob => ⟨record, h, hblob⟩, fun _ _ h => h⟩

theorem trans (h : Evolves blobIds recordIds t u) (h' : Evolves blobIds recordIds u v) :
    Evolves blobIds recordIds t v := by
  refine ⟨fun blobId hfree blob hread => ?_, fun recordId hfree record blobId hfind hblob => ?_,
    fun hp hq hknown => ?_⟩
  · exact h.blob blobId hfree blob (h'.blob blobId hfree blob hread)
  · obtain ⟨old, hold, holdBlob⟩ := h'.record recordId hfree record blobId hfind hblob
    exact h.record recordId hfree old blobId hold holdBlob
  · exact h'.known hp hq (h.known hp hq hknown)

instance : IsPreorder AssetTables (Evolves blobIds recordIds) where
  refl := refl
  trans _ _ _ := trans

theorem mono {blobIds' recordIds' : List Uuid} (h : Evolves blobIds recordIds t u)
    (hblobs : blobIds ⊆ blobIds') (hrecords : recordIds ⊆ recordIds') :
    Evolves blobIds' recordIds' t u := by
  refine ⟨fun blobId hfree => h.blob blobId fun hmem => hfree (hblobs hmem),
    fun recordId hfree => h.record recordId fun hmem => hfree (hrecords hmem),
    fun hp hq => h.known (fun id hid => hp id (hblobs hid)) fun id hid => hq id (hrecords hid)⟩

/-- **An id that was not handed out denotes what it denoted**, if anything. -/
theorem denotes (h : Evolves blobIds recordIds t u) {p q : Uuid → Prop} (hknown : t.Known p q)
    (hfresh : ∀ id ∈ blobIds, ¬p id) {recordId : Uuid} (hfree : recordId ∉ recordIds)
    {blob : AssetBlob} (hdenotes : u.Denotes recordId blob) : t.Denotes recordId blob := by
  obtain ⟨record, blobId, hrecord, hblobId, hread⟩ := hdenotes
  obtain ⟨old, hold, holdBlob⟩ := h.record recordId hfree record blobId hrecord hblobId
  have hpointed : p blobId :=
    hknown.pointers old (List.mem_of_find?_eq_some hold) blobId holdBlob
  exact ⟨old, blobId, hold, holdBlob, h.blob blobId (fun hmem => hfresh blobId hmem hpointed) blob hread⟩

/-! ## Blob statements -/

/-- What leaves the records alone evolves as far as its blobs do. -/
theorem of_blobs (hrecords : u.records = t.records)
    (hblob : ∀ blobId ∉ blobIds, ∀ blob,
      u.blobRead blobId = .ok (some blob) → t.blobRead blobId = .ok (some blob))
    (hids : ∀ row ∈ u.blobs, row.id ∈ blobIds ∨ row.id ∈ t.blobs.map AssetBlobRow.id) :
    Evolves blobIds recordIds t u := by
  refine ⟨hblob, fun recordId _ record blobId hfind hpoints => ⟨record, ?_, hpoints⟩,
    fun hp _ hknown => ⟨fun row hrow => ?_, ?_, ?_⟩⟩
  · rwa [findRecord, hrecords] at hfind
  · rcases hids row hrow with hnew | hold
    · exact hp row.id hnew
    · obtain ⟨old, hmem, hid⟩ := List.mem_map.mp hold
      exact hid ▸ hknown.blobs old hmem
  · rw [hrecords]
    exact hknown.records
  · rw [hrecords]
    exact hknown.pointers

/-- Statements on the relationships and on the deletion queue. -/
theorem of_eq (hblobs : u.blobs = t.blobs) (hrecords : u.records = t.records) :
    Evolves blobIds recordIds t u := by
  refine of_blobs hrecords (fun blobId _ blob hread => ?_) fun row hrow => .inr ?_
  · rwa [blobRead, findBlob, hblobs] at hread
  · rw [hblobs] at hrow
    exact List.mem_map_of_mem hrow

omit [Sha2Crate] in
/-- An update of one row is seen by its id alone. -/
theorem findBlob_updateBlob {f : AssetBlobRow → AssetBlobRow} (hf : ∀ row, (f row).id = row.id)
    (blobId other : Uuid) : (t.updateBlob blobId f).findBlob other
      = (t.findBlob other).map fun row => if row.id = blobId then f row else row := by
  rw [findBlob, AssetTables.updateBlob, List.find?_map, findBlob]
  congr 2
  funext row
  by_cases h : row.id = blobId
  · simp [h, hf]
  · simp [h]

/-- An update under a new id, or one after which nothing else is read. -/
theorem updateBlob {f : AssetBlobRow → AssetBlobRow} (hf : ∀ row, (f row).id = row.id) (blobId : Uuid)
    (hread : blobId ∈ blobIds ∨
      ∀ row blob, (f row).read = .ok (some blob) → row.read = .ok (some blob)) :
    Evolves blobIds recordIds t (t.updateBlob blobId f) := by
  refine of_blobs rfl (fun other hfree blob hblob => ?_) fun row hrow => .inr ?_
  · rw [blobRead_eq, findBlob_updateBlob hf] at hblob
    rw [blobRead_eq]
    rcases hfind : t.findBlob other with _ | row
    · rw [hfind] at hblob
      exact hblob
    · rw [hfind] at hblob
      change (if row.id = blobId then f row else row).read = _ at hblob
      split_ifs at hblob with hid
      · rcases hread with hnew | hread
        · exact absurd ((findBlob_eq_some hfind).2 ▸ hid ▸ hnew) hfree
        · exact hread row blob hblob
      · exact hblob
  · rw [← map_id_updateBlob t blobId hf]
    exact List.mem_map_of_mem hrow

theorem touchBlob (blobId : Uuid) (clock : DateTime) :
    Evolves blobIds recordIds t (t.touchBlob blobId clock) := by
  rw [AssetTables.touchBlob]
  refine updateBlob ?_ blobId ?_
  · exact fun _ => rfl
  · exact .inr fun _ _ h => h

theorem blobDelete (blobId : Uuid) : Evolves blobIds recordIds t (t.blobDelete blobId) := by
  rw [AssetTables.blobDelete]
  refine updateBlob ?_ blobId ?_
  · exact fun _ => rfl
  · exact .inr fun _ _ h => by cases h

theorem foldl_blobDelete (ids : List Uuid) (t : AssetTables) :
    Evolves blobIds recordIds t (ids.foldl AssetTables.blobDelete t) := by
  induction ids generalizing t with
  | nil => exact refl t
  | cons id ids ih => exact (blobDelete id).trans (ih (t.blobDelete id))

/-- **A put** writes under its own id only. -/
theorem blobPut {blobId : Uuid} {blob : AssetBlob} {startedAt clock : DateTime}
    (h : t.blobPut blobId blob startedAt clock = .ok u) (hnew : blobId ∈ blobIds) :
    Evolves blobIds recordIds t u := by
  rw [AssetTables.blobPut] at h
  split_ifs at h
  split at h
  · obtain rfl := Except.ok.inj h
    refine of_blobs rfl (fun other hfree blob hread => ?_) fun row hrow => ?_
    · have hne : ¬blobId = other := fun heq => hfree (heq ▸ hnew)
      rwa [blobRead, findBlob, List.find?_append, List.find?_singleton, if_neg (by simpa using hne),
        Option.or_none] at hread
    · rcases List.mem_append.mp hrow with hold | hlast
      · exact .inr (List.mem_map_of_mem hold)
      · rw [List.mem_singleton.mp hlast]
        exact .inl hnew
  · split_ifs at h
    · obtain rfl := Except.ok.inj h
      refine updateBlob ?_ blobId (.inl hnew)
      exact fun _ => rfl
    · obtain rfl := Except.ok.inj h
      exact refl t

/-! ## Record statements -/

/-- A statement that rewrites records keeps what their ids and pointers say, or takes pointers. -/
theorem map_records {f : AssetRecordRow → AssetRecordRow} (hid : ∀ record, (f record).id = record.id)
    (hblob : ∀ record blobId, (f record).blobId = some blobId → record.blobId = some blobId) :
    Evolves blobIds recordIds t { t with records := t.records.map f } := by
  refine ⟨fun _ _ _ h => h, fun recordId _ record blobId hfind hpoints => ?_,
    fun _ _ hknown => ⟨hknown.blobs, fun record hrecord => ?_, fun record hrecord blobId hpoints => ?_⟩⟩
  · have hids : (fun record : AssetRecordRow => decide (record.id = recordId)) ∘ f
        = fun record => decide (record.id = recordId) := funext fun record => by simp [hid]
    rw [findRecord, List.find?_map, hids, Option.map_eq_some_iff] at hfind
    obtain ⟨old, hold, rfl⟩ := hfind
    exact ⟨old, hold, hblob old blobId hpoints⟩
  · obtain ⟨old, hold, rfl⟩ := List.mem_map.mp hrecord
    rw [hid]
    exact hknown.records old hold
  · obtain ⟨old, hold, rfl⟩ := List.mem_map.mp hrecord
    exact hknown.pointers old hold blobId (hblob old blobId hpoints)

theorem markMissing (ids : List Uuid) (lastError : String) :
    Evolves blobIds recordIds t (t.markMissing ids lastError) := by
  refine map_records (fun record => ?_) fun record blobId hpoints => ?_
  · split_ifs <;> rfl
  · split_ifs at hpoints <;> exact hpoints

theorem updateRecord {f : AssetRecordRow → AssetRecordRow} (hid : ∀ record, (f record).id = record.id)
    (hblob : ∀ record, (f record).blobId = record.blobId) (recordId : Uuid) :
    Evolves blobIds recordIds t (t.updateRecord recordId f) := by
  refine map_records (fun record => ?_) fun record blobId hpoints => ?_
  · split_ifs
    · exact hid record
    · rfl
  · split_ifs at hpoints
    · rwa [hblob] at hpoints
    · exact hpoints

/-- A new record, of a blob in the tables. -/
theorem append_record {record : AssetRecordRow} (hnew : record.id ∈ recordIds)
    (hpoints : ∀ blobId, record.blobId = some blobId → blobId ∈ t.blobs.map AssetBlobRow.id) :
    Evolves blobIds recordIds t { t with records := t.records ++ [record] } := by
  refine ⟨fun _ _ _ h => h, fun recordId hfree other blobId hfind hother => ?_,
    fun _ hq hknown => ⟨hknown.blobs, fun other hmem => ?_, fun other hmem blobId hother => ?_⟩⟩
  · have hne : ¬record.id = recordId := fun heq => hfree (heq ▸ hnew)
    rw [findRecord, List.find?_append, List.find?_singleton, if_neg (by simpa using hne),
      Option.or_none] at hfind
    exact ⟨other, hfind, hother⟩
  · rcases List.mem_append.mp hmem with hold | hlast
    · exact hknown.records other hold
    · rw [List.mem_singleton.mp hlast]
      exact hq record.id hnew
  · rcases List.mem_append.mp hmem with hold | hlast
    · exact hknown.pointers other hold blobId hother
    · rw [List.mem_singleton.mp hlast] at hother
      obtain ⟨row, hrow, rfl⟩ := List.mem_map.mp (hpoints blobId hother)
      exact hknown.blobs row hrow

/-- **A record that is pointed elsewhere**, at a blob in the tables. -/
theorem repoint {f : AssetRecordRow → AssetRecordRow} {recordId blobId : Uuid}
    (hid : ∀ record, (f record).id = record.id) (hblob : ∀ record, (f record).blobId = some blobId)
    (hrecord : recordId ∈ recordIds) (hmem : blobId ∈ t.blobs.map AssetBlobRow.id) :
    Evolves blobIds recordIds t (t.updateRecord recordId f) := by
  refine ⟨fun _ _ _ h => h, fun other hfree record pointed hfind hpoints => ?_,
    fun _ _ hknown => ⟨hknown.blobs, fun record hmem => ?_, fun record hmem pointed hpoints => ?_⟩⟩
  · rw [findRecord_updateRecord hid, Option.map_eq_some_iff] at hfind
    obtain ⟨old, hold, rfl⟩ := hfind
    have hne : ¬old.id = recordId := fun heq => by
      rw [findRecord_id hold] at heq
      exact hfree (heq ▸ hrecord)
    rw [if_neg hne] at hpoints
    exact ⟨old, hold, hpoints⟩
  · obtain ⟨old, hold, rfl⟩ := List.mem_map.mp hmem
    split_ifs
    · rw [hid]
      exact hknown.records old hold
    · exact hknown.records old hold
  · obtain ⟨old, hold, rfl⟩ := List.mem_map.mp hmem
    split_ifs at hpoints
    · obtain rfl := Option.some.inj ((hblob old).symm.trans hpoints)
      obtain ⟨row, hrow, rfl⟩ := List.mem_map.mp ‹blobId ∈ t.blobs.map AssetBlobRow.id›
      exact hknown.blobs row hrow
    · exact hknown.pointers old hold pointed hpoints

/-! ## Deletions of rows -/

omit [Sha2Crate] in
/-- What is found among the rows kept was found before, where rows of one id are kept together. -/
theorem find?_filter_of_key {α : Type} {key : α → Uuid} {keep : Uuid → Bool} {rows : List α}
    {id : Uuid} {row : α}
    (h : (rows.filter fun row => keep (key row)).find? (fun row => decide (key row = id)) = some row) :
    rows.find? (fun row => decide (key row = id)) = some row := by
  have hkept : keep id = true := by
    have hmem := (List.mem_filter.mp (List.mem_of_find?_eq_some h)).2
    have hkey : key row = id := by simpa using List.find?_some h
    rwa [hkey] at hmem
  have hsame : (fun row => decide (keep (key row) = true ∧ decide (key row = id) = true))
      = fun row => decide (key row = id) := by
    funext row
    by_cases hkey : key row = id
    · simp [hkey, hkept]
    · simp [hkey]
  rwa [List.find?_filter, hsame] at h

theorem filter_records {keep : Uuid → Bool} :
    Evolves blobIds recordIds t { t with records := t.records.filter fun record => keep record.id } := by
  refine ⟨fun _ _ _ h => h, fun recordId _ record blobId hfind hpoints => ?_,
    fun _ _ hknown => ⟨hknown.blobs, fun record hrecord => ?_, fun record hrecord => ?_⟩⟩
  · exact ⟨record, find?_filter_of_key hfind, hpoints⟩
  · exact hknown.records record (List.mem_filter.mp hrecord).1
  · exact hknown.pointers record (List.mem_filter.mp hrecord).1

theorem deleteBlobs (ids : List Uuid) : Evolves blobIds recordIds t (t.deleteBlobs ids) := by
  have hrows : Evolves blobIds recordIds t { t with blobs := t.blobs.filter (·.id ∉ ids) } := by
    refine of_blobs rfl (fun blobId _ blob hread => ?_) fun row hrow => .inr ?_
    · rcases hfind : ({ t with blobs := t.blobs.filter (·.id ∉ ids) } : AssetTables).findBlob blobId
        with _ | row
      · rw [blobRead_eq, hfind] at hread
        cases hread
      · have hold : t.findBlob blobId = some row :=
          @find?_filter_of_key AssetBlobRow _ (fun id => decide (id ∉ ids)) _ _ _ hfind
        rwa [blobRead_of_findBlob hold, ← blobRead_of_findBlob hfind]
    · exact List.mem_map_of_mem (List.mem_filter.mp hrow).1
  refine hrows.trans (map_records (fun record => ?_) fun record blobId hpoints => ?_)
  · split_ifs <;> rfl
  · split_ifs at hpoints
    exact hpoints

end Evolves

end AssetTables

/-! ## Programs -/

namespace AssetRepository

open Tx AssetTables

/-- `Evolves`, of the tables of a transaction. -/
def StateEvolves [Sha2Crate] (blobIds recordIds : List Uuid) (s t : AssetState) : Prop :=
  Evolves blobIds recordIds s.tables t.tables

instance [Sha2Crate] {blobIds recordIds : List Uuid} :
    IsPreorder AssetState (StateEvolves blobIds recordIds) where
  refl s := Evolves.refl s.tables
  trans _ _ _ := Evolves.trans

variable [Sha2Crate] {blobIds recordIds : List Uuid}

theorem evolves_evictLoop (limit : CacheLimit) : ∀ (fuel : ℕ) (total : ℤ) (deferred : List Uuid)
    (evicted : ℕ), Moves (StateEvolves blobIds recordIds) (evictLoop limit fuel total deferred evicted)
  | 0, _, _, _ => .ite (.pure _) (.fail _)
  | fuel + 1, total, deferred, evicted => by
    refine .ite (.pure _) (.bind .read fun s => ?_)
    split
    · exact .fail _
    · exact .bind (.modify fun s => .markMissing _ _) fun _ => evolves_evictLoop limit fuel _ _ _

theorem evolves_enforceCacheLimit (limit : CacheLimit) :
    Moves (StateEvolves blobIds recordIds) (enforceCacheLimit limit) := by
  refine .ite (.pure _) (.ite (.fail _) (.bind .read fun s => .bind (.ofExcept _) fun cached => ?_))
  exact .ite (.fail _) (evolves_evictLoop _ _ _ _ _)

variable {Url : Type}

/-- **An insertion writes under the id it was handed.** -/
theorem evolves_insertBlob (context : AssetWriteContext) {supply : AssetSupply}
    (hnew : supply.blobId ∈ blobIds) (input : AssetInput Url) (byteSize : ℕ)
    (protectedBlobIds : List Uuid) : Moves (StateEvolves blobIds recordIds)
      (insertBlob context supply input byteSize protectedBlobIds) := by
  refine .bind .read fun before => .bind (evolves_enforceCacheLimit _) fun evicted => ?_
  refine .bind (.modify fun s => .of_eq rfl rfl) fun _ => .bind (.ofExcept _) fun blob => ?_
  refine .read_bind fun s => ?_
  rcases hput : s.tables.blobPut supply.blobId blob context.startedAt supply.clock with e | tables
  · exact Evolves.refl _
  · have hwritten : Evolves blobIds recordIds s.tables tables := .blobPut hput hnew
    have hrest : Moves (StateEvolves blobIds recordIds)
        (if before.mutation.pendingBytes + blob.byteSize ≤ u64Max then do
          Tx.modify fun s => { s with
            mutation := { s.mutation with
              pendingBytes := before.mutation.pendingBytes + blob.byteSize } }
          return (supply.blobId, input.mediaType)
        else Tx.fail (AssetRepositoryError.storage "asset batch byte count overflow")) :=
      .ite (.bind (.modify fun s => .of_eq rfl rfl) fun _ => .pure _) (.fail _)
    exact hwritten.trans (hrest ⟨tables, _⟩)

variable [UrlCrate Url]

theorem evolves_usableBlob (blobId : Uuid) (checksum : String) (byteSize : ℕ) :
    Moves (StateEvolves blobIds recordIds) (usableBlob blobId checksum byteSize) := by
  exact .bind .read fun s => .ite (.bind (.ofExcept _) fun metadata => .pure _) (.pure _)

theorem evolves_reuseCurrent (preparation : AssetBatchPreparation) (supply : AssetSupply)
    (input : AssetInput Url) (sourceUrl finalUrl : Url) (byteSize : ℕ)
    (current : Option AssetRecordRow) : Moves (StateEvolves blobIds recordIds)
      (reuseCurrent preparation supply input sourceUrl finalUrl byteSize current) := by
  rw [reuseCurrent.eq_def]
  split
  · exact .pure _
  · refine .bind .read fun s => .bind (.ofExcept _) fun prepared => .ite ?_ (.pure _)
    split
    · exact .fail _
    · refine .bind (evolves_usableBlob _ _ _) fun usable => ?_
      split
      · exact .pure _
      · refine .bind (.modify fun s => ?_) fun _ => .pure _
        refine Evolves.trans (.updateRecord ?_ ?_ _) (.touchBlob _ _)
        · exact fun _ => rfl
        · exact fun _ => rfl

omit [UrlCrate Url] in
theorem evolves_placeBlob (context : AssetWriteContext) (preparation : AssetBatchPreparation)
    {supply : AssetSupply} (hnew : supply.blobId ∈ blobIds) (input : AssetInput Url) (byteSize : ℕ)
    (protectedBlobIds : List Uuid) (batchBlobs : List (Uuid × Uuid)) :
    Moves (StateEvolves blobIds recordIds)
      (placeBlob context preparation supply input byteSize protectedBlobIds batchBlobs) := by
  refine .bind (.ofExcept _) fun preparedMatch => ?_
  split
  · exact evolves_insertBlob _ hnew _ _ _
  · refine .bind (evolves_usableBlob _ _ _) fun usable => ?_
    split
    · exact evolves_insertBlob _ hnew _ _ _
    · exact .bind (.modify fun s => .touchBlob _ _) fun _ => .pure _

omit [UrlCrate Url] in
/-- The blob that was placed is in the tables. -/
theorem mem_of_placeBlob {context : AssetWriteContext} {preparation : AssetBatchPreparation}
    {supply : AssetSupply} {input : AssetInput Url} {protectedBlobIds : List Uuid}
    {batchBlobs : List (Uuid × Uuid)} {s t : AssetState} {placed : Uuid × String}
    (h : placeBlob context preparation supply input input.bytes.length protectedBlobIds batchBlobs s
      = (.ok placed, t)) : placed.1 ∈ t.tables.blobs.map AssetBlobRow.id := by
  obtain ⟨blobId, mediaType⟩ := placed
  have hstores : Stores context.policy preparation supply input protectedBlobIds batchBlobs s t
      blobId :=
    ((placeBlob_spec context [supply.blobId] (List.mem_singleton_self _) s) s rfl).1 _ t h
  change blobId ∈ _
  cases hstores with
  | reuse matched usable blobs deletionQueue mutation =>
    obtain ⟨row, hrow, hid, -⟩ := usable.present
    rw [blobs, map_id_touchBlob]
    exact hid ▸ List.mem_map_of_mem hrow
  | insert needed inserts =>
    obtain ⟨row, hrow, hid, -⟩ := inserts.puts.present
    exact hid ▸ List.mem_map_of_mem hrow

/-- **Storing one input** writes under the ids it was handed. -/
theorem evolves_storeOne (context : AssetWriteContext) {supply : AssetSupply}
    (hblob : supply.blobId ∈ blobIds) (hrecord : supply.recordId ∈ recordIds) (input : AssetInput Url)
    (protectedBlobIds : List Uuid) (batchBlobs : List (Uuid × Uuid)) :
    Moves (StateEvolves blobIds recordIds)
      (storeOne context supply input protectedBlobIds batchBlobs) := by
  rw [storeOne.eq_def]
  split
  · exact .fail _
  · refine .bind (.ofExcept _) fun sourceUrl => .bind (.ofExcept _) fun finalUrl => ?_
    refine .bind_ok (.ofExcept _) fun _ byteSize s hsize => ?_
    obtain rfl := inputByteSize_eq (Prod.mk.inj hsize).1
    refine Moves.bind .read (fun s => ?_) s
    refine .bind (evolves_reuseCurrent _ _ _ _ _ _ _) fun reused => ?_
    split
    · exact .pure _
    · refine .bind_ok (evolves_placeBlob _ _ hblob _ _ _ _) fun u placed v hplaced => ?_
      have hmem := mem_of_placeBlob hplaced
      dsimp only
      split_ifs
      · refine Evolves.append_record (by exact hrecord) fun blobId hpoints => ?_
        exact Option.some.inj hpoints ▸ hmem
      · exact Evolves.refl _

theorem evolves_storeInput (context : AssetWriteContext) (sourceId : Uuid) (reviewId : String)
    {supply : AssetSupply} (hblob : supply.blobId ∈ blobIds) (hrecord : supply.recordId ∈ recordIds)
    (input : AssetInput Url) (protectedBlobIds : List Uuid) (batchBlobs : List (Uuid × Uuid)) :
    Moves (StateEvolves blobIds recordIds)
      (storeInput context sourceId reviewId supply input protectedBlobIds batchBlobs) := by
  refine .bind (.ofExcept _) fun _ => .bind (evolves_storeOne _ hblob hrecord _ _ _) fun asset => ?_
  refine .bind (.ite (.modify fun s => .of_eq rfl rfl) (.fail _)) fun _ => .pure _

theorem evolves_storeEach (context : AssetWriteContext) (sourceId : Uuid) (reviewId : String) :
    ∀ (inputs : List (AssetInput Url × AssetSupply)) (protectedBlobIds : List Uuid)
      (batchBlobs : List (Uuid × Uuid)),
      (∀ entry ∈ inputs, entry.2.blobId ∈ blobIds ∧ entry.2.recordId ∈ recordIds) →
      Moves (StateEvolves blobIds recordIds)
        (storeEach context sourceId reviewId inputs protectedBlobIds batchBlobs)
  | [], _, _, _ => .pure _
  | (input, supply) :: inputs, _, _, hsupplied => by
    obtain ⟨hblob, hrecord⟩ := hsupplied (input, supply) List.mem_cons_self
    refine .bind (evolves_storeInput _ _ _ hblob hrecord _ _ _) fun asset => .bind ?_ fun _ => .pure _
    exact evolves_storeEach context sourceId reviewId inputs _ _ fun entry hentry =>
      hsupplied entry (List.mem_cons_of_mem _ hentry)

/-! ## Batches and units of work -/

/-- The blob ids a batch is handed. -/
def AssetBatch.suppliedBlobIds (batch : AssetBatch Url) : List Uuid := batch.inputs.map (·.2.blobId)

/-- The record ids a batch is handed. -/
def AssetBatch.suppliedRecordIds (batch : AssetBatch Url) : List Uuid := batch.inputs.map (·.2.recordId)

omit [UrlCrate Url] in
/-- What is undone at a savepoint only takes. -/
theorem evolves_rolledBack (s t : AssetState) : StateEvolves blobIds recordIds s (rolledBack s t) :=
  (Evolves.foldl_blobDelete _ s.tables).trans (.deleteBlobs _)

omit [UrlCrate Url] in
theorem evolves_atSavepoint {A : Type} {m : AssetTx A} (h : Moves (StateEvolves blobIds recordIds) m) :
    Moves (StateEvolves blobIds recordIds) (atSavepoint m) := by
  intro s
  have hm := h s
  rw [atSavepoint]
  rcases hrun : m s with ⟨e | a, t⟩
  · exact evolves_rolledBack s t
  · rw [hrun] at hm
    exact hm

/-- **A batch writes under the ids it was handed**, whether it succeeds or fails. -/
theorem evolves_storeBatch (context : AssetWriteContext) {batch : AssetBatch Url}
    (hblobs : batch.suppliedBlobIds ⊆ blobIds) (hrecords : batch.suppliedRecordIds ⊆ recordIds) :
    Moves (StateEvolves blobIds recordIds) (storeBatch context batch) := by
  have hinputs : Moves (StateEvolves blobIds recordIds)
      (storeInputs context batch.sourceId batch.reviewId batch.inputs) := by
    rw [storeInputs.eq_def]
    split
    · exact .fail _
    · exact evolves_storeEach _ _ _ _ _ _ fun entry hentry =>
        ⟨hblobs (List.mem_map_of_mem hentry), hrecords (List.mem_map_of_mem hentry)⟩
  refine .ite ?_ ?_
  · refine .bind (.ofExcept _) fun _ => .bind (.ofExcept _) fun _ => evolves_atSavepoint ?_
    exact .bind (.modify fun s => .of_eq rfl rfl) fun _ => hinputs
  · refine .bind (.ofExcept _) fun _ => .bind (.ofExcept _) fun _ => .ite (.pure _) ?_
    exact evolves_atSavepoint hinputs

/-- The blob ids an operation is handed. -/
def AssetOperation.suppliedBlobIds : AssetOperation Url → List Uuid
  | .unitOfWork work => work.batches.flatMap AssetBatch.suppliedBlobIds
  | .restore request => [request.supply.blobId]
  | .maintenance _ _ | .drain => []

/-- The record ids an operation is handed; a restore keeps its record. -/
def AssetOperation.suppliedRecordIds : AssetOperation Url → List Uuid
  | .unitOfWork work => work.batches.flatMap AssetBatch.suppliedRecordIds
  | .restore _ | .maintenance _ _ | .drain => []

theorem evolves_session (context : AssetWriteContext) : ∀ (batches : List (AssetBatch Url))
    (session : AssetSession Url), (∀ batch ∈ batches, batch.suppliedBlobIds ⊆ blobIds) →
    (∀ batch ∈ batches, batch.suppliedRecordIds ⊆ recordIds) →
    StateEvolves blobIds recordIds session.state
      (Machinery.run (AssetSession.step context) session batches).state
  | [], session, _, _ => Evolves.refl _
  | batch :: batches, session, hblobs, hrecords => by
    have hbatch := evolves_storeBatch context (hblobs batch List.mem_cons_self)
      (hrecords batch List.mem_cons_self) session.state
    have hstep : StateEvolves blobIds recordIds session.state
        (session.step context batch).state := by
      rw [AssetSession.step]
      rcases hrun : storeBatch context batch session.state with ⟨e | assets, t⟩
      · rwa [hrun] at hbatch
      · rwa [hrun] at hbatch
    exact hstep.trans (evolves_session context batches (session.step context batch)
      (fun other hother => hblobs other (List.mem_cons_of_mem _ hother))
      fun other hother => hrecords other (List.mem_cons_of_mem _ hother))

/-! ## Maintenance -/

omit [UrlCrate Url] in
theorem evolves_deleteOrphans (hasActiveRepair : Uuid → Bool) (t : AssetTables) :
    Evolves blobIds recordIds t (deleteOrphans hasActiveRepair t) := by
  rw [deleteOrphans]
  refine Evolves.trans ?_ (.trans (.foldl_blobDelete _ _) (.deleteBlobs _))
  exact @Evolves.filter_records _ blobIds recordIds t fun recordId =>
    !(!t.articleAssets.any (·.assetRecordId = recordId) && !hasActiveRepair recordId)

omit [UrlCrate Url] in
theorem evolves_maintenance (policy : AssetCachePolicy) (clock : DateTime)
    (hasActiveRepair : Uuid → Bool) :
    Moves (StateEvolves blobIds recordIds) (maintenance policy clock hasActiveRepair) := by
  refine .ite (.fail _) (.bind .read fun s => .bind (.modify fun s => .markMissing _ _) fun _ => ?_)
  refine .bind (evolves_enforceCacheLimit _) fun evicted => ?_
  refine .bind (.modify fun s => .of_eq rfl rfl) fun _ => .bind .read fun queued => ?_
  refine .bind (.modify fun s => evolves_deleteOrphans _ _) fun _ => .bind .read fun t => .pure _

/-! ## Restores -/

theorem mem_of_matchingCandidate {tables : AssetTables} {bytes : List UInt8} {blobId : Uuid} :
    ∀ {rows : List AssetBlobRow}, matchingCandidate tables bytes rows = .ok (some blobId) →
      blobId ∈ rows.map AssetBlobRow.id
  | row :: rows, h => by
    obtain ⟨blob, hread, h⟩ := bind_eq_ok h
    split_ifs at h
    · obtain rfl := Option.some.inj (Except.ok.inj h)
      exact List.mem_map_of_mem List.mem_cons_self
    · exact List.mem_cons_of_mem _ (mem_of_matchingCandidate h)

/-- **A restore that goes on** has found its record, and no candidate or the first one with the bytes
of its input. -/
structure Found (policy : AssetCachePolicy) (tables : AssetTables) (request : AssetRestore Url)
    (candidate : Option Uuid) : Prop where
  record : request.assetId ∈ tables.records.map AssetRecordRow.id
  valid : validateInput request.input policy = .ok ()
  size : request.input.bytes.length ≤ i64Max
  candidate : matchingCandidate tables request.input.bytes
    (candidateRows tables request.input.checksum request.input.bytes.length) = .ok candidate

theorem restorePlan_cases {policy : AssetCachePolicy} {tables : AssetTables}
    {request : AssetRestore Url} {plan : RestorePlan} (h : restorePlan policy tables request = .ok plan) :
    plan = .notFound ∨ plan = .alreadyAvailable ∨
      (plan = .insert ∧ Found policy tables request none) ∨
      ∃ blobId, plan = .reuse blobId ∧ Found policy tables request (some blobId) := by
  obtain ⟨_, hvalid, h⟩ := bind_eq_ok h
  obtain ⟨sourceUrl, _, h⟩ := bind_eq_ok h
  obtain ⟨_, _, h⟩ := bind_eq_ok h
  obtain ⟨byteSize, hsize, h⟩ := bind_eq_ok h
  dsimp only at h
  split at h
  · exact .inl (Except.ok.inj h).symm
  rename_i record hfind
  have hmem := List.mem_of_find?_eq_some hfind
  have hid := List.find?_some hfind
  simp only [decide_eq_true_eq] at hid
  split at h
  · cases h
  rename_i parsed hparsed
  obtain ⟨recordUrl, _, h⟩ := bind_eq_ok h
  split_ifs at h with hurl
  · cases h
  have hsized : byteSize = request.input.bytes.length := inputByteSize_eq hsize
  have hlength : request.input.bytes.length ≤ i64Max := by
    rw [inputByteSize] at hsize
    split_ifs at hsize with hle
    exact hle
  have hrest : ∀ conclude : Option Uuid → RestorePlan, conclude none = .insert →
      (∀ blobId, conclude (some blobId) = .reuse blobId) → ∀ stat : Option AssetBlobMetadata,
      (if stat.any (·.present) then Except.ok RestorePlan.alreadyAvailable
        else do
          let found ← matchingCandidate tables request.input.bytes
            (candidateRows tables request.input.checksum byteSize)
          return conclude found) = .ok plan →
      plan = .alreadyAvailable ∨ (plan = .insert ∧ Found policy tables request none) ∨
        ∃ blobId, plan = .reuse blobId ∧ Found policy tables request (some blobId) := by
    intro conclude hinsert hreuse stat hstat
    split_ifs at hstat
    · exact .inl (Except.ok.inj hstat).symm
    · obtain ⟨found, hfound, hplan⟩ := bind_eq_ok hstat
      rw [hsized] at hfound
      have hfacts : Found policy tables request found :=
        ⟨hid.1 ▸ List.mem_map_of_mem hmem, hvalid, hlength, hfound⟩
      obtain rfl := Except.ok.inj hplan
      cases found with
      | none => exact .inr (.inl ⟨hinsert, hfacts⟩)
      | some blobId => exact .inr (.inr ⟨blobId, hreuse blobId, hfacts⟩)
  refine .inr ?_
  split at h
  · exact hrest _ rfl (fun _ => rfl) none h
  · split_ifs at h
    · exact hrest _ rfl (fun _ => rfl) none h
    · obtain ⟨stat, _, h⟩ := bind_eq_ok h
      exact hrest _ rfl (fun _ => rfl) stat h

end AssetRepository

end Werrss
