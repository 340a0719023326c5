import Werrss.Machinery.Versions
import Werrss.Persistence.AssetIdentity

/-!
# Persistence/AssetLedger — the cache as a set of bodies and the histories of its URLs

    entries   (id, body) (id, body) …          asset_blobs
    log       (URL, body) (URL, body) …  ──▸   asset_records: per URL a version for each change

What the tables stand for while nothing is deleted.  `Describes` is the invariant: **every body has
one row**, and the records of a URL are its history.
-/

open Machinery

namespace Werrss

/-- What a row holds, without its media type and its times. -/
structure BlobContents where
  id : Uuid
  checksum : String
  byteSize : ℕ
  data : Option (List UInt8)
deriving DecidableEq

def AssetBlobRow.contents (row : AssetBlobRow) : BlobContents :=
  ⟨row.id, row.checksum, row.byteSize, row.data⟩

/-- A row that holds a body. -/
def BlobContents.holding [Sha2Crate] (entry : Uuid × List UInt8) : BlobContents :=
  ⟨entry.1, Sha2Crate.sha256Hex entry.2, entry.2.length, some entry.2⟩

/-- The versions of a URL, and the blobs they point at. -/
def AssetTables.chain (t : AssetTables) (url : String) : List (ℕ × Option Uuid) :=
  (t.records.filter (·.sourceUrl = url)).map fun record => (record.version, record.blobId)

/-- The bodies under their ids, and what was fetched. -/
structure AssetLedger where
  entries : List (Uuid × List UInt8)
  log : List (String × List UInt8)

namespace AssetLedger

open AssetTables

/-- The ledger of the empty store. -/
def empty : AssetLedger := ⟨[], []⟩

def bodies (ledger : AssetLedger) : List (List UInt8) := ledger.entries.map Prod.snd

/-- The body of the blob a version points at. -/
def bodyOf (ledger : AssetLedger) (blobId : Option Uuid) : Option (List UInt8) :=
  blobId.bind (List.lookup · ledger.entries)

variable [Sha2Crate]

/-- **The ledger describes the tables.** -/
structure Describes (ledger : AssetLedger) (t : AssetTables) : Prop where
  rows : t.blobs.map AssetBlobRow.contents = ledger.entries.map BlobContents.holding
  ids : (ledger.entries.map Prod.fst).Nodup
  bodies : ledger.bodies.Nodup
  unqueued : t.deletionQueue = []
  versions : ∀ url,
    (t.chain url).map Prod.fst = List.range' 1 (Versions.history ledger.log url).length
  contents : ∀ url, (t.chain url).map (fun version => ledger.bodyOf version.2)
    = (Versions.history ledger.log url).map some

theorem describes_empty : empty.Describes .empty :=
  ⟨rfl, List.nodup_nil, List.nodup_nil, rfl, fun _ => rfl, fun _ => rfl⟩

namespace Describes

variable {ledger : AssetLedger} {t u : AssetTables}

/-- What leaves contents, versions and the queue alone is described as before. -/
theorem frame (h : ledger.Describes t)
    (hblobs : u.blobs.map AssetBlobRow.contents = t.blobs.map AssetBlobRow.contents)
    (hchain : ∀ url, u.chain url = t.chain url) (hqueue : u.deletionQueue = t.deletionQueue) :
    ledger.Describes u := by
  refine ⟨hblobs.trans h.rows, h.ids, h.bodies, hqueue.trans h.unqueued, fun url => ?_,
    fun url => ?_⟩
  · rw [hchain]
    exact h.versions url
  · rw [hchain]
    exact h.contents url

/-! ## Blobs -/

/-- The ids of the rows are those of the entries. -/
theorem map_id (h : ledger.Describes t) :
    t.blobs.map AssetBlobRow.id = ledger.entries.map Prod.fst := by
  have hids := congrArg (List.map BlobContents.id) h.rows
  rw [List.map_map, List.map_map] at hids
  exact hids

/-- A row holds the body of its entry. -/
theorem contents_of_mem (h : ledger.Describes t) {row : AssetBlobRow} (hrow : row ∈ t.blobs) :
    ∃ entry ∈ ledger.entries, row.contents = .holding entry := by
  have hmem : row.contents ∈ ledger.entries.map BlobContents.holding :=
    h.rows ▸ List.mem_map_of_mem hrow
  obtain ⟨entry, hentry, heq⟩ := List.mem_map.mp hmem
  exact ⟨entry, hentry, heq.symm⟩

/-- An entry has its row. -/
theorem row_of_mem (h : ledger.Describes t) {entry : Uuid × List UInt8}
    (hentry : entry ∈ ledger.entries) : ∃ row ∈ t.blobs, row.contents = .holding entry := by
  have hmem : BlobContents.holding entry ∈ t.blobs.map AssetBlobRow.contents :=
    h.rows ▸ List.mem_map_of_mem hentry
  exact List.mem_map.mp hmem

omit [Sha2Crate] in
theorem eq_of_contents [Sha2Crate] {row : AssetBlobRow} {entry : Uuid × List UInt8}
    (h : row.contents = .holding entry) : row.id = entry.1 ∧
      row.checksum = Sha2Crate.sha256Hex entry.2 ∧ row.byteSize = entry.2.length ∧
      row.data = some entry.2 := by
  obtain ⟨hid, hchecksum, hsize, hdata⟩ := BlobContents.mk.inj h
  exact ⟨hid, hchecksum, hsize, hdata⟩

theorem findBlob (h : ledger.Describes t) {id : Uuid} {body : List UInt8}
    (hentry : (id, body) ∈ ledger.entries) :
    ∃ row, t.findBlob id = some row ∧ row ∈ t.blobs ∧ row.contents = .holding (id, body) := by
  obtain ⟨row, hrow, hcontents⟩ := h.row_of_mem hentry
  obtain ⟨hid, -⟩ := eq_of_contents hcontents
  have hkeys : (t.blobs.map AssetBlobRow.id).Nodup := h.map_id ▸ h.ids
  rcases hfind : t.findBlob id with _ | found
  · have hnone := List.find?_eq_none.mp hfind row hrow
    exact absurd (by simpa using hid) hnone
  · obtain ⟨hmem, hfound⟩ := AssetRepository.findBlob_eq_some hfind
    obtain rfl := AssetRepository.eq_of_id_eq hkeys hmem hrow (hfound.trans hid.symm)
    exact ⟨found, rfl, hmem, hcontents⟩

omit [Sha2Crate] in
/-- Entries of one body are one. -/
theorem eq_of_body (hbodies : ledger.bodies.Nodup) {id id' : Uuid} {body : List UInt8}
    (h : (id, body) ∈ ledger.entries) (h' : (id', body) ∈ ledger.entries) : id = id' :=
  congrArg Prod.fst (List.inj_on_of_nodup_map hbodies h h' rfl)

theorem bodyOf_eq_some (h : ledger.Describes t) {blobId : Option Uuid} {body : List UInt8} :
    ledger.bodyOf blobId = some body ↔ ∃ id, blobId = some id ∧ (id, body) ∈ ledger.entries := by
  rw [bodyOf, Option.bind_eq_some_iff]
  exact exists_congr fun id => and_congr_right fun _ => lookup_eq_some_iff_mem h.ids

/-! ## Statements -/

theorem touchBlob (h : ledger.Describes t) (blobId : Uuid) (clock : DateTime) :
    ledger.Describes (t.touchBlob blobId clock) := by
  refine h.frame ?_ (fun _ => rfl) rfl
  rw [AssetTables.touchBlob, AssetTables.updateBlob, List.map_map]
  refine List.map_congr_left fun row _ => ?_
  rw [Function.comp_apply]
  split_ifs
  · rfl
  · rfl

theorem updateRecord (h : ledger.Describes t) {f : AssetRecordRow → AssetRecordRow}
    (hf : ∀ record, (f record).sourceUrl = record.sourceUrl ∧
      (f record).version = record.version ∧ (f record).blobId = record.blobId) (recordId : Uuid) :
    ledger.Describes (t.updateRecord recordId f) := by
  refine h.frame rfl (fun url => ?_) rfl
  have hsame : ∀ record : AssetRecordRow,
      (if record.id = recordId then f record else record).sourceUrl = record.sourceUrl ∧
      (if record.id = recordId then f record else record).version = record.version ∧
      (if record.id = recordId then f record else record).blobId = record.blobId := by
    intro record
    split_ifs
    · exact hf record
    · exact ⟨rfl, rfl, rfl⟩
  have hurl : (fun record : AssetRecordRow => decide (record.sourceUrl = url)) ∘
      (fun record => if record.id = recordId then f record else record)
        = fun record => decide (record.sourceUrl = url) :=
    funext fun record => by rw [Function.comp_apply, (hsame record).1]
  rw [chain, AssetTables.updateRecord, List.filter_map, hurl, List.map_map, chain]
  refine List.map_congr_left fun record _ => ?_
  exact Prod.ext (hsame record).2.1 (hsame record).2.2

/-- **A new body under a new id.** -/
theorem insert (h : ledger.Describes t) {row : AssetBlobRow} {id : Uuid} {body : List UInt8}
    (hrow : row.contents = .holding (id, body)) (hid : id ∉ ledger.entries.map Prod.fst)
    (hbody : body ∉ ledger.bodies) :
    (⟨ledger.entries ++ [(id, body)], ledger.log⟩ : AssetLedger).Describes
      { t with blobs := t.blobs ++ [row] } := by
  refine ⟨?_, ?_, ?_, h.unqueued, h.versions, fun url => ?_⟩
  · rw [List.map_append, h.rows, List.map_append, List.map_singleton, hrow, List.map_singleton]
  · rw [List.map_append]
    exact List.Nodup.append h.ids (List.nodup_singleton _) (List.disjoint_singleton.mpr hid)
  · rw [AssetLedger.bodies, List.map_append]
    exact List.Nodup.append h.bodies (List.nodup_singleton _) (List.disjoint_singleton.mpr hbody)
  · refine Eq.trans (List.map_congr_left fun version hversion => ?_) (h.contents url)
    have hmem : ledger.bodyOf version.2 ∈ (Versions.history ledger.log url).map some :=
      h.contents url ▸ List.mem_map_of_mem hversion
    obtain ⟨old, -, hold⟩ := List.mem_map.mp hmem
    obtain ⟨other, hpoints, hentry⟩ := h.bodyOf_eq_some.mp hold.symm
    rw [← hold, hpoints, bodyOf, Option.bind_some, List.lookup_append,
      (lookup_eq_some_iff_mem h.ids).mpr hentry, Option.some_or]

/-! ## Versions -/

/-- **The newest version** of a URL is the last of its chain. -/
theorem latestRecord (h : ledger.Describes t) (url : String) :
    t.latestRecord url = (t.records.filter (·.sourceUrl = url)).getLast? := by
  have hsorted : ((t.records.filter (·.sourceUrl = url)).map AssetRecordRow.version).Pairwise
      (· < ·) := by
    have hchain := h.versions url
    rw [chain, List.map_map] at hchain
    have hsame : (Prod.fst ∘ fun record : AssetRecordRow => (record.version, record.blobId))
        = AssetRecordRow.version := rfl
    rw [← hsame, hchain]
    exact List.pairwise_lt_range'
  rw [AssetTables.latestRecord]
  generalize t.records.filter (·.sourceUrl = url) = rows at hsorted
  -- the newest of the first rows is the last of them, and the next row is newer
  induction rows using List.reverseRecOn with
  | nil => rfl
  | append_singleton rows row ih =>
    rw [List.map_append, List.pairwise_append] at hsorted
    rw [List.foldl_append, ih hsorted.1, List.getLast?_concat, List.foldl_cons, List.foldl_nil]
    rcases hlast : rows.getLast? with _ | other
    · rfl
    · have hlt : other.version < row.version := hsorted.2.2 other.version
        (List.mem_map_of_mem (List.mem_of_getLast? hlast)) row.version List.mem_cons_self
      exact if_pos hlt

/-- The newest body of a URL is the one its newest version points at. -/
theorem newest (h : ledger.Describes t) (url : String) :
    (Versions.history ledger.log url).getLast?
      = (t.latestRecord url).bind fun record => ledger.bodyOf record.blobId := by
  have hlast := congrArg List.getLast? (h.contents url)
  rw [List.getLast?_map, List.getLast?_map, chain, List.getLast?_map, ← h.latestRecord] at hlast
  rcases hlatest : t.latestRecord url with _ | record
  · rw [hlatest] at hlast
    exact Option.map_eq_none_iff.mp hlast.symm
  · rw [hlatest] at hlast
    obtain ⟨body, hbody, heq⟩ := Option.map_eq_some_iff.mp hlast.symm
    exact hbody.trans heq

/-- The newest version has the number of the changes. -/
theorem version (h : ledger.Describes t) (url : String) :
    ((t.latestRecord url).map (·.version)).getD 0 = (Versions.history ledger.log url).length := by
  have hlast := congrArg List.getLast? (h.versions url)
  rw [List.getLast?_map, chain, List.getLast?_map, ← h.latestRecord, List.getLast?_range'] at hlast
  rcases hlatest : t.latestRecord url with _ | record
  · rw [hlatest] at hlast
    split_ifs at hlast with hnone
    · exact hnone.symm
    · exact nomatch hlast
  · rw [hlatest] at hlast
    split_ifs at hlast with hnone
    · exact nomatch hlast
    · have hversion : record.version = 1 + (Versions.history ledger.log url).length - 1 :=
        Option.some.inj hlast
      rw [Option.map_some, Option.getD_some, hversion]
      omega

/-- What a URL went through is under some id. -/
theorem mem_bodies (h : ledger.Describes t) {url : String} {body : List UInt8}
    (hbody : body ∈ Versions.history ledger.log url) : body ∈ ledger.bodies := by
  have hmem : some body ∈ (t.chain url).map fun version => ledger.bodyOf version.2 :=
    h.contents url ▸ List.mem_map_of_mem hbody
  obtain ⟨version, -, hversion⟩ := List.mem_map.mp hmem
  obtain ⟨id, -, hentry⟩ := h.bodyOf_eq_some.mp hversion
  exact List.mem_map_of_mem hentry

/-- A record points at an entry. -/
theorem points (h : ledger.Describes t) {record : AssetRecordRow} (hrecord : record ∈ t.records) :
    ∃ id body, record.blobId = some id ∧ (id, body) ∈ ledger.entries := by
  have hmem : (record.version, record.blobId) ∈ t.chain record.sourceUrl :=
    List.mem_map_of_mem (f := fun record : AssetRecordRow => (record.version, record.blobId))
      (List.mem_filter.mpr ⟨hrecord, decide_eq_true rfl⟩)
  have hbody : ledger.bodyOf record.blobId ∈
      (Versions.history ledger.log record.sourceUrl).map some :=
    h.contents record.sourceUrl ▸ List.mem_map_of_mem (f := fun version : ℕ × Option Uuid =>
      ledger.bodyOf version.2) hmem
  obtain ⟨body, -, hsome⟩ := List.mem_map.mp hbody
  obtain ⟨id, hid, hentry⟩ := h.bodyOf_eq_some.mp hsome.symm
  exact ⟨id, body, hid, hentry⟩

/-! ## Observations -/

/-- **The newest body again** adds nothing. -/
theorem observeSame (h : ledger.Describes t) {url : String} {body : List UInt8}
    (hnewest : (Versions.history ledger.log url).getLast? = some body) :
    (⟨ledger.entries, ledger.log ++ [(url, body)]⟩ : AssetLedger).Describes t := by
  have hsame : ∀ other, Versions.history (ledger.log ++ [(url, body)]) other
      = Versions.history ledger.log other := by
    intro other
    by_cases heq : url = other
    · subst heq
      rw [Versions.history_append_self, Versions.observe, if_pos hnewest]
    · exact Versions.history_append_of_ne _ heq body
  refine ⟨h.rows, h.ids, h.bodies, h.unqueued, fun other => ?_, fun other => ?_⟩
  · rw [hsame]
    exact h.versions other
  · rw [hsame]
    exact h.contents other

/-- **Another body** adds a version. -/
theorem observeNew (h : ledger.Describes t) {record : AssetRecordRow} {id : Uuid}
    {body : List UInt8}
    (hnewest : (Versions.history ledger.log record.sourceUrl).getLast? ≠ some body)
    (hpoints : record.blobId = some id) (hentry : (id, body) ∈ ledger.entries)
    (hversion : record.version = (Versions.history ledger.log record.sourceUrl).length + 1) :
    (⟨ledger.entries, ledger.log ++ [(record.sourceUrl, body)]⟩ : AssetLedger).Describes
      { t with records := t.records ++ [record] } := by
  have hself : ∀ other, (⟨t.blobs, t.records ++ [record], t.articleAssets, t.deletionQueue⟩ :
      AssetTables).chain other = t.chain other ++
        if record.sourceUrl = other then [(record.version, record.blobId)] else [] := by
    intro other
    rw [chain, List.filter_append, List.map_append, chain]
    congr 1
    split_ifs with heq
    · rw [List.filter_singleton, decide_eq_true heq]
      rfl
    · rw [List.filter_singleton, decide_eq_false heq]
      rfl
  refine ⟨h.rows, h.ids, h.bodies, h.unqueued, fun other => ?_, fun other => ?_⟩
  · rw [hself, List.map_append, h.versions]
    split_ifs with heq
    · subst heq
      rw [Versions.history_append_self, Versions.observe, if_neg hnewest, List.length_append,
        List.length_singleton, List.range'_concat, hversion]
      simp [Nat.add_comm]
    · rw [Versions.history_append_of_ne _ heq, List.map_nil, List.append_nil]
  · rw [hself, List.map_append]
    refine (congrArg (· ++ _) (h.contents other)).trans ?_
    split_ifs with heq
    · subst heq
      have hbody : (⟨ledger.entries, ledger.log ++ [(record.sourceUrl, body)]⟩ :
          AssetLedger).bodyOf record.blobId = some body :=
        h.bodyOf_eq_some.mpr ⟨id, hpoints, hentry⟩
      rw [Versions.history_append_self, Versions.observe, if_neg hnewest, List.map_append,
        List.map_singleton, hbody, List.map_singleton]
    · rw [Versions.history_append_of_ne _ heq, List.map_nil, List.append_nil]

end Describes

end AssetLedger

end Werrss
