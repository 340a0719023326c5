import Werrss.Domain.FeedToken
import Werrss.Machinery.Rows

/-!
# Persistence/FeedTokenRepository — one token digest per source

    replace ── insert the row of the source, or overwrite its digest and un-revoke it
    revoke  ── mark the row
    delete  ── the source goes, and its row with it

A digest is found when its row is not revoked.  Sources are unique in the table, and so are digests:
that is what makes the lookup by digest and the row of a source the same thing.
-/

open Machinery

namespace Werrss

/-- A row of `feed_tokens`. -/
structure FeedTokenRow where
  sourceId : Uuid
  tokenHash : Vector UInt8 32
  createdAt : DateTime
  rotatedAt : DateTime
  revokedAt : Option DateTime
deriving DecidableEq

/-- Errors of the repository. -/
inductive FeedTokenRepositoryError
  | invalidSourceId
  | sourceNotFound (sourceId : Uuid)
  | storage (message : String)
deriving DecidableEq

/-- **The tables a token lives in**: the ids of the sources, and the tokens, no two of one source or
of one digest. -/
structure FeedTokenTables where
  sources : List Uuid
  tokens : List FeedTokenRow
  sources_unique : (tokens.map FeedTokenRow.sourceId).Nodup
  hashes_unique : (tokens.map FeedTokenRow.tokenHash).Nodup

namespace FeedTokenTables

variable (tables : FeedTokenTables)

/-- The row of a source. -/
def row (sourceId : Uuid) : Option FeedTokenRow :=
  Rows.get FeedTokenRow.sourceId tables.tokens sourceId

/-- Tables without tokens. -/
def start (sources : List Uuid) : FeedTokenTables := ⟨sources, [], List.nodup_nil, List.nodup_nil⟩

/-- `find_source`. -/
def findSource (tokenHash : Vector UInt8 32) : Option Uuid :=
  (tables.tokens.find? fun row => row.tokenHash = tokenHash ∧ row.revokedAt.isNone).map
    FeedTokenRow.sourceId

/-- The unique digest index refuses the digest of another source. -/
def hashTaken (sourceId : Uuid) (tokenHash : Vector UInt8 32) : Prop :=
  ∃ row ∈ tables.tokens, row.sourceId ≠ sourceId ∧ row.tokenHash = tokenHash

instance (sourceId : Uuid) (tokenHash : Vector UInt8 32) :
    Decidable (tables.hashTaken sourceId tokenHash) :=
  inferInstanceAs (Decidable (∃ row ∈ tables.tokens, row.sourceId ≠ sourceId ∧
    row.tokenHash = tokenHash))

/-- The row the `ON CONFLICT` arm writes. -/
def rotate (tokenHash : Vector UInt8 32) (now : DateTime) (row : FeedTokenRow) : FeedTokenRow :=
  { row with tokenHash := tokenHash, rotatedAt := now, revokedAt := none }

theorem rotate_sourceId (tokenHash : Vector UInt8 32) (now : DateTime) (row : FeedTokenRow) :
    (rotate tokenHash now row).sourceId = row.sourceId := rfl

/-- A column stays unique when a value is added that no row has. -/
theorem nodup_map_insert {C : Type} {col : FeedTokenRow → C} {tokens : List FeedTokenRow}
    {row : FeedTokenRow} (h : (tokens.map col).Nodup) (hfree : ∀ other ∈ tokens, col other ≠ col row) :
    ((tokens ++ [row]).map col).Nodup := by
  rw [List.map_append, List.map_singleton, List.nodup_append]
  refine ⟨h, List.nodup_singleton _, fun c hc c' hc' heq => ?_⟩
  obtain ⟨other, hother, rfl⟩ := List.mem_map.mp hc
  exact hfree other hother (heq.trans (List.mem_singleton.mp hc'))

/-- `replace`, with the clock of the statement. -/
def replace (now : DateTime) (sourceId : Uuid) (tokenHash : Vector UInt8 32) :
    Except FeedTokenRepositoryError FeedTokenTables :=
  if sourceId = Uuid.nil then .error .invalidSourceId
  else if htaken : tables.hashTaken sourceId tokenHash then
    .error (.storage "duplicate key value violates unique constraint \"feed_tokens_hash_idx\"")
  else if hrow : tables.row sourceId = none then
    if sourceId ∉ tables.sources then .error (.sourceNotFound sourceId)
    else
      have hnew : ∀ other ∈ tables.tokens, other.sourceId ≠ sourceId := Rows.get_eq_none.mp hrow
      .ok
        { tables with
          tokens := tables.tokens ++ [⟨sourceId, tokenHash, now, now, none⟩]
          sources_unique := nodup_map_insert tables.sources_unique hnew
          hashes_unique := nodup_map_insert tables.hashes_unique fun other hother heq =>
            htaken ⟨other, hother, hnew other hother, heq⟩ }
  else
    .ok
      { tables with
        tokens := Rows.update FeedTokenRow.sourceId tables.tokens sourceId (rotate tokenHash now)
        sources_unique := by
          rw [Rows.map_key_update (rotate_sourceId tokenHash now)]
          exact tables.sources_unique
        hashes_unique := Rows.nodup_map_update (f := rotate tokenHash now) (fun _ => rfl)
          tables.sources_unique tables.hashes_unique fun other hother hne heq => htaken ⟨other, hother, hne, heq⟩ }

/-- A live row, marked. -/
def markRevoked (now : DateTime) (row : FeedTokenRow) : FeedTokenRow :=
  if row.revokedAt = none then { row with revokedAt := some now } else row

theorem markRevoked_sourceId (now : DateTime) (row : FeedTokenRow) :
    (markRevoked now row).sourceId = row.sourceId := by
  rw [markRevoked]
  split_ifs <;> rfl

theorem markRevoked_tokenHash (now : DateTime) (row : FeedTokenRow) :
    (markRevoked now row).tokenHash = row.tokenHash := by
  rw [markRevoked]
  split_ifs <;> rfl

/-- `revoke`: the tables, and whether a row was changed. -/
def revoke (now : DateTime) (sourceId : Uuid) :
    Except FeedTokenRepositoryError (FeedTokenTables × Bool) :=
  if sourceId = Uuid.nil then .error .invalidSourceId
  else
    .ok
      ({ tables with
          tokens := Rows.update FeedTokenRow.sourceId tables.tokens sourceId (markRevoked now)
          sources_unique := by
            rw [Rows.map_key_update (markRevoked_sourceId now)]
            exact tables.sources_unique
          hashes_unique := by
            have hsame : (Rows.update FeedTokenRow.sourceId tables.tokens sourceId
                (markRevoked now)).map FeedTokenRow.tokenHash
                  = tables.tokens.map FeedTokenRow.tokenHash := by
              rw [Rows.update, List.map_map]
              refine List.map_congr_left fun row _ => ?_
              rw [Function.comp_apply]
              split_ifs
              · exact markRevoked_tokenHash now row
              · rfl
            rw [hsame]
            exact tables.hashes_unique },
        (tables.row sourceId).any fun row => row.revokedAt.isNone)

/-- Deleting a source cascades to its token. -/
def deleteSource (sourceId : Uuid) : FeedTokenTables where
  sources := tables.sources.filter (· ≠ sourceId)
  tokens := Rows.remove FeedTokenRow.sourceId tables.tokens sourceId
  sources_unique := (List.filter_sublist.map _).nodup tables.sources_unique
  hashes_unique := (List.filter_sublist.map _).nodup tables.hashes_unique

/-! ## The live digest of a source -/

/-- **The digest of a source that is not revoked**, if it has one. -/
def liveHash (sourceId : Uuid) : Option (Vector UInt8 32) :=
  (tables.row sourceId).bind fun row =>
    if row.revokedAt = none then some row.tokenHash else none

variable {tables}

theorem liveHash_of_row {sourceId : Uuid} {row : FeedTokenRow}
    (h : tables.row sourceId = some row) :
    tables.liveHash sourceId = if row.revokedAt = none then some row.tokenHash else none := by
  rw [liveHash, h, Option.bind_some]

/-- **The lookup by digest finds the source whose live digest it is.** -/
theorem findSource_eq_some {tokenHash : Vector UInt8 32} {sourceId : Uuid} :
    tables.findSource tokenHash = some sourceId ↔ tables.liveHash sourceId = some tokenHash := by
  rw [findSource, Option.map_eq_some_iff]
  refine ⟨fun ⟨row, hfind, hsource⟩ => ?_, fun hlive => ?_⟩
  · have hmatch := List.find?_some hfind
    simp only [Bool.decide_and, Bool.and_eq_true, decide_eq_true_eq, Option.isNone_iff_eq_none]
      at hmatch
    have hrow : tables.row sourceId = some row := by
      rw [← hsource]
      exact Rows.get_of_mem tables.sources_unique (List.mem_of_find?_eq_some hfind)
    rw [liveHash_of_row hrow, if_pos hmatch.2, hmatch.1]
  · obtain ⟨row, hrow, hhash⟩ := Option.bind_eq_some_iff.mp hlive
    split_ifs at hhash with hlive'
    obtain rfl := Option.some.inj hhash
    have hmem : row ∈ tables.tokens := Rows.mem_of_get hrow
    cases hfind : tables.tokens.find? fun other =>
        other.tokenHash = row.tokenHash ∧ other.revokedAt.isNone with
    | none =>
      have hnone := List.find?_eq_none.mp hfind row hmem
      simp [hlive'] at hnone
    | some other =>
      have hmatch := List.find?_some hfind
      simp only [Bool.decide_and, Bool.and_eq_true, decide_eq_true_eq] at hmatch
      refine ⟨other, rfl, ?_⟩
      rw [List.inj_on_of_nodup_map tables.hashes_unique (List.mem_of_find?_eq_some hfind) hmem
        hmatch.1]
      exact Rows.key_of_get hrow

/-- What a replacement does to the live digests. -/
theorem liveHash_replace {now : DateTime} {sourceId : Uuid} {tokenHash : Vector UInt8 32}
    {result : FeedTokenTables} (h : replace tables now sourceId tokenHash = .ok result)
    (other : Uuid) :
    result.liveHash other = if other = sourceId then some tokenHash else tables.liveHash other := by
  rw [replace] at h
  split_ifs at h with hnil htaken hrow hsource
  · obtain rfl := Except.ok.inj h
    rw [liveHash, row, Rows.get_append_singleton]
    by_cases hother : other = sourceId
    · subst hother
      rw [row] at hrow
      rw [hrow, if_pos rfl, if_pos rfl]
      rfl
    · rw [if_neg hother, if_neg fun heq => hother heq.symm, Option.or_none]
      rfl
  · obtain rfl := Except.ok.inj h
    rw [liveHash, row, Rows.get_update (rotate_sourceId tokenHash now)]
    by_cases hother : other = sourceId
    · subst hother
      obtain ⟨old, hold⟩ := Option.ne_none_iff_exists'.mp hrow
      rw [row] at hold
      rw [if_pos rfl, if_pos rfl, hold]
      rfl
    · rw [if_neg hother, if_neg hother]
      rfl

/-- What a revocation does to the live digests. -/
theorem liveHash_revoke {now : DateTime} {sourceId : Uuid} {result : FeedTokenTables × Bool}
    (h : revoke tables now sourceId = .ok result) (other : Uuid) :
    result.1.liveHash other = if other = sourceId then none else tables.liveHash other := by
  rw [revoke] at h
  split_ifs at h
  obtain rfl := Except.ok.inj h
  rw [liveHash, row, Rows.get_update (markRevoked_sourceId now)]
  by_cases hother : other = sourceId
  · rw [if_pos hother, if_pos hother]
    cases Rows.get FeedTokenRow.sourceId tables.tokens other with
    | none => rfl
    | some old =>
      rw [Option.map_some, Option.bind_some, markRevoked]
      by_cases hlive : old.revokedAt = none
      · rw [if_pos hlive]
        rfl
      · rw [if_neg hlive, if_neg hlive]
  · rw [if_neg hother, if_neg hother]
    rfl

/-- What a deletion does to the live digests. -/
theorem liveHash_deleteSource (sourceId other : Uuid) :
    (deleteSource tables sourceId).liveHash other
      = if other = sourceId then none else tables.liveHash other := by
  rw [liveHash, row, deleteSource, Rows.get_remove]
  split_ifs
  · rfl
  · rfl

end FeedTokenTables

end Werrss
