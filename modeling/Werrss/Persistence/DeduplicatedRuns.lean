import Werrss.Persistence.Deduplication

/-!
# Persistence/DeduplicatedRuns — units of work over a deduplicated cache

    sync, backfill   prepare all articles' images ─▸ [ article ┊ skipped ┊ article ┊ … ] ─▸ commit

One invariant runs through a batch, a unit of work and a run of them: some ledger describes the
tables, and its log is what was fetched for the articles that were stored.
-/

open Machinery

namespace Werrss

namespace AssetRepository

open AssetTables

section Runs

variable {Url : Type} [UrlCrate Url] [Sha2Crate]

/-! ## A batch -/

/-- What a URL was fetched with. -/
def fetchedBody (input : AssetInput Url) : Option (String × List UInt8) :=
  (normalizeUrl input.sourceUrl).toOption.map fun url => (UrlCrate.asStr url, input.bytes)

/-- What the images of an article were fetched with. -/
def fetchedBodies (inputs : List (AssetInput Url × AssetSupply)) : List (String × List UInt8) :=
  inputs.filterMap fun entry => fetchedBody entry.1

/-- **What an article finds when it is its turn.**  The preparation stands for the tables `before`
describes; where a body is new to those, no other article has stored it, nor fetched it earlier. -/
structure Turn (t : AssetTables) (preparation : AssetBatchPreparation) (before start : AssetLedger)
    (earlier : List (AssetInput Url)) (inputs : List (AssetInput Url × AssetSupply)) : Prop where
  describes : before.Describes t
  kept : before.entries ⊆ start.entries
  finds : ∀ done entry rest, inputs = done ++ entry :: rest →
    Finds t preparation (earlier ++ done.map Prod.fst) entry.1
  ids : ((earlier ++ inputs.map Prod.fst).map AssetInput.preparationId).Nodup
  apart : ∀ entry ∈ inputs, entry.1.bytes ∉ before.bodies →
    entry.1.bytes ∉ start.bodies ∧ ∀ other ∈ earlier, other.bytes ≠ entry.1.bytes
  urls : ((fetchedBodies inputs).map Prod.fst).Nodup
  recorded : ∀ url, ∀ body ∈ Versions.history start.log url, body ∈ start.bodies
  supplied : (inputs.map (·.2.blobId)).Nodup
  fresh : ∀ entry ∈ inputs, entry.2.blobId ∉ start.entries.map Prod.fst

/-- **In the middle of a batch**, after `done`. -/
structure Midway (start : AssetLedger) (done : List (AssetInput Url × AssetSupply))
    (batchBlobs : List (Uuid × Uuid)) (entries : List (Uuid × List UInt8)) : Prop where
  kept : start.entries ⊆ entries
  added : ∀ e ∈ entries, e ∈ start.entries ∨ ∃ entry ∈ done, e = (entry.2.blobId, entry.1.bytes)
  stored : ∀ entry ∈ done, ∃ id, batchBlobs.lookup entry.1.preparationId = some id ∧
    (id, entry.1.bytes) ∈ entries
  known : ∀ preparationId id, batchBlobs.lookup preparationId = some id →
    ∃ entry ∈ done, entry.1.preparationId = preparationId
  valid : ∀ entry ∈ done, entry.1.checksumMatchesBytes = true

section Turn

variable {t : AssetTables} {preparation : AssetBatchPreparation} {before start : AssetLedger}
  {earlier : List (AssetInput Url)} {inputs done rest : List (AssetInput Url × AssetSupply)}
  {batchBlobs : List (Uuid × Uuid)} {entries : List (Uuid × List UInt8)}
  {entry : AssetInput Url × AssetSupply}

/-- A body the preparation has not found is new. -/
theorem Turn.notMem (h : Turn t preparation before start earlier inputs)
    (hinputs : inputs = done ++ entry :: rest) (hvalid : entry.1.checksumMatchesBytes = true)
    (hnone : preparation.matchingBlob entry.1 = .ok none) : entry.1.bytes ∉ before.bodies := by
  obtain ⟨found, hfound, hmatched⟩ := (h.finds done entry rest hinputs).blob
  obtain rfl := Except.ok.inj (hnone.symm.trans hfound)
  exact (hmatched.entry h.describes).2 rfl hvalid

/-- **The matches of the next input** lead to its body, and there is one if the body is stored. -/
theorem Turn.matches (h : Turn t preparation before start earlier inputs)
    (hinputs : inputs = done ++ entry :: rest) (hmidway : Midway start done batchBlobs entries)
    (hvalid : entry.1.checksumMatchesBytes = true) (log : List (String × List UInt8)) :
    Matches ⟨entries, log⟩ preparation entry.1 batchBlobs := by
  have hfinds := h.finds done entry rest hinputs
  obtain ⟨found, hfound, hmatched⟩ := hfinds.blob
  have hentry := (hmatched.entry h.describes).1
  have hdone : ∀ other ∈ done, other ∈ inputs := fun other hother =>
    hinputs ▸ List.mem_append_left _ hother
  refine ⟨fun id hid => ?_, found, hfound, fun id hid => hmidway.kept (h.kept (hentry id hid)),
    fun hnone hbatch hmem => ?_⟩
  · -- The first input of this body is one of this batch, since its id is known here.
    rw [batchMatch, hfinds.input] at hid
    obtain ⟨preparationId, hprevious, hlookup⟩ := Option.bind_eq_some_iff.mp hid
    obtain ⟨previous, hfind, rfl⟩ := Option.map_eq_some_iff.mp hprevious
    obtain ⟨-, hbody⟩ := sameBody_iff.mp (List.find?_some hfind)
    obtain ⟨other, hother, hsame⟩ := hmidway.known _ id hlookup
    have hmem : previous ∈ earlier ++ inputs.map Prod.fst := by
      rcases List.mem_append.mp (List.mem_of_find?_eq_some hfind) with hmem | hmem
      · exact List.mem_append_left _ hmem
      · obtain ⟨past, hpast, rfl⟩ := List.mem_map.mp hmem
        exact List.mem_append_right _ (List.mem_map_of_mem (hdone past hpast))
    obtain rfl := List.inj_on_of_nodup_map h.ids
      (List.mem_append_right _ (List.mem_map_of_mem (hdone other hother))) hmem hsame
    obtain ⟨stored, hstored, hstoredMem⟩ := hmidway.stored other hother
    obtain rfl := Option.some.inj (hlookup.symm.trans hstored)
    rwa [hbody] at hstoredMem
  · -- A body that is new and stored is one of this batch.
    subst hnone
    obtain ⟨hstart, hearlier⟩ := h.apart entry
      (hinputs ▸ List.mem_append_right _ List.mem_cons_self) (h.notMem hinputs hvalid hfound)
    obtain ⟨e, he, hbody⟩ := List.mem_map.mp hmem
    rcases hmidway.added e he with hold | ⟨other, hother, rfl⟩
    · exact hstart (List.mem_map.mpr ⟨e, hold, hbody⟩)
    have hbytes : other.1.bytes = entry.1.bytes := hbody
    have hsame : sameBody entry.1 other.1 = true :=
      sameBody_iff.mpr ⟨by rw [checksum_of_matches (hmidway.valid other hother),
        checksum_of_matches hvalid, hbytes], hbytes⟩
    rw [batchMatch, hfinds.input] at hbatch
    rcases hfind : (earlier ++ done.map Prod.fst).find? (sameBody entry.1) with _ | previous
    · exact List.find?_eq_none.mp hfind other.1
        (List.mem_append_right _ (List.mem_map_of_mem hother)) hsame
    · obtain ⟨-, hprevious⟩ := sameBody_iff.mp (List.find?_some hfind)
      rcases List.mem_append.mp (List.mem_of_find?_eq_some hfind) with hmem | hmem
      · exact hearlier previous hmem hprevious
      · obtain ⟨past, hpast, rfl⟩ := List.mem_map.mp hmem
        obtain ⟨id, hid, -⟩ := hmidway.stored past hpast
        rw [hfind, Option.map_some, Option.bind_some, hid] at hbatch
        cases hbatch

/-- A new body is not the newest of its URL: this article shows the URL once. -/
theorem Turn.newest (h : Turn t preparation before start earlier inputs)
    (hinputs : inputs = done ++ entry :: rest) (hvalid : entry.1.checksumMatchesBytes = true)
    (hnone : preparation.matchingBlob entry.1 = .ok none) {sourceUrl : Url}
    (hurl : normalizeUrl entry.1.sourceUrl = .ok sourceUrl) :
    (Versions.history (start.log ++ fetchedBodies done) (UrlCrate.asStr sourceUrl)).getLast?
      ≠ some entry.1.bytes := by
  obtain ⟨hstart, -⟩ := h.apart entry
    (hinputs ▸ List.mem_append_right _ List.mem_cons_self) (h.notMem hinputs hvalid hnone)
  have hurls := h.urls
  rw [hinputs, fetchedBodies, List.filterMap_append, List.filterMap_cons, fetchedBody, hurl,
    List.map_append] at hurls
  have hother : ∀ e ∈ fetchedBodies done, e.1 ≠ UrlCrate.asStr sourceUrl := fun e he =>
    (List.nodup_append.mp hurls).2.2 e.1 (List.mem_map_of_mem he) _ List.mem_cons_self
  rw [Versions.history_append_of_forall_ne _ _ hother]
  exact fun hlast => hstart (h.recorded _ _ (List.mem_of_getLast? hlast))

/-- One more input is stored. -/
theorem Midway.step (h : Turn t preparation before start earlier inputs)
    (hinputs : inputs = done ++ entry :: rest) (hmidway : Midway start done batchBlobs entries)
    (hvalid : entry.1.checksumMatchesBytes = true) {grown : List (Uuid × List UInt8)} {id : Uuid}
    (hmem : (id, entry.1.bytes) ∈ grown)
    (hgrown : grown = entries ∨ grown = entries ++ [(entry.2.blobId, entry.1.bytes)]) :
    Midway start (done ++ [entry]) ((entry.1.preparationId, id) :: batchBlobs) grown := by
  have hsub : entries ⊆ grown := by
    rcases hgrown with rfl | rfl
    · exact List.Subset.refl _
    · exact List.subset_append_left _ _
  refine ⟨fun e he => hsub (hmidway.kept he), fun e he => ?_, fun other hother => ?_,
    fun preparationId other hlookup => ?_, fun other hother => ?_⟩
  · have hold : e ∈ entries → e ∈ start.entries ∨
        ∃ other ∈ done ++ [entry], e = (other.2.blobId, other.1.bytes) := fun he =>
      (hmidway.added e he).imp_right fun ⟨other, hother, heq⟩ =>
        ⟨other, List.mem_append_left _ hother, heq⟩
    rcases hgrown with rfl | rfl
    · exact hold he
    · rcases List.mem_append.mp he with he | he
      · exact hold he
      · exact .inr ⟨entry, List.mem_append_right _ (List.mem_singleton_self _),
          List.mem_singleton.mp he⟩
  · rcases List.mem_append.mp hother with hother | hother
    · have hids := h.ids
      rw [hinputs, List.map_append, List.map_append, List.map_append, List.map_cons,
        List.map_cons] at hids
      have hne : other.1.preparationId ≠ entry.1.preparationId :=
        (List.nodup_append.mp (List.nodup_append.mp hids).2.1).2.2 _
          (List.mem_map_of_mem (List.mem_map_of_mem hother)) _ List.mem_cons_self
      obtain ⟨stored, hstored, hstoredMem⟩ := hmidway.stored other hother
      refine ⟨stored, ?_, hsub hstoredMem⟩
      rw [List.lookup_cons, beq_false_of_ne hne]
      exact hstored
    · rw [List.mem_singleton.mp hother]
      exact ⟨id, List.lookup_cons_self, hmem⟩
  · by_cases heq : preparationId = entry.1.preparationId
    · exact ⟨entry, List.mem_append_right _ (List.mem_singleton_self _), heq.symm⟩
    · rw [List.lookup_cons, beq_false_of_ne heq] at hlookup
      obtain ⟨past, hpast, hid⟩ := hmidway.known preparationId other hlookup
      exact ⟨past, List.mem_append_left _ hpast, hid⟩
  · rcases List.mem_append.mp hother with hother | hother
    · exact hmidway.valid other hother
    · rw [List.mem_singleton.mp hother]
      exact hvalid

omit [UrlCrate Url] in
/-- What is validated has the digest of its body. -/
theorem checksum_of_validateInput [UrlCrate Url] {input : AssetInput Url}
    {policy : AssetCachePolicy} (h : validateInput input policy = .ok ()) :
    input.checksumMatchesBytes = true := by
  by_contra hno
  rw [validateInput, Bool.eq_false_iff.mpr hno] at h
  exact nomatch h

/-- **The loop of a batch**: the ledger grows by what was fetched. -/
theorem storeEach_entries {context : AssetWriteContext}
    (hmax : context.policy.maxCacheSizeBytes = 0)
    (hcontext : context.preparation = some preparation) (sourceId : Uuid) (reviewId : String)
    (h : Turn t preparation before start earlier inputs) :
    ∀ (rest done : List (AssetInput Url × AssetSupply)) (protectedBlobIds : List Uuid)
      (batchBlobs : List (Uuid × Uuid)) (entries : List (Uuid × List UInt8)),
      inputs = done ++ rest → Midway start done batchBlobs entries →
      Tx.Triple (Accounts ⟨entries, start.log ++ fetchedBodies done⟩)
        (storeEach context sourceId reviewId rest protectedBlobIds batchBlobs)
        (fun _ s => ∃ grown batchBlobs, Midway start inputs batchBlobs grown ∧
          Accounts ⟨grown, start.log ++ fetchedBodies inputs⟩ s) fun _ => True
  | [], done, _, batchBlobs, entries, hinputs, hmidway => by
    rw [List.append_nil] at hinputs
    subst hinputs
    exact .pure fun s hs => ⟨entries, batchBlobs, hmidway, hs⟩
  | entry :: rest, done, protectedBlobIds, batchBlobs, entries, hinputs, hmidway => by
    have hfresh : entry.2.blobId ∉ entries.map Prod.fst := by
      intro hmem
      obtain ⟨e, he, hid⟩ := List.mem_map.mp hmem
      have hentry : entry ∈ inputs := hinputs ▸ List.mem_append_right _ List.mem_cons_self
      rcases hmidway.added e he with hold | ⟨other, hother, rfl⟩
      · exact h.fresh entry hentry (hid ▸ List.mem_map_of_mem hold)
      · have hsupplied := h.supplied
        rw [hinputs, List.map_append, List.map_cons] at hsupplied
        exact (List.nodup_append.mp hsupplied).2.2 _ (List.mem_map_of_mem hother) _
          List.mem_cons_self hid
    refine .each fun s hs => .bind (R := fun asset u => ∃ grown,
      Midway start (done ++ [entry]) ((entry.1.preparationId, asset.blobId) :: batchBlobs) grown ∧
      Accounts ⟨grown, start.log ++ fetchedBodies (done ++ [entry])⟩ u) ?_ fun asset => ?_
    · refine .ofExcept_bind (fun _ _ => trivial) fun _ hvalidate => ?_
      have hvalid := checksum_of_validateInput hvalidate
      refine .bind (storeOne_entry hmax hcontext hs (h.matches hinputs hmidway hvalid _)
        (fun hnone url hurl => h.newest hinputs hvalid hnone hurl) hvalid hfresh) fun asset => ?_
      refine .each fun u hu => ?_
      obtain ⟨sourceUrl, grown, hurl, haccounts, hmem, hgrown⟩ := hu
      have hlog : start.log ++ fetchedBodies (done ++ [entry])
          = start.log ++ fetchedBodies done ++ [(UrlCrate.asStr sourceUrl, entry.1.bytes)] := by
        rw [fetchedBodies, List.filterMap_append, ← List.append_assoc, List.filterMap_cons,
          fetchedBody, hurl]
        rfl
      have hstep := hmidway.step h hinputs hvalid hmem hgrown
      rw [hlog]
      refine .bind (R := fun _ v => Accounts ⟨grown, start.log ++ fetchedBodies done ++
        [(UrlCrate.asStr sourceUrl, entry.1.bytes)]⟩ v) ?_
        fun _ => .pure fun v hv => ⟨grown, hstep, hv⟩
      rw [attach]
      refine .ite (fun _ => ?_) fun _ => .fail fun _ _ => trivial
      rintro v rfl
      refine ⟨fun _ w hw => ?_, fun _ _ hfailed => by cases hfailed⟩
      obtain ⟨-, rfl⟩ := Prod.mk.inj hw
      exact ⟨haccounts.describes.frame rfl (fun _ => rfl) rfl, haccounts.deferred⟩
    · refine .each fun u hu => ?_
      obtain ⟨grown, hgrown, haccounts⟩ := hu
      refine .bind ((storeEach_entries hmax hcontext sourceId reviewId h rest (done ++ [entry]) _ _
        grown (by rw [hinputs, List.append_cons]) hgrown).mono ?_ (fun _ _ hw => hw)
        fun _ hw => hw) fun _ => .pure fun _ hw => hw
      rintro v rfl
      exact haccounts

end Turn

/-! ## A rollback -/

section Rollback

variable {ledger : AssetLedger} {s t : AssetState}

omit [UrlCrate Url] [Sha2Crate] in
theorem updateBlob_of_notMem {tables : AssetTables} {blobId : Uuid}
    (h : ∀ row ∈ tables.blobs, row.id ≠ blobId) (f : AssetBlobRow → AssetBlobRow) :
    tables.updateBlob blobId f = tables := by
  have hrows : tables.blobs.map (fun row => if row.id = blobId then f row else row)
      = tables.blobs := by
    refine (List.map_congr_left fun row hrow => ?_).trans (List.map_id _)
    exact if_neg (h row hrow)
  rw [AssetTables.updateBlob, hrows]

omit [UrlCrate Url] in
/-- **Blobs no row has are cleaned up without a trace.** -/
theorem cleanupNewBlobs_of_notMem {tables : AssetTables} (h : ledger.Describes tables)
    {blobIds : List Uuid} (hfresh : ∀ id ∈ blobIds, id ∉ ledger.entries.map Prod.fst) :
    cleanupNewBlobs tables blobIds = tables := by
  have hrow : ∀ row ∈ tables.blobs, row.id ∉ blobIds := fun row hmem hid =>
    hfresh row.id hid (h.map_id ▸ List.mem_map_of_mem hmem)
  have hdelete : ∀ ids ⊆ blobIds, ids.foldl AssetTables.blobDelete tables = tables := by
    intro ids
    induction ids with
    | nil => exact fun _ => rfl
    | cons id ids ih =>
      intro hids
      rw [List.foldl_cons, AssetTables.blobDelete, updateBlob_of_notMem fun row hmem heq =>
        hrow row hmem (heq ▸ hids List.mem_cons_self)]
      exact ih fun other hother => hids (List.mem_cons_of_mem _ hother)
  have hblobs : tables.blobs.filter (fun row => decide (row.id ∉ blobIds)) = tables.blobs :=
    List.filter_eq_self.mpr fun row hmem => decide_eq_true (hrow row hmem)
  have hrecords : tables.records.map (fun record =>
      if record.blobId.any (· ∈ blobIds) then { record with blobId := none } else record)
        = tables.records := by
    refine (List.map_congr_left fun record hrecord => ?_).trans (List.map_id _)
    obtain ⟨id, body, hid, hentry⟩ := h.points hrecord
    have hout : id ∉ blobIds := fun hmem => hfresh id hmem (List.mem_map_of_mem hentry)
    rw [hid, Option.any_some]
    exact if_neg (by simpa using hout)
  rw [cleanupNewBlobs, hdelete blobIds (List.Subset.refl _), AssetTables.deleteBlobs, hblobs,
    hrecords]

omit [UrlCrate Url] in
/-- **What is rolled back leaves the ledger of the savepoint.** -/
theorem Accounts.rolledBack (h : Accounts ledger s) {newIds : List Uuid}
    (hadded : Extends newIds s t) (hfresh : ∀ id ∈ newIds, id ∉ ledger.entries.map Prod.fst) :
    Accounts ledger (rolledBack s t) := by
  obtain ⟨ids, hids, hnew⟩ := hadded.newlyWritten
  have hdrop : t.mutation.newlyWritten.drop s.mutation.newlyWritten.length = ids := by
    rw [hids, List.drop_left]
  refine ⟨?_, ?_⟩
  · rw [AssetRepository.rolledBack, hdrop,
      cleanupNewBlobs_of_notMem h.describes fun id hid => hfresh id (hnew id hid)]
    exact h.describes
  · rw [mutation_rolledBack hadded]
    exact h.deferred

end Rollback

/-! ## A unit of work -/

/-- An article of a unit of work: what was fetched for it, and whether the handler stores it, which
it does not for a stale observation or to preserve a cached representation. -/
structure SyncedArticle (Url : Type) where
  sourceId : Uuid
  reviewId : String
  inputs : List (AssetInput Url × AssetSupply)
  stored : Bool

/-- The batch of an article that is stored: its relationships are replaced. -/
def SyncedArticle.batch (article : SyncedArticle Url) : AssetBatch Url :=
  ⟨true, article.sourceId, article.reviewId, article.inputs⟩

/-- A unit of work of a source sync or a backfill. -/
structure SyncUnit (Url : Type) where
  articles : List (SyncedArticle Url)
  startedAt : DateTime

namespace SyncUnit

/-- All the images are prepared, and the articles stored one by one. -/
def work (unit : SyncUnit Url) : AssetUnitOfWork Url where
  prepared := unit.articles.flatMap fun article => article.inputs.map Prod.fst
  batches := (unit.articles.filter (·.stored)).map SyncedArticle.batch
  startedAt := unit.startedAt

end SyncUnit

/-- The batches that succeed. -/
def storedBatches (context : AssetWriteContext) :
    AssetState → List (AssetBatch Url) → List (AssetBatch Url)
  | _, [] => []
  | s, batch :: batches =>
    match storeBatch context batch s with
    | (.ok _, t) => batch :: storedBatches context t batches
    | (.error _, t) => storedBatches context t batches

/-- What was fetched for the articles that a unit of work stores, in order. -/
def SyncUnit.fetched (policy : AssetCachePolicy) (unit : SyncUnit Url) (tables : AssetTables) :
    List (String × List UInt8) :=
  match prepareAssetBatch tables unit.work.prepared with
  | .error _ => []
  | .ok preparation =>
    (storedBatches ⟨policy, some preparation, unit.startedAt⟩ ⟨tables, {}⟩ unit.work.batches).flatMap
      fun batch => fetchedBodies batch.inputs

/-- Some row has this body. -/
def Stocks (tables : AssetTables) (body : List UInt8) : Prop :=
  ∃ row ∈ tables.blobs, row.data = some body

instance (tables : AssetTables) (body : List UInt8) : Decidable (Stocks tables body) :=
  inferInstanceAs (Decidable (∃ row ∈ tables.blobs, row.data = some body))

/-- **A body no row has yet was fetched for one article only**, and an article has fetched each of
its URLs once. -/
structure SyncUnit.FetchesApart (unit : SyncUnit Url) (tables : AssetTables) : Prop where
  bodies : unit.articles.Pairwise fun article other => ∀ entry ∈ article.inputs,
    ∀ entry' ∈ other.inputs, entry.1.bytes = entry'.1.bytes → Stocks tables entry.1.bytes
  urls : ∀ article ∈ unit.articles, ((fetchedBodies article.inputs).map Prod.fst).Nodup

instance (unit : SyncUnit Url) (tables : AssetTables) : Decidable (unit.FetchesApart tables) :=
  decidable_of_iff ((unit.articles.Pairwise fun article other => ∀ entry ∈ article.inputs,
      ∀ entry' ∈ other.inputs, entry.1.bytes = entry'.1.bytes → Stocks tables entry.1.bytes) ∧
    ∀ article ∈ unit.articles, ((fetchedBodies article.inputs).map Prod.fst).Nodup)
    ⟨fun h => ⟨h.1, h.2⟩, fun h => ⟨h.bodies, h.urls⟩⟩

section Unit

variable {t : AssetTables} {preparation : AssetBatchPreparation} {before start : AssetLedger}
  {context : AssetWriteContext} {unit : SyncUnit Url} {article : SyncedArticle Url}
  {past rest : List (SyncedArticle Url)}

/-- The inputs a list of articles prepares. -/
def preparedInputs (articles : List (SyncedArticle Url)) : List (AssetInput Url) :=
  articles.flatMap fun article => article.inputs.map Prod.fst

/-- The blob ids a list of articles is handed. -/
def suppliedIds (articles : List (SyncedArticle Url)) : List Uuid :=
  articles.flatMap fun article => article.inputs.map (·.2.blobId)

/-- The preparation of a unit of work, and what its articles are handed. -/
structure Prepared (t : AssetTables) (preparation : AssetBatchPreparation) (before : AssetLedger)
    (unit : SyncUnit Url) : Prop where
  describes : before.Describes t
  run : prepareAssetBatch t (preparedInputs unit.articles) = .ok preparation
  ids : ((preparedInputs unit.articles).map AssetInput.preparationId).Nodup
  supplied : (suppliedIds unit.articles).Nodup
  fresh : ∀ id ∈ suppliedIds unit.articles, id ∉ before.entries.map Prod.fst
  apart : unit.FetchesApart t

/-- Behind the articles of `past`: the entries are those from before, or theirs. -/
structure Behind (before start : AssetLedger) (past : List (SyncedArticle Url)) : Prop where
  kept : before.entries ⊆ start.entries
  added : ∀ e ∈ start.entries, e ∈ before.entries ∨
    ∃ article ∈ past, ∃ entry ∈ article.inputs, e = (entry.2.blobId, entry.1.bytes)

omit [UrlCrate Url] in
theorem stocks_iff (h : before.Describes t) {body : List UInt8} :
    Stocks t body ↔ body ∈ before.bodies := by
  constructor
  · rintro ⟨row, hrow, hdata⟩
    obtain ⟨entry, hentry, hcontents⟩ := h.contents_of_mem hrow
    obtain ⟨-, -, -, hbody⟩ := AssetLedger.Describes.eq_of_contents hcontents
    obtain rfl := Option.some.inj (hdata.symm.trans hbody)
    exact List.mem_map_of_mem hentry
  · intro hbody
    obtain ⟨entry, hentry, rfl⟩ := List.mem_map.mp hbody
    obtain ⟨row, hrow, hcontents⟩ := h.row_of_mem hentry
    exact ⟨row, hrow, (AssetLedger.Describes.eq_of_contents hcontents).2.2.2⟩

/-- **Every article gets its turn.** -/
theorem Prepared.turn (h : Prepared t preparation before unit)
    (harticles : unit.articles = past ++ article :: rest) (hbehind : Behind before start past)
    (hrecorded : ∀ url, ∀ body ∈ Versions.history start.log url, body ∈ start.bodies) :
    Turn t preparation before start (preparedInputs past) article.inputs := by
  have harticle : article ∈ unit.articles := harticles ▸ List.mem_append_right _ List.mem_cons_self
  have hinputs : preparedInputs unit.articles
      = preparedInputs past ++ (article.inputs.map Prod.fst ++ preparedInputs rest) := by
    rw [harticles, preparedInputs, List.flatMap_append, List.flatMap_cons]
    rfl
  have hids := h.ids
  rw [hinputs, ← List.append_assoc, List.map_append] at hids
  have hsupplied := h.supplied
  rw [suppliedIds, harticles, List.flatMap_append, List.flatMap_cons] at hsupplied
  obtain ⟨-, htail, hdisjoint⟩ := List.nodup_append.mp hsupplied
  have happart := h.apart.bodies
  rw [harticles] at happart
  have hpast : ∀ other ∈ past, ∀ entry ∈ article.inputs, ∀ entry' ∈ other.inputs,
      entry'.1.bytes = entry.1.bytes → entry.1.bytes ∈ before.bodies := by
    intro other hother entry hentry entry' hentry' hsame
    have hstocks := (List.pairwise_append.mp happart).2.2 other hother article List.mem_cons_self
      entry' hentry' entry hentry hsame
    exact hsame ▸ (stocks_iff h.describes).mp hstocks
  refine ⟨h.describes, hbehind.kept, fun done entry after hdone => ?_, ?_, fun entry hentry hnew =>
    ⟨fun hmem => ?_, fun other hother hsame => ?_⟩, h.apart.urls article harticle, hrecorded,
    (List.nodup_append.mp htail).1, fun entry hentry hmem => ?_⟩
  · have hposition : preparedInputs unit.articles = (preparedInputs past ++ done.map Prod.fst) ++
        entry.1 :: (after.map Prod.fst ++ preparedInputs rest) := by
      rw [hinputs, hdone, List.map_append, List.map_cons]
      simp only [List.append_assoc, List.cons_append]
    exact finds_of_prepare h.ids h.run hposition
  · exact (List.nodup_append.mp hids).1
  · obtain ⟨e, he, hbody⟩ := List.mem_map.mp hmem
    rcases hbehind.added e he with hold | ⟨other, hother, entry', hentry', rfl⟩
    · exact hnew (List.mem_map.mpr ⟨e, hold, hbody⟩)
    · exact hnew (hpast other hother entry hentry entry' hentry' hbody)
  · obtain ⟨past', hpast', hother⟩ := List.mem_flatMap.mp hother
    obtain ⟨entry', hentry', rfl⟩ := List.mem_map.mp hother
    exact hnew (hpast past' hpast' entry hentry entry' hentry' hsame)
  · obtain ⟨e, he, hid⟩ := List.mem_map.mp hmem
    have hentryId : entry.2.blobId ∈ suppliedIds unit.articles :=
      List.mem_flatMap.mpr ⟨article, harticle, List.mem_map_of_mem hentry⟩
    rcases hbehind.added e he with hold | ⟨other, hother, entry', hentry', rfl⟩
    · exact h.fresh _ hentryId (hid ▸ List.mem_map_of_mem hold)
    · refine hdisjoint entry'.2.blobId
        (List.mem_flatMap.mpr ⟨other, hother, List.mem_map_of_mem hentry'⟩) entry.2.blobId
        (List.mem_append_left _ (List.mem_map_of_mem hentry)) hid

omit [UrlCrate Url] in
/-- A batch that replaces stores its inputs, if it succeeds. -/
theorem storeEach_of_storeBatch [UrlCrate Url] (hcontext : context.preparation = some preparation)
    {s u : AssetState} {assets : List (StoredAsset Url)}
    (h : storeBatch context article.batch s = (.ok assets, u)) :
    storeEach context article.sourceId article.reviewId article.inputs [] []
      { s with tables := s.tables.deleteArticleAssets article.sourceId (trim article.reviewId) }
        = (.ok assets, u) := by
  rw [storeBatch, if_pos (by rfl), replaceForArticle] at h
  obtain ⟨_, _, hidentity, h⟩ := Tx.bind_eq_ok h
  obtain ⟨-, rfl⟩ := Prod.mk.inj hidentity
  obtain ⟨_, _, hcount, h⟩ := Tx.bind_eq_ok h
  obtain ⟨-, rfl⟩ := Prod.mk.inj hcount
  rw [atSavepoint] at h
  split at h
  · rename_i hrun
    obtain ⟨hassets, rfl⟩ := Prod.mk.inj h
    obtain rfl := Except.ok.inj hassets
    obtain ⟨_, _, hdelete, hrun⟩ := Tx.bind_eq_ok hrun
    obtain ⟨-, rfl⟩ := Prod.mk.inj hdelete
    rw [storeInputs, hcontext] at hrun
    exact hrun
  · cases h

/-- **An article that is stored** moves the ledger by what was fetched for it. -/
theorem Prepared.stored (h : Prepared t preparation before unit)
    (hmax : context.policy.maxCacheSizeBytes = 0)
    (hcontext : context.preparation = some preparation)
    (harticles : unit.articles = past ++ article :: rest) (hbehind : Behind before start past)
    {s u : AssetState} (haccounts : Accounts start s) {assets : List (StoredAsset Url)}
    (hrun : storeBatch context article.batch s = (.ok assets, u)) :
    ∃ grown, Accounts ⟨grown, start.log ++ fetchedBodies article.inputs⟩ u ∧
      Behind before ⟨grown, start.log ++ fetchedBodies article.inputs⟩ (past ++ [article]) := by
  have hturn := h.turn harticles hbehind fun url body hbody => haccounts.describes.mem_bodies hbody
  have hstart : Accounts ⟨start.entries, start.log ++ fetchedBodies ([] : List (AssetInput Url ×
      AssetSupply))⟩ { s with
        tables := s.tables.deleteArticleAssets article.sourceId (trim article.reviewId) } := by
    rw [fetchedBodies, List.filterMap_nil, List.append_nil]
    exact ⟨haccounts.describes.frame rfl (fun _ => rfl) rfl, haccounts.deferred⟩
  have hmidway : Midway start ([] : List (AssetInput Url × AssetSupply)) [] start.entries :=
    ⟨List.Subset.refl _, fun e he => .inl he, nofun, nofun, nofun⟩
  obtain ⟨grown, batchBlobs, hend, hgrown⟩ := (storeEach_entries hmax hcontext article.sourceId
    article.reviewId hturn article.inputs [] [] [] start.entries rfl hmidway _ hstart).1 _ _
      (storeEach_of_storeBatch hcontext hrun)
  refine ⟨grown, hgrown, fun e he => hend.kept (hbehind.kept he), fun e he => ?_⟩
  rcases hend.added e he with hold | ⟨entry, hentry, heq⟩
  · rcases hbehind.added e hold with hold | ⟨other, hother, hfrom⟩
    · exact .inl hold
    · exact .inr ⟨other, List.mem_append_left _ hother, hfrom⟩
  · exact .inr ⟨article, List.mem_append_right _ (List.mem_singleton_self _), entry, hentry, heq⟩

omit [UrlCrate Url] [Sha2Crate] in
/-- An article more, stored or not, is behind. -/
theorem Behind.append (h : Behind before start past) (article : SyncedArticle Url) :
    Behind before start (past ++ [article]) := by
  refine ⟨h.kept, fun e he => ?_⟩
  rcases h.added e he with hold | ⟨other, hother, hfrom⟩
  · exact .inl hold
  · exact .inr ⟨other, List.mem_append_left _ hother, hfrom⟩

/-- **An article that is not stored** leaves the ledger. -/
theorem Prepared.failed (h : Prepared t preparation before unit)
    (hcontext : context.preparation = some preparation)
    (harticles : unit.articles = past ++ article :: rest) (hbehind : Behind before start past)
    {s u : AssetState} (haccounts : Accounts start s) {e : AssetRepositoryError}
    (hrun : storeBatch context article.batch s = (.error e, u)) : Accounts start u := by
  have hturn := h.turn harticles hbehind fun url body hbody => haccounts.describes.mem_bodies hbody
  have hcases := storeBatch_cases hcontext article.batch s
  rw [hrun] at hcases
  rcases hcases with _ | _ | _ | ⟨_, hadded⟩
  · exact haccounts
  · refine haccounts.rolledBack hadded fun id hid => ?_
    obtain ⟨entry, hentry, rfl⟩ := List.mem_map.mp hid
    exact hturn.fresh entry hentry

/-- **The articles of a unit of work**, from the middle. -/
theorem Prepared.session (h : Prepared t preparation before unit)
    (hmax : context.policy.maxCacheSizeBytes = 0)
    (hcontext : context.preparation = some preparation) :
    ∀ (rest past : List (SyncedArticle Url)) (start : AssetLedger) (session : AssetSession Url),
      unit.articles = past ++ rest → Behind before start past → Accounts start session.state →
      ∃ grown, Accounts ⟨grown, start.log ++ (storedBatches context session.state
          ((rest.filter (·.stored)).map SyncedArticle.batch)).flatMap
            fun batch => fetchedBodies batch.inputs⟩
        (Machinery.run (AssetSession.step context) session
          ((rest.filter (·.stored)).map SyncedArticle.batch)).state ∧
        ∀ e ∈ grown, e ∈ before.entries ∨ e.1 ∈ suppliedIds unit.articles
  | [], past, start, session, harticles, hbehind, haccounts => by
    rw [List.append_nil] at harticles
    refine ⟨start.entries, ?_, fun e he => (hbehind.added e he).imp_right ?_⟩
    · rw [List.filter_nil, List.map_nil, storedBatches, List.flatMap_nil, List.append_nil]
      exact haccounts
    · rintro ⟨article, harticle, entry, hentry, rfl⟩
      exact List.mem_flatMap.mpr ⟨article, harticles ▸ harticle, List.mem_map_of_mem hentry⟩
  | article :: rest, past, start, session, harticles, hbehind, haccounts => by
    have hnext : unit.articles = (past ++ [article]) ++ rest := by
      rw [harticles, List.append_cons]
    by_cases hstored : article.stored = true
    · rw [List.filter_cons_of_pos hstored, List.map_cons, storedBatches]
      show ∃ grown, Accounts _ (Machinery.run _ (session.step context article.batch) _).state ∧ _
      rw [AssetSession.step]
      rcases hrun : storeBatch context article.batch session.state with ⟨e | assets, u⟩
      · exact h.session hmax hcontext rest (past ++ [article]) start ⟨u, session.stored⟩ hnext
          (hbehind.append article) (h.failed hcontext harticles hbehind haccounts hrun)
      · obtain ⟨grown, hgrown, hbehind'⟩ :=
          h.stored hmax hcontext harticles hbehind haccounts hrun
        obtain ⟨final, hfinal, hadded⟩ := h.session hmax hcontext rest (past ++ [article]) _
          ⟨u, _⟩ hnext hbehind' hgrown
        refine ⟨final, ?_, hadded⟩
        rw [List.flatMap_cons, ← List.append_assoc]
        exact hfinal
    · rw [List.filter_cons_of_neg hstored]
      exact h.session hmax hcontext rest (past ++ [article]) start session hnext
        (hbehind.append article) haccounts

end Unit

/-! ## Runs -/

/-- **A unit of work commits**: the tables, and what was fetched for the articles stored so far. -/
def SyncUnit.apply (policy : AssetCachePolicy) (s : AssetTables × List (String × List UInt8))
    (unit : SyncUnit Url) : AssetTables × List (String × List UInt8) :=
  ((perform policy s.1 (.unitOfWork unit.work)).1, s.2 ++ unit.fetched policy s.1)

/-- New ids are new: those of the blobs among all units of work, those of the inputs in each. -/
structure Fresh (units : List (SyncUnit Url)) : Prop where
  blobIds : (units.flatMap fun unit => suppliedIds unit.articles).Nodup
  preparationIds : ∀ unit ∈ units,
    ((preparedInputs unit.articles).map AssetInput.preparationId).Nodup

variable {policy : AssetCachePolicy} {ledger : AssetLedger} {tables : AssetTables}

omit [UrlCrate Url] in
/-- A commit that evicts nothing leaves the tables. -/
theorem Accounts.commit {s : AssetState} (h : Accounts ledger s) :
    ledger.Describes (AssetRepository.commit s) := by
  rw [AssetRepository.commit, h.deferred]
  exact h.describes

/-- **A unit of work moves the ledger** by what was fetched for the articles it stores. -/
theorem describes_apply (hmax : policy.maxCacheSizeBytes = 0) (h : ledger.Describes tables)
    {unit : SyncUnit Url}
    (hids : ((preparedInputs unit.articles).map AssetInput.preparationId).Nodup)
    (hsupplied : (suppliedIds unit.articles).Nodup)
    (hfresh : ∀ id ∈ suppliedIds unit.articles, id ∉ ledger.entries.map Prod.fst)
    (happart : unit.FetchesApart tables) :
    ∃ grown, (⟨grown, (unit.apply policy (tables, ledger.log)).2⟩ : AssetLedger).Describes
        (unit.apply policy (tables, ledger.log)).1 ∧
      ∀ e ∈ grown, e ∈ ledger.entries ∨ e.1 ∈ suppliedIds unit.articles := by
  rw [SyncUnit.apply, SyncUnit.fetched, perform]
  have hprepared : unit.work.prepared = preparedInputs unit.articles := rfl
  rw [hprepared]
  rcases hrun : prepareAssetBatch tables (preparedInputs unit.articles) with e | preparation
  · refine ⟨ledger.entries, ?_, fun e he => .inl he⟩
    rw [List.append_nil]
    exact h
  · have hunit : Prepared tables preparation ledger unit :=
      ⟨h, hrun, hids, hsupplied, hfresh, happart⟩
    obtain ⟨grown, haccounts, hadded⟩ := @Prepared.session _ _ _ _ _ _
      ⟨policy, some preparation, unit.startedAt⟩ _ hunit hmax rfl unit.articles [] ledger
      (AssetSession.begin tables) rfl ⟨List.Subset.refl _, fun e he => .inl he⟩ ⟨h, rfl⟩
    refine ⟨grown, ?_, hadded⟩
    exact haccounts.commit

/-- **A run of units of work moves the ledger.** -/
theorem describes_run (hmax : policy.maxCacheSizeBytes = 0) :
    ∀ (units : List (SyncUnit Url)) (ledger : AssetLedger) (tables : AssetTables), Fresh units →
      (∀ id ∈ units.flatMap fun unit => suppliedIds unit.articles,
        id ∉ ledger.entries.map Prod.fst) →
      ledger.Describes tables →
      Meets (SyncUnit.apply policy) (fun s unit => unit.FetchesApart s.1) (tables, ledger.log)
        units →
      ∃ entries, (⟨entries, (Machinery.run (SyncUnit.apply policy) (tables, ledger.log) units).2⟩ :
        AssetLedger).Describes
          (Machinery.run (SyncUnit.apply policy) (tables, ledger.log) units).1
  | [], ledger, _, _, _, h, _ => ⟨ledger.entries, h⟩
  | unit :: units, ledger, tables, hsupplied, hunused, h, hmeets => by
    obtain ⟨hblobIds, hpreparationIds⟩ := hsupplied
    rw [List.flatMap_cons] at hblobIds hunused
    obtain ⟨hunit, hunits, hdisjoint⟩ := List.nodup_append.mp hblobIds
    obtain ⟨grown, hgrown, hadded⟩ := describes_apply hmax h
      (hpreparationIds unit List.mem_cons_self) hunit
      (fun id hid => hunused id (List.mem_append_left _ hid)) hmeets.1
    refine describes_run hmax units ⟨grown, _⟩ _ ⟨hunits, fun other hother =>
      hpreparationIds other (List.mem_cons_of_mem _ hother)⟩ (fun id hid hmem => ?_) hgrown hmeets.2
    obtain ⟨e, he, rfl⟩ := List.mem_map.mp hmem
    rcases hadded e he with hold | hnew
    · exact hunused e.1 (List.mem_append_right _ hid) (List.mem_map_of_mem hold)
    · exact hdisjoint e.1 hnew e.1 hid rfl

/-- The bytes the versions of a URL point at. -/
def versionBodies (tables : AssetTables) (url : String) : List (Option (List UInt8)) :=
  (tables.chain url).map fun version => (version.2.bind tables.findBlob).bind (·.data)

omit [UrlCrate Url] in
/-- They are the history of the URL. -/
theorem versionBodies_eq (h : ledger.Describes tables) (url : String) :
    versionBodies tables url = (Versions.history ledger.log url).map some := by
  refine Eq.trans (List.map_congr_left fun version hversion => ?_) (h.contents url)
  have hmem : ledger.bodyOf version.2 ∈ (Versions.history ledger.log url).map some :=
    h.contents url ▸ List.mem_map_of_mem (f := fun version : ℕ × Option Uuid =>
      ledger.bodyOf version.2) hversion
  obtain ⟨body, -, hbody⟩ := List.mem_map.mp hmem
  obtain ⟨id, hid, hentry⟩ := h.bodyOf_eq_some.mp hbody.symm
  obtain ⟨row, hrow, -, hcontents⟩ := h.findBlob hentry
  rw [← hbody, hid, Option.bind_some, hrow, Option.bind_some]
  exact (AssetLedger.Describes.eq_of_contents hcontents).2.2.2

omit [UrlCrate Url] in
/-- Neighbouring versions differ in their bytes. -/
theorem isChain_versionBodies (h : ledger.Describes tables) (url : String) :
    (versionBodies tables url).IsChain (· ≠ ·) := by
  rw [versionBodies_eq h, List.isChain_map]
  exact (Versions.isChain_history _ url).imp fun _ _ hne heq => hne (Option.some.inj heq)

/-- **Deduplication**: behind any run of units of work over an unlimited cache that starts empty and
deletes nothing, whose new bodies are each fetched for one article, no two rows have the same bytes,
and each URL has, one version after the other, the bodies its fetches changed to. -/
theorem deduplication_complete (policy : AssetCachePolicy) (hmax : policy.maxCacheSizeBytes = 0)
    (units : List (SyncUnit Url)) (hfresh : Fresh units)
    (hapart : Meets (SyncUnit.apply policy) (fun s unit => unit.FetchesApart s.1) (.empty, [])
      units) :
    let s := Machinery.run (SyncUnit.apply policy) (.empty, []) units
    (s.1.blobs.map (·.data)).Nodup ∧
      ∀ url, (s.1.chain url).map Prod.fst = List.range' 1 (Versions.history s.2 url).length ∧
        versionBodies s.1 url = (Versions.history s.2 url).map some ∧
        (versionBodies s.1 url).IsChain (· ≠ ·) := by
  obtain ⟨entries, h⟩ := describes_run hmax units .empty .empty hfresh
    (fun _ _ => List.not_mem_nil) AssetLedger.describes_empty hapart
  have hrows := congrArg (List.map BlobContents.data) h.rows
  rw [List.map_map, List.map_map] at hrows
  have hbodies := versionBodies_eq h
  refine ⟨?_, fun url => ⟨h.versions url, hbodies url, ?_⟩⟩
  · have hsome : (entries.map Prod.snd).map some
        = entries.map (BlobContents.data ∘ BlobContents.holding) := List.map_map
    have hnodup : ((entries.map Prod.snd).map some).Nodup :=
      h.bodies.map (Option.some_injective _)
    rw [hsome, ← hrows] at hnodup
    exact hnodup
  · exact isChain_versionBodies h url

end Runs

section Samples

attribute [local instance] plainDigest

/-- A cache without a limit. -/
def unlimitedCache : AssetCachePolicy := ⟨0, 0, 100, 10⟩

/-- An article with the image at `https://a/p`, which was fetched as six bytes `body`; the ids it is
handed follow `id`. -/
def imageArticle (reviewId : String) (body : UInt8) (id : ℕ) : SyncedArticle PlainUrl :=
  ⟨⟨1⟩, reviewId, [(plainImage ⟨"https://a/p", isPlainText_firstImage⟩ body 6 id, ⟨⟨id⟩, ⟨id⟩, 1⟩)],
    true⟩

/-- The image changes, and changes back. -/
def changingImage : List (SyncUnit PlainUrl) :=
  [⟨[imageArticle "first" 1 10], 0⟩, ⟨[imageArticle "first" 2 11], 5⟩,
    ⟨[imageArticle "first" 1 12, imageArticle "second" 1 13], 10⟩]

theorem deduplication_complete_changing :
    ((Machinery.run (SyncUnit.apply unlimitedCache) (.empty, []) changingImage).1.blobs.map
      (·.data)).Nodup ∧
    versionBodies (Machinery.run (SyncUnit.apply unlimitedCache) (.empty, []) changingImage).1
        "https://a/p"
      = [some (List.replicate 6 1), some (List.replicate 6 2), some (List.replicate 6 1)] :=
  ⟨(deduplication_complete unlimitedCache rfl changingImage ⟨by decide, by decide⟩
    (by decide +kernel)).1, by decide +kernel⟩

/-- One sync meets a new image in two articles. -/
def sharedImage : List (SyncUnit PlainUrl) :=
  [⟨[imageArticle "first" 1 10, imageArticle "second" 1 11], 0⟩]

/-- **Two records of one URL have the same bytes**: an image that changes back has its first version
again, and an image two articles share is stored for each of them. -/
theorem deduplication_incomplete :
    versionBodies (Machinery.run (SyncUnit.apply unlimitedCache) (.empty, []) changingImage).1
        "https://a/p"
      = [some (List.replicate 6 1), some (List.replicate 6 2), some (List.replicate 6 1)] ∧
    versionBodies (Machinery.run (SyncUnit.apply unlimitedCache) (.empty, []) sharedImage).1
        "https://a/p"
      = [some (List.replicate 6 1), some (List.replicate 6 1)] ∧
    ¬((Machinery.run (SyncUnit.apply unlimitedCache) (.empty, []) sharedImage).1.blobs.map
      (·.data)).Nodup := by
  decide +kernel

end Samples

end AssetRepository

end Werrss
