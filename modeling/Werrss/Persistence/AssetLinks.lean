import Werrss.Persistence.AssetUnitOfWork

/-!
# Persistence/AssetLinks — which asset records an article is linked to

    replace_for_article   rows of the article deleted ─▸ one row per stored asset
                          └─ any failure ─▸ the rows of the savepoint

Only `attach` and the two deletions write `article_assets`.  **A replacement that succeeds leaves a
row for every asset it returned**, as long as no two inputs claim one occurrence; one that fails
leaves all rows as they were.
-/

open Machinery

namespace Werrss

/-- The `article_assets` rows of a transaction. -/
def AssetState.links (s : AssetState) : List ArticleAssetRow := s.tables.articleAssets

/-- The article has a row for this asset record. -/
def Linked (links : List ArticleAssetRow) (article : Uuid × String) (recordId : Uuid) : Prop :=
  ∃ row ∈ links, row.sourceId = article.1 ∧ row.reviewId = article.2 ∧ row.assetRecordId = recordId

namespace AssetRepository

open Tx

/-! ## What storing a body leaves alone -/

theorem keeps_evictLoop (limit : CacheLimit) : ∀ (fuel : ℕ) (total : ℤ) (deferred : List Uuid)
    (evicted : ℕ), Keeps AssetState.links (evictLoop limit fuel total deferred evicted)
  | 0, _, _, _ => .ite (.pure _) (.fail _)
  | fuel + 1, total, deferred, evicted => by
    refine .ite (.pure _) (.bind .read fun s => ?_)
    split
    · exact .fail _
    · exact .bind (.modify fun _ => rfl) fun _ => keeps_evictLoop limit fuel _ _ _

theorem keeps_enforceCacheLimit (limit : CacheLimit) :
    Keeps AssetState.links (enforceCacheLimit limit) := by
  refine .ite (.pure _) (.ite (.fail _) (.bind .read fun s => .bind (.ofExcept _) fun cached => ?_))
  exact .ite (.fail _) (keeps_evictLoop _ _ _ _ _)

theorem articleAssets_blobPut {t u : AssetTables} {blobId : Uuid} {blob : AssetBlob}
    {startedAt clock : DateTime} (h : t.blobPut blobId blob startedAt clock = .ok u) :
    u.articleAssets = t.articleAssets := by
  unfold AssetTables.blobPut at h
  split_ifs at h with hsize
  split at h
  · obtain rfl := Except.ok.inj h
    rfl
  · split_ifs at h
    · obtain rfl := Except.ok.inj h
      rfl
    · obtain rfl := Except.ok.inj h
      rfl

variable {Url : Type} [UrlCrate Url] [Sha2Crate]

omit [UrlCrate Url] in
theorem keeps_insertBlob (context : AssetWriteContext) (supply : AssetSupply)
    (input : AssetInput Url) (byteSize : ℕ) (protectedBlobIds : List Uuid) :
    Keeps AssetState.links (insertBlob context supply input byteSize protectedBlobIds) := by
  refine .bind .read fun before => .bind (keeps_enforceCacheLimit _) fun evicted => ?_
  refine .bind (.modify fun _ => rfl) fun _ => .bind (.ofExcept _) fun blob => ?_
  refine .read_bind fun s => ?_
  cases hput : s.tables.blobPut supply.blobId blob context.startedAt supply.clock with
  | error e => rfl
  | ok tables =>
    have hlinks : tables.articleAssets = s.tables.articleAssets := articleAssets_blobPut hput
    have hrest : Keeps AssetState.links (S := AssetState) (E := AssetRepositoryError) (if before.mutation.pendingBytes + blob.byteSize ≤ u64Max
        then do
          Tx.modify fun s => { s with
            mutation := { s.mutation with
              pendingBytes := before.mutation.pendingBytes + blob.byteSize } }
          return (supply.blobId, input.mediaType)
        else Tx.fail (AssetRepositoryError.storage "asset batch byte count overflow")) :=
      .ite (.bind (.modify fun _ => rfl) fun _ => .pure _) (.fail _)
    exact (hrest _).trans hlinks

omit [Sha2Crate] in
theorem keeps_usableBlob (blobId : Uuid) (checksum : String) (byteSize : ℕ) :
    Keeps AssetState.links (usableBlob blobId checksum byteSize) := by
  refine .bind .read fun s => .ite (.bind (.ofExcept _) fun metadata => .pure _) (.pure _)

omit [Sha2Crate] in
theorem keeps_reuseCurrent (preparation : AssetBatchPreparation) (supply : AssetSupply)
    (input : AssetInput Url) (sourceUrl finalUrl : Url) (byteSize : ℕ)
    (current : Option AssetRecordRow) : Keeps AssetState.links
      (reuseCurrent preparation supply input sourceUrl finalUrl byteSize current) := by
  unfold reuseCurrent
  split
  · exact .pure _
  · refine .bind .read fun s => .bind (.ofExcept _) fun prepared => .ite ?_ (.pure _)
    split
    · exact .fail _
    · refine .bind (keeps_usableBlob _ _ _) fun usable => ?_
      split
      · exact .pure _
      · exact .bind (.modify fun _ => rfl) fun _ => .pure _

omit [UrlCrate Url] in
theorem keeps_placeBlob (context : AssetWriteContext) (preparation : AssetBatchPreparation)
    (supply : AssetSupply) (input : AssetInput Url) (byteSize : ℕ) (protectedBlobIds : List Uuid)
    (batchBlobs : List (Uuid × Uuid)) : Keeps AssetState.links
      (placeBlob context preparation supply input byteSize protectedBlobIds batchBlobs) := by
  refine .bind (.ofExcept _) fun preparedMatch => ?_
  split
  · exact keeps_insertBlob _ _ _ _ _
  · refine .bind (keeps_usableBlob _ _ _) fun usable => ?_
    split
    · exact keeps_insertBlob _ _ _ _ _
    · exact .bind (.modify fun _ => rfl) fun _ => .pure _

/-- **Storing a body links nothing.** -/
theorem keeps_storeOne (context : AssetWriteContext) (supply : AssetSupply)
    (input : AssetInput Url) (protectedBlobIds : List Uuid) (batchBlobs : List (Uuid × Uuid)) :
    Keeps AssetState.links (storeOne context supply input protectedBlobIds batchBlobs) := by
  unfold storeOne
  split
  · exact .fail _
  · refine .bind (.ofExcept _) fun sourceUrl => .bind (.ofExcept _) fun finalUrl => ?_
    refine .bind (.ofExcept _) fun byteSize => .bind .read fun s => ?_
    refine .bind (keeps_reuseCurrent _ _ _ _ _ _ _) fun reused => ?_
    split
    · exact .pure _
    · refine .bind (keeps_placeBlob _ _ _ _ _ _ _) fun placed => ?_
      exact .ite (.bind (.modify fun _ => rfl) fun _ => .pure _) (.fail _)

/-! ## Attaching -/

omit [UrlCrate Url] [Sha2Crate] in
/-- The rows behind an insertion: the new one, and those of other occurrences. -/
theorem mem_upsertArticleAsset {t : AssetTables} {new row : ArticleAssetRow} :
    row ∈ (t.upsertArticleAsset new).articleAssets ↔ row = new ∨ (row ∈ t.articleAssets ∧
      ¬(row.sourceId = new.sourceId ∧ row.reviewId = new.reviewId
        ∧ row.occurrence = new.occurrence)) := by
  unfold AssetTables.upsertArticleAsset
  simp only
  split_ifs with hany
  · rw [List.any_eq_true] at hany
    obtain ⟨old, hold, hclash⟩ := hany
    rw [List.mem_map]
    constructor
    · rintro ⟨other, hother, rfl⟩
      split_ifs with h
      · exact .inl rfl
      · exact .inr ⟨hother, by simpa [and_assoc] using h⟩
    · rintro (rfl | ⟨hrow, hfree⟩)
      · exact ⟨old, hold, if_pos hclash⟩
      · exact ⟨row, hrow, if_neg (by simpa [and_assoc] using hfree)⟩
  · have hfree : ∀ other ∈ t.articleAssets, ¬(other.sourceId = new.sourceId
        ∧ other.reviewId = new.reviewId ∧ other.occurrence = new.occurrence) := by
      intro other hother hclash
      refine hany (List.any_eq_true.mpr ⟨other, hother, ?_⟩)
      simpa [and_assoc] using hclash
    rw [List.mem_append, List.mem_singleton]
    constructor
    · rintro (hrow | rfl)
      · exact .inr ⟨hrow, hfree row hrow⟩
      · exact .inl rfl
    · rintro (rfl | ⟨hrow, -⟩)
      · exact .inr rfl
      · exact .inl hrow

/-- What one input does to the rows: it adds its own, and takes those of its occurrence. -/
theorem storeInput_links {context : AssetWriteContext} {sourceId : Uuid} {reviewId : String}
    {supply : AssetSupply} {input : AssetInput Url} {protectedBlobIds : List Uuid}
    {batchBlobs : List (Uuid × Uuid)} {s t : AssetState} {asset : StoredAsset Url}
    (h : storeInput context sourceId reviewId supply input protectedBlobIds batchBlobs s
      = (.ok asset, t)) :
    (∃ row ∈ t.links, row.sourceId = sourceId ∧ row.reviewId = trim reviewId
      ∧ row.assetRecordId = asset.id ∧ row.occurrence = input.occurrence) ∧
    ∀ row ∈ s.links, ¬(row.sourceId = sourceId ∧ row.reviewId = trim reviewId
      ∧ row.occurrence = input.occurrence) → row ∈ t.links := by
  obtain ⟨_, u, hvalid, h⟩ := bind_eq_ok h
  obtain ⟨stored, v, hstore, h⟩ := bind_eq_ok h
  obtain ⟨_, w, hattach, h⟩ := bind_eq_ok h
  obtain ⟨rfl, rfl⟩ : stored = asset ∧ w = t := by simpa [pure, Tx.pure] using h
  have hv : v.links = s.links :=
    ((keeps_storeOne _ _ _ _ _).ok hstore).trans ((Keeps.ofExcept _).ok hvalid)
  unfold attach at hattach
  split_ifs at hattach with hoccurrence
  · obtain rfl : _ = w := (Prod.mk.inj hattach).2
    refine ⟨⟨_, mem_upsertArticleAsset.mpr (.inl rfl), rfl, rfl, rfl, rfl⟩, fun row hrow hfree => ?_⟩
    rw [← hv] at hrow
    exact mem_upsertArticleAsset.mpr (.inr ⟨hrow, hfree⟩)
  · cases hattach

/-- **A stored batch** links every asset it returned, and takes no row but those of its article. -/
theorem storeEach_links {context : AssetWriteContext} {sourceId : Uuid} {reviewId : String} :
    ∀ {inputs : List (AssetInput Url × AssetSupply)} {protectedBlobIds : List Uuid}
      {batchBlobs : List (Uuid × Uuid)} {s t : AssetState} {stored : List (StoredAsset Url)},
      inputs.Pairwise (fun a b => a.1.occurrence < b.1.occurrence) →
      storeEach context sourceId reviewId inputs protectedBlobIds batchBlobs s = (.ok stored, t) →
      (∀ asset ∈ stored, Linked t.links (sourceId, trim reviewId) asset.id) ∧
      ∀ row ∈ s.links, (row.sourceId = sourceId → row.reviewId = trim reviewId →
        ∀ input ∈ inputs, row.occurrence < input.1.occurrence) → row ∈ t.links
  | [], _, _, s, t, stored, _, h => by
    obtain ⟨rfl, rfl⟩ : [] = stored ∧ s = t := by simpa [storeEach, pure, Tx.pure] using h
    exact ⟨fun asset hmem => absurd hmem List.not_mem_nil, fun row hrow _ => hrow⟩
  | (input, supply) :: inputs, _, _, s, t, stored, hpairs, h => by
    obtain ⟨asset, u, hinput, h⟩ := bind_eq_ok h
    obtain ⟨rest, v, hrest, h⟩ := bind_eq_ok h
    obtain ⟨rfl, rfl⟩ : asset :: rest = stored ∧ v = t := by simpa [pure, Tx.pure] using h
    obtain ⟨hfirst, hlater⟩ := List.pairwise_cons.mp hpairs
    obtain ⟨⟨new, hnew, hsource, hreview, hid, hocc⟩, hkeep⟩ := storeInput_links hinput
    obtain ⟨hlinked, hkept⟩ := storeEach_links hlater hrest
    refine ⟨fun other hother => ?_, fun row hrow hbefore => ?_⟩
    · rcases List.mem_cons.mp hother with rfl | hother
      · refine ⟨new, hkept new hnew fun _ _ later hmem => ?_, hsource, hreview, hid⟩
        rw [hocc]
        exact hfirst later hmem
      · exact hlinked other hother
    · refine hkept row (hkeep row hrow fun hclash => ?_) fun hs hr later hmem => ?_
      · have hlt : row.occurrence < input.occurrence :=
          hbefore hclash.1 hclash.2.1 _ (List.mem_cons_self ..)
        exact absurd hclash.2.2 hlt.ne
      · exact hbefore hs hr later (List.mem_cons_of_mem _ hmem)

/-! ## Replacing -/

omit [UrlCrate Url] [Sha2Crate] in
theorem links_rolledBack (s t : AssetState) : (rolledBack s t).links = s.links := by
  have hfold : ∀ (ids : List Uuid) (tables : AssetTables),
      (ids.foldl AssetTables.blobDelete tables).articleAssets = tables.articleAssets := by
    intro ids
    induction ids with
    | nil => exact fun _ => rfl
    | cons id ids ih => exact fun tables => (ih _).trans rfl
  exact hfold _ _

/-- **A replacement that fails takes no row.** -/
theorem replaceForArticle_error {context : AssetWriteContext} {sourceId : Uuid} {reviewId : String}
    {inputs : List (AssetInput Url × AssetSupply)} {s t : AssetState} {e : AssetRepositoryError}
    (h : replaceForArticle context sourceId reviewId inputs s = (.error e, t)) :
    t.links = s.links := by
  unfold replaceForArticle at h
  cases hidentity : validateArticleIdentity sourceId reviewId with
  | error e' =>
    rw [hidentity] at h
    obtain rfl : s = t := (Prod.mk.inj h).2
    rfl
  | ok _ =>
    cases hcount : validateInputCount context.policy (inputs.map Prod.fst) with
    | error e' =>
      rw [hidentity, hcount] at h
      obtain rfl : s = t := (Prod.mk.inj h).2
      rfl
    | ok _ =>
      rw [hidentity, hcount, ofExcept_ok_bind, ofExcept_ok_bind, atSavepoint] at h
      split at h
      · cases h
      · obtain rfl := (Prod.mk.inj h).2
        exact links_rolledBack _ _

/-- **A replacement that succeeds** links every asset it returned, and keeps the rows of all other
articles. -/
theorem replaceForArticle_links {context : AssetWriteContext} {sourceId : Uuid} {reviewId : String}
    {inputs : List (AssetInput Url × AssetSupply)}
    (hpairs : inputs.Pairwise (fun a b => a.1.occurrence < b.1.occurrence)) {s t : AssetState}
    {stored : List (StoredAsset Url)}
    (h : replaceForArticle context sourceId reviewId inputs s = (.ok stored, t)) :
    (∀ asset ∈ stored, Linked t.links (sourceId, trim reviewId) asset.id) ∧
    ∀ row ∈ s.links, ¬(row.sourceId = sourceId ∧ row.reviewId = trim reviewId) → row ∈ t.links := by
  obtain ⟨_, u, hidentity, h⟩ := bind_eq_ok h
  obtain ⟨_, v, hcount, h⟩ := bind_eq_ok h
  obtain rfl : s = u := (Prod.mk.inj hidentity).2
  obtain rfl : s = v := (Prod.mk.inj hcount).2
  unfold atSavepoint at h
  split at h
  · rename_i hrun
    obtain ⟨hstored, rfl⟩ := Prod.mk.inj h
    obtain rfl := Except.ok.inj hstored
    obtain ⟨_, w, hdelete, hrun⟩ := bind_eq_ok hrun
    obtain rfl := (Prod.mk.inj hdelete).2
    cases hprepared : context.preparation with
    | none =>
      simp only [storeInputs, hprepared] at hrun
      cases hrun
    | some preparation =>
      simp only [storeInputs, hprepared] at hrun
      obtain ⟨hlinked, hkept⟩ := storeEach_links hpairs hrun
      refine ⟨hlinked, fun row hrow hother => hkept row ?_ fun hs hr => ?_⟩
      · exact List.mem_filter.mpr ⟨hrow, decide_eq_true hother⟩
      · exact absurd ⟨hs, hr⟩ hother
  · cases h

end AssetRepository

end Werrss
