import Werrss.Application.LocalImages

/-!
# Application/ContentHashes — the hash of a stored article is the hash of its HTML

    archive      html, hash of it ─▸ normalize ─▸ NewArticle
    rewrite      html, hash of it          keep      html, hash of the stored row
    merge        html of one side, hash of the same side

HTML and hash travel together: **whoever replaces one replaces the other**, so the rows of the article
table stay described through every final transaction of the handlers, with an asset archiver or
without one.
-/

open Machinery

namespace Werrss

open Machinery.Tx

/-! ## Hex digests -/

/-- Hexadecimal digits are no white space. -/
theorem not_isWhiteSpace_of_hex {c : Char} (h : c ∈ "0123456789abcdef".toList) :
    isWhiteSpace c = false := by
  have hall : ∀ d ∈ "0123456789abcdef".toList, isWhiteSpace d = false :=
    forall_mem_of_all (by decide)
  exact hall c h

section Hash

variable [Sha2Crate]

/-- **The hash a text is to be stored with.** -/
def hashOf (html : String) : Option String := if html = "" then none else some (sha256Text html)

variable [LawfulSha2Crate]

/-- A digest is a trimmed text. -/
theorem trim_sha256Text (html : String) : trim (sha256Text html) = sha256Text html :=
  trim_of_forall fun c hc => not_isWhiteSpace_of_hex (LawfulSha2Crate.mem_sha256Hex _ c hc)

theorem sha256Text_ne_empty (html : String) : sha256Text html ≠ "" := by
  intro hempty
  have hlength : (sha256Text html).toList.length = 64 := LawfulSha2Crate.length_sha256Hex _
  rw [hempty] at hlength
  cases hlength

/-- **Normalizing keeps the hash of a text.** -/
theorem normalizeOptional_hashOf (html : String) : normalizeOptional (hashOf html) = hashOf html := by
  unfold hashOf
  split_ifs
  · rfl
  · simp [normalizeOptional, trim_sha256Text, Option.filter, sha256Text_ne_empty]

end Hash

/-! ## Articles and rows -/

section Articles

variable {Url : Type} [UrlCrate Url] [LawfulUrlCrate Url] [Sha2Crate]

/-- **The observation carries the hash of its HTML.** -/
def NewArticle.IsDescribed (article : NewArticle Url) : Prop :=
  article.contentHash = hashOf article.contentHtml

/-- **The hash of every stored article is the hash of its HTML.** -/
def ArticleTable.IsDescribed (articles : ArticleTable) : Prop :=
  ∀ key row, articles key = some row → row.contentHash = hashOf row.contentHtml

variable [LawfulSha2Crate]

omit [LawfulUrlCrate Url] in
theorem NewArticle.IsDescribed.normalize {a n : NewArticle Url} (h : a.IsDescribed)
    (hn : a.normalize = .ok n) : n.IsDescribed := by
  have hhtml : n.contentHtml = a.contentHtml := contentHtml_of_normalize hn
  have hhash : n.contentHash = normalizeOptional a.contentHash := by
    unfold NewArticle.normalize at hn
    split_ifs at hn
    obtain rfl := Except.ok.inj hn
    rfl
  rw [NewArticle.IsDescribed, hhtml, hhash, h, normalizeOptional_hashOf]

omit [Sha2Crate] [LawfulSha2Crate] in
/-- Decoding normalizes the hash. -/
theorem contentHash_of_decode {key : ArticleKey} {row : ArticleRow} {a : Article Url}
    (h : decodeArticle key row = .ok a) : a.contentHash = normalizeOptional row.contentHash := by
  unfold decodeArticle at h
  simp only at h
  split at h
  · cases h
  split at h
  · cases h
  simp only [Article.fromParts] at h
  split at h
  · cases h
  rename_i hparts
  split at hparts
  · cases hparts
  rename_i n hn
  obtain rfl := Except.ok.inj hparts
  obtain rfl := Except.ok.inj h
  unfold NewArticle.normalize at hn
  split_ifs at hn
  obtain rfl := Except.ok.inj hn
  rfl

/-- A described row is read as a described article. -/
theorem isDescribed_of_decode {key : ArticleKey} {row : ArticleRow} {a : Article Url}
    (hrow : row.contentHash = hashOf row.contentHtml) (h : decodeArticle key row = .ok a) :
    a.contentHash = hashOf a.contentHtml := by
  rw [contentHash_of_decode h, contentHtml_of_decode h, hrow, normalizeOptional_hashOf]

omit [LawfulUrlCrate Url] [LawfulSha2Crate] in
/-- **A merge takes HTML and hash from the same side.** -/
theorem Article.mergeObservation_isDescribed {a : Article Url} {n : NewArticle Url}
    (ha : a.contentHash = hashOf a.contentHtml) (hn : n.IsDescribed) :
    (a.mergeObservation n).IsDescribed := by
  unfold NewArticle.IsDescribed at hn ⊢
  simp only [Article.mergeObservation]
  by_cases hempty : n.contentHtml = ""
  · have hnone : n.contentHash = none := by rw [hn, hashOf, if_pos hempty]
    rw [if_pos hempty, hnone, Option.none_or, if_pos rfl, ha]
  · have hsome : n.contentHash = some (sha256Text n.contentHtml) := by rw [hn, hashOf, if_neg hempty]
    rw [if_neg hempty, hsome, Option.some_or, hashOf, if_neg hempty]

omit [LawfulUrlCrate Url] [Sha2Crate] [LawfulSha2Crate] in
/-- What an update of one row leaves. -/
theorem updateRow_inv {table table' : ArticleTable} {key : ArticleKey} {row' : ArticleRow}
    {set : ArticleRow → ArticleRow} (h : updateRow table key set = .ok (table', row')) :
    ∃ row, table key = some row ∧ table' = Function.update table key (some (set row)) := by
  unfold updateRow at h
  split at h
  · cases h
  · rename_i row hrow
    obtain ⟨rfl, -⟩ := Prod.mk.inj (Except.ok.inj h)
    exact ⟨row, hrow, rfl⟩

omit [LawfulSha2Crate] in
/-- A described row in the place of another. -/
theorem ArticleTable.IsDescribed.update {articles : ArticleTable} (h : articles.IsDescribed)
    (key : ArticleKey) {row : ArticleRow} (hrow : row.contentHash = hashOf row.contentHtml) :
    ArticleTable.IsDescribed (Function.update articles key (some row)) := by
  intro other row' hother
  by_cases hkey : other = key
  · subst hkey
    rw [Function.update_self] at hother
    obtain rfl := Option.some.inj hother
    exact hrow
  · rw [Function.update_of_ne hkey] at hother
    exact h other row' hother

/-- **An upsert of a described observation keeps the table described.** -/
theorem upsert_isDescribed {sources : Uuid → Bool} {clock : StatementClock}
    {table table' : ArticleTable} {o : NewArticle Url} {result : ArticleUpsertResult Url}
    (htable : table.IsDescribed) (ho : o.IsDescribed)
    (h : upsert sources clock table o = .ok (table', result)) : table'.IsDescribed := by
  unfold upsert at h
  split at h
  · cases h
  rename_i article hnormalize
  have harticle : article.IsDescribed := ho.normalize hnormalize
  split at h
  · cases h
  simp only at h
  split at h
  · rename_i row hrow
    split at h
    · cases h
    rename_i current hdecode
    by_cases hstale : article.observationVersion < current.observationVersion
    · rw [if_pos hstale] at h
      obtain ⟨rfl, -⟩ := Prod.mk.inj (Except.ok.inj h)
      exact htable
    rw [if_neg hstale] at h
    have hmerged := Article.mergeObservation_isDescribed
      (isDescribed_of_decode (htable _ row hrow) hdecode) harticle
    split at h
    · cases h
    rename_i written row' hwrite
    split at h
    · cases h
    obtain ⟨rfl, -⟩ := Prod.mk.inj (Except.ok.inj h)
    split_ifs at hwrite
    · unfold updateChangedArticle at hwrite
      split at hwrite
      · cases hwrite
      · obtain ⟨old, -, rfl⟩ := updateRow_inv hwrite
        exact htable.update _ hmerged
    · -- Only the version and the times are written.
      unfold updateObservation at hwrite
      split at hwrite
      · cases hwrite
      · obtain ⟨old, hold, rfl⟩ := updateRow_inv hwrite
        exact htable.update _ (htable _ old hold)
  · split_ifs at h
    split at h
    · cases h
    obtain ⟨rfl, -⟩ := Prod.mk.inj (Except.ok.inj h)
    exact htable.update _ harticle

end Articles

/-! ## What the handlers persist -/

section Handlers

variable {Url : Type} [UrlCrate Url] [LawfulUrlCrate Url] [DecidableEq Url] [Sha2Crate]

open AssetRepository

omit [LawfulUrlCrate Url] [DecidableEq Url] [Sha2Crate] in
/-- Nothing is rewritten in an empty text. -/
theorem rewriteSanitizedHtml_nil (replacements : List (Url × String)) :
    rewriteSanitizedHtml [] replacements = [] := by
  rw [rewriteSanitizedHtml, if_pos (.inr rfl)]

omit [LawfulUrlCrate Url] [DecidableEq Url] in
/-- **Rewritten HTML is hashed again.** -/
theorem rewriteArticle_isDescribed {article : NewArticle Url} {stored : List (StoredAsset Url)}
    (h : article.IsDescribed) : (rewriteArticle article stored).IsDescribed := by
  by_cases hempty : article.contentHtml = ""
  · have hsame : rewriteSanitizedHtml article.contentHtml.toList
        (stored.map fun asset => (asset.sourceUrl, assetRoute asset.id))
          = article.contentHtml.toList := by
      rw [hempty]
      exact rewriteSanitizedHtml_nil _
    unfold rewriteArticle
    simp only
    rw [if_pos hsame]
    exact h
  · have hne : (rewriteArticle article stored).contentHtml ≠ "" := rewriteArticle_nonempty hempty
    unfold rewriteArticle at hne ⊢
    simp only at hne ⊢
    split_ifs at hne ⊢ with hsame
    · exact h
    · rw [NewArticle.IsDescribed, hashOf, if_neg hne]

omit [LawfulUrlCrate Url] [DecidableEq Url] in
/-- The stored representation brings its hash along. -/
theorem keepRepresentation_isDescribed {article : NewArticle Url} {current : Option (Article Url)}
    (h : article.IsDescribed)
    (hcurrent : ∀ a ∈ current, a.contentHash = hashOf a.contentHtml) :
    (keepRepresentation article current).IsDescribed := by
  cases current with
  | none => exact h
  | some a => exact hcurrent a rfl

/-- The articles of the transaction are described. -/
def ArchiveState.IsDescribed (s : ArchiveState) : Prop := s.articles.IsDescribed

/-- A program whose answers `Q` fit and that keeps the articles described. -/
abbrev Describes {A : Type} (m : ArchiveTx A) (Q : A → Prop) : Prop :=
  Triple ArchiveState.IsDescribed m (fun a s => Q a ∧ s.IsDescribed) fun _ => True

omit [LawfulUrlCrate Url] [DecidableEq Url] in
/-- Asset operations touch no article. -/
theorem describes_assets {A : Type} (m : AssetTx A) : Describes (ArchiveTx.assets m) fun _ => True := by
  intro s hs
  refine ⟨fun a t hrun => ⟨trivial, ?_⟩, fun _ _ _ => trivial⟩
  obtain rfl := (Prod.mk.inj hrun).2
  exact hs

omit [LawfulUrlCrate Url] [DecidableEq Url] in
theorem describes_pure {A : Type} {a : A} {Q : A → Prop} (h : Q a) : Describes (pure a) Q :=
  .pure fun _ hs => ⟨h, hs⟩

omit [LawfulUrlCrate Url] [DecidableEq Url] in
theorem describes_fail {A : Type} {Q : A → Prop} : Describes (Tx.fail () : ArchiveTx A) Q :=
  .fail fun _ _ => trivial

omit [LawfulUrlCrate Url] [DecidableEq Url] in
/-- One program after the other. -/
theorem describes_bind {A B : Type} {m : ArchiveTx A} {f : A → ArchiveTx B} {R : A → Prop}
    {Q : B → Prop} (hm : Describes m R) (hf : ∀ a, R a → Describes (f a) Q) :
    Describes (m >>= f) Q :=
  Triple.bind hm fun a s hs => hf a hs.1 s hs.2

omit [LawfulUrlCrate Url] [DecidableEq Url] in
/-- A rejected replacement leaves a described article. -/
theorem rejected_describes {article : NewArticle Url} {current : Option (Article Url)}
    {e : AssetRepositoryError} (h : article.IsDescribed)
    (hcurrent : ∀ a ∈ current, a.contentHash = hashOf a.contentHtml) :
    Describes (rejected article current e) fun settled => settled.1.IsDescribed := by
  unfold rejected
  refine .ite (fun _ => describes_fail) fun _ => .ite (fun _ => ?_) fun _ => ?_
  · exact describes_pure (keepRepresentation_isDescribed h hcurrent)
  · refine describes_bind (describes_assets _) fun cleared _ => ?_
    cases cleared with
    | error e => exact describes_fail
    | ok _ => exact describes_pure h

omit [LawfulUrlCrate Url] in
/-- **Every branch of an accepted observation settles on a described article.** -/
theorem reconcile_describes {context : AssetWriteContext} {supply : ArticleSupply}
    {prepared : PreparedArticle Url} {current : Option (Article Url)}
    (h : prepared.article.IsDescribed)
    (hcurrent : ∀ a ∈ current, a.contentHash = hashOf a.contentHtml) :
    Describes (reconcile context supply prepared current) fun settled => settled.1.IsDescribed := by
  unfold reconcile
  refine .ite (fun _ => ?_) fun _ => .ite (fun _ => ?_) fun _ => describes_pure h
  · exact describes_pure (keepRepresentation_isDescribed h hcurrent)
  · refine describes_bind (describes_assets _) fun stored _ => ?_
    cases stored with
    | error e => exact rejected_describes h hcurrent
    | ok stored => exact describes_pure (rewriteArticle_isDescribed h)

/-- The rounds of both `persist_success` where no archiver is configured. -/
def upsertEach : List (PreparedArticle Url × ArticleSupply) → ArchiveTx Bool
  | [] => pure false
  | (prepared, supply) :: rest => do
    let result ← ArchiveTx.upsert supply prepared.article
    let changed ← upsertEach rest
    return result.feedVisibleChange || changed

variable [LawfulSha2Crate]

omit [DecidableEq Url] in
/-- The locked row is a described article. -/
theorem findForUpdate_describes (key : ArticleKey) : Describes (ArchiveTx.findForUpdate key)
    fun current : Option (Article Url) => ∀ a ∈ current, a.contentHash = hashOf a.contentHtml := by
  intro s hs
  refine ⟨fun current t hrun => ?_, fun _ _ _ => trivial⟩
  obtain ⟨rfl, -, hrow⟩ := findForUpdate_inv hrun
  refine ⟨fun a ha => ?_, hs⟩
  obtain ⟨row, htable, hdecode⟩ := (hrow a).mp ha
  exact isDescribed_of_decode (hs _ row htable) hdecode

omit [DecidableEq Url] in
theorem upsert_describes {supply : ArticleSupply} {article : NewArticle Url}
    (h : article.IsDescribed) : Describes (ArchiveTx.upsert supply article) fun _ => True := by
  intro s hs
  refine ⟨fun result t hrun => ⟨trivial, ?_⟩, fun _ _ _ => trivial⟩
  unfold ArchiveTx.upsert at hrun
  split at hrun
  · cases hrun
  · rename_i articles result' hup
    obtain rfl := (Prod.mk.inj hrun).2
    exact upsert_isDescribed hs h hup

/-- **A round of sync or backfill.** -/
theorem persistArticle_describes {context : AssetWriteContext} {supply : ArticleSupply}
    {prepared : PreparedArticle Url} (h : prepared.article.IsDescribed) :
    Describes (persistArticle context supply prepared) fun _ => True := by
  refine describes_bind (findForUpdate_describes _) fun current hcurrent => ?_
  refine .ite (fun _ => describes_pure trivial) fun _ => ?_
  refine describes_bind (reconcile_describes h hcurrent) fun settled hsettled => ?_
  refine describes_bind (upsert_describes hsettled) fun result _ => ?_
  exact .ite (fun _ => describes_fail) fun _ => describes_pure trivial

theorem persistEach_describes {context : AssetWriteContext}
    {prepared : List (PreparedArticle Url × ArticleSupply)}
    (h : ∀ entry ∈ prepared, entry.1.article.IsDescribed) :
    Describes (persistEach context prepared) fun _ => True := by
  induction prepared with
  | nil => exact describes_pure trivial
  | cons entry rest ih =>
    obtain ⟨hentry, hrest⟩ := List.forall_mem_cons.mp h
    refine describes_bind (persistArticle_describes hentry) fun result _ => ?_
    exact describes_bind (ih hrest) fun changed _ => describes_pure trivial

theorem upsertEach_describes {prepared : List (PreparedArticle Url × ArticleSupply)}
    (h : ∀ entry ∈ prepared, entry.1.article.IsDescribed) :
    Describes (upsertEach prepared) fun _ => True := by
  induction prepared with
  | nil => exact describes_pure trivial
  | cons entry rest ih =>
    obtain ⟨hentry, hrest⟩ := List.forall_mem_cons.mp h
    refine describes_bind (upsert_describes hentry) fun result _ => ?_
    exact describes_bind (ih hrest) fun changed _ => describes_pure trivial

/-- **A refresh.** -/
theorem refreshArticle_describes {context : AssetWriteContext} {work : ArticleRefreshWork Url}
    (h : ∀ prepared ∈ work.prepared, prepared.article.IsDescribed) :
    Describes (refreshArticle context work) fun _ => True := by
  refine describes_bind (findForUpdate_describes _) fun current _ => ?_
  refine .ite (fun _ => ?_) fun _ => describes_pure trivial
  cases hprepared : work.prepared with
  | none => exact describes_fail
  | some prepared =>
    refine describes_bind (describes_assets _) fun stored _ => ?_
    cases stored with
    | error e => exact .ite (fun _ => describes_pure trivial) fun _ => describes_fail
    | ok stored =>
      have hrewritten : (rewriteArticle prepared.article stored).IsDescribed :=
        rewriteArticle_isDescribed (h prepared hprepared)
      exact describes_bind (upsert_describes hrewritten) fun _ _ => describes_pure trivial

end Handlers

/-! ## Runs -/

section Runs

variable {Url : Type} [UrlCrate Url] [LawfulUrlCrate Url] [DecidableEq Url] [ScraperCrate]
variable [Sha2Crate]

variable (Url) in
/-- The final transactions of the handlers: a worker without an asset archiver persists what it
prepared as it is. -/
inductive ContentOperation
  | archived (operation : ArchiveOperation Url)
  | plainSync (work : SourceSyncWork Url)
  | plainBackfill (work : ArticleBackfillWork Url)

/-- `persist_success` without an archiver: the transaction prepares the fetched assets all the same,
of which there are none. -/
def persistPlain (tables : ArchiveTables) (finishes : Bool)
    (prepared : List (PreparedArticle Url × ArticleSupply)) : Option ArchiveTables :=
  match AssetRepository.prepareAssetBatch tables.assets
    (prepared.flatMap (·.1.fetchedAssets)) with
  | .error _ => none
  | .ok _ => transact tables finishes (upsertEach prepared)

/-- What a transaction commits, if it does. -/
def ContentOperation.commit (policy : AssetCachePolicy) (tables : ArchiveTables) :
    ContentOperation Url → Option ArchiveTables
  | .archived operation => operation.commit policy tables
  | .plainSync work => persistPlain tables work.finishes work.prepared
  | .plainBackfill work => persistPlain tables work.finishes [(work.prepared, work.supply)]

/-- One transaction: committed as a whole, or without effect. -/
def ArchiveTables.contentStep (policy : AssetCachePolicy) (tables : ArchiveTables)
    (operation : ContentOperation Url) : ArchiveTables :=
  (operation.commit policy tables).getD tables

/-- The articles a transaction persists. -/
def ContentOperation.prepared : ContentOperation Url → List (PreparedArticle Url)
  | .archived (.sourceSync work) => work.prepared.map (·.1)
  | .archived (.backfill work) => [work.prepared]
  | .archived (.refresh work) => work.prepared.toList
  | .plainSync work => work.prepared.map (·.1)
  | .plainBackfill work => [work.prepared]

/-- **The article comes from `prepare_article`**, with whatever images were fetched for it. -/
def PreparedArticle.IsPrepared (prepared : PreparedArticle Url) : Prop :=
  ∃ sourceId reference page version fetchedAt base fetched ordered,
    prepareArticle sourceId reference page version fetchedAt = .ok base ∧
      prepared = base.withFetchedAssets fetched ordered

variable [LawfulSha2Crate]

omit [LawfulUrlCrate Url] in
/-- **Preparation hashes what it sanitized.** -/
theorem PreparedArticle.IsPrepared.isDescribed {prepared : PreparedArticle Url}
    (h : prepared.IsPrepared) : prepared.article.IsDescribed := by
  obtain ⟨sourceId, reference, page, version, fetchedAt, base, fetched, ordered, hbase, rfl⟩ := h
  have hobserved (publishedAt : DateTime) : (observedArticle sourceId reference page publishedAt
      (archive page.contentHtml) version fetchedAt).IsDescribed := rfl
  unfold prepareArticle at hbase
  simp only at hbase
  split at hbase
  · cases hbase
  split at hbase
  · cases hbase
  rename_i article hnormalize
  obtain rfl := Except.ok.inj hbase
  exact (hobserved _).normalize hnormalize

omit [LawfulUrlCrate Url] [DecidableEq Url] [ScraperCrate] [LawfulSha2Crate] in
/-- A transaction commits what its program left, or nothing. -/
theorem transact_isDescribed {A : Type} {tables tables' : ArchiveTables} {finishes : Bool}
    {m : ArchiveTx A} (htables : tables.articles.IsDescribed) (hm : Describes m fun _ => True)
    (h : transact tables finishes m = some tables') : tables'.articles.IsDescribed := by
  unfold transact at h
  split at h
  · cases h
  · rename_i a s hrun
    split_ifs at h
    obtain rfl := Option.some.inj h
    exact ((hm ⟨tables.articles, ⟨tables.assets, {}⟩⟩ htables).1 a s hrun).2

omit [ScraperCrate] in
theorem persistPlain_isDescribed {tables tables' : ArchiveTables} {finishes : Bool}
    {prepared : List (PreparedArticle Url × ArticleSupply)}
    (htables : tables.articles.IsDescribed)
    (hprepared : ∀ entry ∈ prepared, entry.1.article.IsDescribed)
    (h : persistPlain tables finishes prepared = some tables') : tables'.articles.IsDescribed := by
  unfold persistPlain at h
  split at h
  · cases h
  · exact transact_isDescribed htables (upsertEach_describes hprepared) h

omit [ScraperCrate] in
/-- **A transaction over described observations keeps the table described.** -/
theorem contentStep_isDescribed {policy : AssetCachePolicy} {tables : ArchiveTables}
    {operation : ContentOperation Url} (htables : tables.articles.IsDescribed)
    (hprepared : ∀ prepared ∈ operation.prepared, prepared.article.IsDescribed) :
    (tables.contentStep policy operation).articles.IsDescribed := by
  unfold ArchiveTables.contentStep
  cases hcommit : operation.commit policy tables with
  | none => exact htables
  | some tables' =>
    rw [Option.getD_some]
    cases operation with
    | archived operation =>
      cases operation with
      | sourceSync work =>
        simp only [ContentOperation.commit, ArchiveOperation.commit,
          SourceSyncWork.persistSuccess] at hcommit
        split at hcommit
        · cases hcommit
        · refine transact_isDescribed htables (persistEach_describes fun entry hentry => ?_) hcommit
          exact hprepared entry.1 (List.mem_map_of_mem hentry)
      | backfill work =>
        simp only [ContentOperation.commit, ArchiveOperation.commit,
          ArticleBackfillWork.persistSuccess] at hcommit
        split at hcommit
        · cases hcommit
        · exact transact_isDescribed htables
            (persistArticle_describes (hprepared _ (List.mem_singleton_self _))) hcommit
      | refresh work =>
        simp only [ContentOperation.commit, ArchiveOperation.commit,
          ArticleRefreshWork.finalize] at hcommit
        split at hcommit
        · cases hcommit
        · refine transact_isDescribed htables (refreshArticle_describes fun p hp => ?_) hcommit
          exact hprepared p (Option.mem_toList.mpr hp)
    | plainSync work =>
      refine persistPlain_isDescribed htables (fun entry hentry => ?_) hcommit
      exact hprepared entry.1 (List.mem_map_of_mem hentry)
    | plainBackfill work =>
      refine persistPlain_isDescribed htables (fun entry hentry => ?_) hcommit
      obtain rfl := List.mem_singleton.mp hentry
      exact hprepared _ (List.mem_singleton_self _)

/-- **In every run of the handlers over prepared articles, every stored hash is the hash of the
stored HTML**, and an article without HTML has none. -/
theorem hashes_describe_html (policy : AssetCachePolicy) (operations : List (ContentOperation Url))
    (hprepared : ∀ operation ∈ operations, ∀ prepared ∈ operation.prepared, prepared.IsPrepared) :
    ∀ key row, (run (ArchiveTables.contentStep policy) .empty operations).articles key = some row →
      row.contentHash = if row.contentHtml = "" then none else some (sha256Text row.contentHtml) := by
  have hrun : ∀ (operations : List (ContentOperation Url)) (tables : ArchiveTables),
      tables.articles.IsDescribed →
      (∀ operation ∈ operations, ∀ prepared ∈ operation.prepared, prepared.IsPrepared) →
      (run (ArchiveTables.contentStep policy) tables operations).articles.IsDescribed := by
    intro operations
    induction operations with
    | nil => exact fun tables htables _ => htables
    | cons operation operations ih =>
      intro tables htables hall
      obtain ⟨hfirst, hrest⟩ := List.forall_mem_cons.mp hall
      exact ih _ (contentStep_isDescribed htables fun p hp => (hfirst p hp).isDescribed) hrest
  exact hrun operations .empty (fun _ _ hrow => nomatch hrow) hprepared

end Runs

/-! ## A synchronized page -/

section Samples

open AssetRepository

attribute [local instance] plainDigest

/-- The page of an article with one image, and its tree. -/
@[reducible] def pageScraper : ScraperCrate where
  parseFragment html :=
    if html = "<p><img alt=\"a\" src=\"https://cdn.example/a.png\"></p>" then imageTree
    else .node (.text html) []

attribute [local instance] pageScraper

instance plainDigest_lawful : LawfulSha2Crate where
  length_sha256Hex bytes := by
    change (String.ofList _).toList.length = 64
    rw [String.toList_ofList]
    rfl
  mem_sha256Hex bytes c hc := by
    change c ∈ (String.ofList _).toList at hc
    rw [String.toList_ofList, List.mem_append, List.mem_singleton] at hc
    rcases hc with hc | rfl
    · obtain rfl := List.eq_of_mem_replicate hc
      decide
    · have hall : ∀ n : Fin 16, Nat.digitChar n.val ∈ "0123456789abcdef".toList := by decide
      exact hall ⟨_, Nat.mod_lt _ (by decide)⟩

/-- What `prepare_article` makes of that page. -/
def pageObservation : Except SyncServiceError (PreparedArticle PlainUrl) :=
  prepareArticle ⟨7⟩ ⟨"review", none, none, none, none, none, none⟩
    ⟨⟨"https://mp.weixin.qq.com/s/a", canonicalArticleUrl_shortLink⟩, "title", none, none, some 0,
      "<p><img alt=\"a\" src=\"https://cdn.example/a.png\"></p>", none⟩ 1 0

/-- The observation, with its image. -/
def observedPage : PreparedArticle PlainUrl :=
  (pageObservation.toOption.get (by decide +kernel)).withFetchedAssets
    [plainImage sampleSource 1 6 1] sampleImage_ordered

theorem observedPage_isPrepared : observedPage.IsPrepared :=
  ⟨_, _, _, _, _, _, _, _, eq_ok_get (by decide +kernel), rfl⟩

/-- The page is synchronized with its image, and then without an archiver. -/
def pageRun : List (ContentOperation PlainUrl) :=
  [.archived (.sourceSync ⟨[(observedPage, pageSupply 10 20)], 0, true⟩),
    .plainSync ⟨[(observedPage, pageSupply 11 21)], 0, true⟩]

/-- The stored image and the stored hash belong together. -/
theorem hashes_describe_html_page :
    storedHtml (run (ArchiveTables.contentStep smallCache) .empty pageRun).articles (⟨7⟩, "review")
        = "<p><img alt=\"a\" src=\"https://cdn.example/a.png\" /></p>" ∧
    ∀ key row, (run (ArchiveTables.contentStep smallCache) .empty pageRun).articles key = some row →
      row.contentHash
        = if row.contentHtml = "" then none else some (sha256Text row.contentHtml) := by
  refine ⟨by decide +kernel, ?_⟩
  refine hashes_describe_html smallCache pageRun fun operation hoperation prepared hprepared => ?_
  have hsame : prepared = observedPage := by
    simp only [pageRun, List.mem_cons, List.not_mem_nil, or_false] at hoperation
    rcases hoperation with rfl | rfl
    · exact List.mem_singleton.mp hprepared
    · exact List.mem_singleton.mp hprepared
  exact hsame ▸ observedPage_isPrepared

end Samples

end Werrss
