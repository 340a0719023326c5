import Werrss.Persistence.ConfigImport

/-!
# Persistence/ImportPreview — what a preview says about the import

    A: x → y        preview   y is the book of B: conflict
    B: y → z        import    B first: B gives y up, A takes it      A first: conflict

The preview judges every record against the tables as they are, the import against what the records
before it left.  Their counters agree whenever the import goes through.  **They disagree where every
book that is taken over is given up by an earlier record**, and where the tables refuse a record
without a conflict.
-/

open Machinery

namespace Werrss

namespace ConfigTransfer

open CredentialRepository

/-- What the unique indexes promise of the tables. -/
structure IsKeyed (tables : AccountTables) : Prop where
  accountIds : (tables.accounts.map (·.accountId)).Nodup
  sourceIds : (tables.sources.map (·.id)).Nodup
  bookIds : (tables.sources.map (·.bookId)).Nodup

/-! ## Conditions on the records -/

/-- **The record asks for the book of another stored source.** -/
def TakesOver (sources : List SourceRow) (source : PortableSource) : Prop :=
  ∃ row ∈ sources, row.bookId = source.bookId ∧ row.id ≠ source.id

/-- **The other source has not been renamed** by one of the records before. -/
def StandsAgainst (sources : List SourceRow) (before : List PortableSource)
    (source : PortableSource) : Prop :=
  ∃ row ∈ sources, row.bookId = source.bookId ∧ row.id ≠ source.id ∧ row.id ∉ before.map (·.id)

/-- **The tables refuse the record**: one of its texts holds a NUL, or the feed revision of its source
is the last one and the feed changes. -/
def IsRefused (sources : List SourceRow) (source : PortableSource) : Prop :=
  (∃ text ∈ source.bookId :: source.displayName :: source.articleUrl.toList, '\x00' ∈ text.toList) ∨
    isExhausted (findSource sources source.id) source = true

instance (sources : List SourceRow) (source : PortableSource) :
    Decidable (TakesOver sources source) := inferInstanceAs (Decidable (∃ row ∈ sources, _))

instance (sources : List SourceRow) (before : List PortableSource) (source : PortableSource) :
    Decidable (StandsAgainst sources before source) :=
  inferInstanceAs (Decidable (∃ row ∈ sources, _))

/-- Some record of the bundle takes over a book. -/
def BundleTakesOver (tables : AccountTables) (bundle : ConfigBundle) : Prop :=
  ∃ source ∈ bundle.sources.getD [], TakesOver tables.sources source

/-- Some record of the bundle takes over a book that no earlier record gives up. -/
def BundleCollides (tables : AccountTables) (bundle : ConfigBundle) : Prop :=
  ∃ before source after, bundle.sources.getD [] = before ++ source :: after ∧
    StandsAgainst tables.sources before source

/-- The tables refuse some record of the bundle. -/
def BundleIsRefused (tables : AccountTables) (bundle : ConfigBundle) : Prop :=
  (∃ account ∈ bundle.wereadAccounts.getD [], '\x00' ∈ account.displayName.toList) ∨
    ∃ source ∈ bundle.sources.getD [], IsRefused tables.sources source

/-! ## Columns the accounts of a bundle leave alone -/

/-- What an import of a source looks at in the stored row. -/
def judgedColumns (row : SourceRow) : Uuid × String × String × Option String × ℤ × ℤ :=
  (row.id, row.bookId, row.displayName, row.articleUrl, row.rssItemLimit, row.feedRevision)

theorem judgedColumns_resume (tables : AccountTables) (accountId : Uuid) (clock : DateTime) :
    (resumeAuthenticationGatedSources tables accountId clock).sources.map judgedColumns
      = tables.sources.map judgedColumns := by
  unfold resumeAuthenticationGatedSources
  split_ifs
  · rw [List.map_map]
    refine List.map_congr_left fun row _ => ?_
    simp only [Function.comp_apply]
    split_ifs
    · rfl
    · rfl
  · rfl

/-- Rows with the same judged columns are found together. -/
theorem findSource_judged {sources sources' : List SourceRow}
    (h : sources'.map judgedColumns = sources.map judgedColumns) (id : Uuid) :
    (findSource sources' id).map judgedColumns = (findSource sources id).map judgedColumns := by
  have hfind (rows : List SourceRow) : (findSource rows id).map judgedColumns
      = (rows.map judgedColumns).find? fun columns => columns.1 = id := by
    rw [List.find?_map]
    rfl
  rw [hfind, hfind, h]

theorem isExhausted_judged {sources sources' : List SourceRow}
    (h : sources'.map judgedColumns = sources.map judgedColumns) (source : PortableSource) :
    isExhausted (findSource sources' source.id) source
      = isExhausted (findSource sources source.id) source := by
  have hcolumns := findSource_judged h source.id
  cases hnew : findSource sources' source.id with
  | none =>
    rw [hnew] at hcolumns
    rw [Option.map_eq_none_iff.mp hcolumns.symm]
  | some row' =>
    rw [hnew] at hcolumns
    obtain ⟨row, hrow, hsame⟩ := Option.map_eq_some_iff.mp hcolumns.symm
    simp only [judgedColumns, Prod.mk.injEq] at hsame
    obtain ⟨-, hbook, hname, hurl, hlimit, hrevision⟩ := hsame
    simp only [hrow, isExhausted, Option.any_some, feedVisibleChanged, hbook, hname, hurl, hlimit,
      hrevision]

theorem standsAgainst_judged {sources sources' : List SourceRow}
    (h : sources'.map judgedColumns = sources.map judgedColumns) (before : List PortableSource)
    (source : PortableSource) :
    StandsAgainst sources' before source ↔ StandsAgainst sources before source := by
  have hforms (rows : List SourceRow) : StandsAgainst rows before source ↔
      ∃ columns ∈ rows.map judgedColumns, columns.2.1 = source.bookId ∧ columns.1 ≠ source.id ∧
        columns.1 ∉ before.map (·.id) := by
    simp [StandsAgainst, judgedColumns]
  rw [hforms, hforms, h]

/-! ## The accounts of a bundle -/

/-- An import and a preview that went through the same accounts. -/
structure AccountsAgree (tables : AccountTables) (progress : ImportResult × AccountTables)
    (preview : ImportPreview × List Uuid) : Prop where
  result : progress.1 = preview.1.toImportResult
  known : ∀ id, id ∈ preview.2 ↔ (findAccount progress.2.accounts id).isSome = true
  columns : progress.2.sources.map judgedColumns = tables.sources.map judgedColumns
  conflicts : preview.1.conflicts = []

theorem bindTexts_eq_ok {texts : List String} :
    bindTexts texts = .ok () ↔ ∀ text ∈ texts, '\x00' ∉ text.toList := by
  unfold bindTexts
  split_ifs with h
  · simpa [isStorable] using h
  · simpa [isStorable] using h

/-- The accounts after a known one is updated. -/
theorem findAccount_update_isSome {accounts : List AccountRow} {id : Uuid}
    {assign : AccountRow → AccountRow} (hassign : ∀ row, (assign row).accountId = row.accountId)
    (other : Uuid) :
    (findAccount (Rows.update AccountRow.accountId accounts id assign) other).isSome
      = (findAccount accounts other).isSome := by
  rw [findAccount, Rows.get_update hassign, findAccount]
  split_ifs
  · exact Option.isSome_map
  · rfl

/-- **An account is imported as previewed**, if its label can be stored. -/
theorem importAccount_agrees (clock : ImportClock) {tables : AccountTables}
    {progress : ImportResult × AccountTables} {preview : ImportPreview × List Uuid}
    {account : PortableWeReadAccount} (h : AccountsAgree tables progress preview)
    (hstorable : '\x00' ∉ account.displayName.toList) :
    ∃ progress', importAccount clock progress account = .ok progress' ∧
      AccountsAgree tables progress' (previewAccount preview account) := by
  have hbind : bindTexts [account.displayName] = .ok () :=
    bindTexts_eq_ok.mpr fun text htext => by rwa [List.mem_singleton.mp htext]
  unfold importAccount previewAccount
  rw [hbind, ok_bind]
  cases hexisting : findAccount progress.2.accounts account.accountId with
  | some existing =>
    have hknown : account.accountId ∈ preview.2 := by rw [h.known, hexisting, Option.isSome_some]
    have hlabel : ∀ row : AccountRow, AccountRow.accountId
        { row with displayName := account.displayName, disabled := !account.enabled }
          = row.accountId := fun _ => rfl
    rw [if_pos hknown]
    refine ⟨_, rfl, ⟨?_, fun id => ?_, ?_, h.conflicts⟩⟩
    · rw [h.result]
    · rw [h.known]
      simp only
      split_ifs
      · rw [accounts_resume]
        exact Bool.eq_iff_iff.mp (findAccount_update_isSome hlabel id).symm
      · exact Bool.eq_iff_iff.mp (findAccount_update_isSome hlabel id).symm
    · simp only
      split_ifs
      · rw [judgedColumns_resume]
        exact h.columns
      · exact h.columns
  | none =>
    have hunknown : account.accountId ∉ preview.2 := by
      rw [h.known, hexisting]
      exact Bool.false_ne_true
    rw [if_neg hunknown]
    refine ⟨_, rfl, ⟨?_, fun id => ?_, h.columns, h.conflicts⟩⟩
    · rw [h.result]
    · rw [List.mem_cons, h.known, findAccount, findAccount, Rows.get_append_singleton,
        Option.isSome_or, Bool.or_eq_true]
      by_cases heq : account.accountId = id
      · simp [heq]
      · simp [heq, Ne.symm heq]

/-- An account whose label holds a NUL is refused. -/
theorem importAccount_refused {clock : ImportClock} {progress : ImportResult × AccountTables}
    {account : PortableWeReadAccount} (h : '\x00' ∈ account.displayName.toList)
    (progress' : ImportResult × AccountTables) :
    importAccount clock progress account ≠ .ok progress' := by
  intro hok
  obtain ⟨_, hbind, -⟩ := bind_eq_ok hok
  exact bindTexts_eq_ok.mp hbind _ (List.mem_singleton_self _) h

/-- **The accounts of a bundle are imported as previewed exactly if their labels can be stored.** -/
theorem importAccounts_iff (clock : ImportClock) {tables : AccountTables}
    (accounts : List PortableWeReadAccount) {progress : ImportResult × AccountTables}
    {preview : ImportPreview × List Uuid} (h : AccountsAgree tables progress preview) :
    (∃ account ∈ accounts, '\x00' ∈ account.displayName.toList) ∧
        (∀ final, accounts.foldlM (importAccount clock) progress ≠ .ok final) ∨
      (¬ ∃ account ∈ accounts, '\x00' ∈ account.displayName.toList) ∧
        ∃ final, accounts.foldlM (importAccount clock) progress = .ok final ∧
          AccountsAgree tables final (accounts.foldl previewAccount preview) := by
  induction accounts generalizing progress preview with
  | nil => exact .inr ⟨by simp, progress, rfl, h⟩
  | cons account rest ih =>
    by_cases hnul : '\x00' ∈ account.displayName.toList
    · refine .inl ⟨⟨account, List.mem_cons_self .., hnul⟩, fun final hfinal => ?_⟩
      rw [List.foldlM_cons] at hfinal
      obtain ⟨next, hnext, -⟩ := bind_eq_ok hfinal
      exact importAccount_refused hnul next hnext
    · obtain ⟨next, hnext, hagree⟩ := importAccount_agrees clock h hnul
      rw [List.foldlM_cons, hnext, ok_bind, List.foldl_cons]
      have hexists : (∃ other ∈ account :: rest, '\x00' ∈ other.displayName.toList) ↔
          ∃ other ∈ rest, '\x00' ∈ other.displayName.toList := by
        simp [hnul]
      rw [hexists]
      exact ih hagree

/-! ## The sources of a bundle -/

/-- **Where an import of sources stands** after the records `before`: their rows have their books, and
the other rows are those of the start. -/
structure Imported (start : List SourceRow) (before : List PortableSource)
    (sources : List SourceRow) : Prop where
  from_start : ∀ row ∈ sources, (row.id ∉ before.map (·.id) ∧ row ∈ start) ∨
    ∃ source ∈ before, row.id = source.id ∧ row.bookId = source.bookId
  kept : ∀ row ∈ start, row.id ∉ before.map (·.id) → row ∈ sources
  found : ∀ id, id ∉ before.map (·.id) → findSource sources id = findSource start id

theorem Imported.start (start : List SourceRow) : Imported start [] start where
  from_start _ hrow := .inl ⟨List.not_mem_nil, hrow⟩
  kept _ hrow _ := hrow
  found _ _ := rfl

/-- Where the rows of a written source come from. -/
theorem mem_writtenSources {clock : ImportClock} {states : Uuid → Option Bool}
    {sources : List SourceRow} {source : PortableSource} {row : SourceRow}
    (h : row ∈ writtenSources clock states sources source) :
    (row.id ≠ source.id ∧ row ∈ sources) ∨ (row.id = source.id ∧ row.bookId = source.bookId) := by
  unfold writtenSources at h
  simp only at h
  split at h
  · obtain ⟨old, hold, rfl⟩ := List.mem_map.mp h
    split_ifs with hid
    · exact .inr ⟨hid, rfl⟩
    · exact .inl ⟨hid, hold⟩
  · rename_i hnone
    rcases List.mem_append.mp h with hold | hnew
    · exact .inl ⟨Rows.get_eq_none.mp hnone row hold, hold⟩
    · obtain rfl := List.mem_singleton.mp hnew
      exact .inr ⟨rfl, rfl⟩

/-- The other rows stay. -/
theorem writtenSources_kept {clock : ImportClock} {states : Uuid → Option Bool}
    {sources : List SourceRow} {source : PortableSource} {row : SourceRow} (h : row ∈ sources)
    (hid : row.id ≠ source.id) : row ∈ writtenSources clock states sources source := by
  unfold writtenSources
  simp only
  split
  · exact List.mem_map.mpr ⟨row, h, if_neg hid⟩
  · exact List.mem_append_left _ h

theorem findSource_writtenSources {clock : ImportClock} {states : Uuid → Option Bool}
    {sources : List SourceRow} {source : PortableSource} {id : Uuid} (hid : id ≠ source.id) :
    findSource (writtenSources clock states sources source) id = findSource sources id := by
  unfold writtenSources
  simp only
  split
  · rename_i existing _
    have hkey : ∀ row, (importedRow (clock.written source.id) source
        (resolvedAccountId states source) ((resolvedAccountId states source).bind states) existing
          row).id = row.id := fun _ => rfl
    rw [findSource, Rows.get_update hkey, if_neg hid]
    rfl
  · rw [findSource, Rows.get_append_singleton]
    have hother : ¬ SourceRow.id (createdRow (clock.written source.id) source
        (resolvedAccountId states source) ((resolvedAccountId states source).bind states)) = id :=
      Ne.symm hid
    rw [if_neg hother, Option.or_none]
    rfl

/-- **One more record.** -/
theorem Imported.step {start sources : List SourceRow} {before : List PortableSource}
    {source : PortableSource} (h : Imported start before sources) (clock : ImportClock)
    (states : Uuid → Option Bool) :
    Imported start (before ++ [source]) (writtenSources clock states sources source) := by
  have hids : ∀ id, id ∉ (before ++ [source]).map (·.id) ↔
      id ∉ before.map (·.id) ∧ id ≠ source.id := by
    intro id
    simp [not_or]
  refine ⟨fun row hrow => ?_, fun row hrow hnew => ?_, fun id hnew => ?_⟩
  · rcases mem_writtenSources hrow with ⟨hne, hold⟩ | ⟨hid, hbook⟩
    · rcases h.from_start row hold with ⟨hbefore, hstart⟩ | ⟨other, hother, hsame⟩
      · exact .inl ⟨(hids _).mpr ⟨hbefore, hne⟩, hstart⟩
      · exact .inr ⟨other, List.mem_append_left _ hother, hsame⟩
    · exact .inr ⟨source, List.mem_append_right _ (List.mem_singleton_self _), hid, hbook⟩
  · obtain ⟨hbefore, hne⟩ := (hids _).mp hnew
    exact writtenSources_kept (h.kept row hrow hbefore) hne
  · obtain ⟨hbefore, hne⟩ := (hids _).mp hnew
    rw [findSource_writtenSources hne]
    exact h.found id hbefore

/-- **The next record meets a conflict exactly if another source stands against it.** -/
theorem Imported.conflictRow_eq_none {start sources : List SourceRow}
    {before : List PortableSource} {source : PortableSource} (h : Imported start before sources)
    (hbook : source.bookId ∉ before.map (·.bookId)) :
    conflictRow sources source = none ↔ ¬ StandsAgainst start before source := by
  unfold conflictRow
  rw [List.find?_eq_none]
  constructor
  · rintro hfree ⟨row, hrow, hsame, hne, hbefore⟩
    exact hfree row (h.kept row hrow hbefore) (decide_eq_true ⟨hsame, hne⟩)
  · intro hstands row hrow hconflict
    obtain ⟨hsame, hne⟩ := of_decide_eq_true hconflict
    rcases h.from_start row hrow with ⟨hbefore, hstart⟩ | ⟨other, hother, -, hown⟩
    · exact hstands ⟨row, hstart, hsame, hne, hbefore⟩
    · exact hbook (List.mem_map.mpr ⟨other, hother, hown.symm.trans hsame⟩)

/-- No text of the record holds a NUL. -/
def IsStorableSource (source : PortableSource) : Prop :=
  ∀ text ∈ source.bookId :: source.displayName :: source.articleUrl.toList, '\x00' ∉ text.toList

/-- **What an import of a source that goes through has found, and leaves.** -/
theorem importSource_eq_ok {clock : ImportClock} {states : Uuid → Option Bool}
    {progress final : ImportResult × List SourceRow} {source : PortableSource}
    (h : importSource clock states progress source = .ok final) :
    conflictRow progress.2 source = none ∧
      isExhausted (findSource progress.2 source.id) source = false ∧
      IsStorableSource source ∧
      final.2 = writtenSources clock states progress.2 source := by
  obtain ⟨_, hbook, h⟩ := bind_eq_ok h
  split at h
  · cases h
  · rename_i hconflict
    split_ifs at h with hexhausted
    obtain ⟨_, htexts, h⟩ := bind_eq_ok h
    obtain rfl := Except.ok.inj h
    refine ⟨hconflict, by simpa using hexhausted, fun text htext => ?_, rfl⟩
    rcases List.mem_cons.mp htext with rfl | htext
    · exact bindTexts_eq_ok.mp hbook _ (List.mem_singleton_self _)
    · exact bindTexts_eq_ok.mp htexts text htext

/-- **A source that meets no conflict and is not refused is imported.** -/
theorem importSource_of_free {clock : ImportClock} {states : Uuid → Option Bool}
    {result : ImportResult} {sources : List SourceRow} {source : PortableSource}
    (hconflict : conflictRow sources source = none)
    (hexhausted : isExhausted (findSource sources source.id) source = false)
    (hstorable : IsStorableSource source) :
    importSource clock states (result, sources) source = .ok
      (countSource (source.accountId.any fun accountId => (states accountId).isSome)
        (findSource sources source.id).isSome source result,
        writtenSources clock states sources source) := by
  have hbook : bindTexts [source.bookId] = .ok () := bindTexts_eq_ok.mpr fun text htext =>
    hstorable text (by rw [List.mem_singleton.mp htext]; exact List.mem_cons_self ..)
  have htexts : bindTexts (source.displayName :: source.articleUrl.toList) = .ok () :=
    bindTexts_eq_ok.mpr fun text htext => hstorable text (List.mem_cons_of_mem _ htext)
  unfold importSource
  simp only [hconflict, hexhausted, hbook, htexts, ok_bind, Bool.false_eq_true, if_false]
  rfl

/-- What the next record is imported with. -/
theorem Imported.importSource_iff {start sources : List SourceRow} {before : List PortableSource}
    {source : PortableSource} (h : Imported start before sources)
    (hbook : source.bookId ∉ before.map (·.bookId)) (hid : source.id ∉ before.map (·.id))
    (clock : ImportClock) (states : Uuid → Option Bool) (result : ImportResult) :
    (StandsAgainst start before source ∨ IsRefused start source) ∧
        (∀ final, importSource clock states (result, sources) source ≠ .ok final) ∨
      (¬ StandsAgainst start before source ∧ ¬ IsRefused start source) ∧
        importSource clock states (result, sources) source = .ok
          (countSource (source.accountId.any fun accountId => (states accountId).isSome)
            (findSource start source.id).isSome source result,
            writtenSources clock states sources source) := by
  have hfound := h.found source.id hid
  have hconflict := h.conflictRow_eq_none hbook
  by_cases hfails : StandsAgainst start before source ∨ IsRefused start source
  · refine .inl ⟨hfails, fun final hfinal => ?_⟩
    obtain ⟨hnone, hexhausted, hstorable, -⟩ := importSource_eq_ok hfinal
    rcases hfails with hstands | ⟨text, htext, hnul⟩ | hlast
    · exact hconflict.mp hnone hstands
    · exact hstorable text htext hnul
    · rw [hfound, hlast] at hexhausted
      cases hexhausted
  · obtain ⟨hstands, hrefused⟩ := not_or.mp hfails
    obtain ⟨hnul, hlast⟩ := not_or.mp hrefused
    refine .inr ⟨⟨hstands, hrefused⟩, ?_⟩
    have hexhausted : isExhausted (findSource sources source.id) source = false := by
      rw [hfound]
      exact Bool.eq_false_iff.mpr hlast
    have hstorable : IsStorableSource source := fun text htext hmem =>
      hnul ⟨text, htext, hmem⟩
    rw [importSource_of_free (hconflict.mpr hstands) hexhausted hstorable, hfound]

theorem findSource_isSome_judged {start stored : List SourceRow}
    (h : start.map judgedColumns = stored.map judgedColumns) (id : Uuid) :
    (findSource start id).isSome = decide (id ∈ stored.map (·.id)) := by
  have hsame := congrArg Option.isSome (findSource_judged h id)
  rw [Option.isSome_map, Option.isSome_map] at hsame
  rw [hsame]
  cases hfind : findSource stored id with
  | none =>
    have hnone := Rows.get_eq_none.mp hfind
    simpa using fun row hrow => hnone row hrow
  | some row =>
    have hmem : id ∈ stored.map (·.id) :=
      List.mem_map.mpr ⟨row, Rows.mem_of_get hfind, Rows.key_of_get hfind⟩
    rw [decide_eq_true hmem, Option.isSome_some]

theorem isRefused_judged {start stored : List SourceRow}
    (h : start.map judgedColumns = stored.map judgedColumns) (source : PortableSource) :
    IsRefused start source ↔ IsRefused stored source := by
  unfold IsRefused
  rw [isExhausted_judged h]

/-- Some record of `rest` cannot be imported after the records `before` it. -/
def SomeFails (stored : List SourceRow) (done rest : List PortableSource) : Prop :=
  ∃ before source after, rest = before ++ source :: after ∧
    (StandsAgainst stored (done ++ before) source ∨ IsRefused stored source)

theorem someFails_nil (stored : List SourceRow) (done : List PortableSource) :
    ¬ SomeFails stored done [] := by
  rintro ⟨before, source, after, hrest, -⟩
  exact List.cons_ne_nil _ _ (List.append_eq_nil_iff.mp hrest.symm).2

theorem someFails_cons (stored : List SourceRow) (done rest : List PortableSource)
    (source : PortableSource) :
    SomeFails stored done (source :: rest) ↔
      (StandsAgainst stored done source ∨ IsRefused stored source) ∨
        SomeFails stored (done ++ [source]) rest := by
  constructor
  · rintro ⟨before, other, after, hrest, hfails⟩
    rcases List.cons_eq_append_iff.mp hrest with ⟨rfl, heq⟩ | ⟨before', rfl, hrest'⟩
    · obtain ⟨rfl, -⟩ := List.cons.inj heq
      rw [List.append_nil] at hfails
      exact .inl hfails
    · refine .inr ⟨before', other, after, hrest', ?_⟩
      rwa [List.append_assoc, List.singleton_append]
  · rintro (hfails | ⟨before, other, after, rfl, hfails⟩)
    · exact ⟨[], source, rest, rfl, by rwa [List.append_nil]⟩
    · refine ⟨source :: before, other, after, rfl, ?_⟩
      rwa [List.append_assoc, List.singleton_append] at hfails

/-- **The sources of a bundle are imported as previewed exactly if none of them fails.** -/
theorem importSources_iff {start stored : List SourceRow} (clock : ImportClock)
    (preview : ImportPreview) {states : Uuid → Option Bool} {known : List Uuid}
    (hjudged : start.map judgedColumns = stored.map judgedColumns)
    (hknown : ∀ id, (states id).isSome = decide (id ∈ known)) (rest : List PortableSource)
    {done : List PortableSource} {sources : List SourceRow}
    (h : Imported start done sources) (hids : ((done ++ rest).map (·.id)).Nodup)
    (hbooks : ((done ++ rest).map (·.bookId)).Nodup) :
    SomeFails stored done rest ∧
        (∀ final, rest.foldlM (importSource clock states) (preview.toImportResult, sources)
          ≠ .ok final) ∨
      ¬ SomeFails stored done rest ∧
        ∃ final, rest.foldlM (importSource clock states) (preview.toImportResult, sources)
          = .ok ((rest.foldl (previewSource stored known) preview).toImportResult, final) := by
  induction rest generalizing done sources preview with
  | nil => exact .inr ⟨someFails_nil stored done, sources, rfl⟩
  | cons source rest ih =>
    have happend : done ++ source :: rest = (done ++ [source]) ++ rest := by simp
    have hid : source.id ∉ done.map (·.id) := by
      rw [List.map_append, List.map_cons] at hids
      exact fun hmem => (List.nodup_append.mp hids).2.2 _ hmem _ (List.mem_cons_self ..) rfl
    have hbook : source.bookId ∉ done.map (·.bookId) := by
      rw [List.map_append, List.map_cons] at hbooks
      exact fun hmem => (List.nodup_append.mp hbooks).2.2 _ hmem _ (List.mem_cons_self ..) rfl
    rw [someFails_cons, List.foldlM_cons, List.foldl_cons]
    rcases h.importSource_iff hbook hid clock states preview.toImportResult with
      ⟨hfails, hnone⟩ | ⟨hfree, hok⟩
    · rw [standsAgainst_judged hjudged, isRefused_judged hjudged] at hfails
      refine .inl ⟨.inl hfails, fun final hfinal => ?_⟩
      obtain ⟨next, hnext, -⟩ := bind_eq_ok hfinal
      exact hnone next hnext
    · rw [standsAgainst_judged hjudged, isRefused_judged hjudged] at hfree
      have hcounted : countSource (source.accountId.any fun id => (states id).isSome)
          (findSource start source.id).isSome source preview.toImportResult
          = (previewSource stored known preview source).toImportResult := by
        rw [findSource_isSome_judged hjudged]
        simp only [hknown]
        rfl
      rw [hok, ok_bind, hcounted]
      rw [happend] at hids hbooks
      rw [or_iff_right (not_or.mpr hfree)]
      exact ih (previewSource stored known preview source) (h.step clock states) hids hbooks

/-! ## What a preview reports -/

/-- The source that has a book, as a preview looks it up. -/
theorem sourcesByBookId_eq_some {sources : List SourceRow}
    (hbooks : (sources.map (·.bookId)).Nodup) (bookId : String) (id : Uuid) :
    sourcesByBookId sources bookId = some id ↔
      ∃ row ∈ sources, row.bookId = bookId ∧ row.id = id := by
  have hfold (rows : List SourceRow) (known : String → Option Uuid)
      (hrows : (rows.map (·.bookId)).Nodup) :
      rows.foldl (fun (byBookId : String → Option Uuid) row =>
          Function.update byBookId row.bookId (some row.id)) known bookId = some id ↔
        (∃ row ∈ rows, row.bookId = bookId ∧ row.id = id) ∨
          ((∀ row ∈ rows, row.bookId ≠ bookId) ∧ known bookId = some id) := by
    induction rows generalizing known with
    | nil => simp
    | cons row rest ih =>
      obtain ⟨hfresh, hrest⟩ := List.nodup_cons.mp hrows
      rw [List.foldl_cons, ih _ hrest]
      by_cases hbook : row.bookId = bookId
      · have hothers : ∀ other ∈ rest, other.bookId ≠ bookId := fun other hother hsame =>
          hfresh (List.mem_map.mpr ⟨other, hother, hsame.trans hbook.symm⟩)
        have hnone : ¬ ∃ other ∈ rest, other.bookId = bookId ∧ other.id = id :=
          fun ⟨other, hother, hsame, _⟩ => hothers other hother hsame
        subst hbook
        simp only [Function.update_self, Option.some.injEq]
        constructor
        · rintro (hexists | ⟨-, hid⟩)
          · exact absurd hexists hnone
          · exact .inl ⟨row, List.mem_cons_self .., rfl, hid⟩
        · rintro (⟨other, hother, hsame, hid⟩ | ⟨hall, -⟩)
          · rcases List.mem_cons.mp hother with rfl | hother
            · exact .inr ⟨hothers, hid⟩
            · exact absurd hsame (hothers other hother)
          · exact absurd rfl (hall row (List.mem_cons_self ..))
      · rw [Function.update_of_ne (Ne.symm hbook)]
        simp [hbook]
  rw [sourcesByBookId, hfold sources _ hbooks]
  simp

/-- A preview reports a conflict for a record that takes over a book, and for no other. -/
theorem previewSource_conflicts {sources : List SourceRow} (known : List Uuid)
    (hbooks : (sources.map (·.bookId)).Nodup) (preview : ImportPreview) (source : PortableSource) :
    (previewSource sources known preview source).conflicts = [] ↔
      preview.conflicts = [] ∧ ¬ TakesOver sources source := by
  have hlookup := sourcesByBookId_eq_some hbooks source.bookId
  rw [previewSource]
  dsimp only
  rw [List.append_eq_nil_iff]
  refine and_congr_right fun _ => ?_
  cases hbook : sourcesByBookId sources source.bookId with
  | none =>
    refine iff_of_true rfl ?_
    rintro ⟨row, hrow, hsame, -⟩
    have hsome := (hlookup row.id).mpr ⟨row, hrow, hsame, rfl⟩
    rw [hbook] at hsome
    cases hsome
  | some existing =>
    obtain ⟨row, hrow, hsame, rfl⟩ := (hlookup existing).mp hbook
    simp only
    by_cases hown : row.id = source.id
    · have hexists : source.id ∈ sources.map (·.id) := List.mem_map.mpr ⟨row, hrow, hown⟩
      rw [if_pos ⟨decide_eq_true hexists, hown⟩]
      refine iff_of_true rfl ?_
      rintro ⟨other, hother, hsame', hne⟩
      have hother' := (hlookup other.id).mpr ⟨other, hother, hsame', rfl⟩
      rw [hbook] at hother'
      exact hne ((Option.some.inj hother').symm.trans hown)
    · rw [if_neg fun h => hown h.2]
      exact iff_of_false (List.cons_ne_nil _ _) fun hfree => hfree ⟨row, hrow, hsame, hown⟩

/-- **A preview reports a conflict exactly if some record takes over a book.** -/
theorem preview_conflicts_eq_nil {tables : AccountTables} (hkeyed : IsKeyed tables)
    (bundle : ConfigBundle) :
    (preview tables bundle).conflicts = [] ↔ ¬ BundleTakesOver tables bundle := by
  have haccounts (accounts : List PortableWeReadAccount) (progress : ImportPreview × List Uuid) :
      (accounts.foldl previewAccount progress).1.conflicts = progress.1.conflicts := by
    induction accounts generalizing progress with
    | nil => rfl
    | cons account rest ih =>
      rw [List.foldl_cons, ih, previewAccount]
      split_ifs
      · rfl
      · rfl
  have hsources (known : List Uuid) (sources : List PortableSource) (progress : ImportPreview) :
      (sources.foldl (previewSource tables.sources known) progress).conflicts = [] ↔
        progress.conflicts = [] ∧ ∀ source ∈ sources, ¬ TakesOver tables.sources source := by
    induction sources generalizing progress with
    | nil => simp
    | cons source rest ih =>
      rw [List.foldl_cons, ih, previewSource_conflicts known hkeyed.bookIds, List.forall_mem_cons,
        and_assoc]
  unfold preview
  simp only
  rw [hsources, haccounts]
  simp [BundleTakesOver]

/-! ## What an import does -/

theorem someFails_iff (tables : AccountTables) (bundle : ConfigBundle) :
    SomeFails tables.sources [] (bundle.sources.getD []) ↔
      BundleCollides tables bundle ∨
        ∃ source ∈ bundle.sources.getD [], IsRefused tables.sources source := by
  constructor
  · rintro ⟨before, source, after, hsources, hstands | hrefused⟩
    · exact .inl ⟨before, source, after, hsources, hstands⟩
    · refine .inr ⟨source, ?_, hrefused⟩
      rw [hsources]
      exact List.mem_append_right _ (List.mem_cons_self ..)
  · rintro (⟨before, source, after, hsources, hstands⟩ | ⟨source, hsource, hrefused⟩)
    · exact ⟨before, source, after, hsources, .inl hstands⟩
    · obtain ⟨before, after, hsources⟩ := List.append_of_mem hsource
      exact ⟨before, source, after, hsources, .inr hrefused⟩

/-- Import and preview before the first record. -/
theorem AccountsAgree.initial (tables : AccountTables) :
    AccountsAgree tables ({}, tables) ({}, tables.accounts.map (·.accountId)) := by
  refine ⟨rfl, fun id => ?_, rfl, rfl⟩
  cases hfind : findAccount tables.accounts id with
  | none =>
    have hnone := Rows.get_eq_none.mp hfind
    simpa using fun row hrow => hnone row hrow
  | some row =>
    have hmem : id ∈ tables.accounts.map (·.accountId) :=
      List.mem_map.mpr ⟨row, Rows.mem_of_get hfind, Rows.key_of_get hfind⟩
    exact iff_of_true hmem rfl

/-- **An import goes through, with the counters of the preview, exactly if no record collides and
none is refused.** -/
theorem applyBundle_iff {bundle : ConfigBundle} (clock : ImportClock) (tables : AccountTables)
    (hids : ((bundle.sources.getD []).map (·.id)).Nodup)
    (hbooks : ((bundle.sources.getD []).map (·.bookId)).Nodup) :
    (BundleCollides tables bundle ∨ BundleIsRefused tables bundle) ∧
        (∀ result, (applyBundle clock tables bundle).1 ≠ .ok result) ∨
      ¬ (BundleCollides tables bundle ∨ BundleIsRefused tables bundle) ∧
        (applyBundle clock tables bundle).1 = .ok (preview tables bundle).toImportResult := by
  have hfails : ∀ result, (∀ final, applyTransaction clock tables bundle ≠ .ok final) →
      (applyBundle clock tables bundle).1 ≠ .ok result := by
    intro result hnone hok
    unfold applyBundle at hok
    split at hok
    · cases hok
    · rename_i result' tables' happly
      exact hnone _ happly
  rcases importAccounts_iff clock (bundle.wereadAccounts.getD [])
    (AccountsAgree.initial tables) with ⟨hnul, hnone⟩ | ⟨hnul, progress, hprogress, hagree⟩
  · refine .inl ⟨.inr (.inl hnul), fun result => hfails result fun final hfinal => ?_⟩
    obtain ⟨next, hnext, -⟩ := bind_eq_ok hfinal
    exact hnone next hnext
  · have hknown : ∀ id, (accountState clock.states progress.2.accounts id).isSome = decide (id ∈
        ((bundle.wereadAccounts.getD []).foldl previewAccount
          ({}, tables.accounts.map (·.accountId))).2) := by
      intro id
      rw [Bool.eq_iff_iff, decide_eq_true_iff, hagree.known, accountState, Option.isSome_map]
    have hsources := importSources_iff clock ((bundle.wereadAccounts.getD []).foldl previewAccount
      ({}, tables.accounts.map (·.accountId))).1 hagree.columns hknown
      (bundle.sources.getD []) (Imported.start progress.2.sources) hids hbooks
    rw [← hagree.result, someFails_iff] at hsources
    rcases hsources with ⟨hsome, hnone⟩ | ⟨hfree, final, hfinal⟩
    · refine .inl ⟨hsome.imp_right .inr, fun result => hfails result fun final hfinal => ?_⟩
      obtain ⟨progress', hprogress', hfinal⟩ := bind_eq_ok hfinal
      obtain rfl := Except.ok.inj (hprogress.symm.trans hprogress')
      obtain ⟨written, hwritten, -⟩ := bind_eq_ok hfinal
      exact hnone written hwritten
    · refine .inr ⟨?_, ?_⟩
      · rintro (hcollides | hrefused | hrefused)
        · exact hfree (.inl hcollides)
        · exact hnul hrefused
        · exact hfree (.inr hrefused)
      · have happly : applyTransaction clock tables bundle
            = .ok ((preview tables bundle).toImportResult, { progress.2 with sources := final }) := by
          unfold applyTransaction
          rw [hprogress, ok_bind, hfinal, ok_bind]
          rfl
        rw [applyBundle, happly]

/-! ## The prediction -/

/-- The preview of a bundle tells whether its import goes through, and with which counters. -/
def Predicts (clock : ImportClock) (tables : AccountTables) (bundle : ConfigBundle) : Prop :=
  ((∃ result, (applyBundle clock tables bundle).1 = .ok result) ↔
      (preview tables bundle).conflicts = []) ∧
    ∀ result, (applyBundle clock tables bundle).1 = .ok result →
      result = (preview tables bundle).toImportResult

/-- **A preview predicts the import** of a bundle that takes over no book, if the tables refuse none
of its records; and of one that does, if some book is not given up before, or some record refused. -/
theorem preview_predicts_iff {Url : Type} [UrlCrate Url] [LawfulUrlCrate Url] [SerdeJsonCrate]
    {tables : AccountTables} (hkeyed : IsKeyed tables) (clock : ImportClock)
    (validated : ValidatedConfigBundle Url) :
    let bundle := validated.bundle.toConfigBundle
    Predicts clock tables bundle ↔
      (¬ BundleTakesOver tables bundle ∧ ¬ BundleIsRefused tables bundle) ∨
        (BundleTakesOver tables bundle ∧
          (BundleCollides tables bundle ∨ BundleIsRefused tables bundle)) := by
  intro bundle
  have hvalid := validated.isValid
  have htakes : BundleCollides tables bundle → BundleTakesOver tables bundle := by
    rintro ⟨before, source, after, hsources, row, hrow, hbook, hne, -⟩
    refine ⟨source, ?_, row, hrow, hbook, hne⟩
    rw [hsources]
    exact List.mem_append_right _ (List.mem_cons_self ..)
  unfold Predicts
  rw [preview_conflicts_eq_nil hkeyed]
  obtain ⟨hids, hbooks, -⟩ := hvalid.nodup
  rcases applyBundle_iff clock tables hids hbooks with
    ⟨hfails, hnone⟩ | ⟨hfree, hok⟩
  · have hno : ¬ ∃ result, (applyBundle clock tables bundle).1 = .ok result :=
      fun ⟨result, hresult⟩ => hnone result hresult
    have hcounters : ∀ result, (applyBundle clock tables bundle).1 = .ok result →
        result = (preview tables bundle).toImportResult :=
      fun result hresult => absurd hresult (hnone result)
    rw [and_iff_left hcounters, iff_false_left hno, not_not]
    constructor
    · intro h
      exact .inr ⟨h, hfails⟩
    · rintro (⟨hnot, hrefused⟩ | ⟨h, -⟩)
      · rcases hfails with hcollides | hrefused'
        · exact htakes hcollides
        · exact absurd hrefused' hrefused
      · exact h
  · have hyes : ∃ result, (applyBundle clock tables bundle).1 = .ok result := ⟨_, hok⟩
    have hcounters : ∀ result, (applyBundle clock tables bundle).1 = .ok result →
        result = (preview tables bundle).toImportResult :=
      fun result hresult => Except.ok.inj (hresult.symm.trans hok)
    rw [and_iff_left hcounters, iff_true_left hyes]
    constructor
    · intro h
      exact .inl ⟨h, fun hrefused => hfree (.inr hrefused)⟩
    · rintro (⟨h, -⟩ | ⟨-, h⟩)
      · exact h
      · exact absurd h hfree

/-! ## A bundle that renames

Plain texts are written as they are; the bundle exported at the epoch is the only one read back. -/

/-- A line of a pretty-printed object. -/
def jsonMember (indent : ℕ) (name : String) (value : List Char) : List Char :=
  List.replicate indent ' ' ++ '"' :: name.toList ++ "\": ".toList ++ value

def jsonText (text : String) : List Char := '"' :: text.toList ++ ['"']

def jsonBool (value : Bool) : List Char := if value then "true".toList else "false".toList

/-- Members, or elements, between their brackets. -/
def jsonBlock (opening closing : Char) (indent : ℕ) (items : List (List Char)) : List Char :=
  opening :: '\n' :: List.intercalate ",\n".toList items ++
    '\n' :: List.replicate indent ' ' ++ [closing]

def jsonSource (source : PortableSource) : List Char :=
  List.replicate 4 ' ' ++ jsonBlock '\x7b' '\x7d' 4
    ([jsonMember 6 "id" (jsonText source.id.toText),
      jsonMember 6 "book_id" (jsonText source.bookId),
      jsonMember 6 "display_name" (jsonText source.displayName)]
      ++ (source.articleUrl.map fun url => jsonMember 6 "article_url" (jsonText url)).toList
      ++ (source.accountId.map fun id => jsonMember 6 "account_id" (jsonText id.toText)).toList
      ++ [jsonMember 6 "enabled" (jsonBool source.enabled),
        jsonMember 6 "sync_interval_seconds" (toString source.syncIntervalSeconds).toList,
        jsonMember 6 "rss_item_limit" (toString source.rssItemLimit.toNat).toList,
        jsonMember 6 "priority" (toString source.priority).toList,
        jsonMember 6 "max_attempts" (toString source.maxAttempts.toNat).toList])

def jsonAccount (account : PortableWeReadAccount) : List Char :=
  List.replicate 4 ' ' ++ jsonBlock '\x7b' '\x7d' 4
    [jsonMember 6 "account_id" (jsonText account.accountId.toText),
      jsonMember 6 "display_name" (jsonText account.displayName),
      jsonMember 6 "enabled" (jsonBool account.enabled)]

/-- The text of a bundle exported at the epoch. -/
def jsonBundle (bundle : ConfigBundle) : List Char :=
  jsonBlock '\x7b' '\x7d' 0
    ([jsonMember 2 "format" (jsonText configBundleFormat),
      jsonMember 2 "version" "1".toList,
      jsonMember 2 "exported_at" (jsonText "1970-01-01T00:00:00Z")]
      ++ (bundle.sources.map fun sources =>
        jsonMember 2 "sources" (jsonBlock '[' ']' 2 (sources.map jsonSource))).toList
      ++ (bundle.wereadAccounts.map fun accounts =>
        jsonMember 2 "weread_accounts" (jsonBlock '[' ']' 2 (accounts.map jsonAccount))).toList)

def jsonBytes (bundle : ConfigBundle) : List UInt8 :=
  (jsonBundle bundle).map fun c => UInt8.ofNat c.toNat

/-- The codec at the bundle of these sections. -/
@[reducible] def plainCodec (bundle : ConfigBundle) : SerdeJsonCrate where
  toVecPretty other := .ok (jsonBytes other.toConfigBundle)
  fromSlice bytes :=
    if bytes = jsonBytes bundle then .ok (WireConfigBundle.new 0 bundle.sources bundle.wereadAccounts)
    else .error "expected value at line 1 column 1"

/-- A stored source. -/
def plainSource (id : ℕ) (bookId : String) : SourceRow :=
  ⟨⟨id⟩, bookId, "Weekly", none, none, 0, true, .ready, 3600, 20, 0, none, none, 0, 3, 0⟩

/-- A record of a source. -/
def plainRecord (id : ℕ) (bookId : String) : PortableSource :=
  ⟨⟨id⟩, bookId, "Weekly", none, none, true, 3600, 20, 0, 3⟩

/-- Two sources, and their books. -/
def renameTables : AccountTables :=
  { accounts := [], leases := [], sources := [plainSource 1 "mp_1", plainSource 2 "mp_2"] }

theorem renameTables_isKeyed : IsKeyed renameTables := ⟨by decide, by decide, by decide⟩

/-- The second source gives its book up, and the first takes it. -/
def renameSections : ConfigBundle :=
  ⟨some [plainRecord 2 "mp_3", plainRecord 1 "mp_2"], none⟩

@[reducible] def renameCodec : SerdeJsonCrate := plainCodec renameSections

attribute [local instance] renameCodec

/-- The bundle of these sections, as validated. -/
def renameBundle : ValidatedConfigBundle PlainUrl where
  bundle := WireConfigBundle.new 0 renameSections.sources none
  checked := ⟨WireConfigBundle.new 0 renameSections.sources none, by decide +kernel⟩

theorem preview_predicts_rename :
    Predicts (.constant 10) renameTables renameSections ↔
      (¬ BundleTakesOver renameTables renameSections ∧
        ¬ BundleIsRefused renameTables renameSections) ∨
        (BundleTakesOver renameTables renameSections ∧
          (BundleCollides renameTables renameSections ∨
            BundleIsRefused renameTables renameSections)) :=
  preview_predicts_iff renameTables_isKeyed (.constant 10) renameBundle

/-- **The preview reports a conflict, and the import goes through.** -/
theorem preview_mispredicts_rename :
    IsKeyed renameTables ∧
      (preview renameTables renameBundle.bundle.toConfigBundle).conflicts
        = [ConfigTransferConflict.sourceBookId ⟨1⟩ ⟨2⟩ "mp_2"] ∧
      (applyBundle (.constant 10) renameTables renameBundle.bundle.toConfigBundle).1
        = .ok { sourcesUpdated := 2 } ∧
      ¬ Predicts (.constant 10) renameTables renameBundle.bundle.toConfigBundle := by
  have hconflict : (preview renameTables renameBundle.bundle.toConfigBundle).conflicts
      = [ConfigTransferConflict.sourceBookId ⟨1⟩ ⟨2⟩ "mp_2"] := by decide +kernel
  have hok : (applyBundle (.constant 10) renameTables renameBundle.bundle.toConfigBundle).1
      = .ok { sourcesUpdated := 2 } := by decide +kernel
  refine ⟨renameTables_isKeyed, hconflict, hok, fun hpredicts => ?_⟩
  have hnone := hpredicts.1.mp ⟨_, hok⟩
  rw [hconflict] at hnone
  exact List.cons_ne_nil _ _ hnone

end ConfigTransfer

end Werrss
