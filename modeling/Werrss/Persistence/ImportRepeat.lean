import Mathlib.Data.Char
import Mathlib.Data.List.Lex
import Werrss.Persistence.ImportPreview

/-!
# Persistence/ImportRepeat — importing twice, and importing an export

    tables ──apply b──▸ tables' ──apply b──▸ tables'        but for updated_at
    tables ──export──▸ b ──bytes──▸ b ──apply──▸ tables     but for bindings to missing accounts

An import either commits as a whole or leaves everything as it was.  After it, every named record is
described by its bundle: a second import finds nothing to change.  **The rows a bundle does not name
stay, but for the sources whose account it enables again.**
-/

open Machinery

namespace Werrss

namespace ConfigTransfer

open CredentialRepository

/-! ## Tables keep their keys -/

/-- Rows with one id are one row. -/
theorem eq_of_sourceId {sources : List SourceRow} (hids : (sources.map (·.id)).Nodup)
    {row other : SourceRow} (hrow : row ∈ sources) (hother : other ∈ sources)
    (hid : row.id = other.id) : row = other :=
  List.inj_on_of_nodup_map hids hrow hother hid

theorem eq_of_bookId {sources : List SourceRow} (hbooks : (sources.map (·.bookId)).Nodup)
    {row other : SourceRow} (hrow : row ∈ sources) (hother : other ∈ sources)
    (hbook : row.bookId = other.bookId) : row = other :=
  List.inj_on_of_nodup_map hbooks hrow hother hbook

/-- **A source is written without doubling an id or a book**, if no other source has its book. -/
theorem writtenSources_nodup (clock : ImportClock) (states : Uuid → Option Bool)
    {sources : List SourceRow} {source : PortableSource} (hids : (sources.map (·.id)).Nodup)
    (hbooks : (sources.map (·.bookId)).Nodup) (hconflict : conflictRow sources source = none) :
    ((writtenSources clock states sources source).map (·.id)).Nodup ∧
      ((writtenSources clock states sources source).map (·.bookId)).Nodup := by
  have hfree : ∀ row ∈ sources, row.bookId = source.bookId → row.id = source.id := by
    intro row hrow hbook
    by_contra hid
    exact List.find?_eq_none.mp hconflict row hrow (decide_eq_true ⟨hbook, hid⟩)
  have hrows : sources.Nodup := List.Nodup.of_map _ hids
  unfold writtenSources
  simp only
  cases hexisting : findSource sources source.id with
  | some existing =>
    simp only [Rows.update, List.map_map]
    constructor
    · have hsame : (SourceRow.id ∘ fun row : SourceRow => if row.id = source.id then
          importedRow (clock.written source.id) source (resolvedAccountId states source)
            ((resolvedAccountId states source).bind states) existing row else row)
          = SourceRow.id := by
        funext row
        simp only [Function.comp_apply]
        split_ifs
        · rfl
        · rfl
      rw [hsame]
      exact hids
    · refine (List.nodup_map_iff_inj_on hrows).mpr fun row hrow other hother heq => ?_
      simp only [Function.comp_apply] at heq
      split_ifs at heq with hleft hright hright
      · exact eq_of_sourceId hids hrow hother (hleft.trans hright.symm)
      · exact absurd (hfree other hother heq.symm) hright
      · exact absurd (hfree row hrow heq) hleft
      · exact eq_of_bookId hbooks hrow hother heq
  | none =>
    have hnew := Rows.get_eq_none.mp hexisting
    simp only [List.map_append, List.map_cons, List.map_nil]
    refine ⟨List.nodup_append.mpr ⟨hids, List.nodup_singleton _, ?_⟩,
      List.nodup_append.mpr ⟨hbooks, List.nodup_singleton _, ?_⟩⟩
    · rintro _ hid _ hsource rfl
      obtain ⟨row, hrow, hid⟩ := List.mem_map.mp hid
      exact hnew row hrow (hid.trans (List.mem_singleton.mp hsource))
    · rintro _ hbook _ hsource rfl
      obtain ⟨row, hrow, hbook⟩ := List.mem_map.mp hbook
      exact hnew row hrow (hfree row hrow (hbook.trans (List.mem_singleton.mp hsource)))

/-! ## Records that describe their rows -/

/-- **A record that describes its row, as far as the feed is concerned, is imported**, and writes
that row only. -/
theorem importSource_of_described (clock : ImportClock) (states : Uuid → Option Bool)
    (result : ImportResult) {sources : List SourceRow} {source : PortableSource} {row : SourceRow}
    (hids : (sources.map (·.id)).Nodup) (hbooks : (sources.map (·.bookId)).Nodup)
    (hstorable : IsStorableSource source) (hrow : findSource sources source.id = some row)
    (hsame : feedVisibleChanged row source = false) :
    ∃ next, importSource clock states (result, sources) source = .ok next ∧
      next.2 = sources.map fun other =>
        if other.id = source.id then
          importedRow (clock.written source.id) source (resolvedAccountId states source)
            ((resolvedAccountId states source).bind states) row row
        else other := by
  have hmem := Rows.mem_of_get hrow
  have hkey : row.id = source.id := Rows.key_of_get hrow
  have hbook : row.bookId = source.bookId := by
    have hfields := of_decide_eq_false hsame
    push Not at hfields
    exact hfields.1
  have hconflict : conflictRow sources source = none := by
    refine List.find?_eq_none.mpr fun other hother hconflict => ?_
    obtain ⟨hother', hid⟩ := of_decide_eq_true hconflict
    exact hid (by rw [eq_of_bookId hbooks hother hmem (hother'.trans hbook.symm), hkey])
  have hexhausted : isExhausted (findSource sources source.id) source = false := by
    rw [hrow, isExhausted, Option.any_some, hsame, Bool.false_and]
  refine ⟨_, importSource_of_free hconflict hexhausted hstorable, ?_⟩
  simp only [writtenSources, hrow, Rows.update]
  refine List.map_congr_left fun other hother => ?_
  by_cases hid : other.id = source.id
  · rw [if_pos hid, if_pos hid, eq_of_sourceId hids hother hmem (hid.trans hkey.symm)]
  · rw [if_neg hid, if_neg hid]

section Described

variable {P : PortableSource → SourceRow → Prop} {R : SourceRow → SourceRow → Prop}

/-- **Importing records that describe their rows** relates every row to what it was. -/
theorem importSources_of_described (clock : ImportClock) (states : Uuid → Option Bool)
    (hrefl : ∀ row, R row row) (htrans : ∀ a b c, R a b → R b c → R a c)
    (hsame : ∀ source row, P source row → feedVisibleChanged row source = false)
    (hstep : ∀ source row, P source row → R row (importedRow (clock.written source.id) source
      (resolvedAccountId states source) ((resolvedAccountId states source).bind states) row row))
    (rest : List PortableSource) (hnodup : (rest.map (·.id)).Nodup)
    (hstorable : ∀ source ∈ rest, IsStorableSource source) (result : ImportResult)
    {sources : List SourceRow} (hids : (sources.map (·.id)).Nodup)
    (hbooks : (sources.map (·.bookId)).Nodup)
    (hfind : ∀ source ∈ rest, ∃ row, findSource sources source.id = some row ∧ P source row) :
    ∃ result' final, rest.foldlM (importSource clock states) (result, sources)
      = .ok (result', final) ∧ List.Forall₂ R sources final := by
  induction rest generalizing result sources with
  | nil => exact ⟨result, sources, rfl, List.forall₂_same.mpr fun row _ => hrefl row⟩
  | cons source rest ih =>
    obtain ⟨row, hrow, hdescribes⟩ := hfind source (List.mem_cons_self ..)
    obtain ⟨hfresh, hrest⟩ := List.nodup_cons.mp hnodup
    obtain ⟨next, hnext, hleft⟩ := importSource_of_described clock states result hids hbooks
      (hstorable source (List.mem_cons_self ..)) hrow (hsame source row hdescribes)
    obtain ⟨hconflict, -, -, hwritten⟩ := importSource_eq_ok hnext
    obtain ⟨hids', hbooks'⟩ := writtenSources_nodup clock states hids hbooks hconflict
    rw [← hwritten] at hids' hbooks'
    have hrelated : List.Forall₂ R sources next.2 := by
      rw [hleft]
      refine List.forall₂_map_right_iff.mpr (List.forall₂_same.mpr fun other hother => ?_)
      by_cases hid : other.id = source.id
      · have hother' : other = row := eq_of_sourceId hids hother (Rows.mem_of_get hrow)
          (hid.trans (Rows.key_of_get hrow).symm)
        rw [if_pos hid, hother']
        exact hstep source row hdescribes
      · rw [if_neg hid]
        exact hrefl other
    have hfind' : ∀ other ∈ rest, ∃ row, findSource next.2 other.id = some row ∧ P other row := by
      intro other hother
      have hother' : other.id ≠ source.id := fun heq =>
        hfresh (List.mem_map.mpr ⟨other, hother, heq⟩)
      rw [hwritten, findSource_writtenSources hother']
      exact hfind other (List.mem_cons_of_mem _ hother)
    obtain ⟨result', final, hfinal, hforall⟩ := ih hrest
      (fun other hother => hstorable other (List.mem_cons_of_mem _ hother)) next.1
      hids' hbooks' hfind'
    refine ⟨result', final, ?_, Rows.forall₂_trans htrans hrelated hforall⟩
    rw [List.foldlM_cons, hnext, ok_bind]
    exact hfinal

end Described

/-! ## Settled sources -/

/-- **What an import of a source leaves**: the editable columns of the record, and a gate that a
second one does not change. -/
structure IsSettled (states : Uuid → Option Bool) (source : PortableSource) (row : SourceRow) :
    Prop where
  bookId : row.bookId = source.bookId
  displayName : row.displayName = source.displayName
  articleUrl : row.articleUrl = source.articleUrl
  accountId : row.accountId = resolvedAccountId states source
  enabled : row.enabled = source.enabled
  syncInterval : row.syncIntervalSeconds = source.syncIntervalSeconds
  rssItemLimit : row.rssItemLimit = source.rssItemLimit.toNat
  priority : row.priority = source.priority
  maxAttempts : row.maxAttempts = source.maxAttempts.toNat
  gate : importedSourceGate (some row.schedulingGate)
    ((resolvedAccountId states source).bind states) = row.schedulingGate
  waits : row.schedulingGate = .authenticationRequired →
    (resolvedAccountId states source).bind states = some false

/-- The gate of an import, imported again. -/
theorem importedSourceGate_again (existingGate : Option SchedulingGate) (usable : Option Bool) :
    importedSourceGate (some (importedSourceGate existingGate usable)) usable
      = importedSourceGate existingGate usable := by
  unfold importedSourceGate
  by_cases hrisk : existingGate = some .riskControlled
  · rw [if_pos hrisk, if_pos rfl]
  · rw [if_neg hrisk]
    by_cases husable : usable = some false
    · rw [if_pos husable, if_neg (by decide)]
    · rw [if_neg husable, if_neg (by decide)]

/-- An imported source waits for authentication only with an account that cannot be used. -/
theorem usable_of_importedSourceGate (existingGate : Option SchedulingGate) {usable : Option Bool}
    (h : importedSourceGate existingGate usable = .authenticationRequired) :
    usable = some false := by
  unfold importedSourceGate at h
  split_ifs at h with hrisk husable
  exact husable

theorem IsSettled.importedRow (clock : DateTime) (states : Uuid → Option Bool)
    (source : PortableSource) (existing row : SourceRow) :
    IsSettled states source (importedRow clock source (resolvedAccountId states source)
      ((resolvedAccountId states source).bind states) existing row) where
  bookId := rfl
  displayName := rfl
  articleUrl := rfl
  accountId := rfl
  enabled := rfl
  syncInterval := rfl
  rssItemLimit := rfl
  priority := rfl
  maxAttempts := rfl
  gate := importedSourceGate_again _ _
  waits := usable_of_importedSourceGate _

theorem IsSettled.createdRow (clock : DateTime) (states : Uuid → Option Bool)
    (source : PortableSource) :
    IsSettled states source (createdRow clock source (resolvedAccountId states source)
      ((resolvedAccountId states source).bind states)) where
  bookId := rfl
  displayName := rfl
  articleUrl := rfl
  accountId := rfl
  enabled := rfl
  syncInterval := rfl
  rssItemLimit := rfl
  priority := rfl
  maxAttempts := rfl
  gate := importedSourceGate_again none _
  waits := usable_of_importedSourceGate none

theorem IsSettled.feedVisibleChanged {states : Uuid → Option Bool} {source : PortableSource}
    {row : SourceRow} (h : IsSettled states source row) :
    feedVisibleChanged row source = false := by
  simp [ConfigTransfer.feedVisibleChanged, h.bookId, h.displayName, h.articleUrl, h.rssItemLimit]

/-- **A settled row is written over by itself**, with a new `updated_at`. -/
theorem IsSettled.importedRow_eq {states : Uuid → Option Bool} {source : PortableSource}
    {row : SourceRow} (h : IsSettled states source row) (clock : DateTime) :
    ConfigTransfer.importedRow clock source (resolvedAccountId states source)
      ((resolvedAccountId states source).bind states) row row = { row with updatedAt := clock } := by
  have hresumes : (decide (row.schedulingGate = .authenticationRequired)
      && (resolvedAccountId states source).isSome
      && !decide ((resolvedAccountId states source).bind states = some false)) = false := by
    by_cases hgate : row.schedulingGate = .authenticationRequired
    · rw [decide_eq_true (h.waits hgate), Bool.not_true, Bool.and_false]
    · rw [decide_eq_false hgate, Bool.false_and, Bool.false_and]
  simp only [ConfigTransfer.importedRow, hresumes, h.feedVisibleChanged, h.gate, ← h.bookId,
    ← h.displayName, ← h.articleUrl, ← h.enabled, ← h.syncInterval, ← h.rssItemLimit, ← h.priority,
    ← h.maxAttempts, Bool.false_eq_true, false_and, if_false]
  rw [← h.accountId]

/-- **A written source is settled.** -/
theorem writtenSources_settles (clock : ImportClock) (states : Uuid → Option Bool)
    (sources : List SourceRow) (source : PortableSource) :
    ∃ row, findSource (writtenSources clock states sources source) source.id = some row ∧
      IsSettled states source row := by
  unfold writtenSources
  simp only
  cases hexisting : findSource sources source.id with
  | some existing =>
    have hkey : ∀ row, (ConfigTransfer.importedRow (clock.written source.id) source
        (resolvedAccountId states source) ((resolvedAccountId states source).bind states) existing
          row).id = row.id := fun _ => rfl
    simp only
    rw [findSource, Rows.get_update hkey, if_pos rfl]
    rw [findSource] at hexisting
    rw [hexisting]
    exact ⟨_, rfl, IsSettled.importedRow ..⟩
  | none =>
    simp only
    rw [findSource, Rows.get_append_singleton]
    rw [findSource] at hexisting
    rw [hexisting, Option.none_or]
    exact ⟨_, if_pos rfl, IsSettled.createdRow ..⟩

/-- **After an import every record of its bundle is settled**, and no id or book is doubled. -/
theorem importSources_settles {clock : ImportClock} {states : Uuid → Option Bool}
    (rest : List PortableSource) (hnodup : (rest.map (·.id)).Nodup)
    {progress final : ImportResult × List SourceRow}
    (h : rest.foldlM (importSource clock states) progress = .ok final)
    (hids : (progress.2.map (·.id)).Nodup) (hbooks : (progress.2.map (·.bookId)).Nodup) :
    (∀ source ∈ rest, IsStorableSource source ∧
        ∃ row, findSource final.2 source.id = some row ∧ IsSettled states source row) ∧
      (∀ id, id ∉ rest.map (·.id) → findSource final.2 id = findSource progress.2 id) ∧
      (final.2.map (·.id)).Nodup ∧ (final.2.map (·.bookId)).Nodup := by
  induction rest generalizing progress with
  | nil =>
    obtain rfl := Except.ok.inj h
    exact ⟨by simp, fun _ _ => rfl, hids, hbooks⟩
  | cons source rest ih =>
    rw [List.foldlM_cons] at h
    obtain ⟨next, hnext, h⟩ := bind_eq_ok h
    obtain ⟨hconflict, -, hstorable, hwritten⟩ := importSource_eq_ok hnext
    obtain ⟨hfresh, hrest⟩ := List.nodup_cons.mp hnodup
    obtain ⟨hids', hbooks'⟩ := writtenSources_nodup clock states hids hbooks hconflict
    rw [← hwritten] at hids' hbooks'
    obtain ⟨hsettled, hothers, hkeyed⟩ := ih hrest h hids' hbooks'
    refine ⟨fun other hother => ?_, fun id hid => ?_, hkeyed⟩
    · rcases List.mem_cons.mp hother with rfl | hother
      · rw [hothers _ hfresh, hwritten]
        exact ⟨hstorable, writtenSources_settles ..⟩
      · exact hsettled other hother
    · rw [List.map_cons, List.mem_cons, not_or] at hid
      rw [hothers id hid.2, hwritten, findSource_writtenSources hid.1]

/-! ## Settled accounts -/

/-- The account has the label and the pause of its record. -/
def IsSettledAccount (accounts : List AccountRow) (account : PortableWeReadAccount) : Prop :=
  ∃ row, findAccount accounts account.accountId = some row ∧
    row.displayName = account.displayName ∧ row.disabled = !account.enabled

/-- **What an import of an account that goes through leaves.** -/
theorem importAccount_eq_ok {clock : ImportClock} {progress final : ImportResult × AccountTables}
    {account : PortableWeReadAccount} (h : importAccount clock progress account = .ok final)
    (hids : (progress.2.accounts.map (·.accountId)).Nodup) :
    '\x00' ∉ account.displayName.toList ∧ IsSettledAccount final.2.accounts account ∧
      (∀ id, id ≠ account.accountId →
        findAccount final.2.accounts id = findAccount progress.2.accounts id) ∧
      (final.2.accounts.map (·.accountId)).Nodup := by
  have hlabel : ∀ row : AccountRow, AccountRow.accountId
      { row with displayName := account.displayName, disabled := !account.enabled }
        = row.accountId := fun _ => rfl
  obtain ⟨_, hbind, h⟩ := bind_eq_ok h
  refine ⟨bindTexts_eq_ok.mp hbind _ (List.mem_singleton_self _), ?_⟩
  split at h
  · rename_i existing hexisting
    obtain rfl := Except.ok.inj h
    have haccounts : ∀ resumes : Bool, ∀ updated : AccountTables,
        (if resumes = true then resumeAuthenticationGatedSources updated account.accountId
          (clock.resumed account.accountId) else updated).accounts = updated.accounts := by
      intro resumes updated
      cases resumes
      · rfl
      · exact accounts_resume ..
    simp only [haccounts]
    refine ⟨⟨{ existing with displayName := account.displayName, disabled := !account.enabled }, ?_,
      rfl, rfl⟩, fun id hid => ?_, ?_⟩
    · rw [findAccount, Rows.get_update hlabel, if_pos rfl]
      rw [findAccount] at hexisting
      rw [hexisting, Option.map_some]
    · rw [findAccount, Rows.get_update hlabel, if_neg hid, findAccount]
    · rw [Rows.update, List.map_map]
      have hsame : ((fun row : AccountRow => row.accountId) ∘ fun row : AccountRow =>
          if row.accountId = account.accountId then
            { row with displayName := account.displayName, disabled := !account.enabled }
          else row) = fun row => row.accountId := by
        funext row
        simp only [Function.comp_apply]
        split_ifs
        · rfl
        · rfl
      rw [hsame]
      exact hids
  · rename_i hnone
    obtain rfl := Except.ok.inj h
    refine ⟨⟨⟨account.accountId, account.displayName, none, none, 1, !account.enabled, true⟩, ?_, rfl,
      rfl⟩, fun id hid => ?_, ?_⟩
    · rw [findAccount, Rows.get_append_singleton]
      rw [findAccount] at hnone
      rw [hnone, Option.none_or]
      exact if_pos rfl
    · rw [findAccount, Rows.get_append_singleton, if_neg (Ne.symm hid), Option.or_none, findAccount]
    · rw [List.map_append, List.map_cons, List.map_nil]
      refine List.nodup_append.mpr ⟨hids, List.nodup_singleton _, ?_⟩
      rintro _ hid _ haccount rfl
      obtain ⟨row, hrow, hid⟩ := List.mem_map.mp hid
      exact Rows.get_eq_none.mp hnone row hrow (hid.trans (List.mem_singleton.mp haccount))

/-- **After an import every account of its bundle is settled.** -/
theorem importAccounts_settles {clock : ImportClock} (rest : List PortableWeReadAccount)
    (hnodup : (rest.map (·.accountId)).Nodup) {progress final : ImportResult × AccountTables}
    (h : rest.foldlM (importAccount clock) progress = .ok final)
    (hids : (progress.2.accounts.map (·.accountId)).Nodup) :
    (∀ account ∈ rest, '\x00' ∉ account.displayName.toList ∧
        IsSettledAccount final.2.accounts account) ∧
      (∀ id, id ∉ rest.map (·.accountId) →
        findAccount final.2.accounts id = findAccount progress.2.accounts id) ∧
      (final.2.accounts.map (·.accountId)).Nodup := by
  induction rest generalizing progress with
  | nil =>
    obtain rfl := Except.ok.inj h
    exact ⟨by simp, fun _ _ => rfl, hids⟩
  | cons account rest ih =>
    rw [List.foldlM_cons] at h
    obtain ⟨next, hnext, h⟩ := bind_eq_ok h
    obtain ⟨hstorable, hsettled, hother, hids'⟩ := importAccount_eq_ok hnext hids
    obtain ⟨hfresh, hrest⟩ := List.nodup_cons.mp hnodup
    obtain ⟨hlater, hothers, hkeyed⟩ := ih hrest h hids'
    refine ⟨fun other hmem => ?_, fun id hid => ?_, hkeyed⟩
    · rcases List.mem_cons.mp hmem with rfl | hmem
      · obtain ⟨row, hrow, hlabel⟩ := hsettled
        exact ⟨hstorable, row, (hothers _ hfresh).trans hrow, hlabel⟩
      · exact hlater other hmem
    · rw [List.map_cons, List.mem_cons, not_or] at hid
      rw [hothers id hid.2, hother id hid.1]

/-- **An account with the label and the pause of its record is imported into the same tables.** -/
theorem importAccount_of_settled (clock : ImportClock) (result : ImportResult)
    {tables : AccountTables} {account : PortableWeReadAccount}
    (hids : (tables.accounts.map (·.accountId)).Nodup)
    (hstorable : '\x00' ∉ account.displayName.toList)
    (hsettled : IsSettledAccount tables.accounts account) :
    ∃ result', importAccount clock (result, tables) account = .ok (result', tables) := by
  obtain ⟨row, hrow, hlabel, hpause⟩ := hsettled
  have hbind : bindTexts [account.displayName] = .ok () :=
    bindTexts_eq_ok.mpr fun text htext => by rwa [List.mem_singleton.mp htext]
  have hsame : (Rows.update AccountRow.accountId tables.accounts account.accountId fun row =>
      { row with displayName := account.displayName, disabled := !account.enabled })
        = tables.accounts := by
    refine (List.map_congr_left fun other hother => ?_).trans (List.map_id _)
    by_cases hid : other.accountId = account.accountId
    · have hother' : other = row := List.inj_on_of_nodup_map hids hother (Rows.mem_of_get hrow)
        (hid.trans (Rows.key_of_get hrow).symm)
      rw [if_pos hid, hother', ← hlabel, ← hpause]
      rfl
    · rw [if_neg hid]
      rfl
  have hresumes : (!row.setupRequired && row.disabled && account.enabled
      && row.accessExpiresAt.any fun expiresAt =>
        decide (clock.selected account.accountId < expiresAt)) = false := by
    rw [hpause]
    cases account.enabled
    · rw [Bool.and_false, Bool.false_and]
    · rw [Bool.not_true, Bool.and_false, Bool.false_and, Bool.false_and]
  refine ⟨{ result with accountsUpdated := result.accountsUpdated + 1 }, ?_⟩
  unfold importAccount
  rw [hbind, ok_bind]
  simp only [hrow, hresumes, Bool.false_eq_true, if_false, hsame]
  rfl

theorem importAccounts_of_settled (clock : ImportClock) (rest : List PortableWeReadAccount)
    (result : ImportResult) (tables : AccountTables)
    (hids : (tables.accounts.map (·.accountId)).Nodup)
    (hsettled : ∀ account ∈ rest, '\x00' ∉ account.displayName.toList ∧
      IsSettledAccount tables.accounts account) :
    ∃ result', rest.foldlM (importAccount clock) (result, tables) = .ok (result', tables) := by
  induction rest generalizing result with
  | nil => exact ⟨result, rfl⟩
  | cons account rest ih =>
    obtain ⟨hstorable, hdescribed⟩ := hsettled account (List.mem_cons_self ..)
    obtain ⟨next, hnext⟩ := importAccount_of_settled clock result hids hstorable
      hdescribed
    rw [List.foldlM_cons, hnext, ok_bind]
    exact ih next fun other hother => hsettled other (List.mem_cons_of_mem _ hother)

/-! ## Rows a bundle does not name -/

/-- **The bundle enables an enrolled account again.** -/
def Reenables (tables : AccountTables) (bundle : ConfigBundle) (accountId : Uuid) : Prop :=
  ∃ account ∈ bundle.wereadAccounts.getD [], account.accountId = accountId ∧
    account.enabled = true ∧ ∃ existing, findAccount tables.accounts accountId = some existing ∧
      existing.disabled = true ∧ existing.setupRequired = false

/-- The columns that wake a source. -/
def resumedRow (clock : DateTime) (row : SourceRow) : SourceRow :=
  { row with
    schedulingGate := .ready
    failureCooldownUntil := none
    scheduleReservedUntil := none
    nextFetchAt := clock
    updatedAt := clock }

/-- The row after the sources of an account are woken. -/
def wake (accountId : Uuid) (clock : DateTime) (row : SourceRow) : SourceRow :=
  if row.accountId = some accountId ∧ row.schedulingGate = .authenticationRequired then
    resumedRow clock row
  else row

theorem wake_id (accountId : Uuid) (clock : DateTime) (row : SourceRow) :
    (wake accountId clock row).id = row.id := by
  unfold wake
  split_ifs
  · rfl
  · rfl

/-- The row as it was, or woken with an account the bundle enables again. -/
def StaysOrWakes (clock : ImportClock) (tables : AccountTables) (bundle : ConfigBundle)
    (row row' : SourceRow) : Prop :=
  row' = row ∨ ∃ accountId, row.accountId = some accountId ∧
    row.schedulingGate = .authenticationRequired ∧ Reenables tables bundle accountId ∧
    row' = resumedRow (clock.resumed accountId) row

theorem StaysOrWakes.wake {clock : ImportClock} {tables : AccountTables} {bundle : ConfigBundle}
    {accountId : Uuid} {row row' : SourceRow} (h : StaysOrWakes clock tables bundle row row')
    (hreenables : Reenables tables bundle accountId) :
    StaysOrWakes clock tables bundle row
      (ConfigTransfer.wake accountId (clock.resumed accountId) row') := by
  unfold ConfigTransfer.wake
  rcases h with rfl | ⟨other, haccount, hgate, hother, rfl⟩
  · by_cases hwakes : row'.accountId = some accountId ∧
        row'.schedulingGate = .authenticationRequired
    · rw [if_pos hwakes]
      exact .inr ⟨accountId, hwakes.1, hwakes.2, hreenables, rfl⟩
    · rw [if_neg hwakes]
      exact .inl rfl
  · rw [if_neg fun hwakes => nomatch hwakes.2]
    exact .inr ⟨other, haccount, hgate, hother, rfl⟩

/-- **Waking the sources of an account the bundle enables again.** -/
theorem staysOrWakes_resume {clock : ImportClock} {tables updated : AccountTables}
    {bundle : ConfigBundle} {accountId id : Uuid} (hreenables : Reenables tables bundle accountId)
    (h : Option.Rel (StaysOrWakes clock tables bundle) (findSource tables.sources id)
      (findSource updated.sources id)) :
    Option.Rel (StaysOrWakes clock tables bundle) (findSource tables.sources id)
      (findSource (resumeAuthenticationGatedSources updated accountId
        (clock.resumed accountId)).sources id) := by
  unfold resumeAuthenticationGatedSources
  split_ifs
  · have hfind : findSource (updated.sources.map (wake accountId (clock.resumed accountId))) id
        = (findSource updated.sources id).map (wake accountId (clock.resumed accountId)) :=
      Rows.get_map (wake_id accountId (clock.resumed accountId)) _ _
    refine Eq.mp (congrArg _ hfind.symm) ?_
    revert h
    generalize findSource tables.sources id = before
    generalize findSource updated.sources id = after
    rintro (hrow | -)
    · exact .some (hrow.wake hreenables)
    · exact .none
  · exact h

/-- What an import of accounts does to a source. -/
theorem importAccounts_wakes {clock : ImportClock} (tables : AccountTables) {bundle : ConfigBundle}
    (id : Uuid) (rest : List PortableWeReadAccount)
    (hrest : ∀ account ∈ rest, account ∈ bundle.wereadAccounts.getD [])
    (hnodup : (rest.map (·.accountId)).Nodup) {progress final : ImportResult × AccountTables}
    (h : rest.foldlM (importAccount clock) progress = .ok final)
    (hids : (progress.2.accounts.map (·.accountId)).Nodup)
    (hsame : ∀ account ∈ rest, findAccount progress.2.accounts account.accountId
      = findAccount tables.accounts account.accountId)
    (hstays : Option.Rel (StaysOrWakes clock tables bundle) (findSource tables.sources id)
      (findSource progress.2.sources id)) :
    Option.Rel (StaysOrWakes clock tables bundle) (findSource tables.sources id)
        (findSource final.2.sources id) ∧
      final.2.leases = progress.2.leases ∧
      final.2.sources.map judgedColumns = progress.2.sources.map judgedColumns := by
  induction rest generalizing progress with
  | nil =>
    obtain rfl := Except.ok.inj h
    exact ⟨hstays, rfl, rfl⟩
  | cons account rest ih =>
    rw [List.foldlM_cons] at h
    obtain ⟨next, hnext, h⟩ := bind_eq_ok h
    obtain ⟨-, -, hothers, hids'⟩ := importAccount_eq_ok hnext hids
    obtain ⟨hfresh, hrestNodup⟩ := List.nodup_cons.mp hnodup
    have hstep : Option.Rel (StaysOrWakes clock tables bundle) (findSource tables.sources id)
          (findSource next.2.sources id) ∧ next.2.leases = progress.2.leases ∧
        next.2.sources.map judgedColumns = progress.2.sources.map judgedColumns := by
      obtain ⟨_, -, hnext⟩ := bind_eq_ok hnext
      split at hnext
      · rename_i existing hexisting
        obtain rfl := Except.ok.inj hnext
        simp only
        split_ifs with hresumes
        · simp only [Bool.and_eq_true, Bool.not_eq_true'] at hresumes
          obtain ⟨⟨⟨hsetup, hdisabled⟩, henabled⟩, -⟩ := hresumes
          rw [hsame account (List.mem_cons_self ..)] at hexisting
          have hreenables : Reenables tables bundle account.accountId :=
            ⟨account, hrest account (List.mem_cons_self ..), rfl, henabled, existing, hexisting,
              hdisabled, hsetup⟩
          refine ⟨staysOrWakes_resume hreenables hstays, ?_, judgedColumns_resume ..⟩
          unfold resumeAuthenticationGatedSources
          split_ifs
          · rfl
          · rfl
        · exact ⟨hstays, rfl, rfl⟩
      · obtain rfl := Except.ok.inj hnext
        exact ⟨hstays, rfl, rfl⟩
    have hsame' : ∀ other ∈ rest, findAccount next.2.accounts other.accountId
        = findAccount tables.accounts other.accountId := by
      intro other hother
      rw [hothers _ fun heq => hfresh (List.mem_map.mpr ⟨other, hother, heq⟩)]
      exact hsame other (List.mem_cons_of_mem _ hother)
    obtain ⟨hfinal, hleases, hcolumns⟩ := ih
      (fun other hother => hrest other (List.mem_cons_of_mem _ hother)) hrestNodup h hids' hsame'
      hstep.1
    exact ⟨hfinal, hleases.trans hstep.2.1, hcolumns.trans hstep.2.2⟩

/-! ## Exports -/

/-- The rows of a section are all rows of the table, if they fit. -/
theorem orderedRows_perm [Collation] {R : Type} {name : R → String} {id : R → Uuid} {rows : List R}
    (h : (orderedRows name id rows).length ≤ maxSectionRecords) :
    (orderedRows name id rows).Perm rows := by
  unfold orderedRows at h ⊢
  rw [List.length_take] at h
  rw [List.take_of_length_le]
  · exact List.perm_insertionSort _ rows
  · omega

theorem checkExported_eq_ok {sectionName : String} {count : ℕ} {u : Unit}
    (h : checkExported sectionName count = .ok u) : count ≤ maxSectionRecords := by
  unfold checkExported at h
  split_ifs at h with hlarge
  exact not_lt.mp hlarge

/-- The columns of a portable source are those of its row. -/
structure Describes (source : PortableSource) (row : SourceRow) : Prop where
  id : source.id = row.id
  bookId : source.bookId = row.bookId
  displayName : source.displayName = row.displayName
  articleUrl : source.articleUrl = row.articleUrl
  accountId : source.accountId = row.accountId
  enabled : source.enabled = row.enabled
  syncInterval : source.syncIntervalSeconds = row.syncIntervalSeconds
  rssItemLimit : (source.rssItemLimit.toNat : ℤ) = row.rssItemLimit
  priority : source.priority = row.priority
  maxAttempts : (source.maxAttempts.toNat : ℤ) = row.maxAttempts

theorem portableSource_describes {row : SourceRow} {source : PortableSource}
    (h : portableSource row = .ok source) : Describes source row := by
  unfold portableSource at h
  split_ifs at h with hlimit hattempts
  obtain rfl := Except.ok.inj h
  have hnat : ∀ n : ℤ, 0 ≤ n ∧ n < UInt32.size → ((UInt32.ofNat n.toNat).toNat : ℤ) = n := by
    intro n hn
    have hsmall : n.toNat < UInt32.size := by omega
    rw [UInt32.toNat_ofNat_of_lt' hsmall]
    omega
  exact ⟨rfl, rfl, rfl, rfl, rfl, rfl, rfl, hnat _ hlimit, rfl, hnat _ hattempts⟩

/-- **The section of sources describes the rows of the table**, one by one. -/
theorem exportSources_eq_ok [Collation] {sources : List SourceRow}
    {portable : List PortableSource} (h : exportSources sources = .ok portable) :
    ∃ rows, rows.Perm sources ∧
      List.Forall₂ (fun row source => portableSource row = .ok source) rows portable := by
  obtain ⟨_, hcount, h⟩ := bind_eq_ok h
  exact ⟨_, orderedRows_perm (checkExported_eq_ok hcount), mapM_eq_ok h⟩

theorem exportAccounts_eq_ok [Collation] {accounts : List AccountRow}
    {portable : List PortableWeReadAccount} (h : exportAccounts accounts = .ok portable) :
    portable.Perm (accounts.map portableAccount) := by
  obtain ⟨_, hcount, h⟩ := bind_eq_ok h
  obtain rfl := Except.ok.inj h
  exact (orderedRows_perm (checkExported_eq_ok hcount)).map _

/-! ## The three properties -/

/-- Rows that differ in `updated_at` at most. -/
def SameButUpdatedAt (row row' : SourceRow) : Prop := { row with updatedAt := row'.updatedAt } = row'

theorem SameButUpdatedAt.trans (a b c : SourceRow) (hab : SameButUpdatedAt a b)
    (hbc : SameButUpdatedAt b c) : SameButUpdatedAt a c := by
  unfold SameButUpdatedAt at hab hbc ⊢
  rw [← hbc, ← hab]

/-- **The portable columns and the feed revision of a row are kept**; a binding to an account that
does not exist may be cleared. -/
structure KeepsPortable (accounts : List AccountRow) (row row' : SourceRow) : Prop where
  id : row'.id = row.id
  bookId : row'.bookId = row.bookId
  displayName : row'.displayName = row.displayName
  articleUrl : row'.articleUrl = row.articleUrl
  accountId : row'.accountId = row.accountId ∨
    row'.accountId = none ∧ ∀ id ∈ row.accountId, findAccount accounts id = none
  enabled : row'.enabled = row.enabled
  syncInterval : row'.syncIntervalSeconds = row.syncIntervalSeconds
  rssItemLimit : row'.rssItemLimit = row.rssItemLimit
  priority : row'.priority = row.priority
  maxAttempts : row'.maxAttempts = row.maxAttempts
  feedRevision : row'.feedRevision = row.feedRevision

theorem KeepsPortable.refl (accounts : List AccountRow) (row : SourceRow) :
    KeepsPortable accounts row row :=
  ⟨rfl, rfl, rfl, rfl, .inl rfl, rfl, rfl, rfl, rfl, rfl, rfl⟩

theorem KeepsPortable.trans {accounts : List AccountRow} (a b c : SourceRow)
    (hab : KeepsPortable accounts a b) (hbc : KeepsPortable accounts b c) :
    KeepsPortable accounts a c where
  id := hbc.id.trans hab.id
  bookId := hbc.bookId.trans hab.bookId
  displayName := hbc.displayName.trans hab.displayName
  articleUrl := hbc.articleUrl.trans hab.articleUrl
  accountId := by
    rcases hab.accountId with heq | ⟨hnone, hmissing⟩
    · rw [← heq]
      exact hbc.accountId
    · refine .inr ⟨?_, hmissing⟩
      rcases hbc.accountId with heq | ⟨hnone', -⟩
      · rw [heq, hnone]
      · exact hnone'
  enabled := hbc.enabled.trans hab.enabled
  syncInterval := hbc.syncInterval.trans hab.syncInterval
  rssItemLimit := hbc.rssItemLimit.trans hab.rssItemLimit
  priority := hbc.priority.trans hab.priority
  maxAttempts := hbc.maxAttempts.trans hab.maxAttempts
  feedRevision := hbc.feedRevision.trans hab.feedRevision

/-- **An import that fails leaves the tables as they were.** -/
theorem applyBundle_error {clock : ImportClock} {tables tables' : AccountTables}
    {bundle : ConfigBundle} {e : ConfigTransferRepositoryError}
    (h : applyBundle clock tables bundle = (.error e, tables')) : tables' = tables := by
  unfold applyBundle at h
  split at h
  · exact (Prod.mk.inj h).2.symm
  · cases (Prod.mk.inj h).1

theorem applyBundle_eq_ok {clock : ImportClock} {tables tables' : AccountTables}
    {bundle : ConfigBundle} {result : ImportResult}
    (h : applyBundle clock tables bundle = (.ok result, tables')) :
    ∃ progress : ImportResult × AccountTables, ∃ written : ImportResult × List SourceRow,
      (bundle.wereadAccounts.getD []).foldlM (importAccount clock) ({}, tables) = .ok progress ∧
      (bundle.sources.getD []).foldlM
        (importSource clock (accountState clock.states progress.2.accounts))
        (progress.1, progress.2.sources) = .ok written ∧
      tables' = { progress.2 with sources := written.2 } := by
  unfold applyBundle at h
  split at h
  · cases (Prod.mk.inj h).1
  · rename_i final htransaction
    obtain ⟨progress, haccounts, htransaction⟩ := bind_eq_ok htransaction
    obtain ⟨written, hsources, htransaction⟩ := bind_eq_ok htransaction
    have hfinal := Except.ok.inj htransaction
    obtain ⟨-, rfl⟩ := Prod.mk.inj h
    exact ⟨progress, written, haccounts, hsources, (Prod.mk.inj hfinal).2.symm⟩

theorem applyBundle_of_ok {clock : ImportClock} {tables : AccountTables} {bundle : ConfigBundle}
    {progress : ImportResult × AccountTables} {written : ImportResult × List SourceRow}
    (haccounts : (bundle.wereadAccounts.getD []).foldlM (importAccount clock) ({}, tables)
      = .ok progress)
    (hsources : (bundle.sources.getD []).foldlM
        (importSource clock (accountState clock.states progress.2.accounts))
        (progress.1, progress.2.sources) = .ok written) :
    applyBundle clock tables bundle = (.ok written.1, { progress.2 with sources := written.2 }) := by
  have htransaction : applyTransaction clock tables bundle
      = .ok (written.1, { progress.2 with sources := written.2 }) := by
    unfold applyTransaction
    rw [haccounts, ok_bind, hsources, ok_bind]
    rfl
  rw [applyBundle, htransaction]

section Keyed

variable {tables : AccountTables} (hkeyed : IsKeyed tables)

include hkeyed

/-- Tables whose sources have the same judged columns have the same ids and books. -/
theorem nodup_of_judged {sources : List SourceRow}
    (h : sources.map judgedColumns = tables.sources.map judgedColumns) :
    (sources.map (·.id)).Nodup ∧ (sources.map (·.bookId)).Nodup := by
  have hids : sources.map (·.id) = tables.sources.map (·.id) := by
    simpa [judgedColumns, Function.comp_def] using congrArg (List.map Prod.fst) h
  have hbooks : sources.map (·.bookId) = tables.sources.map (·.bookId) := by
    simpa [judgedColumns, Function.comp_def] using congrArg (List.map fun row => row.2.1) h
  rw [hids, hbooks]
  exact ⟨hkeyed.sourceIds, hkeyed.bookIds⟩

/-- **A second import of the same bundle goes through and changes no column but `updated_at`.** -/
theorem applyBundle_again {clock clock' : ImportClock} {tables' : AccountTables}
    {bundle : ConfigBundle} {result : ImportResult}
    (hids : ((bundle.sources.getD []).map (·.id)).Nodup)
    (haccountIds : ((bundle.wereadAccounts.getD []).map (·.accountId)).Nodup)
    (h : applyBundle clock tables bundle = (.ok result, tables'))
    (husable : ∀ id, accountState clock'.states tables'.accounts id
      = accountState clock.states tables'.accounts id) :
    ∃ result' tables'', applyBundle clock' tables' bundle = (.ok result', tables'') ∧
      tables''.accounts = tables'.accounts ∧ tables''.leases = tables'.leases ∧
      List.Forall₂ SameButUpdatedAt tables'.sources tables''.sources := by
  obtain ⟨progress, written, haccounts, hsources, rfl⟩ := applyBundle_eq_ok h
  obtain ⟨hsettledAccounts, -, haccountKeys⟩ := importAccounts_settles _ haccountIds haccounts
    hkeyed.accountIds
  obtain ⟨-, -, hcolumns⟩ := importAccounts_wakes tables .nil _
    (fun _ hmem => hmem) haccountIds haccounts hkeyed.accountIds (fun _ _ => rfl)
    (by cases findSource tables.sources .nil <;> constructor; exact .inl rfl)
  obtain ⟨hsourceKeys, hbookKeys⟩ := nodup_of_judged hkeyed hcolumns
  obtain ⟨hsettled, -, hsourceKeys', hbookKeys'⟩ := importSources_settles _ hids hsources
    hsourceKeys hbookKeys
  have hstates : accountState clock'.states progress.2.accounts
      = accountState clock.states progress.2.accounts := funext husable
  obtain ⟨result₁, hagain⟩ := importAccounts_of_settled clock' _ {}
    { progress.2 with sources := written.2 } haccountKeys hsettledAccounts
  obtain ⟨result₂, final, hfinal, hsame⟩ := importSources_of_described clock'
    (accountState clock'.states progress.2.accounts) (P := IsSettled (accountState clock'.states progress.2.accounts)) (R := SameButUpdatedAt)
    (fun _ => rfl) SameButUpdatedAt.trans (fun _ _ => IsSettled.feedVisibleChanged)
    (fun source row hrow => by rw [hrow.importedRow_eq]; rfl) (bundle.sources.getD []) hids
    (fun source hmem => (hsettled source hmem).1) result₁ hsourceKeys' hbookKeys'
    (by rw [hstates]; exact fun source hmem => (hsettled source hmem).2)
  exact ⟨_, _, applyBundle_of_ok hagain hfinal, rfl, rfl, hsame⟩

/-- **The rows a bundle does not name stay**, but for the sources it wakes. -/
theorem applyBundle_others {clock : ImportClock} {tables' : AccountTables} {bundle : ConfigBundle}
    {result : ImportResult} (hids : ((bundle.sources.getD []).map (·.id)).Nodup)
    (haccountIds : ((bundle.wereadAccounts.getD []).map (·.accountId)).Nodup)
    (h : applyBundle clock tables bundle = (.ok result, tables')) :
    (∀ id, id ∉ (bundle.wereadAccounts.getD []).map (·.accountId) →
        findAccount tables'.accounts id = findAccount tables.accounts id) ∧
      (∀ id, id ∉ (bundle.sources.getD []).map (·.id) →
        Option.Rel (StaysOrWakes clock tables bundle) (findSource tables.sources id)
          (findSource tables'.sources id)) ∧
      tables'.leases = tables.leases := by
  obtain ⟨progress, written, haccounts, hsources, rfl⟩ := applyBundle_eq_ok h
  obtain ⟨-, hothers, -⟩ := importAccounts_settles _ haccountIds haccounts hkeyed.accountIds
  have hwakes (id : Uuid) := importAccounts_wakes tables id _
    (fun _ hmem => hmem) haccountIds haccounts hkeyed.accountIds (fun _ _ => rfl)
    (by cases findSource tables.sources id <;> constructor; exact .inl rfl)
  obtain ⟨hsourceKeys, hbookKeys⟩ := nodup_of_judged hkeyed (hwakes .nil).2.2
  obtain ⟨-, hsame, -⟩ := importSources_settles _ hids hsources hsourceKeys hbookKeys
  refine ⟨hothers, fun id hid => ?_, (hwakes .nil).2.1⟩
  rw [hsame id hid]
  exact (hwakes id).1

end Keyed

/-! ## Importing an export -/

theorem Describes.feedVisibleChanged {source : PortableSource} {row : SourceRow}
    (h : Describes source row) : feedVisibleChanged row source = false := by
  simp [ConfigTransfer.feedVisibleChanged, h.bookId, h.displayName, h.articleUrl, h.rssItemLimit]

/-- **A record that describes its row keeps its portable columns.** -/
theorem Describes.keepsPortable {source : PortableSource} {row : SourceRow}
    (h : Describes source row) (clock written : DateTime) (accounts : List AccountRow) :
    KeepsPortable accounts row (importedRow written source
      (resolvedAccountId (accountState clock accounts) source)
      ((resolvedAccountId (accountState clock accounts) source).bind (accountState clock accounts))
      row row) where
  id := rfl
  bookId := h.bookId
  displayName := h.displayName
  articleUrl := h.articleUrl
  accountId := by
    simp only [importedRow, resolvedAccountId, h.accountId]
    cases haccount : row.accountId with
    | none => exact .inl rfl
    | some id =>
      cases hfind : findAccount accounts id with
      | none =>
        refine .inr ⟨?_, ?_⟩
        · simp [accountState, hfind]
        · intro other hother
          obtain rfl := Option.some.inj hother
          exact hfind
      | some account =>
        refine .inl ?_
        simp [accountState, hfind]
  enabled := h.enabled
  syncInterval := h.syncInterval
  rssItemLimit := h.rssItemLimit
  priority := h.priority
  maxAttempts := h.maxAttempts
  feedRevision := by
    simp only [importedRow, h.feedVisibleChanged, Bool.false_eq_true, if_false]

/-- **Tables whose portable columns are as their writers check them**, and hold no NUL. -/
structure IsWritten (Url : Type) [UrlCrate Url] [LawfulUrlCrate Url] (tables : AccountTables) :
    Prop where
  source : ∀ row ∈ tables.sources, ∀ source, portableSource row = .ok source →
    source.IsValid Url ∧ IsStorableSource source
  account : ∀ row ∈ tables.accounts, (portableAccount row).IsValid ∧
    '\x00' ∉ row.displayName.toList

section Export

variable [Collation] [SerdeJsonCrate]

omit [Collation] [SerdeJsonCrate] in
theorem selectSection_eq_ok {A : Type} {selected : Bool}
    {exported : Except ConfigTransferRepositoryError A} {sectionOf : Option A}
    (h : selectSection selected exported = .ok sectionOf) :
    (∀ value ∈ sectionOf, exported = .ok value) ∧ (selected = true → sectionOf.isSome = true) := by
  unfold selectSection at h
  cases selected with
  | false =>
    obtain rfl := Except.ok.inj h
    exact ⟨fun _ hvalue => (nomatch hvalue), fun hselected => (nomatch hselected)⟩
  | true =>
    cases exported with
    | error e => cases h
    | ok value =>
      obtain rfl := Except.ok.inj h
      exact ⟨fun other hother => by rw [Option.some.inj hother], fun _ => rfl⟩

/-- **What an export that fits the limits holds.** -/
theorem exportBundle_eq_ok {tables : AccountTables} {selection : ConfigExportSelection}
    {now : DateTime} {wire : WireConfigBundle} (h : exportBundle tables selection now = .ok wire) :
    wire.format = configBundleFormat ∧ wire.version = configBundleVersion ∧
      (wire.sources.isSome ∨ wire.wereadAccounts.isSome) ∧
      (∀ sources ∈ wire.sources, exportSources tables.sources = .ok sources) ∧
      (∀ accounts ∈ wire.wereadAccounts, exportAccounts tables.accounts = .ok accounts) ∧
      ∃ bytes, serializeLimited wire = .ok bytes := by
  unfold exportBundle at h
  split_ifs at h with hempty
  obtain ⟨sources, hsources, h⟩ := bind_eq_ok h
  obtain ⟨accounts, haccounts, h⟩ := bind_eq_ok h
  simp only at h
  split at h
  · cases h
  · rename_i bytes hbytes
    obtain rfl := Except.ok.inj h
    obtain ⟨hsources, hselected⟩ := selectSection_eq_ok hsources
    obtain ⟨haccounts, hselected'⟩ := selectSection_eq_ok haccounts
    refine ⟨rfl, rfl, ?_, hsources, haccounts, bytes, hbytes⟩
    rcases Bool.eq_false_or_eq_true selection.sources with hfirst | hfirst
    · exact .inl (hselected hfirst)
    · refine .inr (hselected' ?_)
      rcases Bool.eq_false_or_eq_true selection.wereadAccounts with hsecond | hsecond
      · exact hsecond
      · exact absurd ⟨hfirst, hsecond⟩ hempty

omit [SerdeJsonCrate] in
/-- The records of an exported section describe the rows of their ids. -/
theorem exportSources_describes {sources : List SourceRow} {portable : List PortableSource}
    (h : exportSources sources = .ok portable) (hids : (sources.map (·.id)).Nodup)
    (hbooks : (sources.map (·.bookId)).Nodup) :
    (portable.map (·.id)).Nodup ∧ (portable.map (·.bookId)).Nodup ∧
      ∀ source ∈ portable, ∃ row ∈ sources, portableSource row = .ok source ∧
        findSource sources source.id = some row := by
  obtain ⟨rows, hperm, hrows⟩ := exportSources_eq_ok h
  have hcolumns : portable.map (·.id) = rows.map (·.id) ∧
      portable.map (·.bookId) = rows.map (·.bookId) ∧
      ∀ source ∈ portable, ∃ row ∈ rows, portableSource row = .ok source := by
    clear hperm h
    induction hrows with
    | nil => simp
    | cons hfirst _ ih =>
      obtain ⟨hid, hbook, hmem⟩ := ih
      have hdescribes := portableSource_describes hfirst
      refine ⟨?_, ?_, List.forall_mem_cons.mpr ⟨⟨_, List.mem_cons_self .., hfirst⟩, ?_⟩⟩
      · rw [List.map_cons, List.map_cons, hid, hdescribes.id]
      · rw [List.map_cons, List.map_cons, hbook, hdescribes.bookId]
      · intro source hsource
        obtain ⟨row, hrow, hportable⟩ := hmem source hsource
        exact ⟨row, List.mem_cons_of_mem _ hrow, hportable⟩
  obtain ⟨hid, hbook, hmem⟩ := hcolumns
  refine ⟨?_, ?_, fun source hsource => ?_⟩
  · rw [hid]
    exact (hperm.map _).nodup_iff.mpr hids
  · rw [hbook]
    exact (hperm.map _).nodup_iff.mpr hbooks
  · obtain ⟨row, hrow, hportable⟩ := hmem source hsource
    refine ⟨row, hperm.mem_iff.mp hrow, hportable, ?_⟩
    rw [(portableSource_describes hportable).id]
    exact Rows.get_of_mem hids (hperm.mem_iff.mp hrow)

omit [SerdeJsonCrate] in
theorem exportAccounts_describes {accounts : List AccountRow}
    {portable : List PortableWeReadAccount} (h : exportAccounts accounts = .ok portable)
    (hids : (accounts.map (·.accountId)).Nodup) :
    (portable.map (·.accountId)).Nodup ∧
      ∀ account ∈ portable, ∃ row ∈ accounts, account = portableAccount row ∧
        IsSettledAccount accounts account := by
  have hperm := exportAccounts_eq_ok h
  constructor
  · refine (hperm.map _).nodup_iff.mpr ?_
    rwa [List.map_map]
  · intro account haccount
    obtain ⟨row, hrow, rfl⟩ := List.mem_map.mp (hperm.mem_iff.mp haccount)
    refine ⟨row, hrow, rfl, row, Rows.get_of_mem hids hrow, rfl, ?_⟩
    exact (Bool.not_not _).symm

/-- **The export of written tables is a valid bundle.** -/
theorem exportBundle_isValid {Url : Type} [UrlCrate Url] [LawfulUrlCrate Url]
    {tables : AccountTables} (hkeyed : IsKeyed tables) (hwritten : IsWritten Url tables)
    {selection : ConfigExportSelection} {now : DateTime} {wire : WireConfigBundle}
    (h : exportBundle tables selection now = .ok wire) : wire.toConfigBundle.IsValid Url := by
  obtain ⟨-, -, -, hsources, haccounts, -⟩ := exportBundle_eq_ok h
  have hsource (sources : List PortableSource) (hsection : sources ∈ wire.sources) :=
    exportSources_describes (hsources sources hsection) hkeyed.sourceIds hkeyed.bookIds
  have haccount (accounts : List PortableWeReadAccount)
      (hsection : accounts ∈ wire.wereadAccounts) :=
    exportAccounts_describes (haccounts accounts hsection) hkeyed.accountIds
  refine ⟨fun sources hsection source hmem => ?_, fun sources hsection => (hsource _ hsection).1,
    fun sources hsection => (hsource _ hsection).2.1, fun accounts hsection account hmem => ?_,
    fun accounts hsection => (haccount _ hsection).1⟩
  · obtain ⟨row, hrow, hportable, -⟩ := (hsource sources hsection).2.2 source hmem
    exact (hwritten.source row hrow source hportable).1
  · obtain ⟨row, hrow, rfl, -⟩ := (haccount accounts hsection).2 account hmem
    exact (hwritten.account row hrow).1

/-- **The exported bytes are read back as the exported bundle.** -/
theorem parseLimited_export {Url : Type} [UrlCrate Url] [LawfulUrlCrate Url]
    {tables : AccountTables} (hkeyed : IsKeyed tables) (hwritten : IsWritten Url tables)
    {selection : ConfigExportSelection} {now : DateTime} {wire : WireConfigBundle}
    {bytes : List UInt8} (h : exportBundle tables selection now = .ok wire)
    (hbytes : serializeLimited wire = .ok bytes)
    (hcodec : SerdeJsonCrate.fromSlice bytes = .ok wire) : parseLimited Url bytes = .ok wire := by
  obtain ⟨hformat, hversion, hpresent, -⟩ := exportBundle_eq_ok h
  obtain ⟨-, -, -, hsize⟩ := serializeLimited_eq_ok hbytes
  rw [parseLimited, if_neg (not_lt.mpr hsize), hcodec]
  exact tryFrom_of_isValid (exportBundle_isValid hkeyed hwritten h) hformat hversion hpresent hbytes

/-- **Importing an export into the tables it is of** keeps accounts, portable columns and feed
revisions. -/
theorem applyBundle_export {Url : Type} [UrlCrate Url] [LawfulUrlCrate Url]
    {tables : AccountTables} (hkeyed : IsKeyed tables) (hwritten : IsWritten Url tables)
    {selection : ConfigExportSelection} {now : DateTime} {wire : WireConfigBundle}
    (h : exportBundle tables selection now = .ok wire) (clock : ImportClock) :
    ∃ result tables', applyBundle clock tables wire.toConfigBundle = (.ok result, tables') ∧
      tables'.accounts = tables.accounts ∧
      List.Forall₂ (KeepsPortable tables.accounts) tables.sources tables'.sources := by
  obtain ⟨-, -, -, hsources, haccounts, -⟩ := exportBundle_eq_ok h
  obtain ⟨hids, -, -⟩ := (exportBundle_isValid hkeyed hwritten h).nodup
  have hsettled : ∀ account ∈ wire.wereadAccounts.getD [],
      '\x00' ∉ account.displayName.toList ∧ IsSettledAccount tables.accounts account := by
    intro account hmem
    cases hsection : wire.wereadAccounts with
    | none =>
      rw [hsection] at hmem
      cases hmem
    | some accounts =>
      rw [hsection] at hmem
      obtain ⟨row, hrow, rfl, hdescribed⟩ := (exportAccounts_describes
        (haccounts accounts hsection) hkeyed.accountIds).2 account hmem
      exact ⟨(hwritten.account row hrow).2, hdescribed⟩
  have hdescribed : ∀ source ∈ wire.sources.getD [], IsStorableSource source ∧
      ∃ row, findSource tables.sources source.id = some row ∧ Describes source row := by
    intro source hmem
    cases hsection : wire.sources with
    | none =>
      rw [hsection] at hmem
      cases hmem
    | some sources =>
      rw [hsection] at hmem
      obtain ⟨row, hrow, hportable, hfind⟩ := (exportSources_describes
        (hsources sources hsection) hkeyed.sourceIds hkeyed.bookIds).2.2 source hmem
      exact ⟨(hwritten.source row hrow source hportable).2, row, hfind,
        portableSource_describes hportable⟩
  obtain ⟨result₁, hfirst⟩ := importAccounts_of_settled clock _ {} tables hkeyed.accountIds hsettled
  obtain ⟨result₂, final, hfinal, hkeeps⟩ := importSources_of_described clock
    (accountState clock.states tables.accounts) (P := Describes)
    (R := KeepsPortable tables.accounts) (KeepsPortable.refl _) KeepsPortable.trans
    (fun _ _ => Describes.feedVisibleChanged)
    (fun _ _ hrow => hrow.keepsPortable _ _ _) (wire.sources.getD []) hids
    (fun source hmem => (hdescribed source hmem).1) result₁ hkeyed.sourceIds
    hkeyed.bookIds fun source hmem => (hdescribed source hmem).2
  exact ⟨_, _, applyBundle_of_ok hfirst hfinal, rfl, hkeeps⟩

/-- **An import is atomic, a second one changes nothing, and an export imports into itself**, but for
the bindings to accounts that do not exist. -/
theorem import_laws {Url : Type} [UrlCrate Url] [LawfulUrlCrate Url] {tables : AccountTables}
    (hkeyed : IsKeyed tables) :
    (∀ (validated : ValidatedConfigBundle Url) clock e tables',
      applyBundle clock tables validated.bundle.toConfigBundle = (.error e, tables') →
        tables' = tables) ∧
      (∀ (validated : ValidatedConfigBundle Url) clock clock' result tables',
        applyBundle clock tables validated.bundle.toConfigBundle = (.ok result, tables') →
        (∀ id, accountState clock'.states tables'.accounts id
          = accountState clock.states tables'.accounts id) →
        ∃ result' tables'',
          applyBundle clock' tables' validated.bundle.toConfigBundle = (.ok result', tables'') ∧
          tables''.accounts = tables'.accounts ∧ tables''.leases = tables'.leases ∧
          List.Forall₂ SameButUpdatedAt tables'.sources tables''.sources) ∧
      (∀ (validated : ValidatedConfigBundle Url) clock result tables',
        let bundle := validated.bundle.toConfigBundle
        applyBundle clock tables bundle = (.ok result, tables') →
        (∀ id, id ∉ (bundle.wereadAccounts.getD []).map (·.accountId) →
            findAccount tables'.accounts id = findAccount tables.accounts id) ∧
          (∀ id, id ∉ (bundle.sources.getD []).map (·.id) →
            Option.Rel (StaysOrWakes clock tables bundle) (findSource tables.sources id)
              (findSource tables'.sources id)) ∧
          tables'.leases = tables.leases) ∧
      (∀ selection now wire bytes, IsWritten Url tables →
        exportBundle tables selection now = .ok wire → serializeLimited wire = .ok bytes →
        SerdeJsonCrate.fromSlice bytes = .ok wire →
        parseLimited Url bytes = .ok wire ∧
          ∀ clock, ∃ result tables',
            applyBundle clock tables wire.toConfigBundle = (.ok result, tables') ∧
            tables'.accounts = tables.accounts ∧
            List.Forall₂ (KeepsPortable tables.accounts) tables.sources tables'.sources) := by
  refine ⟨fun _ _ _ _ => applyBundle_error, fun validated _ _ _ _ h husable => ?_,
    fun validated _ _ _ h => ?_, fun _ _ _ _ hwritten h hbytes hcodec => ?_⟩
  · obtain ⟨hids, -, haccountIds⟩ := validated.isValid.nodup
    exact applyBundle_again hkeyed hids haccountIds h husable
  · obtain ⟨hids, -, haccountIds⟩ := validated.isValid.nodup
    exact applyBundle_others hkeyed hids haccountIds h
  · exact ⟨parseLimited_export hkeyed hwritten h hbytes hcodec,
      applyBundle_export hkeyed hwritten h⟩

end Export

/-! ## Two exports -/

/-- Names in the order of their code points. -/
@[reducible] def codePointOrder : Collation := ⟨fun a b => decide (a.toList ≤ b.toList)⟩

attribute [local instance] codePointOrder

/-- What an export of `renameTables` holds. -/
def exportSections : ConfigBundle := ⟨some [plainRecord 1 "mp_1", plainRecord 2 "mp_2"], none⟩

@[reducible] def exportCodec : SerdeJsonCrate := plainCodec exportSections

attribute [local instance] exportCodec

def exportWire : WireConfigBundle := WireConfigBundle.new 0 exportSections.sources none

/-- The bundle, as validated. -/
def exportedBundle : ValidatedConfigBundle PlainUrl where
  bundle := exportWire
  checked := ⟨exportWire, by decide +kernel⟩

/-- Tables without accounts, whose sources validation accepts one by one. -/
theorem isWritten_of_checked {tables : AccountTables} (haccounts : tables.accounts = [])
    (hsources : ∀ row ∈ tables.sources, ∃ source, portableSource row = .ok source ∧
      checkSource PlainUrl [] [] source = .ok source ∧
        ∀ text ∈ source.bookId :: source.displayName :: source.articleUrl.toList,
          '\x00' ∉ text.toList) : IsWritten PlainUrl tables := by
  refine ⟨fun row hrow source hportable => ?_, fun row hrow => ?_⟩
  · obtain ⟨other, hother, hchecked, hstorable⟩ := hsources row hrow
    obtain rfl := Except.ok.inj (hportable.symm.trans hother)
    exact ⟨(checkSource_eq_ok hchecked).1, hstorable⟩
  · rw [haccounts] at hrow
    cases hrow

theorem renameTables_isWritten : IsWritten PlainUrl renameTables := by
  refine isWritten_of_checked rfl fun row hrow => ?_
  rcases List.mem_cons.mp hrow with rfl | hrow
  · exact ⟨plainRecord 1 "mp_1", by decide +kernel, by decide +kernel, by decide +kernel⟩
  · obtain rfl := List.mem_singleton.mp hrow
    exact ⟨plainRecord 2 "mp_2", by decide +kernel, by decide +kernel, by decide +kernel⟩

/-- The sources of `renameTables` after an import of their export at 10. -/
def importedAt10 : AccountTables :=
  { renameTables with sources := renameTables.sources.map fun row => { row with updatedAt := 10 } }

theorem import_laws_export :
    (∃ result' tables'',
        applyBundle (.constant 20) importedAt10 exportWire.toConfigBundle = (.ok result', tables'') ∧
        tables''.accounts = importedAt10.accounts ∧ tables''.leases = importedAt10.leases ∧
        List.Forall₂ SameButUpdatedAt importedAt10.sources tables''.sources) ∧
      parseLimited PlainUrl (jsonBytes exportSections) = .ok exportWire := by
  have hlaws := @import_laws _ _ PlainUrl _ _ _ renameTables_isKeyed
  have hfirst : applyBundle (.constant 10) renameTables exportedBundle.bundle.toConfigBundle
      = (.ok { sourcesUpdated := 2 }, importedAt10) := by decide +kernel
  exact ⟨hlaws.2.1 exportedBundle (.constant 10) (.constant 20) _ _ hfirst fun _ => rfl,
    (hlaws.2.2.2 ⟨true, false⟩ 0 exportWire (jsonBytes exportSections) renameTables_isWritten
      (by decide +kernel) (by decide +kernel) (by decide +kernel)).1⟩

/-- A source bound to an account that has been deleted. -/
def danglingTables : AccountTables :=
  { accounts := [], leases := [], sources := [{ plainSource 1 "mp_1" with accountId := some ⟨7⟩ }] }

/-- What an export of `danglingTables` holds. -/
def danglingWire : WireConfigBundle :=
  WireConfigBundle.new 0 (some [{ plainRecord 1 "mp_1" with accountId := some ⟨7⟩ }]) none

/-- **The export of a dangling binding is imported without it.** -/
theorem import_clears_dangling :
    IsKeyed danglingTables ∧ IsWritten PlainUrl danglingTables ∧
      exportBundle danglingTables ⟨true, false⟩ 0 = .ok danglingWire ∧
      (applyBundle (.constant 10) danglingTables danglingWire.toConfigBundle).1
        = .ok { sourcesUpdated := 1, accountBindingsCleared := 1 } ∧
      danglingTables.sources.map (·.accountId) = [some ⟨7⟩] ∧
      (applyBundle (.constant 10) danglingTables danglingWire.toConfigBundle).2.sources.map
        (·.accountId) = [none] := by
  refine ⟨⟨by decide, by decide, by decide⟩, isWritten_of_checked rfl fun row hrow => ?_,
    by decide +kernel, by decide +kernel, rfl, by decide +kernel⟩
  obtain rfl := List.mem_singleton.mp hrow
  exact ⟨{ plainRecord 1 "mp_1" with accountId := some ⟨7⟩ }, by decide +kernel, by decide +kernel,
    by decide +kernel⟩

end ConfigTransfer

end Werrss
