import Werrss.Persistence.ImportPreview

/-!
# Persistence/SourceEdits — the source aggregate, and partial edits of it

    NewSource ──new──▸ Source ──apply_patch──▸ Source        a row ──decode──▸ Source
      trims             omitted fields read back and trimmed     nothing trimmed

An edit puts the fields it names, and the ones it omits, through the same normalisation.  So **an
edit is exact just when the fields it omits are in normal form**, which every writer of a row sees
to except the import, for the display name.
-/

open Machinery

namespace Werrss

/-! ## The aggregate -/

/-- The `SourceError`s of `validate`, of row decoding and of the revision; those of an article URL
are kept as they are. -/
inductive SourceEditError
  | invalidId | emptyBookId | emptyDisplayName | invalidSyncInterval | invalidRssItemLimit
  | invalidMaxAttempts | invalidAccountId | invalidRevision | feedRevisionExhausted
  | url (error : SourceError)
deriving DecidableEq, Repr

section Aggregate

variable (Url : Type) [UrlCrate Url]

/-- `NewSource`. -/
structure NewSource where
  id : Uuid
  bookId : String
  displayName : String
  articleUrl : Option (VerifiedWechatArticleUrl Url)
  enabled : Bool
  syncInterval : Duration
  rssItemLimit : UInt32
  accountId : Option Uuid
  schedulingGate : SchedulingGate
  nextFetchAt : DateTime
  priority : ℤ
  maxAttempts : UInt32
deriving DecidableEq

/-- `domain::Source`, with all of its fields; intervals are counted in nanoseconds. -/
structure SourceAggregate extends NewSource Url where
  feedRevision : ℕ
  failureCooldownUntil : Option DateTime
  scheduleReservedUntil : Option DateTime
deriving DecidableEq

/-- `SourceUpdate`. -/
structure SourceUpdate where
  bookId : String
  displayName : String
  articleUrl : Option (VerifiedWechatArticleUrl Url)
  syncInterval : Duration
  rssItemLimit : UInt32
  accountId : Option Uuid
  priority : ℤ
  maxAttempts : UInt32

variable {Url}

/-- `SourcePatch::default`: nothing is named. -/
def SourcePatch.empty : SourcePatch Url := ⟨none, none, none, none, none, none, none, none⟩

namespace SourceAggregate

/-- `validate`. -/
def validate (self : SourceAggregate Url) : Except SourceEditError Unit :=
  if self.id = .nil then .error .invalidId
  else if self.bookId = "" then .error .emptyBookId
  else if self.displayName = "" then .error .emptyDisplayName
  else if self.syncInterval ≤ 0 then .error .invalidSyncInterval
  else if self.syncInterval % 1000000000 ≠ 0 then .error .invalidSyncInterval
  else if self.rssItemLimit = 0 then .error .invalidRssItemLimit
  else if self.maxAttempts = 0 then .error .invalidMaxAttempts
  else if self.accountId = some .nil then .error .invalidAccountId
  else .ok ()

/-- `new`. -/
def new (spec : NewSource Url) : Except SourceEditError (SourceAggregate Url) :=
  let source : SourceAggregate Url :=
    { spec with
      bookId := trim spec.bookId
      displayName := trim spec.displayName
      feedRevision := 0
      failureCooldownUntil := none
      scheduleReservedUntil := none }
  match source.validate with
  | .error e => .error e
  | .ok () => .ok source

/-- `from_parts`. -/
def fromParts (parts : SourceAggregate Url) : Except SourceEditError (SourceAggregate Url) :=
  match parts.validate with
  | .error e => .error e
  | .ok () => .ok parts

/-- `advance_feed_revision`. -/
def advanceFeedRevision (self : SourceAggregate Url) :
    Except SourceEditError (SourceAggregate Url) :=
  if self.feedRevision < u64Max then .ok { self with feedRevision := self.feedRevision + 1 }
  else .error .feedRevisionExhausted

/-- The fields by which the rendered feed can change. -/
def feedVisibleChange (updated self : SourceAggregate Url) : Bool :=
  decide (updated.bookId ≠ self.bookId ∨ updated.displayName ≠ self.displayName
    ∨ updated.articleUrl ≠ self.articleUrl ∨ updated.rssItemLimit ≠ self.rssItemLimit)

/-- The fields of an update, in normal form. -/
def overwritten (self : SourceAggregate Url) (update : SourceUpdate Url) : SourceAggregate Url :=
  { self with
    bookId := trim update.bookId
    displayName := trim update.displayName
    articleUrl := update.articleUrl
    syncInterval := update.syncInterval
    rssItemLimit := update.rssItemLimit
    accountId := update.accountId
    priority := update.priority
    maxAttempts := update.maxAttempts }

/-- `apply_update`. -/
def applyUpdate (self : SourceAggregate Url) (update : SourceUpdate Url) :
    Except SourceEditError (SourceAggregate Url) :=
  let updated := self.overwritten update
  match updated.validate with
  | .error e => .error e
  | .ok () =>
    if feedVisibleChange updated self then updated.advanceFeedRevision
    else .ok updated

/-- `apply_patch`. -/
def applyPatch (self : SourceAggregate Url) (patch : SourcePatch Url) :
    Except SourceEditError (SourceAggregate Url) :=
  self.applyUpdate
    { bookId := patch.bookId.getD self.bookId
      displayName := patch.displayName.getD self.displayName
      articleUrl := patch.articleUrl.getD self.articleUrl
      syncInterval := patch.syncInterval.getD self.syncInterval
      rssItemLimit := patch.rssItemLimit.getD self.rssItemLimit
      accountId := patch.accountId.getD self.accountId
      priority := patch.priority.getD self.priority
      maxAttempts := patch.maxAttempts.getD self.maxAttempts }

end SourceAggregate

/-! ## What an edit should do -/

/-- The named fields are valid. -/
structure SourcePatch.IsValid (patch : SourcePatch Url) : Prop where
  bookId : ∀ value ∈ patch.bookId, trim value ≠ ""
  displayName : ∀ value ∈ patch.displayName, trim value ≠ ""
  syncInterval : ∀ value ∈ patch.syncInterval, 0 < value ∧ value % 1000000000 = 0
  rssItemLimit : ∀ value ∈ patch.rssItemLimit, value ≠ 0
  accountId : ∀ value ∈ patch.accountId, value ≠ some .nil
  maxAttempts : ∀ value ∈ patch.maxAttempts, value ≠ 0

namespace SourceAggregate

/-- The named fields replaced, the texts trimmed, and nothing else. -/
def withNamed (self : SourceAggregate Url) (patch : SourcePatch Url) : SourceAggregate Url :=
  { self with
    bookId := (patch.bookId.map trim).getD self.bookId
    displayName := (patch.displayName.map trim).getD self.displayName
    articleUrl := patch.articleUrl.getD self.articleUrl
    syncInterval := patch.syncInterval.getD self.syncInterval
    rssItemLimit := patch.rssItemLimit.getD self.rssItemLimit
    accountId := patch.accountId.getD self.accountId
    priority := patch.priority.getD self.priority
    maxAttempts := patch.maxAttempts.getD self.maxAttempts }

/-- The edit, with the revision of the feed: advanced just when a rendered field differs. -/
def edited (self : SourceAggregate Url) (patch : SourcePatch Url) : SourceAggregate Url :=
  { self.withNamed patch with
    feedRevision :=
      if feedVisibleChange (self.withNamed patch) self then self.feedRevision + 1
      else self.feedRevision }

/-- **An edit is exact**: it does what it names, repeats without effect, and fails only for a named
value or an exhausted revision. -/
def EditExact (self : SourceAggregate Url) (patch : SourcePatch Url) : Prop :=
  (∀ source, self.applyPatch patch = .ok source →
    source = self.edited patch ∧ source.applyPatch patch = .ok source) ∧
  ((∃ e, self.applyPatch patch = .error e) ↔
    ¬ patch.IsValid ∨
      (feedVisibleChange (self.withNamed patch) self = true ∧ u64Max ≤ self.feedRevision))

/-! ## Normal forms -/

/-- What `validate` accepts. -/
structure IsValid (source : SourceAggregate Url) : Prop where
  id : source.id ≠ .nil
  bookId : source.bookId ≠ ""
  displayName : source.displayName ≠ ""
  syncInterval : 0 < source.syncInterval ∧ source.syncInterval % 1000000000 = 0
  rssItemLimit : source.rssItemLimit ≠ 0
  maxAttempts : source.maxAttempts ≠ 0
  accountId : source.accountId ≠ some .nil

theorem validate_eq_ok (self : SourceAggregate Url) : self.validate = .ok () ↔ self.IsValid := by
  unfold validate
  split_ifs with h1 h2 h3 h4 h5 h6 h7 h8
  · exact ⟨nofun, fun h => absurd h1 h.id⟩
  · exact ⟨nofun, fun h => absurd h2 h.bookId⟩
  · exact ⟨nofun, fun h => absurd h3 h.displayName⟩
  · exact ⟨nofun, fun h => absurd h.syncInterval.1 (Int.not_lt.mpr h4)⟩
  · exact ⟨nofun, fun h => absurd h.syncInterval.2 h5⟩
  · exact ⟨nofun, fun h => absurd h6 h.rssItemLimit⟩
  · exact ⟨nofun, fun h => absurd h7 h.maxAttempts⟩
  · exact ⟨nofun, fun h => absurd h8 h.accountId⟩
  · exact ⟨fun _ => ⟨h1, h2, h3, ⟨Int.not_le.mp h4, not_not.mp h5⟩, h6, h7, h8⟩, fun _ => rfl⟩

/-- What `new` returns. -/
theorem new_eq_ok {spec : NewSource Url} {source : SourceAggregate Url}
    (h : new spec = .ok source) :
    source.IsValid ∧ trim source.bookId = source.bookId ∧
      trim source.displayName = source.displayName := by
  unfold new at h
  simp only at h
  split at h
  · exact nomatch h
  · rename_i hvalid
    obtain rfl := Except.ok.inj h
    exact ⟨(validate_eq_ok _).mp hvalid, trim_trim _, trim_trim _⟩

/-- What `apply_patch` returns: the update, with the revision advanced or not. -/
theorem applyPatch_eq_ok {self source : SourceAggregate Url} {patch : SourcePatch Url}
    (h : self.applyPatch patch = .ok source) :
    source.IsValid ∧ trim source.bookId = source.bookId ∧
      trim source.displayName = source.displayName := by
  unfold applyPatch applyUpdate at h
  simp only at h
  split at h
  · exact nomatch h
  · rename_i hvalid
    have hvalid := (validate_eq_ok _).mp hvalid
    have htrim : ∀ updated : SourceAggregate Url, updated.IsValid →
        trim updated.bookId = updated.bookId → trim updated.displayName = updated.displayName →
        ∀ source, (if feedVisibleChange updated self then updated.advanceFeedRevision
          else .ok updated) = .ok source →
        source.IsValid ∧ trim source.bookId = source.bookId ∧
          trim source.displayName = source.displayName := by
      intro updated hvalid hbook hname source h
      unfold advanceFeedRevision at h
      split_ifs at h
      · obtain rfl := Except.ok.inj h
        exact ⟨⟨hvalid.id, hvalid.bookId, hvalid.displayName, hvalid.syncInterval,
          hvalid.rssItemLimit, hvalid.maxAttempts, hvalid.accountId⟩, hbook, hname⟩
      · obtain rfl := Except.ok.inj h
        exact ⟨hvalid, hbook, hname⟩
    exact htrim _ hvalid (trim_trim _) (trim_trim _) _ h

/-- **`apply_patch` of a source in normal form.** -/
theorem applyPatch_of_trimmed {self : SourceAggregate Url} (hbook : trim self.bookId = self.bookId)
    (hname : trim self.displayName = self.displayName) (patch : SourcePatch Url) :
    self.applyPatch patch =
      match (self.withNamed patch).validate with
      | .error e => .error e
      | .ok () =>
        if feedVisibleChange (self.withNamed patch) self then
          (self.withNamed patch).advanceFeedRevision
        else .ok (self.withNamed patch) := by
  have hgetD : ∀ (named : Option String) (text : String), trim text = text →
      trim (named.getD text) = (named.map trim).getD text := by
    intro named text htext
    rcases named with _ | named
    · exact htext
    · rfl
  unfold applyPatch applyUpdate overwritten withNamed
  simp only [hgetD _ _ hbook, hgetD _ _ hname]

/-- A field is fine just when the value that is named for it is. -/
theorem forall_named {A : Type} {P : A → Prop} {value : A} (hvalue : P value) (named : Option A) :
    P (named.getD value) ↔ ∀ v ∈ named, P v := by
  rcases named with _ | named
  · exact ⟨fun _ => nofun, fun _ => hvalue⟩
  · exact ⟨fun h v hv => Option.mem_some.mp hv ▸ h, fun h => h named rfl⟩

theorem forall_trimmed {text : String} (htext : text ≠ "") (named : Option String) :
    (named.map trim).getD text ≠ "" ↔ ∀ v ∈ named, trim v ≠ "" := by
  rcases named with _ | named
  · exact ⟨fun _ => nofun, fun _ => htext⟩
  · exact ⟨fun h v hv => Option.mem_some.mp hv ▸ h, fun h => h named rfl⟩

/-- The patched source is valid just when the named fields are. -/
theorem isValid_withNamed {self : SourceAggregate Url} (h : self.IsValid)
    (patch : SourcePatch Url) : (self.withNamed patch).IsValid ↔ patch.IsValid := by
  have hbook := forall_trimmed h.bookId patch.bookId
  have hname := forall_trimmed h.displayName patch.displayName
  have hinterval := forall_named (P := fun v => 0 < v ∧ v % 1000000000 = 0) h.syncInterval
    patch.syncInterval
  have hlimit := forall_named (P := fun v => v ≠ 0) h.rssItemLimit patch.rssItemLimit
  have haccount := forall_named (P := fun v => v ≠ some .nil) h.accountId patch.accountId
  have hattempts := forall_named (P := fun v => v ≠ 0) h.maxAttempts patch.maxAttempts
  constructor
  · intro hnamed
    exact ⟨hbook.mp hnamed.bookId, hname.mp hnamed.displayName, hinterval.mp hnamed.syncInterval,
      hlimit.mp hnamed.rssItemLimit, haccount.mp hnamed.accountId,
      hattempts.mp hnamed.maxAttempts⟩
  · intro hpatch
    exact ⟨h.id, hbook.mpr hpatch.bookId, hname.mpr hpatch.displayName,
      hinterval.mpr hpatch.syncInterval, hlimit.mpr hpatch.rssItemLimit,
      hattempts.mpr hpatch.maxAttempts, haccount.mpr hpatch.accountId⟩

/-- Naming the same fields again changes nothing. -/
theorem withNamed_edited (self : SourceAggregate Url) (patch : SourcePatch Url) :
    (self.edited patch).withNamed patch = self.edited patch := by
  have hgetD : ∀ {A : Type} (named : Option A) (value : A),
      named.getD (named.getD value) = named.getD value := by
    intro A named value
    rcases named with _ | named <;> rfl
  unfold edited withNamed
  simp only [hgetD]

theorem feedVisibleChange_self (self : SourceAggregate Url) :
    feedVisibleChange self self = false := by
  simp [feedVisibleChange]

/-- **Edits of a valid source in normal form are exact.** -/
theorem editExact_of_trimmed {self : SourceAggregate Url} (hvalid : self.IsValid)
    (hbook : trim self.bookId = self.bookId) (hname : trim self.displayName = self.displayName)
    (patch : SourcePatch Url) : self.EditExact patch := by
  have hpatched := applyPatch_of_trimmed hbook hname patch
  have hvalidate := isValid_withNamed hvalid patch
  rw [← validate_eq_ok] at hvalidate
  refine ⟨fun source happly => ?_, ?_⟩
  · have hsource : source = self.edited patch := by
      rw [hpatched] at happly
      unfold edited
      split at happly
      · exact nomatch happly
      · unfold advanceFeedRevision at happly
        split_ifs at happly ⊢
        · exact (Except.ok.inj happly).symm
        · exact (Except.ok.inj happly).symm
    obtain ⟨hvalid', hbook', hname'⟩ := applyPatch_eq_ok happly
    refine ⟨hsource, ?_⟩
    have hsame : source.withNamed patch = source := by rw [hsource, withNamed_edited]
    rw [applyPatch_of_trimmed hbook' hname', hsame, (validate_eq_ok source).mpr hvalid']
    simp only [feedVisibleChange_self, Bool.false_eq_true, if_false]
  · rw [hpatched]
    split
    · rename_i e herror
      have hinvalid : ¬ patch.IsValid := by rw [← hvalidate, herror]; exact nofun
      exact ⟨fun _ => .inl hinvalid, fun _ => ⟨e, rfl⟩⟩
    · rename_i hok
      have hpatch : patch.IsValid := hvalidate.mp hok
      unfold advanceFeedRevision
      have hkeeps : (self.withNamed patch).feedRevision = self.feedRevision := rfl
      split_ifs with hchange hlt
      · refine ⟨nofun, fun h => ?_⟩
        rcases h with hinvalid | ⟨-, hmax⟩
        · exact absurd hpatch hinvalid
        · rw [hkeeps] at hlt
          exact absurd hmax (Nat.not_le.mpr hlt)
      · rw [hkeeps] at hlt
        exact ⟨fun _ => .inr ⟨hchange, Nat.not_lt.mp hlt⟩, fun _ => ⟨_, rfl⟩⟩
      · refine ⟨nofun, fun h => ?_⟩
        rcases h with hinvalid | ⟨hchanged, -⟩
        · exact absurd hpatch hinvalid
        · exact absurd hchanged hchange

end SourceAggregate

end Aggregate

/-! ## Rows -/

namespace SourceRepository

variable (Url : Type) [UrlCrate Url] [LawfulUrlCrate Url]

/-- The article URL of a row, parsed. -/
def decodeUrl (articleUrl : Option String) :
    Except SourceEditError (Option (VerifiedWechatArticleUrl Url)) :=
  match articleUrl with
  | none => .ok none
  | some value =>
    match VerifiedWechatArticleUrl.parse value with
    | .error e => .error (.url e)
    | .ok url => .ok (some url)

/-- `decode_source`. -/
def decodeSource (row : SourceRow) : Except SourceEditError (SourceAggregate Url) :=
  if i64Max / 1000 < row.syncIntervalSeconds.natAbs then .error .invalidSyncInterval
  else if ¬ (0 ≤ row.rssItemLimit ∧ row.rssItemLimit < UInt32.size) then .error .invalidRssItemLimit
  else if ¬ (0 ≤ row.maxAttempts ∧ row.maxAttempts < UInt32.size) then .error .invalidMaxAttempts
  else if row.feedRevision < 0 then .error .invalidRevision
  else
    match decodeUrl Url row.articleUrl with
    | .error e => .error e
    | .ok articleUrl =>
      SourceAggregate.fromParts
        { id := row.id
          bookId := row.bookId
          displayName := row.displayName
          articleUrl := articleUrl
          enabled := row.enabled
          syncInterval := row.syncIntervalSeconds * 1000000000
          rssItemLimit := UInt32.ofNat row.rssItemLimit.toNat
          accountId := row.accountId
          schedulingGate := row.schedulingGate
          feedRevision := row.feedRevision.toNat
          nextFetchAt := row.nextFetchAt
          failureCooldownUntil := row.failureCooldownUntil
          scheduleReservedUntil := row.scheduleReservedUntil
          priority := row.priority
          maxAttempts := UInt32.ofNat row.maxAttempts.toNat }

variable {Url}

/-- The editable columns of a source, over a row. -/
def storeEditable (source : SourceAggregate Url) (row : SourceRow) : SourceRow :=
  { row with
    bookId := source.bookId
    displayName := source.displayName
    articleUrl := source.articleUrl.map (·.asStr)
    accountId := source.accountId
    feedRevision := source.feedRevision
    syncIntervalSeconds := source.syncInterval / 1000000000
    rssItemLimit := source.rssItemLimit.toNat
    priority := source.priority
    maxAttempts := source.maxAttempts.toNat }

/-- The row `insert` writes. -/
def insertedRow (source : SourceAggregate Url) (clock : DateTime) : SourceRow where
  id := source.id
  bookId := source.bookId
  displayName := source.displayName
  articleUrl := source.articleUrl.map (·.asStr)
  accountId := source.accountId
  feedRevision := 0
  enabled := source.enabled
  schedulingGate := source.schedulingGate
  syncIntervalSeconds := source.syncInterval / 1000000000
  rssItemLimit := source.rssItemLimit.toNat
  nextFetchAt := source.nextFetchAt
  failureCooldownUntil := none
  scheduleReservedUntil := none
  priority := source.priority
  maxAttempts := source.maxAttempts.toNat
  updatedAt := clock

end SourceRepository

open SourceRepository ConfigTransfer

section Edits

variable (Url : Type) [UrlCrate Url] [LawfulUrlCrate Url] [SerdeJsonCrate]

/-- **The rows of `sources`**: inserted, imported from a validated bundle, edited, and rewritten by
the statements that leave the editable fields alone. -/
inductive SourceRow.Written : SourceRow → Prop
  | inserted {spec : NewSource Url} {source : SourceAggregate Url}
      (hnew : SourceAggregate.new spec = .ok source) (clock : DateTime) :
      Written (insertedRow source clock)
  | created (validated : ValidatedConfigBundle Url) {source : PortableSource}
      (hmem : source ∈ validated.bundle.sources.getD []) (clock : DateTime) (known : Uuid → Bool)
      (accountUsable : Option Bool) :
      Written (createdRow clock source (source.accountId.filter known) accountUsable)
  | imported (validated : ValidatedConfigBundle Url) {source : PortableSource}
      (hmem : source ∈ validated.bundle.sources.getD []) (clock : DateTime) (known : Uuid → Bool)
      (accountUsable : Option Bool) {row : SourceRow} (hrow : Written row) :
      Written (importedRow clock source (source.accountId.filter known) accountUsable row row)
  | edited {row : SourceRow} (hrow : Written row) {source updated : SourceAggregate Url}
      (hdecode : decodeSource Url row = .ok source) (patch : SourcePatch Url)
      (happly : source.applyPatch patch = .ok updated) (clock : DateTime) :
      Written { storeEditable updated row with updatedAt := clock }
  | stated {row : SourceRow} (hrow : Written row) (feedRevision : ℤ) (enabled : Bool)
      (gate : SchedulingGate) (nextFetchAt : DateTime)
      (failureCooldownUntil scheduleReservedUntil : Option DateTime) (clock : DateTime) :
      Written
        { row with
          feedRevision := feedRevision
          enabled := enabled
          schedulingGate := gate
          nextFetchAt := nextFetchAt
          failureCooldownUntil := failureCooldownUntil
          scheduleReservedUntil := scheduleReservedUntil
          updatedAt := clock }

/-- **The sources**: created, read back from a row, and edited. -/
inductive SourceAggregate.Reachable : SourceAggregate Url → Prop
  | created {spec : NewSource Url} {source : SourceAggregate Url}
      (hnew : SourceAggregate.new spec = .ok source) : Reachable source
  | decoded {row : SourceRow} (hrow : row.Written Url) {source : SourceAggregate Url}
      (hdecode : decodeSource Url row = .ok source) : Reachable source
  | patched {source updated : SourceAggregate Url} (hsource : Reachable source)
      (patch : SourcePatch Url) (happly : source.applyPatch patch = .ok updated) :
      Reachable updated

variable {Url}

omit [SerdeJsonCrate] in
/-- What `decode_source` returns. -/
theorem SourceRepository.decodeSource_eq_ok {row : SourceRow} {source : SourceAggregate Url}
    (h : decodeSource Url row = .ok source) :
    source.IsValid ∧ source.bookId = row.bookId ∧ source.displayName = row.displayName := by
  unfold decodeSource at h
  split_ifs at h
  split at h
  · exact nomatch h
  · unfold SourceAggregate.fromParts at h
    split at h
    · exact nomatch h
    · rename_i hvalid
      obtain rfl := Except.ok.inj h
      exact ⟨(SourceAggregate.validate_eq_ok _).mp hvalid, rfl, rfl⟩

/-- **The book of every row is in normal form.** -/
theorem SourceRow.Written.trim_bookId {row : SourceRow} (h : row.Written Url) :
    trim row.bookId = row.bookId := by
  have hportable : ∀ (validated : ValidatedConfigBundle Url) {source : PortableSource},
      source ∈ validated.bundle.sources.getD [] → trim source.bookId = source.bookId := by
    intro validated source hmem
    rcases hsources : validated.bundle.sources with _ | sources
    · rw [hsources] at hmem
      exact nomatch hmem
    · rw [hsources] at hmem
      exact (validated.isValid.source sources hsources source hmem).bookId.2
  induction h with
  | inserted hnew clock => exact (SourceAggregate.new_eq_ok hnew).2.1
  | created validated hmem => exact hportable validated hmem
  | imported validated hmem => exact hportable validated hmem
  | edited _ _ _ happly => exact (SourceAggregate.applyPatch_eq_ok happly).2.1
  | stated _ _ _ _ _ _ _ _ ih => exact ih

namespace SourceAggregate

/-- **Every source is valid, and its book in normal form.** -/
theorem Reachable.normal {source : SourceAggregate Url} (h : source.Reachable Url) :
    source.IsValid ∧ trim source.bookId = source.bookId := by
  rcases h with hnew | ⟨hrow, hdecode⟩ | ⟨-, patch, happly⟩
  · obtain ⟨hvalid, hbook, -⟩ := new_eq_ok hnew
    exact ⟨hvalid, hbook⟩
  · obtain ⟨hvalid, hbook, -⟩ := decodeSource_eq_ok hdecode
    exact ⟨hvalid, by rw [hbook, hrow.trim_bookId]⟩
  · obtain ⟨hvalid, hbook, -⟩ := applyPatch_eq_ok happly
    exact ⟨hvalid, hbook⟩

/-- **Edits of a source are exact just when its display name is in normal form**: they are exact for
every patch, and the empty patch changes nothing. -/
theorem edits_exact_iff {source : SourceAggregate Url} (h : source.Reachable Url) :
    ((∀ patch, source.EditExact patch) ∧ source.applyPatch .empty = .ok source) ↔
      trim source.displayName = source.displayName := by
  obtain ⟨hvalid, hbook⟩ := h.normal
  constructor
  · intro hexact
    exact (applyPatch_eq_ok hexact.2).2.2
  · intro hname
    refine ⟨editExact_of_trimmed hvalid hbook hname, ?_⟩
    have hempty : source.withNamed .empty = source := rfl
    rw [applyPatch_of_trimmed hbook hname, hempty, (validate_eq_ok source).mpr hvalid]
    simp only [feedVisibleChange_self, Bool.false_eq_true, if_false]

end SourceAggregate

end Edits

/-! ## The columns of an edited source -/

section Columns

variable {Url : Type} [UrlCrate Url] [LawfulUrlCrate Url]

/-- A canonical article URL decodes to itself. -/
theorem SourceRepository.map_asStr_decodeUrl {articleUrl : Option String}
    {url : Option (VerifiedWechatArticleUrl Url)}
    (hcanonical : ∀ value ∈ articleUrl, IsCanonicalUrl Url value)
    (h : decodeUrl Url articleUrl = .ok url) : url.map (·.asStr) = articleUrl := by
  unfold decodeUrl at h
  split at h
  · obtain rfl := Except.ok.inj h
    rfl
  · rename_i value
    have hparse : VerifiedWechatArticleUrl.parse value =
        .ok (⟨value, hcanonical value rfl⟩ : VerifiedWechatArticleUrl Url) :=
      VerifiedWechatArticleUrl.parse_asStr ⟨value, hcanonical value rfl⟩
    rw [hparse] at h
    obtain rfl := Except.ok.inj h
    rfl

theorem toNat_ofNat_toNat {n : ℤ} (h : 0 ≤ n ∧ n < UInt32.size) :
    ((UInt32.ofNat n.toNat).toNat : ℤ) = n := by
  rw [UInt32.toNat_ofNat_of_lt' (by omega)]
  omega

/-- **The columns of a decoded row.** -/
theorem SourceRepository.storeEditable_decodeSource {row : SourceRow} {source : SourceAggregate Url}
    (hcanonical : ∀ value ∈ row.articleUrl, IsCanonicalUrl Url value)
    (h : decodeSource Url row = .ok source) : storeEditable source row = row := by
  unfold decodeSource at h
  split_ifs at h with hinterval hlimit hattempts hrevision
  split at h
  · exact nomatch h
  · rename_i url hurl
    unfold SourceAggregate.fromParts at h
    split at h
    · exact nomatch h
    · obtain rfl := Except.ok.inj h
      have hseconds : row.syncIntervalSeconds * 1000000000 / 1000000000 = row.syncIntervalSeconds :=
        Int.mul_ediv_cancel _ (by decide)
      simp only [storeEditable, map_asStr_decodeUrl hcanonical hurl, hseconds,
        toNat_ofNat_toNat (hlimit), toNat_ofNat_toNat (hattempts),
        Int.toNat_of_nonneg (Int.not_lt.mp hrevision)]

theorem map_getD {A B : Type} (f : A → B) (named : Option A) (value : A) :
    (named.map f).getD (f value) = f (named.getD value) := by
  rcases named with _ | named <;> rfl

omit [LawfulUrlCrate Url] in
/-- The columns of an invalid source. -/
theorem SourceAggregate.not_isValid_iff {source : SourceAggregate Url} (hid : source.id ≠ .nil) :
    ¬ source.IsValid ↔ source.bookId = "" ∨ source.displayName = "" ∨ source.syncInterval ≤ 0
      ∨ source.syncInterval % 1000000000 ≠ 0 ∨ (source.rssItemLimit.toNat : ℤ) = 0
      ∨ (source.maxAttempts.toNat : ℤ) = 0 ∨ source.accountId = some .nil := by
  have hzero : ∀ n : UInt32, (n.toNat : ℤ) = 0 ↔ n = 0 := fun n => by
    rw [Int.natCast_eq_zero, ← UInt32.toNat_inj]
    rfl
  rw [hzero, hzero]
  constructor
  · intro hinvalid
    by_contra hvalid
    simp only [not_or, Int.not_le, not_not] at hvalid
    obtain ⟨hbook, hname, hpos, hwhole, hlimit, hattempts, haccount⟩ := hvalid
    exact hinvalid ⟨hid, hbook, hname, ⟨hpos, hwhole⟩, hlimit, hattempts, haccount⟩
  · rintro (h | h | h | h | h | h | h) hvalid
    · exact hvalid.bookId h
    · exact hvalid.displayName h
    · exact absurd hvalid.syncInterval.1 (Int.not_lt.mpr h)
    · exact h hvalid.syncInterval.2
    · exact hvalid.rssItemLimit h
    · exact hvalid.maxAttempts h
    · exact hvalid.accountId h

omit [LawfulUrlCrate Url] in
/-- The columns of a visible change. -/
theorem SourceAggregate.feedVisibleChange_iff (updated source : SourceAggregate Url) :
    feedVisibleChange updated source = true ↔ updated.bookId ≠ source.bookId
      ∨ updated.displayName ≠ source.displayName
      ∨ updated.articleUrl.map (·.asStr) ≠ source.articleUrl.map (·.asStr)
      ∨ (updated.rssItemLimit.toNat : ℤ) ≠ source.rssItemLimit.toNat := by
  have hasStr : updated.articleUrl.map (·.asStr) = source.articleUrl.map (·.asStr) ↔
      updated.articleUrl = source.articleUrl := by
    refine (Option.map_injective fun a b hab => ?_).eq_iff
    rcases a
    rcases b
    rw [VerifiedWechatArticleUrl.mk.injEq]
    exact hab
  rw [feedVisibleChange, decide_eq_true_eq, Ne, Ne, Ne, Ne, Ne, Ne, Int.natCast_inj,
    UInt32.toNat_inj, hasStr]

/-- **The two models of `apply_patch` agree**: on a row with a canonical URL, the columns are those
of the edited source, as long as the revision can be stored. -/
theorem SourceRepository.applyPatch_row {row : SourceRow} {source : SourceAggregate Url}
    (hcanonical : ∀ value ∈ row.articleUrl, IsCanonicalUrl Url value)
    (hrevision : row.feedRevision ≤ i64Max) (h : decodeSource Url row = .ok source)
    (patch : SourcePatch Url) :
    applyPatch row patch =
      match source.applyPatch patch with
      | .error _ => none
      | .ok updated =>
        if updated.feedRevision ≤ i64Max then some (storeEditable updated row) else none := by
  have hstored := storeEditable_decodeSource hcanonical h
  obtain ⟨hvalid, -⟩ := decodeSource_eq_ok h
  have hseconds : source.syncInterval / 1000000000 * 1000000000 = source.syncInterval :=
    Int.ediv_mul_cancel (Int.dvd_of_emod_eq_zero hvalid.syncInterval.2)
  have hurl : (patch.articleUrl.map fun url => url.map (·.asStr)).getD
      (source.articleUrl.map (·.asStr)) = (patch.articleUrl.getD source.articleUrl).map (·.asStr) :=
    map_getD _ _ _
  have hnat := fun (named : Option UInt32) value =>
    map_getD (fun limit : UInt32 => (limit.toNat : ℤ)) named value
  rw [← hstored] at hrevision ⊢
  have hstorable : (source.feedRevision : ℤ) ≤ i64Max := hrevision
  unfold applyPatch SourceAggregate.applyPatch SourceAggregate.applyUpdate
  simp only [storeEditable, hseconds, hurl, hnat]
  generalize hupdated : source.overwritten _ = updated
  have hid : updated.id ≠ .nil := by
    rw [← hupdated]
    exact hvalid.id
  have hrefused := SourceAggregate.not_isValid_iff hid
  have hchanged := SourceAggregate.feedVisibleChange_iff updated source
  have hkept : updated.feedRevision = source.feedRevision := by rw [← hupdated]; rfl
  rw [← SourceAggregate.validate_eq_ok] at hrefused
  rcases hresult : updated.validate with e | ⟨⟩
  · have := hrefused.mp (by rw [hresult]; exact nofun)
    rw [← hupdated] at this
    exact if_pos this
  · have hfields := fun hor => hrefused.mpr hor hresult
    rw [← hupdated] at hfields
    refine (if_neg hfields).trans ?_
    dsimp only
    rw [← hupdated] at hchanged
    refine (if_congr hchanged.symm rfl rfl).trans ?_
    rw [hupdated]
    unfold SourceAggregate.advanceFeedRevision
    by_cases hchange : SourceAggregate.feedVisibleChange updated source = true
    · rw [if_pos hchange, if_pos hchange]
      by_cases hroom : source.feedRevision < i64Max
      · have hlt : updated.feedRevision < u64Max := by
          rw [hkept]
          exact Nat.lt_of_lt_of_le hroom (by decide)
        rw [if_pos (Int.ofNat_lt.mpr hroom), if_pos hlt]
        dsimp only
        rw [if_pos (by omega), hkept, ← hupdated]
        rfl
      · rw [if_neg (fun hlt => hroom (Int.ofNat_lt.mp hlt))]
        split_ifs
        · dsimp only
          rw [if_neg (by omega)]
        · rfl
    · rw [if_neg hchange, if_neg hchange]
      dsimp only
      rw [if_pos (by omega), hkept, ← hupdated]
      rfl

end Columns

namespace SourceAggregate

/-- A source as an operator creates it. -/
def weeklySpec : NewSource PlainUrl :=
  ⟨⟨1⟩, "mp_1", " Weekly ", none, true, 3600000000000, 20, none, .ready, 0, 0, 3⟩

/-- The source that is created. -/
def weekly : SourceAggregate PlainUrl :=
  ⟨{ weeklySpec with displayName := "Weekly" }, 0, none, none⟩

/-- The same source in a bundle, its name with the spaces it was typed with. -/
def spacedSections : ConfigBundle :=
  ⟨some [⟨⟨1⟩, "mp_1", " Weekly ", none, none, true, 3600, 20, 0, 3⟩], none⟩

@[reducible] def spacedCodec : SerdeJsonCrate := plainCodec spacedSections

attribute [local instance] spacedCodec

theorem edits_exact_weekly :
    (∀ patch, weekly.EditExact patch) ∧ weekly.applyPatch .empty = .ok weekly := by
  have hnew : new weeklySpec = .ok weekly := by decide +kernel
  exact (edits_exact_iff (.created hnew)).mpr (by decide +kernel)

/-- The bundle, as validated. -/
def spacedBundle : ValidatedConfigBundle PlainUrl where
  bundle := WireConfigBundle.new 0 spacedSections.sources none
  checked := ⟨WireConfigBundle.new 0 spacedSections.sources none, by decide +kernel⟩

/-- The imported source. -/
def spaced : SourceAggregate PlainUrl := ⟨weeklySpec, 0, none, none⟩

/-- **An import keeps the spaces around a name**: to set the priority of the source renames it and
advances the revision of its feed. -/
theorem edits_inexact_spaced :
    ∃ source : SourceAggregate PlainUrl, source.Reachable PlainUrl ∧
      ∃ patch, ¬ source.EditExact patch := by
  have hrow : SourceRow.Written PlainUrl
      (createdRow 0 ⟨⟨1⟩, "mp_1", " Weekly ", none, none, true, 3600, 20, 0, 3⟩ none none) :=
    .created spacedBundle (List.mem_singleton_self _) 0 (fun _ => true) none
  refine ⟨spaced, .decoded hrow (by decide +kernel), { SourcePatch.empty with priority := some 5 },
    fun hexact => ?_⟩
  have happly : spaced.applyPatch { SourcePatch.empty with priority := some 5 } =
      .ok ⟨{ weeklySpec with displayName := "Weekly", priority := 5 }, 1, none, none⟩ := by
    decide +kernel
  have hname := congrArg (·.displayName) (hexact.1 _ happly).1
  exact absurd hname (by decide +kernel)

end SourceAggregate

end Werrss
