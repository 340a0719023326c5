import Werrss.Domain.UrlPolicy
import Werrss.Machinery.Rows

/-!
# Persistence/SourceRepository — the rows of `sources`, and the statements over them

    ready ┊ authentication_required ┊ risk_controlled

A statement updates the row of one id and decodes it; a row that does not decode is an error, and
the transaction around it is dropped.  **Only `set_scheduling_gate` writes the gate of a row**: the
editable fields, the pause and the schedule leave it alone.
-/

open Machinery

namespace Werrss

/-- `SchedulingGate`. -/
inductive SchedulingGate
  | ready | authenticationRequired | riskControlled
deriving DecidableEq, Repr

/-- A row of `sources`. -/
structure SourceRow where
  id : Uuid
  bookId : String
  displayName : String
  articleUrl : Option String
  accountId : Option Uuid
  feedRevision : ℤ
  enabled : Bool
  schedulingGate : SchedulingGate
  syncIntervalSeconds : ℤ
  rssItemLimit : ℤ
  nextFetchAt : DateTime
  failureCooldownUntil : Option DateTime
  scheduleReservedUntil : Option DateTime
  priority : ℤ
  maxAttempts : ℤ
  updatedAt : DateTime
deriving DecidableEq, Repr

/-- The row of a source. -/
def findSource (sources : List SourceRow) (sourceId : Uuid) : Option SourceRow :=
  Rows.get SourceRow.id sources sourceId

/-- The scheduling gate of a source, if there is one. -/
def gateOf (sources : List SourceRow) (sourceId : Uuid) : Option SchedulingGate :=
  (findSource sources sourceId).map (·.schedulingGate)

/-- The editable fields of `SourcePatch`: `none` leaves a field as it is. -/
structure SourcePatch (Url : Type) [UrlCrate Url] where
  bookId : Option String
  displayName : Option String
  articleUrl : Option (Option (VerifiedWechatArticleUrl Url))
  syncInterval : Option Duration
  rssItemLimit : Option UInt32
  accountId : Option (Option Uuid)
  priority : Option ℤ
  maxAttempts : Option UInt32

namespace SourceRepository

variable (Url : Type) [UrlCrate Url] [LawfulUrlCrate Url]

/-- A row `decode_source` accepts: the conversions of its columns, then `Source::validate`. -/
def decodes (row : SourceRow) : Bool :=
  decide (row.syncIntervalSeconds.natAbs ≤ i64Max / 1000)
    && decide (0 ≤ row.rssItemLimit ∧ row.rssItemLimit < UInt32.size)
    && decide (0 ≤ row.maxAttempts ∧ row.maxAttempts < UInt32.size)
    && decide (0 ≤ row.feedRevision)
    && row.articleUrl.all (fun value =>
      (VerifiedWechatArticleUrl.parse value
        : Except SourceError (VerifiedWechatArticleUrl Url)).isOk)
    && decide (row.id ≠ .nil) && decide (row.bookId ≠ "") && decide (row.displayName ≠ "")
    && decide (0 < row.syncIntervalSeconds) && decide (row.rssItemLimit ≠ 0)
    && decide (row.maxAttempts ≠ 0) && decide (row.accountId ≠ some .nil)

/-- `UPDATE sources SET … WHERE id = … RETURNING …`, decoded. -/
def updateSource (sources : List SourceRow) (sourceId : Uuid) (assign : SourceRow → SourceRow) :
    Option (List SourceRow × SourceRow) :=
  if sourceId = .nil then none
  else
    match findSource sources sourceId with
    | none => none
    | some row =>
      if decodes Url (assign row) then
        some (Rows.update SourceRow.id sources sourceId assign, assign row)
      else none

/-- `set_enabled`. -/
def setEnabled (sources : List SourceRow) (sourceId : Uuid) (enabled : Bool) (clock : DateTime) :
    Option (List SourceRow × SourceRow) :=
  updateSource Url sources sourceId fun row => { row with enabled := enabled, updatedAt := clock }

/-- `set_scheduling_gate`: whatever the gate was. -/
def setSchedulingGate (sources : List SourceRow) (sourceId : Uuid) (gate : SchedulingGate)
    (clock : DateTime) : Option (List SourceRow × SourceRow) :=
  updateSource Url sources sourceId fun row =>
    { row with schedulingGate := gate, updatedAt := clock }

/-- `update_schedule`. -/
def updateSchedule (sources : List SourceRow) (sourceId : Uuid) (nextFetchAt : DateTime)
    (failureCooldownUntil scheduleReservedUntil : Option DateTime) (clock : DateTime) :
    Option (List SourceRow × SourceRow) :=
  updateSource Url sources sourceId fun row =>
    { row with
      nextFetchAt := nextFetchAt
      failureCooldownUntil := failureCooldownUntil
      scheduleReservedUntil := scheduleReservedUntil
      updatedAt := clock }

/-- `find_for_update`. -/
def findForUpdate (sources : List SourceRow) (sourceId : Uuid) : Option SourceRow :=
  if sourceId = .nil then none
  else (findSource sources sourceId).filter (decodes Url)

/-- `bump_feed_revision`. -/
def bumpFeedRevision (sources : List SourceRow) (sourceId : Uuid) (expected : ℤ) (clock : DateTime) :
    Option (List SourceRow) :=
  if sourceId = .nil then none
  else
    match findSource sources sourceId with
    | none => none
    | some row =>
      if row.feedRevision = expected ∧ expected < i64Max then
        some (Rows.update SourceRow.id sources sourceId fun row =>
          { row with feedRevision := row.feedRevision + 1, updatedAt := clock })
      else none

variable {Url}

/-- `Source::apply_patch` and the columns it is stored in; the feed revision advances when the
rendered feed can change. -/
def applyPatch (row : SourceRow) (patch : SourcePatch Url) : Option SourceRow :=
  let syncInterval := patch.syncInterval.getD (row.syncIntervalSeconds * 1000000000)
  let updated : SourceRow :=
    { row with
      bookId := trim (patch.bookId.getD row.bookId)
      displayName := trim (patch.displayName.getD row.displayName)
      articleUrl := (patch.articleUrl.map fun url => url.map (·.asStr)).getD row.articleUrl
      accountId := patch.accountId.getD row.accountId
      syncIntervalSeconds := syncInterval / 1000000000
      rssItemLimit := (patch.rssItemLimit.map fun limit => (limit.toNat : ℤ)).getD row.rssItemLimit
      priority := patch.priority.getD row.priority
      maxAttempts := (patch.maxAttempts.map fun limit => (limit.toNat : ℤ)).getD row.maxAttempts }
  if updated.bookId = "" ∨ updated.displayName = "" ∨ syncInterval ≤ 0
      ∨ syncInterval % 1000000000 ≠ 0 ∨ updated.rssItemLimit = 0 ∨ updated.maxAttempts = 0
      ∨ updated.accountId = some .nil then
    none
  else if updated.bookId ≠ row.bookId ∨ updated.displayName ≠ row.displayName
      ∨ updated.articleUrl ≠ row.articleUrl ∨ updated.rssItemLimit ≠ row.rssItemLimit then
    if row.feedRevision < i64Max then some { updated with feedRevision := row.feedRevision + 1 }
    else none
  else some updated

variable (Url)

/-- `update`: the patch is applied to the locked row and the editable columns are written. -/
def update (sources : List SourceRow) (sourceId : Uuid) (patch : SourcePatch Url)
    (clock : DateTime) : Option (List SourceRow × SourceRow) :=
  match findForUpdate Url sources sourceId with
  | none => none
  | some current =>
    match applyPatch current patch with
    | none => none
    | some updated =>
      updateSource Url sources sourceId fun row =>
        { row with
          bookId := updated.bookId
          displayName := updated.displayName
          articleUrl := updated.articleUrl
          accountId := updated.accountId
          feedRevision := updated.feedRevision
          syncIntervalSeconds := updated.syncIntervalSeconds
          rssItemLimit := updated.rssItemLimit
          priority := updated.priority
          maxAttempts := updated.maxAttempts
          updatedAt := clock }

variable {Url}

/-! ## What the statements do to a row -/

/-- An update changes the row of its id, and no other. -/
theorem find_updateSource {sources sources' : List SourceRow} {sourceId : Uuid}
    {assign : SourceRow → SourceRow} {written : SourceRow}
    (h : updateSource Url sources sourceId assign = some (sources', written))
    (hid : ∀ row, (assign row).id = row.id) (other : Uuid) :
    findSource sources' other =
      if other = sourceId then (findSource sources other).map assign
      else findSource sources other := by
  unfold updateSource at h
  split_ifs at h
  split at h
  · cases h
  · split_ifs at h
    obtain ⟨rfl, -⟩ := Prod.mk.inj (Option.some.inj h)
    exact Rows.get_update hid sources sourceId other

/-- **An update that leaves a column of every row alone.** -/
theorem map_updateSource {A : Type} {f : SourceRow → A} {sources sources' : List SourceRow}
    {sourceId : Uuid} {assign : SourceRow → SourceRow} {written : SourceRow}
    (h : updateSource Url sources sourceId assign = some (sources', written))
    (hrow : ∀ row, (assign row).id = row.id ∧ f (assign row) = f row) (other : Uuid) :
    (findSource sources' other).map f = (findSource sources other).map f := by
  rw [find_updateSource h fun row => (hrow row).1]
  split_ifs with heq
  · rw [Option.map_map]
    congr 1
    funext row
    exact (hrow row).2
  · rfl

/-- **What `set_scheduling_gate` writes.** -/
theorem gateOf_setSchedulingGate {sources sources' : List SourceRow} {sourceId : Uuid}
    {gate : SchedulingGate} {clock : DateTime} {written : SourceRow}
    (h : setSchedulingGate Url sources sourceId gate clock = some (sources', written))
    (other : Uuid) :
    gateOf sources' other =
      if other = sourceId then (gateOf sources other).map fun _ => gate
      else gateOf sources other := by
  rw [gateOf, find_updateSource h fun _ => rfl]
  split_ifs with heq
  · rw [Option.map_map, gateOf, Option.map_map]
    rfl
  · rfl

theorem gateOf_updateSchedule {sources sources' : List SourceRow} {sourceId : Uuid}
    {nextFetchAt clock : DateTime} {cooldown reserved : Option DateTime} {written : SourceRow}
    (h : updateSchedule Url sources sourceId nextFetchAt cooldown reserved clock
      = some (sources', written)) (other : Uuid) : gateOf sources' other = gateOf sources other :=
  map_updateSource h (fun _ => ⟨rfl, rfl⟩) other

theorem gateOf_setEnabled {sources sources' : List SourceRow} {sourceId : Uuid} {enabled : Bool}
    {clock : DateTime} {written : SourceRow}
    (h : setEnabled Url sources sourceId enabled clock = some (sources', written)) (other : Uuid) :
    gateOf sources' other = gateOf sources other :=
  map_updateSource h (fun _ => ⟨rfl, rfl⟩) other

theorem gateOf_update {sources sources' : List SourceRow} {sourceId : Uuid}
    {patch : SourcePatch Url} {clock : DateTime} {written : SourceRow}
    (h : update Url sources sourceId patch clock = some (sources', written)) (other : Uuid) :
    gateOf sources' other = gateOf sources other := by
  unfold update at h
  split at h
  · cases h
  · split at h
    · cases h
    · exact map_updateSource h (fun _ => ⟨rfl, rfl⟩) other

omit [UrlCrate Url] [LawfulUrlCrate Url] in
theorem gateOf_bumpFeedRevision {sources sources' : List SourceRow} {sourceId : Uuid} {expected : ℤ}
    {clock : DateTime} (h : bumpFeedRevision sources sourceId expected clock = some sources')
    (other : Uuid) : gateOf sources' other = gateOf sources other := by
  unfold bumpFeedRevision at h
  split_ifs at h
  split at h
  · cases h
  · split_ifs at h
    obtain rfl := Option.some.inj h
    rw [gateOf, findSource, Rows.get_update]
    · split_ifs with heq
      · rw [Option.map_map]
        rfl
      · rfl
    · exact fun _ => rfl

end SourceRepository

end Werrss
