import Werrss.Rss.Renderer

/-!
# Persistence/FeedCache — the build lease and the compare-and-swap of the feed cache

    acquire ──▸ (heartbeat)* ──▸ publish: live lease? ─ same revision? ─ not older? ──▸ row, release

The publication runs in one transaction that holds the source row and the lease row; its statements
read the database clock one after the other.  An error drops the transaction, so it is an `Except`
over the rows: **either all of it happens or nothing does.**
-/

open Machinery

namespace Werrss

/-! ## Rows -/

/-- Identity of one acquisition of a build lease. -/
structure FeedBuildLeaseToken where
  uuid : Uuid
deriving DecidableEq, Repr

/-- The build lease of a source. -/
structure FeedBuildLease where
  owner : String
  token : FeedBuildLeaseToken
  leaseUntil : DateTime
  heartbeatAt : DateTime
deriving DecidableEq

/-- The stored feed of a source. -/
structure FeedCache where
  candidate : FeedCacheCandidate
  updatedAt : DateTime
deriving DecidableEq

/-- The rows of one source that a publication touches. -/
structure FeedRows where
  lease : Option FeedBuildLease
  cache : Option FeedCache
deriving DecidableEq

/-- `owner` holds the lease under `token`, and the lease outlives `now`. -/
def FeedBuildLease.isHeldBy (self : FeedBuildLease) (owner : String) (token : FeedBuildLeaseToken)
    (now : DateTime) : Bool :=
  decide (self.owner = owner) && decide (self.token = token) && decide (now < self.leaseUntil)

/-- Some lease is held by `owner` under `token` at `now`. -/
def isLiveLease (lease : Option FeedBuildLease) (owner : String) (token : FeedBuildLeaseToken)
    (now : DateTime) : Bool :=
  lease.any fun lease => lease.isHeldBy owner token now

/-- The `DELETE` on a live lease. -/
def releaseRow (lease : Option FeedBuildLease) (owner : String) (token : FeedBuildLeaseToken)
    (now : DateTime) : Option FeedBuildLease :=
  if isLiveLease lease owner token now then none else lease

/-! ## The lease -/

inductive FeedBuildLeaseError
  | invalidSourceId | emptyOwner | invalidLeaseDuration | sourceNotFound | leaseLost
  | storage (message : String)
deriving DecidableEq, Repr

/-- `validate_inputs` and `lease_milliseconds`. -/
def leaseMilliseconds (sourceId : Uuid) (owner : String) (leaseFor : Duration) :
    Except FeedBuildLeaseError ℤ :=
  if sourceId = Uuid.nil then .error .invalidSourceId
  else if isBlank owner then .error .emptyOwner
  else if leaseFor ≤ 0 then .error .invalidLeaseDuration
  else if leaseFor.tdiv 1000000 ≤ 0 then .error .invalidLeaseDuration
  else .ok (leaseFor.tdiv 1000000)

/-- `acquire_build`: inserts the lease or takes over an expired one. -/
def acquireBuild (lease : Option FeedBuildLease) (sourceId : Uuid) (owner : String)
    (leaseFor : Duration) (token : FeedBuildLeaseToken) (now : DateTime) :
    Except FeedBuildLeaseError (Option FeedBuildLease) :=
  match leaseMilliseconds sourceId owner leaseFor with
  | .error e => .error e
  | .ok milliseconds =>
    if lease.any fun lease => decide (now < lease.leaseUntil) then .ok none
    else .ok (some ⟨owner, token, now + milliseconds * 1000000, now⟩)

/-- `heartbeat_build`. -/
def heartbeatBuild (lease : Option FeedBuildLease) (sourceId : Uuid) (owner : String)
    (token : FeedBuildLeaseToken) (leaseFor : Duration) (now : DateTime) :
    Except FeedBuildLeaseError FeedBuildLease :=
  match leaseMilliseconds sourceId owner leaseFor with
  | .error e => .error e
  | .ok milliseconds =>
    if isLiveLease lease owner token now then
      .ok ⟨owner, token, now + milliseconds * 1000000, now⟩
    else .error .leaseLost

/-! ## Publication -/

/-- Result of attempting to publish a renderer candidate. -/
inductive FeedCachePublishResult
  | published (cache : FeedCache)
  | sourceRevisionChanged (currentRevision : ℕ)
  | existingCacheNewer
deriving DecidableEq

inductive FeedCacheRepositoryError
  | invalidSourceId | emptyOwner | emptyXml | emptyEtag | emptyContentHash | invalidExpiry
  | revisionOutOfRange | sourceNotFound | leaseLost
  | storage (message : String)
deriving DecidableEq, Repr

/-- `validate_candidate`. -/
def validateCandidate (candidate : FeedCacheCandidate) (owner : String) :
    Except FeedCacheRepositoryError ℕ :=
  if candidate.sourceId = Uuid.nil then .error .invalidSourceId
  else if isBlank owner then .error .emptyOwner
  else if candidate.xml = [] then .error .emptyXml
  else if isBlank candidate.etag then .error .emptyEtag
  else if isBlank candidate.contentHash then .error .emptyContentHash
  else if candidate.expiresAt ≤ candidate.generatedAt then .error .invalidExpiry
  else if 2 ^ 63 ≤ candidate.feedRevision then .error .revisionOutOfRange
  else .ok candidate.feedRevision

/-- The clock as the statements of the publication read it. -/
structure PublishClock where
  live : DateTime
  insert : DateTime
  recheck : DateTime
  release : DateTime
  live_le : live ≤ insert
  insert_le : insert ≤ recheck
  recheck_le : recheck ≤ release

/-- The condition under which the upsert writes over a stored row. -/
def replaces (candidate : FeedCacheCandidate) (cache : Option FeedCache) : Bool :=
  cache.all fun cache =>
    decide (cache.candidate.feedRevision < candidate.feedRevision) ||
      (decide (cache.candidate.feedRevision = candidate.feedRevision) &&
        decide (cache.candidate.generatedAt ≤ candidate.generatedAt))

/-- `publish_if_current`; `feedRevision` is what the locked source row holds, if there is one. -/
def publishIfCurrent (feedRevision : Option ℕ) (rows : FeedRows) (candidate : FeedCacheCandidate)
    (owner : String) (token : FeedBuildLeaseToken) (clock : PublishClock) :
    Except FeedCacheRepositoryError (FeedRows × FeedCachePublishResult) :=
  match validateCandidate candidate owner with
  | .error e => .error e
  | .ok revision =>
  match feedRevision with
  | none => .error .sourceNotFound
  | some currentRevision =>
  if !isLiveLease rows.lease owner token clock.live then .error .leaseLost
  else if currentRevision ≠ revision then
    .ok ({ rows with lease := releaseRow rows.lease owner token clock.release },
      .sourceRevisionChanged currentRevision)
  else if isLiveLease rows.lease owner token clock.insert && replaces candidate rows.cache then
    let cache : FeedCache := ⟨candidate, clock.insert⟩
    if isLiveLease rows.lease owner token clock.release then
      .ok (⟨none, some cache⟩, .published cache)
    else .error .leaseLost
  else if !isLiveLease rows.lease owner token clock.recheck then .error .leaseLost
  else if isLiveLease rows.lease owner token clock.release then
    .ok ({ rows with lease := none }, .existingCacheNewer)
  else .error .leaseLost

/-! ## All a publication can do -/

theorem isLiveLease_anti {lease : Option FeedBuildLease} {owner : String}
    {token : FeedBuildLeaseToken} {now later : DateTime} (hle : now ≤ later)
    (h : isLiveLease lease owner token later = true) : isLiveLease lease owner token now = true := by
  obtain ⟨row, hrow, hheld⟩ := (Option.any_eq_true _ _).mp h
  refine (Option.any_eq_true _ _).mpr ⟨row, hrow, ?_⟩
  simp only [FeedBuildLease.isHeldBy, Bool.and_eq_true, decide_eq_true_eq] at hheld ⊢
  exact ⟨hheld.1, Int.lt_of_le_of_lt hle hheld.2⟩

theorem validateCandidate_eq_ok {candidate : FeedCacheCandidate} {owner : String} {revision : ℕ}
    (h : validateCandidate candidate owner = .ok revision) : revision = candidate.feedRevision := by
  unfold validateCandidate at h
  split_ifs at h
  exact (Except.ok.inj h).symm

/-- **The effects of a publication that is not rolled back.**  Each was made under a live lease. -/
inductive Publishes (feedRevision : ℕ) (rows : FeedRows) (candidate : FeedCacheCandidate) :
    FeedRows → FeedCachePublishResult → Prop
  | published {cache : FeedCache} (hcache : cache.candidate = candidate)
      (hrevision : candidate.feedRevision = feedRevision)
      (hreplaces : replaces candidate rows.cache = true) :
      Publishes feedRevision rows candidate ⟨none, some cache⟩ (.published cache)
  | sourceRevisionChanged {lease : Option FeedBuildLease}
      (hrevision : candidate.feedRevision ≠ feedRevision) :
      Publishes feedRevision rows candidate { rows with lease := lease }
        (.sourceRevisionChanged feedRevision)
  | existingCacheNewer (hrevision : candidate.feedRevision = feedRevision)
      (hreplaces : replaces candidate rows.cache = false) :
      Publishes feedRevision rows candidate { rows with lease := none } .existingCacheNewer

theorem publishIfCurrent_cases {feedRevision : ℕ} {rows rows' : FeedRows}
    {candidate : FeedCacheCandidate} {owner : String} {token : FeedBuildLeaseToken}
    {clock : PublishClock} {result : FeedCachePublishResult}
    (h : publishIfCurrent (some feedRevision) rows candidate owner token clock
      = .ok (rows', result)) :
    isLiveLease rows.lease owner token clock.live = true ∧
      Publishes feedRevision rows candidate rows' result := by
  unfold publishIfCurrent at h
  cases hvalid : validateCandidate candidate owner with
  | error e => simp [hvalid] at h
  | ok revision =>
    obtain rfl := validateCandidate_eq_ok hvalid
    simp only [hvalid] at h
    split_ifs at h with hlive hrevision hinsert hrelease hrecheck hrelease
    · obtain ⟨rfl, rfl⟩ := Prod.mk.inj (Except.ok.inj h)
      exact ⟨by simpa using hlive, .sourceRevisionChanged fun heq => hrevision heq.symm⟩
    · obtain ⟨rfl, rfl⟩ := Prod.mk.inj (Except.ok.inj h)
      rw [Bool.and_eq_true] at hinsert
      exact ⟨by simpa using hlive, .published rfl (not_not.mp hrevision).symm hinsert.2⟩
    · obtain ⟨rfl, rfl⟩ := Prod.mk.inj (Except.ok.inj h)
      -- The lease is still live at the recheck, so it was live when the upsert wrote nothing.
      have hstill : isLiveLease rows.lease owner token clock.insert = true :=
        isLiveLease_anti clock.insert_le (by simpa using hrecheck)
      rw [hstill, Bool.true_and, Bool.not_eq_true] at hinsert
      exact ⟨by simpa using hlive, .existingCacheNewer (not_not.mp hrevision).symm hinsert⟩

end Werrss
