import Werrss.Application.FeedRebuild

/-!
# Application/FeedConsistency — a stored feed shows one committed state

    revision:      r ≤ r' ≤ now
    source read at ┘    │
    articles listed at ─┘

A rebuild reads the source at some revision `r` and the articles at some later one `r'`, so its
candidate may be torn.  It is published only while the source still has revision `r`, and then
`r = r' = now`: **the compare-and-swap catches every torn read.**
-/

open Machinery

namespace Werrss

variable {Url : Type} [UrlCrate Url]

/-- The candidate is the rendering of a committed state, stamped with its own generation time. -/
def FeedSnapshot.Renders (service : FeedRebuildService Url) (snapshot : FeedSnapshot Url)
    (candidate : FeedCacheCandidate) : Prop :=
  ∃ articles, service.listForFeed snapshot.articles snapshot.source.rssItemLimit = .ok articles ∧
    service.renderFeed snapshot.source articles candidate.generatedAt = .ok candidate

theorem FeedRebuildService.renderFeed_eq_ok {service : FeedRebuildService Url} {source : Source}
    {articles : List (Article Url)} {generatedAt : DateTime} {candidate : FeedCacheCandidate}
    (h : service.renderFeed source articles generatedAt = .ok candidate) :
    candidate.feedRevision = source.feedRevision ∧ candidate.generatedAt = generatedAt := by
  unfold renderFeed at h
  split at h
  · cases h
  · split at h
    · cases h
    · rename_i expiresAt _ result hrender
      obtain rfl := Except.ok.inj h
      unfold render at hrender
      split at hrender
      · cases hrender
      · obtain rfl := Except.ok.inj hrender
        exact ⟨rfl, rfl⟩

namespace FeedSystem

/-! ## What a rebuild in flight knows -/

section Flight

variable (service : FeedRebuildService Url) (committed : ℕ → Option (FeedSnapshot Url))
  (revision : ℕ)

/-- The source as committed at its revision, which is not ahead of the present one. -/
def HasRead (source : Source) : Prop :=
  source.feedRevision ≤ revision ∧
    ∃ articles, committed source.feedRevision = some ⟨source, articles⟩

/-- The articles as listed at a revision between that of the source and the present one. -/
def HasListed (source : Source) (articles : List (Article Url)) : Prop :=
  ∃ r, source.feedRevision ≤ r ∧ r ≤ revision ∧ ∃ snapshot, committed r = some snapshot ∧
    service.listForFeed snapshot.articles source.rssItemLimit = .ok articles

/-- What the data of a stage goes back to. -/
def StageOk : RebuildStage Url → Prop
  | .leased => True
  | .sourceRead source => HasRead committed revision source
  | .snapshot source articles =>
    HasRead committed revision source ∧ HasListed service committed revision source articles
  | .rendered candidate => ∃ source articles, HasRead committed revision source ∧
      HasListed service committed revision source articles ∧
      service.renderFeed source articles candidate.generatedAt = .ok candidate

def WorkerOk : Worker Url → Prop
  | .building _ _ stage => StageOk service committed revision stage
  | _ => True

variable {service committed revision}

/-- **A candidate that is current renders the present state**: at its revision there is one. -/
theorem renders_of_current {candidate : FeedCacheCandidate}
    (h : StageOk service committed revision (.rendered candidate))
    (hcurrent : candidate.feedRevision = revision) :
    ∃ snapshot, committed candidate.feedRevision = some snapshot ∧
      snapshot.Renders service candidate := by
  obtain ⟨source, articles, ⟨-, stored, hread⟩, ⟨r, hle, hge, snapshot, hsnap, hlist⟩, hrender⟩ := h
  have hrevision := (FeedRebuildService.renderFeed_eq_ok hrender).1
  have hr : r = source.feedRevision := by omega
  rw [hr, hread] at hsnap
  obtain rfl := Option.some.inj hsnap
  exact ⟨⟨source, stored⟩, by rw [hrevision, hread], articles, hlist, hrender⟩

/-- A new revision does not touch what was committed before. -/
theorem committed_bump {r : ℕ} (snapshot : Option (FeedSnapshot Url)) (hr : r ≤ revision) :
    Function.update committed (revision + 1) snapshot r = committed r :=
  Function.update_of_ne (by omega) _ _

theorem StageOk.bump {stage : RebuildStage Url} (snapshot : Option (FeedSnapshot Url))
    (h : StageOk service committed revision stage) :
    StageOk service (Function.update committed (revision + 1) snapshot) (revision + 1) stage := by
  have hread : ∀ {source}, HasRead committed revision source →
      HasRead (Function.update committed (revision + 1) snapshot) (revision + 1) source := by
    rintro source ⟨hle, articles, hsource⟩
    exact ⟨by omega, articles, by rw [committed_bump snapshot hle, hsource]⟩
  have hlisted : ∀ {source articles}, HasListed service committed revision source articles →
      HasListed service (Function.update committed (revision + 1) snapshot) (revision + 1) source
        articles := by
    rintro source articles ⟨r, hle, hge, stored, hstored, hlist⟩
    exact ⟨r, hle, by omega, stored, by rw [committed_bump snapshot hge, hstored], hlist⟩
  cases stage with
  | leased => trivial
  | sourceRead source => exact hread h
  | snapshot source articles => exact ⟨hread h.1, hlisted h.2⟩
  | rendered candidate =>
    obtain ⟨source, articles, h1, h2, hrender⟩ := h
    exact ⟨source, articles, hread h1, hlisted h2, hrender⟩

theorem WorkerOk.bump {worker : Worker Url} (snapshot : Option (FeedSnapshot Url))
    (h : WorkerOk service committed revision worker) :
    WorkerOk service (Function.update committed (revision + 1) snapshot) (revision + 1) worker := by
  cases worker with
  | building completion token stage => exact StageOk.bump snapshot h
  | _ => trivial

end Flight

variable {service : FeedRebuildService Url} {s t : FeedSystem Url}

/-! ## All a step can do

Jobs apart, a step commits a new revision, publishes a candidate, or leaves the committed state and
the stored feed alone while workers advance. -/

/-- A worker takes its next step, or ends up without data. -/
inductive Advances (service : FeedRebuildService Url) (s : FeedSystem Url) :
    Worker Url → Worker Url → Prop
  | idle {worker} : Advances service s worker .idle
  | claimed {worker} (completion : JobCompletion) : Advances service s worker (.claimed completion)
  | finishing {worker} (completion : JobCompletion) {execution : JobExecution}
      (hexecution : execution ≠ .succeeded) :
      Advances service s worker (.finishing completion execution)
  | leased {worker} (completion : Option JobCompletion) (token : FeedBuildLeaseToken) :
      Advances service s worker (.building completion token .leased)
  | readSource {completion token} :
      Advances service s (.building completion token .leased)
        (.building completion token (.sourceRead s.source))
  | readArticles {completion token source articles}
      (hlist : service.listForFeed s.articles source.rssItemLimit = .ok articles) :
      Advances service s (.building completion token (.sourceRead source))
        (.building completion token (.snapshot source articles))
  | renderFeed {completion token source articles generatedAt candidate}
      (hrender : service.renderFeed source articles generatedAt = .ok candidate) :
      Advances service s (.building completion token (.snapshot source articles))
        (.building completion token (.rendered candidate))

/-- Every worker stays or advances. -/
def WorkersAdvance (service : FeedRebuildService Url) (s t : FeedSystem Url) : Prop :=
  ∀ worker, t.workers worker = s.workers worker ∨
    Advances service s (s.workers worker) (t.workers worker)

/-- **The effects of a step.** -/
inductive Effect (service : FeedRebuildService Url) (s : FeedSystem Url) : FeedSystem Url → Prop
  | bump (source : Source) (articles : List (Article Url)) (jobs : List Job) (byArchive : Bool) :
      Effect service s (s.bump source articles jobs byArchive)
  | frame {t : FeedSystem Url} (hsource : t.source = s.source) (harticles : t.articles = s.articles)
      (hcommitted : t.committed = s.committed) (hcache : t.rows.cache = s.rows.cache)
      (hworkers : WorkersAdvance service s t) : Effect service s t
  | published {t : FeedSystem Url} {worker completion token candidate cache}
      (hstage : s.workers worker = .building completion token (.rendered candidate))
      (hsource : t.source = s.source) (harticles : t.articles = s.articles)
      (hcommitted : t.committed = s.committed) (hcache : t.rows.cache = some cache)
      (hcandidate : cache.candidate = candidate)
      (hrevision : candidate.feedRevision = s.source.feedRevision)
      (hreplaces : replaces candidate s.rows.cache = true)
      (hworkers : WorkersAdvance service s t) : Effect service s t

theorem classifyError_ne_succeeded (error : FeedRebuildError) (now : DateTime)
    (retryAfter : Duration) : classifyError error now retryAfter ≠ .succeeded := by
  unfold classifyError retryOrFail
  split_ifs
  · exact JobExecution.noConfusion
  · cases DateTime.checkedAddSigned now retryAfter <;> exact JobExecution.noConfusion

theorem classifyAlreadyActive_ne_succeeded (now : DateTime) (retryAfter : Duration) :
    classifyAlreadyActive now retryAfter ≠ .succeeded := by
  unfold classifyAlreadyActive retryOrFail
  cases DateTime.checkedAddSigned now retryAfter <;> exact JobExecution.noConfusion

theorem advances_failed (service : FeedRebuildService Url) (s : FeedSystem Url) (worker : Worker Url)
    (completion : Option JobCompletion) (error : FeedRebuildError) (now : DateTime) :
    Advances service s worker (failed service completion error now) := by
  cases completion with
  | none => exact .idle
  | some completion => exact .finishing completion (classifyError_ne_succeeded error now _)

theorem workersAdvance_setWorker {t : FeedSystem Url} (hworkers : t.workers = s.workers)
    {worker : ℕ} {state : Worker Url} (h : Advances service s (s.workers worker) state) :
    WorkersAdvance service s (t.setWorker worker state) := by
  intro other
  by_cases heq : other = worker
  · subst heq
    exact .inr (by rw [setWorker]; simpa using h)
  · rw [setWorker, ← hworkers]
    exact .inl (Function.update_of_ne heq _ _)

/-- Only one worker moves. -/
theorem Effect.setWorker {worker : ℕ} {state : Worker Url}
    (h : Advances service s (s.workers worker) state) : Effect service s (s.setWorker worker state) :=
  .frame rfl rfl rfl rfl (workersAdvance_setWorker rfl h)

/-- Only jobs, the lease and ghosts of claims change. -/
theorem Effect.rows (jobs : List Job) (lease : Option FeedBuildLease)
    (claimedAt : Uuid → Option ℕ) : Effect service s
      { s with jobs := jobs, rows := { s.rows with lease := lease }, claimedAt := claimedAt } :=
  .frame rfl rfl rfl rfl fun _ => .inl rfl

theorem Effect.refl : Effect service s s := .frame rfl rfl rfl rfl fun _ => .inl rfl

/-- Either the rows stay and the worker gives up, or the rows are those of a publication under a live
lease and the worker is done. -/
theorem publish_cases (service : FeedRebuildService Url) (s : FeedSystem Url) (worker : ℕ) (completion : Option JobCompletion)
    (token : FeedBuildLeaseToken) (candidate : FeedCacheCandidate) (clock : PublishClock)
    (now : DateTime) :
    (∃ error, s.publish service worker completion token candidate clock now
      = s.setWorker worker (failed service completion error now)) ∨
    ∃ rows result jobs, isLiveLease s.rows.lease service.owner token clock.live = true ∧
      Publishes s.source.feedRevision s.rows candidate rows result ∧
      (∀ job, completion = some job →
        JobTable.succeed s.jobs job.jobId job.owner job.token now = some jobs) ∧
      (completion = none → jobs = s.jobs) ∧
      s.publish service worker completion token candidate clock now
        = { s with rows := rows, jobs := jobs }.setWorker worker .idle := by
  unfold FeedSystem.publish
  cases hpublish : publishIfCurrent (some s.source.feedRevision) s.rows candidate service.owner token
      clock with
  | error e => exact .inl ⟨.cache e, rfl⟩
  | ok outcome =>
    obtain ⟨rows, result⟩ := outcome
    obtain ⟨hlive, hpublishes⟩ := publishIfCurrent_cases hpublish
    cases completion with
    | none =>
      exact .inr ⟨rows, result, s.jobs, hlive, hpublishes, fun job h => (by cases h), fun _ => rfl,
        rfl⟩
    | some job =>
      simp only
      cases hjobs : JobTable.succeed s.jobs job.jobId job.owner job.token now with
      | none => exact .inl ⟨.job, rfl⟩
      | some jobs =>
        refine .inr ⟨rows, result, jobs, hlive, hpublishes, ?_, fun h => (by cases h), rfl⟩
        rintro job' ⟨rfl⟩
        exact hjobs

theorem publish_effect {worker : ℕ} {completion : Option JobCompletion}
    {token : FeedBuildLeaseToken} {candidate : FeedCacheCandidate}
    (hstage : s.workers worker = .building completion token (.rendered candidate))
    (clock : PublishClock) (now : DateTime) :
    Effect service s (s.publish service worker completion token candidate clock now) := by
  rcases publish_cases service s worker completion token candidate clock now with
    ⟨error, heq⟩ | ⟨rows, result, jobs, -, hpublishes, -, -, heq⟩
  · rw [heq]
    exact .setWorker (advances_failed service s _ completion error now)
  · rw [heq]
    have hworkers : WorkersAdvance service s
        ({ s with rows := rows, jobs := jobs }.setWorker worker .idle) :=
      workersAdvance_setWorker (by rfl) .idle
    cases hpublishes with
    | published hcache hrevision hreplaces =>
      exact .published hstage rfl rfl rfl rfl hcache hrevision hreplaces hworkers
    | sourceRevisionChanged _ => exact .frame rfl rfl rfl rfl hworkers
    | existingCacheNewer _ _ => exact .frame rfl rfl rfl rfl hworkers

theorem acquire_effect (worker : ℕ) (completion : Option JobCompletion)
    (token : FeedBuildLeaseToken) (now : DateTime) :
    Effect service s (s.acquire service worker completion token now) := by
  unfold FeedSystem.acquire
  split
  · exact .setWorker (advances_failed service s _ completion _ now)
  · refine .setWorker ?_
    cases completion with
    | none => exact .idle
    | some completion => exact .finishing completion (classifyAlreadyActive_ne_succeeded now _)
  · exact .frame rfl rfl rfl rfl (workersAdvance_setWorker (by rfl) (.leased completion token))

/-- **Nothing else happens.** -/
theorem step_effect (service : FeedRebuildService Url) (s : FeedSystem Url)
    (action : FeedAction Url) : Effect service s (s.step service action) := by
  cases action with
  | commit articles jobId now =>
    simp only [FeedSystem.step]
    split_ifs
    · exact .refl
    · split
      · exact .refl
      · exact .bump s.source articles _ true
  | updateSource displayName rssItemLimit =>
    simp only [FeedSystem.step]
    split_ifs
    · exact .refl
    · exact .bump _ s.articles s.jobs false
  | enqueue jobId now =>
    simp only [FeedSystem.step]
    split
    · exact .refl
    · exact .rows _ s.rows.lease s.claimedAt
  | claim worker jobId owner token now leaseUntil =>
    simp only [FeedSystem.step]
    split
    · split_ifs
      · exact .refl
      · split
        · exact .refl
        · exact .frame rfl rfl rfl rfl (workersAdvance_setWorker (by rfl) (.claimed _))
    · exact .refl
  | acquire worker token now =>
    simp only [FeedSystem.step]
    split
    · exact acquire_effect worker none token now
    · exact acquire_effect worker _ token now
    · exact .refl
  | readSource worker =>
    simp only [FeedSystem.step]
    split
    · rename_i hworker
      exact .setWorker (hworker ▸ .readSource)
    · exact .refl
  | readArticles worker now =>
    simp only [FeedSystem.step]
    split
    · rename_i completion token source hworker
      refine .setWorker ?_
      split
      · exact advances_failed service s _ completion _ now
      · rename_i hlist
        exact hworker ▸ .readArticles hlist
    · exact .refl
  | renderFeed worker generatedAt now =>
    simp only [FeedSystem.step]
    split
    · rename_i completion token source articles hworker
      refine .setWorker ?_
      split
      · exact advances_failed service s _ completion _ now
      · rename_i hrender
        exact hworker ▸ .renderFeed hrender
    · exact .refl
  | publish worker clock now =>
    simp only [FeedSystem.step]
    split
    · rename_i hworker
      exact publish_effect hworker clock now
    · exact .refl
  | fault worker error now =>
    simp only [FeedSystem.step]
    split
    · exact .setWorker (advances_failed service s _ _ error now)
    · exact .setWorker (advances_failed service s _ _ error now)
    · exact .refl
  | timeout worker error now =>
    simp only [FeedSystem.step]
    split
    · exact .setWorker (.finishing _ JobExecution.noConfusion)
    · exact .setWorker (.finishing _ JobExecution.noConfusion)
    · exact .refl
  | crash worker => exact .setWorker .idle
  | finish worker now =>
    simp only [FeedSystem.step]
    split
    · exact .frame rfl rfl rfl rfl (workersAdvance_setWorker (by rfl) .idle)
    · exact .refl
  | heartbeatJob worker now leaseUntil =>
    simp only [FeedSystem.step]
    split
    · exact .rows _ s.rows.lease s.claimedAt
    · exact .rows _ s.rows.lease s.claimedAt
    · exact .refl
  | heartbeatBuild token now =>
    simp only [FeedSystem.step]
    split
    · exact .refl
    · exact .rows s.jobs _ s.claimedAt
  | releaseBuild token now => exact .rows s.jobs _ s.claimedAt
  | recoverExpired jobId now => exact .rows _ s.rows.lease s.claimedAt

/-! ## The invariant -/

/-- **The consistency of a system**: the present state is recorded, the stored feed renders the state
committed at its revision, and every rebuild in flight goes back to committed states. -/
structure Consistent (service : FeedRebuildService Url) (s : FeedSystem Url) : Prop where
  current : s.committed s.source.feedRevision = some ⟨s.source, s.articles⟩
  cache : ∀ cache ∈ s.rows.cache, cache.candidate.feedRevision ≤ s.source.feedRevision ∧
    ∃ snapshot, s.committed cache.candidate.feedRevision = some snapshot ∧
      snapshot.Renders service cache.candidate
  workers : ∀ worker, WorkerOk service s.committed s.source.feedRevision (s.workers worker)

theorem Consistent.advances (h : Consistent service s) {worker state : Worker Url}
    (hok : WorkerOk service s.committed s.source.feedRevision worker)
    (hadvances : Advances service s worker state) :
    WorkerOk service s.committed s.source.feedRevision state := by
  cases hadvances with
  | readSource => exact ⟨le_refl _, s.articles, h.current⟩
  | readArticles hlist =>
    have hread : HasRead s.committed s.source.feedRevision _ := hok
    exact ⟨hread, s.source.feedRevision, hread.1, le_refl _, _, h.current, hlist⟩
  | renderFeed hrender =>
    have hgenerated := (FeedRebuildService.renderFeed_eq_ok hrender).2
    exact ⟨_, _, hok.1, hok.2, by rw [hgenerated, hrender]⟩
  | _ => trivial

theorem Consistent.workersAdvance (h : Consistent service s)
    (hworkers : WorkersAdvance service s t) (worker : ℕ) :
    WorkerOk service s.committed s.source.feedRevision (t.workers worker) := by
  rcases hworkers worker with heq | hadvances
  · exact heq ▸ h.workers worker
  · exact h.advances (h.workers worker) hadvances

theorem Consistent.bump (h : Consistent service s) (source : Source)
    (articles : List (Article Url)) (jobs : List Job) (byArchive : Bool) :
    Consistent service (s.bump source articles jobs byArchive) where
  current := Function.update_self _ _ _
  cache cache hcache := by
    obtain ⟨hle, snapshot, hsnap, hrender⟩ := h.cache cache hcache
    have hkept : (s.bump source articles jobs byArchive).committed cache.candidate.feedRevision
        = some snapshot := (committed_bump _ hle).trans hsnap
    exact ⟨Nat.le_succ_of_le hle, snapshot, hkept, hrender⟩
  workers worker := (h.workers worker).bump _

/-- **Every step keeps the system consistent.** -/
theorem Consistent.effect (h : Consistent service s) (heffect : Effect service s t) :
    Consistent service t := by
  cases heffect with
  | bump source articles jobs byArchive => exact h.bump source articles jobs byArchive
  | frame hsource harticles hcommitted hcache hworkers =>
    refine ⟨by rw [hcommitted, hsource, harticles, h.current], ?_, ?_⟩
    · rw [hcache, hsource, hcommitted]
      exact h.cache
    · rw [hcommitted, hsource]
      exact h.workersAdvance hworkers
  | @published _ worker _ _ _ stored hstage hsource harticles hcommitted hcache hcandidate hrevision
      _ hworkers =>
    refine ⟨by rw [hcommitted, hsource, harticles, h.current], ?_, ?_⟩
    · intro cache hmem
      rw [hcache] at hmem
      obtain rfl := Option.some.inj hmem
      have hok := h.workers worker
      rw [hstage] at hok
      obtain ⟨snapshot, hsnap, hrender⟩ := renders_of_current hok hrevision
      rw [hcommitted, hsource, hcandidate]
      exact ⟨by rw [hrevision], snapshot, hsnap, hrender⟩
    · rw [hcommitted, hsource]
      exact h.workersAdvance hworkers

/-! ## What never goes back -/

/-- The later of two stored feeds, by revision and then by generation time. -/
def NotOlder (cache cache' : FeedCache) : Prop :=
  cache.candidate.feedRevision < cache'.candidate.feedRevision ∨
    (cache.candidate.feedRevision = cache'.candidate.feedRevision ∧
      cache.candidate.generatedAt ≤ cache'.candidate.generatedAt)

/-- **Progress**: committed states stay committed, and the stored feed is replaced only by one that is
not older. -/
structure Progress (s t : FeedSystem Url) : Prop where
  revision : s.source.feedRevision ≤ t.source.feedRevision
  committed : ∀ r ≤ s.source.feedRevision, t.committed r = s.committed r
  cache : ∀ cache ∈ s.rows.cache, ∃ cache' ∈ t.rows.cache, NotOlder cache cache'

theorem NotOlder.refl (cache : FeedCache) : NotOlder cache cache := .inr ⟨rfl, le_refl _⟩

theorem NotOlder.trans {a b c : FeedCache} (hab : NotOlder a b) (hbc : NotOlder b c) :
    NotOlder a c := by
  rcases hab with h | ⟨h, hle⟩ <;> rcases hbc with h' | ⟨h', hle'⟩
  · exact .inl (by omega)
  · exact .inl (by omega)
  · exact .inl (by omega)
  · exact .inr ⟨by omega, le_trans hle hle'⟩

theorem Progress.refl (s : FeedSystem Url) : Progress s s :=
  ⟨le_refl _, fun _ _ => rfl, fun cache h => ⟨cache, h, .refl cache⟩⟩

theorem Progress.trans {s t u : FeedSystem Url} (hst : Progress s t) (htu : Progress t u) :
    Progress s u where
  revision := le_trans hst.revision htu.revision
  committed r hr := (htu.committed r (le_trans hr hst.revision)).trans (hst.committed r hr)
  cache cache h := by
    obtain ⟨cache', h', hle⟩ := hst.cache cache h
    obtain ⟨cache'', h'', hle'⟩ := htu.cache cache' h'
    exact ⟨cache'', h'', hle.trans hle'⟩

/-- The upsert replaces a row only by one that is not older. -/
theorem notOlder_of_replaces {candidate : FeedCacheCandidate} {stored : Option FeedCache}
    (h : replaces candidate stored = true) {cache cache' : FeedCache} (hcache : cache ∈ stored)
    (hcache' : cache'.candidate = candidate) : NotOlder cache cache' := by
  rw [Option.mem_def.mp hcache] at h
  simp only [replaces, Option.all_some, Bool.or_eq_true, Bool.and_eq_true, decide_eq_true_eq] at h
  rw [NotOlder, hcache']
  exact h

/-- **Every step is progress.** -/
theorem Effect.progress (h : Effect service s t) : Progress s t := by
  cases h with
  | bump source articles jobs byArchive =>
    exact ⟨Nat.le_succ _, fun r hr => committed_bump _ hr,
      fun cache hcache => ⟨cache, hcache, .refl cache⟩⟩
  | frame hsource _ hcommitted hcache _ =>
    refine ⟨by rw [hsource], fun r _ => by rw [hcommitted], fun cache hmem => ?_⟩
    rw [hcache]
    exact ⟨cache, hmem, .refl cache⟩
  | published _ hsource _ hcommitted hcache hcandidate _ hreplaces _ =>
    refine ⟨by rw [hsource], fun r _ => by rw [hcommitted], fun cache hmem => ?_⟩
    rw [hcache]
    exact ⟨_, rfl, notOlder_of_replaces hreplaces hmem hcandidate⟩

/-! ## Whole runs -/

theorem consistent_init (service : FeedRebuildService Url) (source : Source)
    (articles : List (Article Url)) : Consistent service (init source articles) where
  current := by simp [init]
  cache cache h := by cases h
  workers _ := trivial

theorem Consistent.after (h : Consistent service s) (actions : List (FeedAction Url)) :
    Consistent service (s.after service actions) :=
  run_preserves (fun s a h => h.effect (step_effect service s a)) actions h

theorem progress_after (service : FeedRebuildService Url) (s : FeedSystem Url)
    (actions : List (FeedAction Url)) : Progress s (s.after service actions) :=
  run_mono Progress.refl (fun _ _ _ => Progress.trans)
    (fun s a => (step_effect service s a).progress) actions s

/-- A publication under a lease that is not live changes neither the feed nor the lease. -/
theorem rows_publish_of_not_live {token : FeedBuildLeaseToken} {clock : PublishClock}
    (completion : Option JobCompletion) (candidate : FeedCacheCandidate) (now : DateTime)
    (h : isLiveLease s.rows.lease service.owner token clock.live = false) (worker : ℕ) :
    (s.publish service worker completion token candidate clock now).rows = s.rows := by
  rcases publish_cases service s worker completion token candidate clock now with
    ⟨error, heq⟩ | ⟨rows, result, jobs, hlive, -⟩
  · rw [heq]
    rfl
  · rw [h] at hlive
    cases hlive

/-- **A stored feed shows one committed state, and never an older one than before.**  After every run
of any number of rebuilds and commits: the stored feed is the rendering of the state committed at its
revision; whatever follows, committed states stay and the stored feed is replaced only by a newer
one; and a publication under a lease that is not live leaves feed and lease alone. -/
theorem published_snapshot_consistent (service : FeedRebuildService Url) (source : Source)
    (articles : List (Article Url)) (actions : List (FeedAction Url)) :
    (∀ cache ∈ ((init source articles).after service actions).rows.cache, ∃ snapshot,
      ((init source articles).after service actions).committed cache.candidate.feedRevision
          = some snapshot ∧ snapshot.Renders service cache.candidate) ∧
    (∀ later, Progress ((init source articles).after service actions)
      ((init source articles).after service (actions ++ later))) ∧
    (∀ worker completion token candidate clock now,
      ((init source articles).after service actions).workers worker
        = .building completion token (.rendered candidate) →
      isLiveLease ((init source articles).after service actions).rows.lease service.owner token
        clock.live = false →
      (((init source articles).after service actions).step service
        (.publish worker clock now)).rows = ((init source articles).after service actions).rows) := by
  have hconsistent := (consistent_init service source articles).after actions
  refine ⟨fun cache hcache => (hconsistent.cache cache hcache).2, fun later => ?_, ?_⟩
  · rw [FeedSystem.after, FeedSystem.after, run_append]
    exact progress_after service _ later
  · intro worker completion token candidate clock now hworker hdead
    have hrows := rows_publish_of_not_live completion candidate now hdead
    simpa only [FeedSystem.step, hworker] using hrows worker

/-- The rebuild publishes the state committed at revision one. -/
theorem published_snapshot_consistent_rebuilt :
    ∃ cache ∈ ((init plainSource []).after plainService rebuildRun).rows.cache,
      cache.candidate.feedRevision = 1 ∧ ∃ snapshot,
        ((init plainSource []).after plainService rebuildRun).committed 1 = some snapshot ∧
          snapshot.Renders plainService cache.candidate := by
  have hstored : ((init plainSource []).after plainService rebuildRun).rows.cache.map
      (·.candidate.feedRevision) = some 1 := by decide +kernel
  obtain ⟨cache, hcache, hrevision⟩ := Option.map_eq_some_iff.mp hstored
  obtain ⟨snapshot, hsnap, hrender⟩ :=
    (published_snapshot_consistent plainService plainSource [] rebuildRun).1 cache hcache
  exact ⟨cache, hcache, hrevision, snapshot, hrevision ▸ hsnap, hrender⟩

end FeedSystem

end Werrss
