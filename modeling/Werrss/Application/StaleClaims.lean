import Werrss.Application.JobHandlers
import Werrss.Machinery.Fencing
import Werrss.Persistence.AssetCap

/-!
# Application/StaleClaims — what a worker can still do when its claim is gone

    worker:  idle ─claim─▸ executing ─(final transaction)*─▸ executing ─report─▸ reporting ─apply─▸ idle
    lease:         granted ─(heartbeat)*─▸ expired ─recover─▸ queued ─claim─▸ granted, another token

Any number of workers take their steps in any order, the database clock moves when it likes, and
everyone else edits sources, articles and feeds in between.  A handler may attempt several final
transactions under one claim — a success, then the failed run, then the outcome its worker applies —
and may not learn that one of them has committed.  **A claim commits at most once, and not at all
once it is stale**: every final transaction moves the job through the fence, and the fence never
reopens for a token.
-/

open Machinery

namespace Werrss

/-! ## The system -/

/-- Where a pass of `run_once` stands. -/
inductive WorkerPass
  | idle
  | executing (claim : JobCompletion)
  | reporting (claim : JobCompletion) (execution : JobExecution)
deriving DecidableEq

/-- The claim a pass acts under. -/
def WorkerPass.claim : WorkerPass → Option JobCompletion
  | .idle => none
  | .executing claim => some claim
  | .reporting claim _ => some claim

/-- **The database and its workers.**  The fields marked *ghost* are written by no code. -/
structure WorkSystem where
  clock : DateTime
  tables : WorkTables
  workers : ℕ → WorkerPass
  /-- *Ghost*: the tokens drawn by claims, and the claims granted. -/
  drawn : List LeaseToken
  granted : List JobCompletion
  /-- *Ghost*: the claims of the final transactions that committed, newest first. -/
  committed : List JobCompletion

section System

variable (Url : Type) [UrlCrate Url] [DecidableEq Url]

/-- A step of the system. -/
inductive WorkAction
  /-- the database clock advances -/
  | tick (nanoseconds : ℕ)
  | enqueue (id : Uuid) (spec : NewJob)
  | recoverExpired (jobId : Uuid)
  | claim (worker : ℕ) (jobId : Uuid) (owner : String) (token : LeaseToken) (leaseUntil : DateTime)
  | heartbeat (worker : ℕ) (leaseUntil : DateTime)
  /-- a source sync starts its run, in a transaction of its own -/
  | startRun (worker : ℕ) (run : NewSyncRun)
  /-- a rebuild acquires the build lease of its feed -/
  | acquireBuild (worker : ℕ) (sourceId : Uuid) (owner : String) (leaseFor : Duration)
      (token : FeedBuildLeaseToken)
  /-- a handler's final transaction, and whether the handler hears of its commit -/
  | finish (worker : ℕ) (work : FinalWork Url) (answered : Bool)
  /-- the handler returns, or is cancelled by the timeout -/
  | report (worker : ℕ) (execution : JobExecution)
  /-- the worker applies what was reported -/
  | apply (worker : ℕ)
  /-- the process dies, or the heartbeat is lost -/
  | abandon (worker : ℕ)
  /-- everyone else's transactions -/
  | edit (sources : List SourceRow) (archive : ArchiveTables) (syncRuns : List SyncRun)
      (feeds : Uuid → FeedRows)

end System

namespace WorkSystem

def setWorker (s : WorkSystem) (worker : ℕ) (pass : WorkerPass) : WorkSystem :=
  { s with workers := Function.update s.workers worker pass }

def setJobs (s : WorkSystem) (jobs : Option (List Job)) : WorkSystem :=
  { s with tables := { s.tables with jobs := jobs.getD s.tables.jobs } }

/-- A pass takes a claim to its job. -/
def grant (s : WorkSystem) (worker : ℕ) (claim : JobCompletion) (jobs : List Job) : WorkSystem :=
  { s with
    tables := { s.tables with jobs := jobs }
    workers := Function.update s.workers worker (.executing claim)
    drawn := claim.token :: s.drawn
    granted := claim :: s.granted }

/-- A final transaction under a claim: what it commits, if it does. -/
def conclude (s : WorkSystem) (claim : JobCompletion) : Option WorkTables → WorkSystem
  | none => s
  | some tables => { s with tables := tables, committed := claim :: s.committed }

/-- The pass of a worker whose handler attempted a final transaction. -/
def passAfter (claim : JobCompletion) (tables : Option WorkTables) (answered : Bool) : WorkerPass :=
  if tables.isSome && answered then .idle else .executing claim

section Steps

variable {Url : Type} [UrlCrate Url] [LawfulUrlCrate Url] [DecidableEq Url] [Sha2Crate]
variable (policy : AssetCachePolicy) (config : SourceSyncConfig)

/-- **One step.**  An action that the worker's pass does not allow changes nothing. -/
def step (s : WorkSystem) : WorkAction Url → WorkSystem
  | .tick nanoseconds => { s with clock := s.clock + nanoseconds }
  | .enqueue id spec => s.setJobs (enqueueJob s.tables.jobs id spec)
  | .recoverExpired jobId => s.setJobs (JobTable.recoverExpired s.tables.jobs jobId s.clock)
  | .claim worker jobId owner token leaseUntil =>
    match s.workers worker with
    | .idle =>
      match JobTable.claim s.tables.jobs jobId owner token s.clock leaseUntil with
      | none => { s with drawn := token :: s.drawn }
      | some jobs => s.grant worker ⟨jobId, owner, token⟩ jobs
    | _ => s
  | .heartbeat worker leaseUntil =>
    match s.workers worker with
    | .executing claim => s.setJobs
        (JobTable.heartbeat s.tables.jobs claim.jobId claim.owner claim.token s.clock leaseUntil)
    | _ => s
  | .startRun worker run =>
    match s.workers worker with
    | .executing _ =>
      let syncRuns := (SyncRunRepository.start s.tables.syncRuns run).getD s.tables.syncRuns
      { s with tables := { s.tables with syncRuns := syncRuns } }
    | _ => s
  | .acquireBuild worker sourceId owner leaseFor token =>
    match s.workers worker with
    | .executing _ =>
      match acquireBuild (s.tables.feeds sourceId).lease sourceId owner leaseFor token s.clock with
      | .ok (some lease) =>
        let rows := { s.tables.feeds sourceId with lease := some lease }
        { s with tables :=
            { s.tables with feeds := Function.update s.tables.feeds sourceId rows } }
      | _ => s
    | _ => s
  | .finish worker work answered =>
    match s.workers worker with
    | .executing claim =>
      let tables := work.commit policy config s.tables claim s.clock
      (s.conclude claim tables).setWorker worker (passAfter claim tables answered)
    | _ => s
  | .report worker execution =>
    match s.workers worker with
    | .executing claim => s.setWorker worker (.reporting claim execution)
    | _ => s
  | .apply worker =>
    match s.workers worker with
    | .reporting claim execution =>
      (s.conclude claim ((FinalWork.outcome execution : FinalWork Url).commit policy config s.tables
        claim s.clock)).setWorker worker .idle
    | _ => s
  | .abandon worker => s.setWorker worker .idle
  | .edit sources archive syncRuns feeds =>
    { s with tables :=
      { s.tables with sources := sources, archive := archive, syncRuns := syncRuns, feeds := feeds } }

end Steps

/-- No job yet, idle workers, and whatever sources, articles and feeds there are. -/
def init (clock : DateTime) (sources : List SourceRow) (archive : ArchiveTables)
    (syncRuns : List SyncRun) (feeds : Uuid → FeedRows) : WorkSystem where
  clock := clock
  tables := ⟨[], sources, archive, syncRuns, feeds⟩
  workers _ := .idle
  drawn := []
  granted := []
  committed := []

section Actions

variable {Url : Type} [UrlCrate Url] [DecidableEq Url]

/-- The claim under which an action is taken. -/
def actor (s : WorkSystem) : WorkAction Url → Option JobCompletion
  | .heartbeat worker _ => (s.workers worker).claim
  | .startRun worker _ => (s.workers worker).claim
  | .acquireBuild worker .. => (s.workers worker).claim
  | .finish worker _ _ => (s.workers worker).claim
  | .report worker _ => (s.workers worker).claim
  | .apply worker => (s.workers worker).claim
  | .abandon worker => (s.workers worker).claim
  | _ => none

/-- `LeaseToken::new` draws a token that was not drawn before. -/
def DrawsFresh (s : WorkSystem) : WorkAction Url → Prop
  | .claim _ _ _ token _ => token ∉ s.drawn
  | _ => True

instance (s : WorkSystem) : ∀ action : WorkAction Url, Decidable (s.DrawsFresh action)
  | .claim _ _ _ token _ => inferInstanceAs (Decidable (token ∉ s.drawn))
  | .tick .. | .enqueue .. | .recoverExpired .. | .heartbeat .. | .startRun .. | .acquireBuild ..
  | .finish .. | .report .. | .apply .. | .abandon .. | .edit .. => isTrue trivial

end Actions

/-- The claim holds: its row runs under its owner and token, and outlives the database clock. -/
def Live (s : WorkSystem) (claim : JobCompletion) : Prop :=
  isClaimed s.tables.jobs claim s.clock = true

/-- **A stale claim**: its row was recovered, reclaimed or settled and has lost the token, or its
lease has expired at the database clock. -/
def Stale (s : WorkSystem) (claim : JobCompletion) : Prop :=
  ∀ job ∈ s.tables.jobs, job.id = claim.jobId → job.leaseToken = some claim.token →
    ∀ leaseUntil ∈ job.leaseUntil, leaseUntil ≤ s.clock

instance (s : WorkSystem) (claim : JobCompletion) : Decidable (s.Stale claim) :=
  inferInstanceAs (Decidable (∀ job ∈ s.tables.jobs, job.id = claim.jobId →
    job.leaseToken = some claim.token → ∀ leaseUntil ∈ job.leaseUntil, leaseUntil ≤ s.clock))

/-- Sources, articles, their assets, and what feeds are served. -/
structure SameBusiness (before after : WorkTables) : Prop where
  sources : after.sources = before.sources
  archive : after.archive = before.archive
  cache : ∀ sourceId, (after.feeds sourceId).cache = (before.feeds sourceId).cache

/-! ## What a step does to claims -/

/-- **All a step can do to claims**: tokens stay drawn and claims stay granted; a pass acts under a
granted claim; what comes alive bears a new token; and a commit ends the claim it is made under. -/
structure Effect (s s' : WorkSystem) : Prop where
  drawn : ∀ token ∈ s.drawn, token ∈ s'.drawn
  granted : ∀ claim ∈ s.granted, claim ∈ s'.granted
  tokens : ∀ claim ∈ s'.granted, claim ∈ s.granted ∨ claim.token ∈ s'.drawn
  workers : ∀ worker claim, (s'.workers worker).claim = some claim →
    (s.workers worker).claim = some claim ∨ claim ∈ s'.granted
  live : ∀ claim, s'.Live claim → s.Live claim ∨ claim.token ∉ s.drawn
  committed : s'.committed = s.committed ∨ ∃ worker claim,
    (s.workers worker).claim = some claim ∧ s'.committed = claim :: s.committed ∧
      s.Live claim ∧ ¬ s'.Live claim

/-- A step that grants nothing, commits nothing and lets no claim come alive. -/
theorem Effect.of_quiet {s s' : WorkSystem} (hdrawn : s'.drawn = s.drawn)
    (hgranted : s'.granted = s.granted) (hcommitted : s'.committed = s.committed)
    (hworkers : ∀ worker claim, (s'.workers worker).claim = some claim →
      (s.workers worker).claim = some claim)
    (hlive : ∀ claim, s'.Live claim → s.Live claim) : Effect s s' where
  drawn _ h := hdrawn ▸ h
  granted _ h := hgranted ▸ h
  tokens _ h := .inl (hgranted ▸ h)
  workers worker claim h := .inl (hworkers worker claim h)
  live claim h := .inl (hlive claim h)
  committed := .inl hcommitted

theorem Effect.refl (s : WorkSystem) : Effect s s :=
  .of_quiet rfl rfl rfl (fun _ _ h => h) fun _ h => h

/-- A statement on the jobs that grants no claim. -/
theorem Effect.setJobs {s : WorkSystem} {jobs : Option (List Job)}
    (h : ∀ jobs' ∈ jobs, ∀ claim, isClaimed jobs' claim s.clock = true →
      isClaimed s.tables.jobs claim s.clock = true) : Effect s (s.setJobs jobs) := by
  refine .of_quiet rfl rfl rfl (fun _ _ hclaim => hclaim) fun claim hlive => ?_
  cases jobs with
  | none => exact hlive
  | some jobs' => exact h jobs' rfl claim hlive

/-- A pass that goes on under its claim, or ends. -/
theorem claim_setWorker {s : WorkSystem} {worker : ℕ} {pass : WorkerPass}
    (h : ∀ claim, pass.claim = some claim → (s.workers worker).claim = some claim) (other : ℕ)
    (claim : JobCompletion) (hclaim : ((s.setWorker worker pass).workers other).claim = some claim) :
    (s.workers other).claim = some claim := by
  simp only [setWorker] at hclaim
  by_cases heq : other = worker
  · subst heq
    rw [Function.update_self] at hclaim
    exact h claim hclaim
  · rwa [Function.update_of_ne heq] at hclaim

theorem Effect.setWorker {s : WorkSystem} {worker : ℕ} {pass : WorkerPass}
    (h : ∀ claim, pass.claim = some claim → (s.workers worker).claim = some claim) :
    Effect s (s.setWorker worker pass) :=
  .of_quiet rfl rfl rfl (claim_setWorker h) fun _ hlive => hlive

theorem claim_passAfter {claim : JobCompletion} {tables : Option WorkTables} (answered : Bool)
    (claim' : JobCompletion) (h : (passAfter claim tables answered).claim = some claim') :
    claim' = claim := by
  unfold passAfter at h
  split at h
  · cases h
  · exact (Option.some.inj h).symm

/-- A final transaction under the claim of a pass. -/
theorem Effect.conclude {s : WorkSystem} {worker : ℕ} {claim : JobCompletion} {pass : WorkerPass}
    {tables : Option WorkTables} (hclaim : (s.workers worker).claim = some claim)
    (hpass : ∀ claim', pass.claim = some claim' → claim' = claim)
    (hsettles : ∀ tables' ∈ tables, Settles s.tables.jobs tables'.jobs claim s.clock) :
    Effect s ((s.conclude claim tables).setWorker worker pass) := by
  have hpass' : ∀ claim', pass.claim = some claim' → (s.workers worker).claim = some claim' :=
    fun claim' h => hpass claim' h ▸ hclaim
  cases tables with
  | none => exact .setWorker hpass'
  | some tables =>
    have h := hsettles tables rfl
    exact
      { drawn := fun _ hmem => hmem
        granted := fun _ hmem => hmem
        tokens := fun _ hmem => .inl hmem
        workers := fun other claim' hother => .inl (claim_setWorker (s := s) hpass' other claim' hother)
        live := fun other hlive => .inl (h.grantsNone other hlive)
        committed := .inr ⟨worker, claim, hclaim, rfl, h.held, Bool.eq_false_iff.mp h.released⟩ }

/-- A claim takes a pass to its job, under the token it has drawn. -/
theorem Effect.grant {s : WorkSystem} {worker : ℕ} {claim : JobCompletion} {leaseUntil : DateTime}
    {jobs : List Job} (hfresh : claim.token ∉ s.drawn)
    (h : JobTable.claim s.tables.jobs claim.jobId claim.owner claim.token s.clock leaseUntil
      = some jobs) : Effect s (s.grant worker claim jobs) where
  drawn _ hmem := List.mem_cons_of_mem _ hmem
  granted _ hmem := List.mem_cons_of_mem _ hmem
  tokens other hmem := by
    rcases List.mem_cons.mp hmem with rfl | hmem
    · exact .inr List.mem_cons_self
    · exact .inl hmem
  workers other claim' hother := by
    simp only [WorkSystem.grant] at hother
    by_cases heq : other = worker
    · subst heq
      rw [Function.update_self] at hother
      obtain rfl := Option.some.inj hother
      exact .inr List.mem_cons_self
    · rw [Function.update_of_ne heq] at hother
      exact .inl hother
  live other hlive := by
    by_cases hnew : other.token = claim.token
    · exact .inr (hnew ▸ hfresh)
    · exact .inl (isClaimed_claim h hnew hlive)
  committed := .inl rfl

/-- A stale claim does not hold. -/
theorem not_live_of_stale {s : WorkSystem} {claim : JobCompletion} (h : s.Stale claim) :
    ¬ s.Live claim := by
  intro hlive
  obtain ⟨job, hmem, hid, hfenced⟩ := isClaimed_iff.mp hlive
  simp only [JobTable.isFenced, Bool.and_eq_true, Option.any_eq_true, decide_eq_true_eq] at hfenced
  obtain ⟨⟨-, htoken⟩, leaseUntil, huntil, hlt⟩ := hfenced
  exact Int.not_le.mpr hlt (h job hmem hid htoken leaseUntil huntil)

/-- The passes act under granted claims, and those bear drawn tokens. -/
structure Guarded (s : WorkSystem) : Prop where
  tokens : ∀ claim ∈ s.granted, claim.token ∈ s.drawn
  workers : ∀ worker claim, (s.workers worker).claim = some claim → claim ∈ s.granted

theorem Guarded.effect {s s' : WorkSystem} (h : s.Guarded) (heffect : Effect s s') : s'.Guarded where
  tokens claim hmem := (heffect.tokens claim hmem).elim
    (fun hold => heffect.drawn _ (h.tokens claim hold)) id
  workers worker claim hclaim := (heffect.workers worker claim hclaim).elim
    (fun hold => heffect.granted _ (h.workers worker claim hold)) id

section Run

variable {Url : Type} [UrlCrate Url] [LawfulUrlCrate Url] [DecidableEq Url] [Sha2Crate]
variable {policy : AssetCachePolicy} {config : SourceSyncConfig}

/-- **Every step does that.** -/
theorem step_effect (s : WorkSystem) (action : WorkAction Url) (hfresh : s.DrawsFresh action) :
    Effect s (s.step policy config action) := by
  cases action with
  | tick nanoseconds =>
    have hle : s.clock ≤ s.clock + nanoseconds := Int.le_add_of_nonneg_right (Int.natCast_nonneg _)
    exact .of_quiet rfl rfl rfl (fun _ _ h => h) fun _ hlive => isClaimed_anti hle hlive
  | enqueue id spec =>
    exact .setJobs fun jobs h claim => (Bool.eq_iff_iff.mp (isClaimed_enqueueJob h claim s.clock)).mp
  | recoverExpired jobId =>
    exact .setJobs fun jobs h claim => isClaimed_recoverExpired h
  | claim worker jobId owner token leaseUntil =>
    simp only [step]
    split
    · split
      · exact
          { Effect.refl s with
            drawn := fun _ hmem => List.mem_cons_of_mem _ hmem
            tokens := fun _ hmem => .inl hmem }
      · rename_i jobs hclaim
        exact .grant hfresh hclaim
    · exact .refl s
  | heartbeat worker leaseUntil =>
    simp only [step]
    split
    · exact .setJobs fun jobs h claim => isClaimed_heartbeat h
    · exact .refl s
  | startRun worker run =>
    simp only [step]
    split
    · exact .of_quiet rfl rfl rfl (fun _ _ h => h) fun _ hlive => hlive
    · exact .refl s
  | acquireBuild worker sourceId owner leaseFor token =>
    simp only [step]
    split
    · split
      · exact .of_quiet rfl rfl rfl (fun _ _ h => h) fun _ hlive => hlive
      · exact .refl s
    · exact .refl s
  | finish worker work answered =>
    simp only [step]
    split
    · rename_i claim hworker
      exact .conclude (by rw [hworker]; rfl) (claim_passAfter answered)
        fun tables h => FinalWork.commit_settles h
    · exact .refl s
  | report worker execution =>
    simp only [step]
    split
    · rename_i claim hworker
      exact .setWorker fun claim' hclaim => by rw [hworker]; exact hclaim
    · exact .refl s
  | apply worker =>
    simp only [step]
    split
    · rename_i claim execution hworker
      exact .conclude (by rw [hworker]; rfl) (fun _ hclaim => by cases hclaim) fun tables h => FinalWork.commit_settles h
    · exact .refl s
  | abandon worker => exact .setWorker fun _ hclaim => by cases hclaim
  | edit sources archive syncRuns feeds =>
    exact .of_quiet rfl rfl rfl (fun _ _ h => h) fun _ hlive => hlive

variable (policy config) in
/-- **The fence of the job table**, as a fence. -/
def fence : Fence JobCompletion (step policy config) (@DrawsFresh Url _ _) where
  Invariant := Guarded
  Granted s claim := claim ∈ s.granted
  Live := Live
  log := committed
  invariant_step s action h hfresh := h.effect (step_effect s action hfresh)
  granted_step s action claim _ hfresh h := (step_effect s action hfresh).granted claim h
  live_step s action claim h hfresh hgranted hlive :=
    ((step_effect s action hfresh).live claim hlive).resolve_right fun hnew =>
      hnew (h.tokens claim hgranted)
  log_step s action h hfresh := (step_effect s action hfresh).committed.imp id
    fun ⟨worker, claim, hworker, hlog, hlive, hover⟩ =>
      ⟨claim, hlog, h.workers worker claim hworker, hlive, hover⟩

/-- A final transaction under a claim that does not hold commits nothing. -/
theorem commit_eq_none {s : WorkSystem} {claim : JobCompletion} (hdead : ¬ s.Live claim)
    (work : FinalWork Url) : work.commit policy config s.tables claim s.clock = none := by
  cases h : work.commit policy config s.tables claim s.clock with
  | none => rfl
  | some tables => exact absurd (FinalWork.commit_settles h).held hdead

/-- **What can be done under a claim that does not hold**: nothing is committed, and no source,
article, asset or served feed changes. -/
theorem acts_of_dead {s : WorkSystem} {action : WorkAction Url} {claim : JobCompletion}
    (hdead : ¬ s.Live claim) (hactor : s.actor action = some claim) :
    SameBusiness s.tables (s.step policy config action).tables ∧
      (s.step policy config action).committed = s.committed := by
  have hsame : SameBusiness s.tables s.tables := ⟨rfl, rfl, fun _ => rfl⟩
  cases action with
  | heartbeat worker leaseUntil =>
    simp only [step]
    split
    · exact ⟨⟨rfl, rfl, fun _ => rfl⟩, rfl⟩
    · exact ⟨hsame, rfl⟩
  | startRun worker run =>
    simp only [step]
    split
    · exact ⟨⟨rfl, rfl, fun _ => rfl⟩, rfl⟩
    · exact ⟨hsame, rfl⟩
  | acquireBuild worker sourceId owner leaseFor token =>
    simp only [step]
    split
    · split
      · refine ⟨⟨rfl, rfl, fun other => ?_⟩, rfl⟩
        by_cases heq : other = sourceId
        · subst heq
          simp only [Function.update_self]
        · simp only [Function.update_of_ne heq]
      · exact ⟨hsame, rfl⟩
    · exact ⟨hsame, rfl⟩
  | finish worker work answered =>
    simp only [step]
    split
    · rename_i claim' hworker
      obtain rfl : claim' = claim := by
        simpa [actor, hworker, WorkerPass.claim] using hactor
      rw [commit_eq_none hdead]
      exact ⟨hsame, rfl⟩
    · exact ⟨hsame, rfl⟩
  | report worker execution =>
    simp only [step]
    split
    · exact ⟨hsame, rfl⟩
    · exact ⟨hsame, rfl⟩
  | apply worker =>
    simp only [step]
    split
    · rename_i claim' execution hworker
      obtain rfl : claim' = claim := by
        simpa [actor, hworker, WorkerPass.claim] using hactor
      rw [commit_eq_none hdead]
      exact ⟨hsame, rfl⟩
    · exact ⟨hsame, rfl⟩
  | abandon worker => exact ⟨hsame, rfl⟩
  | tick | enqueue | recoverExpired | claim | edit => cases hactor

/-! ## Runs -/

/-- An action under `claim` changes no source, article, asset or served feed. -/
def Harmless (policy : AssetCachePolicy) (config : SourceSyncConfig) (claim : JobCompletion)
    (s : WorkSystem) (action : WorkAction Url) : Prop :=
  s.actor action = some claim →
    SameBusiness s.tables (s.step policy config action).tables ∧
      (s.step policy config action).committed = s.committed

/-- **Stale claims have no effect.**  In every run, under whatever order of claims, expiries,
recoveries, heartbeats and final transactions: each claim commits at most one of its final
transactions, and once a granted claim is stale, nothing that is ever done under it commits or
changes a source, an article, an asset or a served feed. -/
theorem stale_claims_have_no_effect (clock : DateTime) (sources : List SourceRow)
    (archive : ArchiveTables) (syncRuns : List SyncRun) (feeds : Uuid → FeedRows)
    (actions later : List (WorkAction Url))
    (hfresh : Meets (step policy config) DrawsFresh (init clock sources archive syncRuns feeds)
      (actions ++ later)) :
    (run (step policy config) (init clock sources archive syncRuns feeds)
        (actions ++ later)).committed.Nodup ∧
      ∀ claim ∈ (run (step policy config) (init clock sources archive syncRuns feeds)
          actions).granted,
        (run (step policy config) (init clock sources archive syncRuns feeds) actions).Stale claim →
        Meets (step policy config) (Harmless policy config claim)
          (run (step policy config) (init clock sources archive syncRuns feeds) actions) later := by
  let barrier : Fence JobCompletion (step policy config) (@DrawsFresh Url _ _) :=
    fence policy config
  have hinit : (init clock sources archive syncRuns feeds).Guarded := ⟨nofun, nofun⟩
  refine ⟨barrier.nodup_run hinit rfl hfresh, fun claim hgranted hstale => ?_⟩
  obtain ⟨hactions, hlater⟩ := (meets_append _ _ _).mp hfresh
  have hinv := run_invariant barrier.invariant_step actions hinit hactions
  exact barrier.meets_of_dead (fun s action _ _ hdead hactor => acts_of_dead hdead.2 hactor) later
    hinv ⟨hgranted, not_live_of_stale hstale⟩ hlater

end Run

/-! A lease runs out while its worker is away; the job is recovered and claimed by another worker.
The first worker comes back, its final transaction is refused, and so is the retry applied for it;
the second worker commits. -/

def awayJob : NewJob where
  jobType := .assetRefresh
  sourceId := none
  priority := 0
  runAfter := 0
  maxAttempts := 3
  payload := "{}"
  dedupeKey := "asset-refresh:a"
  now := 0

def awayClaim : JobCompletion := ⟨⟨1⟩, "away", ⟨⟨10⟩⟩⟩

def leaseLost : List (WorkAction PlainUrl) :=
  [.enqueue ⟨1⟩ awayJob, .claim 0 ⟨1⟩ "away" ⟨⟨10⟩⟩ 50, .tick 50, .recoverExpired ⟨1⟩,
    .claim 1 ⟨1⟩ "back" ⟨⟨11⟩⟩ 100]

def workerReturns : List (WorkAction PlainUrl) :=
  [.finish 0 .unresolvable true, .report 0 (.retry 60 "late"), .apply 0,
    .finish 1 .unresolvable true]

section Example

open AssetRepository

attribute [local instance] plainDigest

theorem stale_claims_have_no_effect_away :
    (run (step smallCache ⟨60, 300⟩) (init 0 [] .empty [] fun _ => ⟨none, none⟩)
        (leaseLost ++ workerReturns)).committed = [⟨⟨1⟩, "back", ⟨⟨11⟩⟩⟩] ∧
      Meets (step smallCache ⟨60, 300⟩) (Harmless smallCache ⟨60, 300⟩ awayClaim)
        (run (step smallCache ⟨60, 300⟩) (init 0 [] .empty [] fun _ => ⟨none, none⟩) leaseLost)
        workerReturns := by
  refine ⟨by decide +kernel, (stale_claims_have_no_effect 0 [] .empty [] (fun _ => ⟨none, none⟩)
    leaseLost workerReturns ?_).2 awayClaim ?_ ?_⟩
  · decide +kernel
  · decide +kernel
  · decide +kernel

end Example

end WorkSystem

end Werrss
