import Mathlib.Data.Option.NAry
import Werrss.Domain.JobStep

/-!
# Domain/JobRun — what holds along every run of a job

    Job::new ──op₁──▸ job₁ ──op₂──▸ …        history: (op, answer), newest first

Two invariants carry the results.  `Valid` is `validate_persisted_state` as a proposition: every
reachable job can be read back from its own row.  `openClaim` reads the history — the last accepted
claim, unless something ended its lease since — and agrees with the job's lease fields, which is
what fences a stale worker out.
-/

open Machinery

namespace Werrss

namespace Job

/-! ## Validity -/

/-- No lease field is set. -/
structure NoLease (job : Job) : Prop where
  owner : job.leaseOwner = none
  token : job.leaseToken = none
  until' : job.leaseUntil = none

/-- The status-dependent clauses of `validate_persisted_state`. -/
def Phase (job : Job) : Prop :=
  match job.status with
  | .running =>
    job.claimCount ≠ 0 ∧
      (∃ owner token leaseUntil, job.leaseOwner = some owner ∧ isBlank owner = false ∧
        job.leaseToken = some token ∧ job.leaseUntil = some leaseUntil) ∧
      job.finishedAt = none ∧ job.failureCount < job.maxAttempts
  | .queued | .retryWait | .deferred =>
    job.NoLease ∧ job.finishedAt = none ∧ job.failureCount < job.maxAttempts
  | .succeeded | .failed => job.NoLease ∧ job.finishedAt ≠ none

/-- **A job whose row can be read back.** -/
structure Valid (job : Job) : Prop where
  limit : job.maxAttempts ≠ 0
  budget : job.failureCount ≤ job.maxAttempts
  key : isBlank job.dedupeKey = false
  phase : job.Phase

theorem leaseIsEmpty_iff (job : Job) : job.leaseIsEmpty = true ↔ job.NoLease := by
  constructor
  · intro h
    simp only [leaseIsEmpty, Bool.and_eq_true, Bool.not_eq_true', Option.isSome_eq_false_iff,
      Option.isNone_iff_eq_none] at h
    exact ⟨h.1.1, h.1.2, h.2⟩
  · rintro ⟨ho, ht, hu⟩
    simp [leaseIsEmpty, ho, ht, hu]

theorem leaseIsComplete_iff (job : Job) : job.leaseIsComplete = true ↔
    ∃ owner token leaseUntil, job.leaseOwner = some owner ∧ job.leaseToken = some token ∧
      job.leaseUntil = some leaseUntil := by
  constructor
  · intro h
    simp only [leaseIsComplete, Bool.and_eq_true, Option.isSome_iff_exists] at h
    obtain ⟨⟨⟨owner, ho⟩, token, ht⟩, leaseUntil, hu⟩ := h
    exact ⟨owner, token, leaseUntil, ho, ht, hu⟩
  · rintro ⟨owner, token, leaseUntil, ho, ht, hu⟩
    simp [leaseIsComplete, ho, ht, hu]

/-- The validator accepts a valid job. -/
theorem Valid.validatePersistedState_eq_ok {job : Job} (h : job.Valid) :
    job.validatePersistedState = .ok () := by
  obtain ⟨hlimit, hbudget, hkey, hphase⟩ := h
  have hfirst : ¬ (job.maxAttempts = 0 ∨ job.failureCount > job.maxAttempts) := by
    rintro (h0 | hgt)
    · exact hlimit h0
    · exact UInt32.not_le.mpr hgt hbudget
  unfold validatePersistedState
  rw [if_neg hfirst, hkey, if_neg Bool.false_ne_true]
  unfold Phase at hphase
  cases hs : job.status with
  | running =>
    simp only [hs] at hphase ⊢
    obtain ⟨hclaim, ⟨owner, token, leaseUntil, ho, hblank, ht, hu⟩, hfin, hlt⟩ := hphase
    have hcomplete := (leaseIsComplete_iff job).mpr ⟨owner, token, leaseUntil, ho, ht, hu⟩
    simp [hclaim, hcomplete, ho, hblank, hfin, UInt32.not_le.mpr hlt]
  | queued | retryWait | deferred =>
    simp only [hs] at hphase ⊢
    obtain ⟨hlease, hfin, hlt⟩ := hphase
    simp [(leaseIsEmpty_iff job).mpr hlease, hfin, UInt32.not_le.mpr hlt]
  | succeeded | failed =>
    simp only [hs] at hphase ⊢
    obtain ⟨hlease, hfin⟩ := hphase
    simp [(leaseIsEmpty_iff job).mpr hlease, hfin]

/-- **A valid job survives the round trip through its row.** -/
theorem Valid.fromPersisted_toPersisted {job : Job} (h : job.Valid) :
    fromPersisted job.toPersisted = .ok job := by
  have hv := h.validatePersistedState_eq_ok
  cases job
  simp only [fromPersisted, toPersisted, hv]

theorem new_valid {id : Uuid} {spec : NewJob} {job : Job} (h : new id spec = .ok job) :
    job.Valid := by
  unfold new at h
  split_ifs at h with h0 hkey
  obtain rfl := Except.ok.inj h
  have hpos : (0 : UInt32) < spec.maxAttempts := UInt32.pos_iff_ne_zero.mpr h0
  exact ⟨h0, UInt32.le_of_lt hpos, by simpa using hkey, ⟨rfl, rfl, rfl⟩, rfl, hpos⟩

/-- The failure budget of a running job is not spent. -/
theorem Valid.running_budget {job : Job} (h : job.Valid) (hs : job.status = .running) :
    job.failureCount < job.maxAttempts := by
  have hphase := h.phase
  simp only [Phase, hs] at hphase
  exact hphase.2.2.2

/-- A recovery or a retry counts one failure on a running job, within its limit. -/
theorem Valid.count_failure {job : Job} (h : job.Valid) (hs : job.status = .running) :
    ∃ count, checkedAdd job.failureCount 1 = some count ∧
      count.toNat = job.failureCount.toNat + 1 ∧ count ≤ job.maxAttempts := by
  have hlt := h.running_budget hs
  obtain ⟨count, hcount, hnat⟩ := checkedAdd_one_of_lt hlt
  refine ⟨count, hcount, hnat, ?_⟩
  rw [UInt32.le_iff_toNat_le, hnat]
  exact UInt32.lt_iff_toNat_lt.mp hlt

/-- **Every accepted operation keeps the job valid.** -/
theorem Moves.valid {job job' : Job} {op : JobOp} (h : Moves job op job') (hv : job.Valid) :
    job'.Valid := by
  obtain ⟨hlimit, hbudget, hkey, hphase⟩ := hv
  have hv : job.Valid := ⟨hlimit, hbudget, hkey, hphase⟩
  cases h with
  | claim howner hwait hlt hcount =>
    refine ⟨hlimit, hbudget, hkey, ?_, ⟨_, _, _, rfl, howner, rfl, rfl⟩, rfl, hlt⟩
    rintro h0
    have hnat := toNat_of_checkedAdd_one hcount
    simp only at h0
    rw [h0] at hnat
    exact absurd hnat (by simp)
  | defer hlive =>
    exact ⟨hlimit, hbudget, hkey, ⟨rfl, rfl, rfl⟩, rfl, hv.running_budget hlive.running⟩
  | heartbeat hlive =>
    simp only [Phase, hlive.running] at hphase
    obtain ⟨hclaim, ⟨owner, token, _, ho, hblank, ht, _⟩, hfin, hlt⟩ := hphase
    refine ⟨hlimit, hbudget, hkey, ?_⟩
    simp only [Phase, hlive.running]
    exact ⟨hclaim, ⟨owner, token, _, ho, hblank, ht, rfl⟩, hfin, hlt⟩
  | succeed hlive =>
    exact ⟨hlimit, hbudget, hkey, ⟨rfl, rfl, rfl⟩, Option.some_ne_none _⟩
  | retryLast hlive hcount hlast =>
    obtain ⟨count, hcount', -, hle⟩ := hv.count_failure hlive.running
    obtain rfl := Option.some.inj (hcount.symm.trans hcount')
    exact ⟨hlimit, hle, hkey, ⟨rfl, rfl, rfl⟩, Option.some_ne_none _⟩
  | retryWait hlive hcount hmore =>
    exact ⟨hlimit, UInt32.le_of_lt hmore, hkey, ⟨rfl, rfl, rfl⟩, rfl, hmore⟩
  | fail hlive =>
    exact ⟨hlimit, hbudget, hkey, ⟨rfl, rfl, rfl⟩, Option.some_ne_none _⟩
  | cancel hwait =>
    exact ⟨hlimit, hbudget, hkey, ⟨rfl, rfl, rfl⟩, Option.some_ne_none _⟩
  | recoverLast hrun hlast =>
    obtain ⟨count, hcount, -, hle⟩ := hv.count_failure hrun
    rw [← saturatingAdd_of_checkedAdd hcount] at hle
    exact ⟨hlimit, hle, hkey, ⟨rfl, rfl, rfl⟩, Option.some_ne_none _⟩
  | recoverQueue hrun hmore =>
    exact ⟨hlimit, UInt32.le_of_lt hmore, hkey, ⟨rfl, rfl, rfl⟩, rfl, hmore⟩

/-- On a valid job an operation settles: no operation fails halfway. -/
theorem Valid.settles {job : Job} (h : job.Valid) (op : JobOp) : job.Settles op :=
  job.apply_cases h.running_budget op

theorem Valid.apply {job : Job} (h : job.Valid) (op : JobOp) : (job.apply op).1.Valid := by
  rcases h.settles op with ⟨-, heq⟩ | ⟨-, hmoves⟩
  · rwa [heq]
  · exact hmoves.valid h

end Job

/-! ## Reading the history -/

/-- The calls made so far with their answers, newest first. -/
abbrev JobHistory := List (JobOp × JobAnswer)

namespace JobHistory

/-- The token an accepted claim drew. -/
def drawn : JobOp × JobAnswer → Option LeaseToken
  | (.claim _ _ _ draw, answer) => if answer.accepted then some draw else none
  | _ => none

/-- Every accepted operation but a claim and a heartbeat ends the lease it finds. -/
def endsLease : JobOp × JobAnswer → Bool
  | (.claim .., _) => false
  | (.heartbeat .., _) => false
  | (_, answer) => answer.accepted

/-- **The claim that is open**: owner and token of the last accepted claim, unless its lease was
ended since. -/
def openClaim : JobHistory → Option (String × LeaseToken)
  | [] => none
  | (.claim owner now leaseFor draw, answer) :: h =>
    if (drawn (.claim owner now leaseFor draw, answer)).isSome then some (owner, draw)
    else openClaim h
  | e :: h => if endsLease e then none else openClaim h

/-- The accepted claims of a history. -/
def claims (h : JobHistory) : ℕ := h.countP fun e => (drawn e).isSome

/-- An accepted retry or a recovery that changed the job. -/
def countsFailure : JobOp × JobAnswer → Bool
  | (.retry .., answer) => answer.accepted
  | (.recoverExpiredLease _, answer) => answer.accepted
  | _ => false

/-- The accepted retries and true recoveries of a history. -/
def failures (h : JobHistory) : ℕ := h.countP countsFailure

/-- **The token's claim is over**: some lease was ended after the token was drawn. -/
def Ended (token : LeaseToken) (h : JobHistory) : Prop :=
  ∃ newer e older, h = newer ++ e :: older ∧ endsLease e = true ∧
    token ∈ older.filterMap drawn

/-- No two accepted claims drew the same token. -/
def FreshDraws (h : JobHistory) : Prop := (h.filterMap drawn).Nodup

/-- A rejected call leaves no mark on the history. -/
theorem drawn_of_rejected {e : JobOp × JobAnswer} (h : e.2.accepted = false) : drawn e = none := by
  obtain ⟨op, answer⟩ := e
  cases op <;> simp_all [drawn]

theorem endsLease_of_rejected {e : JobOp × JobAnswer} (h : e.2.accepted = false) :
    endsLease e = false := by
  obtain ⟨op, answer⟩ := e
  cases op <;> simp_all [endsLease]

theorem openClaim_of_rejected {e : JobOp × JobAnswer} (he : e.2.accepted = false)
    (h : JobHistory) : openClaim (e :: h) = openClaim h := by
  have hd := drawn_of_rejected he
  have hends := endsLease_of_rejected he
  obtain ⟨op, answer⟩ := e
  cases op <;> simp only [openClaim, hd, hends, Option.isSome_none, Bool.false_eq_true, if_false]

/-- **The open claim is the last one, and nothing ended its lease.** -/
theorem openClaim_eq_some {owner : String} {token : LeaseToken} : ∀ {h : JobHistory},
    openClaim h = some (owner, token) →
      ∃ newer now leaseFor answer older,
        h = newer ++ (.claim owner now leaseFor token, answer) :: older ∧ answer.accepted = true ∧
          ∀ e ∈ newer, drawn e = none ∧ endsLease e = false
  | [], hopen => by cases hopen
  | (op, answer) :: h, hopen => by
    -- A claim is the open one or was rejected; any other call ended the lease or passes.
    have hskip : ∀ (_ : openClaim h = some (owner, token)) (_ : drawn (op, answer) = none)
        (_ : endsLease (op, answer) = false),
        ∃ newer now leaseFor answer' older,
          (op, answer) :: h = newer ++ (.claim owner now leaseFor token, answer') :: older ∧
            answer'.accepted = true ∧ ∀ e ∈ newer, drawn e = none ∧ endsLease e = false := by
      intro hrest hd hends
      obtain ⟨newer, now, leaseFor, answer', older, rfl, hacc, hnewer⟩ := openClaim_eq_some hrest
      refine ⟨(op, answer) :: newer, now, leaseFor, answer', older, rfl, hacc, ?_⟩
      intro e he
      rcases List.mem_cons.mp he with rfl | he
      · exact ⟨hd, hends⟩
      · exact hnewer e he
    cases op with
    | claim owner' now leaseFor draw =>
      simp only [openClaim] at hopen
      split_ifs at hopen with hdraw
      · obtain ⟨rfl, rfl⟩ := Prod.mk.inj (Option.some.inj hopen)
        refine ⟨[], now, leaseFor, answer, h, rfl, ?_, by simp⟩
        by_contra hacc
        simp [drawn, hacc] at hdraw
      · exact hskip hopen (Option.not_isSome_iff_eq_none.mp hdraw) rfl
    | defer | heartbeat | succeed | retry | fail | cancel | recoverExpiredLease =>
      simp only [openClaim] at hopen
      split_ifs at hopen with hends
      exact hskip hopen rfl (Bool.eq_false_iff.mpr hends)

/-- **An open claim is not over**, as long as no token is drawn twice. -/
theorem not_ended_of_openClaim {owner : String} {token : LeaseToken} {h : JobHistory}
    (hopen : openClaim h = some (owner, token)) (hfresh : FreshDraws h) : ¬ Ended token h := by
  rintro ⟨newer', e, older', heq', hends, hmem⟩
  obtain ⟨newer, now, leaseFor, answer, older, heq, hacc, hnewer⟩ := openClaim_eq_some hopen
  have hdraw : drawn (.claim owner now leaseFor token, answer) = some token := by
    simp [drawn, hacc]
  have hnone : newer.filterMap drawn = [] :=
    List.filterMap_eq_nil_iff.mpr fun x hx => (hnewer x hx).1
  have hsuffix : (newer ++ (.claim owner now leaseFor token, answer) :: older)
      = newer' ++ e :: older' := heq.symm.trans heq'
  rcases List.append_eq_append_iff.mp hsuffix with ⟨mid, hn', ho⟩ | ⟨mid, hn, ho⟩
  · -- The claim is at or after `e`, so its token would be drawn again further down.
    cases mid with
    | nil =>
      obtain ⟨rfl, -⟩ := List.cons.inj ho
      simp [endsLease] at hends
    | cons c mid =>
      obtain ⟨-, rfl⟩ := List.cons.inj ho
      have hnodup : (token :: (mid ++ e :: older').filterMap drawn).Nodup := by
        have := hfresh
        rw [FreshDraws, heq, List.filterMap_append, hnone, List.nil_append,
          List.filterMap_cons_some hdraw] at this
        exact this
      refine (List.nodup_cons.mp hnodup).1 ?_
      rw [List.filterMap_append, List.mem_append]
      refine .inr ?_
      cases hd : drawn e with
      | none => rwa [List.filterMap_cons_none hd]
      | some t => rw [List.filterMap_cons_some hd]; exact List.mem_cons_of_mem _ hmem
  · -- `e` lies above the claim, where nothing ends a lease.
    cases mid with
    | nil =>
      obtain ⟨rfl, -⟩ := List.cons.inj ho
      simp [endsLease] at hends
    | cons c mid =>
      obtain ⟨rfl, -⟩ := List.cons.inj ho
      have := (hnewer e (by rw [hn]; simp)).2
      rw [hends] at this
      cases this

theorem Ended.append {token : LeaseToken} {h : JobHistory} (hend : Ended token h)
    (newer : JobHistory) : Ended token (newer ++ h) := by
  obtain ⟨newer', e, older, rfl, hends, hmem⟩ := hend
  exact ⟨newer ++ newer', e, older, by rw [List.append_assoc], hends, hmem⟩

end JobHistory

/-! ## The history tracks the job -/

open JobHistory

/-- Owner and token of the lease a job carries. -/
def Job.holder (job : Job) : Option (String × LeaseToken) :=
  Option.map₂ Prod.mk job.leaseOwner job.leaseToken

/-- **What a job knows of its history**: its counters count it and its lease is the open claim. -/
structure Tracks (job : Job) (h : JobHistory) : Prop where
  valid : job.Valid
  claims_eq : job.claimCount.toNat = claims h
  failures_eq : job.failureCount.toNat = failures h
  holder_eq : job.holder = openClaim h

namespace Tracks

theorem new {id : Uuid} {spec : NewJob} {job : Job} (h : Job.new id spec = .ok job) :
    Tracks job [] := by
  refine ⟨Job.new_valid h, ?_, ?_, ?_⟩ <;>
  · unfold Job.new at h
    split_ifs at h
    obtain rfl := Except.ok.inj h
    rfl

/-- A rejected call adds nothing to any count. -/
theorem rejected {job : Job} {h : JobHistory} (ht : Tracks job h) {e : JobOp × JobAnswer}
    (he : e.2.accepted = false) : Tracks job (e :: h) := by
  have hd := drawn_of_rejected he
  have hf : countsFailure e = false := by
    obtain ⟨op, answer⟩ := e
    cases op <;> simp_all [countsFailure]
  refine ⟨ht.valid, ?_, ?_, ?_⟩
  · rw [ht.claims_eq, claims, claims, List.countP_cons_of_neg (by simp [hd])]
  · rw [ht.failures_eq, failures, failures, List.countP_cons_of_neg (by simp [hf])]
  · rw [ht.holder_eq, openClaim_of_rejected he]

/-- **An accepted call moves the counters and the lease as the history does.** -/
theorem moved {job job' : Job} {h : JobHistory} (ht : Tracks job h) {op : JobOp}
    {answer : JobAnswer} (hacc : answer.accepted = true) (hm : Job.Moves job op job') :
    Tracks job' ((op, answer) :: h) := by
  have hc := ht.claims_eq
  have hf := ht.failures_eq
  have ho := ht.holder_eq
  simp only [claims, failures] at hc hf
  refine ⟨hm.valid ht.valid, ?_, ?_, ?_⟩
  · -- Only a claim draws a token.
    cases hm with
    | claim howner hwait hlt hcount =>
      simp [claims, drawn, hacc, toNat_of_checkedAdd_one hcount, hc]
    | _ => simpa [claims, drawn, Job.clearLease] using hc
  · -- Retries and recoveries count one failure, and on a valid job neither saturates.
    cases hm with
    | retryLast hlive hcount _ | retryWait hlive hcount _ =>
      simp [failures, countsFailure, hacc, toNat_of_checkedAdd_one hcount, hf]
    | recoverLast hrun _ | recoverQueue hrun _ =>
      obtain ⟨count, hcount, hnat, -⟩ := ht.valid.count_failure hrun
      simp [failures, countsFailure, hacc, saturatingAdd_of_checkedAdd hcount, hnat, hf]
    | _ => simpa [failures, countsFailure, Job.clearLease] using hf
  · -- A claim opens, a heartbeat keeps, everything else closes.
    cases hm with
    | claim => simp [Job.holder, openClaim, drawn, hacc]
    | heartbeat => simpa [Job.holder, openClaim, endsLease] using ho
    | _ => simp [Job.holder, Job.clearLease, openClaim, endsLease, hacc]

/-- **One call keeps the history true of the job.** -/
theorem step {job : Job} {h : JobHistory} (ht : Tracks job h) (op : JobOp) :
    Tracks (job.apply op).1 ((op, (job.apply op).2) :: h) := by
  rcases ht.valid.settles op with ⟨hrej, heq⟩ | ⟨hacc, hmoves⟩
  · rw [heq]
    exact ht.rejected hrej
  · exact ht.moved hacc hmoves

/-- **Every run from `Job::new` is tracked.** -/
theorem exec {id : Uuid} {spec : NewJob} {job : Job} (h : Job.new id spec = .ok job)
    (ops : List JobOp) : Tracks (Job.machine.exec job ops).1 (Job.machine.exec job ops).2 :=
  Job.machine.exec_invariant (Tracks.new h) (fun _ _ op ht => ht.step op) ops

/-- **A caller that is let through holds the open claim.** -/
theorem fenced {job : Job} {h : JobHistory} (ht : Tracks job h) {op : JobOp} {owner : String}
    {token : LeaseToken} {now : DateTime} (hf : op.fence = some (owner, token, now))
    (hacc : (job.apply op).2.accepted = true) :
    openClaim h = some (owner, token) ∧ job.Live owner token now := by
  rcases ht.valid.settles op with ⟨hrej, -⟩ | ⟨-, hmoves⟩
  · rw [hrej] at hacc
    cases hacc
  · have hlive := hmoves.live hf
    refine ⟨?_, hlive⟩
    rw [← ht.holder_eq, Job.holder, hlive.owner_eq, hlive.token_eq]
    rfl

/-- **A token whose claim is over is turned away**, and nothing changes. -/
theorem ended_rejected {job : Job} {h : JobHistory} (ht : Tracks job h) {token : LeaseToken}
    (hend : Ended token h) (hfresh : FreshDraws h) {op : JobOp} {owner : String} {now : DateTime}
    (hf : op.fence = some (owner, token, now)) :
    (job.apply op).2.accepted = false ∧ (job.apply op).1 = job := by
  rcases ht.valid.settles op with hrej | ⟨hacc, -⟩
  · exact hrej
  · have hopen := (ht.fenced hf hacc).1
    exact absurd hend (not_ended_of_openClaim hopen hfresh)

end Tracks

namespace Job

/-- No operation moves a job out of a terminal status. -/
theorem Moves.not_terminal {job job' : Job} {op : JobOp} (h : Moves job op job') :
    job.status.isTerminal = false := by
  have hwaiting : job.status.isWaiting = true → job.status.isTerminal = false := by
    cases job.status <;> simp [JobStatus.isWaiting, JobStatus.isTerminal]
  have hrunning : job.status = .running → job.status.isTerminal = false := by
    rintro hs
    rw [hs]
    rfl
  cases h with
  | claim _ hwait _ _ | cancel hwait => exact hwaiting hwait
  | recoverLast hrun _ | recoverQueue hrun _ => exact hrunning hrun
  | defer hlive | heartbeat hlive | succeed hlive | retryLast hlive | retryWait hlive
  | fail hlive => exact hrunning hlive.running

theorem Valid.terminal_fixed {job : Job} (h : job.Valid) (ht : job.status.isTerminal = true)
    (op : JobOp) : (job.apply op).1 = job := by
  rcases h.settles op with ⟨-, heq⟩ | ⟨-, hmoves⟩
  · exact heq
  · rw [hmoves.not_terminal] at ht
    cases ht

/-- The calls that make a job fail: `fail` and `cancel`, and the counted failure that reaches the
attempt limit. -/
def FailsAt (job : Job) (op : JobOp) : Prop :=
  (job.apply op).2.accepted = true ∧
    match op with
    | .fail .. | .cancel .. => True
    | .retry .. | .recoverExpiredLease _ => (job.apply op).1.failureCount = job.maxAttempts
    | _ => False

/-- The attempt limit is fixed when the job is made. -/
theorem Moves.maxAttempts_eq {job job' : Job} {op : JobOp} (h : Moves job op job') :
    job'.maxAttempts = job.maxAttempts := by
  cases h <;> rfl

/-- **Only retries and recoveries count failures.** -/
theorem Moves.failureCount_eq {job job' : Job} {op : JobOp} {answer : JobAnswer}
    (h : Moves job op job') (hacc : answer.accepted = true)
    (hop : countsFailure (op, answer) = false) : job'.failureCount = job.failureCount := by
  cases h with
  | retryLast | retryWait | recoverLast | recoverQueue =>
    simp only [countsFailure] at hop
    rw [hacc] at hop
    cases hop
  | claim | defer | heartbeat | succeed | fail | cancel => rfl

/-- **When a job becomes failed.** -/
theorem Valid.failed_iff {job : Job} (h : job.Valid) (hs : job.status ≠ .failed) (op : JobOp) :
    (job.apply op).1.status = .failed ↔ job.FailsAt op := by
  unfold FailsAt
  rcases h.settles op with ⟨hrej, heq⟩ | ⟨hacc, hmoves⟩
  · simp [hrej, heq, hs]
  generalize job.apply op = next at hacc hmoves
  obtain ⟨job', answer⟩ := next
  simp only at hacc hmoves
  cases hmoves with
  | claim | defer | succeed => simp
  | heartbeat hlive => simp [hlive.running]
  | fail | cancel => simp [hacc]
  | retryLast hlive hcount hlast =>
    -- The failure before left budget, so reaching the limit means meeting it.
    obtain ⟨count, hcount', -, hle⟩ := h.count_failure hlive.running
    obtain rfl := Option.some.inj (hcount.symm.trans hcount')
    simp [hacc, UInt32.le_antisymm hle hlast]
  | retryWait hlive hcount hmore => simp [UInt32.ne_of_lt hmore]
  | recoverLast hrun hlast =>
    obtain ⟨count, hcount, -, hle⟩ := h.count_failure hrun
    rw [saturatingAdd_of_checkedAdd hcount] at hlast
    simp [hacc, saturatingAdd_of_checkedAdd hcount, UInt32.le_antisymm hle hlast]
  | recoverQueue hrun hmore => simp [UInt32.ne_of_lt hmore]

/-! ## Every run -/

section Run

variable {id : Uuid} {spec : NewJob} {job : Job}

theorem exec_maxAttempts (hnew : new id spec = .ok job) (ops : List JobOp) :
    (machine.exec job ops).1.maxAttempts = spec.maxAttempts := by
  induction ops using List.reverseRecOn with
  | nil =>
    unfold new at hnew
    split_ifs at hnew
    obtain rfl := Except.ok.inj hnew
    rfl
  | append_singleton ops op ih =>
    rw [Machine.exec_concat]
    rcases (Tracks.exec hnew ops).valid.settles op with ⟨-, heq⟩ | ⟨-, hmoves⟩
    · exact (congrArg maxAttempts heq).trans ih
    · exact hmoves.maxAttempts_eq.trans ih

/-- **Every reachable job reads back from its own row, and its counters count its run.** -/
theorem exec_valid_counted (hnew : new id spec = .ok job) (ops : List JobOp) :
    (machine.exec job ops).1.validatePersistedState = .ok () ∧
    fromPersisted (machine.exec job ops).1.toPersisted = .ok (machine.exec job ops).1 ∧
    (machine.exec job ops).1.claimCount.toNat = claims (machine.exec job ops).2 ∧
    (machine.exec job ops).1.failureCount.toNat = failures (machine.exec job ops).2 ∧
    (machine.exec job ops).1.failureCount ≤ (machine.exec job ops).1.maxAttempts ∧
    (machine.exec job ops).1.maxAttempts = spec.maxAttempts ∧
    ∀ op, (countsFailure (op, ((machine.exec job ops).1.apply op).2) = false →
        ((machine.exec job ops).1.apply op).1.failureCount
          = (machine.exec job ops).1.failureCount) ∧
      ((machine.exec job ops).1.status ≠ .failed →
        (((machine.exec job ops).1.apply op).1.status = .failed ↔
          (machine.exec job ops).1.FailsAt op)) := by
  have ht := Tracks.exec hnew ops
  refine ⟨ht.valid.validatePersistedState_eq_ok, ht.valid.fromPersisted_toPersisted, ht.claims_eq,
    ht.failures_eq, ht.valid.budget, exec_maxAttempts hnew ops, fun op => ⟨fun hop => ?_,
    fun hs => ht.valid.failed_iff hs op⟩⟩
  rcases ht.valid.settles op with ⟨-, heq⟩ | ⟨hacc, hmoves⟩
  · rw [heq]
  · exact hmoves.failureCount_eq hacc hop

/-- A rebuild job with a single attempt. -/
def singleAttempt : NewJob :=
  { jobType := .feedRebuild
    sourceId := some ⟨7⟩
    priority := 0
    runAfter := 0
    maxAttempts := 1
    payload := "null"
    dedupeKey := "feed_rebuild:7"
    now := 0 }

/-- The same with two attempts. -/
def twoAttempts : NewJob := { singleAttempt with maxAttempts := 2 }

/-- Claimed and retried once, the single attempt is spent and the job has failed. -/
theorem exec_valid_counted_singleAttempt :
    ∃ job, new ⟨1⟩ singleAttempt = .ok job ∧
      (machine.exec job [.claim "worker" 1 10 ⟨⟨5⟩⟩, .retry "worker" ⟨⟨5⟩⟩ 2 20 "timeout"]).1.status
        = .failed ∧
      fromPersisted (machine.exec job
        [.claim "worker" 1 10 ⟨⟨5⟩⟩, .retry "worker" ⟨⟨5⟩⟩ 2 20 "timeout"]).1.toPersisted
        = .ok (machine.exec job
          [.claim "worker" 1 10 ⟨⟨5⟩⟩, .retry "worker" ⟨⟨5⟩⟩ 2 20 "timeout"]).1 := by
  have hnew : ∃ job, new ⟨1⟩ singleAttempt = .ok job := ⟨_, rfl⟩
  obtain ⟨job, hjob⟩ := hnew
  refine ⟨job, hjob, ?_, (exec_valid_counted hjob _).2.1⟩
  obtain rfl := Except.ok.inj (hjob.symm.trans rfl)
  rfl

/-- **Lease fencing over whole runs.**  Whoever is let through holds the last claim, with nothing
having ended its lease since and the lease ahead of the clock; a claim that is over never acts
again; a terminal job never changes. -/
theorem exec_fenced (hnew : new id spec = .ok job) (ops : List JobOp) :
    (∀ op owner token now, op.fence = some (owner, token, now) →
      ((machine.exec job ops).1.apply op).2.accepted = true →
        (∃ leaseUntil, (machine.exec job ops).1.leaseUntil = some leaseUntil ∧ now < leaseUntil) ∧
        ∃ newer claimedAt leaseFor answer older,
          (machine.exec job ops).2
            = newer ++ (.claim owner claimedAt leaseFor token, answer) :: older ∧
          answer.accepted = true ∧ ∀ e ∈ newer, drawn e = none ∧ endsLease e = false) ∧
    (∀ ops' token, FreshDraws (machine.exec job (ops ++ ops')).2 →
      Ended token (machine.exec job ops).2 →
      ∀ op owner now, op.fence = some (owner, token, now) →
        ((machine.exec job (ops ++ ops')).1.apply op).2.accepted = false ∧
        ((machine.exec job (ops ++ ops')).1.apply op).1 = (machine.exec job (ops ++ ops')).1) ∧
    ((machine.exec job ops).1.status.isTerminal = true →
      ∀ op, ((machine.exec job ops).1.apply op).1 = (machine.exec job ops).1) := by
  have ht := Tracks.exec hnew ops
  refine ⟨fun op owner token now hf hacc => ?_, fun ops' token hfresh hend op owner now hf => ?_,
    fun hterm op => ht.valid.terminal_fixed hterm op⟩
  · obtain ⟨hopen, hlive⟩ := ht.fenced hf hacc
    exact ⟨hlive.ahead, openClaim_eq_some hopen⟩
  · obtain ⟨newer, hnewer⟩ := machine.exec_append_history job ops ops'
    have hend' : Ended token (machine.exec job (ops ++ ops')).2 := by
      rw [hnewer]
      exact hend.append newer
    exact (Tracks.exec hnew (ops ++ ops')).ended_rejected hend' hfresh hf

/-- A claim, its recovery, and a second claim: the first token is turned away for good, the second
is let through as the last claim. -/
theorem exec_fenced_twoAttempts :
    ∃ job, new ⟨1⟩ twoAttempts = .ok job ∧
      ((machine.exec job ([.claim "worker" 1 10 ⟨⟨5⟩⟩, .recoverExpiredLease 20] ++
        [.claim "worker" 21 10 ⟨⟨6⟩⟩])).1.apply (.succeed "worker" ⟨⟨5⟩⟩ 22)).2.accepted = false ∧
      ((machine.exec job ([.claim "worker" 1 10 ⟨⟨5⟩⟩, .recoverExpiredLease 20] ++
        [.claim "worker" 21 10 ⟨⟨6⟩⟩])).1.apply (.succeed "worker" ⟨⟨6⟩⟩ 22)).2.accepted = true ∧
      ∃ newer claimedAt leaseFor answer older,
        (machine.exec job ([.claim "worker" 1 10 ⟨⟨5⟩⟩, .recoverExpiredLease 20] ++
          [.claim "worker" 21 10 ⟨⟨6⟩⟩])).2
          = newer ++ (.claim "worker" claimedAt leaseFor ⟨⟨6⟩⟩, answer) :: older ∧
        answer.accepted = true ∧ ∀ e ∈ newer, drawn e = none ∧ endsLease e = false := by
  have hnew : ∃ job, new ⟨1⟩ twoAttempts = .ok job := ⟨_, rfl⟩
  obtain ⟨job, hjob⟩ := hnew
  obtain rfl := Except.ok.inj (hjob.symm.trans rfl)
  refine ⟨_, hjob, ?_, rfl, ((exec_fenced hjob _).1 (.succeed "worker" ⟨⟨6⟩⟩ 22) _ _ _ rfl rfl).2⟩
  refine ((exec_fenced hjob _).2.1 [.claim "worker" 21 10 ⟨⟨6⟩⟩] ⟨⟨5⟩⟩ ?_ ?_
    (.succeed "worker" ⟨⟨5⟩⟩ 22) "worker" 22 rfl).1
  · exact (List.nodup_cons (a := (⟨⟨6⟩⟩ : LeaseToken))).mpr ⟨by decide, by decide⟩
  · exact ⟨[], _, _, rfl, rfl, by decide⟩

end Run

end Job

end Werrss
