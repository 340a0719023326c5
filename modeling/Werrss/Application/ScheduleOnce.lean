import Werrss.Application.RiskGate
import Werrss.Application.ScheduledJobs

/-!
# Application/ScheduleOnce — no source is scheduled twice for one due time

    begin 1 ─ begin 2 ─ select 1, 2 ─ lock 1 ─ insert 1 ─ commit 1 ─ claim ─ finish ─ lock 2
        both snapshots have the source                                   due later    skipped

A slow pass looks at the newest version of a source once it has its lock.  A run that has finished
since is in that version: its next due instant is past the clock sample of the pass.
-/

open Machinery

namespace Werrss

namespace Scheduler

/-- The pass whose step this is. -/
def SchedulingAction.pass : SchedulingAction → Option ℕ
  | .begin pass _ | .select pass _ | .lock pass | .insert pass _ | .commit pass | .rollback pass =>
    some pass
  | _ => none

namespace SchedulingState

section Steps

variable {Url : Type} [UrlCrate Url] [LawfulUrlCrate Url] {config : SourceSyncConfig}
  {s : SchedulingState}

theorem JobInv.insertNext (h : s.JobInv) (id : ℕ) (pass : Pass) (source : SourceRow)
    (rest : List SourceRow) (jobId : Uuid) : (s.insertNext id pass source rest jobId).JobInv := by
  have hend : (s.endPass id).JobInv := h.frame rfl rfl rfl rfl rfl List.filter_sublist
  have hnext : (s.setPass id { pass with locked := rest }).JobInv :=
    h.frame rfl rfl rfl rfl rfl (List.Sublist.refl _)
  unfold SchedulingState.insertNext
  by_cases hlimit : 0 ≤ source.maxAttempts ∧ source.maxAttempts < UInt32.size
  · rw [if_neg (not_not_intro hlimit)]
    split_ifs with hwaits htaken hid
    · exact h
    · exact hnext
    · exact hend
    · exact hnext.insert pass.now htaken hid
  · rw [if_pos hlimit]
    exact hend

/-- **Every step keeps the jobs and the due instants in order.** -/
theorem JobInv.step (h : s.JobInv) (hpasses : s.PassInv) (hretry : 0 < config.retryAfter)
    (action : SchedulingAction) : (SchedulingState.step Url config s action).JobInv := by
  have hmoves : ∀ {s' : SchedulingState}, s'.sources = s.sources → s'.jobs = s.jobs →
      s'.clock = s.clock → s'.issued = s.issued → s'.samples = s.samples →
      s'.pending = s.pending → s'.JobInv := by
    intro s' hsources hjobs hclock hissued hsamples hpending
    exact h.frame hsources hjobs hclock hissued hsamples (hpending ▸ List.Sublist.refl _)
  cases action with
  | tick elapsed => exact h.tick elapsed
  | begin id reservationFor =>
    simp only [SchedulingState.step]
    split
    · exact hmoves rfl rfl rfl rfl rfl rfl
    · exact h
  | select id limit =>
    simp only [SchedulingState.step]
    split
    · exact hmoves rfl rfl rfl rfl rfl rfl
    · exact h
  | lock id =>
    simp only [SchedulingState.step]
    split
    · split
      · unfold SchedulingState.lockNext
        simp only
        split_ifs
        · exact hmoves rfl rfl rfl rfl rfl rfl
        · split
          · exact hmoves rfl rfl rfl rfl rfl rfl
          · split_ifs
            · exact hmoves rfl rfl rfl rfl rfl rfl
            · exact hmoves rfl rfl rfl rfl rfl rfl
      · exact hmoves rfl rfl rfl rfl rfl rfl
      · exact h
    · exact h
  | insert id jobId =>
    simp only [SchedulingState.step]
    split
    · exact h.insertNext id _ _ _ jobId
    · exact h
  | commit id =>
    simp only [SchedulingState.step]
    split
    · exact h.commitPass hpasses id _
    · exact h
  | rollback id => exact h.frame rfl rfl rfl rfl rfl List.filter_sublist
  | enqueue jobId sourceId =>
    simp only [SchedulingState.step]
    split
    · exact h
    · rename_i source hsource
      split_ifs with hwaits
      · exact h
      · exact h.enqueue hsource hwaits
  | claim owner leaseFor allowedJobTypes draw =>
    simp only [SchedulingState.step]
    split_ifs with hdraw
    · exact h
    · exact h.claim owner leaseFor allowedJobTypes hdraw
  | sample token =>
    simp only [SchedulingState.step]
    split_ifs with hheld
    · exact h.sample hheld
    · exact h
  | finish finish =>
    simp only [SchedulingState.step]
    cases hfinished : SchedulingState.finished Url config s finish with
    | none => exact h
    | some s' => exact h.finished hretry hfinished

/-! ## What the steps leave -/

/-- **A pass writes nothing before it commits.** -/
theorem pass_step (s : SchedulingState) {action : SchedulingAction} {id : ℕ}
    (h : action.pass = some id) :
    ((SchedulingState.step Url config s action).sources = s.sources ∧
      (SchedulingState.step Url config s action).jobs = s.jobs) ∨
    ∃ pass, s.passes id = some pass ∧
      SchedulingState.step Url config s action = s.commitPass id pass := by
  cases action with
  | begin other reservationFor =>
    refine .inl ?_
    simp only [SchedulingState.step]
    split
    · exact ⟨rfl, rfl⟩
    · exact ⟨rfl, rfl⟩
  | select other limit =>
    refine .inl ?_
    simp only [SchedulingState.step]
    split
    · exact ⟨rfl, rfl⟩
    · exact ⟨rfl, rfl⟩
  | lock other =>
    refine .inl ?_
    simp only [SchedulingState.step]
    split
    · split
      · unfold SchedulingState.lockNext
        simp only
        split_ifs
        · exact ⟨rfl, rfl⟩
        · split
          · exact ⟨rfl, rfl⟩
          · split_ifs
            · exact ⟨rfl, rfl⟩
            · exact ⟨rfl, rfl⟩
      · exact ⟨rfl, rfl⟩
      · exact ⟨rfl, rfl⟩
    · exact ⟨rfl, rfl⟩
  | insert other jobId =>
    refine .inl ?_
    simp only [SchedulingState.step]
    split
    · unfold SchedulingState.insertNext
      split_ifs
      · exact ⟨rfl, rfl⟩
      · exact ⟨rfl, rfl⟩
      · exact ⟨rfl, rfl⟩
      · exact ⟨rfl, rfl⟩
      · exact ⟨rfl, rfl⟩
    · exact ⟨rfl, rfl⟩
  | commit other =>
    obtain rfl : other = id := Option.some.inj h
    simp only [SchedulingState.step]
    split
    · rename_i hpass
      exact .inr ⟨_, hpass, rfl⟩
    · exact .inl ⟨rfl, rfl⟩
  | rollback other => exact .inl ⟨rfl, rfl⟩
  | tick _ => cases h
  | enqueue _ _ => cases h
  | claim _ _ _ _ => cases h
  | sample _ => cases h
  | finish _ => cases h

/-- The others leave what the passes have inserted, and only final transactions write a source. -/
theorem other_step (s : SchedulingState) {action : SchedulingAction} (h : action.pass = none) :
    (SchedulingState.step Url config s action).pending = s.pending ∧
      ((SchedulingState.step Url config s action).sources = s.sources ∨
        ∃ finish s', SchedulingState.finished Url config s finish = some s' ∧
          SchedulingState.step Url config s action = s') := by
  cases action with
  | tick _ => exact ⟨rfl, .inl rfl⟩
  | enqueue jobId sourceId =>
    simp only [SchedulingState.step]
    split
    · exact ⟨rfl, .inl rfl⟩
    · split_ifs
      · exact ⟨rfl, .inl rfl⟩
      · exact ⟨rfl, .inl rfl⟩
  | claim owner leaseFor allowedJobTypes draw =>
    simp only [SchedulingState.step]
    split_ifs
    · exact ⟨rfl, .inl rfl⟩
    · exact ⟨rfl, .inl rfl⟩
  | sample token =>
    simp only [SchedulingState.step]
    split_ifs
    · exact ⟨rfl, .inl rfl⟩
    · exact ⟨rfl, .inl rfl⟩
  | finish finish =>
    simp only [SchedulingState.step]
    cases hfinished : SchedulingState.finished Url config s finish with
    | none => exact ⟨rfl, .inl rfl⟩
    | some s' =>
      refine ⟨?_, .inr ⟨finish, s', hfinished, rfl⟩⟩
      obtain ⟨-, sources, -, rfl⟩ := finished_cases hfinished
      rfl
  | begin _ _ => cases h
  | select _ _ => cases h
  | lock _ => cases h
  | insert _ _ => cases h
  | commit _ => cases h
  | rollback _ => cases h

/-- **Only an insertion adds a job to a pass**: the job of the version it locked first. -/
theorem inserts_cases {action : SchedulingAction} {w : PendingJob}
    (h : w ∈ (SchedulingState.step Url config s action).pending) (hnew : w ∉ s.pending) :
    ∃ pass, s.passes w.pass = some pass ∧ w.source ∈ pass.locked ∧
      w.job = scheduledJob w.source pass.now w.job.id := by
  cases hpass : action.pass with
  | none =>
    rw [(@other_step Url _ _ config s _ hpass).1] at h
    exact absurd h hnew
  | some id =>
  cases action with
  | begin other reservationFor =>
    simp only [SchedulingState.step] at h
    split at h
    · exact absurd h hnew
    · exact absurd h hnew
  | select other limit =>
    simp only [SchedulingState.step] at h
    split at h
    · exact absurd h hnew
    · exact absurd h hnew
  | lock other =>
    simp only [SchedulingState.step] at h
    split at h
    · split at h
      · unfold SchedulingState.lockNext at h
        simp only at h
        split_ifs at h
        · exact absurd h hnew
        · split at h
          · exact absurd h hnew
          · split_ifs at h
            · exact absurd h hnew
            · exact absurd h hnew
      · exact absurd h hnew
      · exact absurd h hnew
    · exact absurd h hnew
  | insert id jobId =>
    simp only [SchedulingState.step] at h
    split at h
    · rename_i source rest hpass
      unfold SchedulingState.insertNext at h
      split_ifs at h
      · exact absurd h hnew
      · exact absurd h hnew
      · exact absurd (List.mem_of_mem_filter h) hnew
      · rcases List.mem_append.mp h with h | h
        · exact absurd h hnew
        · obtain rfl := List.mem_singleton.mp h
          exact ⟨_, hpass, List.mem_cons_self .., rfl⟩
      · exact absurd (List.mem_of_mem_filter h) hnew
    · exact absurd h hnew
  | commit other =>
    simp only [SchedulingState.step] at h
    split at h
    · exact absurd (List.mem_of_mem_filter h) hnew
    · exact absurd h hnew
  | rollback other => exact absurd (List.mem_of_mem_filter h) hnew
  | tick _ => cases hpass
  | enqueue _ _ => cases hpass
  | claim _ _ _ _ => cases hpass
  | sample _ => cases hpass
  | finish _ => cases hpass

/-- **A due instant never moves back.** -/
theorem JobInv.forward_step (h : s.JobInv) (hretry : 0 < config.retryAfter)
    (action : SchedulingAction) {sourceId : Uuid} {row : SourceRow}
    (hrow : findSource s.sources sourceId = some row) :
    ∃ row', findSource (SchedulingState.step Url config s action).sources sourceId = some row' ∧
      row.nextFetchAt ≤ row'.nextFetchAt := by
  have hsame : ∀ {s' : SchedulingState}, s'.sources = s.sources →
      ∃ row', findSource s'.sources sourceId = some row' ∧ row.nextFetchAt ≤ row'.nextFetchAt := by
    intro s' hsources
    rw [hsources]
    exact ⟨row, hrow, Int.le_refl _⟩
  cases hpass : action.pass with
  | some id =>
    rcases @pass_step Url _ _ config s _ _ hpass with ⟨hsources, -⟩ | ⟨pass, -, heq⟩
    · exact hsame hsources
    · rw [heq, findSource_commitPass, hrow]
      split_ifs
      · exact ⟨_, rfl, Int.le_refl _⟩
      · exact ⟨row, rfl, Int.le_refl _⟩
  | none =>
    rcases (@other_step Url _ _ config s _ hpass).2 with
      hsources | ⟨finish, s', hfinished, heq⟩
    · exact hsame hsources
    · rw [heq]
      obtain ⟨⟨landed, hlands⟩, sources, hsources, rfl⟩ := finished_cases hfinished
      obtain ⟨hother, before, after, hbefore, hafter, hnext⟩ := finish.writes hsources
      by_cases hid : sourceId = finish.run.sourceId
      · subst hid
        obtain rfl : before = row := Option.some.inj (hbefore.symm.trans hrow)
        exact ⟨after, hafter, (h.forward hretry hlands hbefore hnext).1⟩
      · exact ⟨row, (hother sourceId hid).trans hrow, Int.le_refl _⟩

end Steps

/-! ## No source is scheduled twice -/

/-- **Each source has one active job at most**, committed or inserted. -/
def OneActive (s : SchedulingState) : Prop :=
  ∀ sourceId, (s.allJobs.filter fun job => decide (job.jobType = "source_sync" ∧
    job.sourceId = some sourceId ∧ job.status ∈ JobRow.activeStatuses)).length ≤ 1

section Once

variable (Url : Type) [UrlCrate Url] [LawfulUrlCrate Url] (config : SourceSyncConfig)

/-- The step inserts this job. -/
def Inserts (s : SchedulingState) (action : SchedulingAction) (w : PendingJob) : Prop :=
  w ∈ (step Url config s action).pending ∧ w ∉ s.pending

/-- **A pass inserts the job of a source it may schedule**, in the version it has locked. -/
def InsertsDue (s : SchedulingState) : Prop :=
  ∀ action w, Inserts Url config s action w → ∃ pass, s.passes w.pass = some pass ∧
    s.HasLocked w.pass pass.now w.source ∧ w.job = scheduledJob w.source pass.now w.job.id

/-- **A pass commits its jobs and the reservations of their sources together**, or nothing. -/
def CommitsTogether (s : SchedulingState) : Prop :=
  ∀ action id, action.pass = some id →
    ((step Url config s action).sources = s.sources ∧ (step Url config s action).jobs = s.jobs) ∨
    ∃ pass, s.passes id = some pass ∧
      (step Url config s action).jobs = s.jobs ++ (s.inserted id).map (·.job) ∧
      (∀ w ∈ s.inserted id, w.job = scheduledJob w.source pass.now w.job.id ∧
        findSource (step Url config s action).sources w.source.id
          = some (reserve pass.now pass.reservationFor w.source)) ∧
      ∀ sourceId, (∀ w ∈ s.inserted id, w.source.id ≠ sourceId) →
        findSource (step Url config s action).sources sourceId = findSource s.sources sourceId

variable {Url config} {s : SchedulingState}

theorem JobInv.oneActive (h : s.JobInv) : s.OneActive := by
  intro sourceId
  have hapart := h.apart.sublist (List.filter_sublist (p := fun job =>
    decide (job.jobType = "source_sync" ∧ job.sourceId = some sourceId ∧
      job.status ∈ JobRow.activeStatuses)))
  generalize hsame : s.allJobs.filter _ = same at hapart ⊢
  have hmem : ∀ job ∈ same, job ∈ s.allJobs ∧ job.sourceId = some sourceId ∧ job.IsActive := by
    intro job hjob
    rw [← hsame, List.mem_filter, decide_eq_true_eq] at hjob
    exact ⟨hjob.1, hjob.2.2.1, hjob.2.2.2⟩
  match same with
  | [] => exact Nat.zero_le _
  | [_] => exact Nat.le_refl _
  | a :: b :: rest =>
    obtain ⟨ha, hsource, hactive⟩ := hmem a (List.mem_cons_self ..)
    obtain ⟨hb, hsource', hactive'⟩ := hmem b (List.mem_cons_of_mem _ (List.mem_cons_self ..))
    have hkey := (h.jobs a ha).sameKey (h.jobs b hb) (hsource.trans hsource'.symm)
    have hab := (List.pairwise_cons.mp hapart).1 b (List.mem_cons_self ..)
    exact absurd ⟨hactive, hactive', hkey⟩ hab.2

theorem PassInv.insertsDue (h : s.PassInv) : InsertsDue Url config s := by
  intro action w hinserts
  obtain ⟨pass, hpass, hlocked, hjob⟩ := inserts_cases hinserts.1 hinserts.2
  exact ⟨pass, hpass, h.locked w.pass pass hpass w.source hlocked, hjob⟩

theorem PassInv.commitsTogether (h : s.PassInv) : CommitsTogether Url config s := by
  intro action id hid
  rcases @pass_step Url _ _ config s _ _ hid with hsame | ⟨pass, hpass, heq⟩
  · exact .inl hsame
  · refine .inr ⟨pass, hpass, by rw [heq]; rfl, fun w hw => ?_, fun sourceId hnone => ?_⟩
    · obtain ⟨hmem, hof⟩ := List.mem_filter.mp hw
      have hof : w.pass = id := by simpa using hof
      obtain ⟨p, hp, hjob, hlocked⟩ := h.pending w hmem
      rw [hof, hpass] at hp
      obtain rfl := Option.some.inj hp
      refine ⟨hjob, ?_⟩
      rw [heq, findSource_commitPass, if_pos (List.mem_map_of_mem hw), hlocked.newest]
      rfl
    · rw [heq, findSource_commitPass, if_neg]
      intro hmem
      obtain ⟨w, hw, hsource⟩ := List.mem_map.mp hmem
      exact hnone w hw hsource

/-- Both invariants, over a run. -/
theorem inv_run (hretry : 0 < config.retryAfter) (sources : List SourceRow) (clock : DateTime)
    (actions : List SchedulingAction) :
    (run (step Url config) (start sources clock) actions).PassInv ∧
      (run (step Url config) (start sources clock) actions).JobInv :=
  run_preserves (P := fun s : SchedulingState => s.PassInv ∧ s.JobInv)
    (fun _ action h => ⟨h.1.step config action, h.2.step h.1 hretry action⟩) actions
    ⟨passInv_start sources clock, jobInv_start sources clock⟩

/-- The due instant of a source, from any state on. -/
theorem forward_run (hretry : 0 < config.retryAfter) {sourceId : Uuid} {row : SourceRow}
    (hpasses : s.PassInv) (hjobs : s.JobInv) (hrow : findSource s.sources sourceId = some row)
    (actions : List SchedulingAction) :
    ∃ row', findSource (run (step Url config) s actions).sources sourceId = some row' ∧
      row.nextFetchAt ≤ row'.nextFetchAt := by
  refine (run_preserves (P := fun s : SchedulingState => s.PassInv ∧ s.JobInv ∧
    ∃ row', findSource s.sources sourceId = some row' ∧ row.nextFetchAt ≤ row'.nextFetchAt)
    ?_ actions ⟨hpasses, hjobs, row, hrow, Int.le_refl _⟩).2.2
  rintro s action ⟨hpasses, hjobs, before, hbefore, hle⟩
  obtain ⟨after, hafter, hforward⟩ := @JobInv.forward_step Url _ _ config _ hjobs hretry action _ _ hbefore
  exact ⟨hpasses.step config action, hjobs.step hpasses hretry action, after, hafter,
    Int.le_trans hle hforward⟩

/-- **No source is scheduled twice for one due time**: in every interleaving of passes, enqueues,
claims and final transactions a source has one active job at most, a pass inserts the jobs of
sources it may schedule, commits them with their reservations, and — once a final transaction has
left a next due instant — inserts none of that source before it. -/
theorem scheduled_once (hretry : 0 < config.retryAfter) (sources : List SourceRow)
    (clock : DateTime) (actions : List SchedulingAction) :
    OneActive (run (step Url config) (start sources clock) actions) ∧
      InsertsDue Url config (run (step Url config) (start sources clock) actions) ∧
      CommitsTogether Url config (run (step Url config) (start sources clock) actions) ∧
      ∀ first finish rest, actions = first ++ .finish finish :: rest →
        ∀ s', finished Url config (run (step Url config) (start sources clock) first) finish
          = some s' →
        ∀ row, findSource s'.sources finish.run.sourceId = some row →
        ∀ action w,
          Inserts Url config (run (step Url config) (start sources clock) actions) action w →
          w.source.id = finish.run.sourceId →
          ∀ pass, (run (step Url config) (start sources clock) actions).passes w.pass = some pass →
            row.nextFetchAt ≤ pass.now := by
  obtain ⟨hpasses, hjobs⟩ := @inv_run Url _ _ config hretry sources clock actions
  refine ⟨hjobs.oneActive, hpasses.insertsDue, hpasses.commitsTogether, ?_⟩
  intro first finish rest hactions s' hfinished row hrow action w hinserts hsource pass hpass
  obtain ⟨hpasses', hjobs'⟩ := @inv_run Url _ _ config hretry sources clock first
  have hstep : step Url config (run (step Url config) (start sources clock) first) (.finish finish)
      = s' := by
    show (finished Url config _ finish).getD _ = s'
    rw [hfinished]
    rfl
  have hrun : run (step Url config) (start sources clock) actions
      = run (step Url config) s' rest := by
    rw [hactions, run_append, ← hstep]
    rfl
  obtain ⟨current, hcurrent, hforward⟩ := @forward_run Url _ _ config _ hretry _ _
    (hpasses'.finished hfinished) (hjobs'.finished hretry hfinished) hrow rest
  obtain ⟨p, hp, hlocked, -⟩ := hpasses.insertsDue action w hinserts
  obtain rfl : p = pass := Option.some.inj (hp.symm.trans hpass)
  have hnewest := hlocked.newest
  rw [hsource, hrun, hcurrent] at hnewest
  obtain rfl := Option.some.inj hnewest
  exact Int.le_trans hforward hlocked.schedulable.due

end Once

end SchedulingState

/-! ## A slow pass -/

section Samples

/-- A source that is due. -/
def dueSource : SourceRow := { riskySource with schedulingGate := .ready }

/-- The run of the first pass' job. -/
def firstRun : SyncFinish :=
  ⟨⟨1⟩, "worker", ⟨⟨9⟩⟩, ⟨⟨7⟩, 3000000, 3000000, true⟩, .success false⟩

/-- Two passes sample the clock and find the source; the second locks it when its run is over. -/
def slowPass : List SchedulingAction :=
  [.tick 1000, .begin 1 60000000000, .begin 2 60000000000, .select 1 5, .select 2 5, .lock 1,
    .lock 1, .insert 1 ⟨1⟩, .commit 1, .tick 2000, .claim "worker" 60000000000 [.sourceSync] ⟨⟨9⟩⟩,
    .sample ⟨⟨9⟩⟩, .finish firstRun, .lock 2, .lock 2, .insert 2 ⟨2⟩, .commit 2]

/-- The second pass schedules nothing. -/
theorem scheduled_once_slowPass :
    0 < plainSyncConfig.retryAfter ∧
      SchedulingState.OneActive
        (run (SchedulingState.step PlainUrl plainSyncConfig) (.start [dueSource] 0) slowPass) ∧
      (run (SchedulingState.step PlainUrl plainSyncConfig)
        (.start [dueSource] 0) slowPass).jobs.map JobRow.status = ["succeeded"] :=
  ⟨by decide, (@SchedulingState.scheduled_once PlainUrl _ _ plainSyncConfig (by decide)
    [dueSource] 0 slowPass).1, by decide +kernel⟩

end Samples

end Scheduler

end Werrss
