import Werrss.Machinery.Run
import Werrss.Persistence.MemoryJobRepository

/-!
# Persistence/JobStoreContract — what the in-memory job store promises at every point

    Sound jobs ──call──▸ Sound jobs'        Err ⇒ jobs' = jobs        begin … drop ⇒ jobs' = jobs

`Sound` says that entries are filed under their identifiers, are valid, and that no two active ones
share a key.  Every accepted operation is one of `Job.Moves`, which come from active jobs and rename
nothing, so only `enqueue` could break uniqueness, and it looks first.  Validity is also what makes a
rejected call traceless: on a valid job `retry` never fails halfway.
-/

open Machinery

namespace Werrss

/-! ## The claim order -/

/-- The order on jobs, read through any projection. -/
theorem transCmp_claimOrder {A : Type} (f : A → Job) :
    Std.TransCmp fun a b => claimOrder (f a) (f b) :=
  inferInstanceAs (Std.TransCmp (compareLex
    (fun a b => compareOn (fun a : A => (f a).priority) b a)
    (compareLex (compareOn fun a : A => (f a).runAfter)
      (compareLex (compareOn fun a : A => (f a).createdAt) (compareOn fun a : A => (f a).id.value)))))

instance : Std.TransCmp claimOrder := transCmp_claimOrder id

/-- Equal places in the order have equal identifiers. -/
theorem id_of_claimOrder_eq {left right : Job} (h : claimOrder left right = .eq) :
    left.id = right.id := by
  simp only [claimOrder, Ordering.then_eq_eq, compare_eq_iff_eq] at h
  cases hl : left.id
  cases hr : right.id
  rw [hl, hr] at h
  exact congrArg Uuid.mk h.2.2.2

/-- Two jobs in the order with different identifiers: not greater is less. -/
theorem lt_of_isLE_of_id_ne {left right : Job} (h : (claimOrder left right).isLE = true)
    (hne : left.id ≠ right.id) : claimOrder left right = .lt := by
  cases hcmp : claimOrder left right with
  | lt => rfl
  | eq => exact absurd (id_of_claimOrder_eq hcmp) hne
  | gt =>
    rw [hcmp] at h
    cases h

namespace JobStore

/-! ## The invariant -/

/-- **Entries are filed under their identifiers, valid, and hold their keys alone.** -/
structure Sound (jobs : JobStore) : Prop where
  keyed : ∀ {id job}, jobs.get id = some job → job.id = id
  valid : ∀ {id job}, jobs.get id = some job → job.Valid
  unique : ∀ {id₁ id₂ job₁ job₂}, jobs.get id₁ = some job₁ → jobs.get id₂ = some job₂ →
    job₁.status.isActive = true → job₂.status.isActive = true →
    job₁.dedupeKey = job₂.dedupeKey → id₁ = id₂

theorem sound_empty : Sound HashMap.empty where
  keyed h := by cases h
  valid h := by cases h
  unique h := by cases h

/-- **An accepted operation keeps the store sound**: it moves an active job and renames nothing. -/
theorem Sound.moved {jobs : JobStore} (hs : jobs.Sound) {id : Uuid} {job job' : Job} {op : JobOp}
    (hget : jobs.get id = some job) (hmoves : Job.Moves job op job') :
    Sound (jobs.insert id job') := by
  obtain ⟨hid, hkey⟩ := hmoves.same_key
  -- The entry of an identifier stands for the entry it had, active if it is.
  have hold : ∀ {k j}, (jobs.insert id job').get k = some j → ∃ j₀, jobs.get k = some j₀ ∧
      j.dedupeKey = j₀.dedupeKey ∧ (j.status.isActive = true → j₀.status.isActive = true) := by
    intro k j hj
    rw [HashMap.get_insert] at hj
    split_ifs at hj with hk
    · obtain rfl := Option.some.inj hj
      exact ⟨job, hk ▸ hget, hkey, fun _ => hmoves.of_active⟩
    · exact ⟨j, hj, rfl, fun h => h⟩
  refine ⟨fun {k j} hj => ?_, fun {k j} hj => ?_, fun h₁ h₂ ha₁ ha₂ heq => ?_⟩
  · rw [HashMap.get_insert] at hj
    split_ifs at hj with hk
    · obtain rfl := Option.some.inj hj
      rw [hid, hk]
      exact hs.keyed hget
    · exact hs.keyed hj
  · rw [HashMap.get_insert] at hj
    split_ifs at hj with hk
    · obtain rfl := Option.some.inj hj
      exact hmoves.valid (hs.valid hget)
    · exact hs.valid hj
  · obtain ⟨j₁, hj₁, hk₁, hact₁⟩ := hold h₁
    obtain ⟨j₂, hj₂, hk₂, hact₂⟩ := hold h₂
    exact hs.unique hj₁ hj₂ (hact₁ ha₁) (hact₂ ha₂) (hk₁.symm.trans (heq.trans hk₂))

/-! ## Enqueue -/

theorem holds_iff {dedupeKey : String} {job : Job} : holds dedupeKey job = true ↔
    job.status.isActive = true ∧ job.dedupeKey = dedupeKey := by
  simp [holds]

/-- Some active entry has the key. -/
def Held (jobs : JobStore) (dedupeKey : String) (jobId : Uuid) : Prop :=
  ∃ job, jobs.get jobId = some job ∧ job.status.isActive = true ∧ job.dedupeKey = dedupeKey

/-- **An enqueue finds the holder of its key, or there is none and it tries to insert.** -/
theorem enqueueInStore_cases {jobs : JobStore} (hs : jobs.Sound)
    (order : Iteration (Uuid × Job)) (id : Uuid) (spec : NewJob) :
    (∃ jobId, jobs.Held spec.dedupeKey jobId ∧
      jobs.enqueueInStore order id spec = (jobs, .ok (.alreadyActive jobId))) ∨
    ((∀ jobId, ¬ jobs.Held spec.dedupeKey jobId) ∧
      ((∃ e, Job.new id spec = .error e ∧
          jobs.enqueueInStore order id spec = (jobs, .error (.domain e))) ∨
        ∃ job, Job.new id spec = .ok job ∧
          jobs.enqueueInStore order id spec = (jobs.insert job.id job, .ok (.inserted job)))) := by
  cases hfind : (jobs.iter order).find? fun entry => holds spec.dedupeKey entry.2 with
  | some entry =>
    obtain ⟨jobId, existing⟩ := entry
    have hget : jobs.get jobId = some existing :=
      HashMap.mem_iter.mp (List.mem_of_find?_eq_some hfind)
    have hfound : holds spec.dedupeKey existing = true := by simpa using List.find?_some hfind
    refine .inl ⟨jobId, ⟨existing, hget, holds_iff.mp hfound⟩, ?_⟩
    simp only [enqueueInStore, hfind, hs.keyed hget]
  | none =>
    refine .inr ⟨?_, ?_⟩
    · rintro jobId ⟨job, hget, hholds⟩
      have hnot := List.find?_eq_none.mp hfind (jobId, job) (HashMap.mem_iter.mpr hget)
      exact hnot (holds_iff.mpr hholds)
    · cases hnew : Job.new id spec with
      | error e => exact .inl ⟨e, rfl, by rw [enqueueInStore, hfind, hnew]⟩
      | ok job => exact .inr ⟨job, rfl, by rw [enqueueInStore, hfind, hnew]⟩

theorem new_key {id : Uuid} {spec : NewJob} {job : Job} (h : Job.new id spec = .ok job) :
    job.dedupeKey = spec.dedupeKey ∧ job.status = .queued := by
  unfold Job.new at h
  split_ifs at h
  obtain rfl := Except.ok.inj h
  exact ⟨rfl, rfl⟩

/-- A new job whose key nobody holds keeps the store sound, under whatever identifier. -/
theorem Sound.inserted {jobs : JobStore} (hs : jobs.Sound) {id : Uuid} {spec : NewJob} {job : Job}
    (hnew : Job.new id spec = .ok job) (hfree : ∀ jobId, ¬ jobs.Held spec.dedupeKey jobId) :
    Sound (jobs.insert job.id job) := by
  obtain ⟨hkey, -⟩ := new_key hnew
  -- Another active entry with the key would hold it.
  have halone : ∀ {k j}, jobs.get k = some j → j.status.isActive = true →
      j.dedupeKey ≠ job.dedupeKey :=
    fun hj hact heq => hfree _ ⟨_, hj, hact, heq.trans hkey⟩
  refine ⟨fun {k j} hj => ?_, fun {k j} hj => ?_, fun {k₁ k₂ j₁ j₂} h₁ h₂ ha₁ ha₂ heq => ?_⟩
  · rw [HashMap.get_insert] at hj
    split_ifs at hj with hk
    · obtain rfl := Option.some.inj hj
      exact hk.symm
    · exact hs.keyed hj
  · rw [HashMap.get_insert] at hj
    split_ifs at hj with hk
    · obtain rfl := Option.some.inj hj
      exact Job.new_valid hnew
    · exact hs.valid hj
  · rw [HashMap.get_insert] at h₁ h₂
    split_ifs at h₁ h₂ with hk₁ hk₂ hk₂
    · exact hk₁.trans hk₂.symm
    · obtain rfl := Option.some.inj h₁
      exact absurd heq.symm (halone h₂ ha₂)
    · obtain rfl := Option.some.inj h₂
      exact absurd heq (halone h₁ ha₁)
    · exact hs.unique h₁ h₂ ha₁ ha₂ heq

/-! ## Claims -/

/-- **The job a claim is for**: claimable, and before every other claimable job. -/
structure Next (jobs : JobStore) (now : DateTime) (allowedJobTypes : List JobType) (id : Uuid)
    (job : Job) : Prop where
  found : jobs.get id = some job
  claimable : isClaimable now allowedJobTypes job = true
  first : ∀ {id' job'}, jobs.get id' = some job' → isClaimable now allowedJobTypes job' = true →
    id' ≠ id → claimOrder job job' = .lt

theorem candidate_eq_none {jobs : JobStore} {order : Iteration (Uuid × Job)} {now : DateTime}
    {allowedJobTypes : List JobType} : candidate jobs order now allowedJobTypes = none ↔
      ∀ {id job}, jobs.get id = some job → isClaimable now allowedJobTypes job = false := by
  rw [candidate, minBy_eq_none, List.filter_eq_nil_iff]
  constructor
  · intro h id job hget
    exact Bool.eq_false_iff.mpr (h (id, job) (HashMap.mem_iter.mpr hget))
  · intro h entry hmem
    exact Bool.eq_false_iff.mp (h (HashMap.mem_iter.mp hmem))

theorem Sound.next_of_candidate {jobs : JobStore} (hs : jobs.Sound)
    {order : Iteration (Uuid × Job)} {now : DateTime} {allowedJobTypes : List JobType} {id : Uuid}
    {job : Job} (h : candidate jobs order now allowedJobTypes = some (id, job)) :
    jobs.Next now allowedJobTypes id job := by
  have := transCmp_claimOrder (A := Uuid × Job) Prod.snd
  obtain ⟨hmem, hclaimable⟩ := List.mem_filter.mp (mem_of_minBy h)
  have hget : jobs.get id = some job := HashMap.mem_iter.mp hmem
  refine ⟨hget, hclaimable, fun {id' job'} hget' hclaimable' hne => ?_⟩
  have hle : (claimOrder job job').isLE = true :=
    isLE_of_minBy h (id', job')
      (List.mem_filter.mpr ⟨HashMap.mem_iter.mpr hget', hclaimable'⟩)
  refine lt_of_isLE_of_id_ne hle ?_
  rw [hs.keyed hget, hs.keyed hget']
  exact hne.symm

/-- What `claim_next` answers once the domain has claimed the job, or has not. -/
def leaseOf : Job × Except JobError LeaseToken → Except JobRepositoryError (Option JobLease)
  | (_, .error e) => .error (.domain e)
  | (job, .ok token) => .ok (some ⟨job, token⟩)

/-- **A claim is for nobody, or for the next job**, and leaves no trace when the domain rejects it. -/
theorem claimNextInStore_cases {jobs : JobStore} (hs : jobs.Sound)
    (order : Iteration (Uuid × Job)) (owner : String) (now : DateTime) (leaseFor : Duration)
    (allowedJobTypes : List JobType) (draw : LeaseToken) :
    ((∀ {id job}, jobs.get id = some job → isClaimable now allowedJobTypes job = false) ∧
      jobs.claimNextInStore order owner now leaseFor allowedJobTypes draw = (jobs, .ok none)) ∨
    ∃ id job, jobs.Next now allowedJobTypes id job ∧
      jobs.claimNextInStore order owner now leaseFor allowedJobTypes draw =
        (jobs.insert id (job.claim owner now leaseFor draw).1,
          leaseOf (job.claim owner now leaseFor draw)) := by
  cases hcand : candidate jobs order now allowedJobTypes with
  | none => exact .inl ⟨candidate_eq_none.mp hcand, by rw [claimNextInStore, hcand]⟩
  | some entry =>
    obtain ⟨id, job⟩ := entry
    have hnext := hs.next_of_candidate hcand
    refine .inr ⟨id, job, hnext, ?_⟩
    simp only [claimNextInStore, hcand, hnext.found]
    rcases job.claim owner now leaseFor draw with ⟨job', e | token⟩
    · rfl
    · rfl

/-- A claim the domain rejects leaves the job, an accepted one moves it. -/
theorem claim_effect (job : Job) (owner : String) (now : DateTime) (leaseFor : Duration)
    (draw : LeaseToken) :
    ((∃ e, leaseOf (job.claim owner now leaseFor draw) = .error (.domain e)) ∧
      (job.claim owner now leaseFor draw).1 = job) ∨
    ((∃ lease, leaseOf (job.claim owner now leaseFor draw) = .ok (some lease)) ∧
      Job.Moves job (.claim owner now leaseFor draw) (job.claim owner now leaseFor draw).1) := by
  have hsettles := job.claim_settles owner now leaseFor draw
  simp only [Job.Settles, Job.apply] at hsettles
  rcases hrun : job.claim owner now leaseFor draw with ⟨job', e | token⟩
  · rw [hrun] at hsettles
    rcases hsettles with ⟨-, hsame⟩ | ⟨hacc, -⟩
    · exact .inl ⟨⟨e, rfl⟩, hsame⟩
    · cases hacc
  · rw [hrun] at hsettles
    rcases hsettles with ⟨hrej, -⟩ | ⟨-, hmoves⟩
    · cases hrej
    · exact .inr ⟨⟨_, rfl⟩, hmoves⟩

/-! ## The operations on one job -/

/-- **An operation on one job fails without a trace, or moves the job it names.** -/
theorem mutateInStore_cases {A : Type} {jobs : JobStore} (hs : jobs.Sound) (jobId : Uuid)
    {method : Job → Job × Except JobError A} (op : JobOp)
    (hjob : ∀ job, (method job).1 = (job.apply op).1)
    (hok : ∀ job, (method job).2.isOk = (job.apply op).2.accepted) :
    (∃ e, mutateInStore jobs jobId method = (jobs, .error e)) ∨
    ∃ job job', jobs.get jobId = some job ∧ Job.Moves job op job' ∧
      mutateInStore jobs jobId method = (jobs.insert jobId job', .ok job') := by
  cases hget : jobs.get jobId with
  | none => exact .inl ⟨_, by rw [mutateInStore, hget]⟩
  | some job =>
    have hjob := hjob job
    have hok := hok job
    rcases hrun : method job with ⟨job', e | a⟩
    · rw [hrun] at hjob hok
      rcases (hs.valid hget).settles op with ⟨-, hsame⟩ | ⟨hacc, -⟩
      · refine .inl ⟨.domain e, ?_⟩
        obtain rfl : job' = job := hjob.trans hsame
        rw [mutateInStore, hget]
        simp only [hrun, HashMap.insert_self hget]
      · rw [hacc] at hok
        cases hok
    · rw [hrun] at hjob hok
      rcases (hs.valid hget).settles op with ⟨hrej, -⟩ | ⟨-, hmoves⟩
      · rw [hrej] at hok
        cases hok
      · have hmoved : job' = (job.apply op).1 := hjob
        refine .inr ⟨job, job', rfl, ?_, ?_⟩
        · rw [hmoved]
          exact hmoves
        · rw [mutateInStore, hget]
          simp only [hrun]

/-! ## Recovery -/

/-- The job a recovery leaves. -/
def recovered (now : DateTime) (job : Job) : Job := (job.recoverExpiredLease now).1

theorem recoverExpiredLease_of_isExpired {now : DateTime} {job : Job}
    (h : isExpired now job = true) : job.recoverExpiredLease now = (recovered now job, true) := by
  simp only [isExpired, Bool.and_eq_true, decide_eq_true_eq, Option.any_eq_true] at h
  obtain ⟨hrun, leaseUntil, huntil, hle⟩ := h
  have hnot : ¬ (job.status ≠ .running ∨
      job.leaseUntil.any (fun leaseUntil => decide (leaseUntil > now)) = true) := by
    simp [hrun, huntil, hle]
  refine Prod.ext rfl ?_
  rw [Job.recoverExpiredLease, if_neg hnot]
  dsimp only
  split
  · rfl
  · rfl

theorem moves_recovered {now : DateTime} {job : Job} (h : isExpired now job = true) :
    Job.Moves job (.recoverExpiredLease now) (recovered now job) := by
  have hrun := recoverExpiredLease_of_isExpired h
  have hsettles := job.recoverExpiredLease_settles now
  simp only [Job.Settles, Job.apply, hrun] at hsettles
  rcases hsettles with ⟨hrej, -⟩ | ⟨-, hmoves⟩
  · cases hrej
  · exact hmoves

/-- A recovered job runs no more. -/
theorem stops_of_recovery {now : DateTime} {job job' : Job}
    (h : Job.Moves job (.recoverExpiredLease now) job') : job'.status ≠ .running := by
  cases h with
  | recoverLast => nofun
  | recoverQueue => nofun

/-- A recovery changes the job. -/
theorem recovered_ne {now : DateTime} {job : Job} (h : isExpired now job = true) :
    recovered now job ≠ job := by
  have hrun : job.status = .running := by
    simp only [isExpired, Bool.and_eq_true, decide_eq_true_eq] at h
    exact h.1
  have hmoves := moves_recovered h
  intro heq
  refine stops_of_recovery hmoves ?_
  rw [heq]
  exact hrun

/-- **The loop recovers the entries it is given**, whose identifiers differ. -/
theorem recoverEach_spec (now : DateTime) :
    ∀ (taken : List (Uuid × Job)) (jobs : JobStore) (done : List Job), jobs.Sound →
      (taken.map Prod.fst).Nodup →
      (∀ e ∈ taken, jobs.get e.1 = some e.2 ∧ isExpired now e.2 = true) →
      ∃ jobs', recoverEach now (taken.map fun e => (e.1, e.2.leaseUntil)) jobs done
          = (jobs', some (done ++ taken.map fun e => recovered now e.2)) ∧ jobs'.Sound ∧
        (∀ e ∈ taken, jobs'.get e.1 = some (recovered now e.2)) ∧
        ∀ id ∉ taken.map Prod.fst, jobs'.get id = jobs.get id
  | [], jobs, done, hs, _, _ => ⟨jobs, by simp [recoverEach], hs, by simp, by simp⟩
  | (id, job) :: taken, jobs, done, hs, hnodup, htaken => by
    obtain ⟨hget, hexpired⟩ := htaken (id, job) List.mem_cons_self
    simp only at hget hexpired
    rw [List.map_cons, List.nodup_cons] at hnodup
    have hother : ∀ e ∈ taken, e.1 ≠ id := by
      intro e he heq
      exact hnodup.1 (List.mem_map.mpr ⟨e, he, heq⟩)
    -- The rest of the entries are where they were.
    have hrest : ∀ e ∈ taken, (HashMap.insert jobs id (recovered now job)).get e.1 = some e.2 ∧
        isExpired now e.2 = true := by
      intro e he
      rw [HashMap.get_insert, if_neg (hother e he)]
      exact htaken e (List.mem_cons_of_mem _ he)
    obtain ⟨jobs', hrun, hs', hdone, hkept⟩ := recoverEach_spec now taken _
      (done ++ [recovered now job]) (hs.moved hget (moves_recovered hexpired)) hnodup.2 hrest
    refine ⟨jobs', ?_, hs', ?_, ?_⟩
    · simp only [List.map_cons, recoverEach, hget, recoverExpiredLease_of_isExpired hexpired]
      rw [hrun, List.append_assoc]
      rfl
    · intro e he
      rcases List.mem_cons.mp he with rfl | he
      · rw [hkept id hnodup.1, HashMap.get_insert, if_pos rfl]
      · exact hdone e he
    · intro id' hid'
      rw [List.map_cons, List.mem_cons, not_or] at hid'
      rw [hkept id' hid'.2, HashMap.get_insert, if_neg hid'.1]

/-- The expired entries, in the order of iteration. -/
def expiredEntries (jobs : JobStore) (order : Iteration (Uuid × Job)) (now : DateTime) :
    List (Uuid × Job) :=
  (jobs.iter order).filter fun entry => isExpired now entry.2

/-- The entries a recovery takes. -/
def takenEntries (jobs : JobStore) (order : Iteration (Uuid × Job)) (now : DateTime) (limit : ℕ) :
    List (Uuid × Job) :=
  firstBy (fun a b => leaseLe (a.1, a.2.leaseUntil) (b.1, b.2.leaseUntil) = true) limit
    (expiredEntries jobs order now)

/-- **What a recovery does**: `min limit` of the expired jobs are recovered, those whose leases ended
first, and every other entry stays. -/
structure Recovers (jobs : JobStore) (now : DateTime) (limit : ℕ) (taken : List (Uuid × Job))
    (jobs' : JobStore) (answer : Option (List Job)) : Prop where
  distinct : (taken.map Prod.fst).Nodup
  count : taken.length =
    min limit (jobs.entries.filter fun entry => isExpired now entry.2).length
  expired : ∀ e ∈ taken, jobs.get e.1 = some e.2 ∧ isExpired now e.2 = true
  earliest : ∀ e ∈ taken, ∀ {id job}, jobs.get id = some job → isExpired now job = true →
    id ∉ taken.map Prod.fst → ∀ x ∈ e.2.leaseUntil, ∀ y ∈ job.leaseUntil, x ≤ y
  changed : ∀ e ∈ taken, jobs'.get e.1 = some (e.2.recoverExpiredLease now).1 ∧
    (e.2.recoverExpiredLease now).1 ≠ e.2
  kept : ∀ id ∉ taken.map Prod.fst, jobs'.get id = jobs.get id
  answered : answer = some (taken.map fun e => (e.2.recoverExpiredLease now).1)

theorem leaseLe_total (a b : Uuid × Option DateTime) :
    leaseLe a b = true ∨ leaseLe b a = true := by
  obtain ⟨_, _ | x⟩ := a
  · exact .inl rfl
  obtain ⟨_, _ | y⟩ := b
  · exact .inr rfl
  · simpa [leaseLe] using Int.le_total x y

theorem leaseLe_trans {a b c : Uuid × Option DateTime} (hab : leaseLe a b = true)
    (hbc : leaseLe b c = true) : leaseLe a c = true := by
  obtain ⟨_, _ | x⟩ := a
  · rfl
  obtain ⟨_, _ | y⟩ := b
  · cases hab
  obtain ⟨_, _ | z⟩ := c
  · cases hbc
  · simp only [leaseLe, decide_eq_true_eq] at hab hbc ⊢
    exact Int.le_trans hab hbc

theorem recoverExpiredInStore_spec {jobs : JobStore} (hs : jobs.Sound)
    (order : Iteration (Uuid × Job)) (now : DateTime) (limit : ℕ) :
    (jobs.recoverExpiredInStore order now limit).1.Sound ∧
      jobs.Recovers now limit (jobs.takenEntries order now limit)
        (jobs.recoverExpiredInStore order now limit).1
        (jobs.recoverExpiredInStore order now limit).2 := by
  let before (a b : Uuid × Job) : Prop :=
    leaseLe (a.1, a.2.leaseUntil) (b.1, b.2.leaseUntil) = true
  have : Std.Total before := ⟨fun _ _ => leaseLe_total _ _⟩
  have : IsTrans (Uuid × Job) before := ⟨fun _ _ _ => leaseLe_trans⟩
  have hmem : ∀ {e}, e ∈ jobs.expiredEntries order now ↔
      jobs.get e.1 = some e.2 ∧ isExpired now e.2 = true := by
    intro e
    rw [expiredEntries, List.mem_filter, HashMap.mem_iter]
  have htaken : ∀ e ∈ jobs.takenEntries order now limit,
      jobs.get e.1 = some e.2 ∧ isExpired now e.2 = true :=
    fun e he => hmem.mp (mem_of_mem_firstBy before he)
  have hnodup : ((jobs.takenEntries order now limit).map Prod.fst).Nodup := by
    have hall : ((jobs.expiredEntries order now).map Prod.fst).Nodup :=
      (HashMap.nodup_iter jobs order).sublist (List.filter_sublist.map Prod.fst)
    have hsplit := (firstBy_append_restBy before limit (jobs.expiredEntries order now)).map Prod.fst
    rw [← hsplit.nodup_iff, List.map_append] at hall
    exact (List.nodup_append.mp hall).1
  obtain ⟨jobs', hrun, hs', hdone, hkept⟩ :=
    recoverEach_spec now (jobs.takenEntries order now limit) jobs [] hs hnodup htaken
  have heq : jobs.recoverExpiredInStore order now limit =
      (jobs', some ((jobs.takenEntries order now limit).map fun e => recovered now e.2)) := by
    rw [recoverExpiredInStore, expired, firstBy_map]
    exact hrun
  rw [heq]
  refine ⟨hs', hnodup, ?_, htaken, ?_, fun e he => ⟨hdone e he, recovered_ne (htaken e he).2⟩, hkept,
    rfl⟩
  · rw [takenEntries, length_firstBy, expiredEntries]
    congr 1
    exact ((order.perm jobs.entries).filter _).length_eq
  · intro e he id job hget hexpired hnot x hx y hy
    have hrest : (id, job) ∈ restBy before limit (jobs.expiredEntries order now) :=
      mem_restBy before (hmem.mpr ⟨hget, hexpired⟩) fun hin => hnot (List.mem_map_of_mem hin)
    have hle := firstBy_before before he hrest
    simp only [before, Option.mem_def.mp hx, Option.mem_def.mp hy, leaseLe, decide_eq_true_eq] at hle
    exact hle

end JobStore

/-! ## One call -/

namespace StoreCall

/-- The outcome of an operation on one job. -/
theorem mutated_sound {A : Type} {jobs : JobStore} (hs : jobs.Sound) (jobId : Uuid)
    {method : Job → Job × Except JobError A} (op : JobOp)
    (hjob : ∀ job, (method job).1 = (job.apply op).1)
    (hok : ∀ job, (method job).2.isOk = (job.apply op).2.accepted) :
    (jobs.mutateInStore jobId method).1.Sound ∧
      ((jobs.mutateInStore jobId method).2.isOk = false →
        (jobs.mutateInStore jobId method).1 = jobs) := by
  rcases JobStore.mutateInStore_cases hs jobId op hjob hok with
    ⟨e, hrun⟩ | ⟨job, job', hget, hmoves, hrun⟩
  · rw [hrun]
    exact ⟨hs, fun _ => rfl⟩
  · rw [hrun]
    exact ⟨hs.moved hget hmoves, nofun⟩

/-- **A call keeps the store sound, and one that fails leaves it as it was.** -/
theorem run_sound {jobs : JobStore} (hs : jobs.Sound) (c : StoreCall) :
    (c.run jobs).1.Sound ∧ ((c.run jobs).2.isErr = true → (c.run jobs).1 = jobs) := by
  -- What `mutated_sound` says of a result, said of the answer.
  have hanswer : ∀ {r : JobStore × Except JobRepositoryError Job},
      r.1.Sound ∧ (r.2.isOk = false → r.1 = jobs) →
        r.1.Sound ∧ ((StoreAnswer.mutated r.2).isErr = true → r.1 = jobs) :=
    fun h => ⟨h.1, fun herr => h.2 (by simpa [StoreAnswer.isErr] using herr)⟩
  cases c with
  | enqueue order id spec =>
    simp only [run]
    rcases JobStore.enqueueInStore_cases hs order id spec with
      ⟨jobId, -, hrun⟩ | ⟨hfree, ⟨e, -, hrun⟩ | ⟨job, hnew, hrun⟩⟩
    · rw [hrun]
      exact ⟨hs, fun _ => rfl⟩
    · rw [hrun]
      exact ⟨hs, fun _ => rfl⟩
    · rw [hrun]
      exact ⟨hs.inserted hnew hfree, nofun⟩
  | claimNext order owner now leaseFor allowedJobTypes draw =>
    simp only [run]
    rcases JobStore.claimNextInStore_cases hs order owner now leaseFor allowedJobTypes draw with
      ⟨-, hrun⟩ | ⟨id, job, hnext, hrun⟩
    · rw [hrun]
      exact ⟨hs, fun _ => rfl⟩
    · rw [hrun]
      rcases JobStore.claim_effect job owner now leaseFor draw with
        ⟨-, hsame⟩ | ⟨⟨lease, hlease⟩, hmoves⟩
      · rw [hsame, HashMap.insert_self hnext.found]
        exact ⟨hs, fun _ => rfl⟩
      · rw [hlease]
        exact ⟨hs.moved hnext.found hmoves, nofun⟩
  | heartbeat jobId owner token now leaseFor =>
    exact hanswer (mutated_sound hs jobId (.heartbeat owner token now leaseFor)
      (fun _ => rfl) fun _ => rfl)
  | defer jobId owner token now resumeAt =>
    exact hanswer (mutated_sound hs jobId (.defer owner token now resumeAt)
      (fun _ => rfl) fun _ => rfl)
  | succeed jobId owner token now =>
    exact hanswer (mutated_sound hs jobId (.succeed owner token now) (fun _ => rfl) fun _ => rfl)
  | retry jobId owner token now retryAt error =>
    exact hanswer (mutated_sound hs jobId (.retry owner token now retryAt error)
      (fun _ => rfl) fun _ => rfl)
  | fail jobId owner token now error =>
    exact hanswer (mutated_sound hs jobId (.fail owner token now error)
      (fun _ => rfl) fun _ => rfl)
  | cancel jobId now reason =>
    exact hanswer (mutated_sound hs jobId (.cancel now reason) (fun _ => rfl) fun _ => rfl)
  | recoverExpired order now limit =>
    exact ⟨(JobStore.recoverExpiredInStore_spec hs order now limit).1, nofun⟩

end StoreCall

/-! ## Runs -/

namespace MemoryJobRepository

/-- The map is sound, and so is the copy an open transaction would put back. -/
structure SoundRepository (repository : MemoryJobRepository) : Prop where
  jobs : repository.jobs.Sound
  backup : ∀ {backup}, repository.backup = some backup → backup.Sound

theorem sound_new : new.SoundRepository where
  jobs := JobStore.sound_empty
  backup h := by cases h

/-- A call changes the map as `StoreCall.run` does, unless it failed outside a transaction. -/
theorem call_cases (self : MemoryJobRepository) (c : StoreCall) :
    ((self.call c).1 = self ∧ (c.run self.jobs).2.isErr = true) ∨
      (self.call c).1 = { self with jobs := (c.run self.jobs).1 } := by
  simp only [call]
  split_ifs with h
  · simp only [Bool.and_eq_true] at h
    exact .inl ⟨rfl, h.2⟩
  · exact .inr rfl

theorem call_answer (self : MemoryJobRepository) (c : StoreCall) :
    (self.call c).2 = (c.run self.jobs).2 := by
  simp only [call]
  split_ifs
  · rfl
  · rfl

/-- On a sound map a call changes the map as `StoreCall.run` does. -/
theorem SoundRepository.call_eq {self : MemoryJobRepository} (hs : self.SoundRepository)
    (c : StoreCall) : (self.call c).1 = { self with jobs := (c.run self.jobs).1 } := by
  rcases self.call_cases c with ⟨hsame, herr⟩ | heq
  · rw [hsame, (c.run_sound hs.jobs).2 herr]
  · exact heq

theorem step_sound (self : MemoryJobRepository) (action : Action) (hs : self.SoundRepository) :
    (self.step action).SoundRepository := by
  cases action with
  | call c =>
    rw [step, hs.call_eq c]
    exact ⟨(c.run_sound hs.jobs).1, hs.backup⟩
  | begin =>
    simp only [step]
    split
    · exact ⟨hs.jobs, fun h => Option.some.inj h ▸ hs.jobs⟩
    · exact hs
  | commit => exact ⟨hs.jobs, fun h => by cases h⟩
  | drop =>
    simp only [step]
    split
    · exact hs
    · rename_i backup hbackup
      exact ⟨hs.backup hbackup, fun h => by cases h⟩

/-- **Every reachable repository is sound.** -/
theorem sound_of_run (actions : List Action) : (Machinery.run step new actions).SoundRepository :=
  run_preserves step_sound actions sound_new

theorem backup_call (self : MemoryJobRepository) (c : StoreCall) :
    (self.call c).1.backup = self.backup := by
  rcases self.call_cases c with ⟨hsame, -⟩ | heq
  · rw [hsame]
  · rw [heq]

/-- The copy of an open transaction outlives its calls. -/
theorem backup_of_calls (calls : List StoreCall) (self : MemoryJobRepository) :
    (Machinery.run step self (calls.map .call)).backup = self.backup := by
  induction calls generalizing self with
  | nil => rfl
  | cons c calls ih =>
    have hrest := ih (self.call c).1
    rw [backup_call] at hrest
    exact hrest

/-- **A dropped transaction leaves the repository as it was.** -/
theorem drop_calls {self : MemoryJobRepository} (hclosed : self.backup = none)
    (calls : List StoreCall) :
    Machinery.run step self (.begin :: (calls.map .call ++ [.drop])) = self := by
  obtain ⟨jobs, backup⟩ := self
  obtain rfl : backup = none := hclosed
  have hopen : step ⟨jobs, none⟩ .begin = ⟨jobs, some jobs⟩ := rfl
  have hbackup := backup_of_calls calls ⟨jobs, some jobs⟩
  have hrun : Machinery.run step ⟨jobs, none⟩ (.begin :: (calls.map .call ++ [.drop])) =
      step (Machinery.run step ⟨jobs, some jobs⟩ (calls.map .call)) .drop := by
    rw [Machinery.run, List.foldl_cons, hopen, List.foldl_append]
    rfl
  rw [hrun, step, hbackup]

/-! ## The contract -/

/-- **What the store promises at a point.** -/
structure Contract (repository : MemoryJobRepository) : Prop where
  /-- No two active jobs share a key. -/
  unique : ∀ {id₁ id₂ job₁ job₂}, repository.jobs.get id₁ = some job₁ →
    repository.jobs.get id₂ = some job₂ → job₁.status.isActive = true →
    job₂.status.isActive = true → job₁.dedupeKey = job₂.dedupeKey → id₁ = id₂
  /-- An enqueue names the holder of its key, exactly when there is one. -/
  enqueue : ∀ order id spec jobId,
    (repository.call (.enqueue order id spec)).2 = .enqueued (.ok (.alreadyActive jobId)) ↔
      repository.jobs.Held spec.dedupeKey jobId
  /-- `claim_order` is a strict total order on the jobs of the store. -/
  irrefl : ∀ job, claimOrder job job ≠ .lt
  trans : ∀ a b c, claimOrder a b = .lt → claimOrder b c = .lt → claimOrder a c = .lt
  total : ∀ {id₁ id₂ job₁ job₂}, repository.jobs.get id₁ = some job₁ →
    repository.jobs.get id₂ = some job₂ → id₁ ≠ id₂ →
    claimOrder job₁ job₂ = .lt ∨ claimOrder job₂ job₁ = .lt
  /-- No job is claimed exactly when none is claimable. -/
  claimNone : ∀ order owner now leaseFor allowedJobTypes draw,
    (repository.call (.claimNext order owner now leaseFor allowedJobTypes draw)).2
        = .claimed (.ok none) ↔
      ∀ {id job}, repository.jobs.get id = some job →
        JobStore.isClaimable now allowedJobTypes job = false
  /-- …and then nothing changes. -/
  unclaimed : ∀ order owner now leaseFor allowedJobTypes draw,
    (repository.call (.claimNext order owner now leaseFor allowedJobTypes draw)).2
        = .claimed (.ok none) →
      (repository.call (.claimNext order owner now leaseFor allowedJobTypes draw)).1 = repository
  /-- Otherwise the least claimable job is claimed, or its claim is rejected, and no other job
  changes. -/
  claimNext : ∀ order owner now leaseFor allowedJobTypes draw,
    (∃ id job, repository.jobs.get id = some job ∧
      JobStore.isClaimable now allowedJobTypes job = true) →
    ∃ id job, repository.jobs.Next now allowedJobTypes id job ∧
      (repository.call (.claimNext order owner now leaseFor allowedJobTypes draw)).2
        = .claimed (JobStore.leaseOf (job.claim owner now leaseFor draw)) ∧
      (repository.call (.claimNext order owner now leaseFor allowedJobTypes draw)).1.jobs.get id
        = some (job.claim owner now leaseFor draw).1 ∧
      ∀ id' ≠ id,
        (repository.call (.claimNext order owner now leaseFor allowedJobTypes draw)).1.jobs.get id'
          = repository.jobs.get id'
  /-- A claimable job is refused only a blank owner, a lease that is none, or an uncountable claim. -/
  claimRefused : ∀ owner now leaseFor allowedJobTypes draw job,
    JobStore.isClaimable now allowedJobTypes job = true →
    (∃ e, JobStore.leaseOf (job.claim owner now leaseFor draw) = .error e) →
    isBlank owner = true ∨ (leaseExpiry now leaseFor).isOk = false ∨
      checkedAdd job.claimCount 1 = none
  /-- A recovery recovers the first expired jobs, up to its limit. -/
  recoverExpired : ∀ order now limit, ∃ taken answer,
    (repository.call (.recoverExpired order now limit)).2 = .recovered answer ∧
      repository.jobs.Recovers now limit taken
        (repository.call (.recoverExpired order now limit)).1.jobs answer
  /-- A call that fails changes nothing. -/
  failed : ∀ c, (repository.call c).2.isErr = true → (repository.call c).1 = repository
  /-- A transaction that is dropped changes nothing. -/
  dropped : repository.backup = none → ∀ calls : List StoreCall,
    Machinery.run step repository (.begin :: (calls.map .call ++ [.drop])) = repository

theorem leaseOf_ne_none (r : Job × Except JobError LeaseToken) : JobStore.leaseOf r ≠ .ok none := by
  obtain ⟨job, e | token⟩ := r
  · nofun
  · nofun

theorem claim_refused {owner : String} {now : DateTime} {leaseFor : Duration}
    {allowedJobTypes : List JobType} {draw : LeaseToken} {job : Job}
    (hclaimable : JobStore.isClaimable now allowedJobTypes job = true)
    (herror : ∃ e, JobStore.leaseOf (job.claim owner now leaseFor draw) = .error e) :
    isBlank owner = true ∨ (leaseExpiry now leaseFor).isOk = false ∨
      checkedAdd job.claimCount 1 = none := by
  simp only [JobStore.isClaimable, Bool.and_eq_true, decide_eq_true_eq] at hclaimable
  obtain ⟨⟨⟨hwait, hdue⟩, -⟩, hbudget⟩ := hclaimable
  by_contra hnot
  rw [not_or, not_or] at hnot
  obtain ⟨howner, hlease, hcount⟩ := hnot
  obtain ⟨e, herror⟩ := herror
  have hvalid : validateOwner owner = .ok () := by rw [validateOwner, if_neg howner]
  cases hexp : leaseExpiry now leaseFor with
  | error e =>
    rw [hexp] at hlease
    exact hlease rfl
  | ok leaseUntil =>
    obtain ⟨claimCount, hcount⟩ := Option.ne_none_iff_exists'.mp hcount
    have hdue' : ¬ job.runAfter > now := not_lt.mpr hdue
    have hbudget' : ¬ job.failureCount ≥ job.maxAttempts := UInt32.not_le.mpr hbudget
    simp [Job.claim, hvalid, hexp, hwait, hdue', hbudget', hcount, JobStore.leaseOf] at herror

theorem SoundRepository.contract {repository : MemoryJobRepository}
    (hs : repository.SoundRepository) : repository.Contract where
  unique := hs.jobs.unique
  enqueue order id spec jobId := by
    rw [call_answer]
    simp only [StoreCall.run]
    rcases JobStore.enqueueInStore_cases hs.jobs order id spec with
      ⟨holder, hheld, hrun⟩ | ⟨hfree, ⟨e, -, hrun⟩ | ⟨job, -, hrun⟩⟩
    · rw [hrun]
      refine ⟨fun h => ?_, fun h => ?_⟩
      · obtain rfl : holder = jobId := by simpa using h
        exact hheld
      · obtain ⟨job₁, hget₁, hact₁, hkey₁⟩ := hheld
        obtain ⟨job₂, hget₂, hact₂, hkey₂⟩ := h
        rw [hs.jobs.unique hget₁ hget₂ hact₁ hact₂ (hkey₁.trans hkey₂.symm)]
    · rw [hrun]
      exact ⟨nofun, fun h => absurd h (hfree jobId)⟩
    · rw [hrun]
      exact ⟨nofun, fun h => absurd h (hfree jobId)⟩
  irrefl job h := by
    have heq : claimOrder job job = .eq := Std.ReflCmp.compare_self
    rw [heq] at h
    cases h
  trans a b c hab hbc := Std.TransCmp.lt_trans hab hbc
  total {id₁ id₂ job₁ job₂} h₁ h₂ hne := by
    cases hcmp : claimOrder job₁ job₂ with
    | lt => exact .inl rfl
    | gt => exact .inr (Std.OrientedCmp.lt_of_gt hcmp)
    | eq =>
      have hid := id_of_claimOrder_eq hcmp
      rw [hs.jobs.keyed h₁, hs.jobs.keyed h₂] at hid
      exact absurd hid hne
  claimNone order owner now leaseFor allowedJobTypes draw := by
    rw [call_answer]
    simp only [StoreCall.run]
    rcases JobStore.claimNextInStore_cases hs.jobs order owner now leaseFor allowedJobTypes draw with
      ⟨hnone, hrun⟩ | ⟨id, job, hnext, hrun⟩
    · rw [hrun]
      exact ⟨fun _ => hnone, fun _ => rfl⟩
    · rw [hrun]
      refine ⟨fun h => ?_, fun h => ?_⟩
      · have hlease := StoreAnswer.claimed.inj h
        exact (leaseOf_ne_none _ hlease).elim
      · have hfalse := h hnext.found
        rw [hnext.claimable] at hfalse
        cases hfalse
  unclaimed order owner now leaseFor allowedJobTypes draw := by
    rw [call_answer, hs.call_eq]
    simp only [StoreCall.run]
    rcases JobStore.claimNextInStore_cases hs.jobs order owner now leaseFor allowedJobTypes draw with
      ⟨-, hrun⟩ | ⟨id, job, -, hrun⟩
    · rw [hrun]
      exact fun _ => rfl
    · rw [hrun]
      exact fun h => (leaseOf_ne_none _ (StoreAnswer.claimed.inj h)).elim
  claimNext order owner now leaseFor allowedJobTypes draw := by
    rintro ⟨id, job, hget, hclaimable⟩
    rw [call_answer, hs.call_eq]
    simp only [StoreCall.run]
    rcases JobStore.claimNextInStore_cases hs.jobs order owner now leaseFor allowedJobTypes draw with
      ⟨hnone, -⟩ | ⟨id, job, hnext, hrun⟩
    · rw [hnone hget] at hclaimable
      cases hclaimable
    · rw [hrun]
      refine ⟨id, job, hnext, rfl, ?_, fun id' hne => ?_⟩
      · rw [HashMap.get_insert, if_pos rfl]
      · rw [HashMap.get_insert, if_neg hne]
  claimRefused _ _ _ _ _ _ hclaimable herror := claim_refused hclaimable herror
  recoverExpired order now limit := by
    rw [call_answer, hs.call_eq]
    exact ⟨_, _, rfl, (JobStore.recoverExpiredInStore_spec hs.jobs order now limit).2⟩
  failed c herr := by
    rw [call_answer] at herr
    rw [hs.call_eq, (c.run_sound hs.jobs).2 herr]
  dropped hclosed calls := drop_calls hclosed calls

/-- **The contract holds at every point of every run.** -/
theorem store_contract (actions : List Action) :
    (Machinery.run step new actions).Contract :=
  (sound_of_run actions).contract

end MemoryJobRepository

end Werrss
