import Werrss.Application.SourceSync
import Werrss.Machinery.Run
import Werrss.Persistence.CredentialRepository

/-!
# Application/CredentialWakeup — does a new login reach the source that waits for it?

    run      read version v ┈┈▸ authentication expired ┈┈┈┈┈┈┈┈┈┈┈▸ gate authentication_required
    account                        version v + 1, gated sources ready

A new version wakes the sources that wait at that moment.  The gate is written later, from what the
run saw before, and nobody looks at the version again: **a gate that comes behind the new version
stays**.
-/

open Machinery

namespace Werrss

open SourceRepository CredentialRepository

/-- A source, its account, and the runs that are under way: what each read of the account, and the
version with which the failure was observed that last gated the source. -/
structure WakeState where
  tables : AccountTables
  now : DateTime
  observed : ℕ → Option ℤ
  gatedBy : Option ℤ

/-- One transaction or read; a statement's clock is some time after the last one. -/
inductive WakeAction
  | read (runId : ℕ)
  | finishFailed (runId : ℕ) (outcome : SyncOutcome) (finishedAt : DateTime) (elapsed : ℕ)
      (finishes : Bool)
  | replace (replacement : CredentialReplacement) (elapsed : ℕ)
  | enroll (accountId : Uuid) (displayName : String) (ciphertext : List UInt8)
      (accessExpiresAt : DateTime) (leaseOwner : String) (leaseToken : Uuid) (elapsed : ℕ)
  | setDisabled (accountId : Uuid) (disabled : Bool) (elapsed : ℕ)
  | moveLeases (rows : List AccountLeaseRow)
  | wait (elapsed : ℕ)

namespace WakeState

variable (Url : Type) [UrlCrate Url] [LawfulUrlCrate Url] (config : SourceSyncConfig)
  (sourceId accountId : Uuid)

/-- The account can be read: it is enabled and set up. -/
def readVersion (s : WakeState) : Option ℤ :=
  ((findAccount s.tables.accounts accountId).filter fun row =>
    !row.disabled && !row.setupRequired).map (·.credentialVersion)

/-- The state after a credential write that may have failed. -/
def written (s : WakeState) (clock : DateTime)
    (result : Except CredentialRepositoryError (CredentialRecord × AccountTables)) : WakeState :=
  match result with
  | .error _ => { s with now := clock }
  | .ok written => { s with tables := written.2, now := clock }

/-- The final transaction of a run that read the account at some version. -/
def finishFailed (s : WakeState) (runId : ℕ) (outcome : SyncOutcome) (finishedAt : DateTime)
    (elapsed : ℕ) (finishes : Bool) : WakeState :=
  let clock := s.now + elapsed
  match s.observed runId with
  | none => { s with now := clock }
  | some version =>
    match SourceSync.finishFailedRun Url config s.tables.sources
        ⟨sourceId, finishedAt, clock, finishes⟩ outcome with
    | none => { s with now := clock }
    | some sources =>
      { tables := { s.tables with sources := sources }
        now := clock
        observed := Function.update s.observed runId none
        gatedBy := if outcome = .authenticationRequired then some version else s.gatedBy }

/-- The step function. -/
def step (s : WakeState) : WakeAction → WakeState
  | .read runId =>
    { s with observed := Function.update s.observed runId (s.readVersion accountId) }
  | .finishFailed runId outcome finishedAt elapsed finishes =>
    s.finishFailed Url config sourceId runId outcome finishedAt elapsed finishes
  | .replace replacement elapsed =>
    s.written (s.now + elapsed)
      (CredentialRepository.replace s.tables replacement (s.now + elapsed))
  | .enroll accountId displayName ciphertext accessExpiresAt leaseOwner leaseToken elapsed =>
    s.written (s.now + elapsed) (enrollPlaceholder s.tables accountId displayName ciphertext
      accessExpiresAt leaseOwner leaseToken (s.now + elapsed))
  | .setDisabled accountId disabled elapsed =>
    s.written (s.now + elapsed)
      (CredentialRepository.setDisabled s.tables accountId disabled (s.now + elapsed))
  | .moveLeases rows => { s with tables := { s.tables with leases := rows } }
  | .wait elapsed => { s with now := s.now + elapsed }

/-- **A lost wake-up**: the source waits for authentication because of a failure observed with a
version, and the account holds usable credentials of a later one. -/
def Stuck (s : WakeState) : Prop :=
  gateOf s.tables.sources sourceId = some .authenticationRequired ∧
    ∃ version row, s.gatedBy = some version ∧ findAccount s.tables.accounts accountId = some row ∧
      isUsable s.now row = true ∧ version < row.credentialVersion

/-- **A run that failed to authenticate and commits finds no usable credentials newer than those it
used.** -/
def GatesInTime (s : WakeState) : WakeAction → Prop
  | .finishFailed runId .authenticationRequired _ elapsed finishes =>
    finishes = true → (findForUpdate Url s.tables.sources sourceId).isSome = true →
      ∀ version, s.observed runId = some version →
        ∀ row, findAccount s.tables.accounts accountId = some row →
          isUsable (s.now + elapsed) row = true → row.credentialVersion ≤ version
  | _ => True

/-- The source is bound to the account. -/
def Bound (s : WakeState) : Prop :=
  ∀ row, findSource s.tables.sources sourceId = some row → row.accountId = some accountId

variable {Url config sourceId accountId}

/-! ## Time -/

theorem isUsable_mono {clock clock' : DateTime} {row : AccountRow} (hle : clock ≤ clock')
    (h : isUsable clock' row = true) : isUsable clock row = true := by
  simp only [isUsable, Bool.and_eq_true] at h ⊢
  refine ⟨h.1, ?_⟩
  cases hexpiry : row.accessExpiresAt with
  | none => simp [hexpiry] at h
  | some expiresAt =>
    have hlate : clock' < expiresAt := by simpa [hexpiry] using h.2
    simpa using lt_of_le_of_lt hle hlate

/-- Who is stuck later was stuck before, if the gate, its reason and the account stayed. -/
theorem Stuck.of_later {s s' : WakeState} (h : s'.Stuck sourceId accountId) (hnow : s.now ≤ s'.now)
    (hgate : gateOf s'.tables.sources sourceId = gateOf s.tables.sources sourceId)
    (hgatedBy : s'.gatedBy = s.gatedBy)
    (haccount : findAccount s'.tables.accounts accountId
      = findAccount s.tables.accounts accountId) : s.Stuck sourceId accountId := by
  obtain ⟨hwaits, version, row, hversion, hrow, husable, hlt⟩ := h
  exact ⟨hgate ▸ hwaits, version, row, hgatedBy ▸ hversion, haccount ▸ hrow,
    isUsable_mono hnow husable, hlt⟩

/-! ## Credential writes -/

/-- A source that waits, bound to its account. -/
theorem awaits_of_bound {s : WakeState} (hbound : s.Bound sourceId accountId) {row : SourceRow}
    (hrow : findSource s.tables.sources sourceId = some row) {other : Uuid}
    (h : awaits other row) : other = accountId :=
  Option.some.inj (h.1.symm.trans (hbound row hrow))

/-- Waking the sources of another account leaves this one. -/
theorem gateOf_resume_other {s : WakeState} {written : AccountTables}
    (hbound : s.Bound sourceId accountId) (hsources : written.sources = s.tables.sources)
    {other : Uuid} (hne : other ≠ accountId) (clock : DateTime) :
    gateOf (resumeAuthenticationGatedSources written other clock).sources sourceId
      = gateOf s.tables.sources sourceId := by
  rw [gateOf_resume, hsources, gateOf]
  cases hrow : findSource s.tables.sources sourceId with
  | none => rfl
  | some row =>
    have hawaits : ¬ awaits other row := fun h => hne (awaits_of_bound hbound hrow h)
    simp only [Option.map_some, if_neg fun h : _ ∧ _ => hawaits h.2]

/-- **An account that can be used has no source waiting** once it woke them. -/
theorem not_waiting_of_resume {s : WakeState} {written : AccountTables}
    (hbound : s.Bound sourceId accountId) (hsources : written.sources = s.tables.sources)
    {row : AccountRow} (hrow : findAccount written.accounts accountId = some row)
    {clock : DateTime} (husable : isUsable clock row = true) :
    gateOf (resumeAuthenticationGatedSources written accountId clock).sources sourceId
      ≠ some .authenticationRequired := by
  rw [gateOf_resume, hsources, hrow]
  cases hsource : findSource s.tables.sources sourceId with
  | none => exact nofun
  | some source =>
    simp only [Option.any_some, husable, true_and, Option.map_some]
    intro hwaits
    split_ifs at hwaits with hawaits
    · cases hwaits
    · exact hawaits ⟨hbound source hsource, Option.some.inj hwaits⟩

/-- **A fenced write strands nobody.** -/
theorem Stuck.of_assigned {s : WakeState} {tables' : AccountTables} {target : Uuid}
    {clock : DateTime} {row row' : AccountRow} (hbound : s.Bound sourceId accountId)
    (hnow : s.now ≤ clock) (h : Assigned s.tables tables' target clock row row')
    (hstuck : Stuck sourceId accountId { s with tables := tables', now := clock }) :
    s.Stuck sourceId accountId := by
  obtain ⟨woken, hsources, haccounts, hwritten⟩ := h.sources
  by_cases htarget : target = accountId
  · subst htarget
    obtain ⟨hwaits, version, found, -, hfound, husable, -⟩ := hstuck
    obtain rfl : row' = found := Option.some.inj (h.after.symm.trans hfound)
    have henabled : row'.disabled = false := by
      simp only [isUsable, Bool.and_eq_true, Bool.not_eq_true'] at husable
      exact husable.1.1
    have hwaits' : gateOf tables'.sources sourceId = some .authenticationRequired := hwaits
    rw [hwritten, henabled, if_neg Bool.false_ne_true] at hwaits'
    rw [← haccounts] at hfound
    exact absurd hwaits' (not_waiting_of_resume hbound hsources hfound husable)
  · refine hstuck.of_later hnow ?_ rfl (h.others accountId (Ne.symm htarget))
    change gateOf tables'.sources sourceId = _
    rw [hwritten]
    split_ifs
    · rfl
    · exact gateOf_resume_other hbound hsources htarget clock

/-- **Neither does pausing or enabling.** -/
theorem Stuck.of_setDisabled {s : WakeState} {tables' : AccountTables} {target : Uuid}
    {disabled : Bool} {clock : DateTime} {record : CredentialRecord}
    (hbound : s.Bound sourceId accountId) (hnow : s.now ≤ clock)
    (h : CredentialRepository.setDisabled s.tables target disabled clock = .ok (record, tables'))
    (hstuck : Stuck sourceId accountId { s with tables := tables', now := clock }) :
    s.Stuck sourceId accountId := by
  obtain ⟨row, hrow, hafter, hothers, written, hsources, haccounts, hleft⟩ := setDisabled_eq_ok h
  by_cases htarget : target = accountId
  · subst htarget
    obtain ⟨hwaits, version, found, hversion, hfound, husable, hlt⟩ := hstuck
    obtain rfl := Option.some.inj (hafter.symm.trans hfound)
    have hwaits' : gateOf tables'.sources sourceId = some .authenticationRequired := hwaits
    rw [hleft] at hwaits'
    split_ifs at hwaits' with hresume
    · rw [← haccounts] at hfound
      exact absurd hwaits' (not_waiting_of_resume hbound hsources hfound husable)
    · -- The account was enabled all along.
      simp only [isUsable, Bool.and_eq_true, Bool.not_eq_true'] at husable
      obtain ⟨⟨hdisabled, hsetup⟩, hexpiry⟩ := husable
      have hwas : row.disabled = false := by
        simpa [hdisabled, hsetup] using hresume
      refine ⟨hwaits', version, row, hversion, hrow, isUsable_mono hnow ?_, hlt⟩
      simp only [isUsable, hwas, hsetup, Bool.not_false, Bool.and_self, Bool.true_and]
      exact hexpiry
  · refine hstuck.of_later hnow ?_ rfl (hothers accountId (Ne.symm htarget))
    change gateOf tables'.sources sourceId = _
    rw [hleft]
    split_ifs
    · exact gateOf_resume_other hbound hsources htarget clock
    · rfl

/-! ## Bindings -/

theorem Bound.of_map_eq {s s' : WakeState} (hbound : s.Bound sourceId accountId)
    (h : (findSource s'.tables.sources sourceId).map (·.accountId)
      = (findSource s.tables.sources sourceId).map (·.accountId)) : s'.Bound sourceId accountId := by
  intro row hrow
  rw [hrow, Option.map_some] at h
  obtain ⟨row', hrow', haccount⟩ := Option.map_eq_some_iff.mp h.symm
  exact haccount.symm.trans (hbound row' hrow')

/-- Credential writes leave the bindings. -/
theorem Bound.of_sources {s s' : WakeState} {written : AccountTables}
    (hbound : s.Bound sourceId accountId) (hwritten : written.sources = s.tables.sources)
    (target : Uuid) (clock : DateTime)
    (h : s'.tables.sources = s.tables.sources ∨
      s'.tables.sources = (resumeAuthenticationGatedSources written target clock).sources) :
    s'.Bound sourceId accountId := by
  refine hbound.of_map_eq ?_
  rcases h with h | h
  · rw [h]
  · rw [h, accountId_resume, hwritten]

/-- **The binding stays.** -/
theorem Bound.step {s : WakeState} (hbound : s.Bound sourceId accountId) (action : WakeAction) :
    (s.step Url config sourceId accountId action).Bound sourceId accountId := by
  cases action with
  | read runId => exact hbound
  | moveLeases rows => exact hbound
  | wait elapsed => exact hbound
  | finishFailed runId outcome finishedAt elapsed finishes =>
    simp only [WakeState.step, WakeState.finishFailed]
    split
    · exact hbound
    · split
      · exact hbound
      · rename_i sources hrun
        exact hbound.of_map_eq (SourceSync.accountId_finishFailedRun hrun sourceId)
  | replace replacement elapsed =>
    simp only [WakeState.step, WakeState.written]
    split
    · exact hbound
    · rename_i result hwrite
      obtain ⟨row, row', hassigned⟩ := replace_assigned hwrite
      obtain ⟨woken, hsources, -, hleft⟩ := hassigned.sources
      refine hbound.of_sources hsources replacement.accountId (s.now + elapsed) ?_
      rw [hleft]
      split_ifs
      · exact .inl rfl
      · exact .inr rfl
  | enroll target displayName ciphertext expiresAt owner token elapsed =>
    simp only [WakeState.step, WakeState.written]
    split
    · exact hbound
    · rename_i result hwrite
      obtain ⟨row, row', hassigned⟩ := enrollPlaceholder_assigned hwrite
      obtain ⟨woken, hsources, -, hleft⟩ := hassigned.sources
      refine hbound.of_sources hsources target (s.now + elapsed) ?_
      rw [hleft]
      split_ifs
      · exact .inl rfl
      · exact .inr rfl
  | setDisabled target disabled elapsed =>
    simp only [WakeState.step, WakeState.written]
    split
    · exact hbound
    · rename_i result hwrite
      obtain ⟨row, -, -, -, written, hsources, -, hleft⟩ := setDisabled_eq_ok hwrite
      refine hbound.of_sources hsources target (s.now + elapsed) ?_
      rw [hleft]
      split_ifs
      · exact .inr rfl
      · exact .inl rfl

/-! ## Runs -/

theorem now_le (s : WakeState) (elapsed : ℕ) : s.now ≤ s.now + (elapsed : ℤ) := by
  have hle (a : ℤ) : a ≤ a + elapsed := by omega
  exact hle s.now

/-- **A failed run strands its source exactly when it gates it behind newer credentials.** -/
theorem finishFailed_stuck_iff {s : WakeState} (hfree : ¬ s.Stuck sourceId accountId) (runId : ℕ)
    (outcome : SyncOutcome) (finishedAt : DateTime) (elapsed : ℕ) (finishes : Bool) :
    ¬ (s.finishFailed Url config sourceId runId outcome finishedAt elapsed finishes).Stuck sourceId
        accountId ↔
      s.GatesInTime Url sourceId accountId
        (.finishFailed runId outcome finishedAt elapsed finishes) := by
  have hnow := s.now_le elapsed
  refine ⟨fun hafter => ?_, fun htime hstuck => ?_⟩
  · cases outcome with
    | authenticationRequired =>
      intro hfinishes hlocked version hversion row hrow husable
      by_contra hnewer
      refine hafter ?_
      have hcommits : (SourceSync.gateSource Url s.tables.sources
          ⟨sourceId, finishedAt, s.now + elapsed, finishes⟩ .authenticationRequired).isSome = true :=
        SourceSync.gateSource_isSome .authenticationRequired hlocked
      obtain ⟨sources, hgated⟩ := Option.isSome_iff_exists.mp hcommits
      have hrun : SourceSync.finishFailedRun Url config s.tables.sources
          ⟨sourceId, finishedAt, s.now + elapsed, finishes⟩ .authenticationRequired
          = some sources := by
        rw [SourceSync.finishFailedRun, if_pos hfinishes]
        exact hgated
      have hgate := SourceSync.gateOf_finishFailedRun hrun sourceId
      rw [if_pos rfl] at hgate
      obtain ⟨source, -, hsource⟩ := SourceSync.findForUpdate_of_gateSource hgated
      have hfound : gateOf s.tables.sources sourceId = some source.schedulingGate :=
        congrArg (Option.map SourceRow.schedulingGate) hsource
      rw [hfound] at hgate
      simp only [finishFailed, hversion, hrun, if_true]
      exact ⟨hgate, version, row, rfl, hrow, husable, Int.not_le.mp hnewer⟩
    | _ => trivial
  · unfold finishFailed at hstuck
    cases hobserved : s.observed runId with
    | none =>
      rw [hobserved] at hstuck
      exact hfree (hstuck.of_later hnow rfl rfl rfl)
    | some version =>
      simp only [hobserved] at hstuck
      split at hstuck
      · exact hfree (hstuck.of_later hnow rfl rfl rfl)
      · rename_i sources hrun
        have hgate := SourceSync.gateOf_finishFailedRun hrun sourceId
        rw [if_pos rfl] at hgate
        by_cases hauth : outcome = .authenticationRequired
        · subst hauth
          obtain ⟨-, version', row, hversion', hrow, husable, hlt⟩ := hstuck
          obtain rfl : version = version' := by simpa using hversion'
          have hfinishes : finishes = true := by
            unfold SourceSync.finishFailedRun at hrun
            split_ifs at hrun with hfinishes
            exact hfinishes
          have hgated : SourceSync.gateSource Url s.tables.sources
              ⟨sourceId, finishedAt, s.now + elapsed, finishes⟩ .authenticationRequired
              = some sources := by
            rw [SourceSync.finishFailedRun, if_pos hfinishes] at hrun
            exact hrun
          obtain ⟨source, hlocked, -⟩ := SourceSync.findForUpdate_of_gateSource hgated
          have hle := htime hfinishes (Option.isSome_iff_exists.mpr ⟨source, hlocked⟩) version
            hobserved row hrow husable
          omega
        · -- Any other outcome gates for risk control or leaves the gate.
          obtain ⟨hwaits, rest⟩ := hstuck
          have hwaits' : gateOf sources sourceId = some .authenticationRequired := hwaits
          rw [hgate] at hwaits'
          obtain ⟨gate, hbefore, hset⟩ := Option.map_eq_some_iff.mp hwaits'
          have hkept : gateOf sources sourceId = gateOf s.tables.sources sourceId := by
            rw [hgate, hbefore, Option.map_some]
            cases hsets : SourceSync.outcomeGate outcome with
            | none => rfl
            | some gate' =>
              rw [hsets, Option.getD_some] at hset
              exact absurd (hset ▸ hsets) (SourceSync.outcomeGate_ne hauth)
          exact hfree (Stuck.of_later ⟨hwaits, rest⟩ hnow hkept (if_neg hauth) rfl)

/-- **One step strands the source exactly when it gates it behind newer credentials.** -/
theorem step_stuck_iff {s : WakeState} (hbound : s.Bound sourceId accountId)
    (hfree : ¬ s.Stuck sourceId accountId) (action : WakeAction) :
    ¬ (s.step Url config sourceId accountId action).Stuck sourceId accountId ↔
      s.GatesInTime Url sourceId accountId action := by
  cases action with
  | finishFailed runId outcome finishedAt elapsed finishes =>
    exact finishFailed_stuck_iff hfree runId outcome finishedAt elapsed finishes
  | read runId => exact ⟨fun _ => trivial, fun _ => hfree⟩
  | moveLeases rows => exact ⟨fun _ => trivial, fun _ => hfree⟩
  | wait elapsed =>
    exact ⟨fun _ => trivial, fun _ h => hfree (h.of_later (s.now_le elapsed) rfl rfl rfl)⟩
  | replace replacement elapsed =>
    refine ⟨fun _ => trivial, fun _ hstuck => ?_⟩
    simp only [WakeState.step, WakeState.written] at hstuck
    split at hstuck
    · exact hfree (hstuck.of_later (s.now_le elapsed) rfl rfl rfl)
    · rename_i result hwrite
      obtain ⟨row, row', hassigned⟩ := replace_assigned hwrite
      exact hfree (Stuck.of_assigned hbound (s.now_le elapsed) hassigned hstuck)
  | enroll target displayName ciphertext expiresAt owner token elapsed =>
    refine ⟨fun _ => trivial, fun _ hstuck => ?_⟩
    simp only [WakeState.step, WakeState.written] at hstuck
    split at hstuck
    · exact hfree (hstuck.of_later (s.now_le elapsed) rfl rfl rfl)
    · rename_i result hwrite
      obtain ⟨row, row', hassigned⟩ := enrollPlaceholder_assigned hwrite
      exact hfree (Stuck.of_assigned hbound (s.now_le elapsed) hassigned hstuck)
  | setDisabled target disabled elapsed =>
    refine ⟨fun _ => trivial, fun _ hstuck => ?_⟩
    simp only [WakeState.step, WakeState.written] at hstuck
    split at hstuck
    · exact hfree (hstuck.of_later (s.now_le elapsed) rfl rfl rfl)
    · rename_i result hwrite
      exact hfree (Stuck.of_setDisabled hbound (s.now_le elapsed) hwrite hstuck)

/-- **Along a run no wake-up is lost exactly when every run that failed to authenticate gates its
source before newer credentials are there.** -/
theorem no_lost_wakeup_iff {s : WakeState} (hbound : s.Bound sourceId accountId)
    (hungated : s.gatedBy = none) (actions : List WakeAction) :
    Meets (WakeState.step Url config sourceId accountId)
        (fun s action => ¬ (s.step Url config sourceId accountId action).Stuck sourceId accountId)
        s actions ↔
      Meets (WakeState.step Url config sourceId accountId)
        (fun s action => s.GatesInTime Url sourceId accountId action) s actions := by
  have hfree : ¬ s.Stuck sourceId accountId := by
    rintro ⟨-, version, row, hversion, -⟩
    rw [hungated] at hversion
    cases hversion
  exact meets_congr (P := fun s : WakeState => s.Bound sourceId accountId ∧ ¬ s.Stuck sourceId accountId)
    (fun s action h hafter => ⟨h.1.step action, hafter⟩)
    (fun s action h => step_stuck_iff h.1 h.2 action) actions ⟨hbound, hfree⟩

end WakeState

/-! ## A login that comes too early -/

section Samples

/-- A ready source bound to account 1. -/
def waitingSource : SourceRow where
  id := ⟨7⟩
  bookId := "book"
  displayName := "name"
  articleUrl := none
  accountId := some ⟨1⟩
  feedRevision := 0
  enabled := true
  schedulingGate := .ready
  syncIntervalSeconds := 3600
  rssItemLimit := 20
  nextFetchAt := 0
  failureCooldownUntil := none
  scheduleReservedUntil := none
  priority := 0
  maxAttempts := 3
  updatedAt := 0

def waitingState : WakeState where
  tables := ⟨[⟨⟨1⟩, "reader", some [1], some 1000, 1, false, false⟩],
    [⟨⟨1⟩, "worker", ⟨9⟩, 1000⟩], [waitingSource]⟩
  now := 0
  observed := fun _ => none
  gatedBy := none

def wakeConfig : SourceSyncConfig := ⟨60000000000, 300000000000⟩

/-- The first run reads the account and fails to authenticate. -/
def readAccount : WakeAction := .read 0

def gateAfterFailure : WakeAction := .finishFailed 0 .authenticationRequired 10 5 true

/-- The account gets new credentials. -/
def newCredentials : WakeAction := .replace ⟨⟨1⟩, "reader", 1, [2], 1000000, "worker", ⟨9⟩⟩ 5

theorem bound_waitingState : waitingState.Bound ⟨7⟩ ⟨1⟩ := by
  intro row hrow
  obtain rfl := Option.some.inj hrow
  rfl

/-- The gate is there before the new credentials are: they wake the source. -/
theorem no_lost_wakeup_in_time :
    Meets (WakeState.step PlainUrl wakeConfig ⟨7⟩ ⟨1⟩)
      (fun s action => ¬ (s.step PlainUrl wakeConfig ⟨7⟩ ⟨1⟩ action).Stuck ⟨7⟩ ⟨1⟩) waitingState
      [readAccount, gateAfterFailure, newCredentials] := by
  refine (WakeState.no_lost_wakeup_iff bound_waitingState rfl _).mpr
    ⟨trivial, fun _ _ version hversion row hrow _ => ?_, trivial, trivial⟩
  obtain rfl := Option.some.inj hversion
  obtain rfl := Option.some.inj hrow
  decide

/-- **The other way round the source waits for a login that has been.** -/
theorem wakeup_lost :
    (run (WakeState.step PlainUrl wakeConfig ⟨7⟩ ⟨1⟩) waitingState
      [readAccount, newCredentials, gateAfterFailure]).Stuck ⟨7⟩ ⟨1⟩ :=
  ⟨by decide +kernel, 1, ⟨⟨1⟩, "reader", some [2], some 1000000, 2, false, false⟩,
    by decide +kernel, by decide +kernel, by decide +kernel, by decide⟩

end Samples

end Werrss
