import Werrss.Application.SourceSync
import Werrss.Machinery.Run
import Werrss.Persistence.ConfigTransfer
import Werrss.Persistence.Scheduler

/-!
# Application/RiskGate — who clears the risk-control gate of a source

    risk_controlled ──operator──▸ any gate
    risk_controlled ──run that failed to authenticate──▸ authentication_required ──new login──▸ ready

Imports, schedules, edits and wake-ups leave `risk_controlled` alone.  A run gates its source by its
own outcome, so **one that failed to authenticate takes the risk-control gate down**, and the next
login lets the source run again.
-/

open Machinery

namespace Werrss

open SourceRepository CredentialRepository

section Gates

variable {Url : Type} [UrlCrate Url] [LawfulUrlCrate Url]

variable (Url) in
/-- The committed operations that write sources; the leases of accounts move on their own. -/
inductive GateOperation
  | failedRun (run : RunFinish) (outcome : SyncOutcome)
  | succeededRun (run : RunFinish) (changed : Bool)
  | replaceCredentials (replacement : CredentialReplacement) (clock : DateTime)
  | enrollPlaceholder (accountId : Uuid) (displayName : String) (ciphertext : List UInt8)
      (accessExpiresAt : DateTime) (leaseOwner : String) (leaseToken : Uuid) (clock : DateTime)
  | setDisabled (accountId : Uuid) (disabled : Bool) (clock : DateTime)
  | importBundle (bundle : ConfigBundle) (clock : DateTime)
  | schedule (view : Scheduler.SchedulerView) (now : DateTime) (limit : ℕ)
      (reservationFor : Duration)
  | update (sourceId : Uuid) (patch : SourcePatch Url) (clock : DateTime)
  | setEnabled (sourceId : Uuid) (enabled : Bool) (clock : DateTime)
  | setSchedulingGate (sourceId : Uuid) (gate : SchedulingGate) (clock : DateTime)
  | moveLeases (rows : List AccountLeaseRow)

/-- The tables of a credential write, if it succeeds. -/
def writtenTables (result : Except CredentialRepositoryError (CredentialRecord × AccountTables)) :
    Option AccountTables :=
  match result with
  | .error _ => none
  | .ok written => some written.2

/-- What an operation commits, if it does. -/
def GateOperation.commit (config : SourceSyncConfig) (tables : AccountTables) :
    GateOperation Url → Option AccountTables
  | .failedRun run outcome =>
    (SourceSync.finishFailedRun Url config tables.sources run outcome).map fun sources =>
      { tables with sources := sources }
  | .succeededRun run changed =>
    (SourceSync.persistSuccess Url tables.sources run changed).map fun sources =>
      { tables with sources := sources }
  | .replaceCredentials replacement clock => writtenTables (replace tables replacement clock)
  | .enrollPlaceholder accountId displayName ciphertext accessExpiresAt leaseOwner leaseToken clock =>
    writtenTables (CredentialRepository.enrollPlaceholder tables accountId displayName ciphertext
      accessExpiresAt leaseOwner leaseToken clock)
  | .setDisabled accountId disabled clock =>
    writtenTables (CredentialRepository.setDisabled tables accountId disabled clock)
  | .importBundle bundle clock => ConfigTransfer.apply tables bundle clock
  | .schedule view now limit reservationFor =>
    some { tables with
      sources := Scheduler.enqueueDueSources view now limit reservationFor tables.sources }
  | .update sourceId patch clock =>
    (SourceRepository.update Url tables.sources sourceId patch clock).map fun written =>
      { tables with sources := written.1 }
  | .setEnabled sourceId enabled clock =>
    (SourceRepository.setEnabled Url tables.sources sourceId enabled clock).map fun written =>
      { tables with sources := written.1 }
  | .setSchedulingGate sourceId gate clock =>
    (SourceRepository.setSchedulingGate Url tables.sources sourceId gate clock).map fun written =>
      { tables with sources := written.1 }
  | .moveLeases rows => some { tables with leases := rows }

/-- One operation: committed as a whole, or without effect. -/
def AccountTables.step (config : SourceSyncConfig) (tables : AccountTables)
    (operation : GateOperation Url) : AccountTables :=
  (operation.commit config tables).getD tables

/-- **The operation takes the risk-control gate of a source down.** -/
def Clears (config : SourceSyncConfig) (tables : AccountTables) (operation : GateOperation Url)
    (sourceId : Uuid) : Prop :=
  gateOf tables.sources sourceId = some .riskControlled ∧
    ∃ gate, gate ≠ .riskControlled ∧
      gateOf (tables.step config operation).sources sourceId = some gate

/-- An operator sets the gate of this source. -/
def GateOperation.IsOperator (sourceId : Uuid) : GateOperation Url → Prop
  | .setSchedulingGate target _ _ => target = sourceId
  | _ => False

/-- **Whoever clears a risk-control gate is an operator.** -/
def OperatorClears (config : SourceSyncConfig) (tables : AccountTables)
    (operation : GateOperation Url) : Prop :=
  ∀ sourceId, Clears config tables operation sourceId → operation.IsOperator sourceId

/-- **A run that failed to authenticate and commits does not find its source risk-controlled.** -/
def RiskSpared (tables : AccountTables) : GateOperation Url → Prop
  | .failedRun run .authenticationRequired =>
    run.finishes = true → ∀ row, findForUpdate Url tables.sources run.sourceId = some row →
      row.schedulingGate ≠ .riskControlled
  | _ => True

/-! ## What keeps the gate -/

/-- Every fenced credential write keeps a risk-control gate. -/
theorem Assigned.risk {tables tables' : AccountTables} {accountId sourceId : Uuid}
    {clock : DateTime} {row row' : AccountRow}
    (h : Assigned tables tables' accountId clock row row')
    (hrisk : gateOf tables.sources sourceId = some .riskControlled) :
    gateOf tables'.sources sourceId = some .riskControlled := by
  obtain ⟨woken, hsources, -, hwritten⟩ := h.sources
  rw [hwritten]
  split_ifs with hdisabled
  · exact hrisk
  · rw [← hsources] at hrisk
    exact gateOf_resume_risk hrisk

/-- An import keeps it. -/
theorem importBundle_risk {tables tables' : AccountTables} {bundle : ConfigBundle}
    {clock : DateTime} {sourceId : Uuid} (h : ConfigTransfer.apply tables bundle clock = some tables')
    (hrisk : gateOf tables.sources sourceId = some .riskControlled) :
    gateOf tables'.sources sourceId = some .riskControlled := by
  have haccounts : ∀ (accounts : List PortableWeReadAccount) (t : AccountTables),
      gateOf t.sources sourceId = some .riskControlled →
      gateOf (accounts.foldl (ConfigTransfer.applyAccount clock) t).sources sourceId
        = some .riskControlled := by
    intro accounts
    induction accounts with
    | nil => exact fun t ht => ht
    | cons account rest ih =>
      intro t ht
      refine ih _ ?_
      unfold ConfigTransfer.applyAccount
      split
      · simp only
        split_ifs
        · exact gateOf_resume_risk ht
        · exact ht
      · exact ht
  obtain ⟨sources, hsources, rfl⟩ := Option.map_eq_some_iff.mp h
  exact ConfigTransfer.gateOf_applySources _ hsources (haccounts _ tables hrisk)

/-- A committed credential write. -/
theorem writtenTables_eq_some
    {result : Except CredentialRepositoryError (CredentialRecord × AccountTables)}
    {tables : AccountTables} (h : writtenTables result = some tables) :
    ∃ record, result = .ok (record, tables) := by
  cases result with
  | error e => cases h
  | ok written => exact ⟨written.1, congrArg _ (Prod.ext rfl (Option.some.inj h))⟩

/-- **What an operation leaves of a risk-control gate**: it stays, but for an operator and for a run
that failed to authenticate. -/
theorem commit_risk {config : SourceSyncConfig} {tables tables' : AccountTables}
    {operation : GateOperation Url} {sourceId : Uuid}
    (h : operation.commit config tables = some tables')
    (hrisk : gateOf tables.sources sourceId = some .riskControlled) :
    gateOf tables'.sources sourceId = some .riskControlled ∨ operation.IsOperator sourceId ∨
      ∃ run, operation = .failedRun run .authenticationRequired ∧ run.sourceId = sourceId ∧
        run.finishes = true := by
  cases operation with
  | failedRun run outcome =>
    obtain ⟨sources, hrun, rfl⟩ := Option.map_eq_some_iff.mp h
    have hgate := SourceSync.gateOf_finishFailedRun hrun sourceId
    rw [hrisk] at hgate
    have hfinishes : run.finishes = true := by
      unfold SourceSync.finishFailedRun at hrun
      split_ifs at hrun with hfinishes
      exact hfinishes
    by_cases hid : sourceId = run.sourceId
    · rw [if_pos hid] at hgate
      by_cases hauth : outcome = .authenticationRequired
      · subst hauth
        exact .inr (.inr ⟨run, rfl, hid.symm, hfinishes⟩)
      · left
        rw [hgate]
        cases outcome <;> first | rfl | exact absurd rfl hauth
    · rw [if_neg hid] at hgate
      exact .inl hgate
  | succeededRun run changed =>
    obtain ⟨sources, hrun, rfl⟩ := Option.map_eq_some_iff.mp h
    exact .inl ((SourceSync.gateOf_persistSuccess hrun sourceId).trans hrisk)
  | replaceCredentials replacement clock =>
    obtain ⟨record, hwrite⟩ := writtenTables_eq_some h
    obtain ⟨row, row', hassigned⟩ := replace_assigned hwrite
    exact .inl (Assigned.risk hassigned hrisk)
  | enrollPlaceholder accountId displayName ciphertext expiresAt owner token clock =>
    obtain ⟨record, hwrite⟩ := writtenTables_eq_some h
    obtain ⟨row, row', hassigned⟩ := enrollPlaceholder_assigned hwrite
    exact .inl (Assigned.risk hassigned hrisk)
  | setDisabled accountId disabled clock =>
    obtain ⟨record, hwrite⟩ := writtenTables_eq_some h
    obtain ⟨row, -, -, -, written, hsources, -, hleft⟩ := setDisabled_eq_ok hwrite
    left
    rw [hleft]
    split_ifs
    · rw [← hsources] at hrisk
      exact gateOf_resume_risk hrisk
    · exact hrisk
  | importBundle bundle clock => exact .inl (importBundle_risk h hrisk)
  | schedule view now limit reservationFor =>
    obtain rfl := Option.some.inj h
    exact .inl ((Scheduler.gateOf_enqueueDueSources ..).trans hrisk)
  | update target patch clock =>
    obtain ⟨written, hupdate, rfl⟩ := Option.map_eq_some_iff.mp h
    exact .inl ((gateOf_update hupdate sourceId).trans hrisk)
  | setEnabled target enabled clock =>
    obtain ⟨written, hupdate, rfl⟩ := Option.map_eq_some_iff.mp h
    exact .inl ((gateOf_setEnabled hupdate sourceId).trans hrisk)
  | setSchedulingGate target gate clock =>
    obtain ⟨written, hupdate, rfl⟩ := Option.map_eq_some_iff.mp h
    have hgate := gateOf_setSchedulingGate hupdate sourceId
    by_cases hid : sourceId = target
    · exact .inr (.inl hid.symm)
    · rw [if_neg hid] at hgate
      exact .inl (hgate.trans hrisk)
  | moveLeases rows =>
    obtain rfl := Option.some.inj h
    exact .inl hrisk

/-- A row that is locked is the row of the source. -/
theorem gateOf_of_findForUpdate {sources : List SourceRow} {sourceId : Uuid} {row : SourceRow}
    (h : findForUpdate Url sources sourceId = some row) :
    gateOf sources sourceId = some row.schedulingGate := by
  unfold findForUpdate at h
  split_ifs at h
  rw [gateOf, (Option.filter_eq_some_iff.mp h).1, Option.map_some]

/-- **One operation**: a risk-control gate is cleared by operators only, exactly when no run that
failed to authenticate commits on it. -/
theorem operatorClears_iff_riskSpared (config : SourceSyncConfig) (tables : AccountTables)
    (operation : GateOperation Url) :
    OperatorClears config tables operation ↔ RiskSpared tables operation := by
  refine ⟨fun hoperator => ?_, fun hspared sourceId hclears => ?_⟩
  · cases operation with
    | failedRun run outcome =>
      cases outcome with
      | authenticationRequired =>
        intro hfinishes row hrow hgate
        -- The run commits, and its source is gated anew.
        have hsome : (findForUpdate Url tables.sources run.sourceId).isSome = true := by
          rw [hrow]
          rfl
        obtain ⟨sources, hgated⟩ := Option.isSome_iff_exists.mp
          (SourceSync.gateSource_isSome .authenticationRequired hsome)
        have hrun : SourceSync.finishFailedRun Url config tables.sources run .authenticationRequired
            = some sources := by
          rw [SourceSync.finishFailedRun, if_pos hfinishes]
          exact hgated
        have hrisk : gateOf tables.sources run.sourceId = some .riskControlled := by
          rw [gateOf_of_findForUpdate hrow, hgate]
        have hleft := SourceSync.gateOf_finishFailedRun hrun run.sourceId
        rw [if_pos rfl, hrisk] at hleft
        refine hoperator run.sourceId ⟨hrisk, .authenticationRequired, by decide, ?_⟩
        rw [AccountTables.step, GateOperation.commit, hrun]
        exact hleft
      | _ => trivial
    | _ => trivial
  · obtain ⟨hrisk, gate, hgate, hafter⟩ := hclears
    unfold AccountTables.step at hafter
    cases hcommit : operation.commit config tables with
    | none =>
      rw [hcommit, Option.getD_none, hrisk] at hafter
      exact absurd (Option.some.inj hafter).symm hgate
    | some tables' =>
      rw [hcommit, Option.getD_some] at hafter
      rcases commit_risk hcommit hrisk with hstays | hoperator | ⟨run, rfl, rfl, hfinishes⟩
      · rw [hstays] at hafter
        exact absurd (Option.some.inj hafter).symm hgate
      · exact hoperator
      · obtain ⟨sources, hrun, -⟩ := Option.map_eq_some_iff.mp hcommit
        rw [SourceSync.finishFailedRun, if_pos hfinishes] at hrun
        obtain ⟨row, hlocked, -⟩ := SourceSync.findForUpdate_of_gateSource hrun
        have hrow := gateOf_of_findForUpdate hlocked
        rw [hrisk] at hrow
        exact absurd (Option.some.inj hrow).symm (hspared hfinishes row hlocked)

/-- **Along a run, risk-control gates are cleared by operators only, exactly when no run that failed
to authenticate commits on a risk-controlled source.** -/
theorem risk_gate_operator_iff (config : SourceSyncConfig) (tables : AccountTables)
    (operations : List (GateOperation Url)) :
    Meets (AccountTables.step config) (OperatorClears config) tables operations ↔
      Meets (AccountTables.step config) RiskSpared tables operations :=
  meets_congr (P := fun _ => True) (fun _ _ _ _ => trivial)
    (fun tables operation _ => operatorClears_iff_riskSpared config tables operation) operations
    trivial

end Gates

/-! ## A gate taken down in two steps -/

section Samples

/-- A source bound to account 1, gated for risk control. -/
def riskySource : SourceRow where
  id := ⟨7⟩
  bookId := "book"
  displayName := "name"
  articleUrl := none
  accountId := some ⟨1⟩
  feedRevision := 0
  enabled := true
  schedulingGate := .riskControlled
  syncIntervalSeconds := 3600
  rssItemLimit := 20
  nextFetchAt := 0
  failureCooldownUntil := none
  scheduleReservedUntil := none
  priority := 0
  maxAttempts := 3
  updatedAt := 0

def riskyTables : AccountTables :=
  ⟨[⟨⟨1⟩, "reader", some [1], some 5, 1, false, false⟩], [⟨⟨1⟩, "worker", ⟨9⟩, 1000⟩],
    [riskySource]⟩

def plainSyncConfig : SourceSyncConfig := ⟨60000000000, 300000000000⟩

/-- A run that was started by hand fails to authenticate. -/
def expiredRun : GateOperation PlainUrl :=
  .failedRun ⟨⟨7⟩, 10, 10, true⟩ .authenticationRequired

/-- Then the account gets new credentials. -/
def newLogin : GateOperation PlainUrl :=
  .replaceCredentials ⟨⟨1⟩, "reader", 1, [2], 1000000, "worker", ⟨9⟩⟩ 20

/-- An operator clears the gate first. -/
def clearedByOperator : GateOperation PlainUrl := .setSchedulingGate ⟨7⟩ .ready 5

theorem risk_gate_operator_first :
    Meets (AccountTables.step plainSyncConfig) (OperatorClears plainSyncConfig) riskyTables
      [clearedByOperator, expiredRun, newLogin] := by
  refine (risk_gate_operator_iff plainSyncConfig riskyTables
    [clearedByOperator, expiredRun, newLogin]).mpr ⟨trivial, fun _ row hrow => ?_, trivial, trivial⟩
  obtain rfl := Option.some.inj hrow
  decide

/-- **The source is ready again, and no operator was asked.** -/
theorem risk_gate_laundered :
    gateOf (run (AccountTables.step plainSyncConfig) riskyTables [expiredRun, newLogin]).sources ⟨7⟩
        = some .ready ∧
      ¬ Meets (AccountTables.step plainSyncConfig) (OperatorClears plainSyncConfig) riskyTables
        [expiredRun, newLogin] := by
  refine ⟨by decide +kernel, fun hmeets => ?_⟩
  exact hmeets.1 ⟨7⟩ ⟨by decide +kernel, .authenticationRequired, by decide, by decide +kernel⟩

end Samples

end Werrss
