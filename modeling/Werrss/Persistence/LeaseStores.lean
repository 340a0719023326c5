import Werrss.Persistence.LeaseHistory

/-!
# Persistence/LeaseStores — the statements and the map are lawful

    SQL:  refused │ row written, decoded        map:  refused │ lease inserted
                  └── ends beyond the calendar: written, not told

Each implementation either refuses a call and changes nothing, or writes the one lease the call is
about.  A row that ends beyond the calendar is written but cannot be read back.
-/

open Machinery Tenure

namespace Werrss

/-! ## The statements are lawful -/

section Validated

variable {E : Type} {errors : LeaseErrors E}

theorem LeaseErrors.ofStorage_eq_ok {A : Type} {x : Except JobRepositoryError A} {a : A}
    (h : errors.ofStorage x = .ok a) : x = .ok a := AuthService.mapError_eq_ok h

theorem LeaseErrors.key_ne_nil {key : Uuid} {u : Unit} (h : errors.validateKey key = .ok u) :
    key ≠ .nil := by
  unfold LeaseErrors.validateKey at h
  split_ifs at h with hkey
  exact hkey

theorem LeaseErrors.key_of_validateInputs {key : Uuid} {owner : String} {leaseFor : Duration}
    {u : Unit} (h : errors.validateInputs key owner leaseFor = .ok u) : key ≠ .nil := by
  obtain ⟨_, hboth, -⟩ := bind_eq_ok h
  obtain ⟨_, hkey, -⟩ := bind_eq_ok hboth
  exact key_ne_nil hkey

/-- A lease ends after it begins. -/
theorem le_of_leaseEnd {now leaseUntil : DateTime} {milliseconds : ℕ}
    (h : leaseEnd now milliseconds = .ok leaseUntil) : now ≤ leaseUntil := by
  unfold leaseEnd at h
  simp only at h
  split_ifs at h
  rw [← Except.ok.inj h]
  have hle (a : ℤ) (n : ℕ) : a ≤ a + (n : ℤ) * 1000 := by omega
  exact hle now _

/-- **A written row decodes unless it ends beyond the calendar.** -/
theorem LeaseErrors.decodeLease_cases (errors : LeaseErrors E) (row : LeaseRecord) (hkey : row.key ≠ .nil)
    (hbegin : DateTime.minUtc ≤ row.heartbeatAt) (hend : row.heartbeatAt ≤ row.leaseUntil) :
    (∃ e, errors.decodeLease row = .error e) ∧ DateTime.maxUtc ≤ row.leaseUntil ∨
      errors.decodeLease row = .ok row ∧ row.leaseUntil ≤ DateTime.maxUtc := by
  have hvalid : errors.validateKey row.key = .ok () := if_neg hkey
  rcases Int.lt_or_le DateTime.maxUtc row.leaseUntil with hout | hin
  · have hnone : decodeInstant row.leaseUntil = .error (.storage "timestamp outside the calendar") :=
      if_neg fun h => absurd h.2 (Int.not_le.mpr hout)
    refine .inl ⟨⟨errors.storage "timestamp outside the calendar", ?_⟩, Int.le_of_lt hout⟩
    rw [LeaseErrors.decodeLease, hvalid, hnone]
    rfl
  · have huntil : decodeInstant row.leaseUntil = .ok row.leaseUntil :=
      if_pos ⟨Int.le_trans hbegin hend, hin⟩
    have hheartbeat : decodeInstant row.heartbeatAt = .ok row.heartbeatAt :=
      if_pos ⟨hbegin, Int.le_trans hend hin⟩
    refine .inr ⟨?_, hin⟩
    rw [LeaseErrors.decodeLease, hvalid, huntil, hheartbeat]
    rfl

end Validated

namespace SqlLeases

variable {E : Type} (errors : LeaseErrors E) (references : Uuid → Except E Unit)

/-- A store of SQL statements. -/
def store : LeaseStore (List LeaseRecord) E where
  acquire := acquire errors references
  heartbeat := heartbeat errors
  release := release errors

theorem find_put {rows : List LeaseRecord} {lease row : LeaseRecord}
    (h : find rows lease.key = some row) :
    find (put rows lease) = Function.update (find rows) lease.key (some lease) := by
  funext key
  rw [find, put, Rows.get_replace rfl, Function.update_apply]
  split_ifs with hkey
  · rw [hkey]
    change (find rows lease.key).map _ = _
    rw [h, Option.map_some]
  · rfl

theorem find_concat {rows : List LeaseRecord} {lease : LeaseRecord}
    (h : find rows lease.key = none) :
    find (rows ++ [lease]) = Function.update (find rows) lease.key (some lease) := by
  funext key
  rw [find, Rows.get_append_singleton, Function.update_apply]
  split_ifs with hkey hkey' hkey'
  · rw [← hkey] at hkey' ⊢
    change (find rows lease.key).or _ = _
    rw [h, Option.none_or]
  · exact absurd hkey.symm hkey'
  · exact absurd hkey'.symm hkey
  · rw [Option.or_none, find]

theorem find_remove (rows : List LeaseRecord) (key : Uuid) :
    find (Rows.remove LeaseRecord.key rows key) = Function.update (find rows) key none := by
  funext k
  rw [find, Rows.get_remove, Function.update_apply, find]

variable {errors}

/-- **The row an acquisition proposes.** -/
theorem proposed_eq_ok {key : Uuid} {owner : String} {leaseFor : Duration} {token : Uuid}
    {now : DateTime} {lease : LeaseRecord}
    (h : proposed errors key owner leaseFor token now = .ok lease) :
    key ≠ .nil ∧ ∃ leaseUntil, now ≤ leaseUntil ∧ lease = ⟨key, owner, token, leaseUntil, now⟩ := by
  obtain ⟨_, hvalid, h⟩ := bind_eq_ok h
  obtain ⟨milliseconds, -, h⟩ := bind_eq_ok h
  obtain ⟨bound, hbound, h⟩ := bind_eq_ok h
  obtain ⟨leaseUntil, hend, h⟩ := bind_eq_ok h
  have howner : bound = owner := bindText_eq_ok (LeaseErrors.ofStorage_eq_ok hbound)
  refine ⟨LeaseErrors.key_of_validateInputs hvalid, leaseUntil,
    le_of_leaseEnd (LeaseErrors.ofStorage_eq_ok hend), ?_⟩
  rw [← Except.ok.inj h, howner]

/-- **What an acquisition does.** -/
theorem acquire_cases (rows : List LeaseRecord) (key : Uuid) (owner : String) (leaseFor : Duration)
    (token : Uuid) (now : DateTime) :
    (∃ answer, acquire errors references rows key owner leaseFor token now = (rows, answer) ∧
      ∀ lease, answer ≠ .ok (some lease)) ∨
    ∃ lease, proposed errors key owner leaseFor token now = .ok lease ∧
      (∀ row ∈ find rows key, row.leaseUntil ≤ now) ∧ ∃ rows',
        acquire errors references rows key owner leaseFor token now
          = (rows', (errors.decodeLease lease).map some) ∧
        find rows' = Function.update (find rows) key (some lease) := by
  unfold acquire
  cases hproposed : proposed errors key owner leaseFor token now with
  | error e => exact .inl ⟨.error e, rfl, fun _ h => nomatch h⟩
  | ok lease =>
    obtain ⟨-, leaseUntil, -, rfl⟩ := proposed_eq_ok hproposed
    cases hfind : find rows key with
    | some row =>
      by_cases hfree : row.leaseUntil ≤ now
      · refine .inr ⟨_, rfl, fun other hother => Option.some.inj hother ▸ hfree, _, if_pos hfree, ?_⟩
        exact find_put hfind
      · exact .inl ⟨.ok none, if_neg hfree, fun _ h => nomatch h⟩
    | none =>
      cases hreferences : references key with
      | error e => exact .inl ⟨.error e, rfl, fun _ h => nomatch h⟩
      | ok _ =>
        refine .inr ⟨⟨key, owner, token, leaseUntil, now⟩, rfl, fun _ h => ?_, _, rfl,
          find_concat hfind⟩
        cases h

/-- **What a heartbeat does.** -/
theorem heartbeat_cases (rows : List LeaseRecord) (key : Uuid) (owner : String) (token : Uuid)
    (leaseFor : Duration) (now : DateTime) :
    (∃ e, heartbeat errors rows key owner token leaseFor now = (rows, .error e)) ∨
    ∃ row leaseUntil, key ≠ .nil ∧ now ≤ leaseUntil ∧ find rows key = some row ∧
      row.isHeldBy owner token now = true ∧
      heartbeat errors rows key owner token leaseFor now =
        (put rows ⟨key, owner, token, leaseUntil, now⟩,
          errors.decodeLease ⟨key, owner, token, leaseUntil, now⟩) := by
  unfold heartbeat
  simp only
  split
  · exact .inl ⟨_, rfl⟩
  · rename_i milliseconds bound hbound
    obtain ⟨_, hvalid, h⟩ := bind_eq_ok hbound
    obtain ⟨_, -, h⟩ := bind_eq_ok h
    obtain ⟨_, htext, h⟩ := bind_eq_ok h
    obtain rfl := (Prod.mk.inj (Except.ok.inj h)).2
    obtain rfl := (bindText_eq_ok (LeaseErrors.ofStorage_eq_ok htext)).symm
    by_cases hheld : ((find rows key).any fun row => row.isHeldBy owner token now) = true
    · obtain ⟨row, hrow, hrow'⟩ := (Option.any_eq_true _ _).mp hheld
      rw [if_pos hheld]
      cases hend : errors.ofStorage (leaseEnd now milliseconds) with
      | error e => exact .inl ⟨e, rfl⟩
      | ok leaseUntil =>
        exact .inr ⟨row, leaseUntil, LeaseErrors.key_of_validateInputs hvalid,
          le_of_leaseEnd (LeaseErrors.ofStorage_eq_ok hend), hrow, hrow', rfl⟩
    · exact .inl ⟨_, if_neg hheld⟩

/-- **What a release does.** -/
theorem release_cases (rows : List LeaseRecord) (key : Uuid) (owner : String) (token : Uuid)
    (now : DateTime) :
    (∃ e, release errors rows key owner token now = (rows, .error e)) ∨
    ∃ row, find rows key = some row ∧ row.isHeldBy owner token now = true ∧
      release errors rows key owner token now = (Rows.remove LeaseRecord.key rows key, .ok ()) := by
  unfold release
  simp only
  split
  · exact .inl ⟨_, rfl⟩
  · rename_i bound hbound
    obtain ⟨_, -, h⟩ := bind_eq_ok hbound
    obtain rfl := (bindText_eq_ok (LeaseErrors.ofStorage_eq_ok h)).symm
    by_cases hheld : ((find rows key).any fun row => row.isHeldBy owner token now) = true
    · obtain ⟨row, hrow, hrow'⟩ := (Option.any_eq_true _ _).mp hheld
      exact .inr ⟨row, hrow, hrow', if_pos hheld⟩
    · exact .inl ⟨_, if_neg hheld⟩

variable (errors)

/-- **The statements are lawful.** -/
theorem lawful : (store errors references).Lawful find where
  acquire rows key owner leaseFor token now hnow := by
    rcases acquire_cases references rows key owner leaseFor token now with ⟨answer, heq, hrefused⟩ |
      ⟨lease, hproposed, hfree, rows', heq, hfind⟩
    · refine .inl ?_
      change (acquire errors references rows key owner leaseFor token now).1 = rows ∧ ∀ lease,
        (acquire errors references rows key owner leaseFor token now).2 ≠ .ok (some lease)
      rw [heq]
      exact ⟨rfl, hrefused⟩
    · obtain ⟨hkey, leaseUntil, hend, rfl⟩ := proposed_eq_ok hproposed
      refine .inr ⟨leaseUntil, hfree, ?_⟩
      change find (acquire errors references rows key owner leaseFor token now).1 = _ ∧
        ((∃ e, (acquire errors references rows key owner leaseFor token now).2 = .error e) ∨
          (acquire errors references rows key owner leaseFor token now).2 = _ ∧ _)
      rw [heq]
      refine ⟨hfind, ?_⟩
      rcases errors.decodeLease_cases ⟨key, owner, token, leaseUntil, now⟩ hkey hnow hend with
        ⟨⟨e, he⟩, -⟩ | ⟨hok, hin⟩
      · exact .inl ⟨e, by rw [he]; rfl⟩
      · exact .inr ⟨by rw [hok]; rfl, hin⟩
  heartbeat rows key owner token leaseFor now hnow := by
    rcases heartbeat_cases rows key owner token leaseFor now with ⟨e, heq⟩ |
      ⟨row, leaseUntil, hkey, hend, hrow, hheld, heq⟩
    · refine .inl ?_
      change (heartbeat errors rows key owner token leaseFor now).1 = rows ∧ ∃ e,
        (heartbeat errors rows key owner token leaseFor now).2 = .error e
      rw [heq]
      exact ⟨rfl, e, rfl⟩
    · refine .inr ⟨row, leaseUntil, hrow, hheld, ?_⟩
      change find (heartbeat errors rows key owner token leaseFor now).1 = _ ∧
        ((∃ e, (heartbeat errors rows key owner token leaseFor now).2 = .error e) ∧ _ ∨
          (heartbeat errors rows key owner token leaseFor now).2 = _ ∧ _)
      rw [heq]
      exact ⟨find_put hrow, errors.decodeLease_cases _ hkey hnow hend⟩
  release rows key owner token now := by
    rcases release_cases rows key owner token now with ⟨e, heq⟩ | ⟨row, hrow, hheld, heq⟩
    · refine .inl ?_
      change (release errors rows key owner token now).1 = rows ∧ ∃ e,
        (release errors rows key owner token now).2 = .error e
      rw [heq]
      exact ⟨rfl, e, rfl⟩
    · refine .inr ⟨row, hrow, hheld, ?_⟩
      change find (release errors rows key owner token now).1 = _ ∧
        (release errors rows key owner token now).2 = _
      rw [heq]
      exact ⟨find_remove rows key, rfl⟩

end SqlLeases

/-! ## The map is lawful -/

namespace MemoryLeases

variable {E : Type} (errors : LeaseErrors E)

/-- A store behind a mutex. -/
def store : LeaseStore State E where
  acquire := acquire errors
  heartbeat := heartbeat errors
  release := release errors

theorem get_insert_eq (leases : State) (key : Uuid) (lease : LeaseRecord) :
    (leases.insert key lease).get = Function.update leases.get key (some lease) := by
  funext k
  rw [HashMap.get_insert, Function.update_apply]

theorem get_remove_eq (leases : State) (key : Uuid) :
    (leases.remove key).get = Function.update leases.get key none := by
  funext k
  rw [HashMap.get_remove, Function.update_apply]

theorem le_of_checkedAddSigned {now leaseUntil : DateTime} {leaseFor : Duration}
    (h : DateTime.checkedAddSigned now leaseFor = some leaseUntil) :
    leaseUntil ≤ DateTime.maxUtc := by
  unfold DateTime.checkedAddSigned at h
  split_ifs at h with hcal
  exact Option.some.inj h ▸ hcal.2

/-- **The map is lawful.** -/
theorem lawful : (store errors).Lawful HashMap.get where
  acquire leases key owner leaseFor token now _ := by
    change ((acquire errors leases key owner leaseFor token now).1 = leases ∧ ∀ lease,
      (acquire errors leases key owner leaseFor token now).2 ≠ .ok (some lease)) ∨ ∃ leaseUntil, _ ∧
      (acquire errors leases key owner leaseFor token now).1.get = _ ∧
      ((∃ e, (acquire errors leases key owner leaseFor token now).2 = .error e) ∨
        (acquire errors leases key owner leaseFor token now).2 = _ ∧ _)
    unfold acquire
    cases errors.validateInputs key owner leaseFor with
    | error e => exact .inl ⟨rfl, fun _ h => by cases h⟩
    | ok _ =>
      by_cases hlive : ((leases.get key).any fun lease => lease.isLiveAt now) = true
      · simp only [if_pos hlive]
        exact .inl ⟨trivial, fun _ h => by cases h⟩
      · simp only [if_neg hlive]
        cases hadd : DateTime.checkedAddSigned now leaseFor with
        | none => exact .inl ⟨rfl, fun _ h => by cases h⟩
        | some leaseUntil =>
          refine .inr ⟨leaseUntil, fun row hrow => ?_, get_insert_eq .., .inr ⟨rfl, ?_⟩⟩
          · refine Int.not_lt.mp fun hlt => hlive ?_
            exact (Option.any_eq_true _ _).mpr ⟨row, hrow, decide_eq_true hlt⟩
          · exact le_of_checkedAddSigned hadd
  heartbeat leases key owner token leaseFor now _ := by
    change ((heartbeat errors leases key owner token leaseFor now).1 = leases ∧ ∃ e,
      (heartbeat errors leases key owner token leaseFor now).2 = .error e) ∨
      ∃ row leaseUntil, _ ∧ _ ∧ (heartbeat errors leases key owner token leaseFor now).1.get = _ ∧
      ((∃ e, (heartbeat errors leases key owner token leaseFor now).2 = .error e) ∧ _ ∨
        (heartbeat errors leases key owner token leaseFor now).2 = _ ∧ _)
    unfold heartbeat
    cases errors.validateInputs key owner leaseFor with
    | error e => exact .inl ⟨rfl, e, rfl⟩
    | ok _ =>
      by_cases hheld : ((leases.get key).any fun lease => lease.isHeldBy owner token now) = true
      · obtain ⟨row, hrow, hrow'⟩ := (Option.any_eq_true _ _).mp hheld
        simp only [if_pos hheld]
        cases hadd : DateTime.checkedAddSigned now leaseFor with
        | none => exact .inl ⟨rfl, _, rfl⟩
        | some leaseUntil =>
          exact .inr ⟨row, leaseUntil, hrow, hrow', get_insert_eq ..,
            .inr ⟨rfl, le_of_checkedAddSigned hadd⟩⟩
      · simp only [if_neg hheld]
        exact .inl ⟨trivial, _, rfl⟩
  release leases key owner token now := by
    change ((release errors leases key owner token now).1 = leases ∧ ∃ e,
      (release errors leases key owner token now).2 = .error e) ∨
      ∃ row, _ ∧ _ ∧ (release errors leases key owner token now).1.get = _ ∧
        (release errors leases key owner token now).2 = _
    unfold release
    cases errors.validateKeyAndOwner key owner with
    | error e => exact .inl ⟨rfl, e, rfl⟩
    | ok _ =>
      by_cases hheld : ((leases.get key).any fun lease => lease.isHeldBy owner token now) = true
      · obtain ⟨row, hrow, hrow'⟩ := (Option.any_eq_true _ _).mp hheld
        simp only [if_pos hheld]
        exact .inr ⟨row, hrow, hrow', get_remove_eq .., trivial⟩
      · simp only [if_neg hheld]
        exact .inl ⟨trivial, _, rfl⟩

end MemoryLeases

end Werrss
