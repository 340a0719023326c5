import Werrss.Persistence.LeaseStores

/-!
# Persistence/LeaseExclusion — leases of one key exclude each other in time

    SQL rows ═══ leaseMeaning ═══ locked map        the same answers, call by call

The stores are lawful, so the terms their holders were told never overlap.  The statements and the
map agree as long as PostgreSQL can hold what the map does: an owner without a NUL, a lease inside
the calendar whose microseconds double precision counts exactly, and — for build leases — a source to
refer to.
-/

open Machinery Tenure

namespace Werrss

/-! ## One meaning for both -/

/-- **What a call means for the lease of its key**: what is there afterwards, and the answer. -/
def leaseMeaning {E : Type} (errors : LeaseErrors E) (row : Option LeaseRecord) :
    DateTime × LeaseCall → Option LeaseRecord × Except E LeaseAnswer
  | (now, .acquire key owner leaseFor token) =>
    match errors.validateInputs key owner leaseFor with
    | .error e => (row, .error e)
    | .ok () =>
      if row.any fun lease => lease.isLiveAt now then (row, .ok (.acquired none))
      else
        let lease : LeaseRecord := ⟨key, owner, token, now + leaseFor, now⟩
        (some lease, .ok (.acquired (some lease)))
  | (now, .heartbeat key owner token leaseFor) =>
    match errors.validateInputs key owner leaseFor with
    | .error e => (row, .error e)
    | .ok () =>
      if row.any fun lease => lease.isHeldBy owner token now then
        let lease : LeaseRecord := ⟨key, owner, token, now + leaseFor, now⟩
        (some lease, .ok (.renewed lease))
      else (row, .error (errors.leaseLost key))
  | (now, .release key owner token) =>
    match errors.validateKeyAndOwner key owner with
    | .error e => (row, .error e)
    | .ok () =>
      if row.any fun lease => lease.isHeldBy owner token now then (none, .ok .released)
      else (row, .error (errors.leaseLost key))

/-- **A duration both can hold**: whole milliseconds that fit at an instant of the clock. -/
structure DurationFits (now : DateTime) (leaseFor : Duration) (milliseconds : ℕ) : Prop where
  instant : Instant now
  whole : leaseFor = milliseconds * 1000000
  fits : LeaseFits now milliseconds

/-- **A call PostgreSQL and the map can both hold**: its owner is a text, its duration fits, and its
key is one the table may refer to. -/
def CallFits (keys : Uuid → Prop) : DateTime × LeaseCall → Prop
  | (now, .acquire key owner leaseFor _) =>
    keys key ∧ IsText owner ∧ ∃ milliseconds, DurationFits now leaseFor milliseconds
  | (now, .heartbeat _ owner _ leaseFor) =>
    IsText owner ∧ ∃ milliseconds, DurationFits now leaseFor milliseconds
  | (_, .release _ owner _) => IsText owner

/-- A store gives its calls their meaning. -/
def LeaseStore.Means {S E : Type} (store : LeaseStore S E) (errors : LeaseErrors E)
    (view : S → Uuid → Option LeaseRecord) (keys : Uuid → Prop) : Prop :=
  ∀ s a, CallFits keys a →
    (store.machine.step s a).2 = (leaseMeaning errors (view s a.2.key) a).2 ∧
      view (store.machine.step s a).1
        = Function.update (view s) a.2.key (leaseMeaning errors (view s a.2.key) a).1

section Fits

variable {E : Type} (errors : LeaseErrors E) {now : DateTime} {leaseFor : Duration}
  {milliseconds : ℕ} (h : DurationFits now leaseFor milliseconds)

include h

theorem DurationFits.now_le : now ≤ now + leaseFor := by
  have hle (a : ℤ) (n : ℕ) : a ≤ a + (n : ℤ) * 1000000 := by omega
  rw [h.whole]
  exact hle now milliseconds

theorem DurationFits.inCalendar : DateTime.minUtc ≤ now + leaseFor ∧
    now + leaseFor ≤ DateTime.maxUtc :=
  ⟨Int.le_trans h.instant.inCalendar.1 h.now_le, h.whole ▸ h.fits.calendar⟩

theorem DurationFits.checkedAddSigned :
    DateTime.checkedAddSigned now leaseFor = some (now + leaseFor) := if_pos h.inCalendar

theorem DurationFits.leaseMilliseconds : errors.leaseMilliseconds leaseFor = .ok milliseconds := by
  have hdiv : Int.tdiv ((milliseconds : ℤ) * 1000000) 1000000 = milliseconds :=
    Int.mul_tdiv_cancel _ (by decide)
  have hpositive := h.fits.positive
  have hpos : ¬ ((milliseconds : ℤ) ≤ 0) := by omega
  rw [h.whole]
  simp only [LeaseErrors.leaseMilliseconds, hdiv, if_neg hpos, Int.toNat_natCast]

theorem DurationFits.leaseEnd :
    errors.ofStorage (leaseEnd now milliseconds) = .ok (now + leaseFor) := by
  rw [leaseEnd_of_fits h.instant h.fits, h.whole]
  rfl

/-- A lease that fits is read back as it was written. -/
theorem DurationFits.decodeLease {key : Uuid} (hkey : key ≠ .nil) (owner : String) (token : Uuid) :
    errors.decodeLease ⟨key, owner, token, now + leaseFor, now⟩
      = .ok ⟨key, owner, token, now + leaseFor, now⟩ := by
  have hkept : errors.validateKey key = .ok () := if_neg hkey
  have huntil : decodeInstant (now + leaseFor) = .ok (now + leaseFor) := if_pos h.inCalendar
  have hheartbeat : decodeInstant now = .ok now := if_pos h.instant.inCalendar
  simp only [LeaseErrors.decodeLease, hkept, huntil, hheartbeat]
  rfl

omit h in
theorem ofStorage_bindText {owner : String} (htext : IsText owner) :
    errors.ofStorage (bindText owner) = .ok owner := by
  rw [bindText_of_isText htext]
  rfl

theorem DurationFits.proposed {key : Uuid} {owner : String} {u : Unit}
    (hvalid : errors.validateInputs key owner leaseFor = .ok u) (htext : IsText owner)
    (token : Uuid) : SqlLeases.proposed errors key owner leaseFor token now
      = .ok ⟨key, owner, token, now + leaseFor, now⟩ := by
  rw [SqlLeases.proposed, hvalid, ok_bind, h.leaseMilliseconds errors, ok_bind,
    ofStorage_bindText errors htext, ok_bind, h.leaseEnd errors, ok_bind]
  rfl

end Fits

/-- **The map gives its calls their meaning.** -/
theorem MemoryLeases.means {E : Type} (errors : LeaseErrors E) (keys : Uuid → Prop) :
    (MemoryLeases.store errors).Means errors HashMap.get keys := by
  rintro leases ⟨now, call⟩ hfits
  have hsame (key : Uuid) : leases.get = Function.update leases.get key (leases.get key) :=
    (Function.update_eq_self key leases.get).symm
  cases call with
  | acquire key owner leaseFor token =>
    obtain ⟨-, -, milliseconds, hlease⟩ := hfits
    change (MemoryLeases.acquire errors leases key owner leaseFor token now).2.map
        LeaseAnswer.acquired
        = (leaseMeaning errors (leases.get key) (now, .acquire key owner leaseFor token)).2 ∧
      (MemoryLeases.acquire errors leases key owner leaseFor token now).1.get
        = Function.update leases.get key
            (leaseMeaning errors (leases.get key) (now, .acquire key owner leaseFor token)).1
    simp only [MemoryLeases.acquire, leaseMeaning, hlease.checkedAddSigned]
    cases errors.validateInputs key owner leaseFor with
    | error e => exact ⟨rfl, hsame key⟩
    | ok _ =>
      by_cases hlive : ((leases.get key).any fun lease => lease.isLiveAt now) = true
      · simp only [if_pos hlive]
        exact ⟨rfl, hsame key⟩
      · simp only [if_neg hlive]
        exact ⟨rfl, get_insert_eq ..⟩
  | heartbeat key owner token leaseFor =>
    obtain ⟨-, milliseconds, hlease⟩ := hfits
    change (MemoryLeases.heartbeat errors leases key owner token leaseFor now).2.map
        LeaseAnswer.renewed
        = (leaseMeaning errors (leases.get key) (now, .heartbeat key owner token leaseFor)).2 ∧
      (MemoryLeases.heartbeat errors leases key owner token leaseFor now).1.get
        = Function.update leases.get key
            (leaseMeaning errors (leases.get key) (now, .heartbeat key owner token leaseFor)).1
    simp only [MemoryLeases.heartbeat, leaseMeaning, hlease.checkedAddSigned]
    cases errors.validateInputs key owner leaseFor with
    | error e => exact ⟨rfl, hsame key⟩
    | ok _ =>
      by_cases hheld : ((leases.get key).any fun lease => lease.isHeldBy owner token now) = true
      · simp only [if_pos hheld]
        exact ⟨rfl, get_insert_eq ..⟩
      · simp only [if_neg hheld]
        exact ⟨rfl, hsame key⟩
  | release key owner token =>
    change (MemoryLeases.release errors leases key owner token now).2.map
        (fun _ => LeaseAnswer.released)
        = (leaseMeaning errors (leases.get key) (now, .release key owner token)).2 ∧
      (MemoryLeases.release errors leases key owner token now).1.get
        = Function.update leases.get key
            (leaseMeaning errors (leases.get key) (now, .release key owner token)).1
    simp only [MemoryLeases.release, leaseMeaning]
    cases errors.validateKeyAndOwner key owner with
    | error e => exact ⟨rfl, hsame key⟩
    | ok _ =>
      by_cases hheld : ((leases.get key).any fun lease => lease.isHeldBy owner token now) = true
      · simp only [if_pos hheld]
        exact ⟨rfl, get_remove_eq ..⟩
      · simp only [if_neg hheld]
        exact ⟨rfl, hsame key⟩

/-- **The statements give their calls the same meaning.** -/
theorem SqlLeases.means {E : Type} (errors : LeaseErrors E) (references : Uuid → Except E Unit) :
    (SqlLeases.store errors references).Means errors SqlLeases.find
      fun key => references key = .ok () := by
  rintro rows ⟨now, call⟩ hfits
  have hsame (key : Uuid) : SqlLeases.find rows
      = Function.update (SqlLeases.find rows) key (SqlLeases.find rows key) :=
    (Function.update_eq_self key (SqlLeases.find rows)).symm
  cases call with
  | acquire key owner leaseFor token =>
    obtain ⟨hreferences, htext, milliseconds, hlease⟩ := hfits
    change (SqlLeases.acquire errors references rows key owner leaseFor token now).2.map
        LeaseAnswer.acquired
        = (leaseMeaning errors (SqlLeases.find rows key) (now, .acquire key owner leaseFor token)).2 ∧
      SqlLeases.find (SqlLeases.acquire errors references rows key owner leaseFor token now).1
        = Function.update (SqlLeases.find rows) key
            (leaseMeaning errors (SqlLeases.find rows key) (now, .acquire key owner leaseFor token)).1
    simp only [leaseMeaning, SqlLeases.acquire]
    cases hvalid : errors.validateInputs key owner leaseFor with
    | error e =>
      simp only [SqlLeases.proposed, hvalid]
      exact ⟨rfl, hsame key⟩
    | ok _ =>
      have hkey := LeaseErrors.key_of_validateInputs hvalid
      simp only [hlease.proposed errors hvalid htext, hreferences, hlease.decodeLease errors hkey]
      cases hfind : SqlLeases.find rows key with
      | none => exact ⟨rfl, SqlLeases.find_concat hfind⟩
      | some row =>
        have hlive : (some row).any (fun lease => lease.isLiveAt now) = true ↔
            ¬ row.leaseUntil ≤ now := by
          rw [Option.any_some, LeaseRecord.isLiveAt, decide_eq_true_eq]
          exact Int.not_le.symm
        by_cases hfree : row.leaseUntil ≤ now
        · simp only [if_pos hfree, if_neg (mt hlive.mp (not_not.mpr hfree))]
          exact ⟨rfl, SqlLeases.find_put hfind⟩
        · simp only [if_neg hfree, if_pos (hlive.mpr hfree)]
          rw [← hfind]
          exact ⟨rfl, hsame key⟩
  | heartbeat key owner token leaseFor =>
    obtain ⟨htext, milliseconds, hlease⟩ := hfits
    change (SqlLeases.heartbeat errors rows key owner token leaseFor now).2.map LeaseAnswer.renewed
        = (leaseMeaning errors (SqlLeases.find rows key)
            (now, .heartbeat key owner token leaseFor)).2 ∧
      SqlLeases.find (SqlLeases.heartbeat errors rows key owner token leaseFor now).1
        = Function.update (SqlLeases.find rows) key
            (leaseMeaning errors (SqlLeases.find rows key)
              (now, .heartbeat key owner token leaseFor)).1
    simp only [leaseMeaning, SqlLeases.heartbeat]
    cases hvalid : errors.validateInputs key owner leaseFor with
    | error e => exact ⟨rfl, hsame key⟩
    | ok _ =>
      have hkey := LeaseErrors.key_of_validateInputs hvalid
      simp only [ok_bind, hlease.leaseMilliseconds errors, ofStorage_bindText errors htext, pure,
        Except.pure, hlease.leaseEnd errors, hlease.decodeLease errors hkey]
      by_cases hheld : ((SqlLeases.find rows key).any fun lease => lease.isHeldBy owner token now)
          = true
      · obtain ⟨row, hrow, -⟩ := (Option.any_eq_true _ _).mp hheld
        simp only [if_pos hheld]
        exact ⟨rfl, SqlLeases.find_put hrow⟩
      · simp only [if_neg hheld]
        exact ⟨rfl, hsame key⟩
  | release key owner token =>
    change (SqlLeases.release errors rows key owner token now).2.map
        (fun _ => LeaseAnswer.released)
        = (leaseMeaning errors (SqlLeases.find rows key) (now, .release key owner token)).2 ∧
      SqlLeases.find (SqlLeases.release errors rows key owner token now).1
        = Function.update (SqlLeases.find rows) key
            (leaseMeaning errors (SqlLeases.find rows key) (now, .release key owner token)).1
    simp only [leaseMeaning, SqlLeases.release]
    cases hvalid : errors.validateKeyAndOwner key owner with
    | error e => exact ⟨rfl, hsame key⟩
    | ok _ =>
      simp only [ok_bind, ofStorage_bindText errors hfits]
      by_cases hheld : ((SqlLeases.find rows key).any fun lease => lease.isHeldBy owner token now)
          = true
      · simp only [if_pos hheld]
        exact ⟨rfl, SqlLeases.find_remove rows key⟩
      · simp only [if_neg hheld]
        exact ⟨rfl, hsame key⟩

/-! ## Leases exclude each other -/

/-- **What a lease store promises**: the terms of a key share no instant, who does not hold the live
lease is refused and changes nothing, and a valid acquisition gets a lease exactly when none is
live. -/
structure LeaseStore.Excludes {S E : Type} (store : LeaseStore S E)
    (view : S → Uuid → Option LeaseRecord) (empty : S) (keys : Uuid → Prop) : Prop where
  apart : ∀ calls, Clocked calls → ∀ key,
    (termsOf key (store.machine.exec empty calls).2).Pairwise fun newer older =>
      Disjoint newer.span older.span
  heartbeat_refused : ∀ s key owner token leaseFor now, DateTime.minUtc ≤ now →
    ((view s key).any fun lease => lease.isHeldBy owner token now) = false →
    ∃ e, store.machine.step s (now, .heartbeat key owner token leaseFor) = (s, .error e)
  release_refused : ∀ s key owner token now,
    ((view s key).any fun lease => lease.isHeldBy owner token now) = false →
    ∃ e, store.machine.step s (now, .release key owner token) = (s, .error e)
  acquires_iff : ∀ s key owner leaseFor token now,
    CallFits keys (now, .acquire key owner leaseFor token) → key ≠ .nil → isBlank owner = false →
    ((∃ lease, (store.machine.step s (now, .acquire key owner leaseFor token)).2
        = .ok (.acquired (some lease))) ↔
      ((view s key).any fun lease => lease.isLiveAt now) = false)

/-- **Two implementations are one store**: the same answers, and the same leases afterwards. -/
def LeaseStore.Agrees {S S' E : Type} (store : LeaseStore S E) (store' : LeaseStore S' E)
    (view : S → Uuid → Option LeaseRecord) (view' : S' → Uuid → Option LeaseRecord) (empty : S)
    (empty' : S') (keys : Uuid → Prop) : Prop :=
  ∀ calls, (∀ a ∈ calls, CallFits keys a) →
    (store.machine.exec empty calls).2 = (store'.machine.exec empty' calls).2 ∧
      view (store.machine.exec empty calls).1 = view' (store'.machine.exec empty' calls).1

section Excludes

variable {S S' E : Type} {store : LeaseStore S E} {store' : LeaseStore S' E}
  {errors : LeaseErrors E} {view : S → Uuid → Option LeaseRecord}
  {view' : S' → Uuid → Option LeaseRecord} {empty : S} {empty' : S'} {keys : Uuid → Prop}

theorem LeaseErrors.validateInputs_of_fits {key : Uuid} {owner : String} {now : DateTime}
    {leaseFor : Duration} {milliseconds : ℕ} (hkey : key ≠ .nil) (howner : isBlank owner = false)
    (h : DurationFits now leaseFor milliseconds) :
    errors.validateInputs key owner leaseFor = .ok () := by
  have hlong : ¬ leaseFor ≤ 0 := by
    have hpositive := h.fits.positive
    have harith (n : ℕ) (hn : 0 < n) : ¬ (n : ℤ) * 1000000 ≤ 0 := by omega
    rw [h.whole]
    exact harith milliseconds hpositive
  rw [LeaseErrors.validateInputs, LeaseErrors.validateKeyAndOwner, LeaseErrors.validateKey,
    if_neg hkey, ok_bind, howner, if_neg Bool.false_ne_true, ok_bind, if_neg hlong]

/-- **A lawful store that gives its calls their meaning keeps its promises.** -/
theorem LeaseStore.Lawful.excludes (h : store.Lawful view) (hmeans : store.Means errors view keys)
    (hempty : ∀ key, view empty key = none) : store.Excludes view empty keys where
  apart calls hcalls key := by
    obtain ⟨now, hnow⟩ : ∃ now, ∀ a ∈ calls, a.1 ≤ now := by
      induction calls using List.reverseRecOn with
      | nil => exact ⟨0, nofun⟩
      | append_singleton calls a _ =>
        refine ⟨a.1, fun b hb => ?_⟩
        rcases List.mem_append.mp hb with hb | hb
        · exact (List.pairwise_append.mp hcalls.clock).2.2 b hb a (List.mem_singleton_self a)
        · exact Int.le_of_eq (congrArg Prod.fst (List.mem_singleton.mp hb))
    exact (h.exclusive (hempty key) calls hcalls now hnow).disjoint
  heartbeat_refused s key owner token leaseFor now hnow hheld := by
    rcases h.heartbeat s key owner token leaseFor now hnow with ⟨hsame, e, he⟩ |
      ⟨row, _, hrow, hrow', -⟩
    · exact ⟨e, Prod.ext hsame (congrArg (Except.map _) he)⟩
    · rw [hrow, Option.any_some, hrow'] at hheld
      cases hheld
  release_refused s key owner token now hheld := by
    rcases h.release s key owner token now with ⟨hsame, e, he⟩ | ⟨row, hrow, hrow', -⟩
    · exact ⟨e, Prod.ext hsame (congrArg (Except.map _) he)⟩
    · rw [hrow, Option.any_some, hrow'] at hheld
      cases hheld
  acquires_iff s key owner leaseFor token now hfits hkey howner := by
    obtain ⟨-, -, milliseconds, hlease⟩ := id hfits
    rw [(hmeans s _ hfits).1]
    change (∃ lease, (leaseMeaning errors (view s key) (now, .acquire key owner leaseFor token)).2
      = .ok (.acquired (some lease))) ↔ _
    rw [leaseMeaning, LeaseErrors.validateInputs_of_fits hkey howner hlease]
    cases hlive : (view s key).any fun lease => lease.isLiveAt now with
    | true => exact ⟨fun ⟨_, h⟩ => (nomatch h), fun h => (nomatch h)⟩
    | false => exact ⟨fun _ => rfl, fun _ => ⟨_, rfl⟩⟩

/-- Fewer keys fit. -/
theorem LeaseStore.Means.mono {keys' : Uuid → Prop} (h : store.Means errors view keys)
    (hkeys : ∀ key, keys' key → keys key) : store.Means errors view keys' := by
  rintro s ⟨now, call⟩ hfits
  refine h s (now, call) ?_
  cases call with
  | acquire key owner leaseFor token => exact ⟨hkeys key hfits.1, hfits.2⟩
  | heartbeat key owner token leaseFor => exact hfits
  | release key owner token => exact hfits

/-- **Two stores with one meaning agree.** -/
theorem LeaseStore.Means.agrees (h : store.Means errors view keys)
    (h' : store'.Means errors view' keys) (hempty : view empty = view' empty') :
    store.Agrees store' view view' empty empty' keys := by
  intro calls hfits
  induction calls using List.reverseRecOn with
  | nil => exact ⟨rfl, hempty⟩
  | append_singleton calls a ih =>
    obtain ⟨hhistory, hview⟩ := ih fun b hb => hfits b (List.mem_append_left _ hb)
    have hfit : CallFits keys a := hfits a (by simp)
    obtain ⟨hanswer, hafter⟩ := h (store.machine.exec empty calls).1 a hfit
    obtain ⟨hanswer', hafter'⟩ := h' (store'.machine.exec empty' calls).1 a hfit
    rw [Machine.exec_concat, Machine.exec_concat, Machine.advance, Machine.advance]
    refine ⟨?_, ?_⟩
    · rw [hanswer, hanswer', hhistory, hview]
    · rw [hafter, hafter', hview]

end Excludes

/-- **Leases exclude each other in time**, in both stores and in both implementations of each, and
the two implementations are one store for the calls both can hold. -/
theorem leases_exclude :
    (postgresAccountLeases.Excludes SqlLeases.find [] (fun _ => True) ∧
      memoryAccountLeases.Excludes HashMap.get .empty (fun _ => True) ∧
      postgresAccountLeases.Agrees memoryAccountLeases SqlLeases.find HashMap.get [] .empty
        (fun _ => True)) ∧
    ∀ sources : List Uuid,
      (postgresFeedBuildLeases sources).Excludes SqlLeases.find [] (· ∈ sources) ∧
      memoryFeedBuildLeases.Excludes HashMap.get .empty (· ∈ sources) ∧
      (postgresFeedBuildLeases sources).Agrees memoryFeedBuildLeases SqlLeases.find HashMap.get []
        .empty (· ∈ sources) := by
  have haccount : postgresAccountLeases.Means accountLeaseErrors SqlLeases.find fun _ => True :=
    (SqlLeases.means accountLeaseErrors fun _ => .ok ()).mono fun _ _ => rfl
  have haccount' := MemoryLeases.means accountLeaseErrors fun _ => True
  refine ⟨⟨(SqlLeases.lawful _ _).excludes haccount fun _ => rfl,
    (MemoryLeases.lawful _).excludes haccount' fun _ => rfl, haccount.agrees haccount' rfl⟩, ?_⟩
  intro sources
  have hbuild : (postgresFeedBuildLeases sources).Means feedBuildLeaseErrors SqlLeases.find
      (· ∈ sources) :=
    (SqlLeases.means feedBuildLeaseErrors
      (PostgresFeedBuildLeaseRepository.referencesSource sources)).mono fun _ hmem => if_pos hmem
  have hbuild' := MemoryLeases.means feedBuildLeaseErrors (· ∈ sources)
  exact ⟨(SqlLeases.lawful _ _).excludes hbuild fun _ => rfl,
    (MemoryLeases.lawful _).excludes hbuild' fun _ => rfl, hbuild.agrees hbuild' rfl⟩

/-- **Where the implementations part**: a build lease for a source that is gone, and a lease so long
that double precision drops a millisecond's last digits. -/
theorem leases_part :
    ((postgresFeedBuildLeases []).machine.step [] (0, .acquire ⟨1⟩ "web" 60000000000 ⟨7⟩)).2
        = .error .sourceNotFound ∧
      (memoryFeedBuildLeases.machine.step .empty (0, .acquire ⟨1⟩ "web" 60000000000 ⟨7⟩)).2
        = .ok (.acquired (some ⟨⟨1⟩, "web", ⟨7⟩, 60000000000, 0⟩)) ∧
      (postgresAccountLeases.machine.step []
          (0, .acquire ⟨1⟩ "web" 72057594037929000000 ⟨7⟩)).2
        = .ok (.acquired (some ⟨⟨1⟩, "web", ⟨7⟩, 72057594037928992000, 0⟩)) ∧
      (memoryAccountLeases.machine.step .empty
          (0, .acquire ⟨1⟩ "web" 72057594037929000000 ⟨7⟩)).2
        = .ok (.acquired (some ⟨⟨1⟩, "web", ⟨7⟩, 72057594037929000000, 0⟩)) := by
  decide +kernel

end Werrss
