import Werrss.Machinery.Tenure
import Werrss.Persistence.LeaseRepository

/-!
# Persistence/LeaseHistory — what the callers of a lease store are told

    history ──reportOf──▸ what holders were told ──note──▸ terms, pairwise disjoint

Every call of a lawful store is one move of the lease of its key (`LeaseStore.Lawful.moves`), so along
a run from an empty store the terms of a key exclude each other (`LeaseStore.Lawful.exclusive`).
-/

open Machinery Tenure

namespace Werrss

/-! ## What holders are told -/

/-- A holder: an owner under a token. -/
abbrev Holder := String × Uuid

/-- What an accepted call reports to its caller. -/
def report (now : DateTime) : LeaseCall → LeaseAnswer → Option (Tenure.Report Holder DateTime)
  | .acquire _ owner _ token, .acquired lease =>
    lease.map fun lease => .acquired (owner, token) now lease.leaseUntil
  | .heartbeat _ owner token _, .renewed lease => some (.renewed (owner, token) lease.leaseUntil)
  | .release _ owner token, .released => some (.released (owner, token) now)
  | _, _ => none

/-- What an answered call tells its caller about the lease of a key. -/
def reportOf {E : Type} (key : Uuid) :
    (DateTime × LeaseCall) × Except E LeaseAnswer → Option (Tenure.Report Holder DateTime)
  | (_, .error _) => none
  | ((now, call), .ok answer) => if call.key = key then report now call answer else none

/-- **The terms of a key**, newest first, as a history tells them. -/
def termsOf {E : Type} (key : Uuid) :
    List ((DateTime × LeaseCall) × Except E LeaseAnswer) → List (Term Holder DateTime)
  | [] => []
  | answered :: history => noteAny (termsOf key history) (reportOf key answered)

/-- The token a call has drawn. -/
def drawn : DateTime × LeaseCall → Option Uuid
  | (_, .acquire _ _ _ token) => some token
  | _ => none

/-- **Calls under a clock that never goes back**, each acquisition with a token of its own. -/
structure Clocked (calls : List (DateTime × LeaseCall)) : Prop where
  clock : calls.Pairwise fun earlier later => earlier.1 ≤ later.1
  calendar : ∀ call ∈ calls, DateTime.minUtc ≤ call.1
  fresh : (calls.filterMap drawn).Nodup

/-- Only an acquisition begins a term, under its token. -/
theorem drawn_of_reportOf {E : Type} {key : Uuid}
    {answered : (DateTime × LeaseCall) × Except E LeaseAnswer} {holder : Holder}
    {began finish : DateTime} (h : reportOf key answered = some (.acquired holder began finish)) :
    drawn answered.1 = some holder.2 := by
  obtain ⟨⟨now, call⟩, _ | answer⟩ := answered
  · cases h
  · simp only [reportOf] at h
    split_ifs at h
    unfold report at h
    split at h
    · obtain ⟨lease, -, hreport⟩ := Option.map_eq_some_iff.mp h
      cases hreport
      rfl
    · cases h
    · cases h
    · cases h

/-- The holders of the terms drew their tokens. -/
theorem mem_drawn_of_termsOf {E : Type} (key : Uuid)
    (history : List ((DateTime × LeaseCall) × Except E LeaseAnswer)) :
    ∀ term ∈ termsOf key history, ∃ answered ∈ history, drawn answered.1 = some term.holder.2 := by
  induction history with
  | nil => exact nofun
  | cons answered history ih =>
    have hold : ∀ term ∈ termsOf key history, ∃ a ∈ answered :: history,
        drawn a.1 = some term.holder.2 := fun term hterm =>
      let ⟨a, ha, hdrawn⟩ := ih term hterm
      ⟨a, List.mem_cons_of_mem _ ha, hdrawn⟩
    intro term hterm
    rw [termsOf] at hterm
    rcases hreport : reportOf key answered with _ | (⟨holder, began, finish⟩ | _ | _)
    · rw [hreport] at hterm
      exact hold term hterm
    · rw [hreport] at hterm
      rcases List.mem_cons.mp hterm with rfl | hterm
      · exact ⟨answered, List.mem_cons_self .., drawn_of_reportOf hreport⟩
      · exact hold term hterm
    all_goals
      rw [hreport] at hterm
      obtain ⟨older, holder, rfl⟩ := List.mem_map.mp hterm
      rw [Term.holder_finishing]
      exact hold older holder

/-! ## Lawful stores -/

/-- The holder of a lease, and how long it lasts. -/
def heldBy (lease : LeaseRecord) : Holder × DateTime := ((lease.owner, lease.token), lease.leaseUntil)

namespace LeaseStore

variable {S E : Type}

/-- **What the calls of a store do**; `view` finds the lease of a key.  A refused call changes
nothing.  An accepted one writes the lease of its key, and answers with it unless it ends beyond the
calendar. -/
structure Lawful (store : LeaseStore S E) (view : S → Uuid → Option LeaseRecord) : Prop where
  acquire : ∀ s key owner leaseFor token now, DateTime.minUtc ≤ now →
    ((store.acquire s key owner leaseFor token now).1 = s ∧
      ∀ lease, (store.acquire s key owner leaseFor token now).2 ≠ .ok (some lease)) ∨
    ∃ leaseUntil, (∀ row ∈ view s key, row.leaseUntil ≤ now) ∧
      view (store.acquire s key owner leaseFor token now).1
        = Function.update (view s) key (some ⟨key, owner, token, leaseUntil, now⟩) ∧
      ((∃ e, (store.acquire s key owner leaseFor token now).2 = .error e) ∨
        (store.acquire s key owner leaseFor token now).2
          = .ok (some ⟨key, owner, token, leaseUntil, now⟩) ∧ leaseUntil ≤ DateTime.maxUtc)
  heartbeat : ∀ s key owner token leaseFor now, DateTime.minUtc ≤ now →
    ((store.heartbeat s key owner token leaseFor now).1 = s ∧
      ∃ e, (store.heartbeat s key owner token leaseFor now).2 = .error e) ∨
    ∃ row leaseUntil, view s key = some row ∧ row.isHeldBy owner token now = true ∧
      view (store.heartbeat s key owner token leaseFor now).1
        = Function.update (view s) key (some ⟨key, owner, token, leaseUntil, now⟩) ∧
      ((∃ e, (store.heartbeat s key owner token leaseFor now).2 = .error e) ∧
          DateTime.maxUtc ≤ leaseUntil ∨
        (store.heartbeat s key owner token leaseFor now).2
          = .ok ⟨key, owner, token, leaseUntil, now⟩ ∧ leaseUntil ≤ DateTime.maxUtc)
  release : ∀ s key owner token now,
    ((store.release s key owner token now).1 = s ∧
      ∃ e, (store.release s key owner token now).2 = .error e) ∨
    ∃ row, view s key = some row ∧ row.isHeldBy owner token now = true ∧
      view (store.release s key owner token now).1 = Function.update (view s) key none ∧
      (store.release s key owner token now).2 = .ok ()

theorem heldBy_of_isHeldBy {row : LeaseRecord} {owner : String} {token : Uuid} {now : DateTime}
    (h : row.isHeldBy owner token now = true) :
    heldBy row = ((owner, token), row.leaseUntil) ∧ now < row.leaseUntil := by
  simp only [LeaseRecord.isHeldBy, LeaseRecord.isLiveAt, Bool.and_eq_true, decide_eq_true_eq] at h
  obtain ⟨⟨rfl, rfl⟩, hlive⟩ := h
  exact ⟨rfl, hlive⟩

/-- A call leaves the leases of the other keys alone. -/
theorem Lawful.view_step {store : LeaseStore S E} {view : S → Uuid → Option LeaseRecord}
    (h : store.Lawful view) (s : S) (a : DateTime × LeaseCall) (hnow : DateTime.minUtc ≤ a.1)
    {key : Uuid} (hkey : key ≠ a.2.key) : view (store.machine.step s a).1 key = view s key := by
  obtain ⟨now, call⟩ := a
  cases call with
  | acquire k owner leaseFor token =>
    change view (store.acquire s k owner leaseFor token now).1 key = _
    rcases h.acquire s k owner leaseFor token now hnow with ⟨hsame, -⟩ | ⟨_, -, hview, -⟩
    · rw [hsame]
    · rw [hview]
      exact Function.update_of_ne hkey _ _
  | heartbeat k owner token leaseFor =>
    change view (store.heartbeat s k owner token leaseFor now).1 key = _
    rcases h.heartbeat s k owner token leaseFor now hnow with ⟨hsame, -⟩ | ⟨_, _, -, -, hview, -⟩
    · rw [hsame]
    · rw [hview]
      exact Function.update_of_ne hkey _ _
  | release k owner token =>
    change view (store.release s k owner token now).1 key = _
    rcases h.release s k owner token now with ⟨hsame, -⟩ | ⟨_, -, -, hview, -⟩
    · rw [hsame]
    · rw [hview]
      exact Function.update_of_ne hkey _ _

/-- **A call is a move of the lease of its key.** -/
theorem Lawful.moves_key {store : LeaseStore S E} {view : S → Uuid → Option LeaseRecord}
    (h : store.Lawful view) (s : S) (a : DateTime × LeaseCall) (hnow : DateTime.minUtc ≤ a.1)
    (terms : List (Term Holder DateTime))
    (hfresh : ∀ token ∈ drawn a, ∀ term ∈ terms, term.holder.2 ≠ token) :
    Moves DateTime.maxUtc terms a.1 ((view s a.2.key).map heldBy)
      ((view (store.machine.step s a).1 a.2.key).map heldBy)
      (reportOf a.2.key (a, (store.machine.step s a).2)) := by
  obtain ⟨now, call⟩ := a
  cases call with
  | acquire key owner leaseFor token =>
    change Moves _ _ _ _ ((view (store.acquire s key owner leaseFor token now).1 key).map heldBy)
      (reportOf key (_, (store.acquire s key owner leaseFor token now).2.map .acquired))
    rcases h.acquire s key owner leaseFor token now hnow with ⟨hsame, hrefused⟩ |
      ⟨leaseUntil, hfree, hview, htold⟩
    · rw [hsame]
      rcases hanswer : (store.acquire s key owner leaseFor token now).2 with e | (_ | lease)
      · exact .stays _
      · simp only [Except.map, reportOf, LeaseCall.key, if_true, report, Option.map_none]
        exact .stays _
      · exact absurd hanswer (hrefused lease)
    · rw [hview, Function.update_self, Option.map_some]
      refine .taken ?_ (fun term hterm heq => hfresh token rfl term hterm (heq ▸ rfl)) ?_
      · intro held hheld
        obtain ⟨row, hrow, rfl⟩ := Option.map_eq_some_iff.mp hheld
        exact hfree row hrow
      · rcases htold with ⟨e, he⟩ | ⟨hok, hlast⟩
        · exact .inl (by rw [he]; rfl)
        · exact .inr ⟨by rw [hok]; exact if_pos rfl, hlast⟩
  | heartbeat key owner token leaseFor =>
    change Moves _ _ _ _ ((view (store.heartbeat s key owner token leaseFor now).1 key).map heldBy)
      (reportOf key (_, (store.heartbeat s key owner token leaseFor now).2.map .renewed))
    rcases h.heartbeat s key owner token leaseFor now hnow with ⟨hsame, e, he⟩ |
      ⟨row, leaseUntil, hrow, hheld, hview, htold⟩
    · rw [hsame, he]
      exact .stays _
    · obtain ⟨hholder, hlive⟩ := heldBy_of_isHeldBy hheld
      change Moves _ _ _ ((view s key).map heldBy) _ _
      rw [hview, Function.update_self, hrow, Option.map_some, hholder]
      refine .extended hlive ?_
      rcases htold with ⟨⟨e, he⟩, hlast⟩ | ⟨hok, hlast⟩
      · exact .inl ⟨by rw [he]; rfl, hlast⟩
      · exact .inr ⟨by rw [hok]; exact if_pos rfl, hlast⟩
  | release key owner token =>
    change Moves _ _ _ _ ((view (store.release s key owner token now).1 key).map heldBy)
      (reportOf key (_, (store.release s key owner token now).2.map fun _ => .released))
    rcases h.release s key owner token now with ⟨hsame, e, he⟩ | ⟨row, hrow, hheld, hview, hok⟩
    · rw [hsame, he]
      exact .stays _
    · obtain ⟨hholder, hlive⟩ := heldBy_of_isHeldBy hheld
      have hreport : reportOf key ((now, LeaseCall.release key owner token),
          (.ok () : Except E Unit).map fun _ => LeaseAnswer.released)
          = some (.released (owner, token) now) := if_pos rfl
      change Moves _ _ _ ((view s key).map heldBy) _ _
      rw [hview, hok, hreport, Function.update_self, hrow, Option.map_some, hholder]
      exact .givenUp hlive

/-- **A call is a move of the lease of every key.** -/
theorem Lawful.moves {store : LeaseStore S E} {view : S → Uuid → Option LeaseRecord}
    (h : store.Lawful view) (s : S) (a : DateTime × LeaseCall) (hnow : DateTime.minUtc ≤ a.1)
    (key : Uuid) (terms : List (Term Holder DateTime))
    (hfresh : ∀ token ∈ drawn a, ∀ term ∈ terms, term.holder.2 ≠ token) :
    Moves DateTime.maxUtc terms a.1 ((view s key).map heldBy)
      ((view (store.machine.step s a).1 key).map heldBy)
      (reportOf key (a, (store.machine.step s a).2)) := by
  by_cases hkey : key = a.2.key
  · rw [hkey]
    exact h.moves_key s a hnow terms hfresh
  · have hsilent : reportOf key (a, (store.machine.step s a).2) = none := by
      cases (store.machine.step s a).2 with
      | error e => rfl
      | ok answer => exact if_neg (Ne.symm hkey)
    rw [hsilent, h.view_step s a hnow hkey]
    exact .stays _

/-- **Along a run from an empty store the terms of a key exclude each other.** -/
theorem Lawful.exclusive {store : LeaseStore S E} {view : S → Uuid → Option LeaseRecord}
    (h : store.Lawful view) {start : S} {key : Uuid} (hempty : view start key = none)
    (calls : List (DateTime × LeaseCall)) (hcalls : Clocked calls) (now : DateTime)
    (hnow : ∀ a ∈ calls, a.1 ≤ now) :
    Exclusive DateTime.maxUtc ((view (store.machine.exec start calls).1 key).map heldBy)
      (termsOf key (store.machine.exec start calls).2) now := by
  induction calls using List.reverseRecOn generalizing now with
  | nil =>
    rw [Machine.exec_nil, hempty]
    exact exclusive_nil _ now
  | append_singleton calls a ih =>
    obtain ⟨hclock, -, hlast⟩ := List.pairwise_append.mp hcalls.clock
    obtain ⟨hfresh, -, hnew⟩ := List.nodup_append.mp (List.filterMap_append .. ▸ hcalls.fresh)
    have hbefore := ih ⟨hclock, fun b hb => hcalls.calendar b (by simp [hb]), hfresh⟩ a.1 fun b hb => hlast b hb a (List.mem_singleton_self a)
    rw [Machine.exec_concat, Machine.advance, termsOf]
    refine (hbefore.moves (le_refl a.1) (h.moves _ a (hcalls.calendar a (by simp)) key _ ?_)).later
      (hnow a (by simp))
    -- The token of `a` was drawn by no call before.
    intro token htoken term hterm heq
    obtain ⟨b, hb, hdrawn⟩ := mem_drawn_of_termsOf key _ term hterm
    have hcall : b.1 ∈ calls := by
      have hmem := List.mem_map_of_mem (f := Prod.fst) hb
      rw [Machine.map_fst_exec] at hmem
      exact List.mem_reverse.mp hmem
    have hhere : token ∈ [a].filterMap drawn := List.mem_filterMap.mpr ⟨a, by simp, htoken⟩
    exact hnew _ (List.mem_filterMap.mpr ⟨b.1, hcall, hdrawn⟩) token hhere heq

end LeaseStore

end Werrss
