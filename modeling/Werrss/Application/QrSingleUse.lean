import Werrss.Application.QrLogin

/-!
# Application/QrSingleUse — who may authenticate with an attempt

    locked ─check─▸ calling ─▸ unlocking ║ removing ─▸ returned
                    └──── may win ─────┘ ║ └──── wins ─────────┘

A call comes to an authenticated answer only through the check, and the cell lets one call at a time
be on that way.  What a step can do to a call is said once (`Effect`).  From it: the cell has one
holder, what left the map stays out of it, and — **as long as no poll passes the check while a winner
is in its window** — a winner is alone.
-/

open Machinery

namespace Werrss

/-! ## Stages of a call -/

namespace QrProgress

variable {Session : Type}

/-- The call holds the cell. -/
def holdsCell : QrProgress Session → Bool
  | .locked _ | .calling _ | .unlocking .. => true
  | _ => false

/-- The call may still come to an authenticated answer, or has it and holds the cell. -/
def mayWin : QrProgress Session → Bool
  | .calling (.poll _) => true
  | .unlocking result _ => result.isAuthenticated
  | _ => false

/-- The call has an authenticated answer and gave up the cell. -/
def wins : QrProgress Session → Bool
  | .removing result _ | .releasing result | .returned result => result.isAuthenticated
  | _ => false

/-- The call took the attempt out of the map. -/
def removed : QrProgress Session → Bool
  | .releasing _ => true
  | .returned result => result.consumes
  | _ => false

/-- The call has not come to the cell yet. -/
def beforeCell : QrProgress Session → Bool
  | .absent | .started _ | .found _ => true
  | _ => false

/-- The call sits between its unlock and its removal, with an authenticated answer. -/
def inWindow : QrProgress Session → Bool
  | .removing result _ => result.isAuthenticated
  | _ => false

end QrProgress

namespace QrSystem

variable {Session : Type}

/-! ## What a step does -/

/-- The cell lock is held by the one call that is past it. -/
def Cell (s : QrSystem Session) : Prop :=
  ∀ call, (s.calls call).holdsCell → s.holder = some call

/-- **What one action does**: it moves at most one call, and says where that call can have come from
when it now holds the cell, may win, wins or has removed the attempt. -/
structure Effect (s : QrSystem Session) (action : QrAction Session) (t : QrSystem Session)
    (call : ℕ) : Prop where
  others : ∀ other, other ≠ call → t.calls other = s.calls other
  keepsHolder : ∀ other, other ≠ call → s.holder = some other → t.holder = some other
  holds : (t.calls call).holdsCell → t.holder = some call
  staysGone : s.inMap = false → t.inMap = false
  removes : (t.calls call).removed → (s.calls call).removed ∨ t.inMap = false
  opens : (t.calls call).mayWin → (s.calls call).mayWin ∨
    (s.inMap = true ∧ action = .check call ∧
      ∃ now, s.calls call = .locked (.poll now) ∧ now < s.attempt.expiresAt)
  wins : (t.calls call).wins → (s.calls call).wins ∨ (s.calls call).mayWin

/-- An action its call is not ready for. -/
theorem Effect.idle {s : QrSystem Session} (hs : s.Cell) (action : QrAction Session) (call : ℕ) :
    Effect s action s call :=
  ⟨fun _ _ => rfl, fun _ _ h => h, hs call, id, .inl, .inl, .inl⟩

/-- An action that moves its call to `progress`. -/
theorem Effect.moves {s u : QrSystem Session} {action : QrAction Session} {call : ℕ}
    {progress : QrProgress Session} (hcalls : u.calls = s.calls)
    (hholder : u.holder = s.holder ∨ s.holder = none ∨ s.holder = some call)
    (hmap : s.inMap = false → u.inMap = false)
    (holds : progress.holdsCell → u.holder = some call)
    (removes : progress.removed → (s.calls call).removed ∨ u.inMap = false)
    (opens : progress.mayWin → (s.calls call).mayWin ∨ (s.inMap = true ∧ action = .check call ∧
      ∃ now, s.calls call = .locked (.poll now) ∧ now < s.attempt.expiresAt))
    (wins : progress.wins → (s.calls call).wins ∨ (s.calls call).mayWin) :
    Effect s action (u.setCall call progress) call := by
  have hself := setCall_self u call progress
  refine ⟨fun other hne => ?_, fun other hne h => ?_, ?_, hmap, ?_, ?_, ?_⟩
  · rw [setCall_other u hne, hcalls]
  · rcases hholder with hsame | hfree | hmine
    · exact hsame.trans h
    · rw [hfree] at h
      cases h
    · rw [hmine] at h
      exact absurd (Option.some.inj h).symm hne
  · rw [hself]
    exact holds
  · rw [hself]
    exact removes
  · rw [hself]
    exact opens
  · rw [hself]
    exact wins

/-- A check either finds the attempt out of date, or sends the call on. -/
theorem check_effect {s : QrSystem Session} (hs : s.Cell) {call : ℕ} {operation : QrCall}
    (h : s.calls call = .locked operation) (hmap : s.inMap = true) :
    Effect s (.check call) (s.setCall call (afterCheck s.attempt operation)) call := by
  have hheld : s.holder = some call := hs call (by rw [h]; rfl)
  cases operation with
  | poll now =>
    by_cases hexpired : s.attempt.expiresAt ≤ now
    · rw [afterCheck, if_pos hexpired]
      exact .moves rfl (.inl rfl) id (fun _ => hheld) nofun nofun nofun
    · rw [afterCheck, if_neg hexpired]
      exact .moves rfl (.inl rfl) id (fun _ => hheld) nofun
        (fun _ => .inr ⟨hmap, rfl, now, h, Int.not_le.mp hexpired⟩) nofun
  | cancel now => exact .moves rfl (.inl rfl) id (fun _ => hheld) nofun nofun nofun

/-- The end of the cell's critical section. -/
theorem unlock_effect {s : QrSystem Session} (hs : s.Cell) {call : ℕ} {result : QrResult Session}
    {release : Bool} (h : s.calls call = .unlocking result release) :
    Effect s (.unlock call) (s.step (.unlock call)) call := by
  have hheld : s.holder = some call := hs call (by rw [h]; rfl)
  have hopen : (s.calls call).mayWin = result.isAuthenticated := by rw [h]; rfl
  simp only [step, h]
  split
  · exact .moves rfl (.inr (.inr hheld)) id nofun nofun nofun (fun hwin => .inr (hopen.trans hwin))
  · rename_i hkept
    exact .moves rfl (.inr (.inr hheld)) id nofun (fun hremoved => absurd hremoved hkept) nofun
      (fun hwin => .inr (hopen.trans hwin))

/-- The removal from the map. -/
theorem remove_effect {s : QrSystem Session} {call : ℕ} {result : QrResult Session} {release : Bool}
    (h : s.calls call = .removing result release) :
    Effect s (.remove call) (s.step (.remove call)) call := by
  have hwins : (s.calls call).wins = result.isAuthenticated := by rw [h]; rfl
  simp only [step, h]
  split
  · exact .moves rfl (.inl rfl) (fun _ => rfl) nofun (fun _ => .inr rfl) nofun
      (fun hwin => .inl (hwins.trans hwin))
  · exact .moves rfl (.inl rfl) (fun _ => rfl) nofun (fun _ => .inr rfl) nofun
      (fun hwin => .inl (hwins.trans hwin))

/-- **Every action has the effect of one call's move.** -/
theorem step_effect {s : QrSystem Session} (hs : s.Cell) (action : QrAction Session) :
    ∃ call, Effect s action (s.step action) call := by
  cases action with
  | start call operation =>
    refine ⟨call, ?_⟩
    simp only [step]
    split
    · exact .moves rfl (.inl rfl) id nofun nofun nofun nofun
    · exact .idle hs _ _
  | lookUp call =>
    refine ⟨call, ?_⟩
    simp only [step]
    split
    · split
      · exact .moves rfl (.inl rfl) id nofun nofun nofun nofun
      · exact .moves rfl (.inl rfl) id nofun nofun nofun nofun
    · exact .idle hs _ _
  | lock call =>
    refine ⟨call, ?_⟩
    simp only [step]
    split
    · rename_i hfree
      exact .moves rfl (.inr (.inl hfree)) id (fun _ => rfl) nofun nofun nofun
    · exact .idle hs _ _
  | check call =>
    refine ⟨call, ?_⟩
    simp only [step]
    split
    · rename_i operation h
      split
      · rename_i hmap
        exact check_effect hs h hmap
      · exact .moves rfl (.inl rfl) id (fun _ => hs call (by rw [h]; rfl)) nofun nofun nofun
    · exact .idle hs _ _
  | answerPoll call answer clock =>
    refine ⟨call, ?_⟩
    simp only [step]
    split
    · rename_i now h
      exact .moves rfl (.inl rfl) id (fun _ => hs call (by rw [h]; rfl)) nofun
        (fun _ => .inl (by rw [h]; rfl)) nofun
    · exact .idle hs _ _
  | answerCancel call answer =>
    refine ⟨call, ?_⟩
    simp only [step]
    split
    · rename_i now h
      split
      · exact .moves rfl (.inl rfl) id (fun _ => hs call (by rw [h]; rfl)) nofun nofun nofun
      · exact .moves rfl (.inl rfl) id (fun _ => hs call (by rw [h]; rfl)) nofun nofun nofun
    · exact .idle hs _ _
  | unlock call =>
    refine ⟨call, ?_⟩
    by_cases h : ∃ result release, s.calls call = .unlocking result release
    · obtain ⟨result, release, h⟩ := h
      exact unlock_effect hs h
    · simp only [step]
      split
      · rename_i result release hcall
        exact absurd ⟨result, release, hcall⟩ h
      · exact .idle hs _ _
  | remove call =>
    refine ⟨call, ?_⟩
    by_cases h : ∃ result release, s.calls call = .removing result release
    · obtain ⟨result, release, h⟩ := h
      exact remove_effect h
    · simp only [step]
      split
      · rename_i result release hcall
        exact absurd ⟨result, release, hcall⟩ h
      · exact .idle hs _ _
  | release call =>
    refine ⟨call, ?_⟩
    simp only [step]
    split
    · rename_i result h
      exact .moves rfl (.inl rfl) id nofun (fun _ => .inl (by rw [h]; rfl)) nofun
        (fun hwin => .inl (by rw [h]; exact hwin))
    · exact .idle hs _ _
  | drop call =>
    refine ⟨call, ?_⟩
    simp only [step]
    split
    · exact .idle hs _ _
    · exact .idle hs _ _
    · refine .moves rfl ?_ id nofun nofun nofun nofun
      by_cases h : s.holder = some call
      · exact .inr (.inr h)
      · exact .inl (if_neg h)
  | pruneExpired now =>
    refine ⟨0, ?_⟩
    simp only [step]
    split
    · exact ⟨fun _ _ => rfl, fun _ _ h => h, hs 0, fun _ => rfl, .inl, .inl, .inl⟩
    · exact .idle hs _ _

/-! ## The invariants of every run -/

/-- **The cell has one holder, and a removed attempt stays out of the map.** -/
structure Sound (s : QrSystem Session) : Prop where
  cell : s.Cell
  gone : ∀ call, (s.calls call).removed → s.inMap = false

theorem Sound.step {s : QrSystem Session} (hs : s.Sound) (action : QrAction Session) :
    (s.step action).Sound := by
  obtain ⟨call, e⟩ := step_effect hs.cell action
  refine ⟨fun other hholds => ?_, fun other hremoved => ?_⟩
  · by_cases hother : other = call
    · rw [hother] at hholds ⊢
      exact e.holds hholds
    · rw [e.others other hother] at hholds
      exact e.keepsHolder other hother (hs.cell other hholds)
  · by_cases hother : other = call
    · rw [hother] at hremoved
      rcases e.removes hremoved with hbefore | hnow
      · exact e.staysGone (hs.gone call hbefore)
      · exact hnow
    · rw [e.others other hother] at hremoved
      exact e.staysGone (hs.gone other hremoved)

theorem init_sound (attempt : QrLoginAttempt) : (init attempt : QrSystem Session).Sound :=
  ⟨nofun, nofun⟩

/-- The attempt is out of the map, and this call will not win. -/
def Shut (call : ℕ) (s : QrSystem Session) : Prop :=
  s.Sound ∧ s.inMap = false ∧ (s.calls call).mayWin = false ∧ (s.calls call).wins = false

/-- **Once the attempt is out of the map, a call that may not win never will.** -/
theorem Shut.step {call : ℕ} {s : QrSystem Session} (h : Shut call s) (action : QrAction Session) :
    Shut call (s.step action) := by
  obtain ⟨hs, hmap, hopen, hwins⟩ := h
  obtain ⟨mover, e⟩ := step_effect hs.cell action
  refine ⟨hs.step action, e.staysGone hmap, ?_⟩
  by_cases hmover : call = mover
  · rw [← hmover] at e
    refine ⟨Bool.eq_false_iff.mpr fun hnow => ?_, Bool.eq_false_iff.mpr fun hnow => ?_⟩
    · rcases e.opens hnow with hbefore | ⟨hin, -⟩
      · rw [hopen] at hbefore
        cases hbefore
      · rw [hmap] at hin
        cases hin
    · rcases e.wins hnow with hbefore | hbefore
      · rw [hwins] at hbefore
        cases hbefore
      · rw [hopen] at hbefore
        cases hbefore
  · rw [e.others call hmover]
    exact ⟨hopen, hwins⟩

theorem shut_of_beforeCell {call : ℕ} {s : QrSystem Session} (hs : s.Sound)
    (hmap : s.inMap = false) (h : (s.calls call).beforeCell) : Shut call s := by
  refine ⟨hs, hmap, ?_⟩
  revert h
  cases s.calls call <;> simp [QrProgress.beforeCell, QrProgress.mayWin, QrProgress.wins]

/-! ## At most one winner -/

/-- **No poll passes the check while an authenticated call is in its window.** -/
def NoOverlap (s : QrSystem Session) : QrAction Session → Prop
  | .check call =>
    (∃ now, s.calls call = .locked (.poll now) ∧ now < s.attempt.expiresAt) →
      ∀ other, (s.calls other).inWindow = false
  | _ => True

/-- **A winner is alone**: no other call won, and none may still win. -/
structure Single (s : QrSystem Session) : Prop where
  sound : s.Sound
  closed : ∀ winner call, (s.calls winner).wins → (s.calls call).mayWin = false
  alone : ∀ winner call, (s.calls winner).wins → (s.calls call).wins → call = winner

/-- A winner is in its window, or has removed the attempt. -/
theorem inWindow_or_removed {progress : QrProgress Session} (h : progress.wins) :
    progress.inWindow ∨ progress.removed := by
  cases progress with
  | removing result release => exact .inl h
  | releasing result => exact .inr rfl
  | returned result =>
    cases result with
    | authenticated account name session => exact .inr rfl
    | error e => cases h
    | status response => cases h
  | _ => cases h

/-- A winner gave up the cell. -/
theorem not_mayWin_of_wins {progress : QrProgress Session} (h : progress.wins) :
    ¬progress.mayWin := by
  cases progress with
  | removing | releasing | returned => nofun
  | _ => cases h

/-- The cell keeps two calls from being able to win at once. -/
theorem Sound.mayWin_unique {s : QrSystem Session} (hs : s.Sound) {one other : ℕ}
    (hone : (s.calls one).mayWin) (hother : (s.calls other).mayWin) : one = other := by
  have hholds : ∀ call, (s.calls call).mayWin → (s.calls call).holdsCell := by
    intro call h
    revert h
    cases s.calls call <;> simp [QrProgress.mayWin, QrProgress.holdsCell]
  have hsome := (hs.cell one (hholds one hone)).symm.trans (hs.cell other (hholds other hother))
  exact Option.some.inj hsome

/-- Whoever may win after a step finds no winner before it. -/
theorem Single.no_winner {s : QrSystem Session} (h : s.Single) {action : QrAction Session}
    (hguard : NoOverlap s action) {call : ℕ} (e : Effect s action (s.step action) call)
    (hopen : ((s.step action).calls call).mayWin) (winner : ℕ) : (s.calls winner).wins = false := by
  refine Bool.eq_false_iff.mpr fun hwin => ?_
  rcases e.opens hopen with hbefore | ⟨hmap, rfl, hpoll⟩
  · rw [h.closed winner call hwin] at hbefore
    cases hbefore
  · rcases inWindow_or_removed hwin with hwindow | hremoved
    · rw [hguard hpoll winner] at hwindow
      cases hwindow
    · rw [h.sound.gone winner hremoved] at hmap
      cases hmap

/-- A call that won before the step stays the only winner. -/
theorem Single.winner_is_mover {s : QrSystem Session} (h : s.Single) {action : QrAction Session}
    {call winner : ℕ} (e : Effect s action (s.step action) call)
    (hnow : ((s.step action).calls call).wins) (hwin : (s.calls winner).wins) : winner = call := by
  rcases e.wins hnow with hbefore | hopen
  · exact h.alone call winner hbefore hwin
  · rw [h.closed winner call hwin] at hopen
    cases hopen

theorem Single.step {s : QrSystem Session} (h : s.Single) (action : QrAction Session)
    (hguard : NoOverlap s action) : (s.step action).Single := by
  obtain ⟨mover, e⟩ := step_effect h.sound.cell action
  refine ⟨h.sound.step action, fun winner call hwin => ?_, fun winner call hwin hcall => ?_⟩
  · refine Bool.eq_false_iff.mpr fun hopen => ?_
    by_cases hcall : call = mover
    · -- the mover may win: nobody had won, and it has not won itself
      rw [hcall] at hopen
      by_cases hwinner : winner = mover
      · rw [hwinner] at hwin
        exact not_mayWin_of_wins hwin hopen
      · rw [e.others winner hwinner, h.no_winner hguard e hopen winner] at hwin
        cases hwin
    · rw [e.others call hcall] at hopen
      by_cases hwinner : winner = mover
      · rw [hwinner] at hwin
        rcases e.wins hwin with hbefore | hbefore
        · rw [h.closed mover call hbefore] at hopen
          cases hopen
        · exact hcall (h.sound.mayWin_unique hopen hbefore)
      · rw [e.others winner hwinner] at hwin
        rw [h.closed winner call hwin] at hopen
        cases hopen
  · by_cases hmover : call = mover
    · by_cases hwinner : winner = mover
      · rw [hmover, hwinner]
      · rw [e.others winner hwinner] at hwin
        rw [hmover] at hcall ⊢
        exact (h.winner_is_mover e hcall hwin).symm
    · rw [e.others call hmover] at hcall
      by_cases hwinner : winner = mover
      · rw [hwinner] at hwin ⊢
        exact h.winner_is_mover e hwin hcall
      · rw [e.others winner hwinner] at hwin
        exact h.alone winner call hwin hcall

theorem init_single (attempt : QrLoginAttempt) : (init attempt : QrSystem Session).Single :=
  ⟨init_sound attempt, nofun, nofun⟩

/-! ## Single use -/

/-- The state after `actions`, from the start of the attempt. -/
def after (attempt : QrLoginAttempt) (actions : List (QrAction Session)) : QrSystem Session :=
  run step (init attempt) actions

/-- The call returned `Authenticated`. -/
def Authenticates (s : QrSystem Session) (call : ℕ) : Prop :=
  ∃ result, s.calls call = .returned result ∧ result.isAuthenticated

/-- The call returned `Authenticated`, `Expired`, `RiskControlled` or `Cancelled`. -/
def Consumes (s : QrSystem Session) (call : ℕ) : Prop :=
  ∃ result, s.calls call = .returned result ∧ result.consumes

theorem Authenticates.wins {s : QrSystem Session} {call : ℕ} (h : s.Authenticates call) :
    (s.calls call).wins := by
  obtain ⟨result, hcall, hresult⟩ := h
  rw [hcall]
  exact hresult

theorem after_sound (attempt : QrLoginAttempt) (actions : List (QrAction Session)) :
    (after attempt actions).Sound :=
  run_preserves (P := Sound) (fun _ action h => h.step action) actions (init_sound attempt)

/-- **A consumed attempt authenticates nobody who comes to the cell later.** -/
theorem no_authentication_behind (attempt : QrLoginAttempt)
    (before behind : List (QrAction Session)) {consumer call : ℕ}
    (hconsumed : (after attempt before).Consumes consumer)
    (hcall : ((after attempt before).calls call).beforeCell) :
    ¬(after attempt (before ++ behind)).Authenticates call := by
  intro hwins
  obtain ⟨result, hreturned, hconsumes⟩ := hconsumed
  have hs := after_sound attempt before
  have hmap := hs.gone consumer (by rw [hreturned]; exact hconsumes)
  have hshut : Shut call (after attempt (before ++ behind)) := by
    rw [after, run_append]
    exact run_preserves (P := Shut call) (fun _ action h => h.step action) behind
      (shut_of_beforeCell hs hmap hcall)
  have := hwins.wins
  rw [hshut.2.2.2] at this
  cases this

/-- **An attempt is used once**: behind a consumed attempt nobody authenticates, in every run; and in
a run where no poll passes the check in another call's window, at most one call authenticates. -/
theorem attempt_single_use (attempt : QrLoginAttempt) (actions : List (QrAction Session)) :
    (∀ before behind, actions = before ++ behind → ∀ consumer call,
      (after attempt before).Consumes consumer → ((after attempt before).calls call).beforeCell →
      ¬(after attempt actions).Authenticates call) ∧
    (Meets step NoOverlap (init attempt) actions → ∀ one other,
      (after attempt actions).Authenticates one → (after attempt actions).Authenticates other →
      one = other) := by
  refine ⟨?_, fun hmeets one other hone hother => ?_⟩
  · rintro before behind rfl consumer call hconsumed hcall
    exact no_authentication_behind attempt before behind hconsumed hcall
  · have h : (after attempt actions).Single :=
      run_invariant (P := Single) (fun _ action h hguard => h.step action hguard) actions
        (init_single attempt) hmeets
    exact h.alone other one hother.wins hone.wins

/-! ## Two polls of one attempt -/

/-- An attempt that waits for its scan. -/
def plainAttempt : QrLoginAttempt :=
  ⟨.nil, .nil, none, 600, .waitingForScan⟩

/-- Two polls are made, both find the attempt, and the first one is answered. -/
def twoPolls : List (QrAction String) :=
  [.start 0 (.poll 0), .start 1 (.poll 0), .lookUp 0, .lookUp 1, .lock 0, .check 0,
    .answerPoll 0 (.ok (.authenticated "first")) 1, .unlock 0]

/-- The first poll removes the attempt before the second takes the cell. -/
theorem attempt_single_use_in_turn :
    (after plainAttempt (twoPolls ++ [.remove 0, .lock 1, .check 1, .unlock 1])).Authenticates 0 ∧
      ¬(after plainAttempt (twoPolls ++ [.remove 0, .lock 1, .check 1, .unlock 1])).Authenticates
        1 ∧
      ∀ other,
        (after plainAttempt (twoPolls ++ [.remove 0, .lock 1, .check 1, .unlock 1])).Authenticates
          other → 0 = other := by
  have hfirst : (after plainAttempt
      (twoPolls ++ [.remove 0, .lock 1, .check 1, .unlock 1])).Authenticates 0 :=
    ⟨.authenticated .nil none "first", rfl, rfl⟩
  refine ⟨hfirst, (attempt_single_use plainAttempt _).1 (twoPolls ++ [.remove 0])
    [.lock 1, .check 1, .unlock 1] rfl 0 1 ⟨.authenticated .nil none "first", rfl, rfl⟩ rfl,
    fun other => (attempt_single_use plainAttempt _).2 ?_ 0 other hfirst⟩
  refine ⟨trivial, trivial, trivial, trivial, trivial, fun _ => ?_, trivial, trivial, trivial, trivial,
    fun _ => ?_, trivial, trivial⟩
  all_goals
    rintro (_ | _ | other)
    · rfl
    · rfl
    · rfl

/-- The second poll takes the cell while the first is in its window: **both authenticate**. -/
theorem attempt_used_twice :
    ¬∀ (attempt : QrLoginAttempt) (actions : List (QrAction String)) (one other : ℕ),
      (after attempt actions).Authenticates one → (after attempt actions).Authenticates other →
      one = other := by
  intro h
  have := h plainAttempt (twoPolls ++ [.lock 1, .check 1,
    .answerPoll 1 (.ok (.authenticated "second")) 2, .unlock 1, .remove 0, .remove 1]) 0 1
    ⟨.authenticated .nil none "first", rfl, rfl⟩ ⟨.authenticated .nil none "second", rfl, rfl⟩
  cases this

end QrSystem

end Werrss
