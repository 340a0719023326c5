import Mathlib.Logic.Function.Basic
import Werrss.Machinery.Run
import Werrss.Machinery.Std

/-!
# Application/QrLogin — polls and cancellations of one QR login attempt

    look up ─▸ lock cell ─▸ still current? ─▸ transport ─▸ unlock cell ─▸ remove from map ─▸ return
                                                              └──── window ────┘

Two locks guard an attempt: the map's, taken for single statements, and the cell's, held across the
transport call.  A call that consumes the attempt gives up the cell before it takes the attempt out of
the map; **in that window another call still finds the attempt current.**  Every await is a step of
its own here, and a call may be dropped at any of them.
-/

open Machinery

namespace Werrss

/-! ## The attempt -/

inductive QrLoginState
  | waitingForScan | scanned | completed | expired | cancelled | riskControlled
deriving DecidableEq, Repr

/-- The safe state of an attempt. -/
structure QrLoginStatusResponse where
  attemptId : Uuid
  status : QrLoginState
  expiresAt : DateTime
deriving DecidableEq, Repr

/-- What the transport can answer to a poll. -/
inductive QrLoginTransportPoll (Session : Type)
  | waiting | scanned
  | authenticated (session : Session)
  | expired | riskControlled

inductive QrLoginTransportError
  | unavailable | invalidResponse | riskControlled
deriving DecidableEq, Repr

inductive QrLoginError
  | attemptNotFound
  | transport (error : QrLoginTransportError)
deriving DecidableEq, Repr

/-- The contents of an attempt cell. -/
structure QrLoginAttempt where
  attemptId : Uuid
  accountId : Uuid
  requestedDisplayName : Option String
  expiresAt : DateTime
  state : QrLoginState

/-- `status_for`. -/
def statusFor (attempt : QrLoginAttempt) (state : QrLoginState) : QrLoginStatusResponse :=
  ⟨attempt.attemptId, state, attempt.expiresAt⟩

/-! ## Calls -/

/-- A call of `poll_at_with_clock` or `cancel_at`, with the time it was made. -/
inductive QrCall
  | poll (now : DateTime)
  | cancel (now : DateTime)
deriving DecidableEq, Repr

/-- What a call returns. -/
inductive QrResult (Session : Type)
  | error (error : QrLoginError)
  | status (response : QrLoginStatusResponse)
  | authenticated (accountId : Uuid) (requestedDisplayName : Option String) (session : Session)

/-- The answers that go with the removal of the attempt. -/
def QrResult.consumes {Session : Type} : QrResult Session → Bool
  | .error _ => false
  | .status response =>
    match response.status with
    | .expired | .cancelled | .riskControlled => true
    | .waitingForScan | .scanned | .completed => false
  | .authenticated .. => true

def QrResult.isAuthenticated {Session : Type} : QrResult Session → Bool
  | .authenticated .. => true
  | _ => false

/-- How far a call has come.  A call holds the cell from `locked` to `unlocking`; `release` says
whether the transport is told behind the removal. -/
inductive QrProgress (Session : Type)
  | absent
  | started (call : QrCall)
  | found (call : QrCall)
  | locked (call : QrCall)
  | calling (call : QrCall)
  | unlocking (result : QrResult Session) (release : Bool)
  | removing (result : QrResult Session) (release : Bool)
  | releasing (result : QrResult Session)
  | returned (result : QrResult Session)
  | dropped

/-- **One attempt id**: whether the map still has it, its cell, the holder of the cell lock, and the
calls made for it. -/
structure QrSystem (Session : Type) where
  inMap : Bool
  attempt : QrLoginAttempt
  holder : Option ℕ
  calls : ℕ → QrProgress Session

/-- A step of the system. -/
inductive QrAction (Session : Type)
  | start (call : ℕ) (operation : QrCall)
  | lookUp (call : ℕ)
  | lock (call : ℕ)
  | check (call : ℕ)
  /-- the transport answers a poll; `clock` is read right behind it -/
  | answerPoll (call : ℕ)
      (answer : Except QrLoginTransportError (QrLoginTransportPoll Session)) (clock : DateTime)
  | answerCancel (call : ℕ) (answer : Except QrLoginTransportError Unit)
  | unlock (call : ℕ)
  | remove (call : ℕ)
  | release (call : ℕ)
  | drop (call : ℕ)
  | pruneExpired (now : DateTime)

namespace QrSystem

variable {Session : Type}

def setCall (s : QrSystem Session) (call : ℕ) (progress : QrProgress Session) : QrSystem Session :=
  { s with calls := Function.update s.calls call progress }

@[simp] theorem setCall_self (s : QrSystem Session) (call : ℕ) (progress : QrProgress Session) :
    (s.setCall call progress).calls call = progress :=
  Function.update_self ..

theorem setCall_other (s : QrSystem Session) {call other : ℕ} (h : other ≠ call)
    (progress : QrProgress Session) : (s.setCall call progress).calls other = s.calls other :=
  Function.update_of_ne h ..

/-- Where a call goes once it found its attempt current. -/
def afterCheck (attempt : QrLoginAttempt) (call : QrCall) : QrProgress Session :=
  match call with
  | .poll now =>
    if attempt.expiresAt ≤ now then .unlocking (.status (statusFor attempt .expired)) true
    else .calling call
  | .cancel _ => .calling call

/-- What a poll makes of the transport's answer: its result, and whether it releases the transport. -/
def pollResult (attempt : QrLoginAttempt) (clock : DateTime)
    (answer : Except QrLoginTransportError (QrLoginTransportPoll Session)) :
    QrResult Session × Bool :=
  match answer with
  | .error e => (.error (.transport e), false)
  | .ok poll =>
    if attempt.expiresAt ≤ clock then (.status (statusFor attempt .expired), true)
    else match poll with
      | .waiting => (.status (statusFor attempt .waitingForScan), false)
      | .scanned => (.status (statusFor attempt .scanned), false)
      | .expired => (.status (statusFor attempt .expired), false)
      | .riskControlled => (.status (statusFor attempt .riskControlled), false)
      | .authenticated session =>
        (.authenticated attempt.accountId attempt.requestedDisplayName session, false)

/-- The state a poll leaves in the cell. -/
def pollState (attempt : QrLoginAttempt) (clock : DateTime)
    (answer : Except QrLoginTransportError (QrLoginTransportPoll Session)) : QrLoginState :=
  match answer with
  | .ok .waiting => if attempt.expiresAt ≤ clock then attempt.state else .waitingForScan
  | .ok .scanned => if attempt.expiresAt ≤ clock then attempt.state else .scanned
  | _ => attempt.state

/-- The status of a cancellation made at `now`. -/
def cancelStatus (attempt : QrLoginAttempt) (now : DateTime) : QrLoginState :=
  if attempt.expiresAt ≤ now then .expired else .cancelled

/-- **One step.**  An action the call is not ready for changes nothing. -/
def step (s : QrSystem Session) : QrAction Session → QrSystem Session
  | .start call operation =>
    match s.calls call with
    | .absent => s.setCall call (.started operation)
    | _ => s
  | .lookUp call =>
    match s.calls call with
    | .started operation =>
      if s.inMap then s.setCall call (.found operation)
      else s.setCall call (.returned (.error .attemptNotFound))
    | _ => s
  | .lock call =>
    match s.calls call, s.holder with
    | .found operation, none =>
      { s with holder := some call }.setCall call (.locked operation)
    | _, _ => s
  | .check call =>
    match s.calls call with
    | .locked operation =>
      if s.inMap then s.setCall call (afterCheck s.attempt operation)
      else s.setCall call (.unlocking (.error .attemptNotFound) false)
    | _ => s
  | .answerPoll call answer clock =>
    match s.calls call with
    | .calling (.poll _) =>
      { s with attempt := { s.attempt with state := pollState s.attempt clock answer } }.setCall call
        (.unlocking (pollResult s.attempt clock answer).1 (pollResult s.attempt clock answer).2)
    | _ => s
  | .answerCancel call answer =>
    match s.calls call with
    | .calling (.cancel now) =>
      match answer with
      | .error e => s.setCall call (.unlocking (.error (.transport e)) false)
      | .ok () =>
        { s with attempt := { s.attempt with state := cancelStatus s.attempt now } }.setCall call
          (.unlocking (.status (statusFor s.attempt (cancelStatus s.attempt now))) false)
    | _ => s
  | .unlock call =>
    match s.calls call with
    | .unlocking result release =>
      if result.consumes then { s with holder := none }.setCall call (.removing result release)
      else { s with holder := none }.setCall call (.returned result)
    | _ => s
  | .remove call =>
    match s.calls call with
    | .removing result release =>
      if release then { s with inMap := false }.setCall call (.releasing result)
      else { s with inMap := false }.setCall call (.returned result)
    | _ => s
  | .release call =>
    match s.calls call with
    | .releasing result => s.setCall call (.returned result)
    | _ => s
  | .drop call =>
    match s.calls call with
    | .returned _ | .absent => s
    | _ =>
      { s with holder := if s.holder = some call then none else s.holder }.setCall call .dropped
  | .pruneExpired now =>
    if s.holder = none ∧ s.attempt.expiresAt ≤ now then { s with inMap := false } else s

/-- An attempt right after it was started. -/
def init (attempt : QrLoginAttempt) : QrSystem Session where
  inMap := true
  attempt := attempt
  holder := none
  calls _ := .absent

end QrSystem

end Werrss
