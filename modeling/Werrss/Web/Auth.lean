import Mathlib.Data.Nat.Bitwise
import Werrss.Machinery.Base64
import Werrss.Machinery.HashMap
import Werrss.Machinery.Percent
import Werrss.Machinery.Run
import Werrss.Machinery.Std

/-!
# Web/Auth — logins of the administrator, and how many may go wrong

    key   ──✗──✗──✗──✗──✗──▪──▪───────✗──✗──✓──✗──
            ├──── window ────┤        ├─ … ─┤  ├─ …

A client's first failed login opens a window; five failures close the door until the window is
over.  The limiter prunes every client's window at every call.  **What it remembers of a client is
the client's own recorded failures, the ones since the window opened** — so the answers to a client
are a function of its own calls, and a span of `n` windows' length meets at most `n + 1` windows.
-/

open Machinery

namespace Werrss

/-! ## The limiter -/

/-- `SESSION_TTL`: twelve hours. -/
def sessionTtl : Duration := 12 * 3600 * 1000000000

/-- `RATE_LIMIT_WINDOW`: one minute. -/
def rateLimitWindow : Duration := 60 * 1000000000

/-- `RATE_LIMIT_FAILURES`. -/
def rateLimitFailures : UInt32 := 5

/-- `AttemptWindow`. -/
structure AttemptWindow where
  startedAt : DateTime
  failures : UInt32
deriving DecidableEq, Repr

/-- `LoginRateLimiter`. -/
structure LoginRateLimiter where
  attempts : HashMap String AttemptWindow

/-- The window is not over at an instant. -/
def AttemptWindow.isOpen (now : DateTime) (attempt : AttemptWindow) : Bool :=
  now - attempt.startedAt < rateLimitWindow

namespace LoginRateLimiter

/-- `LoginRateLimiter::default`. -/
def default : LoginRateLimiter := ⟨.empty⟩

/-- `LoginRateLimiter::expire`. -/
def expire (limiter : LoginRateLimiter) (now : DateTime) : LoginRateLimiter :=
  ⟨limiter.attempts.retain fun _ attempt => attempt.isOpen now⟩

/-- `LoginRateLimiter::allow`. -/
def allow (limiter : LoginRateLimiter) (key : String) (now : DateTime) :
    LoginRateLimiter × Bool :=
  let limiter := limiter.expire now
  (limiter, (limiter.attempts.get key).all fun attempt => attempt.failures < rateLimitFailures)

/-- `LoginRateLimiter::failure`. -/
def failure (limiter : LoginRateLimiter) (key : String) (now : DateTime) : LoginRateLimiter :=
  let limiter := limiter.expire now
  let attempt := (limiter.attempts.get key).getD ⟨now, 0⟩
  ⟨limiter.attempts.insert key { attempt with failures := saturatingAdd attempt.failures 1 }⟩

/-- `LoginRateLimiter::success`. -/
def success (limiter : LoginRateLimiter) (key : String) : LoginRateLimiter :=
  ⟨limiter.attempts.remove key⟩

end LoginRateLimiter

/-! ## The authenticator -/

/-- `AuthError`. -/
inductive AuthError
  | invalidCredentials
  | rateLimited
  | invalidSession
  | invalidCsrf
deriving DecidableEq, Repr

/-- `AuthConfigError`. -/
inductive AuthConfigError
  | emptyUsername
  | emptyPassword
  | emptySigningKey
deriving DecidableEq, Repr

/-- `AdminSession`. -/
structure AdminSession where
  username : String
  csrfToken : String
  expiresAt : DateTime
deriving DecidableEq, Repr

/-- `SessionClaims`: the instant in whole seconds. -/
structure SessionClaims where
  username : String
  csrfToken : String
  expiresAt : ℤ
deriving DecidableEq, Repr

/-- `serde_json::to_vec` of the claims, which two texts and an integer cannot fail, and the
HMAC-SHA-256 of a message under a key. -/
class SessionCrate where
  toVec : SessionClaims → List UInt8
  sign : List UInt8 → List UInt8 → List UInt8

/-- `AdminAuthenticator`, without its limiter: the values are the ones `AdminAuthenticator::new`
accepts. -/
structure AdminAuthenticator where
  username : String
  password : String
  signingKey : List UInt8
  username_ne : trim username ≠ ""
  password_ne : password ≠ ""
  signingKey_ne : signingKey ≠ []

/-- `AdminAuthenticator::new`. -/
def AdminAuthenticator.new (username password signingKey : String) :
    Except AuthConfigError AdminAuthenticator :=
  if husername : trim username = "" then .error .emptyUsername
  else if hpassword : password = "" then .error .emptyPassword
  else if hkey : asBytes signingKey = [] then .error .emptySigningKey
  else .ok ⟨username, password, asBytes signingKey, husername, hpassword, hkey⟩

/-- `constant_time_eq`: the differences of the lengths and of every pair of bytes, all or-ed
together. -/
def constantTimeEq (left right : List UInt8) : Bool :=
  (List.range (max left.length right.length)).foldl
    (fun difference index => difference ||| (left.getD index 0 ^^^ right.getD index 0).toNat)
    (left.length ^^^ right.length) == 0

/-- `DateTime::timestamp`. -/
def unixSeconds (t : DateTime) : ℤ := t / 1000000000

/-- A call of `login`: its arguments, and the random bytes it draws. -/
structure LoginCall where
  username : String
  password : String
  clientKey : String
  now : DateTime
  random : List UInt8
deriving DecidableEq, Repr

/-- What a call of `login` answers: nothing where `now + SESSION_TTL` is out of the calendar. -/
abbrev LoginAnswer := Option (Except AuthError (AdminSession × String))

namespace AdminAuthenticator

/-- `AdminAuthenticator::encode`. -/
def encode [SessionCrate] (authenticator : AdminAuthenticator) (session : AdminSession) : String :=
  let payload := SessionCrate.toVec
    ⟨session.username, session.csrfToken, unixSeconds session.expiresAt⟩
  let signature := SessionCrate.sign authenticator.signingKey payload
  Base64.urlSafe.encode payload ++ "." ++ Base64.urlSafe.encode signature

/-- Both comparisons of `login`. -/
def matchesCall (authenticator : AdminAuthenticator) (call : LoginCall) : Bool :=
  let usernameMatches := constantTimeEq (asBytes call.username) (asBytes authenticator.username)
  let passwordMatches := constantTimeEq (asBytes call.password) (asBytes authenticator.password)
  usernameMatches && passwordMatches

/-- The end of `login`: the session and its cookie. -/
def openSession [SessionCrate] (authenticator : AdminAuthenticator) (call : LoginCall) :
    LoginAnswer :=
  (call.now.checkedAddSigned sessionTtl).map fun expiresAt =>
    let session : AdminSession :=
      ⟨authenticator.username, Base64.urlSafe.encode call.random, expiresAt⟩
    .ok (session, authenticator.encode session)

/-- `AdminAuthenticator::login`. -/
def login [SessionCrate] (authenticator : AdminAuthenticator) (limiter : LoginRateLimiter)
    (call : LoginCall) : LoginRateLimiter × LoginAnswer :=
  let (limiter, allowed) := limiter.allow call.clientKey call.now
  if !allowed then (limiter, some (.error .rateLimited))
  else if !authenticator.matchesCall call then
    (limiter.failure call.clientKey call.now, some (.error .invalidCredentials))
  else (limiter.success call.clientKey, authenticator.openSession call)

end AdminAuthenticator

/-! ## The comparison -/

theorem foldl_or_eq_zero (term : ℕ → ℕ) : ∀ (indices : List ℕ) (start : ℕ),
    indices.foldl (fun difference index => difference ||| term index) start = 0
      ↔ start = 0 ∧ ∀ index ∈ indices, term index = 0
  | [], start => by simp
  | index :: indices, start => by
    rw [List.foldl_cons, foldl_or_eq_zero term indices, Nat.or_eq_zero_iff, List.forall_mem_cons,
      and_assoc]

theorem toNat_xor_eq_zero {a b : UInt8} : (a ^^^ b).toNat = 0 ↔ a = b := by
  rw [UInt8.toNat_xor, Nat.xor_eq_zero_iff, UInt8.toNat_inj]

/-- **The comparison is equality of byte strings**, whatever their lengths. -/
theorem constantTimeEq_iff {left right : List UInt8} :
    constantTimeEq left right = true ↔ left = right := by
  rw [constantTimeEq, beq_iff_eq,
    foldl_or_eq_zero fun index => (left.getD index 0 ^^^ right.getD index 0).toNat,
    Nat.xor_eq_zero_iff]
  constructor
  · rintro ⟨hlength, hbytes⟩
    refine List.ext_getElem hlength fun index hleft hright => ?_
    have hbyte := hbytes index (List.mem_range.mpr (by omega))
    rw [toNat_xor_eq_zero, List.getD_eq_getElem _ _ hleft, List.getD_eq_getElem _ _ hright] at hbyte
    exact hbyte
  · rintro rfl
    exact ⟨rfl, fun index _ => toNat_xor_eq_zero.mpr rfl⟩

/-! ## The failures a client is remembered for -/

/-- A call with its answer. -/
abbrev LoginEvent := LoginCall × LoginAnswer

/-- The call got past the limiter and was rejected for its credentials. -/
def LoginEvent.Failed (event : LoginEvent) : Prop :=
  event.2 = some (.error .invalidCredentials)

/-- The call was refused by the limiter. -/
def LoginEvent.Limited (event : LoginEvent) : Prop := event.2 = some (.error .rateLimited)

instance (event : LoginEvent) : Decidable event.Failed :=
  inferInstanceAs (Decidable (event.2 = _))

instance (event : LoginEvent) : Decidable event.Limited :=
  inferInstanceAs (Decidable (event.2 = _))

/-- The window that the oldest of some failures opened is not over. -/
def Current (failures : List DateTime) (now : DateTime) : Prop :=
  ∃ start ∈ failures.head?, now - start < rateLimitWindow

instance (failures : List DateTime) (now : DateTime) : Decidable (Current failures now) :=
  decidable_of_iff (failures.head?.any fun start => decide (now - start < rateLimitWindow)) <| by
    simp only [Option.any_eq_true, decide_eq_true_eq, Current, Option.mem_def]

/-- **The failures recorded in a client's window**, oldest first, from its history, newest first.  A
failure joins the window or, when it is over, opens the next one; a login closes it. -/
def recorded (key : String) : List LoginEvent → List DateTime
  | [] => []
  | event :: earlier =>
    let window := recorded key earlier
    if event.1.clientKey ≠ key then window
    else if event.Failed then
      if Current window event.1.now then window ++ [event.1.now] else [event.1.now]
    else if event.Limited then window
    else []

/-- The record the limiter keeps of some failures. -/
def recordOf (failures : List DateTime) : Option AttemptWindow :=
  failures.head?.map fun start => ⟨start, UInt32.ofNat failures.length⟩

/-- What a client is answered, from the failures of its window. -/
def answerOf [SessionCrate] (authenticator : AdminAuthenticator) (failures : List DateTime)
    (call : LoginCall) : LoginAnswer :=
  if Current failures call.now ∧ failures.length = rateLimitFailures.toNat then
    some (.error .rateLimited)
  else if !authenticator.matchesCall call then some (.error .invalidCredentials)
  else authenticator.openSession call

/-- Every call of a history was made by an instant. -/
def MadeBy (history : List LoginEvent) (t : DateTime) : Prop := ∀ event ∈ history, event.1.now ≤ t

theorem isOpen_eq_true {now : DateTime} {attempt : AttemptWindow} :
    attempt.isOpen now = true ↔ now - attempt.startedAt < rateLimitWindow := by
  rw [AttemptWindow.isOpen, decide_eq_true_iff]

/-- **Pruning early prunes nothing that lasts.** -/
theorem filter_isOpen {now t : DateTime} (h : now ≤ t) (entry : Option AttemptWindow) :
    (entry.filter (AttemptWindow.isOpen now)).filter (AttemptWindow.isOpen t)
      = entry.filter (AttemptWindow.isOpen t) := by
  refine Option.ext fun attempt => ?_
  simp only [Option.filter_eq_some_iff, isOpen_eq_true]
  constructor
  · rintro ⟨⟨hentry, -⟩, hopen⟩
    exact ⟨hentry, hopen⟩
  · rintro ⟨hentry, hopen⟩
    exact ⟨⟨hentry, Int.lt_of_le_of_lt (Int.sub_le_sub_right h _) hopen⟩, hopen⟩

/-- A record is pruned when its window is over. -/
theorem filter_recordOf (failures : List DateTime) (now : DateTime) :
    (recordOf failures).filter (AttemptWindow.isOpen now)
      = if Current failures now then recordOf failures else none := by
  rcases failures with _ | ⟨start, rest⟩
  · simp [recordOf, Current]
  · simp only [recordOf, Current, List.head?_cons, Option.map_some, Option.filter_some,
      AttemptWindow.isOpen, decide_eq_true_eq, Option.mem_some_iff, exists_eq_left']

/-! ## What the limiter remembers -/

/-- **The limiter remembers a history**: of every client, as much as is not over. -/
structure Remembers (limiter : LoginRateLimiter) (history : List LoginEvent) : Prop where
  entry : ∀ key t, MadeBy history t →
    (limiter.attempts.get key).filter (AttemptWindow.isOpen t)
      = (recordOf (recorded key history)).filter (AttemptWindow.isOpen t)
  short : ∀ key, (recorded key history).length ≤ rateLimitFailures.toNat

theorem remembers_default : Remembers .default [] := ⟨fun _ _ _ => rfl, fun _ => Nat.zero_le _⟩

variable {limiter : LoginRateLimiter} {history : List LoginEvent} {now t : DateTime}

theorem get_expire (limiter : LoginRateLimiter) (now : DateTime) (key : String) :
    (limiter.expire now).attempts.get key
      = (limiter.attempts.get key).filter (AttemptWindow.isOpen now) :=
  HashMap.get_retain _ _ key

/-- After pruning, a client's entry is the record of its window, if that is not over. -/
theorem Remembers.get_expire (h : Remembers limiter history) (hnow : MadeBy history now)
    (key : String) : (limiter.expire now).attempts.get key
      = if Current (recorded key history) now then recordOf (recorded key history) else none := by
  rw [Werrss.get_expire, h.entry key now hnow, filter_recordOf]

/-- Pruning keeps what is remembered. -/
theorem Remembers.expire (h : Remembers limiter history) (hnow : MadeBy history now)
    (hle : now ≤ t) (key : String) :
    ((limiter.expire now).attempts.get key).filter (AttemptWindow.isOpen t)
      = (recordOf (recorded key history)).filter (AttemptWindow.isOpen t) := by
  rw [Werrss.get_expire, filter_isOpen hle]
  exact h.entry key t fun event hevent => Int.le_trans (hnow event hevent) hle

/-- The counter of a full window is at the bound, of another below it. -/
theorem ofNat_lt_rateLimitFailures {n : ℕ} (h : n ≤ rateLimitFailures.toNat) :
    UInt32.ofNat n < rateLimitFailures ↔ n ≠ rateLimitFailures.toNat := by
  have hall : ∀ n < 6, UInt32.ofNat n < rateLimitFailures ↔ n ≠ rateLimitFailures.toNat := by
    decide
  exact hall n (Nat.lt_succ_of_le h)

theorem saturatingAdd_ofNat {n : ℕ} (h : n ≤ rateLimitFailures.toNat) :
    saturatingAdd (UInt32.ofNat n) 1 = UInt32.ofNat (n + 1) := by
  have hall : ∀ n < 6, saturatingAdd (UInt32.ofNat n) 1 = UInt32.ofNat (n + 1) := by decide
  exact hall n (Nat.lt_succ_of_le h)

/-- **A client is let through unless its window is current and full.** -/
theorem Remembers.allow_iff (h : Remembers limiter history) (hnow : MadeBy history now)
    (key : String) : (limiter.allow key now).2 = true ↔
      ¬(Current (recorded key history) now
        ∧ (recorded key history).length = rateLimitFailures.toNat) := by
  rw [LoginRateLimiter.allow]
  dsimp only
  rw [h.get_expire hnow key]
  have hshort := h.short key
  by_cases hcurrent : Current (recorded key history) now
  · rw [if_pos hcurrent, and_iff_right hcurrent]
    obtain ⟨start, hstart, -⟩ := hcurrent
    rw [recordOf, Option.mem_def.mp hstart, Option.map_some, Option.all_some, decide_eq_true_iff,
      ofNat_lt_rateLimitFailures hshort]
  · rw [if_neg hcurrent, Option.all_none, eq_self, true_iff]
    exact fun hfull => hcurrent hfull.1

/-- A window that takes no more failures. -/
def Full (failures : List DateTime) (now : DateTime) : Prop :=
  Current failures now ∧ failures.length = rateLimitFailures.toNat

variable {call : LoginCall}

theorem recorded_cons_of_ne {key : String} {event : LoginEvent} (h : event.1.clientKey ≠ key) :
    recorded key (event :: history) = recorded key history := by
  rw [recorded, if_pos h]

theorem recorded_cons_failed (call : LoginCall) (history : List LoginEvent) :
    recorded call.clientKey ((call, some (.error .invalidCredentials)) :: history)
      = if Current (recorded call.clientKey history) call.now then
          recorded call.clientKey history ++ [call.now]
        else [call.now] := by
  rw [recorded, if_neg (not_not.mpr rfl)]
  exact if_pos rfl

theorem recorded_cons_limited (call : LoginCall) (history : List LoginEvent) :
    recorded call.clientKey ((call, some (.error .rateLimited)) :: history)
      = recorded call.clientKey history := by
  rw [recorded, if_neg (not_not.mpr rfl), if_neg]
  · exact if_pos rfl
  · rw [LoginEvent.Failed, Option.some.injEq, Except.error.injEq]
    exact AuthError.noConfusion

theorem recorded_cons_login (call : LoginCall) {answer : LoginAnswer}
    (hanswer : ∀ error, answer ≠ some (.error error)) (history : List LoginEvent) :
    recorded call.clientKey ((call, answer) :: history) = [] := by
  rw [recorded, if_neg (not_not.mpr rfl), if_neg, if_neg]
  · exact hanswer _
  · exact hanswer _

/-- After one more failure the client's entry is the record of its window. -/
theorem Remembers.get_failure (h : Remembers limiter history) (hnow : MadeBy history call.now) :
    ((limiter.expire call.now).failure call.clientKey call.now).attempts.get call.clientKey
      = recordOf (if Current (recorded call.clientKey history) call.now then
          recorded call.clientKey history ++ [call.now] else [call.now]) := by
  have hentry : ((limiter.expire call.now).expire call.now).attempts.get call.clientKey
      = if Current (recorded call.clientKey history) call.now then
          recordOf (recorded call.clientKey history) else none := by
    rw [Werrss.get_expire, Werrss.get_expire, filter_isOpen (Int.le_refl _), ← Werrss.get_expire,
      h.get_expire hnow]
  rw [LoginRateLimiter.failure]
  dsimp only
  rw [HashMap.get_insert, if_pos rfl, hentry]
  by_cases hcurrent : Current (recorded call.clientKey history) call.now
  · have hshort := h.short call.clientKey
    rw [if_pos hcurrent, if_pos hcurrent]
    obtain ⟨start, hstart, -⟩ := hcurrent
    rw [recordOf, recordOf, List.head?_append, Option.mem_def.mp hstart, Option.map_some,
      Option.getD_some, Option.some_or, Option.map_some, saturatingAdd_ofNat hshort,
      List.length_append, List.length_singleton]
  · rw [if_neg hcurrent, if_neg hcurrent]
    rfl

/-- The instants of the calls do not decrease. -/
def Chronological (calls : List LoginCall) : Prop := calls.Pairwise fun a b => a.now ≤ b.now

theorem Chronological.concat {calls : List LoginCall} (h : Chronological (calls ++ [call])) :
    Chronological calls ∧ ∀ earlier ∈ calls, earlier.now ≤ call.now := by
  obtain ⟨hcalls, -, hlast⟩ := List.pairwise_append.mp h
  exact ⟨hcalls, fun earlier hmem => hlast earlier hmem call (List.mem_singleton_self call)⟩

/-- The event is the client's. -/
def LoginEvent.isOf (key : String) (event : LoginEvent) : Bool := event.1.clientKey = key

/-- The call is the client's. -/
def LoginCall.isOf (key : String) (call : LoginCall) : Bool := call.clientKey = key

/-- Only the client's own events are recorded. -/
theorem recorded_filter (key : String) : ∀ history : List LoginEvent,
    recorded key (history.filter (LoginEvent.isOf key)) = recorded key history
  | [] => rfl
  | event :: history => by
    by_cases hkey : event.1.clientKey = key
    · rw [List.filter_cons_of_pos (by simpa [LoginEvent.isOf] using hkey), recorded, recorded,
        recorded_filter key history]
    · rw [List.filter_cons_of_neg (by simpa [LoginEvent.isOf] using hkey),
        recorded_cons_of_ne hkey, recorded_filter key history]

/-! ## The failures windows hold -/

/-- The client's failure in a span of time. -/
def LoginEvent.failsIn (key : String) (first last : DateTime) (event : LoginEvent) : Bool :=
  event.1.clientKey = key ∧ first ≤ event.1.now ∧ event.1.now ≤ last ∧ event.Failed

/-- No login of the client went well in a span of time. -/
def Unsuccessful (key : String) (first last : DateTime) (history : List LoginEvent) : Prop :=
  ∀ event ∈ history, event.1.clientKey = key → first ≤ event.1.now → event.1.now ≤ last →
    event.Failed ∨ event.Limited

/-- What is recorded are instants of calls. -/
theorem MadeBy.recorded (key : String) : ∀ {history : List LoginEvent}, MadeBy history t →
    ∀ start ∈ recorded key history, start ≤ t
  | [], _, start, hstart => absurd hstart List.not_mem_nil
  | event :: history, h, start, hstart => by
    have hearlier := MadeBy.recorded key fun earlier hmem => h earlier (List.mem_cons_of_mem _ hmem)
    have hevent := h event List.mem_cons_self
    rw [Werrss.recorded] at hstart
    split_ifs at hstart with hkey hfailed hcurrent hlimited
    · exact hearlier start hstart
    · rcases List.mem_append.mp hstart with hold | hnew
      · exact hearlier start hold
      · rwa [List.mem_singleton.mp hnew]
    · rwa [List.mem_singleton.mp hstart]
    · exact hearlier start hstart
    · exact absurd hstart List.not_mem_nil

section Spans

variable {first last now start : DateTime} {closed n : ℕ}

theorem span_of_le (h : first ≤ now) :
    first + ((0 : ℕ) : ℤ) * rateLimitWindow < now + rateLimitWindow := by
  have hpos : (0 : ℤ) < rateLimitWindow := by decide
  rw [Int.natCast_zero, Int.zero_mul, Int.add_zero]
  exact Int.lt_of_le_of_lt h (Int.lt_add_of_pos_right _ hpos)

theorem span_of_open (h : first ≤ now) (hopen : now - start < rateLimitWindow) :
    first + ((0 : ℕ) : ℤ) * rateLimitWindow < start + rateLimitWindow := by
  rw [Int.natCast_zero, Int.zero_mul, Int.add_zero]
  exact Int.lt_of_le_of_lt h (Int.lt_add_of_sub_left_lt hopen)

theorem le_of_not_open (h : ¬now - start < rateLimitWindow) : start + rateLimitWindow ≤ now :=
  Int.add_le_of_le_sub_left (Int.not_lt.mp h)

/-- A window that opens after another is over. -/
theorem span_succ (h : first + closed * rateLimitWindow < start + rateLimitWindow)
    (hover : start + rateLimitWindow ≤ now) :
    first + ((closed + 1 : ℕ) : ℤ) * rateLimitWindow < now + rateLimitWindow := by
  rw [Int.natCast_succ, Int.add_mul, Int.one_mul, ← Int.add_assoc]
  exact Int.add_lt_add_right (Int.lt_of_lt_of_le h hover) _

/-- As many windows as a span has room for. -/
theorem closed_le (h : first + closed * rateLimitWindow < start + rateLimitWindow)
    (hstart : start ≤ last) (hspan : last - first ≤ n * rateLimitWindow) : closed ≤ n := by
  have hpos : (0 : ℤ) ≤ rateLimitWindow := by decide
  have hlast : last ≤ first + n * rateLimitWindow := Int.le_add_of_sub_left_le hspan
  have hlt : (closed : ℤ) * rateLimitWindow < (n + 1 : ℤ) * rateLimitWindow := by
    refine Int.lt_of_add_lt_add_left (a := first) (Int.lt_of_lt_of_le h ?_)
    rw [Int.add_mul, Int.one_mul, ← Int.add_assoc]
    exact Int.add_le_add_right (Int.le_trans hstart hlast) _
  have hcast := Int.lt_of_mul_lt_mul_right hlt hpos
  omega

end Spans

/-- **The failures of a span, by windows**: some windows that are over, of five failures each, and
the current one, which opened that many windows' lengths after the span began. -/
def Windowed (first last : DateTime) (count : ℕ) (failures : List DateTime) : Prop :=
  count = 0 ∨ ∃ (closed : ℕ) (start : DateTime), start ∈ failures.head? ∧
    count ≤ closed * rateLimitFailures.toNat + failures.length ∧
    first + closed * rateLimitWindow < start + rateLimitWindow ∧ start ≤ last

/-- One more failure in the window that is current. -/
theorem Windowed.join {first last now : DateTime} {count : ℕ} {failures : List DateTime}
    (h : Windowed first last count failures) (hfirst : first ≤ now)
    (hold : ∀ start ∈ failures, start ≤ last) (hcurrent : Current failures now) :
    Windowed first last (count + 1) (failures ++ [now]) := by
  obtain ⟨start, hstart, hopen⟩ := hcurrent
  have hhead : start ∈ (failures ++ [now]).head? := by
    rw [List.head?_append, Option.mem_def.mp hstart]
    rfl
  have hlength : (failures ++ [now]).length = failures.length + 1 := by
    rw [List.length_append, List.length_singleton]
  rcases h with rfl | ⟨closed, start', hstart', hcount, hlate, hlast⟩
  · refine .inr ⟨0, start, hhead, by omega, ?_, hold start (List.mem_of_mem_head? hstart)⟩
    exact span_of_open hfirst hopen
  · obtain rfl : start' = start := Option.mem_unique hstart' hstart
    exact .inr ⟨closed, start', hhead, by omega, hlate, hlast⟩

/-- One more failure that opens a window. -/
theorem Windowed.open {first last now : DateTime} {count : ℕ} {failures : List DateTime}
    (h : Windowed first last count failures) (hfirst : first ≤ now) (hnow : now ≤ last)
    (hshort : failures.length ≤ rateLimitFailures.toNat) (hover : ¬Current failures now) :
    Windowed first last (count + 1) [now] := by
  rcases h with rfl | ⟨closed, start, hstart, hcount, hlate, -⟩
  · exact .inr ⟨0, now, rfl, Nat.le_of_ble_eq_true rfl, span_of_le hfirst, hnow⟩
  · have hgone : start + rateLimitWindow ≤ now :=
      le_of_not_open fun hopen => hover ⟨start, hstart, hopen⟩
    refine .inr ⟨closed + 1, now, rfl, ?_, span_succ hlate hgone, hnow⟩
    rw [List.length_singleton, Nat.succ_mul]
    omega

/-- **The failures of a span of `n` windows' length.** -/
theorem Windowed.count_le {first last : DateTime} {count n : ℕ} {failures : List DateTime}
    (h : Windowed first last count failures) (hspan : last - first ≤ n * rateLimitWindow)
    (hshort : failures.length ≤ rateLimitFailures.toNat) :
    count ≤ (n + 1) * rateLimitFailures.toNat := by
  rcases h with rfl | ⟨closed, start, -, hcount, hlate, hlast⟩
  · exact Nat.zero_le _
  · have hclosed : closed ≤ n := closed_le hlate hlast hspan
    calc count ≤ closed * rateLimitFailures.toNat + failures.length := hcount
      _ ≤ n * rateLimitFailures.toNat + rateLimitFailures.toNat :=
        Nat.add_le_add (Nat.mul_le_mul_right _ hclosed) hshort
      _ = (n + 1) * rateLimitFailures.toNat := (Nat.succ_mul _ _).symm

/-- Nothing of a span that has not begun. -/
theorem countP_eq_zero_of_before {key : String} {first last : DateTime} {history : List LoginEvent}
    (h : MadeBy history t) (ht : t < first) :
    history.countP (LoginEvent.failsIn key first last) = 0 := by
  refine List.countP_eq_zero.mpr fun event hevent hfails => ?_
  have hfirst := (of_decide_eq_true hfails).2.1
  exact absurd (Int.le_trans hfirst (h event hevent)) (Int.not_le.mpr ht)

theorem failed_failsIn {call : LoginCall} {first last : DateTime} (hfirst : first ≤ call.now)
    (hlast : call.now ≤ last) : LoginEvent.failsIn call.clientKey first last
      (call, some (.error .invalidCredentials)) = true :=
  decide_eq_true ⟨rfl, hfirst, hlast, rfl⟩

theorem limited_not_failsIn (call : LoginCall) (key : String) (first last : DateTime) :
    ¬LoginEvent.failsIn key first last (call, some (.error .rateLimited)) = true := by
  intro h
  obtain ⟨-, -, -, hfailed⟩ := of_decide_eq_true h
  rw [LoginEvent.Failed, Option.some.injEq, Except.error.injEq] at hfailed
  exact AuthError.noConfusion hfailed

/-! ## One call -/

section Logins

variable [SessionCrate] {authenticator : AdminAuthenticator}

/-- A client whose window is full is refused. -/
theorem Remembers.login_full (h : Remembers limiter history) (hnow : MadeBy history call.now)
    (hfull : Full (recorded call.clientKey history) call.now) :
    authenticator.login limiter call
      = (limiter.expire call.now, some (.error .rateLimited)) := by
  have hallow : (limiter.allow call.clientKey call.now).2 = false :=
    Bool.eq_false_iff.mpr fun htrue => (h.allow_iff hnow _).mp htrue hfull
  rw [AdminAuthenticator.login]
  dsimp only
  rw [hallow]
  rfl

/-- A client that is let through fails with the wrong credentials. -/
theorem Remembers.login_wrong (h : Remembers limiter history) (hnow : MadeBy history call.now)
    (hfull : ¬Full (recorded call.clientKey history) call.now)
    (hwrong : authenticator.matchesCall call = false) :
    authenticator.login limiter call
      = ((limiter.expire call.now).failure call.clientKey call.now,
        some (.error .invalidCredentials)) := by
  have hallow := (h.allow_iff hnow call.clientKey).mpr hfull
  rw [AdminAuthenticator.login]
  dsimp only
  rw [hallow, hwrong]
  rfl

/-- A client that is let through logs in with the right ones. -/
theorem Remembers.login_right (h : Remembers limiter history) (hnow : MadeBy history call.now)
    (hfull : ¬Full (recorded call.clientKey history) call.now)
    (hright : authenticator.matchesCall call = true) :
    authenticator.login limiter call
      = ((limiter.expire call.now).success call.clientKey, authenticator.openSession call) := by
  have hallow := (h.allow_iff hnow call.clientKey).mpr hfull
  rw [AdminAuthenticator.login]
  dsimp only
  rw [hallow, hright]
  rfl

/-- **What a client is answered rests on the failures of its window.** -/
theorem Remembers.answer (h : Remembers limiter history) (hnow : MadeBy history call.now) :
    (authenticator.login limiter call).2
      = answerOf authenticator (recorded call.clientKey history) call := by
  rw [answerOf]
  split_ifs with hfull hwrong
  · rw [h.login_full hnow hfull]
  · rw [h.login_wrong hnow hfull (by simpa using hwrong)]
  · rw [h.login_right hnow hfull (by simpa using hwrong)]

/-- A session that is opened is no failure, and was not refused. -/
theorem openSession_ne (authenticator : AdminAuthenticator) (call : LoginCall)
    (error : AuthError) : authenticator.openSession call ≠ some (.error error) := by
  rw [AdminAuthenticator.openSession]
  intro h
  obtain ⟨expiresAt, -, h⟩ := Option.map_eq_some_iff.mp h
  exact nomatch h

/-- **A call only prunes the entries of other clients.** -/
theorem get_login_of_ne (authenticator : AdminAuthenticator) (limiter : LoginRateLimiter)
    {key : String} (h : key ≠ call.clientKey) :
    (authenticator.login limiter call).1.attempts.get key
      = (limiter.attempts.get key).filter (AttemptWindow.isOpen call.now) := by
  rw [AdminAuthenticator.login, LoginRateLimiter.allow]
  dsimp only
  split_ifs with hlimited hwrong
  · exact get_expire limiter call.now key
  · rw [LoginRateLimiter.failure, HashMap.get_insert, if_neg h, get_expire, get_expire,
      filter_isOpen (Int.le_refl _)]
  · rw [LoginRateLimiter.success, HashMap.get_remove, if_neg h, get_expire]

/-- **One call keeps what is remembered.** -/
theorem Remembers.step (h : Remembers limiter history) (hnow : MadeBy history call.now) :
    Remembers (authenticator.login limiter call).1
      ((call, (authenticator.login limiter call).2) :: history) := by
  -- the client of the call: three answers
  have hclient : ∀ t, call.now ≤ t →
      ((authenticator.login limiter call).1.attempts.get call.clientKey).filter
          (AttemptWindow.isOpen t)
        = (recordOf (recorded call.clientKey
            ((call, (authenticator.login limiter call).2) :: history))).filter
          (AttemptWindow.isOpen t) ∧
      (recorded call.clientKey
        ((call, (authenticator.login limiter call).2) :: history)).length
          ≤ rateLimitFailures.toNat := by
    intro t ht
    have hshort := h.short call.clientKey
    by_cases hfull : Full (recorded call.clientKey history) call.now
    · rw [h.login_full hnow hfull, recorded_cons_limited]
      exact ⟨h.expire hnow ht call.clientKey, hshort⟩
    · cases hmatch : authenticator.matchesCall call with
      | false =>
        rw [h.login_wrong hnow hfull hmatch, recorded_cons_failed, h.get_failure hnow]
        refine ⟨rfl, ?_⟩
        split_ifs with hcurrent
        · rw [List.length_append, List.length_singleton]
          exact Nat.lt_of_le_of_ne hshort fun hlength => hfull ⟨hcurrent, hlength⟩
        · exact Nat.le_of_ble_eq_true rfl
      | true =>
        rw [h.login_right hnow hfull hmatch, recorded_cons_login call (openSession_ne _ _),
          LoginRateLimiter.success, HashMap.get_remove, if_pos rfl]
        exact ⟨rfl, Nat.zero_le _⟩
  refine ⟨fun key t ht => ?_, fun key => ?_⟩
  · by_cases hkey : key = call.clientKey
    · rw [hkey]
      exact (hclient t (ht _ List.mem_cons_self)).1
    · rw [get_login_of_ne _ _ hkey, recorded_cons_of_ne (Ne.symm hkey),
        filter_isOpen (ht _ List.mem_cons_self)]
      exact h.entry key t fun event hevent => ht event (List.mem_cons_of_mem _ hevent)
  · by_cases hkey : key = call.clientKey
    · rw [hkey]
      exact (hclient call.now (Int.le_refl _)).2
    · rw [recorded_cons_of_ne (Ne.symm hkey)]
      exact h.short key

/-! ## Runs -/

/-- The limiter under the calls of `login`. -/
def loginMachine (authenticator : AdminAuthenticator) :
    Machine LoginRateLimiter LoginCall LoginAnswer :=
  ⟨authenticator.login⟩

/-- The history of a list of calls, newest answer first, from an empty limiter. -/
def loginHistory (authenticator : AdminAuthenticator) (calls : List LoginCall) : List LoginEvent :=
  ((loginMachine authenticator).exec .default calls).2

variable (authenticator) in
theorem madeBy_history {calls : List LoginCall} (h : ∀ earlier ∈ calls, earlier.now ≤ t) :
    MadeBy (loginHistory authenticator calls) t := by
  intro event hevent
  have hcall := List.mem_map_of_mem (f := Prod.fst) hevent
  rw [loginHistory, Machine.map_fst_exec, List.mem_reverse] at hcall
  exact h _ hcall

variable (authenticator) in
/-- **The limiter remembers every run.** -/
theorem remembers_run {calls : List LoginCall} (h : Chronological calls) :
    Remembers ((loginMachine authenticator).exec .default calls).1
      (loginHistory authenticator calls) := by
  induction calls using List.reverseRecOn with
  | nil => exact remembers_default
  | append_singleton calls call ih =>
    obtain ⟨hcalls, hlast⟩ := h.concat
    rw [loginHistory, Machine.exec_concat]
    exact (ih hcalls).step (madeBy_history _ hlast)

/-- **A run's next answer rests on the failures recorded so far.** -/
theorem loginHistory_concat {calls : List LoginCall} (h : Chronological (calls ++ [call])) :
    loginHistory authenticator (calls ++ [call])
      = (call, answerOf authenticator
          (recorded call.clientKey (loginHistory authenticator calls)) call)
        :: loginHistory authenticator calls := by
  obtain ⟨hcalls, hlast⟩ := h.concat
  rw [← (remembers_run _ hcalls).answer (madeBy_history _ hlast), loginHistory, Machine.exec_concat]
  rfl

/-- **A client is refused exactly when its window is full.** -/
theorem answerOf_limited_iff {failures : List DateTime} :
    answerOf authenticator failures call = some (.error .rateLimited)
      ↔ Full failures call.now := by
  rw [answerOf]
  split_ifs with hfull hwrong
  · exact iff_of_true rfl hfull
  · refine iff_of_false ?_ hfull
    rw [Option.some.injEq, Except.error.injEq]
    exact AuthError.noConfusion
  · exact iff_of_false (openSession_ne _ _ _) hfull

/-! ## Other clients -/

/-- **What a client is answered is what it is answered alone.** -/
theorem loginHistory_filter (key : String) {calls : List LoginCall} (h : Chronological calls) :
    (loginHistory authenticator calls).filter (LoginEvent.isOf key)
      = loginHistory authenticator (calls.filter (LoginCall.isOf key)) := by
  induction calls using List.reverseRecOn with
  | nil => rfl
  | append_singleton calls call ih =>
    have hcalls := ih h.concat.1
    rw [loginHistory_concat h, List.filter_append]
    by_cases hkey : call.clientKey = key
    · have hfilter : [call].filter (LoginCall.isOf key) = [call] :=
        List.filter_cons_of_pos (by simpa [LoginCall.isOf] using hkey)
      have hchronological : Chronological (calls.filter (LoginCall.isOf key) ++ [call]) := by
        have hsub := h.sublist (List.filter_sublist (p := LoginCall.isOf key))
        rwa [List.filter_append, hfilter] at hsub
      rw [List.filter_cons_of_pos (by simpa [LoginEvent.isOf] using hkey), hcalls, hfilter,
        loginHistory_concat hchronological, ← hcalls, hkey, recorded_filter]
    · have hfilter : [call].filter (LoginCall.isOf key) = [] :=
        List.filter_cons_of_neg (by simpa [LoginCall.isOf] using hkey)
      rw [List.filter_cons_of_neg (by simpa [LoginEvent.isOf] using hkey), hcalls, hfilter,
        List.append_nil]

/-! ## How many logins may go wrong -/

/-- **Runs up to the span's end**: the client's failures are windowed. -/
theorem windowed_run {key : String} {first last : DateTime} {calls : List LoginCall}
    (h : Chronological calls) (hlast : ∀ call ∈ calls, call.now ≤ last)
    (hfails : Unsuccessful key first last (loginHistory authenticator calls)) :
    Windowed first last
      ((loginHistory authenticator calls).countP (LoginEvent.failsIn key first last))
      (recorded key (loginHistory authenticator calls)) := by
  induction calls using List.reverseRecOn with
  | nil => exact .inl rfl
  | append_singleton calls call ih =>
    have hnow : call.now ≤ last := hlast call (List.mem_append_right _ (List.mem_singleton_self _))
    have hbefore : ∀ earlier ∈ calls, earlier.now ≤ last := fun earlier hmem =>
      hlast earlier (List.mem_append_left _ hmem)
    obtain ⟨hcalls, hcall⟩ := h.concat
    have hshort := (remembers_run authenticator hcalls).short key
    have hrecorded := (madeBy_history authenticator hbefore).recorded key
    rw [loginHistory_concat h] at hfails ⊢
    have hih := ih hcalls hbefore fun event hevent => hfails event (List.mem_cons_of_mem _ hevent)
    have hmade := madeBy_history authenticator hcall
    generalize answerOf authenticator _ call = answer at hfails ⊢
    generalize loginHistory authenticator calls = history at *
    by_cases hkey : call.clientKey = key
    · subst hkey
      by_cases hfirst : first ≤ call.now
      · rcases hfails _ List.mem_cons_self rfl hfirst hnow with hfailed | hlimited
        · obtain rfl : answer = some (.error .invalidCredentials) := hfailed
          rw [List.countP_cons_of_pos (failed_failsIn hfirst hnow), recorded_cons_failed]
          split_ifs with hcurrent
          · exact hih.join hfirst hrecorded hcurrent
          · exact hih.open hfirst hnow hshort hcurrent
        · obtain rfl : answer = some (.error .rateLimited) := hlimited
          rw [List.countP_cons_of_neg (limited_not_failsIn call _ _ _), recorded_cons_limited]
          exact hih
      · refine .inl (countP_eq_zero_of_before ?_ (Int.not_le.mp hfirst))
        exact List.forall_mem_cons.mpr ⟨Int.le_refl _, hmade⟩
    · rw [List.countP_cons_of_neg fun hfails => hkey (of_decide_eq_true hfails).1,
        recorded_cons_of_ne hkey]
      exact hih

/-- **Guessing is bounded**, in any run from the start. -/
theorem countP_failsIn_le {key : String} {first last : DateTime} {n : ℕ} {calls : List LoginCall}
    (h : Chronological calls) (hspan : last - first ≤ n * rateLimitWindow)
    (hfails : Unsuccessful key first last (loginHistory authenticator calls)) :
    (loginHistory authenticator calls).countP (LoginEvent.failsIn key first last)
      ≤ (n + 1) * rateLimitFailures.toNat := by
  induction calls using List.reverseRecOn with
  | nil => exact Nat.zero_le _
  | append_singleton calls call ih =>
    obtain ⟨hcalls, hcall⟩ := h.concat
    by_cases hnow : call.now ≤ last
    · have hlast : ∀ earlier ∈ calls ++ [call], earlier.now ≤ last := by
        intro earlier hmem
        rcases List.mem_append.mp hmem with hold | hnew
        · exact Int.le_trans (hcall earlier hold) hnow
        · rwa [List.mem_singleton.mp hnew]
      exact (windowed_run h hlast hfails).count_le hspan ((remembers_run _ h).short key)
    · -- a call after the span
      rw [loginHistory_concat h] at hfails ⊢
      rw [List.countP_cons_of_neg fun hin => hnow (of_decide_eq_true hin).2.2.1]
      exact ih hcalls fun event hevent => hfails event (List.mem_cons_of_mem _ hevent)

/-! ## Throttling -/

/-- **Login throttling bounds guessing**, over every run of calls at instants that do not decrease:
the failures in a span of `n` windows' length without a login; when a client is refused; what other
clients change; and the comparison. -/
theorem login_throttling (authenticator : AdminAuthenticator) (calls : List LoginCall)
    (h : Chronological calls) :
    (∀ (key : String) (first last : DateTime) (n : ℕ), last - first ≤ n * rateLimitWindow →
      Unsuccessful key first last (loginHistory authenticator calls) →
      (loginHistory authenticator calls).countP (LoginEvent.failsIn key first last)
        ≤ (n + 1) * rateLimitFailures.toNat) ∧
    (∀ (earlier later : List LoginCall) (call : LoginCall), calls = earlier ++ call :: later →
      ((authenticator.login ((loginMachine authenticator).exec .default earlier).1 call).2
          = some (.error .rateLimited) ↔
        Current (recorded call.clientKey (loginHistory authenticator earlier)) call.now ∧
          (recorded call.clientKey (loginHistory authenticator earlier)).length
            = rateLimitFailures.toNat)) ∧
    (∀ key : String, (loginHistory authenticator calls).filter (LoginEvent.isOf key)
      = loginHistory authenticator (calls.filter (LoginCall.isOf key))) ∧
    ∀ left right : List UInt8, constantTimeEq left right = true ↔ left = right := by
  refine ⟨fun key first last n => countP_failsIn_le h, fun earlier later call hcalls => ?_,
    fun key => loginHistory_filter key h, fun left right => constantTimeEq_iff⟩
  rw [hcalls, List.append_cons] at h
  obtain ⟨hearlier, hcall⟩ := Chronological.concat (List.pairwise_append.mp h).1
  rw [(remembers_run _ hearlier).answer (madeBy_history _ hcall)]
  exact answerOf_limited_iff

end Logins

section Samples

/-- A codec that writes the name, and signs with the key. -/
abbrev plainSession : SessionCrate where
  toVec claims := asBytes claims.username
  sign key message := key ++ message

attribute [local instance] plainSession

/-- An administrator. -/
def sampleAdministrator : AdminAuthenticator where
  username := "admin"
  password := "correct horse"
  signingKey := [7]
  username_ne := by decide +kernel
  password_ne := by decide
  signingKey_ne := by decide

/-- Six wrong passwords of one client, one a second, and a right one of another. -/
def sampleCalls : List LoginCall :=
  [⟨"admin", "a", "one", 0, []⟩, ⟨"admin", "b", "one", 1000000000, []⟩,
    ⟨"admin", "correct horse", "two", 1000000000, []⟩, ⟨"admin", "c", "one", 2000000000, []⟩,
    ⟨"admin", "d", "one", 3000000000, []⟩, ⟨"admin", "e", "one", 4000000000, []⟩,
    ⟨"admin", "correct horse", "one", 5000000000, []⟩]

/-- The other client logs in, the sixth guess is refused, and five were counted. -/
theorem login_throttling_sampleCalls :
    (loginHistory sampleAdministrator sampleCalls).countP
        (LoginEvent.failsIn "one" 0 5000000000) = 5 ∧
      (loginHistory sampleAdministrator sampleCalls).countP
        (LoginEvent.failsIn "one" 0 5000000000) ≤ (1 + 1) * rateLimitFailures.toNat := by
  have hchronological : Chronological sampleCalls := by
    rw [Chronological]
    decide +kernel
  have hfails : Unsuccessful "one" 0 5000000000 (loginHistory sampleAdministrator sampleCalls) := by
    rw [Unsuccessful]
    decide +kernel
  exact ⟨by decide +kernel,
    (login_throttling sampleAdministrator sampleCalls hchronological).1 "one" 0 5000000000 1
      (by decide) hfails⟩

end Samples

end Werrss
