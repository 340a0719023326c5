import Werrss.Machinery.Run
import Werrss.Persistence.FeedTokenRepository

/-!
# Application/FeedTokenService — issue, rotate, revoke, resolve

    issue s ─▸ token      revoke s      delete s          resolve r ─▸ source?

A history of operations says which token is current for a source: the one its last successful issue
returned, if nothing touched the source since.  **A string resolves to a source exactly when it is
the text of the current token.**
-/

open Machinery

namespace Werrss

/-- Errors of the service. -/
inductive FeedTokenServiceError
  | invalidToken
  | repository (error : FeedTokenRepositoryError)
deriving DecidableEq

section Tokens

variable [Sha256Crate]

namespace FeedTokenTables

/-- `issue`, with the 32 bytes `generate` draws. -/
def issue (tables : FeedTokenTables) (now : DateTime) (draw : Vector UInt8 32) (sourceId : Uuid) :
    FeedTokenTables × Except FeedTokenServiceError FeedToken :=
  let token := FeedToken.generate draw
  match tables.replace now sourceId token.hash with
  | .error e => (tables, .error (.repository e))
  | .ok tables' => (tables', .ok token)

/-- `resolve`. -/
def resolve (tables : FeedTokenTables) (rawToken : String) :
    Except FeedTokenServiceError (Option Uuid) :=
  match FeedToken.parse rawToken with
  | .error _ => .error .invalidToken
  | .ok token => .ok (tables.findSource token.hash)

end FeedTokenTables

/-- One atomic operation. -/
inductive FeedTokenOp
  | issue (sourceId : Uuid) (draw : Vector UInt8 32) (now : DateTime)
  | revoke (sourceId : Uuid) (now : DateTime)
  | deleteSource (sourceId : Uuid)

/-- What an operation answered. -/
inductive FeedTokenAnswer
  | issued (result : Except FeedTokenServiceError FeedToken)
  | revoked (result : Except FeedTokenServiceError Bool)
  | deleted

/-- The bytes an operation draws. -/
def FeedTokenOp.drawn : FeedTokenOp → Option (Vector UInt8 32)
  | .issue _ draw _ => some draw
  | _ => none

/-- **The tokens of all sources as a machine.** -/
def feedTokenMachine : Machine FeedTokenTables FeedTokenOp FeedTokenAnswer where
  step tables
    | .issue sourceId draw now =>
      let (tables, result) := tables.issue now draw sourceId
      (tables, .issued result)
    | .revoke sourceId now =>
      match tables.revoke now sourceId with
      | .error e => (tables, .revoked (.error (.repository e)))
      | .ok (tables, changed) => (tables, .revoked (.ok changed))
    | .deleteSource sourceId => (tables.deleteSource sourceId, .deleted)

/-! ## The current token of a source -/

/-- An answered operation. -/
abbrev FeedTokenEvent := FeedTokenOp × FeedTokenAnswer

/-- The event ends what was current for the source: a successful issue, a revocation, its deletion. -/
def touches (sourceId : Uuid) : FeedTokenEvent → Bool
  | (.issue other _ _, .issued (.ok _)) => other == sourceId
  | (.revoke other _, .revoked (.ok _)) => other == sourceId
  | (.deleteSource other, _) => other == sourceId
  | _ => false

/-- **The text is the current one of the source**: its most recent successful issue returned it, and
no revocation or deletion of the source came after.  Histories are newest first. -/
def IsCurrent (history : List FeedTokenEvent) (sourceId : Uuid) (text : String) : Prop :=
  ∃ later earlier draw now token,
    history = later ++ (.issue sourceId draw now, .issued (.ok token)) :: earlier ∧
      token.text = text ∧ ∀ event ∈ later, touches sourceId event = false

/-- The token an event leaves current. -/
def granted : FeedTokenEvent → Option FeedToken
  | (.issue _ _ _, .issued (.ok token)) => some token
  | _ => none

/-- The current token, computed from the newest event that touches the source. -/
def currentToken (history : List FeedTokenEvent) (sourceId : Uuid) : Option FeedToken :=
  (history.find? (touches sourceId)).bind granted

omit [Sha256Crate] in
theorem isCurrent_iff {history : List FeedTokenEvent} {sourceId : Uuid} {text : String} :
    IsCurrent history sourceId text ↔
      ∃ token, currentToken history sourceId = some token ∧ token.text = text := by
  constructor
  · rintro ⟨later, earlier, draw, now, token, rfl, htext, hlater⟩
    refine ⟨token, ?_, htext⟩
    have hfind : (later ++ (.issue sourceId draw now, .issued (.ok token)) :: earlier).find?
        (touches sourceId) = some (.issue sourceId draw now, .issued (.ok token)) := by
      rw [List.find?_append, List.find?_eq_none.mpr fun event hevent => by simp [hlater event hevent],
        Option.none_or, List.find?_cons_of_pos (by simp [touches])]
    rw [currentToken, hfind]
    rfl
  · rintro ⟨token, hcurrent, htext⟩
    obtain ⟨event, hfind, hgranted⟩ := Option.bind_eq_some_iff.mp hcurrent
    obtain ⟨htouches, later, earlier, rfl, hlater⟩ := List.find?_eq_some_iff_append.mp hfind
    obtain ⟨draw, now, rfl⟩ : ∃ draw now,
        event = (.issue sourceId draw now, .issued (.ok token)) := by
      match event, hgranted with
      | (.issue other draw now, .issued (.ok _)), hgranted =>
        obtain rfl := Option.some.inj hgranted
        obtain rfl : other = sourceId := by simpa [touches] using htouches
        exact ⟨draw, now, rfl⟩
    exact ⟨later, earlier, draw, now, token, rfl, htext, fun event hevent => by
      simpa using hlater event hevent⟩

omit [Sha256Crate] in
theorem currentToken_cons (event : FeedTokenEvent) (history : List FeedTokenEvent) (sourceId : Uuid) :
    currentToken (event :: history) sourceId
      = if touches sourceId event then granted event else currentToken history sourceId := by
  rw [currentToken, List.find?_cons]
  cases touches sourceId event with
  | true => rfl
  | false => rfl

/-! ## Steps -/

/-- **The live digests are those of the current tokens.** -/
def Agrees (tables : FeedTokenTables) (history : List FeedTokenEvent) : Prop :=
  ∀ sourceId, tables.liveHash sourceId = (currentToken history sourceId).map FeedToken.hash

/-- An event that does not touch a source leaves it alone. -/
theorem Agrees.of_touch {tables tables' : FeedTokenTables} {history : List FeedTokenEvent}
    (h : Agrees tables history) {event : FeedTokenEvent} {sourceId : Uuid}
    {t : Option FeedToken} (htouch : ∀ other, touches other event = (sourceId == other))
    (hleft : granted event = t)
    (hlive : ∀ other, tables'.liveHash other
      = if other = sourceId then t.map FeedToken.hash else tables.liveHash other) :
    Agrees tables' (event :: history) := by
  intro other
  rw [currentToken_cons, htouch, hlive]
  by_cases hother : other = sourceId
  · rw [if_pos hother, if_pos (by simp [hother]), hleft]
  · rw [if_neg hother, if_neg (by simpa using fun heq => hother heq.symm), h other]

/-- An event that touches no source leaves the tables alone. -/
theorem Agrees.of_quiet {tables : FeedTokenTables} {history : List FeedTokenEvent}
    (h : Agrees tables history) {event : FeedTokenEvent}
    (hquiet : ∀ other, touches other event = false) : Agrees tables (event :: history) := by
  intro other
  rw [currentToken_cons, hquiet, h other]
  rfl

/-- **One operation keeps them so.** -/
theorem Agrees.step {tables : FeedTokenTables} {history : List FeedTokenEvent}
    (h : Agrees tables history) (op : FeedTokenOp) :
    Agrees (feedTokenMachine.step tables op).1
      ((op, (feedTokenMachine.step tables op).2) :: history) := by
  cases op with
  | issue sourceId draw now =>
    simp only [feedTokenMachine, FeedTokenTables.issue]
    cases hreplace : tables.replace now sourceId (FeedToken.generate draw).hash with
    | error e => exact h.of_quiet fun _ => rfl
    | ok tables' => exact h.of_touch (fun _ => rfl) rfl (FeedTokenTables.liveHash_replace hreplace)
  | revoke sourceId now =>
    simp only [feedTokenMachine]
    cases hrevoke : tables.revoke now sourceId with
    | error e => exact h.of_quiet fun _ => rfl
    | ok result =>
      exact h.of_touch (t := none) (fun _ => rfl) rfl (FeedTokenTables.liveHash_revoke hrevoke)
  | deleteSource sourceId =>
    exact h.of_touch (t := none) (fun _ => rfl) rfl
      (FeedTokenTables.liveHash_deleteSource sourceId)

/-- **After every run the live digests are those of the current tokens.** -/
theorem agrees_exec (sources : List Uuid) (operations : List FeedTokenOp) :
    Agrees (feedTokenMachine.exec (.start sources) operations).1
      (feedTokenMachine.exec (.start sources) operations).2 :=
  feedTokenMachine.exec_invariant (P := Agrees) (fun _ => rfl) (fun _ _ op h => h.step op) operations

/-! ## What the history tells -/

/-- A text resolves to the source whose live digest is its own. -/
theorem resolve_eq_some {tables : FeedTokenTables} {rawToken : String} {sourceId : Uuid} :
    tables.resolve rawToken = .ok (some sourceId) ↔
      ∃ token : FeedToken, token.text = rawToken ∧ tables.liveHash sourceId = some token.hash := by
  rw [FeedTokenTables.resolve]
  constructor
  · intro h
    split at h
    · cases h
    · rename_i token hparse
      exact ⟨token, FeedToken.text_of_parse hparse,
        FeedTokenTables.findSource_eq_some.mp (Except.ok.inj h)⟩
  · rintro ⟨token, rfl, hlive⟩
    rw [token.parse_text]
    exact congrArg _ (FeedTokenTables.findSource_eq_some.mpr hlive)

section Runs

variable (sources : List Uuid)

/-- The tables and the history after a run. -/
def afterTokens (operations : List FeedTokenOp) : FeedTokenTables × List FeedTokenEvent :=
  feedTokenMachine.exec (.start sources) operations

variable {sources}

/-- **A text resolves exactly when it is current.** -/
theorem resolve_iff_isCurrent (hdigest : Function.Injective FeedToken.hash)
    (operations : List FeedTokenOp) (rawToken : String) (sourceId : Uuid) :
    (afterTokens sources operations).1.resolve rawToken = .ok (some sourceId) ↔
      IsCurrent (afterTokens sources operations).2 sourceId rawToken := by
  have hagrees := agrees_exec sources operations sourceId
  rw [resolve_eq_some, isCurrent_iff]
  refine exists_congr fun token => ?_
  rw [and_comm, afterTokens, hagrees]
  refine and_congr_left fun _ => ?_
  constructor
  · intro h
    obtain ⟨current, hcurrent, hhash⟩ := Option.map_eq_some_iff.mp h
    rw [hcurrent, hdigest hhash]
  · intro h
    rw [h]
    rfl

/-- An issued token is made of the bytes that were drawn for it. -/
theorem issued_eq (operations : List FeedTokenOp) :
    ∀ sourceId draw now token,
      (.issue sourceId draw now, .issued (.ok token)) ∈ (afterTokens sources operations).2 →
        token = FeedToken.generate draw := by
  refine feedTokenMachine.exec_invariant
    (P := fun _ history => ∀ sourceId draw now token,
      (.issue sourceId draw now, .issued (.ok token)) ∈ history → token = FeedToken.generate draw)
    (fun _ _ _ _ hmem => absurd hmem List.not_mem_nil) ?_ operations
  intro tables history op h sourceId draw now token hmem
  rcases List.mem_cons.mp hmem with heq | hmem
  · obtain ⟨rfl, hanswer⟩ := Prod.mk.inj heq
    simp only [feedTokenMachine, FeedTokenTables.issue] at hanswer
    split at hanswer
    · cases hanswer
    · exact Except.ok.inj (FeedTokenAnswer.issued.inj hanswer)
  · exact h sourceId draw now token hmem

omit [Sha256Crate] in
/-- Two elements that give the same value are one, if no value is given twice. -/
theorem eq_of_nodup_filterMap {A B : Type} {f : A → Option B} : ∀ {l : List A},
    (l.filterMap f).Nodup → ∀ {a b : A} {x : B}, a ∈ l → b ∈ l → f a = some x → f b = some x → a = b
  | c :: l, hnodup, a, b, x, ha, hb, hfa, hfb => by
    have hfresh : ∀ d ∈ l, f c = some x → f d ≠ some x := by
      intro d hd hc hfd
      rw [List.filterMap_cons_some hc, List.nodup_cons] at hnodup
      exact hnodup.1 (List.mem_filterMap.mpr ⟨d, hd, hfd⟩)
    have htail : (l.filterMap f).Nodup := by
      refine hnodup.sublist ?_
      exact (List.sublist_cons_self c l).filterMap f
    rcases List.mem_cons.mp ha with rfl | ha'
    · rcases List.mem_cons.mp hb with rfl | hb'
      · rfl
      · exact absurd hfb (hfresh b hb' hfa)
    · rcases List.mem_cons.mp hb with rfl | hb'
      · exact absurd hfa (hfresh a ha' hfb)
      · exact eq_of_nodup_filterMap htail ha' hb' hfa hfb

/-- The operation of an event is one of the run. -/
theorem op_mem {operations : List FeedTokenOp} {op : FeedTokenOp} {answer : FeedTokenAnswer}
    (h : (op, answer) ∈ (afterTokens sources operations).2) : op ∈ operations := by
  have hmem := List.mem_map_of_mem (f := Prod.fst) h
  rw [afterTokens, Machine.map_fst_exec] at hmem
  exact List.mem_reverse.mp hmem

/-- A current text was generated by an issue of the run. -/
theorem exists_issue_of_isCurrent {operations : List FeedTokenOp} {sourceId : Uuid} {text : String}
    (h : IsCurrent (afterTokens sources operations).2 sourceId text) :
    ∃ draw now, .issue sourceId draw now ∈ operations ∧ text = (FeedToken.generate draw).text := by
  obtain ⟨newer, older, draw, now, token, hsplit, htext, -⟩ := h
  have hmem : (.issue sourceId draw now, .issued (.ok token))
      ∈ (afterTokens sources operations).2 := by
    rw [hsplit]
    exact List.mem_append_right _ List.mem_cons_self
  refine ⟨draw, now, op_mem hmem, ?_⟩
  rw [← htext, issued_eq operations sourceId draw now token hmem]

/-- **A text that once was issued and is dead stays dead.** -/
theorem not_isCurrent_of_dead {before later : List FeedTokenOp}
    (hfresh : ((before ++ later).filterMap FeedTokenOp.drawn).Nodup) {other : Uuid}
    {draw : Vector UInt8 32} {now : DateTime} {token : FeedToken}
    (hissued : (.issue other draw now, .issued (.ok token)) ∈ (afterTokens sources before).2)
    {sourceId : Uuid} (hdead : ¬ IsCurrent (afterTokens sources before).2 sourceId token.text) :
    ¬ IsCurrent (afterTokens sources (before ++ later)).2 sourceId token.text := by
  rintro ⟨newer, older, draw', now', token', hsplit, htext, hquiet⟩
  obtain ⟨history, hhistory⟩ := feedTokenMachine.exec_append_history (.start sources) before later
  change (afterTokens sources (before ++ later)).2 = history ++ (afterTokens sources before).2
    at hhistory
  -- The drawn bytes are the same, so the later issue would have to be the earlier one.
  have hmem' : (.issue sourceId draw' now', .issued (.ok token'))
      ∈ (afterTokens sources (before ++ later)).2 := by
    rw [hsplit]
    exact List.mem_append_right _ List.mem_cons_self
  have hdraw : draw' = draw := by
    refine FeedToken.generate_injective (FeedToken.ext_text ?_)
    rw [← issued_eq _ _ _ _ _ hmem', ← issued_eq _ _ _ _ _ hissued, htext]
  subst hdraw
  rw [hhistory] at hsplit
  rcases List.append_eq_append_iff.mp hsplit with ⟨middle, hnewer, hbefore⟩ | ⟨middle, hold, hrest⟩
  · exact hdead ⟨middle, older, draw', now', token', hbefore, htext, fun event hevent =>
      hquiet event (hnewer ▸ List.mem_append_right _ hevent)⟩
  · cases middle with
    | nil =>
      exact hdead ⟨[], older, draw', now', token', hrest.symm, htext,
        fun _ hevent => absurd hevent List.not_mem_nil⟩
    | cons event middle =>
      obtain ⟨rfl, -⟩ := List.cons.inj hrest
      have hlater : FeedTokenOp.issue sourceId draw' now' ∈ later := by
        have hops := congrArg (List.map Prod.fst) hhistory
        rw [List.map_append, afterTokens, afterTokens, Machine.map_fst_exec, Machine.map_fst_exec,
          List.reverse_append] at hops
        rw [← List.mem_reverse, List.append_cancel_right hops, hold]
        exact List.mem_map.mpr ⟨_, List.mem_append_right _ List.mem_cons_self, rfl⟩
      rw [List.filterMap_append, List.nodup_append] at hfresh
      exact hfresh.2.2 draw' (List.mem_filterMap.mpr ⟨_, op_mem hissued, rfl⟩) draw'
        (List.mem_filterMap.mpr ⟨_, hlater, rfl⟩) rfl

/-- **The lifecycle of feed tokens.**  For every run of operations that never draw the same bytes
twice: a string resolves to a source exactly when it is the text its last successful issue returned
and nothing revoked or deleted the source since; at most one string resolves to a source; no string
ever resolves to two sources; a token that was rotated or revoked never resolves again; and of all
spellings of the same bytes, however they are read, only the canonical one resolves. -/
theorem feed_token_lifecycle (hdigest : Function.Injective FeedToken.hash)
    (operations : List FeedTokenOp) (hfresh : (operations.filterMap FeedTokenOp.drawn).Nodup) :
    (∀ r s, (afterTokens sources operations).1.resolve r = .ok (some s) ↔
      IsCurrent (afterTokens sources operations).2 s r) ∧
    (∀ r r' s, (afterTokens sources operations).1.resolve r = .ok (some s) →
      (afterTokens sources operations).1.resolve r' = .ok (some s) → r = r') ∧
    (∀ before, before <+: operations → ∀ r s s',
      (afterTokens sources before).1.resolve r = .ok (some s) →
      (afterTokens sources operations).1.resolve r = .ok (some s') → s = s') ∧
    (∀ before, before <+: operations → ∀ s' draw now token,
      (.issue s' draw now, .issued (.ok token)) ∈ (afterTokens sources before).2 →
      (∀ s, (afterTokens sources before).1.resolve token.text ≠ .ok (some s)) →
      ∀ s, (afterTokens sources operations).1.resolve token.text ≠ .ok (some s)) ∧
    (∀ read : String → Option (Vector UInt8 32),
      (∀ draw, read (FeedToken.generate draw).text = some draw) → ∀ r draw s, read r = some draw →
      (afterTokens sources operations).1.resolve r = .ok (some s) →
      r = (FeedToken.generate draw).text) := by
  have hiff : ∀ ops r s, (afterTokens sources ops).1.resolve r = .ok (some s) ↔
      IsCurrent (afterTokens sources ops).2 s r := resolve_iff_isCurrent hdigest
  refine ⟨hiff operations, fun r r' s h h' => ?_, ?_, ?_, fun read hread r draw s hspelled h => ?_⟩
  · obtain ⟨token, hcurrent, htext⟩ := isCurrent_iff.mp ((hiff operations r s).mp h)
    obtain ⟨token', hcurrent', htext'⟩ := isCurrent_iff.mp ((hiff operations r' s).mp h')
    rw [← htext, ← htext', Option.some.inj (hcurrent.symm.trans hcurrent')]
  · rintro before ⟨later, rfl⟩ r s s' h h'
    obtain ⟨draw, now, hop, htext⟩ := exists_issue_of_isCurrent ((hiff before r s).mp h)
    obtain ⟨draw', now', hop', htext'⟩ := exists_issue_of_isCurrent ((hiff _ r s').mp h')
    obtain rfl : draw = draw' :=
      FeedToken.generate_injective (FeedToken.ext_text (htext.symm.trans htext'))
    have hsame := eq_of_nodup_filterMap hfresh (List.mem_append_left later hop) hop' rfl rfl
    exact (FeedTokenOp.issue.inj hsame).1
  · rintro before ⟨later, rfl⟩ s' draw now token hissued hdead s halive
    refine not_isCurrent_of_dead hfresh hissued (fun hcurrent => ?_) ((hiff _ _ _).mp halive)
    exact hdead s ((hiff before _ _).mpr hcurrent)
  · obtain ⟨draw', now, -, htext⟩ := exists_issue_of_isCurrent ((hiff operations r s).mp h)
    rw [htext, hread] at hspelled
    rw [htext, Option.some.inj hspelled]

end Runs

end Tokens

/-! ## A rotation -/

section Samples

/-- A digest that tells the texts of tokens apart: it decodes them. -/
@[reducible] def decodingDigest : Sha256Crate where
  digest body := Vector.ofFn fun i : Fin 32 =>
    ((Base64.urlSafe.decode (String.ofList (body.map fun b => Char.ofNat b.toNat))).getD []).getD i 0

attribute [local instance] decodingDigest

/-- The bytes of a token's text spell it again. -/
theorem chars_of_text (token : FeedToken) :
    (token.text.toList.flatMap String.utf8EncodeChar).map (fun b => Char.ofNat b.toNat)
      = token.text.toList := by
  obtain ⟨text, bytes, -, rfl⟩ := token
  have hascii : ∀ c ∈ Base64.urlSafe.chars,
      (String.utf8EncodeChar c).map (fun b => Char.ofNat b.toNat) = [c] :=
    forall_mem_of_all (P := fun c =>
      (String.utf8EncodeChar c).map (fun b => Char.ofNat b.toNat) = [c]) (by decide +kernel)
  rw [List.map_flatMap]
  refine (List.flatMap_congr fun c hc => hascii c (Base64.urlSafe.mem_encode hc)).trans ?_
  exact List.flatMap_pure_eq_map id _ |>.trans (List.map_id _)

/-- The digest of a token is the bytes it encodes. -/
theorem hash_toList (token : FeedToken) :
    Base64.urlSafe.encode token.hash.toList = token.text := by
  have hchars := chars_of_text token
  obtain ⟨text, bytes, hlength, rfl⟩ := token
  have hhash : (FeedToken.hash ⟨Base64.urlSafe.encode bytes, bytes, hlength, rfl⟩)
      = Vector.ofFn fun i : Fin 32 => bytes.getD i 0 := by
    simp only [FeedToken.hash, Sha256Crate.digest]
    rw [hchars, String.ofList_toList, Base64.urlSafe.decode_encode, Option.getD_some]
  have hlist : (Vector.ofFn fun i : Fin 32 => bytes.getD i 0).toList = bytes := by
    refine List.ext_getElem (by rw [Vector.length_toList, hlength]) fun i hi hi' => ?_
    rw [Vector.getElem_toList, Vector.getElem_ofFn, List.getD_eq_getElem _ _ hi']
  rw [hhash, hlist]

theorem decodingDigest_injective : Function.Injective FeedToken.hash := fun a b h =>
  FeedToken.ext_text (by rw [← hash_toList a, ← hash_toList b, h])

/-- The bytes `b`, 32 times. -/
def repeated (b : UInt8) : Vector UInt8 32 := Vector.replicate 32 b

/-- After a rotation the new token is the current one. -/
theorem feed_token_lifecycle_rotated :
    IsCurrent (afterTokens [⟨7⟩] [.issue ⟨7⟩ (repeated 1) 10, .issue ⟨7⟩ (repeated 2) 20]).2 ⟨7⟩
      (FeedToken.generate (repeated 2)).text :=
  ((feed_token_lifecycle decodingDigest_injective _ (by decide)).1 _ _).mp (by decide +kernel)

end Samples

end Werrss
