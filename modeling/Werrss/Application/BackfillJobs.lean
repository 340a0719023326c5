import Werrss.Acquisition.WeRead
import Werrss.Application.JobHandlers
import Werrss.Persistence.JobEnqueue
import Werrss.Persistence.MemoryJobRepository
import Werrss.Persistence.RefreshLineage

/-!
# Application/BackfillJobs — what a backfill job carries, and the keys of all jobs

    reference ──from_reference──▸ payload ──serde──▸ JSON ──▸ row ──claim──▸ lease
        ▴                                                                      │
        └───────────────── review id trimmed ── validate_lease ◂───────────────┘

A lease is checked against the key that its payload makes again.  A key starts with the name of its
kind and an identifier of fixed length, so **keys are equal only where all they name is**.
-/

open Machinery

namespace Werrss

/-! ## Keys -/

/-- `article_backfill_dedupe_key`. -/
def articleBackfillDedupeKey (sourceId : Uuid) (reviewId : String) : String :=
  "article_backfill:" ++ sourceId.toText ++ ":" ++ trim reviewId

theorem articleBackfillDedupeKey_trim (sourceId : Uuid) (reviewId : String) :
    articleBackfillDedupeKey sourceId (trim reviewId) =
      articleBackfillDedupeKey sourceId reviewId :=
  congrArg (fun text => "article_backfill:" ++ sourceId.toText ++ ":" ++ text) (trim_trim reviewId)

theorem trim_eq_of_dedupeKey {sourceId : Uuid} {a b : String}
    (h : articleBackfillDedupeKey sourceId a = articleBackfillDedupeKey sourceId b) :
    trim a = trim b := by
  unfold articleBackfillDedupeKey at h
  exact String.append_right_inj _ |>.mp h

/-- What the active job of a key is about. -/
inductive JobKey
  | sourceSync (sourceId : Uuid)
  | feedRebuild (sourceId : Uuid)
  | articleBackfill (sourceId : Uuid) (reviewId : String)
  | credentialRefresh (accountId : Uuid)
  | assetRepair (assetId : Uuid)
  | assetRefresh (sourceId : Uuid) (reviewId : String)
deriving DecidableEq, Repr

namespace JobKey

/-- The text of a key. -/
def toText : JobKey → String
  | sourceSync sourceId => "source_sync:" ++ sourceId.toText
  | feedRebuild sourceId => "feed_rebuild:" ++ sourceId.toText
  | articleBackfill sourceId reviewId => articleBackfillDedupeKey sourceId reviewId
  | credentialRefresh accountId => "credential_refresh:" ++ accountId.toText
  | assetRepair assetId => "asset-repair:" ++ assetId.toText
  | assetRefresh sourceId reviewId => refreshKey sourceId reviewId

/-- The type of the job. -/
def jobType : JobKey → JobType
  | sourceSync _ => .sourceSync
  | feedRebuild _ => .feedRebuild
  | articleBackfill _ _ => .articleBackfill
  | credentialRefresh _ => .credentialRefresh
  | assetRepair _ => .assetRepair
  | assetRefresh _ _ => .assetRefresh

/-- The name that the keys of a type start with. -/
def name : JobType → String
  | .sourceSync => "source_sync"
  | .feedRebuild => "feed_rebuild"
  | .articleBackfill => "article_backfill"
  | .credentialRefresh => "credential_refresh"
  | .assetRepair => "asset-repair"
  | .assetRefresh => "asset-refresh"

/-- The identifier of the source, account or asset. -/
def subject : JobKey → Uuid
  | sourceSync id | feedRebuild id | articleBackfill id _ | credentialRefresh id | assetRepair id
  | assetRefresh id _ => id

/-- What follows the identifier. -/
def rest : JobKey → List Char
  | articleBackfill _ reviewId => ':' :: (trim reviewId).toList
  | assetRefresh _ reviewId => ':' :: reviewId.toList
  | _ => []

/-- The identifier of a key has 128 bits. -/
def Fits (key : JobKey) : Prop := key.subject.value < 2 ^ 128

end JobKey

/-! ## Identifiers are told apart by their texts -/

/-- The value of a hexadecimal digit. -/
def hexValue (c : Char) : ℕ := "0123456789abcdef".toList.idxOf c

/-- The number that hexadecimal digits write. -/
def ofHexDigits (cs : List Char) : ℕ := cs.foldl (fun n c => 16 * n + hexValue c) 0

theorem ofHexDigits_hexDigits (count n : ℕ) (h : n < 16 ^ count) :
    ofHexDigits (hexDigits count n) = n := by
  have hvalue : ∀ k < 16, hexValue (hexDigit k) = k := by decide
  induction count generalizing n with
  | zero =>
    rw [Nat.pow_zero, Nat.lt_one_iff] at h
    rw [h]
    rfl
  | succ count ih =>
    have hdiv : n / 16 < 16 ^ count := by
      rw [Nat.div_lt_iff_lt_mul (by decide), ← Nat.pow_succ]
      exact h
    have hhead := ih (n / 16) hdiv
    unfold ofHexDigits at hhead ⊢
    rw [hexDigits, List.foldl_append, hhead, List.foldl_cons, List.foldl_nil,
      hvalue _ (Nat.mod_lt n (by decide))]
    exact Nat.div_add_mod n 16

theorem length_hexDigits (count n : ℕ) : (hexDigits count n).length = count := by
  induction count generalizing n with
  | zero => rfl
  | succ count ih => rw [hexDigits, List.length_append, ih, List.length_singleton]

/-- The five groups of digits, put together again. -/
theorem groups_append (cs : List Char) :
    cs.take 8 ++ ((cs.drop 8).take 4 ++ ((cs.drop 12).take 4 ++ ((cs.drop 16).take 4
      ++ cs.drop 20))) = cs := by
  have hdrop : ∀ n, (cs.drop n).take 4 ++ cs.drop (n + 4) = cs.drop n := fun n => by
    rw [← List.drop_drop, List.take_append_drop]
  rw [hdrop 16, hdrop 12, hdrop 8, List.take_append_drop]

/-- The digits of an identifier's text. -/
theorem filter_toText (id : Uuid) :
    id.toText.toList.filter (· ≠ '-') = hexDigits 32 id.value := by
  have hdigits : ∀ cs : List Char, (∀ c ∈ cs, c ∈ hexDigits 32 id.value) →
      cs.filter (· ≠ '-') = cs := by
    intro cs hcs
    refine List.filter_eq_self.mpr fun c hc => decide_eq_true ?_
    rintro rfl
    exact absurd (mem_hexDigits (hcs _ hc)) (by decide)
  have hhyphen : ∀ cs : List Char, ('-' :: cs).filter (· ≠ '-') = cs.filter (· ≠ '-') := fun cs =>
    List.filter_cons_of_neg (by decide)
  rw [Uuid.toText, String.toList_ofList]
  simp only [List.filter_append, hhyphen]
  rw [hdigits _ fun c hc => List.mem_of_mem_take hc,
    hdigits _ fun c hc => List.mem_of_mem_drop (List.mem_of_mem_take hc),
    hdigits _ fun c hc => List.mem_of_mem_drop (List.mem_of_mem_take hc),
    hdigits _ fun c hc => List.mem_of_mem_drop (List.mem_of_mem_take hc),
    hdigits _ fun c hc => List.mem_of_mem_drop hc]
  exact groups_append _

theorem length_toText (id : Uuid) : id.toText.toList.length = 36 := by
  rw [Uuid.toText, String.toList_ofList]
  simp [length_hexDigits]

/-- **The text of an identifier is its own.** -/
theorem toText_injective {a b : Uuid} (ha : a.value < 2 ^ 128) (hb : b.value < 2 ^ 128)
    (h : a.toText = b.toText) : a = b := by
  have hvalue : ∀ id : Uuid, id.value < 2 ^ 128 →
      ofHexDigits (id.toText.toList.filter (· ≠ '-')) = id.value := fun id hid => by
    rw [filter_toText, ofHexDigits_hexDigits 32 _ hid]
  have hvalues : a.value = b.value := by rw [← hvalue a ha, ← hvalue b hb, h]
  rcases a
  rcases b
  exact congrArg Uuid.mk hvalues

namespace JobKey

theorem colon_notMem_name (jobType : JobType) : ':' ∉ (name jobType).toList := by
  rcases jobType <;> decide

theorem name_injective {a b : JobType} (h : name a = name b) : a = b := by
  rcases a <;> rcases b <;> first | rfl | exact absurd h (by decide)

/-- A text behind a name and its colon. -/
theorem toList_of_name {named name : String} (h : named.toList = name.toList ++ [':'])
    (text : String) : (named ++ text).toList = name.toList ++ ':' :: text.toList := by
  rw [String.toList_append, h, List.append_assoc, List.singleton_append]

/-- A text behind a name, an identifier and their colons. -/
theorem toList_of_names {named name : String} (h : named.toList = name.toList ++ [':'])
    (id text : String) : (named ++ id ++ ":" ++ text).toList =
      name.toList ++ ':' :: (id.toList ++ ':' :: text.toList) := by
  have hcolon : ":".toList = [':'] := by decide
  rw [String.toList_append, String.toList_append, toList_of_name h, hcolon, List.append_assoc,
    List.singleton_append, List.append_assoc, List.cons_append]

/-- A key is the name of its type, its identifier, and the rest. -/
theorem toList_toText (key : JobKey) :
    key.toText.toList =
      (name key.jobType).toList ++ ':' :: (key.subject.toText.toList ++ key.rest) := by
  rcases key with sourceId | sourceId | ⟨sourceId, reviewId⟩ | accountId | assetId |
    ⟨sourceId, reviewId⟩
  · show ("source_sync:" ++ sourceId.toText).toList =
      "source_sync".toList ++ ':' :: (sourceId.toText.toList ++ [])
    rw [List.append_nil]
    exact toList_of_name (by decide) _
  · show ("feed_rebuild:" ++ sourceId.toText).toList =
      "feed_rebuild".toList ++ ':' :: (sourceId.toText.toList ++ [])
    rw [List.append_nil]
    exact toList_of_name (by decide) _
  · exact toList_of_names (show "article_backfill:".toList = "article_backfill".toList ++ [':'] by
      decide) _ _
  · show ("credential_refresh:" ++ accountId.toText).toList =
      "credential_refresh".toList ++ ':' :: (accountId.toText.toList ++ [])
    rw [List.append_nil]
    exact toList_of_name (by decide) _
  · show ("asset-repair:" ++ assetId.toText).toList =
      "asset-repair".toList ++ ':' :: (assetId.toText.toList ++ [])
    rw [List.append_nil]
    exact toList_of_name (by decide) _
  · exact toList_of_names (show "asset-refresh:".toList = "asset-refresh".toList ++ [':'] by
      decide) _ _

/-- **Equal keys are about the same**: the type, the identifier, and what follows it. -/
theorem eq_of_toText {a b : JobKey} (ha : a.Fits) (hb : b.Fits) (h : a.toText = b.toText) :
    a.jobType = b.jobType ∧ a.subject = b.subject ∧ a.rest = b.rest := by
  have htake : ∀ key : JobKey,
      key.toText.toList.takeWhile (· ≠ ':') = (name key.jobType).toList := by
    intro key
    have hname : ∀ c ∈ (name key.jobType).toList, decide (c ≠ ':') = true := fun c hc =>
      decide_eq_true fun heq => colon_notMem_name _ (heq ▸ hc)
    rw [toList_toText, List.takeWhile_append_of_pos hname,
      List.takeWhile_cons_of_neg (by decide), List.append_nil]
  have hname : (name a.jobType).toList = (name b.jobType).toList := by rw [← htake, ← htake, h]
  have hrest := congrArg String.toList h
  rw [toList_toText, toList_toText, hname] at hrest
  have htail := (List.cons.inj (List.append_cancel_left hrest)).2
  obtain ⟨hsubject, hrest⟩ := List.append_inj htail (by rw [length_toText, length_toText])
  exact ⟨name_injective (String.toList_inj.mp hname),
    toText_injective ha hb (String.toList_inj.mp hsubject), hrest⟩

/-- **The keys of an article's backfill are of that article only.** -/
theorem toText_eq_articleBackfill {sourceId : Uuid} (hsource : sourceId.value < 2 ^ 128)
    {key : JobKey} (hkey : key.Fits) (reviewId : String) :
    key.toText = articleBackfillDedupeKey sourceId reviewId ↔
      ∃ other, key = articleBackfill sourceId other ∧ trim other = trim reviewId := by
  constructor
  · intro h
    obtain ⟨htype, hsubject, hrest⟩ :=
      eq_of_toText (b := articleBackfill sourceId reviewId) hkey hsource h
    rcases key with id | id | ⟨id, other⟩ | id | id | ⟨id, other⟩
    · exact nomatch htype
    · exact nomatch htype
    · obtain rfl : id = sourceId := hsubject
      exact ⟨other, rfl, String.toList_inj.mp (List.cons.inj hrest).2⟩
    · exact nomatch htype
    · exact nomatch htype
    · exact nomatch htype
  · rintro ⟨other, rfl, htrim⟩
    show articleBackfillDedupeKey sourceId other = _
    rw [← articleBackfillDedupeKey_trim sourceId other, htrim, articleBackfillDedupeKey_trim]

end JobKey

/-! ## The work of a row -/

/-- What a row is about, under its identifier. -/
def JobRow.work (row : JobRow) : Uuid × String × Option Uuid × String × String :=
  (row.id, row.jobType, row.sourceId, row.payloadJson, row.dedupeKey)

namespace JobRow

variable {row row' : JobRow} {jobId : Uuid} {owner : String} {token : LeaseToken} {now : DateTime}

theorem work_heartbeat {leaseFor : Duration}
    (h : row.heartbeat jobId owner token now leaseFor = .ok (some row')) :
    row'.work = row.work := by
  obtain ⟨_, -, h⟩ := bind_eq_ok h
  obtain ⟨_, -, h⟩ := bind_eq_ok h
  obtain ⟨_, -, h⟩ := bind_eq_ok h
  split_ifs at h
  · obtain ⟨_, -, h⟩ := bind_eq_ok h
    obtain rfl := Option.some.inj (Except.ok.inj h)
    rfl
  · exact nomatch h

theorem work_defer {resumeAt : DateTime}
    (h : row.defer jobId owner token now resumeAt = .ok (some row')) : row'.work = row.work := by
  obtain ⟨_, -, h⟩ := bind_eq_ok h
  obtain ⟨_, -, h⟩ := bind_eq_ok h
  obtain ⟨_, -, h⟩ := bind_eq_ok h
  split_ifs at h
  · obtain rfl := Option.some.inj (Except.ok.inj h)
    rfl
  · exact nomatch h

theorem work_succeed (h : row.succeed jobId owner token now = .ok (some row')) :
    row'.work = row.work := by
  obtain ⟨_, -, h⟩ := bind_eq_ok h
  obtain ⟨_, -, h⟩ := bind_eq_ok h
  split_ifs at h
  · obtain rfl := Option.some.inj (Except.ok.inj h)
    rfl
  · exact nomatch h

theorem work_retry {retryAt : DateTime} {error : String}
    (h : row.retry jobId owner token now retryAt error = .ok (some row')) :
    row'.work = row.work := by
  obtain ⟨_, -, h⟩ := bind_eq_ok h
  obtain ⟨_, -, h⟩ := bind_eq_ok h
  obtain ⟨_, howner, h⟩ := bind_eq_ok h
  obtain ⟨_, -, h⟩ := bind_eq_ok h
  obtain ⟨_, -, h⟩ := bind_eq_ok h
  rw [bindText_eq_ok howner] at h
  by_cases hfenced : row.isFenced jobId owner token now = true
  · rw [if_pos hfenced] at h
    obtain rfl := Option.some.inj (Except.ok.inj h)
    rfl
  · rw [if_neg hfenced] at h
    exact nomatch h

theorem work_fail {error : String}
    (h : row.fail jobId owner token now error = .ok (some row')) : row'.work = row.work := by
  obtain ⟨_, -, h⟩ := bind_eq_ok h
  obtain ⟨_, -, h⟩ := bind_eq_ok h
  obtain ⟨_, -, h⟩ := bind_eq_ok h
  obtain ⟨_, -, h⟩ := bind_eq_ok h
  split_ifs at h
  · obtain rfl := Option.some.inj (Except.ok.inj h)
    rfl
  · exact nomatch h

theorem work_cancel {reason : String}
    (h : row.cancel jobId now reason = .ok (some row')) : row'.work = row.work := by
  obtain ⟨_, -, h⟩ := bind_eq_ok h
  obtain ⟨_, -, h⟩ := bind_eq_ok h
  split_ifs at h
  · obtain rfl := Option.some.inj (Except.ok.inj h)
    rfl
  · exact nomatch h

/-- A claim takes a row of the table, and keeps its work. -/
theorem work_claimNext {rows rows' : List JobRow} {leaseFor : Duration} {types : List JobType}
    {draw : LeaseToken} {picked : Option JobRow}
    (h : claimNext rows owner now leaseFor types draw = .ok (picked, rows')) :
    rows'.map work = rows.map work ∧
      ∀ row ∈ picked, row.work ∈ rows.map work ∧ row.leaseOwner = some owner := by
  obtain ⟨_, -, h⟩ := bind_eq_ok h
  obtain ⟨_, -, h⟩ := bind_eq_ok h
  obtain ⟨bound, hbound, h⟩ := bind_eq_ok h
  rw [bindText_eq_ok hbound] at h
  split at h
  · obtain ⟨rfl, rfl⟩ := Prod.mk.inj (Except.ok.inj h)
    exact ⟨rfl, fun row hrow => nomatch hrow⟩
  · rename_i candidate rest hpick
    obtain ⟨leaseUntil, -, h⟩ := bind_eq_ok h
    obtain ⟨rfl, rfl⟩ := Prod.mk.inj (Except.ok.inj h)
    refine ⟨?_, fun row hrow => ?_⟩
    · rw [List.map_map]
      refine List.map_congr_left fun row _ => ?_
      show work (if row.id = candidate.id then _ else row) = work row
      split_ifs <;> rfl
    · obtain rfl := Option.some.inj hrow
      have hmem : candidate ∈ firstBy (fun a b => (claimCompare a b).isLE = true) 1
          (rows.filter (isDue now types)) := hpick ▸ List.mem_cons_self
      have hrows := (List.mem_filter.mp (mem_of_mem_firstBy _ hmem)).1
      have hwork : candidate.work ∈ rows.map work := List.mem_map_of_mem hrows
      exact ⟨hwork, rfl⟩

end JobRow

namespace JobTransaction

open JobRow

/-- A statement on every row keeps the work where it keeps that of each row it writes. -/
theorem map_work_left {f : JobRow → Except JobRepositoryError (Option JobRow)}
    (h : ∀ row row', f row = .ok (some row') → row'.work = row.work) (rows : List JobRow) :
    (rows.map fun row => left row (f row)).map work = rows.map work := by
  rw [List.map_map]
  refine List.map_congr_left fun row _ => ?_
  show (left row (f row)).work = row.work
  rcases hresult : f row with error | _ | row'
  · rfl
  · rfl
  · exact h row row' hresult

/-- **A transaction keeps the work of every row**, and adds only rows of new identifiers. -/
theorem work_commit (t : JobTransaction) (rows : List JobRow) :
    (t.commit rows).map work = rows.map work ∨
      ∃ row : JobRow, row.id ∉ rows.map JobRow.id ∧ t.commit rows = rows ++ [row] := by
  cases t with
  | claimNext owner now leaseFor types draw =>
    left
    rw [commit]
    split
    · rename_i picked rows' hclaim
      exact (work_claimNext hclaim).1
    · rfl
  | heartbeat => exact .inl (map_work_left (fun _ _ => work_heartbeat) rows)
  | defer => exact .inl (map_work_left (fun _ _ => work_defer) rows)
  | succeed => exact .inl (map_work_left (fun _ _ => work_succeed) rows)
  | retry => exact .inl (map_work_left (fun _ _ => work_retry) rows)
  | fail => exact .inl (map_work_left (fun _ _ => work_fail) rows)
  | cancel => exact .inl (map_work_left (fun _ _ => work_cancel) rows)
  | recoverExpired now limit =>
    left
    rw [commit]
    split
    · rename_i picked rows' hrecover
      unfold JobRow.recoverExpired at hrecover
      split_ifs at hrecover
      · obtain ⟨-, rfl⟩ := Prod.mk.inj (Except.ok.inj hrecover)
        rfl
      · obtain ⟨-, rfl⟩ := Prod.mk.inj (Except.ok.inj hrecover)
        rw [List.map_map]
        refine List.map_congr_left fun row _ => ?_
        show work (if row.id ∈ _ then _ else row) = work row
        split_ifs <;> rfl
    · rfl
  | enqueue id spec =>
    rw [commit]
    split
    · exact .inl rfl
    · rename_i job hnew
      split_ifs with hkept
      · exact .inl rfl
      · rw [Bool.or_eq_true, decide_eq_true_eq, not_or] at hkept
        refine .inr ⟨ofJob job, ?_, rfl⟩
        have hid : (ofJob job).id = id := by
          unfold Job.new at hnew
          split_ifs at hnew
          obtain rfl := Except.ok.inj hnew
          rfl
        rw [hid]
        exact hkept.2

/-- **The work of a row is its own in every run**: a row under its identifier is about the same. -/
theorem work_run {rows : List JobRow} (hids : (rows.map JobRow.id).Nodup) (ts : List JobTransaction)
    {row : JobRow} (hrow : row ∈ rows) {work' : Uuid × String × Option Uuid × String × String}
    (hwork : work' ∈ (Machinery.run commit rows ts).map work) (hid : work'.1 = row.id) :
    work' = row.work := by
  have hstart : (rows.map JobRow.id).Nodup ∧ row.work ∈ rows.map work :=
    ⟨hids, List.mem_map_of_mem hrow⟩
  have hinv := Machinery.run_preserves (P := fun rows' : List JobRow =>
      (rows'.map JobRow.id).Nodup ∧ row.work ∈ rows'.map work) (fun rows' t h => by
    have hmap : ∀ l : List JobRow, l.map JobRow.id = (l.map work).map Prod.fst := fun l => by
      rw [List.map_map]
      rfl
    show ((commit rows' t).map JobRow.id).Nodup ∧ row.work ∈ (commit rows' t).map work
    rcases work_commit t rows' with hsame | ⟨new, hnew, happend⟩
    · rw [hmap, hsame, ← hmap]
      exact h
    · rw [show commit rows' t = rows' ++ [new] from happend, List.map_append, List.map_append]
      refine ⟨?_, List.mem_append_left _ h.2⟩
      exact List.nodup_append.mpr ⟨h.1, List.nodup_singleton _, fun a ha b hb hab => hnew
        (List.mem_singleton.mp hb ▸ hab ▸ ha)⟩) ts hstart
  obtain ⟨a, ha, rfl⟩ := List.mem_map.mp hwork
  obtain ⟨b, hb, hbwork⟩ := List.mem_map.mp hinv.2
  have hab : a = b := by
    refine List.inj_on_of_nodup_map hinv.1 ha hb ?_
    exact hid.trans (congrArg Prod.fst hbwork).symm
  rw [hab, hbwork]

end JobTransaction

/-! ## The crates -/

/-- The text forms of serde (`uuid`, `chrono`) and a `jsonb` column, which refuses some values. -/
class SerdeCrate where
  parseUuid : String → Option Uuid
  toRfc3339 : DateTime → String
  parseRfc3339 : String → Option DateTime
  bindJson : JsonValue → Option String
  readJson : String → Option JsonValue

/-- A field of a flat object: a text, or nothing. -/
def JsonValue.IsFlat : JsonValue → Prop
  | .string _ | .null => True
  | _ => False

/-- **What serde documents**: identifiers and whole seconds inside the calendar are read as they
were written, and a `jsonb` column keeps the fields of a flat object. -/
class LawfulSerdeCrate [SerdeCrate] : Prop where
  parseUuid_toText (id : Uuid) : id.value < 2 ^ 128 → SerdeCrate.parseUuid id.toText = some id
  parseRfc3339_toRfc3339 (t : DateTime) : DateTime.minUtc ≤ t → t ≤ DateTime.maxUtc →
    (1000000000 : ℤ) ∣ t → SerdeCrate.parseRfc3339 (SerdeCrate.toRfc3339 t) = some t
  readJson_bindJson (fields : JsonObject) (text : String) : (fields.map Prod.fst).Nodup →
    (∀ field ∈ fields, field.2.IsFlat) → SerdeCrate.bindJson (.object fields) = some text →
    ∃ stored, SerdeCrate.readJson text = some (.object stored) ∧
      ∀ name, stored.lookup name = fields.lookup name

/-! ## The payload -/

section Payload

variable (Url : Type) [UrlCrate Url]

/-- `ArticleBackfillPayload`. -/
structure ArticleBackfillPayload where
  sourceId : Uuid
  reviewId : String
  articleUrl : VerifiedWechatArticleUrl Url
  title : Option String
  summary : Option String
  author : Option String
  coverUrl : Option String
  publishedAt : Option DateTime

variable {Url}

namespace ArticleBackfillPayload

/-- `from_reference`. -/
def fromReference (sourceId : Uuid) (reference : WeReadArticleReference Url) :
    Option (ArticleBackfillPayload Url) :=
  if trim reference.reviewId = "" then none
  else reference.articleUrl.map fun articleUrl =>
    { sourceId := sourceId
      reviewId := trim reference.reviewId
      articleUrl := articleUrl
      title := reference.title
      summary := reference.summary
      author := reference.author
      coverUrl := reference.coverUrl
      publishedAt := reference.publishedAt }

/-- `into_reference`. -/
def intoReference (self : ArticleBackfillPayload Url) :
    Except String (WeReadArticleReference Url) :=
  if trim self.reviewId = "" then .error "article backfill review_id is empty"
  else if self.sourceId = .nil then .error "article backfill source_id is nil"
  else .ok
    { reviewId := trim self.reviewId
      articleUrl := some self.articleUrl
      title := self.title
      summary := self.summary
      author := self.author
      coverUrl := self.coverUrl
      publishedAt := self.publishedAt }

/-- A text that may be missing, as `Serialize` writes it. -/
def optionalValue (text : Option String) : JsonValue := text.elim .null .string

/-- A field that may be missing, as `Deserialize` reads it. -/
def readOptional {A : Type} (fields : JsonObject) (name : String) (read : String → Option A) :
    Option (Option A) :=
  match fields.lookup name with
  | none | some .null => some none
  | some (.string text) => (read text).map some
  | some _ => none

variable [SerdeCrate]

/-- `Serialize`, derived. -/
def toFields (self : ArticleBackfillPayload Url) : JsonObject :=
  [("source_id", .string self.sourceId.toText), ("review_id", .string self.reviewId),
    ("article_url", .string self.articleUrl.asStr), ("title", optionalValue self.title),
    ("summary", optionalValue self.summary), ("author", optionalValue self.author),
    ("cover_url", optionalValue self.coverUrl),
    ("published_at", optionalValue (self.publishedAt.map SerdeCrate.toRfc3339))]

variable [LawfulUrlCrate Url]

/-- `Deserialize`, derived: other fields are ignored. -/
def ofFields (fields : JsonObject) : Option (ArticleBackfillPayload Url) := do
  let sourceId ← SerdeCrate.parseUuid (← (← fields.lookup "source_id").asStr)
  let reviewId ← (← fields.lookup "review_id").asStr
  let articleUrl ←
    (VerifiedWechatArticleUrl.parse (← (← fields.lookup "article_url").asStr)).toOption
  let title ← readOptional fields "title" some
  let summary ← readOptional fields "summary" some
  let author ← readOptional fields "author" some
  let coverUrl ← readOptional fields "cover_url" some
  let publishedAt ← readOptional fields "published_at" SerdeCrate.parseRfc3339
  return ⟨sourceId, reviewId, articleUrl, title, summary, author, coverUrl, publishedAt⟩

end ArticleBackfillPayload

variable [SerdeCrate]

/-- The text stored for the payload of a reference. -/
def backfillPayloadText (sourceId : Uuid) (reference : WeReadArticleReference Url) :
    Option String := do
  let payload ← ArticleBackfillPayload.fromReference sourceId reference
  SerdeCrate.bindJson (.object payload.toFields)

variable [LawfulUrlCrate Url]

/-- The payload of a claimed job, decoded. -/
def readBackfillPayload (text : String) : Option (ArticleBackfillPayload Url) := do
  ArticleBackfillPayload.ofFields (← (← SerdeCrate.readJson text).asObject)

/-- `validate_lease`; an error is the text the job fails with. -/
def validateLease (lease : JobLease) : Except String (Uuid × WeReadArticleReference Url) :=
  if lease.job.jobType ≠ .articleBackfill then
    .error "article backfill handler received an unsupported job type"
  else
    match lease.job.sourceId with
    | none => .error "article backfill job is missing its source"
    | some sourceUuid =>
      if sourceUuid = .nil then .error "article backfill job source is invalid"
      else
        match (readBackfillPayload lease.job.payload : Option (ArticleBackfillPayload Url)) with
        | none => .error "article backfill job payload is invalid"
        | some payload =>
          if payload.sourceId ≠ sourceUuid then
            .error "article backfill job payload does not match its source"
          else
            match payload.intoReference with
            | .error _ => .error "article backfill job payload is invalid"
            | .ok reference =>
              if lease.job.dedupeKey ≠ articleBackfillDedupeKey sourceUuid reference.reviewId then
                .error "article backfill job dedupe key does not match its article"
              else if lease.job.leaseOwner.isNone then
                .error "article backfill job lease is incomplete"
              else .ok (sourceUuid, reference)

/-! ## The payload of a claimed job -/

namespace ArticleBackfillPayload

variable [LawfulSerdeCrate]

omit [UrlCrate Url] [SerdeCrate] [LawfulUrlCrate Url] [LawfulSerdeCrate] in
/-- A field that may be missing is read as it was written. -/
theorem readOptional_of_lookup {A : Type} {fields : JsonObject} {name : String}
    {r : String → Option A} {w : A → String} {value : Option A}
    (hlookup : fields.lookup name = some (optionalValue (value.map w)))
    (hread : ∀ a ∈ value, r (w a) = some a) :
    readOptional fields name r = some value := by
  unfold readOptional
  rw [hlookup]
  rcases value with _ | a
  · rfl
  · show (r (w a)).map some = some (some a)
    rw [hread a rfl]
    rfl

/-- **Deserializing inverts serializing.** -/
theorem ofFields_toFields {payload : ArticleBackfillPayload Url}
    (hid : payload.sourceId.value < 2 ^ 128)
    (hpublished : ∀ t ∈ payload.publishedAt,
      SerdeCrate.parseRfc3339 (SerdeCrate.toRfc3339 t) = some t)
    {stored : JsonObject} (hstored : ∀ name, stored.lookup name = payload.toFields.lookup name) :
    ofFields stored = some payload := by
  have hsource : stored.lookup "source_id" = some (.string payload.sourceId.toText) := hstored _
  have hreview : stored.lookup "review_id" = some (.string payload.reviewId) := hstored _
  have hurl : stored.lookup "article_url" = some (.string payload.articleUrl.asStr) := hstored _
  have htext : ∀ (name : String) (value : Option String),
      stored.lookup name = some (optionalValue value) →
      readOptional stored name some = some value := fun name value h =>
    readOptional_of_lookup (w := id) (by rwa [Option.map_id_fun, id]) fun _ _ => rfl
  have htitle := htext "title" payload.title (hstored _)
  have hsummary := htext "summary" payload.summary (hstored _)
  have hauthor := htext "author" payload.author (hstored _)
  have hcover := htext "cover_url" payload.coverUrl (hstored _)
  have hdate : readOptional stored "published_at" SerdeCrate.parseRfc3339 =
      some payload.publishedAt := readOptional_of_lookup (hstored _) hpublished
  unfold ofFields
  rw [hsource, hreview, hurl, htitle, hsummary, hauthor, hcover, hdate]
  simp [JsonValue.asStr, LawfulSerdeCrate.parseUuid_toText _ hid,
    VerifiedWechatArticleUrl.parse_asStr, Except.toOption]

end ArticleBackfillPayload

variable [LawfulSerdeCrate]

/-- The payload of a reference is read back. -/
theorem readBackfillPayload_of_text {sourceId : Uuid} (hid : sourceId.value < 2 ^ 128)
    {reference : WeReadArticleReference Url}
    (hpublished : ∀ t ∈ reference.publishedAt, ∃ value, unixTimestamp value = some t)
    {text : String} (h : backfillPayloadText sourceId reference = some text) :
    ∃ payload : ArticleBackfillPayload Url, readBackfillPayload text = some payload ∧
      ArticleBackfillPayload.fromReference sourceId reference = some payload := by
  obtain ⟨payload, hpayload, hbind⟩ := Option.bind_eq_some_iff.mp h
  have hfields : payload.sourceId = sourceId ∧ payload.publishedAt = reference.publishedAt := by
    unfold ArticleBackfillPayload.fromReference at hpayload
    split_ifs at hpayload
    obtain ⟨url, -, rfl⟩ := Option.map_eq_some_iff.mp hpayload
    exact ⟨rfl, rfl⟩
  have hflat : ∀ field ∈ payload.toFields, field.2.IsFlat := by
    have hoptional : ∀ text : Option String,
        (ArticleBackfillPayload.optionalValue text).IsFlat := by
      rintro (_ | text) <;> trivial
    intro field hfield
    simp only [ArticleBackfillPayload.toFields, List.mem_cons, List.not_mem_nil, or_false] at hfield
    rcases hfield with rfl | rfl | rfl | rfl | rfl | rfl | rfl | rfl
    · trivial
    · trivial
    · trivial
    · exact hoptional _
    · exact hoptional _
    · exact hoptional _
    · exact hoptional _
    · exact hoptional _
  have hnames : (payload.toFields.map Prod.fst).Nodup := by
    show ["source_id", "review_id", "article_url", "title", "summary", "author", "cover_url",
      "published_at"].Nodup
    decide
  obtain ⟨stored, hread, hlookup⟩ :=
    LawfulSerdeCrate.readJson_bindJson payload.toFields text hnames hflat hbind
  refine ⟨payload, ?_, hpayload⟩
  have hparse : ∀ t ∈ payload.publishedAt,
      SerdeCrate.parseRfc3339 (SerdeCrate.toRfc3339 t) = some t := by
    intro t ht
    rw [hfields.2] at ht
    obtain ⟨value, hvalue⟩ := hpublished t ht
    have hwhole := whole_of_unixTimestamp hvalue
    obtain ⟨seconds, -, hseconds⟩ := Option.bind_eq_some_iff.mp hvalue
    rw [fromTimestamp] at hseconds
    split_ifs at hseconds with hcalendar
    obtain rfl := Option.some.inj hseconds
    exact LawfulSerdeCrate.parseRfc3339_toRfc3339 _ hcalendar.1 hcalendar.2 hwhole
  have hdecoded := ArticleBackfillPayload.ofFields_toFields (hfields.1 ▸ hid) hparse hlookup
  unfold readBackfillPayload
  rw [hread]
  exact hdecoded

/-- A lease on a stored job: its row was inserted, any transactions of other workers committed, and
a claim returned it. -/
inductive LeasedFrom (spec : NewJob) : JobLease → Prop
  | claimed {id : Uuid} {job : Job} {clock : DateTime} {useDatabaseTime : Bool} {row : JobRow}
      {rows rows' : List JobRow} {ts : List JobTransaction} {owner : String} {now : DateTime}
      {leaseFor : Duration} {types : List JobType} {draw : LeaseToken} {picked : JobRow}
      {leased : Job} (hnew : Job.new id spec = .ok job)
      (hrow : newRow job clock useDatabaseTime = .ok row)
      (hids : ((rows ++ [row]).map JobRow.id).Nodup)
      (hclaim : JobRow.claimNext (Machinery.run JobTransaction.commit (rows ++ [row]) ts) owner now
        leaseFor types draw = .ok (some picked, rows'))
      (hpicked : picked.id = id) (hdecode : picked.decodeJob = .ok leased) :
      LeasedFrom spec ⟨leased, draw⟩

omit [UrlCrate Url] [SerdeCrate] [LawfulUrlCrate Url] [LawfulSerdeCrate] in
/-- **A lease is about what its job was made for.** -/
theorem LeasedFrom.sameWork {spec : NewJob} {lease : JobLease} (h : LeasedFrom spec lease) :
    lease.job.jobType = spec.jobType ∧ lease.job.sourceId = spec.sourceId ∧
      lease.job.payload = spec.payload ∧ lease.job.dedupeKey = spec.dedupeKey ∧
      lease.job.leaseOwner.isSome = true := by
  obtain ⟨hnew, hrow, hids, hclaim, hpicked, hdecode⟩ := h
  rename_i id job clock useDatabaseTime row rows rows' ts owner now leaseFor types draw picked _
  have hjob : job.id = id ∧ job.jobType = spec.jobType ∧ job.sourceId = spec.sourceId ∧
      job.payload = spec.payload ∧ job.dedupeKey = spec.dedupeKey := by
    unfold Job.new at hnew
    split_ifs at hnew
    obtain rfl := Except.ok.inj hnew
    exact ⟨rfl, rfl, rfl, rfl, rfl⟩
  have hwork : row.work =
      (job.id, jobTypeName job.jobType, job.sourceId, job.payload, job.dedupeKey) := by
    obtain ⟨_, -, hrow⟩ := bind_eq_ok hrow
    obtain ⟨payload, hpayload, hrow⟩ := bind_eq_ok hrow
    obtain ⟨dedupeKey, hkey, hrow⟩ := bind_eq_ok hrow
    obtain ⟨_, -, hrow⟩ := bind_eq_ok hrow
    obtain ⟨_, -, hrow⟩ := bind_eq_ok hrow
    obtain rfl := Except.ok.inj hrow
    rw [← bindText_eq_ok hpayload, ← bindText_eq_ok hkey]
    rfl
  obtain ⟨-, hpick⟩ := JobRow.work_claimNext hclaim
  obtain ⟨hmem, howner⟩ := hpick picked rfl
  have hrowId : picked.work.1 = row.id := hpicked.trans
    (hjob.1.symm.trans (congrArg Prod.fst hwork).symm)
  have hsame := JobTransaction.work_run hids ts (List.mem_append_right rows List.mem_cons_self)
    hmem hrowId
  obtain ⟨rfl, -, -⟩ := JobRow.decode_eq_ok hdecode
  rw [hwork] at hsame
  obtain ⟨-, hsame⟩ := Prod.mk.inj hsame
  obtain ⟨htype, hsame⟩ := Prod.mk.inj hsame
  obtain ⟨hsource, hsame⟩ := Prod.mk.inj hsame
  obtain ⟨hpayload, hkey⟩ := Prod.mk.inj hsame
  refine ⟨(jobTypeName_inj.mp htype).trans hjob.2.1, hsource.trans hjob.2.2.1,
    hpayload.trans hjob.2.2.2.1, hkey.trans hjob.2.2.2.2, ?_⟩
  exact Option.isSome_iff_exists.mpr ⟨owner, howner⟩

/-- **A claimed backfill job decodes to the reference it was made for.** -/
theorem validateLease_of_backfill {source : SourceRow} (hnil : source.id ≠ .nil)
    (hid : source.id.value < 2 ^ 128) {reference : WeReadArticleReference Url}
    (hpublished : ∀ t ∈ reference.publishedAt, ∃ value, unixTimestamp value = some t)
    {text : String} {now : DateTime} {spec : NewJob}
    (htext : backfillPayloadText source.id reference = some text)
    (hspec : articleBackfillJob source reference text now = some spec)
    {lease : JobLease} (hlease : LeasedFrom spec lease) :
    validateLease lease =
      .ok (source.id, { reference with reviewId := trim reference.reviewId }) := by
  obtain ⟨htype, hsource, hpayload, hkey, howner⟩ := hlease.sameWork
  obtain ⟨payload, hread, hfrom⟩ := readBackfillPayload_of_text hid hpublished htext
  unfold articleBackfillJob at hspec
  split_ifs at hspec
  obtain rfl := Option.some.inj hspec
  unfold ArticleBackfillPayload.fromReference at hfrom
  split_ifs at hfrom with hempty
  obtain ⟨url, hurl, rfl⟩ := Option.map_eq_some_iff.mp hfrom
  have hinto : (ArticleBackfillPayload.intoReference
      ⟨source.id, trim reference.reviewId, url, reference.title, reference.summary,
        reference.author, reference.coverUrl, reference.publishedAt⟩) =
      .ok { reference with reviewId := trim reference.reviewId } := by
    unfold ArticleBackfillPayload.intoReference
    dsimp only
    rw [trim_trim, if_neg hempty, if_neg hnil, ← hurl]
  have hkey' := hkey.trans (articleBackfillDedupeKey_trim source.id reference.reviewId).symm
  unfold validateLease
  rw [htype, hsource, hpayload]
  simp only [ne_eq, not_true_eq_false, if_false, hnil, hread, hinto, hkey']
  rw [if_neg]
  rw [Option.isNone_iff_eq_none]
  exact Option.isSome_iff_ne_none.mp howner

variable (Url) in
/-- **Backfill jobs decode to the article they were made for**: a lease on the stored job of a
source and a reference is accepted, and answers the same source and the same reference, its review
id trimmed.  The keys of one source are equal exactly where the trimmed review ids are, and no other
job has them. -/
theorem backfill_jobs_decode :
    (∀ source : SourceRow, SourceRepository.decodes Url source = true →
      source.id.value < 2 ^ 128 → ∀ reference : WeReadArticleReference Url,
      (∀ t ∈ reference.publishedAt, ∃ value, unixTimestamp value = some t) →
      ∀ (text : String) (now : DateTime) (spec : NewJob),
      backfillPayloadText source.id reference = some text →
      articleBackfillJob source reference text now = some spec →
      ∀ lease, LeasedFrom spec lease → validateLease lease =
        .ok (source.id, { reference with reviewId := trim reference.reviewId })) ∧
    (∀ (sourceId : Uuid) (a b : String),
      articleBackfillDedupeKey sourceId a = articleBackfillDedupeKey sourceId b ↔
        trim a = trim b) ∧
    ∀ (sourceId : Uuid) (reviewId : String) (key : JobKey), sourceId.value < 2 ^ 128 → key.Fits →
      (key.toText = articleBackfillDedupeKey sourceId reviewId ↔
        ∃ other, key = .articleBackfill sourceId other ∧ trim other = trim reviewId) := by
  refine ⟨?_, fun sourceId a b => ⟨fun h => ?_, fun h => ?_⟩,
    fun sourceId reviewId key hsource hkey => key.toText_eq_articleBackfill hsource hkey reviewId⟩
  · intro source hdecodes hid reference hpublished text now spec htext hspec lease hlease
    have hnil : source.id ≠ .nil := by
      simp only [SourceRepository.decodes, Bool.and_eq_true, decide_eq_true_eq] at hdecodes
      exact hdecodes.1.1.1.1.1.1.2
    exact validateLease_of_backfill hnil hid hpublished htext hspec hlease
  · exact trim_eq_of_dedupeKey h
  · rw [← articleBackfillDedupeKey_trim sourceId a, h, articleBackfillDedupeKey_trim]

end Payload

/-! ### A backfill read back -/

/-- The text of the payload, as a `jsonb` column shows it. -/
def weeklyPayload : String :=
  "\x7b\"title\": \"Weekly\", \"author\": null, \"summary\": null, \"cover_url\": null, " ++
  "\"review_id\": \"r:1\", \"source_id\": \"00000000-0000-0000-0000-000000000001\", " ++
  "\"article_url\": \"https://mp.weixin.qq.com/s/abc\", " ++
  "\"published_at\": \"1970-01-01T00:00:00Z\"\x7d"

/-- Its fields. -/
def weeklyFields : JsonObject :=
  [("source_id", .string "00000000-0000-0000-0000-000000000001"), ("review_id", .string "r:1"),
    ("article_url", .string "https://mp.weixin.qq.com/s/abc"), ("title", .string "Weekly"),
    ("summary", .null), ("author", .null), ("cover_url", .null),
    ("published_at", .string "1970-01-01T00:00:00Z")]

/-- The fields of an object, the texts among them. -/
def flatTexts (fields : JsonObject) : List (String × Option String) :=
  fields.map fun field => (field.1, field.2.asStr)

/-- An instant other than the epoch, by its nanoseconds. -/
def countedInstant (t : DateTime) : String :=
  String.ofList (if 0 ≤ t then List.replicate t.toNat '+' else List.replicate (-t).toNat '-')

/-- The crates on this payload. -/
@[reducible] def weeklySerde : SerdeCrate where
  parseUuid s :=
    if s = (Uuid.mk (ofHexDigits (s.toList.filter (· ≠ '-')))).toText then
      some ⟨ofHexDigits (s.toList.filter (· ≠ '-'))⟩
    else none
  toRfc3339 t := if t = 0 then "1970-01-01T00:00:00Z" else countedInstant t
  parseRfc3339 s :=
    if s = "1970-01-01T00:00:00Z" then some 0
    else some ((s.toList.count '+' : ℤ) - (s.toList.count '-' : ℤ))
  bindJson
    | .object fields =>
      if flatTexts fields = flatTexts weeklyFields then some weeklyPayload else none
    | _ => none
  readJson text := if text = weeklyPayload then some (.object weeklyFields) else none

/-- A flat object is its texts. -/
theorem eq_of_flatTexts {a b : JsonObject} (ha : ∀ field ∈ a, field.2.IsFlat)
    (hb : ∀ field ∈ b, field.2.IsFlat) (h : flatTexts a = flatTexts b) : a = b := by
  have hvalue : ∀ {v w : JsonValue}, v.IsFlat → w.IsFlat → v.asStr = w.asStr → v = w := by
    intro v w hv hw hvw
    rcases v with _ | _ | _ | text | _ | _
    · rcases w with _ | _ | _ | text' | _ | _
      · rfl
      · exact False.elim hw
      · exact False.elim hw
      · exact absurd hvw (by simp [JsonValue.asStr])
      · exact False.elim hw
      · exact False.elim hw
    · exact False.elim hv
    · exact False.elim hv
    · rcases w with _ | _ | _ | text' | _ | _
      · exact absurd hvw (by simp [JsonValue.asStr])
      · exact False.elim hw
      · exact False.elim hw
      · exact congrArg JsonValue.string (Option.some.inj hvw)
      · exact False.elim hw
      · exact False.elim hw
    · exact False.elim hv
    · exact False.elim hv
  induction a generalizing b with
  | nil => exact (List.map_eq_nil_iff.mp h.symm).symm
  | cons field a ih =>
    rcases b with _ | ⟨field', b⟩
    · exact nomatch h
    · obtain ⟨hhead, htail⟩ := List.cons.inj h
      obtain ⟨hname, htext⟩ := Prod.mk.inj hhead
      have hfield : field = field' := Prod.ext hname
        (hvalue (ha _ List.mem_cons_self) (hb _ List.mem_cons_self) htext)
      rw [hfield, ih (fun f hf => ha f (List.mem_cons_of_mem _ hf))
        (fun f hf => hb f (List.mem_cons_of_mem _ hf)) htail]

attribute [local instance] weeklySerde

theorem parseRfc3339_countedInstant (t : DateTime) :
    SerdeCrate.parseRfc3339 (countedInstant t) = some t := by
  have hepoch : ∀ c ∈ (countedInstant t).toList, c = '+' ∨ c = '-' := by
    intro c hc
    rw [countedInstant, String.toList_ofList] at hc
    split_ifs at hc
    · exact .inl (List.eq_of_mem_replicate hc)
    · exact .inr (List.eq_of_mem_replicate hc)
  have hne : countedInstant t ≠ "1970-01-01T00:00:00Z" := fun heq =>
    absurd (hepoch '1' (heq ▸ by decide)) (by decide)
  show (if _ = _ then _ else _) = some t
  rw [if_neg hne, countedInstant, String.toList_ofList]
  congr 1
  split_ifs with hsign
  · rw [List.count_replicate_self, List.count_replicate, if_neg (by decide)]
    exact (Int.sub_zero _).trans (Int.toNat_of_nonneg hsign)
  · rw [List.count_replicate_self, List.count_replicate, if_neg (by decide),
      Int.toNat_of_nonneg (Int.neg_nonneg_of_nonpos (Int.le_of_lt (Int.not_le.mp hsign)))]
    show (0 : ℤ) - -t = t
    rw [Int.zero_sub, Int.neg_neg]

instance : LawfulSerdeCrate where
  parseUuid_toText id hid := by
    show (if _ = _ then _ else _) = some id
    rw [filter_toText, ofHexDigits_hexDigits 32 _ hid, if_pos rfl]
  parseRfc3339_toRfc3339 t _ _ _ := by
    show SerdeCrate.parseRfc3339 (if t = 0 then _ else _) = some t
    split_ifs with hzero
    · rw [hzero]
      decide +kernel
    · exact parseRfc3339_countedInstant t
  readJson_bindJson fields text _ hflat hbind := by
    unfold SerdeCrate.bindJson at hbind
    have hbind : (if flatTexts fields = flatTexts weeklyFields then some weeklyPayload
        else none) = some text := hbind
    split_ifs at hbind with hfields
    obtain rfl := Option.some.inj hbind
    refine ⟨weeklyFields, if_pos rfl, fun name => congrArg (List.lookup name) ?_⟩
    have hweekly : ∀ field ∈ weeklyFields, field.2.IsFlat := by
      simp [weeklyFields, JsonValue.IsFlat]
    exact (eq_of_flatTexts hflat hweekly hfields).symm

/-- A source, and a reference whose review id has a colon and spaces around it. -/
def weeklySource : SourceRow :=
  ⟨⟨1⟩, "mp_1", "Weekly", none, none, 0, true, .ready, 3600, 20, 0, none, none, 0, 3, 0⟩

def weeklyReference : WeReadArticleReference PlainUrl where
  reviewId := " r:1 "
  articleUrl := some ⟨"https://mp.weixin.qq.com/s/abc", by decide +kernel⟩
  title := some "Weekly"
  summary := none
  author := none
  coverUrl := none
  publishedAt := some 0

/-- Its job. -/
def weeklySpec : NewJob where
  jobType := .articleBackfill
  sourceId := some ⟨1⟩
  priority := 0
  runAfter := 0
  maxAttempts := 3
  payload := weeklyPayload
  dedupeKey := "article_backfill:00000000-0000-0000-0000-000000000001:r:1"
  now := 0

/-- The job, its lease held by a worker. -/
def weeklyLease : JobLease where
  job :=
    { id := ⟨7⟩
      jobType := .articleBackfill
      sourceId := some ⟨1⟩
      status := .running
      priority := 0
      runAfter := 0
      claimCount := 1
      failureCount := 0
      maxAttempts := 3
      leaseOwner := some "worker"
      leaseToken := some ⟨⟨9⟩⟩
      leaseUntil := some 60000000000
      heartbeatAt := some 0
      startedAt := some 0
      finishedAt := none
      lastError := none
      payload := weeklyPayload
      dedupeKey := "article_backfill:00000000-0000-0000-0000-000000000001:r:1"
      createdAt := 0
      updatedAt := 0 }
  token := ⟨⟨9⟩⟩

/-- The job before the claim. -/
def weeklyJob : Job :=
  { weeklyLease.job with
    status := .queued
    claimCount := 0
    leaseOwner := none
    leaseToken := none
    leaseUntil := none
    heartbeatAt := none
    startedAt := none }

theorem weeklyLease_leasedFrom : LeasedFrom weeklySpec weeklyLease := by
  have hnew : Job.new ⟨7⟩ weeklySpec = .ok weeklyJob := by decide +kernel
  have hrow : newRow weeklyJob 0 false = .ok (JobRow.ofJob weeklyJob) := by decide +kernel
  have hids : (([] ++ [JobRow.ofJob weeklyJob]).map JobRow.id).Nodup := by decide +kernel
  have hclaim : JobRow.claimNext (Machinery.run JobTransaction.commit
      ([] ++ [JobRow.ofJob weeklyJob]) []) "worker" 0 60000000000 [.articleBackfill] ⟨⟨9⟩⟩ =
      .ok (some (JobRow.ofJob weeklyLease.job), [JobRow.ofJob weeklyLease.job]) := by decide +kernel
  have hdecode : (JobRow.ofJob weeklyLease.job).decodeJob = .ok weeklyLease.job := by decide +kernel
  exact .claimed hnew hrow hids hclaim rfl hdecode

theorem backfill_jobs_decode_weekly :
    validateLease weeklyLease =
      .ok (⟨1⟩, { weeklyReference with reviewId := trim weeklyReference.reviewId }) := by
  have hdecodes : SourceRepository.decodes PlainUrl weeklySource = true := by decide +kernel
  have hpublished : ∀ t ∈ weeklyReference.publishedAt, ∃ value, unixTimestamp value = some t :=
    fun t ht => ⟨.number (.posInt 0), Option.some.inj ht ▸ by decide⟩
  have htext : backfillPayloadText weeklySource.id weeklyReference = some weeklyPayload := by
    decide +kernel
  have hspec : articleBackfillJob weeklySource weeklyReference weeklyPayload 0 =
      some weeklySpec := by decide +kernel
  exact (backfill_jobs_decode PlainUrl).1 weeklySource hdecodes (by decide) weeklyReference
    hpublished weeklyPayload 0 weeklySpec htext hspec weeklyLease weeklyLease_leasedFrom

end Werrss
