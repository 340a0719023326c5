import Mathlib.Data.List.Nodup
import Werrss.Persistence.ExternalBlobs

/-!
# Persistence/BlobCustody — what every task keeps to, whatever becomes of its requests

    remembered ──▸ put ──▸ row inserted            committed, or rolled back and still remembered
        ╰──▸ owed ──▸ deleted ┊ queued             never a row again

A task answers for a key as long as it remembers it, and then as long as it owes its deletion.  The
rules say which requests a task may make with what it has in hand; **every program keeps to them,
whatever fates its requests meet, and lets go of everything before it answers** — except a key that
could be neither deleted nor queued.
-/

open Machinery

namespace Werrss

namespace ExternalBlobs

open Calls

/-! ## The rules of a task -/

namespace Hand

/-- The key is remembered, and no commit has been asked for. -/
def Live (h : Hand) (key : Uuid) : Prop := h.settled = false ∧ key ∈ h.written

/-- Every key that is remembered has its row in the transaction. -/
def Complete (h : Hand) : Prop := ∀ key ∈ h.written, .insertRow key ∈ h.writes

/-- **What holds of every hand**: rows are inserted for keys that are remembered and put, a
savepoint separates the rows of the batch from those before it, and a transaction that has ended has
no writes. -/
structure Sound (h : Hand) : Prop where
  nodup : h.written.Nodup
  rows : ∀ key, .insertRow key ∈ h.writes → h.Live key ∧ key ∈ h.stored
  deletes : ∀ keys, .deleteRows keys ∈ h.writes → ∀ key ∈ keys, key ∈ h.deleted
  dequeues : ∀ key, .dequeueCleanup key ∈ h.writes → key ∈ h.deleted
  batch : ∀ n, h.savepoint = some n → n ≤ h.writes.length ∧ h.mark ≤ h.written.length ∧
    (∀ key, .insertRow key ∈ h.writes.take n ↔ key ∈ h.written.take h.mark) ∧
    ∀ key, .queueCleanup key ∈ h.writes → .queueCleanup key ∈ h.writes.take n
  ended : h.stage = .closed → h.writes = [] ∧ h.savepoint = none
  asked : h.guarded = true → h.settled = true → h.finished = true

/-- The fates that a task can tell apart: an identifier that is drawn is a new one. -/
def Fits (h : Hand) (request : Request) (fate : Fate) : Prop :=
  h.fits request fate = true ∧
    ∀ key, request = .draw → fate = .fresh key → key ∉ h.written

/-- **The requests a task may make**: it puts what it remembers, deletes what it has taken over, and
takes over what no row of its transaction is of; and it commits when every key it remembers has its
row. -/
def May (h : Hand) : Request → Prop
  | .draw => h.settled = false
  | .put key => h.Live key
  | .delete key => key ∈ h.owed ∨ key ∈ h.queued
  | .write (.insertRow key) => h.Live key ∧ key ∈ h.stored
  | .write (.deleteRows keys) => ∀ key ∈ keys, key ∈ h.deleted
  | .write (.queueCleanup key) => key ∈ h.owed ∧ h.savepoint = none
  | .write (.dequeueCleanup key) => key ∈ h.deleted
  | .autocommit (.queueCleanup key) => key ∈ h.owed
  | .autocommit _ => False
  | .begin => h.stage = .closed
  | .savepoint => h.stage = .live → h.mark = h.written.length ∧ h.Complete
  | .writtenLength => h.savepoint = none
  | .takeWritten start => h.settled = false ∧ h.savepoint = none ∧
    ∀ key, .insertRow key ∈ h.writes → key ∈ h.written.take start
  | .commit => (h.guarded = true → h.finished = true) ∧
    (h.stage = .live → h.settled = false → h.Complete)
  | _ => True

theorem Sound.congr {h h' : Hand} (hs : h.Sound) (hwritten : h'.written = h.written)
    (hwrites : h'.writes = h.writes) (hsavepoint : h'.savepoint = h.savepoint)
    (hsettled : h'.settled = h.settled) (hmark : h'.mark = h.mark)
    (hstored : ∀ key ∈ h.stored, key ∈ h'.stored) (hdeleted : ∀ key ∈ h.deleted, key ∈ h'.deleted)
    (hended : h'.stage = .closed → h.stage = .closed) (hguarded : h'.guarded = h.guarded)
    (hfinished : h.finished = true → h'.finished = true) : h'.Sound where
  nodup := hwritten ▸ hs.nodup
  rows key hkey := by
    obtain ⟨hlive, hput⟩ := hs.rows key (hwrites ▸ hkey)
    exact ⟨⟨hsettled ▸ hlive.1, hwritten ▸ hlive.2⟩, hstored key hput⟩
  deletes keys hkeys key hkey := hdeleted key (hs.deletes keys (hwrites ▸ hkeys) key hkey)
  dequeues key hkey := hdeleted key (hs.dequeues key (hwrites ▸ hkey))
  batch n hn := by
    rw [hwritten, hwrites, hmark]
    exact hs.batch n (hsavepoint ▸ hn)
  ended hover := by
    rw [hwrites, hsavepoint]
    exact hs.ended (hended hover)
  asked hguard hasked := hfinished (hs.asked (hguarded ▸ hguard) (hsettled ▸ hasked))

/-- A hand that differs in what soundness does not look at. -/
theorem Sound.alike {h h' : Hand} (hs : h.Sound) (hwritten : h'.written = h.written)
    (hwrites : h'.writes = h.writes) (hsavepoint : h'.savepoint = h.savepoint)
    (hsettled : h'.settled = h.settled) (hmark : h'.mark = h.mark) (hstored : h'.stored = h.stored)
    (hdeleted : h'.deleted = h.deleted) (hstage : h'.stage = h.stage)
    (hguarded : h'.guarded = h.guarded) (hfinished : h'.finished = h.finished) : h'.Sound :=
  hs.congr hwritten hwrites hsavepoint hsettled hmark (fun _ hkey => hstored ▸ hkey)
    (fun _ hkey => hdeleted ▸ hkey) (fun hover => hstage ▸ hover) hguarded
    fun hfinish => hfinished ▸ hfinish

/-- A hand without writes and without a savepoint. -/
theorem Sound.idle {h : Hand} (hnodup : h.written.Nodup) (hwrites : h.writes = [])
    (hnone : h.savepoint = none)
    (hasked : h.guarded = true → h.settled = true → h.finished = true) : h.Sound where
  nodup := hnodup
  rows key hkey := by
    rw [hwrites] at hkey
    cases hkey
  deletes keys hkeys := by
    rw [hwrites] at hkeys
    cases hkeys
  dequeues key hkey := by
    rw [hwrites] at hkey
    cases hkey
  batch n hn := by
    rw [hnone] at hn
    cases hn
  ended _ := ⟨hwrites, hnone⟩
  asked := hasked

theorem Sound.close {h : Hand} (hs : h.Sound) : h.close.Sound := .idle hs.nodup rfl rfl hs.asked

theorem Sound.restored {h : Hand} (hs : h.Sound) : h.restored.Sound where
  nodup := hs.nodup
  rows key hkey := hs.rows key (List.mem_of_mem_take hkey)
  deletes keys hkeys := hs.deletes keys (List.mem_of_mem_take hkeys)
  dequeues key hkey := hs.dequeues key (List.mem_of_mem_take hkey)
  batch _ hn := by cases hn
  ended hover := by cases hover
  asked := hs.asked

/-- A statement that aborts its transaction does not end it. -/
theorem failed_closed {h : Hand} {aborts : Bool} (hover : (h.failed aborts).stage = .closed) :
    h.stage = .closed := by
  by_contra hstage
  simp only [failed] at hover
  split_ifs at hover
  exact hstage hover

theorem Sound.failed {h : Hand} (hs : h.Sound) (aborts : Bool) : (h.failed aborts).Sound :=
  hs.congr rfl rfl rfl rfl rfl (fun _ hkey => hkey) (fun _ hkey => hkey) failed_closed rfl
    fun hfinished => hfinished

theorem Sound.miss {h : Hand} (hs : h.Sound) (change : BlobWrite) : (h.miss change).Sound :=
  hs.congr rfl rfl rfl rfl rfl (fun _ hkey => hkey) (fun _ hkey => hkey) (fun hover => hover) rfl
    fun hfinished => hfinished

/-- **A statement of a live transaction.** -/
theorem Sound.write {h : Hand} {change : BlobWrite} (hs : h.Sound) (hmay : h.May (.write change))
    (hlive : h.stage = .live) :
    Sound { h.handOver change with writes := h.writes ++ [change] } where
  nodup := hs.nodup
  rows key hkey := by
    rcases List.mem_append.mp hkey with hkey | hkey
    · exact hs.rows key hkey
    · obtain rfl := List.mem_singleton.mp hkey
      exact hmay
  deletes keys hkeys := by
    rcases List.mem_append.mp hkeys with hkeys | hkeys
    · exact hs.deletes keys hkeys
    · obtain rfl := List.mem_singleton.mp hkeys
      exact hmay
  dequeues key hkey := by
    rcases List.mem_append.mp hkey with hkey | hkey
    · exact hs.dequeues key hkey
    · obtain rfl := List.mem_singleton.mp hkey
      exact hmay
  batch n hn := by
    have hn : h.savepoint = some n := hn
    obtain ⟨hn', hmark, hrows, hcleanups⟩ := hs.batch n hn
    have htake : (h.writes ++ [change]).take n = h.writes.take n :=
      List.take_append_of_le_length hn'
    refine ⟨?_, hmark, fun key => ?_, fun key hkey => ?_⟩
    · rw [List.length_append]
      exact Nat.le_add_right_of_le hn'
    · rw [htake]
      exact hrows key
    · rw [htake]
      rcases List.mem_append.mp hkey with hkey | hkey
      · exact hcleanups key hkey
      · obtain rfl := List.mem_singleton.mp hkey
        have hnone : h.savepoint = none := hmay.2
        have hn : h.savepoint = some n := hn
        rw [hn] at hnone
        cases hnone
  ended hover := by
    have hover : h.stage = .closed := hover
    rw [hlive] at hover
    cases hover
  asked := hs.asked

/-- **Soundness is kept** by every request a task may make, whatever becomes of it. -/
theorem Sound.after {h : Hand} {request : Request} {fate : Fate} (hs : h.Sound)
    (hmay : h.May request) (hfits : h.Fits request fate) : (h.after request fate).Sound := by
  cases request with
  | statement => cases fate with
    | refused aborts => exact hs.failed aborts
    | _ => exact hs
  | lookup => cases fate with
    | refused aborts => exact hs.failed aborts
    | _ => exact hs
  | write change => cases fate with
    | served => exact hs.write hmay (of_decide_eq_true hfits.1)
    | refused aborts => exact (hs.failed aborts).miss change
    | _ => exact hs.miss change
  | autocommit change => cases fate with
    | served => exact hs.alike rfl rfl rfl rfl rfl rfl rfl rfl rfl rfl
    | _ => exact hs.miss change
  | cleanupQueue => cases fate with
    | refused aborts => exact hs.failed aborts
    | keys keys => exact hs.alike rfl rfl rfl rfl rfl rfl rfl rfl rfl rfl
    | _ => exact hs
  | drainDeletions => exact hs
  | begin => cases fate with
    | served => exact .idle hs.nodup (hs.ended hmay).1 (hs.ended hmay).2 hs.asked
    | _ => exact hs.alike rfl rfl rfl rfl rfl rfl rfl rfl rfl rfl
  | savepoint => cases fate with
    | served =>
      have hlive : h.stage = .live := of_decide_eq_true hfits.1
      obtain ⟨hmark, hcomplete⟩ := hmay hlive
      refine ⟨hs.nodup, hs.rows, hs.deletes, hs.dequeues, fun n hn => ?_, fun hover => ?_,
        hs.asked⟩
      · obtain rfl := Option.some.inj hn
        refine ⟨le_rfl, hmark.le, fun key => ?_, fun key hkey => ?_⟩
        · change _ ∈ h.writes.take h.writes.length ↔ key ∈ h.written.take h.mark
          rw [List.take_length, hmark, List.take_length]
          exact ⟨fun hkey => (hs.rows key hkey).1.2, hcomplete key⟩
        · change _ ∈ h.writes.take h.writes.length
          rw [List.take_length]
          exact hkey
      · have hover : h.stage = .closed := hover
        rw [hlive] at hover
        cases hover
    | refused aborts => exact hs.failed aborts
    | _ => exact hs
  | release => cases fate with
    | served =>
      refine ⟨hs.nodup, hs.rows, hs.deletes, hs.dequeues, fun n hn => ?_, fun hover => ?_,
        hs.asked⟩
      · cases hn
      · exact ⟨(hs.ended hover).1, rfl⟩
    | refused took => cases took with
      | true => exact hs.restored
      | false => exact hs.close
    | _ => exact hs.close
  | rollbackTo => cases fate with
    | served => exact hs.restored
    | _ => exact hs.close
  | commit => exact .idle hs.nodup rfl rfl fun hguarded _ => hmay.1 hguarded
  | rollback => exact hs.close
  | put key => cases fate with
    | served =>
      exact hs.congr rfl rfl rfl rfl rfl (fun _ h => List.mem_cons_of_mem _ h) (fun _ h => h)
        (fun h => h) rfl fun h => h
    | _ => exact hs
  | delete key => cases fate with
    | served =>
      exact hs.congr rfl rfl rfl rfl rfl (fun _ h => h) (fun _ h => List.mem_cons_of_mem _ h)
        (fun h => h) rfl fun h => h
    | _ => exact hs
  | draw => cases fate with
    | fresh key =>
      have hkey : key ∉ h.written := hfits.2 key rfl rfl
      refine ⟨?_, fun key' hkey' => ?_, hs.deletes, hs.dequeues, fun n hn => ?_, hs.ended,
        hs.asked⟩
      · exact List.nodup_append.mpr ⟨hs.nodup, List.nodup_singleton key, fun a ha b hb hab =>
          hkey (List.mem_singleton.mp hb ▸ hab ▸ ha)⟩
      · obtain ⟨hlive, hput⟩ := hs.rows key' hkey'
        exact ⟨⟨hlive.1, List.mem_append_left _ hlive.2⟩, hput⟩
      · obtain ⟨hn', hmark, hrows, hcleanups⟩ := hs.batch n hn
        refine ⟨hn', ?_, fun key' => ?_, hcleanups⟩
        · change h.mark ≤ (h.written ++ [key]).length
          rw [List.length_append]
          exact Nat.le_add_right_of_le hmark
        · change _ ↔ key' ∈ (h.written ++ [key]).take h.mark
          rw [List.take_append_of_le_length hmark]
          exact hrows key'
    | _ => exact hs
  | writtenLength => cases fate with
    | count length =>
      have hnone : h.savepoint = none := hmay
      refine ⟨hs.nodup, hs.rows, hs.deletes, hs.dequeues, fun n hn => ?_, hs.ended,
        hs.asked⟩
      have hn : h.savepoint = some n := hn
      rw [hnone] at hn
      cases hn
    | _ => exact hs
  | takeWritten start => cases fate with
    | keys keys =>
      obtain ⟨hsettled, hnone, hrows⟩ := hmay
      refine ⟨hs.nodup.sublist (List.take_sublist _ _), fun key hkey => ?_, hs.deletes, hs.dequeues,
        fun n hn => ?_, hs.ended,
        hs.asked⟩
      · exact ⟨⟨hsettled, hrows key hkey⟩, (hs.rows key hkey).2⟩
      · have hn : h.savepoint = some n := hn
        rw [hnone] at hn
        cases hn
    | _ => exact hs
  | finish =>
    exact hs.congr rfl rfl rfl rfl rfl (fun _ h => h) (fun _ h => h) (fun h => h) rfl
      fun _ => rfl

end Hand

open Hand

variable {A B : Type} {h : Hand}

/-! ## What programs keep to -/

/-- **A program keeps to the rules** from a hand on, and answers with `Q`. -/
abbrev Keeping (Q : Hand → A → Prop) (h : Hand) (p : Program A) : Prop :=
  Keeps Sound Fits Hand.after May Q h p

theorem keeping_attempt {Q : Hand → Bool → Prop} {request : Request} {next : Program Bool}
    (hmay : h.Sound → h.May request)
    (hserved : h.Sound → h.Fits request .served →
      Keeping Q (h.after request .served) next)
    (hfailed : ∀ fate, fate ≠ .served → h.Sound → Q (h.after request fate) false) :
    Keeping Q h (attempt request next) := by
  intro hs
  refine ⟨hmay hs, fun fate hfits => ?_⟩
  change Keeping Q (h.after request fate) (if fate = .served then next else .answer false)
  split_ifs with hfate
  · subst hfate
    exact hserved hs hfits
  · exact fun _ => hfailed fate hfate hs

theorem keeping_andThen {P Q : Hand → Bool → Prop} {p next : Program Bool}
    (hp : Keeping P h p) (hnext : ∀ h, P h true → Keeping Q h next)
    (hfailed : ∀ h, P h false → Q h false) : Keeping Q h (andThen p next) := by
  refine hp.bind fun known succeeded hP => ?_
  cases succeeded with
  | true => exact hnext known hP
  | false => exact fun _ => hfailed known hP

namespace Hand

/-- Nothing is owed but these keys, unless one has got lost. -/
def Owes (h : Hand) (keys : List Uuid) : Prop := h.missed = true ∨ ∀ key ∈ h.owed, key ∈ keys

/-- These keys, and no others, have been taken over. -/
structure Taken (h : Hand) (keys : List Uuid) : Prop where
  nodup : keys.Nodup
  owed : ∀ key ∈ keys, key ∈ h.owed
  only : h.Owes keys

/-- A unit of work between two of its operations. -/
structure Open (h : Hand) : Prop where
  unfinished : h.finished = false
  settled : h.settled = false
  savepoint : h.savepoint = none
  complete : h.stage ≠ .closed → h.Complete

/-- The task has let go of everything: what it remembers is left to its commit, or to its drop. -/
def Done (h : Hand) : Prop :=
  h.missed = true ∨ h.owed = [] ∧
    (h.settled = true ∨ h.written = [] ∨ h.guarded = true ∧ h.finished = false)

theorem Owes.nil {h : Hand} (howes : h.Owes []) : h.missed = true ∨ h.owed = [] :=
  howes.imp_right fun howed => List.eq_nil_iff_forall_not_mem.mpr fun key hkey =>
    absurd (howed key hkey) List.not_mem_nil

theorem Taken.perm {keys keys' : List Uuid} (ht : h.Taken keys) (hperm : keys.Perm keys') :
    h.Taken keys' :=
  ⟨hperm.nodup_iff.mp ht.nodup, fun key hkey => ht.owed key (hperm.mem_iff.mpr hkey),
    ht.only.imp_right fun howed key hkey => hperm.mem_iff.mp (howed key hkey)⟩

/-- A key that has been dealt with is not owed any more. -/
theorem Taken.tail {h h' : Hand} {key : Uuid} {keys : List Uuid} (ht : h.Taken (key :: keys))
    (howed : h'.owed = h.owed.filter (· ≠ key)) (hmissed : h'.missed = h.missed) :
    h'.Taken keys := by
  obtain ⟨hkey, hnodup⟩ := List.nodup_cons.mp ht.nodup
  refine ⟨hnodup, fun other hother => ?_, ?_⟩
  · rw [howed]
    refine List.mem_filter.mpr ⟨ht.owed other (List.mem_cons_of_mem _ hother), ?_⟩
    exact decide_eq_true fun heq => hkey (heq ▸ hother)
  · refine ht.only.imp (fun hmiss => hmissed ▸ hmiss) fun hkeys other hother => ?_
    rw [howed] at hother
    obtain ⟨hmem, hne⟩ := List.mem_filter.mp hother
    exact (List.mem_cons.mp (hkeys other hmem)).resolve_left (of_decide_eq_true hne)

/-- A key that could not be queued: whatever is owed, one has got lost. -/
theorem Taken.missed {h h' : Hand} {key : Uuid} {keys : List Uuid} (ht : h.Taken (key :: keys))
    (howed : h'.owed = h.owed) (hmissed : h'.missed = true) : h'.Taken keys :=
  ⟨(List.nodup_cons.mp ht.nodup).2,
    fun other hother => howed ▸ ht.owed other (List.mem_cons_of_mem _ hother), .inl hmissed⟩

end Hand

/-! ## Cleaning up -/

/-- The requests of a cleanup. -/
def Request.Cleans : Request → Prop
  | .delete _ => True
  | .write (.queueCleanup _) => True
  | .write (.deleteRows _) => True
  | .autocommit (.queueCleanup _) => True
  | _ => False

/-- A property of hands that a cleanup keeps. -/
def Lasting (R : Hand → Prop) : Prop :=
  ∀ h request fate, request.Cleans → R h → R (h.after request fate)

/-- **What a cleanup leaves as it is.** -/
structure Cleaned (h h' : Hand) : Prop where
  guarded : h'.guarded = h.guarded
  written : h'.written = h.written
  writes : ∀ change ∈ h.writes, change ∈ h'.writes
  savepoint : h'.savepoint = h.savepoint
  stage : h'.stage = .closed ↔ h.stage = .closed
  finished : h'.finished = h.finished
  settled : h'.settled = h.settled
  deleted : ∀ key ∈ h.deleted, key ∈ h'.deleted

theorem failed_stage {aborts : Bool} : (h.failed aborts).stage = .closed ↔ h.stage = .closed := by
  refine ⟨failed_closed, fun hover => ?_⟩
  simp only [Hand.failed]
  rw [hover, if_neg]
  exact fun hlive => by cases hlive.2

theorem cleaned_after {request : Request} (fate : Fate) (hcleans : request.Cleans) :
    Cleaned h (h.after request fate) := by
  have hsame : Cleaned h h :=
    ⟨rfl, rfl, fun _ h => h, rfl, Iff.rfl, rfl, rfl, fun _ h => h⟩
  cases request with
  | delete key => cases fate with
    | served => exact ⟨rfl, rfl, fun _ h => h, rfl, Iff.rfl, rfl, rfl,
        fun _ h => List.mem_cons_of_mem _ h⟩
    | _ => exact hsame
  | write change => cases fate with
    | served => exact ⟨rfl, rfl, fun _ h => List.mem_append_left _ h, rfl, Iff.rfl, rfl, rfl,
        fun _ h => h⟩
    | refused aborts => exact ⟨rfl, rfl, fun _ h => h, rfl, failed_stage, rfl, rfl, fun _ h => h⟩
    | _ => exact ⟨rfl, rfl, fun _ h => h, rfl, Iff.rfl, rfl, rfl, fun _ h => h⟩
  | autocommit change => cases fate <;>
      exact ⟨rfl, rfl, fun _ h => h, rfl, Iff.rfl, rfl, rfl, fun _ h => h⟩
  | _ => exact hcleans.elim

theorem lasting_open : Lasting Open := by
  intro h request fate hcleans hopen
  have hclean := cleaned_after (h := h) fate hcleans
  refine ⟨hclean.finished ▸ hopen.unfinished, hclean.settled ▸ hopen.settled,
    hclean.savepoint ▸ hopen.savepoint, fun hstage => ?_⟩
  intro key hkey
  refine hclean.writes _ (hopen.complete (fun hover => hstage (hclean.stage.mpr hover)) key ?_)
  exact hclean.written ▸ hkey

/-- One pass deletes keys or leaves them over, with others that are left over already. -/
theorem keeping_deletePass_append {R : Hand → Prop} (hR : Lasting R) :
    ∀ {keys others : List Uuid} {h : Hand}, h.Taken (keys ++ others) → R h →
      Keeping (fun h failed => h.Taken (failed ++ others) ∧ R h) h (deletePass keys)
  | [], _, _, ht, hr => fun _ => ⟨ht, hr⟩
  | key :: keys, others, h, ht, hr => by
    intro _
    refine ⟨.inl (ht.owed key List.mem_cons_self), fun fate _ => ?_⟩
    have hr' : R (h.after (.delete key) fate) := hR h (.delete key) fate trivial hr
    by_cases hfate : fate = .served
    · subst hfate
      have ht' : (h.after (.delete key) .served).Taken (keys ++ others) := ht.tail rfl rfl
      refine (keeping_deletePass_append hR ht' hr').bind fun known failed hfailed => ?_
      rw [if_pos rfl]
      exact fun _ => hfailed
    · have hsame : h.after (.delete key) fate = h := by
        cases fate with
        | served => exact absurd rfl hfate
        | _ => rfl
      rw [hsame] at hr' ⊢
      have ht' : h.Taken (keys ++ key :: others) := ht.perm List.perm_middle.symm
      refine (keeping_deletePass_append hR ht' hr').bind fun known failed hfailed => ?_
      rw [if_neg hfate]
      exact fun _ => ⟨hfailed.1.perm List.perm_middle, hfailed.2⟩

/-- **One pass deletes keys or leaves them over.** -/
theorem keeping_deletePass {R : Hand → Prop} (hR : Lasting R) {keys : List Uuid}
    (ht : h.Taken keys) (hr : R h) :
    Keeping (fun h failed => h.Taken failed ∧ R h) h (deletePass keys) := by
  have ht' : h.Taken (keys ++ []) := (List.append_nil keys).symm ▸ ht
  have hpass := keeping_deletePass_append hR ht' hr
  refine hpass.mono fun known failed _ hfailed => ?_
  exact ⟨List.append_nil failed ▸ hfailed.1, hfailed.2⟩

/-- Keys are queued one by one, until one cannot be. -/
theorem keeping_queueEach {R : Hand → Prop} (hR : Lasting R) :
    ∀ {keys : List Uuid} {h : Hand}, h.Taken keys → R h →
      Keeping (fun h _ => h.Owes [] ∧ R h) h (queueEach keys)
  | [], _, ht, hr => fun _ => ⟨ht.only, hr⟩
  | key :: keys, h, ht, hr => by
    have hr' (fate : Fate) : R (h.after (.autocommit (.queueCleanup key)) fate) :=
      hR h _ fate trivial hr
    refine keeping_attempt (fun _ => ht.owed key List.mem_cons_self) (fun _ _ => ?_) ?_
    · exact keeping_queueEach hR (ht.tail rfl rfl) (hr' .served)
    · intro fate hfate _
      refine ⟨.inl ?_, hr' fate⟩
      cases fate with
      | served => exact absurd rfl hfate
      | _ => rfl

/-- What is taken out of the memory of a task is all it owes. -/
theorem taken_takeWritten {start : ℕ} (hs : h.Sound) (howes : h.Owes []) :
    (h.after (.takeWritten start) (.keys (h.written.drop start))).Taken (h.written.drop start) where
  nodup := hs.nodup.sublist (List.drop_sublist _ _)
  owed _ hkey := List.mem_append_right _ hkey
  only := howes.imp_right fun howed key hkey =>
    (List.mem_append.mp hkey).resolve_left fun hkey => List.not_mem_nil (howed key hkey)

/-- A task takes keys out of its memory, and goes on with these. -/
theorem keeping_takeWritten {Q : Hand → Bool → Prop} {start : ℕ} {next : List Uuid → Program Bool}
    (hmay : h.Sound → h.May (.takeWritten start))
    (hnext : h.Sound → Keeping Q (h.after (.takeWritten start) (.keys (h.written.drop start)))
      (next (h.written.drop start))) :
    Keeping Q h (.call (.takeWritten start) fun
      | .keys keys => next keys
      | _ => .answer false) := by
  intro hs
  refine ⟨hmay hs, fun fate hfits => ?_⟩
  obtain rfl : fate = .keys (h.written.drop start) := of_decide_eq_true hfits.1
  exact hnext hs

/-- **`cleanup_external_blobs` leaves nothing behind** that it could delete or queue. -/
theorem keeping_cleanupExternalBlobs {R : Hand → Prop} (hR : Lasting R) (hstage : h.stage = .closed)
    (hsettled : h.settled = false) (howes : h.Owes [])
    (hr : R (h.after (.takeWritten 0) (.keys (h.written.drop 0)))) :
    Keeping (fun h _ => h.Owes [] ∧ R h) h cleanupExternalBlobs := by
  refine keeping_takeWritten (fun hs => ?_) fun hs => ?_
  · obtain ⟨hwrites, hnone⟩ := hs.ended hstage
    refine ⟨hsettled, hnone, fun key hkey => ?_⟩
    rw [hwrites] at hkey
    cases hkey
  · refine (keeping_deletePass hR (taken_takeWritten hs howes) hr).bind fun h₁ remaining hleft => ?_
    obtain ⟨ht, hr⟩ := hleft
    cases remaining with
    | nil => exact fun _ => ⟨ht.only, hr⟩
    | cons key keys =>
      refine (keeping_deletePass hR ht hr).bind fun h₂ failed hleft => ?_
      obtain ⟨ht, hr⟩ := hleft
      cases failed with
      | nil => exact fun _ => ⟨ht.only, hr⟩
      | cons key keys => exact keeping_queueEach hR ht hr

/-- The loop of `cleanup_new_blobs`. -/
theorem keeping_deleteNewBlobs : ∀ {keys : List Uuid} {R : Hand → Prop} {h : Hand},
    Lasting R → (∀ h, R h → h.savepoint = none) → h.Taken keys → R h →
      Keeping (fun h deleteFailed => h.Owes [] ∧ R h ∧
        (deleteFailed = false → ∀ key ∈ keys, key ∈ h.deleted)) h (deleteNewBlobs keys)
  | [], _, _, _, _, ht, hr => fun _ => ⟨ht.only, hr, fun _ _ hkey => by cases hkey⟩
  | key :: keys, R, h, hR, hnone, ht, hr => by
    intro _
    refine ⟨.inl (ht.owed key List.mem_cons_self), fun fate _ => ?_⟩
    have hr' : R (h.after (.delete key) fate) := hR h (.delete key) fate trivial hr
    change Keeping _ _ (if fate = .served then _ else _)
    split_ifs with hfate
    · subst hfate
      have hR' : Lasting fun h => R h ∧ key ∈ h.deleted := fun h request fate hcleans hboth =>
        ⟨hR h request fate hcleans hboth.1, (cleaned_after fate hcleans).deleted key hboth.2⟩
      have ht' : (h.after (.delete key) .served).Taken keys := ht.tail rfl rfl
      refine (keeping_deleteNewBlobs hR' (fun h hboth => hnone h hboth.1) ht'
        ⟨hr', List.mem_cons_self⟩).mono fun known failed _ hkept => ?_
      obtain ⟨howes, ⟨hr, hkey⟩, hdeleted⟩ := hkept
      refine ⟨howes, hr, fun hfailed other hother => ?_⟩
      rcases List.mem_cons.mp hother with rfl | hother
      · exact hkey
      · exact hdeleted hfailed other hother
    · have hsame : h.after (.delete key) fate = h := by
        cases fate with
        | served => exact absurd rfl hfate
        | _ => rfl
      rw [hsame]
      intro _
      refine ⟨⟨ht.owed key List.mem_cons_self, hnone h hr⟩, fun fate _ => ?_⟩
      have hr'' : R (h.after (.write (.queueCleanup key)) fate) := hR h _ fate trivial hr
      have ht' : (h.after (.write (.queueCleanup key)) fate).Taken keys := by
        cases fate with
        | served => exact ht.tail rfl rfl
        | _ => exact ht.missed rfl rfl
      refine (keeping_deleteNewBlobs hR hnone ht' hr'').bind fun known failed hkept => ?_
      intro _
      refine ⟨hkept.1, hkept.2.1, fun hfalse => ?_⟩
      cases hfalse

/-- **`cleanup_new_blobs`** deletes what a batch wrote, or queues it in the transaction. -/
theorem keeping_cleanupNewBlobs {keys : List Uuid} {R : Hand → Prop} (hR : Lasting R)
    (hnone : ∀ h, R h → h.savepoint = none) (ht : h.Taken keys) (hr : R h) :
    Keeping (fun h _ => h.Owes [] ∧ R h) h (cleanupNewBlobs keys) := by
  cases keys with
  | nil => exact fun _ => ⟨ht.only, hr⟩
  | cons key keys =>
    refine (keeping_deleteNewBlobs hR hnone ht hr).bind fun known deleteFailed hkept => ?_
    obtain ⟨howes, hr, hdeleted⟩ := hkept
    cases deleteFailed with
    | true => exact fun _ => ⟨howes, hr⟩
    | false =>
      intro _
      refine ⟨hdeleted rfl, fun fate _ => fun _ => ⟨?_, hR known _ fate trivial hr⟩⟩
      cases fate <;> exact howes

/-- Keys that are queued together are queued when the transaction commits. -/
theorem keeping_queueTogether :
    ∀ {keys : List Uuid} {h : Hand}, h.Taken keys → h.written = [] → h.savepoint = none →
      h.guarded = false → Keeping (fun h _ => h.Done) h (queueTogether keys)
  | [], h, ht, hwritten, _, hguarded => by
    refine keeping_attempt (fun _ => ⟨fun h => ?_, fun _ _ key hkey => ?_⟩) (fun _ _ _ => ?_) ?_
    · rw [hguarded] at h
      cases h
    · rw [hwritten] at hkey
      cases hkey
    · exact ht.only.nil.imp_right fun howed => ⟨howed, .inl rfl⟩
    · intro fate _ _
      exact ht.only.nil.imp_right fun howed => ⟨howed, .inl rfl⟩
  | key :: keys, h, ht, hwritten, hnone, hguarded => by
    refine keeping_attempt (fun _ => ⟨ht.owed key List.mem_cons_self, hnone⟩) (fun _ _ => ?_) ?_
    · exact keeping_queueTogether (ht.tail rfl rfl) hwritten hnone hguarded
    · intro fate hfate _
      cases fate with
      | served => exact absurd rfl hfate
      | _ => exact .inl rfl

/-- **`cleanup_blob_ids_after_rollback`.** -/
theorem keeping_cleanupBlobIdsAfterRollback {keys : List Uuid} (ht : h.Taken keys)
    (hwritten : h.written = []) (hnone : h.savepoint = none) (hguarded : h.guarded = false)
    (hstage : h.stage = .closed) :
    Keeping (fun h _ => h.Done) h (cleanupBlobIdsAfterRollback keys) := by
  have hR : Lasting fun h => h.written = [] ∧ h.savepoint = none ∧ h.guarded = false
      ∧ h.stage = .closed := fun h request fate hcleans hr => by
    have hclean := cleaned_after (h := h) fate hcleans
    exact ⟨hclean.written.trans hr.1, hclean.savepoint.trans hr.2.1, hclean.guarded.trans hr.2.2.1,
      hclean.stage.mpr hr.2.2.2⟩
  refine (keeping_deletePass hR ht ⟨hwritten, hnone, hguarded, hstage⟩).bind
    fun h₁ failed hleft => ?_
  obtain ⟨ht, hwritten, hnone, hguarded, hstage⟩ := hleft
  cases failed with
  | nil => exact fun _ => ht.only.nil.imp_right fun howed => ⟨howed, .inr (.inl hwritten)⟩
  | cons key keys =>
    refine keeping_attempt (fun _ => hstage) (fun _ _ => ?_) ?_
    · exact keeping_queueTogether ⟨ht.nodup, ht.owed, ht.only⟩ hwritten hnone hguarded
    · intro fate hfate _
      have howed : h₁.owed ≠ [] := List.ne_nil_of_mem (ht.owed key List.mem_cons_self)
      have hmissed : (h₁.missed || !h₁.owed.isEmpty) = true := by
        rw [Bool.or_eq_true, Bool.not_eq_true', List.isEmpty_eq_false_iff]
        exact .inr howed
      cases fate with
      | served => exact absurd rfl hfate
      | _ => exact .inl hmissed

/-! ## Storing -/

namespace Hand

/-- A unit of work that is ready for its next operation. -/
structure Ready (h : Hand) : Prop where
  guarded : h.guarded = true
  opened : h.Open
  owes : h.Owes []

/-- **While a batch is stored** that began at `start`; where it is `whole`, every key has its row.
-/
structure Storing (start : ℕ) (h : Hand) (whole : Bool) : Prop where
  unfinished : h.finished = false
  settled : h.settled = false
  mark : h.mark = start
  owes : h.Owes []
  complete : whole = true → h.stage ≠ .closed → h.Complete

theorem Storing.failed {start : ℕ} {whole : Bool} (hb : Storing start h whole) (aborts : Bool) :
    Storing start (h.failed aborts) whole :=
  ⟨hb.unfinished, hb.settled, hb.mark, hb.owes, fun hwhole hstage => hb.complete hwhole
    fun hover => hstage (failed_stage.mpr hover)⟩

theorem Storing.broken {start : ℕ} {whole : Bool} (hb : Storing start h whole) :
    Storing start h false :=
  ⟨hb.unfinished, hb.settled, hb.mark, hb.owes, fun hfalse => by cases hfalse⟩

end Hand

/-- A unit of work stays one. -/
theorem after_guarded (h : Hand) (request : Request) (fate : Fate) :
    (h.after request fate).guarded = h.guarded := by
  cases request <;> cases fate <;> first | rfl | (rename_i took; cases took <;> rfl)

/-- **A statement of a property that outlives aborted transactions.** -/
theorem keeping_statement {Q : Hand → Bool → Prop} {next : Program Bool}
    (hserved : h.Sound → h.stage = .live → Keeping Q h next) (hq : Q h false)
    (hfailed : ∀ aborts, Q (h.failed aborts) false) :
    Keeping Q h (attempt .statement next) := by
  refine keeping_attempt (fun _ => trivial) (fun hs hfits => ?_) fun fate hfate _ => ?_
  · exact hserved hs (of_decide_eq_true hfits.1)
  · cases fate with
    | served => exact absurd rfl hfate
    | refused aborts => exact hfailed aborts
    | _ => exact hq

/-- A lookup that finds, or finds nothing, or fails. -/
theorem keeping_lookup {Q : Hand → Bool → Prop} {found absent : Program Bool}
    (hfound : h.Sound → h.stage = .live → Keeping Q h found)
    (habsent : h.Sound → h.stage = .live → Keeping Q h absent) (hq : Q h false)
    (hfailed : ∀ aborts, Q (h.failed aborts) false) :
    Keeping Q h (.call .lookup fun
      | .served => found
      | .absent => absent
      | _ => .answer false) := by
  intro hs
  refine ⟨trivial, fun fate hfits => ?_⟩
  cases fate with
  | served => exact hfound hs (of_decide_eq_true hfits.1)
  | absent => exact habsent hs (of_decide_eq_true hfits.1)
  | refused aborts => exact fun _ => hfailed aborts
  | _ => exact fun _ => hq

/-- **`insert_blob`**: where it succeeds, the key it has drawn has its row. -/
theorem keeping_insertBlob {start : ℕ} (hb : Storing start h true) :
    Keeping (fun h inserted => Storing start h inserted) h insertBlob := by
  refine keeping_statement (fun _ hlive => ?_) hb.broken fun aborts => hb.broken.failed aborts
  have hcomplete : h.Complete := hb.complete rfl fun hover => by
    rw [hlive] at hover
    cases hover
  intro hs
  refine ⟨hb.settled, fun fate hfits => ?_⟩
  cases fate with
  | fresh key =>
    have hlast {l : List Uuid} : key ∈ l ++ [key] := List.mem_append_right _ List.mem_cons_self
    have hdrawn : Storing start (h.after .draw (.fresh key)) false :=
      ⟨hb.unfinished, hb.settled, hb.mark, hb.owes, fun hfalse => by cases hfalse⟩
    refine keeping_attempt (fun _ => ⟨hb.settled, hlast⟩) (fun _ _ => ?_) fun fate hfate _ => ?_
    · refine keeping_attempt (fun _ => ⟨⟨hb.settled, hlast⟩, List.mem_cons_self⟩)
        (fun _ _ => ?_) fun fate hfate _ => ?_
      · refine keeping_statement (fun _ _ => fun _ => ?_) ?_ fun aborts => ?_
        · refine ⟨hb.unfinished, hb.settled, hb.mark, hb.owes, fun _ _ key' hkey' => ?_⟩
          rcases List.mem_append.mp hkey' with hkey' | hkey'
          · exact List.mem_append_left _ (hcomplete key' hkey')
          · obtain rfl := List.mem_singleton.mp hkey'
            exact List.mem_append_right _ List.mem_cons_self
        · exact ⟨hb.unfinished, hb.settled, hb.mark, hb.owes, fun hfalse => by cases hfalse⟩
        · exact ⟨hb.unfinished, hb.settled, hb.mark, hb.owes, fun hfalse => by cases hfalse⟩
      · cases fate with
        | served => exact absurd rfl hfate
        | _ => exact ⟨hb.unfinished, hb.settled, hb.mark, hb.owes, fun hfalse => by cases hfalse⟩
    · cases fate with
      | served => exact absurd rfl hfate
      | _ => exact hdrawn
  | _ => exact fun _ => hb.broken

/-- **`store_one`.** -/
theorem keeping_storeOne {start : ℕ} (hb : Storing start h true) :
    Keeping (fun h stored => Storing start h stored) h storeOne := by
  have hend {h : Hand} (hb : Storing start h true) :
      Keeping (fun h stored => Storing start h stored) h (attempt .statement (.answer true)) :=
    keeping_statement (fun _ _ _ => hb) hb.broken fun aborts => hb.broken.failed aborts
  refine keeping_statement (fun _ _ => ?_) hb.broken fun aborts => hb.broken.failed aborts
  refine keeping_lookup (fun _ _ => hend hb) (fun _ _ => ?_) hb.broken
    fun aborts => hb.broken.failed aborts
  exact keeping_andThen (keeping_insertBlob hb) (fun _ hb => hend hb) fun _ hb => hb

/-- **`store_inputs`**, by induction on the inputs. -/
theorem keeping_storeInputs {start : ℕ} : ∀ (inputs : ℕ) {h : Hand}, Storing start h true →
    Keeping (fun h stored => Storing start h stored) h (storeInputs inputs)
  | 0, _, hb => fun _ => hb
  | inputs + 1, h, hb => by
    refine keeping_statement (fun _ _ => ?_) hb.broken fun aborts => hb.broken.failed aborts
    refine keeping_andThen (keeping_storeOne hb) (fun h₁ hb => ?_) fun _ hb => hb
    refine keeping_statement (fun _ _ => ?_) hb.broken fun aborts => hb.broken.failed aborts
    exact keeping_storeInputs inputs hb

/-- **A batch that is given up**: the rows that are left are those of the keys before it. -/
theorem keeping_abandonBatch {start : ℕ} (hguarded : h.guarded = true)
    (hunfinished : h.finished = false) (hsettled : h.settled = false) (hnone : h.savepoint = none)
    (howes : h.Owes [])
    (hrows : ∀ key, .insertRow key ∈ h.writes → key ∈ h.written.take start)
    (hcomplete : h.stage ≠ .closed → ∀ key ∈ h.written.take start, .insertRow key ∈ h.writes) :
    Keeping (fun h _ => h.Ready) h (abandonBatch start) := by
  refine keeping_takeWritten (fun _ => ⟨hsettled, hnone, hrows⟩) fun hs => ?_
  have hR : Lasting fun h => h.Open ∧ h.guarded = true := fun h request fate hcleans hr =>
    ⟨lasting_open h request fate hcleans hr.1, (cleaned_after fate hcleans).guarded.trans hr.2⟩
  have hopen : Open (h.after (.takeWritten start) (.keys (h.written.drop start))) :=
    ⟨hunfinished, hsettled, hnone, hcomplete⟩
  refine (keeping_cleanupNewBlobs hR (fun _ hr => hr.1.savepoint) (taken_takeWritten hs howes)
    ⟨hopen, hguarded⟩).bind fun known _ hkept => ?_
  exact fun _ => ⟨hkept.2.2, hkept.2.1, hkept.1⟩

/-- A batch that is given up after its transaction has come to its end. -/
theorem keeping_abandonBatch_close {start : ℕ} {whole : Bool} (hguarded : h.guarded = true)
    (hb : Storing start h whole) :
    Keeping (fun h _ => h.Ready) h.close (abandonBatch start) := by
  refine keeping_abandonBatch hguarded hb.unfinished hb.settled rfl hb.owes (fun key hkey => ?_)
    fun hstage => ?_
  · cases hkey
  · exact absurd rfl hstage

/-- A batch that is given up after a rollback to its savepoint. -/
theorem keeping_abandonBatch_restored {start : ℕ} {whole : Bool} (hguarded : h.guarded = true)
    (hb : Storing start h whole) (hs : h.Sound) (hsome : h.savepoint.isSome = true) :
    Keeping (fun h _ => h.Ready) h.restored (abandonBatch start) := by
  obtain ⟨n, hn⟩ := Option.isSome_iff_exists.mp hsome
  obtain ⟨_, _, hrows, _⟩ := hs.batch n hn
  have hwrites : h.restored.writes = h.writes.take n := by
    change h.writes.take (h.savepoint.getD 0) = _
    rw [hn, Option.getD_some]
  refine keeping_abandonBatch hguarded hb.unfinished hb.settled rfl hb.owes (fun key hkey => ?_)
    fun _ key hkey => ?_
  · rw [hwrites] at hkey
    exact hb.mark ▸ (hrows key).mp hkey
  · rw [hwrites]
    exact (hrows key).mpr (hb.mark.symm ▸ hkey)

theorem Hand.Ready.failed (hr : h.Ready) (aborts : Bool) : (h.failed aborts).Ready :=
  ⟨hr.guarded, ⟨hr.opened.unfinished, hr.opened.settled, hr.opened.savepoint, fun hstage =>
    hr.opened.complete fun hover => hstage (failed_stage.mpr hover)⟩, hr.owes⟩

/-- A batch is released, or given up. -/
theorem keeping_release {start : ℕ} (hb : Storing start h true) (hguarded : h.guarded = true) :
    Keeping (fun h _ => h.Ready) h (.call .release fun fate =>
      if fate = .served then .answer true else abandonBatch start) := by
  refine fun hs => ⟨trivial, fun fate hfits => ?_⟩
  cases fate with
  | served => exact fun _ => ⟨hguarded, ⟨hb.unfinished, hb.settled, rfl, hb.complete rfl⟩, hb.owes⟩
  | refused took => cases took with
    | true => exact keeping_abandonBatch_restored hguarded hb hs hfits.1
    | false => exact keeping_abandonBatch_close hguarded hb
  | _ => exact keeping_abandonBatch_close hguarded hb

/-- A batch that failed is rolled back and given up. -/
theorem keeping_rollbackTo {start : ℕ} {whole : Bool} (hb : Storing start h whole)
    (hguarded : h.guarded = true) :
    Keeping (fun h _ => h.Ready) h (.call .rollbackTo fun _ => abandonBatch start) := by
  refine fun hs => ⟨trivial, fun fate hfits => ?_⟩
  cases fate with
  | served => exact keeping_abandonBatch_restored hguarded hb hs hfits.1
  | _ => exact keeping_abandonBatch_close hguarded hb

/-- **A batch behind a savepoint leaves the unit of work ready**, whether it is stored or not. -/
theorem keeping_savepoint {start : ℕ} {batch : Program Bool} (hr : h.Ready) (hmark : h.mark = start)
    (hlength : h.written.length = start)
    (hbatch : ∀ {h : Hand}, Storing start h true → Keeping (Storing start) h batch) :
    Keeping (fun h _ => h.Ready) h (attempt .savepoint <| batch >>= fun stored =>
      if stored then
        .call .release fun fate => if fate = .served then .answer true else abandonBatch start
      else .call .rollbackTo fun _ => abandonBatch start) := by
  have hcomplete (hlive : h.stage = .live) : h.Complete := hr.opened.complete fun hover => by
    rw [hlive] at hover
    cases hover
  refine keeping_attempt (fun _ hlive => ⟨hmark.trans hlength.symm, hcomplete hlive⟩)
    (fun _ hfits => ?_) fun fate hfate _ => ?_
  · have hlive : h.stage = .live := of_decide_eq_true hfits.1
    have hb : Storing start (h.after .savepoint .served) true :=
      ⟨hr.opened.unfinished, hr.opened.settled, hmark, hr.owes, fun _ _ => hcomplete hlive⟩
    refine ((hbatch hb).constant after_guarded).bind fun known stored hstored => ?_
    have hguarded : known.guarded = true := hstored.2.trans hr.guarded
    cases stored with
    | true => exact keeping_release hstored.1 hguarded
    | false => exact keeping_rollbackTo hstored.1 hguarded
  · cases fate with
    | served => exact absurd rfl hfate
    | refused aborts => exact hr.failed aborts
    | _ => exact hr

theorem keeping_atSavepoint {locks : Bool} {batch : Program Bool} (hr : h.Ready)
    (hbatch : ∀ {start : ℕ} {h : Hand}, Storing start h true → Keeping (Storing start) h batch) :
    Keeping (fun h _ => h.Ready) h (atSavepoint locks batch) := by
  refine fun _ => ⟨hr.opened.savepoint, fun fate hfits => ?_⟩
  obtain rfl : fate = .count h.written.length := of_decide_eq_true hfits.1
  have hr' : Ready (h.after .writtenLength (.count h.written.length)) :=
    ⟨hr.guarded, ⟨hr.opened.unfinished, hr.opened.settled, hr.opened.savepoint,
      hr.opened.complete⟩, hr.owes⟩
  cases locks with
  | true =>
    refine keeping_statement (fun _ _ => ?_) hr' fun aborts => hr'.failed aborts
    exact keeping_savepoint hr' rfl rfl hbatch
  | false => exact keeping_savepoint hr' rfl rfl hbatch

/-! ## Operations of a unit of work -/

theorem keeping_storeForArticle (hr : h.Ready) (inputs : ℕ) :
    Keeping (fun h _ => h.Ready) h (storeForArticle inputs) := by
  refine keeping_statement (fun _ _ => ?_) hr fun aborts => hr.failed aborts
  split_ifs
  · exact fun _ => hr
  · exact keeping_atSavepoint hr (keeping_storeInputs inputs)

theorem keeping_replaceForArticle (hr : h.Ready) (inputs : ℕ) :
    Keeping (fun h _ => h.Ready) h (replaceForArticle inputs) := by
  refine keeping_statement (fun _ _ => ?_) hr fun aborts => hr.failed aborts
  refine keeping_atSavepoint hr fun hb => ?_
  exact keeping_statement (fun _ _ => keeping_storeInputs inputs hb) hb.broken
    fun aborts => hb.broken.failed aborts

/-- A task that drains the queue. -/
structure Hand.Draining (h : Hand) : Prop where
  finished : h.guarded = true → h.finished = true
  left : h.settled = true ∨ h.written = []
  owes : h.Owes []

theorem Hand.Draining.done (hd : h.Draining) : h.Done :=
  hd.owes.nil.imp_right fun howed => ⟨howed, hd.left.imp_right .inl⟩

theorem Hand.Draining.write (hd : h.Draining) (change : BlobWrite) (fate : Fate)
    (hchange : ∀ key, change ≠ .queueCleanup key) : (h.after (.write change) fate).Draining := by
  have howes : (h.handOver change).owed = h.owed ∧ (h.miss change).missed = h.missed := by
    cases change with
    | queueCleanup key => exact absurd rfl (hchange key)
    | _ => exact ⟨rfl, rfl⟩
  cases fate with
  | served => exact ⟨hd.finished, hd.left, hd.owes.imp_right fun h => howes.1 ▸ h⟩
  | _ => exact ⟨hd.finished, hd.left, hd.owes.imp_left fun h => howes.2 ▸ h⟩

theorem Hand.Draining.delete (hd : h.Draining) (key : Uuid) (fate : Fate) :
    (h.after (.delete key) fate).Draining := by
  cases fate with
  | served =>
    exact ⟨hd.finished, hd.left, hd.owes.imp_right fun howed other hother =>
      howed other (List.mem_filter.mp hother).1⟩
  | _ => exact hd

theorem keeping_drainEach : ∀ {keys : List Uuid} {h : Hand}, h.Draining →
    (∀ key ∈ keys, key ∈ h.queued) → Keeping (fun h _ => h.Done) h (drainEach keys)
  | [], h, hd, _ => by
    have hleft : h.missed = true ∨ h.owed = [] := hd.owes.nil
    refine keeping_attempt (fun _ => ⟨hd.finished, fun _ hsettled key hkey => ?_⟩) (fun _ _ _ => ?_)
      fun fate _ _ => ?_
    · rcases hd.left with hasked | hwritten
      · rw [hsettled] at hasked
        cases hasked
      · rw [hwritten] at hkey
        cases hkey
    · exact hleft.imp_right fun howed => ⟨howed, .inl rfl⟩
    · exact hleft.imp_right fun howed => ⟨howed, .inl rfl⟩
  | key :: keys, h, hd, hkeys => by
    have hd' (fate : Fate) : (h.after (.delete key) fate).Draining := hd.delete key fate
    refine keeping_attempt (fun _ => .inr (hkeys key List.mem_cons_self)) (fun _ _ => ?_)
      fun fate _ _ => (hd' fate).done
    have hd'' (fate : Fate) := (hd' .served).write (.dequeueCleanup key) fate
      fun _ heq => by cases heq
    refine keeping_attempt (fun _ => List.mem_cons_self) (fun _ _ => ?_)
      fun fate _ _ => (hd'' fate).done
    exact keeping_drainEach (hd'' .served) fun other hother =>
      hkeys other (List.mem_cons_of_mem _ hother)

/-- **The drain of the cleanup queue** owes nothing: what it does not delete stays queued. -/
theorem keeping_drainBlobCleanupQueue (hstage : h.stage = .closed) (hd : h.Draining) :
    Keeping (fun h _ => h.Done) h drainBlobCleanupQueue := by
  refine keeping_attempt (fun _ => hstage) (fun _ _ => ?_) fun fate hfate _ => ?_
  · have hd' : (h.after .begin .served).Draining := ⟨hd.finished, hd.left, hd.owes⟩
    refine keeping_statement (fun _ _ => ?_) hd'.done fun aborts => ?_
    · refine fun _ => ⟨trivial, fun fate _ => ?_⟩
      cases fate with
      | keys keys =>
        exact keeping_drainEach ⟨hd.finished, hd.left, hd.owes⟩ fun _ hkey => hkey
      | refused aborts => exact fun _ => hd.done
      | _ => exact fun _ => hd'.done
    · exact hd.done
  · rcases hd.owes.nil with hmissed | howed
    · have hmissed' : (h.missed || !h.owed.isEmpty) = true := by rw [hmissed, Bool.true_or]
      cases fate with
      | served => exact absurd rfl hfate
      | _ => exact .inl hmissed'
    · cases fate with
      | served => exact absurd rfl hfate
      | _ => exact .inr ⟨howed, hd.left.imp_right .inl⟩

/-- So many statements, of a property that outlives aborted transactions. -/
theorem keeping_statements {Q : Hand → Bool → Prop} {next : Program Bool}
    (hnext : Keeping Q h next) (hq : Q h false) (hfailed : ∀ aborts, Q (h.failed aborts) false) :
    ∀ count, Keeping Q h (statements count next)
  | 0 => hnext
  | count + 1 =>
    keeping_statement (fun _ _ => keeping_statements hnext hq hfailed count) hq hfailed

/-- **`UnitOfWork::commit`** leaves what it remembers to its commit, or to its drop. -/
theorem keeping_commit (hr : h.Ready) (evictions : ℕ) :
    Keeping (fun h _ => h.Done) h (commit evictions) := by
  have hleft : h.Done := hr.owes.nil.imp_right fun howed =>
    ⟨howed, .inr (.inr ⟨hr.guarded, hr.opened.unfinished⟩)⟩
  refine keeping_statements ?_ hleft (fun _ => hleft) evictions
  refine fun _ => ⟨trivial, fun fate _ => ?_⟩
  refine keeping_attempt (fun _ => ⟨fun _ => rfl, fun hlive _ => ?_⟩) (fun _ _ => ?_)
    fun _ _ _ => ?_
  · refine hr.opened.complete fun hover => ?_
    have hlive : h.stage = .live := hlive
    rw [hlive] at hover
    cases hover
  · refine keeping_attempt (fun _ => trivial) (fun _ _ => ?_) fun fate _ _ => ?_
    · exact keeping_drainBlobCleanupQueue rfl ⟨fun _ => rfl, .inl rfl, hr.owes⟩
    · exact hr.owes.nil.imp_right fun howed => ⟨howed, .inl rfl⟩
  · exact hr.owes.nil.imp_right fun howed => ⟨howed, .inl rfl⟩

/-- **A cleanup that nothing follows.** -/
theorem keeping_lastCleanup (hstage : h.stage = .closed) (hsettled : h.settled = false)
    (howes : h.Owes []) :
    Keeping (fun h _ => (h.missed = true ∨ h.owed = [] ∧ h.written = []) ∧ h.stage = .closed) h
      cleanupExternalBlobs := by
  have hR : Lasting fun h => h.written = [] ∧ h.stage = .closed := fun h request fate hcleans hr =>
    ⟨(cleaned_after fate hcleans).written.trans hr.1, (cleaned_after fate hcleans).stage.mpr hr.2⟩
  refine (keeping_cleanupExternalBlobs hR hstage hsettled howes ⟨rfl, hstage⟩).mono ?_
  intro known _ _ hkept
  exact ⟨hkept.1.nil.imp_right fun howed => ⟨howed, hkept.2.1⟩, hkept.2.2⟩

/-- **`UnitOfWork::rollback`.** -/
theorem keeping_rollback (hr : h.Ready) : Keeping (fun h _ => h.Done) h rollback := by
  refine fun _ => ⟨trivial, fun finish _ => fun _ => ⟨trivial, fun fate _ => ?_⟩⟩
  have hover : Hand.stage ((h.after .finish finish).after .rollback fate) = .closed := rfl
  refine keeping_andThen (P := fun h _ => h.Done) ?_ (fun _ hd _ => hd) fun _ hd => hd
  refine (keeping_lastCleanup hover hr.opened.settled hr.owes).mono fun known _ _ hkept => ?_
  exact hkept.1.imp_right fun hnone => ⟨hnone.1, .inr (.inl hnone.2)⟩

/-! ## Calls of the repository -/

/-- A restore that is given up. -/
theorem keeping_abandonRestore (hguarded : h.guarded = false) (hsettled : h.settled = false)
    (howes : h.Owes []) : Keeping (fun h _ => h.Done) h abandonRestore := by
  refine fun _ => ⟨trivial, fun fate _ => ?_⟩
  refine keeping_takeWritten (fun hs => ⟨hsettled, rfl, fun key hkey => ?_⟩) fun hs => ?_
  · cases hkey
  · refine (keeping_cleanupBlobIdsAfterRollback (taken_takeWritten hs howes) rfl rfl hguarded
      rfl).bind fun known _ hdone => ?_
    exact fun _ => hdone

/-- A commit, of a call that is not guarded and has inserted its rows. -/
theorem keeping_lastCommit (hguarded : h.guarded = false) (howes : h.Owes [])
    (hcomplete : h.stage = .live → h.Complete) :
    Keeping (fun h _ => h.Done) h (attempt .commit (.answer true)) := by
  have hleft : h.missed = true ∨ h.owed = [] := howes.nil
  refine keeping_attempt (fun _ => ⟨fun hguard => ?_, fun hlive _ => hcomplete hlive⟩)
    (fun _ _ _ => ?_) fun _ _ _ => ?_
  · rw [hguarded] at hguard
    cases hguard
  · exact hleft.imp_right fun howed => ⟨howed, .inl rfl⟩
  · exact hleft.imp_right fun howed => ⟨howed, .inl rfl⟩

theorem keeping_finishRestore {start : ℕ} (hguarded : h.guarded = false)
    (hb : Storing start h true) : Keeping (fun h _ => h.Done) h finishRestore := by
  refine fun _ => ⟨trivial, fun fate hfits => ?_⟩
  change Keeping _ _ (if fate = .served then _ else _)
  split_ifs with hfate
  · subst hfate
    have hlive : h.stage = .live := of_decide_eq_true hfits.1
    refine keeping_lastCommit hguarded hb.owes fun _ => hb.complete rfl fun hover => ?_
    rw [hlive] at hover
    cases hover
  · cases fate with
    | served => exact absurd rfl hfate
    | _ => exact keeping_abandonRestore hguarded hb.settled hb.owes

/-- **`restore_missing_asset`.** -/
theorem keeping_restoreMissingAsset :
    Keeping (fun h _ => h.Done) Hand.empty restoreMissingAsset := by
  have hidle : Hand.empty.Done := .inr ⟨rfl, .inr (.inl rfl)⟩
  refine keeping_attempt (fun _ => rfl) (fun _ _ => ?_) fun fate _ _ => ?_
  · -- `h` is the hand of a transaction that has begun
    generalize hh : Hand.empty.after .begin .served = h
    have hguarded : h.guarded = false := hh ▸ rfl
    have hwritten : h.written = [] := hh ▸ rfl
    have hb : Storing 0 h true := hh ▸ ⟨rfl, rfl, rfl, .inr fun _ hkey => (by cases hkey),
      fun _ _ _ hkey => by cases hkey⟩
    have hdone : h.Done := .inr ⟨hh ▸ rfl, .inr (.inl hwritten)⟩
    have hfailed (aborts : Bool) : (h.failed aborts).Done := .inr ⟨hh ▸ rfl, .inr (.inl hwritten)⟩
    have hcomplete : h.stage = .live → h.Complete := fun _ key hkey => by
      rw [hwritten] at hkey
      cases hkey
    refine keeping_statement (fun _ _ => ?_) hdone hfailed
    refine keeping_lookup (fun _ _ => keeping_lastCommit hguarded hb.owes hcomplete)
      (fun _ _ => ?_) hdone hfailed
    refine keeping_lookup (fun _ _ => keeping_finishRestore hguarded hb) (fun _ _ => ?_) hdone
      hfailed
    refine ((keeping_insertBlob hb).constant after_guarded).bind fun known inserted hstored => ?_
    have hguarded : known.guarded = false := hstored.2.trans hguarded
    cases inserted with
    | true => exact keeping_finishRestore hguarded hstored.1
    | false => exact keeping_abandonRestore hguarded hstored.1.settled hstored.1.owes
  · cases fate <;> exact .inr ⟨rfl, .inr (.inl rfl)⟩

theorem keeping_drain : Keeping (fun h _ => h.Done) Hand.empty drainBlobCleanupQueue :=
  keeping_drainBlobCleanupQueue rfl ⟨fun hguard => (by cases hguard), .inr rfl,
    .inr fun _ hkey => (by cases hkey)⟩

/-- **Every operation of a unit of work** leaves it ready, or takes it along and lets go of
everything. -/
theorem keeping_operation (hr : h.Ready) (operation : WorkOperation) :
    Keeping (fun h _ => if operation.consumes then h.Done else h.Ready) h operation.program := by
  cases operation with
  | statement => exact keeping_statement (fun _ _ _ => hr) hr fun aborts => hr.failed aborts
  | storeForArticle inputs => exact keeping_storeForArticle hr inputs
  | replaceForArticle inputs => exact keeping_replaceForArticle hr inputs
  | commit evictions => exact keeping_commit hr evictions
  | rollback => exact keeping_rollback hr

end ExternalBlobs

end Werrss
