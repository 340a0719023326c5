import Werrss.Persistence.BlobCustody

/-!
# Persistence/BlobOwnership — nothing leaks and nothing is deleted that has a row

    drawn ──▸ remembered by one task ──▸ committed                 rows, evictions
                     ╰─────────────────▸ retired                   deletions, cleanup queue

Any number of units of work, restores and drains, each dropped at any point, over a backend that may
lose answers and act late, and a database that may refuse anything.  A key is drawn once; it is
committed or retired, and never both: **no cleanup deletes an object that has or will have a row,
and every row has its bytes until they are evicted**.  In a run that gives no key up, **every object
has its row, is queued for cleanup, or is in the hands of a task**.
-/

open Machinery

namespace Werrss

namespace ExternalBlobs

open Calls Hand

/-! ## What a store and a hand agree on -/

/-- **The life of a key.**  A key that is drawn is in the memory of one task; then its row has been
committed, or a cleanup has taken it over, and never both. -/
structure BlobStore.Consistent (s : BlobStore) : Prop where
  apart : ∀ key ∈ s.retired, key ∉ s.committed
  retired : ∀ key ∈ s.retired, key ∈ s.drawn
  committed : ∀ key ∈ s.committed, key ∈ s.drawn
  rows : ∀ key ∈ s.tables.rows, key ∈ s.committed
  queue : ∀ key ∈ s.tables.cleanupQueue, key ∈ s.retired
  cleaned : ∀ key ∈ s.cleaned, key ∈ s.retired
  late : ∀ key, .delete key ∈ s.late → key ∈ s.retired
  bytes : ∀ key ∈ s.tables.rows, key ∈ s.objects ∨ key ∈ s.reclaimed

/-- **What a hand knows is true of the store.** -/
structure Hand.Knows (h : Hand) (s : BlobStore) : Prop where
  live : ∀ key, h.Live key → key ∉ s.retired ∧ key ∉ s.committed
  drawn : ∀ key ∈ h.written, key ∈ s.drawn
  owed : ∀ key ∈ h.owed, key ∈ s.retired
  queued : ∀ key ∈ h.queued, key ∈ s.retired
  deleted : ∀ key ∈ h.deleted, key ∈ s.retired
  cleanups : ∀ key, .queueCleanup key ∈ h.writes → key ∈ s.retired
  puts : ∀ key ∈ h.stored, key ∈ s.drawn
  stored : ∀ key, h.Live key → key ∈ h.stored → key ∈ s.objects

/-- **What a step does to the keys of others**: nothing but for the keys in `P`. -/
structure BlobStore.Spares (P : Uuid → Prop) (s s' : BlobStore) : Prop where
  drawn : ∀ key ∈ s.drawn, key ∈ s'.drawn
  retired : ∀ key ∈ s.retired, key ∈ s'.retired
  retires : ∀ key ∈ s'.retired, key ∈ s.retired ∨ P key
  commits : ∀ key ∈ s'.committed, key ∈ s.committed ∨ P key
  objects : ∀ key ∈ s.objects, key ∈ s'.objects ∨ key ∈ s.retired ∨ key ∈ s.committed

theorem BlobStore.Spares.refl (P : Uuid → Prop) (s : BlobStore) : s.Spares P s :=
  ⟨fun _ h => h, fun _ h => h, fun _ h => .inl h, fun _ h => .inl h, fun _ h => .inl h⟩

/-- **What a task knows stays true** while others see to their own keys. -/
theorem Hand.Knows.spared {h : Hand} {s s' : BlobStore} {P : Uuid → Prop} (hk : h.Knows s)
    (hspares : s.Spares P s') (hP : ∀ key, P key → ¬ h.Live key) : h.Knows s' where
  live key hlive := by
    obtain ⟨hretired, hcommitted⟩ := hk.live key hlive
    refine ⟨fun hmem => ?_, fun hmem => ?_⟩
    · rcases hspares.retires key hmem with hmem | hp
      · exact hretired hmem
      · exact hP key hp hlive
    · rcases hspares.commits key hmem with hmem | hp
      · exact hcommitted hmem
      · exact hP key hp hlive
  drawn key hkey := hspares.drawn key (hk.drawn key hkey)
  owed key hkey := hspares.retired key (hk.owed key hkey)
  queued key hkey := hspares.retired key (hk.queued key hkey)
  deleted key hkey := hspares.retired key (hk.deleted key hkey)
  cleanups key hkey := hspares.retired key (hk.cleanups key hkey)
  puts key hkey := hspares.drawn key (hk.puts key hkey)
  stored key hlive hput := by
    obtain ⟨hretired, hcommitted⟩ := hk.live key hlive
    rcases hspares.objects key (hk.stored key hlive hput) with hmem | hmem | hmem
    · exact hmem
    · exact absurd hmem hretired
    · exact absurd hmem hcommitted

/-- A hand that has nothing that is not in another. -/
structure Hand.Within (h h' : Hand) : Prop where
  settled : h'.settled = false → h.settled = false
  written : ∀ key ∈ h'.written, key ∈ h.written
  owed : ∀ key ∈ h'.owed, key ∈ h.owed
  queued : ∀ key ∈ h'.queued, key ∈ h.queued
  deleted : ∀ key ∈ h'.deleted, key ∈ h.deleted
  writes : ∀ change ∈ h'.writes, change ∈ h.writes
  stored : ∀ key ∈ h'.stored, key ∈ h.stored

theorem Hand.Within.refl (h : Hand) : h.Within h :=
  ⟨fun h => h, fun _ h => h, fun _ h => h, fun _ h => h, fun _ h => h, fun _ h => h, fun _ h => h⟩

theorem Hand.Within.live {h h' : Hand} (hw : h.Within h') {key : Uuid} (hlive : h'.Live key) :
    h.Live key := ⟨hw.settled hlive.1, hw.written key hlive.2⟩

theorem Hand.Knows.within {h h' : Hand} {s : BlobStore} (hk : h.Knows s) (hw : h.Within h') :
    h'.Knows s where
  live key hlive := hk.live key (hw.live hlive)
  drawn key hkey := hk.drawn key (hw.written key hkey)
  owed key hkey := hk.owed key (hw.owed key hkey)
  queued key hkey := hk.queued key (hw.queued key hkey)
  deleted key hkey := hk.deleted key (hw.deleted key hkey)
  cleanups key hkey := hk.cleanups key (hw.writes _ hkey)
  puts key hkey := hk.puts key (hw.stored key hkey)
  stored key hlive hput := hk.stored key (hw.live hlive) (hw.stored key hput)

/-! ## One request -/

/-- **What a request of a task does**, to the store, to what the task knows, and to the keys of
others. -/
structure Served (h h' : Hand) (s s' : BlobStore) : Prop where
  consistent : s'.Consistent
  knows : h'.Knows s'
  spares : s.Spares h.Live s'
  live : ∀ key, h'.Live key → h.Live key ∨ key ∉ s.drawn

variable {h : Hand} {s : BlobStore}

/-- A request that leaves the store as it is. -/
theorem Served.still {h' : Hand} (hc : s.Consistent) (hk : h.Knows s) (hw : h.Within h') :
    Served h h' s s :=
  ⟨hc, hk.within hw, .refl _ s, fun _ hlive => .inl (hw.live hlive)⟩

theorem within_close (h : Hand) : h.Within h.close :=
  ⟨fun h => h, fun _ h => h, fun _ h => h, fun _ h => h, fun _ h => h, fun _ h => (by cases h),
    fun _ h => h⟩

theorem within_restored (h : Hand) : h.Within h.restored :=
  ⟨fun h => h, fun _ h => h, fun _ h => h, fun _ h => h, fun _ h => h,
    fun _ h => List.mem_of_mem_take h, fun _ h => h⟩

theorem within_failed (h : Hand) (aborts : Bool) : h.Within (h.failed aborts) :=
  ⟨fun h => h, fun _ h => h, fun _ h => h, fun _ h => h, fun _ h => h, fun _ h => h, fun _ h => h⟩

theorem within_miss (h : Hand) (change : BlobWrite) : h.Within (h.miss change) :=
  ⟨fun h => h, fun _ h => h, fun _ h => h, fun _ h => h, fun _ h => h, fun _ h => h, fun _ h => h⟩

theorem within_handOver (h : Hand) (change : BlobWrite) : h.Within (h.handOver change) := by
  refine ⟨fun h => h, fun _ h => h, fun key hkey => ?_, fun _ h => h, fun _ h => h, fun _ h => h,
    fun _ h => h⟩
  cases change with
  | queueCleanup other => exact (List.mem_filter.mp hkey).1
  | _ => exact hkey

/-- A statement that succeeds is one of the transaction from then on. -/
theorem served_write {change : BlobWrite} (hc : s.Consistent) (hk : h.Knows s)
    (hmay : h.May (.write change)) :
    Served h { h.handOver change with writes := h.writes ++ [change] } s s := by
  have hk' := hk.within (within_handOver h change)
  refine ⟨hc, { hk' with cleanups := fun key hkey => ?_ }, .refl _ s, fun _ hlive => .inl hlive⟩
  rcases List.mem_append.mp hkey with hkey | hkey
  · exact hk.cleanups key hkey
  · obtain rfl := List.mem_singleton.mp hkey
    exact hk.owed key hmay.1

/-- A new key. -/
theorem served_draw {key : Uuid} (hc : s.Consistent) (hk : h.Knows s) (hfresh : key ∉ s.drawn) :
    Served h { h with written := h.written ++ [key] } s { s with drawn := key :: s.drawn } := by
  have hspares : s.Spares (fun _ => False) { s with drawn := key :: s.drawn } :=
    { BlobStore.Spares.refl _ s with drawn := fun _ h => .tail _ h }
  have hk' := hk.spared hspares fun _ h => h.elim
  -- a key of the task is an old one, or the new one
  have hcases {other : Uuid} (hother : other ∈ h.written ++ [key]) :
      other ∈ h.written ∨ other = key := by
    rcases List.mem_append.mp hother with hother | hother
    · exact .inl hother
    · exact .inr (List.mem_singleton.mp hother)
  refine ⟨{ hc with
    retired := fun _ h => .tail _ (hc.retired _ h)
    committed := fun _ h => .tail _ (hc.committed _ h) }, ?_, ?_, fun other hlive => ?_⟩
  · refine { hk' with live := fun other hlive => ?_, drawn := fun other hother => ?_,
                      stored := fun other hlive hput => ?_ }
    · rcases hcases hlive.2 with hother | rfl
      · exact hk.live other ⟨hlive.1, hother⟩
      · exact ⟨fun h => hfresh (hc.retired _ h), fun h => hfresh (hc.committed _ h)⟩
    · rcases hcases hother with hother | rfl
      · exact .tail _ (hk.drawn other hother)
      · exact .head _
    · rcases hcases hlive.2 with hother | rfl
      · exact hk.stored other ⟨hlive.1, hother⟩ hput
      · exact absurd (hk.puts _ hput) hfresh
  · exact { BlobStore.Spares.refl _ s with drawn := fun _ h => .tail _ h }
  · rcases hcases hlive.2 with hother | rfl
    · exact .inl ⟨hlive.1, hother⟩
    · exact .inr hfresh

/-- An object more. -/
theorem BlobStore.Consistent.grows (hc : s.Consistent) (key : Uuid) :
    BlobStore.Consistent { s with objects := s.objects.insert key } := by
  refine { hc with bytes := fun other hother => ?_ }
  exact (hc.bytes other hother).imp_left List.mem_insert_of_mem

theorem BlobStore.Spares.grows (s : BlobStore) (P : Uuid → Prop) (key : Uuid) :
    s.Spares P { s with objects := s.objects.insert key } :=
  { BlobStore.Spares.refl P s with objects := fun _ h => .inl (List.mem_insert_of_mem h) }

/-- An object less, of a key that a cleanup has taken over. -/
theorem BlobStore.Consistent.shrinks (hc : s.Consistent) {key : Uuid} (hkey : key ∈ s.retired) :
    BlobStore.Consistent { s with objects := s.objects.filter (· ≠ key) } := by
  refine { hc with bytes := fun other hother => (hc.bytes other hother).imp_left fun h => ?_ }
  refine List.mem_filter.mpr ⟨h, decide_eq_true fun heq => ?_⟩
  exact hc.apart key hkey (heq ▸ hc.rows other hother)

theorem BlobStore.Spares.shrinks (P : Uuid → Prop) {key : Uuid}
    (hkey : key ∈ s.retired ∨ key ∈ s.committed) :
    s.Spares P { s with objects := s.objects.filter (· ≠ key) } := by
  refine { BlobStore.Spares.refl P s with objects := fun other h => ?_ }
  by_cases heq : other = key
  · exact .inr (heq ▸ hkey)
  · exact .inl (List.mem_filter.mpr ⟨h, decide_eq_true heq⟩)

/-- A put, whatever becomes of it. -/
theorem served_put {key : Uuid} {fate : Fate} (hc : s.Consistent) (hk : h.Knows s)
    (hlive : h.Live key) :
    Served h (h.after (.put key) fate) s (s.after h (.put key) fate) := by
  have hgrown : h.Knows { s with objects := s.objects.insert key } :=
    hk.spared (.grows s (fun _ => False) key) fun _ h => h.elim
  cases fate with
  | served =>
    refine ⟨hc.grows key, { hgrown with
      puts := fun other hother => ?_
      stored := fun other hother hput => ?_ }, .grows s _ key, fun _ hlive => .inl hlive⟩
    · rcases List.mem_cons.mp hother with rfl | hother
      · exact hk.drawn _ hlive.2
      · exact hk.puts other hother
    · rcases List.mem_cons.mp hput with rfl | hput
      · exact List.mem_insert_self
      · exact List.mem_insert_of_mem (hk.stored other hother hput)
  | refused took => cases took with
    | true => exact ⟨hc.grows key, hgrown, .grows s _ key, fun _ hlive => .inl hlive⟩
    | false => exact .still hc hk (.refl h)
  | late =>
    refine ⟨{ hc with late := fun other hother => ?_ }, { hk with },
      { BlobStore.Spares.refl _ s with }, fun _ hlive => .inl hlive⟩
    rcases List.mem_append.mp hother with hother | hother
    · exact hc.late other hother
    · cases List.mem_singleton.mp hother
  | _ => exact .still hc hk (.refl h)

/-- A delete, whatever becomes of it. -/
theorem served_delete {key : Uuid} {fate : Fate} (hc : s.Consistent) (hk : h.Knows s)
    (hmay : h.May (.delete key)) :
    Served h (h.after (.delete key) fate) s (s.after h (.delete key) fate) := by
  have hkey : key ∈ s.retired := hmay.elim (hk.owed key) (hk.queued key)
  have hcleaned {other : Uuid} (hother : other ∈ s.cleaned.insert key) : other ∈ s.retired := by
    rcases List.mem_insert_iff.mp hother with rfl | hother
    · exact hkey
    · exact hc.cleaned other hother
  have hshrunk := hc.shrinks hkey
  have hspares (P : Uuid → Prop) : s.Spares P { s with objects := s.objects.filter (· ≠ key) } :=
    .shrinks P (.inl hkey)
  have hknows := hk.spared (hspares fun _ => False) fun _ h => h.elim
  have hstill : Served h h s { s with cleaned := s.cleaned.insert key } :=
    ⟨{ hc with cleaned := fun _ => hcleaned }, { hk with }, { BlobStore.Spares.refl _ s with },
      fun _ hlive => .inl hlive⟩
  cases fate with
  | served =>
    refine ⟨{ hshrunk with cleaned := fun _ => hcleaned }, { hknows with
      owed := fun other hother => hk.owed other (List.mem_filter.mp hother).1
      deleted := fun other hother => ?_ }, { hspares h.Live with }, fun _ hlive => .inl hlive⟩
    rcases List.mem_cons.mp hother with rfl | hother
    · exact hkey
    · exact hk.deleted other hother
  | refused took => cases took with
    | true =>
      exact ⟨{ hshrunk with cleaned := fun _ => hcleaned }, { hknows with },
        { hspares h.Live with }, fun _ hlive => .inl hlive⟩
    | false => exact hstill
  | late =>
    refine ⟨{ hc with cleaned := fun _ => hcleaned, late := fun other hother => ?_ }, { hk with },
      { BlobStore.Spares.refl _ s with }, fun _ hlive => .inl hlive⟩
    rcases List.mem_append.mp hother with hother | hother
    · exact hc.late other hother
    · cases List.mem_singleton.mp hother
      exact hkey
  | _ => exact hstill

/-- Keys are taken out of the memory of a task. -/
theorem served_takeWritten {start : ℕ} (hc : s.Consistent) (hk : h.Knows s) (hs : h.Sound)
    (hsettled : h.settled = false) :
    Served h (h.after (.takeWritten start) (.keys (h.written.drop start))) s
      (s.after h (.takeWritten start) (.keys (h.written.drop start))) := by
  have hlive {key : Uuid} (hkey : key ∈ h.written.drop start) : h.Live key :=
    ⟨hsettled, List.mem_of_mem_drop hkey⟩
  have hretired {key : Uuid} (hkey : key ∈ s.retired ++ h.written.drop start) :
      key ∈ s.retired ∨ key ∈ h.written.drop start := List.mem_append.mp hkey
  have hspares : s.Spares (· ∈ h.written.drop start)
      { s with retired := s.retired ++ h.written.drop start } :=
    { BlobStore.Spares.refl _ s with
      retired := fun _ h => List.mem_append_left _ h
      retires := fun _ => hretired }
  have hw : h.Within { h with written := h.written.take start } :=
    { Within.refl h with written := fun _ h => List.mem_of_mem_take h }
  -- what is left in the memory is not what is taken out of it
  have hleft : ∀ key, key ∈ h.written.drop start →
      ¬ Live { h with written := h.written.take start } key := fun key hdrop htake =>
    List.disjoint_take_drop hs.nodup le_rfl htake.2 hdrop
  have hknows := (hk.within hw).spared hspares hleft
  refine ⟨{ hc with
    apart := fun key hkey => ?_
    retired := fun key hkey => ?_
    queue := fun key hkey => List.mem_append_left _ (hc.queue key hkey)
    cleaned := fun key hkey => List.mem_append_left _ (hc.cleaned key hkey)
    late := fun key hkey => List.mem_append_left _ (hc.late key hkey) },
    { hknows with owed := fun key hkey => ?_ }, { hspares with
    retires := fun key hkey => (hretired hkey).imp_right hlive
    commits := fun _ h => .inl h }, fun key hkey => .inl (hw.live hkey)⟩
  · exact (hretired hkey).elim (hc.apart key) fun h => (hk.live key (hlive h)).2
  · exact (hretired hkey).elim (hc.retired key) fun h => hk.drawn key (hlive h).2
  · rcases List.mem_append.mp hkey with hkey | hkey
    · exact List.mem_append_left _ (hk.owed key hkey)
    · exact List.mem_append_right _ hkey

/-! ## Transactions -/

theorem mem_insertedRows {writes : List BlobWrite} {key : Uuid} :
    key ∈ insertedRows writes ↔ .insertRow key ∈ writes := by
  rw [insertedRows, List.mem_filterMap]
  constructor
  · rintro ⟨change, hmem, hchange⟩
    cases change with
    | insertRow other => exact Option.some.inj hchange ▸ hmem
    | _ => cases hchange
  · exact fun hmem => ⟨_, hmem, rfl⟩

/-- A row is there, or is inserted. -/
theorem mem_rows_apply {t : BlobTables} {change : BlobWrite} {key : Uuid}
    (hkey : key ∈ (t.apply change).rows) : key ∈ t.rows ∨ change = .insertRow key := by
  cases change with
  | insertRow other =>
    rcases List.mem_insert_iff.mp hkey with rfl | hkey
    · exact .inr rfl
    · exact .inl hkey
  | deleteRows keys => exact .inl (List.mem_filter.mp hkey).1
  | _ => exact .inl hkey

/-- A key is queued, or is then. -/
theorem mem_queue_apply {t : BlobTables} {change : BlobWrite} {key : Uuid}
    (hkey : key ∈ (t.apply change).cleanupQueue) :
    key ∈ t.cleanupQueue ∨ change = .queueCleanup key := by
  cases change with
  | queueCleanup other =>
    rcases List.mem_insert_iff.mp hkey with rfl | hkey
    · exact .inr rfl
    · exact .inl hkey
  | dequeueCleanup other => exact .inl (List.mem_filter.mp hkey).1
  | _ => exact .inl hkey

theorem mem_rows_of_foldl {key : Uuid} : ∀ (writes : List BlobWrite) (t : BlobTables),
    key ∈ (writes.foldl BlobTables.apply t).rows → key ∈ t.rows ∨ .insertRow key ∈ writes
  | [], _, hkey => .inl hkey
  | change :: writes, t, hkey => by
    rcases mem_rows_of_foldl writes (t.apply change) hkey with hkey | hkey
    · rcases mem_rows_apply hkey with hkey | rfl
      · exact .inl hkey
      · exact .inr (.head _)
    · exact .inr (.tail _ hkey)

theorem mem_queue_of_foldl {key : Uuid} : ∀ (writes : List BlobWrite) (t : BlobTables),
    key ∈ (writes.foldl BlobTables.apply t).cleanupQueue →
      key ∈ t.cleanupQueue ∨ .queueCleanup key ∈ writes
  | [], _, hkey => .inl hkey
  | change :: writes, t, hkey => by
    rcases mem_queue_of_foldl writes (t.apply change) hkey with hkey | hkey
    · rcases mem_queue_apply hkey with hkey | rfl
      · exact .inl hkey
      · exact .inr (.head _)
    · exact .inr (.tail _ hkey)

/-- A commit, whether it takes effect or not. -/
theorem served_commit {fate : Fate} (hc : s.Consistent) (hk : h.Knows s) (hs : h.Sound) :
    Served h (h.after .commit fate) s (s.after h .commit fate) := by
  have hw : h.Within (h.after .commit fate) :=
    { within_close h with settled := fun hfalse => by cases hfalse }
  have hsettled : ∀ key, h.Live key → ¬ (h.after .commit fate).Live key :=
    fun _ _ hlive => by cases hlive.1
  by_cases htakes : h.stage = .live ∧ fate.took
  · have hinserted {key : Uuid} (hkey : key ∈ insertedRows h.writes) :
        h.Live key ∧ key ∈ h.stored := hs.rows key (mem_insertedRows.mp hkey)
    rw [show s.after h .commit fate = _ from if_pos htakes]
    have hspares : s.Spares h.Live { s with
        tables := h.writes.foldl BlobTables.apply s.tables
        committed := s.committed ++ insertedRows h.writes } :=
      { BlobStore.Spares.refl _ s with
        commits := fun key hkey => (List.mem_append.mp hkey).imp_right fun h => (hinserted h).1 }
    refine ⟨{ hc with
      apart := fun key hkey hcommitted => ?_
      committed := fun key hkey => ?_
      rows := fun key hkey => ?_
      queue := fun key hkey => ?_
      bytes := fun key hkey => ?_ }, (hk.within hw).spared hspares hsettled, hspares,
      fun key hlive => .inl (hw.live hlive)⟩
    · rcases List.mem_append.mp hcommitted with hcommitted | hrow
      · exact hc.apart key hkey hcommitted
      · exact (hk.live key (hinserted hrow).1).1 hkey
    · rcases List.mem_append.mp hkey with hkey | hrow
      · exact hc.committed key hkey
      · exact hk.drawn key (hinserted hrow).1.2
    · rcases mem_rows_of_foldl _ _ hkey with hkey | hrow
      · exact List.mem_append_left _ (hc.rows key hkey)
      · exact List.mem_append_right _ (mem_insertedRows.mpr hrow)
    · exact (mem_queue_of_foldl _ _ hkey).elim (hc.queue key) (hk.cleanups key)
    · rcases mem_rows_of_foldl _ _ hkey with hkey | hrow
      · exact hc.bytes key hkey
      · obtain ⟨hlive, hput⟩ := hs.rows key hrow
        exact .inl (hk.stored key hlive hput)
  · rw [show s.after h .commit fate = s from if_neg htakes]
    exact .still hc hk hw

/-- A key that is queued in a statement of its own. -/
theorem served_autocommit {key : Uuid} {fate : Fate} (hc : s.Consistent) (hk : h.Knows s)
    (hkey : key ∈ h.owed) :
    Served h (h.after (.autocommit (.queueCleanup key)) fate) s
      (s.after h (.autocommit (.queueCleanup key)) fate) := by
  have hqueued : BlobStore.Consistent
      { s with tables := s.tables.apply (.queueCleanup key) } := by
    refine { hc with rows := hc.rows, queue := fun other hother => ?_, bytes := hc.bytes }
    rcases List.mem_insert_iff.mp hother with rfl | hother
    · exact hk.owed _ hkey
    · exact hc.queue other hother
  have hspares (P : Uuid → Prop) :
      s.Spares P { s with tables := s.tables.apply (.queueCleanup key) } :=
    { BlobStore.Spares.refl P s with }
  have hknows {h' : Hand} (hw : h.Within h') :
      h'.Knows { s with tables := s.tables.apply (.queueCleanup key) } :=
    (hk.within hw).spared (hspares fun _ => False) fun _ h => h.elim
  have hover := within_handOver h (.queueCleanup key)
  have hmiss := within_miss h (.queueCleanup key)
  cases fate with
  | served => exact ⟨hqueued, hknows hover, hspares _, fun _ hlive => .inl hlive⟩
  | refused took => cases took with
    | true => exact ⟨hqueued, hknows hmiss, hspares _, fun _ hlive => .inl hlive⟩
    | false => exact .still hc hk hmiss
  | _ => exact .still hc hk hmiss

/-- **One request of a task that keeps to the rules.** -/
theorem served_after {request : Request} {fate : Fate} (hc : s.Consistent) (hk : h.Knows s)
    (hs : h.Sound) (hmay : h.May request) (hfits : h.fits request fate = true)
    (hfits' : s.fits request fate = true) :
    Served h (h.after request fate) s (s.after h request fate) := by
  cases request with
  | statement => cases fate with
    | refused aborts => exact .still hc hk (within_failed h aborts)
    | _ => exact .still hc hk (.refl h)
  | lookup => cases fate with
    | refused aborts => exact .still hc hk (within_failed h aborts)
    | _ => exact .still hc hk (.refl h)
  | write change => cases fate with
    | served => exact served_write hc hk hmay
    | refused aborts => exact .still hc hk { Within.refl h with }
    | _ => exact .still hc hk (within_miss h change)
  | autocommit change => cases change with
    | queueCleanup key => exact served_autocommit hc hk hmay
    | _ => exact hmay.elim
  | cleanupQueue => cases fate with
    | refused aborts => exact .still hc hk (within_failed h aborts)
    | keys keys =>
      obtain rfl : keys = s.tables.cleanupQueue := of_decide_eq_true hfits'
      exact ⟨hc, { hk with queued := hc.queue }, .refl _ s, fun _ hlive => .inl hlive⟩
    | _ => exact .still hc hk (.refl h)
  | drainDeletions => exact .still hc hk (.refl h)
  | begin => cases fate <;> exact .still hc hk { Within.refl h with }
  | savepoint => cases fate with
    | refused aborts => exact .still hc hk (within_failed h aborts)
    | _ => exact .still hc hk { Within.refl h with }
  | release => cases fate with
    | served => exact .still hc hk { Within.refl h with }
    | refused took => cases took with
      | true => exact .still hc hk (within_restored h)
      | false => exact .still hc hk (within_close h)
    | _ => exact .still hc hk (within_close h)
  | rollbackTo => cases fate with
    | served => exact .still hc hk (within_restored h)
    | _ => exact .still hc hk (within_close h)
  | commit => exact served_commit hc hk hs
  | rollback => exact .still hc hk (within_close h)
  | put key => exact served_put hc hk hmay
  | delete key => exact served_delete hc hk hmay
  | draw => cases fate with
    | fresh key => exact served_draw hc hk (of_decide_eq_true hfits')
    | _ => exact .still hc hk (.refl h)
  | writtenLength => cases fate <;> exact .still hc hk { Within.refl h with }
  | takeWritten start =>
    obtain rfl : fate = .keys (h.written.drop start) := of_decide_eq_true hfits
    exact served_takeWritten hc hk hs hmay.1
  | finish => exact .still hc hk { Within.refl h with }

/-! ## The system -/

/-- What a task leaves in hand when its program answers: an open unit of work is ready, a task that
has been consumed has let go of everything, and what is left of one that was dropped has nothing. -/
def BlobTask.Leaves (task : BlobTask) (h : Hand) : Prop :=
  if task.dropped then
    (h.missed = true ∨ h.owed = [] ∧ (h.settled = true ∨ h.written = [])) ∧ h.stage = .closed
  else if task.consumed then h.Done else h.Ready

/-- **A task that keeps to the rules.** -/
structure BlobTask.Orderly (task : BlobTask) (s : BlobStore) : Prop where
  sound : task.hand.Sound
  knows : task.hand.Knows s
  keeping : Keeping (fun h _ => task.Leaves h) task.hand task.program

/-- **Every task keeps to the rules, and no key is in the memory of two.** -/
structure BlobWorld.Orderly (w : BlobWorld) : Prop where
  store : w.store.Consistent
  tasks : ∀ (i : ℕ) (task : BlobTask), w.tasks[i]? = some task → task.Orderly w.store
  apart : ∀ (i j : ℕ) (a b : BlobTask), w.tasks[i]? = some a → w.tasks[j]? = some b → i ≠ j →
    ∀ key, a.hand.Live key → ¬ b.hand.Live key

variable {w : BlobWorld}

/-- The tasks after one has moved on. -/
theorem getElem?_set_cases {A : Type} {l : List A} {i j : ℕ} {a b : A}
    (h : (l.set i a)[j]? = some b) : i = j ∧ b = a ∨ i ≠ j ∧ l[j]? = some b := by
  rw [List.getElem?_set] at h
  split_ifs at h with heq hlt
  · exact .inl ⟨heq, (Option.some.inj h).symm⟩
  · exact .inr ⟨heq, h⟩

/-- The tasks after one has joined. -/
theorem getElem?_concat_cases {A : Type} {l : List A} {j : ℕ} {a b : A}
    (h : (l ++ [a])[j]? = some b) : l[j]? = some b ∨ j = l.length ∧ b = a := by
  rcases Nat.lt_trichotomy j l.length with hlt | rfl | hgt
  · rw [List.getElem?_append_left hlt] at h
    exact .inl h
  · rw [List.getElem?_concat_length] at h
    exact .inr ⟨rfl, (Option.some.inj h).symm⟩
  · rw [List.getElem?_eq_none] at h
    · cases h
    · rw [List.length_append]
      exact hgt

/-- **One task moves on**, and the store with it. -/
theorem BlobWorld.Orderly.moved (ho : w.Orderly) {i : ℕ} {task task' : BlobTask} {s : BlobStore}
    (hget : w.tasks[i]? = some task)
    (hserved : Served task.hand task'.hand w.store s) (hsound : task'.hand.Sound)
    (hkeeping : Keeping (fun h _ => task'.Leaves h) task'.hand task'.program) :
    BlobWorld.Orderly ⟨s, w.tasks.set i task'⟩ where
  store := hserved.consistent
  tasks j other hother := by
    rcases getElem?_set_cases hother with ⟨_, rfl⟩ | ⟨hne, hother⟩
    · exact ⟨hsound, hserved.knows, hkeeping⟩
    · have hold := ho.tasks j other hother
      exact ⟨hold.sound, hold.knows.spared hserved.spares fun key hlive =>
        ho.apart i j task other hget hother hne key hlive, hold.keeping⟩
  apart j k a b ha hb hne key hlive hlive' := by
    -- a key of the task that moved on is an old one or has just been drawn
    have hmoved {m : ℕ} {other : BlobTask} (hm : i ≠ m) (hother : w.tasks[m]? = some other)
        (hmine : task'.hand.Live key) : ¬ other.hand.Live key := fun htheirs => by
      rcases hserved.live key hmine with hold | hfresh
      · exact ho.apart i m task other hget hother hm key hold htheirs
      · exact hfresh ((ho.tasks m other hother).knows.drawn key htheirs.2)
    rcases getElem?_set_cases ha with ⟨rfl, rfl⟩ | ⟨hij, hold⟩
    · rcases getElem?_set_cases hb with ⟨heq, _⟩ | ⟨_, hold⟩
      · exact hne heq
      · exact hmoved hne hold hlive hlive'
    · rcases getElem?_set_cases hb with ⟨rfl, rfl⟩ | ⟨_, hold'⟩
      · exact hmoved hij hold hlive' hlive
      · exact ho.apart j k a b hold hold' hne key hlive hlive'

/-- A new task, which remembers nothing. -/
theorem BlobWorld.Orderly.joined (ho : w.Orderly) {task : BlobTask} (hsound : task.hand.Sound)
    (hknows : task.hand.Knows w.store) (hnone : task.hand.written = [])
    (hkeeping : Keeping (fun h _ => task.Leaves h) task.hand task.program) :
    BlobWorld.Orderly { w with tasks := w.tasks ++ [task] } where
  store := ho.store
  tasks j other hother := by
    rcases getElem?_concat_cases hother with hother | ⟨_, rfl⟩
    · exact ho.tasks j other hother
    · exact ⟨hsound, hknows, hkeeping⟩
  apart j k a b ha hb hne key hlive hlive' := by
    have hempty (hlive : task.hand.Live key) : False := by
      have hmem := hlive.2
      rw [hnone] at hmem
      cases hmem
    rcases getElem?_concat_cases ha with ha | ⟨hj, rfl⟩
    · rcases getElem?_concat_cases hb with hb | ⟨_, rfl⟩
      · exact ho.apart j k a b ha hb hne key hlive hlive'
      · exact hempty hlive'
    · exact hempty hlive

/-- The store changes by itself, and leaves every key of a task alone. -/
theorem BlobWorld.Orderly.drifted (ho : w.Orderly) {s : BlobStore} (hconsistent : s.Consistent)
    (hspares : w.store.Spares (fun _ => False) s) : BlobWorld.Orderly { w with store := s } where
  store := hconsistent
  tasks i task hget :=
    have hold := ho.tasks i task hget
    ⟨hold.sound, hold.knows.spared hspares fun _ h => h.elim, hold.keeping⟩
  apart := ho.apart

/-- An empty hand knows nothing. -/
theorem knows_empty {h : Hand} {s : BlobStore} (hwritten : h.written = []) (howed : h.owed = [])
    (hqueued : h.queued = []) (hdeleted : h.deleted = []) (hwrites : h.writes = [])
    (hstored : h.stored = []) : h.Knows s where
  live key hlive := by
    have hmem := hlive.2
    rw [hwritten] at hmem
    cases hmem
  drawn key hkey := by
    rw [hwritten] at hkey
    cases hkey
  owed key hkey := by
    rw [howed] at hkey
    cases hkey
  queued key hkey := by
    rw [hqueued] at hkey
    cases hkey
  deleted key hkey := by
    rw [hdeleted] at hkey
    cases hkey
  cleanups key hkey := by
    rw [hwrites] at hkey
    cases hkey
  puts key hkey := by
    rw [hstored] at hkey
    cases hkey
  stored key _ hput := by
    rw [hstored] at hput
    cases hput

/-- **What a drop leaves**: a cleanup that takes everything over, or nothing to do. -/
theorem keeping_drop {task : BlobTask} {s : BlobStore} (ho : task.Orderly s) :
    Keeping (fun h _ => task.drop.Leaves h) task.drop.hand task.drop.program := by
  have hleaves {h : Hand} (hleft : h.missed = true ∨ h.owed = [] ∧
      (h.settled = true ∨ h.written = [])) (hover : h.stage = .closed) : task.drop.Leaves h :=
    ⟨hleft, hover⟩
  have hprogram : task.drop.program = if task.spawns then cleanupExternalBlobs else .answer false :=
    rfl
  rw [hprogram]
  split_ifs with hspawns
  · have hall : task.hand.guarded = true ∧ task.hand.finished = false := by
      simp only [BlobTask.spawns, Bool.and_eq_true, Bool.not_eq_true'] at hspawns
      exact ⟨hspawns.1.1.1, hspawns.1.2⟩
    have hsettled : task.drop.hand.settled = false := by
      change task.hand.settled = false
      by_contra hasked
      have hfinished := ho.sound.asked hall.1 (Bool.not_eq_false _ ▸ hasked)
      rw [hall.2] at hfinished
      cases hfinished
    have hnone : task.drop.hand.Owes [] := .inr fun _ hkey => hkey
    refine (keeping_lastCleanup rfl hsettled hnone).mono fun known _ _ hkept => ?_
    exact hleaves (hkept.1.imp_right fun hnone => ⟨hnone.1, .inr hnone.2⟩) hkept.2
  · intro _
    refine hleaves ?_ rfl
    change (task.hand.missed || !task.hand.owed.isEmpty
      || !task.spawns && !task.hand.settled && !task.hand.written.isEmpty) = true ∨
      [] = [] ∧ (task.hand.settled = true ∨ task.hand.written = [])
    rw [Bool.not_eq_true] at hspawns
    rw [hspawns]
    rcases hsettled : task.hand.settled with _ | _
    · rcases hwritten : task.hand.written with _ | ⟨key, keys⟩
      · exact .inr ⟨rfl, .inr rfl⟩
      · left
        simp
    · exact .inr ⟨rfl, .inl rfl⟩

/-- The hand of a task that is dropped is within the one it had. -/
theorem within_drop (task : BlobTask) : task.hand.Within task.drop.hand :=
  { within_close task.hand with
    owed := fun _ hkey => by cases hkey
    queued := fun _ hkey => by cases hkey }

/-- **The rules are kept by every event.** -/
theorem BlobWorld.Orderly.step (ho : w.Orderly) (event : BlobEvent) : (w.step event).Orderly := by
  cases event with
  | beginWork =>
    refine ho.joined ?_ (knows_empty rfl rfl rfl rfl rfl rfl) rfl fun _ => ?_
    · exact .idle List.nodup_nil rfl rfl fun _ h => by cases h
    · exact ⟨rfl, ⟨rfl, rfl, rfl, fun _ _ hkey => by cases hkey⟩, .inr fun _ hkey => hkey⟩
  | restore =>
    refine ho.joined ?_ (knows_empty rfl rfl rfl rfl rfl rfl) rfl keeping_restoreMissingAsset
    exact .idle List.nodup_nil rfl rfl fun h => by cases h
  | drain =>
    refine ho.joined ?_ (knows_empty rfl rfl rfl rfl rfl rfl) rfl keeping_drain
    exact .idle List.nodup_nil rfl rfl fun h => by cases h
  | operate i operation =>
    simp only [BlobWorld.step]
    split
    · rename_i hand succeeded consumed dropped hget
      rw [BlobWorld.operate]
      split_ifs with hbusy
      · exact ho
      · have hidle : consumed = false ∧ dropped = false := by
          simpa using hbusy
        obtain ⟨rfl, rfl⟩ := hidle
        have hold := ho.tasks i _ hget
        have hready : hand.Ready := hold.keeping hold.sound
        refine ho.moved hget (.still ho.store hold.knows (.refl _)) hold.sound ?_
        refine (keeping_operation hready operation).mono fun h _ _ hleft => ?_
        cases operation <;> exact hleft
    · exact ho
  | request i fate =>
    simp only [BlobWorld.step]
    split
    · rename_i hand request next consumed dropped hget
      rw [BlobWorld.serve]
      split_ifs with hfits
      · rw [Bool.and_eq_true] at hfits
        have hold := ho.tasks i _ hget
        have hfresh : ∀ key, request = .draw → fate = .fresh key → key ∉ hand.written := by
          rintro key rfl rfl hmem
          exact of_decide_eq_true hfits.2 (hold.knows.drawn key hmem)
        obtain ⟨hmay, hnext⟩ := hold.keeping hold.sound
        have hserved := served_after ho.store hold.knows hold.sound hmay hfits.1 hfits.2
        exact ho.moved hget hserved (hold.sound.after hmay ⟨hfits.1, hfresh⟩)
          (hnext fate ⟨hfits.1, hfresh⟩)
      · exact ho
    · exact ho
  | drop i =>
    simp only [BlobWorld.step]
    split
    · rename_i task hget
      have hold := ho.tasks i _ hget
      refine ho.moved hget (.still ho.store hold.knows (within_drop task)) ?_ (keeping_drop hold)
      exact hold.sound.close.alike rfl rfl rfl rfl rfl rfl rfl rfl rfl rfl
    · exact ho
  | settle j =>
    simp only [BlobWorld.step]
    split
    · rename_i late hget
      have hlate : ∀ key, .delete key ∈ w.store.late.eraseIdx j → key ∈ w.store.retired :=
        fun key hkey => ho.store.late key (List.mem_of_mem_eraseIdx hkey)
      cases late with
      | put key =>
        exact ho.drifted { ho.store.grows key with late := hlate }
          { BlobStore.Spares.grows w.store _ key with }
      | delete key =>
        have hkey : key ∈ w.store.retired := ho.store.late key (List.mem_of_getElem? hget)
        exact ho.drifted { ho.store.shrinks hkey with late := hlate }
          { BlobStore.Spares.shrinks _ (.inl hkey) with }
    · exact ho
  | reclaim key =>
    simp only [BlobWorld.step]
    split_ifs with hrow
    · have hkey : key ∈ w.store.committed := ho.store.rows key hrow
      refine ho.drifted { ho.store with bytes := fun other hother => ?_ }
        { BlobStore.Spares.shrinks _ (.inr hkey) with }
      by_cases heq : other = key
      · exact .inr (heq ▸ List.mem_insert_self)
      · exact (ho.store.bytes other hother).imp
          (fun h => List.mem_filter.mpr ⟨h, decide_eq_true heq⟩) List.mem_insert_of_mem
    · exact ho
  | purge key =>
    simp only [BlobWorld.step]
    split_ifs with hobject
    · exact ho
    · refine ho.drifted { ho.store with
        rows := fun other hother => ho.store.rows other (List.mem_filter.mp hother).1
        bytes := fun other hother => ho.store.bytes other (List.mem_filter.mp hother).1 } ?_
      exact { BlobStore.Spares.refl _ w.store with }

theorem orderly_start : BlobWorld.start.Orderly where
  store :=
    { apart := fun _ hkey => (by cases hkey)
      retired := fun _ hkey => (by cases hkey)
      committed := fun _ hkey => (by cases hkey)
      rows := fun _ hkey => (by cases hkey)
      queue := fun _ hkey => (by cases hkey)
      cleaned := fun _ hkey => (by cases hkey)
      late := fun _ hkey => (by cases hkey)
      bytes := fun _ hkey => (by cases hkey) }
  tasks _ _ hget := by cases hget
  apart _ _ _ _ hget := by cases hget

/-- **Every run keeps to the rules.** -/
theorem orderly_after (events : List BlobEvent) : (after events).Orderly := by
  have hstep : ∀ w event, BlobWorld.Orderly w → (w.step event).Orderly :=
    fun _ event ho => ho.step event
  exact run_preserves hstep events orderly_start

/-- A unit of work stores one asset and commits; another fails to insert its row, cannot delete the
object, queues it and commits. -/
def settledRun : List BlobEvent :=
  let stores (i : ℕ) (key : ℕ) : List BlobEvent :=
    [.beginWork, .operate i (.storeForArticle 1), .request i .served, .request i (.count 0),
      .request i .served, .request i .served, .request i .served, .request i .served,
      .request i .absent, .request i .served, .request i (.fresh ⟨key⟩), .request i .served]
  let commits (i : ℕ) (left : List Uuid) : List BlobEvent :=
    [.operate i (.commit 0), .request i .served, .request i .served, .request i .served,
      .request i .served, .request i .served, .request i (.keys left), .drop i]
  stores 0 1 ++ [.request 0 .served, .request 0 .served, .request 0 .served, .request 0 .served,
    .request 0 .served] ++ commits 0 [] ++
  stores 1 2 ++ [.request 1 (.refused true), .request 1 .served, .request 1 (.keys [⟨2⟩]),
    .request 1 (.refused false), .request 1 .served] ++ commits 1 [⟨2⟩]

/-- **No cleanup deletes what has a row**: a key that a failed batch, a rollback, a drop, a restore
or the drain of the queue has asked to delete has never had a row, and will not have one. -/
theorem cleanup_spares_rows (events : List BlobEvent) :
    ∀ key ∈ (after events).store.cleaned,
      key ∉ (after events).store.committed ∧ key ∉ (after events).store.tables.rows := by
  intro key hkey
  have hc := (orderly_after events).store
  have hcommitted := hc.apart key (hc.cleaned key hkey)
  exact ⟨hcommitted, fun hrow => hcommitted (hc.rows key hrow)⟩

theorem settledRun_spared :
    (⟨2⟩ : Uuid) ∈ (after settledRun).store.cleaned ∧
      (⟨2⟩ : Uuid) ∉ (after settledRun).store.committed ∧
      (⟨2⟩ : Uuid) ∉ (after settledRun).store.tables.rows :=
  ⟨by decide +kernel, cleanup_spares_rows settledRun ⟨2⟩ (by decide +kernel)⟩

/-- **Every row has its bytes**, until an eviction reclaims them. -/
theorem rows_have_bytes (events : List BlobEvent) :
    ∀ key ∈ (after events).store.tables.rows,
      key ∈ (after events).store.objects ∨ key ∈ (after events).store.reclaimed :=
  (orderly_after events).store.bytes

theorem settledRun_served :
    (⟨1⟩ : Uuid) ∈ (after settledRun).store.tables.rows ∧
      ((⟨1⟩ : Uuid) ∈ (after settledRun).store.objects ∨
        (⟨1⟩ : Uuid) ∈ (after settledRun).store.reclaimed) :=
  ⟨by decide +kernel, rows_have_bytes settledRun ⟨1⟩ (by decide +kernel)⟩

/-! ## Runs that give nothing up -/

/-- The open transaction has queued a key. -/
def Hand.queues (h : Hand) : Bool := h.writes.any fun
  | .queueCleanup _ => true
  | _ => false

/-- **A request that gives no key up**: no put takes effect after it was reported as failed; keys
are queued; a commit takes effect, unless there is nothing to lose; and a transaction that has
queued a key is not rolled back. -/
def Hand.lets (h : Hand) : Request → Fate → Bool
  | .put _, fate => decide (fate ≠ .late)
  | .write (.queueCleanup _), fate => decide (fate = .served)
  | .autocommit _, fate => decide (fate = .served)
  | .begin, fate => decide (fate = .served) || h.owed.isEmpty
  | .release, fate => decide (fate = .served) || !h.queues
  | .rollbackTo, fate => decide (fate = .served) || !h.queues
  | .rollback, _ => !h.queues
  | .commit, fate => decide (h.stage = .live) && fate.took
    || (h.settled || h.written.isEmpty) && !h.queues
  | _, _ => true

namespace BlobTask

/-- The program of the task has answered. -/
def ended (task : BlobTask) : Bool :=
  match task.program with
  | .answer _ => true
  | .call _ _ => false

/-- **A drop that gives no key up**: the transaction has queued none, and the task has come to its
end, or holds no key in a local variable and remembers none that it would not clean up. -/
def yields (task : BlobTask) : Bool :=
  !task.hand.queues && (task.ended && (task.consumed || task.dropped) ||
    task.hand.owed.isEmpty &&
      (task.hand.settled || task.hand.written.isEmpty || task.spawns))

end BlobTask

/-- **An event that gives no key up.** -/
def BlobWorld.gentle (w : BlobWorld) : BlobEvent → Bool
  | .request i fate =>
    match w.tasks[i]? with
    | some ⟨hand, .call request _, _, _⟩ => hand.lets request fate
    | _ => true
  | .drop i =>
    match w.tasks[i]? with
    | some task => task.yields
    | none => true
  | _ => true

/-! ## Every object is accounted for -/

/-- The task answers for the key: it remembers it, has to delete it, or has queued it in its open
transaction. -/
def Hand.Holds (h : Hand) (key : Uuid) : Prop :=
  h.Live key ∨ key ∈ h.owed ∨ .queueCleanup key ∈ h.writes

/-- What a request does to the objects and to those that answer for them. -/
structure Accounts (h h' : Hand) (s s' : BlobStore) : Prop where
  missed : h'.missed = false
  puts : ∀ key, .put key ∉ s'.late
  objects : ∀ key ∈ s'.objects, key ∈ s.objects ∨ h.Live key
  deleted : ∀ key ∈ h'.deleted, key ∈ h.deleted ∨ key ∉ s'.objects
  rows : ∀ key ∈ s.tables.rows, key ∈ s'.tables.rows
  queue : ∀ key ∈ s.tables.cleanupQueue, key ∈ s'.tables.cleanupQueue ∨ key ∈ h.deleted
  holds : ∀ key, h.Holds key → h'.Holds key ∨ key ∈ s'.tables.rows ∨ key ∈ s'.tables.cleanupQueue ∨
    key ∈ h.deleted ∨ key ∉ s'.objects

/-- A request that leaves the store as it is, and every key with the task. -/
theorem Accounts.still {h' : Hand} (hmissed : h'.missed = false) (hputs : ∀ key, .put key ∉ s.late)
    (hdeleted : ∀ key ∈ h'.deleted, key ∈ h.deleted) (hholds : ∀ key, h.Holds key → h'.Holds key) :
    Accounts h h' s s :=
  ⟨hmissed, hputs, fun _ h => .inl h, fun key h => .inl (hdeleted key h), fun _ h => h,
    fun _ h => .inl h, fun key h => .inl (hholds key h)⟩

/-- A hand whose keys and writes are as before. -/
theorem Accounts.same {h' : Hand} (hmissed : h'.missed = false) (hputs : ∀ key, .put key ∉ s.late)
    (hsettled : h'.settled = h.settled) (hwritten : h'.written = h.written)
    (howed : h'.owed = h.owed) (hwrites : h'.writes = h.writes)
    (hdeleted : h'.deleted = h.deleted) : Accounts h h' s s := by
  refine .still hmissed hputs (fun key hkey => hdeleted ▸ hkey) fun key hholds => ?_
  rw [Holds, Live, hsettled, hwritten, howed, hwrites]
  exact hholds

/-- A transaction that has queued nothing comes to its end. -/
theorem Accounts.close {h' : Hand} (hmissed : h'.missed = false) (hputs : ∀ key, .put key ∉ s.late)
    (hsettled : h'.settled = h.settled) (hwritten : h'.written = h.written)
    (howed : h'.owed = h.owed) (hdeleted : h'.deleted = h.deleted)
    (hqueues : h.queues = false) : Accounts h h' s s := by
  refine .still hmissed hputs (fun key hkey => hdeleted ▸ hkey) fun key hholds => ?_
  rw [Holds, Live, hsettled, hwritten, howed]
  rcases hholds with hlive | howed | hwrite
  · exact .inl hlive
  · exact .inr (.inl howed)
  · have hany : h.queues = true := List.any_eq_true.mpr ⟨_, hwrite, rfl⟩
    rw [hqueues] at hany
    cases hany

/-- A row stays, unless it is deleted. -/
theorem mem_rows_foldl {key : Uuid} : ∀ (writes : List BlobWrite) (t : BlobTables),
    (∀ keys, .deleteRows keys ∈ writes → key ∉ keys) →
      key ∈ t.rows ∨ .insertRow key ∈ writes → key ∈ (writes.foldl BlobTables.apply t).rows
  | [], _, _, hkey => hkey.resolve_right List.not_mem_nil
  | change :: writes, t, hkept, hkey => by
    refine mem_rows_foldl writes (t.apply change) (fun keys hkeys => hkept keys (.tail _ hkeys)) ?_
    rcases hkey with hkey | hkey
    · left
      cases change with
      | insertRow other => exact List.mem_insert_of_mem hkey
      | deleteRows keys =>
        exact List.mem_filter.mpr ⟨hkey, decide_eq_true (hkept keys (.head _))⟩
      | _ => exact hkey
    · rcases List.mem_cons.mp hkey with rfl | hkey
      · exact .inl List.mem_insert_self
      · exact .inr hkey

/-- A key stays queued, unless it is taken from the queue. -/
theorem mem_queue_foldl {key : Uuid} : ∀ (writes : List BlobWrite) (t : BlobTables),
    .dequeueCleanup key ∉ writes → key ∈ t.cleanupQueue ∨ .queueCleanup key ∈ writes →
      key ∈ (writes.foldl BlobTables.apply t).cleanupQueue
  | [], _, _, hkey => hkey.resolve_right List.not_mem_nil
  | change :: writes, t, hkept, hkey => by
    refine mem_queue_foldl writes (t.apply change) (fun h => hkept (.tail _ h)) ?_
    rcases hkey with hkey | hkey
    · left
      cases change with
      | queueCleanup other => exact List.mem_insert_of_mem hkey
      | dequeueCleanup other =>
        refine List.mem_filter.mpr ⟨hkey, decide_eq_true fun heq => ?_⟩
        exact hkept (heq ▸ .head _)
      | _ => exact hkey
    · rcases List.mem_cons.mp hkey with rfl | hkey
      · exact .inl List.mem_insert_self
      · exact .inr hkey

/-- **A commit that takes effect** hands every key over to its row or to the queue. -/
theorem accounts_commit {fate : Fate} (hc : s.Consistent) (hk : h.Knows s) (hs : h.Sound)
    (hmay : h.May .commit) (hlets : h.lets .commit fate = true) (hmissed : h.missed = false)
    (hputs : ∀ key, .put key ∉ s.late) :
    Accounts h (h.after .commit fate) s (s.after h .commit fate) := by
  by_cases htakes : h.stage = .live ∧ fate.took
  · rw [show s.after h .commit fate = _ from if_pos htakes]
    have hrows {key : Uuid} (hretired : key ∉ s.retired)
        (hkey : key ∈ s.tables.rows ∨ .insertRow key ∈ h.writes) :
        key ∈ (h.writes.foldl BlobTables.apply s.tables).rows :=
      mem_rows_foldl _ _ (fun keys hkeys hmem =>
        hretired (hk.deleted key (hs.deletes keys hkeys key hmem))) hkey
    have hqueue {key : Uuid}
        (hkey : key ∈ s.tables.cleanupQueue ∨ .queueCleanup key ∈ h.writes) :
        key ∈ (h.writes.foldl BlobTables.apply s.tables).cleanupQueue ∨ key ∈ h.deleted := by
      by_cases hdeleted : key ∈ h.deleted
      · exact .inr hdeleted
      · exact .inl (mem_queue_foldl _ _ (fun h => hdeleted (hs.dequeues key h)) hkey)
    refine ⟨hmissed, hputs, fun _ h => .inl h, fun _ h => .inl h, fun key hkey => ?_,
      fun key hkey => hqueue (.inl hkey), fun key hholds => ?_⟩
    · exact hrows (fun h => hc.apart key h (hc.rows key hkey)) (.inl hkey)
    · rcases hholds with hlive | howed | hwrite
      · exact .inr (.inl (hrows (hk.live key hlive).1
          (.inr (hmay.2 htakes.1 hlive.1 key hlive.2))))
      · exact .inl (.inr (.inl howed))
      · exact .inr (.inr ((hqueue (.inr hwrite)).imp_right .inl))
  · rw [show s.after h .commit fate = s from if_neg htakes]
    -- nothing is lost where nothing is remembered and nothing has been queued
    have hnothing : (h.settled = true ∨ h.written = []) ∧ h.queues = false := by
      rw [lets, Bool.or_eq_true, Bool.and_eq_true, Bool.and_eq_true, Bool.or_eq_true,
        Bool.not_eq_true', List.isEmpty_iff] at hlets
      exact hlets.resolve_left fun hlive => htakes ⟨of_decide_eq_true hlive.1, hlive.2⟩
    refine .still hmissed hputs (fun _ h => h) fun key hholds => ?_
    rcases hholds with hlive | howed | hwrite
    · rcases hnothing.1 with hsettled | hwritten
      · rw [hlive.1] at hsettled
        cases hsettled
      · exact absurd (hwritten ▸ hlive.2) List.not_mem_nil
    · exact .inr (.inl howed)
    · have hany : h.queues = true := List.any_eq_true.mpr ⟨_, hwrite, rfl⟩
      rw [hnothing.2] at hany
      cases hany

/-- A put that is not late. -/
theorem accounts_put {key : Uuid} {fate : Fate} (hlive : h.Live key)
    (hlets : h.lets (.put key) fate = true) (hmissed : h.missed = false)
    (hputs : ∀ key, .put key ∉ s.late) :
    Accounts h (h.after (.put key) fate) s (s.after h (.put key) fate) := by
  have hgrown {h' : Hand} (hmissed : h'.missed = false) (hdeleted : h'.deleted = h.deleted)
      (hholds : ∀ key, h.Holds key → h'.Holds key) :
      Accounts h h' s { s with objects := s.objects.insert key } := by
    refine ⟨hmissed, hputs, fun other hother => ?_, fun _ h => .inl (hdeleted ▸ h), fun _ h => h,
      fun _ h => .inl h, fun other h => .inl (hholds other h)⟩
    rcases List.mem_insert_iff.mp hother with rfl | hother
    · exact .inr hlive
    · exact .inl hother
  cases fate with
  | served => exact hgrown hmissed rfl fun _ h => h
  | refused took => cases took with
    | true => exact hgrown hmissed rfl fun _ h => h
    | false => exact .same hmissed hputs rfl rfl rfl rfl rfl
  | late => cases hlets
  | _ => exact .same hmissed hputs rfl rfl rfl rfl rfl

/-- A delete. -/
theorem accounts_delete {key : Uuid} {fate : Fate} (hmissed : h.missed = false)
    (hputs : ∀ key, .put key ∉ s.late) :
    Accounts h (h.after (.delete key) fate) s (s.after h (.delete key) fate) := by
  have hgone : key ∉ s.objects.filter (· ≠ key) := fun hmem =>
    of_decide_eq_true (List.mem_filter.mp hmem).2 rfl
  cases fate with
  | served =>
    refine ⟨hmissed, hputs, fun _ h => .inl (List.mem_filter.mp h).1, fun other hother => ?_,
      fun _ h => h, fun _ h => .inl h, fun other hholds => ?_⟩
    · rcases List.mem_cons.mp hother with rfl | hother
      · exact .inr hgone
      · exact .inl hother
    · by_cases heq : other = key
      · exact .inr (.inr (.inr (.inr (heq ▸ hgone))))
      · exact .inl (hholds.imp_right (.imp_left fun howed =>
          List.mem_filter.mpr ⟨howed, decide_eq_true heq⟩))
  | refused took => cases took with
    | true =>
      exact ⟨hmissed, hputs, fun _ h => .inl (List.mem_filter.mp h).1, fun _ h => .inl h,
        fun _ h => h, fun _ h => .inl h, fun _ h => .inl h⟩
    | false =>
      exact ⟨hmissed, hputs, fun _ h => .inl h, fun _ h => .inl h, fun _ h => h, fun _ h => .inl h,
        fun _ h => .inl h⟩
  | late =>
    refine ⟨hmissed, fun other hother => ?_, fun _ h => .inl h, fun _ h => .inl h, fun _ h => h,
      fun _ h => .inl h, fun _ h => .inl h⟩
    rcases List.mem_append.mp hother with hother | hother
    · exact hputs other hother
    · cases List.mem_singleton.mp hother
  | _ =>
    exact ⟨hmissed, hputs, fun _ h => .inl h, fun _ h => .inl h, fun _ h => h, fun _ h => .inl h,
      fun _ h => .inl h⟩

/-- Keys that are taken out of the memory of a task are owed from then on. -/
theorem accounts_takeWritten {start : ℕ} (hmissed : h.missed = false)
    (hputs : ∀ key, .put key ∉ s.late) :
    Accounts h (h.after (.takeWritten start) (.keys (h.written.drop start))) s
      (s.after h (.takeWritten start) (.keys (h.written.drop start))) := by
  refine ⟨hmissed, hputs, fun _ h => .inl h, fun _ h => .inl h, fun _ h => h, fun _ h => .inl h,
    fun key hholds => .inl ?_⟩
  rcases hholds with hlive | howed | hwrite
  · have hmem := hlive.2
    rw [← List.take_append_drop start h.written] at hmem
    rcases List.mem_append.mp hmem with htake | hdrop
    · exact .inl ⟨hlive.1, htake⟩
    · exact .inr (.inl (List.mem_append_right _ hdrop))
  · exact .inr (.inl (List.mem_append_left _ howed))
  · exact .inr (.inr hwrite)

/-- A key that is queued, in the transaction. -/
theorem accounts_write {change : BlobWrite} {fate : Fate}
    (hlets : h.lets (.write change) fate = true) (hmissed : h.missed = false)
    (hputs : ∀ key, .put key ∉ s.late) :
    Accounts h (h.after (.write change) fate) s s := by
  have hkept {change : BlobWrite} (hchange : ∀ key, change ≠ .queueCleanup key) :
      (h.handOver change).owed = h.owed ∧ (h.miss change).missed = h.missed := by
    cases change with
    | queueCleanup key => exact absurd rfl (hchange key)
    | _ => exact ⟨rfl, rfl⟩
  by_cases hqueues : ∃ key, change = .queueCleanup key
  · obtain ⟨key, rfl⟩ := hqueues
    obtain rfl : fate = .served := of_decide_eq_true hlets
    refine .still hmissed hputs (fun _ h => h) fun other hholds => ?_
    rcases hholds with hlive | howed | hwrite
    · exact .inl hlive
    · by_cases heq : other = key
      · exact .inr (.inr (List.mem_append_right _ (heq ▸ List.mem_singleton.mpr rfl)))
      · exact .inr (.inl (List.mem_filter.mpr ⟨howed, decide_eq_true heq⟩))
    · exact .inr (.inr (List.mem_append_left _ hwrite))
  · have hchange : ∀ key, change ≠ .queueCleanup key := fun key heq => hqueues ⟨key, heq⟩
    obtain ⟨howed', hmissed'⟩ := hkept hchange
    cases fate with
    | served =>
      refine .still hmissed hputs (fun _ h => h) fun other hholds => ?_
      rcases hholds with hlive | howed | hwrite
      · exact .inl hlive
      · exact .inr (.inl (howed'.symm ▸ howed))
      · exact .inr (.inr (List.mem_append_left _ hwrite))
    | refused aborts => exact .same (hmissed'.trans hmissed) hputs rfl rfl rfl rfl rfl
    | _ => exact .same (hmissed'.trans hmissed) hputs rfl rfl rfl rfl rfl

/-- A key that is queued in a statement of its own. -/
theorem accounts_autocommit {change : BlobWrite} {fate : Fate} (hmay : h.May (.autocommit change))
    (hlets : h.lets (.autocommit change) fate = true) (hmissed : h.missed = false)
    (hputs : ∀ key, .put key ∉ s.late) :
    Accounts h (h.after (.autocommit change) fate) s (s.after h (.autocommit change) fate) := by
  obtain rfl : fate = .served := of_decide_eq_true hlets
  cases change with
  | queueCleanup key =>
    refine ⟨hmissed, hputs, fun _ h => .inl h, fun _ h => .inl h, fun _ h => h,
      fun _ h => .inl (List.mem_insert_of_mem h), fun other hholds => ?_⟩
    by_cases heq : other = key
    · exact .inr (.inr (.inl (heq ▸ List.mem_insert_self)))
    · exact .inl (hholds.imp_right (.imp_left fun howed =>
        List.mem_filter.mpr ⟨howed, decide_eq_true heq⟩))
  | _ => exact hmay.elim

/-- **One request that gives no key up.** -/
theorem accounts_after {request : Request} {fate : Fate} (hc : s.Consistent) (hk : h.Knows s)
    (hs : h.Sound) (hmay : h.May request) (hfits : h.fits request fate = true)
    (hlets : h.lets request fate = true) (hmissed : h.missed = false)
    (hputs : ∀ key, .put key ∉ s.late) :
    Accounts h (h.after request fate) s (s.after h request fate) := by
  have hserved : decide (fate = .served) || !h.queues → fate = .served ∨ h.queues = false :=
    fun hor => by simpa using hor
  cases request with
  | commit => exact accounts_commit hc hk hs hmay hlets hmissed hputs
  | put key => exact accounts_put hmay hlets hmissed hputs
  | delete key => exact accounts_delete hmissed hputs
  | takeWritten start =>
    obtain rfl : fate = .keys (h.written.drop start) := of_decide_eq_true hfits
    exact accounts_takeWritten hmissed hputs
  | write change => exact accounts_write hlets hmissed hputs
  | autocommit change => exact accounts_autocommit hmay hlets hmissed hputs
  | draw => cases fate with
    | fresh key =>
      refine ⟨hmissed, hputs, fun _ h => .inl h, fun _ h => .inl h, fun _ h => h,
        fun _ h => .inl h, fun other hholds => .inl ?_⟩
      exact hholds.imp_left fun hlive => ⟨hlive.1, List.mem_append_left _ hlive.2⟩
    | _ => exact .same hmissed hputs rfl rfl rfl rfl rfl
  | begin => cases fate with
    | served => exact .same hmissed hputs rfl rfl rfl rfl rfl
    | _ =>
      have hnone : (h.missed || !h.owed.isEmpty) = false := by
        have hempty : h.owed.isEmpty = true := by simpa [lets] using hlets
        rw [hmissed, hempty]
        rfl
      exact .same hnone hputs rfl rfl rfl rfl rfl
  | release =>
    rcases hserved hlets with rfl | hqueues
    · exact .same hmissed hputs rfl rfl rfl rfl rfl
    · cases fate with
      | served => exact .same hmissed hputs rfl rfl rfl rfl rfl
      | refused took => cases took <;> exact .close hmissed hputs rfl rfl rfl rfl hqueues
      | _ => exact .close hmissed hputs rfl rfl rfl rfl hqueues
  | rollbackTo =>
    rcases hserved hlets with rfl | hqueues
    · obtain ⟨n, hn⟩ := Option.isSome_iff_exists.mp hfits
      refine .still hmissed hputs (fun _ h => h) fun key hholds => ?_
      refine hholds.imp_right (.imp_right fun hwrite => ?_)
      change _ ∈ h.writes.take (h.savepoint.getD 0)
      rw [hn]
      exact (hs.batch n hn).2.2.2 key hwrite
    · cases fate <;> exact .close hmissed hputs rfl rfl rfl rfl hqueues
  | rollback =>
    have hqueues : h.queues = false := by simpa [lets] using hlets
    exact .close hmissed hputs rfl rfl rfl rfl hqueues
  | statement => cases fate <;> exact .same hmissed hputs rfl rfl rfl rfl rfl
  | lookup => cases fate <;> exact .same hmissed hputs rfl rfl rfl rfl rfl
  | cleanupQueue => cases fate <;> exact .same hmissed hputs rfl rfl rfl rfl rfl
  | savepoint => cases fate <;> exact .same hmissed hputs rfl rfl rfl rfl rfl
  | writtenLength => cases fate <;> exact .same hmissed hputs rfl rfl rfl rfl rfl
  | finish => exact .same hmissed hputs rfl rfl rfl rfl rfl
  | drainDeletions => exact .same hmissed hputs rfl rfl rfl rfl rfl

/-! ## Whole runs -/

/-- The key has its row, is queued, or is in the hands of a task. -/
def BlobWorld.Answers (w : BlobWorld) (key : Uuid) : Prop :=
  key ∈ w.store.tables.rows ∨ key ∈ w.store.tables.cleanupQueue ∨
    ∃ task ∈ w.tasks, task.hand.Holds key

/-- **Every object is accounted for**, as long as no key is given up. -/
structure BlobWorld.Sealed (w : BlobWorld) : Prop where
  orderly : w.Orderly
  puts : ∀ key, .put key ∉ w.store.late
  missed : ∀ task ∈ w.tasks, task.hand.missed = false
  deleted : ∀ task ∈ w.tasks, ∀ key ∈ task.hand.deleted, key ∉ w.store.objects
  objects : ∀ key ∈ w.store.objects, w.Answers key

/-- **One task moves on** and gives no key up. -/
theorem BlobWorld.Sealed.moved (hw : w.Sealed) {i : ℕ} {task task' : BlobTask} {s : BlobStore}
    (hget : w.tasks[i]? = some task) (hordered : BlobWorld.Orderly ⟨s, w.tasks.set i task'⟩)
    (ha : Accounts task.hand task'.hand w.store s) :
    BlobWorld.Sealed ⟨s, w.tasks.set i task'⟩ := by
  have hmem : task ∈ w.tasks := List.mem_of_getElem? hget
  have hlt : i < w.tasks.length := (List.getElem?_eq_some_iff.mp hget).1
  have hmine : task' ∈ w.tasks.set i task' := List.mem_set hlt task'
  -- what has been deleted is not there, and is not put again
  have hdeleted {other : BlobTask} (hother : other ∈ w.tasks) {key : Uuid}
      (hkey : key ∈ other.hand.deleted) : key ∉ s.objects := fun hobject => by
    rcases ha.objects key hobject with hold | hlive
    · exact hw.deleted other hother key hkey hold
    · obtain ⟨j, hj⟩ := List.getElem?_of_mem hother
      have hretired := (hw.orderly.tasks j other hj).knows.deleted key hkey
      exact ((hw.orderly.tasks i task hget).knows.live key hlive).1 hretired
  refine ⟨hordered, ha.puts, fun other hother => ?_, fun other hother key hkey => ?_,
    fun key hkey => ?_⟩
  · rcases List.mem_or_eq_of_mem_set hother with hother | rfl
    · exact hw.missed other hother
    · exact ha.missed
  · rcases List.mem_or_eq_of_mem_set hother with hother | rfl
    · exact hdeleted hother hkey
    · exact (ha.deleted key hkey).elim (hdeleted hmem) id
  · -- the task that moved on answers for its keys as before, or has handed them over
    have hholds (hold : task.hand.Holds key) : BlobWorld.Answers ⟨s, w.tasks.set i task'⟩ key := by
      rcases ha.holds key hold with hnew | hrow | hqueue | hgone | hgone
      · exact .inr (.inr ⟨task', hmine, hnew⟩)
      · exact .inl hrow
      · exact .inr (.inl hqueue)
      · exact absurd hkey (hdeleted hmem hgone)
      · exact absurd hkey hgone
    rcases ha.objects key hkey with hold | hlive
    · rcases hw.objects key hold with hrow | hqueue | ⟨other, hother, hheld⟩
      · exact .inl (ha.rows key hrow)
      · rcases ha.queue key hqueue with hqueue | hgone
        · exact .inr (.inl hqueue)
        · exact absurd hkey (hdeleted hmem hgone)
      · obtain ⟨j, hj⟩ := List.getElem?_of_mem hother
        by_cases hij : i = j
        · subst hij
          rw [hget] at hj
          obtain rfl := Option.some.inj hj
          exact hholds hheld
        · have hstill : (w.tasks.set i task')[j]? = some other := by
            rw [List.getElem?_set_ne hij]
            exact hj
          exact .inr (.inr ⟨other, List.mem_of_getElem? hstill, hheld⟩)
    · exact hholds (.inl hlive)

/-- A new task, with empty hands. -/
theorem BlobWorld.Sealed.joined (hw : w.Sealed) {task : BlobTask}
    (hordered : BlobWorld.Orderly { w with tasks := w.tasks ++ [task] })
    (hmissed : task.hand.missed = false) (hnone : task.hand.deleted = []) :
    BlobWorld.Sealed { w with tasks := w.tasks ++ [task] } := by
  refine ⟨hordered, hw.puts, fun other hother => ?_, fun other hother key hkey => ?_,
    fun key hkey => ?_⟩
  · rcases List.mem_append.mp hother with hother | hother
    · exact hw.missed other hother
    · exact List.mem_singleton.mp hother ▸ hmissed
  · rcases List.mem_append.mp hother with hother | hother
    · exact hw.deleted other hother key hkey
    · obtain rfl := List.mem_singleton.mp hother
      rw [hnone] at hkey
      cases hkey
  · refine (hw.objects key hkey).imp_right (.imp_right fun hheld => ?_)
    obtain ⟨other, hother, hheld⟩ := hheld
    exact ⟨other, List.mem_append_left _ hother, hheld⟩

/-- Objects go, and what answers for those that are left stays. -/
theorem BlobWorld.Sealed.drifted (hw : w.Sealed) {s : BlobStore}
    (hordered : BlobWorld.Orderly { w with store := s }) (hputs : ∀ key, .put key ∉ s.late)
    (hobjects : ∀ key ∈ s.objects, key ∈ w.store.objects)
    (hrows : ∀ key ∈ s.objects, key ∈ w.store.tables.rows → key ∈ s.tables.rows)
    (hqueue : s.tables.cleanupQueue = w.store.tables.cleanupQueue) :
    BlobWorld.Sealed { w with store := s } :=
  ⟨hordered, hputs, hw.missed,
    fun task htask key hkey hobject => hw.deleted task htask key hkey (hobjects key hobject),
    fun key hkey => (hw.objects key (hobjects key hkey)).imp (hrows key hkey)
      (.imp_left fun hqueued => hqueue.symm ▸ hqueued)⟩

theorem BlobTask.answers_of_ended {task : BlobTask} {s : BlobStore} (ho : task.Orderly s)
    (hended : task.ended = true) : task.Leaves task.hand := by
  have hkeeping := ho.keeping
  rcases hprogram : task.program with succeeded | ⟨request, next⟩
  · rw [hprogram] at hkeeping
    exact hkeeping ho.sound
  · rw [BlobTask.ended, hprogram] at hended
    cases hended

/-- A task that comes to its end, or may be dropped, owes nothing and leaves nothing behind. -/
theorem nothing_left {task : BlobTask} {s : BlobStore} (ho : task.Orderly s)
    (hmissed : task.hand.missed = false)
    (hcase : task.ended = true ∧ (task.consumed = true ∨ task.dropped = true) ∨
      task.hand.owed = [] ∧
        (task.hand.settled = true ∨ task.hand.written = [] ∨ task.spawns = true)) :
    task.hand.owed = [] ∧
      (task.hand.settled = true ∨ task.hand.written = [] ∨ task.spawns = true) := by
  rcases hcase with ⟨hended, hwhich⟩ | hleft
  · have hleaves := BlobTask.answers_of_ended ho hended
    have hnot : ¬ task.hand.missed = true := fun h => by
      rw [hmissed] at h
      cases h
    rw [BlobTask.Leaves] at hleaves
    split_ifs at hleaves with hdropped hconsumed
    · obtain ⟨howed, hkept⟩ := hleaves.1.resolve_left hnot
      exact ⟨howed, hkept.imp_right .inl⟩
    · obtain ⟨howed, hkept⟩ := hleaves.resolve_left hnot
      refine ⟨howed, hkept.imp_right fun hkept => ?_⟩
      rcases hkept with hwritten | ⟨hguarded, hunfinished⟩
      · exact .inl hwritten
      · rcases hwritten : task.hand.written with _ | ⟨key, keys⟩
        · exact .inl rfl
        · right
          rw [Bool.not_eq_true] at hdropped
          rw [BlobTask.spawns, hguarded, hdropped, hunfinished, hwritten]
          rfl
    · rcases hwhich with hconsumed' | hdropped'
      · exact absurd hconsumed' hconsumed
      · exact absurd hdropped' hdropped
  · exact hleft

/-- **A drop that gives no key up.** -/
theorem accounts_drop {task : BlobTask} {s : BlobStore} (ho : task.Orderly s)
    (hmissed : task.hand.missed = false) (hputs : ∀ key, .put key ∉ s.late)
    (hyields : task.yields = true) : Accounts task.hand task.drop.hand s s := by
  obtain ⟨hqueues, hcase⟩ : task.hand.queues = false ∧ (task.ended = true ∧
      (task.consumed = true ∨ task.dropped = true) ∨ task.hand.owed = [] ∧
      (task.hand.settled = true ∨ task.hand.written = [] ∨ task.spawns = true)) := by
    simpa [BlobTask.yields, List.isEmpty_iff, or_assoc] using hyields
  obtain ⟨howed, hleft⟩ := nothing_left ho hmissed hcase
  have hkept : task.drop.hand.missed = false := by
    change (task.hand.missed || !task.hand.owed.isEmpty
      || !task.spawns && !task.hand.settled && !task.hand.written.isEmpty) = false
    rw [hmissed, howed]
    rcases hleft with hsettled | hwritten | hspawns
    · rw [hsettled]
      simp
    · rw [hwritten]
      simp
    · rw [hspawns]
      rfl
  refine .still hkept hputs (fun _ h => h) fun key hholds => ?_
  rcases hholds with hlive | hkey | hwrite
  · exact .inl hlive
  · rw [howed] at hkey
    cases hkey
  · have hany : task.hand.queues = true := List.any_eq_true.mpr ⟨_, hwrite, rfl⟩
    rw [hqueues] at hany
    cases hany

/-- **Every event that gives no key up keeps all objects accounted for.** -/
theorem BlobWorld.Sealed.step (hw : w.Sealed) (event : BlobEvent)
    (hgentle : w.gentle event = true) : (w.step event).Sealed := by
  have hordered := hw.orderly.step event
  cases event with
  | beginWork => exact hw.joined hordered rfl rfl
  | restore => exact hw.joined hordered rfl rfl
  | drain => exact hw.joined hordered rfl rfl
  | operate i operation =>
    simp only [BlobWorld.step] at hordered ⊢
    split at hordered
    · rename_i hand succeeded consumed dropped hget
      rw [BlobWorld.operate] at hordered ⊢
      split_ifs at hordered ⊢ with hbusy
      · exact hw
      · have hmissed := hw.missed _ (List.mem_of_getElem? hget)
        exact hw.moved hget hordered (.same hmissed hw.puts rfl rfl rfl rfl rfl)
    · exact hw
  | request i fate =>
    simp only [BlobWorld.step] at hordered ⊢
    simp only [BlobWorld.gentle] at hgentle
    split at hordered
    · rename_i hand request next consumed dropped hget
      rw [hget] at hgentle
      rw [BlobWorld.serve] at hordered ⊢
      split_ifs at hordered ⊢ with hfits
      · rw [Bool.and_eq_true] at hfits
        have hold := hw.orderly.tasks i _ hget
        have hmissed := hw.missed _ (List.mem_of_getElem? hget)
        exact hw.moved hget hordered (accounts_after hw.orderly.store hold.knows hold.sound
          (hold.keeping hold.sound).1 hfits.1 hgentle hmissed hw.puts)
      · exact hw
    · exact hw
  | drop i =>
    simp only [BlobWorld.step] at hordered ⊢
    simp only [BlobWorld.gentle] at hgentle
    split at hordered
    · rename_i task hget
      rw [hget] at hgentle
      have hold := hw.orderly.tasks i _ hget
      have hmissed := hw.missed _ (List.mem_of_getElem? hget)
      exact hw.moved hget hordered (accounts_drop hold hmissed hw.puts hgentle)
    · exact hw
  | settle j =>
    simp only [BlobWorld.step] at hordered ⊢
    split at hordered
    · rename_i late hget
      have hmem : late ∈ w.store.late := List.mem_of_getElem? hget
      cases late with
      | put key => exact absurd hmem (hw.puts key)
      | delete key =>
        exact hw.drifted hordered (fun key h => hw.puts key (List.mem_of_mem_eraseIdx h))
          (fun _ h => (List.mem_filter.mp h).1) (fun _ _ h => h) rfl
    · exact hw
  | reclaim key =>
    simp only [BlobWorld.step] at hordered ⊢
    split_ifs at hordered ⊢ with hrow
    · exact hw.drifted hordered hw.puts (fun _ h => (List.mem_filter.mp h).1) (fun _ _ h => h) rfl
    · exact hw
  | purge key =>
    simp only [BlobWorld.step] at hordered ⊢
    split_ifs at hordered ⊢ with hobject
    · exact hw
    · refine hw.drifted hordered hw.puts (fun _ h => h) (fun other hother hrow => ?_) rfl
      exact List.mem_filter.mpr ⟨hrow, decide_eq_true fun heq => hobject (heq ▸ hother)⟩

theorem sealed_start : BlobWorld.start.Sealed :=
  ⟨orderly_start, fun _ h => (by cases h), fun _ h => (by cases h), fun _ h => (by cases h),
    fun _ h => (by cases h)⟩

/-- The task has been dropped, and no cleanup of it is under way. -/
def BlobTask.Rests (task : BlobTask) : Prop := task.dropped = true ∧ task.ended = true

/-- A task that rests holds nothing. -/
theorem rests_holds {task : BlobTask} {s : BlobStore} (ho : task.Orderly s)
    (hmissed : task.hand.missed = false) (hrests : task.Rests) (key : Uuid) :
    ¬ task.hand.Holds key := by
  have hleaves := BlobTask.answers_of_ended ho hrests.2
  rw [BlobTask.Leaves, if_pos hrests.1] at hleaves
  obtain ⟨hkept, hstage⟩ := hleaves
  have hnot : ¬ task.hand.missed = true := fun h => by
    rw [hmissed] at h
    cases h
  obtain ⟨howed, hleft⟩ := hkept.resolve_left hnot
  rintro (hlive | hkey | hwrite)
  · rcases hleft with hsettled | hwritten
    · rw [hlive.1] at hsettled
      cases hsettled
    · exact absurd (hwritten ▸ hlive.2) List.not_mem_nil
  · rw [howed] at hkey
    cases hkey
  · rw [(ho.sound.ended hstage).1] at hwrite
    cases hwrite

/-- **Nothing leaks**, in a run that gives no key up: every object has its row, or is queued for
cleanup, or a task that is still there answers for it. -/
theorem objects_accounted (events : List BlobEvent)
    (hgentle : Meets BlobWorld.step (fun w event => w.gentle event = true) .start events) :
    ∀ key ∈ (after events).store.objects,
      key ∈ (after events).store.tables.rows ∨ key ∈ (after events).store.tables.cleanupQueue ∨
        ∃ task ∈ (after events).tasks, ¬ task.Rests ∧ task.hand.Holds key := by
  intro key hkey
  have hw : (after events).Sealed :=
    run_invariant (fun _ event hw hgentle => hw.step event hgentle) events sealed_start hgentle
  refine (hw.objects key hkey).imp_right (.imp_right fun hheld => ?_)
  obtain ⟨task, htask, hholds⟩ := hheld
  obtain ⟨i, hi⟩ := List.getElem?_of_mem htask
  exact ⟨task, htask, fun hrests => rests_holds (hw.orderly.tasks i task hi)
    (hw.missed task htask) hrests key hholds, hholds⟩

theorem settledRun_accounted :
    ((after settledRun).store.objects = [⟨2⟩, ⟨1⟩] ∧
      (after settledRun).store.tables = ⟨[⟨1⟩], [⟨2⟩]⟩) ∧
    ∀ key ∈ (after settledRun).store.objects,
      key ∈ (after settledRun).store.tables.rows ∨
        key ∈ (after settledRun).store.tables.cleanupQueue ∨
          ∃ task ∈ (after settledRun).tasks, ¬ task.Rests ∧ task.hand.Holds key :=
  ⟨by decide +kernel, objects_accounted settledRun (by decide +kernel)⟩

/-- A unit of work that is dropped after it has queued the key of a failed batch: the object is
nobody's any more. -/
example :
    let w := after [.beginWork, .operate 0 (.storeForArticle 1), .request 0 .served,
      .request 0 (.count 0), .request 0 .served, .request 0 .served, .request 0 .served,
      .request 0 .served, .request 0 .absent, .request 0 .served, .request 0 (.fresh ⟨1⟩),
      .request 0 .served, .request 0 (.refused true), .request 0 .served, .request 0 (.keys [⟨1⟩]),
      .request 0 (.refused false), .request 0 .served, .drop 0]
    w.store.objects = [⟨1⟩] ∧ w.store.tables = ⟨[], []⟩ ∧
      w.tasks.map (fun task => (task.dropped, task.ended)) = [(true, true)] := by
  decide +kernel

end ExternalBlobs

end Werrss
