import Werrss.Persistence.RepairCircuit

/-!
# Persistence/RecoveryDocket — the recovery rows of the queue, and the slots they take

    job ◂── job_id ── recovery row          an active job: its row takes a slot
    ── admit ─▸ one slot more     ── succeed, fail ─▸ one less     ── enqueue, annotate ─▸ as many

The `jobs` table and `asset_repair_jobs`, as far as the recovery of assets goes.  A row belongs to a
job and says what the key of that job is, so what the queue keeps apart by key the recovery keeps
apart by asset and by article.
-/

open Machinery

namespace Werrss

open RepairCircuit (repairKey)

/-- The jobs and their recovery rows. -/
structure Docket where
  jobs : List JobRow
  repairs : List RepairJobRow

def RecoveryTables.docket (t : RecoveryTables) : Docket := ⟨t.jobs, t.repairJobs⟩

/-- The job is active. -/
def JobRow.Active (job : JobRow) : Prop := job.status ∈ JobRow.activeStatuses

instance (job : JobRow) : Decidable job.Active :=
  inferInstanceAs (Decidable (job.status ∈ JobRow.activeStatuses))

namespace Docket

/-- The job of the row is active. -/
def isActive (d : Docket) (repair : RepairJobRow) : Bool :=
  d.jobs.any fun job =>
    decide (job.id = repair.jobId) && decide (job.status ∈ JobRow.activeStatuses)

/-- The slots that rows of a kind take. -/
def slots (d : Docket) (kind : RepairJobRow → Bool) : ℕ :=
  d.repairs.countP fun repair => kind repair && d.isActive repair

/-- What a row says of its job. -/
structure Names (repair : RepairJobRow) (job : JobRow) : Prop where
  asset : ∀ assetId, repair.assetRecordId = some assetId → job.dedupeKey = repairKey assetId
  article : ∀ sourceId reviewId, repair.refreshSourceId = some sourceId →
    repair.refreshReviewId = some reviewId → job.dedupeKey = refreshKey sourceId reviewId
  jobType : repair.admissionClass = .internalRefresh → job.jobType = jobTypeName .assetRefresh

/-- **The docket is filed**: identifiers are unique, so are the keys of active jobs, and every row
belongs to a job. -/
structure Filed (d : Docket) : Prop where
  ids : (d.jobs.map JobRow.id).Nodup
  keys : ∀ a ∈ d.jobs, ∀ b ∈ d.jobs, a.Active → b.Active → a.dedupeKey = b.dedupeKey → a = b
  rows : (d.repairs.map RepairJobRow.jobId).Nodup
  filed : ∀ repair ∈ d.repairs, ∃ job ∈ d.jobs, job.id = repair.jobId ∧ Names repair job

variable {d : Docket}

theorem isActive_iff {repair : RepairJobRow} :
    d.isActive repair = true ↔ ∃ job ∈ d.jobs, job.id = repair.jobId ∧ job.Active := by
  simp only [isActive, List.any_eq_true, Bool.and_eq_true, decide_eq_true_eq, JobRow.Active]

/-- The job of a row. -/
theorem Filed.job (h : Filed d) {repair : RepairJobRow} (hrepair : repair ∈ d.repairs) :
    ∃ job ∈ d.jobs, job.id = repair.jobId ∧ Names repair job ∧
      (d.isActive repair = true ↔ job.Active) := by
  obtain ⟨job, hjob, hid, hnames⟩ := h.filed repair hrepair
  refine ⟨job, hjob, hid, hnames, isActive_iff.trans ⟨?_, fun hactive => ⟨job, hjob, hid, hactive⟩⟩⟩
  rintro ⟨other, hother, hother', hactive⟩
  rwa [List.inj_on_of_nodup_map h.ids hjob hother (hid.trans hother'.symm)]

/-- **One row per key**: active rows that name the same key are the same. -/
theorem Filed.eq_of_key (h : Filed d) {a b : RepairJobRow} (ha : a ∈ d.repairs) (hb : b ∈ d.repairs)
    (hactive : d.isActive a = true) (hactive' : d.isActive b = true)
    (hkey : ∀ job job', Names a job → Names b job' → job.dedupeKey = job'.dedupeKey) : a = b := by
  obtain ⟨job, hjob, hid, hnames, hiff⟩ := h.job ha
  obtain ⟨job', hjob', hid', hnames', hiff'⟩ := h.job hb
  have heq := h.keys job hjob job' hjob' (hiff.mp hactive) (hiff'.mp hactive')
    (hkey job job' hnames hnames')
  exact List.inj_on_of_nodup_map h.rows ha hb (hid.symm.trans (heq ▸ hid'))

/-! ## Jobs change -/

/-- What transactions make of a job: it stays what it is, and does not become active. -/
structure Turned (f : JobRow → JobRow) (job : JobRow) : Prop where
  id : (f job).id = job.id
  jobType : (f job).jobType = job.jobType
  dedupeKey : (f job).dedupeKey = job.dedupeKey
  active : (f job).Active → job.Active

theorem Names.turned {f : JobRow → JobRow} {repair : RepairJobRow} {job : JobRow}
    (h : Names repair job) (hf : Turned f job) : Names repair (f job) :=
  ⟨fun assetId hasset => hf.dedupeKey.trans (h.asset assetId hasset),
    fun sourceId reviewId hsource hreview =>
      hf.dedupeKey.trans (h.article sourceId reviewId hsource hreview),
    fun hclass => hf.jobType.trans (h.jobType hclass)⟩

variable {f : JobRow → JobRow}

theorem Filed.turned (h : Filed d) (hf : ∀ job ∈ d.jobs, Turned f job) :
    Filed ⟨d.jobs.map f, d.repairs⟩ := by
  refine ⟨?_, ?_, h.rows, ?_⟩
  · have hids : (d.jobs.map f).map JobRow.id = d.jobs.map JobRow.id := by
      rw [List.map_map]
      exact List.map_congr_left fun job hjob => (hf job hjob).id
    exact hids.symm ▸ h.ids
  · intro a ha b hb hactive hactive' hkey
    obtain ⟨job, hjob, rfl⟩ := List.mem_map.mp ha
    obtain ⟨job', hjob', rfl⟩ := List.mem_map.mp hb
    have hkeys := (hf job hjob).dedupeKey.symm.trans (hkey.trans (hf job' hjob').dedupeKey)
    exact congrArg f (h.keys job hjob job' hjob' ((hf job hjob).active hactive)
      ((hf job' hjob').active hactive') hkeys)
  · intro repair hrepair
    obtain ⟨job, hjob, hid, hnames⟩ := h.filed repair hrepair
    exact ⟨f job, List.mem_map_of_mem hjob, (hf job hjob).id.trans hid, hnames.turned (hf job hjob)⟩

/-- No row becomes active. -/
theorem isActive_turned (hf : ∀ job ∈ d.jobs, Turned f job) {repair : RepairJobRow}
    (hactive : isActive ⟨d.jobs.map f, d.repairs⟩ repair = true) : d.isActive repair = true := by
  obtain ⟨_, hmem, hid, hjob⟩ := isActive_iff.mp hactive
  obtain ⟨job, hjob', rfl⟩ := List.mem_map.mp hmem
  exact isActive_iff.mpr
    ⟨job, hjob', (hf job hjob').id.symm.trans hid, (hf job hjob').active hjob⟩

/-- **No slot is taken.** -/
theorem slots_turned (hf : ∀ job ∈ d.jobs, Turned f job) (kind : RepairJobRow → Bool) :
    slots ⟨d.jobs.map f, d.repairs⟩ kind ≤ d.slots kind := by
  refine List.countP_mono_left fun repair _ hrepair => ?_
  rw [Bool.and_eq_true] at hrepair ⊢
  exact ⟨hrepair.1, isActive_turned hf hrepair.2⟩

/-- One that counted counts no more. -/
theorem countP_lt {A : Type} {p q : A → Bool} {l : List A} (h : ∀ x ∈ l, p x = true → q x = true)
    {a : A} (ha : a ∈ l) (hp : p a = false) (hq : q a = true) : l.countP p < l.countP q := by
  obtain ⟨front, back, rfl⟩ := List.append_of_mem ha
  have hfront : front.countP p ≤ front.countP q :=
    List.countP_mono_left fun x hx => h x (List.mem_append_left _ hx)
  have hback : back.countP p ≤ back.countP q :=
    List.countP_mono_left fun x hx =>
      h x (List.mem_append_right _ (List.mem_cons_of_mem _ hx))
  rw [List.countP_append, List.countP_append, List.countP_cons_of_pos hq,
    List.countP_cons_of_neg (by rw [hp]; exact Bool.false_ne_true)]
  omega

/-- **A job that ends gives its slot back.** -/
theorem slots_ended (hf : ∀ job ∈ d.jobs, Turned f job) {repair : RepairJobRow}
    (hrepair : repair ∈ d.repairs) (hactive : d.isActive repair = true)
    (hended : isActive ⟨d.jobs.map f, d.repairs⟩ repair = false) {kind : RepairJobRow → Bool}
    (hkind : kind repair = true) : slots ⟨d.jobs.map f, d.repairs⟩ kind < d.slots kind := by
  refine countP_lt (fun other _ hother => ?_) hrepair ?_ ?_
  · rw [Bool.and_eq_true] at hother ⊢
    exact ⟨hother.1, isActive_turned hf hother.2⟩
  · rw [hended, Bool.and_false]
  · rw [hkind, hactive, Bool.and_true]

/-! ## Jobs are added -/

variable {job : JobRow}

/-- The job is new: its identifier is, and nobody active holds its key. -/
structure Fresh (d : Docket) (job : JobRow) : Prop where
  id : job.id ∉ d.jobs.map JobRow.id
  key : ∀ other ∈ d.jobs, other.Active → other.dedupeKey ≠ job.dedupeKey

theorem Filed.enqueued (h : Filed d) (hfresh : Fresh d job) :
    Filed ⟨d.jobs ++ [job], d.repairs⟩ := by
  refine ⟨?_, ?_, h.rows, fun repair hrepair => ?_⟩
  · rw [List.map_append]
    exact List.nodup_append.mpr ⟨h.ids, List.nodup_singleton _, fun a ha b hb heq =>
      hfresh.id (List.mem_singleton.mp hb ▸ heq ▸ ha)⟩
  · intro a ha b hb hactive hactive' hkey
    rcases List.mem_append.mp ha with ha | ha <;> rcases List.mem_append.mp hb with hb | hb
    · exact h.keys a ha b hb hactive hactive' hkey
    · rw [List.mem_singleton] at hb
      exact absurd (hb ▸ hkey) (hfresh.key a ha hactive)
    · rw [List.mem_singleton] at ha
      exact absurd (ha ▸ hkey.symm) (hfresh.key b hb hactive')
    · rw [List.mem_singleton.mp ha, List.mem_singleton.mp hb]
  · obtain ⟨other, hother, hid, hnames⟩ := h.filed repair hrepair
    exact ⟨other, List.mem_append_left _ hother, hid, hnames⟩

/-- The new job is no job of a row. -/
theorem Filed.ne_of_fresh (h : Filed d) (hfresh : Fresh d job) {repair : RepairJobRow}
    (hrepair : repair ∈ d.repairs) : job.id ≠ repair.jobId := by
  obtain ⟨other, hother, hid, -⟩ := h.filed repair hrepair
  exact fun heq => hfresh.id (heq.trans hid.symm ▸ List.mem_map_of_mem hother)

theorem isActive_enqueued (h : Filed d) (hfresh : Fresh d job) (repairs : List RepairJobRow)
    {repair : RepairJobRow} (hrepair : repair ∈ d.repairs) :
    isActive ⟨d.jobs ++ [job], repairs⟩ repair = d.isActive repair := by
  unfold isActive
  rw [List.any_append, List.any_cons, List.any_nil, decide_eq_false (h.ne_of_fresh hfresh hrepair),
    Bool.false_and, Bool.false_or, Bool.or_false]

/-- **A job without a row takes no slot.** -/
theorem slots_enqueued (h : Filed d) (hfresh : Fresh d job) (kind : RepairJobRow → Bool) :
    slots ⟨d.jobs ++ [job], d.repairs⟩ kind = d.slots kind :=
  List.countP_congr fun repair hrepair => by
    rw [isActive_enqueued h hfresh d.repairs hrepair]

theorem Filed.admitted (h : Filed d) (hfresh : Fresh d job) {repair : RepairJobRow}
    (hid : job.id = repair.jobId) (hnames : Names repair job) :
    Filed ⟨d.jobs ++ [job], d.repairs ++ [repair]⟩ := by
  have henqueued := h.enqueued hfresh
  refine ⟨henqueued.ids, henqueued.keys, ?_, fun other hother => ?_⟩
  · rw [List.map_append]
    refine List.nodup_append.mpr ⟨h.rows, List.nodup_singleton _, fun a ha b hb heq => ?_⟩
    obtain ⟨other, hother, rfl⟩ := List.mem_map.mp ha
    exact h.ne_of_fresh hfresh hother (hid.trans (heq.trans (List.mem_singleton.mp hb)).symm)
  · rcases List.mem_append.mp hother with hother | hother
    · exact henqueued.filed other hother
    · rw [List.mem_singleton.mp hother]
      exact ⟨job, List.mem_append_right _ (List.mem_singleton.mpr rfl), hid, hnames⟩

/-- **A job with a row takes one slot.** -/
theorem slots_admitted (h : Filed d) (hfresh : Fresh d job) {repair : RepairJobRow}
    (hid : job.id = repair.jobId) (hactive : job.Active) (kind : RepairJobRow → Bool) :
    slots ⟨d.jobs ++ [job], d.repairs ++ [repair]⟩ kind
      = d.slots kind + if kind repair = true then 1 else 0 := by
  have hnew : isActive ⟨d.jobs ++ [job], d.repairs ++ [repair]⟩ repair = true :=
    isActive_iff.mpr ⟨job, List.mem_append_right _ (List.mem_singleton.mpr rfl), hid, hactive⟩
  have hold : (d.repairs.countP fun other =>
      kind other && isActive ⟨d.jobs ++ [job], d.repairs ++ [repair]⟩ other) = d.slots kind :=
    List.countP_congr fun other hother => by
      rw [isActive_enqueued h hfresh (d.repairs ++ [repair]) hother]
  unfold slots at hold ⊢
  rw [List.countP_append, hold, List.countP_singleton, hnew, Bool.and_true]

/-! ## Rows are annotated, or withdrawn -/

/-- Rows that keep their job and their class, and forget at most what they are about. -/
structure Annotated (g : RepairJobRow → RepairJobRow) (repair : RepairJobRow) : Prop where
  jobId : (g repair).jobId = repair.jobId
  admissionClass : (g repair).admissionClass = repair.admissionClass
  names : ∀ job, Names repair job → Names (g repair) job

variable {g : RepairJobRow → RepairJobRow}

theorem Filed.annotated (h : Filed d) (hg : ∀ repair ∈ d.repairs, Annotated g repair) :
    Filed ⟨d.jobs, d.repairs.map g⟩ := by
  refine ⟨h.ids, h.keys, ?_, fun repair hrepair => ?_⟩
  · have hrows : (d.repairs.map g).map RepairJobRow.jobId = d.repairs.map RepairJobRow.jobId := by
      rw [List.map_map]
      exact List.map_congr_left fun repair hrepair => (hg repair hrepair).jobId
    exact hrows.symm ▸ h.rows
  · obtain ⟨repair, hold, rfl⟩ := List.mem_map.mp hrepair
    obtain ⟨job, hjob, hid, hnames⟩ := h.filed repair hold
    exact ⟨job, hjob, hid.trans (hg repair hold).jobId.symm, (hg repair hold).names job hnames⟩

theorem isActive_annotated {repairs : List RepairJobRow} {repair : RepairJobRow}
    (hg : Annotated g repair) : isActive ⟨d.jobs, repairs⟩ (g repair) = d.isActive repair := by
  unfold isActive
  rw [hg.jobId]

theorem slots_annotated (hg : ∀ repair ∈ d.repairs, Annotated g repair) {kind : RepairJobRow → Bool}
    (hkind : ∀ repair ∈ d.repairs, kind (g repair) = kind repair) :
    slots ⟨d.jobs, d.repairs.map g⟩ kind = d.slots kind := by
  unfold slots
  rw [List.countP_map]
  exact List.countP_congr fun repair hrepair => by
    rw [Function.comp_apply, hkind repair hrepair, isActive_annotated (hg repair hrepair)]

/-- **A job that was just admitted is withdrawn.** -/
theorem withdraw_admitted (h : Filed d) (hfresh : Fresh d job) {repair : RepairJobRow}
    (hid : job.id = repair.jobId) :
    ((d.jobs ++ [job]).filter fun other => other.id ≠ job.id) = d.jobs ∧
      ((d.repairs ++ [repair]).filter fun other => other.jobId ≠ job.id) = d.repairs := by
  constructor
  · rw [List.filter_append, List.filter_singleton, List.filter_eq_self.mpr, decide_eq_false]
    · exact List.append_nil _
    · exact not_not_intro rfl
    · exact fun other hother => decide_eq_true fun heq =>
        hfresh.id (heq ▸ List.mem_map_of_mem hother)
  · rw [List.filter_append, List.filter_singleton, List.filter_eq_self.mpr, decide_eq_false]
    · exact List.append_nil _
    · exact not_not_intro hid.symm
    · exact fun other hother => decide_eq_true (h.ne_of_fresh hfresh hother).symm

/-! ## The statements of the queue -/

/-- What `Job::new` takes from its specification. -/
theorem new_fields {jobId : Uuid} {spec : NewJob} {job : Job} (h : Job.new jobId spec = .ok job) :
    job.id = jobId ∧ job.dedupeKey = spec.dedupeKey ∧ job.jobType = spec.jobType ∧
      job.status = .queued := by
  unfold Job.new at h
  split_ifs at h
  obtain rfl := Except.ok.inj h
  exact ⟨rfl, rfl, rfl, rfl⟩

/-- **An insert**: the row is new, and it is what was asked for. -/
theorem inserted_spec {rows : List JobRow} {jobId : Uuid} {spec : NewJob} {clock : DateTime}
    {inserted : Job}
    (h : enqueueInternal [] rows [] jobId spec clock true = .ok (.inserted inserted))
    (repairs : List RepairJobRow) :
    Fresh ⟨rows, repairs⟩ (.ofJob inserted) ∧ inserted.id = jobId ∧
      inserted.dedupeKey = spec.dedupeKey ∧ inserted.jobType = spec.jobType ∧
      (JobRow.ofJob inserted).Active := by
  obtain ⟨job, hnew, h⟩ := bind_eq_ok h
  obtain ⟨row, hrow, h⟩ := bind_eq_ok h
  obtain ⟨runAfter, -, hrow⟩ := bind_eq_ok hrow
  obtain ⟨payload, -, hrow⟩ := bind_eq_ok hrow
  obtain ⟨dedupeKey, hkey, hrow⟩ := bind_eq_ok hrow
  obtain ⟨createdAt, -, hrow⟩ := bind_eq_ok hrow
  obtain ⟨updatedAt, -, hrow⟩ := bind_eq_ok hrow
  rw [bindText_eq_ok hkey] at hrow
  have hmade : Job.new jobId spec = .ok job := by
    rcases hmade : Job.new jobId spec with error | made
    · rw [hmade] at hnew
      cases hnew
    · rw [hmade] at hnew
      rw [Except.ok.inj hnew]
  obtain ⟨hid, hdedupe, htype, hstatus⟩ := new_fields hmade
  split_ifs at h with hheld hknown
  · split at h
    · cases h
    · cases h
  · obtain ⟨decoded, hdecode, h⟩ := bind_eq_ok h
    obtain rfl : inserted = decoded := (EnqueueResult.inserted.inj (Except.ok.inj h)).symm
    -- what is read back is the row that was written
    have hwritten := (JobRow.decode_eq_ok hdecode).1.symm.trans (Except.ok.inj hrow).symm
    have hwid : inserted.id = job.id := congrArg JobRow.id hwritten
    have hwkey : inserted.dedupeKey = job.dedupeKey := congrArg JobRow.dedupeKey hwritten
    have hwtype := jobTypeName_inj.mp (congrArg JobRow.jobType hwritten)
    have hwstatus : (JobRow.ofJob inserted).status = statusName job.status :=
      congrArg JobRow.status hwritten
    have hqueued : (JobRow.ofJob inserted).Active := by
      rw [JobRow.Active, hwstatus, hstatus]
      decide
    refine ⟨⟨?_, fun other hother hactive hkey => hheld ?_⟩, hwid.trans hid, hwkey.trans hdedupe,
      hwtype.trans htype, hqueued⟩
    · change inserted.id ∉ rows.map JobRow.id
      rw [hwid.trans hid]
      exact hknown
    · refine List.any_eq_true.mpr ⟨other, hother, ?_⟩
      rw [JobRow.holds, Bool.and_eq_true, decide_eq_true_eq, decide_eq_true_eq]
      exact ⟨hkey.trans hwkey, hactive⟩

/-- A row of a new identifier, under a key that nobody active holds. -/
theorem fresh_of_free {row : JobRow} (hid : row.id ∉ d.jobs.map JobRow.id)
    (hfree : d.jobs.any (JobRow.holds row.dedupeKey) = false) : Fresh d row := by
  refine ⟨hid, fun other hother hactive hkey => ?_⟩
  refine absurd (List.any_eq_true.mpr ⟨other, hother, ?_⟩) (Bool.eq_false_iff.mp hfree)
  rw [JobRow.holds, Bool.and_eq_true, decide_eq_true_eq, decide_eq_true_eq]
  exact ⟨hkey, hactive⟩

/-- **Whatever another transaction commits**, the docket stays filed and no slot is taken. -/
theorem commit_spec (t : JobTransaction) (h : Filed d) :
    Filed ⟨t.commit d.jobs, d.repairs⟩ ∧
      ∀ kind, slots ⟨t.commit d.jobs, d.repairs⟩ kind ≤ d.slots kind := by
  rcases t.commit_turns h.ids with ⟨f, hcommit, hturns⟩ | ⟨row, hcommit, hid, hfree, -⟩
  · rw [hcommit]
    have hf : ∀ job ∈ d.jobs, Turned f job := fun job hjob =>
      let turn := hturns job hjob
      ⟨turn.id, turn.jobType, turn.dedupeKey, turn.active⟩
    exact ⟨h.turned hf, slots_turned hf⟩
  · rw [hcommit]
    have hfresh : Fresh d row := fresh_of_free hid hfree
    exact ⟨h.enqueued hfresh, fun kind => (slots_enqueued h hfresh kind).le⟩

end Docket

end Werrss
