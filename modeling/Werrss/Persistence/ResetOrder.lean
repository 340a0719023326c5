import Werrss.Persistence.RefreshLineage

/-!
# Persistence/ResetOrder — a reset looks at its article only to make its lineage fresh

    articles, lineage of the article ──▸ fresh lineage
    everything else ───────────────────▸ entries, chains, jobs

Once its pending entries are done, an article is no candidate of any chain.  What the reset does to
the chains is then the same **whatever the row and the lineage of the article have become**, so it
may as well run before the article is written.
-/

open Machinery

namespace Werrss

namespace RefreshLineage

/-- The state with other articles, and with another lineage of one of them. -/
def retarget (article : ArticleKey) (articles : ArticleTable) (lineage : Option LineageRow)
    (s : RecoveryState) : RecoveryState :=
  { s with
    articles := articles
    recovery := { s.recovery with
      lineage := Function.update s.recovery.lineage article lineage } }

/-- **Two states that differ in the row and the lineage of an article** whose entries are not
pending. -/
structure Alike (article : ArticleKey) (before after : ArticleTable)
    (lineage lineage' : Option LineageRow) (s s' : RecoveryState) : Prop where
  articles : s.articles = before
  lineage : s.recovery.lineage article = lineage
  settled : ∀ entry ∈ s.recovery.entries, entry.article = article → entry.isPending = false
  same : s' = retarget article after lineage' s

variable {article : ArticleKey} {before after : ArticleTable} {lineage lineage' : Option LineageRow}
  {s s' : RecoveryState}

theorem isPending_of_isEligible {clock : DateTime} {entry : RefreshEntryRow}
    (h : entry.isEligible clock = true) : entry.isPending = true := by
  simp only [RefreshEntryRow.isEligible, RefreshEntryRow.isPending, Bool.or_eq_true,
    Bool.and_eq_true] at h ⊢
  exact h.imp_right And.left

theorem isPending_finish (entry : RefreshEntryRow) : entry.finish.isPending = false := rfl

/-- An update of entries, by conditions that agree on them. -/
theorem Alike.updateEntries (h : Alike article before after lineage lineage' s s')
    {condition condition' : RefreshEntryRow → Bool} {assign : RefreshEntryRow → RefreshEntryRow}
    (hagree : ∀ entry ∈ s.recovery.entries, condition' entry = condition entry)
    (hassign : ∀ entry, (assign entry).article = entry.article ∧
      (assign entry).isPending = false) :
    Alike article before after lineage lineage'
      (s.withRecovery (·.updateEntries condition assign))
      (s'.withRecovery (·.updateEntries condition' assign)) := by
  refine ⟨h.articles, h.lineage, fun entry hentry harticle => ?_, ?_⟩
  · obtain ⟨other, hother, rfl⟩ := List.mem_map.mp hentry
    split_ifs at harticle ⊢
    · exact (hassign other).2
    · exact h.settled other hother harticle
  · rw [h.same]
    have hmap : s.recovery.entries.map (fun entry => if condition' entry then assign entry else entry)
        = s.recovery.entries.map fun entry => if condition entry then assign entry else entry := by
      refine List.map_congr_left fun entry hentry => ?_
      rw [hagree entry hentry]
    simp only [RecoveryState.withRecovery, RecoveryTables.updateEntries, retarget, hmap]

theorem Alike.finishEntries (h : Alike article before after lineage lineage' s s')
    {condition condition' : RefreshEntryRow → Bool}
    (hagree : ∀ entry ∈ s.recovery.entries, condition' entry = condition entry) :
    Alike article before after lineage lineage'
      (s.withRecovery (·.updateEntries condition RefreshEntryRow.finish))
      (s'.withRecovery (·.updateEntries condition' RefreshEntryRow.finish)) :=
  h.updateEntries hagree fun _ => ⟨rfl, rfl⟩

/-! ## Completing a generation -/

theorem relates_completeGenerationIfTerminal (assetId : Uuid) (generation : ℤ) :
    Tx.Relates (Alike article before after lineage lineage')
      (completeGenerationIfTerminal assetId generation)
      (completeGenerationIfTerminal assetId generation)
      fun _ => Alike article before after lineage lineage' := by
  refine Tx.Relates.read_bind fun s s' h => ?_
  have hentries : s'.recovery.entries = s.recovery.entries := by rw [h.same]; rfl
  have hstates : s'.recovery.states = s.recovery.states := by rw [h.same]; rfl
  rw [hentries, hstates]
  refine .ite (fun _ => .pure ?_) fun _ => ?_
  · rintro t t' ⟨rfl, rfl⟩
    exact h
  · cases s.recovery.states assetId with
    | none =>
      refine .pure ?_
      rintro t t' ⟨rfl, rfl⟩
      exact h
    | some row =>
      refine .ite (fun _ => .modify ?_) fun _ => .fail _
      rintro t t' ⟨rfl, rfl⟩
      exact ⟨h.articles, h.lineage, h.settled, by rw [h.same]; rfl⟩

theorem relates_completeEach (affected : List (Uuid × ℤ)) :
    Tx.Relates (Alike article before after lineage lineage') (completeEach affected)
      (completeEach affected) fun _ => Alike article before after lineage lineage' := by
  induction affected with
  | nil => exact .pure fun _ _ h => h
  | cons pair rest ih => exact .bind (relates_completeGenerationIfTerminal _ _) fun _ => ih

/-! ## Selecting and admitting an entry -/

section Elsewhere

variable (helsewhere : ∀ other, other ≠ article → after other = before other)

include helsewhere

/-- Another article is as live in the one state as in the other. -/
theorem Alike.isLive (h : Alike article before after lineage lineage' s s') (assetId : Uuid)
    {other : ArticleKey} (hother : other ≠ article) :
    s'.isLive assetId other = s.isLive assetId other := by
  have harticles : s'.articles other = s.articles other := by
    rw [h.same, h.articles]
    exact helsewhere other hother
  have hassets : s'.assets = s.assets := by rw [h.same]; rfl
  rw [RecoveryState.isLive, RecoveryState.isLive, harticles, hassets]

omit helsewhere in
theorem Alike.lineageAdmits (h : Alike article before after lineage lineage' s s')
    (policy : RecoveryPolicy) (clock : DateTime) {other : ArticleKey} (hother : other ≠ article) :
    s'.recovery.lineageAdmits policy clock other = s.recovery.lineageAdmits policy clock other := by
  have hlineage : s'.recovery.lineage other = s.recovery.lineage other := by
    rw [h.same]
    exact Function.update_of_ne hother _ _
  rw [RecoveryTables.lineageAdmits, RecoveryTables.lineageAdmits, hlineage]

omit helsewhere in
/-- An entry that may be picked is of another article. -/
theorem Alike.article_ne (h : Alike article before after lineage lineage' s s') {clock : DateTime}
    {entry : RefreshEntryRow} (hmem : entry ∈ s.recovery.entries)
    (heligible : entry.isEligible clock = true) : entry.article ≠ article := by
  intro heq
  have hpending := isPending_of_isEligible heligible
  rw [h.settled entry hmem heq] at hpending
  exact Bool.false_ne_true hpending

omit helsewhere in
theorem Alike.isAdmissible (h : Alike article before after lineage lineage' s s')
    (policy : RecoveryPolicy) (clock : DateTime) (assetId : Uuid) (generation : ℤ)
    (cursor : Option ℤ) {entry : RefreshEntryRow} (hmem : entry ∈ s.recovery.entries) :
    isAdmissible s' policy clock assetId generation cursor entry
      = isAdmissible s policy clock assetId generation cursor entry := by
  have hjobs : s'.recovery.jobs = s.recovery.jobs := by rw [h.same]; rfl
  unfold RefreshLineage.isAdmissible
  cases heligible : entry.isEligible clock with
  | false => simp only [Bool.and_false, Bool.false_and]
  | true => rw [hjobs, h.lineageAdmits policy clock (h.article_ne hmem heligible)]

/-- What was selected is an entry of another article, whose lineage admits it. -/
def Selected (policy : RecoveryPolicy) (clock : DateTime) (article : ArticleKey)
    (before after : ArticleTable) (lineage lineage' : Option LineageRow)
    (found : Option RefreshEntryRow) (s s' : RecoveryState) : Prop :=
  Alike article before after lineage lineage' s s' ∧
    ∀ entry, found = some entry → entry.article ≠ article ∧
      s.recovery.lineageAdmits policy clock entry.article = true

theorem relates_selectLoop (policy : RecoveryPolicy) (clock : DateTime) (assetId : Uuid)
    (generation : ℤ) (fuel : ℕ) (cursor : Option ℤ) :
    Tx.Relates (Alike article before after lineage lineage')
      (selectLoop policy clock assetId generation fuel cursor)
      (selectLoop policy clock assetId generation fuel cursor)
      (Selected policy clock article before after lineage lineage') := by
  induction fuel generalizing cursor with
  | zero => exact .pure fun _ _ h => ⟨h, fun _ heq => nomatch heq⟩
  | succ fuel ih =>
    refine Tx.Relates.read_bind fun s s' h => ?_
    have hentries : s'.recovery.entries = s.recovery.entries := by rw [h.same]; rfl
    have hfilter : s'.recovery.entries.filter
          (RefreshLineage.isAdmissible s' policy clock assetId generation cursor)
        = s.recovery.entries.filter
          (RefreshLineage.isAdmissible s policy clock assetId generation cursor) := by
      rw [hentries]
      refine List.filter_congr fun entry hmem => ?_
      exact h.isAdmissible policy clock assetId generation cursor hmem
    rw [hfilter]
    cases hfirst : (firstBy (fun a b : RefreshEntryRow => a.ordinal ≤ b.ordinal) 1
        (s.recovery.entries.filter
          (RefreshLineage.isAdmissible s policy clock assetId generation cursor))).head? with
    | none =>
      refine .pure ?_
      rintro t t' ⟨rfl, rfl⟩
      exact ⟨h, fun _ heq => nomatch heq⟩
    | some entry =>
      have hpicked := mem_of_mem_firstBy _ (List.mem_of_mem_head? hfirst)
      obtain ⟨hmem, hadmissible⟩ := List.mem_filter.mp hpicked
      simp only [RefreshLineage.isAdmissible, Bool.and_eq_true] at hadmissible
      obtain ⟨⟨⟨-, heligible⟩, hadmits⟩, -⟩ := hadmissible
      have hother := h.article_ne hmem heligible
      simp only [h.isLive helsewhere assetId hother, hentries]
      refine .ite (fun _ => ?_) fun _ => .ite (fun _ => ?_) fun _ => .pure ?_
      · refine .bind (Q := fun _ => Alike article before after lineage lineage') (.modify ?_)
          fun _ => ih _
        rintro t t' ⟨rfl, rfl⟩
        exact h.finishEntries fun _ _ => rfl
      · refine (ih _).mono ?_ fun _ _ _ h => h
        rintro t t' ⟨rfl, rfl⟩
        exact h
      · rintro t t' ⟨rfl, rfl⟩
        refine ⟨h, fun other heq => ?_⟩
        obtain rfl := Option.some.inj heq
        exact ⟨hother, hadmits⟩

theorem relates_selectRefreshEntry (policy : RecoveryPolicy) (clock : DateTime) (assetId : Uuid)
    (generation : ℤ) (afterOrdinal : Option ℤ) :
    Tx.Relates (Alike article before after lineage lineage')
      (selectRefreshEntry policy clock assetId generation afterOrdinal)
      (selectRefreshEntry policy clock assetId generation afterOrdinal)
      (Selected policy clock article before after lineage lineage') := by
  refine .bind (Q := fun _ => Alike article before after lineage lineage') (.modify ?_) fun _ => ?_
  · intro s s' h
    refine h.finishEntries fun entry hmem => ?_
    cases hpending : entry.isPending with
    | false => simp only [Bool.and_false, Bool.false_and]
    | true =>
      have hother : entry.article ≠ article := by
        intro heq
        rw [h.settled entry hmem heq] at hpending
        exact Bool.false_ne_true hpending
      rw [h.isLive helsewhere assetId hother]
  · refine Tx.Relates.read_bind fun s s' h => ?_
    have hassets : s'.assets = s.assets := by rw [h.same]; rfl
    have hpresent : bodyPresent s' assetId = bodyPresent s assetId := by
      rw [bodyPresent, bodyPresent, hassets]
    rw [hpresent]
    refine .bind (Q := fun _ => Alike article before after lineage lineage') (.ofExcept ?_)
      fun present => ?_
    · rintro a - t t' ⟨rfl, rfl⟩
      exact h
    · refine .bind (Q := fun _ => Alike article before after lineage lineage') ?_ fun _ => ?_
      · refine .ite (fun _ => .modify fun t t' ht => ?_) fun _ => .pure fun _ _ ht => ht
        exact ht.finishEntries fun _ _ => rfl
      refine Tx.Relates.read_bind fun t t' ht => ?_
      have hentries : t'.recovery.entries = t.recovery.entries := by rw [ht.same]; rfl
      rw [hentries]
      refine (relates_selectLoop helsewhere policy clock assetId generation _ _).mono ?_
        fun _ _ _ h => h
      rintro u u' ⟨rfl, rfl⟩
      exact ht

omit helsewhere in
/-- A job is inserted, and the lineages stay. -/
theorem relates_insertRefreshJob (clock : DateTime) (assetId : Uuid) (generation : ℤ)
    (supply : AdmissionSupply) (entry : RefreshEntryRow) (policy : RecoveryPolicy)
    (other : ArticleKey) :
    Tx.Relates (fun s s' => Alike article before after lineage lineage' s s' ∧
        s.recovery.lineageAdmits policy clock other = true)
      (insertRefreshJob clock assetId generation supply entry)
      (insertRefreshJob clock assetId generation supply entry)
      fun _ s s' => Alike article before after lineage lineage' s s' ∧
        s.recovery.lineageAdmits policy clock other = true := by
  refine Tx.Relates.read_bind fun s s' h => ?_
  have hjobs : s'.recovery.jobs = s.recovery.jobs := by rw [h.1.same]; rfl
  simp only [hjobs]
  split
  · exact .fail _
  · refine .pure ?_
    rintro t t' ⟨rfl, rfl⟩
    exact h
  · refine .bind (.modify ?_) fun _ => .pure fun _ _ ht => ht
    rintro t t' ⟨rfl, rfl⟩
    refine ⟨⟨h.1.articles, h.1.lineage, h.1.settled, ?_⟩, h.2⟩
    rw [h.1.same]
    rfl

omit helsewhere in
/-- An attempt of another article is taken in both. -/
theorem relates_reserveLineage (policy : RecoveryPolicy) (clock : DateTime) {other : ArticleKey}
    (hother : other ≠ article) :
    Tx.Relates (fun s s' => Alike article before after lineage lineage' s s' ∧
        s.recovery.lineageAdmits policy clock other = true)
      (reserveLineage policy clock other) (reserveLineage policy clock other)
      fun reserved s s' => reserved = true ∧ Alike article before after lineage lineage' s s' := by
  refine Tx.Relates.read_bind fun s s' h => ?_
  rw [h.1.lineageAdmits policy clock hother, h.2, if_pos rfl]
  refine .bind (Q := fun _ => Alike article before after lineage lineage') (.modify ?_)
    fun _ => .pure fun _ _ ht => ⟨rfl, ht⟩
  rintro t t' ⟨rfl, rfl⟩
  refine ⟨h.1.articles, ?_, h.1.settled, ?_⟩
  · exact (Function.update_of_ne hother.symm _ _).trans h.1.lineage
  · rw [h.1.same]
    simp only [RecoveryState.withRecovery, retarget, Function.update_of_ne hother]
    rw [Function.update_comm hother.symm]

omit helsewhere in
theorem relates_admitRefreshEntry (policy : RecoveryPolicy) (clock : DateTime) (assetId : Uuid)
    (generation : ℤ) (supply : AdmissionSupply) {entry : RefreshEntryRow}
    (hother : entry.article ≠ article) (resume : Bool) :
    Tx.Relates (fun s s' => Alike article before after lineage lineage' s s' ∧
        s.recovery.lineageAdmits policy clock entry.article = true)
      (admitRefreshEntry policy clock assetId generation supply entry resume)
      (admitRefreshEntry policy clock assetId generation supply entry resume)
      fun _ => Alike article before after lineage lineage' := by
  refine .bind (relates_insertRefreshJob clock assetId generation supply entry policy _)
    fun inserted => ?_
  cases inserted with
  | none => exact .pure fun _ _ h => h.1
  | some jobId =>
    refine .bind (relates_reserveLineage policy clock hother) fun reserved => ?_
    cases reserved with
    | false => exact fun _ _ h => nomatch h.1
    | true =>
      refine Tx.Relates.read_bind fun s s' h => ?_
      have hentries : s'.recovery.entries = s.recovery.entries := by rw [h.2.same]; rfl
      simp only [hentries]
      refine .ite (fun _ => ?_) fun _ => ?_
      · refine .bind (Q := fun _ => Alike article before after lineage lineage') (.modify ?_)
          fun _ => .pure fun _ _ ht => ht
        rintro t t' ⟨rfl, rfl⟩
        refine ⟨h.2.articles, h.2.lineage, h.2.settled, ?_⟩
        rw [h.2.same]
        rfl
      · refine .bind (Q := fun _ => Alike article before after lineage lineage') (.modify ?_)
          fun _ => .bind (Q := fun _ => Alike article before after lineage lineage') ?_
            fun _ => .pure fun _ _ ht => ht
        · rintro t t' ⟨rfl, rfl⟩
          exact h.2.updateEntries (fun _ _ => rfl) fun _ => ⟨rfl, rfl⟩
        · refine .ite (fun _ => .modify fun t t' ht => ?_) fun _ => .pure fun _ _ ht => ht
          refine ⟨ht.articles, ht.lineage, ht.settled, ?_⟩
          rw [ht.same]
          rfl

/-! ## The chains an article has left -/

theorem relates_nextEntry (policy : RecoveryPolicy) (clock : DateTime) (assetId : Uuid)
    (generation : ℤ) :
    Tx.Relates (Alike article before after lineage lineage')
      (nextEntry policy clock assetId generation) (nextEntry policy clock assetId generation)
      (Selected policy clock article before after lineage lineage') := by
  refine Tx.Relates.read_bind fun s s' h => ?_
  have hcapacity : s'.recovery.capacityAvailable policy = s.recovery.capacityAvailable policy := by
    rw [h.same]
    rfl
  have hpending : s'.recovery.generationPending assetId generation
      = s.recovery.generationPending assetId generation := by
    rw [h.same]
    rfl
  rw [hcapacity, hpending]
  refine .ite (fun _ => .pure ?_) fun _ => ?_
  · rintro t t' ⟨rfl, rfl⟩
    exact ⟨h, fun _ heq => nomatch heq⟩
  · refine (relates_selectRefreshEntry helsewhere policy clock assetId generation none).mono ?_
      fun _ _ _ hfound => hfound
    rintro t t' ⟨rfl, rfl⟩
    exact h

theorem relates_reevaluate (policy : RecoveryPolicy) (clock : DateTime) (supply : AdmissionSupply)
    (assetId : Uuid) (generation : ℤ) :
    Tx.Relates (Alike article before after lineage lineage')
      (reevaluate policy clock supply assetId generation)
      (reevaluate policy clock supply assetId generation)
      fun _ => Alike article before after lineage lineage' := by
  refine .bind (relates_nextEntry helsewhere policy clock assetId generation) fun selection => ?_
  cases selection with
  | none =>
    refine (relates_completeGenerationIfTerminal assetId generation).mono ?_ fun _ _ _ ht => ht
    exact fun _ _ hfound => hfound.1
  | some entry =>
    refine .bind (Q := fun _ => Alike article before after lineage lineage') ?_
      fun _ => .pure fun _ _ ht => ht
    intro t t' hfound
    obtain ⟨hother, hadmits⟩ := hfound.2 entry rfl
    exact relates_admitRefreshEntry policy clock assetId generation supply hother true t t'
      ⟨hfound.1, hadmits⟩

theorem relates_reevaluateEach (policy : RecoveryPolicy) (clock : DateTime)
    (supply : ℕ → AdmissionSupply) (affected : List (Uuid × ℤ)) (n : ℕ) :
    Tx.Relates (Alike article before after lineage lineage')
      (reevaluateEach policy clock supply affected n)
      (reevaluateEach policy clock supply affected n)
      fun _ => Alike article before after lineage lineage' := by
  induction affected generalizing n with
  | nil => exact .pure fun _ _ h => h
  | cons pair rest ih =>
    exact .bind (relates_reevaluate helsewhere policy clock (supply n) pair.1 pair.2) fun _ => ih _

/-! ## The reset -/

/-- **From here on a reset does not look at its article**: neither the row nor the lineage of it. -/
theorem relates_reconcile (policy : RecoveryPolicy) (clock : DateTime)
    (supply : ℕ → AdmissionSupply) :
    Tx.Relates (fun s s' => s.articles = before ∧ s.recovery.lineage article = lineage ∧
        s' = retarget article after lineage' s)
      (reconcileArticleRefreshEntries article >>= fun affected =>
        reevaluateEach policy clock supply affected 0)
      (reconcileArticleRefreshEntries article >>= fun affected =>
        reevaluateEach policy clock supply affected 0)
      fun _ => Alike article before after lineage lineage' := by
  refine .bind (Q := fun _ => Alike article before after lineage lineage') ?_
    fun affected => relates_reevaluateEach helsewhere policy clock supply affected 0
  refine Tx.Relates.read_bind fun s s' h => ?_
  obtain ⟨harticles, hlineage, rfl⟩ := h
  refine .bind (Q := fun _ => Alike article before after lineage lineage') (.modify ?_)
    fun _ => .bind (relates_completeEach _) fun _ => .pure fun _ _ ht => ht
  rintro t t' ⟨rfl, rfl⟩
  refine ⟨harticles, hlineage, fun entry hentry harticle => ?_, rfl⟩
  obtain ⟨other, hother, rfl⟩ := List.mem_map.mp hentry
  split_ifs at harticle ⊢ with hpending
  · rfl
  · have hnot : ¬ (decide (other.article = article) && other.isPending) = true := hpending
    rw [Bool.and_eq_true, not_and, decide_eq_true_eq, Bool.not_eq_true] at hnot
    exact hnot harticle

end Elsewhere

end RefreshLineage

end Werrss
