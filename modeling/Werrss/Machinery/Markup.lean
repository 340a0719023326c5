import Werrss.Machinery.Scan

/-!
# Machinery/Markup — texts of delimited tags, and texts edited at their marked values

    text · lt inner gt · text · lt inner gt ·  …          keep · keep · mark v q ⇝ mark w q · keep …

Where the delimiters stand nowhere else, a delimited stretch of the text *is* a tag.  A rewriting of
marked values keeps every letter outside them, so a tag of the rewritten text comes from a tag of
the text: **its last marked value is a replacement, or it was there before**.
-/

namespace Machinery

namespace Markup

variable {α : Type*}

/-- A stretch without `x` lies before any `x`. -/
theorem append_split {x : α} {a b p s : List α} (hx : x ∉ a) (h : a ++ b = p ++ x :: s) :
    ∃ r, p = a ++ r ∧ b = r ++ x :: s := by
  rcases List.append_eq_append_iff.mp h with ⟨r, hp, hb⟩ | ⟨r, ha, hr⟩
  · exact ⟨r, hp, hb⟩
  · cases r with
    | nil => exact ⟨[], by simpa using ha.symm, by simpa using hr.symm⟩
    | cons y r =>
      obtain rfl : x = y := by
        rw [List.cons_append] at hr
        exact (List.cons.inj hr).1
      exact absurd (ha ▸ List.mem_append_right p (List.mem_cons_self ..)) hx

/-- What stands before the first `x` is determined. -/
theorem append_cons_inj {x : α} {a b s s' : List α} (ha : x ∉ a) (hb : x ∉ b)
    (h : a ++ x :: s = b ++ x :: s') : a = b := by
  obtain ⟨r, rfl, hr⟩ := append_split ha h
  cases r with
  | nil => exact (List.append_nil a).symm
  | cons y r =>
    obtain rfl : x = y := (List.cons.inj hr).1
    exact absurd (List.mem_append_right a (List.mem_cons_self ..)) hb

/-! ## Tags -/

/-- Running text, or what stands between the delimiters. -/
inductive Token (α : Type*)
  | text (cs : List α)
  | tag (inner : List α)

section Tags

variable (lt gt : α)

/-- The text of a token. -/
def Token.flat : Token α → List α
  | .text cs => cs
  | .tag inner => lt :: (inner ++ [gt])

/-- The text of tokens. -/
def flat (ts : List (Token α)) : List α := ts.flatMap (Token.flat lt gt)

/-- The delimiters stand around tags only. -/
def Token.Clean : Token α → Prop
  | .text cs => lt ∉ cs
  | .tag inner => lt ∉ inner ∧ gt ∉ inner

variable {lt gt}

theorem flat_append (ts us : List (Token α)) : flat lt gt (ts ++ us) = flat lt gt ts ++ flat lt gt us :=
  List.flatMap_append

/-- **A delimited stretch is a tag.** -/
theorem tag_mem_of_flat (hne : lt ≠ gt) {inner post : List α} (hgt : gt ∉ inner) :
    ∀ {ts : List (Token α)} {pre : List α}, (∀ t ∈ ts, t.Clean lt gt) →
      flat lt gt ts = pre ++ lt :: (inner ++ gt :: post) → .tag inner ∈ ts
  | [], pre, _, h => by simp [flat] at h
  | .text cs :: ts, pre, hclean, h => by
    have hcs : lt ∉ cs := hclean (.text cs) (List.mem_cons_self ..)
    obtain ⟨r, -, hr⟩ := append_split hcs h
    have hts : ∀ t ∈ ts, t.Clean lt gt := fun t ht => hclean t (List.mem_cons_of_mem _ ht)
    exact List.mem_cons_of_mem _ (tag_mem_of_flat hne hgt hts hr)
  | .tag other :: ts, pre, hclean, h => by
    obtain ⟨hlt', hgt'⟩ := hclean (.tag other) (List.mem_cons_self ..)
    have hts : ∀ t ∈ ts, t.Clean lt gt := fun t ht => hclean t (List.mem_cons_of_mem _ ht)
    have hcons : flat lt gt (.tag other :: ts) = lt :: (other ++ gt :: flat lt gt ts) := by
      simp [flat, Token.flat]
    rw [hcons] at h
    cases pre with
    | nil =>
      have hbody := (List.cons.inj h).2
      obtain rfl := append_cons_inj hgt' hgt hbody
      exact List.mem_cons_self ..
    | cons x pre =>
      have hbody := (List.cons.inj h).2
      have hfree : lt ∉ other ++ [gt] := by
        rw [List.mem_append, List.mem_singleton]
        rintro (hmem | heq)
        · exact hlt' hmem
        · exact hne heq
      have hassoc : other ++ gt :: flat lt gt ts = (other ++ [gt]) ++ flat lt gt ts := by
        rw [List.append_assoc]
        rfl
      rw [hassoc] at hbody
      obtain ⟨r, -, hr⟩ := append_split hfree hbody
      exact List.mem_cons_of_mem _ (tag_mem_of_flat hne hgt hts hr)

end Tags

/-! ## Edited texts -/

/-- **The second text is the first with some marked values replaced**, as `g` says. -/
inductive Edited (mark : List α) (q : α) (g : List α → Option (List α)) : List α → List α → Prop
  | nil : Edited mark q g [] []
  | keep (x : α) {s s' : List α} : Edited mark q g s s' → Edited mark q g (x :: s) (x :: s')
  | replace {v w s s' : List α} : g v = some w → Edited mark q g s s' →
      Edited mark q g (mark ++ (v ++ q :: s)) (mark ++ (w ++ q :: s'))

namespace Edited

variable {mark : List α} {q : α} {g : List α → Option (List α)}

theorem append_left (a : List α) {s s' : List α} (h : Edited mark q g s s') :
    Edited mark q g (a ++ s) (a ++ s') := by
  induction a with
  | nil => exact h
  | cons x a ih => exact ih.keep x

theorem refl (s : List α) : Edited mark q g s s := by
  simpa using (nil : Edited mark q g [] []).append_left s

/-- **Scanning and rewriting edits the text.** -/
theorem rewrite [DecidableEq α] (s : List α) : Edited mark q g s (Scan.rewrite mark q g s) := by
  induction hn : s.length using Nat.strong_induction_on generalizing s with
  | _ n ih =>
    cases hcut : Scan.cutAt mark s with
    | none =>
      rw [Scan.rewrite_of_none g hcut]
      exact refl s
    | some found =>
      obtain ⟨before, rest⟩ := found
      cases hcut' : Scan.cutAt [q] rest with
      | none =>
        rw [Scan.rewrite_of_open g hcut hcut']
        exact refl s
      | some found' =>
        obtain ⟨value, rest'⟩ := found'
        have hs : s = before ++ (mark ++ (value ++ q :: rest')) := by
          rw [Scan.cutAt_eq_some hcut, Scan.cutAt_eq_some hcut']
          rfl
        have hlen : rest'.length < n := by
          rw [← hn, hs]
          simp only [List.length_append, List.length_cons]
          omega
        have hrest := ih _ hlen rest' rfl
        rw [Scan.rewrite_of_cut g hcut hcut', hs]
        simp only [List.append_assoc, List.singleton_append]
        refine append_left before ?_
        cases hg : g value with
        | none =>
          refine append_left mark (append_left value ?_)
          exact hrest.keep q
        | some w => exact replace hg hrest

/-- A letter that no mark and no replacement holds was there before. -/
theorem split {x : α} (hmark : x ∉ mark) (hq : x ≠ q) (hw : ∀ v w, g v = some w → x ∉ w)
    {s s' : List α} (h : Edited mark q g s s') : ∀ {a' b' : List α}, s' = a' ++ x :: b' →
      ∃ a b, s = a ++ x :: b ∧ Edited mark q g a a' ∧ Edited mark q g b b' := by
  induction h with
  | nil =>
    intro a' b' heq
    simp at heq
  | @keep y s s' hs ih =>
    intro a' b' heq
    cases a' with
    | nil =>
      obtain ⟨rfl, rfl⟩ := List.cons.inj heq
      exact ⟨[], s, rfl, nil, hs⟩
    | cons z a' =>
      obtain ⟨rfl, htail⟩ := List.cons.inj heq
      obtain ⟨a, b, rfl, ha, hb⟩ := ih htail
      exact ⟨y :: a, b, rfl, ha.keep y, hb⟩
  | @replace v w s s' hg hs ih =>
    intro a' b' heq
    have hfree : x ∉ mark ++ (w ++ [q]) := by
      simp only [List.mem_append, List.mem_singleton]
      rintro (hmem | hmem | heq)
      · exact hmark hmem
      · exact hw v w hg hmem
      · exact hq heq
    have hassoc : mark ++ (w ++ q :: s') = (mark ++ (w ++ [q])) ++ s' := by simp
    rw [hassoc] at heq
    obtain ⟨r, rfl, hr⟩ := append_split hfree heq
    obtain ⟨a, b, rfl, ha, hb⟩ := ih hr
    refine ⟨mark ++ (v ++ q :: a), b, by simp, ?_, hb⟩
    have hblock := replace hg ha
    simpa using hblock

/-- A letter of the text that no replaced value holds is in the edited text. -/
theorem mem {x : α} (hv : ∀ v w, g v = some w → x ∉ v) {s s' : List α}
    (h : Edited mark q g s s') : x ∈ s → x ∈ s' := by
  induction h with
  | nil => exact id
  | @keep y s s' hs ih =>
    intro hmem
    rcases List.mem_cons.mp hmem with rfl | hmem
    · exact List.mem_cons_self ..
    · exact List.mem_cons_of_mem _ (ih hmem)
  | @replace v w s s' hg hs ih =>
    intro hmem
    simp only [List.mem_append, List.mem_cons] at hmem ⊢
    rcases hmem with hmem | hmem | hmem | hmem
    · exact .inl hmem
    · exact absurd hmem (hv v w hg)
    · exact .inr (.inr (.inl hmem))
    · exact .inr (.inr (.inr (ih hmem)))

section Last

variable {c : α} {t : List α}

theorem eq_nil {s : List α} (h : Edited (c :: t) q g s []) : s = [] := by
  generalize htarget : ([] : List α) = target at h
  cases h with
  | nil => rfl
  | keep x hs => cases htarget
  | replace hg hs => cases htarget

/-- Letters other than the mark's first are kept where the text begins with them. -/
theorem strip {p : List α} (hp : c ∉ p) : ∀ {s s' : List α}, Edited (c :: t) q g s (p ++ s') →
    ∃ r, s = p ++ r ∧ Edited (c :: t) q g r s' := by
  induction p with
  | nil => exact fun h => ⟨_, rfl, h⟩
  | cons x p ih =>
    intro s s' h
    obtain ⟨hx, hp'⟩ := not_or.mp (fun hmem => hp (List.mem_cons.mpr hmem))
    generalize htarget : x :: p ++ s' = target at h
    cases h with
    | nil => simp at htarget
    | keep y hs =>
      obtain ⟨rfl, rfl⟩ := List.cons.inj htarget
      obtain ⟨r, rfl, hr⟩ := ih hp' hs
      exact ⟨r, rfl, hr⟩
    | replace _ _ => exact absurd (List.cons.inj htarget).1.symm hx

/-- A replacement needs the letter `q` twice. -/
theorem eq_of_count [DecidableEq α] {s s' : List α} (h : Edited (c :: (t ++ [q])) q g s s') :
    s'.count q ≤ 1 → s = s' := by
  induction h with
  | nil => exact fun _ => rfl
  | @keep x s s' hs ih =>
    intro hcount
    rw [List.count_cons] at hcount
    rw [ih (by omega)]
  | @replace v w s s' hg hs ih =>
    intro hcount
    rw [List.cons_append, List.count_cons, List.count_append, List.count_append,
      List.count_append, List.count_cons_self, List.count_cons_self] at hcount
    omega

/-- **The last marked value of an edited text** is a replacement, or it was there before. -/
theorem last [DecidableEq α] (hct : c ∉ t) (hcq : c ≠ q)
    (hw : ∀ v w, g v = some w → q ∉ w ∧ c ∉ w) {src post : List α} (hsrc : q ∉ src)
    (hpost : q ∉ post) {s s' : List α} (h : Edited (c :: (t ++ [q])) q g s s') :
    ∀ {a' : List α}, s' = a' ++ (c :: (t ++ [q]) ++ (src ++ q :: post)) →
      (∃ v, g v = some src) ∨ ∃ a, s = a ++ (c :: (t ++ [q]) ++ (src ++ q :: post)) := by
  induction h with
  | nil =>
    intro a' heq
    simp at heq
  | @keep y s s' hs ih =>
    intro a' heq
    cases a' with
    | cons z a' =>
      obtain ⟨rfl, htail⟩ := List.cons.inj heq
      rcases ih htail with hnew | ⟨a, rfl⟩
      · exact .inl hnew
      · exact .inr ⟨y :: a, rfl⟩
    | nil =>
      obtain ⟨rfl, rfl⟩ := List.cons.inj heq
      have hfree : y ∉ t ++ [q] := by
        rw [List.mem_append, List.mem_singleton]
        exact fun hmem => hmem.elim hct hcq
      obtain ⟨r, rfl, hr⟩ := strip hfree hs
      have hcount : (src ++ q :: post).count q ≤ 1 := by
        rw [List.count_append, List.count_cons_self, List.count_eq_zero_of_not_mem hsrc,
          List.count_eq_zero_of_not_mem hpost]
      exact .inr ⟨[], by rw [hr.eq_of_count hcount]; rfl⟩
  | @replace v w s s' hg hs ih =>
    intro a' heq
    obtain ⟨hqw, hcw⟩ := hw v w hg
    have hassoc : c :: (t ++ [q]) ++ (w ++ q :: s') = (c :: (t ++ [q]) ++ (w ++ [q])) ++ s' := by simp
    rw [hassoc] at heq
    rcases List.append_eq_append_iff.mp heq with ⟨r, rfl, hr⟩ | ⟨r, hblock, hr⟩
    · rcases ih hr with hnew | ⟨a, rfl⟩
      · exact .inl hnew
      · exact .inr ⟨c :: (t ++ [q]) ++ (v ++ q :: a), by simp⟩
    · cases r with
      | nil =>
        have hs' : s' = [] ++ (c :: (t ++ [q]) ++ (src ++ q :: post)) := by simpa using hr.symm
        rcases ih hs' with hnew | ⟨a, rfl⟩
        · exact .inl hnew
        · exact .inr ⟨c :: (t ++ [q]) ++ (v ++ q :: a), by simp⟩
      | cons y r =>
        obtain ⟨rfl, hrest⟩ := List.cons.inj hr
        cases a' with
        | nil =>
          -- The two marks begin together.
          have hsame : (t ++ [q]) ++ (src ++ q :: post) = (t ++ [q]) ++ (w ++ q :: s') := by
            have htail : (t ++ [q]) ++ (w ++ [q]) = r := (List.cons.inj hblock).2
            have hrest' : (t ++ [q]) ++ (src ++ q :: post) = r ++ s' := hrest
            rw [hrest', ← htail]
            simp
          obtain rfl := append_cons_inj hsrc hqw (List.append_cancel_left hsame)
          exact .inl ⟨v, hg⟩
        | cons z a' =>
          -- No second mark begins inside the block.
          have htail : (t ++ [q]) ++ (w ++ [q]) = a' ++ c :: r := (List.cons.inj hblock).2
          have hmem : c ∈ (t ++ [q]) ++ (w ++ [q]) := by
            have hin : c ∈ a' ++ c :: r := List.mem_append_right _ (List.mem_cons_self ..)
            rw [← htail] at hin
            exact hin
          simp only [List.mem_append, List.mem_singleton] at hmem
          rcases hmem with (hmem | hmem) | hmem | hmem
          · exact absurd hmem hct
          · exact absurd hmem hcq
          · exact absurd hmem hcw
          · exact absurd hmem hcq

end Last

end Edited

end Markup

end Machinery
