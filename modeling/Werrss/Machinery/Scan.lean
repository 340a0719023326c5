import Mathlib.Data.List.Infix

/-!
# Machinery/Scan — rewriting the marked values of a flat text

    gap₀ · mark · v₁ · q · gap₁ · mark · v₂ · q · gap₂

A scanner looks for `mark` in the flat text, takes everything up to the next `q` as a value, and
goes on behind it.  A text written from pieces — raw stretches and marked values — is *tame* when
its raw stretches do not fake a mark.  **On a tame text, and on no other, scanning the flat text is
walking the pieces.**
-/

namespace Machinery

namespace Scan

variable {α : Type*} [DecidableEq α]

/-! ## Cutting at the first occurrence -/

/-- The text before and after the first occurrence of `p`. -/
def cutAt (p : List α) : List α → Option (List α × List α)
  | [] => if p = [] then some ([], []) else none
  | c :: s =>
    if p <+: c :: s then some ([], (c :: s).drop p.length)
    else (cutAt p s).map fun ab => (c :: ab.1, ab.2)

theorem cutAt_eq_some {p : List α} : ∀ {s a b : List α}, cutAt p s = some (a, b) → s = a ++ (p ++ b)
  | [], a, b, h => by
    simp only [cutAt] at h
    split_ifs at h with hp
    obtain ⟨rfl, rfl⟩ := Prod.mk.inj (Option.some.inj h)
    simp [hp]
  | c :: s, a, b, h => by
    simp only [cutAt] at h
    split_ifs at h with hp
    · obtain ⟨rfl, rfl⟩ := Prod.mk.inj (Option.some.inj h)
      exact (List.prefix_iff_eq_append.mp hp).symm
    · obtain ⟨⟨a', b'⟩, hcut, heq⟩ := Option.map_eq_some_iff.mp h
      obtain ⟨rfl, rfl⟩ := Prod.mk.inj heq
      rw [cutAt_eq_some hcut, List.cons_append]

theorem cutAt_isSome {p : List α} : ∀ {s : List α}, p <:+: s → (cutAt p s).isSome
  | [], h => by simp [cutAt, List.infix_nil.mp h]
  | c :: s, h => by
    simp only [cutAt]
    split_ifs with hp
    · rfl
    · rcases List.infix_cons_iff.mp h with hp' | hs
      · exact absurd hp' hp
      · simp [cutAt_isSome hs]

theorem cutAt_eq_none {p s : List α} (h : ¬ p <:+: s) : cutAt p s = none := by
  cases hcut : cutAt p s with
  | none => rfl
  | some ab => exact absurd ⟨ab.1, ab.2, by rw [cutAt_eq_some hcut, List.append_assoc]⟩ h

/-- The first occurrence is at or before any other. -/
theorem cutAt_first {p : List α} : ∀ {s a b a' b' : List α}, cutAt p s = some (a, b) →
    s = a' ++ (p ++ b') → ∃ m, a' = a ++ m
  | [], a, b, a', b', h, hs => by
    have hnil := List.append_eq_nil_iff.mp hs.symm
    obtain ⟨rfl, -⟩ := List.append_eq_nil_iff.mp (cutAt_eq_some h).symm
    exact ⟨a', rfl⟩
  | c :: s, a, b, a', b', h, hs => by
    simp only [cutAt] at h
    split_ifs at h with hp
    · obtain ⟨rfl, rfl⟩ := Prod.mk.inj (Option.some.inj h)
      exact ⟨a', rfl⟩
    · obtain ⟨⟨a₁, b₁⟩, hcut, heq⟩ := Option.map_eq_some_iff.mp h
      obtain ⟨rfl, rfl⟩ := Prod.mk.inj heq
      cases a' with
      | nil => exact absurd (hs ▸ List.prefix_append p b') hp
      | cons d a' =>
        obtain ⟨rfl, hs'⟩ := List.cons.inj hs
        obtain ⟨m, rfl⟩ := cutAt_first hcut hs'
        exact ⟨m, rfl⟩

/-- Text behind the first occurrence does not move it. -/
theorem cutAt_append_right {p : List α} (r : List α) : ∀ {s a b : List α},
    cutAt p s = some (a, b) → cutAt p (s ++ r) = some (a, b ++ r)
  | [], a, b, h => by
    simp only [cutAt] at h
    split_ifs at h with hp
    obtain ⟨rfl, rfl⟩ := Prod.mk.inj (Option.some.inj h)
    cases r with
    | nil => simp [cutAt, hp]
    | cons d r => simp [cutAt, hp]
  | c :: s, a, b, h => by
    have hlen : p.length ≤ (c :: s).length := by
      rw [cutAt_eq_some h]
      simp only [List.length_append]
      omega
    have hpre : p <+: c :: (s ++ r) ↔ p <+: c :: s := by
      rw [← List.cons_append]
      exact ⟨fun hp => List.prefix_of_prefix_length_le hp (List.prefix_append ..) hlen,
        fun hp => hp.trans (List.prefix_append ..)⟩
    simp only [cutAt] at h
    rw [List.cons_append, cutAt]
    split_ifs at h with hp
    · obtain ⟨rfl, rfl⟩ := Prod.mk.inj (Option.some.inj h)
      rw [if_pos (hpre.mpr hp), ← List.cons_append, List.drop_append_of_le_length hlen]
    · obtain ⟨⟨a', b'⟩, hcut, heq⟩ := Option.map_eq_some_iff.mp h
      obtain ⟨rfl, rfl⟩ := Prod.mk.inj heq
      rw [if_neg (hpre.not.mpr hp), cutAt_append_right r hcut]
      rfl

/-- **A mark that cannot overlap itself is found where it stands** behind a gap without marks. -/
theorem cutAt_append {c : α} {t : List α} (hc : c ∉ t) {gap : List α} (rest : List α)
    (hgap : ¬ (c :: t) <:+: gap) : cutAt (c :: t) (gap ++ (c :: t ++ rest)) = some (gap, rest) := by
  induction gap with
  | nil => simp [cutAt]
  | cons d gap ih =>
    have hnot : ¬ (c :: t) <+: d :: gap ++ (c :: t ++ rest) := by
      rintro ⟨u, hu⟩
      -- The mark would begin in the gap and reach into the next mark, whose first letter is not
      -- one of its later ones.
      rcases List.append_eq_append_iff.mp hu with ⟨m, hm, -⟩ | ⟨m, hm, hm'⟩
      · exact hgap ⟨[], m, by simpa using hm.symm⟩
      · cases m with
        | nil => exact hgap ⟨[], [], by simpa using hm⟩
        | cons e m =>
          obtain ⟨rfl, -⟩ := List.cons.inj hm'
          obtain ⟨-, ht⟩ := List.cons.inj hm
          exact hc (ht ▸ by simp)
    rw [List.cons_append] at hnot ⊢
    rw [cutAt, if_neg hnot, ih fun h => hgap (h.trans (List.suffix_cons d gap).isInfix)]
    rfl

theorem cutAt_singleton {q : α} {v : List α} (hv : q ∉ v) (rest : List α) :
    cutAt [q] (v ++ q :: rest) = some (v, rest) :=
  cutAt_append (List.not_mem_nil) rest fun h => hv (h.subset (List.mem_singleton_self q))

/-! ## The scanner -/

section Scanner

variable (mark : List α) (q : α)

/-- The scanning loop, `fuel` bounding its rounds: each value found is replaced by what `g` says. -/
def rewriteLoop (g : List α → Option (List α)) : ℕ → List α → List α
  | 0, s => s
  | fuel + 1, s =>
    match cutAt mark s with
    | none => s
    | some (before, rest) =>
      match cutAt [q] rest with
      | none => s
      | some (value, rest') =>
        before ++ mark ++ (g value).getD value ++ [q] ++ rewriteLoop g fuel rest'

/-- **Scan and rewrite.**  Every round consumes text, so its length is fuel enough. -/
def rewrite (g : List α → Option (List α)) (s : List α) : List α :=
  rewriteLoop mark q g (s.length + 1) s

/-- The values the scanner stops at. -/
def valuesLoop : ℕ → List α → List (List α)
  | 0, _ => []
  | fuel + 1, s =>
    match cutAt mark s with
    | none => []
    | some (_, rest) =>
      match cutAt [q] rest with
      | none => []
      | some (value, rest') => value :: valuesLoop fuel rest'

def values (s : List α) : List (List α) := valuesLoop mark q (s.length + 1) s

variable {mark q}

/-- The loop stops by itself: more fuel than text changes nothing. -/
theorem rewriteLoop_of_le (g : List α → Option (List α)) : ∀ {fuel fuel' : ℕ} {s : List α},
    s.length < fuel → s.length < fuel' →
      rewriteLoop mark q g fuel s = rewriteLoop mark q g fuel' s
  | 0, _, _, h, _ => absurd h (Nat.not_lt_zero _)
  | _, 0, _, _, h => absurd h (Nat.not_lt_zero _)
  | fuel + 1, fuel' + 1, s, h, h' => by
    simp only [rewriteLoop]
    split
    · rfl
    · rename_i before rest hcut
      split
      · rfl
      · rename_i value rest' hcut'
        have hlen : rest'.length < s.length := by
          rw [cutAt_eq_some hcut, cutAt_eq_some hcut']
          simp only [List.length_append, List.length_singleton]
          omega
        rw [rewriteLoop_of_le g (by omega) (by omega : rest'.length < fuel')]

theorem rewrite_of_cut (g : List α → Option (List α)) {s before rest value rest' : List α}
    (h : cutAt mark s = some (before, rest)) (h' : cutAt [q] rest = some (value, rest')) :
    rewrite mark q g s
      = before ++ mark ++ (g value).getD value ++ [q] ++ rewrite mark q g rest' := by
  have hlen : rest'.length < s.length := by
    rw [cutAt_eq_some h, cutAt_eq_some h']
    simp only [List.length_append, List.length_singleton]
    omega
  rw [rewrite, rewriteLoop, h]
  simp only [h']
  rw [rewriteLoop_of_le g hlen (Nat.lt_succ_self _), rewrite]

theorem rewrite_of_none (g : List α → Option (List α)) {s : List α} (h : cutAt mark s = none) :
    rewrite mark q g s = s := by
  rw [rewrite, rewriteLoop, h]

theorem rewrite_of_open (g : List α → Option (List α)) {s before rest : List α}
    (h : cutAt mark s = some (before, rest)) (h' : cutAt [q] rest = none) :
    rewrite mark q g s = s := by
  rw [rewrite, rewriteLoop, h]
  simp only [h']

end Scanner

/-! ## Texts written from pieces -/

/-- A raw stretch, or a marked value. -/
inductive Piece (α : Type*)
  | raw (cs : List α)
  | marked (v : List α)

namespace Piece

/-- The flat text of a piece. -/
def flat (mark : List α) (q : α) : Piece α → List α
  | .raw cs => cs
  | .marked v => mark ++ v ++ [q]

/-- A value replaced in its piece. -/
def replace (g : List α → Option (List α)) : Piece α → Piece α
  | .raw cs => .raw cs
  | .marked v => .marked ((g v).getD v)

end Piece

/-- The flat text of pieces. -/
def flatten (mark : List α) (q : α) (ps : List (Piece α)) : List α := ps.flatMap (Piece.flat mark q)

/-- The values are closed by the first `q` behind them. -/
def Closed (q : α) (ps : List (Piece α)) : Prop := ∀ v, Piece.marked v ∈ ps → q ∉ v

/-- **Nothing fakes a mark**: behind the stretch `gap`, no raw stretch up to a mark holds one, and
the last stretch holds none that a later `q` would close. -/
def TameFrom (mark : List α) (q : α) : List α → List (Piece α) → Prop
  | gap, [] => ∀ a b, gap = a ++ (mark ++ b) → q ∉ b
  | gap, .raw cs :: ps => TameFrom mark q (gap ++ cs) ps
  | gap, .marked _ :: ps => ¬ mark <:+: gap ∧ TameFrom mark q [] ps

abbrev Tame (mark : List α) (q : α) (ps : List (Piece α)) : Prop := TameFrom mark q [] ps

section Pieces

variable {c : α} {t : List α} {q : α}

omit [DecidableEq α] in
theorem flatten_marked (v : List α) (ps : List (Piece α)) :
    flatten (c :: t) q (.marked v :: ps) = c :: t ++ (v ++ q :: flatten (c :: t) q ps) := by
  simp [flatten, Piece.flat]

omit [DecidableEq α] in
theorem flatten_raw (cs : List α) (ps : List (Piece α)) :
    flatten (c :: t) q (.raw cs :: ps) = cs ++ flatten (c :: t) q ps := rfl

omit [DecidableEq α] in
/-- Tameness is a matter of the raw stretches: replacing marked values keeps it. -/
theorem TameFrom.replace {mark : List α} (g : List α → Option (List α)) {ps : List (Piece α)} :
    ∀ {gap : List α}, TameFrom mark q gap ps → TameFrom mark q gap (ps.map (Piece.replace g)) := by
  induction ps with
  | nil => exact id
  | cons p ps ih =>
    intro gap htame
    cases p with
    | raw cs => exact ih htame
    | marked v => exact ⟨htame.1, ih htame.2⟩

/-- **On a tame text the scanner replaces exactly the marked values.** -/
theorem rewrite_flatten (hc : c ∉ t) (g : List α → Option (List α)) {ps : List (Piece α)} :
    ∀ {gap : List α}, Closed q ps → TameFrom (c :: t) q gap ps →
      rewrite (c :: t) q g (gap ++ flatten (c :: t) q ps)
        = gap ++ flatten (c :: t) q (ps.map (Piece.replace g)) := by
  induction ps with
  | nil =>
    intro gap _ htame
    simp only [flatten, List.flatMap_nil, List.append_nil, List.map_nil]
    cases hcut : cutAt (c :: t) gap with
    | none => exact rewrite_of_none g hcut
    | some ab =>
      obtain ⟨a, b⟩ := ab
      have hb : q ∉ b := htame a b (cutAt_eq_some hcut)
      refine rewrite_of_open g hcut (cutAt_eq_none fun h => hb ?_)
      exact h.subset (List.mem_singleton_self q)
  | cons p ps ih =>
    intro gap hclosed htame
    have hclosed' : Closed q ps := fun v hv => hclosed v (List.mem_cons_of_mem _ hv)
    cases p with
    | raw cs =>
      have := ih hclosed' htame
      simpa only [flatten_raw, List.map_cons, Piece.replace, List.append_assoc] using this
    | marked v =>
      obtain ⟨hgap, hrest⟩ := htame
      have hv : q ∉ v := hclosed v (List.mem_cons_self ..)
      have hps := ih hclosed' hrest
      rw [List.nil_append, List.nil_append] at hps
      rw [flatten_marked, rewrite_of_cut g (cutAt_append hc _ hgap) (cutAt_singleton hv _), hps,
        List.map_cons, Piece.replace, flatten_marked]
      simp

/-- Where a faked mark stands and is closed, one of two constant replacements shows: the scanner
writes there, the pieces do not. -/
theorem rewrite_faked {x y : α} (hxy : x ≠ y) {s a b : List α} (hs : s = a ++ (c :: t ++ b))
    (hq : q ∈ b) {ends : α → List α}
    (hends : ∀ z, ∃ r, ends z = a ++ (c :: t ++ b.take 1) ++ r) (hfirst :
      ∃ rest, cutAt (c :: t) s = some (a, rest)) :
    ∃ z, (z = x ∨ z = y) ∧ rewrite (c :: t) q (fun _ => some [z]) s ≠ ends z := by
  obtain ⟨rest, hcut⟩ := hfirst
  obtain rfl : rest = b := by
    have := cutAt_eq_some hcut
    rw [hs] at this
    simpa using this.symm
  obtain ⟨v, rest', hcut'⟩ : ∃ v rest', cutAt [q] rest = some (v, rest') := by
    obtain ⟨⟨v, rest'⟩, h⟩ := Option.isSome_iff_exists.mp
      (cutAt_isSome ((List.singleton_infix_iff q rest).mpr hq))
    exact ⟨v, rest', h⟩
  cases rest with
  | nil => cases hq
  | cons e rest =>
    -- `e` follows the faked mark; take the letter that differs from it.
    obtain ⟨z, hz, hne⟩ : ∃ z, (z = x ∨ z = y) ∧ z ≠ e := by
      by_cases hx : x = e
      · exact ⟨y, .inr rfl, fun hy => hxy (hx.trans hy.symm)⟩
      · exact ⟨x, .inl rfl, hx⟩
    refine ⟨z, hz, fun heq => hne ?_⟩
    obtain ⟨r, hr⟩ := hends z
    rw [rewrite_of_cut _ hcut hcut', hr] at heq
    simp only [Option.getD_some, List.append_assoc, List.cons_append, List.take_succ_cons,
      List.take_zero, List.nil_append] at heq
    have := List.append_cancel_left heq
    simp only [List.cons.injEq, true_and] at this
    exact (List.cons.inj (List.append_cancel_left this)).1

/-- **On a text that is not tame the scanner is caught**: one of two constant replacements comes out
differently from replacing the marked values. -/
theorem exists_rewrite_ne (hc : c ∉ t) {x y : α} (hxy : x ≠ y) {ps : List (Piece α)} :
    ∀ {gap : List α}, Closed q ps → ¬ TameFrom (c :: t) q gap ps →
      ∃ z, (z = x ∨ z = y) ∧
        rewrite (c :: t) q (fun _ => some [z]) (gap ++ flatten (c :: t) q ps)
          ≠ gap ++ flatten (c :: t) q (ps.map (Piece.replace fun _ => some [z])) := by
  induction ps with
  | nil =>
    intro gap _ hwild
    simp only [TameFrom, not_forall, not_not] at hwild
    obtain ⟨a, b, rfl, hq⟩ := hwild
    simp only [flatten, List.map_nil, List.flatMap_nil, List.append_nil]
    obtain ⟨⟨a₀, b₀⟩, hcut⟩ := Option.isSome_iff_exists.mp
      (cutAt_isSome (p := c :: t) (s := a ++ (c :: t ++ b)) ⟨a, b, by simp⟩)
    have hs := cutAt_eq_some hcut
    -- The first faked mark is at or before this one, so `q` follows it too.
    have hq₀ : q ∈ b₀ := by
      obtain ⟨m, rfl⟩ := cutAt_first hcut rfl
      rw [List.append_assoc] at hs
      have hs' := List.append_cancel_left hs
      rw [← List.append_assoc] at hs'
      rcases List.append_eq_append_iff.mp hs' with ⟨k, hk, hb⟩ | ⟨k, -, hb⟩
      · have hlen := congrArg List.length hk
        simp only [List.length_append, List.length_cons] at hlen
        have hk0 : k = [] := List.length_eq_zero_iff.mp (by omega)
        rw [hk0, List.nil_append] at hb
        exact hb ▸ hq
      · rw [hb]
        exact List.mem_append_right _ hq
    refine rewrite_faked hxy hs hq₀ (fun z => ⟨b₀.drop 1, ?_⟩) ⟨b₀, hcut⟩
    rw [List.append_assoc, List.append_assoc, List.take_append_drop]
    exact hs
  | cons p ps ih =>
    intro gap hclosed hwild
    have hclosed' : Closed q ps := fun v hv => hclosed v (List.mem_cons_of_mem _ hv)
    cases p with
    | raw cs =>
      obtain ⟨z, hz, hne⟩ := ih hclosed' hwild
      refine ⟨z, hz, ?_⟩
      simpa only [flatten_raw, List.map_cons, Piece.replace, List.append_assoc] using hne
    | marked v =>
      have hv : q ∉ v := hclosed v (List.mem_cons_self ..)
      by_cases hgap : (c :: t) <:+: gap
      · obtain ⟨⟨a, b⟩, hcut⟩ := Option.isSome_iff_exists.mp (cutAt_isSome hgap)
        have hcut' := cutAt_append_right (flatten (c :: t) q (.marked v :: ps)) hcut
        refine rewrite_faked hxy (cutAt_eq_some hcut') ?_ (fun z => ?_) ⟨_, hcut'⟩
        · rw [flatten_marked]
          simp
        · rw [cutAt_eq_some hcut, List.map_cons, Piece.replace, flatten_marked, flatten_marked]
          cases b with
          | nil => exact ⟨t ++ ([z] ++ q :: flatten (c :: t) q _), by simp; rfl⟩
          | cons e b => exact ⟨b ++ (c :: t ++ ([z] ++ q :: flatten (c :: t) q _)), by simp; rfl⟩
      · have hrest : ¬ TameFrom (c :: t) q [] ps := fun h => hwild ⟨hgap, h⟩
        obtain ⟨z, hz, hne⟩ := ih hclosed' hrest
        rw [List.nil_append, List.nil_append] at hne
        refine ⟨z, hz, fun heq => hne ?_⟩
        rw [flatten_marked, rewrite_of_cut _ (cutAt_append hc _ hgap) (cutAt_singleton hv _),
          List.map_cons, Piece.replace, flatten_marked] at heq
        simpa using heq

end Pieces

/-! ## Settled texts

A text is *settled* when the scanner closes every mark it opens.  A letter that no mark contains is a
barrier: across it, settled texts are read one after the other. -/

section Settled

variable {mark : List α} {q d : α}

omit [DecidableEq α] in
/-- **A mark does not cross a barrier.** -/
theorem infix_barrier (hd : d ∉ mark) {gap cs : List α} (h : mark <:+: gap ++ d :: cs) :
    mark <:+: gap ∨ mark <:+: cs := by
  obtain ⟨s, t, h⟩ := h
  rcases List.append_eq_append_iff.mp h with ⟨m, hgap, -⟩ | ⟨m, hm, hcs⟩
  · exact .inl ⟨s, m, hgap.symm⟩
  cases m with
  | nil => exact .inl ⟨s, [], by simpa using hm⟩
  | cons e m =>
    obtain ⟨rfl, rfl⟩ := List.cons.inj hcs
    rcases List.append_eq_append_iff.mp hm with ⟨k, -, hk⟩ | ⟨k, -, hk⟩
    · exact absurd (hk ▸ by simp) hd
    · cases k with
      | nil => exact absurd (List.mem_of_mem_head? (by rw [← List.nil_append mark, ← hk]; rfl)) hd
      | cons e k =>
        obtain ⟨-, rfl⟩ := List.cons.inj hk
        exact .inr ⟨k, t, rfl⟩

variable (mark q) in
/-- The loop of `settles`. -/
def settlesLoop : ℕ → List α → Bool
  | 0, _ => false
  | fuel + 1, s =>
    match cutAt mark s with
    | none => true
    | some (_, rest) =>
      match cutAt [q] rest with
      | none => false
      | some (_, rest') => settlesLoop fuel rest'

variable (mark q) in
/-- The scanner closes every mark it opens. -/
def settles (s : List α) : Bool := settlesLoop mark q (s.length + 1) s

variable (mark q) in
/-- **The scanner reads the values `vs` and settles.** -/
inductive Reads : List α → List (List α) → Prop
  | done {s : List α} : cutAt mark s = none → Reads s []
  | read {s before rest v rest' : List α} {vs : List (List α)} :
    cutAt mark s = some (before, rest) → cutAt [q] rest = some (v, rest') → Reads rest' vs →
      Reads s (v :: vs)

theorem length_rest_lt {s before rest v rest' : List α} (h : cutAt mark s = some (before, rest))
    (h' : cutAt [q] rest = some (v, rest')) : rest'.length < s.length := by
  rw [cutAt_eq_some h, cutAt_eq_some h']
  simp only [List.length_append, List.length_singleton]
  omega

theorem reads_of_settlesLoop : ∀ {fuel : ℕ} {s : List α}, settlesLoop mark q fuel s = true →
    Reads mark q s (valuesLoop mark q fuel s)
  | 0, _, h => by cases h
  | fuel + 1, s, h => by
    rw [settlesLoop] at h
    rw [valuesLoop]
    split at h
    · rename_i hcut
      exact .done hcut
    · rename_i before rest hcut
      split at h
      · cases h
      · rename_i v rest' hcut'
        exact .read hcut hcut' (reads_of_settlesLoop h)

/-- A settled text is read to its end. -/
theorem reads_of_settles {s : List α} (h : settles mark q s = true) :
    Reads mark q s (values mark q s) := reads_of_settlesLoop h

theorem Reads.valuesLoop_eq {s : List α} {vs : List (List α)} (h : Reads mark q s vs) :
    ∀ {fuel : ℕ}, s.length < fuel → valuesLoop mark q fuel s = vs := by
  induction h with
  | done hcut =>
    intro fuel hfuel
    obtain ⟨fuel, rfl⟩ := Nat.exists_eq_succ_of_ne_zero (Nat.ne_of_gt (Nat.zero_lt_of_lt hfuel))
    rw [valuesLoop, hcut]
  | read hcut hcut' _ ih =>
    intro fuel hfuel
    obtain ⟨fuel, rfl⟩ := Nat.exists_eq_succ_of_ne_zero (Nat.ne_of_gt (Nat.zero_lt_of_lt hfuel))
    have hlen := length_rest_lt hcut hcut'
    rw [valuesLoop, hcut]
    simp only [hcut']
    rw [ih (by omega)]

/-- What a settled text reads is what the scanner stops at. -/
theorem Reads.values_eq {s : List α} {vs : List (List α)} (h : Reads mark q s vs) :
    values mark q s = vs := h.valuesLoop_eq (Nat.lt_succ_self _)

theorem Reads.of_quiet {s : List α} (h : ¬ mark <:+: s) : Reads mark q s [] :=
  .done (cutAt_eq_none h)

theorem not_infix_of_cutAt_eq_none {s : List α} (h : cutAt mark s = none) : ¬ mark <:+: s := by
  intro hin
  have := cutAt_isSome hin
  rw [h] at this
  cases this

/-- The text in front of the first occurrence holds none. -/
theorem not_infix_before {c : α} {t s before rest : List α}
    (h : cutAt (c :: t) s = some (before, rest)) : ¬ (c :: t) <:+: before := by
  rintro ⟨a, b, rfl⟩
  have hs := cutAt_eq_some h
  have hs' : s = a ++ (c :: t ++ (b ++ (c :: t ++ rest))) := by simpa using hs
  obtain ⟨m, hm⟩ := cutAt_first h hs'
  have hlen := congrArg List.length hm
  simp only [List.length_append, List.length_cons] at hlen
  omega

variable {c : α} {t : List α}

/-- A letter no mark contains can stand in front. -/
theorem Reads.cons (hd : d ∉ c :: t) {s : List α} {vs : List (List α)} (h : Reads (c :: t) q s vs) :
    Reads (c :: t) q (d :: s) vs := by
  have hnot : ¬ (c :: t) <+: d :: s := fun hp =>
    hd ((List.cons_prefix_cons.mp hp).1 ▸ List.mem_cons_self ..)
  cases h with
  | done hcut => exact .done (by rw [cutAt, if_neg hnot, hcut, Option.map_none])
  | read hcut hcut' hrest =>
    exact .read (by rw [cutAt, if_neg hnot, hcut, Option.map_some]) hcut' hrest

/-- **Settled texts are read one after the other across a barrier.** -/
theorem Reads.append (hc : c ∉ t) (hd : d ∉ c :: t) {s r : List α} {vs ws : List (List α)}
    (hs : Reads (c :: t) q s vs) (hr : Reads (c :: t) q (d :: r) ws) :
    Reads (c :: t) q (s ++ d :: r) (vs ++ ws) := by
  induction hs with
  | @done s hcut =>
    have hquiet := not_infix_of_cutAt_eq_none hcut
    rw [List.nil_append]
    cases hr with
    | done hcut' =>
      refine .of_quiet fun hin => ?_
      rcases infix_barrier hd hin with hin | hin
      · exact hquiet hin
      · exact not_infix_of_cutAt_eq_none hcut' (hin.trans (List.suffix_cons _ _).isInfix)
    | @read _ before rest v rest' vs hcut' hcut'' hrest =>
      have hbefore := not_infix_before hcut'
      have hsplit := cutAt_eq_some hcut'
      cases before with
      | nil =>
        rw [List.nil_append, List.cons_append] at hsplit
        exact absurd ((List.cons.inj hsplit).1 ▸ List.mem_cons_self ..) hd
      | cons e before =>
        rw [List.cons_append] at hsplit
        obtain ⟨rfl, hsplit'⟩ := List.cons.inj hsplit
        have hgap : ¬ (c :: t) <:+: s ++ d :: before := fun hin => by
          rcases infix_barrier hd hin with hin | hin
          · exact hquiet hin
          · exact hbefore (hin.trans (List.suffix_cons _ _).isInfix)
        have hfound := cutAt_append hc rest hgap
        rw [List.append_assoc, List.cons_append, ← hsplit'] at hfound
        exact .read hfound hcut'' hrest
  | read hcut hcut' _ ih =>
    exact .read (cutAt_append_right _ hcut) (cutAt_append_right _ hcut') ih

/-- **Rewriting a settled text rewrites the values it reads.** -/
theorem Reads.rewrite (hc : c ∉ t) {g : List α → Option (List α)}
    (hg : ∀ v w, g v = some w → q ∉ w) {s : List α} {vs : List (List α)}
    (h : Reads (c :: t) q s vs) :
    Reads (c :: t) q (rewrite (c :: t) q g s) (vs.map fun v => (g v).getD v) := by
  induction h with
  | done hcut =>
    rw [rewrite_of_none g hcut]
    exact .done hcut
  | @read s before rest v rest' vs hcut hcut' _ ih =>
    have hv : q ∉ (g v).getD v := by
      cases hgv : g v with
      | none => exact fun hin => not_infix_before hcut' ((List.singleton_infix_iff q v).mpr hin)
      | some w => exact hg v w hgv
    rw [rewrite_of_cut g hcut hcut', List.map_cons]
    simp only [List.append_assoc]
    exact .read (cutAt_append hc _ (not_infix_before hcut)) (cutAt_singleton hv _) ih

/-- A pattern that holds no `q` is not written by rewriting between two of them. -/
theorem not_infix_rewrite {p m : List α} (hp : q ∉ p) (hmark : mark = m ++ [q])
    {g : List α → Option (List α)} (hg : ∀ v w, g v = some w → ¬ p <:+: w) :
    ∀ {fuel : ℕ} {s : List α}, ¬ p <:+: s → ¬ p <:+: rewriteLoop mark q g fuel s
  | 0, _, h => h
  | fuel + 1, s, h => by
    rw [rewriteLoop]
    split
    · exact h
    · rename_i before rest hcut
      split
      · exact h
      · rename_i v rest' hcut'
        have hs : s = (before ++ mark) ++ (v ++ q :: rest') := by
          rw [cutAt_eq_some hcut, cutAt_eq_some hcut', List.append_assoc]
          rfl
        have hbefore : ¬ p <:+: before ++ m := fun hin =>
          h (hin.trans ⟨[], [q] ++ (v ++ q :: rest'), by rw [hs, hmark]; simp⟩)
        have hvalue : ¬ p <:+: (g v).getD v := by
          cases hgv : g v with
          | none => exact fun hin => h (hin.trans ⟨before ++ mark, q :: rest', by rw [hs]; simp⟩)
          | some w => exact hg v w hgv
        have hrest : ¬ p <:+: rewriteLoop mark q g fuel rest' :=
          not_infix_rewrite hp hmark hg fun hin =>
            h (hin.trans ⟨before ++ mark ++ v ++ [q], [], by rw [hs]; simp⟩)
        intro hin
        have hsplit : before ++ mark ++ (g v).getD v ++ [q] ++ rewriteLoop mark q g fuel rest'
            = (before ++ m) ++ q :: ((g v).getD v ++ q :: rewriteLoop mark q g fuel rest') := by
          rw [hmark]
          simp
        rw [hsplit] at hin
        rcases infix_barrier hp hin with hin | hin
        · exact hbefore hin
        · rcases infix_barrier hp hin with hin | hin
          · exact hvalue hin
          · exact hrest hin

/-- **A property of all characters is kept** by rewriting values to texts that have it. -/
theorem forall_mem_rewriteLoop {P : α → Prop} {g : List α → Option (List α)}
    (hg : ∀ v w, g v = some w → ∀ c ∈ w, P c) :
    ∀ {fuel : ℕ} {s : List α}, (∀ c ∈ s, P c) → ∀ c ∈ rewriteLoop mark q g fuel s, P c
  | 0, _, h => h
  | fuel + 1, s, h => by
    rw [rewriteLoop]
    split
    · exact h
    · rename_i before rest hcut
      split
      · exact h
      · rename_i v rest' hcut'
        rw [cutAt_eq_some hcut, cutAt_eq_some hcut'] at h
        simp only [List.mem_append] at h
        have hvalue : ∀ c ∈ (g v).getD v, P c := by
          cases hgv : g v with
          | none => exact fun c hc => h c (.inr (.inr (.inl hc)))
          | some w => exact hg v w hgv
        have hrest : ∀ c ∈ rewriteLoop mark q g fuel rest', P c :=
          forall_mem_rewriteLoop hg fun c hc => h c (.inr (.inr (.inr (.inr hc))))
        intro c hc
        simp only [List.mem_append] at hc
        rcases hc with (((hc | hc) | hc) | hc) | hc
        · exact h c (.inl hc)
        · exact h c (.inr (.inl hc))
        · exact hvalue c hc
        · exact h c (.inr (.inr (.inr (.inl hc))))
        · exact hrest c hc

end Settled

/-! ## Escapes -/

omit [DecidableEq α] in
/-- **An escape whose code words are no prefixes of one another can be undone.** -/
theorem flatMap_injective_of_prefixFree {β : Type*} {code : β → List α}
    (hne : ∀ b, code b ≠ []) (hfree : ∀ b b', code b <+: code b' → b = b') :
    Function.Injective (List.flatMap code) := by
  intro xs
  induction xs with
  | nil =>
    intro ys h
    cases ys with
    | nil => rfl
    | cons y ys => exact absurd (List.append_eq_nil_iff.mp h.symm).1 (hne y)
  | cons x xs ih =>
    intro ys h
    cases ys with
    | nil => exact absurd (List.append_eq_nil_iff.mp h).1 (hne x)
    | cons y ys =>
      rw [List.flatMap_cons, List.flatMap_cons] at h
      have hx : code x <+: code y ++ ys.flatMap code := ⟨_, h⟩
      obtain rfl : x = y := by
        rcases List.prefix_or_prefix_of_prefix hx (List.prefix_append ..) with hp | hp
        · exact hfree x y hp
        · exact (hfree y x hp).symm
      rw [ih (List.append_cancel_left h)]

end Scan

end Machinery
