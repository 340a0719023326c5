import Mathlib.Data.List.TakeWhile
import Werrss.Machinery.Std

/-!
# Machinery/Cookies — cookie headers, and jars that keep the last value

    a=1; b=2   ──splitOn ';', readPart──▸   (a, 1), (b, 2)   ──joined──▸   a=1; b=2

A header of clean pairs is read back as it was joined.  A jar keeps one pair for each name, and names
are compared without regard to case: **what it holds under a name is the last pair written to it**.
-/

namespace Machinery

/-! ## Trimmed texts -/

/-- A text is trimmed when it neither starts nor ends with white space. -/
theorem trimChars_eq_self {cs : List Char} (hhead : ∀ c ∈ cs.head?, isWhiteSpace c = false)
    (hlast : ∀ c ∈ cs.getLast?, isWhiteSpace c = false) : trimChars cs = cs := by
  have hfront : cs.dropWhile isWhiteSpace = cs := dropWhile_eq_self_of_head hhead
  have hback : cs.reverse.dropWhile isWhiteSpace = cs.reverse := by
    refine dropWhile_eq_self_of_head fun c hc => hlast c ?_
    rwa [List.head?_reverse] at hc
  rw [trimChars, hfront, hback, List.reverse_reverse]

/-- A trimmed text does not end with white space. -/
theorem getLast_of_trimmed {cs : List Char} (h : trimChars cs = cs) :
    ∀ c ∈ cs.getLast?, isWhiteSpace c = false := by
  intro c hc
  refine @head_dropWhile isWhiteSpace (cs.dropWhile isWhiteSpace).reverse c ?_
  rwa [← List.getLast?_reverse, ← trimChars, h]

/-- A trimmed text does not start with white space. -/
theorem head_of_trimmed {cs : List Char} (h : trimChars cs = cs) :
    ∀ c ∈ cs.head?, isWhiteSpace c = false := by
  intro c hc
  -- Trimming takes white space away at most, so the text it leaves is no longer than what it kept.
  have hlength : cs.length ≤ (cs.dropWhile isWhiteSpace).length := by
    calc cs.length = (trimChars cs).length := by rw [h]
      _ ≤ (cs.dropWhile isWhiteSpace).length := by
        rw [trimChars, List.length_reverse]
        simpa using (List.dropWhile_sublist (l := (cs.dropWhile isWhiteSpace).reverse)
          isWhiteSpace).length_le
  have hfront : cs.dropWhile isWhiteSpace = cs :=
    (List.dropWhile_suffix _).eq_of_length_le hlength
  exact head_dropWhile (by rwa [hfront])

theorem trimChars_cons_space (cs : List Char) : trimChars (' ' :: cs) = trimChars cs := by
  rw [trimChars, List.dropWhile_cons_of_pos (by decide), trimChars]

theorem mem_of_mem_trimChars {cs : List Char} {c : Char} (h : c ∈ trimChars cs) : c ∈ cs := by
  rw [trimChars, List.mem_reverse] at h
  have hback := (List.dropWhile_sublist _).mem h
  rw [List.mem_reverse] at hback
  exact (List.dropWhile_sublist _).mem hback

/-- A blank text is empty when trimmed. -/
theorem trim_of_isBlank {s : String} (h : isBlank s = true) : trim s = "" := by
  have hnil : s.toList.dropWhile isWhiteSpace = [] :=
    List.dropWhile_eq_nil_iff.mpr (List.all_eq_true.mp h)
  rw [trim, trimChars, hnil]
  rfl

/-- The parts of a split text do not contain the separator. -/
theorem notMem_of_mem_splitOn {a : Char} : ∀ {cs part : List Char}, part ∈ cs.splitOn a → a ∉ part
  | [], part, h => by
    rw [List.splitOn_nil, List.mem_singleton] at h
    rw [h]
    exact List.not_mem_nil
  | c :: cs, part, h => by
    rw [List.splitOn_cons_eq_if_modifyHead] at h
    split_ifs at h with hc
    · rcases List.mem_cons.mp h with rfl | h
      · exact List.not_mem_nil
      · exact notMem_of_mem_splitOn h
    · obtain ⟨first, rest, hparts⟩ := List.exists_cons_of_ne_nil (List.splitOn_ne_nil a cs)
      rw [hparts, List.modifyHead_cons] at h
      rcases List.mem_cons.mp h with rfl | h
      · have hfirst : a ∉ first :=
          notMem_of_mem_splitOn (hparts ▸ List.mem_cons_self : first ∈ cs.splitOn a)
        intro hmem
        rcases List.mem_cons.mp hmem with rfl | hmem
        · exact hc (beq_self_eq_true a)
        · exact hfirst hmem
      · exact notMem_of_mem_splitOn (hparts ▸ List.mem_cons_of_mem _ h : part ∈ cs.splitOn a)

/-! ## Headers -/

/-- `str::eq_ignore_ascii_case`. -/
def eqIgnoreAsciiCase (a b : String) : Bool := toAsciiLowercase a == toAsciiLowercase b

namespace Cookies

/-- One `name=value`. -/
def pairText (pair : String × String) : List Char := pair.1.toList ++ '=' :: pair.2.toList

/-- Pairs, joined by `; `. -/
def joined (pairs : List (String × String)) : List Char :=
  [';', ' '].intercalate (pairs.map pairText)

/-- A part of a header, read: the texts around the first `=`, trimmed. -/
def readPart (part : List Char) : Option (String × String) :=
  (splitOnce '=' (String.ofList (trimChars part))).map fun (name, value) => (trim name, trim value)

/-- **A clean pair**: trimmed texts without control characters and separators, and a name. -/
structure IsPair (pair : String × String) : Prop where
  name_ne_nil : pair.1.toList ≠ []
  name_trimmed : trimChars pair.1.toList = pair.1.toList
  name_chars : ∀ c ∈ pair.1.toList, c ≠ '=' ∧ c ≠ ';' ∧ isControl c = false
  value_trimmed : trimChars pair.2.toList = pair.2.toList
  value_chars : ∀ c ∈ pair.2.toList, c ≠ ';' ∧ isControl c = false

variable {pair : String × String}

theorem IsPair.pairText_trimmed (h : IsPair pair) : trimChars (pairText pair) = pairText pair := by
  refine trimChars_eq_self (fun c hc => ?_) (fun c hc => ?_)
  · rw [pairText, List.head?_append_of_ne_nil _ h.name_ne_nil] at hc
    exact head_of_trimmed h.name_trimmed c hc
  · rw [pairText, List.getLast?_append_of_ne_nil _ (List.cons_ne_nil _ _)] at hc
    rcases hvalue : pair.2.toList with _ | ⟨d, rest⟩
    · rw [hvalue] at hc
      obtain rfl : '=' = c := by simpa using hc
      decide
    · rw [hvalue, List.getLast?_cons_cons, ← hvalue] at hc
      exact getLast_of_trimmed h.value_trimmed c hc

theorem IsPair.readPart_pairText (h : IsPair pair) : readPart (pairText pair) = some pair := by
  have hname : ∀ c ∈ pair.1.toList, decide (c ≠ '=') = true := fun c hc =>
    decide_eq_true (h.name_chars c hc).1
  have hdrop : (pairText pair).dropWhile (· ≠ '=') = '=' :: pair.2.toList := by
    rw [pairText, List.dropWhile_append_of_pos hname, List.dropWhile_cons_of_neg (by decide)]
  have htake : (pairText pair).takeWhile (· ≠ '=') = pair.1.toList := by
    rw [pairText, List.takeWhile_append_of_pos hname, List.takeWhile_cons_of_neg (by decide),
      List.append_nil]
  unfold readPart splitOnce
  rw [h.pairText_trimmed, String.toList_ofList, hdrop]
  dsimp only [Option.map_some]
  rw [htake, trim, trim, String.toList_ofList, String.toList_ofList, h.name_trimmed,
    h.value_trimmed, String.ofList_toList, String.ofList_toList]

theorem IsPair.readPart_space (h : IsPair pair) : readPart (' ' :: pairText pair) = some pair := by
  rw [← h.readPart_pairText, readPart, readPart, trimChars_cons_space]

/-- To join by two characters is to join by the first, the later parts starting with the second. -/
theorem intercalate_pair {A : Type} (a b : A) (part : List A) (rest : List (List A)) :
    [a, b].intercalate (part :: rest) = [a].intercalate (part :: rest.map (b :: ·)) := by
  induction rest generalizing part with
  | nil => simp
  | cons next rest ih =>
    rw [List.intercalate_cons_cons, ih next, List.map_cons, List.intercalate_cons_cons]
    rcases rest with _ | ⟨last, rest⟩
    · simp
    · simp [List.intercalate_cons_cons]

theorem IsPair.separator_notMem (h : IsPair pair) : ';' ∉ pairText pair := by
  intro hmem
  rw [pairText, List.mem_append, List.mem_cons] at hmem
  rcases hmem with hname | hequals | hvalue
  · exact (h.name_chars _ hname).2.1 rfl
  · exact absurd hequals (by decide)
  · exact (h.value_chars _ hvalue).1 rfl

/-- **A joined header falls into its pairs.** -/
theorem splitOn_joined {pairs : List (String × String)} (hne : pairs ≠ [])
    (h : ∀ pair ∈ pairs, IsPair pair) :
    ((joined pairs).splitOn ';').map readPart = pairs.map some := by
  rcases pairs with _ | ⟨first, rest⟩
  · exact absurd rfl hne
  · have hfirst := h first List.mem_cons_self
    have hrest : ∀ next ∈ rest, IsPair next := fun next hnext =>
      h next (List.mem_cons_of_mem _ hnext)
    have hparts : ∀ part ∈ pairText first :: (rest.map pairText).map (' ' :: ·), ';' ∉ part := by
      intro part hpart
      rcases List.mem_cons.mp hpart with rfl | hpart
      · exact hfirst.separator_notMem
      · obtain ⟨text, htext, rfl⟩ := List.mem_map.mp hpart
        obtain ⟨next, hnext, rfl⟩ := List.mem_map.mp htext
        intro hmem
        rcases List.mem_cons.mp hmem with hspace | hmem
        · exact absurd hspace (by decide)
        · exact (hrest next hnext).separator_notMem hmem
    have hjoined : joined (first :: rest) =
        [';'].intercalate (pairText first :: (rest.map pairText).map (' ' :: ·)) :=
      intercalate_pair ';' ' ' _ _
    have hsplit := List.splitOn_intercalate ';' hparts (List.cons_ne_nil _ _)
    have hread : ((rest.map pairText).map (' ' :: ·)).map readPart = rest.map some := by
      rw [List.map_map, List.map_map]
      apply List.map_congr_left
      intro next hnext
      rw [Function.comp_apply, Function.comp_apply]
      exact (hrest next hnext).readPart_space
    rw [hjoined, hsplit, List.map_cons, List.map_cons, hfirst.readPart_pairText, hread]

/-- The pairs of a joined header are its own. -/
theorem joined_injective {pairs others : List (String × String)} (hne : pairs ≠ [])
    (hothers : others ≠ []) (h : ∀ pair ∈ pairs, IsPair pair) (h' : ∀ pair ∈ others, IsPair pair)
    (heq : joined pairs = joined others) : pairs = others := by
  have hread := splitOn_joined hne h
  rw [heq, splitOn_joined hothers h'] at hread
  exact (List.map_injective_iff.mpr (fun _ _ h => Option.some.inj h) hread).symm

/-- A header with one more pair. -/
theorem joined_concat {pairs : List (String × String)} (hne : pairs ≠ []) (pair : String × String) :
    joined (pairs ++ [pair]) = joined pairs ++ ([';', ' '] ++ pairText pair) := by
  unfold joined
  induction pairs with
  | nil => exact absurd rfl hne
  | cons first rest ih =>
    rcases rest with _ | ⟨next, rest⟩
    · simp
    · have ih := ih (List.cons_ne_nil _ _)
      simp only [List.cons_append, List.map_cons, List.intercalate_cons_cons] at ih ⊢
      rw [ih, List.append_assoc, List.append_assoc, List.append_assoc]

theorem joined_ne_nil (first : String × String) (rest : List (String × String)) :
    joined (first :: rest) ≠ [] := by
  rcases rest with _ | ⟨next, rest⟩
  · simp [joined, pairText]
  · simp [joined, pairText, List.intercalate_cons_cons]

/-- The characters of a header are those of its pairs, and the separators. -/
theorem mem_joined {pairs : List (String × String)} {c : Char} (h : c ∈ joined pairs) :
    c = ';' ∨ c = ' ' ∨ ∃ pair ∈ pairs, c ∈ pairText pair := by
  induction pairs with
  | nil => exact nomatch h
  | cons first rest ih =>
    rcases rest with _ | ⟨next, rest⟩
    · refine .inr (.inr ⟨first, List.mem_cons_self, ?_⟩)
      simpa [joined] using h
    · rw [joined, List.map_cons, List.map_cons, List.intercalate_cons_cons, List.mem_append,
        List.mem_append, ← List.map_cons] at h
      rcases h with (hfirst | hseparator) | hrest
      · exact .inr (.inr ⟨first, List.mem_cons_self, hfirst⟩)
      · simp only [List.mem_cons, List.not_mem_nil, or_false] at hseparator
        exact hseparator.imp_right .inl
      · rcases ih hrest with heq | heq | ⟨pair, hpair, hmem⟩
        · exact .inl heq
        · exact .inr (.inl heq)
        · exact .inr (.inr ⟨pair, List.mem_cons_of_mem _ hpair, hmem⟩)

/-- **A clean header has no control characters.** -/
theorem isControl_of_mem_joined {pairs : List (String × String)}
    (h : ∀ pair ∈ pairs, IsPair pair) {c : Char} (hc : c ∈ joined pairs) :
    isControl c = false := by
  rcases mem_joined hc with rfl | rfl | ⟨pair, hpair, hmem⟩
  · decide
  · decide
  · rw [pairText, List.mem_append, List.mem_cons] at hmem
    rcases hmem with hname | rfl | hvalue
    · exact ((h pair hpair).name_chars c hname).2.2
    · decide
    · exact ((h pair hpair).value_chars c hvalue).2

/-- A clean header is trimmed. -/
theorem joined_trimmed {pairs : List (String × String)} (h : ∀ pair ∈ pairs, IsPair pair) :
    trimChars (joined pairs) = joined pairs := by
  refine trimChars_eq_self (fun c hc => ?_) (fun c hc => ?_)
  · rcases pairs with _ | ⟨first, rest⟩
    · exact nomatch hc
    · have hfirst := h first List.mem_cons_self
      have hne : pairText first ≠ [] := by simp [pairText]
      refine head_of_trimmed hfirst.pairText_trimmed c ?_
      rcases rest with _ | ⟨next, rest⟩
      · simpa [joined] using hc
      · rw [joined, List.map_cons, List.map_cons, List.intercalate_cons_cons, List.append_assoc,
          List.head?_append_of_ne_nil _ hne] at hc
        exact hc
  · rcases List.eq_nil_or_concat pairs with rfl | ⟨init, last, rfl⟩
    · exact nomatch hc
    · have hlast := h last (by simp)
      have hne : pairText last ≠ [] := by simp [pairText]
      refine getLast_of_trimmed hlast.pairText_trimmed c ?_
      rcases init with _ | ⟨first, rest⟩
      · simpa [joined] using hc
      · rw [List.concat_eq_append, joined_concat (List.cons_ne_nil _ _),
          List.getLast?_append_of_ne_nil _ (by simp), List.getLast?_append_of_ne_nil _ hne] at hc
        exact hc

/-! ## Jars -/

variable {jar pairs : List (String × String)} {name : String}

/-- The pair has this name, whatever its case. -/
def named (name : String) (pair : String × String) : Bool := eqIgnoreAsciiCase pair.1 name

/-- A pair takes the place of the one with its name. -/
def write : List (String × String) → String × String → List (String × String)
  | [], pair => [pair]
  | other :: rest, pair =>
    if named pair.1 other then pair :: rest else other :: write rest pair

/-- The last pair with a name. -/
def lastWrite (pairs : List (String × String)) (name : String) : Option (String × String) :=
  pairs.reverse.find? (named name)

/-- No name is in the jar twice. -/
def Distinct (jar : List (String × String)) : Prop :=
  jar.Pairwise fun a b => named a.1 b = false

theorem named_congr {name name' : String} {pair : String × String} (h : named name pair = true) :
    named name' pair = eqIgnoreAsciiCase name name' := by
  have hsame : toAsciiLowercase pair.1 = toAsciiLowercase name := eq_of_beq h
  rw [named, eqIgnoreAsciiCase, hsame, eqIgnoreAsciiCase]

theorem named_self (pair : String × String) : named pair.1 pair = true := beq_self_eq_true _

theorem named_comm (a b : String × String) : named a.1 b = named b.1 a := by
  rw [named, named, eqIgnoreAsciiCase, eqIgnoreAsciiCase, Bool.beq_comm]

theorem mem_write {e : String × String} (h : e ∈ write jar pair) : e = pair ∨ e ∈ jar := by
  induction jar with
  | nil => exact .inl (List.mem_singleton.mp h)
  | cons other rest ih =>
    unfold write at h
    split_ifs at h
    · rcases List.mem_cons.mp h with rfl | h
      · exact .inl rfl
      · exact .inr (List.mem_cons_of_mem _ h)
    · rcases List.mem_cons.mp h with rfl | h
      · exact .inr List.mem_cons_self
      · exact (ih h).imp_right (List.mem_cons_of_mem _)

theorem write_ne_nil (jar : List (String × String)) (pair : String × String) :
    write jar pair ≠ [] := by
  rcases jar with _ | ⟨other, rest⟩
  · exact List.cons_ne_nil _ _
  · unfold write
    split_ifs <;> exact List.cons_ne_nil _ _

/-- **What a jar holds under a name once a pair is written.** -/
theorem find_write (jar : List (String × String)) (pair : String × String) (name : String) :
    (write jar pair).find? (named name) =
      if named name pair then some pair else jar.find? (named name) := by
  induction jar with
  | nil =>
    rw [write, List.find?_cons, List.find?_nil]
    split <;> simp_all
  | cons other rest ih =>
    unfold write
    by_cases hsame : named pair.1 other = true
    · have hother : named name other = named name pair := named_congr hsame
      rw [if_pos hsame, List.find?_cons, List.find?_cons, hother]
      split <;> simp_all
    · rw [if_neg hsame, List.find?_cons, ih, List.find?_cons]
      by_cases hname : named name pair = true
      · have hother : named name other = false := by
          rw [Bool.eq_false_iff]
          intro h
          refine hsame ?_
          have hlower : toAsciiLowercase other.1 = toAsciiLowercase name := eq_of_beq h
          have hlower' : toAsciiLowercase pair.1 = toAsciiLowercase name := eq_of_beq hname
          rw [named, eqIgnoreAsciiCase, hlower, hlower', beq_self_eq_true]
        rw [hother, if_pos hname]
      · rw [if_neg hname, if_neg hname]

/-- **The last pair written under a name wins.** -/
theorem find_foldl_write (pairs : List (String × String)) (jar : List (String × String))
    (name : String) :
    (pairs.foldl write jar).find? (named name) =
      (lastWrite pairs name).or (jar.find? (named name)) := by
  induction pairs generalizing jar with
  | nil => rfl
  | cons pair rest ih =>
    rw [List.foldl_cons, ih, find_write, lastWrite, lastWrite, List.reverse_cons,
      List.find?_append, Option.or_assoc, List.find?_cons, List.find?_nil]
    split <;> simp_all

theorem lastWrite_append (earlier later : List (String × String)) (name : String) :
    lastWrite (earlier ++ later) name = (lastWrite later name).or (lastWrite earlier name) := by
  rw [lastWrite, List.reverse_append, List.find?_append, lastWrite, lastWrite]

theorem Distinct.write (h : Distinct jar) (pair : String × String) :
    Distinct (write jar pair) := by
  induction jar with
  | nil => exact List.pairwise_singleton _ _
  | cons other rest ih =>
    obtain ⟨hother, hrest⟩ := List.pairwise_cons.mp h
    unfold Cookies.write
    split_ifs with hsame
    · refine List.pairwise_cons.mpr ⟨fun e he => ?_, hrest⟩
      have hlower : toAsciiLowercase other.1 = toAsciiLowercase pair.1 := eq_of_beq hsame
      have hne := hother e he
      rwa [named, eqIgnoreAsciiCase, hlower] at hne
    · refine List.pairwise_cons.mpr ⟨fun e he => ?_, ih hrest⟩
      rcases mem_write he with rfl | he
      · rw [named_comm]
        simpa using hsame
      · exact hother e he

theorem Distinct.foldl_write (h : Distinct jar) (pairs : List (String × String)) :
    Distinct (pairs.foldl Cookies.write jar) := by
  induction pairs generalizing jar with
  | nil => exact h
  | cons pair rest ih => exact ih (h.write pair)

/-- A pair with a new name comes last. -/
theorem write_of_new (h : ∀ other ∈ jar, named pair.1 other = false) :
    write jar pair = jar ++ [pair] := by
  induction jar with
  | nil => rfl
  | cons other rest ih =>
    have hother := h other List.mem_cons_self
    rw [write, hother, if_neg Bool.false_ne_true, List.cons_append,
      ih fun e he => h e (List.mem_cons_of_mem _ he)]

/-- **A jar is what its own pairs are written to.** -/
theorem Distinct.foldl_write_nil (h : Distinct jar) : jar.foldl Cookies.write [] = jar := by
  have happend : ∀ (rest done : List (String × String)), Distinct (done ++ rest) →
      rest.foldl Cookies.write done = done ++ rest := by
    intro rest
    induction rest with
    | nil => exact fun done _ => (List.append_nil done).symm
    | cons pair rest ih =>
      intro done hdistinct
      have hnew : ∀ other ∈ done, named pair.1 other = false := by
        intro other hmem
        rw [named_comm]
        exact (List.pairwise_append.mp hdistinct).2.2 other hmem pair List.mem_cons_self
      rw [List.append_cons] at hdistinct ⊢
      rw [List.foldl_cons, write_of_new hnew]
      exact ih _ hdistinct
  exact happend jar [] h

/-- **The pairs of a jar with a name**: one, or none. -/
theorem Distinct.filter_named (h : Distinct jar) (name : String) :
    jar.filter (named name) = (jar.find? (named name)).toList := by
  induction jar with
  | nil => rfl
  | cons other rest ih =>
    obtain ⟨hother, hrest⟩ := List.pairwise_cons.mp h
    rw [List.filter_cons, List.find?_cons]
    by_cases hname : named name other = true
    · have hothers : rest.filter (named name) = [] := by
        refine List.filter_eq_nil_iff.mpr fun e he hnamed => ?_
        have hlower : toAsciiLowercase other.1 = toAsciiLowercase name := eq_of_beq hname
        have hne := hother e he
        rw [named, eqIgnoreAsciiCase, hlower] at hne
        rw [named, eqIgnoreAsciiCase, hne] at hnamed
        exact Bool.false_ne_true hnamed
      rw [if_pos hname, hname, hothers]
      rfl
    · rw [if_neg hname, Bool.eq_false_iff.mpr hname, ih hrest]

end Cookies

end Machinery
