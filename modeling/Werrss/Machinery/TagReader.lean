import Mathlib.Data.List.Basic

/-!
# Machinery/TagReader — reading markup character by character

    text ──<──▸ tagOpen ──a──▸ tagName ──␣──▸ beforeName ──a──▸ attrName ──=──▸ ──"──▸ value
     ▴             └──/──▸ endTag               └──/──▸ selfClosing                      │
     └───────────── > ──────────┴──────────────────────── > ─────┴──── afterValue ◂──"───┘

A reader of quoted attributes and explicit ends: it reports what it reads as tokens, one character
of running text at a time, and gets stuck on anything else.  **What is read in two parts is read as
a whole**, so the tokens of a text are those of its pieces.
-/

namespace Machinery

namespace TagReader

/-- What a reader reports. -/
inductive Token
  | char (c : Char)
  | opened (name : List Char) (attrs : List (List Char × List Char))
  | empty (name : List Char) (attrs : List (List Char × List Char))
  | closed (name : List Char)
deriving DecidableEq, Repr

/-- Where a reader is. -/
inductive State
  | text
  | tagOpen
  | tagName (name : List Char)
  | beforeName (name : List Char) (attrs : List (List Char × List Char))
  | attrName (name : List Char) (attrs : List (List Char × List Char)) (attr : List Char)
  | afterEquals (name : List Char) (attrs : List (List Char × List Char)) (attr : List Char)
  | value (name : List Char) (attrs : List (List Char × List Char)) (attr value : List Char)
  | afterValue (name : List Char) (attrs : List (List Char × List Char))
  | selfClosing (name : List Char) (attrs : List (List Char × List Char))
  | endTag (name : List Char)
  | stuck
deriving DecidableEq, Repr

def isNameChar (c : Char) : Bool := c.isLower || c.isDigit

/-- What one character does: the next state, and the tokens it completes. -/
def step : State → Char → State × List Token
  | .text, c => if c = '<' then (.tagOpen, []) else (.text, [.char c])
  | .tagOpen, c =>
    if c = '/' then (.endTag [], [])
    else if isNameChar c then (.tagName [c], []) else (.stuck, [])
  | .tagName name, c =>
    if c = ' ' then (.beforeName name [], [])
    else if c = '>' then (.text, [.opened name []])
    else if isNameChar c then (.tagName (name ++ [c]), []) else (.stuck, [])
  | .beforeName name attrs, c =>
    if c = '/' then (.selfClosing name attrs, [])
    else if isNameChar c then (.attrName name attrs [c], []) else (.stuck, [])
  | .attrName name attrs attr, c =>
    if c = '=' then (.afterEquals name attrs attr, [])
    else if isNameChar c then (.attrName name attrs (attr ++ [c]), []) else (.stuck, [])
  | .afterEquals name attrs attr, c =>
    if c = '"' then (.value name attrs attr [], []) else (.stuck, [])
  | .value name attrs attr value, c =>
    if c = '"' then (.afterValue name (attrs ++ [(attr, value)]), [])
    else (.value name attrs attr (value ++ [c]), [])
  | .afterValue name attrs, c =>
    if c = ' ' then (.beforeName name attrs, [])
    else if c = '>' then (.text, [.opened name attrs]) else (.stuck, [])
  | .selfClosing name attrs, c =>
    if c = '>' then (.text, [.empty name attrs]) else (.stuck, [])
  | .endTag name, c =>
    if c = '>' then (.text, [.closed name])
    else if isNameChar c then (.endTag (name ++ [c]), []) else (.stuck, [])
  | .stuck, _ => (.stuck, [])

/-- Reading a text from a state. -/
def read : State → List Char → State × List Token
  | s, [] => (s, [])
  | s, c :: cs => ((read (step s c).1 cs).1, (step s c).2 ++ (read (step s c).1 cs).2)

/-- **What is read in two parts is read as a whole.** -/
theorem read_append (s : State) (cs ds : List Char) :
    read s (cs ++ ds) = ((read (read s cs).1 ds).1, (read s cs).2 ++ (read (read s cs).1 ds).2) := by
  induction cs generalizing s with
  | nil => rfl
  | cons c cs ih =>
    rw [List.cons_append, read, ih, read]
    simp only [List.append_assoc]

/-- The reader goes from one state to another over a text, and reports these tokens. -/
def Reads (s : State) (cs : List Char) (s' : State) (ts : List Token) : Prop :=
  read s cs = (s', ts)

theorem Reads.refl (s : State) : Reads s [] s [] := rfl

theorem Reads.append {s s' s'' : State} {cs ds : List Char} {ts us : List Token}
    (h : Reads s cs s' ts) (h' : Reads s' ds s'' us) : Reads s (cs ++ ds) s'' (ts ++ us) := by
  rw [Reads, read_append, h, h']

theorem Reads.cons {s s' s'' : State} {c : Char} {cs : List Char} {ts us : List Token}
    (h : step s c = (s', ts)) (h' : Reads s' cs s'' us) : Reads s (c :: cs) s'' (ts ++ us) := by
  rw [Reads, read, h, h']

/-! ## Names, values and texts -/

/-- A name is read to its end. -/
theorem reads_tagName {cs : List Char} (h : ∀ c ∈ cs, isNameChar c = true) (name : List Char) :
    Reads (.tagName name) cs (.tagName (name ++ cs)) [] := by
  induction cs generalizing name with
  | nil =>
    rw [List.append_nil]
    exact .refl _
  | cons c cs ih =>
    obtain ⟨hc, hcs⟩ := List.forall_mem_cons.mp h
    have hblank : c ≠ ' ' := fun heq => by simp [heq, isNameChar] at hc
    have hend : c ≠ '>' := fun heq => by simp [heq, isNameChar] at hc
    have hstep : step (.tagName name) c = (.tagName (name ++ [c]), []) := by
      simp only [step, if_neg hblank, if_neg hend, hc, if_true]
    have hrest := ih hcs (name ++ [c])
    rw [List.append_assoc, List.singleton_append] at hrest
    exact .cons hstep hrest

theorem reads_attrName {cs : List Char} (h : ∀ c ∈ cs, isNameChar c = true) (name : List Char)
    (attrs : List (List Char × List Char)) (attr : List Char) :
    Reads (.attrName name attrs attr) cs (.attrName name attrs (attr ++ cs)) [] := by
  induction cs generalizing attr with
  | nil =>
    rw [List.append_nil]
    exact .refl _
  | cons c cs ih =>
    obtain ⟨hc, hcs⟩ := List.forall_mem_cons.mp h
    have hequals : c ≠ '=' := fun heq => by simp [heq, isNameChar] at hc
    have hstep : step (.attrName name attrs attr) c = (.attrName name attrs (attr ++ [c]), []) := by
      simp only [step, if_neg hequals, hc, if_true]
    have hrest := ih hcs (attr ++ [c])
    rw [List.append_assoc, List.singleton_append] at hrest
    exact .cons hstep hrest

theorem reads_endTag {cs : List Char} (h : ∀ c ∈ cs, isNameChar c = true) (name : List Char) :
    Reads (.endTag name) cs (.endTag (name ++ cs)) [] := by
  induction cs generalizing name with
  | nil =>
    rw [List.append_nil]
    exact .refl _
  | cons c cs ih =>
    obtain ⟨hc, hcs⟩ := List.forall_mem_cons.mp h
    have hend : c ≠ '>' := fun heq => by simp [heq, isNameChar] at hc
    have hstep : step (.endTag name) c = (.endTag (name ++ [c]), []) := by
      simp only [step, if_neg hend, hc, if_true]
    have hrest := ih hcs (name ++ [c])
    rw [List.append_assoc, List.singleton_append] at hrest
    exact .cons hstep hrest

/-- A value is read up to the quote that ends it. -/
theorem reads_value {cs : List Char} (h : '"' ∉ cs) (name : List Char)
    (attrs : List (List Char × List Char)) (attr value : List Char) :
    Reads (.value name attrs attr value) cs (.value name attrs attr (value ++ cs)) [] := by
  induction cs generalizing value with
  | nil =>
    rw [List.append_nil]
    exact .refl _
  | cons c cs ih =>
    obtain ⟨hc, hcs⟩ := not_or.mp (List.mem_cons.not.mp h)
    have hstep : step (.value name attrs attr value) c
        = (.value name attrs attr (value ++ [c]), []) := if_neg (Ne.symm hc)
    have hrest := ih hcs (value ++ [c])
    rw [List.append_assoc, List.singleton_append] at hrest
    exact .cons hstep hrest

/-- Running text is read character by character. -/
theorem reads_text {cs : List Char} (h : '<' ∉ cs) :
    Reads .text cs .text (cs.map .char) := by
  induction cs with
  | nil => exact .refl _
  | cons c cs ih =>
    obtain ⟨hc, hcs⟩ := not_or.mp (List.mem_cons.not.mp h)
    have hstep : step .text c = (.text, [.char c]) := if_neg (Ne.symm hc)
    exact .cons hstep (ih hcs)

/-! ## Tags -/

/-- An attribute as it is written. -/
def attrText (a : List Char × List Char) : List Char := ' ' :: (a.1 ++ "=\"".toList) ++ a.2 ++ ['"']

/-- A name with at least one character, and nothing but name characters. -/
def IsName (cs : List Char) : Prop := cs ≠ [] ∧ ∀ c ∈ cs, isNameChar c = true

/-- The reader has read a tag up to here. -/
def Within (name : List Char) (attrs : List (List Char × List Char)) (s : State) : Prop :=
  s = .afterValue name attrs ∨ (s = .tagName name ∧ attrs = [])

theorem within_blank {name : List Char} {attrs : List (List Char × List Char)} {s : State}
    (h : Within name attrs s) : step s ' ' = (.beforeName name attrs, []) := by
  rcases h with rfl | ⟨rfl, rfl⟩
  · rfl
  · rfl

theorem within_end {name : List Char} {attrs : List (List Char × List Char)} {s : State}
    (h : Within name attrs s) : step s '>' = (.text, [.opened name attrs]) := by
  rcases h with rfl | ⟨rfl, rfl⟩
  · rfl
  · rfl

/-- **An attribute is read as it is written**, if no quote stands in its value. -/
theorem reads_attr {name : List Char} {attrs : List (List Char × List Char)} {s : State}
    (h : Within name attrs s) {a : List Char × List Char} (hname : IsName a.1) (hvalue : '"' ∉ a.2) :
    Reads s (attrText a) (.afterValue name (attrs ++ [a])) [] := by
  obtain ⟨attr, value⟩ := a
  obtain ⟨hne, hchars⟩ := hname
  obtain ⟨c, cs, rfl⟩ := List.exists_cons_of_ne_nil hne
  obtain ⟨hc, hcs⟩ := List.forall_mem_cons.mp hchars
  have hslash : c ≠ '/' := fun heq => by simp [heq, isNameChar] at hc
  have hfirst : step (.beforeName name attrs) c = (.attrName name attrs [c], []) := by
    simp only [step, if_neg hslash, hc, if_true]
  have hattr : Reads s (' ' :: c :: cs) (.attrName name attrs (c :: cs)) [] :=
    .cons (within_blank h) (.cons hfirst (reads_attrName hcs name attrs [c]))
  have hequals : Reads (.attrName name attrs (c :: cs)) "=\"".toList
      (.value name attrs (c :: cs) []) [] := rfl
  have hquote : Reads (.value name attrs (c :: cs) value) ['"']
      (.afterValue name (attrs ++ [(c :: cs, value)])) [] := rfl
  have hall := ((hattr.append hequals).append (reads_value hvalue name attrs (c :: cs) [])).append
    hquote
  simpa [attrText] using hall

theorem reads_attrs {name : List Char} (more : List (List Char × List Char))
    (hmore : ∀ a ∈ more, IsName a.1 ∧ '"' ∉ a.2) {attrs : List (List Char × List Char)} {s : State}
    (h : Within name attrs s) :
    ∃ s', Within name (attrs ++ more) s' ∧ Reads s (more.flatMap attrText) s' [] := by
  induction more generalizing attrs s with
  | nil =>
    rw [List.append_nil]
    exact ⟨s, h, .refl s⟩
  | cons a more ih =>
    obtain ⟨ha, hrest⟩ := List.forall_mem_cons.mp hmore
    have hwithin : Within name (attrs ++ [a]) (.afterValue name (attrs ++ [a])) := .inl rfl
    obtain ⟨s', hs', hreads⟩ := ih hrest hwithin
    refine ⟨s', ?_, ?_⟩
    · rwa [List.append_assoc, List.singleton_append] at hs'
    · rw [List.flatMap_cons]
      exact (reads_attr h ha.1 ha.2).append hreads

/-- What stands before the end of a tag. -/
def tagText (name : List Char) (attrs : List (List Char × List Char)) : List Char :=
  '<' :: name ++ attrs.flatMap attrText

theorem reads_tagText {name : List Char} (hname : IsName name)
    {attrs : List (List Char × List Char)} (hattrs : ∀ a ∈ attrs, IsName a.1 ∧ '"' ∉ a.2) :
    ∃ s, Within name attrs s ∧ Reads .text (tagText name attrs) s [] := by
  obtain ⟨hne, hchars⟩ := hname
  obtain ⟨c, cs, rfl⟩ := List.exists_cons_of_ne_nil hne
  obtain ⟨hc, hcs⟩ := List.forall_mem_cons.mp hchars
  have hslash : c ≠ '/' := fun heq => by simp [heq, isNameChar] at hc
  have hfirst : step .tagOpen c = (.tagName [c], []) := by
    simp only [step, if_neg hslash, hc, if_true]
  have hopen : step .text '<' = (.tagOpen, []) := rfl
  have hhead : Reads .text ('<' :: c :: cs) (.tagName (c :: cs)) [] :=
    .cons hopen (.cons hfirst (reads_tagName hcs [c]))
  obtain ⟨s, hs, hreads⟩ := reads_attrs attrs hattrs (.inr ⟨rfl, rfl⟩)
  exact ⟨s, hs, hhead.append hreads⟩

/-- **An opening tag is read as itself.** -/
theorem reads_opened {name : List Char} (hname : IsName name)
    {attrs : List (List Char × List Char)} (hattrs : ∀ a ∈ attrs, IsName a.1 ∧ '"' ∉ a.2) :
    Reads .text (tagText name attrs ++ ['>']) .text [.opened name attrs] := by
  obtain ⟨s, hs, hreads⟩ := reads_tagText hname hattrs
  have hend : Reads s ['>'] .text [.opened name attrs] := .cons (within_end hs) (.refl _)
  exact hreads.append hend

/-- **An empty tag is read as itself.** -/
theorem reads_empty {name : List Char} (hname : IsName name)
    {attrs : List (List Char × List Char)} (hattrs : ∀ a ∈ attrs, IsName a.1 ∧ '"' ∉ a.2) :
    Reads .text (tagText name attrs ++ " />".toList) .text [.empty name attrs] := by
  obtain ⟨s, hs, hreads⟩ := reads_tagText hname hattrs
  have hslash : step (.beforeName name attrs) '/' = (.selfClosing name attrs, []) := rfl
  have hend : step (.selfClosing name attrs) '>' = (.text, [.empty name attrs]) := rfl
  have htail : Reads s " />".toList .text [.empty name attrs] :=
    .cons (within_blank hs) (.cons hslash (.cons hend (.refl _)))
  exact hreads.append htail

/-- **A closing tag is read as itself.** -/
theorem reads_closed {name : List Char} (hname : ∀ c ∈ name, isNameChar c = true) :
    Reads .text ("</".toList ++ name ++ ['>']) .text [.closed name] := by
  have hstart : Reads .text "</".toList (.endTag []) [] := rfl
  have hend : Reads (.endTag name) ['>'] .text [.closed name] := rfl
  exact (hstart.append (reads_endTag hname [])).append hend

/-! ## Nesting -/

/-- The tags left open, innermost first; `none` if a closing tag closes another one. -/
def nest : List Token → List (List Char) → Option (List (List Char))
  | [], stack => some stack
  | .char _ :: ts, stack => nest ts stack
  | .empty _ _ :: ts, stack => nest ts stack
  | .opened name _ :: ts, stack => nest ts (name :: stack)
  | .closed _ :: _, [] => none
  | .closed name :: ts, open' :: stack => if name = open' then nest ts stack else none

/-- **Every tag is closed, in the order of nesting.** -/
def Balanced (ts : List Token) : Prop := ∀ stack, nest ts stack = some stack

theorem nest_append (ts us : List Token) (stack : List (List Char)) :
    nest (ts ++ us) stack = (nest ts stack).bind (nest us) := by
  induction ts generalizing stack with
  | nil => rfl
  | cons t ts ih =>
    cases t with
    | char c => exact ih stack
    | empty name attrs => exact ih stack
    | opened name attrs => exact ih (name :: stack)
    | closed name =>
      cases stack with
      | nil => rfl
      | cons open' stack =>
        rw [List.cons_append, nest, nest]
        split_ifs
        · exact ih stack
        · rfl

theorem Balanced.nil : Balanced [] := fun _ => rfl

theorem Balanced.append {ts us : List Token} (h : Balanced ts) (h' : Balanced us) :
    Balanced (ts ++ us) := by
  intro stack
  rw [nest_append, h stack, Option.bind_some, h' stack]

theorem Balanced.chars (cs : List Char) : Balanced (cs.map .char) := by
  induction cs with
  | nil => exact .nil
  | cons c cs ih => exact ih

theorem Balanced.empty (name : List Char) (attrs : List (List Char × List Char)) :
    Balanced [.empty name attrs] := fun _ => rfl

theorem Balanced.element {ts : List Token} (h : Balanced ts) (name : List Char)
    (attrs : List (List Char × List Char)) :
    Balanced ([.opened name attrs] ++ ts ++ [.closed name]) := by
  intro stack
  rw [List.append_assoc, List.singleton_append, nest, nest_append, h, Option.bind_some, nest,
    if_pos rfl, nest]

end TagReader

end Machinery
