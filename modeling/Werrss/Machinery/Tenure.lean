import Mathlib.Order.CompletePartialOrder
import Mathlib.Order.Interval.Set.Disjoint

/-!
# Machinery/Tenure — who held a lease, and when

    free ──taken──▸ held ──extended──▸ held ──given up──▸ free
             │           └── runs out, and is taken over ──▸ held
    term   [start ──────────── finish)

A lease is a row that names a holder and how long it lasts, or nothing.  What its holder is *told*
of it makes up a **term**: from the taking to the finish last told, or to the giving up.  A term may
finish before its row does, never after it, so no two terms share an instant
(`Exclusive.disjoint`).  Instants beyond `last` cannot be told.
-/

namespace Machinery

namespace Tenure

variable {H T : Type*} [DecidableEq H] [LinearOrder T]

/-- The time a holder was told to hold the lease. -/
structure Term (H T : Type*) where
  holder : H
  start : T
  finish : T
deriving DecidableEq, Repr

/-- The instants of a term, its finish left out. -/
def Term.span (term : Term H T) : Set T := Set.Ico term.start term.finish

/-- What a holder is told. -/
inductive Report (H T : Type*)
  | acquired (holder : H) (start finish : T)
  | renewed (holder : H) (finish : T)
  | released (holder : H) (finish : T)
deriving DecidableEq, Repr

/-- The term with its finish moved, if it is the holder's. -/
def Term.finishing (term : Term H T) (holder : H) (finish : T) : Term H T :=
  if term.holder = holder then { term with finish := finish } else term

omit [LinearOrder T] in
@[simp] theorem Term.start_finishing (term : Term H T) (holder : H) (finish : T) :
    (term.finishing holder finish).start = term.start := by
  unfold Term.finishing
  split_ifs <;> rfl

omit [LinearOrder T] in
@[simp] theorem Term.holder_finishing (term : Term H T) (holder : H) (finish : T) :
    (term.finishing holder finish).holder = term.holder := by
  unfold Term.finishing
  split_ifs <;> rfl

/-- The terms, newest first, after a report. -/
def note (terms : List (Term H T)) : Report H T → List (Term H T)
  | .acquired holder start finish => ⟨holder, start, finish⟩ :: terms
  | .renewed holder finish => terms.map fun term => term.finishing holder finish
  | .released holder finish => terms.map fun term => term.finishing holder finish

/-- The terms after what may be a report. -/
def noteAny (terms : List (Term H T)) (report : Option (Report H T)) : List (Term H T) :=
  report.elim terms (note terms)

/-! ## The moves of a lease -/

/-- **What can happen to a lease at an instant**, and what is told of it.  A lease is taken when
there is none or it has run out, by a holder that never held it; only its holder extends it or gives
it up, and only while it lasts.  A finish beyond `last` is not told. -/
inductive Moves (last : T) (terms : List (Term H T)) (now : T) :
    Option (H × T) → Option (H × T) → Option (Report H T) → Prop
  | stays (row : Option (H × T)) : Moves last terms now row row none
  | taken {row : Option (H × T)} {holder : H} {finish : T} {report : Option (Report H T)}
      (free : ∀ held ∈ row, held.2 ≤ now) (fresh : ∀ term ∈ terms, term.holder ≠ holder)
      (told : report = none ∨ report = some (.acquired holder now finish) ∧ finish ≤ last) :
      Moves last terms now row (some (holder, finish)) report
  | extended {holder : H} {old finish : T} {report : Option (Report H T)} (live : now < old)
      (told : report = none ∧ last ≤ finish ∨
        report = some (.renewed holder finish) ∧ finish ≤ last) :
      Moves last terms now (some (holder, old)) (some (holder, finish)) report
  | givenUp {holder : H} {old : T} (live : now < old) :
      Moves last terms now (some (holder, old)) none (some (.released holder now))

/-- **The terms of a lease exclude each other**: a newer one starts where the older ones are over,
and only the newest may still last, no longer than the row. -/
structure Exclusive (last : T) (row : Option (H × T)) (terms : List (Term H T)) (now : T) :
    Prop where
  apart : terms.Pairwise fun newer older => older.finish ≤ newer.start
  ended : ∀ term ∈ terms, term.finish ≤ now ∨
    ∃ finish, row = some (term.holder, finish) ∧ term.finish ≤ finish ∧ term.finish ≤ last
  newest : ∀ term ∈ terms.tail, ∀ held ∈ row, held.1 ≠ term.holder

omit [DecidableEq H] in
theorem exclusive_nil (last now : T) : Exclusive last (none : Option (H × T)) [] now :=
  ⟨.nil, nofun, nofun⟩

omit [DecidableEq H] in
/-- Time passes. -/
theorem Exclusive.later {last now later : T} {row : Option (H × T)} {terms : List (Term H T)}
    (h : Exclusive last row terms now) (hle : now ≤ later) : Exclusive last row terms later :=
  ⟨h.apart, fun term hterm => (h.ended term hterm).imp_left fun hover => hover.trans hle, h.newest⟩

omit [DecidableEq H] in
/-- Nothing of a lease that has run out lasts. -/
theorem Exclusive.ended_of_free {last now : T} {row : Option (H × T)} {terms : List (Term H T)}
    (h : Exclusive last row terms now) (free : ∀ held ∈ row, held.2 ≤ now) :
    ∀ term ∈ terms, term.finish ≤ now := by
  intro term hterm
  rcases h.ended term hterm with hover | ⟨finish, hrow, hle, -⟩
  · exact hover
  · exact hle.trans (free _ hrow)

/-- Moving the finish of the newest term leaves the terms apart. -/
theorem Exclusive.apart_finishing {last now : T} {holder : H} {old : T} {terms : List (Term H T)}
    (h : Exclusive last (some (holder, old)) terms now) (finish : T) :
    (terms.map fun term => term.finishing holder finish).Pairwise
      fun newer older => older.finish ≤ newer.start := by
  cases terms with
  | nil => exact .nil
  | cons term terms =>
    have hother : ∀ older ∈ terms, older.finishing holder finish = older := fun older holder' =>
      if_neg fun heq => h.newest older holder' _ rfl heq.symm
    obtain ⟨hfirst, hrest⟩ := List.pairwise_cons.mp h.apart
    rw [List.map_cons, List.map_congr_left hother, List.map_id', List.pairwise_cons]
    refine ⟨fun older holder' => ?_, hrest⟩
    rw [Term.start_finishing]
    exact hfirst older holder'

/-- What is over, or newest, stays so when the finish of the holder's term moves. -/
theorem Exclusive.tail_finishing {last now : T} {holder : H} {old : T} {terms : List (Term H T)}
    (h : Exclusive last (some (holder, old)) terms now) (finish : T) :
    ∀ term ∈ (terms.map fun term => term.finishing holder finish).tail, holder ≠ term.holder := by
  intro term hterm
  rw [← List.map_tail] at hterm
  obtain ⟨older, holder', rfl⟩ := List.mem_map.mp hterm
  rw [Term.holder_finishing]
  exact h.newest older holder' _ rfl

/-- **One move keeps the terms apart.** -/
theorem Exclusive.moves {last before now : T} {row row' : Option (H × T)}
    {terms : List (Term H T)} {report : Option (Report H T)}
    (h : Exclusive last row terms before) (hle : before ≤ now)
    (hmoves : Moves last terms now row row' report) :
    Exclusive last row' (noteAny terms report) now := by
  have hnow := h.later hle
  cases hmoves with
  | stays => exact hnow
  | @taken _ holder finish _ free fresh told =>
    have hover := hnow.ended_of_free free
    have hfresh : ∀ term ∈ terms, holder ≠ term.holder := fun term hterm => (fresh term hterm).symm
    rcases told with rfl | ⟨rfl, hlast⟩
    · refine ⟨h.apart, fun term hterm => .inl (hover term hterm), ?_⟩
      rintro term hterm _ ⟨⟩
      exact hfresh term (List.mem_of_mem_tail hterm)
    · refine ⟨List.pairwise_cons.mpr ⟨hover, h.apart⟩, fun term hterm => ?_, ?_⟩
      · rcases List.mem_cons.mp hterm with rfl | hterm
        · exact .inr ⟨finish, rfl, le_refl _, hlast⟩
        · exact .inl (hover term hterm)
      · rintro term hterm _ ⟨⟩
        exact hfresh term hterm
  | @extended holder old finish _ live told =>
    rcases told with ⟨rfl, hlast⟩ | ⟨rfl, hlast⟩
    · refine ⟨h.apart, fun term hterm => (hnow.ended term hterm).imp_right ?_, ?_⟩
      · rintro ⟨_, ⟨⟩, -, htold⟩
        exact ⟨finish, rfl, htold.trans hlast, htold⟩
      · rintro term hterm _ ⟨⟩
        exact h.newest term hterm (holder, old) rfl
    · refine ⟨hnow.apart_finishing finish, fun term hterm => ?_, ?_⟩
      · obtain ⟨older, hmem, rfl⟩ := List.mem_map.mp hterm
        unfold Term.finishing
        split_ifs with hholder
        · exact .inr ⟨finish, by rw [hholder], le_refl _, hlast⟩
        · refine .inl ((hnow.ended older hmem).resolve_right ?_)
          rintro ⟨_, heq, -⟩
          exact hholder (Prod.mk.inj (Option.some.inj heq)).1.symm
      · rintro term hterm _ ⟨⟩
        exact hnow.tail_finishing finish term hterm
  | @givenUp holder old live =>
    refine ⟨hnow.apart_finishing now, fun term hterm => .inl ?_, nofun⟩
    obtain ⟨older, hmem, rfl⟩ := List.mem_map.mp hterm
    unfold Term.finishing
    split_ifs with hholder
    · exact le_refl _
    · refine (hnow.ended older hmem).resolve_right ?_
      rintro ⟨_, heq, -⟩
      exact hholder (Prod.mk.inj (Option.some.inj heq)).1.symm

omit [DecidableEq H] in
/-- **No two terms share an instant.** -/
theorem Exclusive.disjoint {last now : T} {row : Option (H × T)} {terms : List (Term H T)}
    (h : Exclusive last row terms now) :
    terms.Pairwise fun newer older => Disjoint newer.span older.span :=
  h.apart.imp fun hle =>
    Set.disjoint_left.mpr fun _ hnew hold => absurd (hle.trans hnew.1) (not_le.mpr hold.2)

end Tenure

end Machinery
