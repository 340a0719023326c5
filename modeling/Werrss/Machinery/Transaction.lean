import Mathlib.Order.Defs.Unbundled

/-!
# Machinery/Transaction — programs over a state that answer or fail

    P s ──m──▸ ok a,   t    with Q a t
          └──▸ error e, t    with F t

A program that fails keeps what it did to the state: whoever ran it decides what to roll back.  The
rules below are the usual ones for pre- and postconditions, with one more postcondition `F` for the
states a failure leaves.
-/

namespace Machinery

/-- A program over states `S` that answers with an `A` or fails with an `E`. -/
def Tx (S E A : Type) : Type := S → Except E A × S

namespace Tx

variable {S E A B : Type}

protected def pure (a : A) : Tx S E A := fun s => (.ok a, s)

protected def bind (m : Tx S E A) (f : A → Tx S E B) : Tx S E B := fun s =>
  match m s with
  | (.ok a, t) => f a t
  | (.error e, t) => (.error e, t)

instance : Monad (Tx S E) where
  pure := Tx.pure
  bind := Tx.bind

def fail (e : E) : Tx S E A := fun s => (.error e, s)

def read : Tx S E S := fun s => (.ok s, s)

def modify (f : S → S) : Tx S E Unit := fun s => (.ok (), f s)

def ofExcept (x : Except E A) : Tx S E A := fun s => (x, s)

@[simp] theorem ofExcept_ok_bind (a : A) (f : A → Tx S E B) : (ofExcept (.ok a) >>= f) = f a := rfl

@[simp] theorem ofExcept_error_bind (e : E) (f : A → Tx S E B) :
    (ofExcept (.error e) >>= f) = fail e := rfl

theorem pure_bind (a : A) (f : A → Tx S E B) : (Pure.pure a >>= f) = f a := rfl

theorem bind_assoc {C : Type} (m : Tx S E A) (f : A → Tx S E B) (g : B → Tx S E C) :
    m >>= f >>= g = m >>= fun a => f a >>= g := by
  funext s
  show Tx.bind (Tx.bind m f) g s = Tx.bind m (fun a => Tx.bind (f a) g) s
  rw [Tx.bind, Tx.bind, Tx.bind]
  rcases m s with ⟨_ | a, t⟩
  · rfl
  · rfl

/-- What is read is the state. -/
theorem read_bind_apply (f : S → Tx S E A) (s : S) : (Tx.read >>= f) s = f s s := rfl

theorem bind_of_ok {m : Tx S E A} {s t : S} {a : A} (h : m s = (.ok a, t)) (f : A → Tx S E B) :
    (m >>= f) s = f a t := by
  show Tx.bind m f s = f a t
  rw [Tx.bind, h]

theorem bind_of_error {m : Tx S E A} {s t : S} {e : E} (h : m s = (.error e, t))
    (f : A → Tx S E B) : (m >>= f) s = (.error e, t) := by
  show Tx.bind m f s = (.error e, t)
  rw [Tx.bind, h]

theorem bind_eq_ok {m : Tx S E A} {f : A → Tx S E B} {s t : S} {b : B}
    (h : (m >>= f) s = (.ok b, t)) : ∃ a u, m s = (.ok a, u) ∧ f a u = (.ok b, t) := by
  have hrun : (m >>= f) s = Tx.bind m f s := rfl
  rw [hrun, Tx.bind] at h
  rcases hm : m s with ⟨_ | a, u⟩
  · rw [hm] at h
    cases h
  · rw [hm] at h
    exact ⟨a, u, rfl, h⟩

/-! ## Pre- and postconditions -/

/-- **From `P`, `m` answers with `Q` or fails with `F`.** -/
def Triple (P : S → Prop) (m : Tx S E A) (Q : A → S → Prop) (F : S → Prop) : Prop :=
  ∀ s, P s → (∀ a t, m s = (.ok a, t) → Q a t) ∧ (∀ e t, m s = (.error e, t) → F t)

namespace Triple

variable {P P' F F' : S → Prop} {Q Q' : A → S → Prop} {m : Tx S E A}

theorem pure {a : A} (h : ∀ s, P s → Q a s) : Triple P (Pure.pure a : Tx S E A) Q F := by
  intro s hs
  refine ⟨fun b t hrun => ?_, fun e t hrun => (nomatch hrun)⟩
  obtain ⟨rfl, rfl⟩ : a = b ∧ s = t := by simpa [Pure.pure, Tx.pure] using hrun
  exact h s hs

theorem fail {e : E} (h : ∀ s, P s → F s) : Triple P (Tx.fail e : Tx S E A) Q F := by
  intro s hs
  refine ⟨fun a t hrun => (nomatch hrun), fun e' t hrun => ?_⟩
  obtain ⟨-, rfl⟩ : e = e' ∧ s = t := by simpa [Tx.fail] using hrun
  exact h s hs

/-- **Composition.** -/
theorem bind {R : A → S → Prop} {f : A → Tx S E B} {Q : B → S → Prop} (hm : Triple P m R F)
    (hf : ∀ a, Triple (R a) (f a) Q F) : Triple P (m >>= f) Q F := by
  intro s hs
  have hrun : (m >>= f) s = Tx.bind m f s := rfl
  rw [hrun, Tx.bind]
  rcases h : m s with ⟨_ | a, t⟩
  · refine ⟨fun b u hu => (nomatch hu), fun e u hu => ?_⟩
    obtain ⟨-, rfl⟩ : _ ∧ t = u := by simpa using hu
    exact (hm s hs).2 _ t h
  · exact hf a t ((hm s hs).1 a t h)

/-- What is read is the state. -/
theorem read_bind {f : S → Tx S E A} (h : ∀ s, P s → Triple (· = s) (f s) Q F) :
    Triple P (Tx.read >>= f) Q F :=
  fun s hs => h s hs s rfl

theorem modify_bind {R : S → Prop} {g : S → S} {f : Unit → Tx S E A} (h : Triple R (f ()) Q F)
    (hg : ∀ s, P s → R (g s)) : Triple P (Tx.modify g >>= f) Q F :=
  fun s hs => h (g s) (hg s hs)

theorem ofExcept_bind {x : Except E B} {f : B → Tx S E A} (hfail : ∀ s, P s → F s)
    (h : ∀ b, x = .ok b → Triple P (f b) Q F) : Triple P (Tx.ofExcept x >>= f) Q F := by
  cases x with
  | error e => exact fail hfail
  | ok b => exact h b rfl

theorem ite {c : Prop} [Decidable c] {m' : Tx S E A} (hpos : c → Triple P m Q F)
    (hneg : ¬c → Triple P m' Q F) : Triple P (if c then m else m') Q F := by
  by_cases h : c
  · rw [if_pos h]
    exact hpos h
  · rw [if_neg h]
    exact hneg h

/-- From each of the states, hence from all. -/
theorem each (h : ∀ s, P s → Triple (· = s) m Q F) : Triple P m Q F :=
  fun s hs => h s hs s rfl

/-- A postcondition of either outcome is one of the state left. -/
theorem iff_final : Triple P m (fun _ => F) F ↔ ∀ s, P s → F (m s).2 := by
  refine ⟨fun h s hs => ?_, fun h s hs => ⟨fun a t hrun => ?_, fun e t hrun => ?_⟩⟩
  · rcases hrun : m s with ⟨e | a, t⟩
    · exact (h s hs).2 e t hrun
    · exact (h s hs).1 a t hrun
  · simpa [hrun] using h s hs
  · simpa [hrun] using h s hs

/-- What ran is known behind it. -/
theorem self {s : S} (h : Triple (· = s) m Q F) :
    Triple (· = s) m (fun a t => m s = (.ok a, t) ∧ Q a t) F := by
  intro u hu
  subst hu
  obtain ⟨hok, herror⟩ := h u rfl
  exact ⟨fun a t hrun => ⟨hrun, hok a t hrun⟩, herror⟩

/-- **Consequence.** -/
theorem mono (h : Triple P m Q F) (hP : ∀ s, P' s → P s) (hQ : ∀ a s, Q a s → Q' a s)
    (hF : ∀ s, F s → F' s) : Triple P' m Q' F' := by
  intro s hs
  obtain ⟨hok, herror⟩ := h s (hP s hs)
  exact ⟨fun a t hrun => hQ a t (hok a t hrun), fun e t hrun => hF t (herror e t hrun)⟩

end Triple

/-! ## What a program leaves alone -/

/-- **Whatever `m` does and answers, `f` of the state stays as it is.** -/
def Keeps {X : Type} (f : S → X) (m : Tx S E A) : Prop := ∀ s, f (m s).2 = f s

namespace Keeps

variable {X : Type} {f : S → X} {m : Tx S E A}

theorem pure (a : A) : Keeps f (Pure.pure a : Tx S E A) := fun _ => rfl

theorem fail (e : E) : Keeps f (Tx.fail e : Tx S E A) := fun _ => rfl

theorem read : Keeps f (Tx.read : Tx S E S) := fun _ => rfl

theorem ofExcept (x : Except E A) : Keeps f (Tx.ofExcept x : Tx S E A) := fun _ => rfl

theorem modify {g : S → S} (h : ∀ s, f (g s) = f s) : Keeps f (Tx.modify g : Tx S E Unit) := h

theorem bind {k : A → Tx S E B} (hm : Keeps f m) (hk : ∀ a, Keeps f (k a)) :
    Keeps f (m >>= k) := by
  intro s
  have hrun : (m >>= k) s = Tx.bind m k s := rfl
  rw [hrun, Tx.bind]
  have hs := hm s
  rcases h : m s with ⟨_ | a, t⟩
  · rw [h] at hs
    exact hs
  · rw [h] at hs
    exact (hk a t).trans hs

theorem ite {c : Prop} [Decidable c] {m' : Tx S E A} (hm : Keeps f m) (hm' : Keeps f m') :
    Keeps f (if c then m else m') := by
  by_cases h : c
  · rw [if_pos h]
    exact hm
  · rw [if_neg h]
    exact hm'

/-- What is read is the state. -/
theorem read_bind {k : S → Tx S E A} (h : ∀ s, f (k s s).2 = f s) : Keeps f (Tx.read >>= k) := h

/-- The state an answer leaves. -/
theorem ok (h : Keeps f m) {s t : S} {a : A} (hrun : m s = (.ok a, t)) : f t = f s := by
  have hs := h s
  rwa [hrun] at hs

/-- The state either outcome leaves. -/
theorem run (h : Keeps f m) {s t : S} {r : Except E A} (hrun : m s = (r, t)) : f t = f s := by
  have hs := h s
  rwa [hrun] at hs

end Keeps

/-! ## Where a program may move the state -/

/-- **Whatever `m` does and answers, it moves the state along `r`.** -/
def Moves (r : S → S → Prop) (m : Tx S E A) : Prop := ∀ s, r s (m s).2

namespace Moves

variable {r : S → S → Prop} {m : Tx S E A}

theorem modify {g : S → S} (h : ∀ s, r s (g s)) : Moves r (Tx.modify g : Tx S E Unit) := h

/-- What is read is the state. -/
theorem read_bind {k : S → Tx S E A} (h : ∀ s, r s (k s s).2) : Moves r (Tx.read >>= k) := h

theorem ite {c : Prop} [Decidable c] {m' : Tx S E A} (hm : Moves r m) (hm' : Moves r m') :
    Moves r (if c then m else m') := by
  by_cases h : c
  · rw [if_pos h]
    exact hm
  · rw [if_neg h]
    exact hm'

/-- The state an answer leaves. -/
theorem ok (h : Moves r m) {s t : S} {a : A} (hrun : m s = (.ok a, t)) : r s t := by
  have hs := h s
  rwa [hrun] at hs

variable [IsPreorder S r]

theorem pure (a : A) : Moves r (Pure.pure a : Tx S E A) := fun s => refl_of r s

theorem fail (e : E) : Moves r (Tx.fail e : Tx S E A) := fun s => refl_of r s

theorem read : Moves r (Tx.read : Tx S E S) := fun s => refl_of r s

theorem ofExcept (x : Except E A) : Moves r (Tx.ofExcept x : Tx S E A) := fun s => refl_of r s

/-- Behind an answer, the state it was given in is known. -/
theorem bind_ok {k : A → Tx S E B} (hm : Moves r m)
    (hk : ∀ s a t, m s = (.ok a, t) → r t (k a t).2) : Moves r (m >>= k) := by
  intro s
  have hrun : (m >>= k) s = Tx.bind m k s := rfl
  rw [hrun, Tx.bind]
  have hs := hm s
  rcases h : m s with ⟨_ | a, t⟩
  · rw [h] at hs
    exact hs
  · rw [h] at hs
    exact trans_of r hs (hk s a t h)

theorem bind {k : A → Tx S E B} (hm : Moves r m) (hk : ∀ a, Moves r (k a)) : Moves r (m >>= k) :=
  hm.bind_ok fun _ a t _ => hk a t

/-- From wherever a state has been moved to. -/
theorem triple (h : Moves r m) (s₀ : S) : Triple (r s₀) m (fun _ => r s₀) (r s₀) :=
  Triple.iff_final.mpr fun s hs => trans_of r hs (h s)

theorem of_triple (h : ∀ s, Triple (r s) m (fun _ => r s) (r s)) : Moves r m :=
  fun s => Triple.iff_final.mp (h s) s (refl_of r s)

end Moves

/-! ## Two programs side by side -/

/-- **From related states, `m'` does what `m` does**: it gives the same answer, in states related by
`Q`, or fails with the same error. -/
def Relates {S' : Type} (R : S → S' → Prop) (m : Tx S E A) (m' : Tx S' E A)
    (Q : A → S → S' → Prop) : Prop :=
  ∀ s s', R s s' →
    (∀ a t, m s = (.ok a, t) → ∃ t', m' s' = (.ok a, t') ∧ Q a t t') ∧
    (∀ e t, m s = (.error e, t) → ∃ t', m' s' = (.error e, t'))

namespace Relates

variable {S' : Type} {R R' : S → S' → Prop} {Q Q' : A → S → S' → Prop} {m : Tx S E A}
  {m' : Tx S' E A}

theorem pure {a : A} (h : ∀ s s', R s s' → Q a s s') :
    Relates R (Pure.pure a : Tx S E A) (Pure.pure a : Tx S' E A) Q := by
  intro s s' hs
  refine ⟨fun b t hrun => ?_, fun e t hrun => (nomatch hrun)⟩
  obtain ⟨rfl, rfl⟩ : a = b ∧ s = t := by simpa [Pure.pure, Tx.pure] using hrun
  exact ⟨s', rfl, h s s' hs⟩

theorem fail (e : E) : Relates R (Tx.fail e : Tx S E A) (Tx.fail e : Tx S' E A) Q := by
  intro s s' _
  refine ⟨fun a t hrun => (nomatch hrun), fun e' t hrun => ?_⟩
  obtain ⟨rfl, -⟩ : e = e' ∧ s = t := by simpa [Tx.fail] using hrun
  exact ⟨s', rfl⟩

/-- **Composition.** -/
theorem bind {f : A → Tx S E B} {f' : A → Tx S' E B} {Q' : B → S → S' → Prop}
    (hm : Relates R m m' Q) (hf : ∀ a, Relates (Q a) (f a) (f' a) Q') :
    Relates R (m >>= f) (m' >>= f') Q' := by
  intro s s' hs
  have hrun : (m >>= f) s = Tx.bind m f s := rfl
  have hrun' : (m' >>= f') s' = Tx.bind m' f' s' := rfl
  rw [hrun, hrun', Tx.bind, Tx.bind]
  rcases h : m s with ⟨e | a, t⟩
  · obtain ⟨t', h'⟩ := (hm s s' hs).2 e t h
    rw [h']
    refine ⟨fun b u hu => (nomatch hu), fun e' u hu => ?_⟩
    obtain ⟨rfl, -⟩ : e = e' ∧ t = u := by simpa using hu
    exact ⟨t', rfl⟩
  · obtain ⟨t', h', hq⟩ := (hm s s' hs).1 a t h
    rw [h']
    exact hf a t t' hq

/-- What is read are the two states. -/
theorem read_bind {f : S → Tx S E A} {f' : S' → Tx S' E A}
    (h : ∀ s s', R s s' → Relates (fun t t' => t = s ∧ t' = s') (f s) (f' s') Q) :
    Relates R (Tx.read >>= f) (Tx.read >>= f') Q :=
  fun s s' hs => h s s' hs s s' ⟨rfl, rfl⟩

theorem modify {g : S → S} {g' : S' → S'} {Q : Unit → S → S' → Prop}
    (h : ∀ s s', R s s' → Q () (g s) (g' s')) : Relates R (Tx.modify g : Tx S E Unit) (Tx.modify g') Q := by
  intro s s' hs
  refine ⟨fun a t hrun => ?_, fun e t hrun => (nomatch hrun)⟩
  obtain ⟨-, rfl⟩ := Prod.mk.inj hrun
  exact ⟨g' s', rfl, h s s' hs⟩

theorem ofExcept {x : Except E A} (h : ∀ a, x = .ok a → ∀ s s', R s s' → Q a s s') :
    Relates R (Tx.ofExcept x : Tx S E A) (Tx.ofExcept x : Tx S' E A) Q := by
  cases x with
  | error e => exact fail e
  | ok a => exact pure (h a rfl)

theorem ite {c : Prop} [Decidable c] {n : Tx S E A} {n' : Tx S' E A} (hpos : c → Relates R m m' Q)
    (hneg : ¬c → Relates R n n' Q) :
    Relates R (if c then m else n) (if c then m' else n') Q := by
  by_cases h : c
  · rw [if_pos h, if_pos h]
    exact hpos h
  · rw [if_neg h, if_neg h]
    exact hneg h

/-- A program beside itself, from one state. -/
theorem same {P : S → Prop} {Q : A → S → Prop} {F : S → Prop} (h : Triple P m Q F) :
    Relates (fun s s' => s' = s ∧ P s) m m fun a t t' => t' = t ∧ Q a t := by
  rintro s s' ⟨rfl, hs⟩
  exact ⟨fun a t hrun => ⟨t, hrun, rfl, (h s' hs).1 a t hrun⟩, fun e t hrun => ⟨t, hrun⟩⟩

/-- **Consequence.** -/
theorem mono (h : Relates R m m' Q) (hR : ∀ s s', R' s s' → R s s')
    (hQ : ∀ a s s', Q a s s' → Q' a s s') : Relates R' m m' Q' := by
  intro s s' hs
  obtain ⟨hok, herror⟩ := h s s' (hR s s' hs)
  refine ⟨fun a t hrun => ?_, herror⟩
  obtain ⟨t', h', hq⟩ := hok a t hrun
  exact ⟨t', h', hQ a t t' hq⟩

end Relates

end Tx

end Machinery
