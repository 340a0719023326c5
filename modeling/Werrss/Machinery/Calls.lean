import Mathlib.Logic.Basic

/-!
# Machinery/Calls — programs that call a service, run to the end, cut short, or among others

    call c₁ ─r₁─▸ call c₂ ─r₂─▸ … ─▸ answer a

A program over calls `C` answered by `R` either answers or makes a call and goes on with what it is
told.  What a program *is* does not say what its calls do: a service that serves them one by one
runs it to its answer (`run`), may be cut short anywhere (`Cut`), and between two calls others may
have changed everything, so that a program can only rely on what it is `Sure` of, and others on the
rules that it `Keeps` to.
-/

namespace Machinery

/-- **A program over calls `C` that are answered by `R`.** -/
inductive Calls (C R A : Type) where
  | answer (a : A) : Calls C R A
  | call (c : C) (next : R → Calls C R A) : Calls C R A

namespace Calls

variable {C R A B S K : Type}

/-- A program, and then another. -/
def bind : Calls C R A → (A → Calls C R B) → Calls C R B
  | answer a, f => f a
  | call c next, f => call c fun r => (next r).bind f

instance : Monad (Calls C R) where
  pure := answer
  bind := bind

/-- One call. -/
def ask (c : C) : Calls C R R := call c answer

@[simp] theorem pure_eq (a : A) : (pure a : Calls C R A) = answer a := rfl

@[simp] theorem answer_bind (a : A) (f : A → Calls C R B) : (answer a >>= f) = f a := rfl

@[simp] theorem call_bind (c : C) (next : R → Calls C R A) (f : A → Calls C R B) :
    (call c next >>= f) = call c fun r => next r >>= f := rfl

@[simp] theorem ask_bind (c : C) (f : R → Calls C R B) :
    (ask c >>= f : Calls C R B) = call c f := rfl

theorem bind_assoc {D : Type} (p : Calls C R A) (f : A → Calls C R B) (g : B → Calls C R D) :
    (p >>= f) >>= g = p >>= fun a => f a >>= g := by
  induction p with
  | answer a => rfl
  | call c next ih => exact congrArg (call c) (funext ih)

/-- Whatever it is told, the program makes calls of one kind only. -/
def Every (G : C → Prop) : Calls C R A → Prop
  | answer _ => True
  | call c next => G c ∧ ∀ r, Every G (next r)

theorem Every.bind {G : C → Prop} {p : Calls C R A} {f : A → Calls C R B} (h : p.Every G)
    (hf : ∀ a, (f a).Every G) : (p >>= f).Every G := by
  induction p with
  | answer a => exact hf a
  | call c next ih => exact ⟨h.1, fun r => ih r (h.2 r)⟩

/-! ## Run to the end -/

section Run

variable (serve : S → C → S × R)

/-- **The run of a program**, its calls served one by one. -/
def run : S → Calls C R A → S × A
  | s, answer a => (s, a)
  | s, call c next => run (serve s c).1 (next (serve s c).2)

@[simp] theorem run_answer (s : S) (a : A) : run serve s (answer a : Calls C R A) = (s, a) := rfl

@[simp] theorem run_call (s : S) (c : C) (next : R → Calls C R A) :
    run serve s (call c next) = run serve (serve s c).1 (next (serve s c).2) := rfl

/-- A run of two programs is a run of the second from where the first has ended. -/
theorem run_bind (p : Calls C R A) (f : A → Calls C R B) (s : S) :
    run serve s (p >>= f) = run serve (run serve s p).1 (f (run serve s p).2) := by
  induction p generalizing s with
  | answer a => rfl
  | call c next ih => exact ih _ _

end Run

/-! ## Cut short -/

section Cut

variable (serve : S → C → S × R) (torn : S → C → S → Prop)

/-- **Where a program can leave a service when it is cut short**: between two calls, or in the
middle of one that is `torn`. -/
inductive Cut : S → Calls C R A → S → Prop
  | between (s : S) (p : Calls C R A) : Cut s p s
  | during {s s' : S} {c : C} {next : R → Calls C R A} (h : torn s c s') : Cut s (call c next) s'
  | later {s s' : S} {c : C} {next : R → Calls C R A}
      (h : Cut (serve s c).1 (next (serve s c).2) s') : Cut s (call c next) s'

/-- Wherever the program is cut short, `P` holds. -/
def Leaves (P : S → Prop) : S → Calls C R A → Prop
  | s, answer _ => P s
  | s, call c next =>
    P s ∧ (∀ s', torn s c s' → P s') ∧ Leaves P (serve s c).1 (next (serve s c).2)

variable {serve torn} {P : S → Prop}

theorem Leaves.here {s : S} {p : Calls C R A} (h : Leaves serve torn P s p) : P s := by
  cases p with
  | answer a => exact h
  | call c next => exact h.1

theorem Leaves.call {s : S} {c : C} {next : R → Calls C R A} (hhere : P s)
    (htorn : ∀ s', torn s c s' → P s')
    (h : Leaves serve torn P (serve s c).1 (next (serve s c).2)) :
    Leaves serve torn P s (call c next) := ⟨hhere, htorn, h⟩

/-- **The rule for programs that are cut short.** -/
theorem Leaves.of_cut {s s' : S} {p : Calls C R A} (h : Leaves serve torn P s p)
    (hcut : Cut serve torn s p s') : P s' := by
  induction hcut with
  | between s p => exact h.here
  | during htorn => exact h.2.1 _ htorn
  | later _ ih => exact ih h.2.2

/-- Two programs, one after the other. -/
theorem Leaves.bind {s : S} {p : Calls C R A} {f : A → Calls C R B}
    (h : Leaves serve torn P s p)
    (hf : Leaves serve torn P (run serve s p).1 (f (run serve s p).2)) :
    Leaves serve torn P s (p >>= f) := by
  induction p generalizing s with
  | answer a => exact hf
  | call c next ih => exact ⟨h.1, h.2.1, ih _ h.2.2 hf⟩

/-- **A program of calls that change nothing** leaves what is there. -/
theorem Every.leaves {G : C → Prop} {s : S} {p : Calls C R A} (h : p.Every G)
    (hstill : ∀ c, G c → (serve s c).1 = s ∧ ∀ s', ¬ torn s c s') (hP : P s) :
    Leaves serve torn P s p := by
  induction p with
  | answer a => exact hP
  | call c next ih =>
    obtain ⟨hserve, htorn⟩ := hstill c h.1
    refine ⟨hP, fun s' hs' => absurd hs' (htorn s'), ?_⟩
    rw [hserve]
    exact ih _ (h.2 _)

end Cut

/-! ## Among others -/

section Among

variable (learn : K → C → R → K) (may : K → Calls C R A → Prop)

/-- **What a program is sure of**, whatever its calls are answered: from what it knows it may make
each of its calls, and at its answer `Q` holds. -/
def Sure (Q : K → A → Prop) : K → Calls C R A → Prop
  | known, answer a => Q known a
  | known, call c next =>
    may known (call c next) ∧ ∀ r, Sure Q (learn known c r) (next r)

variable {learn : K → C → R → K} {may : K → Calls C R B → Prop}

/-- **A program of harmless calls, and then another** that starts from what has been learnt. -/
theorem Every.sure_bind {G : C → Prop} {P : K → A → Prop} {Q : K → B → Prop} {known : K}
    {p : Calls C R A} {f : A → Calls C R B} (h : p.Every G)
    (hsure : Sure learn (fun _ _ => True) P known p)
    (hmay : ∀ known c next, G c → may known (call c next))
    (hf : ∀ known a, P known a → Sure learn may Q known (f a)) :
    Sure learn may Q known (p >>= f) := by
  induction p generalizing known with
  | answer a => exact hf known a hsure
  | call c next ih =>
    exact ⟨hmay known c _ h.1, fun r => ih r (h.2 r) (hsure.2 r)⟩

end Among

/-! ## With what it knows -/

section Keeps

variable (I : K → Prop) (fits : K → C → R → Prop) (learn : K → C → R → K) (may : K → C → Prop)

/-- **What a program keeps to**, as long as `I` holds of what it knows: it makes a call only where it
may, whatever answer fits is learnt, and at its own answer `Q` holds. -/
def Keeps (Q : K → A → Prop) : K → Calls C R A → Prop
  | known, answer a => I known → Q known a
  | known, call c next =>
    I known → may known c ∧ ∀ r, fits known c r → Keeps Q (learn known c r) (next r)

variable {I fits learn may} {P : K → A → Prop} {Q : K → B → Prop} {known : K}

/-- What holds of what a program knows may be assumed. -/
theorem Keeps.assume {p : Calls C R B} (h : I known → Keeps I fits learn may Q known p) :
    Keeps I fits learn may Q known p := by
  cases p with
  | answer b => exact fun hI => h hI hI
  | call c next => exact fun hI => h hI hI

/-- **A program, and then another** that starts from what has been learnt. -/
theorem Keeps.bind {p : Calls C R A} {f : A → Calls C R B}
    (h : Keeps I fits learn may P known p)
    (hf : ∀ known a, P known a → Keeps I fits learn may Q known (f a)) :
    Keeps I fits learn may Q known (p >>= f) := by
  induction p generalizing known with
  | answer a => exact Keeps.assume fun hI => hf known a (h hI)
  | call c next ih => exact fun hI => ⟨(h hI).1, fun r hr => ih r ((h hI).2 r hr)⟩

theorem Keeps.mono {p : Calls C R B} {Q' : K → B → Prop} (h : Keeps I fits learn may Q known p)
    (hQ : ∀ known b, I known → Q known b → Q' known b) : Keeps I fits learn may Q' known p := by
  induction p generalizing known with
  | answer b => exact fun hI => hQ known b hI (h hI)
  | call c next ih => exact fun hI => ⟨(h hI).1, fun r hr => ih r ((h hI).2 r hr)⟩

/-- What no answer changes is as it was. -/
theorem Keeps.constant {D : Type} {g : K → D} (hg : ∀ known c r, g (learn known c r) = g known)
    {p : Calls C R B} (h : Keeps I fits learn may Q known p) :
    Keeps I fits learn may (fun known' b => Q known' b ∧ g known' = g known) known p := by
  induction p generalizing known with
  | answer b => exact fun hI => ⟨h hI, rfl⟩
  | call c next ih =>
    refine fun hI => ⟨(h hI).1, fun r hr => ?_⟩
    rw [← hg known c r]
    exact ih r ((h hI).2 r hr)

end Keeps

end Calls

end Machinery
