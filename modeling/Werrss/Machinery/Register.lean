import Mathlib.Data.List.Basic
import Mathlib.Order.Lattice

/-!
# Machinery/Register — a versioned register that merges what it is told

    none ──(3, a)──▸ (3, a) ──(5, b)──▸ (5, merge a b) ──(4, c)──▸ (5, merge a b)

A register keeps the newest version it has seen.  An older observation is ignored; any other one is
merged into the stored value.
-/

namespace Machinery

namespace Register

variable {C : Type*} (merge : C → C → C)

/-- What a register becomes on an observation. -/
def absorb (r : Option (ℕ × C)) (o : ℕ × C) : Option (ℕ × C) :=
  match r with
  | none => some o
  | some (v, c) => if o.1 < v then some (v, c) else some (o.1, merge c o.2)

/-- The stored version, zero while nothing is stored. -/
def version (r : Option (ℕ × C)) : ℕ := r.elim 0 Prod.fst

variable {merge}

theorem absorb_of_lt {r : Option (ℕ × C)} {o : ℕ × C} (h : o.1 < version r) :
    absorb merge r o = r := by
  match r, h with
  | some (v, c), h => exact if_pos h

end Register

end Machinery
