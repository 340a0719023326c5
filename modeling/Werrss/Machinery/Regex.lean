import Mathlib.Data.List.Infix

/-!
# Machinery/Regex — the first match of a regular expression

    text  ── leftmost position ──▸ alternatives in order ──▸ first match

Matching as a backtracking engine prefers it: the leftmost position at which the expression matches
at all, there the first alternative, the longest run of a greedy repetition and the shortest run of
a lazy one.  Repetitions are of one class of characters.
-/

namespace Machinery

/-- A regular expression. -/
inductive Regex
  | empty
  /-- the start of the text -/
  | start
  /-- one character of a class -/
  | one (p : Char → Bool)
  /-- any number of characters of a class -/
  | many (greedy : Bool) (p : Char → Bool)
  | seq (r s : Regex)
  | alt (r s : Regex)
  /-- the capture group -/
  | group (r : Regex)

/-- The classes of Unicode an engine knows. -/
class RegexCrate where
  /-- `\w` -/
  isWord : Char → Bool

namespace Regex

/-! ## Expressions -/

/-- At least one character of a class. -/
def some (greedy : Bool) (p : Char → Bool) : Regex := .seq (.one p) (.many greedy p)

/-- All of them, one after the other. -/
def all : List Regex → Regex
  | [] => .empty
  | r :: rs => .seq r (all rs)

/-! ## Matching -/

/-- What is left behind each run of a class, the shortest run first. -/
def runs (p : Char → Bool) : List Char → List (List Char)
  | [] => [[]]
  | c :: cs => (c :: cs) :: if p c then runs p cs else []

end Regex

end Machinery
