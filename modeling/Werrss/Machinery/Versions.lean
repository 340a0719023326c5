import Mathlib.Data.List.Chain

/-!
# Machinery/Versions — a history that grows where the value changes

    log       (k, a) (j, b) (k, a) (k, c) (k, a)
    history k     a             ┊      c      a

A log of observations of keyed values, and for each key the values it went through: an observation of
the newest value adds nothing, any other adds a version.
-/

namespace Machinery

namespace Versions

variable {K V : Type} [DecidableEq K] [DecidableEq V]

/-- One more observation. -/
def observe (history : List V) (v : V) : List V :=
  if history.getLast? = some v then history else history ++ [v]

/-- The values a key went through. -/
def history (log : List (K × V)) (k : K) : List V :=
  ((log.filter (·.1 = k)).map Prod.snd).foldl observe []

omit [DecidableEq V] in
/-- The observations of a key behind those of a longer log. -/
theorem filter_append_singleton (log : List (K × V)) (k j : K) (v : V) :
    ((log ++ [(k, v)]).filter fun e => decide (e.1 = j)).map Prod.snd
      = ((log.filter fun e => decide (e.1 = j)).map Prod.snd) ++ if k = j then [v] else [] := by
  rw [List.filter_append, List.map_append]
  congr 1
  by_cases h : k = j
  · simp [h]
  · simp [h]

/-- **An observation is seen by its key.** -/
theorem history_append_self (log : List (K × V)) (k : K) (v : V) :
    history (log ++ [(k, v)]) k = observe (history log k) v := by
  rw [history, filter_append_singleton, if_pos rfl, List.foldl_append]
  rfl

/-- … and by no other. -/
theorem history_append_of_ne (log : List (K × V)) {k j : K} (h : k ≠ j) (v : V) :
    history (log ++ [(k, v)]) j = history log j := by
  rw [history, filter_append_singleton, if_neg h, List.append_nil]
  rfl

/-- A key the rest of the log does not observe keeps its history. -/
theorem history_append_of_forall_ne (log rest : List (K × V)) {k : K}
    (h : ∀ e ∈ rest, e.1 ≠ k) : history (log ++ rest) k = history log k := by
  have hnone : rest.filter (fun e => decide (e.1 = k)) = [] :=
    List.filter_eq_nil_iff.mpr fun e he => by simpa using h e he
  rw [history, List.filter_append, hnone, List.append_nil]
  rfl

omit [DecidableEq K] in
theorem getLast?_observe (h : List V) (v : V) : (observe h v).getLast? = some v := by
  rw [observe]
  split_ifs with hlast
  · exact hlast
  · exact List.getLast?_concat ..

omit [DecidableEq K] in
theorem isChain_observe {h : List V} (hchain : h.IsChain (· ≠ ·)) (v : V) :
    (observe h v).IsChain (· ≠ ·) := by
  rw [observe]
  split_ifs with hlast
  · exact hchain
  · refine List.isChain_append.mpr ⟨hchain, List.isChain_singleton _, ?_⟩
    intro x hx y hy heq
    obtain rfl : v = y := by simpa using hy
    exact hlast (heq ▸ hx)

/-- **Neighbours in a history differ.** -/
theorem isChain_history (log : List (K × V)) (k : K) : (history log k).IsChain (· ≠ ·) := by
  rw [history]
  generalize (log.filter fun e => decide (e.1 = k)).map Prod.snd = values
  have hall : ∀ (values h : List V), h.IsChain (· ≠ ·) →
      (values.foldl observe h).IsChain (· ≠ ·) := by
    intro values
    induction values with
    | nil => exact fun h hchain => hchain
    | cons v values ih => exact fun h hchain => ih _ (isChain_observe hchain v)
  exact hall values [] List.isChain_nil

end Versions

end Machinery
