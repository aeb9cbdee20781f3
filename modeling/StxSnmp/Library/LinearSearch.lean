import Mathlib.Data.Nat.Basic
import Mathlib.Order.Basic

/-!
# Bounded linear search

The counted loop that tries the indices from `i` on, `n` of them, and stops at the first hit:
its exit index is the first hit, or the index after the last one tried.

## Main definitions

* `searchFrom hit n i`: the exit index

## Main results

* `le_searchFrom`, `searchFrom_le`: the exit index is in the range tried, or just after it
* `hit_searchFrom`, `not_hit_of_lt_searchFrom`: an exit inside the range is at the first hit
* `searchFrom_eq_of_first`, `searchFrom_eq_end`: the two ways to leave the loop
-/

namespace LinearSearch

/-- The exit index of a loop over `i, i + 1, …`, at most `n` of them, left at the first hit. -/
def searchFrom (hit : ℕ → Bool) : ℕ → ℕ → ℕ
  | 0, i => i
  | n + 1, i => if hit i then i else searchFrom hit n (i + 1)

variable {hit : ℕ → Bool} {n i j : ℕ}

theorem le_searchFrom : i ≤ searchFrom hit n i := by
  induction n generalizing i with
  | zero => exact le_rfl
  | succ n ih =>
    rw [searchFrom]
    split
    · exact le_rfl
    · exact (Nat.le_succ i).trans ih

theorem searchFrom_le : searchFrom hit n i ≤ i + n := by
  induction n generalizing i with
  | zero => exact le_rfl
  | succ n ih =>
    rw [searchFrom]
    split
    · omega
    · exact ih.trans (by omega)

/-- Every index passed over is no hit. -/
theorem not_hit_of_lt_searchFrom (hij : i ≤ j) (hj : j < searchFrom hit n i) :
    hit j = false := by
  induction n generalizing i with
  | zero => exact absurd hj (Nat.not_lt.mpr hij)
  | succ n ih =>
    rw [searchFrom] at hj
    split at hj
    · exact absurd hj (Nat.not_lt.mpr hij)
    · next hi =>
      rcases hij.eq_or_lt with rfl | hlt
      · simpa using hi
      · exact ih hlt hj

/-- An exit inside the range is at a hit. -/
theorem hit_searchFrom (h : searchFrom hit n i < i + n) : hit (searchFrom hit n i) = true := by
  induction n generalizing i with
  | zero => exact absurd h (lt_irrefl _)
  | succ n ih =>
    rw [searchFrom] at h ⊢
    split at h
    · next hi =>
      rw [if_pos hi]
      exact hi
    · next hi =>
      rw [if_neg hi]
      exact ih (by omega)

/-- The loop is left at the first hit of its range. -/
theorem searchFrom_eq_of_first (hij : i ≤ j) (hj : j < i + n) (hhit : hit j = true)
    (hfirst : ∀ k, i ≤ k → k < j → hit k = false) : searchFrom hit n i = j := by
  -- an exit before `j` is at a hit, an exit after it passes one over
  rcases lt_trichotomy (searchFrom hit n i) j with h | h | h
  · have hexit := hit_searchFrom (h.trans hj)
    rw [hfirst _ le_searchFrom h] at hexit
    cases hexit
  · exact h
  · rw [not_hit_of_lt_searchFrom hij h] at hhit
    cases hhit

/-- Without a hit the loop runs to its end. -/
theorem searchFrom_eq_end (h : ∀ k, i ≤ k → k < i + n → hit k = false) :
    searchFrom hit n i = i + n := by
  by_contra hne
  have hlt : searchFrom hit n i < i + n := lt_of_le_of_ne searchFrom_le hne
  have hexit := hit_searchFrom hlt
  rw [h _ le_searchFrom hlt] at hexit
  cases hexit

end LinearSearch
