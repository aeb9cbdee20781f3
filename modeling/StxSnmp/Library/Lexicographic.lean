import Mathlib.Data.List.Lex
import Mathlib.Algebra.Order.Ring.Int

/-!
# Lexicographic comparison of sequences

The three-way comparison of two sequences, element by element with a proper prefix smaller,
and the order it induces on the children `p ++ [i]` of a sequence `p`.

## Main definitions

* `lexCompare a b`: negative, zero or positive as `a` is before, equal to or after `b`

## Main results

* `lexCompare_eq_zero_iff`, `lexCompare_neg_iff`: the comparison decides equality and order
* `append_singleton_lt_iff`: children are ordered by their last element
-/

namespace Lexicographic

variable {α : Type*} [LinearOrder α]

/-- Three-way comparison: the first difference decides, and a proper prefix is smaller. -/
def lexCompare : List α → List α → ℤ
  | [], [] => 0
  | [], _ :: _ => -1
  | _ :: _, [] => 1
  | a :: as, b :: bs => if a < b then -1 else if b < a then 1 else lexCompare as bs

theorem lexCompare_eq_zero_iff {a b : List α} : lexCompare a b = 0 ↔ a = b := by
  induction a generalizing b with
  | nil => cases b <;> simp [lexCompare]
  | cons x xs ih =>
    cases b with
    | nil => simp [lexCompare]
    | cons y ys =>
      rcases lt_trichotomy x y with h | rfl | h
      · simp [lexCompare, h, h.ne]
      · simp [lexCompare, ih]
      · simp [lexCompare, h, h.not_gt, h.ne']

theorem lexCompare_neg_iff {a b : List α} : lexCompare a b < 0 ↔ a < b := by
  induction a generalizing b with
  | nil => cases b <;> simp [lexCompare]
  | cons x xs ih =>
    cases b with
    | nil => simp [lexCompare]
    | cons y ys =>
      rcases lt_trichotomy x y with h | rfl | h
      · simp [lexCompare, h, List.cons_lt_cons_iff]
      · simp [lexCompare, ih]
      · simp [lexCompare, h, h.not_gt, h.ne', List.cons_lt_cons_iff]

/-- Children of one sequence are ordered by their last element. -/
theorem append_singleton_lt_iff {p : List α} {i j : α} : p ++ [i] < p ++ [j] ↔ i < j := by
  induction p with
  | nil => simp [List.cons_lt_cons_iff]
  | cons x xs ih => simpa [List.cons_lt_cons_iff] using ih

end Lexicographic
