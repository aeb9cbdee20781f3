import Mathlib.Data.List.Basic
import Mathlib.Data.Nat.Basic

/-!
# Streams cut into pieces

A stream arrives as a list of nonempty pieces. Taking the first `n` elements of it leaves the
pieces behind them, the first of them cut.

## Main definitions

* `dropFront n pieces`: the pieces left when `n` elements are taken from the front

## Main results

* `flatten_dropFront`: the elements left are those of the stream without the first `n`
* `length_dropFront_eq_one_iff`: one piece is left exactly when the last piece holds all that is
  left
-/

namespace Segments

variable {α : Type*}

/-- The pieces left when the first `n` elements are taken. -/
def dropFront : ℕ → List (List α) → List (List α)
  | _, [] => []
  | n, piece :: pieces =>
    if piece.length ≤ n then dropFront (n - piece.length) pieces else piece.drop n :: pieces

theorem dropFront_cons_of_le {n : ℕ} {piece : List α} {pieces : List (List α)}
    (h : piece.length ≤ n) :
    dropFront n (piece :: pieces) = dropFront (n - piece.length) pieces :=
  if_pos h

theorem dropFront_cons_of_lt {n : ℕ} {piece : List α} {pieces : List (List α)}
    (h : n < piece.length) : dropFront n (piece :: pieces) = piece.drop n :: pieces :=
  if_neg (Nat.not_le.mpr h)

theorem dropFront_zero {pieces : List (List α)} (hne : ∀ piece ∈ pieces, piece ≠ []) :
    dropFront 0 pieces = pieces := by
  cases pieces with
  | nil => rfl
  | cons piece pieces =>
    have hpos : 0 < piece.length := List.length_pos_of_ne_nil (hne piece List.mem_cons_self)
    rw [dropFront_cons_of_lt hpos, List.drop_zero]

theorem flatten_dropFront (n : ℕ) (pieces : List (List α)) :
    (dropFront n pieces).flatten = pieces.flatten.drop n := by
  induction pieces generalizing n with
  | nil => simp [dropFront]
  | cons piece pieces ih =>
    rw [List.flatten_cons, List.drop_append]
    rcases Nat.lt_or_ge n piece.length with h | h
    · rw [dropFront_cons_of_lt h, List.flatten_cons, Nat.sub_eq_zero_of_le (Nat.le_of_lt h),
        List.drop_zero]
    · rw [dropFront_cons_of_le h, ih, List.drop_eq_nil_of_le h, List.nil_append]

theorem dropFront_ne_nil {n : ℕ} {pieces : List (List α)}
    (hne : ∀ piece ∈ pieces, piece ≠ []) : ∀ piece ∈ dropFront n pieces, piece ≠ [] := by
  induction pieces generalizing n with
  | nil => simp [dropFront]
  | cons piece pieces ih =>
    obtain ⟨-, hrest⟩ := List.forall_mem_cons.mp hne
    rcases Nat.lt_or_ge n piece.length with h | h
    · rw [dropFront_cons_of_lt h]
      intro p hp
      rcases List.mem_cons.mp hp with rfl | hp
      · exact List.ne_nil_of_length_pos (by rw [List.length_drop]; omega)
      · exact hrest p hp
    · rw [dropFront_cons_of_le h]
      exact ih hrest

/-- When `l` elements are left, they are one piece exactly if the last piece is that long. -/
theorem length_dropFront_eq_one_iff {n l : ℕ} {pieces : List (List α)}
    (hne : ∀ piece ∈ pieces, piece ≠ []) (hl : 1 ≤ l) (h : pieces.flatten.length = n + l) :
    (dropFront n pieces).length = 1 ↔ l ≤ (pieces.getLastD []).length := by
  induction pieces generalizing n with
  | nil =>
    rw [List.flatten_nil, List.length_nil] at h
    omega
  | cons piece pieces ih =>
    obtain ⟨-, hrest⟩ := List.forall_mem_cons.mp hne
    rw [List.flatten_cons, List.length_append] at h
    rcases Nat.lt_or_ge n piece.length with hlt | hle
    · rw [dropFront_cons_of_lt hlt, List.length_cons]
      rcases pieces.eq_nil_or_concat with rfl | ⟨pieces, last, rfl⟩
      · -- the last piece is cut, and holds what is left of it
        refine iff_of_true rfl ?_
        rw [List.flatten_nil, List.length_nil] at h
        show l ≤ piece.length
        omega
      · -- a later piece is left whole beside this one
        refine iff_of_false ?_ ?_
        · simp
        · have hlast : (piece :: pieces.concat last).getLastD [] = last := by
            rw [List.concat_eq_append, ← List.cons_append, List.getLastD_concat]
          rw [hlast]
          simp at h
          omega
    · -- the piece is taken whole, and what is left is in later ones
      have hnil : pieces ≠ [] := by
        rintro rfl
        rw [List.flatten_nil, List.length_nil] at h
        omega
      rw [dropFront_cons_of_le hle, ih hrest (by omega)]
      obtain ⟨next, pieces, rfl⟩ := List.exists_cons_of_ne_nil hnil
      rfl

end Segments
