import Mathlib.Data.List.Basic
import Mathlib.Data.List.Nodup

/-!
# Positions in a list under appends and removals

A list of rows with distinct keys changes by appending a row with a new key and by removing the
row of a key. A row kept moves up by the rows removed ahead of it, and only by those.

## Main definitions

* `Keyed key`: a list of rows with distinct keys
* `Change`, `Keyed.apply`, `Keyed.run`: a change, its effect, and the effect of a list of them
* `removed`: the keys a list of changes removes

## Main results

* `Keyed.run_split`: what is ahead of a row kept is what was ahead of it, less the removed
* `Keyed.position_run`: the position of a row kept falls by the rows removed ahead of it
* `Keyed.prefix_run`: a prefix of which no row is removed stays a prefix
-/

namespace Displacement

variable {α κ : Type*}

/-- Rows with distinct keys. -/
structure Keyed (key : α → κ) where
  rows : List α
  nodup : (rows.map key).Nodup

/-- A row appended, or a key removed. -/
inductive Change (α κ : Type*) where
  | append (row : α)
  | remove (k : κ)
  deriving DecidableEq, Repr

/-- The keys removed. -/
def removed (changes : List (Change α κ)) : List κ :=
  changes.filterMap fun
    | .append _ => none
    | .remove k => some k

@[simp] theorem removed_nil : removed ([] : List (Change α κ)) = [] := rfl

@[simp] theorem removed_append_cons (row : α) (changes : List (Change α κ)) :
    removed (.append row :: changes) = removed changes := rfl

@[simp] theorem removed_remove_cons (k : κ) (changes : List (Change α κ)) :
    removed (.remove k :: changes) = k :: removed changes := rfl

namespace Keyed

variable {key : α → κ}

theorem nodup_append {rows : List α} (h : (rows.map key).Nodup) {row : α}
    (hnew : key row ∉ rows.map key) : ((rows ++ [row]).map key).Nodup := by
  rw [List.map_append, List.nodup_append_comm]
  exact List.nodup_cons.mpr ⟨hnew, h⟩

/-- Two rows with one key stand at one position. -/
theorem position_unique (s : Keyed key) {i j : ℕ} {row row' : α} (hi : s.rows[i]? = some row)
    (hj : s.rows[j]? = some row') (hkey : key row' = key row) : i = j := by
  have hi' : (s.rows.map key)[i]? = some (key row) := by simp [hi]
  have hj' : (s.rows.map key)[j]? = some (key row) := by simp [hj, hkey]
  -- the keys have no duplicate, so a key stands at one position
  obtain ⟨hlt, -⟩ := List.getElem?_eq_some_iff.mp hi'
  exact (List.getElem?_inj hlt s.nodup).mp (hi'.trans hj'.symm)

variable [DecidableEq κ]

/-- A row of a key already there is not appended. -/
def apply (s : Keyed key) : Change α κ → Keyed key
  | .append row =>
    if h : key row ∈ s.rows.map key then s else ⟨s.rows ++ [row], nodup_append s.nodup h⟩
  | .remove k =>
    ⟨s.rows.filter fun row => decide (key row ≠ k), s.nodup.sublist (List.filter_sublist.map key)⟩

/-- The rows after all the changes. -/
def run (s : Keyed key) (changes : List (Change α κ)) : Keyed key :=
  changes.foldl apply s

@[simp] theorem run_nil (s : Keyed key) : s.run [] = s := rfl

@[simp] theorem run_cons (s : Keyed key) (c : Change α κ) (changes : List (Change α κ)) :
    s.run (c :: changes) = (s.apply c).run changes := rfl

theorem run_append (s : Keyed key) (changes changes' : List (Change α κ)) :
    s.run (changes ++ changes') = (s.run changes).run changes' :=
  List.foldl_append

/-- Appending leaves what is there in front. -/
theorem rows_apply_append (s : Keyed key) (row : α) : s.rows <+: (s.apply (.append row)).rows := by
  by_cases h : key row ∈ s.rows.map key
  · simpa only [apply, dif_pos h] using List.prefix_refl s.rows
  · rw [apply, dif_neg h]
    exact List.prefix_append _ _

theorem rows_apply_remove (s : Keyed key) (k : κ) :
    (s.apply (.remove k)).rows = s.rows.filter fun row => decide (key row ≠ k) := rfl

/-- The rows not removed by the changes. -/
def spared (key : α → κ) (changes : List (Change α κ)) (rows : List α) : List α :=
  rows.filter fun row => decide (key row ∉ removed changes)

/-- Ahead of a row kept stand the rows that stood there, less the removed. -/
theorem run_split {s : Keyed key} {ahead behind : List α} {row : α}
    (h : s.rows = ahead ++ row :: behind) {changes : List (Change α κ)}
    (hkept : key row ∉ removed changes) :
    ∃ behind', (s.run changes).rows = spared key changes ahead ++ row :: behind' := by
  induction changes generalizing s ahead behind with
  | nil => exact ⟨behind, by simpa [spared] using h⟩
  | cons c changes ih =>
    cases c with
    | append row' =>
      obtain ⟨new, hnew⟩ := s.rows_apply_append row'
      have hsplit : (s.apply (.append row')).rows = ahead ++ row :: (behind ++ new) := by
        rw [← hnew, h]
        simp
      exact ih hsplit hkept
    | remove k =>
      rw [removed_remove_cons, List.mem_cons, not_or] at hkept
      have hsplit : (s.apply (.remove k)).rows = ahead.filter (fun row => decide (key row ≠ k)) ++
          row :: behind.filter (fun row => decide (key row ≠ k)) := by
        rw [rows_apply_remove, h, List.filter_append,
          List.filter_cons_of_pos (by simpa using hkept.1)]
      obtain ⟨behind', hrun⟩ := ih hsplit hkept.2
      refine ⟨behind', ?_⟩
      rw [run_cons, hrun, spared, spared, List.filter_filter]
      simp [Bool.and_comm]

/-- The position of a row kept falls by the number of rows removed ahead of it. -/
theorem position_run {s : Keyed key} {i j : ℕ} {row row' : α} {changes : List (Change α κ)}
    (hi : s.rows[i]? = some row) (hkept : key row ∉ removed changes)
    (hj : (s.run changes).rows[j]? = some row') (hkey : key row' = key row) :
    j + (s.rows.take i).countP (fun row => decide (key row ∈ removed changes)) = i := by
  obtain ⟨hlt, hrow⟩ := List.getElem?_eq_some_iff.mp hi
  have hsplit : s.rows = s.rows.take i ++ row :: s.rows.drop (i + 1) := by
    rw [← hrow, List.getElem_cons_drop, List.take_append_drop]
  obtain ⟨behind', hrun⟩ := run_split hsplit hkept
  -- the row stands behind what is spared ahead of it
  have hpos : (s.run changes).rows[(spared key changes (s.rows.take i)).length]? = some row := by
    rw [hrun]
    simp
  rw [← (s.run changes).position_unique hpos hj hkey, spared, ← List.countP_eq_length_filter]
  have hcount := (s.rows.take i).length_eq_countP_add_countP
    (fun row => decide (key row ∉ removed changes))
  rw [List.length_take_of_le (Nat.le_of_lt hlt)] at hcount
  simpa using hcount.symm

/-- Rows in front, none of them removed, stay in front. -/
theorem prefix_run {s : Keyed key} {front : List α} (h : front <+: s.rows)
    (changes : List (Change α κ)) (hkept : ∀ row ∈ front, key row ∉ removed changes) :
    front <+: (s.run changes).rows := by
  induction changes generalizing s with
  | nil => exact h
  | cons c changes ih =>
    cases c with
    | append row => exact ih (h.trans (s.rows_apply_append row)) hkept
    | remove k =>
      simp only [removed_remove_cons, List.mem_cons, not_or] at hkept
      obtain ⟨rest, hrest⟩ := h
      refine ih ?_ fun row hrow => (hkept row hrow).2
      rw [rows_apply_remove, ← hrest, List.filter_append,
        List.filter_eq_self.mpr fun row hrow => by simpa using (hkept row hrow).1]
      exact List.prefix_append _ _

end Keyed

end Displacement
