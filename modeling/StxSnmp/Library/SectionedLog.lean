import Mathlib.Data.List.TakeWhile

/-!
# Reading a log by its headings

A log is written in pieces. Some lines head a section, and the items of the section follow at once;
other lines stand by themselves. A log is read back piece by piece, as long as no piece starts with
an item, which would pass for one of the section before.

## Main definitions

* `sections head item lines`: each heading with the items directly after it
* `Opens item lines`: the lines do not start with an item

## Main results

* `sections_append`: a log in two parts, the second starting no item
* `sections_section`: a heading and its items are read as one section
* `sections_flatten`: a log is read piece by piece
-/

namespace SectionedLog

variable {α : Type*} (head item : α → Bool)

/-- Each heading, with the items directly after it. -/
def sections : List α → List (α × List α)
  | [] => []
  | line :: lines =>
    if head line then (line, lines.takeWhile item) :: sections lines else sections lines

/-- The lines do not start with an item. -/
def Opens (lines : List α) : Prop := ∀ line ∈ lines.head?, item line = false

variable {head item} {lines rest : List α}

theorem takeWhile_append_of_opens (hrest : Opens item rest) :
    (lines ++ rest).takeWhile item = lines.takeWhile item := by
  induction lines with
  | nil =>
    cases rest with
    | nil => rfl
    | cons line rest => simp [hrest line rfl]
  | cons line lines ih =>
    rw [List.cons_append, List.takeWhile_cons, List.takeWhile_cons, ih]

theorem sections_append (hrest : Opens item rest) :
    sections head item (lines ++ rest) = sections head item lines ++ sections head item rest := by
  induction lines with
  | nil => rfl
  | cons line lines ih =>
    simp only [List.cons_append, sections, ih, takeWhile_append_of_opens hrest]
    split <;> rfl

/-- Lines without a heading make no section. -/
theorem sections_eq_nil (h : ∀ line ∈ lines, head line = false) :
    sections head item lines = [] := by
  induction lines with
  | nil => rfl
  | cons line lines ih =>
    obtain ⟨hline, hlines⟩ := List.forall_mem_cons.mp h
    rw [sections, hline, if_neg Bool.false_ne_true, ih hlines]

/-- A heading and its items make one section. -/
theorem sections_section {line : α} (hhead : head line = true)
    (hitems : ∀ l ∈ lines, item l = true ∧ head l = false) :
    sections head item (line :: lines) = [(line, lines)] := by
  have hall : lines.takeWhile item = lines :=
    List.takeWhile_eq_self_iff.mpr fun l hl => (hitems l hl).1
  rw [sections, if_pos hhead, hall, sections_eq_nil fun l hl => (hitems l hl).2]

theorem Opens.append (hlines : Opens item lines) (hrest : Opens item rest) :
    Opens item (lines ++ rest) := by
  cases lines with
  | nil => exact hrest
  | cons line lines => exact hlines

theorem Opens.flatten {pieces : List (List α)} (h : ∀ piece ∈ pieces, Opens item piece) :
    Opens item pieces.flatten := by
  induction pieces with
  | nil =>
    intro line hline
    cases hline
  | cons piece pieces ih =>
    obtain ⟨hpiece, hpieces⟩ := List.forall_mem_cons.mp h
    exact hpiece.append (ih hpieces)

/-- A log is read piece by piece. -/
theorem sections_flatten {pieces : List (List α)} (h : ∀ piece ∈ pieces, Opens item piece) :
    sections head item pieces.flatten = pieces.flatMap (sections head item) := by
  induction pieces with
  | nil => rfl
  | cons piece pieces ih =>
    obtain ⟨-, hpieces⟩ := List.forall_mem_cons.mp h
    rw [List.flatten_cons, sections_append (Opens.flatten hpieces), ih hpieces, List.flatMap_cons]

end SectionedLog
