import Mathlib.Data.List.Basic

/-!
# Readers that stop

A reader takes its input one element after another and stops as soon as what it has read decides
the result; a terminator always does. What it returns depends on no more than it has read.

## Main definitions

* `PrefixReader α β`: what decides, and the terminator
* `PrefixReader.readFrom`: reading on after what was read; no result when the input ends first

## Main results

* `readFrom_append`: an input in two parts, the second read only if the first does not decide
* `readFrom_independent_iff`: the result does not depend on what follows iff the reader stops before
* `readFrom_terminated`: a terminated input always has a result
-/

/-- A reader: the result of what was read once it decides, and a terminator that always does. -/
structure PrefixReader (α β : Type*) where
  result : List α → Option β
  terminator : α
  terminator_decides : ∀ seen, (result (seen ++ [terminator])).isSome

namespace PrefixReader

variable {α β : Type*} (r : PrefixReader α β) {seen input after : List α}

/-- Reading on after `seen`, to the first front of the input that decides. -/
def readFrom (seen : List α) : List α → Option β
  | [] => r.result seen
  | a :: input =>
    match r.result seen with
    | some b => some b
    | none => readFrom (seen ++ [a]) input

theorem readFrom_nil : r.readFrom seen [] = r.result seen := rfl

theorem readFrom_of_result {b : β} (h : r.result seen = some b) :
    r.readFrom seen input = some b := by
  cases input with
  | nil => exact h
  | cons a input => simp only [readFrom, h]

theorem readFrom_cons {a : α} (h : r.result seen = none) :
    r.readFrom seen (a :: input) = r.readFrom (seen ++ [a]) input := by
  simp only [readFrom, h]

/-- What follows is read only if what comes before does not decide. -/
theorem readFrom_append :
    r.readFrom seen (input ++ after) =
      match r.readFrom seen input with
      | some b => some b
      | none => r.readFrom (seen ++ input) after := by
  induction input generalizing seen with
  | nil =>
    rw [readFrom_nil, List.nil_append, List.append_nil]
    cases h : r.result seen with
    | none => rfl
    | some b => exact r.readFrom_of_result h
  | cons a input ih =>
    cases h : r.result seen with
    | some b => rw [r.readFrom_of_result h, r.readFrom_of_result h]
    | none =>
      rw [List.cons_append, r.readFrom_cons h, r.readFrom_cons h, ih]
      simp

theorem readFrom_append_of_some {b : β} (h : r.readFrom seen input = some b) :
    r.readFrom seen (input ++ after) = some b := by
  rw [readFrom_append, h]

/-- The input is read to its end if no shorter front decides. -/
theorem readFrom_of_first {b : β} (h : r.result (seen ++ input) = some b)
    (hfirst : ∀ front, front <+: input → front ≠ input → r.result (seen ++ front) = none) :
    r.readFrom seen input = some b := by
  induction input generalizing seen with
  | nil => rwa [readFrom_nil, ← List.append_nil seen]
  | cons a input ih =>
    have hseen : r.result seen = none := by
      have hnil := hfirst [] List.nil_prefix (List.cons_ne_nil a input).symm
      rwa [List.append_nil] at hnil
    rw [r.readFrom_cons hseen]
    refine ih (by rwa [List.append_assoc, List.singleton_append]) fun front hfront hne => ?_
    rw [List.append_assoc, List.singleton_append]
    exact hfirst (a :: front) ((List.prefix_cons_inj a).mpr hfront) fun heq =>
      hne (List.cons.inj heq).2

/-- The reader stops at the terminator if it has not stopped before. -/
theorem readFrom_terminated : (r.readFrom seen (input ++ r.terminator :: after)).isSome := by
  rw [readFrom_append]
  cases r.readFrom seen input with
  | some b => rfl
  | none =>
    show (r.readFrom (seen ++ input) (r.terminator :: after)).isSome
    cases h : r.result (seen ++ input) with
    | some b =>
      rw [r.readFrom_of_result h]
      rfl
    | none =>
      obtain ⟨b, hb⟩ := Option.isSome_iff_exists.mp (r.terminator_decides (seen ++ input))
      rw [r.readFrom_cons h, r.readFrom_of_result hb]
      rfl

/-- What follows an input makes no difference iff the reader stops within the input. -/
theorem readFrom_independent_iff {γ : Type*} (f : β → γ) :
    (∀ after after', (r.readFrom seen (input ++ after)).map f =
      (r.readFrom seen (input ++ after')).map f) ↔ (r.readFrom seen input).isSome := by
  constructor
  · intro h
    -- with nothing after the input there is no result, with a terminator there is one
    have hmap := h [] [r.terminator]
    rw [List.append_nil] at hmap
    have hsome : ((r.readFrom seen input).map f).isSome := by
      rw [hmap, Option.isSome_map]
      exact r.readFrom_terminated
    simpa using hsome
  · intro h after after'
    obtain ⟨b, hb⟩ := Option.isSome_iff_exists.mp h
    rw [r.readFrom_append_of_some hb, r.readFrom_append_of_some hb]

end PrefixReader
