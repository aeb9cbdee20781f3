import Mathlib.Data.Finset.Basic
import Mathlib.Data.Finset.Lattice.Lemmas
import StxSnmp.Library.Monitor

/-!
# Ownership of memory

A program acquires blocks of memory, accesses them and releases them. A monitor holds the blocks it
owns, and refuses an access to any other, a second release, and a block acquired again before its
release, which would be lost.

## Main definitions

* `Call`: what is done with a block
* `step`: the monitor

## Main results

* `passes_access`: accesses to blocks held
* `passes_frame`: blocks held besides those a part of the program deals with stay held
-/

namespace Ownership

open Monitor

/-- What is done with a block of memory. -/
inductive Call (β : Type*) where
  | acquire (b : β)
  | access (b : β)
  | release (b : β)
  deriving DecidableEq, Repr

variable {β : Type*} [DecidableEq β] {held held' frame : Finset β} {calls : List (Call β)}

/-- The blocks held after a call, if they allow it. -/
def step (held : Finset β) : Call β → Option (Finset β)
  | .acquire b => if b ∈ held then none else some (insert b held)
  | .access b => if b ∈ held then some held else none
  | .release b => if b ∈ held then some (held.erase b) else none

theorem step_acquire {b : β} (h : b ∉ held) : step held (.acquire b) = some (insert b held) :=
  if_neg h

theorem step_access {b : β} (h : b ∈ held) : step held (.access b) = some held := if_pos h

theorem step_release {b : β} (h : b ∈ held) : step held (.release b) = some (held.erase b) :=
  if_pos h

/-- Accesses to blocks held leave what is held. -/
theorem passes_access (h : ∀ call ∈ calls, ∃ b ∈ held, call = .access b) :
    Passes step held calls held := by
  induction calls with
  | nil => exact passes_nil.mpr rfl
  | cons call calls ih =>
    obtain ⟨⟨b, hb, rfl⟩, hrest⟩ := List.forall_mem_cons.mp h
    exact passes_cons.mpr ⟨held, step_access hb, ih hrest⟩

/-- One call, with more blocks held. -/
theorem step_frame {call : Call β} (h : step held call = some held')
    (hdisjoint : Disjoint held frame) (hframe : ∀ b ∈ frame, call ≠ .acquire b) :
    step (held ∪ frame) call = some (held' ∪ frame) ∧ Disjoint held' frame := by
  cases call with
  | acquire b =>
    have hb : b ∉ frame := fun hmem => hframe b hmem rfl
    by_cases hheld : b ∈ held
    · rw [step, if_pos hheld] at h
      cases h
    · rw [step_acquire hheld] at h
      cases h
      rw [Finset.insert_union]
      refine ⟨step_acquire ?_, Finset.disjoint_insert_left.mpr ⟨hb, hdisjoint⟩⟩
      exact fun hmem => (Finset.mem_union.mp hmem).elim hheld hb
  | access b =>
    by_cases hheld : b ∈ held
    · rw [step_access hheld] at h
      cases h
      exact ⟨step_access (Finset.mem_union_left frame hheld), hdisjoint⟩
    · rw [step, if_neg hheld] at h
      cases h
  | release b =>
    by_cases hheld : b ∈ held
    · rw [step_release hheld] at h
      cases h
      have hb : b ∉ frame := Finset.disjoint_left.mp hdisjoint hheld
      refine ⟨?_, hdisjoint.mono_left (Finset.erase_subset b held)⟩
      rw [step_release (Finset.mem_union_left frame hheld), Finset.erase_union_distrib,
        Finset.erase_eq_of_notMem hb]
    · rw [step, if_neg hheld] at h
      cases h

/-- The frame rule: what else is held stays held, unless it is acquired again. -/
theorem passes_frame (h : Passes step held calls held') (hdisjoint : Disjoint held frame)
    (hframe : ∀ b ∈ frame, Call.acquire b ∉ calls) :
    Passes step (held ∪ frame) calls (held' ∪ frame) := by
  induction calls generalizing held with
  | nil =>
    obtain rfl := passes_nil.mp h
    exact passes_nil.mpr rfl
  | cons call calls ih =>
    obtain ⟨held₁, hstep, hrest⟩ := passes_cons.mp h
    obtain ⟨hstep', hdisjoint'⟩ := step_frame hstep hdisjoint fun b hb heq =>
      hframe b hb (heq ▸ List.mem_cons_self)
    refine passes_cons.mpr ⟨held₁ ∪ frame, hstep', ih hrest hdisjoint' ?_⟩
    exact fun b hb hmem => hframe b hb (List.mem_cons_of_mem _ hmem)

end Ownership
