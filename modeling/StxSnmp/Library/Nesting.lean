import Mathlib.Algebra.Order.Ring.Int

/-!
# The nesting depth of a trace

Events raise or lower a depth, as calls and returns do. A trace stays within a bound when the
depth does after each of its prefixes.

## Main definitions

* `depth delta es`: the depth after the events `es`
* `Within delta d es`: the depth is at most `d` after every prefix

## Main results

* `within_cons`, `within_append`: a trace in two parts, the second from the depth after the first
-/

namespace Nesting

variable {ε : Type*} (delta : ε → ℤ)

/-- The depth after the events. -/
def depth (es : List ε) : ℤ := (es.map delta).sum

@[simp] theorem depth_nil : depth delta [] = 0 := rfl

@[simp] theorem depth_cons (e : ε) (es : List ε) :
    depth delta (e :: es) = delta e + depth delta es := by
  simp [depth]

/-- After every prefix the depth is at most `d`. -/
def Within (d : ℤ) (es : List ε) : Prop :=
  ∀ p, p <+: es → depth delta p ≤ d

variable {delta} {d : ℤ} {e : ε} {es es' : List ε}

theorem Within.depth_le (h : Within delta d es) : depth delta es ≤ d :=
  h es (List.prefix_refl es)

theorem within_nil : Within delta d [] ↔ 0 ≤ d := by
  constructor
  · intro h
    exact h.depth_le
  · intro h p hp
    rw [List.prefix_nil.mp hp]
    exact h

theorem within_cons : Within delta d (e :: es) ↔ 0 ≤ d ∧ Within delta (d - delta e) es := by
  constructor
  · intro h
    refine ⟨h [] List.nil_prefix, ?_⟩
    intro p hp
    have hle := h (e :: p) ((List.prefix_cons_inj e).mpr hp)
    rw [depth_cons] at hle
    omega
  · rintro ⟨hd, h⟩ p hp
    rcases p with _ | ⟨e', p⟩
    · exact hd
    · obtain ⟨rfl, hrest⟩ := List.cons_prefix_cons.mp hp
      have hle := h p hrest
      rw [depth_cons]
      omega

/-- The second part of a trace starts from the depth after the first. -/
theorem within_append :
    Within delta d (es ++ es') ↔ Within delta d es ∧ Within delta (d - depth delta es) es' := by
  induction es generalizing d with
  | nil =>
    rw [List.nil_append, within_nil, depth_nil, Int.sub_zero]
    exact ⟨fun h => ⟨h [] List.nil_prefix, h⟩, fun h => h.2⟩
  | cons e es ih =>
    rw [List.cons_append, within_cons, within_cons, ih, depth_cons, Int.sub_sub, and_assoc]

end Nesting
