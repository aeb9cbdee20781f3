import Mathlib.Algebra.Order.Ring.Int

/-!
# Throttled actions

An action that is skipped until some period has passed since it was last done happens only so many
times before any reading of a clock that does not go back.

## Main definitions

* `Throttled`: how often the action may have been done by a reading

## Main results

* `Throttled.done`: doing the action once more
* `Throttled.le`: the bound by the time passed
-/

/-- By the reading `now` of a clock that started at `start`, the action has been done `n` times, at
`last` for the last time, and no more often than its period allows. -/
def Throttled (period start now last : ℤ) (n : ℕ) : Prop :=
  n = 0 ∨ start ≤ last ∧ last ≤ now ∧ (n : ℤ) ≤ (last - start) / period + 1

namespace Throttled

variable {period start now now' last : ℤ} {n : ℕ}

theorem later (h : Throttled period start now last n) (hnow : now ≤ now') :
    Throttled period start now' last n :=
  h.imp id fun ⟨hstart, hlast, hn⟩ => ⟨hstart, hlast.trans hnow, hn⟩

/-- A period after the last time the action may be done again. -/
theorem done (h : Throttled period start now last n) (hperiod : 0 < period) (hstart : start ≤ now')
    (hdue : last + period ≤ now') : Throttled period start now' now' (n + 1) := by
  refine Or.inr ⟨hstart, le_rfl, ?_⟩
  rcases h with rfl | ⟨-, -, hn⟩
  · have hnonneg : 0 ≤ (now' - start) / period :=
      Int.ediv_nonneg (Int.sub_nonneg.mpr hstart) hperiod.le
    simpa using hnonneg
  · -- one period more has passed
    have hstep : (last - start) / period + 1 ≤ (now' - start) / period :=
      calc (last - start) / period + 1
        _ = (last - start + 1 * period) / period :=
          (Int.add_mul_ediv_right _ 1 hperiod.ne').symm
        _ ≤ (now' - start) / period := Int.ediv_le_ediv hperiod (by omega)
    push_cast
    omega

theorem le (h : Throttled period start now last n) (hperiod : 0 < period) (hstart : start ≤ now) :
    (n : ℤ) ≤ (now - start) / period + 1 := by
  rcases h with rfl | ⟨-, hlast, hn⟩
  · have hnonneg : 0 ≤ (now - start) / period :=
      Int.ediv_nonneg (Int.sub_nonneg.mpr hstart) hperiod.le
    push_cast
    omega
  · have hmono : (last - start) / period ≤ (now - start) / period :=
      Int.ediv_le_ediv hperiod (by omega)
    omega

end Throttled
