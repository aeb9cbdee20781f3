import StxSnmp.Library.Nesting

/-!
# Monitors of traces

A monitor reads a trace event by event, keeps an account in its state and refuses the events the
account does not allow. What each event adds to a value of the account, a trace adds up.

## Main definitions

* `Passes step s es s'`: the monitor reads `es` from `s` to `s'` and refuses none of it

## Main results

* `passes_append`: a trace in two parts
* `Passes.value_eq`: the accounting rule, by what each event adds
-/

namespace Monitor

variable {σ ε : Type*} {step : σ → ε → Option σ} {s s' : σ} {e : ε} {es es' : List ε}

/-- From `s` the monitor reads the events to `s'`, refusing none. -/
def Passes (step : σ → ε → Option σ) (s : σ) (es : List ε) (s' : σ) : Prop :=
  es.foldlM step s = some s'

@[simp] theorem passes_nil : Passes step s [] s' ↔ s = s' := by
  simp [Passes]

@[simp] theorem passes_cons :
    Passes step s (e :: es) s' ↔ ∃ t, step s e = some t ∧ Passes step t es s' := by
  simp [Passes, Option.bind_eq_some_iff]

theorem passes_append :
    Passes step s (es ++ es') s' ↔ ∃ t, Passes step s es t ∧ Passes step t es' s' := by
  simp [Passes, Option.bind_eq_some_iff]

theorem Passes.append {t : σ} (h : Passes step s es t) (h' : Passes step t es' s') :
    Passes step s (es ++ es') s' :=
  passes_append.mpr ⟨t, h, h'⟩

/-- A value each event adds to, a trace adds up. -/
theorem Passes.value_eq {value : σ → ℤ} {delta : ε → ℤ}
    (hstep : ∀ s e s', step s e = some s' → value s' = value s + delta e)
    (h : Passes step s es s') : value s' = value s + Nesting.depth delta es := by
  induction es generalizing s with
  | nil => simp [passes_nil.mp h]
  | cons e es ih =>
    obtain ⟨t, ht, hrest⟩ := passes_cons.mp h
    rw [ih hrest, hstep s e t ht, Nesting.depth_cons]
    omega

end Monitor
