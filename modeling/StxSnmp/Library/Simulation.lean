import StxSnmp.Library.Transducer

/-!
# Simulation of a transducer by a transition relation

A specification is a labelled transition relation: from a state, an input and an output, the
states it allows next. A transducer simulates it when each of its steps, its output seen through
`view`, is one the relation allows; then so is each of its runs.

## Main definitions

* `Run Step t is os t'`: a run of the relation, with its inputs and outputs in order
* `Simulates step Step view Q R`: the steps on inputs with `Q` are steps of the relation, up to `R`

## Main results

* `Run.keeps`: the invariant rule for runs of the relation
* `Simulates.run`: the simulation rule for runs
* `Simulates.after`: an invariant of the relation holds after a run of the transducer
-/

namespace Transducer

variable {σ τ ι ο ω : Type*}

/-- A run of the relation `Step`. -/
inductive Run (Step : τ → ι → ω → τ → Prop) : τ → List ι → List ω → τ → Prop
  | nil (t : τ) : Run Step t [] [] t
  | cons {t t' t'' : τ} {i : ι} {o : ω} {is : List ι} {os : List ω} :
      Step t i o t' → Run Step t' is os t'' → Run Step t (i :: is) (o :: os) t''

/-- What every step on an input with `Q` keeps, every run keeps. -/
theorem Run.keeps {Step : τ → ι → ω → τ → Prop} {Q : ι → Prop} {P : τ → Prop}
    (hkeeps : ∀ t i o t', Q i → Step t i o t' → P t → P t') {t t' : τ} {is : List ι} {os : List ω}
    (hrun : Run Step t is os t') (hQ : ∀ i ∈ is, Q i) (hP : P t) : P t' := by
  induction hrun with
  | nil t => exact hP
  | cons hstep _ ih =>
    obtain ⟨hi, his⟩ := List.forall_mem_cons.mp hQ
    exact ih his (hkeeps _ _ _ _ hi hstep hP)

/-- From related states, a step on an input with `Q` is allowed, and leads to related states. -/
def Simulates (step : σ → ι → σ × ο) (Step : τ → ι → ω → τ → Prop) (view : ο → ω)
    (Q : ι → Prop) (R : σ → τ → Prop) : Prop :=
  ∀ s t i, Q i → R s t → ∃ t', Step t i (view (step s i).2) t' ∧ R (step s i).1 t'

/-- Where every step is allowed, every run is. -/
theorem Simulates.run {step : σ → ι → σ × ο} {Step : τ → ι → ω → τ → Prop} {view : ο → ω}
    {Q : ι → Prop} {R : σ → τ → Prop} (h : Simulates step Step view Q R) {s : σ} {t : τ}
    {is : List ι} (hQ : ∀ i ∈ is, Q i) (hR : R s t) :
    ∃ t', Run Step t is ((outputs step s is).map view) t' ∧ R (after step s is) t' := by
  induction is generalizing s t with
  | nil => exact ⟨t, .nil t, hR⟩
  | cons i is ih =>
    obtain ⟨hi, his⟩ := List.forall_mem_cons.mp hQ
    obtain ⟨t', hstep, hR'⟩ := h s t i hi hR
    obtain ⟨t'', hrun, hR''⟩ := ih his hR'
    exact ⟨t'', .cons hstep hrun, hR''⟩

/-- What the allowed steps on inputs with `V` keep, a run on such inputs keeps. -/
theorem Simulates.after {step : σ → ι → σ × ο} {Step : τ → ι → ω → τ → Prop} {view : ο → ω}
    {Q V : ι → Prop} {R : σ → τ → Prop} {P : τ → Prop} (h : Simulates step Step view Q R)
    (hkeeps : ∀ t i o t', V i → Step t i o t' → P t → P t') {s : σ} {t : τ} {is : List ι}
    (hQ : ∀ i ∈ is, Q i) (hV : ∀ i ∈ is, V i) (hR : R s t) (hP : P t) :
    ∃ t', R (after step s is) t' ∧ P t' := by
  obtain ⟨t', hrun, hR'⟩ := h.run hQ hR
  exact ⟨t', hR', hrun.keeps hkeeps hV hP⟩

end Transducer
