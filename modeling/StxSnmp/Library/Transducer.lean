import Mathlib.Data.List.Basic

/-!
# Runs of a deterministic transducer

A transducer answers each input from its state. Its run over a list of inputs gives the state
after the last one and the outputs in order; what a step preserves, every run preserves.

## Main definitions

* `after step s is`, `outputs step s is`: the state after the inputs `is`, and their outputs
* `Preserves step Q P`: a step on an input with `Q` keeps the invariant `P`
* `Component step part proj sel`: a part of a transducer that takes some of its inputs

## Main results

* `outputs_append`: the outputs on two lists of inputs are those of two runs in sequence
* `Preserves.after`: the invariant rule for runs
* `Component.after`, `Component.answers`: a part runs on its own inputs as if there were no others
-/

namespace Transducer

variable {σ ι ο : Type*} (step : σ → ι → σ × ο)

/-- The state after the inputs `is`. -/
def after : σ → List ι → σ
  | s, [] => s
  | s, i :: is => after (step s i).1 is

/-- The outputs on the inputs `is`, in order. -/
def outputs : σ → List ι → List ο
  | _, [] => []
  | s, i :: is => (step s i).2 :: outputs (step s i).1 is

@[simp] theorem after_nil (s : σ) : after step s [] = s := rfl

@[simp] theorem after_cons (s : σ) (i : ι) (is : List ι) :
    after step s (i :: is) = after step (step s i).1 is := rfl

@[simp] theorem outputs_nil (s : σ) : outputs step s [] = [] := rfl

@[simp] theorem outputs_cons (s : σ) (i : ι) (is : List ι) :
    outputs step s (i :: is) = (step s i).2 :: outputs step (step s i).1 is := rfl

theorem after_append (s : σ) (is js : List ι) :
    after step s (is ++ js) = after step (after step s is) js := by
  induction is generalizing s with
  | nil => rfl
  | cons i is ih => exact ih (step s i).1

theorem outputs_append (s : σ) (is js : List ι) :
    outputs step s (is ++ js) = outputs step s is ++ outputs step (after step s is) js := by
  induction is generalizing s with
  | nil => rfl
  | cons i is ih => exact congrArg _ (ih (step s i).1)

/-- What every step puts out, every run does. -/
theorem forall_mem_outputs {step : σ → ι → σ × ο} {P : ο → Prop} (h : ∀ s i, P (step s i).2)
    (s : σ) (is : List ι) : ∀ o ∈ outputs step s is, P o := by
  induction is generalizing s with
  | nil => exact List.forall_mem_nil P
  | cons i is ih => exact List.forall_mem_cons.mpr ⟨h s i, ih (step s i).1⟩

theorem length_outputs (s : σ) (is : List ι) : (outputs step s is).length = is.length := by
  induction is generalizing s with
  | nil => rfl
  | cons i is ih => exact congrArg (· + 1) (ih (step s i).1)

/-- A step on an input satisfying `Q` keeps `P`. -/
def Preserves (Q : ι → Prop) (P : σ → Prop) : Prop :=
  ∀ s i, Q i → P s → P (step s i).1

/-- What every step preserves, every run preserves. -/
theorem Preserves.after {step : σ → ι → σ × ο} {Q : ι → Prop} {P : σ → Prop}
    (h : Preserves step Q P) {s : σ} {is : List ι} (hQ : ∀ i ∈ is, Q i) (hP : P s) :
    P (after step s is) := by
  induction is generalizing s with
  | nil => exact hP
  | cons i is ih =>
    exact ih (fun j hj => hQ j (List.mem_cons_of_mem i hj)) (h s i (hQ i List.mem_cons_self) hP)

/-! ## Components -/

variable {σ' ι' : Type*}

/-- The outputs on the inputs that `sel` takes. -/
def answers (sel : ι → Option ι') (is : List ι) (os : List ο) : List ο :=
  ((is.zip os).filter fun io => (sel io.1).isSome).map Prod.snd

section Answers

variable {sel : ι → Option ι'} {i : ι} (is : List ι) (o : ο) (os : List ο)

theorem answers_cons_some (h : (sel i).isSome) :
    answers sel (i :: is) (o :: os) = o :: answers sel is os := by
  simp [answers, h]

theorem answers_cons_none (h : sel i = none) :
    answers sel (i :: is) (o :: os) = answers sel is os := by
  simp [answers, h]

end Answers

/-- A part of a transducer, with the state `proj` gives it: it answers the inputs it takes as the
whole does, and the others leave its state. -/
structure Component (step : σ → ι → σ × ο) (part : σ' → ι' → σ' × ο) (proj : σ → σ')
    (sel : ι → Option ι') : Prop where
  taken : ∀ s i j, sel i = some j →
    proj (step s i).1 = (part (proj s) j).1 ∧ (step s i).2 = (part (proj s) j).2
  passed : ∀ s i, sel i = none → proj (step s i).1 = proj s

namespace Component

variable {step : σ → ι → σ × ο} {part : σ' → ι' → σ' × ο} {proj : σ → σ'} {sel : ι → Option ι'}
  (h : Component step part proj sel)

include h

theorem after (s : σ) (is : List ι) :
    proj (after step s is) = Transducer.after part (proj s) (is.filterMap sel) := by
  induction is generalizing s with
  | nil => rfl
  | cons i is ih =>
    rw [after_cons, ih]
    cases hsel : sel i with
    | none => rw [List.filterMap_cons_none hsel, h.passed s i hsel]
    | some j => rw [List.filterMap_cons_some hsel, after_cons, (h.taken s i j hsel).1]

theorem answers (s : σ) (is : List ι) :
    answers sel is (outputs step s is) = outputs part (proj s) (is.filterMap sel) := by
  induction is generalizing s with
  | nil => rfl
  | cons i is ih =>
    have ih := ih (step s i).1
    rw [outputs_cons]
    cases hsel : sel i with
    | none =>
      rw [answers_cons_none _ _ _ hsel, List.filterMap_cons_none hsel, ih, h.passed s i hsel]
    | some j =>
      obtain ⟨hstate, hout⟩ := h.taken s i j hsel
      rw [answers_cons_some _ _ _ (hsel ▸ rfl), List.filterMap_cons_some hsel, outputs_cons, ih,
        hstate, hout]

end Component

end Transducer
