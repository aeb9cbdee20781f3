import Mathlib.Data.List.Basic

/-!
# Traces that respect the life of handles

A trace of events, some of which create a handle, are passed one, or destroy one. A handle is
live after a trace that created it and has not destroyed it since; the trace is disciplined when
every handle passed is live at that point.

## Main definitions

* `HandleTrace ε η`: which handle an event creates, is passed, destroys
* `Live`, `Disciplined`: live handles, and traces passing no others
* `Single`: traces that never have two live handles

## Main results

* `live_concat`, `disciplined_concat`, `single_concat`: one more event
-/

/-- The handles an event creates, is passed and destroys, if any. -/
structure HandleTrace (ε η : Type*) where
  creates : ε → Option η
  passes : ε → Option η
  destroys : ε → Option η

namespace HandleTrace

variable {ε η : Type*} (d : HandleTrace ε η) {es : List ε} {e : ε} {h : η}

/-- Some event of the trace creates `h`, and none after it destroys `h`. -/
def Live (h : η) (es : List ε) : Prop :=
  ∃ a e b, es = a ++ e :: b ∧ d.creates e = some h ∧ ∀ e' ∈ b, d.destroys e' ≠ some h

/-- Every handle passed is live when it is passed. -/
def Disciplined (es : List ε) : Prop :=
  ∀ a e b h, es = a ++ e :: b → d.passes e = some h → d.Live h a

theorem disciplined_nil : d.Disciplined [] := by
  intro a e b h hsplit
  simp at hsplit

/-- A trace of one more event ends with that event, or splits before it. -/
theorem concat_eq_append_cons_iff {es a b : List ε} {e e' : ε} :
    es ++ [e] = a ++ e' :: b ↔
      (b = [] ∧ es = a ∧ e = e') ∨ ∃ b', b = b' ++ [e] ∧ es = a ++ e' :: b' := by
  constructor
  · intro hsplit
    rcases b.eq_nil_or_concat with rfl | ⟨b', e'', rfl⟩
    · exact Or.inl ⟨rfl, by simpa using hsplit⟩
    · -- the last event of the right side is the one added
      have hends : es ++ [e] = (a ++ e' :: b') ++ [e''] := by simpa using hsplit
      obtain ⟨hes, he⟩ := List.append_inj' hends rfl
      obtain rfl : e = e'' := by simpa using he
      exact Or.inr ⟨b', by simp, hes⟩
  · rintro (⟨rfl, rfl, rfl⟩ | ⟨b', rfl, rfl⟩)
    · rfl
    · simp

/-- After one more event a handle is live if just created, or live before and not destroyed. -/
theorem live_concat :
    d.Live h (es ++ [e]) ↔
      d.creates e = some h ∨ (d.Live h es ∧ d.destroys e ≠ some h) := by
  constructor
  · rintro ⟨a, e', b, hsplit, hcreate, hkept⟩
    rcases concat_eq_append_cons_iff.mp hsplit with ⟨rfl, rfl, rfl⟩ | ⟨b', rfl, rfl⟩
    · exact Or.inl hcreate
    · exact Or.inr ⟨⟨a, e', b', rfl, hcreate, fun e'' he => hkept e'' (by simp [he])⟩,
        hkept e (by simp)⟩
  · rintro (hcreate | ⟨⟨a, e', b, rfl, hcreate, hkept⟩, hlast⟩)
    · exact ⟨es, e, [], rfl, hcreate, by simp⟩
    · refine ⟨a, e', b ++ [e], by simp, hcreate, ?_⟩
      intro e'' he
      rcases List.mem_append.mp he with he | he
      · exact hkept e'' he
      · rw [List.mem_singleton.mp he]
        exact hlast

/-- One more event keeps the discipline when the handle it is passed is live. -/
theorem disciplined_concat :
    d.Disciplined (es ++ [e]) ↔ d.Disciplined es ∧ ∀ h, d.passes e = some h → d.Live h es := by
  constructor
  · intro hd
    refine ⟨?_, fun h hpass => hd es e [] h rfl hpass⟩
    intro a e' b h hsplit hpass
    exact hd a e' (b ++ [e]) h (by simp [hsplit]) hpass
  · rintro ⟨hd, hlast⟩ a e' b h hsplit hpass
    rcases concat_eq_append_cons_iff.mp hsplit with ⟨rfl, rfl, rfl⟩ | ⟨b', rfl, hes⟩
    · exact hlast h hpass
    · exact hd a e' b' h hes hpass

theorem not_live_nil : ¬ d.Live h [] := by
  rintro ⟨a, e, b, hsplit, -, -⟩
  simp at hsplit

theorem live_singleton (hcreate : d.creates e = some h) : d.Live h [e] :=
  ⟨[], e, [], rfl, hcreate, by simp⟩

theorem disciplined_singleton (hpass : d.passes e = none) : d.Disciplined [e] := by
  rw [← List.nil_append [e], disciplined_concat, hpass]
  exact ⟨d.disciplined_nil, fun h hh => nomatch hh⟩

/-- No two handles are live at any point of the trace. -/
def Single (es : List ε) : Prop :=
  ∀ front, front <+: es → ∀ h h', d.Live h front → d.Live h' front → h = h'

theorem single_nil : d.Single [] := by
  intro front hfront h h' hlive
  obtain rfl := List.prefix_nil.mp hfront
  exact absurd hlive d.not_live_nil

/-- A trace of one more event is single when no two handles are live after it. -/
theorem single_concat :
    d.Single (es ++ [e]) ↔
      d.Single es ∧ ∀ h h', d.Live h (es ++ [e]) → d.Live h' (es ++ [e]) → h = h' := by
  constructor
  · intro hsingle
    exact ⟨fun front hfront => hsingle front (hfront.trans (List.prefix_append es [e])),
      hsingle _ (List.prefix_refl _)⟩
  · rintro ⟨hsingle, hlast⟩ front hfront
    rcases List.prefix_concat_iff.mp hfront with rfl | hfront
    · exact hlast
    · exact hsingle front hfront

end HandleTrace
