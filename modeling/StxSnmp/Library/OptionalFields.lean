import Mathlib.Data.List.Forall2

/-!
# Records with optional fields

An encoder of a record goes through a table of fields, emits an item for each field present, and
stops where a field cannot be encoded.

## Main definitions

* `collect f fields items`: the items followed by those `f` emits for the fields
* `rename r members`: the members under their new keys, those without one dropped

## Main results

* `collect_eq_ok`, `collect_isOk_iff`: what is collected, and when nothing fails
* `map_of_collect`: the names of what is collected
* `sublistForall₂_of_collect`: what is collected belongs to a part of a table, in its order
* `filterMap_eq_filterMap_iff`: two tables that emit for the same fields emit the same items only
  if they do so field by field
* `lookup_rename`: a new key has the value of its old key
-/

namespace OptionalFields

variable {ε α β γ κ κ' υ : Type*}

/-! ## Collecting items -/

/-- What follows an encoding does not make it fail. -/
theorem exists_map_eq_ok_iff {f : α → β} {x : Except ε α} :
    (∃ b, x.map f = .ok b) ↔ ∃ a, x = .ok a := by
  cases x <;> simp [Except.map]

/-- What an encoding succeeds with comes from a success. -/
theorem exists_of_map_eq_ok {f : α → β} {x : Except ε α} {b : β} (h : x.map f = .ok b) :
    ∃ a, x = .ok a ∧ f a = b := by
  cases x with
  | error e => cases h
  | ok a => exact ⟨a, rfl, Except.ok.inj h⟩

/-- The items followed by those emitted for the fields, up to the first failure. -/
def collect (f : β → Except ε (Option α)) : List β → List α → Except ε (List α)
  | [], items => .ok items
  | field :: fields, items =>
    match f field with
    | .error e => .error e
    | .ok item => collect f fields (items ++ item.toList)

/-- The items there are at first stay in front of those collected. -/
theorem collect_eq_map (f : β → Except ε (Option α)) (fields : List β) (items : List α) :
    collect f fields items = (collect f fields []).map (items ++ ·) := by
  induction fields generalizing items with
  | nil => simp [collect, Except.map]
  | cons field fields ih =>
    rw [collect, collect]
    cases f field with
    | error e => rfl
    | ok item =>
      -- both sides go on from the items there are, by the induction hypothesis
      simp only [List.nil_append]
      rw [ih (items ++ item.toList), ih item.toList]
      cases collect f fields [] <;> simp [Except.map]

/-- Fields encoded as a second table prescribes emit the items of that table. -/
theorem collect_eq_ok {f : β → Except ε (Option α)} {g : γ → Option α} {fields : List β}
    {table : List γ} (h : List.Forall₂ (fun b c => f b = .ok (g c)) fields table)
    (items : List α) : collect f fields items = .ok (items ++ table.filterMap g) := by
  induction h generalizing items with
  | nil => simp [collect]
  | @cons b c fields table hbc _ ih =>
    rw [collect, hbc]
    refine (ih (items ++ (g c).toList)).trans ?_
    cases hc : g c <;> simp [hc]

/-- The collection succeeds exactly when each field can be encoded. -/
theorem collect_isOk_iff {f : β → Except ε (Option α)} {fields : List β} {items : List α} :
    (∃ out, collect f fields items = .ok out) ↔ ∀ field ∈ fields, ∃ item, f field = .ok item := by
  induction fields generalizing items with
  | nil => simp [collect]
  | cons field fields ih =>
    rw [List.forall_mem_cons, collect]
    cases hf : f field with
    | error e => simp
    | ok item => simpa using ih

/-- The names of what is collected are those of the fields present, in their order. -/
theorem map_of_collect {ν : Type*} {f : β → Except ε (Option α)} {p : β → Bool} {name : β → ν}
    {itemName : α → ν}
    (hf : ∀ field item, f field = .ok item →
      item.map itemName = if p field then some (name field) else none)
    {fields : List β} {items out : List α} (h : collect f fields items = .ok out) :
    out.map itemName = items.map itemName ++ (fields.filter p).map name := by
  induction fields generalizing items with
  | nil =>
    rw [collect] at h
    cases h
    simp
  | cons field fields ih =>
    rw [collect] at h
    cases hfield : f field with
    | error e =>
      rw [hfield] at h
      cases h
    | ok item =>
      rw [hfield] at h
      have hitem := hf field item hfield
      rw [ih h, List.filter_cons]
      cases item with
      | none =>
        have hp : ¬ p field := fun hp => by simp [hp] at hitem
        simp [hp]
      | some a =>
        have hp : p field = true := by
          by_contra hp
          simp [hp] at hitem
        have hname : itemName a = name field := by simpa [hp] using hitem
        simp [hp, hname]

/-- If the item of a field always fits its entry of a table, then what is collected fits a part of
the table, in its order. -/
theorem sublistForall₂_of_collect {f : β → Except ε (Option α)} {S : α → γ → Prop}
    {fields : List β} {table : List γ}
    (h : List.Forall₂ (fun b c => ∀ a, f b = .ok (some a) → S a c) fields table) {out : List α}
    (hcollect : collect f fields [] = .ok out) : List.SublistForall₂ S out table := by
  induction h generalizing out with
  | nil =>
    cases hcollect
    exact .nil
  | @cons b c fields table hfits _ ih =>
    rw [collect] at hcollect
    cases hb : f b with
    | error e =>
      rw [hb] at hcollect
      cases hcollect
    | ok item =>
      rw [hb] at hcollect
      simp only [List.nil_append] at hcollect
      cases item with
      | none => exact .cons_right (ih hcollect)
      | some a =>
        -- the item stays in front of those of the other fields
        rw [collect_eq_map] at hcollect
        obtain ⟨out', hout', rfl⟩ := exists_of_map_eq_ok hcollect
        exact .cons (hfits a hb) (ih hout')

/-- Two encodings that emit for the same fields agree exactly if they agree on each field. -/
theorem filterMap_eq_filterMap_iff {f g : γ → Option α} {table : List γ}
    (h : ∀ c ∈ table, (f c).isSome = (g c).isSome) :
    table.filterMap f = table.filterMap g ↔ ∀ c ∈ table, f c = g c := by
  induction table with
  | nil => simp
  | cons c table ih =>
    obtain ⟨hc, hrest⟩ := List.forall_mem_cons.mp h
    rw [List.forall_mem_cons, ← ih hrest]
    cases hf : f c with
    | none =>
      have hg : g c = none := by simpa [hf] using hc
      simp [hf, hg]
    | some a =>
      obtain ⟨b, hg⟩ : ∃ b, g c = some b :=
        Option.isSome_iff_exists.mp (by simpa [hf] using hc.symm)
      simp [hf, hg]

/-! ## Members -/

section Members

variable [BEq κ] [LawfulBEq κ] [BEq κ'] [LawfulBEq κ']

theorem mem_of_lookup_eq_some {members : List (κ × υ)} {key : κ} {value : υ}
    (h : members.lookup key = some value) : (key, value) ∈ members := by
  obtain ⟨before, after, hsplit, -⟩ := List.lookup_eq_some_iff.mp h
  simp [hsplit]

/-- The members under their new keys, those without one dropped. -/
def rename (r : κ → Option κ') (members : List (κ × υ)) : List (κ' × υ) :=
  members.filterMap fun member => (r member.1).map fun key => (key, member.2)

/-- A new key taken by one old key only has its value. -/
theorem lookup_rename {r : κ → Option κ'} {key : κ} {key' : κ'}
    (h : ∀ k, r k = some key' ↔ k = key) (members : List (κ × υ)) :
    (rename r members).lookup key' = members.lookup key := by
  induction members with
  | nil => rfl
  | cons member members ih =>
    obtain ⟨k, v⟩ := member
    unfold rename at ih ⊢
    by_cases hk : k = key
    · rw [List.filterMap_cons_some (by rw [(h k).mpr hk]; rfl), List.lookup_cons_self, hk,
        List.lookup_cons_self]
    · have hkey : (key == k) = false := beq_false_of_ne (Ne.symm hk)
      rw [List.lookup_cons, hkey]
      cases hr : r k with
      | none => rw [List.filterMap_cons_none (by rw [hr]; rfl), ih]
      | some k' =>
        have hk' : (key' == k') = false :=
          beq_false_of_ne fun heq => hk ((h k).mp (heq ▸ hr))
        rw [List.filterMap_cons_some (by rw [hr]; rfl), List.lookup_cons, hk']
        exact ih

end Members

end OptionalFields
