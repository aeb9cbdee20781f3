import Mathlib.Data.Nat.Find
import Mathlib.Order.Bounds.Basic
import StxSnmp.FmAgent.Request

/-!
# The index search as a lookup

What the index search is for: for an exact request the instance of the column that is named, and
for another the least instance after the name, in the order of object identifiers. Names of any
length may lie before, between or after the instances, or extend one of them.

## Main definitions

* `instances count vp`: the instances of a column
* `instancesAfter count r`: those after the name of a request

## Main results

* `headerEntry_exact_cases`, `headerEntry_next_cases`: the two kinds of requests
* `headerEntry_lookup`: the search is the lookup, or the successor, among the instances
-/

namespace StxSnmp.FmAgent

open Lexicographic

/-- The instances of a column for a count: `column.1`, …, `column.count`. -/
def instances (count : ℤ) (vp : Variable) : Set Oid :=
  {o | ∃ i : ℕ, 1 ≤ i ∧ (i : ℤ) ≤ count ∧ o = vp.name ++ [i]}

/-- The instances after the name of a request. -/
def instancesAfter (count : ℤ) (r : Request) : Set Oid :=
  {o ∈ instances count r.vp | r.name < o}

section Lookup

variable {oids : OidComparison} {count : ℤ} {r : Request}

theorem mem_instances {vp : Variable} {i : ℕ} :
    vp.name ++ [i] ∈ instances count vp ↔ 1 ≤ i ∧ (i : ℤ) ≤ count := by
  constructor
  · rintro ⟨j, hpos, hle, heq⟩
    obtain rfl : i = j := by simpa using heq
    exact ⟨hpos, hle⟩
  · rintro ⟨hpos, hle⟩
    exact ⟨i, hpos, hle, rfl⟩

/-- An exact search finds the instance named, if the name is one. -/
theorem headerEntry_exact_cases (oids : OidComparison) (count : ℤ) (hexact : r.exact = true) :
    (∃ i : ℕ, r.name = r.vp.name ++ [i] ∧ r.name ∈ instances count r.vp ∧
      headerEntry oids count r = HeaderOut.found r i) ∨
    (r.name ∉ instances count r.vp ∧ headerEntry oids count r = HeaderOut.notFound r) := by
  by_cases hmem : r.name ∈ instances count r.vp
  · obtain ⟨i, hpos, hle, hname⟩ := hmem
    have hfound : headerEntry oids count r = _ := headerEntry_exact hexact hname hpos
    rw [if_pos hle] at hfound
    exact Or.inl ⟨i, hname, ⟨i, hpos, hle, hname⟩, hfound⟩
  · refine Or.inr ⟨hmem, headerEntry_of_none ?_⟩
    intro k hpos hle
    rw [Bool.eq_false_iff]
    intro hhit
    exact hmem ⟨k, hpos, hle, (indexHit_exact hexact k).mp hhit⟩

/-- Another search finds the least instance after the name, if there is one. -/
theorem headerEntry_next_cases (oids : OidComparison) (count : ℤ) (hexact : r.exact = false) :
    (∃ i : ℕ, IsLeast (instancesAfter count r) (r.vp.name ++ [i]) ∧
      headerEntry oids count r = HeaderOut.found r i) ∨
    (instancesAfter count r = ∅ ∧ headerEntry oids count r = HeaderOut.notFound r) := by
  by_cases hafter : ∃ i : ℕ, 1 ≤ i ∧ (i : ℤ) ≤ count ∧ r.name < r.vp.name ++ [i]
  · -- the first such index is the one the search stops at
    classical
    obtain ⟨hpos, hle, hlt⟩ := Nat.find_spec hafter
    have hleast : ∀ k, 1 ≤ k → k < Nat.find hafter → ¬ r.name < r.vp.name ++ [k] := by
      intro k hk hfirst hname
      exact Nat.find_min hafter hfirst ⟨hk, by omega, hname⟩
    have hfound : headerEntry oids count r = _ := headerEntry_next hexact hpos hlt hleast
    rw [if_pos hle] at hfound
    refine Or.inl ⟨Nat.find hafter, ⟨⟨mem_instances.mpr ⟨hpos, hle⟩, hlt⟩, ?_⟩, hfound⟩
    rintro o ⟨⟨k, hk, hkle, rfl⟩, hname⟩
    -- the instances are in the order of their indices
    have hnot : ¬ r.vp.name ++ [k] < r.vp.name ++ [Nat.find hafter] := by
      rw [append_singleton_lt_iff, Nat.not_lt]
      exact Nat.find_min' hafter ⟨hk, hkle, hname⟩
    exact le_of_not_gt hnot
  · refine Or.inr ⟨?_, headerEntry_of_none ?_⟩
    · refine Set.eq_empty_of_forall_notMem ?_
      rintro o ⟨⟨k, hk, hkle, rfl⟩, hname⟩
      exact hafter ⟨k, hk, hkle, hname⟩
    · intro k hk hkle
      rw [Bool.eq_false_iff]
      intro hhit
      exact hafter ⟨k, hk, hkle, (indexHit_next hexact k).mp hhit⟩

/-- **The index search is the lookup and the successor of SNMP**: an exact search returns `i` iff
the name is the instance `column.i`, another returns the `i` whose instance is the least after the
name, and fails iff there is none. A search that succeeds leaves the name of the instance it found,
and one that fails leaves its arguments as they were. -/
theorem headerEntry_lookup (oids : OidComparison) (count : ℤ) (r : Request) :
    (r.exact = true → ∀ i : ℕ, (headerEntry oids count r).index = i ↔
      r.name = r.vp.name ++ [i] ∧ r.name ∈ instances count r.vp) ∧
    (r.exact = false →
      (∀ i : ℕ, (headerEntry oids count r).index = i ↔
        IsLeast (instancesAfter count r) (r.vp.name ++ [i])) ∧
      ((headerEntry oids count r).index = matchFailed ↔ instancesAfter count r = ∅)) ∧
    ((∃ i : ℕ, 1 ≤ i ∧ (i : ℤ) ≤ count ∧ (headerEntry oids count r).index = i ∧
        (headerEntry oids count r).name = r.vp.name ++ [i]) ∨
      ((headerEntry oids count r).index = matchFailed ∧ (headerEntry oids count r).name = r.name ∧
        (headerEntry oids count r).varLen = r.varLen ∧
        (headerEntry oids count r).writeMethod = r.writeMethod)) := by
  have hfound (i j : ℕ) : (HeaderOut.found r i).index = j ↔ i = j := Int.natCast_inj
  have hfailed (j : ℕ) : (HeaderOut.notFound r).index ≠ j := (matchFailed_ne j).symm
  refine ⟨?_, ?_, ?_⟩
  · intro hexact i
    obtain ⟨j, hname, hmem, hsearch⟩ | ⟨hmem, hsearch⟩ :=
      headerEntry_exact_cases oids count hexact
    · rw [hsearch, hfound, and_iff_left hmem, hname]
      simp
    · rw [hsearch]
      exact iff_of_false (hfailed i) fun h => hmem h.2
  · intro hexact
    obtain ⟨j, hleast, hsearch⟩ | ⟨hnone, hsearch⟩ :=
      headerEntry_next_cases oids count hexact
    · constructor
      · intro i
        rw [hsearch, hfound]
        constructor
        · rintro rfl
          exact hleast
        · intro hleast'
          simpa using hleast.unique hleast'
      · rw [hsearch]
        exact iff_of_false (matchFailed_ne j) hleast.nonempty.ne_empty
    · constructor
      · intro i
        rw [hsearch, hnone]
        exact iff_of_false (hfailed i) fun h => h.1
      · rw [hsearch]
        exact iff_of_true rfl hnone
  · obtain hsearch | ⟨i, hpos, hle, hsearch⟩ := headerEntry_cases oids count r
    · rw [hsearch]
      exact Or.inr ⟨rfl, rfl, rfl, rfl⟩
    · rw [hsearch]
      exact Or.inl ⟨i, hpos, hle, rfl, rfl⟩

end Lookup

end StxSnmp.FmAgent
