import Mathlib.Data.List.Perm.Subperm
import StxSnmp.FmAgent.Lookup
import StxSnmp.FmAgent.Walk

/-!
# Walking a table that changes

Whatever happens to the rows between the calls of a walk, and however the count and the list are
out of step, the names answered ascend: a manager never sees a name that does not increase, and no
walk goes on for ever.

## Main results

* `varTable_next_name`: a non-exact request keeps the name or moves on to a later instance
* `walk_ascending`: the answers of a walk are instances of the column in ascending order
-/

namespace StxSnmp.FmAgent

open Transducer MachineInt Lexicographic

/-- The largest index an `int` holds. -/
def intMax : ℕ := 2147483647

/-- A non-exact request answers none under the name asked for, or moves on to a later instance of
the column. -/
theorem varTable_next_name {c : TableCode}
    {entryValue : ℕ → ℤ → List UInt8 → AlarmData → Option Value} {env : RequestEnv} {r : Request}
    (hexact : r.exact = false) (s : Table × Plugin) :
    ((varTable c entryValue env r s).2.name = r.name ∧
      (varTable c entryValue env r s).2.value = none) ∨
    ∃ i, 1 ≤ i ∧ i ≤ intMax ∧ (varTable c entryValue env r s).2.name = r.vp.name ++ [i] ∧
      r.name < r.vp.name ++ [i] := by
  obtain ⟨s₁, hget, -⟩ := getCount_countInForce c env s
  obtain ⟨i, hleast, hsearch⟩ | ⟨-, hsearch⟩ :=
    headerEntry_next_cases env.oids (cInt (countInForce c env s)) hexact
  · obtain ⟨⟨hmem, hlt⟩, -⟩ := hleast
    obtain ⟨hpos, hle⟩ := mem_instances.mp hmem
    have hint := cInt_lt (countInForce c env s)
    refine Or.inr ⟨i, hpos, ?_, (varTable_of_found entryValue hget hsearch).1, hlt⟩
    unfold intMax
    omega
  · rw [varTable_of_notFound hget hsearch]
    exact Or.inl ⟨rfl, rfl⟩

/-- Ascending indices within the range of `int` are no more than it has. -/
theorem length_le_of_ascending {indices : List ℕ} (hascending : indices.Pairwise (· < ·))
    (hrange : ∀ i ∈ indices, 1 ≤ i ∧ i ≤ intMax) : indices.length ≤ intMax := by
  have hnodup : indices.Nodup := hascending.imp Nat.ne_of_lt
  have hsub : indices ⊆ List.range' 1 intMax := by
    intro i hi
    obtain ⟨hpos, hle⟩ := hrange i hi
    rw [List.mem_range'_1]
    omega
  have hlength := (List.subperm_of_subset hnodup hsub).length_le
  rwa [List.length_range'] at hlength

/-- The replies of a walk that answer a value. -/
def answered (replies : List Response) : List Response :=
  replies.filter fun reply => reply.value.isSome

theorem answered_cons (reply : Response) (replies : List Response) :
    answered (reply :: replies) =
      if reply.value.isSome then reply :: answered replies else answered replies :=
  List.filter_cons

variable (dateNTime : ℤ → List UInt8)

/-- A call of a walk answers none under its name, or moves on to a later instance. -/
theorem WalkCall.serve_name (call : WalkCall) (kind : TableKind) (vp : Variable) (a : Agent)
    (name : Oid) :
    ((call.serve dateNTime kind vp a name).2.name = name ∧
      (call.serve dateNTime kind vp a name).2.value = none) ∨
    ∃ i, 1 ≤ i ∧ i ≤ intMax ∧
      (call.serve dateNTime kind vp a name).2.name = vp.name ++ [i] ∧ name < vp.name ++ [i] := by
  have hreply : (call.serve dateNTime kind vp a name).2 = _ :=
    (kind.agentStep_request dateNTime (after (agentStep dateNTime) a call.before) call.env
      ⟨vp, name, false, call.varLen, call.writeMethod⟩).2
  rw [hreply]
  exact varTable_next_name (r := ⟨vp, name, false, call.varLen, call.writeMethod⟩) rfl _

/-- The answers of a walk are instances after its start, their indices ascending. -/
theorem exists_indices_walk (kind : TableKind) (vp : Variable) (a : Agent) (name : Oid)
    (calls : List WalkCall) :
    ∃ indices : List ℕ, indices.Pairwise (· < ·) ∧
      (∀ i ∈ indices, 1 ≤ i ∧ i ≤ intMax ∧ name < vp.name ++ [i]) ∧
      (answered (walk dateNTime kind vp a name calls)).map Response.name =
        indices.map fun i => vp.name ++ [i] := by
  induction calls generalizing a name with
  | nil => exact ⟨[], .nil, fun _ h => absurd h List.not_mem_nil, rfl⟩
  | cons call calls ih =>
    rw [walk_cons]
    obtain ⟨indices, hascending, hrange, hnames⟩ :=
      ih (call.serve dateNTime kind vp a name).1 (call.serve dateNTime kind vp a name).2.name
    rw [answered_cons]
    obtain ⟨hname, hvalue⟩ | ⟨i, hpos, hle, hname, hlt⟩ :=
      call.serve_name dateNTime kind vp a name
    · -- the walk is where it was
      rw [hname] at hrange
      rw [hvalue, if_neg (by simp)]
      exact ⟨indices, hascending, hrange, hnames⟩
    · rw [hname] at hrange
      -- the indices to come are after this one, and so after the name
      have hlater : ∀ j ∈ indices, i < j := fun j hj =>
        append_singleton_lt_iff.mp (hrange j hj).2.2
      have hrest : ∀ j ∈ indices, 1 ≤ j ∧ j ≤ intMax ∧ name < vp.name ++ [j] := by
        intro j hj
        obtain ⟨hj1, hj2, hj3⟩ := hrange j hj
        exact ⟨hj1, hj2, hlt.trans hj3⟩
      by_cases hvalue : (call.serve dateNTime kind vp a name).2.value.isSome
      · refine ⟨i :: indices, List.pairwise_cons.mpr ⟨hlater, hascending⟩, ?_, ?_⟩
        · exact List.forall_mem_cons.mpr ⟨⟨hpos, hle, hlt⟩, hrest⟩
        · rw [if_pos hvalue, List.map_cons, List.map_cons, hnames, hname]
      · rw [if_neg hvalue]
        exact ⟨indices, hascending, hrest, hnames⟩

/-- **A walk never goes back, and ends**: whatever is requested and whatever the database does
between its calls, and however they are answered, the names answered are instances of the column
after the start, in strictly ascending order, and no more than an `int` has indices. -/
theorem walk_ascending (kind : TableKind) (vp : Variable) (a : Agent) (start : Oid)
    (calls : List WalkCall) :
    let names := (answered (walk dateNTime kind vp a start calls)).map Response.name
    (start :: names).Pairwise (· < ·) ∧
      names.Forall (fun name => ∃ i, 1 ≤ i ∧ i ≤ intMax ∧ name = vp.name ++ [i]) ∧
      names.length ≤ intMax := by
  obtain ⟨indices, hascending, hrange, hnames⟩ :=
    exists_indices_walk dateNTime kind vp a start calls
  simp only [hnames]
  refine ⟨List.pairwise_cons.mpr ⟨?_, ?_⟩, ?_, ?_⟩
  · intro name hname
    obtain ⟨i, hi, rfl⟩ := List.mem_map.mp hname
    exact (hrange i hi).2.2
  · exact List.pairwise_map.mpr (hascending.imp append_singleton_lt_iff.mpr)
  · rw [List.forall_iff_forall_mem]
    intro name hname
    obtain ⟨i, hi, rfl⟩ := List.mem_map.mp hname
    exact ⟨i, (hrange i hi).1, (hrange i hi).2.1, rfl⟩
  · rw [List.length_map]
    exact length_le_of_ascending hascending fun i hi => ⟨(hrange i hi).1, (hrange i hi).2.1⟩

end StxSnmp.FmAgent
