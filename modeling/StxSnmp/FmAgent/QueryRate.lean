import StxSnmp.FmAgent.ScanInvariant
import StxSnmp.Library.Throttle

/-!
# How often the database is asked

A scan loads only when the last load of the table was `MINLOADFREQ` seconds before, by the
monotonic clock, and a load asks the database five times at most.

## Main definitions

* `LoadsThrottled`: a state whose loads kept their distance

## Main results

* `queries_queryRows`: the queries of one load
* `loadsThrottled_invariant`: every scan keeps the distance
* `queries_le`: over any run the queries are bounded by the time it took, not by the requests
-/

namespace StxSnmp.FmAgent

open Transducer

/-- A load asks once for each attempt it has. -/
theorem queries_queryRows (kind : TableKind) (attempts : ℕ → Attempt) (n i : ℕ) (p : Plugin) :
    kind.queries (queryRows kind.code attempts n i p).2 ≤ kind.queries p + n := by
  induction n generalizing i p with
  | zero => exact le_rfl
  | succ n ih =>
    have hcall : kind.queries (p.call (kind.code.getAll (getAlarmSession p))) =
        kind.queries p + 1 := by
      rw [kind.queries_call]
      cases kind <;> rfl
    rw [queryRows]
    cases attempts i with
    | obtained alarms =>
      show kind.queries (p.call _) ≤ _
      omega
    | failed created =>
      have hrest := ih (i + 1) (renewAlarmSession created
        (p.call (kind.code.getAll (getAlarmSession p))))
      rw [kind.queries_renew, hcall] at hrest
      show kind.queries (queryRows _ _ _ _ _).2 ≤ _
      omega

/-- By the reading `now`, the table was loaded no more often than its period allows since `start`,
with as many queries as a load may make. -/
structure LoadsThrottled (kind : TableKind) (start now : ℤ) (s : Table × Plugin) : Prop where
  start_le : start ≤ now
  loads : ∃ n, Throttled kind.code.minLoadFreq start now s.1.lastLoad n ∧
    kind.queries s.2 ≤ retryCount * n

/-- A scan loads only when its period has passed. -/
theorem LoadsThrottled.scanInit {kind : TableKind} {start now : ℤ} {s : Table × Plugin}
    (h : LoadsThrottled kind start now s) {env : ScanEnv} (hnow : now ≤ env.clock) :
    LoadsThrottled kind start env.clock (scanInit kind.code env s) := by
  obtain ⟨t, p⟩ := s
  obtain ⟨hle, n, hn, hqueries⟩ := h
  have hstart : start ≤ env.clock := hle.trans hnow
  -- what the queries of a load add
  have hload := queries_queryRows kind env.attempts retryCount 0 p
  refine ⟨hstart, ?_⟩
  obtain ⟨-, hs⟩ | ⟨hdue, p', hq, hs⟩ | ⟨hdue, alarms, p', hq, hs⟩ :=
    scanInit_cases (c := kind.code) env t p
  · rw [hs]
    exact ⟨n, hn.later hnow, hqueries⟩
  · rw [hq] at hload
    rw [hs]
    refine ⟨n + 1, hn.done kind.minLoadFreq_pos hstart hdue, ?_⟩
    exact hload.trans (Nat.add_le_add_right hqueries retryCount)
  · rw [hq] at hload
    rw [hs]
    refine ⟨n + 1, hn.done kind.minLoadFreq_pos hstart hdue, ?_⟩
    exact hload.trans (Nat.add_le_add_right hqueries retryCount)

theorem loadsThrottled_invariant (kind : TableKind) (start : ℤ) :
    ScanInvariant kind (fun _ => True) (LoadsThrottled kind start) where
  later h hnow := by
    obtain ⟨hle, n, hn, hqueries⟩ := h
    exact ⟨hle.trans hnow, n, hn.later hnow, hqueries⟩
  scan h _ hnow := h.scanInit hnow
  congr h _ hload hqueries := by
    obtain ⟨hle, n, hn, hbound⟩ := h
    exact ⟨hle, n, hload ▸ hn, hqueries ▸ hbound⟩

/-- **The database is asked at a bounded rate**: over any run between two readings of a monotonic
clock that does not go back, the rows of a table are asked for five times at most for every period
begun, however many requests there are. -/
theorem queries_le (dateNTime : ℤ → List UInt8) {kind : TableKind} {created : Bool} {a : Agent}
    (ha : Agent.init created = some a) {requests : List AgentRequest} {first last : ℤ}
    (hclocks : (first :: (kind.clocks requests ++ [last])).Pairwise (· ≤ ·)) :
    (kind.queries (after (agentStep dateNTime) a requests).plugin : ℤ) ≤
      5 * ((last - first) / kind.code.minLoadFreq + 1) := by
  have hinit : LoadsThrottled kind first first (kind.table a, a.plugin) := by
    cases created with
    | false => cases ha
    | true =>
      obtain rfl := Option.some.inj ha
      exact ⟨le_rfl, 0, Or.inl rfl, by cases kind <;> decide⟩
  obtain ⟨hle, n, hn, hqueries⟩ := (loadsThrottled_invariant kind first).after dateNTime hinit
    (fun _ _ _ _ => ⟨trivial, trivial⟩) hclocks
  have hbound := hn.le kind.minLoadFreq_pos hle
  have hfive : kind.queries (after (agentStep dateNTime) a requests).plugin ≤ 5 * n := hqueries
  omega

/-- Three requests within a second, while every query fails. -/
theorem queries_le_unreachable :
    (TableKind.activeAlarms.queries (after (agentStep fun _ => [])
        ⟨fmSnmpUtilCreateSession true .init, Table.init, Table.init⟩
        (List.replicate 3 unreachableDatabase)).plugin : ℤ) ≤
      5 * ((1 - 1) / TableKind.activeAlarms.code.minLoadFreq + 1) :=
  @queries_le (fun _ => []) .activeAlarms true _ rfl
    (List.replicate 3 unreachableDatabase) 1 1 (by decide)

end StxSnmp.FmAgent
