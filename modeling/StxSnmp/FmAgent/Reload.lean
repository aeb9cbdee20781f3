import StxSnmp.FmAgent.Walk

/-!
# Loads that fail

A load frees the old list before it asks the database, and asks five times; when every attempt
fails it returns with the list empty. The load counts as one, so that the requests of the next
second or two skip theirs and find the empty list, while the count of the rows is kept.

## Main results

* `queryRows_eq_none_iff`: a query fails iff each of its attempts does
* `failedReload_empties`: what a failed load leaves
* `failedReload_loses_row`: a row loaded, and lost by a failed load
-/

namespace StxSnmp.FmAgent

open Transducer

/-- A query fails exactly when each of its attempts does. -/
theorem queryRows_eq_none_iff (c : TableCode) (attempts : ℕ → Attempt) (n i : ℕ) (p : Plugin) :
    (queryRows c attempts n i p).1 = none ↔
      ∀ j, i ≤ j → j < i + n → ∃ created, attempts j = .failed created := by
  induction n generalizing i p with
  | zero => exact iff_of_true rfl fun j hle hlt => by omega
  | succ n ih =>
    rw [queryRows]
    cases hattempt : attempts i with
    | obtained alarms =>
      refine iff_of_false (by simp) ?_
      intro h
      obtain ⟨created, hfailed⟩ := h i le_rfl (by omega)
      rw [hattempt] at hfailed
      cases hfailed
    | failed created =>
      -- the attempts left are those after this one
      simp only [ih]
      constructor
      · intro h j hle hlt
        rcases hle.eq_or_lt with rfl | hlt'
        · exact ⟨created, hattempt⟩
        · exact h j hlt' (by omega)
      · intro h j hle hlt
        exact h j (by omega) (by omega)

/-- **A load that is due and fails empties the list**, whatever rows it held: the cursor is null,
and but for the load time and the index the statics are as before, the count among them. -/
theorem failedReload_empties (kind : TableKind) {env : ScanEnv} {t : Table} (p : Plugin)
    (hdue : t.lastLoad + kind.code.minLoadFreq ≤ env.clock)
    (hfailed : ∀ i < retryCount, ∃ created, env.attempts i = .failed created) :
    (scanInit kind.code env (t, p)).1 =
      { t with saveIndex := 0, lastLoad := env.clock, alarmList := [], alarmaddr := [] } := by
  have hnone : (queryRows kind.code env.attempts retryCount 0 p).1 = none :=
    (queryRows_eq_none_iff _ _ _ _ _).mpr fun j _ hlt => hfailed j (by omega)
  obtain ⟨hskip, -⟩ | ⟨-, p', -, hload⟩ | ⟨-, alarms, p', hquery, -⟩ :=
    scanInit_cases (c := kind.code) env t p
  · exact absurd hdue (Int.not_le.mpr hskip)
  · rw [hload]
  · rw [hquery] at hnone
    cases hnone

/-- A database outage: no query succeeds, and no session is created. -/
def outage (clock : ℤ) : ScanEnv := ⟨clock, fun _ => .failed false, fun _ => true⟩

/-- The event log with one event, two seconds after its load. -/
theorem failedReload_empties_event :
    (scanInit eventLogs (outage 3)
      ({ Table.init with lastLoad := 1, alarmList := [default] }, Plugin.init)).1 =
      { Table.init with lastLoad := 3 } :=
  failedReload_empties .eventLogs Plugin.init (by decide) fun _ _ => ⟨false, rfl⟩

/-- A reachable state with an alarm in the list, and an outage: the list is empty, and the count
still says one. -/
theorem failedReload_loses_row :
    ∃ a₀, Agent.init true = some a₀ ∧
      let a := after (agentStep fun _ => []) a₀
        [.alarm (.steady 100 1 [default]) (.get severityColumn 1 0 0)]
      let t := (scanInit activeAlarms (outage 3) (a.alarms, a.plugin)).1
      a.alarms.alarmList = [default] ∧ t.alarmList = [] ∧ t.alarmaddr = [] ∧ t.count = 1 :=
  ⟨_, rfl, by decide +kernel⟩

end StxSnmp.FmAgent
