import StxSnmp.FmAgent.CountAge
import StxSnmp.FmAgent.Independence
import StxSnmp.FmAgent.SessionLife

/-!
# Invariants of the scans of a table

Every request scans its table once or twice, each scan at a reading of the monotonic clock. What a
scan keeps, and what depends on the list, its load and the queries made only, holds after any run.

## Main definitions

* `TableKind.queries`: how often the database was asked for the rows of a table
* `TableKind.clocks`: the readings of the monotonic clock that the scans of a run make
* `ScanInvariant kind Q P`: a scan with `Q` keeps `P`, at its reading of the clock

## Main results

* `queries_other`: a request to the other table asks nothing of this one
* `ScanInvariant.after`: what scans keep holds after any run
-/

namespace StxSnmp.FmAgent

open Transducer

namespace TableKind

/-- The call that asks for the rows of the table. -/
def isQuery : TableKind → FmCall → Bool
  | activeAlarms, .getAllAlarms _ => true
  | eventLogs, .getAllEventLogs _ => true
  | _, _ => false

def queries (kind : TableKind) (p : Plugin) : ℕ := p.calls.countP kind.isQuery

/-- The readings of the monotonic clock by the scans of the table, in order; where the count is
kept its scan is not made, and the reading is any. -/
def clocks (kind : TableKind) (requests : List AgentRequest) : List ℤ :=
  requests.flatMap fun req =>
    match kind.requestEnv req with
    | none => []
    | some env => [env.countScan.clock, env.indexScan.clock]

theorem clocks_of_other {kind : TableKind} {req : AgentRequest} (h : kind.requestEnv req = none)
    (requests : List AgentRequest) : kind.clocks (req :: requests) = kind.clocks requests := by
  simp [clocks, h]

theorem clocks_of_request {kind : TableKind} {req : AgentRequest} {env : RequestEnv}
    (h : kind.requestEnv req = some env) (requests : List AgentRequest) :
    kind.clocks (req :: requests) =
      env.countScan.clock :: env.indexScan.clock :: kind.clocks requests := by
  simp [clocks, h]

theorem minLoadFreq_pos (kind : TableKind) : 0 < kind.code.minLoadFreq := by
  cases kind <;> decide

theorem requestEnv_request (kind : TableKind) (env : RequestEnv) (r : Request) :
    kind.requestEnv (kind.request env r) = some env := by
  cases kind <;> rfl

/-- The readings in order, up to a request, in it and after it. -/
theorem clocks_at_request {kind : TableKind} {before rest : List AgentRequest} {env : RequestEnv}
    {r : Request} {now : ℤ}
    (h : (now :: kind.clocks (before ++ kind.request env r :: rest)).Pairwise (· ≤ ·)) :
    (now :: (kind.clocks before ++ [env.countScan.clock])).Pairwise (· ≤ ·) ∧
      env.countScan.clock ≤ env.indexScan.clock ∧
      (env.indexScan.clock :: kind.clocks rest).Pairwise (· ≤ ·) := by
  have hsplit : kind.clocks (before ++ kind.request env r :: rest) =
      kind.clocks before ++ env.countScan.clock :: env.indexScan.clock :: kind.clocks rest := by
    rw [← clocks_of_request (kind.requestEnv_request env r) rest]
    exact List.flatMap_append
  rw [hsplit] at h
  have hfirst : [env.countScan.clock].Sublist
      (env.countScan.clock :: env.indexScan.clock :: kind.clocks rest) :=
    List.singleton_sublist.mpr List.mem_cons_self
  refine ⟨h.sublist ((hfirst.append_left _).cons_cons now), ?_⟩
  obtain ⟨-, hin, -⟩ := List.pairwise_append.mp (List.pairwise_cons.mp h).2
  obtain ⟨hle, hafter⟩ := List.pairwise_cons.mp hin
  exact ⟨hle _ List.mem_cons_self, hafter⟩

theorem queries_call (kind : TableKind) (p : Plugin) (call : FmCall) :
    kind.queries (p.call call) = kind.queries p + if kind.isQuery call then 1 else 0 := by
  simp [queries, List.countP_append, List.countP_singleton]

theorem queries_renew (kind : TableKind) (created : Bool) (p : Plugin) :
    kind.queries (renewAlarmSession created p) = kind.queries p := by
  have hdestroy : kind.queries (fmSnmpUtilDestroySession p.almHandle p) = kind.queries p := by
    rw [fmSnmpUtilDestroySession, queries_call]
    cases kind <;> rfl
  rw [← hdestroy]
  cases created with
  | true =>
    refine (queries_call kind _ (.createSession (some p.nextHandle))).trans ?_
    cases kind <;> rfl
  | false =>
    refine (queries_call kind _ (.createSession none)).trans ?_
    cases kind <;> rfl

/-- A load of one table does not ask for the rows of the other. -/
theorem isQuery_getAll {kind kind' : TableKind} (h : kind' ≠ kind) (handle : Option ℕ) :
    kind.isQuery (kind'.code.getAll handle) = false := by
  cases kind <;> cases kind' <;> first | rfl | exact absurd rfl h

end TableKind

/-- A request to the other table asks nothing of this one. -/
theorem queries_other (dateNTime : ℤ → List UInt8) {kind : TableKind} {req : AgentRequest}
    (h : kind.requestEnv req = none) (a : Agent) :
    kind.table (agentStep dateNTime a req).1 = kind.table a ∧
      kind.queries (agentStep dateNTime a req).1.plugin = kind.queries a.plugin := by
  have hcall (kind' : TableKind) (hne : kind' ≠ kind) (p : Plugin)
      (hp : kind.queries p = kind.queries a.plugin) :
      kind.queries (p.call (kind'.code.getAll (getAlarmSession p))) = kind.queries a.plugin := by
    rw [kind.queries_call, TableKind.isQuery_getAll hne, hp]
    rfl
  have hrenew (created : Bool) (p : Plugin) (hp : kind.queries p = kind.queries a.plugin) :
      kind.queries (renewAlarmSession created p) = kind.queries a.plugin := by
    rw [kind.queries_renew, hp]
  cases req with
  | alarm env r =>
    cases kind with
    | activeAlarms => cases h
    | eventLogs =>
      refine ⟨rfl, varTable_keeps (P := fun p => TableKind.eventLogs.queries p = _)
        (hcall .activeAlarms (by decide)) hrenew _ env r (s := (a.alarms, a.plugin)) rfl⟩
  | event env r =>
    cases kind with
    | eventLogs => cases h
    | activeAlarms =>
      refine ⟨rfl, varTable_keeps (P := fun p => TableKind.activeAlarms.queries p = _)
        (hcall .eventLogs (by decide)) hrenew _ env r (s := (a.events, a.plugin)) rfl⟩

/-- The rows of a load are what some attempt obtained. -/
theorem queryRows_eq_some {c : TableCode} {attempts : ℕ → Attempt} {n i : ℕ} {p : Plugin}
    {alarms : List AlarmData} (h : (queryRows c attempts n i p).1 = some alarms) :
    ∃ j, attempts j = .obtained alarms := by
  induction n generalizing i p with
  | zero => cases h
  | succ n ih =>
    rw [queryRows] at h
    cases hattempt : attempts i with
    | obtained alarms' =>
      simp only [hattempt] at h
      exact ⟨i, Option.some.inj h ▸ hattempt⟩
    | failed created =>
      simp only [hattempt] at h
      exact ih h

/-! ## The rule -/

/-- Of a table and the FM calls so far, `P` holds at a reading of the clock: later readings and the
scans with `Q` keep it, and so does all that leaves the list, its load and the queries alone. -/
structure ScanInvariant (kind : TableKind) (Q : ScanEnv → Prop) (P : ℤ → Table × Plugin → Prop) :
    Prop where
  later : ∀ {now now' s}, P now s → now ≤ now' → P now' s
  scan : ∀ {now env s}, P now s → Q env → now ≤ env.clock →
    P env.clock (scanInit kind.code env s)
  congr : ∀ {now s s'}, P now s → s'.1.alarmList = s.1.alarmList →
    s'.1.lastLoad = s.1.lastLoad → kind.queries s'.2 = kind.queries s.2 → P now s'

/-- The scans of a request to the table are with `Q`. -/
def TableKind.ScansWith (kind : TableKind) (Q : ScanEnv → Prop) (req : AgentRequest) : Prop :=
  ∀ env, kind.requestEnv req = some env → Q env.countScan ∧ Q env.indexScan

/-- So are those of a request the table takes. -/
theorem TableKind.ScansWith.of_call? {kind : TableKind} {Q : ScanEnv → Prop} {req : AgentRequest}
    (h : kind.ScansWith Q req) {call : RequestEnv × Request} (hcall : kind.call? req = some call) :
    Q call.1.countScan ∧ Q call.1.indexScan := by
  refine h call.1 ?_
  cases kind <;> cases req <;> cases hcall <;> rfl

namespace ScanInvariant

variable {kind : TableKind} {Q : ScanEnv → Prop} {P : ℤ → Table × Plugin → Prop} {now : ℤ}
  {s : Table × Plugin} (h : ScanInvariant kind Q P)

include h

theorem getCount (hP : P now s) {env : ScanEnv} (timeNow : ℤ) (hQ : Q env)
    (hnow : now ≤ env.clock) : P env.clock (getCount kind.code timeNow env s).2 := by
  obtain ⟨t, p⟩ := s
  by_cases hdue : RecountDue timeNow t
  · have hscan : P env.clock (scanInit kind.code env ({ t with scanTime := timeNow }, p)) :=
      h.scan (h.congr hP rfl rfl rfl) hQ hnow
    rcases hload : scanInit kind.code env ({ t with scanTime := timeNow }, p) with ⟨t', p'⟩
    obtain ⟨u, hu⟩ := getCount_recount hdue hload
    rw [hload] at hscan
    rw [hu]
    exact h.congr hscan rfl rfl rfl
  · rw [getCount_cached env hdue]
    exact h.later hP hnow

/-- A request scans twice at most. -/
theorem varTable (hP : P now s)
    (entryValue : ℕ → ℤ → List UInt8 → AlarmData → Option Value) {env : RequestEnv} (r : Request)
    (hQ : Q env.countScan ∧ Q env.indexScan) (hnow : now ≤ env.countScan.clock)
    (hclock : env.countScan.clock ≤ env.indexScan.clock) :
    P env.indexScan.clock (varTable kind.code entryValue env r s).1 := by
  have hcount := h.getCount hP env.timeNow hQ.1 hnow
  rcases hget : FmAgent.getCount kind.code env.timeNow env.countScan s with ⟨count, s₁⟩
  rw [hget] at hcount
  obtain hsearch | ⟨index, -, -, hsearch⟩ := headerEntry_cases env.oids count r
  · rw [varTable_of_notFound hget hsearch]
    exact h.later hcount hclock
  · obtain ⟨-, hcache, hplugin⟩ := varTable_of_found entryValue hget hsearch
    refine h.congr (h.scan hcount hQ.2 hclock) hcache.alarmList hcache.lastLoad ?_
    rw [hplugin]

variable (dateNTime : ℤ → List UInt8)

theorem step {a : Agent} {req : AgentRequest} {env : RequestEnv}
    (hP : P now (kind.table a, a.plugin)) (hreq : kind.requestEnv req = some env)
    (hQ : Q env.countScan ∧ Q env.indexScan) (hnow : now ≤ env.countScan.clock)
    (hclock : env.countScan.clock ≤ env.indexScan.clock) :
    P env.indexScan.clock
      (kind.table (agentStep dateNTime a req).1, (agentStep dateNTime a req).1.plugin) := by
  cases kind <;> cases req <;> first
    | cases hreq; exact h.varTable hP _ _ hQ hnow hclock
    | cases hreq

/-- What the scans of a table keep holds after any run, at a reading past all of the run. -/
theorem after {a : Agent} (hP : P now (kind.table a, a.plugin)) {requests : List AgentRequest}
    (hQ : ∀ req ∈ requests, kind.ScansWith Q req) {last : ℤ}
    (hclocks : (now :: (kind.clocks requests ++ [last])).Pairwise (· ≤ ·)) :
    P last (kind.table (after (agentStep dateNTime) a requests),
      (after (agentStep dateNTime) a requests).plugin) := by
  induction requests generalizing a now with
  | nil => exact h.later hP ((List.pairwise_cons.mp hclocks).1 last (by simp))
  | cons req requests ih =>
    obtain ⟨hfirst, hrest⟩ := List.forall_mem_cons.mp hQ
    rw [after_cons]
    cases henv : kind.requestEnv req with
    | none =>
      obtain ⟨htable, hqueries⟩ := queries_other dateNTime henv a
      rw [TableKind.clocks_of_other henv] at hclocks
      exact ih (h.congr hP (congrArg _ htable) (congrArg _ htable) hqueries) hrest hclocks
    | some env =>
      rw [TableKind.clocks_of_request henv, List.cons_append, List.cons_append] at hclocks
      -- the readings of the request come first, and in order
      obtain ⟨hnow, hclocks⟩ := List.pairwise_cons.mp hclocks
      obtain ⟨hcount, hclocks⟩ := List.pairwise_cons.mp hclocks
      exact ih (h.step dateNTime hP henv (hfirst env henv) (hnow _ List.mem_cons_self)
        (hcount _ List.mem_cons_self)) hrest hclocks

end ScanInvariant

end StxSnmp.FmAgent
