import StxSnmp.FmAgent.Walk

/-!
# The two tables do not disturb each other

The tables share the database session, whose handle each load passes and each failed query renews.
Nothing else passes between them: what a table answers, and what it keeps, depends on the requests
to it and what they meet, and not on the requests to the other table or on what the session has
been through.

## Main definitions

* `TableKind.call?`: the requests to a table
* `tableStep`: a table on its own

## Main results

* `varTable_congr_plugin`: a request is served from the table alone
* `table_component`: a table is a component of the sub-agent
* `tables_independent`: two runs that agree on the requests to a table agree on its replies
-/

namespace StxSnmp.FmAgent

open Transducer

/-! ## The session does not matter -/

section Plugin

variable {c : TableCode} {t : Table} (p p' : Plugin)

theorem queryRows_congr_plugin (attempts : ℕ → Attempt) (n i : ℕ) :
    (queryRows c attempts n i p).1 = (queryRows c attempts n i p').1 := by
  induction n generalizing i p p' with
  | zero => rfl
  | succ n ih =>
    rw [queryRows, queryRows]
    cases attempts i with
    | obtained alarms => rfl
    | failed created => exact ih _ _ (i + 1)

theorem scanInit_congr_plugin (env : ScanEnv) :
    (scanInit c env (t, p)).1 = (scanInit c env (t, p')).1 := by
  have hquery := queryRows_congr_plugin (c := c) p p' env.attempts retryCount 0
  simp only [scanInit]
  split_ifs
  · rfl
  · rcases hp : queryRows c env.attempts retryCount 0 p with ⟨rows, q⟩
    rcases hp' : queryRows c env.attempts retryCount 0 p' with ⟨rows', q'⟩
    rw [hp, hp'] at hquery
    obtain rfl : rows = rows' := hquery
    cases rows <;> rfl

theorem getCount_congr_plugin (timeNow : ℤ) (env : ScanEnv) :
    (getCount c timeNow env (t, p)).1 = (getCount c timeNow env (t, p')).1 ∧
      (getCount c timeNow env (t, p)).2.1 = (getCount c timeNow env (t, p')).2.1 := by
  have hscan := scanInit_congr_plugin (c := c) (t := { t with scanTime := timeNow }) p p' env
  simp only [getCount]
  split_ifs
  · exact ⟨by rw [hscan], by rw [hscan]⟩
  · exact ⟨rfl, rfl⟩

theorem scanByIndex_congr_plugin (index i : ℤ) (name : List UInt8) (aalm : AlarmData)
    (env : ScanEnv) :
    (scanByIndex c index i name aalm env (t, p)).1 =
        (scanByIndex c index i name aalm env (t, p')).1 ∧
      (scanByIndex c index i name aalm env (t, p)).2.1 =
        (scanByIndex c index i name aalm env (t, p')).2.1 := by
  have hscan := scanInit_congr_plugin (c := c) (t := t) p p' env
  simp only [scanByIndex]
  exact ⟨by rw [hscan], by rw [hscan]⟩

/-- A request is served from the table alone. -/
theorem varTable_congr_plugin (entryValue : ℕ → ℤ → List UInt8 → AlarmData → Option Value)
    (env : RequestEnv) (r : Request) :
    (varTable c entryValue env r (t, p)).1.1 = (varTable c entryValue env r (t, p')).1.1 ∧
      (varTable c entryValue env r (t, p)).2 = (varTable c entryValue env r (t, p')).2 := by
  obtain ⟨hcount, htable⟩ := getCount_congr_plugin (c := c) (t := t) p p' env.timeNow env.countScan
  rcases hget : getCount c env.timeNow env.countScan (t, p) with ⟨count, t₁, q⟩
  rcases hget' : getCount c env.timeNow env.countScan (t, p') with ⟨count', t₁', q'⟩
  rw [hget, hget'] at hcount htable
  obtain rfl : count = count' := hcount
  obtain rfl : t₁ = t₁' := htable
  obtain hsearch | ⟨index, -, -, hsearch⟩ := headerEntry_cases env.oids count r
  · rw [varTable_of_notFound hget hsearch, varTable_of_notFound hget' hsearch]
    exact ⟨rfl, rfl⟩
  · -- the lookup loads with the session the count left
    obtain ⟨hfound, hlist⟩ := scanByIndex_congr_plugin (c := c) (t := t₁) q q' index env.i t₁.name
      t₁.alrm env.indexScan
    rcases hscan : scanByIndex c index env.i t₁.name t₁.alrm env.indexScan (t₁, q) with
      ⟨⟨res, name, alrm⟩, t₂, q₂⟩
    rcases hscan' : scanByIndex c index env.i t₁.name t₁.alrm env.indexScan (t₁, q') with
      ⟨⟨res', name', alrm'⟩, t₂', q₂'⟩
    rw [hscan, hscan'] at hfound hlist
    obtain ⟨rfl, rfl, rfl⟩ : res = res' ∧ name = name' ∧ alrm = alrm' := by simpa using hfound
    obtain rfl : t₂ = t₂' := hlist
    rw [varTable_eq_of_found hget hsearch hscan, varTable_eq_of_found hget' hsearch hscan']
    exact ⟨rfl, rfl⟩

end Plugin

/-! ## A table on its own -/

/-- A request to the table, with what it meets; none for a request to the other one. -/
def TableKind.call? : TableKind → AgentRequest → Option (RequestEnv × Request)
  | .activeAlarms, .alarm env r => some (env, r)
  | .eventLogs, .event env r => some (env, r)
  | _, _ => none

theorem TableKind.call?_request (kind : TableKind) (env : RequestEnv) (r : Request) :
    kind.call? (kind.request env r) = some (env, r) := by
  cases kind <;> rfl

variable (dateNTime : ℤ → List UInt8)

/-- A table on its own, with a session that is not renewed. -/
def tableStep (kind : TableKind) (t : Table) (call : RequestEnv × Request) : Table × Response :=
  let out := varTable kind.code (kind.entryValue dateNTime) call.1 call.2 (t, Plugin.init)
  (out.1.1, out.2)

/-- A table is a component of the sub-agent. -/
theorem table_component (kind : TableKind) :
    Component (agentStep dateNTime) (tableStep dateNTime kind) kind.table kind.call? := by
  constructor
  · intro a req call hcall
    obtain ⟨env, r⟩ := call
    obtain rfl : req = kind.request env r := by
      cases kind <;> cases req <;> cases hcall <;> rfl
    obtain ⟨htable, hreply⟩ := kind.agentStep_request dateNTime a env r
    obtain ⟨hsame, hanswer⟩ := varTable_congr_plugin (c := kind.code) (t := kind.table a) a.plugin
      Plugin.init (kind.entryValue dateNTime) env r
    exact ⟨htable.trans hsame, hreply.trans hanswer⟩
  · intro a req hcall
    obtain ⟨env, r, rfl⟩ | hother := kind.request_cases dateNTime req
    · cases kind <;> cases hcall
    · exact hother a

/-- **The tables are independent**: two runs that agree on a table before them and on the requests
to it, with what these meet, agree on its replies and on the table after them, however many
requests to the other table come between and whatever they do to the session. -/
theorem tables_independent (kind : TableKind) {a a' : Agent}
    {requests requests' : List AgentRequest} (htable : kind.table a = kind.table a')
    (hrequests : requests.filterMap kind.call? = requests'.filterMap kind.call?) :
    answers kind.call? requests (outputs (agentStep dateNTime) a requests) =
        answers kind.call? requests' (outputs (agentStep dateNTime) a' requests') ∧
      kind.table (after (agentStep dateNTime) a requests) =
        kind.table (after (agentStep dateNTime) a' requests') := by
  have h := table_component dateNTime kind
  constructor
  · rw [h.answers, h.answers, htable, hrequests]
  · rw [h.after, h.after, htable, hrequests]

/-- An alarm request answers the same with an event request before it during which the session is
lost. -/
theorem tables_independent_lost_session :
    let a : Agent := ⟨fmSnmpUtilCreateSession true .init, Table.init, Table.init⟩
    let request : AgentRequest := .alarm (.steady 100 1 [default]) (.get severityColumn 1 0 0)
    let lost : AgentRequest := .event ⟨100, ⟨2, fun _ => .failed false, fun _ => true⟩,
      ⟨2, fun _ => .failed false, fun _ => true⟩, 0, .lexicographic⟩ (.get severityColumn 1 0 0)
    answers TableKind.activeAlarms.call? [lost, request]
        (outputs (agentStep fun _ => []) a [lost, request]) =
      answers TableKind.activeAlarms.call? [request]
        (outputs (agentStep fun _ => []) a [request]) ∧
      (after (agentStep fun _ => []) a [lost, request]).alarms =
        (after (agentStep fun _ => []) a [request]).alarms :=
  tables_independent (fun _ => []) .activeAlarms rfl rfl

end StxSnmp.FmAgent
