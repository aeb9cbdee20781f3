import StxSnmp.FmAgent.RowCache

/-!
# Walking a steady table

A walk feeds each returned name back into a non-exact request on one column. While every load
obtains the same rows, the walk visits them in order and ends, whatever is requested between
its calls.

## Main definitions

* `TableKind`: the two tables, with what the agent keeps and answers for each
* `ScanIndexInRange`: the index of a scan is an `int`
* `ObtainsRows`, `HoldsRows`: a load that obtains `rows`, and a table that has loaded no others
* `WalkCall`, `walk`: the calls of a walk, and its replies

## Main results

* `scanIndex_inRange`: no run overflows the index of a scan
* `TableKind.agentStep_holdsRows`: requests during which the loads are steady keep the rows
* `varTable_next`: a non-exact request answers the next row
* `walk_complete`: the replies of a walk are all the rows in order, then none
-/

namespace StxSnmp.FmAgent

open Transducer MachineInt

/-! ## The two tables -/

/-- The tables of the sub-agent. -/
inductive TableKind where
  | activeAlarms
  | eventLogs
  deriving DecidableEq, Repr

namespace TableKind

def code : TableKind → TableCode
  | activeAlarms => FmAgent.activeAlarms
  | eventLogs => FmAgent.eventLogs

def columns : TableKind → List Variable
  | activeAlarms => alarmVariables
  | eventLogs => eventLogVariables

def request : TableKind → RequestEnv → Request → AgentRequest
  | activeAlarms => .alarm
  | eventLogs => .event

/-- The statics of the table. -/
def table : TableKind → Agent → Table
  | activeAlarms, a => a.alarms
  | eventLogs, a => a.events

variable (dateNTime : ℤ → List UInt8)

def entryValue : TableKind → ℕ → ℤ → List UInt8 → AlarmData → Option Value
  | activeAlarms => alarmValue dateNTime
  | eventLogs => eventValue dateNTime

/-- The conceptual rows of the table. -/
def row : TableKind → ℕ → AlarmData → List Value
  | activeAlarms => alarmRow dateNTime
  | eventLogs => eventRow dateNTime

theorem serves (kind : TableKind) :
    Serves kind.columns (kind.entryValue dateNTime) (kind.row dateNTime) := by
  cases kind with
  | activeAlarms => exact alarmValue_serves dateNTime
  | eventLogs => exact eventValue_serves dateNTime

/-- The initialisation leaves the statics of a table as they are. -/
theorem table_init (kind : TableKind) {created : Bool} {a : Agent}
    (ha : Agent.init created = some a) : kind.table a = Table.init := by
  cases created with
  | false => cases ha
  | true =>
    obtain rfl := Option.some.inj ha
    cases kind <;> rfl

/-- A request to a table is served from its statics and the session. -/
theorem agentStep_request (kind : TableKind) (a : Agent) (env : RequestEnv) (r : Request) :
    let out := varTable kind.code (kind.entryValue dateNTime) env r (kind.table a, a.plugin)
    kind.table (agentStep dateNTime a (kind.request env r)).1 = out.1.1 ∧
      (agentStep dateNTime a (kind.request env r)).2 = out.2 := by
  cases kind <;> exact ⟨rfl, rfl⟩

/-- Every request is to one of the tables, and leaves the statics of the other. -/
theorem request_cases (kind : TableKind) (req : AgentRequest) :
    (∃ env r, req = kind.request env r) ∨
      ∀ a, kind.table (agentStep dateNTime a req).1 = kind.table a := by
  cases kind <;> cases req with
  | alarm env r => first | exact Or.inl ⟨env, r, rfl⟩ | exact Or.inr fun _ => rfl
  | event env r => first | exact Or.inl ⟨env, r, rfl⟩ | exact Or.inr fun _ => rfl

end TableKind

/-! ## The index of a scan -/

section ScanIndex

variable {c : TableCode}

/-- `saveIndex` has the value of an `int`, and an increment reaches no more than that. -/
def ScanIndexInRange (t : Table) : Prop := 0 ≤ t.saveIndex ∧ t.saveIndex < 2147483648

theorem scanInit_indexInRange (c : TableCode) (env : ScanEnv) (s : Table × Plugin) :
    ScanIndexInRange (scanInit c env s).1 := by
  rw [ScanIndexInRange, (scanInit_cursor env s).2]
  decide

/-- Counting moves no index, and a lookup none beyond the count. -/
theorem varTable_indexInRange (entryValue : ℕ → ℤ → List UInt8 → AlarmData → Option Value)
    (env : RequestEnv) (r : Request) {s : Table × Plugin} (h : ScanIndexInRange s.1) :
    ScanIndexInRange (varTable c entryValue env r s).1.1 := by
  obtain ⟨t, p⟩ := s
  obtain ⟨s₁, hget, -⟩ := getCount_countInForce c env (t, p)
  obtain hsearch | ⟨index, hpos, hle, hsearch⟩ :=
    headerEntry_cases env.oids (cInt (countInForce c env (t, p))) r
  · rw [varTable_of_notFound hget hsearch]
    by_cases hdue : RecountDue env.timeNow t
    · rcases hload : scanInit c env.countScan ({ t with scanTime := env.timeNow }, p) with ⟨t', p'⟩
      obtain ⟨u, hu⟩ := getCount_recount hdue hload
      have hrange := scanInit_indexInRange c env.countScan ({ t with scanTime := env.timeNow }, p)
      rw [hload] at hrange
      obtain rfl : s₁ = _ := (congrArg Prod.snd (hget.symm.trans hu))
      exact hrange
    · obtain rfl : s₁ = _ := congrArg Prod.snd (hget.symm.trans (getCount_cached _ hdue))
      exact h
  · have hindex := scanByIndex_saveIndex c (show (0 : ℤ) < index by omega) env.i s₁.1.name s₁.1.alrm
      env.indexScan s₁
    rcases hfull : scanByIndex c index env.i s₁.1.name s₁.1.alrm env.indexScan s₁ with
      ⟨⟨res, name, alrm⟩, t', p'⟩
    rw [hfull] at hindex
    rw [varTable_eq_of_found hget hsearch hfull]
    exact ⟨hindex.1, (hindex.2.trans hle).trans_lt (cInt_lt _)⟩

end ScanIndex

/-- **No run overflows `saveIndex`**, though each row visited increments it. -/
theorem scanIndex_inRange (dateNTime : ℤ → List UInt8) {created : Bool} {a : Agent}
    (ha : Agent.init created = some a) (kind : TableKind) (requests : List AgentRequest) :
    ScanIndexInRange (kind.table (after (agentStep dateNTime) a requests)) := by
  have hkept : Preserves (agentStep dateNTime) (fun _ => True)
      fun a => ScanIndexInRange (kind.table a) := by
    intro a req _ h
    obtain ⟨env, r, rfl⟩ | hother := kind.request_cases dateNTime req
    · rw [(kind.agentStep_request dateNTime a env r).1]
      exact varTable_indexInRange _ env r h
    · rwa [hother]
  refine hkept.after (fun _ _ => trivial) ?_
  rw [kind.table_init ha]
  exact ⟨le_rfl, show (0 : ℤ) < 2147483648 by decide⟩

/-! ## Steady loads -/

section Steady

variable {c : TableCode} {rows : List AlarmData}

/-- A load late enough to reach the database, which obtains `rows` and copies them all. -/
structure ObtainsRows (c : TableCode) (rows : List AlarmData) (env : ScanEnv) : Prop where
  clock : c.minLoadFreq ≤ env.clock
  attempts : ∀ i, env.attempts i = .obtained rows
  allocated : ∀ i, env.allocated i = true

/-- No load so far, or the last one left `rows`; no count so far, or theirs. -/
structure HoldsRows (rows : List AlarmData) (t : Table) : Prop where
  list : t.alarmList = rows ∨ (t.alarmList = [] ∧ t.lastLoad = 0)
  count : t.count = 0 ∨ t.count = rows.length

theorem HoldsRows.init : HoldsRows rows Table.init :=
  ⟨Or.inr ⟨rfl, rfl⟩, Or.inl rfl⟩

theorem HoldsRows.congr {t t' : Table} (h : HoldsRows rows t) (hsame : SameCache t t') :
    HoldsRows rows t' := by
  constructor
  · rw [hsame.alarmList, hsame.lastLoad]
    exact h.list
  · rw [hsame.count]
    exact h.count

theorem loadRows_of_allocated {allocated : ℕ → Bool} {i : ℕ} {alarms : List AlarmData}
    (h : ∀ j < alarms.length, allocated (i + j) = true) : loadRows allocated i alarms = alarms := by
  induction alarms generalizing i with
  | nil => rfl
  | cons alarm alarms ih =>
    have hfirst : allocated i = true := h 0 (Nat.succ_pos _)
    have hrest : ∀ j < alarms.length, allocated (i + 1 + j) = true := by
      intro j hj
      rw [Nat.add_right_comm]
      exact h (j + 1) (Nat.succ_lt_succ hj)
    rw [loadRows, if_pos hfirst, ih hrest]

/-- After a steady load the list is `rows`. -/
theorem scanInit_obtains {env : ScanEnv} (henv : ObtainsRows c rows env) {s : Table × Plugin}
    (h : HoldsRows rows s.1) : (scanInit c env s).1.alarmList = rows := by
  obtain ⟨t, p⟩ := s
  have hquery : queryRows c env.attempts retryCount 0 p =
      (some rows, p.call (c.getAll (getAlarmSession p))) := by
    rw [retryCount, queryRows, henv.attempts]
  obtain ⟨hskip, hs⟩ | ⟨-, p', hq, -⟩ | ⟨-, alarms, p', hq, hs⟩ := scanInit_cases (c := c) env t p
  · -- a load is skipped only if there was one before, which left the rows
    have hclock := henv.clock
    rw [hs]
    rcases h.list with hlist | ⟨-, hload⟩
    · exact hlist
    · have hload : t.lastLoad = 0 := hload
      omega
  · rw [hquery] at hq
    cases hq
  · rw [hquery] at hq
    cases hq
    rw [hs]
    exact loadRows_of_allocated fun j _ => henv.allocated (0 + j)

theorem scanInit_holdsRows {env : ScanEnv} (henv : ObtainsRows c rows env) {s : Table × Plugin}
    (h : HoldsRows rows s.1) : HoldsRows rows (scanInit c env s).1 := by
  refine ⟨Or.inl (scanInit_obtains henv h), ?_⟩
  rw [(scanInit_frame env s).1]
  exact h.count

/-- A steady request counts all the rows. -/
theorem getCount_obtains (timeNow : ℤ) {env : ScanEnv} (henv : ObtainsRows c rows env)
    {s : Table × Plugin} (h : HoldsRows rows s.1) :
    ∃ s₁, getCount c timeNow env s = (cInt rows.length, s₁) ∧ HoldsRows rows s₁.1 := by
  obtain ⟨t, p⟩ := s
  by_cases hdue : RecountDue timeNow t
  · have hstart : HoldsRows rows ({ t with scanTime := timeNow } : Table) := ⟨h.list, h.count⟩
    have hlist := scanInit_obtains (s := ({ t with scanTime := timeNow }, p)) henv hstart
    rcases hload : scanInit c env ({ t with scanTime := timeNow }, p) with ⟨t', p'⟩
    obtain ⟨u, hu⟩ := getCount_recount hdue hload
    rw [hload] at hlist
    replace hlist : t'.alarmList = rows := hlist
    rw [hu, hlist]
    exact ⟨_, rfl, Or.inl rfl, Or.inr rfl⟩
  · -- a count of zero would have made a recount due
    have hcount : t.count = rows.length := h.count.resolve_left fun hzero => hdue (Or.inl hzero)
    rw [getCount_cached env hdue, hcount]
    exact ⟨_, rfl, h⟩

variable {entryValue : ℕ → ℤ → List UInt8 → AlarmData → Option Value}

/-- A steady request keeps the rows. -/
theorem varTable_holdsRows {env : RequestEnv} (hcount : ObtainsRows c rows env.countScan)
    (hindex : ObtainsRows c rows env.indexScan) (r : Request) {s : Table × Plugin}
    (h : HoldsRows rows s.1) : HoldsRows rows (varTable c entryValue env r s).1.1 := by
  obtain ⟨s₁, hget, h₁⟩ := getCount_obtains env.timeNow hcount h
  obtain hsearch | ⟨index, -, -, hsearch⟩ := headerEntry_cases env.oids (cInt rows.length) r
  · rw [varTable_of_notFound hget hsearch]
    exact h₁
  · exact (scanInit_holdsRows hindex h₁).congr (varTable_of_found entryValue hget hsearch).2.1

/-- The next row of a column, in the requests' order of names, is row `k + 1`. -/
structure NextRow (vp : Variable) (name : Oid) (k : ℕ) : Prop where
  lt : name < vp.name ++ [k + 1]
  least : ∀ j, 1 ≤ j → j < k + 1 → ¬ name < vp.name ++ [j]

theorem NextRow.start {vp : Variable} {name : Oid} (h : name < vp.name ++ [1]) :
    NextRow vp name 0 :=
  ⟨h, fun j hj hlt => by omega⟩

theorem NextRow.succ (vp : Variable) (k : ℕ) : NextRow vp (vp.name ++ [k + 1]) (k + 1) := by
  constructor
  · exact Lexicographic.append_singleton_lt_iff.mpr (Nat.lt_succ_self (k + 1))
  · intro j _ hlt
    rw [Lexicographic.append_singleton_lt_iff]
    omega

/-- A non-exact request on a steady table answers the row after the name, or none after the
last. -/
theorem varTable_next {vars : List Variable} {rowOf : ℕ → AlarmData → List Value}
    (hserves : Serves vars entryValue rowOf) {r : Request} (hvp : r.vp ∈ vars)
    (hexact : r.exact = false) {k : ℕ} (hname : NextRow r.vp r.name k)
    (hbound : rows.length < 2147483647) {env : RequestEnv}
    (hcount : ObtainsRows c rows env.countScan) (hindex : ObtainsRows c rows env.indexScan)
    {s : Table × Plugin} (h : HoldsRows rows s.1) :
    (∀ row, rows[k]? = some row →
      (varTable c entryValue env r s).2.name = r.vp.name ++ [k + 1] ∧
        (varTable c entryValue env r s).2.value = (rowOf (k + 1) row)[r.vp.column - 1]?) ∧
    (rows.length ≤ k → (varTable c entryValue env r s).2.name = r.name ∧
      (varTable c entryValue env r s).2.value = none) := by
  obtain ⟨s₁, hget, h₁⟩ := getCount_obtains env.timeNow hcount h
  have hint : cInt rows.length = rows.length := cInt_natCast (by omega)
  -- the count is the number of rows, and the next row is the first index after the name
  have hsearch : headerEntry env.oids (cInt rows.length) r = _ :=
    headerEntry_next hexact (Nat.succ_pos k) hname.lt hname.least
  constructor
  · intro row hrow
    have hk : k < rows.length := (List.getElem?_eq_some_iff.mp hrow).1
    rw [if_pos (by omega)] at hsearch
    have hlist : (scanInit c env.indexScan s₁).1.alarmList[k]? = some row := by
      rw [scanInit_obtains hindex h₁]
      exact hrow
    refine ⟨(varTable_of_found entryValue hget hsearch).1, ?_⟩
    rw [varTable_value hget hsearch hlist]
    exact hserves.field r.vp hvp (k + 1) row
  · intro hk
    rw [if_neg (by omega)] at hsearch
    rw [varTable_of_notFound hget hsearch]
    exact ⟨rfl, rfl⟩

end Steady

/-! ## Walks -/

section Walk

variable (dateNTime : ℤ → List UInt8)

/-- During the request, every load of the table obtains `rows`. -/
def SteadyRequest (kind : TableKind) (rows : List AlarmData) (req : AgentRequest) : Prop :=
  ∀ env r, req = kind.request env r →
    ObtainsRows kind.code rows env.countScan ∧ ObtainsRows kind.code rows env.indexScan

theorem TableKind.agentStep_holdsRows (kind : TableKind) (rows : List AlarmData) :
    Preserves (agentStep dateNTime) (SteadyRequest kind rows)
      (fun a => HoldsRows rows (kind.table a)) := by
  intro a req hreq h
  obtain ⟨env, r, rfl⟩ | hother := kind.request_cases dateNTime req
  · obtain ⟨hcount, hindex⟩ := hreq env r rfl
    rw [(kind.agentStep_request dateNTime a env r).1]
    exact varTable_holdsRows hcount hindex r (s := (kind.table a, a.plugin)) h
  · rw [hother a]
    exact h

/-- A call of a walk: the requests served before it, what it meets, and what its variables hold
before it. -/
structure WalkCall where
  before : List AgentRequest
  env : RequestEnv
  varLen : ℕ
  writeMethod : ℕ

/-- The walk of column `vp` from `name`: each call is given the name the one before returned. -/
def walk (kind : TableKind) (vp : Variable) : Agent → Oid → List WalkCall → List Response
  | _, _, [] => []
  | a, name, call :: calls =>
    let a := after (agentStep dateNTime) a call.before
    let (a, response) := agentStep dateNTime a
      (kind.request call.env ⟨vp, name, false, call.varLen, call.writeMethod⟩)
    response :: walk kind vp a response.name calls

/-- During the call, and the requests before it, every load of the table obtains `rows`. -/
structure SteadyCall (kind : TableKind) (rows : List AlarmData) (call : WalkCall) : Prop where
  before : ∀ req ∈ call.before, SteadyRequest kind rows req
  countScan : ObtainsRows kind.code rows call.env.countScan
  indexScan : ObtainsRows kind.code rows call.env.indexScan

/-- The state and the reply after a call of a walk, and the requests before it. -/
def WalkCall.serve (call : WalkCall) (kind : TableKind) (vp : Variable) (a : Agent) (name : Oid) :
    Agent × Response :=
  agentStep dateNTime (after (agentStep dateNTime) a call.before)
    (kind.request call.env ⟨vp, name, false, call.varLen, call.writeMethod⟩)

theorem walk_cons (kind : TableKind) (vp : Variable) (a : Agent) (name : Oid) (call : WalkCall)
    (calls : List WalkCall) :
    walk dateNTime kind vp a name (call :: calls) =
      (call.serve dateNTime kind vp a name).2 ::
        walk dateNTime kind vp (call.serve dateNTime kind vp a name).1
          (call.serve dateNTime kind vp a name).2.name calls :=
  rfl

/-- One call: the rows are kept, and the reply is the next row or none. -/
theorem SteadyCall.serve {kind : TableKind} {rows : List AlarmData} {call : WalkCall}
    (hcall : SteadyCall kind rows call) {vp : Variable} (hvp : vp ∈ kind.columns)
    (hbound : rows.length < 2147483647) {k : ℕ} {name : Oid} (hname : NextRow vp name k)
    {a : Agent} (h : HoldsRows rows (kind.table a)) :
    HoldsRows rows (kind.table (call.serve dateNTime kind vp a name).1) ∧
      (∀ row, rows[k]? = some row →
        (call.serve dateNTime kind vp a name).2.name = vp.name ++ [k + 1] ∧
          (call.serve dateNTime kind vp a name).2.value =
            (kind.row dateNTime (k + 1) row)[vp.column - 1]?) ∧
      (rows.length ≤ k → (call.serve dateNTime kind vp a name).2.name = name ∧
        (call.serve dateNTime kind vp a name).2.value = none) := by
  -- the requests served in between keep the rows
  have hbefore : HoldsRows rows (kind.table (after (agentStep dateNTime) a call.before)) :=
    (kind.agentStep_holdsRows dateNTime rows).after hcall.before h
  obtain ⟨htable, hreply⟩ := kind.agentStep_request dateNTime
    (after (agentStep dateNTime) a call.before) call.env
    ⟨vp, name, false, call.varLen, call.writeMethod⟩
  constructor
  · rw [WalkCall.serve, htable]
    exact varTable_holdsRows hcall.countScan hcall.indexScan _ hbefore
  · rw [WalkCall.serve, hreply]
    exact varTable_next (r := ⟨vp, name, false, call.varLen, call.writeMethod⟩)
      (kind.serves dateNTime) hvp rfl hname hbound hcall.countScan hcall.indexScan hbefore

/-- From row `k` on, a walk answers the rows left in order, then none under the last name. -/
theorem walk_from {kind : TableKind} {rows : List AlarmData} {vp : Variable}
    (hvp : vp ∈ kind.columns) (hbound : rows.length < 2147483647) {k : ℕ} {name : Oid}
    (hname : NextRow vp name k) {rest : List AlarmData} (hrest : rows.drop k = rest)
    (hk : k + rest.length = rows.length) {calls : List WalkCall}
    (hcalls : calls.length = rest.length + 1)
    (hsteady : ∀ call ∈ calls, SteadyCall kind rows call) {a : Agent}
    (h : HoldsRows rows (kind.table a)) :
    (walk dateNTime kind vp a name calls).map (fun reply => (reply.name, reply.value)) =
      rest.mapIdx (fun j row => (vp.name ++ [k + j + 1],
        (kind.row dateNTime (k + j + 1) row)[vp.column - 1]?)) ++
      [(if rest = [] then name else vp.name ++ [rows.length], none)] := by
  -- the name between the calls is that of the last row answered
  induction rest generalizing k name calls a with
  | nil =>
    obtain ⟨call, rfl⟩ := List.length_eq_one_iff.mp hcalls
    obtain ⟨-, -, hlast⟩ :=
      (hsteady call List.mem_cons_self).serve dateNTime hvp hbound hname h
    obtain ⟨hsame, hnone⟩ := hlast (by simp at hk; omega)
    rw [walk_cons]
    simp [walk, hsame, hnone]
  | cons row rest ih =>
    obtain ⟨call, calls, rfl⟩ : ∃ call calls', calls = call :: calls' :=
      List.exists_cons_of_length_pos (by omega)
    have hrow : rows[k]? = some row := by
      rw [← List.head?_drop, hrest]
      rfl
    have hrest' : rows.drop (k + 1) = rest := by
      rw [← List.tail_drop, hrest]
      rfl
    obtain ⟨hkept, hserved, -⟩ :=
      (hsteady call List.mem_cons_self).serve dateNTime hvp hbound hname h
    obtain ⟨hnext, hvalue⟩ := hserved row hrow
    have ih := ih (hnext ▸ NextRow.succ vp k) hrest' (by simp at hk; omega)
      (by simpa using hcalls) (fun call hmem => hsteady call (List.mem_cons_of_mem _ hmem)) hkept
    have hindex : ∀ j, k + 1 + j = k + (j + 1) := fun j => by omega
    have hlast : (if rest = [] then vp.name ++ [k + 1] else vp.name ++ [rows.length]) =
        vp.name ++ [rows.length] := by
      split
      · next hnil =>
        subst hnil
        rw [← hk]
        rfl
      · rfl
    rw [walk_cons, List.map_cons, ih, hnext, hvalue, List.mapIdx_cons, List.cons_append, hlast,
      if_neg (List.cons_ne_nil row rest)]
    simp only [hindex, Nat.add_zero]

/-- **A walk over a steady table is complete and ends**: whatever is requested between its calls,
and whenever they are made, they answer the rows in order, each under its number, and the call
after the last row answers none and leaves the name. -/
theorem walk_complete {created : Bool} {a : Agent} (ha : Agent.init created = some a)
    (kind : TableKind) (rows : List AlarmData) (hbound : rows.length < 2147483647)
    {vp : Variable} (hvp : vp ∈ kind.columns) {start : Oid} (hstart : start < vp.name ++ [1])
    {calls : List WalkCall} (hcalls : calls.length = rows.length + 1)
    (hsteady : ∀ call ∈ calls, SteadyCall kind rows call) :
    (walk dateNTime kind vp a start calls).map (fun reply => (reply.name, reply.value)) =
      rows.mapIdx (fun k row => (vp.name ++ [k + 1],
        (kind.row dateNTime (k + 1) row)[vp.column - 1]?)) ++
      [(if rows = [] then start else vp.name ++ [rows.length], none)] := by
  -- before the first request nothing is loaded or counted
  have hinit : HoldsRows rows (kind.table a) := by
    cases created with
    | false => cases ha
    | true =>
      obtain rfl := Option.some.inj ha
      cases kind <;> exact HoldsRows.init
  simpa using walk_from dateNTime hvp hbound (NextRow.start hstart) rfl (Nat.zero_add _) hcalls
    hsteady hinit

end Walk

/-- A request to the event log while it is empty. -/
def emptyLogRequest (timeNow clock : ℤ) : AgentRequest :=
  .event (.steady timeNow clock []) (.get eventLogVariables[6] 1 0 0)

theorem emptyLogRequest_steady (timeNow clock : ℤ) (rows : List AlarmData) :
    SteadyRequest .activeAlarms rows (emptyLogRequest timeNow clock) :=
  fun _ _ h => nomatch h

/-- Two rows, walked with a request to the event log before each call. -/
theorem walk_complete_two_rows :
    (walk (fun _ => []) .activeAlarms severityColumn
        ⟨fmSnmpUtilCreateSession true Plugin.init, Table.init, Table.init⟩ []
        [⟨[emptyLogRequest 90 1], .steady 100 1 twoSeverities, 0, 0⟩,
          ⟨[emptyLogRequest 95 2], .steady 900 1 twoSeverities, 0, 0⟩,
          ⟨[emptyLogRequest 80 2], .steady 70 3 twoSeverities, 0, 0⟩]).map
        (fun reply => (reply.name, reply.value)) =
      [(severityColumn.name ++ [1], some (.long 3)), (severityColumn.name ++ [2], some (.long 4)),
        (severityColumn.name ++ [2], none)] := by
  refine walk_complete (fun _ => []) (show Agent.init true = some _ from rfl) .activeAlarms
    twoSeverities (by decide) (by decide) (by decide) rfl ?_
  have hsteady : ∀ wall mono timeNow clock, 1 ≤ clock → SteadyCall .activeAlarms twoSeverities
      ⟨[emptyLogRequest wall mono], .steady timeNow clock twoSeverities, 0, 0⟩ :=
    fun wall mono timeNow clock hclock =>
      ⟨List.forall_mem_singleton.mpr (emptyLogRequest_steady wall mono twoSeverities),
        ⟨hclock, fun _ => rfl, fun _ => rfl⟩, ⟨hclock, fun _ => rfl, fun _ => rfl⟩⟩
  intro call hcall
  simp only [List.mem_cons, List.not_mem_nil, or_false] at hcall
  rcases hcall with rfl | rfl | rfl <;> exact hsteady _ _ _ _ (by decide)

end StxSnmp.FmAgent
