import StxSnmp.FmAgent.Enumeration
import StxSnmp.FmAgent.Independence
import StxSnmp.FmAgent.Lookup
import StxSnmp.Library.Simulation

/-!
# A table as a cached view of the database

What the two files are for, without lists that are scanned, cursors, buffers and a session: a table
keeps the rows it obtained last, the number it counted last, and the row it answered last. A request
recounts if its count has run out, selects an instance within the count, looks at the rows again if
they have run out, and answers from them.

The code is this table, of every request in every run. That is more than how it answers when count
and rows are in step: an instance the count has and the rows have not is answered from the last of
the rows, and, if there are none, from the row answered last.

## Main definitions

* `CachedTable`: the rows and the count kept, and when they were taken
* `Finds`: what the outcomes of a load give it
* `CachedTable.Step`: the table serves a request
* `Caches t c`: the statics `t` of the code keep the table `c`

## Main results

* `scanInit_refresh`, `getCount_recount_cached`, `scanByIndex_rowAt`: one specification for each
  function of the code
* `tableStep_simulates`: a request to the code is one to the cached table
* `agent_refines_cachedTable`: so is every run of the sub-agent
-/

namespace StxSnmp.FmAgent

open Transducer MachineInt

/-! ## The cached table -/

/-- The rows obtained last and the number counted last, with the monotonic second of the load and
the second of the wall clock of the count, and the row answered last. -/
structure CachedTable where
  rows : List AlarmData
  loadedAt : ℤ
  count : ℕ
  countedAt : ℤ
  last : AlarmData
  deriving DecidableEq, Repr

/-- `rows` are the first of `alarms`, up to a failed allocation. -/
structure Copies (allocated : ℕ → Bool) (alarms rows : List AlarmData) : Prop where
  isPrefix : rows <+: alarms
  copied : ∀ k < rows.length, allocated k = true
  complete : rows.length < alarms.length → allocated rows.length = false

/-- What a load finds: the rows of the first attempt that succeeds, or nothing if none does. -/
inductive Finds (env : ScanEnv) : List AlarmData → Prop
  | failed (h : ∀ i < retryCount, ∃ created, env.attempts i = .failed created) : Finds env []
  | obtained {i : ℕ} {alarms rows : List AlarmData} (hi : i < retryCount)
      (hfailed : ∀ j < i, ∃ created, env.attempts j = .failed created)
      (hobtained : env.attempts i = .obtained alarms) (hcopies : Copies env.allocated alarms rows) :
      Finds env rows

/-- The instance a request asks for, among those of a count: the one it names, or the next one. -/
def Selects (count : ℤ) (r : Request) (o : Oid) : Prop :=
  if r.exact then o = r.name ∧ o ∈ instances count r.vp else IsLeast (instancesAfter count r) o

namespace CachedTable

def init : CachedTable := ⟨[], 0, 0, 0, default⟩

/-- The row answered for an index: beyond the rows the last one, or the one answered last. -/
def rowAt (c : CachedTable) (index : ℕ) : AlarmData :=
  c.rows.getD (index - 1) (c.rows.getLastD c.last)

/-- Rows are kept for the shortest time between two loads. -/
inductive Refresh (kind : TableKind) (env : ScanEnv) (c : CachedTable) : CachedTable → Prop
  | kept (h : env.clock < c.loadedAt + kind.code.minLoadFreq) : Refresh kind env c c
  | loaded {rows : List AlarmData} (h : c.loadedAt + kind.code.minLoadFreq ≤ env.clock)
      (hrows : Finds env rows) :
      Refresh kind env c { c with rows := rows, loadedAt := env.clock }

/-- A count is kept for a minute, unless it is zero. -/
inductive Recount (kind : TableKind) (env : RequestEnv) (c : CachedTable) : CachedTable → Prop
  | kept (hcount : c.count ≠ 0) (h : env.timeNow ≤ c.countedAt + 60) : Recount kind env c c
  | counted {c' : CachedTable} (h : c.count = 0 ∨ c.countedAt + 60 < env.timeNow)
      (hrefresh : Refresh kind env.countScan { c with countedAt := env.timeNow } c') :
      Recount kind env c { c' with count := c'.rows.length }

section Serve

variable (dateNTime : ℤ → List UInt8) (kind : TableKind)

/-- The reply to a request, once counted: its name unchanged and nothing, or an instance and the
column's field of the row for its index. -/
inductive Answer (env : RequestEnv) (r : Request) (c : CachedTable) :
    Oid × Option Value → CachedTable → Prop
  | none (h : ∀ o, ¬ Selects (cInt c.count) r o) : Answer env r c (r.name, none) c
  | some {i : ℕ} {c' : CachedTable} (h : Selects (cInt c.count) r (r.vp.name ++ [i]))
      (hrefresh : Refresh kind env.indexScan c c') :
      Answer env r c
        (r.vp.name ++ [i], (kind.row dateNTime i (c'.rowAt i))[r.vp.column - 1]?)
        { c' with last := c'.rowAt i }

/-- The table serves a request. -/
def Step (c : CachedTable) (call : RequestEnv × Request) (reply : Oid × Option Value)
    (c' : CachedTable) : Prop :=
  ∃ c₁, Recount kind call.1 c c₁ ∧ Answer dateNTime kind call.1 call.2 c₁ reply c'

end Serve

end CachedTable

/-! ## What the statics keep -/

/-- The name and the value of a reply. -/
def Response.shown (response : Response) : Oid × Option Value := (response.name, response.value)

/-- The cached table in the statics. -/
def Table.cached (t : Table) : CachedTable :=
  ⟨t.alarmList, t.lastLoad, t.count, t.scanTime, t.alrm⟩

/-- The statics keep `c`, and beside the row answered last its UUID. -/
structure Caches (t : Table) (c : CachedTable) : Prop where
  cached : t.cached = c
  name_eq : t.name = strlcpy t.alrm.uuid uuidSize

theorem Caches.init : Caches Table.init CachedTable.init := ⟨rfl, rfl⟩

/-! ## The functions of the code -/

theorem loadRows_copies (allocated : ℕ → Bool) (i : ℕ) (alarms : List AlarmData) :
    Copies (fun k => allocated (i + k)) alarms (loadRows allocated i alarms) := by
  induction alarms generalizing i with
  | nil => exact ⟨List.nil_prefix, fun k hk => absurd hk (Nat.not_lt_zero k),
      fun h => absurd h (Nat.not_lt_zero 0)⟩
  | cons alarm alarms ih =>
    have hindex (k : ℕ) : i + (k + 1) = i + 1 + k := by omega
    rw [loadRows]
    cases hfirst : allocated i with
    | false => exact ⟨List.nil_prefix, fun k hk => absurd hk (Nat.not_lt_zero k), fun _ => hfirst⟩
    | true =>
      obtain ⟨hfront, hcopied, hcomplete⟩ := ih (i + 1)
      refine ⟨List.cons_prefix_cons.mpr ⟨rfl, hfront⟩, ?_, ?_⟩
      · intro k hk
        cases k with
        | zero => exact hfirst
        | succ k =>
          rw [hindex]
          exact hcopied k (Nat.lt_of_succ_lt_succ hk)
      · intro hlt
        rw [if_pos rfl, List.length_cons, hindex]
        exact hcomplete (Nat.lt_of_succ_lt_succ hlt)

section Functions

variable (kind : TableKind) {t : Table} {p : Plugin}

/-- A load keeps the rows, or finds new ones. -/
theorem scanInit_refresh (env : ScanEnv) (t : Table) (p : Plugin) :
    t.cached.Refresh kind env (scanInit kind.code env (t, p)).1.cached := by
  obtain ⟨tries, hfailed, hresult⟩ :=
    queryRows_calls (c := kind.code) env.attempts retryCount 0 p
  simp only [Nat.zero_add] at hfailed hresult
  obtain ⟨hskip, hload⟩ | ⟨hdue, p', hquery, hload⟩ | ⟨hdue, alarms, p', hquery, hload⟩ :=
    scanInit_cases (c := kind.code) env t p
  · rw [hload]
    exact .kept hskip
  · rw [hload]
    obtain ⟨hlength, -, -⟩ | ⟨_, _, -, -, hsome, -⟩ := hresult
    · exact .loaded hdue (.failed (hlength ▸ hfailed))
    · rw [hquery] at hsome
      cases hsome
  · rw [hload]
    obtain ⟨-, hnone, -⟩ | ⟨alarms', _, hlength, hobtained, hsome, -⟩ := hresult
    · rw [hquery] at hnone
      cases hnone
    · rw [hquery] at hsome
      obtain rfl := Option.some.inj hsome
      have hcopies := loadRows_copies env.allocated 0 alarms
      simp only [Nat.zero_add] at hcopies
      exact .loaded hdue (.obtained hlength hfailed hobtained hcopies)

/-- The count is kept or taken anew; the buffers stay. -/
theorem getCount_recount_cached (env : RequestEnv) (t : Table) (p : Plugin) :
    ∃ t₁ p₁, getCount kind.code env.timeNow env.countScan (t, p) = (cInt t₁.count, (t₁, p₁)) ∧
      t.cached.Recount kind env t₁.cached ∧ t₁.alrm = t.alrm ∧ t₁.name = t.name := by
  by_cases hdue : RecountDue env.timeNow t
  · rcases hload : scanInit kind.code env.countScan ({ t with scanTime := env.timeNow }, p) with
      ⟨t', p'⟩
    have hrefresh := scanInit_refresh kind env.countScan
      { t with scanTime := env.timeNow } p
    obtain ⟨-, -, halrm, hname⟩ :=
      scanInit_frame (c := kind.code) env.countScan ({ t with scanTime := env.timeNow }, p)
    obtain ⟨u, hget⟩ := getCount_recount hdue hload
    rw [hload] at hrefresh halrm hname
    have hcounted : t.cached.Recount kind env { t'.cached with count := t'.alarmList.length } :=
      .counted (c := t.cached) hdue hrefresh
    exact ⟨{ t' with count := t'.alarmList.length, alarmaddr := [], saveUuid := u }, p', hget,
      hcounted, halrm, hname⟩
  · obtain ⟨hnonzero, hrecent⟩ := not_or.mp hdue
    exact ⟨t, p, getCount_cached _ hdue, .kept hnonzero (Int.not_lt.mp hrecent), rfl, rfl⟩

/-- A scan leaves the row of the index, its UUID beside it; beyond the list the last row, or the one
the buffers held. -/
theorem scanUntil_row {k : ℕ} {i : ℤ} {n : List UInt8} {a row : AlarmData}
    (hname : n = strlcpy a.uuid uuidSize)
    (hrow : t.alarmaddr.getD k (t.alarmaddr.getLastD a) = row) :
    ∃ j, (scanUntil (t.saveIndex + (k + 1)) ⟨some i, some n, some a⟩ t).1 =
      ⟨some j, some (strlcpy row.uuid uuidSize), some row⟩ := by
  induction hadr : t.alarmaddr generalizing i n a t k with
  | nil =>
    rw [hadr] at hrow
    obtain rfl : a = row := hrow
    rw [scanUntil_nil hadr, hname]
    exact ⟨i, rfl⟩
  | cons first next ih =>
    rw [hadr, List.getLastD_cons] at hrow
    rw [scanUntil_cons hadr]
    cases k with
    | zero =>
      obtain rfl : first = row := hrow
      rw [if_pos (by simp)]
      exact ⟨_, rfl⟩
    | succ k =>
      -- the index is one nearer after the step, and the buffers hold the row visited
      have hindex : t.saveIndex + ((k + 1 : ℕ) + 1) =
          (t.visit first next).saveIndex + (k + 1) := by
        simp only [Table.visit]
        omega
      rw [if_neg (by omega), hindex]
      exact ih (t := t.visit first next) rfl hrow rfl

/-- A lookup leaves the row the cached table answers, and changes no more of it. -/
theorem scanByIndex_rowAt (hname : t.name = strlcpy t.alrm.uuid uuidSize) (k : ℕ) (i : ℤ)
    (env : ScanEnv) :
    ∃ res row t' p', t.cached.Refresh kind env t'.cached ∧ t'.cached.rowAt (k + 1) = row ∧
      scanByIndex kind.code (k + 1 : ℕ) i t.name t.alrm env (t, p) =
        ((res, strlcpy row.uuid uuidSize, row), (t', p')) := by
  have hrefresh := scanInit_refresh kind env t p
  obtain ⟨hcursor, hzero⟩ := scanInit_cursor (c := kind.code) env (t, p)
  obtain ⟨-, -, hlast, -⟩ := scanInit_frame (c := kind.code) env (t, p)
  obtain ⟨⟨addr, j, u, htable⟩, -⟩ :=
    scanByIndex_frame kind.code (k + 1 : ℕ) i t.name t.alrm env (t, p)
  have hrow : (scanInit kind.code env (t, p)).1.alarmaddr.getD k
      ((scanInit kind.code env (t, p)).1.alarmaddr.getLastD t.alrm) =
      (scanInit kind.code env (t, p)).1.cached.rowAt (k + 1) := by
    rw [hcursor, ← hlast]
    rfl
  obtain ⟨j', hscan⟩ := scanUntil_row (i := i) hname hrow
  rw [hzero, Int.zero_add] at hscan
  have hbuffers : (scanByIndex kind.code (k + 1 : ℕ) i t.name t.alrm env (t, p)).1.2 =
      (strlcpy ((scanInit kind.code env (t, p)).1.cached.rowAt (k + 1)).uuid uuidSize,
        (scanInit kind.code env (t, p)).1.cached.rowAt (k + 1)) := by
    simp [scanByIndex, hscan]
  rcases hfull : scanByIndex kind.code (k + 1 : ℕ) i t.name t.alrm env (t, p) with
    ⟨⟨res, name, alrm⟩, t', p'⟩
  rw [hfull] at htable hbuffers
  have hcached : t'.cached = (scanInit kind.code env (t, p)).1.cached := by
    obtain rfl : t' = _ := htable
    rfl
  rw [← hcached] at hrefresh hbuffers
  obtain ⟨rfl, rfl⟩ := Prod.mk.inj hbuffers
  exact ⟨res, _, t', p', hrefresh, rfl, rfl⟩

end Functions

/-! ## Requests and runs -/

/-- The index search is the selection among the instances of the count. -/
theorem headerEntry_selects (oids : OidComparison) (count : ℤ) (r : Request) :
    (∃ i : ℕ, 1 ≤ i ∧ Selects count r (r.vp.name ++ [i]) ∧
      headerEntry oids count r = HeaderOut.found r i) ∨
    ((∀ o, ¬ Selects count r o) ∧ headerEntry oids count r = HeaderOut.notFound r) := by
  cases hexact : r.exact with
  | true =>
    simp only [Selects, hexact, if_true]
    obtain ⟨i, hname, hmem, hsearch⟩ | ⟨hmem, hsearch⟩ := headerEntry_exact_cases oids count hexact
    · rw [hname] at hmem
      exact Or.inl ⟨i, (mem_instances.mp hmem).1, ⟨hname.symm, hmem⟩, hsearch⟩
    · refine Or.inr ⟨?_, hsearch⟩
      rintro o ⟨rfl, h⟩
      exact hmem h
  | false =>
    simp only [Selects, hexact, Bool.false_eq_true, if_false]
    obtain ⟨i, hleast, hsearch⟩ | ⟨hnone, hsearch⟩ := headerEntry_next_cases oids count hexact
    · exact Or.inl ⟨i, (mem_instances.mp hleast.1.1).1, hleast, hsearch⟩
    · exact Or.inr ⟨fun o hleast => hleast.nonempty.ne_empty hnone, hsearch⟩

section Run

variable (dateNTime : ℤ → List UInt8)

/-- **A request to the code is one to the cached table**, for the registered columns. -/
theorem tableStep_simulates (kind : TableKind) :
    Simulates (tableStep dateNTime kind) (CachedTable.Step dateNTime kind) Response.shown
      (fun call => call.2.vp ∈ kind.columns) Caches := by
  rintro t c ⟨env, r⟩ hvp ⟨rfl, hname⟩
  obtain ⟨t₁, p₁, hget, hrecount, halrm₁, hname₁⟩ :=
    getCount_recount_cached kind env t Plugin.init
  rw [← hname₁, ← halrm₁] at hname
  obtain ⟨i, hpos, hselects, hsearch⟩ | ⟨hnone, hsearch⟩ :=
    headerEntry_selects env.oids (cInt t₁.count) r
  · obtain ⟨k, rfl⟩ : ∃ k, i = k + 1 := ⟨i - 1, by omega⟩
    obtain ⟨res, row, t₂, p₂, hrefresh, hrow, hscan⟩ :=
      scanByIndex_rowAt kind (p := p₁) hname k env.i env.indexScan
    have hout : varTable kind.code (kind.entryValue dateNTime) env r (t, Plugin.init) = _ :=
      varTable_eq_of_found hget hsearch hscan
    refine ⟨{ t₂.cached with last := row }, ⟨t₁.cached, hrecount, ?_⟩, ?_⟩
    · -- the buffers are those of the row of the cached table
      rw [tableStep, hout, Response.shown, (kind.serves dateNTime).field r.vp hvp (k + 1) row,
        ← hrow]
      exact .some hselects hrefresh
    · rw [tableStep, hout]
      exact ⟨rfl, rfl⟩
  · have hout : varTable kind.code (kind.entryValue dateNTime) env r (t, Plugin.init) = _ :=
      varTable_of_notFound hget hsearch
    refine ⟨t₁.cached, ⟨t₁.cached, hrecount, ?_⟩, ?_⟩
    · rw [tableStep, hout]
      exact .none hnone
    · rw [tableStep, hout]
      exact ⟨rfl, hname⟩

/-- **The sub-agent is two cached tables**: in every run the replies to the requests to a table are
those of its cached table to these requests, from the empty table on, and the statics keep it. -/
theorem agent_refines_cachedTable (kind : TableKind) {created : Bool} {a : Agent}
    (ha : Agent.init created = some a) {requests : List AgentRequest}
    (hcolumns : ∀ call ∈ requests.filterMap kind.call?, call.2.vp ∈ kind.columns) :
    ∃ c, Run (CachedTable.Step dateNTime kind) CachedTable.init (requests.filterMap kind.call?)
        ((answers kind.call? requests (outputs (agentStep dateNTime) a requests)).map
          Response.shown) c ∧
      Caches (kind.table (after (agentStep dateNTime) a requests)) c := by
  have hcomponent := table_component dateNTime kind
  rw [hcomponent.answers, hcomponent.after, kind.table_init ha]
  exact (tableStep_simulates dateNTime kind).run hcolumns Caches.init

end Run

/-- A request to an empty table, and one to the other table. -/
theorem agent_refines_cachedTable_two :
    let requests : List AgentRequest :=
      [.alarm (.steady 100 1 [default]) (.get severityColumn 1 0 0),
        .event (.steady 100 2 []) (.get eventLogVariables[6] 1 0 0)]
    let a : Agent := ⟨fmSnmpUtilCreateSession true .init, Table.init, Table.init⟩
    ∃ c, Run (CachedTable.Step (fun _ => []) .activeAlarms) CachedTable.init
        (requests.filterMap TableKind.activeAlarms.call?)
        ((answers TableKind.activeAlarms.call? requests
          (outputs (agentStep fun _ => []) a requests)).map Response.shown) c ∧
      Caches (after (agentStep fun _ => []) a requests).alarms c :=
  agent_refines_cachedTable (fun _ => []) .activeAlarms (show Agent.init true = some _ from rfl)
    (by simp [TableKind.call?, TableKind.columns, Request.get, severityColumn, alarmVariables])

end StxSnmp.FmAgent
