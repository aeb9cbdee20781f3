import StxSnmp.FmAgent.Database
import StxSnmp.FmAgent.ScanInvariant
import StxSnmp.FmAgent.Uuid

/-!
# The age of the values

The rows of a table change in the database from one second of the monotonic clock to the next. The
list a scan leaves was loaded less than `MINLOADFREQ` seconds before, so a value answered from it is
one the database had not long ago; the count, which decides what is answered at all, may be older.

## Main definitions

* `Follows db env`: the queries of a scan obtain what the database has at its second
* `LoadedFrom db now s`: the list held is from the rows of the last load's second

## Main results

* `loadedFrom_invariant`: every scan keeps the list from the database
* `scanInit_fresh`: after a scan the last load is less than `MINLOADFREQ` seconds old
* `values_fresh`: so is every value answered from the list, in any run
-/

namespace StxSnmp.FmAgent

open Transducer

/-- The database has the rows `db x` at second `x`, and a query that succeeds obtains them. -/
def Follows (db : ℤ → List AlarmData) (env : ScanEnv) : Prop :=
  ∀ i alarms, env.attempts i = .obtained alarms → alarms = db env.clock

/-- The list held is the rows the database had at the last load, up to a failed allocation. -/
structure LoadedFrom (db : ℤ → List AlarmData) (now : ℤ) (s : Table × Plugin) : Prop where
  lastLoad_le : s.1.lastLoad ≤ now
  list_prefix : s.1.alarmList <+: db s.1.lastLoad

section Scan

variable {c : TableCode} {db : ℤ → List AlarmData} {now : ℤ} {env : ScanEnv} {s : Table × Plugin}

theorem LoadedFrom.scanInit (h : LoadedFrom db now s) (hfollows : Follows db env)
    (hnow : now ≤ env.clock) : LoadedFrom db env.clock (scanInit c env s) := by
  obtain ⟨t, p⟩ := s
  obtain ⟨-, hs⟩ | ⟨-, p', -, hs⟩ | ⟨-, alarms, p', hq, hs⟩ := scanInit_cases (c := c) env t p
  · rw [hs]
    exact ⟨h.lastLoad_le.trans hnow, h.list_prefix⟩
  · -- a failed load leaves no rows
    rw [hs]
    exact ⟨le_rfl, List.nil_prefix⟩
  · obtain ⟨j, hobtained⟩ := queryRows_eq_some (congrArg Prod.fst hq)
    obtain rfl := hfollows j alarms hobtained
    rw [hs]
    exact ⟨le_rfl, loadRows_prefix env.allocated 0 _⟩

/-- After a scan the last load is less than `MINLOADFREQ` seconds old. -/
theorem scanInit_fresh (hfreq : 0 < c.minLoadFreq) (env : ScanEnv) (s : Table × Plugin) :
    env.clock - c.minLoadFreq < (scanInit c env s).1.lastLoad := by
  obtain ⟨t, p⟩ := s
  obtain ⟨hskip, hs⟩ | ⟨-, p', -, hs⟩ | ⟨-, alarms, p', -, hs⟩ :=
    scanInit_cases (c := c) env t p
  · rw [hs]
    show env.clock - c.minLoadFreq < t.lastLoad
    omega
  · rw [hs]
    show env.clock - c.minLoadFreq < env.clock
    omega
  · rw [hs]
    show env.clock - c.minLoadFreq < env.clock
    omega

end Scan

theorem loadedFrom_invariant (kind : TableKind) (db : ℤ → List AlarmData) :
    ScanInvariant kind (Follows db) (LoadedFrom db) where
  later h hnow := ⟨h.lastLoad_le.trans hnow, h.list_prefix⟩
  scan h hfollows hnow := h.scanInit hfollows hnow
  congr h hlist hload _ := by
    refine ⟨hload ▸ h.lastLoad_le, ?_⟩
    rw [hlist, hload]
    exact h.list_prefix

/-- A request with an answer looks its row up in a list that is fresh. -/
theorem varTable_fresh {kind : TableKind} {db : ℤ → List AlarmData} {now : ℤ}
    {s : Table × Plugin} (h : LoadedFrom db now s)
    {entryValue : ℕ → ℤ → List UInt8 → AlarmData → Option Value} {env : RequestEnv} {r : Request}
    (hfollows : Follows db env.countScan ∧ Follows db env.indexScan)
    (hnow : now ≤ env.countScan.clock) (hclock : env.countScan.clock ≤ env.indexScan.clock)
    (hvalue : (varTable kind.code entryValue env r s).2.value.isSome) :
    LoadedFrom db env.indexScan.clock (varTable kind.code entryValue env r s).1 ∧
      env.indexScan.clock - kind.code.minLoadFreq <
        (varTable kind.code entryValue env r s).1.1.lastLoad ∧
      ∃ k, (varTable kind.code entryValue env r s).2.name = r.vp.name ++ [k + 1] := by
  refine ⟨(loadedFrom_invariant kind db).varTable h _ r hfollows hnow hclock, ?_⟩
  obtain ⟨count, s₁, index, hpos, hget, hfound⟩ := exists_found_of_isSome hvalue
  obtain ⟨hname, hcache, -⟩ := varTable_of_found entryValue hget hfound
  refine ⟨?_, index - 1, by rw [hname, Nat.sub_add_cancel hpos]⟩
  rw [hcache.lastLoad]
  exact scanInit_fresh kind.minLoadFreq_pos env.indexScan s₁

/-- What is answered is from the list of the load at second `loaded`, which is within the period. -/
structure ServedAt (dateNTime : ℤ → List UInt8) (kind : TableKind) (db : ℤ → List AlarmData)
    (env : RequestEnv) (r : Request) (out : Agent × Response) (loaded : ℤ) (k : ℕ) : Prop where
  fresh : env.indexScan.clock - kind.code.minLoadFreq < loaded
  loaded_le : loaded ≤ env.indexScan.clock
  name_eq : out.2.name = r.vp.name ++ [k + 1]
  list_prefix : (kind.table out.1).alarmList <+: db loaded
  value : (kind.table out.1).alarmList.length ≤ k ∨ ∃ row, (db loaded)[k]? = some row ∧
    out.2.value = (kind.row dateNTime (k + 1) row)[r.vp.column - 1]?

section Agent

variable {dateNTime : ℤ → List UInt8} {kind : TableKind} {db : ℤ → List AlarmData} {now : ℤ}

theorem loadedFrom_init {created : Bool} {a : Agent} (ha : Agent.init created = some a) :
    LoadedFrom db 0 (kind.table a, a.plugin) := by
  rw [kind.table_init ha]
  exact ⟨le_rfl, List.nil_prefix⟩

/-- An answer is served at the load it leaves. -/
theorem LoadedFrom.servedAt {a : Agent} (h : LoadedFrom db now (kind.table a, a.plugin))
    {env : RequestEnv} {r : Request} (hvp : r.vp ∈ kind.columns)
    (hfollows : Follows db env.countScan ∧ Follows db env.indexScan)
    (hnow : now ≤ env.countScan.clock) (hclock : env.countScan.clock ≤ env.indexScan.clock)
    (hvalue : (agentStep dateNTime a (kind.request env r)).2.value.isSome) :
    let out := agentStep dateNTime a (kind.request env r)
    LoadedFrom db env.indexScan.clock (kind.table out.1, out.1.plugin) ∧
      ∃ k, ServedAt dateNTime kind db env r out (kind.table out.1).lastLoad k := by
  obtain ⟨htable, hreply⟩ := kind.agentStep_request dateNTime a env r
  simp only [hreply] at hvalue
  obtain ⟨hfrom, hfresh, k, hname⟩ := varTable_fresh h hfollows hnow hclock hvalue
  have hloaded : LoadedFrom db env.indexScan.clock
      (kind.table (agentStep dateNTime a (kind.request env r)).1,
        (agentStep dateNTime a (kind.request env r)).1.plugin) := by
    refine ⟨?_, ?_⟩
    · rw [htable]
      exact hfrom.lastLoad_le
    · rw [htable]
      exact hfrom.list_prefix
  rw [← htable] at hfresh
  refine ⟨hloaded, k, hfresh, hloaded.lastLoad_le, by rw [hreply, hname], hloaded.list_prefix, ?_⟩
  by_cases hk :
      (kind.table (agentStep dateNTime a (kind.request env r)).1).alarmList.length ≤ k
  · exact Or.inl hk
  · -- the row is in the list, and the list in the rows of the database
    have hlt := Nat.lt_of_not_le hk
    obtain ⟨row, hrow⟩ : ∃ row,
        (kind.table (agentStep dateNTime a (kind.request env r)).1).alarmList[k]? = some row :=
      ⟨_, List.getElem?_eq_getElem hlt⟩
    obtain ⟨rest, hrest⟩ := hloaded.list_prefix
    refine Or.inr ⟨row, ?_, ?_⟩
    · rw [← hrest, List.getElem?_append_left hlt]
      exact hrow
    · rw [htable] at hrow
      rw [hreply, value_of_named hvalue hname hrow]
      exact (kind.serves dateNTime).field r.vp hvp (k + 1) row

end Agent

/-- **No value is older than the load period**: in any run on a monotonic clock, while the queries
that succeed obtain what the database has, a value answered is the column's field of a row the
database had less than `MINLOADFREQ` seconds before, unless the list no longer reaches the row. -/
theorem values_fresh (dateNTime : ℤ → List UInt8) {kind : TableKind} {db : ℤ → List AlarmData}
    {created : Bool} {a : Agent} (ha : Agent.init created = some a) {requests : List AgentRequest}
    {env : RequestEnv} {r : Request} (hvp : r.vp ∈ kind.columns)
    (hfollows : ∀ req ∈ requests ++ [kind.request env r], kind.ScansWith (Follows db) req)
    (hclocks : (0 :: kind.clocks (requests ++ [kind.request env r])).Pairwise (· ≤ ·))
    (hvalue : (agentStep dateNTime (after (agentStep dateNTime) a requests)
      (kind.request env r)).2.value.isSome) :
    let out := agentStep dateNTime (after (agentStep dateNTime) a requests) (kind.request env r)
    ∃ loaded k, env.indexScan.clock - kind.code.minLoadFreq < loaded ∧
      loaded ≤ env.indexScan.clock ∧ out.2.name = r.vp.name ++ [k + 1] ∧
      (kind.table out.1).alarmList <+: db loaded ∧
      ((kind.table out.1).alarmList.length ≤ k ∨ ∃ row, (db loaded)[k]? = some row ∧
        out.2.value = (kind.row dateNTime (k + 1) row)[r.vp.column - 1]?) := by
  obtain ⟨hbefore, hlast⟩ := List.forall_mem_append.mp hfollows
  have hlast := hlast _ (List.mem_singleton.mpr rfl) env (kind.requestEnv_request env r)
  obtain ⟨hrun, hclock, -⟩ := TableKind.clocks_at_request hclocks
  have hloaded := (loadedFrom_invariant kind db).after dateNTime (loadedFrom_init ha) hbefore hrun
  obtain ⟨-, k, hserved⟩ := hloaded.servedAt hvp hlast le_rfl hclock hvalue
  exact ⟨_, k, hserved.fresh, hserved.loaded_le, hserved.name_eq, hserved.list_prefix,
    hserved.value⟩

/-- A row whose severity is the second it is read at. -/
def clockRow (clock : ℤ) : AlarmData := { (default : AlarmData) with severity := clock }

/-- A request for the severity of the first event, when it is that of its second. -/
def clockEnv (clock : ℤ) : RequestEnv := .steady 100 clock [clockRow clock]

theorem follows_clockEnv (clock : ℤ) :
    Follows (fun x => [clockRow x]) (clockEnv clock).countScan ∧
      Follows (fun x => [clockRow x]) (clockEnv clock).indexScan :=
  ⟨fun _ _ h => (Attempt.obtained.inj h).symm, fun _ _ h => (Attempt.obtained.inj h).symm⟩

/-- The request for the severity of the first event. -/
def eventSeverityRequest : Request := .get TableKind.eventLogs.columns[6] 1 0 0

/-- The request, made a second after it was first. -/
def laterSeverity : Agent × Response :=
  agentStep (fun _ => []) (after (agentStep fun _ => [])
    ⟨fmSnmpUtilCreateSession true .init, Table.init, Table.init⟩
    [TableKind.eventLogs.request (clockEnv 10) eventSeverityRequest])
    (TableKind.eventLogs.request (clockEnv 11) eventSeverityRequest)

/-- It answers what the database had at one of the two seconds. -/
theorem values_fresh_event :
    ∃ loaded k, (clockEnv 11).indexScan.clock - TableKind.eventLogs.code.minLoadFreq < loaded ∧
      loaded ≤ (clockEnv 11).indexScan.clock ∧
      laterSeverity.2.name = eventSeverityRequest.vp.name ++ [k + 1] ∧
      (TableKind.eventLogs.table laterSeverity.1).alarmList <+: [clockRow loaded] ∧
      ((TableKind.eventLogs.table laterSeverity.1).alarmList.length ≤ k ∨
        ∃ row, [clockRow loaded][k]? = some row ∧ laterSeverity.2.value =
          (TableKind.eventLogs.row (fun _ => []) (k + 1) row)[
            eventSeverityRequest.vp.column - 1]?) := by
  have hfollows : ∀ req ∈ [TableKind.eventLogs.request (clockEnv 10) eventSeverityRequest] ++
      [TableKind.eventLogs.request (clockEnv 11) eventSeverityRequest],
      TableKind.eventLogs.ScansWith (Follows fun x => [clockRow x]) req := by
    intro req hreq env henv
    rcases List.mem_pair.mp hreq with rfl | rfl <;> obtain rfl := Option.some.inj henv
    · exact follows_clockEnv 10
    · exact follows_clockEnv 11
  have ha : Agent.init true =
      some ⟨fmSnmpUtilCreateSession true .init, Table.init, Table.init⟩ := rfl
  unfold laterSeverity
  exact values_fresh (fun _ => []) ha (by decide) hfollows (by decide) (by decide +kernel)

end StxSnmp.FmAgent
