import StxSnmp.FmAgent.CachedTable
import StxSnmp.FmAgent.Reload

/-!
# Recovery

Loads fail, time out or obtain half of the rows, and leave a table with a list and a count that
belong together no more. Nothing has to be restarted: once the database answers again and has the
same rows, the list is right when the shortest time between two loads has passed, the count when a
minute more has, and from then on the table answers from the rows of the database alone.

## Main definitions

* `FindsAll Good env`, `FindsOnly rows env`: the loads of a request find good rows, or `rows`
* `CachedTable.Settled Good c`: the rows of the table are good, and so were those counted
* `CachedTable.Serves`: the reply a table of `rows` makes

## Main results

* `CachedTable.Refresh.due`: rows of before are replaced, once the time has passed
* `CachedTable.Step.late`, `CachedTable.Step.settled`: a count of before is replaced, and the table
  stays settled
* `agent_settles`: so a table settles after any run
* `agent_recovers`: it serves the rows that all its loads find
-/

namespace StxSnmp.FmAgent

open Transducer MachineInt

/-- What both loads of a request find is good, whenever they are made. -/
structure FindsAll (Good : List AlarmData → Prop) (env : RequestEnv) : Prop where
  countScan : ∀ found, Finds env.countScan found → Good found
  indexScan : ∀ found, Finds env.indexScan found → Good found

/-- Both loads of a request find `rows`. -/
abbrev FindsOnly (rows : List AlarmData) : RequestEnv → Prop := FindsAll (· = rows)

/-- What is selected is an instance. -/
theorem Selects.mem {count : ℤ} {r : Request} {o : Oid} (h : Selects count r o) :
    o ∈ instances count r.vp := by
  unfold Selects at h
  split at h
  · exact h.2
  · exact h.1.1

namespace CachedTable

/-- The rows the table keeps are good, and so were those it counted. -/
structure Settled (Good : List AlarmData → Prop) (c : CachedTable) : Prop where
  rows : Good c.rows
  counted : ∃ counted, Good counted ∧ c.count = counted.length

/-- The rows are good, or of second `m` at the latest. -/
def LoadedBy (Good : List AlarmData → Prop) (m : ℤ) (c : CachedTable) : Prop :=
  Good c.rows ∨ c.loadedAt ≤ m

section Refresh

variable {kind : TableKind} {Good : List AlarmData → Prop} {env : ScanEnv} {m : ℤ}
  {c c' : CachedTable}

theorem Refresh.frame (h : Refresh kind env c c') :
    c'.count = c.count ∧ c'.countedAt = c.countedAt := by
  cases h with
  | kept h => exact ⟨rfl, rfl⟩
  | loaded h hrows => exact ⟨rfl, rfl⟩

/-- Good rows are kept, or replaced by good ones. -/
theorem Refresh.good (h : Refresh kind env c c') (hfinds : ∀ found, Finds env found → Good found)
    (hrows : Good c.rows) : Good c'.rows := by
  cases h with
  | kept h => exact hrows
  | loaded h hfound => exact hfinds _ hfound

theorem Refresh.loadedBy (h : Refresh kind env c c')
    (hfinds : ∀ found, Finds env found → Good found) (hloaded : LoadedBy Good m c) :
    LoadedBy Good m c' := by
  cases h with
  | kept h => exact hloaded
  | loaded h hfound => exact Or.inl (hfinds _ hfound)

/-- Rows of before are replaced, once the time has passed. -/
theorem Refresh.due (h : Refresh kind env c c') (hfinds : ∀ found, Finds env found → Good found)
    (hloaded : LoadedBy Good m c) (hclock : m + kind.code.minLoadFreq ≤ env.clock) :
    Good c'.rows := by
  cases h with
  | kept h =>
    refine hloaded.resolve_right fun hold => ?_
    omega
  | loaded h hfound => exact hfinds _ hfound

end Refresh

section Step

variable {dateNTime : ℤ → List UInt8} {kind : TableKind} {Good : List AlarmData → Prop}
  {env : RequestEnv} {r : Request} {m w : ℤ} {c c' : CachedTable} {reply : Oid × Option Value}

/-- An answer leaves the table as it was or refreshed, but for the row answered last. -/
theorem Answer.table (h : Answer dateNTime kind env r c reply c') :
    c' = c ∨ ∃ c₁ row, Refresh kind env.indexScan c c₁ ∧ c' = { c₁ with last := row } := by
  cases h with
  | none h => exact Or.inl rfl
  | some h hrefresh => exact Or.inr ⟨_, _, hrefresh, rfl⟩

/-- Neither rows nor count go back to what they were. -/
theorem Answer.settled (h : Answer dateNTime kind env r c reply c') (hfinds : FindsAll Good env)
    (hsettled : Settled Good c) : Settled Good c' := by
  obtain rfl | ⟨c₁, row, hrefresh, rfl⟩ := h.table
  · exact hsettled
  · obtain ⟨counted, hgood, hcount⟩ := hsettled.counted
    exact ⟨hrefresh.good hfinds.indexScan hsettled.rows,
      counted, hgood, hrefresh.frame.1.trans hcount⟩

theorem Recount.settled (h : Recount kind env c c') (hfinds : FindsAll Good env)
    (hsettled : Settled Good c) : Settled Good c' := by
  cases h with
  | kept hcount h => exact hsettled
  | @counted c₁ h hrefresh =>
    have hrows := hrefresh.good hfinds.countScan hsettled.rows
    exact ⟨hrows, c₁.rows, hrows, rfl⟩

theorem Step.settled (h : CachedTable.Step dateNTime kind c (env, r) reply c')
    (hfinds : FindsAll Good env) (hsettled : Settled Good c) : Settled Good c' := by
  obtain ⟨c₁, hrecount, hanswer⟩ := h
  exact hanswer.settled hfinds (hrecount.settled hfinds hsettled)

/-! ## Settling -/

/-- The rows are good or of second `m` at the latest; the count too, or of second `w`. -/
structure Settling (Good : List AlarmData → Prop) (m w : ℤ) (c : CachedTable) : Prop where
  loadedBy : LoadedBy Good m c
  counted : Settled Good c ∨ c.countedAt ≤ w

/-- While the rows may be of before, a count may be of them. -/
theorem Step.early (h : CachedTable.Step dateNTime kind c (env, r) reply c')
    (hfinds : FindsAll Good env) (htime : env.timeNow ≤ w)
    (hold : LoadedBy Good m c ∧ c.countedAt ≤ w) : LoadedBy Good m c' ∧ c'.countedAt ≤ w := by
  obtain ⟨c₁, hrecount, hanswer⟩ := h
  obtain ⟨hloaded, hcounted⟩ : LoadedBy Good m c₁ ∧ c₁.countedAt ≤ w := by
    cases hrecount with
    | kept hcount h => exact hold
    | counted h hrefresh =>
      exact ⟨hrefresh.loadedBy hfinds.countScan hold.1, hrefresh.frame.2.trans_le htime⟩
  obtain rfl | ⟨c₂, row, hrefresh, rfl⟩ := hanswer.table
  · exact ⟨hloaded, hcounted⟩
  · exact ⟨hrefresh.loadedBy hfinds.indexScan hloaded, hrefresh.frame.2.trans_le hcounted⟩

theorem Answer.settling (h : Answer dateNTime kind env r c reply c') (hfinds : FindsAll Good env)
    (hold : Settling Good m w c) : Settling Good m w c' := by
  have hsettled := h.settled hfinds
  obtain rfl | ⟨c₁, row, hrefresh, rfl⟩ := h.table
  · exact hold
  · refine ⟨hrefresh.loadedBy hfinds.indexScan hold.loadedBy, hold.counted.imp hsettled ?_⟩
    exact hrefresh.frame.2.trans_le

/-- Once the time between two loads has passed, a count is of good rows. -/
theorem Recount.late (h : Recount kind env c c') (hfinds : FindsAll Good env)
    (hclock : m + kind.code.minLoadFreq ≤ env.countScan.clock) (hold : Settling Good m w c) :
    Settling Good m w c' ∧ (w + 60 < env.timeNow → Settled Good c') := by
  cases h with
  | kept hcount h =>
    refine ⟨hold, fun htime => hold.counted.resolve_right fun hcounted => ?_⟩
    omega
  | @counted c₁ h hrefresh =>
    have hrows := hrefresh.due hfinds.countScan hold.loadedBy hclock
    have hsettled : Settled Good { c₁ with count := c₁.rows.length } := ⟨hrows, _, hrows, rfl⟩
    exact ⟨⟨Or.inl hrows, Or.inl hsettled⟩, fun _ => hsettled⟩

theorem Step.late (h : CachedTable.Step dateNTime kind c (env, r) reply c')
    (hfinds : FindsAll Good env) (hclock : m + kind.code.minLoadFreq ≤ env.countScan.clock)
    (hold : Settling Good m w c) :
    Settling Good m w c' ∧ (w + 60 < env.timeNow → Settled Good c') := by
  obtain ⟨c₁, hrecount, hanswer⟩ := h
  obtain ⟨hsettling, hsettles⟩ := hrecount.late hfinds hclock hold
  exact ⟨hanswer.settling hfinds hsettling, fun htime => hanswer.settled hfinds (hsettles htime)⟩

/-! ## The rows alone -/

/-- The reply a table that keeps and has counted `rows` makes. -/
def Serves (dateNTime : ℤ → List UInt8) (kind : TableKind) (rows : List AlarmData) (r : Request)
    (reply : Oid × Option Value) : Prop :=
  (∃ i row, rows[i]? = some row ∧ Selects (cInt rows.length) r (r.vp.name ++ [i + 1]) ∧
    reply = (r.vp.name ++ [i + 1], (kind.row dateNTime (i + 1) row)[r.vp.column - 1]?)) ∨
  ((∀ o, ¬ Selects (cInt rows.length) r o) ∧ reply = (r.name, none))

/-- **A table settled with its rows serves them.** -/
theorem Step.serves {rows : List AlarmData}
    (h : CachedTable.Step dateNTime kind c (env, r) reply c') (hfinds : FindsOnly rows env)
    (hsettled : Settled (· = rows) c) : Serves dateNTime kind rows r reply := by
  obtain ⟨c₁, hrecount, hanswer⟩ := h
  obtain ⟨hrows₁, counted, hcounted, hcount⟩ := hrecount.settled hfinds hsettled
  rw [hcounted] at hcount
  cases hanswer with
  | none h =>
    rw [hcount] at h
    exact Or.inr ⟨h, rfl⟩
  | @some i c₂ h hrefresh =>
    rw [hcount] at h
    have hrows := hrefresh.good hfinds.indexScan hrows₁
    -- the index is within the rows
    obtain ⟨hpos, hle⟩ := mem_instances.mp h.mem
    obtain ⟨k, rfl⟩ : ∃ k, i = k + 1 := ⟨i - 1, by omega⟩
    have hk : k < rows.length := by
      have hcount := cInt_le rows.length
      omega
    have hrow : c₂.rowAt (k + 1) = rows[k] := by
      simp [rowAt, hrows, hk]
    refine Or.inl ⟨k, rows[k], List.getElem?_eq_getElem hk, h, ?_⟩
    rw [hrow]

end Step

end CachedTable

/-! ## The sub-agent -/

section Run

variable (dateNTime : ℤ → List UInt8) {Good : List AlarmData → Prop}

/-- A table settles over three stretches of calls that find good rows. -/
theorem tableStep_settles {kind : TableKind} {m w : ℤ} {t : Table}
    {c : CachedTable} (hcaches : Caches t c) (hloaded : c.loadedAt ≤ m) (hcounted : c.countedAt ≤ w)
    {early late : List (RequestEnv × Request)}
    (hcolumns : ∀ call ∈ early ++ late, call.2.vp ∈ kind.columns)
    (hgood : ∀ call ∈ early ++ late, FindsAll Good call.1)
    (hearly : ∀ call ∈ early, call.1.timeNow ≤ w)
    (hlate : ∀ call ∈ late, m + kind.code.minLoadFreq ≤ call.1.countScan.clock)
    (hdue : ∃ call ∈ late, w + 60 < call.1.timeNow) :
    ∃ c', Caches (after (tableStep dateNTime kind) t (early ++ late)) c' ∧ c'.Settled Good := by
  have hsimulates := tableStep_simulates dateNTime kind
  obtain ⟨hcolumnsEarly, hcolumnsLate⟩ := List.forall_mem_append.mp hcolumns
  obtain ⟨hgoodEarly, hgoodLate⟩ := List.forall_mem_append.mp hgood
  -- while the rows may be of before
  obtain ⟨c₁, hcaches₁, hold⟩ := hsimulates.after
    (V := fun call => FindsAll Good call.1 ∧ call.1.timeNow ≤ w)
    (P := fun c => c.LoadedBy Good m ∧ c.countedAt ≤ w)
    (fun c call _ c' hcall hstep hold => hstep.early hcall.1 hcall.2 hold)
    hcolumnsEarly (fun call hcall => ⟨hgoodEarly call hcall, hearly call hcall⟩) hcaches
    ⟨Or.inr hloaded, hcounted⟩
  -- up to the call that recounts, and from it on
  obtain ⟨⟨env, r⟩, hmem, htime⟩ := hdue
  obtain ⟨front, rest, rfl⟩ := List.append_of_mem hmem
  obtain ⟨hcolumnsFront, hcolumnsRest⟩ := List.forall_mem_append.mp hcolumnsLate
  obtain ⟨hcolumn, hcolumnsRest⟩ := List.forall_mem_cons.mp hcolumnsRest
  obtain ⟨hgoodFront, hgoodRest⟩ := List.forall_mem_append.mp hgoodLate
  obtain ⟨hgoodCall, hgoodRest⟩ := List.forall_mem_cons.mp hgoodRest
  obtain ⟨hlateFront, hlateRest⟩ := List.forall_mem_append.mp hlate
  obtain ⟨c₂, hcaches₂, hsettling⟩ := hsimulates.after
    (V := fun call => FindsAll Good call.1 ∧
      m + kind.code.minLoadFreq ≤ call.1.countScan.clock)
    (P := CachedTable.Settling Good m w)
    (fun c call _ c' hcall hstep hold => (hstep.late hcall.1 hcall.2 hold).1)
    hcolumnsFront (fun call hcall => ⟨hgoodFront call hcall, hlateFront call hcall⟩) hcaches₁
    ⟨hold.1, Or.inr hold.2⟩
  obtain ⟨c₃, hstep, hcaches₃⟩ := hsimulates _ _ (env, r) hcolumn hcaches₂
  have hsettled := (hstep.late hgoodCall (List.forall_mem_cons.mp hlateRest).1 hsettling).2 htime
  obtain ⟨c', hcaches', hsettled'⟩ := hsimulates.after (V := fun call => FindsAll Good call.1)
    (P := CachedTable.Settled Good)
    (fun c call _ c' hcall hstep hsettled => hstep.settled hcall hsettled)
    hcolumnsRest hgoodRest hcaches₃ hsettled
  refine ⟨c', ?_, hsettled'⟩
  rw [after_append, after_append, after_cons]
  exact hcaches'

/-- So do the tables of the sub-agent, after any run. -/
theorem agent_settles {kind : TableKind} {created : Bool} {a : Agent}
    (ha : Agent.init created = some a) {m w : ℤ} {before early late : List AgentRequest}
    (hloaded : (kind.table (after (agentStep dateNTime) a before)).lastLoad ≤ m)
    (hcounted : (kind.table (after (agentStep dateNTime) a before)).scanTime ≤ w)
    (hcolumns : ∀ call ∈ (before ++ (early ++ late)).filterMap kind.call?,
      call.2.vp ∈ kind.columns)
    (hgood : ∀ call ∈ (early ++ late).filterMap kind.call?, FindsAll Good call.1)
    (hearly : ∀ call ∈ early.filterMap kind.call?, call.1.timeNow ≤ w)
    (hlate : ∀ call ∈ late.filterMap kind.call?,
      m + kind.code.minLoadFreq ≤ call.1.countScan.clock)
    (hdue : ∃ call ∈ late.filterMap kind.call?, w + 60 < call.1.timeNow) :
    ∃ c, Caches (kind.table (after (agentStep dateNTime) a (before ++ (early ++ late)))) c ∧
      c.Settled Good := by
  have hsimulates := tableStep_simulates dateNTime kind
  have hcomponent := table_component dateNTime kind
  rw [List.filterMap_append] at hcolumns
  obtain ⟨hcolumnsBefore, hcolumnsAfter⟩ := List.forall_mem_append.mp hcolumns
  rw [List.filterMap_append] at hcolumnsAfter hgood
  -- the table before, whatever happened to it
  have hinit : Caches (kind.table a) CachedTable.init := by
    rw [kind.table_init ha]
    exact Caches.init
  obtain ⟨c, -, hcaches⟩ := hsimulates.run hcolumnsBefore hinit
  rw [← hcomponent.after] at hcaches
  obtain ⟨c', hcaches', hsettled⟩ := tableStep_settles dateNTime hcaches
    (hcaches.cached ▸ hloaded) (hcaches.cached ▸ hcounted) hcolumnsAfter hgood hearly hlate hdue
  rw [← List.filterMap_append, ← hcomponent.after, ← after_append] at hcaches'
  exact ⟨c', hcaches', hsettled⟩

/-- A request to the sub-agent is one to its cached table. -/
theorem agentStep_simulates {kind : TableKind} {a : Agent} {c : CachedTable}
    (hcaches : Caches (kind.table a) c) {env : RequestEnv} {r : Request}
    (hvp : r.vp ∈ kind.columns) :
    ∃ c', CachedTable.Step dateNTime kind c (env, r)
        (agentStep dateNTime a (kind.request env r)).2.shown c' ∧
      Caches (kind.table (agentStep dateNTime a (kind.request env r)).1) c' := by
  obtain ⟨htable, hreply⟩ :=
    (table_component dateNTime kind).taken a _ _ (kind.call?_request env r)
  rw [htable, hreply]
  exact tableStep_simulates dateNTime kind _ _ (env, r) hvp hcaches

/-- **Recovery**: after any run, let the loads of a table find the same `rows` from some point on.
Once the shortest time between two loads has passed since the last one of before, and a request has
come more than a minute after the last count of before then, the table answers from `rows` and their
number, every request of either kind and whatever else is asked of the sub-agent. -/
theorem agent_recovers {kind : TableKind} {created : Bool} {a : Agent}
    (ha : Agent.init created = some a) {rows : List AlarmData} {m w : ℤ}
    {before early late : List AgentRequest} {env : RequestEnv} {r : Request}
    (hloaded : (kind.table (after (agentStep dateNTime) a before)).lastLoad ≤ m)
    (hcounted : (kind.table (after (agentStep dateNTime) a before)).scanTime ≤ w)
    (hcolumns : ∀ call ∈ (before ++ (early ++ late)).filterMap kind.call?,
      call.2.vp ∈ kind.columns)
    (hrows : ∀ call ∈ (early ++ late).filterMap kind.call?, FindsOnly rows call.1)
    (hearly : ∀ call ∈ early.filterMap kind.call?, call.1.timeNow ≤ w)
    (hlate : ∀ call ∈ late.filterMap kind.call?,
      m + kind.code.minLoadFreq ≤ call.1.countScan.clock)
    (hdue : ∃ call ∈ late.filterMap kind.call?, w + 60 < call.1.timeNow)
    (hvp : r.vp ∈ kind.columns) (hfinds : FindsOnly rows env) :
    CachedTable.Serves dateNTime kind rows r
      (agentStep dateNTime (after (agentStep dateNTime) a (before ++ (early ++ late)))
        (kind.request env r)).2.shown := by
  obtain ⟨c, hcaches, hsettled⟩ :=
    agent_settles dateNTime ha hloaded hcounted hcolumns hrows hearly hlate hdue
  obtain ⟨c', hstep, -⟩ := agentStep_simulates dateNTime hcaches hvp
  exact hstep.serves hfinds hsettled

end Run

/-- Loads that all obtain `rows` find them. -/
theorem findsOnly_steady (timeNow clock : ℤ) (rows : List AlarmData) :
    FindsOnly rows (.steady timeNow clock rows) := by
  have hfinds (found : List AlarmData)
      (h : Finds ⟨clock, fun _ => .obtained rows, fun _ => true⟩ found) : found = rows := by
    cases h with
    | failed h =>
      obtain ⟨created, hfailed⟩ := h 0 (by decide)
      cases hfailed
    | obtained hi hfailed hobtained hcopies =>
      obtain rfl := Attempt.obtained.inj hobtained
      refine hcopies.isPrefix.eq_of_length (le_antisymm hcopies.isPrefix.length_le ?_)
      exact Nat.le_of_not_lt fun hshort => Bool.noConfusion (hcopies.complete hshort)
  exact ⟨hfinds, hfinds⟩

/-- An outage, and the severity of the one alarm a minute after it. -/
theorem agent_recovers_outage :
    CachedTable.Serves (fun _ => []) .activeAlarms [default] (.get severityColumn 1 0 0)
      (agentStep (fun _ => []) (after (agentStep fun _ => [])
        ⟨fmSnmpUtilCreateSession true .init, Table.init, Table.init⟩
        ([.alarm ⟨100, outage 10, outage 10, 0, .lexicographic⟩ (.get severityColumn 1 0 0)] ++
          ([] ++ [.alarm (.steady 161 11 [default]) (.get severityColumn 1 0 0)])))
        (TableKind.activeAlarms.request (.steady 161 12 [default])
          (.get severityColumn 1 0 0))).2.shown := by
  have hcolumn : (Request.get severityColumn 1 0 0).vp ∈ TableKind.activeAlarms.columns := by decide
  refine agent_recovers (fun _ => []) (m := 10) (w := 100) (show Agent.init true = some _ from rfl)
    (by decide +kernel) (by decide +kernel) ?_ ?_ (List.forall_mem_nil _) ?_ ?_ hcolumn
    (findsOnly_steady 161 12 [default])
  · exact List.forall_mem_cons.mpr ⟨hcolumn, List.forall_mem_singleton.mpr hcolumn⟩
  · exact List.forall_mem_singleton.mpr (findsOnly_steady 161 11 [default])
  · exact List.forall_mem_singleton.mpr (by decide)
  · exact ⟨_, List.mem_singleton.mpr rfl, by decide⟩

end StxSnmp.FmAgent
