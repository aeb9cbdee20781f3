import StxSnmp.FmAgent.Freshness
import StxSnmp.FmAgent.Recovery

/-!
# When a row is seen

The database goes on changing, and a table never settles for one list of rows. But while it reaches
to some row, and its loads succeed, the row is there for every request: from when the list of before
is replaced, which takes a load period, and the count of before, which takes a minute more.

## Main definitions

* `LoadsRow db k env`: a scan at this second succeeds, and copies row `k` of the database
* `LoadsAtMost k env`: a scan that finds `k` rows at most
* `Reaches k rows`: the rows go to row `k`, and can be counted

## Main results

* `Selects.mono`: a larger count selects the same instance
* `CachedTable.Step.reaches`: a table settled for row `k` answers for it
* `row_visible`: so does the sub-agent, after any run, with what the database had just before
* `row_gone`: and it answers for no row that the loads find no more
-/

namespace StxSnmp.FmAgent

open Transducer MachineInt

/-! ## Selection -/

section Selects

variable {count count' : ℤ} {r : Request} {o o' : Oid}

/-- More instances come after those there are. -/
theorem Selects.mono (h : Selects count r o) (hle : count ≤ count') : Selects count' r o := by
  have hmono : instances count r.vp ⊆ instances count' r.vp := by
    rintro _ ⟨i, hpos, hcount, rfl⟩
    exact ⟨i, hpos, hcount.trans hle, rfl⟩
  unfold Selects at h ⊢
  split at h
  · next hexact =>
    rw [if_pos hexact]
    exact ⟨h.1, hmono h.2⟩
  · next hexact =>
    rw [if_neg hexact]
    obtain ⟨⟨hmem, hlt⟩, hleast⟩ := h
    refine ⟨⟨hmono hmem, hlt⟩, ?_⟩
    rintro _ ⟨⟨j, hjpos, hjcount, rfl⟩, hjlt⟩
    obtain ⟨i, hpos, hcount, rfl⟩ := hmem
    by_cases hj : (j : ℤ) ≤ count
    · exact hleast ⟨⟨j, hjpos, hj, rfl⟩, hjlt⟩
    · -- the instance is beyond those of the smaller count
      apply le_of_lt
      rw [Lexicographic.append_singleton_lt_iff]
      omega

theorem Selects.unique (h : Selects count r o) (h' : Selects count r o') : o = o' := by
  unfold Selects at h h'
  split at h
  · next hexact =>
    rw [if_pos hexact] at h'
    exact h.1.trans h'.1.symm
  · next hexact =>
    rw [if_neg hexact] at h'
    exact h.unique h'

end Selects

/-! ## Loads that reach a row -/

/-- The rows go to row `k`, and are no more than an `int` counts. -/
structure Reaches (k : ℕ) (rows : List AlarmData) : Prop where
  lt_length : k < rows.length
  countable : rows.length < 2147483648

/-- Some try obtains the rows, of which the first up to row `k` are copied. -/
structure LoadsRow (db : ℤ → List AlarmData) (k : ℕ) (env : ScanEnv) : Prop where
  obtains : ∃ i < retryCount, ∃ alarms, env.attempts i = .obtained alarms
  allocated : ∀ j ≤ k, env.allocated j = true
  reaches : Reaches k (db env.clock)

/-- What such a load finds goes to row `k`. -/
theorem LoadsRow.finds {db : ℤ → List AlarmData} {k : ℕ} {env : ScanEnv} (h : LoadsRow db k env)
    (hfollows : Follows db env) {found : List AlarmData} (hfound : Finds env found) :
    Reaches k found := by
  cases hfound with
  | failed hfailed =>
    obtain ⟨i, hi, alarms, hobtained⟩ := h.obtains
    obtain ⟨created, hattempt⟩ := hfailed i hi
    rw [hobtained] at hattempt
    cases hattempt
  | obtained hi hfailed hobtained hcopies =>
    obtain rfl := hfollows _ _ hobtained
    refine ⟨?_, hcopies.isPrefix.length_le.trans_lt h.reaches.countable⟩
    -- a copy that ends before would end at a failed allocation
    by_contra hshort
    have hallocated := h.allocated found.length (Nat.le_of_not_lt hshort)
    have hlt := (Nat.le_of_not_lt hshort).trans_lt h.reaches.lt_length
    rw [hcopies.complete hlt] at hallocated
    cases hallocated

/-- No try obtains more than `k` rows. -/
def LoadsAtMost (k : ℕ) (env : ScanEnv) : Prop :=
  ∀ i alarms, env.attempts i = .obtained alarms → alarms.length ≤ k

/-- Then no more are found, if any are. -/
theorem LoadsAtMost.finds {k : ℕ} {env : ScanEnv} (h : LoadsAtMost k env) {found : List AlarmData}
    (hfound : Finds env found) : found.length ≤ k := by
  cases hfound with
  | failed hfailed => exact Nat.zero_le k
  | obtained hi hfailed hobtained hcopies =>
    exact hcopies.isPrefix.length_le.trans (h _ _ hobtained)

/-- A table settled for row `k` answers for it. -/
theorem CachedTable.Step.reaches {dateNTime : ℤ → List UInt8} {kind : TableKind} {k : ℕ}
    {env : RequestEnv} {r : Request} {c c' : CachedTable} {reply : Oid × Option Value}
    (h : CachedTable.Step dateNTime kind c (env, r) reply c') (hfinds : FindsAll (Reaches k) env)
    (hsettled : Settled (Reaches k) c) (hvp : r.vp ∈ kind.columns)
    (hasks : Selects (k + 1) r (r.vp.name ++ [k + 1])) :
    reply.1 = r.vp.name ++ [k + 1] ∧ reply.2.isSome ∧ k < c'.rows.length := by
  have hlength := (h.settled hfinds hsettled).rows.lt_length
  obtain ⟨c₁, hrecount, hanswer⟩ := h
  obtain ⟨-, counted, hcounted, hcount⟩ := hrecount.settled hfinds hsettled
  -- the count goes to the row, so the request selects its instance
  have hselects : Selects (cInt c₁.count) r (r.vp.name ++ [k + 1]) := by
    apply hasks.mono
    have hlt := hcounted.lt_length
    rw [hcount, cInt_natCast hcounted.countable]
    omega
  cases hanswer with
  | none h => exact absurd hselects (h _)
  | @some i c₂ h hrefresh =>
    refine ⟨h.unique hselects, ?_, hlength⟩
    obtain ⟨hsome, hfield⟩ := kind.serves dateNTime
    rw [← hfield r.vp hvp i (c₂.rowAt i)]
    exact hsome r.vp hvp _ _ _

/-- A table settled for `k` rows at most answers for no other. -/
theorem CachedTable.Step.beyond {dateNTime : ℤ → List UInt8} {kind : TableKind} {k : ℕ}
    {env : RequestEnv} {r : Request} {c c' : CachedTable} {reply : Oid × Option Value}
    (h : CachedTable.Step dateNTime kind c (env, r) reply c')
    (hfinds : FindsAll (·.length ≤ k) env) (hsettled : Settled (·.length ≤ k) c)
    (hbeyond : ∀ o, ¬ Selects k r o) : reply = (r.name, none) := by
  obtain ⟨c₁, hrecount, hanswer⟩ := h
  obtain ⟨-, counted, hcounted, hcount⟩ := hrecount.settled hfinds hsettled
  cases hanswer with
  | none h => rfl
  | @some i c₂ h hrefresh =>
    refine absurd (h.mono ?_) (hbeyond _)
    have hle := cInt_le c₁.count
    omega

/-! ## The sub-agent -/

theorem TableKind.ScansWith.and {kind : TableKind} {Q Q' : ScanEnv → Prop} {req : AgentRequest}
    (h : kind.ScansWith Q req) (h' : kind.ScansWith Q' req) :
    kind.ScansWith (fun scan => Q scan ∧ Q' scan) req :=
  fun env henv => ⟨⟨(h env henv).1, (h' env henv).1⟩, (h env henv).2, (h' env henv).2⟩

theorem TableKind.ScansWith.findsAll {kind : TableKind} {Q : ScanEnv → Prop}
    {Good : List AlarmData → Prop} {req : AgentRequest} (h : kind.ScansWith Q req)
    (hfinds : ∀ scan, Q scan → ∀ found, Finds scan found → Good found)
    {call : RequestEnv × Request} (hcall : kind.call? req = some call) : FindsAll Good call.1 := by
  obtain ⟨hcount, hindex⟩ := h.of_call? hcall
  exact ⟨hfinds _ hcount, hfinds _ hindex⟩

section Run

variable (dateNTime : ℤ → List UInt8) {kind : TableKind} {created : Bool} {a : Agent}
  (ha : Agent.init created = some a) {m w : ℤ} {before early late : List AgentRequest}
  {env : RequestEnv} {r : Request}
  (hcolumns : ∀ call ∈ (before ++ (early ++ late)).filterMap kind.call?, call.2.vp ∈ kind.columns)
  (hvp : r.vp ∈ kind.columns)
  (hloaded : (kind.table (after (agentStep dateNTime) a before)).lastLoad ≤ m)
  (hcounted : (kind.table (after (agentStep dateNTime) a before)).scanTime ≤ w)
  (hearly : ∀ call ∈ early.filterMap kind.call?, call.1.timeNow ≤ w)
  (hlate : ∀ call ∈ late.filterMap kind.call?,
    m + kind.code.minLoadFreq ≤ call.1.countScan.clock)
  (hdue : ∃ call ∈ late.filterMap kind.call?, w + 60 < call.1.timeNow)

include ha hcolumns hvp hloaded hcounted hearly hlate hdue

/-- A request to a table that has settled, whose scans are as those since. -/
theorem agentStep_settled {Q : ScanEnv → Prop} {Good : List AlarmData → Prop}
    (hfinds : ∀ scan, Q scan → ∀ found, Finds scan found → Good found)
    (hscans : ∀ req ∈ early ++ late ++ [kind.request env r], kind.ScansWith Q req) :
    let out := agentStep dateNTime (after (agentStep dateNTime) a (before ++ (early ++ late)))
      (kind.request env r)
    ∃ c c', FindsAll Good env ∧ c.Settled Good ∧
      CachedTable.Step dateNTime kind c (env, r) out.2.shown c' ∧
      Caches (kind.table out.1) c' := by
  obtain ⟨hscansAfter, hscansLast⟩ := List.forall_mem_append.mp hscans
  have hgood : ∀ call ∈ (early ++ late).filterMap kind.call?, FindsAll Good call.1 := by
    intro call hcall
    obtain ⟨req, hreq, hsome⟩ := List.mem_filterMap.mp hcall
    exact (hscansAfter req hreq).findsAll hfinds hsome
  have hlast := hscansLast _ (List.mem_singleton.mpr rfl)
  obtain ⟨c, hcaches, hsettled⟩ :=
    agent_settles dateNTime ha hloaded hcounted hcolumns hgood hearly hlate hdue
  obtain ⟨c', hstep, hcaches'⟩ := agentStep_simulates dateNTime hcaches hvp
  exact ⟨c, c', hlast.findsAll hfinds (kind.call?_request env r), hsettled, hstep, hcaches'⟩

/-- **A row that stays is seen**: after any run, from some point on, let the loads of the table
succeed, and the database reach to row `k` whenever they are made. Once the shortest time between
two loads has passed since the last one of before, and a request has come more than a minute after
the last count of before then, every request for the row is answered, with its field of a row `k`
which the database had less than `MINLOADFREQ` seconds before, however the rows change meanwhile. -/
theorem row_visible {db : ℤ → List AlarmData} {k : ℕ}
    (hclocks : (0 :: kind.clocks (before ++ (early ++ late) ++
      [kind.request env r])).Pairwise (· ≤ ·))
    (hfollows : ∀ req ∈ before ++ (early ++ late) ++ [kind.request env r],
      kind.ScansWith (Follows db) req)
    (hrow : ∀ req ∈ early ++ late ++ [kind.request env r], kind.ScansWith (LoadsRow db k) req)
    (hasks : Selects (k + 1) r (r.vp.name ++ [k + 1])) :
    let out := agentStep dateNTime (after (agentStep dateNTime) a (before ++ (early ++ late)))
      (kind.request env r)
    out.2.name = r.vp.name ++ [k + 1] ∧ ∃ loaded row,
      env.indexScan.clock - kind.code.minLoadFreq < loaded ∧ loaded ≤ env.indexScan.clock ∧
      (db loaded)[k]? = some row ∧
      out.2.value = (kind.row dateNTime (k + 1) row)[r.vp.column - 1]? := by
  intro out
  rw [List.append_assoc] at hfollows
  obtain ⟨hfollowsBefore, hfollowsAfter⟩ := List.forall_mem_append.mp hfollows
  rw [← List.append_assoc] at hfollows
  obtain ⟨hfollowsRun, hfollowsLast⟩ := List.forall_mem_append.mp hfollows
  -- the table has settled for the row, and answers for it
  obtain ⟨c, c', hfinds, hsettled, hstep, hcaches⟩ :=
    agentStep_settled dateNTime ha hcolumns hvp hloaded hcounted hearly hlate hdue
      (fun scan hscan found hfound => LoadsRow.finds hscan.1 hscan.2 hfound)
      fun req hreq => (hrow req hreq).and (hfollowsAfter req hreq)
  obtain ⟨hname, hvalue, hlength⟩ := hstep.reaches hfinds hsettled hvp hasks
  rw [← hcaches.cached] at hlength
  -- what it answers is fresh
  obtain ⟨hrun, hclock, -⟩ := TableKind.clocks_at_request hclocks
  have hfrom :=
    (loadedFrom_invariant kind db).after dateNTime (loadedFrom_init ha) hfollowsRun hrun
  have hlast := hfollowsLast _ (List.mem_singleton.mpr rfl) env (kind.requestEnv_request env r)
  obtain ⟨-, j, hserved⟩ := hfrom.servedAt hvp hlast le_rfl hclock hvalue
  obtain rfl : k = j := by
    have heq := hname.symm.trans hserved.name_eq
    simpa using heq
  obtain ⟨row, hdb, hfield⟩ := hserved.value.resolve_left (Nat.not_le.mpr hlength)
  exact ⟨hname, _, row, hserved.fresh, hserved.loaded_le, hdb, hfield⟩

/-- **A row that goes is gone**: after any run, from some point on, let no load of the table find
more than `k` rows, whether it succeeds or not. As soon as a row that stays would be seen, no
request for one beyond the `k` is answered, and its name is left. -/
theorem row_gone {k : ℕ}
    (hgone : ∀ req ∈ early ++ late ++ [kind.request env r], kind.ScansWith (LoadsAtMost k) req)
    (hbeyond : ∀ o, ¬ Selects k r o) :
    let out := agentStep dateNTime (after (agentStep dateNTime) a (before ++ (early ++ late)))
      (kind.request env r)
    out.2.name = r.name ∧ out.2.value = none := by
  intro out
  obtain ⟨c, c', hfinds, hsettled, hstep, -⟩ :=
    agentStep_settled dateNTime ha hcolumns hvp hloaded hcounted hearly hlate hdue
      (fun scan hscan found hfound => LoadsAtMost.finds hscan hfound) hgone
  exact Prod.mk.inj (hstep.beyond hfinds hsettled hbeyond)

end Run

/-- A database with one row, another at every second, and loads that find it. -/
def clockRows (x : ℤ) : List AlarmData := [clockRow x]

def steadyClock (timeNow clock : ℤ) : RequestEnv := .steady timeNow clock (clockRows clock)

/-- The request for the severity of the first alarm, in an outage and after it. -/
def firstSeverityRequest : Request := .get severityColumn 1 0 0

def severityInOutage : AgentRequest :=
  .alarm ⟨100, outage 10, outage 10, 0, .lexicographic⟩ firstSeverityRequest

def severityAfter (clock : ℤ) : AgentRequest :=
  TableKind.activeAlarms.request (steadyClock 161 clock) firstSeverityRequest

theorem severityInOutage_follows :
    TableKind.activeAlarms.ScansWith (Follows clockRows) severityInOutage := by
  intro env henv
  obtain rfl := Option.some.inj henv
  have hfailed : Follows clockRows (outage 10) := fun _ _ h => nomatch h
  exact ⟨hfailed, hfailed⟩

theorem severityAfter_follows (clock : ℤ) :
    TableKind.activeAlarms.ScansWith (Follows clockRows) (severityAfter clock) := by
  intro env henv
  obtain rfl := Option.some.inj henv
  have hfollows : Follows clockRows (steadyClock 161 clock).countScan :=
    fun _ _ h => (Attempt.obtained.inj h).symm
  exact ⟨hfollows, hfollows⟩

theorem severityAfter_loadsRow (clock : ℤ) :
    TableKind.activeAlarms.ScansWith (LoadsRow clockRows 0) (severityAfter clock) := by
  intro env henv
  obtain rfl := Option.some.inj henv
  have hloads : LoadsRow clockRows 0 (steadyClock 161 clock).countScan :=
    ⟨⟨0, by decide, _, rfl⟩, fun _ _ => rfl, ⟨Nat.one_pos, show 1 < 2147483648 by decide⟩⟩
  exact ⟨hloads, hloads⟩

/-- An outage, and a minute after it the severity of the alarm. -/
theorem row_visible_outage :
    let out := agentStep (fun _ => []) (after (agentStep fun _ => [])
      ⟨fmSnmpUtilCreateSession true .init, Table.init, Table.init⟩
      ([severityInOutage] ++ ([] ++ [severityAfter 11])))
      (TableKind.activeAlarms.request (steadyClock 161 12) firstSeverityRequest)
    out.2.name = firstSeverityRequest.vp.name ++ [0 + 1] ∧ ∃ loaded row,
      (steadyClock 161 12).indexScan.clock - TableKind.activeAlarms.code.minLoadFreq < loaded ∧
      loaded ≤ (steadyClock 161 12).indexScan.clock ∧ (clockRows loaded)[0]? = some row ∧
      out.2.value = (TableKind.activeAlarms.row (fun _ => []) (0 + 1) row)[
        firstSeverityRequest.vp.column - 1]? := by
  have hcolumn : firstSeverityRequest.vp ∈ TableKind.activeAlarms.columns := by decide
  have hfollows : ∀ req ∈ [severityInOutage] ++ ([] ++ [severityAfter 11]) ++ [severityAfter 12],
      TableKind.activeAlarms.ScansWith (Follows clockRows) req :=
    List.forall_mem_cons.mpr ⟨severityInOutage_follows, List.forall_mem_cons.mpr
      ⟨severityAfter_follows 11, List.forall_mem_singleton.mpr (severityAfter_follows 12)⟩⟩
  have hrow : ∀ req ∈ [] ++ [severityAfter 11] ++ [severityAfter 12],
      TableKind.activeAlarms.ScansWith (LoadsRow clockRows 0) req :=
    List.forall_mem_cons.mpr
      ⟨severityAfter_loadsRow 11, List.forall_mem_singleton.mpr (severityAfter_loadsRow 12)⟩
  have ha : Agent.init true =
      some ⟨fmSnmpUtilCreateSession true .init, Table.init, Table.init⟩ := rfl
  have hclocks : (0 :: TableKind.activeAlarms.clocks ([severityInOutage] ++
      ([] ++ [severityAfter 11]) ++ [severityAfter 12])).Pairwise (· ≤ ·) := by decide
  refine row_visible (fun _ => []) (m := 10) (w := 100) ha ?_ hcolumn (by decide +kernel)
    (by decide +kernel) (List.forall_mem_nil _) ?_ ?_ hclocks hfollows hrow
    ⟨rfl, mem_instances.mpr ⟨le_rfl, by decide⟩⟩
  · exact List.forall_mem_cons.mpr ⟨hcolumn, List.forall_mem_singleton.mpr hcolumn⟩
  · exact List.forall_mem_singleton.mpr (by decide)
  · exact ⟨_, List.mem_singleton.mpr rfl, by decide⟩

/-- The same request, when the table has been emptied. -/
def severityGone (clock : ℤ) : AgentRequest :=
  TableKind.activeAlarms.request (.steady 161 clock []) firstSeverityRequest

theorem severityGone_loadsAtMost (clock : ℤ) :
    TableKind.activeAlarms.ScansWith (LoadsAtMost 0) (severityGone clock) := by
  intro env henv
  obtain rfl := Option.some.inj henv
  have hempty : LoadsAtMost 0 (RequestEnv.steady 161 clock []).countScan := by
    intro i alarms hobtained
    obtain rfl := Attempt.obtained.inj hobtained
    exact le_rfl
  exact ⟨hempty, hempty⟩

/-- One alarm, cleared, and its severity a minute after. -/
theorem row_gone_cleared :
    let out := agentStep (fun _ => []) (after (agentStep fun _ => [])
      ⟨fmSnmpUtilCreateSession true .init, Table.init, Table.init⟩
      ([.alarm (.steady 100 10 [default]) firstSeverityRequest] ++ ([] ++ [severityGone 11])))
      (TableKind.activeAlarms.request (.steady 161 12 []) firstSeverityRequest)
    out.2.name = firstSeverityRequest.name ∧ out.2.value = none := by
  have hcolumn : firstSeverityRequest.vp ∈ TableKind.activeAlarms.columns := by decide
  have hgone : ∀ req ∈ [] ++ [severityGone 11] ++ [severityGone 12],
      TableKind.activeAlarms.ScansWith (LoadsAtMost 0) req :=
    List.forall_mem_cons.mpr
      ⟨severityGone_loadsAtMost 11, List.forall_mem_singleton.mpr (severityGone_loadsAtMost 12)⟩
  have ha : Agent.init true =
      some ⟨fmSnmpUtilCreateSession true .init, Table.init, Table.init⟩ := rfl
  refine row_gone (fun _ => []) (m := 10) (w := 100) ha ?_ hcolumn (by decide +kernel)
    (by decide +kernel) (List.forall_mem_nil _) ?_ ?_ hgone ?_
  · exact List.forall_mem_cons.mpr ⟨hcolumn, List.forall_mem_singleton.mpr hcolumn⟩
  · exact List.forall_mem_singleton.mpr (by decide)
  · exact ⟨_, List.mem_singleton.mpr rfl, by decide⟩
  · rintro o ⟨-, i, hpos, hle, -⟩
    omega

end StxSnmp.FmAgent
