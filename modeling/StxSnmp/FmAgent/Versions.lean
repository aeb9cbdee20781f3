import StxSnmp.FmAgent.Freshness

/-!
# Reads of successive loads

A manager reads a row column by column, and a table row by row, with a request for each value. The
list may be loaded again between any two of them. What is answered never goes back to an older load,
and between two loads lies a load period at least, so what is read within one period is of one load.

## Main definitions

* `LaterRows c t t'`: the rows held are the same, or from a load a period later

## Main results

* `laterRows_invariant`: every scan keeps or replaces the rows so
* `reads_monotonic`: of two answers in a run the second is of the same load, or of one at least a
  period later
-/

namespace StxSnmp.FmAgent

open Transducer

/-- The rows of `t'` are those of `t`, or of a load at least a period after theirs. -/
def LaterRows (c : TableCode) (t t' : Table) : Prop :=
  (t'.lastLoad = t.lastLoad ∧ t'.alarmList = t.alarmList) ∨ t.lastLoad + c.minLoadFreq ≤ t'.lastLoad

section Scan

variable {c : TableCode} {t t' : Table}

theorem LaterRows.refl (c : TableCode) (t : Table) : LaterRows c t t := Or.inl ⟨rfl, rfl⟩

theorem LaterRows.le (h : LaterRows c t t') (hfreq : 0 < c.minLoadFreq) :
    t.lastLoad ≤ t'.lastLoad := by
  obtain ⟨hload, -⟩ | hlater := h
  · exact hload.ge
  · omega

/-- Within a period of the load the rows are the same. -/
theorem LaterRows.same (h : LaterRows c t t') (hlt : t'.lastLoad < t.lastLoad + c.minLoadFreq) :
    t'.lastLoad = t.lastLoad ∧ t'.alarmList = t.alarmList :=
  h.resolve_right (Int.not_le.mpr hlt)

/-- A scan that is not skipped comes a period after the load it replaces. -/
theorem LaterRows.scanInit (h : LaterRows c t t') (hfreq : 0 < c.minLoadFreq) (env : ScanEnv)
    (p : Plugin) : LaterRows c t (scanInit c env (t', p)).1 := by
  have hle := h.le hfreq
  obtain ⟨-, hs⟩ | ⟨hdue, p', -, hs⟩ | ⟨hdue, alarms, p', -, hs⟩ := scanInit_cases (c := c) env t' p
  · rw [hs]
    exact h
  · rw [hs]
    refine Or.inr ?_
    show t.lastLoad + c.minLoadFreq ≤ env.clock
    omega
  · rw [hs]
    refine Or.inr ?_
    show t.lastLoad + c.minLoadFreq ≤ env.clock
    omega

end Scan

/-- However the queries end. -/
theorem laterRows_invariant (kind : TableKind) (t : Table) :
    ScanInvariant kind (fun _ => True) (fun _ s => LaterRows kind.code t s.1) where
  later h _ := h
  scan h _ _ := h.scanInit kind.minLoadFreq_pos _ _
  congr h hlist hload _ := by
    rw [LaterRows, hlist, hload]
    exact h

/-- **Reads are monotonic, and those within a load period are of one load**: in any run on a
monotonic clock, while the queries that succeed obtain what the database has, take two answers with
any requests between. Each is served at a load of its own period, unless its row is beyond the list;
the second load is not before the first, and before a period has passed since the first it is the
same load, with the same rows. -/
theorem reads_monotonic (dateNTime : ℤ → List UInt8) {kind : TableKind}
    {db : ℤ → List AlarmData} {created : Bool} {a : Agent} (ha : Agent.init created = some a)
    {before between : List AgentRequest} {env₁ env₂ : RequestEnv} {r₁ r₂ : Request}
    (hvp₁ : r₁.vp ∈ kind.columns) (hvp₂ : r₂.vp ∈ kind.columns)
    (hfollows : ∀ req ∈ before ++ kind.request env₁ r₁ :: (between ++ [kind.request env₂ r₂]),
      kind.ScansWith (Follows db) req)
    (hclocks : (0 :: kind.clocks (before ++ kind.request env₁ r₁ ::
      (between ++ [kind.request env₂ r₂]))).Pairwise (· ≤ ·)) :
    let out₁ := agentStep dateNTime (after (agentStep dateNTime) a before) (kind.request env₁ r₁)
    let out₂ := agentStep dateNTime (after (agentStep dateNTime) out₁.1 between)
      (kind.request env₂ r₂)
    out₁.2.value.isSome → out₂.2.value.isSome → ∃ loaded₁ loaded₂ k₁ k₂,
      ServedAt dateNTime kind db env₁ r₁ out₁ loaded₁ k₁ ∧
      ServedAt dateNTime kind db env₂ r₂ out₂ loaded₂ k₂ ∧ loaded₁ ≤ loaded₂ ∧
      (env₂.indexScan.clock < loaded₁ + kind.code.minLoadFreq → loaded₂ = loaded₁ ∧
        (kind.table out₂.1).alarmList = (kind.table out₁.1).alarmList) := by
  intro out₁ out₂ hvalue₁ hvalue₂
  obtain ⟨hbefore, hrest⟩ := List.forall_mem_append.mp hfollows
  obtain ⟨hreq₁, hrest⟩ := List.forall_mem_cons.mp hrest
  obtain ⟨hbetween, hreq₂⟩ := List.forall_mem_append.mp hrest
  have hreq₁ := hreq₁ env₁ (kind.requestEnv_request env₁ r₁)
  have hreq₂ := hreq₂ _ (List.mem_singleton.mpr rfl) env₂ (kind.requestEnv_request env₂ r₂)
  obtain ⟨hrun₁, hclock₁, hclocks⟩ := TableKind.clocks_at_request hclocks
  obtain ⟨hrun₂, hclock₂, -⟩ := TableKind.clocks_at_request hclocks
  have hfrom := loadedFrom_invariant kind db
  obtain ⟨hloaded₁, k₁, hserved₁⟩ :=
    (hfrom.after dateNTime (loadedFrom_init ha) hbefore hrun₁).servedAt hvp₁ hreq₁ le_rfl hclock₁
      hvalue₁
  obtain ⟨-, k₂, hserved₂⟩ :=
    (hfrom.after dateNTime hloaded₁ hbetween hrun₂).servedAt hvp₂ hreq₂ le_rfl hclock₂ hvalue₂
  -- from the first answer on the rows are kept, or replaced after a period
  have hlater := laterRows_invariant kind (kind.table out₁.1)
  have hkept := hlater.after dateNTime (LaterRows.refl kind.code (kind.table out₁.1))
    (fun _ _ _ _ => ⟨trivial, trivial⟩) hrun₂
  have hrows : LaterRows kind.code (kind.table out₁.1) (kind.table out₂.1) :=
    hlater.step dateNTime hkept (kind.requestEnv_request env₂ r₂) ⟨trivial, trivial⟩ le_rfl hclock₂
  refine ⟨_, _, k₁, k₂, hserved₁, hserved₂, hrows.le kind.minLoadFreq_pos, fun hlt => ?_⟩
  exact hrows.same (hserved₂.loaded_le.trans_lt hlt)

/-- The request for the severity of the first event, when it is first made. -/
def firstSeverity : Agent × Response :=
  agentStep (fun _ => []) ⟨fmSnmpUtilCreateSession true .init, Table.init, Table.init⟩
    (TableKind.eventLogs.request (clockEnv 10) eventSeverityRequest)

/-- It is answered, and so it is a second later. -/
theorem reads_monotonic_event :
    ∃ loaded₁ loaded₂ k₁ k₂,
      ServedAt (fun _ => []) .eventLogs (fun x => [clockRow x]) (clockEnv 10) eventSeverityRequest
        firstSeverity loaded₁ k₁ ∧
      ServedAt (fun _ => []) .eventLogs (fun x => [clockRow x]) (clockEnv 11) eventSeverityRequest
        laterSeverity loaded₂ k₂ ∧ loaded₁ ≤ loaded₂ ∧
      ((clockEnv 11).indexScan.clock < loaded₁ + TableKind.eventLogs.code.minLoadFreq →
        loaded₂ = loaded₁ ∧ (TableKind.eventLogs.table laterSeverity.1).alarmList =
          (TableKind.eventLogs.table firstSeverity.1).alarmList) := by
  have hfollows : ∀ req ∈ [] ++ TableKind.eventLogs.request (clockEnv 10) eventSeverityRequest ::
      ([] ++ [TableKind.eventLogs.request (clockEnv 11) eventSeverityRequest]),
      TableKind.eventLogs.ScansWith (Follows fun x => [clockRow x]) req := by
    intro req hreq env henv
    rcases List.mem_pair.mp hreq with rfl | rfl <;> obtain rfl := Option.some.inj henv
    · exact follows_clockEnv 10
    · exact follows_clockEnv 11
  have ha : Agent.init true =
      some ⟨fmSnmpUtilCreateSession true .init, Table.init, Table.init⟩ := rfl
  have hvalue₁ : firstSeverity.2.value.isSome := by decide +kernel
  have hvalue₂ : laterSeverity.2.value.isSome := by decide +kernel
  have hreads := reads_monotonic (fun _ => []) ha (by decide) (by decide) hfollows (by decide)
  simp only [laterSeverity, firstSeverity, after_cons, after_nil] at hreads hvalue₁ hvalue₂ ⊢
  exact hreads hvalue₁ hvalue₂

end StxSnmp.FmAgent
