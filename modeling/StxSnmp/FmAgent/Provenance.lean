import StxSnmp.FmAgent.Database
import StxSnmp.FmAgent.Independence
import StxSnmp.FmAgent.ScanInvariant
import StxSnmp.FmAgent.Uuid

/-!
# Where the values come from

The count may be older than the list, and then a lookup runs off the end of the list and the answer
is made from the buffers as they are. Even so nothing is made up: the buffers always hold one row,
which some query obtained, or the empty row they hold at first.

## Main definitions

* `ObtainsOnly Valid env`: the queries of a scan obtain rows with a property
* `HoldsOnlyRows Valid t`: the list and the buffers of a table hold rows with it

## Main results

* `HoldsOnlyRows.scanUntil`: a scan leaves the buffers of one row
* `tableStep_holdsOnlyRows`: a request keeps the rows in the table
* `values_of_rows`: every value answered in a run is the column's field of one row
-/

namespace StxSnmp.FmAgent

open Transducer

/-- A query that succeeds obtains rows with the property. -/
def ObtainsOnly (Valid : AlarmData → Prop) (env : ScanEnv) : Prop :=
  ∀ i alarms, env.attempts i = .obtained alarms → ∀ row ∈ alarms, Valid row

/-- The buffers a lookup leaves are those of one row, the UUID as far as its buffer holds it. -/
structure OfRow (Valid : AlarmData → Prop) (name : List UInt8) (alrm : AlarmData) : Prop where
  valid : Valid alrm
  name_eq : name = strlcpy alrm.uuid uuidSize

/-- The list and the buffers hold rows with the property. -/
structure HoldsOnlyRows (Valid : AlarmData → Prop) (t : Table) : Prop where
  list : ∀ row ∈ t.alarmList, Valid row
  buffers : OfRow Valid t.name t.alrm

section Table

variable {Valid : AlarmData → Prop} {c : TableCode} {t : Table} {p : Plugin}

theorem HoldsOnlyRows.scanInit (h : HoldsOnlyRows Valid t) {env : ScanEnv}
    (henv : ObtainsOnly Valid env) : HoldsOnlyRows Valid (scanInit c env (t, p)).1 := by
  obtain ⟨-, hs⟩ | ⟨-, p', -, hs⟩ | ⟨-, alarms, p', hq, hs⟩ := scanInit_cases (c := c) env t p
  · rw [hs]
    exact ⟨h.list, h.buffers⟩
  · rw [hs]
    exact ⟨fun _ hrow => absurd hrow List.not_mem_nil, h.buffers⟩
  · obtain ⟨j, hobtained⟩ := queryRows_eq_some (congrArg Prod.fst hq)
    rw [hs]
    have hcopied := loadRows_prefix env.allocated 0 alarms
    exact ⟨fun row hrow => henv j alarms hobtained row (hcopied.subset hrow), h.buffers⟩

theorem HoldsOnlyRows.getCount (h : HoldsOnlyRows Valid t) (timeNow : ℤ) {env : ScanEnv}
    (henv : ObtainsOnly Valid env) :
    HoldsOnlyRows Valid (getCount c timeNow env (t, p)).2.1 := by
  by_cases hdue : RecountDue timeNow t
  · have hstart : HoldsOnlyRows Valid ({ t with scanTime := timeNow } : Table) :=
      ⟨h.list, h.buffers⟩
    have hscan := hstart.scanInit (c := c) (p := p) henv
    rcases hload : FmAgent.scanInit c env ({ t with scanTime := timeNow }, p) with ⟨t', p'⟩
    obtain ⟨u, hu⟩ := getCount_recount hdue hload
    rw [hload] at hscan
    rw [hu]
    exact ⟨hscan.list, hscan.buffers⟩
  · rw [getCount_cached env hdue]
    exact h

/-- A scan writes the buffers of each row it visits, and none of a row it does not. -/
theorem scanUntil_ofRow {index i : ℤ} {n : List UInt8} {a : AlarmData} (h : OfRow Valid n a)
    (hrows : ∀ row ∈ t.alarmaddr, Valid row) :
    ∃ i' n' a', (scanUntil index ⟨some i, some n, some a⟩ t).1 = ⟨some i', some n', some a'⟩ ∧
      OfRow Valid n' a' := by
  induction hadr : t.alarmaddr generalizing i n a t with
  | nil =>
    rw [scanUntil_nil hadr]
    exact ⟨i, n, a, rfl, h⟩
  | cons row next ih =>
    rw [hadr] at hrows
    obtain ⟨hrow, hnext⟩ := List.forall_mem_cons.mp hrows
    have hvisited : OfRow Valid (strlcpy row.uuid uuidSize) row := ⟨hrow, rfl⟩
    rw [scanUntil_cons hadr]
    split_ifs
    · exact ⟨_, _, _, rfl, hvisited⟩
    · exact ih (t := t.visit row next) hvisited hnext rfl

/-- A lookup leaves the buffers of one row, found or not. -/
theorem HoldsOnlyRows.scanByIndex (h : HoldsOnlyRows Valid t) (index i : ℤ) {env : ScanEnv}
    (henv : ObtainsOnly Valid env) {res : ℤ} {name : List UInt8} {alrm : AlarmData} {t' : Table}
    {p' : Plugin}
    (hscan : FmAgent.scanByIndex c index i t.name t.alrm env (t, p) =
      ((res, name, alrm), (t', p'))) :
    (∀ row ∈ t'.alarmList, Valid row) ∧ OfRow Valid name alrm := by
  have hload := h.scanInit (c := c) (p := p) henv
  obtain ⟨⟨addr, j, u, htable⟩, -⟩ := scanByIndex_frame c index i t.name t.alrm env (t, p)
  have hcursor := (scanInit_cursor (c := c) env (t, p)).1
  rw [hscan] at htable
  obtain rfl : t' = _ := htable
  refine ⟨hload.list, ?_⟩
  -- the scan starts at the head of the list, with the buffers of the table
  obtain ⟨i', n', a', hptrs, hrow⟩ :
      ∃ i' n' a', (scanUntil index ⟨some i, some t.name, some t.alrm⟩
        (FmAgent.scanInit c env (t, p)).1).1 = ⟨some i', some n', some a'⟩ ∧ OfRow Valid n' a' :=
    scanUntil_ofRow h.buffers (hcursor ▸ hload.list)
  have hout : (FmAgent.scanByIndex c index i t.name t.alrm env (t, p)).1.2 = (n', a') := by
    simp only [FmAgent.scanByIndex, hptrs, Option.getD_some]
  rw [hscan] at hout
  obtain ⟨rfl, rfl⟩ : name = n' ∧ alrm = a' := by simpa using hout
  exact hrow

variable {entryValue : ℕ → ℤ → List UInt8 → AlarmData → Option Value} {env : RequestEnv}
  {r : Request}

/-- A request keeps the rows in the table. -/
theorem HoldsOnlyRows.varTable (h : HoldsOnlyRows Valid t)
    (henv : ObtainsOnly Valid env.countScan ∧ ObtainsOnly Valid env.indexScan) :
    HoldsOnlyRows Valid (varTable c entryValue env r (t, p)).1.1 ∧
      ((varTable c entryValue env r (t, p)).2.value.isSome → ∃ k row, Valid row ∧
        (varTable c entryValue env r (t, p)).2.name = r.vp.name ++ [k + 1] ∧
        (varTable c entryValue env r (t, p)).2.value =
          entryValue r.vp.magic (k + 1 : ℕ) (strlcpy row.uuid uuidSize) row) := by
  have hcount := h.getCount (c := c) (p := p) env.timeNow henv.1
  rcases hget : FmAgent.getCount c env.timeNow env.countScan (t, p) with ⟨count, t₁, q⟩
  rw [hget] at hcount
  obtain hsearch | ⟨index, hpos, -, hsearch⟩ := headerEntry_cases env.oids count r
  · rw [varTable_of_notFound hget hsearch]
    exact ⟨hcount, fun hvalue => nomatch hvalue⟩
  · rcases hscan : FmAgent.scanByIndex c index env.i t₁.name t₁.alrm env.indexScan (t₁, q) with
      ⟨⟨res, name, alrm⟩, t₂, q₂⟩
    obtain ⟨hlist, hbuffers⟩ := hcount.scanByIndex index env.i henv.2 hscan
    rw [varTable_eq_of_found hget hsearch hscan]
    refine ⟨⟨hlist, hbuffers⟩, fun _ => ⟨index - 1, alrm, hbuffers.valid, ?_, ?_⟩⟩
    · rw [Nat.sub_add_cancel hpos]
    · rw [Nat.sub_add_cancel hpos, ← hbuffers.name_eq]

end Table

section Run

variable (dateNTime : ℤ → List UInt8) {kind : TableKind} {Valid : AlarmData → Prop}

/-- A request to a table keeps its rows. -/
theorem tableStep_holdsOnlyRows (kind : TableKind) (Valid : AlarmData → Prop) :
    Preserves (tableStep dateNTime kind)
      (fun call => ObtainsOnly Valid call.1.countScan ∧ ObtainsOnly Valid call.1.indexScan)
      (HoldsOnlyRows Valid) := by
  intro t call henv h
  exact (h.varTable henv).1

/-- **Nothing is made up**: in any run, whatever loads fail and however the count and the list are
out of step, a value answered is the column's field of one row, its UUID included, that some query
of the table has obtained, or of the empty row the table starts with. -/
theorem values_of_rows (hempty : Valid default) {created : Bool} {a : Agent}
    (ha : Agent.init created = some a) {requests : List AgentRequest} {env : RequestEnv}
    {r : Request} (hvp : r.vp ∈ kind.columns)
    (hobtains : ∀ req ∈ requests ++ [kind.request env r],
      kind.ScansWith (ObtainsOnly Valid) req)
    (hvalue : (agentStep dateNTime (after (agentStep dateNTime) a requests)
      (kind.request env r)).2.value.isSome) :
    let out := agentStep dateNTime (after (agentStep dateNTime) a requests) (kind.request env r)
    ∃ k row, Valid row ∧ out.2.name = r.vp.name ++ [k + 1] ∧
      out.2.value = (kind.row dateNTime (k + 1) row)[r.vp.column - 1]? := by
  obtain ⟨hbefore, hlast⟩ := List.forall_mem_append.mp hobtains
  have hinit : HoldsOnlyRows Valid (kind.table a) := by
    rw [kind.table_init ha]
    exact ⟨fun _ h => absurd h List.not_mem_nil, hempty, rfl⟩
  -- the table runs on its own requests
  have htable : HoldsOnlyRows Valid (kind.table (after (agentStep dateNTime) a requests)) := by
    rw [(table_component dateNTime kind).after]
    refine (tableStep_holdsOnlyRows dateNTime kind Valid).after ?_ hinit
    intro call hcall
    obtain ⟨req, hreq, hsel⟩ := List.mem_filterMap.mp hcall
    exact (hbefore req hreq).of_call? hsel
  have henv := hlast _ (List.mem_singleton.mpr rfl) env (kind.requestEnv_request env r)
  have hreply := (kind.agentStep_request dateNTime (after (agentStep dateNTime) a requests) env r).2
  simp only [hreply] at hvalue ⊢
  obtain ⟨k, row, hvalid, hname, hanswer⟩ := (htable.varTable henv).2 hvalue
  refine ⟨k, row, hvalid, hname, ?_⟩
  rw [hanswer]
  exact (kind.serves dateNTime).field r.vp hvp (k + 1) row

end Run

/-- A request for the severity of the first alarm, from a database whose rows all have severity 3,
which fails for the lookup. -/
def failedLookup : RequestEnv :=
  ⟨100, ⟨1, fun _ => .obtained [{ (default : AlarmData) with severity := 3 }], fun _ => true⟩,
    ⟨2, fun _ => .failed true, fun _ => true⟩, 0, .lexicographic⟩

/-- The first request, made to the alarms. -/
def failedLookupOut : Agent × Response :=
  agentStep (fun _ => []) (after (agentStep fun _ => [])
    ⟨fmSnmpUtilCreateSession true .init, Table.init, Table.init⟩ [])
    (TableKind.activeAlarms.request failedLookup (.get severityColumn 1 0 0))

/-- It answers the severity of a row of the database, or of the empty row. -/
theorem values_of_rows_failedLookup :
    ∃ k row, (row.severity = 0 ∨ row.severity = 3) ∧
      failedLookupOut.2.name = (Request.get severityColumn 1 0 0).vp.name ++ [k + 1] ∧
      failedLookupOut.2.value = (TableKind.activeAlarms.row (fun _ => []) (k + 1) row)[
        (Request.get severityColumn 1 0 0).vp.column - 1]? := by
  have hobtains : ∀ req ∈ [] ++ [TableKind.activeAlarms.request failedLookup
      (.get severityColumn 1 0 0)], TableKind.activeAlarms.ScansWith
        (ObtainsOnly fun row => row.severity = 0 ∨ row.severity = 3) req := by
    intro req hreq env henv
    obtain rfl := List.mem_singleton.mp hreq
    obtain rfl := Option.some.inj henv
    refine ⟨?_, fun _ _ h => nomatch h⟩
    intro i alarms h row hrow
    obtain rfl := Attempt.obtained.inj h
    obtain rfl := List.mem_singleton.mp hrow
    exact Or.inr rfl
  have ha : Agent.init true =
      some ⟨fmSnmpUtilCreateSession true .init, Table.init, Table.init⟩ := rfl
  unfold failedLookupOut
  exact values_of_rows (fun _ => []) (Or.inl rfl) ha (by decide) hobtains (by decide +kernel)

end StxSnmp.FmAgent
