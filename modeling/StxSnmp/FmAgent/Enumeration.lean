import StxSnmp.FmAgent.Memory

/-!
# Scanning the rows loaded

A load leaves the cursor at the head of a list that ends; the scan steps that follow return its
rows in order, each with its index, and then nothing. The scan by index stops at the row asked
for, or tells from its own index that there is none.

## Main definitions

* `failedTry`, `Reloaded`: what a load that asks the database calls, and the rows it obtains
* `ScanStarted`: the memory after a load
* `Memory.scanAll`: scan steps on a table, one after another
* `ReportsExistence`: whether a row exists, and which it is

## Main results

* `scan_enumerates`: after any calls a load succeeds, and the steps after it go through the rows
* `scanByIndex_iff`: when the scan by index tells whether a row exists
-/

namespace StxSnmp.FmAgent

open LinkedList

/-! ## The attempts of a load -/

/-- The calls of an attempt that fails: the query with the handle there is, and the renewal of the
session, with the handle it stores. -/
def failedTry (c : TableCode) (handles : Option ℕ × Option ℕ) : List FmCall :=
  [c.getAll handles.1, .destroySession handles.1, .createSession handles.2]

/-- What a load that asks the database does: each failed attempt is followed by one renewal; the
first that succeeds gives the rows, up to an allocation that fails; there are none if all fail. -/
def Reloaded (c : TableCode) (env : ScanEnv) (p p' : Plugin) (rows : List AlarmData) : Prop :=
  ∃ tries : List (Option ℕ × Option ℕ),
    (∀ i < tries.length, ∃ created, env.attempts i = .failed created) ∧
    ((tries.length = retryCount ∧ p'.calls = p.calls ++ tries.flatMap (failedTry c) ∧ rows = []) ∨
      ∃ alarms handle, tries.length < retryCount ∧
        env.attempts tries.length = .obtained alarms ∧
        p'.calls = p.calls ++ tries.flatMap (failedTry c) ++ [c.getAll handle] ∧
        rows <+: alarms ∧ ((∀ i < alarms.length, env.allocated i = true) → rows = alarms))

section Attempts

variable {c : TableCode}

theorem renewAlarmSession_calls (created : Bool) (p : Plugin) :
    ∃ stored, (renewAlarmSession created (p.call (c.getAll (getAlarmSession p)))).calls =
      p.calls ++ failedTry c (p.almHandle, stored) := by
  cases created
  · exact ⟨none, by simp [renewAlarmSession, fmSnmpUtilCreateSession, fmSnmpUtilDestroySession,
      failedTry, getAlarmSession, Plugin.call]⟩
  · exact ⟨some p.nextHandle, by simp [renewAlarmSession, fmSnmpUtilCreateSession,
      fmSnmpUtilDestroySession, failedTry, getAlarmSession, Plugin.call]⟩

/-- The retry loop renews the session after each failed attempt, and ends with the first that
succeeds. -/
theorem queryRows_calls (attempts : ℕ → Attempt) (n i : ℕ) (p : Plugin) :
    ∃ tries : List (Option ℕ × Option ℕ),
      (∀ j < tries.length, ∃ created, attempts (i + j) = .failed created) ∧
      ((tries.length = n ∧ (queryRows c attempts n i p).1 = none ∧
          (queryRows c attempts n i p).2.calls = p.calls ++ tries.flatMap (failedTry c)) ∨
        ∃ alarms handle, tries.length < n ∧ attempts (i + tries.length) = .obtained alarms ∧
          (queryRows c attempts n i p).1 = some alarms ∧
          (queryRows c attempts n i p).2.calls =
            p.calls ++ tries.flatMap (failedTry c) ++ [c.getAll handle]) := by
  induction n generalizing i p with
  | zero =>
    refine ⟨[], fun j hj => absurd hj (Nat.not_lt_zero j), Or.inl ⟨rfl, rfl, ?_⟩⟩
    exact (List.append_nil _).symm
  | succ n ih =>
    rw [queryRows]
    cases hattempt : attempts i with
    | obtained alarms =>
      refine ⟨[], fun j hj => absurd hj (Nat.not_lt_zero j), Or.inr ⟨alarms, p.almHandle,
        Nat.succ_pos n, hattempt, rfl, ?_⟩⟩
      simp [getAlarmSession]
    | failed created =>
      obtain ⟨stored, hcalls⟩ := renewAlarmSession_calls (c := c) created p
      obtain ⟨tries, hfailed, hresult⟩ :=
        ih (i + 1) (renewAlarmSession created (p.call (c.getAll (getAlarmSession p))))
      have hindex (j : ℕ) : i + (j + 1) = i + 1 + j := by omega
      refine ⟨(p.almHandle, stored) :: tries, ?_, ?_⟩
      · intro j hj
        cases j with
        | zero => exact ⟨created, hattempt⟩
        | succ j =>
          rw [hindex]
          exact hfailed j (Nat.lt_of_succ_lt_succ hj)
      · -- the attempt is in front of those of the rest of the loop
        rw [List.flatMap_cons, ← List.append_assoc, ← hcalls, List.length_cons,
          hindex tries.length]
        simpa only [Nat.succ_lt_succ_iff, Nat.add_right_cancel_iff] using hresult

end Attempts

/-! ## A scan after a load -/

/-- The memory after a load: the list ends and its nodes are in use, the cursor is at its head; a
load skipped leaves the list, any other one gives it the rows obtained. -/
structure ScanStarted (kind : TableKind) (env : ScanEnv) (m m' : Memory) (nodes : List ℕ) :
    Prop where
  list : Chain m'.heap (m'.statics kind).alarmList nodes
  alarmaddr : (m'.statics kind).alarmaddr = (m'.statics kind).alarmList
  saveIndex : (m'.statics kind).saveIndex = 0
  skipped : env.clock < (m.statics kind).lastLoad + kind.code.minLoadFreq →
    m'.heap = m.heap ∧ (m'.statics kind).alarmList = (m.statics kind).alarmList ∧
      m'.plugin = m.plugin
  reloaded : (m.statics kind).lastLoad + kind.code.minLoadFreq ≤ env.clock →
    Reloaded kind.code env m.plugin m'.plugin (m'.heap.values nodes)

/-- Scan steps on a table, one after another, with their results. -/
def Memory.scanAll (kind : TableKind) (m : Memory) :
    List ScanPtrs → Option (List (Option ScanPtrs) × Memory)
  | [] => some ([], m)
  | ptrs :: calls => do
    let (result, m) ← m.scanNext kind ptrs
    let (results, m) ← m.scanAll kind calls
    some (result :: results, m)

/-- Scan steps that ask for the index go through the rows from the cursor on, and then find
nothing. -/
theorem Refines.scanAll {kind : TableKind} {m : Memory} {s : Lists} {nodes : TableKind → List ℕ}
    (hm : Refines m s nodes) {rows : List AlarmData} {i : ℤ}
    (hrows : (s.tables kind).alarmaddr = rows) (hindex : (s.tables kind).saveIndex = i)
    {calls : List ScanPtrs} (hcalls : ∀ ptrs ∈ calls, ptrs.index.isSome) :
    (m.scanAll kind calls).map Prod.fst =
      some (calls.mapIdx fun k ptrs => rows[k]?.map (ptrs.write (i + (k + 1)))) := by
  induction calls generalizing m s rows i with
  | nil => rfl
  | cons ptrs calls ih =>
    obtain ⟨hptrs, hcalls⟩ := List.forall_mem_cons.mp hcalls
    obtain ⟨m', hnext, hm'⟩ := hm.scanNext kind ptrs
    have hcons : (m.scanAll kind (ptrs :: calls)).map Prod.fst =
        ((m'.scanAll kind calls).map Prod.fst).map
          ((FmAgent.scanNext ptrs (s.tables kind)).map Prod.fst :: ·) := by
      rw [Memory.scanAll, hnext]
      show ((m'.scanAll kind calls).bind _).map _ = _
      cases m'.scanAll kind calls <;> rfl
    rw [hcons, List.mapIdx_cons]
    cases rows with
    | nil =>
      -- the cursor is null, and stays so
      have hnone := scanNext_nil ptrs hrows
      have htables : (s.step (.next kind ptrs)).tables kind = s.tables kind := by
        simp [Lists.step, hnone]
      rw [ih hm' (htables ▸ hrows) (htables ▸ hindex) hcalls, hnone]
      simp
    | cons row rest =>
      have hsome := scanNext_cons ptrs hrows
      have hnextIndex : ptrs.nextIndex (s.tables kind).saveIndex = i + 1 := by
        rw [ScanPtrs.nextIndex, if_pos hptrs, hindex]
      have htables : (s.step (.next kind ptrs)).tables kind = { s.tables kind with
          saveUuid := strlcpy row.uuid uuidSize, saveIndex := i + 1, alarmaddr := rest } := by
        simp [Lists.step, hsome, hnextIndex]
      rw [ih hm' (congrArg Table.alarmaddr htables) (congrArg Table.saveIndex htables) hcalls,
        hsome, hnextIndex]
      have hstep (k : ℕ) : i + 1 + ((k : ℤ) + 1) = i + (((k + 1 : ℕ) : ℤ) + 1) := by omega
      simp only [Option.map_some, List.getElem?_cons_zero, List.getElem?_cons_succ, hstep,
        Nat.cast_zero, Int.zero_add]

/-- A load that is due obtains its rows from the first attempt that succeeds. -/
theorem scanInit_reloaded {c : TableCode} {env : ScanEnv} {t : Table} (p : Plugin)
    (hdue : t.lastLoad + c.minLoadFreq ≤ env.clock) :
    Reloaded c env p (scanInit c env (t, p)).2 (scanInit c env (t, p)).1.alarmList := by
  obtain ⟨tries, hfailed, hresult⟩ := queryRows_calls (c := c) env.attempts retryCount 0 p
  simp only [Nat.zero_add] at hfailed hresult
  refine ⟨tries, hfailed, ?_⟩
  obtain ⟨hskip, -⟩ | ⟨-, p', hquery, hload⟩ | ⟨-, alarms, p', hquery, hload⟩ :=
    scanInit_cases (c := c) env t p
  · exact absurd hdue (Int.not_le.mpr hskip)
  · rw [hload]
    obtain ⟨hlength, -, hcalls⟩ | ⟨alarms, handle, -, -, hsome, -⟩ := hresult
    · rw [hquery] at hcalls
      exact Or.inl ⟨hlength, hcalls, rfl⟩
    · rw [hquery] at hsome
      cases hsome
  · rw [hload]
    obtain ⟨-, hnone, -⟩ | ⟨alarms', handle, hlength, hattempt, hsome, hcalls⟩ := hresult
    · rw [hquery] at hnone
      cases hnone
    · rw [hquery] at hsome hcalls
      obtain rfl := Option.some.inj hsome
      refine Or.inr ⟨alarms, handle, hlength, hattempt, hcalls, loadRows_prefix _ 0 alarms, ?_⟩
      intro hall
      refine loadRows_of_allocated fun j hj => ?_
      rw [Nat.zero_add]
      exact hall j hj

/-- **Every scan goes through the rows once and in order**: whatever calls came before, a load
reads no freed node and leaves a list that ends, the one there was or the rows obtained; and the
scan steps that follow return its rows with their indices, and then nothing. -/
theorem scan_enumerates (p : Plugin) (history : List ScanCall) (kind : TableKind)
    (alloc : Allocator ℕ) (env : ScanEnv) :
    ∃ m m' nodes, history.foldlM Memory.step (.init p) = some m ∧
      m.scanInit kind alloc env = some m' ∧ ScanStarted kind env m m' nodes ∧
      ∀ calls : List ScanPtrs, (∀ ptrs ∈ calls, ptrs.index.isSome) →
        (m'.scanAll kind calls).map Prod.fst = some (calls.mapIdx fun k ptrs =>
          (m'.heap.values nodes)[k]?.map (ptrs.write (k + 1))) := by
  obtain ⟨m, nodes, hrun, hm⟩ := (Refines.init p).run history
  obtain ⟨m', nodes', hinit, hm', hcursor⟩ := hm.scanInit kind alloc env
  generalize history.foldl Lists.step (.init p) = s at hm hm'
  have hrep := hm'.represents kind
  have htables : (s.step (.init kind alloc env)).tables kind =
      (scanInit kind.code env (s.tables kind, s.plugin)).1 := by
    simp [Lists.step]
  obtain ⟨hhead, hzero⟩ := scanInit_cursor (c := kind.code) env (s.tables kind, s.plugin)
  refine ⟨m, m', nodes' kind, hrun, hinit, ⟨hrep.list, hcursor, ?_, ?_, ?_⟩, ?_⟩
  · rw [hrep.saveIndex, htables, hzero]
  · intro hskip
    rw [Memory.scanInit_of_statics (Statics.scanInit_of_skip hskip)] at hinit
    cases hinit
    exact ⟨rfl, by simp, rfl⟩
  · intro hdue
    rw [(hm.represents kind).lastLoad] at hdue
    have hplugin : m'.plugin = (scanInit kind.code env (s.tables kind, s.plugin)).2 := hm'.plugin
    rw [hrep.rows, htables, hplugin, hm.plugin]
    exact scanInit_reloaded s.plugin hdue
  · intro calls hcalls
    have hrows : ((s.step (.init kind alloc env)).tables kind).alarmaddr =
        m'.heap.values (nodes' kind) := by
      rw [hrep.rows, htables, hhead]
    simpa only [Int.zero_add] using
      hm'.scanAll hrows (i := 0) (by rw [htables, hzero]) hcalls

/-! ## The scan by index -/

/-- A result tells whether there is a row `index`, and the buffer is that row. -/
def ReportsExistence (rows : List AlarmData) (index result : ℤ) (aalm : AlarmData) : Prop :=
  (result = 0 ↔ index ≤ rows.length) ∧
    (index ≤ rows.length → rows[(index - 1).toNat]? = some aalm) ∧
    (¬ index ≤ rows.length → result = -1)

/-- A scan for a row beyond the end leaves the index of the last one, or what `i` held before if
there is none. -/
theorem scanUntil_index_past {index i : ℤ} {n : List UInt8} {a : AlarmData} {t : Table}
    (h : t.saveIndex + t.alarmaddr.length < index) :
    (scanUntil index ⟨some i, some n, some a⟩ t).1.index =
      some (if t.alarmaddr = [] then i else t.saveIndex + t.alarmaddr.length) := by
  induction hadr : t.alarmaddr generalizing i n a t with
  | nil => rw [scanUntil_nil hadr, if_pos rfl]
  | cons row next ih =>
    rw [hadr, List.length_cons] at h
    have hne : t.saveIndex + 1 ≠ index := by omega
    have hnext : (t.visit row next).saveIndex + (t.visit row next).alarmaddr.length < index := by
      simp only [Table.visit]
      omega
    rw [scanUntil_cons hadr, if_neg hne, ih hnext rfl, if_neg (List.cons_ne_nil row next)]
    simp only [Table.visit, List.length_cons, Option.some.injEq]
    split
    · next hnil => simp [hnil]
    · omega

section ByIndex

variable {c : TableCode} {env : ScanEnv} {s : Table × Plugin} {index i : ℤ} {n : List UInt8}
  {a : AlarmData}

/-- Beyond the list the scan by index fails, unless its local holds the index all along. -/
theorem scanByIndex_past (h : ((scanInit c env s).1.alarmList.length : ℤ) < index) :
    (scanByIndex c index i n a env s).1.1 =
      if (scanInit c env s).1.alarmList = [] ∧ i = index then 0 else -1 := by
  obtain ⟨hcursor, hzero⟩ := scanInit_cursor (c := c) env s
  have hlength :
      (scanInit c env s).1.saveIndex + (scanInit c env s).1.alarmaddr.length < index := by
    rw [hcursor, hzero]
    omega
  have hpast := scanUntil_index_past (i := i) (n := n) (a := a) hlength
  rw [hcursor, hzero, Int.zero_add] at hpast
  show (if (scanUntil index ⟨some i, some n, some a⟩ (scanInit c env s).1).1.index ≠ some index
    then (-1 : ℤ) else 0) = _
  rw [hpast]
  by_cases hnil : (scanInit c env s).1.alarmList = []
  · by_cases hi : i = index <;> simp [hnil, hi]
  · have hne : ((scanInit c env s).1.alarmList.length : ℤ) ≠ index := by omega
    simp [hnil, hne]

end ByIndex

/-- **When the scan by index tells whether a row exists**: unless the list is empty after the load
and the local that no row was scanned into holds the index asked for. -/
theorem scanByIndex_iff (kind : TableKind) (env : ScanEnv) (s : Table × Plugin) {index : ℤ}
    (hindex : 1 ≤ index) (i : ℤ) (name : List UInt8) (aalm : AlarmData) :
    ReportsExistence (scanInit kind.code env s).1.alarmList index
        (scanByIndex kind.code index i name aalm env s).1.1
        (scanByIndex kind.code index i name aalm env s).1.2.2 ↔
      (scanInit kind.code env s).1.alarmList ≠ [] ∨ i ≠ index := by
  rcases Int.lt_or_le ((scanInit kind.code env s).1.alarmList.length : ℤ) index with hlt | hle
  · -- there is no such row
    rw [ReportsExistence, scanByIndex_past hlt]
    have hnot : ¬ index ≤ ((scanInit kind.code env s).1.alarmList.length : ℤ) := by omega
    by_cases hleft : (scanInit kind.code env s).1.alarmList = [] ∧ i = index
    · rw [if_pos hleft]
      refine iff_of_false (fun h => hnot (h.1.mp rfl)) ?_
      rintro (h | h)
      · exact h hleft.1
      · exact h hleft.2
    · rw [if_neg hleft]
      refine iff_of_true ⟨?_, fun h => absurd h hnot, fun _ => rfl⟩ (not_and_or.mp hleft)
      exact iff_of_false (by decide) hnot
  · obtain ⟨k, rfl⟩ : ∃ k : ℕ, index = k + 1 := ⟨(index - 1).toNat, by omega⟩
    have hk : k < (scanInit kind.code env s).1.alarmList.length := by omega
    have hrow := List.getElem?_eq_getElem hk
    refine iff_of_true ?_ (Or.inl (List.ne_nil_of_length_pos (Nat.zero_lt_of_lt hk)))
    rw [ReportsExistence, scanByIndex_of_getElem hrow]
    refine ⟨iff_of_true rfl hle, fun _ => ?_, fun h => absurd hle h⟩
    rw [Int.add_sub_cancel, Int.toNat_natCast]
    exact hrow

/-- A load that finds the database without an alarm. -/
def noAlarms : ScanEnv := ⟨100, fun _ => .obtained [], fun _ => true⟩

/-- With something else left over in the local, the row is missed. -/
theorem scanByIndex_iff_noAlarms :
    ReportsExistence (scanInit activeAlarms noAlarms (.init, .init)).1.alarmList 1
      (scanByIndex activeAlarms 1 0 [] default noAlarms (.init, .init)).1.1
      (scanByIndex activeAlarms 1 0 [] default noAlarms (.init, .init)).1.2.2 :=
  (scanByIndex_iff .activeAlarms noAlarms (.init, .init) (by decide) 0 [] default).mpr
    (Or.inr (by decide))

/-- With the index left over in the local, the scan of an empty list finds a row. -/
theorem leftover_index_found :
    (scanInit activeAlarms noAlarms (.init, .init)).1.alarmList = [] ∧
      (scanByIndex activeAlarms 1 1 [] default noAlarms (.init, .init)).1.1 = 0 ∧
      ¬ ReportsExistence [] 1 0
        (scanByIndex activeAlarms 1 1 [] default noAlarms (.init, .init)).1.2.2 := by
  have hempty : (scanInit activeAlarms noAlarms (.init, .init)).1.alarmList = [] := rfl
  refine ⟨hempty, ?_, ?_⟩
  · rw [scanByIndex_past (by rw [hempty]; decide), if_pos ⟨hempty, rfl⟩]
  · intro h
    exact absurd (h.1.mp rfl) (by decide)

end StxSnmp.FmAgent
