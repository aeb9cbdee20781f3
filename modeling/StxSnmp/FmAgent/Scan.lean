import StxSnmp.FmAgent.Session
import StxSnmp.Library.MachineInt

/-!
# Loading and scanning a table

The active-alarm table and the event log each keep a list of rows, a cursor into it, a count
and their load times in statics of their own. `snmpActiveAlarms.c` and `snmpEventLogs.c` are
the same code but for the shortest time between two loads and the query they make, the
parameters `TableCode` of the definitions here.

## Main definitions

* `AlarmData`, `Table`: a database row, and the statics of one table
* `ScanEnv`: what one load meets: the clock, the queries, the allocations
* `scanInit`, `scanNext`, `scanByIndex`, `getCount`: the scan functions

## Main results

* `scanInit_cases`: a load is skipped, fails, or loads rows
* `scanNext_cons`: a scan step on a row
* `countRows_spec`, `scanUntil_spec`: what the two scans of a list leave behind
* `scanByIndex_of_getElem`, `getCount_recount`, `getCount_cached`: the two users of the list
-/

namespace StxSnmp.FmAgent

open MachineInt

/-- The members of `SFmAlarmDataT` the tables serve; a character array is the bytes before its
terminator. -/
structure AlarmData where
  uuid : List UInt8
  alarmId : List UInt8
  alarmState : ℤ
  entityInstanceId : List UInt8
  timestamp : ℕ
  severity : ℤ
  reasonText : List UInt8
  alarmType : ℤ
  probableCause : ℤ
  proposedRepairAction : List UInt8
  serviceAffecting : ℤ
  suppression : ℤ
  deriving DecidableEq, Repr, Inhabited

/-- The statics of one table. The list is its rows in order, the cursor the rows from it on. -/
structure Table where
  count : ℕ
  scanTime : ℤ
  alarmList : List AlarmData
  alarmaddr : List AlarmData
  saveIndex : ℤ
  saveUuid : List UInt8
  lastLoad : ℤ
  alrm : AlarmData
  name : List UInt8
  deriving DecidableEq, Repr

/-- The statics before the first request. -/
def Table.init : Table := ⟨0, 0, [], [], 0, [], 0, default, []⟩

/-- What `snmpActiveAlarms.c` and `snmpEventLogs.c` do not share. -/
structure TableCode where
  minLoadFreq : ℤ
  getAll : Option ℕ → FmCall

def activeAlarms : TableCode := ⟨1, .getAllAlarms⟩

def eventLogs : TableCode := ⟨2, .getAllEventLogs⟩

/-- An attempt at the query: the rows it obtains, or a failure and the outcome of creating the
next session. -/
inductive Attempt where
  | obtained (alarms : List AlarmData)
  | failed (created : Bool)
  deriving DecidableEq, Repr

/-- What one load meets: the monotonic clock in seconds, the outcome of each attempt at the
query, and whether the allocation for each row succeeds. -/
structure ScanEnv where
  clock : ℤ
  attempts : ℕ → Attempt
  allocated : ℕ → Bool

def retryCount : ℕ := 5

def uuidSize : ℕ := 36

/-- `strlcpy(dst, src, size)` keeps room for the terminator. -/
def strlcpy (src : List UInt8) (size : ℕ) : List UInt8 := src.take (size - 1)

/-- The retry loop from attempt `i` on: the rows obtained, or `none` when every attempt fails;
each failure renews the session. -/
def queryRows (c : TableCode) (attempts : ℕ → Attempt) :
    ℕ → ℕ → Plugin → Option (List AlarmData) × Plugin
  | 0, _, p => (none, p)
  | n + 1, i, p =>
    -- each attempt passes the handle as the renewal before it left it
    let p := p.call (c.getAll (getAlarmSession p))
    match attempts i with
    | .obtained alarms => (some alarms, p)
    | .failed created => queryRows c attempts n (i + 1) (renewAlarmSession created p)

/-- The rows copied from row `i` on; the first failed allocation ends the list. -/
def loadRows (allocated : ℕ → Bool) : ℕ → List AlarmData → List AlarmData
  | _, [] => []
  | i, alarm :: alarms =>
    if allocated i then alarm :: loadRows allocated (i + 1) alarms else []

/-- `Alarm_Scan_Init`, `Event_Log_Scan_Init` -/
def scanInit (c : TableCode) (env : ScanEnv) : Table × Plugin → Table × Plugin
  | (t, p) =>
    let t := { t with saveIndex := 0 }
    if env.clock < t.lastLoad + c.minLoadFreq then
      -- skip reload
      ({ t with alarmaddr := t.alarmList }, p)
    else
      -- the old list is freed before the database is asked
      let t := { t with lastLoad := env.clock, alarmList := [], alarmaddr := [] }
      match queryRows c env.attempts retryCount 0 p with
      | (none, p) => (t, p)
      | (some alarms, p) =>
        let rows := loadRows env.allocated 0 alarms
        ({ t with alarmList := rows, alarmaddr := rows }, p)

/-- The targets of the pointers a scan step is given; `none` is a null pointer. -/
structure ScanPtrs where
  index : Option ℤ
  name : Option (List UInt8)
  aalm : Option AlarmData
  deriving DecidableEq, Repr

def ScanPtrs.null : ScanPtrs := ⟨none, none, none⟩

/-- `Alarm_Scan_NextAlarm`, `Event_Log_Scan_NextLog`: `none` is the result 0. -/
def scanNext (ptrs : ScanPtrs) (t : Table) : Option (ScanPtrs × Table) :=
  match t.alarmaddr with
  | [] => none
  | alm :: next =>
    let saveUuid := strlcpy alm.uuid uuidSize
    -- the index moves on only for a caller that asks for it
    let saveIndex := if ptrs.index.isSome then t.saveIndex + 1 else t.saveIndex
    some (⟨ptrs.index.map fun _ => saveIndex, ptrs.name.map fun _ => saveUuid,
        ptrs.aalm.map fun _ => alm⟩,
      { t with saveUuid := saveUuid, saveIndex := saveIndex, alarmaddr := next })

/-- The index after a scan step, which moves on only for a caller that asks for it. -/
def ScanPtrs.nextIndex (ptrs : ScanPtrs) (saveIndex : ℤ) : ℤ :=
  if ptrs.index.isSome then saveIndex + 1 else saveIndex

/-- What a scan step on the row `alm` writes through the pointers. -/
def ScanPtrs.write (ptrs : ScanPtrs) (index : ℤ) (alm : AlarmData) : ScanPtrs :=
  ⟨ptrs.index.map fun _ => index, ptrs.name.map fun _ => strlcpy alm.uuid uuidSize,
    ptrs.aalm.map fun _ => alm⟩

/-- A scan step on a row writes it, and moves the cursor on. -/
theorem scanNext_cons (ptrs : ScanPtrs) {t : Table} {alm : AlarmData} {next : List AlarmData}
    (hadr : t.alarmaddr = alm :: next) :
    scanNext ptrs t = some (ptrs.write (ptrs.nextIndex t.saveIndex) alm,
      { t with
        saveUuid := strlcpy alm.uuid uuidSize, saveIndex := ptrs.nextIndex t.saveIndex,
        alarmaddr := next }) := by
  rw [scanNext, hadr]
  rfl

theorem scanNext_nil (ptrs : ScanPtrs) {t : Table} (h : t.alarmaddr = []) :
    scanNext ptrs t = none := by
  simp [scanNext, h]

theorem scanNext_length {ptrs ptrs' : ScanPtrs} {t t' : Table}
    (h : scanNext ptrs t = some (ptrs', t')) : t'.alarmaddr.length < t.alarmaddr.length := by
  unfold scanNext at h
  split at h
  · cases h
  · next hadr =>
    simp only [Option.some.injEq, Prod.mk.injEq] at h
    simp [← h.2, hadr]

/-- The scan of `Alarm_Scan_By_Index`: up to the row of that index, or to the end. -/
def scanUntil (index : ℤ) (ptrs : ScanPtrs) (t : Table) : ScanPtrs × Table :=
  match _h : scanNext ptrs t with
  | none => (ptrs, t)
  | some (ptrs', t') => if ptrs'.index = some index then (ptrs', t') else scanUntil index ptrs' t'
termination_by t.alarmaddr.length
decreasing_by exact scanNext_length _h

/-- The scan of `Active_Alarm_Get_Count`: one more for every row. -/
def countRows (t : Table) : Table :=
  match _h : scanNext .null t with
  | none => t
  | some (_, t') => countRows { t' with count := t'.count + 1 }
termination_by t.alarmaddr.length
decreasing_by exact scanNext_length _h

/-- `Alarm_Scan_By_Index`, `Event_Log_Scan_By_Index`, with the leftover content of its local
`i` and the buffers it fills: its result and the buffers. -/
def scanByIndex (c : TableCode) (index i : ℤ) (name : List UInt8) (aalm : AlarmData)
    (env : ScanEnv) (s : Table × Plugin) :
    (ℤ × List UInt8 × AlarmData) × (Table × Plugin) :=
  let (t, p) := scanInit c env s
  let (ptrs, t) := scanUntil index ⟨some i, some name, some aalm⟩ t
  -- with no row scanned the comparison is with what `i` held before
  ((if ptrs.index ≠ some index then -1 else 0, ptrs.name.getD [], ptrs.aalm.getD default), (t, p))

/-- `Active_Alarm_Get_Count`, `Event_Log_Get_Count`, at wall-clock second `timeNow`. -/
def getCount (c : TableCode) (timeNow : ℤ) (env : ScanEnv) :
    Table × Plugin → ℤ × (Table × Plugin)
  | (t, p) =>
    if t.count = 0 ∨ timeNow > t.scanTime + 60 then
      -- the time of the count is set before the load, whatever becomes of it
      let (t, p) := scanInit c env ({ t with scanTime := timeNow }, p)
      let t := countRows { t with count := 0 }
      (cInt t.count, (t, p))
    else (cInt t.count, (t, p))

/-! ## A load -/

variable {c : TableCode}

/-- A load is skipped, fails with the old list gone, or loads rows; the cursor ends at the head
of the list held. -/
theorem scanInit_cases (env : ScanEnv) (t : Table) (p : Plugin) :
    (env.clock < t.lastLoad + c.minLoadFreq ∧
      scanInit c env (t, p) = ({ t with saveIndex := 0, alarmaddr := t.alarmList }, p)) ∨
    (t.lastLoad + c.minLoadFreq ≤ env.clock ∧
      ∃ p', queryRows c env.attempts retryCount 0 p = (none, p') ∧ scanInit c env (t, p) =
        ({ t with saveIndex := 0, lastLoad := env.clock, alarmList := [], alarmaddr := [] }, p')) ∨
    (t.lastLoad + c.minLoadFreq ≤ env.clock ∧
      ∃ alarms p', queryRows c env.attempts retryCount 0 p = (some alarms, p') ∧
        scanInit c env (t, p) = ({ t with
          saveIndex := 0, lastLoad := env.clock, alarmList := loadRows env.allocated 0 alarms,
          alarmaddr := loadRows env.allocated 0 alarms }, p')) := by
  by_cases hskip : env.clock < t.lastLoad + c.minLoadFreq
  · exact Or.inl ⟨hskip, by simp [scanInit, hskip]⟩
  · refine Or.inr ?_
    rcases hq : queryRows c env.attempts retryCount 0 p with ⟨_ | alarms, p'⟩
    · exact Or.inl ⟨Int.not_lt.mp hskip, p', rfl, by simp [scanInit, hskip, hq]⟩
    · exact Or.inr ⟨Int.not_lt.mp hskip, alarms, p', rfl, by simp [scanInit, hskip, hq]⟩

/-- After a load the cursor is at the head of the list, and the index starts over. -/
theorem scanInit_cursor (env : ScanEnv) (s : Table × Plugin) :
    (scanInit c env s).1.alarmaddr = (scanInit c env s).1.alarmList ∧
      (scanInit c env s).1.saveIndex = 0 := by
  obtain ⟨-, h⟩ | ⟨-, p', -, h⟩ | ⟨-, alarms, p', -, h⟩ := scanInit_cases (c := c) env s.1 s.2 <;>
    rw [h] <;> exact ⟨rfl, rfl⟩

/-- A load keeps the count, its time and the buffers of the last answer. -/
theorem scanInit_frame (env : ScanEnv) (s : Table × Plugin) :
    (scanInit c env s).1.count = s.1.count ∧ (scanInit c env s).1.scanTime = s.1.scanTime ∧
      (scanInit c env s).1.alrm = s.1.alrm ∧ (scanInit c env s).1.name = s.1.name := by
  obtain ⟨-, h⟩ | ⟨-, p', -, h⟩ | ⟨-, alarms, p', -, h⟩ := scanInit_cases (c := c) env s.1 s.2 <;>
    rw [h] <;> exact ⟨rfl, rfl, rfl, rfl⟩

/-! ## A scan of the list -/

/-- `t'` differs from `t` at most in the cursor and in the buffers of the scan. -/
def ScanFrame (t t' : Table) : Prop :=
  ∃ addr i u, t' = { t with alarmaddr := addr, saveIndex := i, saveUuid := u }

theorem ScanFrame.refl (t : Table) : ScanFrame t t := ⟨_, _, _, rfl⟩

theorem ScanFrame.trans {t t' t'' : Table} (h : ScanFrame t t') (h' : ScanFrame t' t'') :
    ScanFrame t t'' := by
  obtain ⟨addr, i, u, rfl⟩ := h
  obtain ⟨addr', i', u', rfl⟩ := h'
  exact ⟨addr', i', u', rfl⟩

/-- The statics after a scan step on the row `alm` that names its index. -/
def Table.visit (t : Table) (alm : AlarmData) (next : List AlarmData) : Table :=
  { t with
    saveUuid := strlcpy alm.uuid uuidSize, saveIndex := t.saveIndex + 1, alarmaddr := next }

theorem scanUntil_nil {index : ℤ} {ptrs : ScanPtrs} {t : Table} (h : t.alarmaddr = []) :
    scanUntil index ptrs t = (ptrs, t) := by
  rw [scanUntil, scanNext_nil ptrs h]

theorem scanUntil_cons {index i : ℤ} {n : List UInt8} {a alm : AlarmData} {next : List AlarmData}
    {t : Table} (h : t.alarmaddr = alm :: next) :
    scanUntil index ⟨some i, some n, some a⟩ t =
      if t.saveIndex + 1 = index then
        (⟨some (t.saveIndex + 1), some (strlcpy alm.uuid uuidSize), some alm⟩, t.visit alm next)
      else
        scanUntil index ⟨some (t.saveIndex + 1), some (strlcpy alm.uuid uuidSize), some alm⟩
          (t.visit alm next) := by
  have hstep : scanNext ⟨some i, some n, some a⟩ t =
      some (⟨some (t.saveIndex + 1), some (strlcpy alm.uuid uuidSize), some alm⟩,
        t.visit alm next) := scanNext_cons _ h
  rw [scanUntil, hstep]
  simp

/-- The scan for the `k`-th row from the cursor on stops there, with that row in the buffers. -/
theorem scanUntil_spec {k : ℕ} {i : ℤ} {n : List UInt8} {a alm : AlarmData} {t : Table}
    (h : t.alarmaddr[k]? = some alm) :
    (scanUntil (t.saveIndex + (k + 1)) ⟨some i, some n, some a⟩ t).1 =
      ⟨some (t.saveIndex + (k + 1)), some (strlcpy alm.uuid uuidSize), some alm⟩ := by
  -- the row is one nearer to the cursor after each step
  induction k generalizing i n a t with
  | zero =>
    obtain ⟨row, next, hadr⟩ : ∃ row next, t.alarmaddr = row :: next := by
      cases hadr : t.alarmaddr with
      | nil => simp [hadr] at h
      | cons row next => exact ⟨row, next, rfl⟩
    obtain rfl : row = alm := by simpa [hadr] using h
    rw [scanUntil_cons hadr]
    simp
  | succ k ih =>
    cases hadr : t.alarmaddr with
    | nil => simp [hadr] at h
    | cons row next =>
      have hnext : (t.visit row next).alarmaddr[k]? = some alm := by
        simpa [hadr, Table.visit] using h
      have hindex : t.saveIndex + ((k + 1 : ℕ) + 1) = (t.visit row next).saveIndex + (k + 1) := by
        simp only [Table.visit]
        omega
      rw [scanUntil_cons hadr, if_neg (by omega), hindex]
      exact ih hnext

/-- A scan moves the cursor and fills its own buffers. -/
theorem scanUntil_frame {index i : ℤ} {n : List UInt8} {a : AlarmData} {t : Table} :
    ScanFrame t (scanUntil index ⟨some i, some n, some a⟩ t).2 := by
  induction hadr : t.alarmaddr generalizing i n a t with
  | nil =>
    rw [scanUntil_nil hadr]
    exact ScanFrame.refl t
  | cons row next ih =>
    rw [scanUntil_cons hadr]
    have hvisit : ScanFrame t (t.visit row next) := ⟨_, _, _, rfl⟩
    split
    · exact hvisit
    · exact hvisit.trans (ih rfl)

/-- A scan for an index ahead counts no further than that index. -/
theorem scanUntil_saveIndex {index i : ℤ} {n : List UInt8} {a : AlarmData} {t : Table}
    (h : t.saveIndex < index) :
    t.saveIndex ≤ (scanUntil index ⟨some i, some n, some a⟩ t).2.saveIndex ∧
      (scanUntil index ⟨some i, some n, some a⟩ t).2.saveIndex ≤ index := by
  induction hadr : t.alarmaddr generalizing i n a t with
  | nil =>
    rw [scanUntil_nil hadr]
    exact ⟨le_rfl, h.le⟩
  | cons row next ih =>
    rw [scanUntil_cons hadr]
    have hvisit : (t.visit row next).saveIndex = t.saveIndex + 1 := rfl
    split
    · next hfound => exact ⟨by rw [hvisit]; omega, by rw [hvisit, hfound]⟩
    · next hother =>
      obtain ⟨hle, hle'⟩ := @ih (t.saveIndex + 1) (strlcpy row.uuid uuidSize) row
        (t.visit row next) (by omega) rfl
      exact ⟨by omega, hle'⟩

/-- Counting reaches the end of the list and adds its length. -/
theorem countRows_spec (t : Table) :
    ∃ u, countRows t =
      { t with count := t.count + t.alarmaddr.length, alarmaddr := [], saveUuid := u } := by
  induction hadr : t.alarmaddr generalizing t with
  | nil =>
    rw [countRows, scanNext_nil _ hadr]
    refine ⟨t.saveUuid, ?_⟩
    cases t
    subst hadr
    rfl
  | cons row next ih =>
    -- a step without an index to write leaves `saveIndex`
    have hstep : scanNext .null t = some (.null,
        { t with saveUuid := strlcpy row.uuid uuidSize, alarmaddr := next }) :=
      scanNext_cons _ hadr
    rw [countRows, hstep]
    obtain ⟨u, hu⟩ := ih { t with
      saveUuid := strlcpy row.uuid uuidSize, alarmaddr := next, count := t.count + 1 } rfl
    refine ⟨u, hu.trans ?_⟩
    simp [Nat.add_comm, Nat.add_left_comm]

/-! ## The two users of the list -/

/-- A row the list holds after the load is found, and fills the buffers. -/
theorem scanByIndex_of_getElem {k : ℕ} {i : ℤ} {n : List UInt8} {a alm : AlarmData}
    {env : ScanEnv} {s : Table × Plugin} (h : (scanInit c env s).1.alarmList[k]? = some alm) :
    (scanByIndex c (k + 1) i n a env s).1 = (0, strlcpy alm.uuid uuidSize, alm) := by
  obtain ⟨hcursor, hindex⟩ := scanInit_cursor (c := c) env s
  have hscan := scanUntil_spec (i := i) (n := n) (a := a) (hcursor ▸ h)
  rw [hindex, Int.zero_add] at hscan
  simp [scanByIndex, hscan]

/-- Looking up an index loads, and then changes no more than the cursor and the scan's
buffers. -/
theorem scanByIndex_frame (c : TableCode) (index i : ℤ) (n : List UInt8) (a : AlarmData)
    (env : ScanEnv) (s : Table × Plugin) :
    ScanFrame (scanInit c env s).1 (scanByIndex c index i n a env s).2.1 ∧
      (scanByIndex c index i n a env s).2.2 = (scanInit c env s).2 :=
  ⟨scanUntil_frame, rfl⟩

/-- Looking up an index counts from zero and no further than the index. -/
theorem scanByIndex_saveIndex (c : TableCode) {index : ℤ} (hpos : 0 < index) (i : ℤ)
    (n : List UInt8) (a : AlarmData) (env : ScanEnv) (s : Table × Plugin) :
    0 ≤ (scanByIndex c index i n a env s).2.1.saveIndex ∧
      (scanByIndex c index i n a env s).2.1.saveIndex ≤ index := by
  have hzero := (scanInit_cursor (c := c) env s).2
  have hscan := scanUntil_saveIndex (i := i) (n := n) (a := a) (hzero.trans_lt hpos)
  rwa [hzero] at hscan

/-- The count is recounted when it is zero or older than 60 seconds of wall-clock time. -/
def RecountDue (timeNow : ℤ) (t : Table) : Prop :=
  t.count = 0 ∨ timeNow > t.scanTime + 60

theorem getCount_cached {timeNow : ℤ} (env : ScanEnv) {t : Table} {p : Plugin}
    (h : ¬ RecountDue timeNow t) : getCount c timeNow env (t, p) = (cInt t.count, (t, p)) := by
  unfold RecountDue at h
  simp [getCount, h]

/-- A recount loads, and counts the rows of the list then held. -/
theorem getCount_recount {timeNow : ℤ} {env : ScanEnv} {t t' : Table} {p p' : Plugin}
    (h : RecountDue timeNow t)
    (hload : scanInit c env ({ t with scanTime := timeNow }, p) = (t', p')) :
    ∃ u, getCount c timeNow env (t, p) = (cInt t'.alarmList.length,
      ({ t' with count := t'.alarmList.length, alarmaddr := [], saveUuid := u }, p')) := by
  have hcursor : t'.alarmaddr = t'.alarmList := by
    simpa [hload] using (scanInit_cursor (c := c) env ({ t with scanTime := timeNow }, p)).1
  obtain ⟨u, hu⟩ := countRows_spec { t' with count := 0 }
  unfold RecountDue at h
  refine ⟨u, ?_⟩
  rw [getCount, if_pos h, hload]
  show (cInt (countRows { t' with count := 0 }).count,
    (countRows { t' with count := 0 }, p')) = _
  rw [hu, hcursor, Nat.zero_add]

end StxSnmp.FmAgent
