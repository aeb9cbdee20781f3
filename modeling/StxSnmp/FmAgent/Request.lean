import StxSnmp.FmAgent.Scan
import StxSnmp.Library.LinearSearch
import StxSnmp.Library.Transducer
import StxSnmp.Snmp.Oid

/-!
# Requests to the tables

net-snmp calls `var_alarms` or `var_events` with a registered column and the name asked for.
The header function finds the row index in the name, among as many indices as the count
allows; the row is then looked up in the list, and the column's field is answered.

## Main definitions

* `Variable`, `alarmVariables`, `eventLogVariables`: the registered columns
* `Request`, `Response`: the arguments of a call, and what it returns and writes
* `headerEntry`: the index search for a given count
* `varAlarms`, `varEvents`: the two entry points
* `Agent`, `agentStep`: the sub-agent, serving requests to both tables

## Main results

* `headerEntry_exact`, `headerEntry_next`: the index an exact and a non-exact search finds
* `varTable_of_notFound`, `varTable_eq_of_found`: the two outcomes of a request
* `varTable_value`: the answer when the list holds the row
-/

namespace StxSnmp.FmAgent

open LinearSearch

/-! ## The registered columns -/

/-- `ALM_ENTRY_NAME_LENGTH` -/
def almEntryNameLength : ℕ := 14

/-- A registered column: `struct variable`, its name as long as the header functions assume. -/
structure Variable where
  magic : ℕ
  name : Oid
  namelen : name.length = almEntryNameLength
  deriving DecidableEq, Repr

def cgtsAlarmTableOid : Oid := [1, 3, 6, 1, 4, 1, 731, 1, 1, 1, 1, 1]

def cgtsEventLogTableOid : Oid := [1, 3, 6, 1, 4, 1, 731, 1, 1, 1, 1, 4]

/-- `ALARM_INDEX` to `ALARM_SUPPRESSION` -/
@[match_pattern] def alarmIndex : ℕ := 1
@[match_pattern] def alarmUuid : ℕ := 2
@[match_pattern] def alarmId : ℕ := 3
@[match_pattern] def alarmInstanceId : ℕ := 4
@[match_pattern] def alarmTime : ℕ := 5
@[match_pattern] def alarmSeverity : ℕ := 6
@[match_pattern] def alarmReasonText : ℕ := 7
@[match_pattern] def alarmEventType : ℕ := 8
@[match_pattern] def alarmProbableCause : ℕ := 9
@[match_pattern] def alarmRepairAction : ℕ := 10
@[match_pattern] def alarmServiceAffecting : ℕ := 11
@[match_pattern] def alarmSuppression : ℕ := 12

/-- `EVENT_INDEX` to `EVENT_SUPPRESSION` -/
@[match_pattern] def eventIndex : ℕ := 1
@[match_pattern] def eventUuid : ℕ := 2
@[match_pattern] def eventEventId : ℕ := 3
@[match_pattern] def eventState : ℕ := 4
@[match_pattern] def eventInstanceId : ℕ := 5
@[match_pattern] def eventTime : ℕ := 6
@[match_pattern] def eventSeverity : ℕ := 7
@[match_pattern] def eventReasonText : ℕ := 8
@[match_pattern] def eventEventType : ℕ := 9
@[match_pattern] def eventProbableCause : ℕ := 10
@[match_pattern] def eventRepairAction : ℕ := 11
@[match_pattern] def eventServiceAffecting : ℕ := 12
@[match_pattern] def eventSuppression : ℕ := 13

def alarmVariables : List Variable :=
  [⟨alarmIndex, cgtsAlarmTableOid ++ [1, 1], rfl⟩,
    ⟨alarmUuid, cgtsAlarmTableOid ++ [1, 2], rfl⟩,
    ⟨alarmId, cgtsAlarmTableOid ++ [1, 3], rfl⟩,
    ⟨alarmInstanceId, cgtsAlarmTableOid ++ [1, 4], rfl⟩,
    ⟨alarmTime, cgtsAlarmTableOid ++ [1, 5], rfl⟩,
    ⟨alarmSeverity, cgtsAlarmTableOid ++ [1, 6], rfl⟩,
    ⟨alarmReasonText, cgtsAlarmTableOid ++ [1, 7], rfl⟩,
    ⟨alarmEventType, cgtsAlarmTableOid ++ [1, 8], rfl⟩,
    ⟨alarmProbableCause, cgtsAlarmTableOid ++ [1, 9], rfl⟩,
    ⟨alarmRepairAction, cgtsAlarmTableOid ++ [1, 10], rfl⟩,
    ⟨alarmServiceAffecting, cgtsAlarmTableOid ++ [1, 11], rfl⟩,
    ⟨alarmSuppression, cgtsAlarmTableOid ++ [1, 12], rfl⟩]

def eventLogVariables : List Variable :=
  [⟨eventIndex, cgtsEventLogTableOid ++ [1, 1], rfl⟩,
    ⟨eventUuid, cgtsEventLogTableOid ++ [1, 2], rfl⟩,
    ⟨eventEventId, cgtsEventLogTableOid ++ [1, 3], rfl⟩,
    ⟨eventState, cgtsEventLogTableOid ++ [1, 4], rfl⟩,
    ⟨eventInstanceId, cgtsEventLogTableOid ++ [1, 5], rfl⟩,
    ⟨eventTime, cgtsEventLogTableOid ++ [1, 6], rfl⟩,
    ⟨eventSeverity, cgtsEventLogTableOid ++ [1, 7], rfl⟩,
    ⟨eventReasonText, cgtsEventLogTableOid ++ [1, 8], rfl⟩,
    ⟨eventEventType, cgtsEventLogTableOid ++ [1, 9], rfl⟩,
    ⟨eventProbableCause, cgtsEventLogTableOid ++ [1, 10], rfl⟩,
    ⟨eventRepairAction, cgtsEventLogTableOid ++ [1, 11], rfl⟩,
    ⟨eventServiceAffecting, cgtsEventLogTableOid ++ [1, 12], rfl⟩,
    ⟨eventSuppression, cgtsEventLogTableOid ++ [1, 13], rfl⟩]

/-! ## The index search -/

/-- The arguments of a call: the column, the name asked for, whether exactly that name, and
what `*var_len` and `*write_method` hold. -/
structure Request where
  vp : Variable
  name : Oid
  exact : Bool
  varLen : ℕ
  writeMethod : ℕ
  deriving DecidableEq, Repr

/-- A header function's result, and the variables it writes through. -/
structure HeaderOut where
  index : ℤ
  name : Oid
  varLen : ℕ
  writeMethod : ℕ
  deriving DecidableEq, Repr

def matchFailed : ℤ := -1

def sizeofLong : ℕ := 8

/-- The first sub-identifiers of the local `newname`: the column, then the index stored at the
fixed position; the element it overwrites is not initialised. -/
def newname (vp : Variable) (index : ℕ) : Oid :=
  (vp.name ++ [0]).set almEntryNameLength index

theorem newname_eq (vp : Variable) (index : ℕ) : newname vp index = vp.name ++ [index] := by
  rw [newname, ← vp.namelen, List.set_append_right _ _ le_rfl]
  simp

/-- The condition on which the search is left. -/
def indexHit (oids : OidComparison) (r : Request) (index : ℕ) : Bool :=
  let result := oids.snmpOidCompare r.name ((newname r.vp index).take (r.vp.name.length + 1))
  r.exact && result == 0 || !r.exact && result < 0

/-- `header_alarmEntry`, `header_eventLogEntry`, for the count they get. -/
def headerEntry (oids : OidComparison) (count : ℤ) (r : Request) : HeaderOut :=
  let index := searchFrom (indexHit oids r) count.toNat 1
  -- the arguments are written only when an index is found
  if (index : ℤ) > count then ⟨matchFailed, r.name, r.varLen, r.writeMethod⟩
  else ⟨index, (newname r.vp index).take (r.vp.name.length + 1), sizeofLong, 0⟩

theorem take_newname (vp : Variable) (index : ℕ) :
    (newname vp index).take (vp.name.length + 1) = vp.name ++ [index] := by
  rw [newname_eq]
  exact List.take_of_length_le (by simp)

section Search

variable {oids : OidComparison} {count : ℤ} {r : Request}

theorem indexHit_exact (h : r.exact = true) (index : ℕ) :
    indexHit oids r index = true ↔ r.name = r.vp.name ++ [index] := by
  simp [indexHit, h, take_newname]

theorem indexHit_next (h : r.exact = false) (index : ℕ) :
    indexHit oids r index = true ↔ r.name < r.vp.name ++ [index] := by
  simp [indexHit, h, take_newname]

/-- The answer of a search that finds `index`. -/
def HeaderOut.found (r : Request) (index : ℕ) : HeaderOut :=
  ⟨index, r.vp.name ++ [index], sizeofLong, 0⟩

/-- The answer of a search that finds none: everything as it was. -/
def HeaderOut.notFound (r : Request) : HeaderOut :=
  ⟨matchFailed, r.name, r.varLen, r.writeMethod⟩

/-- The first hit among `1, …, count` is found. -/
theorem headerEntry_of_first {index : ℕ} (hpos : 1 ≤ index)
    (hle : (index : ℤ) ≤ count) (hhit : indexHit oids r index = true)
    (hfirst : ∀ k, 1 ≤ k → k < index → indexHit oids r k = false) :
    headerEntry oids count r = HeaderOut.found r index := by
  have hexit : searchFrom (indexHit oids r) count.toNat 1 = index :=
    searchFrom_eq_of_first hpos (by omega) hhit hfirst
  rw [headerEntry, hexit]
  simp [Int.not_lt.mpr hle, take_newname, HeaderOut.found]

/-- Without a hit among `1, …, count` the search fails. -/
theorem headerEntry_of_none
    (h : ∀ k : ℕ, 1 ≤ k → (k : ℤ) ≤ count → indexHit oids r k = false) :
    headerEntry oids count r = HeaderOut.notFound r := by
  have hexit : searchFrom (indexHit oids r) count.toNat 1 = 1 + count.toNat :=
    searchFrom_eq_end fun k hk hlt => h k hk (by omega)
  rw [headerEntry, hexit, if_pos (by omega)]
  rfl

/-- A search finds an index of the range, or nothing. -/
theorem headerEntry_cases (oids : OidComparison) (count : ℤ) (r : Request) :
    headerEntry oids count r = HeaderOut.notFound r ∨
      ∃ index : ℕ, 1 ≤ index ∧ (index : ℤ) ≤ count ∧
        headerEntry oids count r = HeaderOut.found r index := by
  by_cases h : (searchFrom (indexHit oids r) count.toNat 1 : ℤ) > count
  · exact Or.inl (by simp [headerEntry, h, HeaderOut.notFound])
  · refine Or.inr ⟨_, le_searchFrom, Int.not_lt.mp h, ?_⟩
    simp [headerEntry, h, take_newname, HeaderOut.found]

/-- An exact search finds the index named, when the count reaches it. -/
theorem headerEntry_exact {index : ℕ} (hexact : r.exact = true)
    (hname : r.name = r.vp.name ++ [index]) (hpos : 1 ≤ index) :
    headerEntry oids count r =
      if (index : ℤ) ≤ count then HeaderOut.found r index else HeaderOut.notFound r := by
  -- the index named is the only hit
  have hit_iff : ∀ k, indexHit oids r k = true ↔ index = k := by
    intro k
    rw [indexHit_exact hexact, hname]
    simp
  split
  · next hle =>
    apply headerEntry_of_first hpos hle ((hit_iff index).mpr rfl)
    intro k _ hlt
    rw [Bool.eq_false_iff]
    intro hhit
    have heq := (hit_iff k).mp hhit
    omega
  · next hgt =>
    apply headerEntry_of_none
    intro k _ hle
    rw [Bool.eq_false_iff]
    intro hhit
    have heq := (hit_iff k).mp hhit
    omega

/-- A non-exact search finds the least index whose name is after the one given. -/
theorem headerEntry_next {index : ℕ} (hexact : r.exact = false)
    (hpos : 1 ≤ index) (hlt : r.name < r.vp.name ++ [index])
    (hleast : ∀ k, 1 ≤ k → k < index → ¬ r.name < r.vp.name ++ [k]) :
    headerEntry oids count r =
      if (index : ℤ) ≤ count then HeaderOut.found r index else HeaderOut.notFound r := by
  -- the indices before it name what is not after the name given
  have not_hit : ∀ k, 1 ≤ k → k < index → indexHit oids r k = false := by
    intro k hk hlt
    rw [Bool.eq_false_iff]
    intro hhit
    exact hleast k hk hlt ((indexHit_next hexact k).mp hhit)
  split
  · next hle => exact headerEntry_of_first hpos hle ((indexHit_next hexact index).mpr hlt) not_hit
  · next hgt =>
    apply headerEntry_of_none
    intro k hk hle
    exact not_hit k hk (by omega)

end Search

/-! ## Serving a request -/

/-- What a call returns: the static `long_return`, or the bytes of a static buffer. -/
inductive Value where
  | long (n : ℤ)
  | octets (bytes : List UInt8)
  deriving DecidableEq, Repr

/-- `*var_len` after the switch; a `long` keeps the header function's. -/
def Value.varLen (headerLen : ℕ) : Value → ℕ
  | .long _ => headerLen
  | .octets bytes => bytes.length

/-- What a call returns, and the variables it writes through. -/
structure Response where
  value : Option Value
  name : Oid
  varLen : ℕ
  writeMethod : ℕ
  deriving DecidableEq, Repr

/-- What a call meets: the wall clock, the load of the count, the load of the lookup, the leftover
content of the lookup's local `i`, and net-snmp's comparison of names. -/
structure RequestEnv where
  timeNow : ℤ
  countScan : ScanEnv
  indexScan : ScanEnv
  i : ℤ
  oids : OidComparison

def secondPerMicrosecond : ℕ := 1000000

/-- What `var_alarms` and `var_events` share: the switch on the column is `entryValue`. -/
def varTable (c : TableCode) (entryValue : ℕ → ℤ → List UInt8 → AlarmData → Option Value)
    (env : RequestEnv) (r : Request) (s : Table × Plugin) : (Table × Plugin) × Response :=
  let (count, s) := getCount c env.timeNow env.countScan s
  let h := headerEntry env.oids count r
  if h.index = matchFailed then (s, ⟨none, h.name, h.varLen, h.writeMethod⟩)
  else
    -- the result of the lookup is not looked at
    let ((_, name, alrm), (t, p)) :=
      scanByIndex c h.index env.i s.1.name s.1.alrm env.indexScan s
    let s := ({ t with name := name, alrm := alrm }, p)
    match entryValue r.vp.magic h.index name alrm with
    | some value => (s, ⟨some value, h.name, value.varLen h.varLen, h.writeMethod⟩)
    -- an unknown column answers nothing, though its name is replaced
    | none => (s, ⟨none, h.name, h.varLen, h.writeMethod⟩)

/-- Two tables that differ at most in the cursor and the buffers. -/
structure SameCache (t t' : Table) : Prop where
  count : t'.count = t.count
  scanTime : t'.scanTime = t.scanTime
  alarmList : t'.alarmList = t.alarmList
  lastLoad : t'.lastLoad = t.lastLoad

section VarTable

variable {c : TableCode} {entryValue : ℕ → ℤ → List UInt8 → AlarmData → Option Value}
  {env : RequestEnv} {r : Request} {s s₁ : Table × Plugin} {count : ℤ}

/-- A request whose search fails leaves the name, and stops after the count. -/
theorem varTable_of_notFound (hcount : getCount c env.timeNow env.countScan s = (count, s₁))
    (h : headerEntry env.oids count r = HeaderOut.notFound r) :
    varTable c entryValue env r s = (s₁, ⟨none, r.name, r.varLen, r.writeMethod⟩) := by
  rw [varTable, hcount]
  simp [h, HeaderOut.notFound]

theorem matchFailed_ne (index : ℕ) : (index : ℤ) ≠ matchFailed := by
  simp only [matchFailed]
  omega

/-- A request whose search finds `index` answers from the buffers its lookup leaves. -/
theorem varTable_eq_of_found {index : ℕ} {res : ℤ} {name : List UInt8} {alrm : AlarmData}
    {t : Table} {p : Plugin} (hcount : getCount c env.timeNow env.countScan s = (count, s₁))
    (h : headerEntry env.oids count r = HeaderOut.found r index)
    (hscan : scanByIndex c index env.i s₁.1.name s₁.1.alrm env.indexScan s₁ =
      ((res, name, alrm), (t, p))) :
    varTable c entryValue env r s = (({ t with name := name, alrm := alrm }, p),
      ⟨entryValue r.vp.magic index name alrm, r.vp.name ++ [index],
        ((entryValue r.vp.magic index name alrm).map (Value.varLen sizeofLong)).getD sizeofLong,
        0⟩) := by
  rw [varTable, hcount]
  simp only [h, HeaderOut.found, if_neg (matchFailed_ne index), hscan]
  cases entryValue r.vp.magic index name alrm <;> rfl

variable (entryValue) in
/-- A request whose search finds `index` loads once more after the count. -/
theorem varTable_of_found {index : ℕ}
    (hcount : getCount c env.timeNow env.countScan s = (count, s₁))
    (h : headerEntry env.oids count r = HeaderOut.found r index) :
    (varTable c entryValue env r s).2.name = r.vp.name ++ [index] ∧
      SameCache (scanInit c env.indexScan s₁).1 (varTable c entryValue env r s).1.1 ∧
      (varTable c entryValue env r s).1.2 = (scanInit c env.indexScan s₁).2 := by
  obtain ⟨⟨addr, i, u, htable⟩, hplugin⟩ :=
    scanByIndex_frame c index env.i s₁.1.name s₁.1.alrm env.indexScan s₁
  rcases hscan : scanByIndex c index env.i s₁.1.name s₁.1.alrm env.indexScan s₁ with
    ⟨⟨res, name, alrm⟩, t, p⟩
  obtain rfl : t = _ := by simpa only [hscan] using htable
  rw [varTable_eq_of_found hcount h hscan]
  refine ⟨rfl, ⟨rfl, rfl, rfl, rfl⟩, ?_⟩
  simpa only [hscan] using hplugin

/-- A request whose search finds a row of the list then held answers from that row. -/
theorem varTable_value {k : ℕ} {row : AlarmData}
    (hcount : getCount c env.timeNow env.countScan s = (count, s₁))
    (h : headerEntry env.oids count r = HeaderOut.found r (k + 1))
    (hrow : (scanInit c env.indexScan s₁).1.alarmList[k]? = some row) :
    (varTable c entryValue env r s).2.value =
      entryValue r.vp.magic (k + 1 : ℕ) (strlcpy row.uuid uuidSize) row := by
  have hscan := scanByIndex_of_getElem (i := env.i) (n := s₁.1.name) (a := s₁.1.alrm) hrow
  rcases hfull : scanByIndex c (k + 1 : ℕ) env.i s₁.1.name s₁.1.alrm env.indexScan s₁ with
    ⟨⟨res, name, alrm⟩, t, p⟩
  have hbuffers : (res, name, alrm) = (0, strlcpy row.uuid uuidSize, row) := by
    rw [← hscan]
    exact (congrArg Prod.fst hfull).symm
  obtain ⟨rfl, rfl, rfl⟩ : res = 0 ∧ name = strlcpy row.uuid uuidSize ∧ alrm = row := by
    simpa using hbuffers
  rw [varTable_eq_of_found hcount h hfull]

end VarTable

section Columns

variable (dateNTime : ℤ → List UInt8)

/-- The switch of `var_alarms`. -/
def alarmValue (magic : ℕ) (index : ℤ) (name : List UInt8) (alrm : AlarmData) : Option Value :=
  match magic with
  | alarmIndex => some (.long index)
  | alarmUuid => some (.octets name)
  | alarmId => some (.octets alrm.alarmId)
  | alarmInstanceId => some (.octets alrm.entityInstanceId)
  | alarmTime => some (.octets (dateNTime (alrm.timestamp / secondPerMicrosecond : ℕ)))
  | alarmSeverity => some (.long alrm.severity)
  | alarmReasonText => some (.octets alrm.reasonText)
  | alarmEventType => some (.long alrm.alarmType)
  | alarmProbableCause => some (.long alrm.probableCause)
  | alarmRepairAction => some (.octets alrm.proposedRepairAction)
  | alarmServiceAffecting => some (.long alrm.serviceAffecting)
  | alarmSuppression => some (.long alrm.suppression)
  | _ => none

/-- The switch of `var_events`. -/
def eventValue (magic : ℕ) (index : ℤ) (name : List UInt8) (alrm : AlarmData) : Option Value :=
  match magic with
  | eventIndex => some (.long index)
  | eventUuid => some (.octets name)
  | eventEventId => some (.octets alrm.alarmId)
  | eventState => some (.long alrm.alarmState)
  | eventInstanceId => some (.octets alrm.entityInstanceId)
  | eventTime => some (.octets (dateNTime (alrm.timestamp / secondPerMicrosecond : ℕ)))
  | eventSeverity => some (.long alrm.severity)
  | eventReasonText => some (.octets alrm.reasonText)
  | eventEventType => some (.long alrm.alarmType)
  | eventProbableCause => some (.long alrm.probableCause)
  | eventRepairAction => some (.octets alrm.proposedRepairAction)
  | eventServiceAffecting => some (.long alrm.serviceAffecting)
  | eventSuppression => some (.long alrm.suppression)
  | _ => none

def varAlarms : RequestEnv → Request → Table × Plugin → (Table × Plugin) × Response :=
  varTable activeAlarms (alarmValue dateNTime)

def varEvents : RequestEnv → Request → Table × Plugin → (Table × Plugin) × Response :=
  varTable eventLogs (eventValue dateNTime)

/-- The sub-agent: the session, and the statics of both tables. -/
structure Agent where
  plugin : Plugin
  alarms : Table
  events : Table
  deriving DecidableEq, Repr

/-- A request to one of the tables, with what serving it meets. -/
inductive AgentRequest where
  | alarm (env : RequestEnv) (r : Request)
  | event (env : RequestEnv) (r : Request)

def agentStep (a : Agent) : AgentRequest → Agent × Response
  | .alarm env r =>
    let ((alarms, plugin), response) := varAlarms dateNTime env r (a.alarms, a.plugin)
    ({ a with alarms := alarms, plugin := plugin }, response)
  | .event env r =>
    let ((events, plugin), response) := varEvents dateNTime env r (a.events, a.plugin)
    ({ a with events := events, plugin := plugin }, response)

/-- The sub-agent when its initialisation has returned. -/
def Agent.init (created : Bool) : Option Agent :=
  (initSnmpAgentPlugin created).map fun plugin => ⟨plugin, Table.init, Table.init⟩

end Columns

end StxSnmp.FmAgent
