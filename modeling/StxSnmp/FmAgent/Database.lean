import StxSnmp.FmAgent.Walk
import StxSnmp.Library.Displacement

/-!
# The sub-agent beside a changing database

Alarms are raised and cleared between the requests, and between the two loads of one request;
every query of an alarm request obtains the rows the database holds at that moment.

## Main definitions

* `AlarmDatabase`, `AlarmChange`: alarms with distinct UUIDs, raised and cleared
* `AlarmLoads`, `AlarmLoads.env`: what an alarm request meets beside a database
* `System`, `serveAlarm`, `systemStep`: the database and the sub-agent, and their steps
* `AsOf`, `Reflects`: the list held is from an earlier database, as is the count

## Main results

* `varTable_list`: the list a request leaves is the one it found or from one of its queries
* `Reflects.after`: along a run the list held is from ever later databases
-/

namespace StxSnmp.FmAgent

open Transducer Displacement MachineInt

/-! ## Steps of the system -/

/-- The active alarms of the database, no two with one UUID. -/
abbrev AlarmDatabase := Keyed AlarmData.uuid

/-- An alarm raised, or the alarm of a UUID cleared. -/
abbrev AlarmChange := Change AlarmData (List UInt8)

/-- What an alarm request meets whose queries succeed: the clocks, the allocations, the leftover
of a local, net-snmp's comparison of names, and the changes made between its two loads. -/
structure AlarmLoads where
  timeNow : ℤ
  countClock : ℤ
  indexClock : ℤ
  countAllocated : ℕ → Bool
  indexAllocated : ℕ → Bool
  i : ℤ
  oids : OidComparison
  between : List AlarmChange

def AlarmLoads.env (loads : AlarmLoads) (db : AlarmDatabase) : RequestEnv :=
  ⟨loads.timeNow, ⟨loads.countClock, fun _ => .obtained db.rows, loads.countAllocated⟩,
    ⟨loads.indexClock, fun _ => .obtained (db.run loads.between).rows, loads.indexAllocated⟩,
    loads.i, loads.oids⟩

/-- A change of the database, or a request to one of the tables. -/
inductive SystemEvent where
  | change (c : AlarmChange)
  | alarm (loads : AlarmLoads) (r : Request)
  | event (env : RequestEnv) (r : Request)

/-- The changes made during an event. -/
def SystemEvent.changes : SystemEvent → List AlarmChange
  | .change c => [c]
  | .alarm loads _ => loads.between
  | .event _ _ => []

/-- The changes made during a run. -/
def changesOf (es : List SystemEvent) : List AlarmChange :=
  es.flatMap SystemEvent.changes

@[simp] theorem changesOf_nil : changesOf [] = [] := rfl

@[simp] theorem changesOf_cons (e : SystemEvent) (es : List SystemEvent) :
    changesOf (e :: es) = e.changes ++ changesOf es := rfl

/-- The database and the sub-agent. -/
structure System where
  db : AlarmDatabase
  agent : Agent

/-- A request to the active-alarm table, whose queries obtain the alarms of the database. -/
def serveAlarm (dateNTime : ℤ → List UInt8) (s : System) (loads : AlarmLoads) (r : Request) :
    System × Response :=
  let (agent, reply) := agentStep dateNTime s.agent (.alarm (loads.env s.db) r)
  (⟨s.db.run loads.between, agent⟩, reply)

theorem serveAlarm_reply (dateNTime : ℤ → List UInt8) (s : System) (loads : AlarmLoads)
    (r : Request) :
    (serveAlarm dateNTime s loads r).2 =
      (varTable activeAlarms (alarmValue dateNTime) (loads.env s.db) r
        (s.agent.alarms, s.agent.plugin)).2 :=
  rfl

theorem serveAlarm_alarms (dateNTime : ℤ → List UInt8) (s : System) (loads : AlarmLoads)
    (r : Request) :
    (serveAlarm dateNTime s loads r).1.agent.alarms =
      (varTable activeAlarms (alarmValue dateNTime) (loads.env s.db) r
        (s.agent.alarms, s.agent.plugin)).1.1 :=
  rfl

/-- An event of the system, with the reply to a request. -/
def systemStep (dateNTime : ℤ → List UInt8) (s : System) : SystemEvent → System × Option Response
  | .change c => (⟨s.db.apply c, s.agent⟩, none)
  | .alarm loads r =>
    let (s, reply) := serveAlarm dateNTime s loads r
    (s, some reply)
  | .event env r =>
    let (agent, reply) := agentStep dateNTime s.agent (.event env r)
    (⟨s.db, agent⟩, some reply)

/-! ## Where the list comes from -/

section List

variable {c : TableCode}

theorem loadRows_prefix (allocated : ℕ → Bool) (i : ℕ) (alarms : List AlarmData) :
    loadRows allocated i alarms <+: alarms := by
  induction alarms generalizing i with
  | nil => exact List.prefix_refl []
  | cons alarm alarms ih =>
    rw [loadRows]
    split
    · exact (List.prefix_cons_inj alarm).mpr (ih (i + 1))
    · exact List.nil_prefix

/-- A load whose query succeeds keeps the list or takes the rows obtained. -/
theorem scanInit_list {env : ScanEnv} {alarms : List AlarmData}
    (h : env.attempts 0 = .obtained alarms) (s : Table × Plugin) :
    (scanInit c env s).1.alarmList = s.1.alarmList ∨
      (scanInit c env s).1.alarmList = loadRows env.allocated 0 alarms := by
  obtain ⟨t, p⟩ := s
  have hquery : queryRows c env.attempts retryCount 0 p =
      (some alarms, p.call (c.getAll (getAlarmSession p))) := by
    rw [retryCount, queryRows, h]
  obtain ⟨-, hs⟩ | ⟨-, p', hq, -⟩ | ⟨-, alarms', p', hq, hs⟩ := scanInit_cases (c := c) env t p
  · rw [hs]
    exact Or.inl rfl
  · rw [hquery] at hq
    cases hq
  · rw [hquery] at hq
    cases hq
    rw [hs]
    exact Or.inr rfl

/-- The list a count leaves is the one it found or from its query, and the count kept is the one
found or the length of that list. -/
theorem getCount_list {timeNow : ℤ} {env : ScanEnv} {alarms : List AlarmData}
    (h : env.attempts 0 = .obtained alarms) (s : Table × Plugin) {count : ℤ}
    {s₁ : Table × Plugin} (hget : getCount c timeNow env s = (count, s₁)) :
    (s₁.1.alarmList = s.1.alarmList ∨ s₁.1.alarmList = loadRows env.allocated 0 alarms) ∧
      (s₁.1.count = s.1.count ∨ s₁.1.count = s₁.1.alarmList.length) ∧
      count = cInt s₁.1.count := by
  obtain ⟨t, p⟩ := s
  by_cases hdue : RecountDue timeNow t
  · have hlist := scanInit_list (c := c) h ({ t with scanTime := timeNow }, p)
    rcases hload : scanInit c env ({ t with scanTime := timeNow }, p) with ⟨t', p'⟩
    obtain ⟨u, hu⟩ := getCount_recount hdue hload
    rw [hload] at hlist
    rw [hu] at hget
    obtain ⟨rfl, rfl⟩ := Prod.mk.inj hget
    exact ⟨hlist, Or.inr rfl, rfl⟩
  · rw [getCount_cached env hdue] at hget
    obtain ⟨rfl, rfl⟩ := Prod.mk.inj hget
    exact ⟨Or.inl rfl, Or.inl rfl, rfl⟩

/-- The list a request leaves is the one it found or from one of its queries; the count it
leaves is the one it found or the length of the list counted. -/
theorem varTable_list (entryValue : ℕ → ℤ → List UInt8 → AlarmData → Option Value)
    (env : RequestEnv) {alarms alarms' : List AlarmData}
    (hcount : env.countScan.attempts 0 = .obtained alarms)
    (hindex : env.indexScan.attempts 0 = .obtained alarms') (r : Request) (s : Table × Plugin) :
    ∃ counted, (counted = s.1.alarmList ∨ counted = loadRows env.countScan.allocated 0 alarms) ∧
      ((varTable c entryValue env r s).1.1.count = s.1.count ∨
        (varTable c entryValue env r s).1.1.count = counted.length) ∧
      ((varTable c entryValue env r s).1.1.alarmList = counted ∨
        (varTable c entryValue env r s).1.1.alarmList =
          loadRows env.indexScan.allocated 0 alarms') := by
  rcases hget : getCount c env.timeNow env.countScan s with ⟨count, s₁⟩
  obtain ⟨hlist, hkept, -⟩ := getCount_list hcount s hget
  refine ⟨s₁.1.alarmList, hlist, ?_⟩
  obtain hsearch | ⟨index, -, -, hsearch⟩ := headerEntry_cases env.oids count r
  · rw [varTable_of_notFound hget hsearch]
    exact ⟨hkept, Or.inl rfl⟩
  · obtain ⟨-, hcache, -⟩ := varTable_of_found entryValue hget hsearch
    rw [hcache.count, hcache.alarmList, (scanInit_frame env.indexScan s₁).1]
    exact ⟨hkept, scanInit_list hindex s₁⟩

end List

/-! ## The list and the databases of a run -/

section Run

variable (dateNTime : ℤ → List UInt8)

/-- The rows are those of the database after `m` of the changes, or the first of them. -/
structure AsOf (db : AlarmDatabase) (changes : List AlarmChange) (m : ℕ)
    (rows : List AlarmData) : Prop where
  le : m ≤ changes.length
  rows_front : rows <+: (db.run (changes.take m)).rows

theorem AsOf.more {db : AlarmDatabase} {changes : List AlarmChange} {m : ℕ}
    {rows : List AlarmData} (h : AsOf db changes m rows) (more : List AlarmChange) :
    AsOf db (changes ++ more) m rows := by
  refine ⟨h.le.trans (by simp), ?_⟩
  rw [List.take_append_of_le_length h.le]
  exact h.rows_front

/-- A load takes rows of the database as of all the changes so far. -/
theorem asOf_loadRows (db : AlarmDatabase) (changes : List AlarmChange) (allocated : ℕ → Bool) :
    AsOf db changes changes.length (loadRows allocated 0 (db.run changes).rows) := by
  refine ⟨le_rfl, ?_⟩
  rw [List.take_length]
  exact loadRows_prefix allocated 0 _

/-- After `changes` from `db`, the list held is as of `m` of them, and the count is no more than
the rows as of some of them. -/
structure Reflects (db : AlarmDatabase) (changes : List AlarmChange) (m : ℕ) (s : System) :
    Prop where
  db_eq : s.db = db.run changes
  list : AsOf db changes m s.agent.alarms.alarmList
  count : ∃ n rows, AsOf db changes n rows ∧ s.agent.alarms.count ≤ rows.length

/-- Changes that leave the sub-agent leave the list and the count as of the same ones. -/
theorem Reflects.more {db : AlarmDatabase} {changes : List AlarmChange} {m : ℕ} {s s' : System}
    (h : Reflects db changes m s) (more : List AlarmChange) (hdb : s'.db = db.run (changes ++ more))
    (halarms : s'.agent.alarms = s.agent.alarms) : Reflects db (changes ++ more) m s' := by
  obtain ⟨n, rows, hrows, hcount⟩ := h.count
  refine ⟨hdb, ?_, n, rows, hrows.more more, ?_⟩
  · rw [halarms]
    exact h.list.more more
  · rw [halarms]
    exact hcount

/-- An event leaves the list as of the same changes or of later ones. -/
theorem Reflects.step {db : AlarmDatabase} {changes : List AlarmChange} {m : ℕ} {s : System}
    (h : Reflects db changes m s) (e : SystemEvent) :
    ∃ m', m ≤ m' ∧ Reflects db (changes ++ e.changes) m' (systemStep dateNTime s e).1 := by
  cases e with
  | change c =>
    -- nothing is loaded, and the list held falls behind
    refine ⟨m, le_rfl, h.more [c] ?_ rfl⟩
    rw [Keyed.run_append, ← h.db_eq]
    rfl
  | event env r =>
    -- the event log has statics of its own
    refine ⟨m, le_rfl, h.more [] ?_ rfl⟩
    rw [List.append_nil]
    exact h.db_eq
  | alarm loads r =>
    obtain ⟨counted, hcounted, hcount, hlist⟩ := varTable_list (c := activeAlarms)
      (alarmValue dateNTime) (loads.env s.db) rfl rfl r (s.agent.alarms, s.agent.plugin)
    have hdb : (systemStep dateNTime s (.alarm loads r)).1.db =
        db.run (changes ++ loads.between) := by
      rw [Keyed.run_append, ← h.db_eq]
      rfl
    -- the list counted, and then the list looked up, are as of ever later changes
    obtain ⟨m₁, hm₁, hasOf₁⟩ : ∃ m₁, m ≤ m₁ ∧ AsOf db changes m₁ counted := by
      rcases hcounted with rfl | rfl
      · exact ⟨m, le_rfl, h.list⟩
      · refine ⟨changes.length, h.list.le, ?_⟩
        rw [h.db_eq]
        exact asOf_loadRows db changes _
    obtain ⟨m₂, hm₂, hasOf₂⟩ : ∃ m₂, m₁ ≤ m₂ ∧ AsOf db (changes ++ loads.between) m₂
        (systemStep dateNTime s (.alarm loads r)).1.agent.alarms.alarmList := by
      rcases hlist with hlist | hlist
      · exact ⟨m₁, le_rfl, hlist ▸ hasOf₁.more loads.between⟩
      · refine ⟨_, (hasOf₁.more loads.between).le, ?_⟩
        have hload := asOf_loadRows db (changes ++ loads.between) loads.indexAllocated
        rw [← hdb] at hload
        exact hlist ▸ hload
    refine ⟨m₂, hm₁.trans hm₂, hdb, hasOf₂, ?_⟩
    rcases hcount with hcount | hcount
    · obtain ⟨n, rows, hrows, hle⟩ := h.count
      exact ⟨n, rows, hrows.more _, hcount.le.trans hle⟩
    · exact ⟨m₁, counted, hasOf₁.more _, hcount.le⟩

/-- Along a run the list held is from ever later databases. -/
theorem Reflects.after {db : AlarmDatabase} {changes : List AlarmChange} {m : ℕ} {s : System}
    (h : Reflects db changes m s) (es : List SystemEvent) :
    ∃ m', m ≤ m' ∧
      Reflects db (changes ++ changesOf es) m' (after (systemStep dateNTime) s es) := by
  induction es generalizing changes m s with
  | nil => exact ⟨m, le_rfl, by simpa using h⟩
  | cons e es ih =>
    -- the changes seen so far only grow
    obtain ⟨m₁, hm₁, h₁⟩ := h.step dateNTime e
    obtain ⟨m₂, hm₂, h₂⟩ := ih h₁
    refine ⟨m₂, hm₁.trans hm₂, ?_⟩
    rw [changesOf_cons, ← List.append_assoc]
    exact h₂

/-- Before the first load, the list held is as of no change. -/
theorem Reflects.init {created : Bool} {a : Agent} (ha : Agent.init created = some a)
    (db : AlarmDatabase) : Reflects db [] 0 ⟨db, a⟩ := by
  cases created with
  | false => cases ha
  | true =>
    obtain rfl := Option.some.inj ha
    exact ⟨rfl, ⟨le_rfl, List.nil_prefix⟩, 0, [], ⟨le_rfl, List.nil_prefix⟩, le_rfl⟩

end Run

end StxSnmp.FmAgent
