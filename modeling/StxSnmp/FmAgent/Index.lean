import StxSnmp.FmAgent.Database

/-!
# The index of an alarm

A row's index is its position in the list last loaded, so an alarm moves up when alarms ahead
of it are cleared, and stays where it is while none is.

## Main definitions

* `ServesRow`: a reply served from a row of the list held
* `RowsMoved`: two replies, the second after the changes between their loads
* `HoldsFront`, `KeepsFront`: the first alarms of the database, loaded and counted, and the
  events that leave them so
* `concurrentWalk`: a walk with changes of the database between its calls

## Main results

* `ServesRow.value_eq`: the reply's value is the row's field
* `holdsFront_step`, `HoldsFront.next`: the first alarms stay, and each is answered in its turn
* `alarm_index_law`: indexes fall by the alarms cleared ahead, rows are not mixed while none
  is, and a walk reports the alarms already served
* `alarm_index_not_kept`: an alarm served under two indexes, and one missed by a walk
-/

namespace StxSnmp.FmAgent

open Transducer Displacement MachineInt

variable (dateNTime : ℤ → List UInt8)

/-! ## Replies and the list held -/

/-- The reply names row `k + 1` and has a value, and the list held when the call returns has
`row` there. -/
structure ServesRow (r : Request) (out : System × Response) (k : ℕ) (row : AlarmData) : Prop where
  name : out.2.name = r.vp.name ++ [k + 1]
  value : out.2.value.isSome
  held : out.1.agent.alarms.alarmList[k]? = some row

/-- The request counted, and found the row's index within the count. -/
theorem ServesRow.found {s : System} {loads : AlarmLoads} {r : Request} {k : ℕ}
    {row : AlarmData} (h : ServesRow r (serveAlarm dateNTime s loads r) k row) :
    ∃ s₁, getCount activeAlarms (loads.env s.db).timeNow (loads.env s.db).countScan
        (s.agent.alarms, s.agent.plugin) = (cInt s₁.1.count, s₁) ∧
      headerEntry loads.oids (cInt s₁.1.count) r = HeaderOut.found r (k + 1) ∧
      ((k + 1 : ℕ) : ℤ) ≤ cInt s₁.1.count := by
  rcases hget : getCount activeAlarms (loads.env s.db).timeNow (loads.env s.db).countScan
    (s.agent.alarms, s.agent.plugin) with ⟨count, s₁⟩
  obtain ⟨-, -, hcount⟩ := getCount_list rfl _ hget
  rw [hcount] at hget
  refine ⟨s₁, by rw [hcount], ?_⟩
  obtain hsearch | ⟨index, -, hle, hsearch⟩ := headerEntry_cases loads.oids (cInt s₁.1.count) r
  · have hvalue := h.value
    rw [serveAlarm_reply, varTable_of_notFound hget hsearch] at hvalue
    cases hvalue
  · have hname := h.name
    rw [serveAlarm_reply, (varTable_of_found (alarmValue dateNTime) hget hsearch).1] at hname
    obtain rfl : index = k + 1 := by simpa using hname
    exact ⟨hsearch, hle⟩

/-- The value served is the column's field of the row. -/
theorem ServesRow.value_eq {s : System} {loads : AlarmLoads} {r : Request} {k : ℕ}
    {row : AlarmData} (h : ServesRow r (serveAlarm dateNTime s loads r) k row)
    (hvp : r.vp ∈ alarmVariables) :
    (serveAlarm dateNTime s loads r).2.value =
      (alarmRow dateNTime (k + 1) row)[r.vp.column - 1]? := by
  obtain ⟨s₁, hget, hsearch, -⟩ := h.found
  have hlist : (scanInit activeAlarms (loads.env s.db).indexScan s₁).1.alarmList[k]? =
      some row := by
    rw [← (varTable_of_found (alarmValue dateNTime) hget hsearch).2.1.alarmList]
    exact h.held
  rw [serveAlarm_reply, varTable_value hget hsearch hlist]
  exact (alarmValue_serves dateNTime).field r.vp hvp (k + 1) row

/-- The row served is within the count kept. -/
theorem ServesRow.lt_count {s : System} {loads : AlarmLoads} {r : Request} {k : ℕ}
    {row : AlarmData} (h : ServesRow r (serveAlarm dateNTime s loads r) k row) :
    k + 1 ≤ (serveAlarm dateNTime s loads r).1.agent.alarms.count := by
  obtain ⟨s₁, hget, hsearch, hle⟩ := h.found
  obtain ⟨-, hcache, -⟩ := varTable_of_found (alarmValue dateNTime) hget hsearch
  rw [serveAlarm_alarms, hcache.count, (scanInit_frame (loads.env s.db).indexScan s₁).1]
  have hint := cInt_le s₁.1.count
  omega

/-- Two replies, the list of the second loaded the changes `between` after that of the first:
an alarm kept has moved up by the alarms cleared ahead of it, and a row has kept its alarm when
neither it nor an alarm ahead of it was cleared. -/
structure RowsMoved (ahead : List AlarmData) (between : List AlarmChange) (k : ℕ)
    (row : AlarmData) (k' : ℕ) (row' : AlarmData) : Prop where
  moved : row'.uuid = row.uuid → row.uuid ∉ removed between →
    k' + ahead.countP (fun alarm => decide (alarm.uuid ∈ removed between)) = k
  unmixed : k' = k → row.uuid ∉ removed between →
    (∀ alarm ∈ ahead, alarm.uuid ∉ removed between) → row' = row

/-- The database after `m'` changes is that after `m`, run on. -/
theorem run_take_of_le (db : AlarmDatabase) (changes : List AlarmChange) {m m' : ℕ} (h : m ≤ m') :
    db.run (changes.take m') = (db.run (changes.take m)).run ((changes.take m').drop m) := by
  have hsplit := List.take_append_drop m (changes.take m')
  rw [List.take_take, Nat.min_eq_left h] at hsplit
  rw [← Keyed.run_append, hsplit]

theorem getElem?_of_prefix {rows rows' : List AlarmData} (h : rows <+: rows') {k : ℕ}
    {row : AlarmData} (hrow : rows[k]? = some row) : rows'[k]? = some row := by
  obtain ⟨hlt, hget⟩ := List.getElem?_eq_some_iff.mp hrow
  rw [List.prefix_iff_getElem?.mp h k hlt, hget]

/-- Lists loaded before and after some changes have their rows moved accordingly. -/
theorem rowsMoved_of_asOf {db : AlarmDatabase} {changes : List AlarmChange} {m m' : ℕ}
    {rows rows' : List AlarmData} (h : AsOf db changes m rows) (h' : AsOf db changes m' rows')
    (hm : m ≤ m') {k k' : ℕ} {row row' : AlarmData} (hrow : rows[k]? = some row)
    (hrow' : rows'[k']? = some row') :
    RowsMoved (rows.take k) ((changes.take m').drop m) k row k' row' := by
  have hearlier := getElem?_of_prefix h.rows_front hrow
  have hlater := getElem?_of_prefix h'.rows_front hrow'
  rw [run_take_of_le db changes hm] at hlater
  obtain ⟨hlt, hget⟩ := List.getElem?_eq_some_iff.mp hrow
  constructor
  · intro hkey hkept
    -- ahead of the row the list held has what the database had
    have htake : rows.take k = (db.run (changes.take m)).rows.take k := by
      obtain ⟨rest, hrest⟩ := h.rows_front
      rw [← hrest, List.take_append_of_le_length hlt.le]
    rw [htake]
    convert Keyed.position_run hearlier hkept hlater hkey
  · rintro rfl hkept hahead
    -- the rows up to this one were first in the database, and none of them is cleared
    have hfront : rows.take k' ++ [row] <+: (db.run (changes.take m)).rows := by
      rw [← hget, List.take_append_getElem hlt]
      exact (List.take_prefix _ _).trans h.rows_front
    have hstays := Keyed.prefix_run hfront ((changes.take m').drop m) fun alarm hmem => by
      rcases List.mem_append.mp hmem with hmem | hmem
      · exact hahead alarm hmem
      · rw [List.mem_singleton.mp hmem]
        exact hkept
    have hlast : (rows.take k' ++ [row])[k']? = some row := by simp [Nat.le_of_lt hlt]
    have hsame := getElem?_of_prefix hstays hlast
    rw [hlater] at hsame
    exact Option.some.inj hsame

/-! ## The first alarms of the database -/

/-- The alarms `front` come first in the database and in the list held, and are counted. -/
structure HoldsFront (front : List AlarmData) (s : System) : Prop where
  db : front <+: s.db.rows
  list : front <+: s.agent.alarms.alarmList
  count : front.length ≤ s.agent.alarms.count

/-- None of the alarms is cleared, and no allocation fails. -/
structure KeepsFront (front : List AlarmData) (e : SystemEvent) : Prop where
  spared : ∀ alarm ∈ front, alarm.uuid ∉ removed e.changes
  allocated : ∀ loads r, e = .alarm loads r →
    (∀ i, loads.countAllocated i = true) ∧ ∀ i, loads.indexAllocated i = true

/-- An event that spares the first alarms leaves them first, loaded and counted. -/
theorem holdsFront_step (front : List AlarmData) :
    Preserves (systemStep dateNTime) (KeepsFront front) (HoldsFront front) := by
  intro s e he h
  cases e with
  | change c => exact ⟨Keyed.prefix_run h.db [c] he.spared, h.list, h.count⟩
  | event env r => exact ⟨h.db, h.list, h.count⟩
  | alarm loads r =>
    obtain ⟨hcountAll, hindexAll⟩ : (∀ i, (loads.env s.db).countScan.allocated i = true) ∧
        ∀ i, (loads.env s.db).indexScan.allocated i = true := he.allocated loads r rfl
    have hdb : front <+: (s.db.run loads.between).rows := Keyed.prefix_run h.db _ he.spared
    obtain ⟨counted, hcounted, hcount, hlist⟩ := varTable_list (c := activeAlarms)
      (alarmValue dateNTime) (loads.env s.db) rfl rfl r (s.agent.alarms, s.agent.plugin)
    -- counted is the list held or what the database has in front
    have hfront : front <+: counted := by
      rcases hcounted with rfl | rfl
      · exact h.list
      · rw [loadRows_of_allocated fun j _ => hcountAll (0 + j)]
        exact h.db
    refine ⟨hdb, ?_, ?_⟩
    · show front <+: (serveAlarm dateNTime s loads r).1.agent.alarms.alarmList
      rw [serveAlarm_alarms]
      rcases hlist with hlist | hlist
      · rw [hlist]
        exact hfront
      · rw [hlist, loadRows_of_allocated fun j _ => hindexAll (0 + j)]
        exact hdb
    · show front.length ≤ (serveAlarm dateNTime s loads r).1.agent.alarms.count
      rw [serveAlarm_alarms]
      rcases hcount with hcount | hcount
      · rw [hcount]
        exact h.count
      · rw [hcount]
        exact hfront.length_le

/-- A non-exact request whose next row is one of the first alarms answers that alarm's field. -/
theorem HoldsFront.next {front : List AlarmData} {s : System} (h : HoldsFront front s)
    {loads : AlarmLoads} {r : Request} (he : KeepsFront front (.alarm loads r))
    (hvp : r.vp ∈ alarmVariables) (hexact : r.exact = false) {k : ℕ}
    (hname : NextRow r.vp r.name k) {row : AlarmData} (hrow : front[k]? = some row)
    (hbound : (serveAlarm dateNTime s loads r).1.agent.alarms.count < 2147483648) :
    (serveAlarm dateNTime s loads r).2.name = r.vp.name ++ [k + 1] ∧
      (serveAlarm dateNTime s loads r).2.value =
        (alarmRow dateNTime (k + 1) row)[r.vp.column - 1]? := by
  have hafter : HoldsFront front (serveAlarm dateNTime s loads r).1 :=
    holdsFront_step dateNTime front s (.alarm loads r) he h
  have hk : k < front.length := (List.getElem?_eq_some_iff.mp hrow).1
  rcases hget : getCount activeAlarms (loads.env s.db).timeNow (loads.env s.db).countScan
    (s.agent.alarms, s.agent.plugin) with ⟨count, s₁⟩
  obtain ⟨-, -, hcount⟩ := getCount_list rfl _ hget
  have hsearch : headerEntry loads.oids count r = _ :=
    headerEntry_next hexact (Nat.succ_pos k) hname.lt hname.least
  by_cases hle : ((k + 1 : ℕ) : ℤ) ≤ count
  · rw [if_pos hle] at hsearch
    have hlist : (scanInit activeAlarms (loads.env s.db).indexScan s₁).1.alarmList[k]? =
        some row := by
      rw [← (varTable_of_found (alarmValue dateNTime) hget hsearch).2.1.alarmList]
      exact getElem?_of_prefix hafter.list hrow
    rw [serveAlarm_reply, varTable_value hget hsearch hlist]
    exact ⟨(varTable_of_found (alarmValue dateNTime) hget hsearch).1,
      (alarmValue_serves dateNTime).field r.vp hvp (k + 1) row⟩
  · -- the count would be less than the alarms counted
    exfalso
    rw [if_neg hle] at hsearch
    have hkept := hafter.count
    rw [serveAlarm_alarms, varTable_of_notFound hget hsearch] at hkept hbound
    rw [hcount, cInt_natCast hbound] at hle
    have hkept : front.length ≤ s₁.1.count := hkept
    omega

/-! ## Walks beside changes -/

/-- A call of a walk: the events before it, what it meets, and what its variables hold. -/
structure ConcurrentCall where
  before : List SystemEvent
  loads : AlarmLoads
  varLen : ℕ
  writeMethod : ℕ

namespace ConcurrentCall

/-- The request of the call. -/
def request (call : ConcurrentCall) (vp : Variable) (name : Oid) : Request :=
  ⟨vp, name, false, call.varLen, call.writeMethod⟩

/-- The changes made before the call and during it. -/
def changes (call : ConcurrentCall) : List AlarmChange :=
  changesOf call.before ++ call.loads.between

/-- The call and the events before it spare the first alarms. -/
structure Keeps (front : List AlarmData) (call : ConcurrentCall) : Prop where
  before : ∀ e ∈ call.before, KeepsFront front e
  call : ∀ vp name, KeepsFront front (.alarm call.loads (call.request vp name))

end ConcurrentCall

/-- The walk of column `vp` from `name`, each call given the name the one before returned. -/
def concurrentWalk (vp : Variable) : System → Oid → List ConcurrentCall → List Response
  | _, _, [] => []
  | s, name, call :: calls =>
    let s := after (systemStep dateNTime) s call.before
    let (s, reply) := serveAlarm dateNTime s call.loads (call.request vp name)
    reply :: concurrentWalk vp s reply.name calls

theorem concurrentWalk_cons (vp : Variable) (s : System) (name : Oid) (call : ConcurrentCall)
    (calls : List ConcurrentCall) :
    concurrentWalk dateNTime vp s name (call :: calls) =
      let s := after (systemStep dateNTime) s call.before
      let reply := (serveAlarm dateNTime s call.loads (call.request vp name)).2
      reply :: concurrentWalk dateNTime vp
        (systemStep dateNTime s (.alarm call.loads (call.request vp name))).1 reply.name calls :=
  rfl

/-- The database holds fewer alarms than an `int` counts, all along the changes. -/
def SmallDatabase (db : AlarmDatabase) (changes : List AlarmChange) : Prop :=
  ∀ n, (db.run (changes.take n)).rows.length < 2147483648

theorem Reflects.count_lt {db : AlarmDatabase} {changes more : List AlarmChange} {m : ℕ}
    {s : System} (h : Reflects db changes m s) (hsmall : SmallDatabase db (changes ++ more)) :
    s.agent.alarms.count < 2147483648 := by
  obtain ⟨n, rows, hrows, hcount⟩ := h.count
  exact (hcount.trans (hrows.more more).rows_front.length_le).trans_lt (hsmall n)

/-- A walk reports the first alarms from row `k` on, in order. -/
theorem concurrentWalk_front {front : List AlarmData} {vp : Variable} (hvp : vp ∈ alarmVariables)
    {db : AlarmDatabase} {changes : List AlarmChange} {m k : ℕ} {s : System} {name : Oid}
    {rest : List AlarmData} {calls : List ConcurrentCall} (hr : Reflects db changes m s)
    (h : HoldsFront front s) (hname : NextRow vp name k) (hrest : front.drop k = rest)
    (hcalls : rest.length ≤ calls.length) (hkeeps : ∀ call ∈ calls, call.Keeps front)
    (hsmall : SmallDatabase db (changes ++ calls.flatMap ConcurrentCall.changes)) :
    ((concurrentWalk dateNTime vp s name calls).take rest.length).map
        (fun reply => (reply.name, reply.value)) =
      rest.mapIdx fun j row => (vp.name ++ [k + j + 1],
        (alarmRow dateNTime (k + j + 1) row)[vp.column - 1]?) := by
  -- each call leaves the first alarms loaded and counted for the next
  induction rest generalizing k name calls s changes m with
  | nil => rfl
  | cons row rest ih =>
    obtain ⟨call, calls, rfl⟩ : ∃ call calls', calls = call :: calls' :=
      List.exists_cons_of_length_pos (by simp at hcalls; omega)
    have hrow : front[k]? = some row := by
      rw [← List.head?_drop, hrest]
      rfl
    have hrest' : front.drop (k + 1) = rest := by
      rw [← List.tail_drop, hrest]
      rfl
    have hcall := hkeeps call List.mem_cons_self
    have hbefore : HoldsFront front (after (systemStep dateNTime) s call.before) :=
      (holdsFront_step dateNTime front).after hcall.before h
    obtain ⟨m₁, -, hr₁⟩ := hr.after dateNTime call.before
    obtain ⟨m₂, -, hr₂⟩ := hr₁.step dateNTime (.alarm call.loads (call.request vp name))
    rw [List.flatMap_cons, ← List.append_assoc, ConcurrentCall.changes, ← List.append_assoc]
      at hsmall
    obtain ⟨hnext, hvalue⟩ := hbefore.next dateNTime (hcall.call vp name) hvp rfl hname hrow
      (hr₂.count_lt hsmall)
    have ih := ih hr₂ (holdsFront_step dateNTime front _ _ (hcall.call vp name) hbefore)
      (hnext ▸ NextRow.succ vp k) hrest' (by simpa using hcalls)
      (fun call hmem => hkeeps call (List.mem_cons_of_mem _ hmem)) hsmall
    have hindex : ∀ j, k + 1 + j = k + (j + 1) := fun j => by omega
    rw [concurrentWalk_cons, List.length_cons, List.take_succ_cons, List.map_cons, ih, hnext,
      hvalue, List.mapIdx_cons]
    simp only [hindex, Nat.add_zero]
    rfl

/-- **Indexes fall by the alarms cleared ahead**: a reply from row `k + 1` of the list held, as of
`m` changes of the database, answers that row's field; in a later reply an alarm kept has moved
up by the alarms cleared ahead of it between the two loads, and a row has changed its alarm only
if one up to it was cleared; and while none up to it is, a walk reports the rows up to it. -/
theorem alarm_index_law {created : Bool} {a : Agent} (ha : Agent.init created = some a)
    (db : AlarmDatabase) (es : List SystemEvent) (loads : AlarmLoads) (r : Request) :
    let out := serveAlarm dateNTime (after (systemStep dateNTime) ⟨db, a⟩ es) loads r
    let changes := changesOf es ++ loads.between
    let list := out.1.agent.alarms.alarmList
    ∃ m, AsOf db changes m list ∧ ∀ k row, ServesRow r out k row →
      (r.vp ∈ alarmVariables →
        out.2.value = (alarmRow dateNTime (k + 1) row)[r.vp.column - 1]?) ∧
      (∀ es' loads' r',
        let out' := serveAlarm dateNTime (after (systemStep dateNTime) out.1 es') loads' r'
        let changes' := changes ++ changesOf es' ++ loads'.between
        ∃ m', m ≤ m' ∧ AsOf db changes' m' out'.1.agent.alarms.alarmList ∧
          ∀ k' row', ServesRow r' out' k' row' →
            RowsMoved (list.take k) ((changes'.take m').drop m) k row k' row') ∧
      (∀ vp ∈ alarmVariables, ∀ start, start < vp.name ++ [1] → ∀ calls : List ConcurrentCall,
        k < calls.length →
        (∀ alarm ∈ list.take (k + 1), alarm.uuid ∉ removed (changes.drop m)) →
        (∀ call ∈ calls, call.Keeps (list.take (k + 1))) →
        SmallDatabase db (changes ++ calls.flatMap ConcurrentCall.changes) →
        ((concurrentWalk dateNTime vp out.1 start calls).take (k + 1)).map
            (fun reply => (reply.name, reply.value)) =
          (list.take (k + 1)).mapIdx fun j alarm =>
            (vp.name ++ [j + 1], (alarmRow dateNTime (j + 1) alarm)[vp.column - 1]?)) := by
  intro out changes list
  obtain ⟨m₀, -, hes⟩ := (Reflects.init ha db).after dateNTime es
  obtain ⟨m, -, hout⟩ := hes.step dateNTime (.alarm loads r)
  refine ⟨m, hout.list, fun k row hrow => ⟨hrow.value_eq dateNTime, ?_, ?_⟩⟩
  · intro es' loads' r' out' changes'
    obtain ⟨m₁, hm₁, hes'⟩ := hout.after dateNTime es'
    obtain ⟨m', hm', hout'⟩ := hes'.step dateNTime (.alarm loads' r')
    refine ⟨m', hm₁.trans hm', hout'.list, ?_⟩
    intro k' row' hrow'
    -- later changes do not alter what the earlier list was loaded from
    have hearlier : AsOf db changes' m list := (hout.list.more _).more _
    exact rowsMoved_of_asOf hearlier hout'.list (hm₁.trans hm') hrow.held hrow'.held
  · intro vp hvp start hstart calls hcalls hspared hkeeps hsmall
    -- the alarms up to the row served are first in the database still, loaded and counted
    have hfront : HoldsFront (list.take (k + 1)) out.1 := by
      have hloaded : list.take (k + 1) <+: (db.run (changes.take m)).rows :=
        (List.take_prefix _ _).trans hout.list.rows_front
      refine ⟨?_, List.take_prefix _ _, (List.length_take_le _ _).trans (hrow.lt_count dateNTime)⟩
      have hdb : out.1.db = (db.run (changes.take m)).run (changes.drop m) := by
        rw [← Keyed.run_append, List.take_append_drop]
        exact hout.db_eq
      rw [hdb]
      exact Keyed.prefix_run hloaded _ hspared
    have hlength : (list.take (k + 1)).length = k + 1 :=
      List.length_take_of_le (List.getElem?_eq_some_iff.mp hrow.held).1
    have hwalk := concurrentWalk_front dateNTime hvp hout hfront (NextRow.start hstart) rfl
      (by rw [List.drop_zero, hlength]; omega) hkeeps hsmall
    rw [List.drop_zero, hlength] at hwalk
    simp only [Nat.zero_add] at hwalk
    exact hwalk

/-- Two alarms, told apart by their severity. -/
def firstAlarm : AlarmData := { (default : AlarmData) with uuid := [65], severity := 1 }

def secondAlarm : AlarmData := { (default : AlarmData) with uuid := [66], severity := 2 }

def twoAlarms : AlarmDatabase := ⟨[firstAlarm, secondAlarm], by decide⟩

/-- The loads of a request whose allocations succeed, without a change between them. -/
def AlarmLoads.quiet (timeNow clock : ℤ) : AlarmLoads :=
  ⟨timeNow, clock, clock, fun _ => true, fun _ => true, 0, .lexicographic, []⟩

/-- The sub-agent started beside a database. -/
def System.start (db : AlarmDatabase) : System :=
  ⟨db, fmSnmpUtilCreateSession true Plugin.init, Table.init, Table.init⟩

/-- A request for the severity of row `i`. -/
abbrev serveSeverity (s : System) (i : ℕ) (timeNow clock : ℤ) : System × Response :=
  serveAlarm (fun _ => []) s (.quiet timeNow clock) (.get severityColumn i 0 0)

theorem servesRow_second :
    ServesRow (.get severityColumn 2 0 0) (serveSeverity (.start twoAlarms) 2 100 1) 1
      secondAlarm :=
  ⟨by decide +kernel, by decide +kernel, by decide +kernel⟩

/-- When the first alarm has been cleared, the second is served as row 1. -/
theorem servesRow_second_moved :
    ServesRow (.get severityColumn 1 0 0)
      (serveSeverity (after (systemStep fun _ => []) (serveSeverity (.start twoAlarms) 2 100 1).1
        [.change (.remove firstAlarm.uuid)]) 1 103 4) 0 secondAlarm :=
  ⟨by decide +kernel, by decide +kernel, by decide +kernel⟩

/-- Between the two replies the second alarm has moved past the first. -/
theorem alarm_index_law_cleared :
    ∃ between, RowsMoved [firstAlarm] between 1 secondAlarm 0 secondAlarm := by
  obtain ⟨m, -, hserved⟩ := alarm_index_law (fun _ => []) (show Agent.init true = some _ from rfl)
    twoAlarms [] (.quiet 100 1) (.get severityColumn 2 0 0)
  obtain ⟨-, hlater, -⟩ := hserved 1 secondAlarm servesRow_second
  obtain ⟨m', -, -, hmoved⟩ := hlater [.change (.remove firstAlarm.uuid)] (.quiet 103 4)
    (.get severityColumn 1 0 0)
  obtain ⟨ahead, between, hahead, hmoved⟩ : ∃ ahead between, ahead = [firstAlarm] ∧
      RowsMoved ahead between 1 secondAlarm 0 secondAlarm :=
    ⟨_, _, by decide +kernel, hmoved 0 secondAlarm servesRow_second_moved⟩
  exact ⟨between, hahead ▸ hmoved⟩

/-- The second alarm is served under index 2, and under index 1 when the first has been cleared;
and raised after a count it is missed by a walk during which nothing changes. -/
theorem alarm_index_not_kept :
    ServesRow (.get severityColumn 2 0 0) (serveSeverity (.start twoAlarms) 2 100 1) 1
        secondAlarm ∧
      ServesRow (.get severityColumn 1 0 0)
        (serveSeverity (after (systemStep fun _ => []) (serveSeverity (.start twoAlarms) 2 100 1).1
          [.change (.remove firstAlarm.uuid)]) 1 103 4) 0 secondAlarm ∧
      (concurrentWalk (fun _ => []) severityColumn
          (after (systemStep fun _ => []) (.start ⟨[firstAlarm], by decide⟩)
            [.alarm (.quiet 100 1) (.get severityColumn 1 0 0), .change (.append secondAlarm)]) []
          [⟨[], .quiet 103 4, 0, 0⟩, ⟨[], .quiet 104 5, 0, 0⟩]).map (fun reply => reply.value) =
        [some (.long firstAlarm.severity), none] :=
  ⟨servesRow_second, servesRow_second_moved, by decide +kernel⟩

end StxSnmp.FmAgent
