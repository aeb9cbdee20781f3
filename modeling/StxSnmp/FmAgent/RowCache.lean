import StxSnmp.FmAgent.Request

/-!
# The count and the list in an answer

The count of a table is kept for 60 seconds of wall-clock time, its list for a second or two
of monotonic time, and each answer takes its range from the count and its row from the list.

## Main definitions

* `alarmRow`, `eventRow`: the conceptual row of a database row, column by column
* `Serves`: a switch that answers each registered column from the conceptual row
* `countInForce`: the rows of the list as of the recount the request relies on
* `AnswersFromCache`: an answer in agreement with a count and a list

## Main results

* `varTable_exact`: the state and the answer of a request for a given row
* `exact_request_answers_from_cache`: both tables answer from the count in force and the list
* `listed_row_not_served`: a row the list holds, beyond a count not yet recounted
-/

namespace StxSnmp.FmAgent

open MachineInt

/-! ## Conceptual rows -/

/-- The column's sub-identifier under the table entry. -/
def Variable.column (vp : Variable) : ℕ := vp.name.getLastD 0

section Rows

variable (dateNTime : ℤ → List UInt8) (index : ℕ) (alarm : AlarmData)

/-- The row `index` of the active-alarm table, the UUID as the scan copies it. -/
def alarmRow : List Value :=
  [.long index, .octets (strlcpy alarm.uuid uuidSize), .octets alarm.alarmId,
    .octets alarm.entityInstanceId, .octets (dateNTime (alarm.timestamp / 1000000 : ℕ)),
    .long alarm.severity, .octets alarm.reasonText, .long alarm.alarmType,
    .long alarm.probableCause, .octets alarm.proposedRepairAction,
    .long alarm.serviceAffecting, .long alarm.suppression]

/-- The row `index` of the event log: as an alarm's, with the state after the identifier. -/
def eventRow : List Value :=
  [.long index, .octets (strlcpy alarm.uuid uuidSize), .octets alarm.alarmId,
    .long alarm.alarmState, .octets alarm.entityInstanceId,
    .octets (dateNTime (alarm.timestamp / 1000000 : ℕ)), .long alarm.severity,
    .octets alarm.reasonText, .long alarm.alarmType, .long alarm.probableCause,
    .octets alarm.proposedRepairAction, .long alarm.serviceAffecting, .long alarm.suppression]

end Rows

/-- On the columns `vars` the switch answers some value, from the buffers of a row that row's
field. -/
structure Serves (vars : List Variable)
    (entryValue : ℕ → ℤ → List UInt8 → AlarmData → Option Value)
    (rowOf : ℕ → AlarmData → List Value) : Prop where
  isSome : ∀ vp ∈ vars, ∀ index name alrm, (entryValue vp.magic index name alrm).isSome
  field : ∀ vp ∈ vars, ∀ index row,
    entryValue vp.magic (index : ℕ) (strlcpy row.uuid uuidSize) row =
      (rowOf index row)[vp.column - 1]?

theorem alarmValue_serves (dateNTime : ℤ → List UInt8) :
    Serves alarmVariables (alarmValue dateNTime) (alarmRow dateNTime) := by
  constructor
  · intro vp hvp index name alrm
    simp only [alarmVariables, List.mem_cons, List.not_mem_nil, or_false] at hvp
    rcases hvp with rfl | rfl | rfl | rfl | rfl | rfl | rfl | rfl | rfl | rfl | rfl | rfl <;> rfl
  · intro vp hvp index row
    simp only [alarmVariables, List.mem_cons, List.not_mem_nil, or_false] at hvp
    rcases hvp with rfl | rfl | rfl | rfl | rfl | rfl | rfl | rfl | rfl | rfl | rfl | rfl <;> rfl

theorem eventValue_serves (dateNTime : ℤ → List UInt8) :
    Serves eventLogVariables (eventValue dateNTime) (eventRow dateNTime) := by
  constructor
  · intro vp hvp index name alrm
    simp only [eventLogVariables, List.mem_cons, List.not_mem_nil, or_false] at hvp
    rcases hvp with rfl | rfl | rfl | rfl | rfl | rfl | rfl | rfl | rfl | rfl | rfl | rfl | rfl <;>
      rfl
  · intro vp hvp index row
    simp only [eventLogVariables, List.mem_cons, List.not_mem_nil, or_false] at hvp
    rcases hvp with rfl | rfl | rfl | rfl | rfl | rfl | rfl | rfl | rfl | rfl | rfl | rfl | rfl <;>
      rfl

/-! ## The count in force -/

/-- The count a request goes by: the rows its recount loads when one is due, else the rows
counted last. -/
def countInForce (c : TableCode) (env : RequestEnv) (s : Table × Plugin) : ℕ :=
  if s.1.count = 0 ∨ env.timeNow > s.1.scanTime + 60 then
    (scanInit c env.countScan ({ s.1 with scanTime := env.timeNow }, s.2)).1.alarmList.length
  else s.1.count

/-- The count answered is the one in force, and is kept. -/
theorem getCount_countInForce (c : TableCode) (env : RequestEnv) (s : Table × Plugin) :
    ∃ s₁, getCount c env.timeNow env.countScan s = (cInt (countInForce c env s), s₁) ∧
      s₁.1.count = countInForce c env s := by
  obtain ⟨t, p⟩ := s
  by_cases h : RecountDue env.timeNow t
  · have hcount : countInForce c env (t, p) = _ := if_pos h
    rcases hload : scanInit c env.countScan ({ t with scanTime := env.timeNow }, p) with ⟨t', p'⟩
    -- the recount counts the list it has just loaded
    obtain ⟨u, hu⟩ := getCount_recount h hload
    rw [hload] at hcount
    rw [hu, hcount]
    exact ⟨_, rfl, rfl⟩
  · have hcount : countInForce c env (t, p) = t.count := if_neg h
    rw [getCount_cached _ h, hcount]
    exact ⟨_, rfl, rfl⟩

/-! ## Requests for a given row -/

/-- The request for row `i` of a column, and no other. -/
def Request.get (vp : Variable) (i varLen writeMethod : ℕ) : Request :=
  ⟨vp, vp.name ++ [i], true, varLen, writeMethod⟩

/-- An answer to the request for row `i` of a column that agrees with `count` on the range and
with `list` on the value. -/
structure AnswersFromCache (rowOf : ℕ → AlarmData → List Value) (count : ℤ)
    (list : List AlarmData) (column i : ℕ) (value : Option Value) : Prop where
  none_of_lt : count < i → value = none
  isSome_iff : i ≤ list.length → (value.isSome ↔ (i : ℤ) ≤ count)
  eq_field : (i : ℤ) ≤ count → ∀ row, list[i - 1]? = some row →
    value = (rowOf i row)[column - 1]?

section Exact

variable {c : TableCode} {vars : List Variable}
  {entryValue : ℕ → ℤ → List UInt8 → AlarmData → Option Value}
  {rowOf : ℕ → AlarmData → List Value}

/-- The request for row `i` answers from the count in force and the list then held. -/
theorem varTable_exact (hserves : Serves vars entryValue rowOf) {vp : Variable} (hvp : vp ∈ vars)
    {i : ℕ} (hi : 1 ≤ i) (varLen writeMethod : ℕ) (env : RequestEnv) (s : Table × Plugin) :
    AnswersFromCache rowOf (cInt (countInForce c env s))
      (varTable c entryValue env (.get vp i varLen writeMethod) s).1.1.alarmList vp.column i
      (varTable c entryValue env (.get vp i varLen writeMethod) s).2.value := by
  obtain ⟨s₁, hcount, -⟩ := getCount_countInForce c env s
  have hsearch :
      headerEntry env.oids (cInt (countInForce c env s)) (.get vp i varLen writeMethod) = _ :=
    headerEntry_exact rfl rfl hi
  obtain ⟨k, rfl⟩ : ∃ k, i = k + 1 := ⟨i - 1, by omega⟩
  by_cases hle : ((k + 1 : ℕ) : ℤ) ≤ cInt (countInForce c env s)
  · rw [if_pos hle] at hsearch
    obtain ⟨-, hcache, -⟩ := varTable_of_found entryValue hcount hsearch
    -- the lookup reads the row if the list has it
    have hvalue : ∀ row, (scanInit c env.indexScan s₁).1.alarmList[k]? = some row →
        (varTable c entryValue env (.get vp (k + 1) varLen writeMethod) s).2.value =
          (rowOf (k + 1) row)[vp.column - 1]? := by
      intro row hrow
      rw [varTable_value hcount hsearch hrow]
      exact hserves.field vp hvp (k + 1) row
    rw [hcache.alarmList]
    refine ⟨fun hlt => absurd hle (Int.not_le.mpr hlt), ?_, fun _ => hvalue⟩
    intro hlen
    obtain ⟨row, hrow⟩ : ∃ row, (scanInit c env.indexScan s₁).1.alarmList[k]? = some row :=
      ⟨_, List.getElem?_eq_getElem hlen⟩
    rw [hvalue row hrow, ← hserves.field vp hvp (k + 1) row]
    exact iff_of_true (hserves.isSome vp hvp _ _ _) hle
  · -- the row is beyond the count, whatever the list holds
    rw [if_neg hle] at hsearch
    rw [varTable_of_notFound hcount hsearch]
    exact ⟨fun _ => rfl, fun _ => iff_of_false (by simp) hle, fun hle' => absurd hle' hle⟩

end Exact

/-- **Both tables answer from the count in force and the list held**: a request for a row
beyond the count answers nothing, and for a row the list holds it answers exactly within the
count, with the column's field of that row of the list. -/
theorem exact_request_answers_from_cache (dateNTime : ℤ → List UInt8) (a : Agent)
    (env : RequestEnv) (vp : Variable) (i varLen writeMethod : ℕ) (hi : 1 ≤ i) :
    (vp ∈ alarmVariables →
      let out := agentStep dateNTime a (.alarm env (.get vp i varLen writeMethod))
      AnswersFromCache (alarmRow dateNTime)
        (cInt (countInForce activeAlarms env (a.alarms, a.plugin))) out.1.alarms.alarmList
        vp.column i out.2.value) ∧
    (vp ∈ eventLogVariables →
      let out := agentStep dateNTime a (.event env (.get vp i varLen writeMethod))
      AnswersFromCache (eventRow dateNTime)
        (cInt (countInForce eventLogs env (a.events, a.plugin))) out.1.events.alarmList
        vp.column i out.2.value) :=
  ⟨fun hvp => varTable_exact (alarmValue_serves dateNTime) hvp hi varLen writeMethod env _,
    fun hvp => varTable_exact (eventValue_serves dateNTime) hvp hi varLen writeMethod env _⟩

/-- What a request meets when every query obtains `rows`. -/
def RequestEnv.steady (timeNow clock : ℤ) (rows : List AlarmData) : RequestEnv :=
  ⟨timeNow, ⟨clock, fun _ => .obtained rows, fun _ => true⟩,
    ⟨clock, fun _ => .obtained rows, fun _ => true⟩, 0, .lexicographic⟩

/-- The severity column of the active-alarm table. -/
def severityColumn : Variable := alarmVariables[5]

/-- A row with a severity. -/
def severityRow (severity : ℤ) : AlarmData := { (default : AlarmData) with severity := severity }

/-- Two alarms of severities 3 and 4. -/
def twoSeverities : List AlarmData := [severityRow 3, severityRow 4]

/-- A first request for the severity of the second of them. -/
def secondSeverity : Agent × Response :=
  agentStep (fun _ => []) ⟨Plugin.init, Table.init, Table.init⟩
    (.alarm (.steady 100 1 twoSeverities) (.get severityColumn 2 0 0))

theorem exact_request_answers_from_cache_severity :
    secondSeverity.1.alarms.alarmList = twoSeverities ∧
      secondSeverity.2.value = some (.long 4) := by
  have hlist : secondSeverity.1.alarms.alarmList = twoSeverities := by decide +kernel
  have hcount : (2 : ℤ) ≤ cInt (countInForce activeAlarms (.steady 100 1 twoSeverities)
      (Table.init, Plugin.init)) := by decide +kernel
  have hanswer := (exact_request_answers_from_cache (fun _ => [])
    ⟨Plugin.init, Table.init, Table.init⟩ (.steady 100 1 twoSeverities) severityColumn 2 0 0
    (by decide)).1 (by decide)
  refine ⟨hlist, ?_⟩
  unfold secondSeverity at hlist ⊢
  rw [hanswer.eq_field hcount (severityRow 4) (by rw [hlist]; rfl)]
  rfl

/-- An alarm raised after the count: the lookup of row 1 reloads the list, which then holds row
2, but the request for row 2 goes by the count and answers nothing. -/
theorem listed_row_not_served :
    ∃ a₀, Agent.init true = some a₀ ∧
      let a := Transducer.after (agentStep fun _ => []) a₀
        [.alarm (.steady 100 1 [default]) (.get severityColumn 1 0 0),
          .alarm (.steady 102 3 [default, default]) (.get severityColumn 1 0 0)]
      let out := agentStep (fun _ => []) a
        (.alarm (.steady 102 3 [default, default]) (.get severityColumn 2 0 0))
      2 ≤ out.1.alarms.alarmList.length ∧ out.2.value = none :=
  ⟨_, rfl, by decide +kernel, by decide +kernel⟩

end StxSnmp.FmAgent
