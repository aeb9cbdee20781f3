import StxSnmp.FmAgent.Lookup
import StxSnmp.FmAgent.Walk
import StxSnmp.TrapServer.Relay

/-!
# The objects the two sub-agents share

The trap sub-agent sends columns of the table that the other sub-agent serves, and neither knows of
the other: each has the object identifiers and the types of the columns written out. They agree. A
variable of a trap is instance 0 of a column the table has registered, and the table answers values
of the same type for that column, but it never answers for that instance.

## Main definitions

* `Value.isText`: the ASN.1 type of an answer

## Main results

* `exists_variable_of_column`: every column of a notification is registered
* `alarmValue_isText`: the switch of the table answers a column with its type
* `traps_share_objects`: whatever is sent and whatever is answered
-/

namespace StxSnmp.FmAgent

/-- Whether an answer is a text; if not, it is an integer. -/
def Value.isText : Value → Bool
  | .octets _ => true
  | .long _ => false

section Answers

variable {c : TableCode} {entryValue : ℕ → ℤ → List UInt8 → AlarmData → Option Value}
  {env : RequestEnv} {r : Request} {s : Table × Plugin}

/-- An answer is what the switch makes of the column. -/
theorem varTable_value_eq {value : Value}
    (h : (varTable c entryValue env r s).2.value = some value) :
    ∃ index name alrm, entryValue r.vp.magic index name alrm = some value := by
  rcases hget : getCount c env.timeNow env.countScan s with ⟨count, s₁⟩
  obtain hsearch | ⟨index, -, -, hsearch⟩ := headerEntry_cases env.oids count r
  · rw [varTable_of_notFound hget hsearch] at h
    cases h
  · rcases hscan : scanByIndex c index env.i s₁.1.name s₁.1.alrm env.indexScan s₁ with
      ⟨⟨res, name, alrm⟩, t, p⟩
    rw [varTable_eq_of_found hget hsearch hscan] at h
    exact ⟨index, name, alrm, h⟩

/-- Nothing is answered for instance 0. -/
theorem varTable_zero (hexact : r.exact = true) (hname : r.name = r.vp.name ++ [0]) :
    (varTable c entryValue env r s).2.value = none := by
  rcases hget : getCount c env.timeNow env.countScan s with ⟨count, s₁⟩
  obtain ⟨i, -, hmem, -⟩ | ⟨-, hsearch⟩ := headerEntry_exact_cases env.oids count hexact
  · rw [hname] at hmem
    exact absurd (mem_instances.mp hmem).1 (by decide)
  · rw [varTable_of_notFound hget hsearch]

end Answers

end StxSnmp.FmAgent

namespace StxSnmp.TrapServer

open Trap FmAgent

/-! ## The columns -/

/-- Every column of a notification is registered. -/
theorem exists_variable_of_column {c : Column} (hc : c ∈ alarmColumns) :
    ∃ vp ∈ alarmVariables, c.oid = vp.name ++ [0] ∧ vp.magic = c.number := by
  revert c
  decide

/-- The switch of the table answers a column with its type. -/
theorem alarmValue_isText {dateNTime : ℤ → List UInt8} {c : Column} (hc : c ∈ alarmColumns)
    {index : ℤ} {name : List UInt8} {alrm : AlarmData} {value : Value}
    (h : alarmValue dateNTime c.number index name alrm = some value) :
    value.isText = c.isText := by
  simp only [alarmColumns, List.mem_cons, List.not_mem_nil, or_false] at hc
  rcases hc with rfl | rfl | rfl | rfl | rfl | rfl | rfl | rfl | rfl | rfl | rfl <;> cases h <;> rfl

/-- A variable of a trap is an instance of a column, with a value of its type. -/
theorem exists_column_of_wellFormed {trap : List Varbind} (h : WellFormed trap) {v : Varbind}
    (hv : v ∈ trap.tail) : ∃ c ∈ alarmColumns, c.Holds v := by
  obtain rfl | ⟨optType, -, htrap⟩ := h
  · exact absurd hv List.not_mem_nil
  · obtain ⟨c, hc, hholds⟩ := htrap.exists_column hv
    exact ⟨c, notification_columns_subset optType hc, hholds⟩

/-! ## Both sub-agents -/

/-- **What is sent and what is answered are of one table**: in every run of the trap sub-agent, a
variable of a trap is instance 0 of a registered column, whose values are of its type, whatever the
other sub-agent has done and is asked; and asked for just that instance it answers nothing. -/
theorem traps_share_objects (t : Tokener) (jc : JsonC) (after : ℕ → List UInt8) (env : StartEnv)
    (port : ℤ) (backlog : List (Option Connection)) (dateNTime : ℤ → List UInt8) :
    ∀ trap ∈ (relay t jc after env port backlog).traps, ∀ v ∈ trap.tail,
      ∃ vp ∈ alarmVariables, v.name = vp.name ++ [0] ∧
        ∀ (a : Agent) (renv : RequestEnv) (r : Request), r.vp = vp →
          (∀ value, (agentStep dateNTime a (.alarm renv r)).2.value = some value →
            v.value.isText? = some value.isText) ∧
          (r.exact = true → r.name = v.name →
            (agentStep dateNTime a (.alarm renv r)).2.value = none) := by
  intro trap htrap v hv
  obtain ⟨c, hc, hname, htype⟩ := exists_column_of_wellFormed (wellFormed_of_mem_relay htrap) hv
  obtain ⟨vp, hvp, hoid, hmagic⟩ := exists_variable_of_column hc
  refine ⟨vp, hvp, hname.trans hoid, ?_⟩
  rintro a renv r rfl
  have hreply : (agentStep dateNTime a (.alarm renv r)).2 = _ :=
    (TableKind.activeAlarms.agentStep_request dateNTime a renv r).2
  rw [hreply]
  constructor
  · intro value hvalue
    obtain ⟨index, name, alrm, hentry⟩ := varTable_value_eq hvalue
    rw [hmagic] at hentry
    rw [htype, alarmValue_isText hc hentry]
  · intro hexact hinstance
    exact varTable_zero hexact ((hinstance.trans hname).trans hoid)

/-- The severity of the notice, and any answer to it. -/
theorem traps_share_objects_severity :
    ∃ vp ∈ alarmVariables, wrsAlarmActiveAlarmSeverityOid = vp.name ++ [0] ∧
      ∀ (a : Agent) (renv : RequestEnv) (r : Request), r.vp = vp →
        (∀ value, (agentStep (fun _ => []) a (.alarm renv r)).2.value = some value →
          (AsnValue.integer 3).isText? = some value.isText) ∧
        (r.exact = true → r.name = wrsAlarmActiveAlarmSeverityOid →
          (agentStep (fun _ => []) a (.alarm renv r)).2.value = none) := by
  have hseverity : ⟨wrsAlarmActiveAlarmSeverityOid, .integer 3⟩ ∈ majorNotice.trap.tail := by
    decide
  exact traps_share_objects majorTokener (.ofParse fun _ => .null) (fun _ => []) quickStart 162
    [majorArrival.accepted] (fun _ => []) _ majorNotice_sent _ hseverity

end StxSnmp.TrapServer
