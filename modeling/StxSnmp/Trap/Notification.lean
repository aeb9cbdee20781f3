import StxSnmp.Trap.Senders

/-!
# The notifications of the MIB

What the alarm MIB says of a trap, independently of the senders: each notification has its
identifier and the columns of `wrsAlarmActiveTable` it may carry. The senders of alarms send just
that.

## Main definitions

* `Column`, `alarmColumns`: the columns of an active alarm
* `Notification`, `notification`: the notification of an operation type
* `trapVarbinds`: the trap that carries an alarm

## Main results

* `selectSender_eq`: the sender of an alarm deals with the columns of its notification
* `alarm_trap_faithful`: an alarm is sent as its notification prescribes
-/

namespace StxSnmp.Trap

open OptionalFields

/-- A column of `wrsAlarmActiveTable`: its number, its name, which is its key in a message, and
whether it is a text or an integer. -/
structure Column where
  number : ℕ
  name : String
  isText : Bool
  deriving DecidableEq, Repr

def alarmColumns : List Column :=
  [⟨2, "wrsAlarmActiveUuid", true⟩,
    ⟨3, "wrsAlarmActiveAlarmId", true⟩,
    ⟨4, "wrsAlarmActiveEntityInstanceId", true⟩,
    ⟨5, "wrsAlarmActiveDateAndTime", true⟩,
    ⟨6, "wrsAlarmActiveAlarmSeverity", false⟩,
    ⟨7, "wrsAlarmActiveReasonText", true⟩,
    ⟨8, "wrsAlarmActiveEventType", false⟩,
    ⟨9, "wrsAlarmActiveProbableCause", false⟩,
    ⟨10, "wrsAlarmActiveProposedRepairAction", true⟩,
    ⟨11, "wrsAlarmActiveServiceAffecting", false⟩,
    ⟨12, "wrsAlarmActiveSuppressionAllowed", false⟩]

/-- A notification: its number under `wrsTrapPrefix`, and its columns. -/
structure Notification where
  number : ℕ
  columns : List Column

/-- The notification of an operation type that is neither an event nor a warm start. -/
def notification (optType : String) : Notification :=
  if optType = alarmCritical then ⟨1, alarmColumns⟩
  else if optType = alarmMajor then ⟨2, alarmColumns⟩
  else if optType = alarmMinor then ⟨3, alarmColumns⟩
  else if optType = alarmWarning then ⟨4, alarmColumns⟩
  else if optType = alarmClear then
    ⟨9, alarmColumns.filter fun c => c.number ∈ [2, 3, 4, 5, 7]⟩
  else if optType = alarmHierarchicalClear then
    ⟨99, alarmColumns.filter fun c => c.number ∈ [2, 4, 5, 7]⟩
  else ⟨5, alarmColumns⟩

def wrsAlarmObjects : Oid := [1, 3, 6, 1, 4, 1, 731, 1, 1, 1, 1]

def Notification.oid (n : Notification) : Oid := wrsAlarmObjects ++ [0, n.number]

/-- The instance of a column, in the only row a trap is about. -/
def Column.oid (c : Column) : Oid := wrsAlarmObjects ++ [1, 1, c.number, 0]

/-- The value of a column; a text is not null. -/
def Column.value (jc : JsonC) (c : Column) (value : Json) : AsnValue :=
  if c.isText then .octetStr ((jc.getString value).getD "") else .integer (jc.getInt value)

def Column.varbind (jc : JsonC) (alarm : List (String × Json)) (c : Column) : Option Varbind :=
  (alarm.lookup c.name).map fun value => ⟨c.oid, c.value jc value⟩

/-- The trap that carries an alarm: the notification's identifier, then the columns it has and
the alarm gives a value. -/
def trapVarbinds (jc : JsonC) (n : Notification) (alarm : List (String × Json)) : List Varbind :=
  ⟨snmptrapOid, .objectId n.oid⟩ :: n.columns.filterMap (Column.varbind jc alarm)

/-! ## The senders and the columns -/

/-- The block of a column; the one of the cause looks its key up again. -/
def Column.block (c : Column) : Block :=
  ⟨c.name, c.oid,
    if c.isText then .fieldString else if c.number = 9 then .memberInt c.name else .fieldInt⟩

/-- The sender of an alarm deals with the columns of its notification. -/
theorem selectSender_eq (jc : JsonC) {optType : String} (hevent : optType ≠ alarmMsg)
    (hwarm : optType ≠ warmStart) (jobj : Json) :
    selectSender jc (some optType) jobj =
      sendTrap jc (notification optType).oid ((notification optType).columns.map Column.block)
        jobj := by
  by_cases hclear : optType = alarmClear
  · rw [hclear]
    rfl
  by_cases hhierarchical : optType = alarmHierarchicalClear
  · rw [hhierarchical]
    rfl
  by_cases hwarning : optType = alarmWarning
  · rw [hwarning]
    rfl
  by_cases hminor : optType = alarmMinor
  · rw [hminor]
    rfl
  by_cases hmajor : optType = alarmMajor
  · rw [hmajor]
    rfl
  by_cases hcritical : optType = alarmCritical
  · rw [hcritical]
    rfl
  -- any other type is a message
  rw [selectSender, if_neg hclear, if_neg hhierarchical, if_neg hevent, if_neg hwarning,
    if_neg hminor, if_neg hmajor, if_neg hcritical, if_neg hwarm, notification, if_neg hcritical,
    if_neg hmajor, if_neg hminor, if_neg hwarning, if_neg hclear, if_neg hhierarchical]
  rfl

section Documented

variable {jc : JsonC} (hdoc : jc.Documented) {alarm : List (String × Json)}

include hdoc

/-- A text that is not null, or an integer, is read as its column has it. -/
theorem value_fieldString_or_fieldInt {c : Column} {value : Json}
    (htext : c.isText = true → value ≠ .null) :
    (if c.isText then Read.fieldString else .fieldInt).value jc (.object alarm) value =
      .ok (c.value jc value) := by
  by_cases hisText : c.isText = true
  · obtain ⟨s, hs⟩ := hdoc.exists_getString (htext hisText)
    simp [hisText, Read.value, Column.value, hs]
  · simp [hisText, Read.value, Column.value]

/-- The block of a column adds the column's varbind. -/
theorem varbind_block {c : Column} (htext : c.isText = true → alarm.lookup c.name ≠ some .null) :
    c.block.varbind jc (.object alarm) = .ok (c.varbind jc alarm) := by
  apply Block.varbind_eq_ok hdoc
  intro value hvalue
  by_cases hcause : c.isText = false ∧ c.number = 9
  · -- the member looked up again is the one found
    have hmember : jc.objectGet (.object alarm) c.name = value := by
      rw [hdoc.objectGet_eq, hdoc.objectGetEx_object, show alarm.lookup c.name = _ from hvalue,
        Option.getD_some]
    simp [Column.block, hcause, Read.value, Column.value, hmember]
  · have hread : c.block.read = if c.isText then .fieldString else .fieldInt := by
      cases hisText : c.isText <;> simp_all [Column.block]
    rw [hread]
    exact value_fieldString_or_fieldInt hdoc fun hisText hnull => htext hisText (hnull ▸ hvalue)

/-- A sender that deals with the columns of a notification sends its trap. -/
theorem sendTrap_columns {n : Notification} {jobj : Json}
    (halarm : jc.objectGetEx jobj "alarm" = some (.object alarm))
    (htext : ∀ c ∈ n.columns, c.isText = true → alarm.lookup c.name ≠ some .null) :
    sendTrap jc n.oid (n.columns.map Column.block) jobj =
      .ok (snmpErrNoError, [trapVarbinds jc n alarm]) := by
  refine sendTrap_of_alarm halarm (List.forall₂_map_left_iff.mpr ?_)
  exact List.forall₂_same.mpr fun c hc => varbind_block hdoc (htext c hc)

end Documented

theorem notification_columns_sorted (optType : String) :
    (notification optType).columns.Pairwise fun c c' => c.number < c'.number := by
  unfold notification
  split_ifs <;> decide

/-- The columns of a trap ascend, so none of them occurs twice. -/
theorem trapVarbinds_sorted (jc : JsonC) (optType : String) (alarm : List (String × Json)) :
    ((trapVarbinds jc (notification optType) alarm).tail.map Varbind.name).Pairwise
      (· < ·) := by
  rw [trapVarbinds, List.tail_cons, List.pairwise_map]
  apply (notification_columns_sorted optType).filterMap
  intro c c' hlt v hv v' hv'
  obtain ⟨value, -, rfl⟩ := Option.map_eq_some_iff.mp hv
  obtain ⟨value', -, rfl⟩ := Option.map_eq_some_iff.mp hv'
  -- behind a common prefix the numbers of the columns decide
  simp [Column.oid, wrsAlarmObjects, List.cons_lt_cons_iff, hlt]

/-- The trap of an alarm but for its identifier. -/
def Sent.fields (sent : Sent) : Except Fault (ℤ × List (List Varbind)) :=
  sent.map fun sent => (sent.1, sent.2.map List.tail)

/-- What a sender puts behind the identifier does not depend on it. -/
theorem fields_sendTrap (jc : JsonC) (oid oid' : Oid) (blocks : List Block) (jobj : Json) :
    Sent.fields (sendTrap jc oid blocks jobj) = Sent.fields (sendTrap jc oid' blocks jobj) := by
  rw [sendTrap, sendTrap]
  cases jc.objectGetEx jobj "alarm" with
  | none => rfl
  | some alarmObj =>
    -- the identifier stays in front of what the blocks add
    simp only [collect_eq_map _ blocks [_]]
    cases collect (Block.varbind jc alarmObj) blocks [] <;> rfl

/-- **Alarm traps carry the alarm faithfully**: a message with an alarm whose texts are not null
sends one trap, that of the MIB's notification for the operation, its columns in ascending order;
and the senders of eleven fields differ only in the notification they name. -/
theorem alarm_trap_faithful {jc : JsonC} (hdoc : jc.Documented) {msg optType : String}
    {message alarm : List (String × Json)} {operationType : Json}
    (hparse : jc.tokenerParse msg = .object message)
    (hoperation : message.lookup "operation_type" = some operationType)
    (hstring : jc.getString operationType = some optType)
    (hevent : optType ≠ alarmMsg) (hwarm : optType ≠ warmStart)
    (halarm : message.lookup "alarm" = some (.object alarm))
    (htext : ∀ c ∈ (notification optType).columns, c.isText = true →
      alarm.lookup c.name ≠ some .null) :
    processJsonAlarm jc (some msg) =
        .ok (0, [trapVarbinds jc (notification optType) alarm]) ∧
      ((trapVarbinds jc (notification optType) alarm).tail.map Varbind.name).Pairwise (· < ·) ∧
      ∀ send ∈ [sendWrsAlarmMajorTrap jc, sendWrsAlarmMinorTrap jc, sendWrsAlarmWarningTrap jc,
        sendWrsAlarmMessageTrap jc],
        ∀ jobj, (send jobj).fields = (sendWrsAlarmCriticalTrap jc jobj).fields := by
  refine ⟨?_, trapVarbinds_sorted jc optType alarm, ?_⟩
  · -- the sender chosen sends the trap of the notification
    have hsend : selectSender jc (some optType) (.object message) =
        .ok (snmpErrNoError, [trapVarbinds jc (notification optType) alarm]) := by
      rw [selectSender_eq jc hevent hwarm]
      refine sendTrap_columns hdoc ?_ htext
      rw [hdoc.objectGetEx_object, halarm]
    simp [processJsonAlarm, hparse, hdoc.objectGetEx_object, hoperation, hstring, hsend,
      Except.map]
  · intro send hsend jobj
    simp only [List.mem_cons, List.not_mem_nil, or_false] at hsend
    rcases hsend with rfl | rfl | rfl | rfl <;> exact fields_sendTrap jc _ _ _ jobj

/-- A message that clears an alarm, whose id is a number. -/
def clearText : String :=
  "\x7b\"operation_type\": \"wrsAlarmClear\", \"alarm\": " ++
    "\x7b\"wrsAlarmActiveReasonText\": \"CPU back to normal\", " ++
    "\"wrsAlarmActiveAlarmId\": 100, \"wrsAlarmActiveAlarmSeverity\": 3\x7d\x7d"

def clearedAlarm : List (String × Json) :=
  [(alarmReasonText, .string "CPU back to normal"), (alarmId, .int 100), (alarmSeverity, .int 3)]

def clearMessage : List (String × Json) :=
  [("operation_type", .string alarmClear), ("alarm", .object clearedAlarm)]

def clearLibrary : JsonC :=
  .ofParse fun text => if text = clearText then .object clearMessage else .null

/-- The severity is not part of a clear, and the id is sent as a text. -/
theorem alarm_trap_faithful_clear :
    processJsonAlarm clearLibrary (some clearText) =
      .ok (0, [[⟨snmptrapOid, .objectId wrsAlarmClearOid⟩,
        ⟨wrsAlarmActiveAlarmIdOid, .octetStr "100"⟩,
        ⟨wrsAlarmActiveReasonTextOid, .octetStr "CPU back to normal"⟩]]) := by
  have hparse : clearLibrary.tokenerParse clearText = .object clearMessage := by
    simp [clearLibrary, JsonC.ofParse]
  have hstring : clearLibrary.getString (.string alarmClear) = some alarmClear := by decide
  have htext : ∀ c ∈ (notification alarmClear).columns, c.isText = true →
      clearedAlarm.lookup c.name ≠ some .null := by
    intro c hc _ hnull
    have hmem := mem_of_lookup_eq_some hnull
    simp [clearedAlarm] at hmem
  have halarm : clearMessage.lookup "alarm" = some (.object clearedAlarm) := rfl
  have htrap : trapVarbinds clearLibrary (notification alarmClear) clearedAlarm =
      [⟨snmptrapOid, .objectId wrsAlarmClearOid⟩, ⟨wrsAlarmActiveAlarmIdOid, .octetStr "100"⟩,
        ⟨wrsAlarmActiveReasonTextOid, .octetStr "CPU back to normal"⟩] := by
    decide
  rw [← htrap]
  exact (alarm_trap_faithful (JsonC.ofParse_documented _) hparse rfl hstring (by decide)
    (by decide) halarm htext).1

end StxSnmp.Trap
