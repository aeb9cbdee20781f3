import StxSnmp.Library.OptionalFields
import StxSnmp.Snmp.Oid
import StxSnmp.Trap.JsonC

/-!
# Sending traps

Each sender looks up the member `alarm` of the message, and adds to the trap one varbind for
each key it knows and finds there. `process_json_alarm` chooses the sender by the operation type.

## Main definitions

* `Varbind`: a variable of a trap, with its value
* `Block`: the part of a sender that deals with one key
* `sendTrap`: what the senders have in common
* `sendWrsAlarmCriticalTrap` and the others: the senders
* `processJsonAlarm`: the dispatch

## Main results

* `Block.varbind_eq_ok`: the varbind a block adds
* `sendTrap_of_alarm`, `sendTrap_cases`: what a sender sends
* `sendTrap_isOk_iff`: when a sender does not crash
-/

namespace StxSnmp.Trap

open OptionalFields

/-! ## Keys and object identifiers -/

def alarmUuid : String := "wrsAlarmActiveUuid"
def alarmId : String := "wrsAlarmActiveAlarmId"
def alarmInstanceId : String := "wrsAlarmActiveEntityInstanceId"
def alarmDateTime : String := "wrsAlarmActiveDateAndTime"
def alarmSeverity : String := "wrsAlarmActiveAlarmSeverity"
def alarmReasonText : String := "wrsAlarmActiveReasonText"
def alarmEventType : String := "wrsAlarmActiveEventType"
def alarmCause : String := "wrsAlarmActiveProbableCause"
def alarmRepairAction : String := "wrsAlarmActiveProposedRepairAction"
def alarmServiceAffecting : String := "wrsAlarmActiveServiceAffecting"
def alarmSuppression : String := "wrsAlarmActiveSuppressionAllowed"

def eventUuid : String := "wrsEventUuid"
def eventId : String := "wrsEventEventId"
def eventInstanceId : String := "wrsEventEntityInstanceId"
def eventDateTime : String := "wrsEventDateAndTime"
def eventSeverity : String := "wrsEventSeverity"
def eventReasonText : String := "wrsEventReasonText"
def eventEventType : String := "wrsEventEventType"
def eventCause : String := "wrsEventProbableCause"
def eventRepairAction : String := "wrsEventProposedRepairAction"
def eventServiceAffecting : String := "wrsEventServiceAffecting"
def eventSuppression : String := "wrsEventSuppressionAllowed"

def alarmCritical : String := "wrsAlarmCritical"
def alarmMajor : String := "wrsAlarmMajor"
def alarmMinor : String := "wrsAlarmMinor"
def alarmWarning : String := "wrsAlarmWarning"
def alarmMsg : String := "wrsAlarmMessage"
def alarmClear : String := "wrsAlarmClear"
def alarmHierarchicalClear : String := "wrsAlarmHierarchicalClear"
def warmStart : String := "warmStart"

/-- `snmpTrapOID.0`. -/
def snmptrapOid : Oid := [1, 3, 6, 1, 6, 3, 1, 1, 4, 1, 0]

def wrsAlarmCriticalOid : Oid := [1, 3, 6, 1, 4, 1, 731, 1, 1, 1, 1, 0, 1]
def wrsAlarmMajorOid : Oid := [1, 3, 6, 1, 4, 1, 731, 1, 1, 1, 1, 0, 2]
def wrsAlarmMinorOid : Oid := [1, 3, 6, 1, 4, 1, 731, 1, 1, 1, 1, 0, 3]
def wrsAlarmWarningOid : Oid := [1, 3, 6, 1, 4, 1, 731, 1, 1, 1, 1, 0, 4]
def wrsAlarmMessageOid : Oid := [1, 3, 6, 1, 4, 1, 731, 1, 1, 1, 1, 0, 5]
def wrsAlarmClearOid : Oid := [1, 3, 6, 1, 4, 1, 731, 1, 1, 1, 1, 0, 9]
def wrsAlarmHierarchicalClearOid : Oid := [1, 3, 6, 1, 4, 1, 731, 1, 1, 1, 1, 0, 99]
def wrsWarmStartOid : Oid := [1, 3, 6, 1, 6, 3, 1, 1, 5, 2]

def wrsAlarmActiveUuidOid : Oid := [1, 3, 6, 1, 4, 1, 731, 1, 1, 1, 1, 1, 1, 2, 0]
def wrsAlarmActiveAlarmIdOid : Oid := [1, 3, 6, 1, 4, 1, 731, 1, 1, 1, 1, 1, 1, 3, 0]
def wrsAlarmActiveEntityInstanceIdOid : Oid :=
  [1, 3, 6, 1, 4, 1, 731, 1, 1, 1, 1, 1, 1, 4, 0]
def wrsAlarmActiveDateAndTimeOid : Oid := [1, 3, 6, 1, 4, 1, 731, 1, 1, 1, 1, 1, 1, 5, 0]
def wrsAlarmActiveAlarmSeverityOid : Oid := [1, 3, 6, 1, 4, 1, 731, 1, 1, 1, 1, 1, 1, 6, 0]
def wrsAlarmActiveReasonTextOid : Oid := [1, 3, 6, 1, 4, 1, 731, 1, 1, 1, 1, 1, 1, 7, 0]
def wrsAlarmActiveEventTypeOid : Oid := [1, 3, 6, 1, 4, 1, 731, 1, 1, 1, 1, 1, 1, 8, 0]
def wrsAlarmActiveProbableCauseOid : Oid := [1, 3, 6, 1, 4, 1, 731, 1, 1, 1, 1, 1, 1, 9, 0]
def wrsAlarmActiveProposedRepairActionOid : Oid :=
  [1, 3, 6, 1, 4, 1, 731, 1, 1, 1, 1, 1, 1, 10, 0]
def wrsAlarmActiveServiceAffectingOid : Oid :=
  [1, 3, 6, 1, 4, 1, 731, 1, 1, 1, 1, 1, 1, 11, 0]
def wrsAlarmActiveSuppressionAllowedOid : Oid :=
  [1, 3, 6, 1, 4, 1, 731, 1, 1, 1, 1, 1, 1, 12, 0]

/-! ## Varbinds -/

/-- A value with its ASN.1 type. -/
inductive AsnValue where
  | objectId (oid : Oid)
  | octetStr (s : String)
  | integer (n : ℤ)
  deriving DecidableEq, Repr

structure Varbind where
  name : Oid
  value : AsnValue
  deriving DecidableEq, Repr

/-- A call of a C string function with a null pointer, which crashes the program. -/
inductive Fault where
  | strcmp
  | strlen
  deriving DecidableEq, Repr

/-- What a sender returns, and the lists it gave to `send_v2trap`. -/
abbrev Sent := Except Fault (ℤ × List (List Varbind))

def snmpErrNoError : ℤ := 0
def snmpErrBadValue : ℤ := 3

/-! ## Blocks -/

/-- How a block reads its value: the string or the integer of the member found, the integer of
the member under a key, or the integer of the alarm object itself. -/
inductive Read where
  | fieldString
  | fieldInt
  | memberInt (key : String)
  | alarmInt
  deriving DecidableEq, Repr

/-- The block of a sender that tests one key and adds one varbind. -/
structure Block where
  key : String
  oid : Oid
  read : Read
  deriving DecidableEq, Repr

section Blocks

variable (jc : JsonC) (alarmObj : Json)

/-- The value read; the length of a string is taken without a test. -/
def Read.value (alarmObjField : Json) : Read → Except Fault AsnValue
  | .fieldString =>
    match jc.getString alarmObjField with
    | none => .error .strlen
    | some s => .ok (.octetStr s)
  | .fieldInt => .ok (.integer (jc.getInt alarmObjField))
  | .memberInt key => .ok (.integer (jc.getInt (jc.objectGet alarmObj key)))
  | .alarmInt => .ok (.integer (jc.getInt alarmObj))

/-- The varbind a block adds, if its key is found. -/
def Block.varbind (b : Block) : Except Fault (Option Varbind) :=
  match jc.objectGetEx alarmObj b.key with
  -- an absent key adds nothing
  | none => .ok none
  | some alarmObjField => (b.read.value jc alarmObj alarmObjField).map fun v => some ⟨b.oid, v⟩

/-- What the senders do: a trap with its identifier and the varbinds of the blocks. -/
def sendTrap (oid : Oid) (blocks : List Block) (jobj : Json) : Sent :=
  match jc.objectGetEx jobj "alarm" with
  -- the key is not found
  | none => .ok (snmpErrBadValue, [])
  | some alarmObj =>
    (collect (Block.varbind jc alarmObj) blocks [⟨snmptrapOid, .objectId oid⟩]).map
      fun varList => (snmpErrNoError, [varList])

end Blocks

def alarmUuidBlock : Block := ⟨alarmUuid, wrsAlarmActiveUuidOid, .fieldString⟩
def alarmIdBlock : Block := ⟨alarmId, wrsAlarmActiveAlarmIdOid, .fieldString⟩
def alarmInstanceIdBlock : Block :=
  ⟨alarmInstanceId, wrsAlarmActiveEntityInstanceIdOid, .fieldString⟩
def alarmDateTimeBlock : Block := ⟨alarmDateTime, wrsAlarmActiveDateAndTimeOid, .fieldString⟩
def alarmSeverityBlock : Block := ⟨alarmSeverity, wrsAlarmActiveAlarmSeverityOid, .fieldInt⟩
def alarmReasonTextBlock : Block := ⟨alarmReasonText, wrsAlarmActiveReasonTextOid, .fieldString⟩
def alarmEventTypeBlock : Block := ⟨alarmEventType, wrsAlarmActiveEventTypeOid, .fieldInt⟩
def alarmCauseBlock : Block :=
  ⟨alarmCause, wrsAlarmActiveProbableCauseOid, .memberInt alarmCause⟩
def alarmRepairActionBlock : Block :=
  ⟨alarmRepairAction, wrsAlarmActiveProposedRepairActionOid, .fieldString⟩
def alarmServiceAffectingBlock : Block :=
  ⟨alarmServiceAffecting, wrsAlarmActiveServiceAffectingOid, .fieldInt⟩
def alarmSuppressionBlock : Block :=
  ⟨alarmSuppression, wrsAlarmActiveSuppressionAllowedOid, .fieldInt⟩

/-! ## The senders -/

section Senders

variable (jc : JsonC)

def sendWrsAlarmCriticalTrap : Json → Sent :=
  sendTrap jc wrsAlarmCriticalOid
    [alarmUuidBlock, alarmIdBlock, alarmInstanceIdBlock, alarmDateTimeBlock, alarmSeverityBlock,
      alarmReasonTextBlock, alarmEventTypeBlock, alarmCauseBlock, alarmRepairActionBlock,
      alarmServiceAffectingBlock, alarmSuppressionBlock]

def sendWrsAlarmMajorTrap : Json → Sent :=
  sendTrap jc wrsAlarmMajorOid
    [alarmUuidBlock, alarmIdBlock, alarmInstanceIdBlock, alarmDateTimeBlock, alarmSeverityBlock,
      alarmReasonTextBlock, alarmEventTypeBlock, alarmCauseBlock, alarmRepairActionBlock,
      alarmServiceAffectingBlock, alarmSuppressionBlock]

def sendWrsAlarmMinorTrap : Json → Sent :=
  sendTrap jc wrsAlarmMinorOid
    [alarmUuidBlock, alarmIdBlock, alarmInstanceIdBlock, alarmDateTimeBlock, alarmSeverityBlock,
      alarmReasonTextBlock, alarmEventTypeBlock, alarmCauseBlock, alarmRepairActionBlock,
      alarmServiceAffectingBlock, alarmSuppressionBlock]

def sendWrsAlarmWarningTrap : Json → Sent :=
  sendTrap jc wrsAlarmWarningOid
    [alarmUuidBlock, alarmIdBlock, alarmInstanceIdBlock, alarmDateTimeBlock, alarmSeverityBlock,
      alarmReasonTextBlock, alarmEventTypeBlock, alarmCauseBlock, alarmRepairActionBlock,
      alarmServiceAffectingBlock, alarmSuppressionBlock]

/-- The block of the cause reads the alarm's key, and the one of the service the whole object. -/
def eventBlocks : List Block :=
  [⟨eventUuid, wrsAlarmActiveUuidOid, .fieldString⟩,
    ⟨eventId, wrsAlarmActiveAlarmIdOid, .fieldString⟩,
    ⟨eventInstanceId, wrsAlarmActiveEntityInstanceIdOid, .fieldString⟩,
    ⟨eventDateTime, wrsAlarmActiveDateAndTimeOid, .fieldString⟩,
    ⟨eventSeverity, wrsAlarmActiveAlarmSeverityOid, .fieldInt⟩,
    ⟨eventReasonText, wrsAlarmActiveReasonTextOid, .fieldString⟩,
    ⟨eventEventType, wrsAlarmActiveEventTypeOid, .fieldInt⟩,
    ⟨eventCause, wrsAlarmActiveProbableCauseOid, .memberInt alarmCause⟩,
    ⟨eventRepairAction, wrsAlarmActiveProposedRepairActionOid, .fieldString⟩,
    ⟨eventServiceAffecting, wrsAlarmActiveServiceAffectingOid, .alarmInt⟩,
    ⟨eventSuppression, wrsAlarmActiveSuppressionAllowedOid, .fieldInt⟩]

def sendWrsEventMessageTrap : Json → Sent := sendTrap jc wrsAlarmMessageOid eventBlocks

def sendWrsAlarmMessageTrap : Json → Sent :=
  sendTrap jc wrsAlarmMessageOid
    [alarmUuidBlock, alarmIdBlock, alarmInstanceIdBlock, alarmDateTimeBlock, alarmSeverityBlock,
      alarmReasonTextBlock, alarmEventTypeBlock, alarmCauseBlock, alarmRepairActionBlock,
      alarmServiceAffectingBlock, alarmSuppressionBlock]

def sendWrsAlarmClearTrap : Json → Sent :=
  sendTrap jc wrsAlarmClearOid
    [alarmUuidBlock, alarmIdBlock, alarmInstanceIdBlock, alarmDateTimeBlock, alarmReasonTextBlock]

def sendWrsAlarmHierarchicalClearTrap : Json → Sent :=
  sendTrap jc wrsAlarmHierarchicalClearOid
    [alarmUuidBlock, alarmInstanceIdBlock, alarmDateTimeBlock, alarmReasonTextBlock]

def sendWrsWarmStartTrap : Sent :=
  .ok (snmpErrNoError, [[⟨snmptrapOid, .objectId wrsWarmStartOid⟩]])

/-! ## The dispatch -/

/-- The chain of comparisons; the first of them fails on a null pointer. -/
def selectSender (optType : Option String) (parsedJson : Json) : Sent :=
  match optType with
  -- no operation type, or one that is null
  | none => .error .strcmp
  | some optType =>
    if optType = alarmClear then sendWrsAlarmClearTrap jc parsedJson
    else if optType = alarmHierarchicalClear then sendWrsAlarmHierarchicalClearTrap jc parsedJson
    else if optType = alarmMsg then sendWrsEventMessageTrap jc parsedJson
    else if optType = alarmWarning then sendWrsAlarmWarningTrap jc parsedJson
    else if optType = alarmMinor then sendWrsAlarmMinorTrap jc parsedJson
    else if optType = alarmMajor then sendWrsAlarmMajorTrap jc parsedJson
    else if optType = alarmCritical then sendWrsAlarmCriticalTrap jc parsedJson
    else if optType = warmStart then sendWrsWarmStartTrap
    -- any type not known is sent as a message
    else sendWrsAlarmMessageTrap jc parsedJson

/-- `process_json_alarm`; what the sender returns is dropped. -/
def processJsonAlarm (msg : Option String) : Sent :=
  match msg with
  -- only the message itself is tested for null
  | none => .ok (1, [])
  | some msg =>
    let parsedJson := jc.tokenerParse msg
    let operationType := (jc.objectGetEx parsedJson "operation_type").getD .null
    (selectSender jc (jc.getString operationType) parsedJson).map fun sent => (0, sent.2)

end Senders

/-! ## What is sent -/

section Sent

variable {jc : JsonC} {jobj alarmObj : Json} {oid : Oid} {blocks : List Block}

/-- A read fails exactly when it takes the length of the string of a null. -/
theorem Read.value_isOk_iff (hdoc : jc.Documented) {alarmObjField : Json} (read : Read) :
    (∃ v, read.value jc alarmObj alarmObjField = .ok v) ↔
      (read = .fieldString → alarmObjField ≠ .null) := by
  cases read with
  | fieldString =>
    rw [ne_eq, ← hdoc.getString_eq_none_iff]
    cases hstring : jc.getString alarmObjField <;> simp [Read.value, hstring]
  | fieldInt => simp [Read.value]
  | memberInt key => simp [Read.value]
  | alarmInt => simp [Read.value]

theorem Block.varbind_isOk_iff (hdoc : jc.Documented) (b : Block) :
    (∃ item, b.varbind jc alarmObj = .ok item) ↔
      (b.read = .fieldString → jc.objectGetEx alarmObj b.key ≠ some .null) := by
  rw [Block.varbind]
  cases jc.objectGetEx alarmObj b.key with
  | none => simp
  | some field =>
    simp only [exists_map_eq_ok_iff, Read.value_isOk_iff hdoc]
    simp

/-- A block adds the value of its key, if the alarm has it and its read succeeds. -/
theorem Block.varbind_eq_ok (hdoc : jc.Documented) {alarm : List (String × Json)} {b : Block}
    {v : Json → AsnValue}
    (hread : ∀ value, alarm.lookup b.key = some value →
      b.read.value jc (.object alarm) value = .ok (v value)) :
    b.varbind jc (.object alarm) =
      .ok ((alarm.lookup b.key).map fun value => ⟨b.oid, v value⟩) := by
  rw [Block.varbind, hdoc.objectGetEx_object]
  cases hvalue : alarm.lookup b.key with
  | none => rfl
  | some value =>
    show (b.read.value jc (.object alarm) value).map _ = _
    rw [hread value hvalue]
    rfl

/-- A sender whose blocks add the varbinds of a table sends them, after the trap's identifier. -/
theorem sendTrap_of_alarm {γ : Type*} {table : List γ} {g : γ → Option Varbind}
    (halarm : jc.objectGetEx jobj "alarm" = some alarmObj)
    (h : List.Forall₂ (fun b c => Block.varbind jc alarmObj b = .ok (g c)) blocks table) :
    sendTrap jc oid blocks jobj =
      .ok (snmpErrNoError, [⟨snmptrapOid, .objectId oid⟩ :: table.filterMap g]) := by
  rw [sendTrap, halarm]
  show (collect (Block.varbind jc alarmObj) blocks [⟨snmptrapOid, .objectId oid⟩]).map _ = _
  rw [collect_eq_ok h]
  rfl

/-- A sender that does not crash sends nothing without an alarm, and otherwise one trap: its
identifier, and what its blocks add. -/
theorem sendTrap_cases {error : ℤ} {traps : List (List Varbind)}
    (h : sendTrap jc oid blocks jobj = .ok (error, traps)) :
    (jc.objectGetEx jobj "alarm" = none ∧ traps = []) ∨
      ∃ alarmObj added, jc.objectGetEx jobj "alarm" = some alarmObj ∧
        collect (Block.varbind jc alarmObj) blocks [] = .ok added ∧
        traps = [⟨snmptrapOid, .objectId oid⟩ :: added] := by
  rw [sendTrap] at h
  cases halarm : jc.objectGetEx jobj "alarm" with
  | none =>
    rw [halarm] at h
    cases h
    exact Or.inl ⟨rfl, rfl⟩
  | some alarmObj =>
    rw [halarm] at h
    -- the identifier stays in front of what the blocks add
    simp only [collect_eq_map _ blocks [_]] at h
    cases hcollect : collect (Block.varbind jc alarmObj) blocks [] with
    | error fault =>
      rw [hcollect] at h
      cases h
    | ok added =>
      rw [hcollect] at h
      cases h
      exact Or.inr ⟨alarmObj, added, rfl, hcollect, rfl⟩

/-- A sender does not crash exactly when no text it reads is null. -/
theorem sendTrap_isOk_iff (hdoc : jc.Documented) :
    (∃ sent, sendTrap jc oid blocks jobj = .ok sent) ↔
      ∀ alarmObj, jc.objectGetEx jobj "alarm" = some alarmObj →
        ∀ b ∈ blocks, b.read = .fieldString → jc.objectGetEx alarmObj b.key ≠ some .null := by
  rw [sendTrap]
  cases halarm : jc.objectGetEx jobj "alarm" with
  | none => simp
  | some alarmObj =>
    simp only [exists_map_eq_ok_iff, collect_isOk_iff, Block.varbind_isOk_iff hdoc]
    simp

end Sent

end StxSnmp.Trap
