import StxSnmp.Trap.Notification

/-!
# Events against alarms

The sender of events encodes the same eleven fields as the sender of alarm messages, from keys
of their own. It agrees with it but for two blocks: the one of the cause reads the alarm's key,
and the one of the service affected reads the whole object.

## Main definitions

* `fieldKeys`: the keys of each field in an event and in an alarm
* `asAlarm`: an event under the keys of an alarm

## Main results

* `lookup_asAlarm`: an alarm key has the value of the event key of its field
* `eventMessage_eq_iff`: the two senders send the same exactly when these two blocks happen to
  read the right integers
-/

namespace StxSnmp.Trap

open OptionalFields

/-- The key of each field in an event, and in an alarm. -/
def fieldKeys : List (String × String) :=
  [(eventUuid, alarmUuid), (eventId, alarmId), (eventInstanceId, alarmInstanceId),
    (eventDateTime, alarmDateTime), (eventSeverity, alarmSeverity),
    (eventReasonText, alarmReasonText), (eventEventType, alarmEventType),
    (eventCause, alarmCause), (eventRepairAction, alarmRepairAction),
    (eventServiceAffecting, alarmServiceAffecting), (eventSuppression, alarmSuppression)]

/-- The event keys the sender reads as texts. -/
def eventTextKeys : List String :=
  [eventUuid, eventId, eventInstanceId, eventDateTime, eventReasonText, eventRepairAction]

/-- The key of an alarm for a key of an event: an event key becomes the alarm key of its field,
an alarm key is dropped, any other key stays. -/
def toAlarmKey (key : String) : Option String :=
  if key ∈ fieldKeys.map Prod.snd then none else some ((fieldKeys.lookup key).getD key)

/-- An event under the keys of an alarm. -/
def asAlarm (event : List (String × Json)) : List (String × Json) := rename toAlarmKey event

/-- An alarm key comes from the event key of its field only. -/
theorem toAlarmKey_eq_some_iff {eventKey alarmKey : String}
    (hfield : (eventKey, alarmKey) ∈ fieldKeys) (key : String) :
    toAlarmKey key = some alarmKey ↔ key = eventKey := by
  have hmem : alarmKey ∈ fieldKeys.map Prod.snd := List.mem_map_of_mem hfield
  constructor
  · intro h
    rw [toAlarmKey] at h
    split at h
    · cases h
    · next hkey =>
      rw [Option.some.injEq] at h
      cases hlookup : fieldKeys.lookup key with
      | none =>
        -- a key kept as it is is no alarm key
        rw [hlookup, Option.getD_none] at h
        exact absurd (h ▸ hmem) hkey
      | some alarmKey' =>
        rw [hlookup, Option.getD_some] at h
        -- no two fields share an alarm key
        have hinj : ∀ p ∈ fieldKeys, ∀ q ∈ fieldKeys, p.2 = q.2 → p = q := by decide
        exact congrArg Prod.fst (hinj _ (mem_of_lookup_eq_some hlookup) _ hfield h)
  · rintro rfl
    have hrenamed : ∀ p ∈ fieldKeys, toAlarmKey p.1 = some p.2 := by decide
    exact hrenamed _ hfield

/-- An alarm key has the value of the event key of its field. -/
theorem lookup_asAlarm {eventKey alarmKey : String} (hfield : (eventKey, alarmKey) ∈ fieldKeys)
    (event : List (String × Json)) : (asAlarm event).lookup alarmKey = event.lookup eventKey :=
  lookup_rename (toAlarmKey_eq_some_iff hfield) event

/-! ## The blocks of an event -/

/-- The keys of the fields with their columns. -/
def eventTable : List ((String × String) × Column) := fieldKeys.zip alarmColumns

/-- The block of a field in the sender of events. -/
def eventBlock (field : (String × String) × Column) : Block :=
  ⟨field.1.1, field.2.oid,
    if field.2.isText then .fieldString
    else if field.2.number = 9 then .memberInt alarmCause
    else if field.2.number = 11 then .alarmInt
    else .fieldInt⟩

theorem eventBlocks_eq : eventBlocks = eventTable.map eventBlock := rfl

/-- The value the sender of events gives a column. -/
def eventValue (jc : JsonC) (event : List (String × Json)) (c : Column) (value : Json) :
    AsnValue :=
  if c.number = 9 then .integer (jc.getInt ((event.lookup alarmCause).getD .null))
  else if c.number = 11 then .integer 0
  else c.value jc value

def eventVarbind (jc : JsonC) (event : List (String × Json)) (field : (String × String) × Column) :
    Option Varbind :=
  (event.lookup field.1.1).map fun value => ⟨field.2.oid, eventValue jc event field.2 value⟩

/-- A column of the event as an alarm has the value of the event key of its field. -/
theorem lookup_name_asAlarm {event : List (String × Json)} {field : (String × String) × Column}
    (hfield : field ∈ eventTable) :
    (asAlarm event).lookup field.2.name = event.lookup field.1.1 := by
  have hname : ∀ field ∈ eventTable, (field.1.1, field.2.name) ∈ fieldKeys := by decide
  exact lookup_asAlarm (hname field hfield) event

section Documented

variable {jc : JsonC} (hdoc : jc.Documented) {event : List (String × Json)}

include hdoc

/-- The block of a field adds the value the sender of events gives it. -/
theorem varbind_eventBlock {field : (String × String) × Column}
    (htext : field.2.isText = true → event.lookup field.1.1 ≠ some .null)
    (hkind : field.2.isText = true → field.2.number ≠ 9 ∧ field.2.number ≠ 11) :
    (eventBlock field).varbind jc (.object event) = .ok (eventVarbind jc event field) := by
  apply Block.varbind_eq_ok hdoc
  intro value hvalue
  by_cases hcause : field.2.number = 9
  · -- the alarm's key is read, found or not
    have hint : field.2.isText = false := by
      rw [Bool.eq_false_iff]
      intro hisText
      exact (hkind hisText).1 hcause
    simp [eventBlock, hcause, hint, Read.value, eventValue, hdoc.objectGet_eq,
      hdoc.objectGetEx_object]
  by_cases hservice : field.2.number = 11
  · -- the integer of an object is 0
    have hint : field.2.isText = false := by
      rw [Bool.eq_false_iff]
      intro hisText
      exact (hkind hisText).2 hservice
    simp [eventBlock, hservice, hint, Read.value, eventValue, hdoc.getInt_object]
  · have hread : (eventBlock field).read = if field.2.isText then .fieldString else .fieldInt := by
      simp [eventBlock, hcause, hservice]
    rw [hread, eventValue, if_neg hcause, if_neg hservice]
    exact value_fieldString_or_fieldInt hdoc fun hisText hnull => htext hisText (hnull ▸ hvalue)

/-- What the sender of events sends. -/
theorem sendWrsEventMessageTrap_eq {jobj : Json}
    (hevent : jc.objectGetEx jobj "alarm" = some (.object event))
    (htext : ∀ key ∈ eventTextKeys, event.lookup key ≠ some .null) :
    sendWrsEventMessageTrap jc jobj = .ok (snmpErrNoError,
      [⟨snmptrapOid, .objectId wrsAlarmMessageOid⟩ ::
        eventTable.filterMap (eventVarbind jc event)]) := by
  have hkeys : ∀ field ∈ eventTable, field.2.isText = true →
      field.1.1 ∈ eventTextKeys ∧ field.2.number ≠ 9 ∧ field.2.number ≠ 11 := by decide
  rw [sendWrsEventMessageTrap, eventBlocks_eq]
  refine sendTrap_of_alarm hevent (List.forall₂_map_left_iff.mpr ?_)
  refine List.forall₂_same.mpr fun field hfield => varbind_eventBlock hdoc ?_ ?_
  · intro hisText
    exact htext _ (hkeys field hfield hisText).1
  · intro hisText
    exact (hkeys field hfield hisText).2

/-- What the sender of alarm messages sends for the event as an alarm. -/
theorem sendWrsAlarmMessageTrap_asAlarm {jobj : Json}
    (halarm : jc.objectGetEx jobj "alarm" = some (.object (asAlarm event)))
    (htext : ∀ key ∈ eventTextKeys, event.lookup key ≠ some .null) :
    sendWrsAlarmMessageTrap jc jobj = .ok (snmpErrNoError,
      [⟨snmptrapOid, .objectId wrsAlarmMessageOid⟩ :: eventTable.filterMap fun field =>
        (event.lookup field.1.1).map fun value => ⟨field.2.oid, field.2.value jc value⟩]) := by
  have hkeys : ∀ field ∈ eventTable, field.2.isText = true → field.1.1 ∈ eventTextKeys := by
    decide
  have hcolumns : alarmColumns = eventTable.map Prod.snd := rfl
  -- a text of the alarm is a text of the event
  have hnull : ∀ c ∈ alarmColumns, c.isText = true →
      (asAlarm event).lookup c.name ≠ some .null := by
    intro c hc hisText
    rw [hcolumns] at hc
    obtain ⟨field, hfield, rfl⟩ := List.mem_map.mp hc
    rw [lookup_name_asAlarm hfield]
    exact htext _ (hkeys field hfield hisText)
  refine (sendTrap_columns hdoc (n := ⟨5, alarmColumns⟩) halarm hnull).trans ?_
  rw [trapVarbinds, hcolumns, List.filterMap_map]
  -- each column finds its value under the event key of its field
  have hvarbind : eventTable.filterMap (Column.varbind jc (asAlarm event) ∘ Prod.snd) =
      eventTable.filterMap fun field =>
        (event.lookup field.1.1).map fun value => ⟨field.2.oid, field.2.value jc value⟩ := by
    apply List.filterMap_congr
    intro field hfield
    rw [Function.comp_apply, Column.varbind, lookup_name_asAlarm hfield]
  rw [hvarbind]
  rfl

/-- The two senders send the same exactly when they give each field found the same value. -/
theorem eventMessage_eq_iff_values {jobj jobj' : Json}
    (hevent : jc.objectGetEx jobj "alarm" = some (.object event))
    (halarm : jc.objectGetEx jobj' "alarm" = some (.object (asAlarm event)))
    (htext : ∀ key ∈ eventTextKeys, event.lookup key ≠ some .null) :
    sendWrsEventMessageTrap jc jobj = sendWrsAlarmMessageTrap jc jobj' ↔
      ∀ field ∈ eventTable, ∀ value, event.lookup field.1.1 = some value →
        eventValue jc event field.2 value = field.2.value jc value := by
  rw [sendWrsEventMessageTrap_eq hdoc hevent htext,
    sendWrsAlarmMessageTrap_asAlarm hdoc halarm htext]
  simp only [Except.ok.injEq, Prod.mk.injEq, List.cons.injEq, true_and, and_true]
  -- both add a varbind for the same fields
  rw [filterMap_eq_filterMap_iff fun field _ => by simp [eventVarbind]]
  refine forall₂_congr fun field _ => ?_
  rw [eventVarbind]
  cases event.lookup field.1.1 <;> simp

/-- **When an event is sent as the alarm it is**: the two senders send the same exactly when the
cause, if the event has one, is the integer under the alarm's key, and the service affected, if
the event has it, is 0. -/
theorem eventMessage_eq_iff {jobj jobj' : Json}
    (hevent : jc.objectGetEx jobj "alarm" = some (.object event))
    (halarm : jc.objectGetEx jobj' "alarm" = some (.object (asAlarm event)))
    (htext : ∀ key ∈ eventTextKeys, event.lookup key ≠ some .null) :
    sendWrsEventMessageTrap jc jobj = sendWrsAlarmMessageTrap jc jobj' ↔
      (∀ value, event.lookup eventCause = some value →
        jc.getInt value = jc.getInt ((event.lookup alarmCause).getD .null)) ∧
      (∀ value, event.lookup eventServiceAffecting = some value → jc.getInt value = 0) := by
  rw [eventMessage_eq_iff_values hdoc hevent halarm htext]
  constructor
  · intro h
    refine ⟨?_, ?_⟩
    · intro value hvalue
      have hvalues := h ((eventCause, alarmCause), ⟨9, "wrsAlarmActiveProbableCause", false⟩)
        (by decide) value hvalue
      simpa [eventValue, Column.value] using hvalues.symm
    · intro value hvalue
      have hvalues := h ((eventServiceAffecting, alarmServiceAffecting),
        ⟨11, "wrsAlarmActiveServiceAffecting", false⟩) (by decide) value hvalue
      simpa [eventValue, Column.value] using hvalues.symm
  · rintro ⟨hcause, hservice⟩ field hfield value hvalue
    -- the two columns of which the sender reads something else
    have hfields : ∀ field ∈ eventTable,
        (field.2.number = 9 → field.1.1 = eventCause ∧ field.2.isText = false) ∧
        (field.2.number = 11 → field.1.1 = eventServiceAffecting ∧ field.2.isText = false) := by
      decide
    obtain ⟨h9, h11⟩ := hfields field hfield
    by_cases hn9 : field.2.number = 9
    · obtain ⟨hkey, hint⟩ := h9 hn9
      simp [eventValue, Column.value, hn9, hint, hcause value (hkey ▸ hvalue)]
    by_cases hn11 : field.2.number = 11
    · obtain ⟨hkey, hint⟩ := h11 hn11
      simp [eventValue, Column.value, hn11, hint, hservice value (hkey ▸ hvalue)]
    · -- every other block reads the key it tests
      simp [eventValue, hn9, hn11]

end Documented

def messageWith (alarm : List (String × Json)) : Json := .object [("alarm", .object alarm)]

/-- An event without a cause whose service is not affected is sent as the alarm it is. -/
theorem eventMessage_eq_unaffected :
    let event := [(eventId, .string "401.005"), (eventServiceAffecting, .boolean false)]
    let jc := JsonC.ofParse fun _ => messageWith event
    sendWrsEventMessageTrap jc (messageWith event) =
      sendWrsAlarmMessageTrap jc (messageWith (asAlarm event)) := by
  intro event jc
  have htext : ∀ key ∈ eventTextKeys, event.lookup key ≠ some .null := by
    intro key _ hnull
    have hmem := mem_of_lookup_eq_some hnull
    simp [event] at hmem
  refine (eventMessage_eq_iff (JsonC.ofParse_documented _) rfl rfl htext).mpr ⟨?_, ?_⟩
  · intro value hvalue
    have hmem := mem_of_lookup_eq_some hvalue
    simp [event, eventCause, eventId, eventServiceAffecting] at hmem
  · intro value hvalue
    have hmem := mem_of_lookup_eq_some hvalue
    simp [event, eventId, eventServiceAffecting] at hmem
    rw [hmem]
    rfl

/-- An event with a cause whose service is affected is sent with zeros in their place. -/
theorem event_sent_with_zeros :
    let event := [(eventCause, .int 5), (eventServiceAffecting, .boolean true)]
    let jc := JsonC.ofParse fun _ => messageWith event
    sendWrsEventMessageTrap jc (messageWith event) =
        .ok (0, [[⟨snmptrapOid, .objectId wrsAlarmMessageOid⟩,
          ⟨wrsAlarmActiveProbableCauseOid, .integer 0⟩,
          ⟨wrsAlarmActiveServiceAffectingOid, .integer 0⟩]]) ∧
      sendWrsAlarmMessageTrap jc (messageWith (asAlarm event)) =
        .ok (0, [[⟨snmptrapOid, .objectId wrsAlarmMessageOid⟩,
          ⟨wrsAlarmActiveProbableCauseOid, .integer 5⟩,
          ⟨wrsAlarmActiveServiceAffectingOid, .integer 1⟩]]) :=
  ⟨rfl, rfl⟩

end StxSnmp.Trap
