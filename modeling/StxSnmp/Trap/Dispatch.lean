import StxSnmp.Trap.EventMessage

/-!
# Messages that crash the dispatcher, and its result

`process_json_alarm` compares the operation type with each name it knows, though it may have
none, and the senders take the length of each text they find, though it may be null. When it
returns, its result says nothing about what the sender did.

## Main definitions

* `textKeys`: the keys the sender of an operation reads as texts

## Main results

* `selectSender_isOk_iff`: when the chosen sender does not crash
* `processJsonAlarm_returns_iff`: when a message does not crash the dispatcher
* `processJsonAlarm_alarm_iff`: when the alarm of a message with an operation does not crash it
* `processJsonAlarm_result_iff`: when the result tells whether a trap was sent
-/

namespace StxSnmp.Trap

open OptionalFields

/-- The keys of the alarm that are read as texts for an operation type. -/
def textKeys (optType : String) : List String :=
  if optType = warmStart then []
  else if optType = alarmMsg then eventTextKeys
  else ((notification optType).columns.filter Column.isText).map Column.name

/-- The keys that blocks read as texts. -/
def Block.textKeys (blocks : List Block) : List String :=
  (blocks.filter fun b => b.read = .fieldString).map Block.key

theorem textKeys_map_block (columns : List Column) :
    Block.textKeys (columns.map Column.block) = (columns.filter Column.isText).map Column.name := by
  -- a block reads a text exactly for a column that is one
  have hread (c : Column) : decide (c.block.read = .fieldString) = c.isText := by
    by_cases htext : c.isText = true
    · simp [Column.block, htext]
    · by_cases hcause : c.number = 9 <;> simp [Column.block, htext, hcause]
  rw [Block.textKeys, List.filter_map, List.map_map]
  simp only [Function.comp_def, hread]
  rfl

section Documented

variable {jc : JsonC} (hdoc : jc.Documented) {jobj : Json}

include hdoc

/-- A sender crashes only for a text of the alarm that is null. -/
theorem sendTrap_isOk_iff_lookup {oid : Oid} {blocks : List Block} :
    (∃ sent, sendTrap jc oid blocks jobj = .ok sent) ↔
      ∀ alarm, jc.objectGetEx jobj "alarm" = some (.object alarm) →
        ∀ key ∈ Block.textKeys blocks, alarm.lookup key ≠ some .null := by
  have hkeys (key : String) :
      key ∈ Block.textKeys blocks ↔ ∃ b ∈ blocks, b.read = .fieldString ∧ b.key = key := by
    simp [Block.textKeys, and_assoc]
  rw [sendTrap_isOk_iff hdoc]
  constructor
  · intro h alarm halarm key hkey
    obtain ⟨b, hb, htext, rfl⟩ := (hkeys key).mp hkey
    rw [← hdoc.objectGetEx_object]
    exact h _ halarm b hb htext
  · intro h alarmObj halarm b hb htext hnull
    -- a null was found, so the alarm is an object
    obtain ⟨alarm, rfl, hlookup⟩ := hdoc.exists_object hnull
    exact h alarm halarm b.key ((hkeys b.key).mpr ⟨b, hb, htext, rfl⟩) hlookup

/-- The sender of an operation does not crash exactly when no text of the alarm it reads is
null. -/
theorem selectSender_isOk_iff (optType : String) :
    (∃ sent, selectSender jc (some optType) jobj = .ok sent) ↔
      ∀ alarm, jc.objectGetEx jobj "alarm" = some (.object alarm) →
        ∀ key ∈ textKeys optType, alarm.lookup key ≠ some .null := by
  by_cases hwarm : optType = warmStart
  · -- a warm start reads nothing
    rw [hwarm]
    exact iff_of_true ⟨_, rfl⟩ fun _ _ key hkey => absurd hkey List.not_mem_nil
  by_cases hevent : optType = alarmMsg
  · have hkeys : textKeys alarmMsg = Block.textKeys eventBlocks := by decide
    rw [hevent, hkeys]
    exact sendTrap_isOk_iff_lookup hdoc
  · rw [selectSender_eq jc hevent hwarm, textKeys, if_neg hwarm, if_neg hevent,
      ← textKeys_map_block]
    exact sendTrap_isOk_iff_lookup hdoc

section Operation

variable {msg optType : String} {message : List (String × Json)} {operationType : Json}

/-- The dispatch of an object with an operation type that is not null. -/
theorem processJsonAlarm_of_operation (hparse : jc.tokenerParse msg = .object message)
    (hoperation : message.lookup "operation_type" = some operationType)
    (hstring : jc.getString operationType = some optType) :
    processJsonAlarm jc (some msg) =
      (selectSender jc (some optType) (.object message)).map fun sent => (0, sent.2) := by
  rw [processJsonAlarm]
  simp only [hparse, hdoc.objectGetEx_object, hoperation, Option.getD_some, hstring]

/-- A message that does not crash the dispatcher is an object with an operation type. -/
theorem exists_operation {sent : ℤ × List (List Varbind)}
    (h : processJsonAlarm jc (some msg) = .ok sent) :
    ∃ message operationType optType, jc.tokenerParse msg = .object message ∧
      message.lookup "operation_type" = some operationType ∧
      jc.getString operationType = some optType := by
  rw [processJsonAlarm] at h
  cases hoperation : jc.objectGetEx (jc.tokenerParse msg) "operation_type" with
  | none =>
    -- the look-up stores null, whose string is null
    have hnull : jc.getString .null = none := (hdoc.getString_eq_none_iff _).mpr rfl
    simp only [hoperation, Option.getD_none, hnull, selectSender] at h
    cases h
  | some operationType =>
    obtain ⟨message, hparse, hlookup⟩ := hdoc.exists_object hoperation
    cases hstring : jc.getString operationType with
    | none =>
      -- the operation type is there, but null
      simp only [hoperation, Option.getD_some, hstring, selectSender] at h
      cases h
    | some optType => exact ⟨message, operationType, optType, hparse, hlookup, hstring⟩

/-- **Which alarms crash no encoder**: exactly those with no null under a key that the sender of
the operation reads as a text; an alarm that is missing or no object crashes none. -/
theorem processJsonAlarm_alarm_iff (hparse : jc.tokenerParse msg = .object message)
    (hoperation : message.lookup "operation_type" = some operationType)
    (hstring : jc.getString operationType = some optType) :
    (∃ sent, processJsonAlarm jc (some msg) = .ok sent) ↔
      ∀ alarm, message.lookup "alarm" = some (.object alarm) →
        ∀ key ∈ textKeys optType, alarm.lookup key ≠ some .null := by
  rw [processJsonAlarm_of_operation hdoc hparse hoperation hstring, exists_map_eq_ok_iff,
    selectSender_isOk_iff hdoc]
  simp only [hdoc.objectGetEx_object]

end Operation

/-- **When a message does not crash the dispatcher**: exactly when it parses to an object whose
operation type is there and not null, and no text that the chosen sender reads from its alarm is
null. -/
theorem processJsonAlarm_returns_iff (msg : String) :
    (∃ sent, processJsonAlarm jc (some msg) = .ok sent) ↔
      ∃ message operationType optType, jc.tokenerParse msg = .object message ∧
        message.lookup "operation_type" = some operationType ∧
        jc.getString operationType = some optType ∧
        ∀ alarm, message.lookup "alarm" = some (.object alarm) →
          ∀ key ∈ textKeys optType, alarm.lookup key ≠ some .null := by
  constructor
  · rintro ⟨sent, hsent⟩
    obtain ⟨message, operationType, optType, hparse, hoperation, hstring⟩ :=
      exists_operation hdoc hsent
    refine ⟨message, operationType, optType, hparse, hoperation, hstring, ?_⟩
    rw [processJsonAlarm_of_operation hdoc hparse hoperation hstring] at hsent
    have hselect := (selectSender_isOk_iff hdoc optType).mp (exists_map_eq_ok_iff.mp ⟨sent, hsent⟩)
    simpa only [hdoc.objectGetEx_object] using hselect
  · rintro ⟨message, operationType, optType, hparse, hoperation, hstring, h⟩
    rw [processJsonAlarm_of_operation hdoc hparse hoperation hstring, exists_map_eq_ok_iff,
      selectSender_isOk_iff hdoc]
    simpa only [hdoc.objectGetEx_object] using h

end Documented

/-- A message whose alarm has a null repair action. -/
def nullRepairAction (optType : String) : List (String × Json) :=
  [("operation_type", .string optType), ("alarm", .object [(alarmRepairAction, .null)])]

/-- Its text. -/
def nullRepairActionText (optType : String) : String :=
  "\x7b\"operation_type\": \"" ++ optType ++
    "\", \"alarm\": \x7b\"wrsAlarmActiveProposedRepairAction\": null\x7d\x7d"

/-- The sender of a clear does not read the repair action. -/
theorem processJsonAlarm_alarm_clear :
    ∃ sent, processJsonAlarm (.ofParse fun _ => .object (nullRepairAction alarmClear))
      (some (nullRepairActionText alarmClear)) = .ok sent := by
  have hunread : ∀ key ∈ textKeys alarmClear, key ≠ alarmRepairAction := by decide
  have hstring : (JsonC.ofParse fun _ => .object (nullRepairAction alarmClear)).getString
      (.string alarmClear) = some alarmClear := by decide
  refine (processJsonAlarm_alarm_iff (JsonC.ofParse_documented _) rfl rfl hstring).mpr ?_
  intro alarm halarm key hkey
  obtain rfl : [(alarmRepairAction, Json.null)] = alarm := by
    simpa [nullRepairAction, List.lookup_cons] using halarm
  simp [List.lookup_cons, beq_false_of_ne (hunread key hkey)]

/-- The sender of a critical alarm takes its length. -/
theorem processJsonAlarm_alarm_null_crashes :
    processJsonAlarm (.ofParse fun _ => .object (nullRepairAction alarmCritical))
      (some (nullRepairActionText alarmCritical)) = .error .strlen := rfl

/-- A warm start needs no alarm. -/
theorem processJsonAlarm_returns_warmStart :
    ∃ sent, processJsonAlarm
      (.ofParse fun _ => .object [("operation_type", .string warmStart)])
      (some "\x7b\"operation_type\": \"warmStart\"\x7d") = .ok sent := by
  refine (processJsonAlarm_returns_iff (JsonC.ofParse_documented _) _).mpr
    ⟨_, .string warmStart, warmStart, rfl, rfl, by decide, ?_⟩
  intro alarm _ key hkey
  exact absurd hkey List.not_mem_nil

/-- A text that is no JSON crashes the dispatcher, and so does an object without an operation
type. -/
theorem processJsonAlarm_crashes :
    processJsonAlarm (.ofParse fun _ => .null) (some "hello") = .error .strcmp ∧
      processJsonAlarm (.ofParse fun _ => .object []) (some "\x7b\x7d") = .error .strcmp :=
  ⟨rfl, rfl⟩

/-! ## The result -/

/-- The result is 0 exactly for one trap, and is not 0 for none. -/
def Reported (result : ℤ) (traps : List (List Varbind)) : Prop :=
  (result = 0 ↔ traps.length = 1) ∧ (traps = [] → result ≠ 0)

section Traps

variable {jc : JsonC} {jobj : Json} {error : ℤ} {traps : List (List Varbind)}

/-- A sender sends one trap if it finds the alarm, and none otherwise. -/
theorem sendTrap_length {oid : Oid} {blocks : List Block}
    (h : sendTrap jc oid blocks jobj = .ok (error, traps)) :
    traps.length = if (jc.objectGetEx jobj "alarm").isSome then 1 else 0 := by
  obtain ⟨halarm, rfl⟩ | ⟨alarmObj, added, halarm, -, rfl⟩ := sendTrap_cases h
  · rw [halarm]
    rfl
  · rw [halarm]
    rfl

/-- A warm start is sent without an alarm. -/
theorem selectSender_length {optType : String}
    (h : selectSender jc (some optType) jobj = .ok (error, traps)) :
    traps.length = if optType = warmStart ∨ (jc.objectGetEx jobj "alarm").isSome then 1 else 0 := by
  by_cases hwarm : optType = warmStart
  · rw [if_pos (Or.inl hwarm)]
    rw [hwarm] at h
    cases h
    rfl
  · simp only [hwarm, false_or]
    by_cases hevent : optType = alarmMsg
    · rw [hevent] at h
      exact sendTrap_length h
    · rw [selectSender_eq jc hevent hwarm] at h
      exact sendTrap_length h

/-- **When the result tells whether a trap was sent**: exactly when the message has an alarm or is
a warm start. A message without an alarm sends nothing, and the error of its sender is dropped. -/
theorem processJsonAlarm_result_iff (hdoc : jc.Documented) {msg : String} {result : ℤ}
    (h : processJsonAlarm jc (some msg) = .ok (result, traps)) :
    Reported result traps ↔
      ∃ message, jc.tokenerParse msg = .object message ∧
        ((message.lookup "alarm").isSome ∨ ∃ operationType,
          message.lookup "operation_type" = some operationType ∧
            jc.getString operationType = some warmStart) := by
  obtain ⟨message, operationType, optType, hparse, hoperation, hstring⟩ := exists_operation hdoc h
  rw [processJsonAlarm_of_operation hdoc hparse hoperation hstring] at h
  obtain ⟨⟨error, traps'⟩, hsent, hresult⟩ := exists_of_map_eq_ok h
  obtain ⟨rfl, rfl⟩ : 0 = result ∧ traps' = traps := by simpa using hresult
  have hlength := selectSender_length hsent
  rw [hdoc.objectGetEx_object] at hlength
  by_cases hsends : optType = warmStart ∨ (message.lookup "alarm").isSome
  · rw [if_pos hsends] at hlength
    refine iff_of_true ⟨by simp [hlength], ?_⟩ ⟨message, hparse, ?_⟩
    · rintro rfl
      cases hlength
    · refine hsends.symm.imp_right ?_
      rintro rfl
      exact ⟨operationType, hoperation, hstring⟩
  · rw [if_neg hsends] at hlength
    refine iff_of_false ?_ ?_
    · -- nothing was sent, and the result is 0
      rintro ⟨-, hnone⟩
      exact hnone (List.eq_nil_of_length_eq_zero hlength) rfl
    · rintro ⟨message', hparse', hreported⟩
      obtain rfl : message = message' := by simpa [hparse] using hparse'
      refine hsends (hreported.symm.imp_left ?_)
      rintro ⟨operationType', hoperation', hstring'⟩
      obtain rfl : operationType = operationType' := by simpa [hoperation] using hoperation'
      rw [hstring] at hstring'
      exact Option.some.inj hstring'

end Traps

/-- A warm start is sent and reported so. -/
theorem processJsonAlarm_result_warmStart :
    Reported 0 [[⟨snmptrapOid, .objectId wrsWarmStartOid⟩]] := by
  have hstring : (JsonC.ofParse fun _ => .object [("operation_type", .string warmStart)]).getString
      (.string warmStart) = some warmStart := by decide
  have hsent : processJsonAlarm (.ofParse fun _ => .object [("operation_type", .string warmStart)])
      (some "\x7b\"operation_type\": \"warmStart\"\x7d") =
      .ok (0, [[⟨snmptrapOid, .objectId wrsWarmStartOid⟩]]) := rfl
  exact (processJsonAlarm_result_iff (JsonC.ofParse_documented _) hsent).mpr
    ⟨_, rfl, Or.inr ⟨_, rfl, hstring⟩⟩

/-- A clear without an alarm sends nothing, and is reported as processed. -/
theorem processJsonAlarm_result_without_alarm :
    processJsonAlarm (.ofParse fun _ => .object [("operation_type", .string alarmClear)])
        (some "\x7b\"operation_type\": \"wrsAlarmClear\"\x7d") = .ok (0, []) ∧
      ¬ Reported 0 [] := by
  refine ⟨rfl, ?_⟩
  rintro ⟨-, hnone⟩
  exact hnone rfl rfl

end StxSnmp.Trap
