import StxSnmp.Trap.Dispatch

/-!
# The objects of a notification

The MIB gives each notification an OBJECTS clause, and a trap carries the objects of the clause
first, in its order. Every sender begins with the UUID, which no clause lists.

## Main definitions

* `NotificationType`, `notificationTypes`: the notifications of the MIB with their clauses
* `FollowsObjects objects names`: the variables named are in the order a clause asks for
* `senderBlocks`: the blocks of the sender of an operation

## Main results

* `names_of_sendTrap`: the variables of a trap are those of the keys found, in the sender's order
* `objectOids_eq_columns`: a clause lists the columns of its notification behind the UUID
* `followsObjects_cons_iff`: a variable no clause lists may only be alone in front
* `processJsonAlarm_followsObjects_iff`: when a trap follows the clause of its notification
-/

namespace StxSnmp.Trap

open OptionalFields

/-! ## The OBJECTS clauses -/

/-- A notification of the MIB: its number under `wrsTrapPrefix`, and its OBJECTS clause. -/
structure NotificationType where
  number : ℕ
  objects : List String
  deriving DecidableEq, Repr

/-- The clause of the notifications that raise an alarm or report an event. -/
def alarmObjects : List String :=
  ["wrsAlarmActiveAlarmId", "wrsAlarmActiveEntityInstanceId", "wrsAlarmActiveDateAndTime",
    "wrsAlarmActiveAlarmSeverity", "wrsAlarmActiveReasonText", "wrsAlarmActiveEventType",
    "wrsAlarmActiveProbableCause", "wrsAlarmActiveProposedRepairAction",
    "wrsAlarmActiveServiceAffecting", "wrsAlarmActiveSuppressionAllowed"]

/-- `wrsAlarmCritical`, `wrsAlarmMajor`, `wrsAlarmMinor`, `wrsAlarmWarning`, `wrsAlarmMessage`,
`wrsAlarmClear` and `wrsAlarmHierarchicalClear`. -/
def notificationTypes : List NotificationType :=
  [⟨1, alarmObjects⟩, ⟨2, alarmObjects⟩, ⟨3, alarmObjects⟩, ⟨4, alarmObjects⟩, ⟨5, alarmObjects⟩,
    ⟨9, ["wrsAlarmActiveAlarmId", "wrsAlarmActiveEntityInstanceId", "wrsAlarmActiveDateAndTime",
      "wrsAlarmActiveReasonText"]⟩,
    ⟨99, ["wrsAlarmActiveEntityInstanceId", "wrsAlarmActiveDateAndTime",
      "wrsAlarmActiveReasonText"]⟩]

def NotificationType.oid (n : NotificationType) : Oid := wrsAlarmObjects ++ [0, n.number]

/-- The instances of the objects of the clause. -/
def NotificationType.objectOids (n : NotificationType) : List Oid :=
  n.objects.filterMap fun name => (alarmColumns.find? fun c => c.name = name).map Column.oid

/-- The variables listed come first, in the order of the clause, and any other variable after all
of them. -/
def FollowsObjects (objects names : List Oid) : Prop :=
  ∃ listed others, names = listed ++ others ∧ listed.Sublist objects ∧
    ∀ name ∈ others, name ∉ objects

/-- Behind a variable that is not listed there is no listed one. -/
theorem followsObjects_cons_iff {objects names : List Oid} {name : Oid} (hname : name ∉ objects)
    (hnames : ∀ name ∈ names, name ∈ objects) :
    FollowsObjects objects (name :: names) ↔ names = [] := by
  constructor
  · rintro ⟨listed, others, hsplit, hsub, hothers⟩
    cases listed with
    | nil =>
      rw [List.nil_append] at hsplit
      rw [List.eq_nil_iff_forall_not_mem]
      intro other hother
      exact hothers other (hsplit ▸ List.mem_cons_of_mem _ hother) (hnames other hother)
    | cons first listed =>
      -- the first variable would be a listed one
      obtain ⟨rfl, -⟩ := List.cons.inj hsplit
      exact absurd (hsub.subset List.mem_cons_self) hname
  · rintro rfl
    refine ⟨[], [name], rfl, List.nil_sublist _, ?_⟩
    intro other hother
    rwa [List.mem_singleton.mp hother]

/-! ## The order of a sender -/

/-- The blocks of the sender of an operation that is no warm start. -/
def senderBlocks (optType : String) : List Block :=
  if optType = alarmMsg then eventBlocks
  else (notification optType).columns.map Column.block

/-- The notification of an operation that is no warm start. -/
def senderOid (optType : String) : Oid :=
  if optType = alarmMsg then wrsAlarmMessageOid else (notification optType).oid

/-- The key of the UUID in the alarm of an operation. -/
def uuidKey (optType : String) : String := if optType = alarmMsg then eventUuid else alarmUuid

theorem selectSender_eq_sendTrap (jc : JsonC) {optType : String} (hwarm : optType ≠ warmStart)
    (jobj : Json) :
    selectSender jc (some optType) jobj =
      sendTrap jc (senderOid optType) (senderBlocks optType) jobj := by
  by_cases hevent : optType = alarmMsg
  · rw [hevent]
    rfl
  · rw [selectSender_eq jc hevent hwarm, senderOid, senderBlocks, if_neg hevent, if_neg hevent]

theorem senderOid_eq (optType : String) : senderOid optType = (notification optType).oid := by
  by_cases hevent : optType = alarmMsg
  · rw [hevent]
    rfl
  · rw [senderOid, if_neg hevent]

/-- The clause of a notification lists its columns behind the UUID, in order. -/
theorem objectOids_eq_columns {optType : String} {n : NotificationType} (hn : n ∈ notificationTypes)
    (hoid : n.oid = (notification optType).oid) :
    n.objectOids = (notification optType).columns.tail.map Column.oid := by
  have hnumber : n.number = (notification optType).number := by
    simpa [NotificationType.oid, Notification.oid] using hoid
  have hraise : alarmObjects = n.objects →
      n.objectOids = alarmColumns.tail.map Column.oid := by
    intro hobjects
    rw [NotificationType.objectOids, ← hobjects]
    decide
  -- the number tells the clause
  have hclause : ∀ n ∈ notificationTypes, n.number ≤ 5 → alarmObjects = n.objects := by decide
  unfold notification at hnumber ⊢
  split_ifs at hnumber ⊢
  any_goals exact hraise (hclause n hn (hnumber.trans_le (by decide)))
  · have hclear : ∀ n ∈ notificationTypes, n.number = 9 → n.objectOids =
        (alarmColumns.filter fun c => c.number ∈ [2, 3, 4, 5, 7]).tail.map Column.oid := by
      decide
    exact hclear n hn hnumber
  · have hhierarchical : ∀ n ∈ notificationTypes, n.number = 99 → n.objectOids =
        (alarmColumns.filter fun c => c.number ∈ [2, 4, 5, 7]).tail.map Column.oid := by
      decide
    exact hhierarchical n hn hnumber

/-- Every sender deals with the UUID first, and then with the columns behind it, in order. -/
theorem senderBlocks_eq_cons (optType : String) :
    ∃ uuid blocks, senderBlocks optType = uuid :: blocks ∧
      uuid.key = uuidKey optType ∧ uuid.oid = wrsAlarmActiveUuidOid ∧
      (∀ b ∈ blocks, b.key ≠ uuidKey optType) ∧
      blocks.map Block.oid = (notification optType).columns.tail.map Column.oid := by
  by_cases hevent : optType = alarmMsg
  · rw [hevent]
    exact ⟨_, _, rfl, rfl, rfl, by decide, rfl⟩
  · simp only [senderBlocks, uuidKey, if_neg hevent]
    unfold notification
    split_ifs <;> exact ⟨_, _, rfl, rfl, rfl, by decide, rfl⟩

theorem uuidOid_not_mem_objectOids {n : NotificationType} (hn : n ∈ notificationTypes) :
    wrsAlarmActiveUuidOid ∉ n.objectOids := by
  have h : ∀ n ∈ notificationTypes, wrsAlarmActiveUuidOid ∉ n.objectOids := by decide
  exact h n hn

/-- The variables of the keys found follow the clause exactly if the UUID is not found, or alone. -/
theorem senderBlocks_followsObjects_iff {optType : String} {n : NotificationType}
    (hn : n ∈ notificationTypes) (hoid : n.oid = senderOid optType) (found : String → Bool) :
    FollowsObjects n.objectOids
        (((senderBlocks optType).filter fun b => found b.key).map Block.oid) ↔
      found (uuidKey optType) = false ∨
        ∀ key ∈ (senderBlocks optType).map Block.key, key ≠ uuidKey optType →
          found key = false := by
  obtain ⟨uuid, blocks, hblocks, hkey, huuid, hkeys, hcolumns⟩ := senderBlocks_eq_cons optType
  have hsub : ((blocks.filter fun b => found b.key).map Block.oid).Sublist n.objectOids := by
    rw [objectOids_eq_columns hn (hoid.trans (senderOid_eq optType)), ← hcolumns]
    exact List.filter_sublist.map _
  rw [hblocks, List.filter_cons, hkey]
  cases hfound : found (uuidKey optType) with
  | false =>
    -- all variables are listed
    refine iff_of_true ?_ (Or.inl rfl)
    exact ⟨_, [], (List.append_nil _).symm, hsub, fun _ h => absurd h List.not_mem_nil⟩
  | true =>
    rw [if_pos rfl, List.map_cons, huuid,
      followsObjects_cons_iff (uuidOid_not_mem_objectOids hn) fun _ h => hsub.subset h,
      List.map_eq_nil_iff, List.filter_eq_nil_iff]
    simp only [reduceCtorEq, false_or, Bool.not_eq_true]
    constructor
    · intro h key hmem hne
      obtain ⟨b, hb, rfl⟩ := List.mem_map.mp hmem
      rcases List.mem_cons.mp hb with rfl | hb
      · exact absurd hkey hne
      · exact h b hb
    · intro h b hb
      exact h b.key (List.mem_map_of_mem (List.mem_cons_of_mem _ hb)) (hkeys b hb)

section Sent

variable {jc : JsonC} {jobj alarmObj : Json}

/-- A block adds the variable it names, if its key is found. -/
theorem name_of_varbind {b : Block} {item : Option Varbind}
    (h : b.varbind jc alarmObj = .ok item) :
    item.map Varbind.name =
      if (jc.objectGetEx alarmObj b.key).isSome then some b.oid else none := by
  rw [Block.varbind] at h
  cases hfield : jc.objectGetEx alarmObj b.key with
  | none =>
    rw [hfield] at h
    cases h
    rfl
  | some field =>
    rw [hfield] at h
    cases hvalue : b.read.value jc alarmObj field with
    | error fault =>
      simp only [hvalue] at h
      cases h
    | ok value =>
      simp only [hvalue] at h
      cases h
      rfl

/-- The variables of a trap are those of the keys found, in the order of the sender. -/
theorem names_of_sendTrap {oid : Oid} {blocks : List Block} {error : ℤ} {first : Varbind}
    {varbinds : List Varbind}
    (h : sendTrap jc oid blocks jobj = .ok (error, [first :: varbinds])) :
    ∃ alarmObj, jc.objectGetEx jobj "alarm" = some alarmObj ∧
      first = ⟨snmptrapOid, .objectId oid⟩ ∧
      varbinds.map Varbind.name =
        (blocks.filter fun b => (jc.objectGetEx alarmObj b.key).isSome).map Block.oid := by
  obtain ⟨-, hnone⟩ | ⟨alarmObj, added, halarm, hcollect, htraps⟩ := sendTrap_cases h
  · cases hnone
  · obtain ⟨rfl, rfl⟩ : first = ⟨snmptrapOid, .objectId oid⟩ ∧ varbinds = added := by
      simpa using htraps
    exact ⟨alarmObj, halarm, rfl, map_of_collect (fun _ _ => name_of_varbind) hcollect⟩

end Sent

/-- **When a trap follows the clause of its notification**: exactly when the alarm has no UUID, or
none of the other keys its sender knows. -/
theorem processJsonAlarm_followsObjects_iff {jc : JsonC} (hdoc : jc.Documented)
    {msg optType : String} {message : List (String × Json)} {operationType : Json}
    (hparse : jc.tokenerParse msg = .object message)
    (hoperation : message.lookup "operation_type" = some operationType)
    (hstring : jc.getString operationType = some optType)
    {n : NotificationType} (hn : n ∈ notificationTypes) {result : ℤ} {varbinds : List Varbind}
    (hsent : processJsonAlarm jc (some msg) =
      .ok (result, [⟨snmptrapOid, .objectId n.oid⟩ :: varbinds])) :
    FollowsObjects n.objectOids (varbinds.map Varbind.name) ↔
      ∀ alarm, message.lookup "alarm" = some (.object alarm) →
        alarm.lookup (uuidKey optType) = none ∨
          ∀ key ∈ (senderBlocks optType).map Block.key, key ≠ uuidKey optType →
            alarm.lookup key = none := by
  rw [processJsonAlarm_of_operation hdoc hparse hoperation hstring] at hsent
  obtain ⟨⟨error, traps⟩, hselect, hresult⟩ := exists_of_map_eq_ok hsent
  obtain rfl : traps = [⟨snmptrapOid, .objectId n.oid⟩ :: varbinds] := congrArg Prod.snd hresult
  have hwarm : optType ≠ warmStart := by
    rintro rfl
    -- the warm start is under another prefix than the alarm MIB
    cases hselect
  rw [selectSender_eq_sendTrap jc hwarm] at hselect
  obtain ⟨alarmObj, halarm, hfirst, hnames⟩ := names_of_sendTrap hselect
  have hoid : n.oid = senderOid optType := by simpa using hfirst
  rw [hdoc.objectGetEx_object] at halarm
  rw [hnames, senderBlocks_followsObjects_iff hn hoid fun key =>
    (jc.objectGetEx alarmObj key).isSome]
  simp only [Option.isSome_eq_false_iff, Option.isNone_iff_eq_none]
  constructor
  · intro h alarm halarm'
    obtain rfl : alarmObj = .object alarm := by simpa [halarm] using halarm'
    simpa only [hdoc.objectGetEx_object] using h
  · intro h
    by_cases hobject : ∃ alarm, alarmObj = .object alarm
    · obtain ⟨alarm, rfl⟩ := hobject
      simpa only [hdoc.objectGetEx_object] using h alarm halarm
    · -- nothing is found in what is no object
      exact Or.inl (hdoc.objectGetEx_of_ne_object _ _ fun alarm heq => hobject ⟨alarm, heq⟩)

/-- A message that raises a critical alarm. -/
def raiseMessage (alarm : List (String × Json)) : List (String × Json) :=
  [("operation_type", .string alarmCritical), ("alarm", .object alarm)]

/-- The text of one whose alarm has an id and a severity. -/
def raiseText : String :=
  "\x7b\"operation_type\": \"wrsAlarmCritical\", \"alarm\": " ++
    "\x7b\"wrsAlarmActiveAlarmSeverity\": 4, \"wrsAlarmActiveAlarmId\": \"100.101\"\x7d\x7d"

/-- The order of the keys in the message does not matter. -/
theorem processJsonAlarm_followsObjects_raise :
    FollowsObjects (NotificationType.objectOids ⟨1, alarmObjects⟩)
      [wrsAlarmActiveAlarmIdOid, wrsAlarmActiveAlarmSeverityOid] := by
  have hsent : processJsonAlarm
      (.ofParse fun _ => .object
        (raiseMessage [(alarmSeverity, .int 4), (alarmId, .string "100.101")]))
      (some raiseText) =
      .ok (0, [⟨snmptrapOid, .objectId (NotificationType.oid ⟨1, alarmObjects⟩)⟩ ::
        [⟨wrsAlarmActiveAlarmIdOid, .octetStr "100.101"⟩,
          ⟨wrsAlarmActiveAlarmSeverityOid, .integer 4⟩]]) := by
    decide
  have hstring : (JsonC.ofParse fun _ => .object
      (raiseMessage [(alarmSeverity, .int 4), (alarmId, .string "100.101")])).getString
      (.string alarmCritical) = some alarmCritical := by decide
  refine (processJsonAlarm_followsObjects_iff (JsonC.ofParse_documented _) rfl rfl hstring
    (by decide) hsent).mpr ?_
  intro alarm halarm
  cases halarm
  exact Or.inl (by decide)

/-- The text of one whose alarm has a UUID and an id. -/
def raiseUuidText : String :=
  "\x7b\"operation_type\": \"wrsAlarmCritical\", \"alarm\": " ++
    "\x7b\"wrsAlarmActiveUuid\": \"9f1c\", \"wrsAlarmActiveAlarmId\": \"100.101\"\x7d\x7d"

/-- The UUID, which the clause does not list, is sent before the id, which it lists first. -/
theorem uuid_sent_first :
    processJsonAlarm
        (.ofParse fun _ => .object
          (raiseMessage [(alarmUuid, .string "9f1c"), (alarmId, .string "100.101")]))
        (some raiseUuidText) =
      .ok (0, [⟨snmptrapOid, .objectId (NotificationType.oid ⟨1, alarmObjects⟩)⟩ ::
        [⟨wrsAlarmActiveUuidOid, .octetStr "9f1c"⟩,
          ⟨wrsAlarmActiveAlarmIdOid, .octetStr "100.101"⟩]]) ∧
      ¬ FollowsObjects (NotificationType.objectOids ⟨1, alarmObjects⟩)
        [wrsAlarmActiveUuidOid, wrsAlarmActiveAlarmIdOid] := by
  refine ⟨by decide, ?_⟩
  rw [followsObjects_cons_iff (by decide) (by decide +kernel)]
  exact List.cons_ne_nil _ _

end StxSnmp.Trap
