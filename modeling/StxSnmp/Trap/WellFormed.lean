import StxSnmp.Trap.Buffer
import StxSnmp.Trap.Objects

/-!
# What a trap can be

Whatever a message holds, a sender names one notification of the MIB, and puts behind its
identifier some of the columns of that notification, each once and with a value of its type. The
library may return anything here: nothing is assumed of it.

## Main definitions

* `Column.Holds c v`: a variable is the instance of a column, with a value of its type
* `IsTrapOf n trap`: a trap names a notification and carries some of its columns
* `WellFormed trap`: a trap is a warm start or that of a notification of the MIB
* `DescribedByMib trap`: the same, by the notification types of the MIB and their clauses

## Main results

* `selectSender_wellFormed`: the traps of a sender are well formed
* `WellFormed.describedByMib`: the MIB describes what is well formed
* `IsTrapOf.ascending`: the variables of a trap ascend, so none of them occurs twice
-/

namespace StxSnmp.Trap

open OptionalFields

/-- The ASN.1 type of a value: whether it is a text, nothing for an identifier. -/
def AsnValue.isText? : AsnValue → Option Bool
  | .octetStr _ => some true
  | .integer _ => some false
  | .objectId _ => none

/-- A variable is the instance of a column, and its value has the column's type. -/
def Column.Holds (c : Column) (v : Varbind) : Prop :=
  v.name = c.oid ∧ v.value.isText? = some c.isText

/-- A trap names a notification, and carries some of its columns in their order. -/
structure IsTrapOf (n : Notification) (trap : List Varbind) : Prop where
  head : trap.head? = some ⟨snmptrapOid, .objectId n.oid⟩
  columns : List.SublistForall₂ (fun v c => Column.Holds c v) trap.tail n.columns

/-- A warm start, or a notification of the MIB for some operation. -/
def WellFormed (trap : List Varbind) : Prop :=
  trap = [⟨snmptrapOid, .objectId wrsWarmStartOid⟩] ∨
    ∃ optType, (notification optType).oid ∈ notificationTypes.map NotificationType.oid ∧
      IsTrapOf (notification optType) trap

/-- A variable is the UUID or an object of the clause, with a value of its column's type. -/
def NotificationType.Carries (n : NotificationType) (v : Varbind) : Prop :=
  (v.name = wrsAlarmActiveUuidOid ∨ v.name ∈ n.objectOids) ∧ ∃ c ∈ alarmColumns, c.Holds v

/-- A warm start, or a notification of the MIB that carries objects of its clause and the UUID. -/
def DescribedByMib (trap : List Varbind) : Prop :=
  trap = [⟨snmptrapOid, .objectId wrsWarmStartOid⟩] ∨
    ∃ n ∈ notificationTypes, trap.head? = some ⟨snmptrapOid, .objectId n.oid⟩ ∧
      ∀ v ∈ trap.tail, n.Carries v

/-- Columns that ascend have instances that do. -/
theorem Column.oid_lt_oid {c c' : Column} (h : c.number < c'.number) : c.oid < c'.oid := by
  simp [Column.oid, wrsAlarmObjects, List.cons_lt_cons_iff, h]

/-- The variables of a trap ascend, so none of them occurs twice. -/
theorem IsTrapOf.ascending {optType : String} {trap : List Varbind}
    (h : IsTrapOf (notification optType) trap) :
    (trap.tail.map Varbind.name).Pairwise (· < ·) := by
  obtain ⟨columns, hholds, hsub⟩ := List.sublistForall₂_iff.mp h.columns
  -- the variables have the names of the columns they are instances of
  have hnames : trap.tail.map Varbind.name = columns.map Column.oid := by
    refine List.forall₂_eq_eq_eq ▸ ?_
    rw [List.forall₂_map_left_iff, List.forall₂_map_right_iff]
    exact hholds.imp fun _ _ hv => hv.1
  rw [hnames, List.pairwise_map]
  exact ((notification_columns_sorted optType).sublist hsub).imp Column.oid_lt_oid

theorem notification_mem (optType : String) :
    (notification optType).oid ∈ notificationTypes.map NotificationType.oid := by
  unfold notification
  split_ifs <;> decide

theorem notification_columns_subset (optType : String) :
    (notification optType).columns ⊆ alarmColumns := by
  unfold notification
  split_ifs <;> first | exact List.Subset.refl _ | exact List.filter_subset_self _

/-- The columns of a notification are the UUID and the objects of its clause. -/
theorem notification_columns_objects {optType : String} {n : NotificationType}
    (hn : n ∈ notificationTypes) (hoid : n.oid = (notification optType).oid) :
    ∀ c ∈ (notification optType).columns,
      c.oid = wrsAlarmActiveUuidOid ∨ c.oid ∈ n.objectOids := by
  have hcons : ∃ uuid, (notification optType).columns =
      uuid :: (notification optType).columns.tail ∧ uuid.oid = wrsAlarmActiveUuidOid := by
    unfold notification
    split_ifs <;> exact ⟨_, rfl, rfl⟩
  obtain ⟨uuid, hcons, huuid⟩ := hcons
  intro c hc
  rw [hcons] at hc
  obtain rfl | htail := List.mem_cons.mp hc
  · exact Or.inl huuid
  · rw [objectOids_eq_columns hn hoid]
    exact Or.inr (List.mem_map_of_mem htail)

/-- A variable of a trap is the instance of a column of its notification. -/
theorem IsTrapOf.exists_column {n : Notification} {trap : List Varbind} (h : IsTrapOf n trap)
    {v : Varbind} (hv : v ∈ trap.tail) : ∃ c ∈ n.columns, c.Holds v := by
  obtain ⟨columns, hholds, hsub⟩ := List.sublistForall₂_iff.mp h.columns
  obtain ⟨i, hi, rfl⟩ := List.mem_iff_getElem.mp hv
  have hlt : i < columns.length := hholds.length_eq ▸ hi
  exact ⟨columns[i], hsub.subset (List.getElem_mem hlt), hholds.get hi hlt⟩

/-- The MIB describes every well-formed trap. -/
theorem WellFormed.describedByMib {trap : List Varbind} (h : WellFormed trap) :
    DescribedByMib trap := by
  obtain hwarm | ⟨optType, hmem, htrap⟩ := h
  · exact Or.inl hwarm
  · obtain ⟨n, hn, hoid⟩ := List.mem_map.mp hmem
    refine Or.inr ⟨n, hn, by rw [hoid, htrap.head], fun v hv => ?_⟩
    obtain ⟨c, hc, hholds⟩ := htrap.exists_column hv
    refine ⟨?_, c, notification_columns_subset optType hc, hholds⟩
    rw [hholds.1]
    exact notification_columns_objects hn hoid c hc

/-! ## The blocks and the columns -/

/-- A block deals with a column: it names it, and reads a text exactly for a text. -/
def Block.IsFor (b : Block) (c : Column) : Prop :=
  b.oid = c.oid ∧ (b.read = .fieldString ↔ c.isText = true)

instance (b : Block) (c : Column) : Decidable (b.IsFor c) := inferInstanceAs (Decidable (_ ∧ _))

theorem isFor_block (c : Column) : c.block.IsFor c := by
  refine ⟨rfl, ?_⟩
  rw [Column.block]
  split_ifs <;> simp_all

/-- The blocks of a sender deal with the columns of its notification, in order. -/
theorem senderBlocks_isFor (optType : String) :
    List.Forall₂ Block.IsFor (senderBlocks optType) (notification optType).columns := by
  by_cases hevent : optType = alarmMsg
  · rw [hevent]
    -- the blocks of an event have keys of their own
    show List.Forall₂ Block.IsFor eventBlocks alarmColumns
    repeat' constructor
    all_goals decide
  · rw [senderBlocks, if_neg hevent, List.forall₂_map_left_iff, List.forall₂_same]
    exact fun c _ => isFor_block c

section Sent

variable {jc : JsonC} {jobj : Json} {error : ℤ} {traps : List (List Varbind)}

/-- A read gives a text exactly if it reads a string. -/
theorem isText?_of_value {alarmObj field : Json} {read : Read} {value : AsnValue}
    (h : read.value jc alarmObj field = .ok value) :
    value.isText? = some (decide (read = .fieldString)) := by
  cases read with
  | fieldString =>
    rw [Read.value] at h
    cases hstring : jc.getString field with
    | none =>
      rw [hstring] at h
      cases h
    | some s =>
      rw [hstring] at h
      cases h
      rfl
  | fieldInt =>
    cases h
    rfl
  | memberInt key =>
    cases h
    rfl
  | alarmInt =>
    cases h
    rfl

/-- What a block adds is an instance of its column. -/
theorem Block.IsFor.holds {alarmObj : Json} {b : Block} {c : Column} (h : b.IsFor c) {v : Varbind}
    (hv : b.varbind jc alarmObj = .ok (some v)) : c.Holds v := by
  rw [Block.varbind] at hv
  cases hfield : jc.objectGetEx alarmObj b.key with
  | none =>
    rw [hfield] at hv
    cases hv
  | some field =>
    rw [hfield] at hv
    obtain ⟨value, hvalue, hvarbind⟩ := exists_of_map_eq_ok hv
    obtain rfl : (⟨b.oid, value⟩ : Varbind) = v := Option.some.inj hvarbind
    refine ⟨h.1, ?_⟩
    rw [isText?_of_value hvalue, Option.some.injEq, Bool.eq_iff_iff, decide_eq_true_iff]
    exact h.2

/-- The sender of an operation sends traps of its notification. -/
theorem isTrapOf_of_sendTrap {optType : String}
    (h : sendTrap jc (senderOid optType) (senderBlocks optType) jobj = .ok (error, traps)) :
    ∀ trap ∈ traps, IsTrapOf (notification optType) trap := by
  obtain ⟨-, rfl⟩ | ⟨alarmObj, added, -, hcollect, rfl⟩ := sendTrap_cases h
  · exact fun trap htrap => absurd htrap List.not_mem_nil
  · intro trap htrap
    obtain rfl := List.mem_singleton.mp htrap
    refine ⟨by rw [List.head?_cons, senderOid_eq], ?_⟩
    exact sublistForall₂_of_collect
      ((senderBlocks_isFor optType).imp fun _ _ hfor _ => hfor.holds) hcollect

/-- The traps of a sender are well formed, whatever the message holds. -/
theorem selectSender_wellFormed {optType : Option String}
    (h : selectSender jc optType jobj = .ok (error, traps)) : ∀ trap ∈ traps, WellFormed trap := by
  cases optType with
  | none => cases h
  | some optType =>
    by_cases hwarm : optType = warmStart
    · rw [hwarm] at h
      cases h
      exact fun trap htrap => Or.inl (List.mem_singleton.mp htrap)
    · rw [selectSender_eq_sendTrap jc hwarm] at h
      exact fun trap htrap =>
        Or.inr ⟨optType, notification_mem optType, isTrapOf_of_sendTrap h trap htrap⟩

theorem dispatch_wellFormed {parsedJson : Json} (h : dispatch jc parsedJson = .ok (error, traps)) :
    ∀ trap ∈ traps, WellFormed trap := by
  obtain ⟨⟨error', traps'⟩, hselect, hresult⟩ := exists_of_map_eq_ok h
  obtain ⟨-, rfl⟩ := Prod.mk.inj hresult
  exact selectSender_wellFormed hselect

end Sent

end StxSnmp.Trap
