import StxSnmp.FmAgent.Walk

/-!
# The UUID column

The UUID of a row is the one field that is not answered from the row: the scan copies it into a
buffer of 36 bytes, which holds 35 of them and a terminator, while the MIB allows UUIDs of 36.

## Main definitions

* `TableKind.uuidColumn`: the column of a table that answers the UUID
* `Request.AsksFor`: the requests, exact or not, for a row

## Main results

* `uuid_served`: within the count the answer is the UUID as far as the buffer holds it
* `uuid_served_iff`: the answer is the UUID iff the row is within the count and its UUID has at most
  35 bytes
* `uuids_served_alike`: two rows told apart by the last character of their UUIDs
-/

namespace StxSnmp.FmAgent

open MachineInt

/-- The column of the UUID, second in both tables. -/
def TableKind.uuidColumn : TableKind → Variable
  | .activeAlarms => alarmVariables[1]
  | .eventLogs => eventLogVariables[1]

/-- In the column of the UUID both switches answer the buffer of the scan. -/
theorem TableKind.entryValue_uuid (dateNTime : ℤ → List UInt8) (kind : TableKind) (index : ℤ)
    (name : List UInt8) (alrm : AlarmData) :
    kind.entryValue dateNTime kind.uuidColumn.magic index name alrm = some (.octets name) := by
  cases kind <;> rfl

theorem strlcpy_eq_self_iff {src : List UInt8} : strlcpy src uuidSize = src ↔ src.length ≤ 35 := by
  constructor
  · intro h
    have hlen : min (uuidSize - 1) src.length = src.length := by
      rw [← List.length_take]
      exact congrArg List.length h
    exact (le_min_iff.mp hlen.ge).1
  · exact List.take_of_length_le

/-- The request is for row `k + 1` of its column: by that name, or by one that the row is the next
after. -/
def Request.AsksFor (r : Request) (k : ℕ) : Prop :=
  if r.exact then r.name = r.vp.name ++ [k + 1] else NextRow r.vp r.name k

/-- The row asked for is found within the count. -/
theorem headerEntry_asked {oids : OidComparison} {count : ℤ} {r : Request} {k : ℕ}
    (h : r.AsksFor k) :
    headerEntry oids count r =
      if ((k + 1 : ℕ) : ℤ) ≤ count then HeaderOut.found r (k + 1) else HeaderOut.notFound r := by
  unfold Request.AsksFor at h
  split_ifs at h with hexact
  · exact headerEntry_exact hexact h (Nat.succ_pos k)
  · exact headerEntry_next (Bool.eq_false_iff.mpr hexact) (Nat.succ_pos k) h.lt h.least

section VarTable

variable {c : TableCode} {entryValue : ℕ → ℤ → List UInt8 → AlarmData → Option Value}
  {env : RequestEnv} {r : Request} {s : Table × Plugin}

/-- An answer with a value is for an index the search found, and names it. -/
theorem exists_found_of_isSome (h : (varTable c entryValue env r s).2.value.isSome) :
    ∃ (count : ℤ) (s₁ : Table × Plugin) (index : ℕ), 1 ≤ index ∧
      getCount c env.timeNow env.countScan s = (count, s₁) ∧
      headerEntry env.oids count r = HeaderOut.found r index := by
  rcases hcount : getCount c env.timeNow env.countScan s with ⟨count, s₁⟩
  obtain hnone | ⟨index, hpos, -, hfound⟩ := headerEntry_cases env.oids count r
  · rw [varTable_of_notFound hcount hnone] at h
    cases h
  · exact ⟨count, s₁, index, hpos, rfl, hfound⟩

/-- `*var_len` is the length of the bytes answered. -/
theorem varLen_of_octets {bytes : List UInt8}
    (h : (varTable c entryValue env r s).2.value = some (.octets bytes)) :
    (varTable c entryValue env r s).2.varLen = bytes.length := by
  obtain ⟨count, s₁, index, -, hcount, hfound⟩ := exists_found_of_isSome (by rw [h]; rfl)
  rcases hscan : scanByIndex c index env.i s₁.1.name s₁.1.alrm env.indexScan s₁ with
    ⟨⟨res, name, alrm⟩, t, p⟩
  rw [varTable_eq_of_found hcount hfound hscan] at h ⊢
  simp only at h
  rw [h]
  rfl

/-- An answer under the name of row `k + 1` is from that row of the list then held. -/
theorem value_of_named {k : ℕ} {row : AlarmData}
    (hvalue : (varTable c entryValue env r s).2.value.isSome)
    (hname : (varTable c entryValue env r s).2.name = r.vp.name ++ [k + 1])
    (hrow : (varTable c entryValue env r s).1.1.alarmList[k]? = some row) :
    (varTable c entryValue env r s).2.value =
      entryValue r.vp.magic (k + 1 : ℕ) (strlcpy row.uuid uuidSize) row := by
  obtain ⟨count, s₁, index, -, hcount, hfound⟩ := exists_found_of_isSome hvalue
  obtain ⟨hnamed, hcache, -⟩ := varTable_of_found entryValue hcount hfound
  obtain rfl : index = k + 1 := by simpa [hnamed] using hname
  rw [hcache.alarmList] at hrow
  exact varTable_value hcount hfound hrow

/-- A request for a row of the list then held answers from that row, within the count in force. -/
theorem value_of_asked {k : ℕ} {row : AlarmData} (hasks : r.AsksFor k)
    (hrow : (varTable c entryValue env r s).1.1.alarmList[k]? = some row) :
    (varTable c entryValue env r s).2.value =
      if ((k + 1 : ℕ) : ℤ) ≤ cInt (countInForce c env s) then
        entryValue r.vp.magic (k + 1 : ℕ) (strlcpy row.uuid uuidSize) row
      else none := by
  obtain ⟨s₁, hcount, -⟩ := getCount_countInForce c env s
  have hsearch : headerEntry env.oids (cInt (countInForce c env s)) r = _ := headerEntry_asked hasks
  split_ifs with hle
  · rw [if_pos hle] at hsearch
    obtain ⟨-, hcache, -⟩ := varTable_of_found entryValue hcount hsearch
    rw [hcache.alarmList] at hrow
    exact varTable_value hcount hsearch hrow
  · -- beyond the count the row is not looked up
    rw [if_neg hle] at hsearch
    rw [varTable_of_notFound hcount hsearch]

end VarTable

section Agent

variable (dateNTime : ℤ → List UInt8) {kind : TableKind} {a : Agent} {env : RequestEnv}
  {r : Request} {k : ℕ} {row : AlarmData}

/-- The UUID answered for a row of the list is what the scan's buffer holds of it; beyond the count
in force none is. -/
theorem uuid_served (hvp : r.vp = kind.uuidColumn) (hasks : r.AsksFor k)
    (hrow : (kind.table (agentStep dateNTime a (kind.request env r)).1).alarmList[k]? = some row) :
    (agentStep dateNTime a (kind.request env r)).2.value =
        (if ((k + 1 : ℕ) : ℤ) ≤ cInt (countInForce kind.code env (kind.table a, a.plugin)) then
          some (.octets (strlcpy row.uuid uuidSize)) else none) ∧
      ((agentStep dateNTime a (kind.request env r)).2.value.isSome →
        (agentStep dateNTime a (kind.request env r)).2.varLen =
          (strlcpy row.uuid uuidSize).length) := by
  obtain ⟨htable, hreply⟩ := kind.agentStep_request dateNTime a env r
  rw [htable] at hrow
  rw [hreply]
  have hserved := value_of_asked hasks hrow
  rw [hvp, kind.entryValue_uuid] at hserved
  refine ⟨hserved, fun hvalue => varLen_of_octets ?_⟩
  rw [hserved] at hvalue ⊢
  split_ifs at hvalue ⊢
  · rfl
  · cases hvalue

/-- **The UUID answered for a row of the list is the row's UUID exactly when the count in force
reaches the row and the UUID has at most 35 bytes**, one less than a UUID may have: the last of 36
is cut off. -/
theorem uuid_served_iff (hvp : r.vp = kind.uuidColumn) (hasks : r.AsksFor k)
    (hrow : (kind.table (agentStep dateNTime a (kind.request env r)).1).alarmList[k]? = some row) :
    ((agentStep dateNTime a (kind.request env r)).2.value = some (.octets row.uuid) ∧
      (agentStep dateNTime a (kind.request env r)).2.varLen = row.uuid.length) ↔
      ((k + 1 : ℕ) : ℤ) ≤ cInt (countInForce kind.code env (kind.table a, a.plugin)) ∧
        row.uuid.length ≤ 35 := by
  obtain ⟨hserved, hlen⟩ := uuid_served dateNTime hvp hasks hrow
  by_cases hle : ((k + 1 : ℕ) : ℤ) ≤ cInt (countInForce kind.code env (kind.table a, a.plugin))
  · rw [if_pos hle] at hserved
    rw [hlen (by rw [hserved]; rfl), hserved, and_iff_right hle, ← strlcpy_eq_self_iff]
    constructor
    · rintro ⟨huuid, -⟩
      simpa using huuid
    · intro huuid
      rw [huuid]
      exact ⟨rfl, rfl⟩
  · rw [if_neg hle] at hserved
    rw [hserved]
    exact iff_of_false (fun h => nomatch h.1) fun h => hle h.1

end Agent

/-- A row with a UUID. -/
def uuidRow (uuid : List UInt8) : AlarmData := { (default : AlarmData) with uuid := uuid }

/-- A first request for the UUID of an alarm, and its reply. -/
def uuidReply (rows : List AlarmData) (i : ℕ) : Agent × Response :=
  agentStep (fun _ => []) ⟨Plugin.init, Table.init, Table.init⟩
    (TableKind.activeAlarms.request (.steady 100 1 rows)
      (.get TableKind.activeAlarms.uuidColumn i 0 0))

/-- The shorter of two UUIDs is answered whole. -/
theorem uuid_served_short :
    let rows := [uuidRow (.replicate 36 98), uuidRow [97, 49]]
    (uuidReply rows 2).2.value = some (.octets [97, 49]) ∧ (uuidReply rows 2).2.varLen = 2 := by
  intro rows
  have hvp : (Request.get TableKind.activeAlarms.uuidColumn 2 0 0).vp =
      TableKind.activeAlarms.uuidColumn := rfl
  have hasks : (Request.get TableKind.activeAlarms.uuidColumn 2 0 0).AsksFor 1 := rfl
  have hrow : (TableKind.activeAlarms.table (uuidReply rows 2).1).alarmList[1]? =
      some (uuidRow [97, 49]) := by decide +kernel
  unfold uuidReply at hrow ⊢
  exact (uuid_served_iff (fun _ => []) hvp hasks hrow).mpr ⟨by decide +kernel, by decide⟩

/-- Two UUIDs of 36 bytes that differ in the last are answered alike, and cut off. -/
theorem uuids_served_alike :
    let first : List UInt8 := .replicate 35 97 ++ [49]
    let second : List UInt8 := .replicate 35 97 ++ [50]
    let reply := uuidReply [uuidRow first, uuidRow second]
    first.length = 36 ∧ second.length = 36 ∧ first ≠ second ∧
      (reply 1).2.value = some (.octets (.replicate 35 97)) ∧
      (reply 2).2.value = some (.octets (.replicate 35 97)) := by
  decide +kernel

end StxSnmp.FmAgent
