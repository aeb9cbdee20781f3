import StxSnmp.Library.LinkedList
import StxSnmp.FmAgent.Database

/-!
# The lists in memory

Each table keeps its rows in a linked list, which a load frees and builds again through a pointer
to its last link. The cursor is a pointer into the list. Both lists are on one heap.

## Main definitions

* `Statics`, `Memory`: the pointers of a table, and the heap they point into
* `Statics.scanInit`, `Statics.scanNext`: the scan functions as they go through memory
* `ScanCall`, `Memory.step`: the calls that reach the lists
* `Represents`, `Refines`: a list in memory, and the memory as the tables have it

## Main results

* `loadNodes_spec`: the nodes linked by a load
* `Represents.scanInit`, `Represents.scanNext`: a scan function in memory does what it does on rows
* `Refines.run`: no run of calls accesses a freed node, and each leaves the lists with the rows
-/

namespace StxSnmp.FmAgent

open LinkedList

/-! ## The code -/

/-- `alarm_list`, `alarmaddr`, `saveIndex`, `saveUuid` and `LastLoad` of a table. -/
structure Statics where
  alarmList : Option ℕ
  alarmaddr : Option ℕ
  saveIndex : ℤ
  saveUuid : List UInt8
  lastLoad : ℤ

def Statics.init : Statics := ⟨none, none, 0, [], 0⟩

/-- The nodes of both tables, their statics and the session. -/
structure Memory where
  heap : Heap ℕ AlarmData
  statics : TableKind → Statics
  plugin : Plugin

def Memory.init (p : Plugin) : Memory := ⟨⟨∅, fun _ => ⟨default, none⟩⟩, fun _ => .init, p⟩

/-- The rows copied from row `i` on, each into a new node at the link given. -/
def loadNodes (alloc : Allocator ℕ) (allocated : ℕ → Bool) :
    ℕ → List AlarmData → Link ℕ → Store ℕ AlarmData → Option (Store ℕ AlarmData)
  | _, [], _, s => some s
  | i, alarm :: alarms, activealarmPtr, s =>
    if allocated i then do
      let almnew := alloc.address i s.heap.live
      let s ← Store.assign ⟨s.heap.calloc almnew, s.head⟩ activealarmPtr (some almnew)
      let heap ← s.heap.setValue almnew alarm
      loadNodes alloc allocated (i + 1) alarms (.next almnew) ⟨heap, s.head⟩
    else some s

namespace Statics

/-- `Alarm_Scan_Init`, `Event_Log_Scan_Init`; `none` is an access to a freed node. -/
def scanInit (c : TableCode) (alloc : Allocator ℕ) (env : ScanEnv) (v : Statics)
    (h : Heap ℕ AlarmData) (p : Plugin) : Option (Heap ℕ AlarmData × Statics × Plugin) :=
  let v := { v with saveIndex := 0 }
  if env.clock < v.lastLoad + c.minLoadFreq then
    some (h, { v with alarmaddr := v.alarmList }, p)
  else do
    let v := { v with lastLoad := env.clock }
    let h ← h.freeFrom v.alarmList
    let v := { v with alarmList := none, alarmaddr := none }
    match queryRows c env.attempts retryCount 0 p with
    | (none, p) => some (h, v, p)
    | (some alarms, p) => do
      let s ← loadNodes alloc env.allocated 0 alarms .head ⟨h, v.alarmList⟩
      some (s.heap, { v with alarmList := s.head, alarmaddr := s.head }, p)

/-- `Alarm_Scan_NextAlarm`, `Event_Log_Scan_NextLog`: the result 0, or 1 with what is written
through the pointers. -/
def scanNext (ptrs : ScanPtrs) (v : Statics) (h : Heap ℕ AlarmData) :
    Option (Option ScanPtrs × Statics) :=
  match v.alarmaddr with
  | none => some (none, v)
  | some alarmaddr => do
    let alm ← h.read alarmaddr
    let saveUuid := strlcpy alm.value.uuid uuidSize
    let saveIndex := if ptrs.index.isSome then v.saveIndex + 1 else v.saveIndex
    some (some ⟨ptrs.index.map fun _ => saveIndex, ptrs.name.map fun _ => saveUuid,
        ptrs.aalm.map fun _ => alm.value⟩,
      { v with saveUuid := saveUuid, saveIndex := saveIndex, alarmaddr := alm.next })

end Statics

/-- A call to a scan function of one of the tables. -/
inductive ScanCall where
  | init (kind : TableKind) (alloc : Allocator ℕ) (env : ScanEnv)
  | next (kind : TableKind) (ptrs : ScanPtrs)

namespace Memory

def scanInit (m : Memory) (kind : TableKind) (alloc : Allocator ℕ) (env : ScanEnv) :
    Option Memory := do
  let (h, v, p) ← (m.statics kind).scanInit kind.code alloc env m.heap m.plugin
  some ⟨h, Function.update m.statics kind v, p⟩

def scanNext (m : Memory) (kind : TableKind) (ptrs : ScanPtrs) :
    Option (Option ScanPtrs × Memory) := do
  let (result, v) ← (m.statics kind).scanNext ptrs m.heap
  some (result, { m with statics := Function.update m.statics kind v })

def step (m : Memory) : ScanCall → Option Memory
  | .init kind alloc env => m.scanInit kind alloc env
  | .next kind ptrs => (m.scanNext kind ptrs).map Prod.snd

end Memory

/-! ## A list in memory -/

/-- The statics point to the list of `t`, in the nodes `as`, and to its cursor. -/
structure Represents (h : Heap ℕ AlarmData) (v : Statics) (as : List ℕ) (t : Table) : Prop where
  list : Chain h v.alarmList as
  rows : h.values as = t.alarmList
  cursor : ∃ bs, bs <:+ as ∧ Chain h v.alarmaddr bs ∧ h.values bs = t.alarmaddr
  saveIndex : v.saveIndex = t.saveIndex
  saveUuid : v.saveUuid = t.saveUuid
  lastLoad : v.lastLoad = t.lastLoad

section Table

variable {c : TableCode} {h h' : Heap ℕ AlarmData} {v : Statics} {as : List ℕ} {t : Table}

theorem Represents.init (h : Heap ℕ AlarmData) : Represents h .init [] .init :=
  ⟨chain_nil, rfl, ⟨[], List.suffix_refl [], chain_nil, rfl⟩, rfl, rfl, rfl⟩

/-- A list stays as long as its nodes do. -/
theorem Represents.congr (hr : Represents h v as t)
    (hsame : ∀ a ∈ as, a ∈ h'.live ∧ h'.node a = h.node a) : Represents h' v as t := by
  have hvalues (bs : List ℕ) (hbs : bs ⊆ as) : h'.values bs = h.values bs :=
    values_congr fun a ha => congrArg Node.value (hsame a (hbs ha)).2
  obtain ⟨bs, hsuffix, hcursor, hrows⟩ := hr.cursor
  refine ⟨hr.list.congr hsame, ?_, ⟨bs, hsuffix, ?_, ?_⟩, hr.saveIndex, hr.saveUuid, hr.lastLoad⟩
  · rw [hvalues as (List.Subset.refl as), hr.rows]
  · exact hcursor.congr fun a ha => hsame a (hsuffix.subset ha)
  · rw [hvalues bs hsuffix.subset, hrows]

theorem Statics.scanNext_of_read (ptrs : ScanPtrs) {a : ℕ} {alm : Node ℕ AlarmData}
    (hadr : v.alarmaddr = some a) (hread : h.read a = some alm) :
    v.scanNext ptrs h = some (some (ptrs.write (ptrs.nextIndex v.saveIndex) alm.value),
      { v with
        saveUuid := strlcpy alm.value.uuid uuidSize, saveIndex := ptrs.nextIndex v.saveIndex,
        alarmaddr := alm.next }) := by
  rw [Statics.scanNext, hadr]
  show (h.read a).bind _ = _
  rw [hread]
  rfl

/-- A scan step reads a node of the list, and finds the row at the cursor there. -/
theorem Represents.scanNext (hr : Represents h v as t) (ptrs : ScanPtrs) :
    ∃ v', v.scanNext ptrs h = some ((FmAgent.scanNext ptrs t).map Prod.fst, v') ∧
      Represents h v' as (((FmAgent.scanNext ptrs t).map Prod.snd).getD t) := by
  obtain ⟨bs, hsuffix, hcursor, hrows⟩ := hr.cursor
  cases haddr : v.alarmaddr with
  | none =>
    -- the scan is at its end
    rw [haddr] at hcursor
    obtain rfl := hcursor.eq_nil
    rw [scanNext_nil ptrs hrows.symm]
    exact ⟨v, by rw [Statics.scanNext, haddr]; rfl, hr⟩
  | some a =>
    rw [haddr] at hcursor
    obtain ⟨ha, rest, rfl, -, hrest⟩ := hcursor.eq_cons
    have hcons : t.alarmaddr = (h.node a).value :: h.values rest := hrows.symm
    rw [scanNext_cons ptrs hcons, Statics.scanNext_of_read ptrs haddr (Heap.read_of_mem ha),
      hr.saveIndex]
    refine ⟨_, rfl, hr.list, hr.rows, ⟨rest, ?_, hrest, rfl⟩, rfl, rfl, hr.lastLoad⟩
    exact (List.suffix_cons a rest).trans hsuffix

/-! ## A load -/

/-- The nodes linked to a list hold the rows copied, at addresses that were not in use; the other
nodes in use stay. -/
theorem loadNodes_spec (alloc : Allocator ℕ) (allocated : ℕ → Bool) (i : ℕ)
    (alarms : List AlarmData) {s : Store ℕ AlarmData} (hchain : Chain s.heap s.head as) :
    ∃ s' bs, loadNodes alloc allocated i alarms (lastLink as) s = some s' ∧
      Chain s'.heap s'.head (as ++ bs) ∧
      s'.heap.values (as ++ bs) = s.heap.values as ++ loadRows allocated i alarms ∧
      ∀ b ∈ s.heap.live, b ∉ bs ∧ b ∈ s'.heap.live ∧
        (b ∉ as → s'.heap.node b = s.heap.node b) := by
  induction alarms generalizing i s as with
  | nil =>
    refine ⟨s, [], rfl, ?_, ?_, fun b hb => ⟨List.not_mem_nil, hb, fun _ => rfl⟩⟩
    · rwa [List.append_nil]
    · rw [loadRows, List.append_nil, List.append_nil]
  | cons alarm alarms ih =>
    rw [loadNodes, loadRows]
    by_cases halloc : allocated i = true
    · have hfresh := alloc.fresh i s.heap.live
      obtain ⟨s₁, h₁, hassign, hvalue, hchain₁, hvalues₁, hframe₁⟩ := hchain.snoc hfresh alarm
      -- the new node is the last one, and its link the next to be assigned
      obtain ⟨s', bs, hload, hchain', hvalues', hframe'⟩ :=
        ih (i + 1) (s := ⟨h₁, s₁.head⟩) hchain₁
      rw [lastLink_concat] at hload
      refine ⟨s', alloc.address i s.heap.live :: bs, ?_, ?_, ?_, ?_⟩
      · rw [if_pos halloc]
        show (Store.assign _ _ _).bind _ = _
        rw [hassign]
        show (s₁.heap.setValue _ _).bind _ = _
        rw [hvalue]
        exact hload
      · rwa [List.append_assoc] at hchain'
      · rw [if_pos halloc, List.append_cons, hvalues', hvalues₁, List.append_assoc]
        rfl
      · intro b hb
        have hne : b ≠ alloc.address i s.heap.live := ne_of_mem_of_not_mem hb hfresh
        obtain ⟨hb₁, hnode₁⟩ := hframe₁ b hb
        obtain ⟨hbs, hb', hnode'⟩ := hframe' b hb₁
        refine ⟨List.not_mem_cons_of_ne_of_not_mem hne hbs, hb', fun hnot => ?_⟩
        rw [hnode' (by simp [hnot, hne]), hnode₁ hnot]
    · -- the first failure ends the list
      refine ⟨s, [], if_neg halloc, ?_, ?_, fun b hb => ⟨List.not_mem_nil, hb, fun _ => rfl⟩⟩
      · rwa [List.append_nil]
      · rw [if_neg halloc, List.append_nil, List.append_nil]

theorem Statics.scanInit_of_skip {alloc : Allocator ℕ} {env : ScanEnv} {p : Plugin}
    (hskip : env.clock < v.lastLoad + c.minLoadFreq) :
    v.scanInit c alloc env h p =
      some (h, { v with saveIndex := 0, alarmaddr := v.alarmList }, p) :=
  if_pos hskip

/-- A load that is due asks the database when the old list has been freed. -/
theorem Statics.scanInit_of_due {alloc : Allocator ℕ} {env : ScanEnv} {p : Plugin}
    (hdue : v.lastLoad + c.minLoadFreq ≤ env.clock) (hfree : h.freeFrom v.alarmList = some h') :
    v.scanInit c alloc env h p =
      match queryRows c env.attempts retryCount 0 p with
      | (none, p') => some (h', ⟨none, none, 0, v.saveUuid, env.clock⟩, p')
      | (some alarms, p') =>
        (loadNodes alloc env.allocated 0 alarms .head ⟨h', none⟩).bind fun s =>
          some (s.heap, ⟨s.head, s.head, 0, v.saveUuid, env.clock⟩, p') := by
  rw [Statics.scanInit]
  show (if env.clock < v.lastLoad + c.minLoadFreq then _ else (h.freeFrom v.alarmList).bind _) = _
  rw [if_neg (Int.not_lt.mpr hdue), hfree]
  rfl

/-- A load frees the list and builds the next one; the nodes in use outside the list stay, and the
new list does not pass them. -/
theorem Represents.scanInit (hr : Represents h v as t) (alloc : Allocator ℕ) (env : ScanEnv)
    (p : Plugin) :
    ∃ h' v' as', v.scanInit c alloc env h p = some (h', v', (FmAgent.scanInit c env (t, p)).2) ∧
      Represents h' v' as' (FmAgent.scanInit c env (t, p)).1 ∧ v'.alarmaddr = v'.alarmList ∧
      ∀ b ∈ h.live, b ∉ as → b ∉ as' ∧ b ∈ h'.live ∧ h'.node b = h.node b := by
  obtain ⟨h₁, hfree, hnode₁, hlive₁⟩ := hr.list.freeFrom_eq
  obtain ⟨hskip, hlists⟩ | ⟨hdue, p', hquery, hlists⟩ | ⟨hdue, alarms, p', hquery, hlists⟩ :=
    scanInit_cases (c := c) env t p
  · rw [← hr.lastLoad] at hskip
    rw [hlists]
    refine ⟨h, _, as, Statics.scanInit_of_skip hskip, ?_, rfl, fun b hb hnot => ⟨hnot, hb, rfl⟩⟩
    exact ⟨hr.list, hr.rows, ⟨as, List.suffix_refl as, hr.list, hr.rows⟩, rfl, hr.saveUuid,
      hr.lastLoad⟩
  · -- no attempt obtains rows, and the list stays empty
    rw [← hr.lastLoad] at hdue
    rw [hlists]
    rw [Statics.scanInit_of_due hdue hfree, hquery]
    refine ⟨h₁, _, [], rfl, ?_, rfl, ?_⟩
    · exact ⟨chain_nil, rfl, ⟨[], List.suffix_refl [], chain_nil, rfl⟩, rfl, hr.saveUuid, rfl⟩
    · intro b hb hnot
      exact ⟨List.not_mem_nil, (hlive₁ b).mpr ⟨hb, hnot⟩, congrFun hnode₁ b⟩
  · rw [← hr.lastLoad] at hdue
    rw [hlists]
    obtain ⟨s', bs, hload, hchain, hvalues, hframe⟩ :=
      loadNodes_spec alloc env.allocated 0 alarms (s := ⟨h₁, none⟩) chain_nil
    rw [lastLink_nil] at hload
    refine ⟨s'.heap, ⟨s'.head, s'.head, 0, v.saveUuid, env.clock⟩, bs, ?_, ?_, rfl, ?_⟩
    · rw [Statics.scanInit_of_due hdue hfree, hquery]
      show (loadNodes alloc env.allocated 0 alarms .head ⟨h₁, none⟩).bind _ = _
      rw [hload]
      rfl
    · exact ⟨hchain, hvalues, ⟨bs, List.suffix_refl bs, hchain, hvalues⟩, rfl, hr.saveUuid, rfl⟩
    · intro b hb hnot
      obtain ⟨hbs, hlive, hnode⟩ := hframe b ((hlive₁ b).mpr ⟨hb, hnot⟩)
      exact ⟨hbs, hlive, (hnode List.not_mem_nil).trans (congrFun hnode₁ b)⟩

end Table

/-! ## Both lists -/

/-- The statics of both tables as their rows have them, and the session. -/
structure Lists where
  tables : TableKind → Table
  plugin : Plugin

namespace Lists

def init (p : Plugin) : Lists := ⟨fun _ => .init, p⟩

def step (s : Lists) : ScanCall → Lists
  | .init kind _ env =>
    let (t, p) := scanInit kind.code env (s.tables kind, s.plugin)
    ⟨Function.update s.tables kind t, p⟩
  | .next kind ptrs =>
    let t := ((scanNext ptrs (s.tables kind)).map Prod.snd).getD (s.tables kind)
    ⟨Function.update s.tables kind t, s.plugin⟩

end Lists

/-- The memory holds both lists, with no node in common. -/
structure Refines (m : Memory) (s : Lists) (nodes : TableKind → List ℕ) : Prop where
  represents : ∀ kind, Represents m.heap (m.statics kind) (nodes kind) (s.tables kind)
  disjoint : ∀ kind kind', kind ≠ kind' → (nodes kind).Disjoint (nodes kind')
  plugin : m.plugin = s.plugin

section Refines

variable {m : Memory} {s : Lists} {nodes : TableKind → List ℕ}

theorem Refines.init (p : Plugin) : Refines (.init p) (.init p) fun _ => [] :=
  ⟨fun _ => Represents.init _, fun _ _ _ _ h => absurd h List.not_mem_nil, rfl⟩

/-- A load goes on with the statics of its table. -/
theorem Memory.scanInit_of_statics {kind : TableKind} {alloc : Allocator ℕ} {env : ScanEnv}
    {h : Heap ℕ AlarmData} {v : Statics} {p : Plugin}
    (hinit : (m.statics kind).scanInit kind.code alloc env m.heap m.plugin = some (h, v, p)) :
    m.scanInit kind alloc env = some ⟨h, Function.update m.statics kind v, p⟩ := by
  show ((m.statics kind).scanInit kind.code alloc env m.heap m.plugin).bind _ = _
  rw [hinit]
  rfl

/-- A load of one list leaves the other. -/
theorem Refines.scanInit (hm : Refines m s nodes) (kind : TableKind) (alloc : Allocator ℕ)
    (env : ScanEnv) :
    ∃ m' nodes', m.scanInit kind alloc env = some m' ∧
      Refines m' (s.step (.init kind alloc env)) nodes' ∧
      (m'.statics kind).alarmaddr = (m'.statics kind).alarmList := by
  obtain ⟨h', v', as', hinit, hrep, hcursor, hframe⟩ :=
    (hm.represents kind).scanInit (c := kind.code) alloc env m.plugin
  -- the nodes of the other list are in use, and not of this one
  have hother (kind' : TableKind) (hne : kind' ≠ kind) (b : ℕ) (hb : b ∈ nodes kind') :
      b ∉ as' ∧ b ∈ h'.live ∧ h'.node b = m.heap.node b :=
    hframe b ((hm.represents kind').list.seg.mem_live hb)
      fun hmem => hm.disjoint kind' kind hne hb hmem
  refine ⟨⟨h', Function.update m.statics kind v',
    (FmAgent.scanInit kind.code env (s.tables kind, m.plugin)).2⟩,
    Function.update nodes kind as', Memory.scanInit_of_statics hinit, ⟨?_, ?_, ?_⟩, ?_⟩
  · intro kind'
    by_cases hkind : kind' = kind
    · subst hkind
      simpa [Lists.step, hm.plugin] using hrep
    · simp only [Lists.step, Function.update_of_ne hkind]
      exact (hm.represents kind').congr fun b hb => (hother kind' hkind b hb).2
  · intro k k' hne
    by_cases hk : k = kind
    · subst hk
      rw [Function.update_self, Function.update_of_ne hne.symm]
      intro b hb hb'
      exact (hother k' hne.symm b hb').1 hb
    · by_cases hk' : k' = kind
      · subst hk'
        rw [Function.update_self, Function.update_of_ne hne]
        intro b hb hb'
        exact (hother k hne b hb).1 hb'
      · rw [Function.update_of_ne hk, Function.update_of_ne hk']
        exact hm.disjoint k k' hne
  · simp [Lists.step, hm.plugin]
  · simpa using hcursor

/-- A scan step on one list leaves the nodes of both. -/
theorem Refines.scanNext (hm : Refines m s nodes) (kind : TableKind) (ptrs : ScanPtrs) :
    ∃ m', m.scanNext kind ptrs =
        some ((FmAgent.scanNext ptrs (s.tables kind)).map Prod.fst, m') ∧
      Refines m' (s.step (.next kind ptrs)) nodes := by
  obtain ⟨v', hnext, hrep⟩ := (hm.represents kind).scanNext ptrs
  refine ⟨{ m with statics := Function.update m.statics kind v' }, ?_, ?_, hm.disjoint,
    hm.plugin⟩
  · show ((m.statics kind).scanNext ptrs m.heap).bind _ = _
    rw [hnext]
    rfl
  · intro kind'
    by_cases hkind : kind' = kind
    · subst hkind
      simpa [Lists.step] using hrep
    · simpa only [Lists.step, Function.update_of_ne hkind] using hm.represents kind'

/-- A call succeeds and does to the memory what it does to the rows. -/
theorem Refines.step (hm : Refines m s nodes) (call : ScanCall) :
    ∃ m' nodes', m.step call = some m' ∧ Refines m' (s.step call) nodes' := by
  cases call with
  | init kind alloc env =>
    obtain ⟨m', nodes', hinit, hm', -⟩ := hm.scanInit kind alloc env
    exact ⟨m', nodes', hinit, hm'⟩
  | next kind ptrs =>
    obtain ⟨m', hnext, hm'⟩ := hm.scanNext kind ptrs
    refine ⟨m', nodes, ?_, hm'⟩
    rw [Memory.step, hnext]
    rfl

/-- No run of calls accesses a freed node, and each leaves the lists with the rows. -/
theorem Refines.run (hm : Refines m s nodes) (calls : List ScanCall) :
    ∃ m' nodes', calls.foldlM Memory.step m = some m' ∧
      Refines m' (calls.foldl Lists.step s) nodes' := by
  induction calls generalizing m s nodes with
  | nil => exact ⟨m, nodes, rfl, hm⟩
  | cons call calls ih =>
    obtain ⟨m₁, nodes₁, hstep, hm₁⟩ := hm.step call
    obtain ⟨m', nodes', hrun, hm'⟩ := ih hm₁
    refine ⟨m', nodes', ?_, hm'⟩
    rw [List.foldlM_cons, hstep]
    exact hrun

end Refines

end StxSnmp.FmAgent
