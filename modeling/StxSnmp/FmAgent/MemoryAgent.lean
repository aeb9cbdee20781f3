import Mathlib.Data.Finset.Lattice.Fold
import Mathlib.Order.Lattice.Nat
import StxSnmp.FmAgent.Memory

/-!
# The sub-agent in memory

Requests reach the lists only through the scan functions: the count walks the list to its end, the
lookup as far as the row asked for. Here the whole sub-agent runs on the heap, and is compared with
the sub-agent on rows.

## Main definitions

* `Memory.countRows`, `Memory.scanUntil`: the two loops, going through memory
* `MemoryAgent`, `MemoryAgent.varTable`: the sub-agent on the heap, serving requests to both tables
* `Holds`: a memory with both lists, and no other node in use
* `MemoryAgent.Mirrors`: a state of the sub-agent on the heap that holds one on rows

## Main results

* `Holds.scanInit`: a load leaves no node behind
* `MemoryAgent.Mirrors.varTable`: a request is served as on rows
* `memoryAgent_run`: so is every run of requests, without an access to a freed node
* `memoryAgent_no_leak`: after every run the nodes in use are those of the rows held
-/

namespace StxSnmp.FmAgent

open LinkedList MachineInt Transducer

/-! ## The code -/

namespace Memory

/-- The steps of a scan that goes to the end of a list: each node in use once, and the end. -/
def scanSteps (m : Memory) : ℕ := m.heap.live.card + 1

/-- The loop of `Active_Alarm_Get_Count`, for so many steps; `none` is an access to a freed node,
or more steps than a list with an end takes. -/
def countRows (kind : TableKind) : ℕ → ℕ → Memory → Option (ℕ × Memory)
  | 0, _, _ => none
  | n + 1, count, m => do
    let (result, m) ← m.scanNext kind .null
    match result with
    | none => some (count, m)
    | some _ => countRows kind n (count + 1) m

/-- The loop of `Alarm_Scan_By_Index`, for so many steps. -/
def scanUntil (kind : TableKind) (index : ℤ) : ℕ → ScanPtrs → Memory → Option (ScanPtrs × Memory)
  | 0, _, _ => none
  | n + 1, ptrs, m => do
    let (result, m) ← m.scanNext kind ptrs
    match result with
    | none => some (ptrs, m)
    | some ptrs =>
      if ptrs.index = some index then some (ptrs, m) else scanUntil kind index n ptrs m

/-- `Alarm_Scan_By_Index`, `Event_Log_Scan_By_Index` -/
def scanByIndex (kind : TableKind) (index i : ℤ) (name : List UInt8) (aalm : AlarmData)
    (alloc : Allocator ℕ) (env : ScanEnv) (m : Memory) :
    Option ((ℤ × List UInt8 × AlarmData) × Memory) := do
  let m ← m.scanInit kind alloc env
  let (ptrs, m) ← m.scanUntil kind index m.scanSteps ⟨some i, some name, some aalm⟩
  some ((if ptrs.index ≠ some index then -1 else 0, ptrs.name.getD [], ptrs.aalm.getD default), m)

end Memory

/-- The statics of a table that hold no pointer: the count and its time, and the buffers of the
last answer. -/
structure Answers where
  count : ℕ
  scanTime : ℤ
  alrm : AlarmData
  name : List UInt8

def Table.answers (t : Table) : Answers := ⟨t.count, t.scanTime, t.alrm, t.name⟩

/-- The sub-agent on the heap. -/
structure MemoryAgent where
  memory : Memory
  answers : TableKind → Answers

/-- A request, with the addresses given to the nodes of its two loads. -/
structure MemoryRequest where
  kind : TableKind
  env : RequestEnv
  request : Request
  countAlloc : Allocator ℕ
  indexAlloc : Allocator ℕ

namespace MemoryAgent

def init (created : Bool) : Option MemoryAgent :=
  (initSnmpAgentPlugin created).map fun plugin => ⟨.init plugin, fun _ => ⟨0, 0, default, []⟩⟩

/-- `Active_Alarm_Get_Count`, `Event_Log_Get_Count` -/
def getCount (kind : TableKind) (timeNow : ℤ) (alloc : Allocator ℕ) (env : ScanEnv)
    (a : MemoryAgent) : Option (ℤ × MemoryAgent) :=
  let v := a.answers kind
  if v.count = 0 ∨ timeNow > v.scanTime + 60 then do
    let m ← a.memory.scanInit kind alloc env
    let (count, m) ← m.countRows kind m.scanSteps 0
    some (cInt count,
      ⟨m, Function.update a.answers kind { v with scanTime := timeNow, count := count }⟩)
  else some (cInt v.count, a)

/-- `var_alarms`, `var_events` -/
def varTable (dateNTime : ℤ → List UInt8) (q : MemoryRequest) (a : MemoryAgent) :
    Option (MemoryAgent × Response) := do
  let (count, a) ← a.getCount q.kind q.env.timeNow q.countAlloc q.env.countScan
  let h := headerEntry q.env.oids count q.request
  if h.index = matchFailed then some (a, ⟨none, h.name, h.varLen, h.writeMethod⟩)
  else do
    let v := a.answers q.kind
    let ((_, name, alrm), m) ←
      a.memory.scanByIndex q.kind h.index q.env.i v.name v.alrm q.indexAlloc q.env.indexScan
    let a := ⟨m, Function.update a.answers q.kind { v with name := name, alrm := alrm }⟩
    match q.kind.entryValue dateNTime q.request.vp.magic h.index name alrm with
    | some value => some (a, ⟨some value, h.name, value.varLen h.varLen, h.writeMethod⟩)
    | none => some (a, ⟨none, h.name, h.varLen, h.writeMethod⟩)

/-- The requests of a run in order, with the replies. -/
def run (dateNTime : ℤ → List UInt8) :
    List MemoryRequest → MemoryAgent → Option (MemoryAgent × List Response)
  | [], a => some (a, [])
  | q :: qs, a => do
    let (a, reply) ← a.varTable dateNTime q
    let (a, replies) ← run dateNTime qs a
    some (a, reply :: replies)

end MemoryAgent

/-! ## The lists during a request -/

namespace Lists

/-- What the functions of one table take and give. -/
def get (s : Lists) (kind : TableKind) : Table × Plugin := (s.tables kind, s.plugin)

def put (s : Lists) (kind : TableKind) (x : Table × Plugin) : Lists :=
  ⟨Function.update s.tables kind x.1, x.2⟩

@[simp] theorem get_put (s : Lists) (kind : TableKind) (x : Table × Plugin) :
    (s.put kind x).get kind = x := by
  simp [get, put]

@[simp] theorem put_put (s : Lists) (kind : TableKind) (x y : Table × Plugin) :
    (s.put kind x).put kind y = s.put kind y := by
  simp [put]

@[simp] theorem put_get (s : Lists) (kind : TableKind) : s.put kind (s.get kind) = s := by
  simp [get, put]

@[simp] theorem put_plugin (s : Lists) (kind : TableKind) (x : Table × Plugin) :
    (s.put kind x).plugin = x.2 :=
  rfl

@[simp] theorem put_tables (s : Lists) (kind : TableKind) (x : Table × Plugin) :
    (s.put kind x).tables kind = x.1 :=
  Function.update_self ..

theorem put_tables_of_ne (s : Lists) {kind kind' : TableKind} (x : Table × Plugin)
    (h : kind' ≠ kind) : (s.put kind x).tables kind' = s.tables kind' :=
  Function.update_of_ne h ..

end Lists

/-- The memory holds both lists, and no node besides theirs is in use. -/
structure Holds (m : Memory) (s : Lists) (nodes : TableKind → List ℕ) : Prop
    extends Refines m s nodes where
  owned : ∀ b ∈ m.heap.live, ∃ kind, b ∈ nodes kind

section Lists

variable {m : Memory} {s : Lists} {nodes : TableKind → List ℕ}

theorem Holds.init (p : Plugin) : Holds (.init p) (.init p) fun _ => [] :=
  ⟨Refines.init p, fun b hb => absurd hb (Finset.notMem_empty b)⟩

/-- The nodes of a load are on its list, or were in use before. -/
theorem loadNodes_live {alloc : Allocator ℕ} {allocated : ℕ → Bool} {i : ℕ}
    {alarms : List AlarmData} {st st' : Store ℕ AlarmData} {as as' : List ℕ}
    (hload : loadNodes alloc allocated i alarms (lastLink as) st = some st')
    (hchain : Chain st.heap st.head as) (hchain' : Chain st'.heap st'.head as') :
    ∀ b ∈ st'.heap.live, b ∈ st.heap.live ∨ b ∈ as' := by
  induction alarms generalizing i st as with
  | nil =>
    cases hload
    exact fun b hb => Or.inl hb
  | cons alarm alarms ih =>
    rw [loadNodes] at hload
    by_cases halloc : allocated i = true
    · have hfresh := alloc.fresh i st.heap.live
      obtain ⟨st₁, h₁, hassign, hvalue, hchain₁, -, -⟩ := hchain.snoc hfresh alarm
      have hlive₁ : h₁.live = insert (alloc.address i st.heap.live) st.heap.live := by
        rw [Heap.setValue_live hvalue, Store.assign_live hassign]
        rfl
      replace hload : loadNodes alloc allocated (i + 1) alarms
          (.next (alloc.address i st.heap.live)) ⟨h₁, st₁.head⟩ = some st' := by
        rw [if_pos halloc] at hload
        change (Store.assign _ _ _).bind _ = _ at hload
        rw [hassign] at hload
        change (st₁.heap.setValue _ _).bind _ = _ at hload
        rw [hvalue] at hload
        exact hload
      rw [← lastLink_concat as] at hload
      -- the new node stays on the list while the rest is linked
      have hmem : alloc.address i st.heap.live ∈ as' := by
        obtain ⟨st'', bs, hload'', hchain'', -, -⟩ :=
          loadNodes_spec alloc allocated (i + 1) alarms (s := ⟨h₁, st₁.head⟩) hchain₁
        rw [hload] at hload''
        obtain rfl := Option.some.inj hload''
        rw [hchain'.unique hchain'']
        simp
      intro b hb
      rcases ih hload hchain₁ b hb with hb | hb
      · rcases Finset.mem_insert.mp (hlive₁ ▸ hb) with rfl | hb
        · exact Or.inr hmem
        · exact Or.inl hb
      · exact Or.inr hb
    · rw [if_neg halloc] at hload
      cases hload
      exact fun b hb => Or.inl hb

/-- After a load the nodes in use are on the list, or were in use before and not on it. -/
theorem Represents.scanInit_live {c : TableCode} {h h' : Heap ℕ AlarmData} {v v' : Statics}
    {as as' : List ℕ} {t : Table} {alloc : Allocator ℕ} {env : ScanEnv} {p p' : Plugin}
    (hr : Represents h v as t) (hinit : v.scanInit c alloc env h p = some (h', v', p'))
    (hchain' : Chain h' v'.alarmList as') :
    ∀ b ∈ h'.live, b ∈ as' ∨ (b ∈ h.live ∧ b ∉ as) := by
  intro b hb
  by_cases hskip : env.clock < v.lastLoad + c.minLoadFreq
  · rw [Statics.scanInit_of_skip hskip] at hinit
    cases hinit
    obtain rfl := hr.list.unique hchain'
    by_cases hmem : b ∈ as
    · exact Or.inl hmem
    · exact Or.inr ⟨hb, hmem⟩
  · obtain ⟨h₁, hfree, -, hlive₁⟩ := hr.list.freeFrom_eq
    rw [Statics.scanInit_of_due (Int.not_lt.mp hskip) hfree] at hinit
    rcases hquery : queryRows c env.attempts retryCount 0 p with ⟨_ | alarms, p₁⟩
    · rw [hquery] at hinit
      cases hinit
      exact Or.inr ((hlive₁ b).mp hb)
    · rw [hquery] at hinit
      obtain ⟨st, hload, hst⟩ := Option.bind_eq_some_iff.mp hinit
      cases hst
      rw [← lastLink_nil] at hload
      rcases loadNodes_live hload chain_nil hchain' b hb with hb | hb
      · exact Or.inr ((hlive₁ b).mp hb)
      · exact Or.inl hb

/-- A load leaves no node behind. -/
theorem Holds.scanInit (hm : Holds m s nodes) (kind : TableKind) (alloc : Allocator ℕ)
    (env : ScanEnv) :
    ∃ m' nodes', m.scanInit kind alloc env = some m' ∧
      Holds m' (s.put kind (FmAgent.scanInit kind.code env (s.get kind))) nodes' := by
  obtain ⟨m', nodes', hinit, hm', -⟩ := hm.toRefines.scanInit kind alloc env
  refine ⟨m', nodes', hinit, hm', fun b hb => ?_⟩
  obtain ⟨h', v', as', hstatics, -, -, hframe⟩ :=
    (hm.represents kind).scanInit (c := kind.code) alloc env m.plugin
  rw [Memory.scanInit_of_statics hstatics] at hinit
  cases hinit
  have hlist : Chain h' v'.alarmList (nodes' kind) := by
    simpa only [Function.update_self] using (hm'.represents kind).list
  rcases (hm.represents kind).scanInit_live hstatics hlist b hb with hmem | ⟨hlive, hnot⟩
  · exact ⟨kind, hmem⟩
  · -- a node of the other list, which the load leaves
    obtain ⟨kind', hmem⟩ := hm.owned b hlive
    have hkind : kind' ≠ kind := by
      rintro rfl
      exact hnot hmem
    have hother : Chain h' (m.statics kind').alarmList (nodes kind') := by
      refine (hm.represents kind').list.congr fun b' hb' => ?_
      have hlive' := (hm.represents kind').list.seg.mem_live hb'
      exact (hframe b' hlive' fun hb => hm.disjoint kind' kind hkind hb' hb).2
    have hlist' : Chain h' (m.statics kind').alarmList (nodes' kind') := by
      simpa only [Function.update_of_ne hkind] using (hm'.represents kind').list
    exact ⟨kind', hlist'.unique hother ▸ hmem⟩

theorem Holds.scanNext (hm : Holds m s nodes) (kind : TableKind) (ptrs : ScanPtrs) :
    ∃ m', m.scanNext kind ptrs =
        some ((FmAgent.scanNext ptrs (s.tables kind)).map Prod.fst, m') ∧
      Holds m' (s.put kind (((FmAgent.scanNext ptrs (s.tables kind)).map Prod.snd).getD
        (s.tables kind), s.plugin)) nodes := by
  obtain ⟨m', hnext, hm'⟩ := hm.toRefines.scanNext kind ptrs
  refine ⟨m', hnext, hm', ?_⟩
  obtain ⟨⟨result, v⟩, -, hsome⟩ := Option.bind_eq_some_iff.mp hnext
  cases hsome
  exact hm.owned

/-- What a memory holds does not tell the count, its time and the buffers. -/
theorem Holds.congr_answers (hm : Holds m s nodes) (kind : TableKind) (count : ℕ) (scanTime : ℤ)
    (alrm : AlarmData) (name : List UInt8) :
    Holds m (s.put kind ({ s.tables kind with
      count := count, scanTime := scanTime, alrm := alrm, name := name }, s.plugin)) nodes := by
  refine ⟨⟨fun kind' => ?_, hm.disjoint, hm.plugin⟩, hm.owned⟩
  by_cases hkind : kind' = kind
  · subst hkind
    rw [Lists.put_tables]
    obtain ⟨hlist, hrows, hcursor, hindex, huuid, hload⟩ := hm.represents kind'
    exact ⟨hlist, hrows, hcursor, hindex, huuid, hload⟩
  · rw [Lists.put_tables_of_ne s _ hkind]
    exact hm.represents kind'

/-- A scan step leaves the count. -/
theorem scanNext_count {ptrs ptrs' : ScanPtrs} {t t' : Table}
    (h : FmAgent.scanNext ptrs t = some (ptrs', t')) : t'.count = t.count := by
  rw [FmAgent.scanNext] at h
  split at h
  · cases h
  · cases h
    rfl

/-- The steps of a scan reach the end of either list. -/
theorem Holds.lt_scanSteps (hm : Holds m s nodes) (kind : TableKind) :
    (s.tables kind).alarmaddr.length < m.scanSteps := by
  obtain ⟨bs, -, hcursor, hrows⟩ := (hm.represents kind).cursor
  rw [← hrows, Heap.values, List.length_map]
  exact Nat.lt_succ_of_le hcursor.length_le

/-- The count in memory is the count of the rows. -/
theorem Holds.countRows (hm : Holds m s nodes) (kind : TableKind) {n : ℕ}
    (hn : (s.tables kind).alarmaddr.length < n) :
    ∃ m', m.countRows kind n (s.tables kind).count =
        some ((FmAgent.countRows (s.tables kind)).count, m') ∧
      Holds m' (s.put kind (FmAgent.countRows (s.tables kind), s.plugin)) nodes := by
  obtain ⟨n, rfl⟩ := Nat.exists_eq_add_one_of_ne_zero (Nat.ne_zero_of_lt hn)
  -- one row less from the cursor on with every step
  induction ht : s.tables kind using FmAgent.countRows.induct generalizing m s n with
  | case1 t hnext =>
    obtain ⟨m', hstep, hm'⟩ := hm.scanNext kind .null
    rw [ht, hnext] at hstep hm'
    rw [FmAgent.countRows, hnext]
    refine ⟨m', ?_, hm'⟩
    rw [Memory.countRows]
    show (m.scanNext kind .null).bind _ = _
    rw [hstep]
    rfl
  | case2 t ptrs t' hnext ih =>
    obtain ⟨m₁, hstep, hm₁⟩ := hm.scanNext kind .null
    rw [ht, hnext] at hstep hm₁
    have hcounted := hm₁.congr_answers kind (t'.count + 1) t'.scanTime t'.alrm t'.name
    have hfewer := scanNext_length hnext
    rw [ht] at hn
    obtain ⟨n, rfl⟩ := Nat.exists_eq_add_one_of_ne_zero (show n ≠ 0 by omega)
    have hleft : t'.alarmaddr.length < n + 1 := by omega
    obtain ⟨m', hrun, hm'⟩ := ih hcounted n (by simpa using hleft) (by simp)
    rw [FmAgent.countRows, hnext]
    refine ⟨m', ?_, by simpa using hm'⟩
    rw [Memory.countRows]
    show (m.scanNext kind .null).bind _ = _
    rw [hstep]
    show m₁.countRows kind (n + 1) (t.count + 1) = _
    rw [← scanNext_count hnext]
    simpa using hrun

/-- The lookup in memory stops where the lookup on rows does, with the same row. -/
theorem Holds.scanUntil (hm : Holds m s nodes) (kind : TableKind) (index : ℤ) (ptrs : ScanPtrs)
    {n : ℕ} (hn : (s.tables kind).alarmaddr.length < n) :
    ∃ m', m.scanUntil kind index n ptrs =
        some ((FmAgent.scanUntil index ptrs (s.tables kind)).1, m') ∧
      Holds m' (s.put kind ((FmAgent.scanUntil index ptrs (s.tables kind)).2, s.plugin)) nodes := by
  obtain ⟨n, rfl⟩ := Nat.exists_eq_add_one_of_ne_zero (Nat.ne_zero_of_lt hn)
  generalize ht : s.tables kind = t at hn ⊢
  induction ptrs, t using FmAgent.scanUntil.induct index generalizing m s n with
  | case1 ptrs t hnext =>
    obtain ⟨m', hstep, hm'⟩ := hm.scanNext kind ptrs
    rw [ht, hnext] at hstep hm'
    rw [FmAgent.scanUntil, hnext]
    refine ⟨m', ?_, hm'⟩
    rw [Memory.scanUntil]
    show (m.scanNext kind ptrs).bind _ = _
    rw [hstep]
    rfl
  | case2 ptrs t ptrs' t' hnext hhit =>
    obtain ⟨m', hstep, hm'⟩ := hm.scanNext kind ptrs
    rw [ht, hnext] at hstep hm'
    have hrows : FmAgent.scanUntil index ptrs t = (ptrs', t') := by
      rw [FmAgent.scanUntil, hnext]
      exact if_pos hhit
    rw [hrows]
    refine ⟨m', ?_, hm'⟩
    rw [Memory.scanUntil]
    show (m.scanNext kind ptrs).bind _ = _
    rw [hstep]
    exact if_pos hhit
  | case3 ptrs t ptrs' t' hnext hmiss ih =>
    obtain ⟨m₁, hstep, hm₁⟩ := hm.scanNext kind ptrs
    rw [ht, hnext] at hstep hm₁
    have hfewer := scanNext_length hnext
    obtain ⟨n, rfl⟩ := Nat.exists_eq_add_one_of_ne_zero (show n ≠ 0 by omega)
    obtain ⟨m', hrun, hm'⟩ := ih hm₁ n (by simp) (by omega)
    have hrows : FmAgent.scanUntil index ptrs t = FmAgent.scanUntil index ptrs' t' := by
      rw [FmAgent.scanUntil, hnext]
      exact if_neg hmiss
    rw [hrows]
    refine ⟨m', ?_, by simpa using hm'⟩
    rw [Memory.scanUntil]
    show (m.scanNext kind ptrs).bind _ = _
    rw [hstep]
    show (if ptrs'.index = some index then _ else m₁.scanUntil kind index (n + 1) ptrs') = _
    rw [if_neg hmiss, hrun]

/-- Looking up an index in memory gives what it gives on rows. -/
theorem Holds.scanByIndex (hm : Holds m s nodes) (kind : TableKind) (index i : ℤ)
    (name : List UInt8) (aalm : AlarmData) (alloc : Allocator ℕ) (env : ScanEnv) :
    ∃ m' nodes', m.scanByIndex kind index i name aalm alloc env =
        some ((FmAgent.scanByIndex kind.code index i name aalm env (s.get kind)).1, m') ∧
      Holds m' (s.put kind
        (FmAgent.scanByIndex kind.code index i name aalm env (s.get kind)).2) nodes' := by
  obtain ⟨m₁, nodes', hinit, hm₁⟩ := hm.scanInit kind alloc env
  obtain ⟨m', hscan, hm'⟩ :=
    hm₁.scanUntil kind index ⟨some i, some name, some aalm⟩ (hm₁.lt_scanSteps kind)
  rw [Lists.put_tables] at hscan hm'
  rw [Lists.put_put] at hm'
  refine ⟨m', nodes', ?_, hm'⟩
  rw [Memory.scanByIndex, hinit]
  show (m₁.scanUntil kind index m₁.scanSteps ⟨some i, some name, some aalm⟩).bind _ = _
  rw [hscan]
  rfl

end Lists

/-! ## The sub-agent -/

namespace MemoryAgent

/-- The memory holds the lists of `s` and no more, and the other statics are those of `s`. -/
structure Mirrors (a : MemoryAgent) (s : Lists) (nodes : TableKind → List ℕ) : Prop where
  holds : Holds a.memory s nodes
  answers : ∀ kind, a.answers kind = (s.tables kind).answers

variable {a : MemoryAgent} {s : Lists} {nodes : TableKind → List ℕ}

/-- The functions of one table leave the statics of the other. -/
theorem Mirrors.put (ha : a.Mirrors s nodes) {kind : TableKind} {m' : Memory} {x : Table × Plugin}
    {nodes' : TableKind → List ℕ} (hm' : Holds m' (s.put kind x) nodes') :
    Mirrors ⟨m', Function.update a.answers kind x.1.answers⟩ (s.put kind x) nodes' := by
  refine ⟨hm', fun kind' => ?_⟩
  by_cases hkind : kind' = kind
  · subst hkind
    simp
  · rw [Lists.put_tables_of_ne s x hkind, ← ha.answers kind']
    exact Function.update_of_ne hkind ..

theorem scanInit_answers (c : TableCode) (env : ScanEnv) (x : Table × Plugin) :
    (FmAgent.scanInit c env x).1.answers = x.1.answers := by
  obtain ⟨hcount, htime, halrm, hname⟩ := scanInit_frame (c := c) env x
  rw [Table.answers, hcount, htime, halrm, hname]
  rfl

theorem countRows_answers (t : Table) :
    (countRows t).answers = { t.answers with count := (countRows t).count } := by
  obtain ⟨u, hu⟩ := countRows_spec t
  rw [hu]
  rfl

/-- A count is taken as on rows. -/
theorem Mirrors.getCount (ha : a.Mirrors s nodes) (kind : TableKind) (timeNow : ℤ)
    (alloc : Allocator ℕ) (env : ScanEnv) :
    ∃ a' nodes', a.getCount kind timeNow alloc env =
        some ((FmAgent.getCount kind.code timeNow env (s.get kind)).1, a') ∧
      a'.Mirrors (s.put kind (FmAgent.getCount kind.code timeNow env (s.get kind)).2) nodes' := by
  have hanswers := ha.answers kind
  by_cases hdue : RecountDue timeNow (s.tables kind)
  · have htimed := ha.holds.congr_answers kind (s.tables kind).count timeNow (s.tables kind).alrm
      (s.tables kind).name
    obtain ⟨m₁, nodes', hinit, hm₁⟩ := htimed.scanInit kind alloc env
    rw [Lists.get_put, Lists.put_put] at hm₁
    rcases hload : FmAgent.scanInit kind.code env
      ({ s.tables kind with scanTime := timeNow }, s.plugin) with ⟨t, p⟩
    rw [hload] at hm₁
    have hzero := hm₁.congr_answers kind 0 t.scanTime t.alrm t.name
    obtain ⟨m', hcount, hm'⟩ := hzero.countRows kind (hzero.lt_scanSteps kind)
    simp only [Lists.put_tables, Lists.put_plugin, Lists.put_put] at hcount hm'
    have hget : FmAgent.getCount kind.code timeNow env (s.get kind) =
        (cInt (countRows { t with count := 0 }).count, (countRows { t with count := 0 }, p)) := by
      rw [Lists.get, FmAgent.getCount]
      refine (if_pos hdue).trans ?_
      rw [hload]
    -- the load and the count leave the buffers
    have hkept : (countRows { t with count := 0 }).answers =
        { (s.tables kind).answers with
          count := (countRows { t with count := 0 }).count, scanTime := timeNow } := by
      have hframe := scanInit_answers kind.code env
        ({ s.tables kind with scanTime := timeNow }, s.plugin)
      rw [hload] at hframe
      rw [countRows_answers]
      show ({ t.answers with count := (countRows { t with count := 0 }).count } : Answers) = _
      rw [hframe]
      rfl
    rw [hget]
    refine ⟨_, nodes', ?_, ha.put hm'⟩
    rw [MemoryAgent.getCount, hanswers]
    refine (if_pos hdue).trans ?_
    rw [hinit]
    show (m₁.countRows kind m₁.scanSteps 0).bind _ = _
    simp only [hcount, hkept, Option.bind_some]
  · rw [Lists.get, getCount_cached env hdue]
    refine ⟨a, nodes, ?_, ?_⟩
    · unfold RecountDue at hdue
      simp only [MemoryAgent.getCount, hanswers, Table.answers, if_neg hdue]
    · show a.Mirrors (s.put kind (s.get kind)) nodes
      rwa [Lists.put_get]

theorem scanByIndex_answers (c : TableCode) (index i : ℤ) (name : List UInt8) (aalm : AlarmData)
    (env : ScanEnv) (x : Table × Plugin) :
    (FmAgent.scanByIndex c index i name aalm env x).2.1.answers = x.1.answers := by
  obtain ⟨⟨addr, j, u, htable⟩, -⟩ := scanByIndex_frame c index i name aalm env x
  rw [htable, ← scanInit_answers c env x]
  rfl

/-- A request is served as on rows. -/
theorem Mirrors.varTable (dateNTime : ℤ → List UInt8) (ha : a.Mirrors s nodes)
    (q : MemoryRequest) :
    ∃ a' nodes', a.varTable dateNTime q = some (a', (FmAgent.varTable q.kind.code
          (q.kind.entryValue dateNTime) q.env q.request (s.get q.kind)).2) ∧
      a'.Mirrors (s.put q.kind (FmAgent.varTable q.kind.code
        (q.kind.entryValue dateNTime) q.env q.request (s.get q.kind)).1) nodes' := by
  obtain ⟨a₁, nodes₁, hcount, ha₁⟩ :=
    ha.getCount q.kind q.env.timeNow q.countAlloc q.env.countScan
  rcases hget : FmAgent.getCount q.kind.code q.env.timeNow q.env.countScan (s.get q.kind) with
    ⟨count, x⟩
  rw [hget] at hcount ha₁
  obtain hsearch | ⟨index, -, -, hsearch⟩ := headerEntry_cases q.env.oids count q.request
  · rw [varTable_of_notFound hget hsearch]
    refine ⟨a₁, nodes₁, ?_, ha₁⟩
    rw [MemoryAgent.varTable, hcount]
    show (if (headerEntry q.env.oids count q.request).index = matchFailed then _ else _) = _
    rw [hsearch]
    rfl
  · obtain ⟨m', nodes', hscan, hm'⟩ := ha₁.holds.scanByIndex q.kind index q.env.i x.1.name
      x.1.alrm q.indexAlloc q.env.indexScan
    rw [Lists.get_put] at hm' hscan
    rcases hrows : FmAgent.scanByIndex q.kind.code index q.env.i x.1.name x.1.alrm
      q.env.indexScan x with ⟨⟨res, name, alrm⟩, t, p⟩
    rw [hrows] at hscan hm'
    rw [varTable_eq_of_found hget hsearch hrows]
    have hbuffers : Holds m'
        ((s.put q.kind x).put q.kind ({ t with name := name, alrm := alrm }, p)) nodes' := by
      simpa using hm'.congr_answers q.kind t.count t.scanTime alrm name
    have hkept : ({ t with name := name, alrm := alrm } : Table).answers =
        { x.1.answers with name := name, alrm := alrm } := by
      have hframe := scanByIndex_answers q.kind.code index q.env.i x.1.name x.1.alrm
        q.env.indexScan x
      rw [hrows] at hframe
      show ({ t.answers with name := name, alrm := alrm } : Answers) = _
      rw [hframe]
    have hnext := ha₁.put hbuffers
    rw [Lists.put_put] at hnext
    refine ⟨_, nodes', ?_, hnext⟩
    have hanswers := ha₁.answers q.kind
    rw [Lists.put_tables] at hanswers
    rw [hkept, MemoryAgent.varTable, hcount]
    show (if (headerEntry q.env.oids count q.request).index = matchFailed then _ else _) = _
    rw [hsearch]
    refine (if_neg (matchFailed_ne index)).trans ?_
    rw [hanswers]
    show (a₁.memory.scanByIndex q.kind index q.env.i x.1.name x.1.alrm q.indexAlloc
      q.env.indexScan).bind _ = _
    rw [hscan]
    cases hvalue : q.kind.entryValue dateNTime q.request.vp.magic index name alrm <;>
      simp only [Option.bind_some, HeaderOut.found, hvalue] <;> rfl

end MemoryAgent

/-! ## Runs -/

section Run

variable (dateNTime : ℤ → List UInt8)

/-- The statics of a sub-agent on rows, and its session. -/
def Agent.lists (a : Agent) : Lists := ⟨fun kind => kind.table a, a.plugin⟩

/-- The request as the sub-agent on rows gets it. -/
def MemoryRequest.onRows (q : MemoryRequest) : AgentRequest := q.kind.request q.env q.request

theorem agentStep_onRows (a : Agent) (q : MemoryRequest) :
    (agentStep dateNTime a q.onRows).1.lists =
        a.lists.put q.kind (FmAgent.varTable q.kind.code (q.kind.entryValue dateNTime) q.env
          q.request (a.lists.get q.kind)).1 ∧
      (agentStep dateNTime a q.onRows).2 = (FmAgent.varTable q.kind.code
        (q.kind.entryValue dateNTime) q.env q.request (a.lists.get q.kind)).2 := by
  obtain ⟨kind, env, request, countAlloc, indexAlloc⟩ := q
  cases kind <;>
  · refine ⟨?_, rfl⟩
    refine congrArg₂ Lists.mk ?_ rfl
    funext kind'
    cases kind' <;> rfl

/-- A run of requests is served as on rows. -/
theorem MemoryAgent.Mirrors.run {a : MemoryAgent} {b : Agent} {nodes : TableKind → List ℕ}
    (ha : a.Mirrors b.lists nodes) (qs : List MemoryRequest) :
    ∃ a' nodes', MemoryAgent.run dateNTime qs a =
        some (a', outputs (agentStep dateNTime) b (qs.map MemoryRequest.onRows)) ∧
      a'.Mirrors (after (agentStep dateNTime) b (qs.map MemoryRequest.onRows)).lists nodes' := by
  induction qs generalizing a b nodes with
  | nil => exact ⟨a, nodes, rfl, ha⟩
  | cons q qs ih =>
    obtain ⟨hlists, hreply⟩ := agentStep_onRows dateNTime b q
    obtain ⟨a₁, nodes₁, hstep, ha₁⟩ := ha.varTable dateNTime q
    rw [← hlists] at ha₁
    rw [← hreply] at hstep
    obtain ⟨a', nodes', hrun, ha'⟩ := ih ha₁
    refine ⟨a', nodes', ?_, ha'⟩
    show (a.varTable dateNTime q).bind _ = _
    rw [hstep]
    show (MemoryAgent.run dateNTime qs a₁).bind _ = _
    rw [hrun]
    rfl

theorem MemoryAgent.Mirrors.init (plugin : Plugin) :
    Mirrors ⟨.init plugin, fun _ => ⟨0, 0, default, []⟩⟩
      (Agent.lists ⟨plugin, Table.init, Table.init⟩) fun _ => [] := by
  have hlists : Agent.lists ⟨plugin, Table.init, Table.init⟩ = Lists.init plugin := by
    refine congrArg₂ Lists.mk ?_ rfl
    funext kind
    cases kind <;> rfl
  rw [hlists]
  exact ⟨Holds.init plugin, fun _ => rfl⟩

/-- **The sub-agent on the heap is the sub-agent on rows**: no run of requests accesses a freed
node or follows a list without an end, and each request gets the reply it would get on rows. -/
theorem memoryAgent_run (created : Bool) (qs : List MemoryRequest) :
    ((MemoryAgent.init created).map fun a => (a.run dateNTime qs).map Prod.snd) =
      (Agent.init created).map fun b =>
        some (outputs (agentStep dateNTime) b (qs.map MemoryRequest.onRows)) := by
  cases created with
  | false => rfl
  | true =>
    obtain ⟨a', nodes', hrun, -⟩ := (MemoryAgent.Mirrors.init _).run dateNTime
      (b := ⟨fmSnmpUtilCreateSession true Plugin.init, Table.init, Table.init⟩) qs
    show some ((MemoryAgent.run dateNTime qs _).map Prod.snd) = _
    rw [hrun]
    rfl

/-- The nodes of the lists, which hold the rows of `b`: no list passes a node of the other, and no
other node is in use. -/
structure MemoryAgent.HoldsOnly (a : MemoryAgent) (b : Agent) (nodes : TableKind → List ℕ) :
    Prop where
  list : ∀ kind, Chain a.memory.heap (a.memory.statics kind).alarmList (nodes kind)
  rows : ∀ kind, a.memory.heap.values (nodes kind) = (kind.table b).alarmList
  disjoint : (nodes .activeAlarms).Disjoint (nodes .eventLogs)
  live : ∀ n, n ∈ a.memory.heap.live ↔ ∃ kind, n ∈ nodes kind

/-- **No node leaks**: after every run of requests the nodes in use are those of the two lists,
one for each row held. -/
theorem memoryAgent_no_leak {created : Bool} {a : MemoryAgent} {b : Agent}
    (ha : MemoryAgent.init created = some a) (hb : Agent.init created = some b)
    (qs : List MemoryRequest) :
    ∃ a' replies nodes, a.run dateNTime qs = some (a', replies) ∧
      a'.HoldsOnly (after (agentStep dateNTime) b (qs.map MemoryRequest.onRows)) nodes ∧
      a'.memory.heap.live.card = (nodes .activeAlarms).length + (nodes .eventLogs).length := by
  cases created with
  | false => cases ha
  | true =>
    obtain rfl := Option.some.inj ha
    obtain rfl := Option.some.inj hb
    obtain ⟨a', nodes, hrun, ha'⟩ := (MemoryAgent.Mirrors.init _).run dateNTime
      (b := ⟨fmSnmpUtilCreateSession true Plugin.init, Table.init, Table.init⟩) qs
    have hlist (kind : TableKind) := (ha'.holds.represents kind).list
    have hdisjoint : (nodes .activeAlarms).Disjoint (nodes .eventLogs) :=
      ha'.holds.disjoint _ _ (by decide)
    have hlive (n : ℕ) : n ∈ a'.memory.heap.live ↔ ∃ kind, n ∈ nodes kind :=
      ⟨ha'.holds.owned n, fun ⟨kind, hn⟩ => (hlist kind).seg.mem_live hn⟩
    refine ⟨a', _, nodes, hrun, ⟨hlist, fun kind => (ha'.holds.represents kind).rows, hdisjoint,
      hlive⟩, ?_⟩
    -- no node is on a list twice, nor on both
    have hnodup : (nodes .activeAlarms ++ nodes .eventLogs).Nodup :=
      List.nodup_append'.mpr ⟨(hlist _).nodup, (hlist _).nodup, hdisjoint⟩
    have heq : a'.memory.heap.live = (nodes .activeAlarms ++ nodes .eventLogs).toFinset := by
      ext n
      rw [hlive, List.mem_toFinset, List.mem_append]
      constructor
      · rintro ⟨kind, hn⟩
        cases kind with
        | activeAlarms => exact Or.inl hn
        | eventLogs => exact Or.inr hn
      · rintro (hn | hn)
        · exact ⟨_, hn⟩
        · exact ⟨_, hn⟩
    rw [heq, List.toFinset_card_of_nodup hnodup, List.length_append]

/-- The address after all those in use. -/
def nextAddress : Allocator ℕ where
  address _ live := live.sup id + 1
  fresh _ _ hmem := absurd (Finset.le_sup (f := id) hmem) (Nat.not_succ_le_self _)

/-- Two requests a minute apart, for the severity of the one alarm there is. -/
def twoReloads : List MemoryRequest :=
  [⟨.activeAlarms, .steady 100 10 [default], .get severityColumn 1 0 0, nextAddress, nextAddress⟩,
    ⟨.activeAlarms, .steady 161 71 [default], .get severityColumn 1 0 0, nextAddress, nextAddress⟩]

theorem memoryAgent_no_leak_twoReloads :
    ∃ a' replies nodes,
      MemoryAgent.run (fun _ => []) twoReloads
          ⟨.init (fmSnmpUtilCreateSession true .init), fun _ => ⟨0, 0, default, []⟩⟩ =
        some (a', replies) ∧
      a'.HoldsOnly (after (agentStep fun _ => [])
        ⟨fmSnmpUtilCreateSession true .init, Table.init, Table.init⟩
        (twoReloads.map MemoryRequest.onRows)) nodes ∧
      a'.memory.heap.live.card = (nodes .activeAlarms).length + (nodes .eventLogs).length :=
  memoryAgent_no_leak (fun _ => []) (show MemoryAgent.init true = some _ from rfl) rfl twoReloads

end Run

end StxSnmp.FmAgent
