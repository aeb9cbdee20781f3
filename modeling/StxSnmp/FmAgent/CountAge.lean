import StxSnmp.FmAgent.Walk

/-!
# The age of the count

The list of a table is reloaded by the monotonic clock, its count recounted by the wall clock. A
wall clock that falls behind keeps a count in force for as long as it does.

## Main definitions

* `Reading`, `TableKind.readings`: the clocks the requests to a table meet
* `countStep`: the sub-agent beside the second at which the rows were scanned for its count
* `ClocksKeepUp`: no minute of the wall clock lasts longer than 61 monotonic seconds

## Main results

* `CountInForce.step`: what a request does to the count and to its age
* `counts_fresh`: while the clocks keep up, no count is older than 61 seconds
* `stale_count_of_behind`: clocks that do not keep up, and a count that is older
* `set_back_keeps_count`: a wall clock that is set back
-/

namespace StxSnmp.FmAgent

open Transducer MachineInt

/-! ## Two clocks -/

/-- The seconds of the wall clock and of the monotonic clock. -/
structure Reading where
  wall : ℤ
  mono : ℤ
  deriving DecidableEq, Repr

/-- Until the wall clock is more than 60 seconds past `r`, no more than 61 monotonic seconds
pass. -/
def KeepsUpFrom (r : Reading) : List Reading → Prop
  | [] => True
  | s :: rest => r.wall + 60 < s.wall ∨ (s.mono ≤ r.mono + 61 ∧ KeepsUpFrom r rest)

/-- From each reading on, the wall clock keeps up with the monotonic one. -/
def ClocksKeepUp : List Reading → Prop
  | [] => True
  | r :: rest => KeepsUpFrom r rest ∧ ClocksKeepUp rest

instance (r : Reading) : (rest : List Reading) → Decidable (KeepsUpFrom r rest)
  | [] => isTrue trivial
  | _ :: rest =>
    have := instDecidableKeepsUpFrom r rest
    inferInstanceAs (Decidable (_ ∨ (_ ∧ _)))

instance : (rs : List Reading) → Decidable (ClocksKeepUp rs)
  | [] => isTrue trivial
  | _ :: rest =>
    have := instDecidableClocksKeepUp rest
    inferInstanceAs (Decidable (_ ∧ _))

/-- The clocks a request meets when it gets the count. -/
def RequestEnv.reading (env : RequestEnv) : Reading := ⟨env.timeNow, env.countScan.clock⟩

/-- What a request to the table meets; none for a request to the other one. -/
def TableKind.requestEnv : TableKind → AgentRequest → Option RequestEnv
  | .activeAlarms, .alarm env _ => some env
  | .eventLogs, .event env _ => some env
  | _, _ => none

/-- The clocks met by the requests to the table, in order. -/
def TableKind.readings (kind : TableKind) (requests : List AgentRequest) : List Reading :=
  requests.filterMap fun req => (kind.requestEnv req).map RequestEnv.reading

/-! ## The count and its age -/

instance (timeNow : ℤ) (t : Table) : Decidable (RecountDue timeNow t) :=
  inferInstanceAs (Decidable (_ ∨ _))

/-- The count a request gets, and the monotonic seconds since the list was scanned for it. -/
structure CountServed where
  count : ℤ
  age : ℤ
  deriving DecidableEq, Repr

section Run

variable (dateNTime : ℤ → List UInt8) (kind : TableKind)

/-- A request to the sub-agent, beside the monotonic second at which the list was last scanned for
the count of the table: a recount scans it, a count kept does not. -/
def countStep (s : Agent × ℤ) (req : AgentRequest) : (Agent × ℤ) × Option CountServed :=
  let agent := (agentStep dateNTime s.1 req).1
  match kind.requestEnv req with
  | none => ((agent, s.2), none)
  | some env =>
    let t := kind.table s.1
    let scannedAt := if RecountDue env.timeNow t then env.countScan.clock else s.2
    let count := (getCount kind.code env.timeNow env.countScan (t, s.1.plugin)).1
    ((agent, scannedAt), some ⟨count, env.countScan.clock - scannedAt⟩)

end Run

section Table

variable {c : TableCode} {env : RequestEnv} {s s₁ : Table × Plugin} {count : ℤ}

/-- A request leaves the count and its time as its `getCount` does. -/
theorem varTable_count (entryValue : ℕ → ℤ → List UInt8 → AlarmData → Option Value) (r : Request)
    (hget : getCount c env.timeNow env.countScan s = (count, s₁)) :
    (varTable c entryValue env r s).1.1.count = s₁.1.count ∧
      (varTable c entryValue env r s).1.1.scanTime = s₁.1.scanTime := by
  obtain hsearch | ⟨index, -, -, hsearch⟩ := headerEntry_cases env.oids count r
  · rw [varTable_of_notFound hget hsearch]
    exact ⟨rfl, rfl⟩
  · obtain ⟨-, hcache, -⟩ := varTable_of_found entryValue hget hsearch
    obtain ⟨hcount, htime, -⟩ := scanInit_frame (c := c) env.indexScan s₁
    exact ⟨hcache.count.trans hcount, hcache.scanTime.trans htime⟩

/-- A recount is dated by the wall clock it meets. -/
theorem getCount_scanTime {t : Table} {p : Plugin} (hdue : RecountDue env.timeNow t)
    (hget : getCount c env.timeNow env.countScan (t, p) = (count, s₁)) :
    s₁.1.scanTime = env.timeNow := by
  rcases hload : scanInit c env.countScan ({ t with scanTime := env.timeNow }, p) with ⟨t', p'⟩
  obtain ⟨u, hu⟩ := getCount_recount hdue hload
  obtain rfl : _ = s₁ := congrArg Prod.snd (hu.symm.trans hget)
  have htime := (scanInit_frame (c := c) env.countScan ({ t with scanTime := env.timeNow }, p)).2.1
  rwa [hload] at htime

end Table

section Run

variable (dateNTime : ℤ → List UInt8) {kind : TableKind}

/-- There is no count in force, or the wall clock keeps up from when it was taken, over the
requests to come. -/
def CountInForce (kind : TableKind) (rest : List Reading) (s : Agent × ℤ) : Prop :=
  (kind.table s.1).count = 0 ∨ KeepsUpFrom ⟨(kind.table s.1).scanTime, s.2⟩ rest

/-- A request to the other table leaves the count and its age. -/
theorem CountInForce.other {rest : List Reading} {s : Agent × ℤ} (h : CountInForce kind rest s)
    {req : AgentRequest} (hother : kind.requestEnv req = none) :
    CountInForce kind rest (countStep dateNTime kind s req).1 ∧
      (countStep dateNTime kind s req).2 = none := by
  have htable : kind.table (agentStep dateNTime s.1 req).1 = kind.table s.1 := by
    obtain ⟨env, r, rfl⟩ | hsame := kind.request_cases dateNTime req
    · cases kind <;> cases hother
    · exact hsame s.1
  simp only [countStep, hother, CountInForce, htable, and_true]
  exact h

/-- A request to the table leaves the count and its time as its `getCount` does, and dates them
anew if it recounts. -/
theorem countStep_request {s : Agent × ℤ} {req : AgentRequest} {env : RequestEnv}
    (hreq : kind.requestEnv req = some env) {count : ℤ} {s₁ : Table × Plugin}
    (hget : getCount kind.code env.timeNow env.countScan (kind.table s.1, s.1.plugin) =
      (count, s₁)) :
    let scannedAt :=
      if RecountDue env.timeNow (kind.table s.1) then env.countScan.clock else s.2
    (kind.table (countStep dateNTime kind s req).1.1).count = s₁.1.count ∧
      (kind.table (countStep dateNTime kind s req).1.1).scanTime = s₁.1.scanTime ∧
      (countStep dateNTime kind s req).1.2 = scannedAt ∧
      (countStep dateNTime kind s req).2 = some ⟨count, env.countScan.clock - scannedAt⟩ := by
  obtain ⟨r, rfl⟩ : ∃ r, req = kind.request env r := by
    cases kind <;> cases req <;> cases hreq <;> exact ⟨_, rfl⟩
  obtain ⟨hcount, htime⟩ := varTable_count (kind.entryValue dateNTime) r hget
  rw [← (kind.agentStep_request dateNTime s.1 env r).1] at hcount htime
  simp only [countStep, hreq, hget, and_true]
  exact ⟨hcount, htime⟩

/-- A request to the table gets a count no older than 61 seconds, whether it recounts or not. -/
theorem CountInForce.step {rest : List Reading} {s : Agent × ℤ} {env : RequestEnv}
    (h : CountInForce kind (env.reading :: rest) s) (hrest : KeepsUpFrom env.reading rest)
    {req : AgentRequest} (hreq : kind.requestEnv req = some env) :
    CountInForce kind rest (countStep dateNTime kind s req).1 ∧
      ∃ served, (countStep dateNTime kind s req).2 = some served ∧ served.age ≤ 61 := by
  rcases hget : getCount kind.code env.timeNow env.countScan (kind.table s.1, s.1.plugin) with
    ⟨count, s₁⟩
  obtain ⟨hcount, htime, hat, hserved⟩ := countStep_request dateNTime hreq hget
  rw [CountInForce, hcount, htime, hat, hserved]
  by_cases hdue : RecountDue env.timeNow (kind.table s.1)
  · -- the count is of this second
    rw [if_pos hdue, getCount_scanTime hdue hget]
    exact ⟨Or.inr hrest, _, rfl, by simp⟩
  · -- the count is kept, so the wall clock is not 60 seconds on
    rw [if_neg hdue]
    rw [getCount_cached _ hdue] at hget
    obtain ⟨rfl, rfl⟩ := Prod.mk.inj hget
    obtain ⟨hnonzero, hrecent⟩ := not_or.mp hdue
    obtain hbehind | ⟨hmono, hkeeps⟩ := h.resolve_left hnonzero
    · exact absurd hbehind hrecent
    · refine ⟨Or.inr hkeeps, _, rfl, ?_⟩
      show env.countScan.clock - s.2 ≤ 61
      have hage : env.countScan.clock ≤ s.2 + 61 := hmono
      omega

/-- What holds of one request holds of every run, the readings to come being those of the requests
left. -/
theorem CountInForce.fresh {requests : List AgentRequest} {s : Agent × ℤ}
    (h : CountInForce kind (kind.readings requests) s)
    (hclocks : ClocksKeepUp (kind.readings requests)) :
    ∀ served, some served ∈ outputs (countStep dateNTime kind) s requests → served.age ≤ 61 := by
  induction requests generalizing s with
  | nil =>
    intro served hmem
    cases hmem
  | cons req requests ih =>
    intro served hmem
    rw [outputs_cons, List.mem_cons] at hmem
    cases hreq : kind.requestEnv req with
    | none =>
      have hreadings : kind.readings (req :: requests) = kind.readings requests := by
        simp [TableKind.readings, hreq]
      rw [hreadings] at hclocks h
      obtain ⟨hnext, hnone⟩ := h.other dateNTime hreq
      rw [hnone] at hmem
      exact ih hnext hclocks served (hmem.resolve_left (by simp))
    | some env =>
      have hreadings : kind.readings (req :: requests) =
          env.reading :: kind.readings requests := by
        simp [TableKind.readings, hreq]
      rw [hreadings] at hclocks h
      obtain ⟨hnext, first, hfirst, hage⟩ := h.step dateNTime hclocks.1 hreq
      rw [hfirst] at hmem
      rcases hmem with hmem | hmem
      · obtain rfl := Option.some.inj hmem
        exact hage
      · exact ih hnext hclocks.2 served hmem

/-- **No count is older than 61 seconds while the clocks keep up**, over every run of requests to
both tables. -/
theorem counts_fresh {created : Bool} {a : Agent} (ha : Agent.init created = some a)
    {requests : List AgentRequest} (hclocks : ClocksKeepUp (kind.readings requests))
    (scannedAt : ℤ) :
    ∀ served, some served ∈ outputs (countStep dateNTime kind) (a, scannedAt) requests →
      served.age ≤ 61 := by
  have hinit : CountInForce kind (kind.readings requests) (a, scannedAt) := by
    cases created with
    | false => cases ha
    | true =>
      obtain rfl := Option.some.inj ha
      cases kind <;> exact Or.inl rfl
  exact hinit.fresh dateNTime hclocks

/-! ## Clocks that do not keep up -/

/-- A request at a reading of the clocks, whose loads obtain one row. -/
def TableKind.oneRow (kind : TableKind) (r : Reading) : AgentRequest :=
  kind.request (.steady r.wall r.mono [default]) (.get severityColumn 1 0 0)

theorem requestEnv_oneRow (kind : TableKind) (r : Reading) :
    kind.requestEnv (kind.oneRow r) = some (.steady r.wall r.mono [default]) := by
  cases kind <;> rfl

theorem readings_oneRow (kind : TableKind) (rs : List Reading) :
    kind.readings (rs.map kind.oneRow) = rs := by
  have hreading (r : Reading) :
      (kind.requestEnv (kind.oneRow r)).map RequestEnv.reading = some r := by
    rw [requestEnv_oneRow]
    rfl
  rw [TableKind.readings, List.filterMap_map]
  simp only [Function.comp_def, hreading, List.filterMap_some]

/-- One row was counted at `r`. -/
structure CountedAt (kind : TableKind) (r : Reading) (s : Agent × ℤ) : Prop where
  count : (kind.table s.1).count = 1
  scanTime : (kind.table s.1).scanTime = r.wall
  scannedAt : s.2 = r.mono

/-- The first request counts the row, if the clock lets it load. -/
theorem countedAt_first {a : Agent} (ha : Agent.init true = some a) {r : Reading}
    (hload : kind.code.minLoadFreq ≤ r.mono) (scannedAt : ℤ) :
    CountedAt kind r (countStep dateNTime kind (a, scannedAt) (kind.oneRow r)).1 := by
  obtain rfl := Option.some.inj ha
  set p := fmSnmpUtilCreateSession true Plugin.init
  have htable : kind.table ⟨p, Table.init, Table.init⟩ = Table.init := by cases kind <;> rfl
  have hdue : RecountDue (RequestEnv.steady r.wall r.mono [default]).timeNow Table.init :=
    Or.inl rfl
  have hobtains : ObtainsRows kind.code [default] (RequestEnv.steady r.wall r.mono
      [default]).countScan := ⟨hload, fun _ => rfl, fun _ => rfl⟩
  have hholds : HoldsRows [default] ({ Table.init with scanTime := r.wall } : Table) :=
    ⟨Or.inr ⟨rfl, rfl⟩, Or.inl rfl⟩
  have hlist := scanInit_obtains hobtains
    (s := ({ Table.init with scanTime := r.wall }, p)) hholds
  rcases hscan : scanInit kind.code (RequestEnv.steady r.wall r.mono [default]).countScan
    ({ Table.init with scanTime := r.wall }, p) with ⟨t', p'⟩
  rw [hscan] at hlist
  replace hlist : t'.alarmList = [default] := hlist
  obtain ⟨u, hget⟩ := getCount_recount hdue hscan
  have hstart : (kind.table ⟨p, Table.init, Table.init⟩, p) = (Table.init, p) := by rw [htable]
  obtain ⟨hcount, htime, hat, -⟩ := countStep_request dateNTime
    (s := (⟨p, Table.init, Table.init⟩, scannedAt)) (requestEnv_oneRow kind r)
    ((congrArg _ hstart).trans hget)
  refine ⟨?_, ?_, ?_⟩
  · rw [hcount, hlist]
    rfl
  · rw [htime]
    exact getCount_scanTime hdue hget
  · rw [hat, htable]
    exact if_pos hdue

/-- While the wall clock stays behind, the row counted at `r` stays counted, and grows old. -/
theorem CountedAt.stale {r : Reading} {rest : List Reading} (hbehind : ¬ KeepsUpFrom r rest)
    {s : Agent × ℤ} (h : CountedAt kind r s) :
    ∃ served, some served ∈ outputs (countStep dateNTime kind) s (rest.map kind.oneRow) ∧
      served.count ≠ 0 ∧ 61 < served.age := by
  induction rest generalizing s with
  | nil => exact absurd trivial hbehind
  | cons next rest ih =>
    obtain ⟨hrecent, hrest⟩ := not_or.mp hbehind
    have hdue : ¬ RecountDue next.wall (kind.table s.1) := by
      rw [RecountDue, h.count, h.scanTime]
      omega
    obtain ⟨hcount, htime, hat, hserved⟩ := countStep_request dateNTime
      (requestEnv_oneRow kind next) (getCount_cached _ hdue)
    have hkept : (if RecountDue next.wall (kind.table s.1) then next.mono else s.2) = r.mono :=
      (if_neg hdue).trans h.scannedAt
    replace hat := hat.trans hkept
    replace hserved : (countStep dateNTime kind s (kind.oneRow next)).2 =
        some ⟨1, next.mono - r.mono⟩ := by
      rw [hserved, h.count, ← hkept]
      rfl
    rw [List.map_cons, outputs_cons, hserved]
    by_cases hold : r.mono + 61 < next.mono
    · refine ⟨_, List.mem_cons_self, one_ne_zero, ?_⟩
      show 61 < next.mono - r.mono
      omega
    · -- this request is in time, so a later one is not
      have hlater : ¬ KeepsUpFrom r rest := fun hkeeps => hrest ⟨Int.not_lt.mp hold, hkeeps⟩
      obtain ⟨served, hmem, hstale⟩ :=
        ih hlater ⟨hcount.trans h.count, htime.trans h.scanTime, hat⟩
      exact ⟨served, List.mem_cons_of_mem _ hmem, hstale⟩

/-- **Clocks that do not keep up let a count grow older than 61 seconds**: there is a run that
meets them in which it does. -/
theorem stale_count_of_behind {r : Reading} {rest : List Reading}
    (hload : kind.code.minLoadFreq ≤ r.mono) (hbehind : ¬ KeepsUpFrom r rest) :
    ∃ a requests, Agent.init true = some a ∧ kind.readings requests = r :: rest ∧
      ∃ served, some served ∈ outputs (countStep dateNTime kind) (a, 0) requests ∧
        served.count ≠ 0 ∧ 61 < served.age := by
  refine ⟨_, (r :: rest).map kind.oneRow, rfl, readings_oneRow kind _, ?_⟩
  obtain ⟨served, hmem, hstale⟩ :=
    (countedAt_first dateNTime rfl hload 0).stale dateNTime hbehind
  exact ⟨served, List.mem_cons_of_mem _ hmem, hstale⟩

end Run

/-- Clocks that run on together: the count of the second request is the first one's, a minute
old. -/
theorem counts_fresh_minute :
    outputs (countStep (fun _ => []) .activeAlarms)
        (⟨fmSnmpUtilCreateSession true Plugin.init, Table.init, Table.init⟩, 0)
        ([⟨5000, 100⟩, ⟨5060, 160⟩].map TableKind.activeAlarms.oneRow) =
      [some ⟨1, 0⟩, some ⟨1, 60⟩] ∧
      (⟨1, 60⟩ : CountServed).age ≤ 61 := by
  have houtputs : outputs (countStep (fun _ => []) .activeAlarms)
      (⟨fmSnmpUtilCreateSession true Plugin.init, Table.init, Table.init⟩, 0)
      ([⟨5000, 100⟩, ⟨5060, 160⟩].map TableKind.activeAlarms.oneRow) =
      [some ⟨1, 0⟩, some ⟨1, 60⟩] := by
    decide +kernel
  have hclocks : ClocksKeepUp [⟨5000, 100⟩, ⟨5060, 160⟩] := by decide
  rw [← readings_oneRow .activeAlarms [⟨5000, 100⟩, ⟨5060, 160⟩]] at hclocks
  refine ⟨houtputs, ?_⟩
  refine counts_fresh (fun _ => []) (show Agent.init true = some _ from rfl) hclocks 0 ⟨1, 60⟩ ?_
  rw [houtputs]
  exact List.mem_cons_of_mem _ List.mem_cons_self

/-- The wall clock is set back by an hour: the count of the second request is 900 seconds old. -/
theorem set_back_keeps_count :
    ∃ a, Agent.init true = some a ∧
      outputs (countStep (fun _ => []) .activeAlarms) (a, 0)
          ([⟨5000, 100⟩, ⟨2300, 1000⟩].map TableKind.activeAlarms.oneRow) =
        [some ⟨1, 0⟩, some ⟨1, 900⟩] :=
  ⟨_, rfl, by decide +kernel⟩

end StxSnmp.FmAgent
