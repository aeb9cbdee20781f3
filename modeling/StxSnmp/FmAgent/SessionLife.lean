import StxSnmp.FmAgent.RowCache
import StxSnmp.Library.Handles

/-!
# The life of the database session

Every load passes the shared handle to the FM library, and every failed query destroys it and
creates the next. While every creation succeeds the handle names the session created last; a
failed creation leaves the handle of the session just destroyed, and the next call passes it.

## Main definitions

* `sessionTrace`: which FM calls create, are passed and destroy a session
* `sessionRun`: the FM calls of a run, from the initialisation to its end
* `SessionInvariant`: a property of the session kept by queries and renewals
* `SessionKept`, `SessionLost`: the two kinds of state a run reaches
* `OneSession`: the states with no live session but the one the handle names

## Main results

* `SessionInvariant.agentStep`: a request keeps what queries and renewals keep
* `sessionRun_disciplined_iff`: a run passes live handles only iff no creation fails after the
  first
* `session_destroyed_twice`: one failed query with a failed creation
* `sessionRun_single`: no two sessions are open at once, and none is at the end
-/

namespace StxSnmp.FmAgent

open Transducer

/-- Sessions are created, used and destroyed by the FM calls; null is no handle. -/
def sessionTrace : HandleTrace FmCall ℕ where
  creates
    | .createSession stored => stored
    | _ => none
  passes
    | .createSession _ => none
    | .destroySession handle | .getAllAlarms handle | .getAllEventLogs handle => handle
  destroys
    | .destroySession handle => handle
    | _ => none

/-- The FM calls of a run: `created` is the outcome of the first creation, without which the
agent exits. -/
def sessionRun (dateNTime : ℤ → List UInt8) (created : Bool) (requests : List AgentRequest) :
    List FmCall :=
  match Agent.init created with
  | none => [.createSession none]
  | some a => (deinitSnmpAgentPlugin (after (agentStep dateNTime) a requests).plugin).calls

/-! ## What queries and renewals keep -/

/-- A property of the session that the tables' queries and the renewals keep. -/
structure SessionInvariant (P : Plugin → Prop) : Prop where
  alarms : ∀ p, P p → P (p.call (activeAlarms.getAll (getAlarmSession p)))
  events : ∀ p, P p → P (p.call (eventLogs.getAll (getAlarmSession p)))
  renew : ∀ created p, P p → P (renewAlarmSession created p)

section Table

variable {c : TableCode} {P : Plugin → Prop}
  (hquery : ∀ p, P p → P (p.call (c.getAll (getAlarmSession p))))
  (hrenew : ∀ created p, P p → P (renewAlarmSession created p))

include hquery hrenew

theorem queryRows_keeps (attempts : ℕ → Attempt) (n i : ℕ) {p : Plugin} (hp : P p) :
    P (queryRows c attempts n i p).2 := by
  -- induction on the attempts left, a query and a renewal each
  induction n generalizing i p with
  | zero => exact hp
  | succ n ih =>
    have hcall := hquery p hp
    rw [queryRows]
    cases attempts i with
    | obtained alarms => exact hcall
    | failed created => exact ih (i + 1) (hrenew created _ hcall)

theorem scanInit_keeps (env : ScanEnv) {s : Table × Plugin} (hp : P s.2) :
    P (scanInit c env s).2 := by
  obtain ⟨t, p⟩ := s
  have hquery := queryRows_keeps hquery hrenew env.attempts retryCount 0 hp
  obtain ⟨-, h⟩ | ⟨-, p', hq, h⟩ | ⟨-, alarms, p', hq, h⟩ := scanInit_cases (c := c) env t p
  · rw [h]
    exact hp
  · rw [hq] at hquery
    rw [h]
    exact hquery
  · rw [hq] at hquery
    rw [h]
    exact hquery

theorem getCount_keeps (timeNow : ℤ) (env : ScanEnv) {s : Table × Plugin} (hp : P s.2) :
    P (getCount c timeNow env s).2.2 := by
  obtain ⟨t, p⟩ := s
  by_cases h : RecountDue timeNow t
  · have hscan := scanInit_keeps hquery hrenew env (s := ({ t with scanTime := timeNow }, p)) hp
    rcases hload : scanInit c env ({ t with scanTime := timeNow }, p) with ⟨t', p'⟩
    obtain ⟨u, hu⟩ := getCount_recount h hload
    rw [hload] at hscan
    rw [hu]
    exact hscan
  · rw [getCount_cached env h]
    exact hp

theorem varTable_keeps (entryValue : ℕ → ℤ → List UInt8 → AlarmData → Option Value)
    (env : RequestEnv) (r : Request) {s : Table × Plugin} (hp : P s.2) :
    P (varTable c entryValue env r s).1.2 := by
  have hcount := getCount_keeps hquery hrenew env.timeNow env.countScan hp
  rcases hget : getCount c env.timeNow env.countScan s with ⟨count, s₁⟩
  rw [hget] at hcount
  obtain h | ⟨index, -, -, h⟩ := headerEntry_cases env.oids count r
  · rw [varTable_of_notFound hget h]
    exact hcount
  · obtain ⟨-, -, hplugin⟩ := varTable_of_found entryValue hget h
    rw [hplugin]
    exact scanInit_keeps hquery hrenew env.indexScan hcount

end Table

/-- What queries and renewals keep, every request keeps. -/
theorem SessionInvariant.agentStep {P : Plugin → Prop} (h : SessionInvariant P)
    (dateNTime : ℤ → List UInt8) :
    Preserves (agentStep dateNTime) (fun _ => True) (fun a => P a.plugin) := by
  intro a req _ hp
  cases req with
  | alarm env r => exact varTable_keeps h.alarms h.renew _ env r (s := (a.alarms, a.plugin)) hp
  | event env r => exact varTable_keeps h.events h.renew _ env r (s := (a.events, a.plugin)) hp

/-! ## The session kept or lost -/

/-- Every creation has succeeded, and the handle names a live session. -/
structure SessionKept (p : Plugin) : Prop where
  disciplined : sessionTrace.Disciplined p.calls
  created : .createSession none ∉ p.calls
  live : ∃ h, p.almHandle = some h ∧ sessionTrace.Live h p.calls

/-- Some creation has failed, and a dead handle was passed, or will be by the next call. -/
structure SessionLost (p : Plugin) : Prop where
  failed : .createSession none ∈ p.calls
  dead : ∃ h, p.almHandle = some h ∧
    (sessionTrace.Disciplined p.calls → ¬ sessionTrace.Live h p.calls)

/-- A call passing the handle of a session kept is disciplined. -/
theorem SessionKept.disciplined_call {p : Plugin} (hp : SessionKept p) {call : FmCall}
    (hpass : sessionTrace.passes call = p.almHandle) :
    sessionTrace.Disciplined (p.calls ++ [call]) := by
  obtain ⟨h, halm, hlive⟩ := hp.live
  refine (sessionTrace.disciplined_concat).mpr ⟨hp.disciplined, ?_⟩
  intro h' hh'
  obtain rfl : h = h' := by
    rw [hpass, halm] at hh'
    exact Option.some.inj hh'
  exact hlive

/-- A call passing the handle of a session lost is not. -/
theorem SessionLost.not_disciplined_call {p : Plugin} (hp : SessionLost p) {call : FmCall}
    (hpass : sessionTrace.passes call = p.almHandle) :
    ¬ sessionTrace.Disciplined (p.calls ++ [call]) := by
  obtain ⟨h, halm, hdead⟩ := hp.dead
  intro hd
  obtain ⟨hbefore, hlast⟩ := (sessionTrace.disciplined_concat).mp hd
  exact hdead hbefore (hlast h (hpass.trans halm))

/-- A query passes the handle and keeps it. -/
theorem sessionKept_or_lost_query {p : Plugin} {call : FmCall}
    (hpass : sessionTrace.passes call = p.almHandle) (hkeep : sessionTrace.destroys call = none)
    (hquery : call ≠ .createSession none) (hp : SessionKept p ∨ SessionLost p) :
    SessionKept (p.call call) ∨ SessionLost (p.call call) := by
  rcases hp with hp | hp
  · obtain ⟨h, halm, hlive⟩ := hp.live
    refine Or.inl ⟨hp.disciplined_call hpass, ?_, h, halm, ?_⟩
    · simpa using ⟨hp.created, hquery.symm⟩
    · refine (sessionTrace.live_concat).mpr (Or.inr ⟨hlive, ?_⟩)
      rw [hkeep]
      exact Option.some_ne_none h |>.symm
  · obtain ⟨h, halm, -⟩ := hp.dead
    refine Or.inr ⟨by simp [hp.failed], h, halm, ?_⟩
    intro hd
    exact absurd hd (hp.not_disciplined_call hpass)

/-- A renewal ends in one of the two states as well: a successful creation gives a live handle,
a failed one leaves the handle just destroyed. -/
theorem sessionKept_or_lost_renew (created : Bool) {p : Plugin}
    (hp : SessionKept p ∨ SessionLost p) :
    SessionKept (renewAlarmSession created p) ∨ SessionLost (renewAlarmSession created p) := by
  have hpass : sessionTrace.passes (.destroySession p.almHandle) = p.almHandle := rfl
  rcases hp with hp | hp
  · obtain ⟨h, halm, -⟩ := hp.live
    have hdestroy := hp.disciplined_call hpass
    cases created with
    | true =>
      -- the new handle is live, the old one destroyed while live
      refine Or.inl ⟨?_, ?_, p.nextHandle, rfl, ?_⟩
      · exact (sessionTrace.disciplined_concat).mpr ⟨hdestroy, fun h' hh' => nomatch hh'⟩
      · show FmCall.createSession none ∉ p.calls ++ [_] ++ [_]
        simpa using hp.created
      · exact (sessionTrace.live_concat).mpr (Or.inl rfl)
    | false =>
      -- the handle kept is the one just destroyed
      refine Or.inr ⟨List.mem_append_right _ (List.mem_singleton.mpr rfl), h, halm, ?_⟩
      intro _
      show ¬ sessionTrace.Live h
        (p.calls ++ [.destroySession p.almHandle] ++ [.createSession none])
      rw [halm, sessionTrace.live_concat, sessionTrace.live_concat]
      simp [sessionTrace]
  · -- the renewal itself passes the dead handle
    obtain ⟨h, halm, -⟩ := hp.dead
    have hdestroy := hp.not_disciplined_call hpass
    cases created with
    | true =>
      refine Or.inr ⟨?_, p.nextHandle, rfl, ?_⟩
      · show FmCall.createSession none ∈ p.calls ++ [_] ++ [_]
        simp [hp.failed]
      · intro hd
        exact absurd ((sessionTrace.disciplined_concat).mp hd).1 hdestroy
    | false =>
      refine Or.inr ⟨List.mem_append_right _ (List.mem_singleton.mpr rfl), h, halm, ?_⟩
      intro hd
      exact absurd ((sessionTrace.disciplined_concat).mp hd).1 hdestroy

/-- Along a run the session is kept or lost. -/
theorem sessionInvariant : SessionInvariant fun p => SessionKept p ∨ SessionLost p where
  alarms _ hp := sessionKept_or_lost_query rfl rfl FmCall.noConfusion hp
  events _ hp := sessionKept_or_lost_query rfl rfl FmCall.noConfusion hp
  renew created _ hp := sessionKept_or_lost_renew created hp

/-- The initialisation leaves the session it creates. -/
theorem sessionKept_init : SessionKept (fmSnmpUtilCreateSession true Plugin.init) :=
  ⟨sessionTrace.disciplined_singleton rfl, by decide, 0, rfl, sessionTrace.live_singleton rfl⟩

theorem sessionKept_or_lost_after (dateNTime : ℤ → List UInt8) (requests : List AgentRequest)
    {a : Agent} (ha : SessionKept a.plugin) :
    SessionKept (after (agentStep dateNTime) a requests).plugin ∨
      SessionLost (after (agentStep dateNTime) a requests).plugin :=
  (sessionInvariant.agentStep dateNTime).after (fun _ _ => trivial) (Or.inl ha)

/-- **Live handles iff no creation fails after the first**: over a whole run, every handle
passed to a query or to a destruction is live exactly if every renewal creates its session. -/
theorem sessionRun_disciplined_iff (dateNTime : ℤ → List UInt8) (created : Bool)
    (requests : List AgentRequest) :
    sessionTrace.Disciplined (sessionRun dateNTime created requests) ↔
      (created = true → .createSession none ∉ sessionRun dateNTime created requests) := by
  cases created with
  | false => exact iff_of_true (sessionTrace.disciplined_singleton rfl) (fun h => nomatch h)
  | true =>
    have hinv := sessionKept_or_lost_after dateNTime requests
      (a := ⟨fmSnmpUtilCreateSession true Plugin.init, Table.init, Table.init⟩) sessionKept_init
    -- the end of the run destroys the session the handle names
    rcases hinv with hp | hp
    · refine iff_of_true (hp.disciplined_call rfl) ?_
      intro _ hfailed
      rcases List.mem_append.mp hfailed with hfailed | hfailed
      · exact hp.created hfailed
      · simp at hfailed
    · refine iff_of_false (hp.not_disciplined_call rfl) ?_
      intro h
      exact h rfl (List.mem_append_left _ hp.failed)

/-- A request during which every query fails, and so does every creation. -/
def unreachableDatabase : AgentRequest :=
  .alarm ⟨100, ⟨1, fun _ => .failed false, fun _ => true⟩,
    ⟨1, fun _ => .failed false, fun _ => true⟩, 0, .lexicographic⟩ (.get severityColumn 1 0 0)

/-- The second attempt passes the handle just destroyed, and its failure destroys it again. -/
theorem session_destroyed_twice :
    (sessionRun (fun _ => []) true [unreachableDatabase]).take 6 =
        [.createSession (some 0), .getAllAlarms (some 0), .destroySession (some 0),
          .createSession none, .getAllAlarms (some 0), .destroySession (some 0)] ∧
      ¬ sessionTrace.Disciplined (sessionRun (fun _ => []) true [unreachableDatabase]) := by
  refine ⟨by decide +kernel, ?_⟩
  intro hd
  -- the second query passes the handle, so it would be live just before
  have hlive : sessionTrace.Live 0 [.createSession (some 0), .getAllAlarms (some 0),
      .destroySession (some 0), .createSession none] :=
    hd _ (.getAllAlarms (some 0)) ((sessionRun (fun _ => []) true [unreachableDatabase]).drop 5) 0
      (by decide +kernel) rfl
  have hdead : ¬ sessionTrace.Live 0 ([FmCall.createSession (some 0), .getAllAlarms (some 0)] ++
      [.destroySession (some 0)] ++ [.createSession none]) := by
    rw [sessionTrace.live_concat, sessionTrace.live_concat]
    simp [sessionTrace]
  exact hdead hlive

/-! ## Sessions open at once -/

/-- No two sessions have been open at once, and the handle names any that is. -/
structure OneSession (p : Plugin) : Prop where
  single : sessionTrace.Single p.calls
  live : ∀ h, sessionTrace.Live h p.calls → p.almHandle = some h

/-- A call that creates nothing leaves no session but one that was open. -/
theorem OneSession.call {p : Plugin} (hp : OneSession p) {call : FmCall}
    (hcreate : sessionTrace.creates call = none) : OneSession (p.call call) := by
  have hlive (h : ℕ) (hh : sessionTrace.Live h (p.calls ++ [call])) : p.almHandle = some h := by
    rcases (sessionTrace.live_concat).mp hh with hnew | ⟨hold, -⟩
    · rw [hcreate] at hnew
      cases hnew
    · exact hp.live h hold
  refine ⟨(sessionTrace.single_concat).mpr ⟨hp.single, fun h h' hh hh' => ?_⟩, hlive⟩
  exact Option.some.inj ((hlive h hh).symm.trans (hlive h' hh'))

/-- Once its handle is destroyed, no session is open. -/
theorem OneSession.not_live_destroy {p : Plugin} (hp : OneSession p) (h : ℕ) :
    ¬ sessionTrace.Live h (fmSnmpUtilDestroySession p.almHandle p).calls := by
  intro hlive
  rcases (sessionTrace.live_concat).mp hlive with hnew | ⟨hold, hkept⟩
  · cases hnew
  · exact hkept (hp.live h hold)

/-- A renewal destroys the session before it creates the next. -/
theorem OneSession.renew {p : Plugin} (hp : OneSession p) (created : Bool) :
    OneSession (renewAlarmSession created p) := by
  have hdestroyed : OneSession (fmSnmpUtilDestroySession p.almHandle p) := hp.call rfl
  cases created with
  | false => exact hdestroyed.call rfl
  | true =>
    have hlive (h : ℕ) (hh : sessionTrace.Live h (renewAlarmSession true p).calls) :
        (renewAlarmSession true p).almHandle = some h := by
      rcases (sessionTrace.live_concat).mp hh with hnew | ⟨hold, -⟩
      · exact hnew
      · exact absurd hold (hp.not_live_destroy h)
    refine ⟨(sessionTrace.single_concat).mpr ⟨hdestroyed.single, fun h h' hh hh' => ?_⟩, hlive⟩
    exact Option.some.inj ((hlive h hh).symm.trans (hlive h' hh'))

theorem oneSession_invariant : SessionInvariant OneSession where
  alarms _ hp := hp.call rfl
  events _ hp := hp.call rfl
  renew created _ hp := hp.renew created

theorem oneSession_init : OneSession (fmSnmpUtilCreateSession true Plugin.init) := by
  have hlive (h : ℕ) (hh : sessionTrace.Live h ([] ++ [.createSession (some 0)])) :
      some 0 = some h := by
    rcases (sessionTrace.live_concat).mp hh with hnew | ⟨hold, -⟩
    · exact hnew
    · exact absurd hold sessionTrace.not_live_nil
  refine ⟨(sessionTrace.single_concat).mpr ⟨sessionTrace.single_nil, fun h h' hh hh' => ?_⟩, hlive⟩
  exact Option.some.inj ((hlive h hh).symm.trans (hlive h' hh'))

/-- **No two sessions are open at once, and none is left open**: whatever queries and creations
fail, at no point of a run are two sessions live, and after its end no session is. -/
theorem sessionRun_single (dateNTime : ℤ → List UInt8) (created : Bool)
    (requests : List AgentRequest) :
    sessionTrace.Single (sessionRun dateNTime created requests) ∧
      ∀ h, ¬ sessionTrace.Live h (sessionRun dateNTime created requests) := by
  cases created with
  | false =>
    have hnone (h : ℕ) : ¬ sessionTrace.Live h ([] ++ [.createSession none]) := by
      rw [sessionTrace.live_concat]
      rintro (hnew | ⟨hold, -⟩)
      · cases hnew
      · exact sessionTrace.not_live_nil hold
    refine ⟨(sessionTrace.single_concat).mpr ⟨sessionTrace.single_nil, ?_⟩, hnone⟩
    exact fun h _ hh => absurd hh (hnone h)
  | true =>
    have hp : OneSession (after (agentStep dateNTime)
        ⟨fmSnmpUtilCreateSession true Plugin.init, Table.init, Table.init⟩ requests).plugin :=
      (oneSession_invariant.agentStep dateNTime).after (fun _ _ => trivial) oneSession_init
    exact ⟨(hp.call rfl).single, hp.not_live_destroy⟩

end StxSnmp.FmAgent
