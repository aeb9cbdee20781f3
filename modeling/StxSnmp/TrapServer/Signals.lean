import StxSnmp.Library.Monitor
import StxSnmp.TrapServer.Relay
import StxSnmp.TrapServer.Subagent

/-!
# Requests to stop

SIGTERM and SIGINT clear `keep_running`, which `main` reads only after the server has given up;
the server's own loop runs on `socket_keep_running`, which nothing clears. Calls that a signal
interrupts are restarted, so the handler may run between any two events of the server and changes
none of them.

## Main definitions

* `ProcessStep`, `keepRunning`, `serverEvents`: what happens in the process, the flag after it, and
  the server's part of it
* `queueStep`: a monitor that has each connection accepted in its turn, and its message processed
  before the next
* `crashesOn`: the messages of some connections crash the program

## Main results

* `LoopRun.accepts_eq`: the loop accepts until nothing is left to accept or the retries are used up
* `LoopRun.queue`: the loop takes the connections as a queue
* `stopRequest_honoured_iff`: a stop request is honoured iff nothing is left to accept, the retries
  are used up already, or a message received already crashes the program
* `stopRequest_ignored`: two connections accepted and processed after the request
-/

namespace StxSnmp.TrapServer

open Monitor Trap

/-! ## Accepting -/

/-- A connection accepted that is bad. -/
abbrev badConnection (c : Connection) : Bool := isBad (some c)

theorem countP_connections (backlog : List (Option Connection)) :
    (connections backlog).countP badConnection = backlog.countP isBad := by
  induction backlog with
  | nil => rfl
  | cons accepted backlog ih =>
    cases accepted with
    | none => exact ih
    | some c =>
      show (c :: connections backlog).countP badConnection = _
      rw [List.countP_cons, List.countP_cons, ih]

theorem connections_append (backlog backlog' : List (Option Connection)) :
    connections (backlog ++ backlog') = connections backlog ++ connections backlog' :=
  List.filterMap_append

/-- The loop accepts a front of the connections: all of them, or up to the bad one that finds no
retry left. -/
theorem LoopRun.accepts_eq {backlog rest : List (Option Connection)} {r r' : ℤ} {es : List Event}
    {result : Option ℤ} (h : LoopRun backlog r es result rest r') (hr : 0 ≤ r) :
    ∃ taken, connections backlog = taken ++ connections rest ∧
      accepts es = taken.map Connection.connfd ∧
      (connections rest = [] ∨ r < taken.countP badConnection) ∧
      ∀ n < taken.length, (taken.take n).countP badConnection ≤ r := by
  obtain ⟨taken, rfl, -, haccepts⟩ := h.exists_taken
  refine ⟨connections taken, connections_append taken rest, haccepts, ?_⟩
  obtain ⟨-, rfl, hfew⟩ | ⟨-, -, before, c, hsplit, hc, hcount⟩ := h.waits_or_returns hr
  · refine ⟨Or.inl rfl, ?_⟩
    intro n _
    rw [List.append_nil, ← countP_connections] at hfew
    have hle := (List.take_sublist n (connections taken)).countP_le (p := badConnection)
    omega
  · -- the last connection taken is the one that found no retry
    obtain rfl : taken = before ++ [some c] := by
      rw [List.append_cons] at hsplit
      exact List.append_cancel_right hsplit
    have hlast : connections (before ++ [some c]) = connections before ++ [c] :=
      connections_append before [some c]
    have hbad : badConnection c = true := by simp [isBad, hc]
    rw [← countP_connections] at hcount
    rw [hlast]
    constructor
    · rw [List.countP_append, List.countP_cons_of_pos hbad]
      right
      omega
    · intro n hn
      have hle : n ≤ (connections before).length := by
        rw [List.length_append] at hn
        exact Nat.lt_succ_iff.mp hn
      rw [List.take_append_of_le_length hle]
      have hfew := (List.take_sublist n (connections before)).countP_le (p := badConnection)
      omega

/-! ## One message for each connection -/

/-- The connections still to come, and the message received but not processed yet: the next
connection is accepted when there is none, and the message is the next one processed. -/
def queueStep (s : List Connection × Option (List UInt8)) :
    Event → Option (List Connection × Option (List UInt8))
  | .accept connfd =>
    match s with
    | (c :: pending, none) => if connfd = c.connfd then some (pending, c.message) else none
    | _ => none
  | .processJsonAlarm msg =>
    match s with
    | (pending, some current) => if msg = some current then some (pending, none) else none
    | _ => none
  | _ => some s

variable {c : Connection} {msg : List UInt8} {pending : List Connection}

theorem passes_badEvents (hc : c.message = none) :
    Passes queueStep (c :: pending, none) (badEvents c) (pending, none) := by
  refine passes_cons.mpr ⟨(pending, none), ?_, ?_⟩
  · simp only [queueStep, if_pos, hc]
  · simp only [Connection.cleanUp]
    split_ifs <;> rfl

theorem passes_goodEvents (hc : c.message = some msg) :
    Passes queueStep (c :: pending, none) (goodEvents c msg) (pending, none) := by
  refine passes_cons.mpr ⟨(pending, some msg), ?_, ?_⟩
  · simp only [queueStep, if_pos, hc]
  · -- the message is processed between the allocation and the release
    refine passes_cons.mpr ⟨(pending, some msg), rfl, passes_cons.mpr ⟨(pending, none), ?_, rfl⟩⟩
    exact if_pos rfl

theorem passes_returned (result : Option ℤ) (s : List Connection × Option (List UInt8)) :
    Passes queueStep s (returned result) s := by
  cases result <;> rfl

/-- At any depth, the loop takes the connections as a queue. -/
theorem LoopRun.queue {backlog rest : List (Option Connection)} {r r' : ℤ} {es : List Event}
    {result : Option ℤ} (h : LoopRun backlog r es result rest r') :
    Passes queueStep (connections backlog, none) es (connections rest, none) := by
  induction h with
  | waits r => exact passes_nil.mpr rfl
  | failed _ ih => exact ih
  | good hc _ ih => exact (passes_goodEvents hc).append ih
  | refused hc _ => exact (passes_badEvents hc).append rfl
  | @nested c backlog r es result rest r' hc _ _ ih =>
    have hcall : Passes queueStep (connections backlog, none)
        (.call (r - 1) :: (es ++ returned result)) (connections rest, none) :=
      passes_cons.mpr ⟨_, rfl, ih.append (passes_returned result _)⟩
    exact (passes_badEvents hc).append hcall

/-- What was taken from the queue is what was accepted, and its messages are what was processed and
what is still to be. -/
theorem exists_taken_of_passes {conns : List Connection} {current current' : Option (List UInt8)}
    {es : List Event} (h : Passes queueStep (conns, current) es (pending, current')) :
    ∃ taken, conns = taken ++ pending ∧ accepts es = taken.map Connection.connfd ∧
      (current.toList ++ taken.filterMap Connection.message).map some =
        processed es ++ current'.toList.map some := by
  induction es generalizing conns current with
  | nil =>
    obtain ⟨rfl, rfl⟩ := Prod.mk.inj (passes_nil.mp h)
    exact ⟨[], rfl, rfl, by simp [processed]⟩
  | cons e es ih =>
    obtain ⟨⟨conns', current''⟩, hstep, hrest⟩ := passes_cons.mp h
    obtain ⟨taken, rfl, haccepts, hmessages⟩ := ih hrest
    cases e with
    | accept connfd =>
      -- the connection at the head is taken, and its message is the next
      rcases conns with _ | ⟨c, conns⟩ <;> rcases current with _ | current <;>
        simp only [queueStep, reduceCtorEq] at hstep
      split_ifs at hstep with hfd
      obtain ⟨rfl, rfl⟩ := Prod.mk.inj (Option.some.inj hstep)
      refine ⟨c :: taken, rfl, ?_, ?_⟩
      · rw [List.map_cons, ← haccepts, ← hfd]
        rfl
      · rw [show processed (.accept connfd :: es) = processed es from rfl, ← hmessages]
        cases hc : c.message <;> simp [hc]
    | processJsonAlarm msg =>
      rcases current with _ | current <;> simp only [queueStep, reduceCtorEq] at hstep
      split_ifs at hstep with hmsg
      obtain ⟨rfl, rfl⟩ := Prod.mk.inj (Option.some.inj hstep)
      refine ⟨taken, rfl, haccepts, ?_⟩
      rw [show processed (.processJsonAlarm msg :: es) = msg :: processed es from rfl, hmsg,
        List.cons_append, ← hmessages]
      rfl
    | _ =>
      obtain ⟨rfl, rfl⟩ := Prod.mk.inj (Option.some.inj hstep)
      exact ⟨taken, rfl, haccepts, hmessages⟩

/-- With no connection accepted, at most one message is processed. -/
theorem processed_le_one {conns : List Connection} {current current' : Option (List UInt8)}
    {es : List Event} (h : Passes queueStep (conns, current) es (pending, current'))
    (hnone : accepts es = []) : (processed es).length ≤ 1 := by
  obtain ⟨taken, -, haccepts, hmessages⟩ := exists_taken_of_passes h
  obtain rfl : taken = [] := List.map_eq_nil_iff.mp (haccepts.symm.trans hnone)
  have hlength := congrArg List.length hmessages
  simp only [List.filterMap_nil, List.append_nil, List.length_map, List.length_append] at hlength
  have hcurrent := current.length_toList_le
  omega

/-! ## Crashes -/

section Crashes

variable (t : Tokener) (jc : JsonC) (memory : ℕ → List UInt8)

/-- Whether the messages of some connections, dispatched in order, crash the program. -/
def crashesOn (conns : List Connection) : Bool :=
  (((conns.filterMap Connection.message).map some).foldl (Process.dispatch t jc memory)
    .start).crashed

variable {t jc memory} {conns : List Connection} {es front back : List Event}

/-- More messages do not undo a crash. -/
theorem crashed_of_prefix {msgs msgs' : List (Option (List UInt8))} (h : msgs <+: msgs')
    {p : Process} (hcrashed : (msgs.foldl (Process.dispatch t jc memory) p).crashed = true) :
    (msgs'.foldl (Process.dispatch t jc memory) p).crashed = true := by
  obtain ⟨more, rfl⟩ := h
  rw [List.foldl_append, foldl_dispatch_crashed _ hcrashed, hcrashed]

theorem crashesOn_of_prefix {conns' : List Connection} (h : conns <+: conns')
    (hcrash : crashesOn t jc memory conns) : crashesOn t jc memory conns' :=
  crashed_of_prefix ((h.filterMap _).map some) hcrash

/-- A crash with no connection accepted since a point is due to the connections before it. -/
theorem crashesOn_of_crashed {current : Option (List UInt8)}
    (h : Passes queueStep (conns, none) (front ++ back) (pending, current))
    (hnone : accepts back = [])
    (hcrashed : ((front ++ back).foldl (Process.step t jc memory) .start).crashed = true) :
    crashesOn t jc memory (conns.take (accepts front).length) := by
  obtain ⟨taken, rfl, haccepts, hmessages⟩ := exists_taken_of_passes h
  rw [accepts_append, hnone, List.append_nil] at haccepts
  rw [haccepts, List.length_map, List.take_left]
  -- what was processed is among the messages taken
  rw [foldl_step] at hcrashed
  exact crashed_of_prefix ⟨_, hmessages.symm⟩ hcrashed

/-- Once a message received crashes the program, no connection is accepted any more. -/
theorem accepts_eq_nil_of_crashesOn {s : List Connection × Option (List UInt8)}
    (hqueue : Passes queueStep (conns, none) es s)
    (h : upToCrash t jc memory .start es = front ++ back)
    (hcrash : crashesOn t jc memory (conns.take (accepts front).length)) : accepts back = [] := by
  by_contra hne
  -- up to a later `accept` the program has not crashed, and no message waits
  obtain ⟨connfd, hmem⟩ := List.exists_mem_of_ne_nil _ hne
  obtain ⟨e, he, hconnfd⟩ := List.mem_filterMap.mp hmem
  cases e <;> cases hconnfd
  obtain ⟨mid, rest, rfl⟩ := List.append_of_mem he
  rw [← List.append_assoc] at h
  have hlives := crashed_eq_false_of_upToCrash h
  obtain ⟨tail, hsplit⟩ := upToCrash_isPrefix t jc memory es .start
  rw [h, List.append_assoc] at hsplit
  rw [← hsplit] at hqueue
  obtain ⟨⟨pending, current⟩, hfront, hrest⟩ := passes_append.mp hqueue
  obtain ⟨_, haccept, -⟩ := passes_cons.mp hrest
  have hcurrent : current = none := by
    rcases pending with _ | ⟨c, pending⟩ <;> rcases current with _ | current <;> first
      | rfl
      | cases haccept
  subst hcurrent
  obtain ⟨taken, rfl, haccepts, hmessages⟩ := exists_taken_of_passes hfront
  -- so all the messages received so far were dispatched
  have hprocessed : processed (front ++ mid) = (taken.filterMap Connection.message).map some := by
    simpa using hmessages.symm
  have htaken : (accepts front).length ≤ taken.length := by
    rw [← List.length_map (f := Connection.connfd), ← haccepts, accepts_append, List.length_append]
    omega
  rw [List.take_append_of_le_length htaken] at hcrash
  have hcrashed : crashesOn t jc memory taken := crashesOn_of_prefix (List.take_prefix _ _) hcrash
  rw [foldl_step, hprocessed] at hlives
  rw [crashesOn, hlives] at hcrashed
  cases hcrashed

end Crashes

/-! ## The process -/

/-- A step of the process: the server does something, or the handler of a signal runs. -/
inductive ProcessStep where
  | server (e : Event)
  | stopServer
  deriving DecidableEq, Repr

/-- The handler runs on what `main` keeps, which the server does not touch. -/
def ProcessStep.apply (m : MainState) : ProcessStep → MainState
  | .server _ => m
  | .stopServer => TrapServer.stopServer m

/-- `keep_running` after the steps; `main` sets it to 1 before it starts the server. -/
def keepRunning (steps : List ProcessStep) : ℤ :=
  (steps.foldl ProcessStep.apply ⟨1, none, []⟩).keepRunning

/-- What the server does in the steps. -/
def serverEvents (steps : List ProcessStep) : List Event :=
  steps.filterMap fun
    | .server e => some e
    | .stopServer => none

theorem serverEvents_append (steps steps' : List ProcessStep) :
    serverEvents (steps ++ steps') = serverEvents steps ++ serverEvents steps' :=
  List.filterMap_append

/-- The trace of a server that listens is that of its outermost call. -/
theorem startAlarmServer_trace {env : StartEnv} {port : ℤ} {info : ServerInfo}
    (h : Listening env port info) (backlog : List (Option Connection)) :
    (startAlarmServer env port backlog).2.trace =
      (handleServerMessages ⟨backlog, retries, []⟩).2.trace := by
  rw [startAlarmServer_of_listening h]
  show _ = (handleServerMessages ⟨backlog, 5, []⟩).2.trace
  rcases handleServerMessages ⟨backlog, 5, []⟩ with ⟨_ | error, s⟩ <;> rfl

/-- The handler clears the flag, and nothing sets it again. -/
theorem keepRunning_of_stopRequest (before after : List ProcessStep) :
    keepRunning (before ++ .stopServer :: after) = 0 := by
  have hkept : ∀ (m : MainState), m.keepRunning = 0 →
      (after.foldl ProcessStep.apply m).keepRunning = 0 := by
    induction after with
    | nil => exact fun m hm => hm
    | cons step after ih => cases step <;> exact fun m hm => ih _ (by first | exact hm | rfl)
  rw [keepRunning, List.foldl_append, List.foldl_cons]
  exact hkept _ rfl

/-- What the loop accepts in front of a point of its run leaves something to accept after it, and
a retry for each bad connection, unless it is all the loop accepts. -/
theorem LoopRun.accepts_split {backlog left : List (Option Connection)} {r r' : ℤ}
    {es : List Event} {result : Option ℤ} (h : LoopRun backlog r es result left r') (hr : 0 ≤ r)
    {front rest : List ℕ} (hsplit : accepts es = front ++ rest) :
    rest = [] ↔ (connections backlog).drop front.length = [] ∨
      r < ((connections backlog).take front.length).countP badConnection := by
  obtain ⟨taken, hconn, haccepts, hend, hfew⟩ := h.accepts_eq hr
  have hlen : front.length + rest.length = taken.length := by
    rw [← List.length_append, ← hsplit, haccepts, List.length_map]
  have hle : front.length ≤ taken.length := Nat.le.intro hlen
  rw [hconn, List.take_append_of_le_length hle, List.drop_append_of_le_length hle]
  constructor
  · rintro rfl
    have hall : front.length = taken.length := hlen
    rw [hall, List.drop_length, List.take_length, List.nil_append]
    exact hend
  · rintro (hnothing | hspent)
    · have hdrop : taken.drop front.length = [] := (List.append_eq_nil_iff.mp hnothing).1
      have hge := List.drop_eq_nil_iff.mp hdrop
      exact List.eq_nil_of_length_eq_zero (by omega)
    · -- a shorter front would still have its retries
      rcases Nat.lt_or_ge front.length taken.length with hlt | hge
      · exact absurd (hfew _ hlt) (Int.not_le.mpr hspent)
      · exact List.eq_nil_of_length_eq_zero (by omega)

section StopRequest

variable (t : Tokener) (jc : JsonC) (memory : ℕ → List UInt8)

/-- **The flag is cleared, and the request is honoured iff nothing is left to accept, the bad
connections accepted so far have used up the retries, or a message received so far crashes the
program**: then no connection is accepted any more and at most the one accepted last is processed. A
server that can go on does. -/
theorem stopRequest_honoured_iff {env : StartEnv} {port : ℤ} {info : ServerInfo}
    (hlisten : Listening env port info) {backlog : List (Option Connection)}
    {before after : List ProcessStep}
    (hrun : serverEvents (before ++ .stopServer :: after) =
      upToCrash t jc memory .start (startAlarmServer env port backlog).2.trace) :
    keepRunning (before ++ .stopServer :: after) = 0 ∧
    ((accepts (serverEvents after) = [] ∧ (processed (serverEvents after)).length ≤ 1) ↔
      (connections backlog).drop (accepts (serverEvents before)).length = [] ∨
        retries ≤ ((connections backlog).take (accepts (serverEvents before)).length).countP
          badConnection ∨
        crashesOn t jc memory
          ((connections backlog).take (accepts (serverEvents before)).length)) := by
  refine ⟨keepRunning_of_stopRequest before after, ?_⟩
  have hevents : serverEvents (before ++ .stopServer :: after) =
      serverEvents before ++ serverEvents after := serverEvents_append before _
  rw [startAlarmServer_trace hlisten, hevents] at hrun
  obtain ⟨hr, -⟩ | ⟨-, es, result, left, r', hloop, hhandle⟩ :=
    handleServerMessages_run backlog retries
  · exact absurd hr (by decide)
  · rw [hhandle] at hrun
    set trace := Event.call (retries - 1) :: (es ++ returned result) with htrace
    have hqueue : Passes queueStep (connections backlog, none) trace (connections left, none) :=
      passes_cons.mpr ⟨_, rfl, hloop.queue.append (passes_returned result _)⟩
    -- the events are those of the server but for a rest
    obtain ⟨rest, hsplit⟩ := upToCrash_isPrefix t jc memory trace .start
    rw [← hrun] at hsplit
    have haccepts : accepts es = accepts (serverEvents before) ++
        (accepts (serverEvents after) ++ accepts rest) := by
      rw [← accepts_append, ← accepts_append, ← List.append_assoc, hsplit, htrace]
      show accepts es = accepts (es ++ returned result)
      rw [accepts_append, accepts_returned, List.append_nil]
    have hspent : (retries ≤ ((connections backlog).take
        (accepts (serverEvents before)).length).countP badConnection) ↔
        retries - 1 < ((connections backlog).take
          (accepts (serverEvents before)).length).countP badConnection := by
      omega
    have hnothing := hloop.accepts_split (by decide) haccepts
    rw [← hspent] at hnothing
    obtain ⟨⟨pending, current⟩, hpassed, -⟩ := passes_append.mp (hsplit ▸ hqueue)
    obtain ⟨⟨pending', current'⟩, -, hback⟩ := passes_append.mp hpassed
    rw [and_iff_left_of_imp (processed_le_one hback), ← or_assoc, ← hnothing,
      List.append_eq_nil_iff]
    constructor
    · intro hnone
      by_cases hrest : rest = []
      · exact Or.inl ⟨hnone, hrest ▸ rfl⟩
      · -- the events stop short of the rest, at a crash
        rw [← hsplit] at hrun
        have hcrashed := crashed_of_upToCrash hrun.symm hrest
        exact Or.inr (crashesOn_of_crashed hpassed hnone hcrashed)
    · rintro (⟨hnone, -⟩ | hcrash)
      · exact hnone
      · exact accepts_eq_nil_of_crashesOn hqueue hrun.symm hcrash

end StopRequest

/-- What happens after a quick start, with a parser that knows the warm start. -/
abbrev happens (backlog : List (Option Connection)) : List Event :=
  upToCrash warmStartTokener (.ofParse fun _ => .null) (fun _ => []) .start
    (startAlarmServer quickStart 162 backlog).2.trace

/-- A request while the only connection is being served. -/
theorem stopRequest_honoured_at_last :
    let back : List Event :=
      [.malloc 30, .processJsonAlarm (some warmStartPayload), .free, .close 7]
    accepts (serverEvents (back.map .server)) = [] ∧
      (processed (serverEvents (back.map .server))).length ≤ 1 := by
  have hrun : serverEvents ([.server (.call 4), .server (.accept 7)] ++ .stopServer ::
      [.malloc 30, .processJsonAlarm (some warmStartPayload), .free, .close 7].map .server) =
      happens [some warmStartMessage] := by decide +kernel
  exact (stopRequest_honoured_iff _ _ _ quickStart_listening hrun).2.mpr (Or.inl rfl)

/-- Three warm starts, with a request after the first: the other two are accepted and processed all
the same. -/
theorem stopRequest_ignored :
    let served := goodEvents warmStartMessage warmStartPayload
    let front := (.call 4 :: served).map ProcessStep.server
    let back := (served ++ served).map ProcessStep.server
    serverEvents (front ++ .stopServer :: back) =
        happens [some warmStartMessage, some warmStartMessage, some warmStartMessage] ∧
      keepRunning (front ++ [.stopServer]) = 0 ∧
      accepts (serverEvents back) = [7, 7] ∧
      processed (serverEvents back) = [some warmStartPayload, some warmStartPayload] := by
  decide +kernel

end StxSnmp.TrapServer
