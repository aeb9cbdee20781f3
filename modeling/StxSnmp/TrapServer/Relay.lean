import StxSnmp.Trap.WellFormed
import StxSnmp.TrapServer.Reception

/-!
# From connections to traps

The trap sub-agent as a whole: the server reads messages from connections and gives each to the
dispatcher, which sends its trap or crashes the program, and then nothing more is served.

## Main definitions

* `Process`, `Process.dispatch`: what the program has sent, and a message given to the dispatcher
* `upToCrash`: the events of the server as far as the program lives
* `relay`: the program after a run of the server
* `served`: the results of `accept` up to the fifth bad connection
* `Notice`, `Arrival`: a message that reports an alarm, and how it gets to the server

## Main results

* `relay_sends`: the nested calls of the server are a queue of messages, up to a crash
* `relay_describedByMib`: whatever arrives, every trap sent is one the MIB describes
* `relay_delivers`: every alarm reported is sent as one trap, in the order of the connections
-/

namespace StxSnmp.TrapServer

open Trap

/-! ## The program -/

/-- The traps sent in order, the messages dispatched, and whether the program has crashed. -/
structure Process where
  traps : List (List Varbind)
  dispatched : ℕ
  crashed : Bool
  deriving DecidableEq, Repr

def Process.start : Process := ⟨[], 0, false⟩

section Program

variable (t : Tokener) (jc : JsonC) (after : ℕ → List UInt8)

/-- `process_json_alarm` on a buffer, `after` being the readable memory that follows the buffer of
each message. A parser that leaves that too, or a fault of a sender, crashes the program. -/
def Process.dispatch (p : Process) (msg : Option (List UInt8)) : Process :=
  if p.crashed then p
  else
    match msg with
    -- a null is refused at once
    | none => p
    | some payload =>
      match processBuffer t jc payload (after p.dispatched) with
      | some (.ok (_, traps)) => ⟨p.traps ++ traps, p.dispatched + 1, false⟩
      | some (.error _) | none => { p with crashed := true }

/-- An event of the server, with what the dispatcher does in it. -/
def Process.step (p : Process) : Event → Process
  | .processJsonAlarm msg => p.dispatch t jc after msg
  | _ => p

/-- The events of the server that happen: none comes after the one in which the program crashes. -/
def upToCrash (p : Process) : List Event → List Event
  | [] => []
  | e :: es => if p.crashed then [] else e :: upToCrash (p.step t jc after e) es

/-- The program after a start and what it accepts. -/
def relay (env : StartEnv) (port : ℤ) (backlog : List (Option Connection)) : Process :=
  (startAlarmServer env port backlog).2.trace.foldl (Process.step t jc after) .start

end Program

/-- The results of `accept` before the bad connection that finds `r` bad ones before it. -/
def served : ℕ → List (Option Connection) → List (Option Connection)
  | _, [] => []
  | r, accepted :: backlog =>
    if isBad accepted then if r = 0 then [] else accepted :: served (r - 1) backlog
    else accepted :: served r backlog

/-! ## The server as a queue -/

theorem served_of_countP_le {r : ℕ} {backlog : List (Option Connection)}
    (h : backlog.countP isBad ≤ r) : served r backlog = backlog := by
  induction backlog generalizing r with
  | nil => rfl
  | cons accepted backlog ih =>
    by_cases hbad : isBad accepted = true
    · rw [List.countP_cons_of_pos hbad] at h
      rw [served, if_pos hbad, if_neg (by omega), ih (by omega)]
    · rw [List.countP_cons_of_neg hbad] at h
      rw [served, if_neg hbad, ih h]

theorem served_append_cons {before after : List (Option Connection)} {accepted : Option Connection}
    (hbad : isBad accepted = true) :
    served (before.countP isBad) (before ++ accepted :: after) = before := by
  induction before with
  | nil => rw [List.countP_nil, List.nil_append, served, if_pos hbad, if_pos rfl]
  | cons first before ih =>
    rw [List.cons_append, served]
    by_cases hfirst : isBad first = true
    · rw [if_pos hfirst, List.countP_cons_of_pos hfirst, if_neg (Nat.succ_ne_zero _),
        Nat.add_sub_cancel, ih]
    · rw [if_neg hfirst, List.countP_cons_of_neg hfirst, ih]

section Program

variable {t : Tokener} {jc : JsonC} {after : ℕ → List UInt8}

/-- Only the messages given to the dispatcher matter. -/
theorem foldl_step (es : List Event) (p : Process) :
    es.foldl (Process.step t jc after) p =
      (processed es).foldl (Process.dispatch t jc after) p := by
  induction es generalizing p with
  | nil => rfl
  | cons e es ih =>
    rw [List.foldl_cons, ih]
    cases e <;> rfl

/-- The nested calls of the server are a queue: the program dispatches the messages of the good
connections before the fifth bad one, in order. -/
theorem relay_eq_dispatch {env : StartEnv} {port : ℤ} {info : ServerInfo}
    (h : Listening env port info) (backlog : List (Option Connection)) :
    relay t jc after env port backlog =
      ((messages (served 4 backlog)).map some).foldl (Process.dispatch t jc after) .start := by
  rw [relay, startAlarmServer_of_listening h, foldl_step]
  obtain ⟨hfew, es, r', hhandle, hprocessed, -⟩ |
    ⟨before, c, rest, es, rfl, hc, hcount, hhandle, hprocessed, -⟩ :=
    handleServerMessages_cases backlog
  · rw [hhandle, served_of_countP_le (by omega), ← hprocessed]
    rfl
  · have hbad : isBad (some c) = true := by simp [isBad, hc]
    have hserved : served (before.countP isBad) (before ++ some c :: rest) = before :=
      served_append_cons hbad
    rw [hcount] at hserved
    rw [hhandle, hserved, ← hprocessed]
    show (processed (es ++ [.ret defaultError])).foldl _ _ = _
    rw [processed_append]
    exact congrArg (fun msgs => List.foldl _ _ msgs) (List.append_nil _)

/-- A crash is the end of the program. -/
theorem foldl_dispatch_crashed (msgs : List (Option (List UInt8))) {p : Process}
    (h : p.crashed = true) : msgs.foldl (Process.dispatch t jc after) p = p := by
  induction msgs with
  | nil => rfl
  | cons msg msgs ih =>
    have hstep : Process.dispatch t jc after p msg = p := if_pos h
    rw [List.foldl_cons, hstep, ih]

theorem foldl_step_crashed {p : Process} (hp : p.crashed = true) (es : List Event) :
    es.foldl (Process.step t jc after) p = p := by
  rw [foldl_step, foldl_dispatch_crashed _ hp]

/-! ## The events up to a crash -/

theorem upToCrash_of_crashed {p : Process} (hp : p.crashed = true) (es : List Event) :
    upToCrash t jc after p es = [] := by
  cases es with
  | nil => rfl
  | cons e es => exact if_pos hp

/-- What happens after some events happens to the program they leave. -/
theorem upToCrash_append (es es' : List Event) (p : Process) :
    upToCrash t jc after p (es ++ es') = upToCrash t jc after p es ++
      upToCrash t jc after (es.foldl (Process.step t jc after) p) es' := by
  induction es generalizing p with
  | nil => rfl
  | cons e es ih =>
    rw [List.cons_append, upToCrash, upToCrash, List.foldl_cons]
    by_cases hp : p.crashed = true
    · -- the crashed program stays as it is
      have hstep : p.step t jc after e = p := foldl_step_crashed hp [e]
      rw [if_pos hp, if_pos hp, hstep, foldl_step_crashed hp, upToCrash_of_crashed hp,
        List.append_nil]
    · rw [if_neg hp, if_neg hp, ih, List.cons_append]

variable (t jc after) in
theorem upToCrash_isPrefix (es : List Event) (p : Process) : upToCrash t jc after p es <+: es := by
  induction es generalizing p with
  | nil => exact List.prefix_rfl
  | cons e es ih =>
    rw [upToCrash]
    split_ifs with hp
    · exact List.nil_prefix
    · exact (List.prefix_cons_inj e).mpr (ih _)

/-- All the events of a program that survives them happen. -/
theorem upToCrash_of_survives {es : List Event} {p : Process}
    (h : (es.foldl (Process.step t jc after) p).crashed = false) :
    upToCrash t jc after p es = es := by
  induction es generalizing p with
  | nil => rfl
  | cons e es ih =>
    have hp : ¬ p.crashed = true := by
      intro hp
      rw [foldl_step_crashed hp, hp] at h
      cases h
    rw [upToCrash, if_neg hp, ih h]

/-- Before an event that happens the program has not crashed. -/
theorem crashed_eq_false_of_upToCrash {es front rest : List Event} {e : Event} {p : Process}
    (h : upToCrash t jc after p es = front ++ e :: rest) :
    (front.foldl (Process.step t jc after) p).crashed = false := by
  obtain ⟨tail, hsplit⟩ := upToCrash_isPrefix t jc after es p
  rw [h, List.append_assoc] at hsplit
  by_contra hcrashed
  -- then no more than the front happens
  have hfront : upToCrash t jc after p front = front ++ e :: rest := by
    rw [← h, ← hsplit, upToCrash_append front,
      upToCrash_of_crashed (Bool.eq_true_of_not_eq_false hcrashed), List.append_nil]
  have hlength := (upToCrash_isPrefix t jc after front p).length_le
  rw [hfront, List.length_append, List.length_cons] at hlength
  omega

/-- The events stop short of those of the server at a crash only. -/
theorem crashed_of_upToCrash {es rest : List Event} {p : Process}
    (h : upToCrash t jc after p (es ++ rest) = es) (hrest : rest ≠ []) :
    (es.foldl (Process.step t jc after) p).crashed = true := by
  by_contra hcrashed
  have hsurvives := Bool.eq_false_iff.mpr hcrashed
  rw [upToCrash_append, upToCrash_of_survives hsurvives, List.append_right_eq_self] at h
  -- the first event of the rest would happen too
  cases rest with
  | nil => exact hrest rfl
  | cons e rest =>
    rw [upToCrash, if_neg hcrashed] at h
    cases h

variable (t jc after) in
/-- The message dispatched as number `k` sends `traps` and no others. -/
def Sends (msg : List UInt8 × ℕ) (traps : List (List Varbind)) : Prop :=
  ∃ result, processBuffer t jc msg.1 (after msg.2) = some (.ok (result, traps))

/-- A message sends one trap at most. -/
theorem Sends.length_le {msg : List UInt8 × ℕ} {traps : List (List Varbind)}
    (h : Sends t jc after msg traps) : traps.length ≤ 1 := by
  obtain ⟨result, h⟩ := h
  obtain ⟨parsedJson, -, hdispatch⟩ := Option.map_eq_some_iff.mp h
  obtain ⟨⟨error, traps'⟩, hsent, hresult⟩ := OptionalFields.exists_of_map_eq_ok hdispatch
  obtain ⟨-, rfl⟩ := Prod.mk.inj hresult
  cases hoperation : jc.getString ((jc.objectGetEx parsedJson "operation_type").getD .null) with
  | none =>
    rw [hoperation] at hsent
    cases hsent
  | some optType =>
    rw [hoperation] at hsent
    rw [selectSender_length hsent]
    split_ifs <;> decide

/-- A queue of messages is dispatched up to its end or to the first message that crashes. -/
theorem foldl_dispatch_cases (msgs : List (List UInt8)) (traps : List (List Varbind)) (k : ℕ) :
    ∃ done rest sent, msgs = done ++ rest ∧
      List.Forall₂ (Sends t jc after) (done.zipIdx k) sent ∧
      (msgs.map some).foldl (Process.dispatch t jc after) ⟨traps, k, false⟩ =
        ⟨traps ++ sent.flatten, k + done.length, !rest.isEmpty⟩ ∧
      ∀ msg ∈ rest.head?, ∀ traps', ¬ Sends t jc after (msg, k + done.length) traps' := by
  induction msgs generalizing traps k with
  | nil => exact ⟨[], [], [], rfl, .nil, by simp, by simp⟩
  | cons msg msgs ih =>
    rw [List.map_cons, List.foldl_cons]
    by_cases hsends : ∃ traps', Sends t jc after (msg, k) traps'
    · obtain ⟨traps', hsends⟩ := hsends
      obtain ⟨result, hok⟩ := id hsends
      have hstep : Process.dispatch t jc after ⟨traps, k, false⟩ (some msg) =
          ⟨traps ++ traps', k + 1, false⟩ := by
        simp only [Process.dispatch, hok]
        rfl
      obtain ⟨done, rest, sent, rfl, hsent, hrun, hrest⟩ := ih (traps ++ traps') (k + 1)
      have hlength : k + (msg :: done).length = k + 1 + done.length := by
        rw [List.length_cons]
        omega
      refine ⟨msg :: done, rest, traps' :: sent, rfl, .cons hsends hsent, ?_, ?_⟩
      · rw [hstep, hrun, List.flatten_cons, List.append_assoc, hlength]
      · rwa [hlength]
    · -- nothing is dispatched from here on
      have hstep : Process.dispatch t jc after ⟨traps, k, false⟩ (some msg) =
          ⟨traps, k, true⟩ := by
        rcases hbuffer : processBuffer t jc msg (after k) with _ | fault | ⟨result, traps'⟩
        · simp [Process.dispatch, hbuffer]
        · simp [Process.dispatch, hbuffer]
        · exact absurd ⟨traps', result, hbuffer⟩ hsends
      refine ⟨[], msg :: msgs, [], rfl, .nil, ?_, ?_⟩
      · rw [hstep, foldl_dispatch_crashed _ rfl]
        simp
      · intro msg' hmsg' traps' h
        cases hmsg'
        exact hsends ⟨traps', h⟩

/-- **What the program sends**: the good connections before the fifth bad one are a queue of
messages, dispatched in order up to its end or to the first that crashes the program; each message
before that one sends its own trap or none, and nothing else is sent. -/
theorem relay_sends {env : StartEnv} {port : ℤ} {info : ServerInfo}
    (h : Listening env port info) (backlog : List (Option Connection)) :
    ∃ done rest sent, messages (served 4 backlog) = done ++ rest ∧
      List.Forall₂ (fun msg traps => Sends t jc after msg traps ∧ traps.length ≤ 1)
        done.zipIdx sent ∧
      relay t jc after env port backlog = ⟨sent.flatten, done.length, !rest.isEmpty⟩ ∧
      ∀ msg ∈ rest.head?, ∀ traps, ¬ Sends t jc after (msg, done.length) traps := by
  obtain ⟨done, rest, sent, hsplit, hsent, hrun, hrest⟩ :=
    @foldl_dispatch_cases t jc after (messages (served 4 backlog)) [] 0
  rw [List.nil_append, Nat.zero_add] at hrun
  rw [Nat.zero_add] at hrest
  refine ⟨done, rest, sent, hsplit, ?_, ?_, hrest⟩
  · exact hsent.imp fun _ _ hs => ⟨hs, hs.length_le⟩
  · rw [relay_eq_dispatch h]
    exact hrun

/-- A message adds well-formed traps only. -/
theorem Process.dispatch_wellFormed {p : Process} (h : ∀ trap ∈ p.traps, WellFormed trap)
    (msg : Option (List UInt8)) :
    ∀ trap ∈ (p.dispatch t jc after msg).traps, WellFormed trap := by
  unfold Process.dispatch
  split_ifs with hcrashed
  · exact h
  · rcases msg with _ | payload
    · exact h
    rcases hbuffer : processBuffer t jc payload (after p.dispatched) with
      _ | fault | ⟨result, traps⟩
    · simpa only [hbuffer] using h
    · simpa only [hbuffer] using h
    · obtain ⟨parsedJson, -, hsent⟩ := Option.map_eq_some_iff.mp hbuffer
      simp only [hbuffer]
      intro trap htrap
      obtain hold | hnew := List.mem_append.mp htrap
      · exact h trap hold
      · exact Trap.dispatch_wellFormed hsent trap hnew

theorem foldl_wellFormed {es : List Event} {p : Process} (h : ∀ trap ∈ p.traps, WellFormed trap) :
    ∀ trap ∈ (es.foldl (Process.step t jc after) p).traps, WellFormed trap := by
  induction es generalizing p with
  | nil => exact h
  | cons e es ih =>
    refine ih ?_
    cases e with
    | processJsonAlarm msg => exact Process.dispatch_wellFormed h msg
    | _ => exact h

/-- Every trap a run sends is well formed. -/
theorem wellFormed_of_mem_relay {env : StartEnv} {port : ℤ} {backlog : List (Option Connection)}
    {trap : List Varbind} (htrap : trap ∈ (relay t jc after env port backlog).traps) :
    WellFormed trap :=
  foldl_wellFormed (fun _ hnil => absurd hnil List.not_mem_nil) trap htrap

/-- **Only traps of the MIB are sent**: whatever the connections bring, however the parser and the
library behave, and even if the program crashes, every trap sent is a warm start or names a
notification of the MIB and carries, besides the UUID, objects of its clause, each once, in order
and with a text or an integer as its column has it. -/
theorem relay_describedByMib (t : Tokener) (jc : JsonC) (after : ℕ → List UInt8) (env : StartEnv)
    (port : ℤ) (backlog : List (Option Connection)) :
    ∀ trap ∈ (relay t jc after env port backlog).traps,
      DescribedByMib trap ∧ (trap.tail.map Varbind.name).Pairwise (· < ·) := by
  intro trap htrap
  have hwell := wellFormed_of_mem_relay htrap
  refine ⟨hwell.describedByMib, ?_⟩
  obtain rfl | ⟨optType, -, htrapOf⟩ := hwell
  · exact .nil
  · exact htrapOf.ascending

end Program

/-! ## Alarms reported and traps sent -/

section Notices

variable (t : Tokener) (jc : JsonC)

/-- A message that reports an alarm: its bytes complete an object with an operation, which is
neither an event nor a warm start, and an alarm, whose texts are not null. -/
structure Notice where
  payload : List UInt8
  optType : String
  operationType : Json
  message : List (String × Json)
  alarm : List (String × Json)
  length_pos : 1 ≤ payload.length
  length_le : payload.length ≤ maxRwCount
  parse : t.parse payload = some (.object message)
  lookup_operation : message.lookup "operation_type" = some operationType
  getString : jc.getString operationType = some optType
  ne_event : optType ≠ alarmMsg
  ne_warmStart : optType ≠ warmStart
  lookup_alarm : message.lookup "alarm" = some (.object alarm)
  texts : ∀ c ∈ (notification optType).columns, c.isText = true →
    alarm.lookup c.name ≠ some .null

variable {t jc}

/-- The trap of the notification, with the columns the alarm gives. -/
def Notice.trap (n : Notice t jc) : List Varbind := trapVarbinds jc (notification n.optType) n.alarm

variable (t jc) in
/-- What `accept` returns: a failure, a connection without a message, or one on which a notice is
sent behind its length, cut anywhere but in the notice. -/
inductive Arrival where
  | failed
  | bad (c : Connection) (h : c.message = none)
  | sent (n : Notice t jc) (connfd : ℕ) (pieces : List (List UInt8))
    (hne : ∀ piece ∈ pieces, piece ≠ [])
    (hflat : pieces.flatten = htonl n.payload.length ++ n.payload)
    (hwhole : n.payload.length ≤ (pieces.getLastD []).length)

namespace Arrival

def accepted : Arrival t jc → Option Connection
  | failed => none
  | bad c _ => some c
  | sent _ connfd pieces _ _ _ => some ⟨connfd, pieces.map Recv.bytes, true⟩

def notice : Arrival t jc → Option (Notice t jc)
  | failed | bad _ _ => none
  | sent n _ _ _ _ _ => some n

/-- A notice is received as it was sent. -/
theorem message_accepted (a : Arrival t jc) :
    a.accepted.bind Connection.message = a.notice.map Notice.payload := by
  cases a with
  | failed => rfl
  | bad c h => exact h
  | sent n connfd pieces hne hflat hwhole =>
    have hlt : n.payload.length < 2 ^ 32 := by
      have hle := n.length_le
      unfold maxRwCount at hle
      omega
    exact (message_pieces hne n.length_pos hlt hflat connfd).mpr ⟨n.length_le, hwhole⟩

theorem messages_accepted (arrivals : List (Arrival t jc)) :
    messages (arrivals.map accepted) = (arrivals.filterMap notice).map Notice.payload := by
  rw [messages, List.filterMap_map, List.map_filterMap]
  exact List.filterMap_congr fun a _ => a.message_accepted

end Arrival

variable (hdoc : jc.Documented) {after : ℕ → List UInt8}

include hdoc

/-- A notice is sent as its trap, whatever follows it in memory. -/
theorem processBuffer_notice (n : Notice t jc) (rest : List UInt8) :
    processBuffer t jc n.payload rest = some (.ok (0, [n.trap])) := by
  have hparse : t.parse (n.payload ++ rest) = some (.object n.message) :=
    t.reader.readFrom_append_of_some n.parse
  have hsend : selectSender jc (some n.optType) (.object n.message) =
      .ok (snmpErrNoError, [n.trap]) := by
    rw [selectSender_eq jc n.ne_event n.ne_warmStart]
    refine sendTrap_columns hdoc ?_ n.texts
    rw [hdoc.objectGetEx_object, n.lookup_alarm]
  rw [processBuffer, hparse]
  simp only [Option.map_some, Trap.dispatch, hdoc.objectGetEx_object, n.lookup_operation,
    Option.getD_some, n.getString, hsend]
  rfl

theorem foldl_dispatch_notices (notices : List (Notice t jc)) (traps : List (List Varbind))
    (k : ℕ) :
    (notices.map fun n => some n.payload).foldl (Process.dispatch t jc after) ⟨traps, k, false⟩ =
      ⟨traps ++ notices.map Notice.trap, k + notices.length, false⟩ := by
  induction notices generalizing traps k with
  | nil => simp
  | cons n notices ih =>
    have hstep : Process.dispatch t jc after ⟨traps, k, false⟩ (some n.payload) =
        ⟨traps ++ [n.trap], k + 1, false⟩ := by
      simp only [Process.dispatch, processBuffer_notice hdoc n]
      rfl
    rw [List.map_cons, List.foldl_cons, hstep, ih]
    simp [Nat.add_assoc, Nat.add_comm]

/-- A notice that arrives alone is sent. -/
theorem relay_arrival {env : StartEnv} {port : ℤ} {info : ServerInfo}
    (h : Listening env port info) {a : Arrival t jc} {n : Notice t jc} (ha : a.notice = some n) :
    relay t jc after env port [a.accepted] = ⟨[n.trap], 1, false⟩ := by
  have hfew : [a.accepted].countP isBad ≤ 4 := by
    have hle : [a.accepted].countP isBad ≤ [a.accepted].length := List.countP_le_length
    exact hle.trans (by simp)
  have hmessages : messages [a.accepted] = [n.payload] := by
    simpa [ha] using Arrival.messages_accepted [a]
  rw [relay_eq_dispatch h, served_of_countP_le hfew, hmessages]
  exact foldl_dispatch_notices hdoc [n] [] 0

/-- **Every alarm reported is sent once, in order**: while fewer than five connections are bad, the
traps sent are those of the notices, one for each and in the order their connections were
accepted, and the program does not crash. -/
theorem relay_delivers {env : StartEnv} {port : ℤ} {info : ServerInfo}
    (h : Listening env port info) (arrivals : List (Arrival t jc))
    (hfew : (arrivals.map Arrival.accepted).countP isBad < 5) :
    relay t jc after env port (arrivals.map Arrival.accepted) =
      ⟨(arrivals.filterMap Arrival.notice).map Notice.trap,
        (arrivals.filterMap Arrival.notice).length, false⟩ := by
  have hrun := @foldl_dispatch_notices t jc hdoc after (arrivals.filterMap Arrival.notice) [] 0
  rw [List.nil_append, Nat.zero_add] at hrun
  rw [relay_eq_dispatch h, served_of_countP_le (by omega), Arrival.messages_accepted, List.map_map]
  exact hrun

end Notices

/-! ## An example -/

/-- The text of a major alarm with a UUID and a severity. -/
def majorText : String :=
  "\x7b\"operation_type\":\"wrsAlarmMajor\",\"alarm\":" ++
    "\x7b\"wrsAlarmActiveUuid\":\"9f1c\",\"wrsAlarmActiveAlarmSeverity\":3\x7d\x7d"

theorem length_majorText : (bytesOf majorText).length = 104 := by decide

def majorAlarm : List (String × Json) := [(alarmUuid, .string "9f1c"), (alarmSeverity, .int 3)]

def majorMessage : List (String × Json) :=
  [("operation_type", .string alarmMajor), ("alarm", .object majorAlarm)]

def majorTokener : Tokener := .knowing majorText (.object majorMessage)

def majorNotice : Notice majorTokener (.ofParse fun _ => .null) where
  payload := bytesOf majorText
  optType := alarmMajor
  operationType := .string alarmMajor
  message := majorMessage
  alarm := majorAlarm
  length_pos := by
    rw [length_majorText]
    decide
  length_le := by
    rw [length_majorText]
    decide
  parse := by
    rw [← List.append_nil (bytesOf majorText)]
    exact Tokener.parse_knowing _ (by decide) []
  lookup_operation := rfl
  getString := by decide
  ne_event := by decide
  ne_warmStart := by decide
  lookup_alarm := rfl
  texts c _ _ := by
    rw [majorAlarm, List.lookup_cons, List.lookup_cons, List.lookup_nil]
    split
    · exact nofun
    · split <;> exact nofun

/-- The notice in two pieces, the first in the middle of the length. -/
def majorArrival : Arrival majorTokener (.ofParse fun _ => .null) :=
  .sent majorNotice 7
    [[0, 0], [0, 104] ++ bytesOf majorText]
    (by decide) (by decide) (by decide)

theorem relay_majorArrival :
    relay majorTokener (.ofParse fun _ => .null) (fun _ => []) quickStart 162
      [majorArrival.accepted] = ⟨[majorNotice.trap], 1, false⟩ :=
  relay_arrival (JsonC.ofParse_documented _) quickStart_listening rfl

theorem majorNotice_sent :
    majorNotice.trap ∈ (relay majorTokener (.ofParse fun _ => .null) (fun _ => []) quickStart 162
      [majorArrival.accepted]).traps := by
  rw [relay_majorArrival]
  exact List.mem_singleton_self _

/-- A notice, a connection closed at once, and another notice. -/
theorem relay_delivers_two :
    relay majorTokener (.ofParse fun _ => .null) (fun _ => []) quickStart 162
        ([majorArrival, .bad closedConnection (by decide +kernel), majorArrival].map
          Arrival.accepted) =
      ⟨[majorNotice.trap, majorNotice.trap], 2, false⟩ :=
  relay_delivers (JsonC.ofParse_documented _) quickStart_listening
    [majorArrival, .bad closedConnection (by decide +kernel), majorArrival] (by decide +kernel)

/-- The trap of a notice names the major alarm, and carries the UUID and the severity. -/
theorem relay_describedByMib_one :
    majorNotice.trap.tail.length = 2 ∧ DescribedByMib majorNotice.trap ∧
      (majorNotice.trap.tail.map Varbind.name).Pairwise (· < ·) :=
  ⟨by decide, relay_describedByMib majorTokener (.ofParse fun _ => .null) (fun _ => [])
    quickStart 162 [majorArrival.accepted] _ majorNotice_sent⟩

/-- A notice behind a failed `accept`. -/
theorem relay_sends_one :
    ∃ done rest sent, messages (served 4 [none, majorArrival.accepted]) = done ++ rest ∧
      List.Forall₂ (fun msg traps => Sends majorTokener (.ofParse fun _ => .null) (fun _ => [])
        msg traps ∧ traps.length ≤ 1) done.zipIdx sent ∧
      relay majorTokener (.ofParse fun _ => .null) (fun _ => []) quickStart 162
        [none, majorArrival.accepted] = ⟨sent.flatten, done.length, !rest.isEmpty⟩ ∧
      ∀ msg ∈ rest.head?, ∀ traps, ¬ Sends majorTokener (.ofParse fun _ => .null) (fun _ => [])
        (msg, done.length) traps :=
  relay_sends quickStart_listening [none, majorArrival.accepted]

end StxSnmp.TrapServer
