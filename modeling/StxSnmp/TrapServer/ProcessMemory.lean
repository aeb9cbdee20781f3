import StxSnmp.Library.Ownership
import StxSnmp.TrapServer.Relay
import StxSnmp.TrapServer.Resources
import StxSnmp.TrapServer.Subagent

/-!
# What the trap sub-agent holds

From the look-up of the address to the end of `main` the program acquires the results of
`getaddrinfo`, its `ServerInfo`, the object of each message and the list of each trap. Here each
function is given by what it does with them, next to the events of the server, up to a crash.

## Main definitions

* `HeapBlock`, `HeapCall`: what is acquired, and what is done with it
* `dispatchCalls`, `Event.heapCalls`: what a message, and an event of the server, does
* `getServerInfoRun`, `startAlarmServerRun`, `shutdownRun`: the functions around the server with
  their calls
* `mainTrace`: the events of the server and the calls of the whole program
* `ProgramLedger`, `programStep`: what is held, and the events and calls it allows

## Main results

* `getServerInfoRun_fst`, `startAlarmServerRun_eq`, `shutdownRun_fst`: the runs return what the
  functions do
* `dispatchCalls_leaves`: a message that does not crash the dispatcher leaves nothing held
* `serveTrace_passes`: the server holds its `ServerInfo` between two events
* `mainTrace_passes`: so the program holds nothing else when it accepts, and nothing at its end
-/

namespace StxSnmp.TrapServer

open Monitor Trap Ownership

/-! ## The calls -/

/-- The results of `getaddrinfo`, the structure of the server, the object a message is parsed to,
and the list of a trap. -/
inductive HeapBlock where
  | addrinfo
  | serverInfo
  | parsedJson
  | varList
  deriving DecidableEq, Repr

abbrev HeapCall := Ownership.Call HeapBlock

section Dispatch

variable (t : Tokener) (jc : JsonC) (after : ℕ → List UInt8)

/-- The blocks of a sender on an alarm, and then its `last` calls, unless a text is null. -/
def blocksCalls (alarmObj : Json) (last : List HeapCall) : List Block → List HeapCall
  | [] => last
  | b :: blocks =>
    match b.varbind jc alarmObj with
    | .error _ => [.access .parsedJson]
    -- the key is looked for, and not found
    | .ok none => .access .parsedJson :: blocksCalls alarmObj last blocks
    | .ok (some _) =>
      .access .parsedJson :: .access .varList :: blocksCalls alarmObj last blocks

/-- `send_v2trap` and `snmp_free_varbind`. -/
def sendCalls : List HeapCall := [.access .varList, .release .varList]

/-- A sender; the first varbind is that of the trap's identifier. -/
def sendTrapCalls (blocks : List Block) (jobj : Json) : List HeapCall :=
  .access .parsedJson ::
    match jc.objectGetEx jobj "alarm" with
    | none => []
    | some alarmObj => .acquire .varList :: blocksCalls jc alarmObj sendCalls blocks

/-- The sender that is chosen, if the comparisons get that far. -/
def selectSenderCalls (optType : Option String) (parsedJson : Json) : List HeapCall :=
  match optType with
  | none => []
  | some optType =>
    if optType = warmStart then .acquire .varList :: sendCalls
    else sendTrapCalls jc (senderBlocks optType) parsedJson

/-- `process_json_alarm` from the parse on; the object is released if no sender crashes. -/
def dispatchCalls (parsedJson : Json) : List HeapCall :=
  let operationType := (jc.objectGetEx parsedJson "operation_type").getD .null
  .acquire .parsedJson :: .access .parsedJson ::
    (selectSenderCalls jc (jc.getString operationType) parsedJson ++
      match dispatch jc parsedJson with
      | .error _ => []
      | .ok _ => [.release .parsedJson])

/-- `process_json_alarm`. -/
def messageCalls (p : Process) (msg : Option (List UInt8)) : List HeapCall :=
  match msg with
  | none => []
  | some payload =>
    match t.parse (payload ++ after p.dispatched) with
    -- the parser crashes
    | none => []
    -- a null is no object, and crashes the first comparison
    | some .null => []
    | some parsedJson => dispatchCalls jc parsedJson

/-- An event of the server: the retries and the socket are in its structure. -/
def Event.heapCalls (p : Process) : Event → List HeapCall
  | .call _ | .accept _ => [.access .serverInfo]
  | .processJsonAlarm msg => messageCalls t jc after p msg
  | .malloc _ | .free | .close _ | .ret _ => []

end Dispatch

/-! ## The program -/

/-- An event of the server, or a call about what the program holds beside the server. -/
inductive ProgramEvent where
  | server (e : Event)
  | heap (call : HeapCall)
  deriving DecidableEq, Repr

/-- The loop of `get_server_info` over the results: what it finds, and what it reads and sets. -/
def wildcardAddressRun : List AddressFamily → Option (String × AddressFamily) × List HeapCall
  | [] => (none, [])
  | .inet :: _ => (some ("0.0.0.0", .inet), [.access .addrinfo, .access .serverInfo])
  | .inet6 :: _ => (some ("::", .inet6), [.access .addrinfo, .access .serverInfo])
  | .other :: families =>
    let (found, calls) := wildcardAddressRun families
    (found, .access .addrinfo :: calls)

/-- `get_server_info` with its calls; the results are released on each of its ends. -/
def getServerInfoRun (env : StartEnv) (port : ℤ) : Option ServerInfo × List HeapCall :=
  match env.addrinfo with
  | none => (none, [])
  | some families =>
    if env.mallocOk then
      let (found, calls) := wildcardAddressRun families
      let calls := [.acquire .addrinfo, .acquire .serverInfo, .access .serverInfo] ++ calls
      match found with
      | none => (none, calls ++ [.release .serverInfo, .release .addrinfo])
      | some (address, family) =>
        (some ⟨address, family, port, env.leftoverFd, retries, defaultSuccess⟩,
          calls ++ [.release .addrinfo])
    else (none, [.acquire .addrinfo, .release .addrinfo])

/-- A run of `start_alarm_server`: its result, the calls before the server runs, the server, and the
calls after it. -/
structure StartRun where
  result : Option (Option ServerInfo)
  before : List HeapCall
  server : Server
  after : List HeapCall

def startAlarmServerRun (env : StartEnv) (port : ℤ) (backlog : List (Option Connection)) :
    StartRun :=
  match getServerInfoRun env port with
  | (none, calls) => ⟨some none, calls, ⟨backlog, 0, []⟩, []⟩
  | (some info, calls) =>
    -- `init_server` reads the structure and sets its descriptor
    let calls := calls ++ [.access .serverInfo]
    let (error, info) := initServer env info
    if error = defaultSuccess then
      match handleServerMessages ⟨backlog, info.retries, []⟩ with
      | (none, s) => ⟨none, calls, s, []⟩
      | (some error, s) =>
        let info := { info with retries := s.retries }
        if error ≠ defaultSuccess then
          ⟨some (some { info with error := defaultError }), calls, s, [.access .serverInfo]⟩
        else ⟨some (some info), calls, s, []⟩
    else
      ⟨some (some { info with error := defaultError }), calls, ⟨backlog, info.retries, []⟩,
        [.access .serverInfo]⟩

/-- The error is read, and the descriptor in `stop_alarm_server`, which releases the structure. -/
def stopServerInfoRun (m : MainState) : MainState × List HeapCall :=
  match m.serverInfo with
  | none => (m, [])
  | some info =>
    ({ m with serverInfo := none, calls := m.calls ++ stopAlarmServer info },
      [.access .serverInfo, .access .serverInfo, .release .serverInfo])

/-- `main` once the server has given up, and its calls. -/
def shutdownRun (m : MainState) : Option MainState × List HeapCall :=
  let (m, calls) := stopServerInfoRun m
  let m := stopServer m
  if m.keepRunning ≠ 0 then (none, calls)
  else
    let (m, calls') := stopServerInfoRun m
    (some m, calls ++ calls')

section Program

variable (t : Tokener) (jc : JsonC) (after : ℕ → List UInt8)

/-- The server's events and the calls made for them, as far as the program does not crash. -/
def serveTrace (p : Process) : List Event → List ProgramEvent
  | [] => []
  | e :: es =>
    if p.crashed then []
    else .server e :: ((e.heapCalls t jc after p).map .heap ++ serveTrace (p.step t jc after e) es)

/-- `main` from the start of the server on; neither a server that runs nor a crash lets it end. -/
def mainTrace (env : StartEnv) (port : ℤ) (backlog : List (Option Connection)) :
    List ProgramEvent :=
  let run := startAlarmServerRun env port backlog
  run.before.map .heap ++ serveTrace t jc after .start run.server.trace ++
    match run.result with
    | none => []
    | some serverInfo =>
      if (relay t jc after env port backlog).crashed then []
      else
        (run.after ++
          (shutdownRun ⟨1, serverInfo, startAlarmServerCalls env port⟩).2).map .heap

end Program

/-! ## The runs and the functions -/

section Runs

variable {env : StartEnv} {port : ℤ}

theorem wildcardAddressRun_fst (families : List AddressFamily) :
    (wildcardAddressRun families).1 = wildcardAddress families := by
  induction families with
  | nil => rfl
  | cons family families ih =>
    cases family with
    | inet => rfl
    | inet6 => rfl
    | other => exact ih

/-- The run of `get_server_info` returns what the function does. -/
theorem getServerInfoRun_fst (env : StartEnv) (port : ℤ) :
    (getServerInfoRun env port).1 = getServerInfo env port := by
  unfold getServerInfoRun getServerInfo
  cases env.addrinfo with
  | none => rfl
  | some families =>
    simp only [← wildcardAddressRun_fst]
    rcases wildcardAddressRun families with ⟨_ | ⟨address, family⟩, calls⟩ <;>
      split_ifs <;> rfl

/-- The run of `start_alarm_server` returns and serves what the function does. -/
theorem startAlarmServerRun_eq (env : StartEnv) (port : ℤ) (backlog : List (Option Connection)) :
    startAlarmServer env port backlog =
      ((startAlarmServerRun env port backlog).result,
        (startAlarmServerRun env port backlog).server) := by
  rw [startAlarmServer, startAlarmServerRun, ← getServerInfoRun_fst]
  rcases getServerInfoRun env port with ⟨_ | info, calls⟩
  · rfl
  · by_cases hinit : (initServer env info).1 = defaultSuccess
    · simp only [if_pos hinit]
      rcases handleServerMessages ⟨backlog, (initServer env info).2.retries, []⟩ with
        ⟨_ | error, s⟩
      · rfl
      · by_cases herror : error ≠ defaultSuccess
        · simp only [if_pos herror]
        · simp only [if_neg herror]
    · simp only [if_neg hinit]

theorem stopServerInfoRun_fst (m : MainState) : (stopServerInfoRun m).1 = stopServerInfo m := by
  rw [stopServerInfoRun, stopServerInfo]
  cases m.serverInfo <;> rfl

/-- The run of the end of `main` is that of the program's other account. -/
theorem shutdownRun_fst (m : MainState) :
    (shutdownRun m).1 = shutdown (stopServer (stopServerInfo m)) := by
  simp only [shutdownRun, shutdown, ← stopServerInfoRun_fst]
  split_ifs <;> rfl

end Runs

/-! ## A message -/

/-- From `held` on the calls are allowed; they leave `held'` if `ok`. -/
def Leaves (held : Finset HeapBlock) (calls : List HeapCall) (ok : Prop)
    (held' : Finset HeapBlock) : Prop :=
  ∃ held₁, Passes Ownership.step held calls held₁ ∧ (ok → held₁ = held')

theorem Leaves.cons {held held₁ held' : Finset HeapBlock} {call : HeapCall} {calls : List HeapCall}
    {ok : Prop} (hstep : Ownership.step held call = some held₁) (h : Leaves held₁ calls ok held') :
    Leaves held (call :: calls) ok held' := by
  obtain ⟨held₂, hpasses, hok⟩ := h
  exact ⟨held₂, passes_cons.mpr ⟨held₁, hstep, hpasses⟩, hok⟩

theorem Leaves.mono {held held' : Finset HeapBlock} {calls : List HeapCall} {ok ok' : Prop}
    (h : Leaves held calls ok held') (hok : ok' → ok) : Leaves held calls ok' held' := by
  obtain ⟨held₁, hpasses, hdone⟩ := h
  exact ⟨held₁, hpasses, fun hok' => hdone (hok hok')⟩

/-- What is held besides stays held. -/
theorem Leaves.frame {held held' frame : Finset HeapBlock} {calls : List HeapCall} {ok : Prop}
    (h : Leaves held calls ok held') (hdisjoint : Disjoint held frame)
    (hframe : ∀ b ∈ frame, Call.acquire b ∉ calls) :
    Leaves (held ∪ frame) calls ok (held' ∪ frame) := by
  obtain ⟨held₁, hpasses, hok⟩ := h
  refine ⟨held₁ ∪ frame, passes_frame hpasses hdisjoint hframe, fun hdone => ?_⟩
  rw [hok hdone]

section Dispatch

variable {jc : JsonC} {parsedJson jobj alarmObj : Json}

/-- The blocks access what is held, and come to the last calls unless one of them crashes. -/
theorem blocksCalls_leaves {held held' : Finset HeapBlock} {last : List HeapCall}
    (hjson : .parsedJson ∈ held) (hlist : .varList ∈ held)
    (hlast : Passes Ownership.step held last held') (blocks : List Block) :
    Leaves held (blocksCalls jc alarmObj last blocks)
      (∀ b ∈ blocks, ∃ item, b.varbind jc alarmObj = .ok item) held' := by
  induction blocks with
  | nil => exact ⟨held', hlast, fun _ => rfl⟩
  | cons b blocks ih =>
    -- no crash among them all is none among the rest
    have hrest := ih.mono fun (hall : ∀ b' ∈ b :: blocks, ∃ item,
      Block.varbind jc alarmObj b' = .ok item) b' hb => hall b' (List.mem_cons_of_mem b hb)
    rw [blocksCalls]
    cases hitem : b.varbind jc alarmObj with
    | error fault =>
      refine ⟨held, passes_access (by simpa using hjson), fun hall => ?_⟩
      obtain ⟨item, hok⟩ := hall b List.mem_cons_self
      rw [hitem] at hok
      cases hok
    | ok item =>
      cases item with
      | none => exact hrest.cons (step_access hjson)
      | some varbind => exact (hrest.cons (step_access hlist)).cons (step_access hjson)

theorem sendCalls_passes :
    Passes Ownership.step {.varList, .parsedJson} sendCalls {.parsedJson} := by
  simp [sendCalls, Ownership.step]

/-- A sender leaves the object of its message. -/
theorem sendTrapCalls_leaves (oid : Oid) (blocks : List Block) :
    Leaves {.parsedJson} (sendTrapCalls jc blocks jobj)
      (∃ sent, sendTrap jc oid blocks jobj = .ok sent) {.parsedJson} := by
  rw [sendTrapCalls]
  refine Leaves.cons (step_access (Finset.mem_singleton_self _)) ?_
  cases halarm : jc.objectGetEx jobj "alarm" with
  | none => exact ⟨_, passes_nil.mpr rfl, fun _ => rfl⟩
  | some alarmObj =>
    refine Leaves.cons (step_acquire (by decide)) ?_
    refine (blocksCalls_leaves (by decide) (by decide) sendCalls_passes blocks).mono ?_
    rintro ⟨sent, hsent⟩
    rw [sendTrap, halarm] at hsent
    obtain ⟨varList, hcollect, -⟩ := OptionalFields.exists_of_map_eq_ok hsent
    exact OptionalFields.collect_isOk_iff.mp ⟨varList, hcollect⟩

theorem selectSenderCalls_leaves (optType : Option String) :
    Leaves {.parsedJson} (selectSenderCalls jc optType parsedJson)
      (∃ sent, selectSender jc optType parsedJson = .ok sent) {.parsedJson} := by
  cases optType with
  | none => exact ⟨_, passes_nil.mpr rfl, fun _ => rfl⟩
  | some optType =>
    rw [selectSenderCalls]
    by_cases hwarm : optType = warmStart
    · rw [if_pos hwarm]
      exact ⟨_, passes_cons.mpr ⟨_, step_acquire (by decide), sendCalls_passes⟩, fun _ => rfl⟩
    · rw [if_neg hwarm, selectSender_eq_sendTrap jc hwarm]
      exact sendTrapCalls_leaves _ _

/-- A message that does not crash the dispatcher leaves nothing held. -/
theorem dispatchCalls_leaves (parsedJson : Json) :
    Leaves ∅ (dispatchCalls jc parsedJson) (∃ sent, dispatch jc parsedJson = .ok sent) ∅ := by
  have hjson : HeapBlock.parsedJson ∈ insert HeapBlock.parsedJson ∅ := Finset.mem_insert_self _ _
  refine Leaves.cons (step_acquire (Finset.notMem_empty _)) (Leaves.cons (step_access hjson) ?_)
  let optType := jc.getString ((jc.objectGetEx parsedJson "operation_type").getD .null)
  obtain ⟨held, hpasses, hok⟩ : Leaves {.parsedJson} (selectSenderCalls jc optType parsedJson)
      (∃ sent, selectSender jc optType parsedJson = .ok sent) {.parsedJson} :=
    selectSenderCalls_leaves optType
  cases hdispatch : dispatch jc parsedJson with
  | error fault =>
    refine ⟨held, ?_, fun ⟨sent, hsent⟩ => nomatch hsent⟩
    rw [List.append_nil]
    exact hpasses
  | ok sent =>
    obtain ⟨sent', hsent, -⟩ := OptionalFields.exists_of_map_eq_ok hdispatch
    obtain rfl := hok ⟨sent', hsent⟩
    refine ⟨∅, hpasses.append ?_, fun _ => rfl⟩
    simp [Ownership.step]

/-- Nothing is acquired for a message but its object and a list. -/
theorem acquire_not_mem_blocksCalls {b : HeapBlock} {last : List HeapCall}
    (hlast : .acquire b ∉ last) (blocks : List Block) :
    .acquire b ∉ blocksCalls jc alarmObj last blocks := by
  induction blocks with
  | nil => exact hlast
  | cons block blocks ih =>
    rw [blocksCalls]
    split <;> simp [ih]

theorem acquire_serverInfo_not_mem_dispatchCalls (parsedJson : Json) :
    .acquire .serverInfo ∉ dispatchCalls jc parsedJson := by
  have hblocks (alarmObj : Json) (blocks : List Block) :
      .acquire .serverInfo ∉ blocksCalls jc alarmObj sendCalls blocks :=
    acquire_not_mem_blocksCalls (by decide) blocks
  have hselect (optType : Option String) :
      .acquire .serverInfo ∉ selectSenderCalls jc optType parsedJson := by
    cases optType with
    | none => exact List.not_mem_nil
    | some optType =>
      rw [selectSenderCalls, sendTrapCalls]
      split
      · decide
      · cases jc.objectGetEx parsedJson "alarm" <;> simp [hblocks]
  rw [dispatchCalls]
  cases dispatch jc parsedJson <;> simp [hselect]

end Dispatch

/-! ## The server -/

section Serve

variable {t : Tokener} {jc : JsonC} {after : ℕ → List UInt8} {p : Process}

theorem messageCalls_leaves (hp : p.crashed = false) (msg : Option (List UInt8)) :
    Leaves ∅ (messageCalls t jc after p msg) ((p.dispatch t jc after msg).crashed = false) ∅ ∧
      .acquire .serverInfo ∉ messageCalls t jc after p msg := by
  have hnone (ok : Prop) : Leaves ∅ [] ok ∅ := ⟨∅, passes_nil.mpr rfl, fun _ => rfl⟩
  cases msg with
  | none => exact ⟨hnone _, List.not_mem_nil⟩
  | some payload =>
    rw [messageCalls]
    cases hparse : t.parse (payload ++ after p.dispatched) with
    | none => exact ⟨hnone _, List.not_mem_nil⟩
    | some parsedJson =>
      -- the dispatcher that does not crash the program returns
      have hreturns : (p.dispatch t jc after (some payload)).crashed = false →
          ∃ sent, dispatch jc parsedJson = .ok sent := by
        intro hcrashed
        cases hdispatch : dispatch jc parsedJson with
        | error fault => simp [Process.dispatch, hp, processBuffer, hparse, hdispatch] at hcrashed
        | ok sent => exact ⟨sent, rfl⟩
      cases parsedJson with
      | null => exact ⟨hnone _, List.not_mem_nil⟩
      | _ =>
        exact ⟨(dispatchCalls_leaves _).mono hreturns, acquire_serverInfo_not_mem_dispatchCalls _⟩

/-- An event leaves the server with its structure. -/
theorem heapCalls_leaves (hp : p.crashed = false) (e : Event) :
    Leaves {.serverInfo} (e.heapCalls t jc after p) ((p.step t jc after e).crashed = false)
      {.serverInfo} := by
  have haccess : Passes Ownership.step {HeapBlock.serverInfo} [.access .serverInfo]
      {.serverInfo} := passes_access (by simp)
  cases e with
  | call retries => exact ⟨_, haccess, fun _ => rfl⟩
  | accept connfd => exact ⟨_, haccess, fun _ => rfl⟩
  | processJsonAlarm msg =>
    obtain ⟨hleaves, hacquire⟩ : Leaves ∅ (messageCalls t jc after p msg)
        ((p.dispatch t jc after msg).crashed = false) ∅ ∧
          .acquire .serverInfo ∉ messageCalls t jc after p msg :=
      messageCalls_leaves hp msg
    have hframe := hleaves.frame (Finset.disjoint_empty_left {HeapBlock.serverInfo})
      fun b hb => Finset.mem_singleton.mp hb ▸ hacquire
    rwa [Finset.empty_union] at hframe
  | _ => exact ⟨_, passes_nil.mpr rfl, fun _ => rfl⟩

end Serve

/-! ## The whole program -/

/-- What the server holds, and what the program holds beside it. -/
structure ProgramLedger where
  server : Ledger
  held : Finset HeapBlock

/-- The server may accept or return only when nothing but its structure is held. -/
def programStep (l : ProgramLedger) : ProgramEvent → Option ProgramLedger
  | .server e =>
    if e.atRest ∧ l.held ≠ {.serverInfo} then none
    else (ledgerStep l.server e).map fun server => { l with server := server }
  | .heap call => (Ownership.step l.held call).map fun held => { l with held := held }

theorem passes_heap {held held' : Finset HeapBlock} {calls : List HeapCall}
    (h : Passes Ownership.step held calls held') (l : Ledger) :
    Passes programStep ⟨l, held⟩ (calls.map .heap) ⟨l, held'⟩ := by
  induction calls generalizing held with
  | nil =>
    obtain rfl := passes_nil.mp h
    exact passes_nil.mpr rfl
  | cons call calls ih =>
    obtain ⟨held₁, hstep, hrest⟩ := passes_cons.mp h
    exact passes_cons.mpr ⟨⟨l, held₁⟩, by simp [programStep, hstep], ih hrest⟩

section Program

variable {t : Tokener} {jc : JsonC} {after : ℕ → List UInt8}

/-- The server, whose events its ledger allows, holds its structure between two of them. -/
theorem serveTrace_passes {l l' : Ledger} {es : List Event} (h : Passes ledgerStep l es l')
    (p : Process) :
    ∃ final, Passes programStep ⟨l, {.serverInfo}⟩ (serveTrace t jc after p es) final ∧
      ((es.foldl (Process.step t jc after) p).crashed = false → final = ⟨l', {.serverInfo}⟩) := by
  induction es generalizing l p with
  | nil =>
    obtain rfl := passes_nil.mp h
    exact ⟨_, passes_nil.mpr rfl, fun _ => rfl⟩
  | cons e es ih =>
    obtain ⟨l₁, hstep, hrest⟩ := passes_cons.mp h
    rw [serveTrace, List.foldl_cons]
    by_cases hp : p.crashed = true
    · rw [if_pos hp]
      refine ⟨_, passes_nil.mpr rfl, fun hcrashed => ?_⟩
      rw [← List.foldl_cons, foldl_step_crashed hp, hp] at hcrashed
      cases hcrashed
    · rw [if_neg hp]
      obtain ⟨held, hcalls, hok⟩ : Leaves {.serverInfo} (e.heapCalls t jc after p)
          ((p.step t jc after e).crashed = false) {.serverInfo} :=
        heapCalls_leaves (Bool.eq_false_iff.mpr hp) e
      have hserver : programStep ⟨l, {.serverInfo}⟩ (.server e) = some ⟨l₁, {.serverInfo}⟩ := by
        simp [programStep, hstep]
      by_cases hcrashed : (p.step t jc after e).crashed = true
      · -- nothing comes after the calls of the event
        have hempty : serveTrace t jc after (p.step t jc after e) es = [] := by
          cases es with
          | nil => rfl
          | cons e es => exact if_pos hcrashed
        rw [hempty, List.append_nil, foldl_step_crashed hcrashed, hcrashed]
        exact ⟨_, passes_cons.mpr ⟨_, hserver, passes_heap hcalls l₁⟩, fun h => nomatch h⟩
      · obtain rfl := hok (Bool.eq_false_iff.mpr hcrashed)
        obtain ⟨final, hpasses, hfinal⟩ := ih hrest (p.step t jc after e)
        exact ⟨final, passes_cons.mpr ⟨_, hserver, (passes_heap hcalls l₁).append hpasses⟩, hfinal⟩

/-! ## The whole run -/

variable {env : StartEnv} {port : ℤ} {backlog : List (Option Connection)}

/-- The loop over the results reads and sets what is held. -/
theorem wildcardAddressRun_passes (families : List AddressFamily) :
    Passes Ownership.step {.serverInfo, .addrinfo} (wildcardAddressRun families).2
      {.serverInfo, .addrinfo} := by
  refine passes_access ?_
  induction families with
  | nil => exact List.forall_mem_nil _
  | cons family families ih =>
    have hboth : ∀ call ∈ [Call.access HeapBlock.addrinfo, .access .serverInfo],
        ∃ b ∈ ({.serverInfo, .addrinfo} : Finset HeapBlock), call = .access b := by simp
    cases family with
    | inet => exact hboth
    | inet6 => exact hboth
    | other => exact List.forall_mem_cons.mpr ⟨hboth _ List.mem_cons_self, ih⟩

/-- `get_server_info` holds a structure if it makes one, and none of the results. -/
theorem getServerInfoRun_passes (env : StartEnv) (port : ℤ) :
    Passes Ownership.step ∅ (getServerInfoRun env port).2
      (if (getServerInfoRun env port).1.isSome then {.serverInfo} else ∅) := by
  unfold getServerInfoRun
  cases env.addrinfo with
  | none => exact passes_nil.mpr rfl
  | some families =>
    cases env.mallocOk with
    | false => simp [Ownership.step]
    | true =>
      have hmade : Passes Ownership.step ∅ [.acquire .addrinfo, .acquire .serverInfo,
          .access .serverInfo] ({.serverInfo, .addrinfo} : Finset HeapBlock) := by
        simp [Ownership.step]
      have hfound := hmade.append (wildcardAddressRun_passes families)
      have herase : ({.serverInfo, .addrinfo} : Finset HeapBlock).erase .addrinfo =
          {.serverInfo} := rfl
      simp only [if_true]
      rcases hrun : wildcardAddressRun families with ⟨_ | ⟨address, family⟩, calls⟩ <;>
        rw [hrun] at hfound <;> refine hfound.append ?_ <;> simp [Ownership.step, herase]

/-- A start makes no structure, and is over, or makes one, which is left when the server stops. -/
theorem startAlarmServerRun_cases (env : StartEnv) (port : ℤ)
    (backlog : List (Option Connection)) :
    (∃ calls, startAlarmServerRun env port backlog = ⟨some none, calls, ⟨backlog, 0, []⟩, []⟩ ∧
      Passes Ownership.step ∅ calls ∅) ∨
    (((startAlarmServerRun env port backlog).result = none ∨
        ∃ info, (startAlarmServerRun env port backlog).result = some (some info)) ∧
      Passes Ownership.step ∅ (startAlarmServerRun env port backlog).before {.serverInfo} ∧
      Passes Ownership.step {.serverInfo} (startAlarmServerRun env port backlog).after
        {.serverInfo} ∧
      ∃ pending, Passes ledgerStep (.idle (connections backlog))
        (startAlarmServerRun env port backlog).server.trace (.idle pending)) := by
  have hinfo := getServerInfoRun_passes env port
  have haccess : Passes Ownership.step {HeapBlock.serverInfo} [.access .serverInfo]
      {.serverInfo} := passes_access (by simp)
  rw [startAlarmServerRun]
  rcases hstart : getServerInfoRun env port with ⟨_ | info, calls⟩ <;> rw [hstart] at hinfo
  · exact Or.inl ⟨calls, rfl, hinfo⟩
  · refine Or.inr ?_
    have hbefore := hinfo.append haccess
    by_cases hinit : (initServer env info).1 = defaultSuccess
    · obtain ⟨pending, hserver⟩ :=
        handleServerMessages_passes backlog (initServer env info).2.retries
      simp only [if_pos hinit]
      rcases hrun : handleServerMessages ⟨backlog, (initServer env info).2.retries, []⟩ with
        ⟨_ | error, s⟩ <;> rw [hrun] at hserver
      · exact ⟨Or.inl rfl, hbefore, passes_nil.mpr rfl, pending, hserver⟩
      · by_cases herror : error ≠ defaultSuccess
        · simp only [if_pos herror]
          exact ⟨Or.inr ⟨_, rfl⟩, hbefore, haccess, pending, hserver⟩
        · simp only [if_neg herror]
          exact ⟨Or.inr ⟨_, rfl⟩, hbefore, passes_nil.mpr rfl, pending, hserver⟩
    · simp only [if_neg hinit]
      exact ⟨Or.inr ⟨_, rfl⟩, hbefore, haccess, connections backlog, passes_nil.mpr rfl⟩

/-- The end of `main` releases the structure, if there is one. -/
theorem shutdownRun_passes (keepRunning : ℤ) (info : ServerInfo) (calls : List SocketCall) :
    Passes Ownership.step {.serverInfo} (shutdownRun ⟨keepRunning, some info, calls⟩).2 ∅ := by
  simp [shutdownRun, stopServerInfoRun, stopServer, Ownership.step]

/-- The events of a run are allowed, and what is held at their end is known unless there was a
crash. -/
theorem mainTrace_final (t : Tokener) (jc : JsonC) (after : ℕ → List UInt8) (env : StartEnv)
    (port : ℤ) (backlog : List (Option Connection)) :
    ∃ final, Passes programStep ⟨.idle (connections backlog), ∅⟩
        (mainTrace t jc after env port backlog) final ∧
      ((relay t jc after env port backlog).crashed = false →
        (∃ pending, final.server = .idle pending) ∧ final.held =
          if (startAlarmServer env port backlog).1.isNone then {.serverInfo} else ∅) := by
  have hrelay : relay t jc after env port backlog =
      (startAlarmServerRun env port backlog).server.trace.foldl (Process.step t jc after)
        .start := by
    rw [relay, startAlarmServerRun_eq]
  rw [startAlarmServerRun_eq]
  obtain ⟨calls, hrun, hcalls⟩ | ⟨hresult, hbefore, hafter, pending, hserver⟩ :=
    startAlarmServerRun_cases env port backlog
  · -- nothing was made, and nothing is served or stopped
    have htrace : mainTrace t jc after env port backlog = calls.map .heap := by
      simp [mainTrace, hrun, serveTrace, shutdownRun, stopServerInfoRun, stopServer]
    rw [htrace, hrun]
    exact ⟨_, passes_heap hcalls _, fun _ => ⟨⟨_, rfl⟩, rfl⟩⟩
  · have hstart := passes_heap hbefore (.idle (connections backlog))
    obtain ⟨final, hserve, hfinal⟩ : ∃ final, Passes programStep ⟨.idle (connections backlog),
        {.serverInfo}⟩ (serveTrace t jc after .start
          (startAlarmServerRun env port backlog).server.trace) final ∧
          (((startAlarmServerRun env port backlog).server.trace.foldl (Process.step t jc after)
            .start).crashed = false → final = ⟨.idle pending, {.serverInfo}⟩) :=
      serveTrace_passes hserver .start
    rw [← hrelay] at hfinal
    rw [mainTrace]
    obtain hwaits | ⟨info, hstopped⟩ := hresult
    · -- the server waits
      rw [hwaits]
      refine ⟨final, (hstart.append hserve).append (passes_nil.mpr rfl), fun hcrashed => ?_⟩
      rw [hfinal hcrashed]
      exact ⟨⟨pending, rfl⟩, rfl⟩
    · rw [hstopped]
      by_cases hcrashed : (relay t jc after env port backlog).crashed = true
      · simp only [if_pos hcrashed]
        refine ⟨final, (hstart.append hserve).append (passes_nil.mpr rfl), fun hok => ?_⟩
        rw [hcrashed] at hok
        cases hok
      · -- the server gave up, and is stopped
        obtain rfl := hfinal (Bool.eq_false_iff.mpr hcrashed)
        simp only [if_neg hcrashed]
        exact ⟨_, (hstart.append hserve).append
          (passes_heap (hafter.append (shutdownRun_passes 1 info _)) _),
          fun _ => ⟨⟨pending, rfl⟩, rfl⟩⟩

/-- **The program holds nothing but the structure of its server when it accepts a connection**, and
when it waits for one; it accesses and releases only what it holds, and at the end of `main` holds
nothing. A crash is the only way to leave a message, a trap or a buffer behind. -/
theorem mainTrace_passes (t : Tokener) (jc : JsonC) (after : ℕ → List UInt8) (env : StartEnv)
    (port : ℤ) (backlog : List (Option Connection)) :
    (∃ final, Passes programStep ⟨.idle (connections backlog), ∅⟩
        (mainTrace t jc after env port backlog) final ∧
      ((relay t jc after env port backlog).crashed = false →
        (∃ pending, final.server = .idle pending) ∧ final.held =
          if (startAlarmServer env port backlog).1.isNone then {.serverInfo} else ∅)) ∧
    ∀ front e back, mainTrace t jc after env port backlog = front ++ .server e :: back →
      e.atRest = true → ∃ pending,
        Passes programStep ⟨.idle (connections backlog), ∅⟩ front
          ⟨.idle pending, {.serverInfo}⟩ := by
  have hfinal := mainTrace_final t jc after env port backlog
  refine ⟨hfinal, fun front e back hsplit hrest => ?_⟩
  obtain ⟨final, hpasses, -⟩ := hfinal
  rw [hsplit] at hpasses
  obtain ⟨⟨server, held⟩, hfront, hback⟩ := passes_append.mp hpasses
  obtain ⟨l, hstep, -⟩ := passes_cons.mp hback
  -- the event would be refused with anything else held
  have hheld : held = {.serverInfo} := by
    by_contra hne
    rw [programStep, if_pos ⟨hrest, hne⟩] at hstep
    cases hstep
  rw [programStep, if_neg fun h => h.2 hheld] at hstep
  obtain ⟨server', hserver, -⟩ := Option.map_eq_some_iff.mp hstep
  obtain ⟨pending, rfl⟩ := idle_of_atRest hrest hserver
  exact ⟨pending, hheld ▸ hfront⟩

end Program

/-- A notice is sent, and the server waits for the next connection. -/
theorem mainTrace_passes_one :
    ∃ final, Passes programStep ⟨.idle (connections [majorArrival.accepted]), ∅⟩
        (mainTrace majorTokener (.ofParse fun _ => .null) (fun _ => []) quickStart 162
          [majorArrival.accepted]) final ∧
      (∃ pending, final.server = .idle pending) ∧ final.held = {.serverInfo} := by
  obtain ⟨⟨final, hpasses, hheld⟩, -⟩ := mainTrace_passes majorTokener (.ofParse fun _ => .null)
    (fun _ => []) quickStart 162 [majorArrival.accepted]
  have hwaits : (startAlarmServer quickStart 162 [majorArrival.accepted]).1.isNone = true := by
    decide +kernel
  rw [if_pos hwaits, relay_majorArrival] at hheld
  exact ⟨final, hpasses, hheld rfl⟩

end StxSnmp.TrapServer
