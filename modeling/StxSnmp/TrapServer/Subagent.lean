import StxSnmp.Library.Handles
import StxSnmp.TrapServer.Startup

/-!
# The listening socket

The trap sub-agent's `main` starts the server and, when the server gives up, stops it. Both ends
close the listening socket: `init_server` on each of its failures, and `stop_alarm_server` on the
structure that failure leaves behind.

## Main definitions

* `SocketCall`, `socketTrace`: the calls that create and close the socket
* `initServerCalls`, `startAlarmServerCalls`, `stopAlarmServer`: the calls of the server's functions
* `MainState`, `mainRun`: `main` from the start of the server on
* `NoServerInfo`, `Configured`: a start that makes no `ServerInfo`, and one that gets to listen

## Main results

* `initServer_cases`: what `init_server` returns and which calls it makes
* `mainRun_closes_iff`: the socket is closed exactly once iff no `ServerInfo` is made or nothing
  fails before the server listens
* `failed_bind_closes_twice`: a failure to bind closes it twice
-/

namespace StxSnmp.TrapServer

/-! ## The calls -/

/-- A call to `socket` with its result, or to `close` with its argument. -/
inductive SocketCall where
  | socket (fd : ℤ)
  | close (fd : ℤ)
  deriving DecidableEq, Repr

/-- Descriptors are created by `socket`, unless it fails, and destroyed by `close`. -/
def socketTrace : HandleTrace SocketCall ℤ where
  creates
    | .socket fd => if fd = defaultError then none else some fd
    | .close _ => none
  passes
    | .socket _ => none
    | .close fd => some fd
  destroys
    | .socket _ => none
    | .close fd => some fd

/-- The calls of `init_server`, exit by exit. -/
def initServerCalls (env : StartEnv) (info : ServerInfo) : List SocketCall :=
  -- nothing to close yet
  if env.socket = defaultError then [.socket env.socket]
  else
    let info := { info with fd := env.socket }
    let closed := [SocketCall.socket env.socket, .close info.fd]
    if env.setsockopt ≠ defaultSuccess then closed
    else
      match info.addressFamily with
      | .other => closed
      | .inet | .inet6 =>
        if env.inetPton ≤ defaultSuccess then closed
        else if env.bind ≠ defaultSuccess then closed
        else if env.listen ≠ defaultSuccess then closed
        else [.socket env.socket]

/-- The calls of `start_alarm_server`; serving makes none about the listening socket. -/
def startAlarmServerCalls (env : StartEnv) (port : ℤ) : List SocketCall :=
  match getServerInfo env port with
  | none => []
  | some info => initServerCalls env info

def stopAlarmServer (info : ServerInfo) : List SocketCall := [.close info.fd]

/-! ## The main program -/

/-- What `main` keeps: `keep_running`, `server_info`, and the calls made. -/
structure MainState where
  keepRunning : ℤ
  serverInfo : Option ServerInfo
  calls : List SocketCall
  deriving DecidableEq, Repr

/-- The handler of SIGTERM and SIGINT, which `main` calls too. -/
def stopServer (m : MainState) : MainState := { m with keepRunning := 0 }

/-- A `server_info` that is not null is stopped and set to null. -/
def stopServerInfo (m : MainState) : MainState :=
  match m.serverInfo with
  | none => m
  | some info => { m with serverInfo := none, calls := m.calls ++ stopAlarmServer info }

/-- The end of `main`, `none` if it is not reached. -/
def shutdown (m : MainState) : Option MainState :=
  -- `agent_check_and_process` until the flag is cleared
  if m.keepRunning ≠ 0 then none else some (stopServerInfo m)

/-- `main` from the start of the server on: how it ends, if it does, and its calls. `keepRunning`
is the flag when the server gives up, cleared if a signal came. -/
def mainRun (env : StartEnv) (port : ℤ) (backlog : List (Option Connection)) (keepRunning : ℤ) :
    Option MainState × List SocketCall :=
  let calls := startAlarmServerCalls env port
  match (startAlarmServer env port backlog).1 with
  -- the server runs
  | none => (none, calls)
  | some serverInfo =>
    let m := stopServer (stopServerInfo ⟨keepRunning, serverInfo, calls⟩)
    (shutdown m, ((shutdown m).getD m).calls)

/-! ## The start -/

/-- Everything after `socket` succeeds. -/
def Configured (env : StartEnv) : Prop :=
  env.setsockopt = defaultSuccess ∧ defaultSuccess < env.inetPton ∧ env.bind = defaultSuccess ∧
    env.listen = defaultSuccess

/-- The host is not found, or there is no memory, or no address is of a family the server knows. -/
def NoServerInfo (env : StartEnv) : Prop :=
  ∀ families, env.addrinfo = some families →
    env.mallocOk = false ∨ ∀ family ∈ families, family = .other

section Start

variable {env : StartEnv} {port : ℤ} {info : ServerInfo}

theorem wildcardAddress_eq_none_iff {families : List AddressFamily} :
    wildcardAddress families = none ↔ ∀ family ∈ families, family = .other := by
  induction families with
  | nil => simp [wildcardAddress]
  | cons family families ih => cases family <;> simp [wildcardAddress, ih]

/-- The address is of one of the two families. -/
theorem wildcardAddress_family {families : List AddressFamily} {address : String}
    {family : AddressFamily} (h : wildcardAddress families = some (address, family)) :
    family ≠ .other := by
  induction families with
  | nil => cases h
  | cons found families ih =>
    cases found with
    | inet =>
      cases h
      intro hother
      cases hother
    | inet6 =>
      cases h
      intro hother
      cases hother
    | other => exact ih h

theorem getServerInfo_eq_none_iff : getServerInfo env port = none ↔ NoServerInfo env := by
  unfold getServerInfo NoServerInfo
  cases env.addrinfo with
  | none => simp
  | some families =>
    cases env.mallocOk with
    | false => simp
    | true => simp [wildcardAddress_eq_none_iff]

theorem getServerInfo_family (h : getServerInfo env port = some info) :
    info.addressFamily ≠ .other := by
  unfold getServerInfo at h
  split at h
  · cases h
  · split at h
    · obtain ⟨⟨address, family⟩, hfound, rfl⟩ := Option.map_eq_some_iff.mp h
      exact wildcardAddress_family hfound
    · cases h

/-- The initialisation fails with no socket, or closes the socket it made and fails, or leaves it
open and succeeds. -/
theorem initServer_cases (env : StartEnv) (hfamily : info.addressFamily ≠ .other) :
    (env.socket = defaultError ∧ initServer env info = (defaultError, info) ∧
      initServerCalls env info = [.socket env.socket]) ∨
    (env.socket ≠ defaultError ∧ ¬ Configured env ∧
      initServer env info = (defaultError, { info with fd := env.socket }) ∧
      initServerCalls env info = [.socket env.socket, .close env.socket]) ∨
    (env.socket ≠ defaultError ∧ Configured env ∧
      initServer env info = (defaultSuccess, { info with fd := env.socket }) ∧
      initServerCalls env info = [.socket env.socket]) := by
  by_cases hsocket : env.socket = defaultError
  · exact Or.inl ⟨hsocket, by rw [initServer, if_pos hsocket],
      by rw [initServerCalls, if_pos hsocket]⟩
  · refine Or.inr ?_
    -- both families make the same calls
    obtain ⟨address, family, port, fd, retries, error⟩ := info
    cases family with
    | other => exact absurd rfl hfamily
    | inet | inet6 =>
      simp only [initServer, initServerCalls, if_neg hsocket, Configured]
      split_ifs with hopt hpton hbind hlisten
      · exact Or.inl ⟨hsocket, fun h => hopt h.1, rfl, rfl⟩
      · exact Or.inl ⟨hsocket, fun h => absurd h.2.1 (Int.not_lt.mpr hpton), rfl, rfl⟩
      · exact Or.inl ⟨hsocket, fun h => hbind h.2.2.1, rfl, rfl⟩
      · exact Or.inl ⟨hsocket, fun h => hlisten h.2.2.2, rfl, rfl⟩
      · exact Or.inr ⟨hsocket, ⟨not_not.mp hopt, Int.not_le.mp hpton, not_not.mp hbind,
          not_not.mp hlisten⟩, rfl, rfl⟩

/-- A failed initialisation leaves its structure, with the error set. -/
theorem startAlarmServer_of_failed {info' : ServerInfo} (hinfo : getServerInfo env port = some info)
    (hinit : initServer env info = (defaultError, info')) (backlog : List (Option Connection)) :
    ∃ stopped, (startAlarmServer env port backlog).1 = some (some stopped) ∧
      stopped.fd = info'.fd := by
  refine ⟨{ info' with error := defaultError }, ?_, rfl⟩
  rw [startAlarmServer, hinfo]
  simp only [hinit]
  rfl

/-- A server that listened and gave up leaves the descriptor it listened on. -/
theorem startAlarmServer_fd (h : Listening env port info) (backlog : List (Option Connection)) :
    (startAlarmServer env port backlog).1 = none ∨ ∃ stopped,
      (startAlarmServer env port backlog).1 = some (some stopped) ∧ stopped.fd = info.fd := by
  rw [startAlarmServer_of_listening h]
  rcases handleServerMessages ⟨backlog, 5, []⟩ with ⟨_ | error, s⟩
  · exact Or.inl rfl
  · refine Or.inr ⟨_, rfl, ?_⟩
    show (if error ≠ defaultSuccess then _ else _ : ServerInfo).fd = info.fd
    split_ifs <;> rfl

end Start

/-! ## The whole run -/

section Run

variable {env : StartEnv} {port : ℤ} {backlog : List (Option Connection)} {keepRunning : ℤ}

theorem mainRun_of_running (h : (startAlarmServer env port backlog).1 = none) :
    mainRun env port backlog keepRunning = (none, startAlarmServerCalls env port) := by
  rw [mainRun, h]

theorem mainRun_of_null (h : (startAlarmServer env port backlog).1 = some none) :
    mainRun env port backlog keepRunning =
      (some ⟨0, none, startAlarmServerCalls env port⟩, startAlarmServerCalls env port) := by
  rw [mainRun, h]
  rfl

/-- The shutdown finds nothing left to stop. -/
theorem mainRun_of_stopped {info : ServerInfo}
    (h : (startAlarmServer env port backlog).1 = some (some info)) :
    mainRun env port backlog keepRunning =
      (some ⟨0, none, startAlarmServerCalls env port ++ [.close info.fd]⟩,
        startAlarmServerCalls env port ++ [.close info.fd]) := by
  rw [mainRun, h]
  rfl

theorem live_socket {s fd : ℤ} :
    socketTrace.Live fd [.socket s] ↔ s ≠ defaultError ∧ s = fd := by
  rw [← List.nil_append [SocketCall.socket s], socketTrace.live_concat,
    or_iff_left (fun h => socketTrace.not_live_nil h.1)]
  simp [socketTrace]

theorem live_close {es : List SocketCall} {closed fd : ℤ} :
    socketTrace.Live fd (es ++ [.close closed]) ↔ socketTrace.Live fd es ∧ closed ≠ fd := by
  rw [socketTrace.live_concat]
  simp [socketTrace]

theorem disciplined_close {es : List SocketCall} {closed : ℤ} :
    socketTrace.Disciplined (es ++ [.close closed]) ↔
      socketTrace.Disciplined es ∧ socketTrace.Live closed es := by
  rw [socketTrace.disciplined_concat]
  simp [socketTrace]

theorem disciplined_socket (s : ℤ) : socketTrace.Disciplined [.socket s] :=
  socketTrace.disciplined_singleton rfl

/-- A descriptor closed is not closed again. -/
theorem not_disciplined_closed_twice (es : List SocketCall) (fd : ℤ) :
    ¬ socketTrace.Disciplined (es ++ [.close fd] ++ [.close fd]) := by
  intro h
  exact (live_close.mp (disciplined_close.mp h).2).2 rfl

/-- Every descriptor closed is one that `socket` returned and that was not closed before, and at
the end of `main` none is open. -/
def ClosesOnce (run : Option MainState × List SocketCall) : Prop :=
  socketTrace.Disciplined run.2 ∧ (run.1.isSome → ∀ fd, ¬ socketTrace.Live fd run.2)

/-- **The listening socket is closed exactly once iff no `ServerInfo` is made or nothing fails
before the server listens.** A failure to create the socket closes a descriptor never set, and
every later one closes the socket twice. -/
theorem mainRun_closes_iff (env : StartEnv) (port : ℤ) (backlog : List (Option Connection))
    (keepRunning : ℤ) :
    ClosesOnce (mainRun env port backlog keepRunning) ↔
      NoServerInfo env ∨ (env.socket ≠ defaultError ∧ Configured env) := by
  cases hinfo : getServerInfo env port with
  | none =>
    -- there is nothing to start and nothing to stop
    have hcalls : startAlarmServerCalls env port = [] := by rw [startAlarmServerCalls, hinfo]
    have hnull : (startAlarmServer env port backlog).1 = some none := by
      rw [startAlarmServer, hinfo]
    refine iff_of_true ?_ (Or.inl (getServerInfo_eq_none_iff.mp hinfo))
    rw [mainRun_of_null hnull, hcalls]
    exact ⟨socketTrace.disciplined_nil, fun _ fd => socketTrace.not_live_nil⟩
  | some info =>
    have hmade : ¬ NoServerInfo env := by
      intro hnone
      rw [getServerInfo_eq_none_iff.mpr hnone] at hinfo
      cases hinfo
    have hcalls : startAlarmServerCalls env port = initServerCalls env info := by
      rw [startAlarmServerCalls, hinfo]
    obtain ⟨hsocket, hinit, hclosed⟩ | ⟨hsocket, hfails, hinit, hclosed⟩ |
      ⟨hsocket, hconf, hinit, hopen⟩ := initServer_cases env (getServerInfo_family hinfo)
    · -- the descriptor closed is the leftover content of the new structure
      obtain ⟨stopped, hstopped, hfd⟩ := startAlarmServer_of_failed hinfo hinit backlog
      refine iff_of_false ?_ (not_or.mpr ⟨hmade, fun h => h.1 hsocket⟩)
      rw [mainRun_of_stopped hstopped, hcalls, hclosed]
      rintro ⟨hdisc, -⟩
      exact (live_socket.mp (disciplined_close.mp hdisc).2).1 hsocket
    · -- `init_server` closed the descriptor it leaves in the structure
      obtain ⟨stopped, hstopped, hfd⟩ := startAlarmServer_of_failed hinfo hinit backlog
      refine iff_of_false ?_ (not_or.mpr ⟨hmade, fun h => hfails h.2⟩)
      rw [mainRun_of_stopped hstopped, hcalls, hclosed, hfd]
      rintro ⟨hdisc, -⟩
      exact not_disciplined_closed_twice [.socket env.socket] env.socket hdisc
    · -- only `stop_alarm_server` closes it, when the server gives up
      refine iff_of_true ?_ (Or.inr ⟨hsocket, hconf⟩)
      obtain hruns | ⟨stopped, hstopped, hfd⟩ := startAlarmServer_fd ⟨info, hinfo, hinit⟩ backlog
      · rw [mainRun_of_running hruns, hcalls, hopen]
        exact ⟨disciplined_socket env.socket, fun hended => by cases hended⟩
      · rw [mainRun_of_stopped hstopped, hcalls, hopen, hfd]
        refine ⟨disciplined_close.mpr
          ⟨disciplined_socket env.socket, live_socket.mpr ⟨hsocket, rfl⟩⟩, ?_⟩
        intro _ fd hlive
        obtain ⟨hlive, hne⟩ := live_close.mp hlive
        exact hne (live_socket.mp hlive).2

/-- The port is taken: the socket is closed by `init_server`, and again by `stop_alarm_server`. -/
theorem failed_bind_closes_twice :
    (mainRun ⟨some [.inet], true, 0, 3, 0, 1, -1, 0⟩ 162 [] 1).2 =
        [.socket 3, .close 3, .close 3] ∧
      ¬ ClosesOnce (mainRun ⟨some [.inet], true, 0, 3, 0, 1, -1, 0⟩ 162 [] 1) := by
  have hcalls : (mainRun ⟨some [.inet], true, 0, 3, 0, 1, -1, 0⟩ 162 [] 1).2 =
      [.socket 3, .close 3, .close 3] := rfl
  refine ⟨hcalls, ?_⟩
  rintro ⟨hdisc, -⟩
  rw [hcalls] at hdisc
  exact not_disciplined_closed_twice [.socket 3] 3 hdisc

end Run

end StxSnmp.TrapServer
