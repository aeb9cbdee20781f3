import StxSnmp.TrapServer.Messages

/-!
# Starting the server

`start_alarm_server` looks up an address, listens on it, and serves messages until the server
gives up.

## Main definitions

* `ServerInfo`: `struct sServerInfo`
* `StartEnv`: the outcomes of the calls made to start
* `getServerInfo`, `initServer`, `startAlarmServer`: the start
* `Listening`: a start that reaches the listening socket

## Main results

* `Listening.retries_eq`: the server starts with five retries
-/

namespace StxSnmp.TrapServer

/-- The address families `getaddrinfo` can answer. -/
inductive AddressFamily where
  | inet
  | inet6
  | other
  deriving DecidableEq, Repr

structure ServerInfo where
  address : String
  addressFamily : AddressFamily
  port : ℤ
  fd : ℤ
  retries : ℤ
  error : ℤ
  deriving DecidableEq, Repr

/-- The families of the results of `getaddrinfo`, if it succeeds, whether `malloc` does, the
leftover content of `fd`, and the results of the other calls. -/
structure StartEnv where
  addrinfo : Option (List AddressFamily)
  mallocOk : Bool
  leftoverFd : ℤ
  socket : ℤ
  setsockopt : ℤ
  inetPton : ℤ
  bind : ℤ
  listen : ℤ
  deriving DecidableEq, Repr

def retries : ℤ := 5

/-- The wildcard address of the first family the server listens on. -/
def wildcardAddress : List AddressFamily → Option (String × AddressFamily)
  | [] => none
  | .inet :: _ => some ("0.0.0.0", .inet)
  | .inet6 :: _ => some ("::", .inet6)
  -- a result of another family is passed over
  | .other :: families => wildcardAddress families

def getServerInfo (env : StartEnv) (port : ℤ) : Option ServerInfo :=
  match env.addrinfo with
  | none => none
  | some families =>
    if env.mallocOk then
      (wildcardAddress families).map fun (address, family) =>
        ⟨address, family, port, env.leftoverFd, retries, defaultSuccess⟩
    else none

/-- The result and the information updated; a failure after `socket` closes the descriptor. -/
def initServer (env : StartEnv) (info : ServerInfo) : ℤ × ServerInfo :=
  if env.socket = defaultError then (defaultError, info)
  else
    let info := { info with fd := env.socket }
    if env.setsockopt ≠ defaultSuccess then (defaultError, info)
    else
      match info.addressFamily with
      -- the family looked up is one of the other two
      | .other => (defaultError, info)
      | .inet | .inet6 =>
        -- 0 tells that the text is no address of the family
        if env.inetPton ≤ defaultSuccess then (defaultError, info)
        else if env.bind ≠ defaultSuccess then (defaultError, info)
        else if env.listen ≠ defaultSuccess then (defaultError, info)
        else (defaultSuccess, info)

/-- What `start_alarm_server` returns, `none` while the server runs, and the server. -/
def startAlarmServer (env : StartEnv) (port : ℤ) (backlog : List (Option Connection)) :
    Option (Option ServerInfo) × Server :=
  match getServerInfo env port with
  | none => (some none, ⟨backlog, 0, []⟩)
  | some info =>
    let (error, info) := initServer env info
    if error = defaultSuccess then
      match handleServerMessages ⟨backlog, info.retries, []⟩ with
      | (none, s) => (none, s)
      | (some error, s) =>
        -- the retries were counted down in the same structure
        let info := { info with retries := s.retries }
        (some (some (if error ≠ defaultSuccess then { info with error := defaultError } else info)),
          s)
    else (some (some { info with error := defaultError }), ⟨backlog, info.retries, []⟩)

/-- The start reaches the listening socket. -/
def Listening (env : StartEnv) (port : ℤ) (info : ServerInfo) : Prop :=
  ∃ info₀, getServerInfo env port = some info₀ ∧ initServer env info₀ = (defaultSuccess, info)

/-- The initialisation keeps the retries. -/
theorem initServer_retries (env : StartEnv) (info : ServerInfo) :
    (initServer env info).2.retries = info.retries := by
  obtain ⟨address, family, port, fd, retries, error⟩ := info
  cases family <;> simp only [initServer] <;> split_ifs <;> rfl

/-- A server that listens has its five retries. -/
theorem Listening.retries_eq {env : StartEnv} {port : ℤ} {info : ServerInfo}
    (h : Listening env port info) : info.retries = 5 := by
  obtain ⟨info₀, hinfo, hinit⟩ := h
  -- whatever the address found, the retries are those of a new structure
  have hretries : info₀.retries = 5 := by
    unfold getServerInfo at hinfo
    split at hinfo
    · cases hinfo
    · split at hinfo
      · obtain ⟨⟨address, family⟩, -, rfl⟩ := Option.map_eq_some_iff.mp hinfo
        rfl
      · cases hinfo
  have hkept := initServer_retries env info₀
  rw [hinit] at hkept
  exact hkept.trans hretries

/-- The start from the listening socket on. -/
theorem startAlarmServer_of_listening {env : StartEnv} {port : ℤ} {info : ServerInfo}
    (h : Listening env port info) (backlog : List (Option Connection)) :
    startAlarmServer env port backlog =
      match handleServerMessages ⟨backlog, 5, []⟩ with
      | (none, s) => (none, s)
      | (some error, s) =>
        let info := { info with retries := s.retries }
        (some (some (if error ≠ defaultSuccess then { info with error := defaultError } else info)),
          s) := by
  have hretries := h.retries_eq
  obtain ⟨info₀, hinfo, hinit⟩ := h
  rw [startAlarmServer, hinfo, ← hretries]
  simp only [hinit, if_pos]

end StxSnmp.TrapServer
