import StxSnmp.Library.MachineInt

/-!
# Serving connections

`handle_server_messages` accepts one connection after another and reads one message from each.
A connection it cannot read a message from makes it call itself, one retry less; the code after
each of these calls is modelled too, though it runs only if the call returns something other than
`DEFAULT_ERROR`.

## Main definitions

* `Recv`, `recv`: what arrives on a connection, and one call to receive it
* `readLength`: the loop that reads the message length
* `Connection`, `Server`, `Event`: what `accept` returns, and the server with what it did
* `serveConnection`, `serve`, `handleServerMessages`: the server
* `Connection.message`, `Connection.cleanUp`: the message of a good connection, and what is done
  with a bad one

## Main results

* `serve_good`, `serve_bad`: one turn of the loop on a good and on a bad connection
* `serve_result`: the loop is left with `DEFAULT_ERROR` only
* `serve_fuel`: more fuel than connections changes nothing
-/

namespace StxSnmp.TrapServer

open MachineInt

def msgSize : ℕ := 4
def retriesMessageSize : ℕ := 20
def defaultError : ℤ := -1
def defaultSuccess : ℤ := 0

/-! ## Receiving -/

/-- What arrives on a connection: bytes, or an error. -/
inductive Recv where
  | bytes (piece : List UInt8)
  | error
  deriving DecidableEq, Repr

/-- The most that one call to `recv` transfers. -/
def maxRwCount : ℕ := 0x7ffff000

/-- `recv` takes what it is asked for from the next piece, whose rest stays to be received. At
the end the peer has closed the connection, and the result is 0. -/
def recv (size : ℕ) : List Recv → (ℤ × List UInt8) × List Recv
  | [] => ((0, []), [])
  | .error :: rest => ((-1, []), rest)
  | .bytes piece :: rest =>
    let n := min size maxRwCount
    ((cInt (piece.take n).length, piece.take n),
      if piece.length ≤ n then rest else .bytes (piece.drop n) :: rest)

/-- The bytes from `offset` on overwritten. -/
def store (mem : List UInt8) (offset : ℕ) (data : List UInt8) : List UInt8 :=
  mem.take offset ++ data ++ mem.drop (offset + data.length)

/-- What the length loop leaves: `error_msg_len`, the bytes of `nlength`, and what is still to be
received. -/
structure LengthRead where
  errorMsgLen : ℤ
  nlength : List UInt8
  rest : List Recv
  deriving DecidableEq, Repr

/-- The loop that reads the message length. -/
def readLength (partialRetries lengthBytes : ℕ) (nlength : List UInt8) (recvs : List Recv) :
    LengthRead :=
  if lengthBytes < msgSize then
    match recv (msgSize - lengthBytes) recvs with
    | ((read, data), rest) =>
      let nlength := store nlength lengthBytes data
      if read < defaultSuccess then ⟨defaultError, nlength, rest⟩
      -- tested after the call, whose bytes are then given up
      else if _h : partialRetries > retriesMessageSize then ⟨defaultError, nlength, rest⟩
      else readLength (partialRetries + 1) (lengthBytes + read.toNat) nlength rest
  else ⟨defaultSuccess, nlength, recvs⟩
termination_by retriesMessageSize + 1 - partialRetries
decreasing_by omega

/-- `ntohl` of the four bytes in memory. -/
def ntohl (nlength : List UInt8) : ℕ :=
  nlength.foldl (fun n byte => n * 256 + byte.toNat) 0

/-! ## The server -/

/-- A connection: its descriptor, what arrives on it, and whether its message's `malloc`
succeeds. -/
structure Connection where
  connfd : ℕ
  recvs : List Recv
  mallocOk : Bool
  deriving DecidableEq, Repr

/-- What the server does: a call of itself with the retries left, `accept`, `malloc`, `free`,
`close`, `process_json_alarm` with the bytes of its buffer or null, and a return. -/
inductive Event where
  | call (retries : ℤ)
  | accept (connfd : ℕ)
  | malloc (size : ℕ)
  | free
  | close (connfd : ℕ)
  | processJsonAlarm (msg : Option (List UInt8))
  | ret (result : ℤ)
  deriving DecidableEq, Repr

/-- The results of `accept` to come, a failure being `none`, the retries left, and what was done. -/
structure Server where
  backlog : List (Option Connection)
  retries : ℤ
  trace : List Event
  deriving DecidableEq, Repr

def Server.log (s : Server) (es : List Event) : Server :=
  { s with trace := s.trace ++ es }

/-- The result of a call, `none` while it waits in `accept`, and the server then. -/
abbrev Outcome := Option ℤ × Server

section Serve

variable (self loop : Server → Outcome)

/-- The recall of the server: it ends the loop when it returns `DEFAULT_ERROR`, else the code
goes on. -/
def recallServer (next : Server → Outcome) (s : Server) : Outcome :=
  match self s with
  | (none, s) => (none, s)
  | (some terminate, s) => if terminate = defaultError then (some defaultError, s) else next s

def processMessage (c : Connection) (msg : Option (List UInt8)) (s : Server) : Outcome :=
  loop (s.log [.processJsonAlarm msg, .free, .close c.connfd])

/-- The comparison is one of unsigned 32-bit integers. -/
def checkComplete (c : Connection) (length : ℕ) (bytesRead : ℤ) (msg : Option (List UInt8))
    (s : Server) : Outcome :=
  if bytesRead % 2 ^ 32 ≠ length then
    -- the buffer is gone, and the code after the recall would process a null
    recallServer self (processMessage loop c none) (s.log [.free, .close c.connfd])
  else processMessage loop c msg s

/-- `msg` is the buffer, null or holding what is received into it. -/
def receiveMessage (c : Connection) (isOpen : Bool) (rest : List Recv) (length : ℕ)
    (msg : Option (List UInt8)) (s : Server) : Outcome :=
  -- on a connection already closed the call fails
  let (bytesRead, data) := if isOpen then (recv length rest).1 else (-1, [])
  -- the buffer is freed and null from here on
  if bytesRead < defaultSuccess then
    recallServer self (checkComplete self loop c length bytesRead none)
      (s.log [.free, .close c.connfd])
  else checkComplete self loop c length bytesRead (msg.map fun _ => data) s

def allocateMessage (c : Connection) (isOpen : Bool) (l : LengthRead) (s : Server) : Outcome :=
  let length := ntohl l.nlength
  let s := s.log [.malloc length]
  if c.mallocOk then receiveMessage self loop c isOpen l.rest length (some []) s
  else
    -- there is no buffer to free
    recallServer self (receiveMessage self loop c false l.rest length none)
      (s.log [.close c.connfd])

def serveConnection (c : Connection) (s : Server) : Outcome :=
  let l := readLength 0 0 [0, 0, 0, 0] c.recvs
  if l.errorMsgLen ≠ defaultSuccess then
    -- the code after the recall would go on with the closed connection
    recallServer self (allocateMessage self loop c false l) (s.log [.close c.connfd])
  else allocateMessage self loop c true l s

/-- One turn of the server's loop; it waits when there is nothing to accept. -/
def serveNext (s : Server) : Outcome :=
  match s.backlog with
  | [] => (none, s)
  -- a failed `accept` is only logged
  | none :: backlog => loop { s with backlog := backlog }
  | some c :: backlog =>
    serveConnection self loop c ({ s with backlog := backlog }.log [.accept c.connfd])

end Serve

/-- The entry of `handle_server_messages`: a retry less, and a refusal when none is left. -/
def enter (loop : Server → Outcome) (s : Server) : Outcome :=
  let s := { s with retries := s.retries - 1 }.log [.call (s.retries - 1)]
  -- refused before anything is accepted
  if s.retries < 0 then (some defaultError, s.log [.ret defaultError])
  else
    match loop s with
    | (none, s) => (none, s)
    | (some result, s) => (some result, s.log [.ret result])

/-- The loop, for at most `n` turns of it and of the loops nested in it. -/
def serve : ℕ → Server → Outcome
  | 0, s => (none, s)
  | n + 1, s => serveNext (enter (serve n)) (serve n) s

/-- Every turn takes a result of `accept`, so as many turns as these suffice. -/
def handleServerMessages (s : Server) : Outcome :=
  enter (serve (s.backlog.length + 1)) s

/-! ## Good and bad connections -/

/-- A call to `recv` fails, or returns the number of bytes it takes. -/
theorem recv_result (size : ℕ) (recvs : List Recv) :
    (recv size recvs).1.1 = -1 ∨
      (recv size recvs).1.1 = (recv size recvs).1.2.length ∧
        (recv size recvs).1.2.length ≤ maxRwCount := by
  rcases recvs with _ | ⟨piece | _, rest⟩
  · exact Or.inr ⟨rfl, Nat.zero_le _⟩
  · -- what one call transfers fits the `int` it returns
    have hlen : (piece.take (min size maxRwCount)).length ≤ maxRwCount :=
      Nat.le_trans (List.length_take_le _ _) (Nat.min_le_right _ _)
    have hlt : (piece.take (min size maxRwCount)).length < 2147483648 := by
      unfold maxRwCount at hlen ⊢
      omega
    simp only [recv]
    exact Or.inr ⟨cInt_natCast hlt, hlen⟩
  · exact Or.inl rfl

/-- The message of a good connection: the length loop obtains its bytes, the allocation
succeeds, and the body arrives complete. -/
def Connection.message (c : Connection) : Option (List UInt8) :=
  let l := readLength 0 0 [0, 0, 0, 0] c.recvs
  if l.errorMsgLen = defaultSuccess ∧ c.mallocOk = true then
    let ((bytesRead, data), _) := recv (ntohl l.nlength) l.rest
    if bytesRead = ntohl l.nlength then some data else none
  else none

/-- Events that neither process a message nor enter or leave a call. -/
def Event.isQuiet : Event → Bool
  | .accept _ | .malloc _ | .free | .close _ => true
  | _ => false

/-- What is done with a bad connection, from the allocation to the recall. -/
def Connection.cleanUp (c : Connection) : List Event :=
  let l := readLength 0 0 [0, 0, 0, 0] c.recvs
  if l.errorMsgLen ≠ defaultSuccess then [.close c.connfd]
  else if c.mallocOk then [.malloc (ntohl l.nlength), .free, .close c.connfd]
  else [.malloc (ntohl l.nlength), .close c.connfd]

theorem Connection.cleanUp_isQuiet (c : Connection) : c.cleanUp.all Event.isQuiet := by
  simp only [cleanUp]
  split_ifs <;> rfl

section Turn

variable {self loop : Server → Outcome} {c : Connection} {s : Server}

theorem log_log (es es' : List Event) : (s.log es).log es' = s.log (es ++ es') := by
  simp [Server.log]

/-- A recall that can only wait or fail is all that is left to do. -/
theorem recallServer_eq {next : Server → Outcome}
    (h : (self s).1 = none ∨ (self s).1 = some defaultError) :
    recallServer self next s = self s := by
  rw [recallServer]
  rcases hs : self s with ⟨_ | terminate, s'⟩
  · rfl
  · rw [hs] at h
    obtain rfl : terminate = defaultError := by simpa using h
    exact if_pos rfl

theorem checkComplete_of_eq {length : ℕ} {bytesRead : ℤ} {msg : Option (List UInt8)}
    (h : bytesRead = length) (hlt : length ≤ maxRwCount) :
    checkComplete self loop c length bytesRead msg s = processMessage loop c msg s := by
  unfold maxRwCount at hlt
  rw [checkComplete, if_neg]
  omega

theorem checkComplete_of_ne {length n : ℕ} {msg : Option (List UInt8)} (h : (n : ℤ) ≠ length)
    (hlt : n ≤ maxRwCount) :
    checkComplete self loop c length n msg s =
      recallServer self (processMessage loop c none) (s.log [.free, .close c.connfd]) := by
  unfold maxRwCount at hlt
  rw [checkComplete, if_pos]
  omega

theorem receiveMessage_of_recv {rest : List Recv} {length : ℕ} {bytesRead : ℤ} {data : List UInt8}
    (h : (recv length rest).1 = (bytesRead, data)) :
    receiveMessage self loop c true rest length (some []) s =
      if bytesRead < defaultSuccess then
        recallServer self (checkComplete self loop c length bytesRead none)
          (s.log [.free, .close c.connfd])
      else checkComplete self loop c length bytesRead (some data) s := by
  rw [receiveMessage, if_pos rfl, h]
  rfl

/-- The message of a good connection is what its length and its body were read as. -/
theorem message_eq_some {msg : List UInt8} (h : c.message = some msg) :
    (readLength 0 0 [0, 0, 0, 0] c.recvs).errorMsgLen = defaultSuccess ∧ c.mallocOk = true ∧
      ntohl (readLength 0 0 [0, 0, 0, 0] c.recvs).nlength = msg.length ∧
      (recv msg.length (readLength 0 0 [0, 0, 0, 0] c.recvs).rest).1 = ((msg.length : ℤ), msg) ∧
      msg.length ≤ maxRwCount := by
  rw [Connection.message] at h
  split at h
  · next hl =>
    obtain ⟨hlength, hmalloc⟩ := hl
    have hresult := recv_result (ntohl (readLength 0 0 [0, 0, 0, 0] c.recvs).nlength)
      (readLength 0 0 [0, 0, 0, 0] c.recvs).rest
    rcases hrecv : recv (ntohl (readLength 0 0 [0, 0, 0, 0] c.recvs).nlength)
      (readLength 0 0 [0, 0, 0, 0] c.recvs).rest with ⟨⟨bytesRead, data⟩, rest⟩
    simp only [hrecv] at h hresult
    split at h
    · next hread =>
      obtain rfl : data = msg := Option.some.inj h
      -- a result equal to the length is no failure
      obtain ⟨hdata, hle⟩ := hresult.resolve_left (by omega)
      have hntohl : ntohl (readLength 0 0 [0, 0, 0, 0] c.recvs).nlength = data.length := by omega
      refine ⟨hlength, hmalloc, hntohl, ?_, hle⟩
      rw [← hntohl, hrecv, hread]
    · cases h
  · cases h

/-- A good connection is processed, and the loop goes on. -/
theorem serveConnection_good {msg : List UInt8} (h : c.message = some msg) :
    serveConnection self loop c s = loop (s.log
      [.malloc msg.length, .processJsonAlarm (some msg), .free, .close c.connfd]) := by
  obtain ⟨hlength, hmalloc, hntohl, hrecv, hle⟩ := message_eq_some h
  have hnonneg : ¬ (msg.length : ℤ) < defaultSuccess := Int.not_lt.mpr (Int.natCast_nonneg _)
  rw [serveConnection, if_neg (not_not.mpr hlength), allocateMessage, if_pos hmalloc, hntohl,
    receiveMessage_of_recv hrecv, if_neg hnonneg, checkComplete_of_eq rfl hle, processMessage,
    log_log]
  rfl

/-- On a bad connection the server cleans up and calls itself, with nothing processed. -/
theorem serveConnection_bad (h : c.message = none)
    (hself : ∀ s, (self s).1 = none ∨ (self s).1 = some defaultError) :
    serveConnection self loop c s = self (s.log c.cleanUp) := by
  rw [Connection.cleanUp]
  by_cases hlength : (readLength 0 0 [0, 0, 0, 0] c.recvs).errorMsgLen = defaultSuccess
  · by_cases hmalloc : c.mallocOk = true
    · -- the body fails or is incomplete
      rw [serveConnection, if_neg (not_not.mpr hlength), allocateMessage, if_pos hmalloc]
      rw [Connection.message, if_pos ⟨hlength, hmalloc⟩] at h
      have hresult := recv_result (ntohl (readLength 0 0 [0, 0, 0, 0] c.recvs).nlength)
        (readLength 0 0 [0, 0, 0, 0] c.recvs).rest
      rcases hrecv : recv (ntohl (readLength 0 0 [0, 0, 0, 0] c.recvs).nlength)
        (readLength 0 0 [0, 0, 0, 0] c.recvs).rest with ⟨⟨bytesRead, data⟩, rest⟩
      have hread : (recv (ntohl (readLength 0 0 [0, 0, 0, 0] c.recvs).nlength)
          (readLength 0 0 [0, 0, 0, 0] c.recvs).rest).1 = (bytesRead, data) := by rw [hrecv]
      rw [receiveMessage_of_recv hread]
      simp only [hrecv] at h hresult
      rcases hresult with rfl | ⟨rfl, hle⟩
      · rw [if_pos (by decide), recallServer_eq (hself _), log_log]
        simp [hlength, hmalloc]
      · -- fewer bytes than the length said
        have hne : (data.length : ℤ) ≠ ntohl (readLength 0 0 [0, 0, 0, 0] c.recvs).nlength := by
          intro heq
          rw [if_pos heq] at h
          cases h
        have hnonneg : ¬ (data.length : ℤ) < defaultSuccess :=
          Int.not_lt.mpr (Int.natCast_nonneg _)
        rw [if_neg hnonneg, checkComplete_of_ne hne hle, recallServer_eq (hself _), log_log]
        simp [hlength, hmalloc]
    · -- the allocation fails
      rw [serveConnection, if_neg (not_not.mpr hlength), allocateMessage, if_neg hmalloc,
        recallServer_eq (hself _), log_log]
      simp [hlength, hmalloc]
  · -- the length is not obtained
    rw [serveConnection, if_pos hlength, recallServer_eq (hself _)]
    simp [hlength]

end Turn

/-! ## Turns of the loop -/

section Loop

variable {c : Connection} {backlog : List (Option Connection)} {r : ℤ} {tr : List Event} {n : ℕ}

theorem serve_nil : serve n ⟨[], r, tr⟩ = (none, ⟨[], r, tr⟩) := by
  cases n <;> rfl

/-- A failed `accept` is passed over. -/
theorem serve_failed : serve (n + 1) ⟨none :: backlog, r, tr⟩ = serve n ⟨backlog, r, tr⟩ := rfl

theorem serve_some :
    serve (n + 1) ⟨some c :: backlog, r, tr⟩ =
      serveConnection (enter (serve n)) (serve n) c ⟨backlog, r, tr ++ [.accept c.connfd]⟩ :=
  rfl

/-- The events of a good connection. -/
def goodEvents (c : Connection) (msg : List UInt8) : List Event :=
  [.accept c.connfd, .malloc msg.length, .processJsonAlarm (some msg), .free, .close c.connfd]

/-- A good connection's message is processed, and no retry is spent. -/
theorem serve_good {msg : List UInt8} (h : c.message = some msg) :
    serve (n + 1) ⟨some c :: backlog, r, tr⟩ = serve n ⟨backlog, r, tr ++ goodEvents c msg⟩ := by
  rw [serve_some, serveConnection_good h, Server.log, goodEvents]
  simp

theorem enter_of_nonpos {loop : Server → Outcome} (h : r ≤ 0) :
    enter loop ⟨backlog, r, tr⟩ =
      (some defaultError, ⟨backlog, r - 1, tr ++ [.call (r - 1), .ret defaultError]⟩) := by
  have hneg : r - 1 < 0 := by omega
  simp [enter, Server.log, hneg]

theorem enter_of_pos {loop : Server → Outcome} (h : 0 < r) :
    enter loop ⟨backlog, r, tr⟩ =
      match loop ⟨backlog, r - 1, tr ++ [.call (r - 1)]⟩ with
      | (none, s) => (none, s)
      | (some result, s) => (some result, s.log [.ret result]) := by
  have hneg : ¬ r - 1 < 0 := by omega
  simp only [enter, Server.log, hneg, if_false]

theorem enter_waits {loop : Server → Outcome} (h : 0 < r) {s : Server}
    (hloop : loop ⟨backlog, r - 1, tr ++ [.call (r - 1)]⟩ = (none, s)) :
    enter loop ⟨backlog, r, tr⟩ = (none, s) := by
  rw [enter_of_pos h, hloop]

theorem enter_returns {loop : Server → Outcome} (h : 0 < r) {result : ℤ} {s : Server}
    (hloop : loop ⟨backlog, r - 1, tr ++ [.call (r - 1)]⟩ = (some result, s)) :
    enter loop ⟨backlog, r, tr⟩ = (some result, s.log [.ret result]) := by
  rw [enter_of_pos h, hloop]

theorem enter_result {loop : Server → Outcome}
    (h : ∀ s, (loop s).1 = none ∨ (loop s).1 = some defaultError) (s : Server) :
    (enter loop s).1 = none ∨ (enter loop s).1 = some defaultError := by
  obtain ⟨backlog, r, tr⟩ := s
  by_cases hr : 0 < r
  · rw [enter_of_pos hr]
    have hloop := h ⟨backlog, r - 1, tr ++ [.call (r - 1)]⟩
    split
    · exact Or.inl rfl
    · next result s hs =>
      rw [hs] at hloop
      exact hloop
  · rw [enter_of_nonpos (Int.not_lt.mp hr)]
    exact Or.inr rfl

/-- The loop is left with `DEFAULT_ERROR` only. -/
theorem serve_result (n : ℕ) (s : Server) :
    (serve n s).1 = none ∨ (serve n s).1 = some defaultError := by
  -- each turn ends in the loop itself or in a nested call
  induction n generalizing s with
  | zero => exact Or.inl rfl
  | succ n ih =>
    obtain ⟨_ | ⟨_ | c, backlog⟩, r, tr⟩ := s
    · exact Or.inl rfl
    · exact ih _
    · rw [serve_some]
      cases hc : c.message with
      | some msg =>
        rw [serveConnection_good hc]
        exact ih _
      | none =>
        rw [serveConnection_bad hc (enter_result ih)]
        exact enter_result ih _

/-- The events of a bad connection. -/
def badEvents (c : Connection) : List Event := .accept c.connfd :: c.cleanUp

theorem badEvents_isQuiet (c : Connection) : (badEvents c).all Event.isQuiet := by
  simpa [badEvents, Event.isQuiet] using c.cleanUp_isQuiet

/-- A bad connection is closed, and costs a retry. -/
theorem serve_bad (h : c.message = none) :
    serve (n + 1) ⟨some c :: backlog, r, tr⟩ =
      enter (serve n) ⟨backlog, r, tr ++ badEvents c⟩ := by
  rw [serve_some, serveConnection_bad h (enter_result (serve_result n)), Server.log, badEvents]
  simp

/-- More turns than there are connections to accept change nothing. -/
theorem serve_fuel {n m : ℕ} {s : Server} (hn : s.backlog.length ≤ n) (hm : s.backlog.length ≤ m) :
    serve n s = serve m s := by
  induction n generalizing m s with
  | zero =>
    obtain ⟨backlog, r, tr⟩ := s
    obtain rfl : backlog = [] := List.eq_nil_of_length_eq_zero (Nat.le_zero.mp hn)
    rw [serve_nil, serve_nil]
  | succ n ih =>
    -- each turn takes one connection and one unit of fuel, in the nested call too
    obtain ⟨_ | ⟨accepted, backlog⟩, r, tr⟩ := s
    · rw [serve_nil, serve_nil]
    · obtain ⟨m, rfl⟩ : ∃ m', m = m' + 1 := ⟨m - 1, by simp at hm; omega⟩
      have hlen : backlog.length ≤ n := by simpa using hn
      have hlen' : backlog.length ≤ m := by simpa using hm
      cases accepted with
      | none => exact ih hlen hlen'
      | some c =>
        cases hc : c.message with
        | some msg =>
          rw [serve_good hc, serve_good hc]
          exact ih hlen hlen'
        | none =>
          rw [serve_bad hc, serve_bad hc]
          by_cases hr : 0 < r
          · rw [enter_of_pos hr, enter_of_pos hr, ih hlen hlen']
          · rw [enter_of_nonpos (Int.not_lt.mp hr), enter_of_nonpos (Int.not_lt.mp hr)]

end Loop

end StxSnmp.TrapServer
