import StxSnmp.TrapServer.LengthLoop
import StxSnmp.TrapServer.Relay

/-!
# Bytes behind a message

The server reads one message from a connection and closes it. What the peer sends behind the
message, in the same piece or in pieces of their own, is never looked at, be it a second message.

## Main definitions

* `Continues`: a stream that goes on where another one ends
* `TrailedBy`: what `accept` returns, with more bytes behind a message
* `SameRun`: runs that differ only in what is still to be accepted

## Main results

* `recv_continues`, `readLength_continues`: a call and the length loop on a longer stream
* `message_continues`: a message stays the message whatever follows it
* `trailing_bytes_ignored`: the server and the program run as without the bytes behind the messages
-/

namespace StxSnmp.TrapServer

open Trap

/-! ## A stream that goes on -/

/-- More bytes arrive behind a stream: in its last piece, in pieces of their own, or both. -/
inductive Continues : List Recv → List Recv → Prop
  | ends (more : List (List UInt8)) : Continues [] (more.map Recv.bytes)
  | longer (piece tail : List UInt8) (more : List (List UInt8)) :
      Continues [.bytes piece] (((piece ++ tail) :: more).map Recv.bytes)
  | cons (r : Recv) {recvs recvs' : List Recv} (h : Continues recvs recvs') :
      Continues (r :: recvs) (r :: recvs')

/-- A call on a longer stream does the same, unless it takes the end of the shorter one and lacks
bytes still. -/
theorem recv_continues {size : ℕ} (hsize : size ≤ maxRwCount) {recvs recvs' : List Recv}
    (h : Continues recvs recvs') :
    ((recv size recvs').1 = (recv size recvs).1 ∧
        Continues (recv size recvs).2 (recv size recvs').2) ∨
      ((recv size recvs).2 = [] ∧ (recv size recvs).1.2.length < size) := by
  cases h with
  | ends more =>
    rcases Nat.eq_zero_or_pos size with rfl | hpos
    · -- nothing is asked for
      refine Or.inl ?_
      cases more with
      | nil => exact ⟨rfl, .ends []⟩
      | cons piece more =>
        rw [recv_cons_bytes hsize]
        exact ⟨rfl, .ends _⟩
    · exact Or.inr ⟨rfl, hpos⟩
  | longer piece tail more =>
    rw [show [Recv.bytes piece] = [piece].map Recv.bytes from rfl, recv_cons_bytes hsize,
      recv_cons_bytes hsize]
    rcases Nat.lt_or_ge piece.length size with hlt | hge
    · rw [List.take_of_length_le hlt.le, if_pos hlt.le]
      exact Or.inr ⟨rfl, hlt⟩
    · rw [List.take_append_of_le_length hge]
      refine Or.inl ⟨rfl, ?_⟩
      rcases hge.eq_or_lt with heq | hgt
      · -- the piece is taken whole
        rw [if_pos heq.ge]
        exact .ends _
      · have hle : size < (piece ++ tail).length := by
          rw [List.length_append]
          omega
        rw [if_neg (Nat.not_le.mpr hgt), if_neg (Nat.not_le.mpr hle),
          List.drop_append_of_le_length hge]
        exact .longer _ tail more
  | cons r h =>
    refine Or.inl ?_
    cases r with
    | error => exact ⟨rfl, h⟩
    | bytes piece =>
      refine ⟨rfl, ?_⟩
      simp only [recv]
      split
      · exact h
      · exact .cons _ h

/-- One turn of the length loop, from what its call does. -/
theorem readLength_recv {k j : ℕ} {nlength data : List UInt8} {recvs rest : List Recv} {read : ℤ}
    (hj : j < 4) (hrecv : recv (4 - j) recvs = ((read, data), rest)) :
    readLength k j nlength recvs =
      if read < defaultSuccess ∨ retriesMessageSize < k then
        ⟨defaultError, store nlength j data, rest⟩
      else readLength (k + 1) (j + read.toNat) (store nlength j data) rest := by
  rw [readLength, if_pos (show j < msgSize from hj), show msgSize - j = 4 - j from rfl, hrecv]
  by_cases hread : read < defaultSuccess
  · simp [hread]
  · by_cases hretries : k > retriesMessageSize
    · simp [hretries]
    · simp [hread, hretries]

/-- A length loop at the end of its stream fails. -/
theorem readLength_end {k j : ℕ} {nlength : List UInt8} (hj : j < 4) (hk : k ≤ 21)
    (hlength : nlength.length = 4) :
    (readLength k j nlength []).errorMsgLen ≠ defaultSuccess := by
  have hmissing : 0 < msgSize - j := Nat.sub_pos_of_lt hj
  intro hsuccess
  exact not_reachedWithin_nil hmissing ((lengthSpec hj.le hk hlength []).success_iff.mp hsuccess)

/-- A length that is read is read alike from a longer stream, of which more is left. -/
theorem readLength_continues {k j : ℕ} {nlength : List UInt8} {recvs recvs' : List Recv}
    (hj : j ≤ 4) (hk : k ≤ 21) (hlength : nlength.length = 4) (h : Continues recvs recvs')
    (hsuccess : (readLength k j nlength recvs).errorMsgLen = defaultSuccess) :
    (readLength k j nlength recvs').errorMsgLen = defaultSuccess ∧
      (readLength k j nlength recvs').nlength = (readLength k j nlength recvs).nlength ∧
      Continues (readLength k j nlength recvs).rest (readLength k j nlength recvs').rest := by
  rcases hj.eq_or_lt with rfl | hlt
  · rw [readLength_done, readLength_done]
    exact ⟨rfl, rfl, h⟩
  · have hsize : 4 - j ≤ maxRwCount := by
      unfold maxRwCount
      omega
    have hcall := recv_continues hsize h
    have hfailed : defaultError ≠ defaultSuccess := by decide
    obtain ⟨rest, rfl, hrecv⟩ | ⟨data, rest, hrecv, hdata, -⟩ := recv_cases hsize recvs
    · -- an error is no success
      rw [readLength_recv hlt hrecv, if_pos (Or.inl (by decide))] at hsuccess
      exact absurd hsuccess hfailed
    · rw [readLength_recv hlt hrecv] at hsuccess ⊢
      by_cases hend : (data.length : ℤ) < defaultSuccess ∨ retriesMessageSize < k
      · rw [if_pos hend] at hsuccess
        exact absurd hsuccess hfailed
      · rw [if_neg hend, Int.toNat_natCast] at hsuccess ⊢
        have hmore : k + 1 ≤ 21 := by
          unfold retriesMessageSize at hend
          omega
        have hstore : (store nlength j data).length = 4 := by
          rw [store_length (by omega), hlength]
        rw [hrecv] at hcall
        obtain ⟨hsame, hrest⟩ | ⟨hnil, hshort⟩ := hcall
        · -- the turns are the same, and more is left to both loops
          have hrecv' : recv (4 - j) recvs' =
              (((data.length : ℤ), data), (recv (4 - j) recvs').2) := Prod.ext hsame rfl
          rw [readLength_recv hlt hrecv', if_neg hend, Int.toNat_natCast]
          exact readLength_continues (by omega) hmore hstore hrest hsuccess
        · -- the shorter stream is used up, and the length incomplete
          have hlack : data.length < 4 - j := hshort
          obtain rfl : rest = [] := hnil
          exact absurd hsuccess (readLength_end (by omega) hmore hstore)
termination_by 21 - k

/-- A message stays the message, whatever follows it. -/
theorem message_continues {c : Connection} {recvs' : List Recv} {msg : List UInt8}
    (h : Continues c.recvs recvs') (hc : c.message = some msg) :
    Connection.message { c with recvs := recvs' } = some msg := by
  obtain ⟨hsuccess, hmalloc, hntohl, hrecv, hle⟩ := message_eq_some hc
  obtain ⟨hsuccess', hnlength, hrest⟩ :=
    readLength_continues (Nat.zero_le 4) (Nat.zero_le 21) rfl h hsuccess
  -- the body is complete, so it does not end with the shorter stream
  have hbody : (recv msg.length (readLength 0 0 [0, 0, 0, 0] recvs').rest).1 =
      ((msg.length : ℤ), msg) := by
    obtain ⟨hsame, -⟩ | ⟨-, hshort⟩ := recv_continues hle hrest
    · rw [hsame, hrecv]
    · rw [hrecv] at hshort
      exact absurd hshort (lt_irrefl _)
  rw [Connection.message, if_pos ⟨hsuccess', hmalloc⟩]
  simp only [hnlength, hntohl, hbody, if_pos]

/-! ## Runs -/

/-- The same result of `accept`, but for bytes behind the message of its connection. -/
inductive TrailedBy : Option Connection → Option Connection → Prop
  | same (accepted : Option Connection) : TrailedBy accepted accepted
  | more {c : Connection} {recvs' : List Recv} {msg : List UInt8} (hmsg : c.message = some msg)
      (h : Continues c.recvs recvs') : TrailedBy (some c) (some { c with recvs := recvs' })

/-- The same retries and the same trace, with the same to accept but for bytes behind messages. -/
structure SameServer (s s' : Server) : Prop where
  backlog : List.Forall₂ TrailedBy s.backlog s'.backlog
  retries : s.retries = s'.retries
  trace : s.trace = s'.trace

/-- Outcomes with the same result and the same server. -/
structure SameOutcome (out out' : Outcome) : Prop where
  result : out.1 = out'.1
  server : SameServer out.2 out'.2

theorem SameServer.log {s s' : Server} (h : SameServer s s') (es : List Event) :
    SameServer (s.log es) (s'.log es) :=
  ⟨h.backlog, h.retries, congrArg (· ++ es) h.trace⟩

/-- Entering a loop that behaves the same is the same. -/
theorem SameServer.enter {loop loop' : Server → Outcome} {s s' : Server} (h : SameServer s s')
    (hloop : ∀ s s', SameServer s s' → SameOutcome (loop s) (loop' s')) :
    SameOutcome (enter loop s) (TrapServer.enter loop' s') := by
  obtain ⟨backlog, r, tr⟩ := s
  obtain ⟨backlog', r', tr'⟩ := s'
  obtain ⟨hbacklog, rfl, rfl⟩ := h
  by_cases hr : 0 < r
  · have hinner := hloop ⟨backlog, r - 1, tr ++ [.call (r - 1)]⟩
      ⟨backlog', r - 1, tr ++ [.call (r - 1)]⟩ ⟨hbacklog, rfl, rfl⟩
    rcases hout : loop ⟨backlog, r - 1, tr ++ [.call (r - 1)]⟩ with ⟨result, inner⟩
    rcases hout' : loop' ⟨backlog', r - 1, tr ++ [.call (r - 1)]⟩ with ⟨result', inner'⟩
    rw [hout, hout'] at hinner
    obtain ⟨rfl, hserver⟩ := hinner
    cases result with
    | none =>
      rw [enter_waits hr hout, enter_waits hr hout']
      exact ⟨rfl, hserver⟩
    | some result =>
      rw [enter_returns hr hout, enter_returns hr hout']
      exact ⟨rfl, hserver.log _⟩
  · rw [enter_of_nonpos (Int.not_lt.mp hr), enter_of_nonpos (Int.not_lt.mp hr)]
    exact ⟨rfl, hbacklog, rfl, rfl⟩

/-- The loop runs the same, whatever follows the messages. -/
theorem serve_trailed (n : ℕ) {s s' : Server} (h : SameServer s s') :
    SameOutcome (serve n s) (serve n s') := by
  -- each turn ends in the loop itself or in a nested call, with one turn less
  induction n generalizing s s' with
  | zero => exact ⟨rfl, h⟩
  | succ n ih =>
    obtain ⟨backlog, r, tr⟩ := s
    obtain ⟨backlog', r', tr'⟩ := s'
    obtain ⟨hbacklog, rfl, rfl⟩ := h
    cases hbacklog with
    | nil => exact ⟨rfl, .nil, rfl, rfl⟩
    | @cons accepted _ _ _ haccepted hbacklog =>
      cases haccepted with
      | same =>
        cases accepted with
        | none => exact ih ⟨hbacklog, rfl, rfl⟩
        | some c =>
          cases hc : c.message with
          | some msg =>
            rw [serve_good hc, serve_good hc]
            exact ih ⟨hbacklog, rfl, rfl⟩
          | none =>
            rw [serve_bad hc, serve_bad hc]
            exact SameServer.enter ⟨hbacklog, rfl, rfl⟩ fun _ _ => ih
      | more hmsg hmore =>
        -- the longer stream has the same message, on the same descriptor
        rw [serve_good hmsg, serve_good (message_continues hmore hmsg)]
        exact ih ⟨hbacklog, rfl, rfl⟩

/-- A call of the server does the same, whatever follows the messages. -/
theorem handleServerMessages_trailed {s s' : Server} (h : SameServer s s') :
    SameOutcome (handleServerMessages s) (handleServerMessages s') := by
  rw [handleServerMessages, handleServerMessages, h.backlog.length_eq]
  exact h.enter fun _ _ => serve_trailed _

/-- So does a start of the server. -/
theorem startAlarmServer_trailed (env : StartEnv) (port : ℤ)
    {backlog backlog' : List (Option Connection)} (h : List.Forall₂ TrailedBy backlog backlog') :
    (startAlarmServer env port backlog).1 = (startAlarmServer env port backlog').1 ∧
      SameServer (startAlarmServer env port backlog).2 (startAlarmServer env port backlog').2 := by
  rw [startAlarmServer, startAlarmServer]
  rcases hinfo : getServerInfo env port with _ | info₀
  · exact ⟨rfl, h, rfl, rfl⟩
  rcases hinit : initServer env info₀ with ⟨error, info⟩
  by_cases herror : error = defaultSuccess
  · have hrun : SameOutcome (handleServerMessages ⟨backlog, info.retries, []⟩)
        (handleServerMessages ⟨backlog', info.retries, []⟩) :=
      handleServerMessages_trailed ⟨h, rfl, rfl⟩
    rcases hout : handleServerMessages ⟨backlog, info.retries, []⟩ with ⟨result, s⟩
    rcases hout' : handleServerMessages ⟨backlog', info.retries, []⟩ with ⟨result', s'⟩
    rw [hout, hout'] at hrun
    obtain ⟨rfl, hserver⟩ := hrun
    have hretries : s.retries = s'.retries := hserver.retries
    simp only [hinit, if_pos herror, hout, hout']
    cases result with
    | none => exact ⟨rfl, hserver⟩
    | some result =>
      -- the information returned holds the retries left
      simp only [hretries]
      exact ⟨trivial, hserver⟩
  · simp only [hinit, if_neg herror]
    exact ⟨trivial, h, rfl, rfl⟩

/-- **Bytes behind a message are ignored**: whatever a peer sends behind the message the server
reads from its connection, the server makes the same calls in the same order, with the same result
and the same retries left, and the program sends the same traps or crashes at the same message. -/
theorem trailing_bytes_ignored (t : Tokener) (jc : JsonC) (after : ℕ → List UInt8) (env : StartEnv)
    (port : ℤ) {backlog backlog' : List (Option Connection)}
    (h : List.Forall₂ TrailedBy backlog backlog') :
    (startAlarmServer env port backlog').1 = (startAlarmServer env port backlog).1 ∧
      (startAlarmServer env port backlog').2.trace =
        (startAlarmServer env port backlog).2.trace ∧
      relay t jc after env port backlog' = relay t jc after env port backlog := by
  obtain ⟨hresult, hserver⟩ := startAlarmServer_trailed env port h
  refine ⟨hresult.symm, hserver.trace.symm, ?_⟩
  rw [relay, relay, hserver.trace]

/-- A notice behind its length, in two pieces. -/
def noticeOnce : Connection :=
  ⟨7, [.bytes [0, 0], .bytes ([0, 104] ++ bytesOf majorText)], true⟩

/-- The same notice sent twice on one connection. -/
def noticeTwice : Connection :=
  { noticeOnce with
    recvs := [.bytes [0, 0], .bytes ([0, 104] ++ bytesOf majorText ++ [0, 0, 0, 104]),
      .bytes (bytesOf majorText)] }

/-- The second notice is lost. -/
theorem trailing_bytes_ignored_notice :
    relay majorTokener (.ofParse fun _ => .null) (fun _ => []) quickStart 162 [some noticeTwice] =
      ⟨[majorNotice.trap], 1, false⟩ := by
  have hmsg : noticeOnce.message = some (bytesOf majorText) := majorArrival.message_accepted
  have hmore : TrailedBy (some noticeOnce) (some noticeTwice) :=
    .more hmsg (.cons _ (.longer _ [0, 0, 0, 104] [bytesOf majorText]))
  obtain ⟨-, -, hrelay⟩ := trailing_bytes_ignored majorTokener (.ofParse fun _ => .null)
    (fun _ => []) quickStart 162 (.cons hmore .nil)
  exact hrelay.trans relay_majorArrival

end StxSnmp.TrapServer
