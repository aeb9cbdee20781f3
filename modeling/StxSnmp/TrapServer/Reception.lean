import StxSnmp.Library.Segments
import StxSnmp.TrapServer.Lifetime

/-!
# Receiving a message in pieces

The length of a message is read in a loop, however the stream is cut; its body is read by one
call to `recv`, which takes no more than the first piece left.

## Main definitions

* `htonl`: the four bytes of a length
* `ReceivedOnce`: a connection whose payload is processed once, at no retry

## Main results

* `readLength_pieces`: the length loop takes four bytes, whatever the pieces
* `message_pieces`: the body is read when it is left in one piece
* `receivedOnce_iff`: the payload is processed exactly when the last piece holds all of it
-/

namespace StxSnmp.TrapServer

open MachineInt Segments

/-- The four bytes of a 32-bit length, in network order. -/
def htonl (n : ℕ) : List UInt8 :=
  [.ofNat (n / 2 ^ 24), .ofNat (n / 2 ^ 16), .ofNat (n / 2 ^ 8), .ofNat n]

theorem ntohl_htonl {n : ℕ} (h : n < 2 ^ 32) : ntohl (htonl n) = n := by
  simp only [ntohl, htonl, List.foldl_cons, List.foldl_nil, UInt8.toNat_ofNat']
  omega

/-! ## The length loop -/

/-- One call takes what it asks for from the first piece. -/
theorem recv_cons_bytes {size : ℕ} (hsize : size ≤ maxRwCount) (piece : List UInt8)
    (pieces : List (List UInt8)) :
    recv size ((piece :: pieces).map Recv.bytes) =
      ((((piece.take size).length : ℤ), piece.take size),
        (if piece.length ≤ size then pieces else piece.drop size :: pieces).map Recv.bytes) := by
  -- the result fits the `int`
  have hlt : (piece.take size).length < 2147483648 := by
    have hle := List.length_take_le size piece
    unfold maxRwCount at hsize
    omega
  simp only [List.map_cons, recv, Nat.min_eq_left hsize, cInt_natCast hlt]
  split <;> rfl

theorem store_length {mem data : List UInt8} {offset : ℕ}
    (h : offset + data.length ≤ mem.length) : (store mem offset data).length = mem.length := by
  simp only [store, List.length_append, List.length_take, List.length_drop]
  omega

theorem store_end {mem data : List UInt8} {offset : ℕ}
    (h : offset + data.length = mem.length) : store mem offset data = mem.take offset ++ data := by
  rw [store, h, List.drop_length, List.append_nil]

theorem take_store {mem data : List UInt8} {offset : ℕ} (h : offset ≤ mem.length) :
    (store mem offset data).take (offset + data.length) = mem.take offset ++ data := by
  rw [store]
  exact List.take_left' (by simp [h])

/-- The length loop ends when it has the four bytes. -/
theorem readLength_done (k : ℕ) (nlength : List UInt8) (recvs : List Recv) :
    readLength k 4 nlength recvs = ⟨defaultSuccess, nlength, recvs⟩ := by
  rw [readLength]
  exact if_neg (by decide)

/-- One turn of the length loop that gets some bytes. -/
theorem readLength_cons {k j : ℕ} {nlength : List UInt8} (hj : j < 4) (hk : k ≤ 20)
    (piece : List UInt8) (pieces : List (List UInt8)) :
    readLength k j nlength ((piece :: pieces).map Recv.bytes) =
      readLength (k + 1) (j + (piece.take (4 - j)).length) (store nlength j (piece.take (4 - j)))
        ((if piece.length ≤ 4 - j then pieces else piece.drop (4 - j) :: pieces).map
          Recv.bytes) := by
  have hsize : 4 - j ≤ maxRwCount := by
    unfold maxRwCount
    omega
  have hnonneg : ¬ (((piece.take (4 - j)).length : ℕ) : ℤ) < defaultSuccess :=
    Int.not_lt.mpr (Int.natCast_nonneg _)
  have hretries : ¬ k > retriesMessageSize := Nat.not_lt.mpr hk
  rw [readLength, if_pos (show j < msgSize from hj), show msgSize - j = 4 - j from rfl,
    recv_cons_bytes hsize]
  simp only [if_neg hnonneg, dif_neg hretries, Int.toNat_natCast]

/-- Whatever the pieces, the length loop takes the bytes it is short of. -/
theorem readLength_pieces {pieces : List (List UInt8)} (hne : ∀ piece ∈ pieces, piece ≠ [])
    {k j : ℕ} {nlength : List UInt8} (hj : j ≤ 4) (hk : k + (4 - j) ≤ 21)
    (hlength : nlength.length = 4) (henough : 4 - j ≤ pieces.flatten.length) :
    readLength k j nlength (pieces.map Recv.bytes) =
      ⟨defaultSuccess, nlength.take j ++ pieces.flatten.take (4 - j),
        (dropFront (4 - j) pieces).map Recv.bytes⟩ := by
  -- each turn takes a byte at least, so the retries last for the bytes missing
  induction pieces generalizing k j nlength with
  | nil =>
    obtain rfl : j = 4 := by
      rw [List.flatten_nil, List.length_nil] at henough
      omega
    rw [readLength_done, List.take_of_length_le (Nat.le_of_eq hlength)]
    simp [dropFront]
  | cons piece pieces ih =>
    obtain ⟨hpiece, hrest⟩ := List.forall_mem_cons.mp hne
    have hpos : 0 < piece.length := List.length_pos_of_ne_nil hpiece
    rcases Nat.lt_or_ge j 4 with hlt | hge
    · rw [readLength_cons hlt (by omega)]
      rw [List.flatten_cons] at henough ⊢
      rcases Nat.lt_or_ge (4 - j) piece.length with hcut | hwhole
      · -- the piece holds more than the loop asks for
        have htaken : (piece.take (4 - j)).length = 4 - j := by
          rw [List.length_take]
          omega
        have hfull : j + (piece.take (4 - j)).length = 4 := by omega
        rw [if_neg (Nat.not_le.mpr hcut), hfull, readLength_done, dropFront_cons_of_lt hcut,
          List.take_append_of_le_length (Nat.le_of_lt hcut), store_end (by rw [hfull, hlength])]
      · -- the whole piece is taken, and the loop goes on
        have htake : piece.take (4 - j) = piece := List.take_of_length_le hwhole
        rw [if_pos hwhole, htake, dropFront_cons_of_le hwhole]
        rw [List.length_append] at henough
        have hleft : 4 - (j + piece.length) = 4 - j - piece.length := by omega
        rw [ih hrest (by omega) (by omega) (by rw [store_length, hlength]; omega) (by omega),
          take_store (by omega), hleft, List.take_append, htake, List.append_assoc]
    · -- nothing is missing
      obtain rfl : j = 4 := Nat.le_antisymm hj hge
      rw [readLength_done, List.take_of_length_le (Nat.le_of_eq hlength), dropFront_zero hne]
      simp

/-! ## The message -/

/-- The body is received in one call exactly when it is one piece. -/
theorem recv_body_iff {pieces : List (List UInt8)} (hne : ∀ piece ∈ pieces, piece ≠ [])
    (hpos : 1 ≤ pieces.flatten.length) (hle : pieces.flatten.length ≤ maxRwCount) :
    (recv pieces.flatten.length (pieces.map Recv.bytes)).1 =
        ((pieces.flatten.length : ℤ), pieces.flatten) ↔ pieces.length = 1 := by
  rcases pieces with _ | ⟨piece, _ | ⟨next, pieces⟩⟩
  · simp at hpos
  · rw [recv_cons_bytes hle]
    simp
  · rw [recv_cons_bytes hle]
    refine iff_of_false ?_ (by simp)
    intro h
    -- the bytes of the next piece are missing
    have hnext : 0 < next.length := List.length_pos_of_ne_nil (hne next (by simp))
    have hshort := congrArg List.length (congrArg Prod.snd h)
    simp only [List.flatten_cons, List.length_append, List.length_take] at hshort
    omega

/-- What the length loop leaves of a payload sent with its length. -/
theorem readLength_payload {pieces : List (List UInt8)} {payload : List UInt8}
    (hne : ∀ piece ∈ pieces, piece ≠ [])
    (hflat : pieces.flatten = htonl payload.length ++ payload) :
    readLength 0 0 [0, 0, 0, 0] (pieces.map Recv.bytes) =
      ⟨defaultSuccess, htonl payload.length, (dropFront 4 pieces).map Recv.bytes⟩ := by
  have hlength : (htonl payload.length).length = 4 := rfl
  rw [readLength_pieces hne (Nat.zero_le 4) (by decide) rfl
    (by rw [hflat, List.length_append, hlength]; omega), hflat, List.take_left' hlength]
  rfl

/-- A payload sent with its length is the message exactly when the last piece holds all of it. -/
theorem message_pieces {pieces : List (List UInt8)} {payload : List UInt8}
    (hne : ∀ piece ∈ pieces, piece ≠ []) (hpos : 1 ≤ payload.length)
    (hlt : payload.length < 2 ^ 32) (hflat : pieces.flatten = htonl payload.length ++ payload)
    (connfd : ℕ) :
    (Connection.mk connfd (pieces.map Recv.bytes) true).message = some payload ↔
      payload.length ≤ maxRwCount ∧ payload.length ≤ (pieces.getLastD []).length := by
  have hread := readLength_payload hne hflat
  have hbody : (dropFront 4 pieces).flatten = payload := by
    rw [flatten_dropFront, hflat]
    rfl
  have htotal : pieces.flatten.length = 4 + payload.length := by
    rw [hflat, List.length_append]
    rfl
  rw [← length_dropFront_eq_one_iff hne hpos htotal]
  -- what the length loop leaves is received in one call exactly if it is one piece
  have hiff (hle : payload.length ≤ maxRwCount) :
      (recv payload.length ((dropFront 4 pieces).map Recv.bytes)).1 =
        ((payload.length : ℤ), payload) ↔ (dropFront 4 pieces).length = 1 := by
    have h := recv_body_iff (dropFront_ne_nil hne) (hbody.symm ▸ hpos) (hbody.symm ▸ hle)
    rwa [hbody] at h
  constructor
  · intro h
    obtain ⟨-, -, -, hrecv, hle⟩ := message_eq_some h
    rw [hread] at hrecv
    exact ⟨hle, (hiff hle).mp hrecv⟩
  · rintro ⟨hle, hone⟩
    simp only [Connection.message, hread, ntohl_htonl hlt, (hiff hle).mpr hone]
    simp

/-! ## The effect of a connection -/

/-- The server's loop, with as many turns as it can take. -/
def serveLoop (s : Server) : Outcome := serve s.backlog.length s

/-- A connection whose payload is processed, once and exactly, at no retry: the run goes on as it
would without the connection. -/
def ReceivedOnce (c : Connection) (payload : List UInt8) : Prop :=
  ∀ backlog retries trace, ∃ es,
    serveLoop ⟨some c :: backlog, retries, trace⟩ = serveLoop ⟨backlog, retries, trace ++ es⟩ ∧
      processed es = [some payload]

theorem receivedOnce_of_message {c : Connection} {payload : List UInt8}
    (h : c.message = some payload) : ReceivedOnce c payload := by
  intro backlog retries trace
  exact ⟨goodEvents c payload, serve_good h, processed_goodEvents c payload⟩

theorem message_of_receivedOnce {c : Connection} {payload : List UInt8}
    (h : ReceivedOnce c payload) : c.message = some payload := by
  obtain ⟨es, hserve, hprocessed⟩ := h [] 0 []
  replace hserve : serve 1 ⟨[some c], 0, []⟩ = (none, ⟨[], 0, es⟩) := hserve
  cases hc : c.message with
  | some msg =>
    rw [serve_good hc, serve_nil] at hserve
    obtain rfl : goodEvents c msg = es := congrArg (fun run => run.2.trace) hserve
    rw [processed_goodEvents] at hprocessed
    simpa using hprocessed
  | none =>
    -- with no retry left a bad connection ends the loop
    rw [serve_bad hc, enter_of_nonpos le_rfl] at hserve
    cases congrArg Prod.fst hserve

theorem receivedOnce_iff_message {c : Connection} {payload : List UInt8} :
    ReceivedOnce c payload ↔ c.message = some payload :=
  ⟨message_of_receivedOnce, receivedOnce_of_message⟩

/-- **When a payload is received**: however the stream is cut, a payload sent with its length is
processed once and exactly, at no retry, if and only if one call can take all of it and the last
piece holds all of it. -/
theorem receivedOnce_iff {pieces : List (List UInt8)} {payload : List UInt8}
    (hne : ∀ piece ∈ pieces, piece ≠ []) (hpos : 1 ≤ payload.length)
    (hlt : payload.length < 2 ^ 32) (hflat : pieces.flatten = htonl payload.length ++ payload)
    (connfd : ℕ) :
    ReceivedOnce ⟨connfd, pieces.map Recv.bytes, true⟩ payload ↔
      payload.length ≤ maxRwCount ∧ payload.length ≤ (pieces.getLastD []).length :=
  receivedOnce_iff_message.trans (message_pieces hne hpos hlt hflat connfd)

/-- The payload `{}`, whose length comes in two pieces. -/
theorem receivedOnce_empty_object :
    ReceivedOnce ⟨7, [.bytes [0, 0], .bytes [0, 2], .bytes [0x7b, 0x7d]], true⟩
      [0x7b, 0x7d] := by
  have hne : ∀ piece ∈ [[0, 0], [0, 2], [(0x7b : UInt8), 0x7d]], piece ≠ [] := by decide
  exact (receivedOnce_iff hne (by decide) (by decide) (by decide) 7).mpr
    ⟨by decide, by decide⟩

/-- The same payload cut in two is lost, and costs a retry. -/
theorem cut_body_lost :
    let whole : Connection := ⟨7, [.bytes [0, 0, 0, 2], .bytes [0x7b, 0x7d]], true⟩
    let cut : Connection := ⟨7, [.bytes [0, 0, 0, 2], .bytes [0x7b], .bytes [0x7d]], true⟩
    processed (handleServerMessages ⟨[some whole], 5, []⟩).2.trace = [some [0x7b, 0x7d]] ∧
      (handleServerMessages ⟨[some whole], 5, []⟩).2.retries = 4 ∧
      processed (handleServerMessages ⟨[some cut], 5, []⟩).2.trace = [] ∧
      (handleServerMessages ⟨[some cut], 5, []⟩).2.retries = 3 := by
  decide +kernel

end StxSnmp.TrapServer
