import StxSnmp.TrapServer.Reception

/-!
# The length of a message, call by call

The loop that reads the length asks for the bytes it is short of, and gives up on an error or when
it has called too often. What it obtains is counted by its calls, whatever each of them delivers:
bytes, nothing at all from a closed peer, or an error.

## Main definitions

* `RecvCall`, `lengthCalls`: the calls of the loop, with where their bytes are stored
* `unread`: what calls leave on the connection
* `delivered`, `ReachedWithin`: the bytes that arrive, and how many calls they take

## Main results

* `lengthTurn_cases`: one turn of the loop
* `lengthSpec`: what the loop does from any turn on
* `lengthLoop_correct`: the loop ends, stays within the four bytes and puts the length together
-/

namespace StxSnmp.TrapServer

open MachineInt

/-! ## The calls of the loop -/

/-- A call to `recv`: the offset of the bytes in the length, the size asked for, the result and the
bytes stored. -/
structure RecvCall where
  offset : ℕ
  size : ℕ
  read : ℤ
  data : List UInt8
  deriving DecidableEq, Repr

/-- The calls made by the loop that reads the message length. -/
def lengthCalls (partialRetries lengthBytes : ℕ) (recvs : List Recv) : List RecvCall :=
  if lengthBytes < msgSize then
    match recv (msgSize - lengthBytes) recvs with
    | ((read, data), rest) =>
      let call : RecvCall := ⟨lengthBytes, msgSize - lengthBytes, read, data⟩
      if read < defaultSuccess then [call]
      -- the call has been made before the retries are tested
      else if _h : partialRetries > retriesMessageSize then [call]
      else call :: lengthCalls (partialRetries + 1) (lengthBytes + read.toNat) rest
  else []
termination_by retriesMessageSize + 1 - partialRetries
decreasing_by omega

/-- What the connection delivers after some calls. -/
def unread (calls : List RecvCall) (recvs : List Recv) : List Recv :=
  calls.foldl (fun recvs call => (recv call.size recvs).2) recvs

/-! ## What arrives -/

/-- The bytes that arrive, in order. -/
def delivered (recvs : List Recv) : List UInt8 :=
  recvs.flatMap fun
    | .bytes piece => piece
    | .error => []

/-- The bytes reach `size` within so many calls, with no error before. -/
def ReachedWithin (calls size : ℕ) (recvs : List Recv) : Prop :=
  ∃ n ≤ calls, .error ∉ recvs.take n ∧ size ≤ (delivered (recvs.take n)).length

theorem delivered_cons_bytes (piece : List UInt8) (recvs : List Recv) :
    delivered (.bytes piece :: recvs) = piece ++ delivered recvs :=
  rfl

theorem reachedWithin_zero (calls : ℕ) (recvs : List Recv) : ReachedWithin calls 0 recvs :=
  ⟨0, Nat.zero_le calls, by simp, Nat.zero_le _⟩

/-- What is reached at all is delivered. -/
theorem ReachedWithin.le_length {calls size : ℕ} {recvs : List Recv}
    (h : ReachedWithin calls size recvs) : size ≤ (delivered recvs).length := by
  obtain ⟨n, -, -, hlen⟩ := h
  have hsplit : delivered recvs = delivered (recvs.take n) ++ delivered (recvs.drop n) := by
    rw [delivered, delivered, delivered, ← List.flatMap_append, List.take_append_drop]
  rw [hsplit, List.length_append]
  omega

section Reached

variable {calls size : ℕ} {recvs : List Recv} (hsize : 0 < size)

include hsize

/-- Something missing takes a call at least. -/
theorem exists_of_reachedWithin (h : ReachedWithin calls size recvs) :
    ∃ n, n + 1 ≤ calls ∧ .error ∉ recvs.take (n + 1) ∧
      size ≤ (delivered (recvs.take (n + 1))).length := by
  obtain ⟨n, hn, herror, hlen⟩ := h
  cases n with
  | zero =>
    have hnone : size ≤ 0 := hlen
    omega
  | succ n => exact ⟨n, hn, herror, hlen⟩

theorem not_reachedWithin_no_calls : ¬ ReachedWithin 0 size recvs := by
  intro h
  obtain ⟨n, hn, -⟩ := exists_of_reachedWithin hsize h
  omega

theorem not_reachedWithin_nil : ¬ ReachedWithin calls size [] := by
  rintro ⟨n, -, -, hlen⟩
  rw [List.take_nil] at hlen
  exact absurd hlen (Nat.not_le.mpr hsize)

theorem not_reachedWithin_error : ¬ ReachedWithin calls size (.error :: recvs) := by
  intro h
  obtain ⟨n, -, herror, -⟩ := exists_of_reachedWithin hsize h
  exact herror List.mem_cons_self

/-- A piece takes one call, and brings what is missing down by its length. -/
theorem reachedWithin_cons_bytes {piece : List UInt8} :
    ReachedWithin (calls + 1) size (.bytes piece :: recvs) ↔
      ReachedWithin calls (size - piece.length) recvs := by
  constructor
  · intro h
    obtain ⟨n, hn, herror, hlen⟩ := exists_of_reachedWithin hsize h
    rw [List.take_succ_cons, delivered_cons_bytes, List.length_append] at hlen
    rw [List.take_succ_cons, List.mem_cons, not_or] at herror
    exact ⟨n, by omega, herror.2, by omega⟩
  · rintro ⟨n, hn, herror, hlen⟩
    refine ⟨n + 1, by omega, ?_, ?_⟩
    · rw [List.take_succ_cons, List.mem_cons, not_or]
      exact ⟨by simp, herror⟩
    · rw [List.take_succ_cons, delivered_cons_bytes, List.length_append]
      omega

end Reached

/-! ## One turn -/

/-- A call to `recv` fails, or delivers some of what is asked for and leaves the rest. -/
theorem recv_cases {size : ℕ} (hsize : size ≤ maxRwCount) (recvs : List Recv) :
    (∃ rest, recvs = .error :: rest ∧ recv size recvs = ((-1, []), rest)) ∨
      ∃ data rest, recv size recvs = (((data.length : ℤ), data), rest) ∧ data.length ≤ size ∧
        delivered recvs = data ++ delivered rest ∧
        (0 < size → ∀ calls, ReachedWithin (calls + 1) size recvs ↔
          ReachedWithin calls (size - data.length) rest) := by
  rcases recvs with _ | ⟨piece | _, rest⟩
  · -- the peer has closed the connection
    refine Or.inr ⟨[], [], rfl, Nat.zero_le size, rfl, ?_⟩
    intro hpos calls
    exact iff_of_false (not_reachedWithin_nil hpos) (not_reachedWithin_nil hpos)
  · have hlen : (piece.take size).length < 2147483648 := by
      have hle := List.length_take_le size piece
      unfold maxRwCount at hsize
      omega
    refine Or.inr ⟨piece.take size, if piece.length ≤ size then rest else
      .bytes (piece.drop size) :: rest, ?_, List.length_take_le size piece, ?_, ?_⟩
    · simp only [recv, Nat.min_eq_left hsize, cInt_natCast hlen]
    · split
      · next hle => rw [List.take_of_length_le hle, delivered_cons_bytes]
      · rw [delivered_cons_bytes, delivered_cons_bytes, ← List.append_assoc,
          List.take_append_drop]
    · intro hpos calls
      rw [reachedWithin_cons_bytes hpos]
      split
      · next hle => rw [List.take_of_length_le hle]
      · next hgt =>
        -- the piece holds more than is missing
        have hpiece : size - piece.length = 0 := by omega
        have htaken : size - (piece.take size).length = 0 := by
          rw [List.length_take]
          omega
        rw [hpiece, htaken]
        exact iff_of_true (reachedWithin_zero _ _) (reachedWithin_zero _ _)
  · exact Or.inl ⟨rest, rfl, rfl⟩

/-- One turn of the loop: one call, which is the last one when it fails or the retries are used up,
and after which the loop goes on otherwise. -/
theorem lengthTurn_cases {k j : ℕ} (hj : j < 4) (hk : k ≤ 21) (nlength : List UInt8)
    (recvs : List Recv) :
    ∃ (call : RecvCall) (rest : List Recv), call.offset = j ∧ call.data.length ≤ 4 - j ∧
      (recv call.size recvs).2 = rest ∧ delivered recvs = call.data ++ delivered rest ∧
      ((readLength k j nlength recvs = ⟨defaultError, store nlength j call.data, rest⟩ ∧
          lengthCalls k j recvs = [call] ∧ ¬ ReachedWithin (21 - k) (4 - j) recvs) ∨
        (k < 21 ∧
          readLength k j nlength recvs =
            readLength (k + 1) (j + call.data.length) (store nlength j call.data) rest ∧
          lengthCalls k j recvs = call :: lengthCalls (k + 1) (j + call.data.length) rest ∧
          (ReachedWithin (21 - k) (4 - j) recvs ↔
            ReachedWithin (21 - (k + 1)) (4 - (j + call.data.length)) rest))) := by
  have hmissing : 0 < 4 - j := by omega
  have hsize : 4 - j ≤ maxRwCount := by
    unfold maxRwCount
    omega
  rw [readLength, lengthCalls, if_pos (show j < msgSize from hj),
    if_pos (show j < msgSize from hj), show msgSize - j = 4 - j from rfl]
  obtain ⟨rest, rfl, hrecv⟩ | ⟨data, rest, hrecv, hlen, hdelivered, hreached⟩ :=
    recv_cases hsize recvs
  · -- an error ends the loop
    rw [hrecv]
    exact ⟨⟨j, 4 - j, -1, []⟩, rest, rfl, Nat.zero_le _, by rw [hrecv], rfl,
      Or.inl ⟨rfl, rfl, not_reachedWithin_error hmissing⟩⟩
  · rw [hrecv]
    have hnonneg : ¬ ((data.length : ℕ) : ℤ) < defaultSuccess :=
      Int.not_lt.mpr (Int.natCast_nonneg _)
    refine ⟨⟨j, 4 - j, data.length, data⟩, rest, rfl, hlen, by rw [hrecv], hdelivered, ?_⟩
    simp only [if_neg hnonneg, Int.toNat_natCast]
    by_cases hretries : k > retriesMessageSize
    · -- the bytes of the last call are given up
      obtain rfl : k = 21 := by
        unfold retriesMessageSize at hretries
        omega
      exact Or.inl ⟨dif_pos hretries, dif_pos hretries,
        not_reachedWithin_no_calls hmissing⟩
    · have hlt : k < 21 := by
        unfold retriesMessageSize at hretries
        omega
      refine Or.inr ⟨hlt, dif_neg hretries, dif_neg hretries, ?_⟩
      have hcalls : 21 - k = 21 - (k + 1) + 1 := by omega
      rw [hcalls, hreached hmissing, Nat.sub_sub]

/-! ## The loop -/

theorem lengthCalls_done (k : ℕ) (recvs : List Recv) : lengthCalls k 4 recvs = [] := by
  rw [lengthCalls]
  exact if_neg (by decide)

/-- What the loop does with `k` turns behind it and `j` bytes read. -/
structure LengthSpec (k j : ℕ) (nlength : List UInt8) (recvs : List Recv) : Prop where
  calls_le : (lengthCalls k j recvs).length ≤ retriesMessageSize + 2 - k
  within : ∀ call ∈ lengthCalls k j recvs, call.offset + call.data.length ≤ msgSize
  stored : (readLength k j nlength recvs).nlength =
    (lengthCalls k j recvs).foldl (fun mem call => store mem call.offset call.data) nlength
  rest : (readLength k j nlength recvs).rest = unread (lengthCalls k j recvs) recvs
  delivered_eq : delivered recvs =
    (lengthCalls k j recvs).flatMap RecvCall.data ++ delivered (readLength k j nlength recvs).rest
  success_iff : (readLength k j nlength recvs).errorMsgLen = defaultSuccess ↔
    ReachedWithin (retriesMessageSize + 1 - k) (msgSize - j) recvs
  bytes : (readLength k j nlength recvs).errorMsgLen = defaultSuccess →
    (readLength k j nlength recvs).nlength = nlength.take j ++ (delivered recvs).take (msgSize - j)

/-- Every turn leaves one call less to make and does the rest of the loop's work. -/
theorem lengthSpec {k j : ℕ} (hj : j ≤ 4) (hk : k ≤ 21) {nlength : List UInt8}
    (hlength : nlength.length = 4) (recvs : List Recv) : LengthSpec k j nlength recvs := by
  rcases hj.eq_or_lt with rfl | hlt
  · -- the four bytes are there
    have hdone := readLength_done k nlength recvs
    have hnone := lengthCalls_done k recvs
    refine ⟨by simp [hnone], by simp [hnone], by simp [hdone, hnone],
      by simp [hdone, hnone, unread], by simp [hdone, hnone], ?_, ?_⟩
    · rw [hdone]
      exact iff_of_true rfl (reachedWithin_zero _ recvs)
    · intro _
      rw [hdone, List.take_of_length_le hlength.le]
      exact (List.append_nil _).symm
  · obtain ⟨call, rest, rfl, hdata, hrest, hdelivered, ⟨hread, hcalls, hreached⟩ |
      ⟨hmore, hread, hcalls, hreached⟩⟩ := lengthTurn_cases hlt hk nlength recvs
    · -- the loop ends with this call
      have hfailed : defaultError ≠ defaultSuccess := by decide
      refine ⟨?_, ?_, ?_, ?_, ?_, ?_, ?_⟩
      · rw [hcalls]
        show 1 ≤ 22 - k
        omega
      · rw [hcalls]
        intro call' hmem
        rw [List.mem_singleton.mp hmem]
        show call.offset + call.data.length ≤ 4
        omega
      · rw [hread, hcalls]
        rfl
      · rw [hread, hcalls]
        exact hrest.symm
      · rw [hread, hcalls, hdelivered]
        simp
      · rw [hread]
        exact iff_of_false hfailed hreached
      · rw [hread]
        exact fun h => absurd h hfailed
    · -- the rest of the loop has one call less
      have hstore : (store nlength call.offset call.data).length = 4 := by
        rw [store_length (by omega), hlength]
      have ih := lengthSpec (k := k + 1) (j := call.offset + call.data.length) (by omega)
        (by omega) hstore rest
      refine ⟨?_, ?_, ?_, ?_, ?_, ?_, ?_⟩
      · have hle := ih.calls_le
        unfold retriesMessageSize at hle ⊢
        rw [hcalls, List.length_cons]
        omega
      · rw [hcalls]
        refine List.forall_mem_cons.mpr ⟨?_, ih.within⟩
        show call.offset + call.data.length ≤ 4
        omega
      · rw [hread, hcalls, List.foldl_cons]
        exact ih.stored
      · rw [hread, hcalls, ih.rest, unread, unread, List.foldl_cons, hrest]
      · rw [hread, hcalls, hdelivered, List.flatMap_cons, List.append_assoc, ← ih.delivered_eq]
      · rw [hread]
        exact ih.success_iff.trans hreached.symm
      · intro h
        rw [hread] at h ⊢
        have hleft : msgSize - (call.offset + call.data.length) =
            msgSize - call.offset - call.data.length := by omega
        have hdata' : call.data.length ≤ msgSize - call.offset := hdata
        rw [ih.bytes h, take_store (by omega), hdelivered, hleft, List.take_append,
          List.take_of_length_le hdata', List.append_assoc]
termination_by 21 - k

/-- **The length loop ends, stays within the four bytes and puts the length together**: whatever
the calls deliver, there are at most 22 of them; what they do not take is left on the connection;
the loop succeeds exactly when the four bytes arrive within the first 21, before any error; and then
it has the big-endian value of the four bytes in the order they arrived. -/
theorem lengthLoop_correct (recvs : List Recv) :
    let calls := lengthCalls 0 0 recvs
    let out := readLength 0 0 [0, 0, 0, 0] recvs
    calls.length ≤ retriesMessageSize + 2 ∧
      (∀ call ∈ calls, call.offset + call.data.length ≤ msgSize) ∧
      out.nlength =
        calls.foldl (fun mem call => store mem call.offset call.data) [0, 0, 0, 0] ∧
      (out.rest = unread calls recvs ∧
        delivered recvs = calls.flatMap RecvCall.data ++ delivered out.rest) ∧
      (out.errorMsgLen = defaultSuccess ↔
        ReachedWithin (retriesMessageSize + 1) msgSize recvs) ∧
      (out.errorMsgLen = defaultSuccess → ∃ b₀ b₁ b₂ b₃,
        (delivered recvs).take msgSize = [b₀, b₁, b₂, b₃] ∧
          ntohl out.nlength =
            b₀.toNat * 2 ^ 24 + b₁.toNat * 2 ^ 16 + b₂.toNat * 2 ^ 8 + b₃.toNat) := by
  intro calls out
  have hspec : LengthSpec 0 0 [0, 0, 0, 0] recvs :=
    lengthSpec (Nat.zero_le 4) (Nat.zero_le 21) rfl recvs
  refine ⟨hspec.calls_le, hspec.within, hspec.stored, ⟨hspec.rest, hspec.delivered_eq⟩,
    hspec.success_iff, ?_⟩
  intro hsuccess
  have hbytes : out.nlength = (delivered recvs).take msgSize := hspec.bytes hsuccess
  have henough : msgSize ≤ (delivered recvs).length :=
    (hspec.success_iff.mp hsuccess).le_length
  have hlen : ((delivered recvs).take msgSize).length = 4 := List.length_take_of_le henough
  obtain ⟨b₀, b₁, b₂, b₃, hfour⟩ := List.length_eq_four.mp hlen
  refine ⟨b₀, b₁, b₂, b₃, hfour, ?_⟩
  rw [hbytes, hfour]
  simp only [ntohl, List.foldl_cons, List.foldl_nil]
  omega

/-- A length in three pieces, with a call in between that delivers nothing. -/
theorem lengthLoop_correct_pieces :
    let recvs : List Recv := [.bytes [0], .bytes [], .bytes [0, 1], .bytes [4]]
    ∃ b₀ b₁ b₂ b₃, (delivered recvs).take msgSize = [b₀, b₁, b₂, b₃] ∧
      ntohl (readLength 0 0 [0, 0, 0, 0] recvs).nlength =
        b₀.toNat * 2 ^ 24 + b₁.toNat * 2 ^ 16 + b₂.toNat * 2 ^ 8 + b₃.toNat := by
  intro recvs
  obtain ⟨-, -, -, -, hsuccess, hvalue⟩ := lengthLoop_correct recvs
  refine hvalue (hsuccess.mpr ⟨4, by decide, ?_, by decide⟩)
  simp [recvs]

end StxSnmp.TrapServer
