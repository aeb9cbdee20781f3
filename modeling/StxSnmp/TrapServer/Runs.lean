import StxSnmp.TrapServer.Messages

/-!
# Runs of the loop

The loop and the calls nested in it, without fuel and continuations: what a run does is read off
the results of `accept`, one constructor for each kind of them. Every call returns what the call
nested in it returns, so one relation covers all depths.

## Main definitions

* `LoopRun`: the events of the loop on some results of `accept`, its result, and what is left

## Main results

* `serve_loopRun`, `handleServerMessages_run`: the server's loop runs so
-/

namespace StxSnmp.TrapServer

/-- The event of a return, if there is one. -/
def returned : Option ℤ → List Event
  | none => []
  | some result => [.ret result]

/-- A run of the loop with `r` retries left, on some results of `accept`: its events, its result,
`none` while it waits, and the results of `accept` and the retries left then. -/
inductive LoopRun :
    List (Option Connection) → ℤ → List Event → Option ℤ → List (Option Connection) → ℤ → Prop
  | waits (r : ℤ) : LoopRun [] r [] none [] r
  | failed {backlog r es result rest r'} (h : LoopRun backlog r es result rest r') :
      LoopRun (none :: backlog) r es result rest r'
  | good {c msg backlog r es result rest r'} (hc : c.message = some msg)
      (h : LoopRun backlog r es result rest r') :
      LoopRun (some c :: backlog) r (goodEvents c msg ++ es) result rest r'
  | refused {c backlog r} (hc : c.message = none) (hr : r ≤ 0) :
      LoopRun (some c :: backlog) r (badEvents c ++ [.call (r - 1), .ret defaultError])
        (some defaultError) backlog (r - 1)
  | nested {c backlog r es result rest r'} (hc : c.message = none) (hr : 0 < r)
      (h : LoopRun backlog (r - 1) es result rest r') :
      LoopRun (some c :: backlog) r (badEvents c ++ .call (r - 1) :: (es ++ returned result)) result
        rest r'

/-- What a call does once it has entered the loop. -/
theorem enter_run {loop : Server → Outcome} {backlog rest : List (Option Connection)} {r r' : ℤ}
    {tr es : List Event} {result : Option ℤ} (hr : 0 < r)
    (hloop : loop ⟨backlog, r - 1, tr ++ [.call (r - 1)]⟩ =
      (result, ⟨rest, r', tr ++ [.call (r - 1)] ++ es⟩)) :
    enter loop ⟨backlog, r, tr⟩ =
      (result, ⟨rest, r', tr ++ .call (r - 1) :: (es ++ returned result)⟩) := by
  cases result with
  | none =>
    -- the loop waits, and so does the call
    rw [enter_waits hr hloop]
    simp [returned]
  | some result =>
    rw [enter_returns hr hloop]
    simp [returned, Server.log]

/-- The server's loop runs as the relation says. -/
theorem serve_loopRun {backlog : List (Option Connection)} {n : ℕ} (hn : backlog.length ≤ n)
    (r : ℤ) (tr : List Event) :
    ∃ es result rest r', LoopRun backlog r es result rest r' ∧
      serve n ⟨backlog, r, tr⟩ = (result, ⟨rest, r', tr ++ es⟩) := by
  -- each turn takes one result of `accept` and one unit of fuel, in the nested call too
  induction backlog generalizing n r tr with
  | nil =>
    rw [serve_nil]
    exact ⟨[], none, [], r, LoopRun.waits r, by rw [List.append_nil]⟩
  | cons accepted backlog ih =>
    obtain ⟨n, rfl⟩ : ∃ n', n = n' + 1 := ⟨n - 1, by simp at hn; omega⟩
    have hlen : backlog.length ≤ n := by simpa using hn
    cases accepted with
    | none =>
      -- the failed `accept` leaves no trace
      rw [serve_failed]
      obtain ⟨es, result, rest, r', hrun, hserve⟩ := ih hlen r tr
      exact ⟨es, result, rest, r', LoopRun.failed hrun, hserve⟩
    | some c =>
      cases hc : c.message with
      | some msg =>
        -- the message is processed, and the loop goes on
        obtain ⟨es, result, rest, r', hrun, hserve⟩ := ih hlen r (tr ++ goodEvents c msg)
        rw [serve_good hc, hserve, List.append_assoc]
        exact ⟨_, result, rest, r', LoopRun.good hc hrun, rfl⟩
      | none =>
        rw [serve_bad hc]
        by_cases hr : 0 < r
        · -- the nested call enters the loop, with a retry less
          obtain ⟨es, result, rest, r', hrun, hserve⟩ :=
            ih hlen (r - 1) (tr ++ badEvents c ++ [.call (r - 1)])
          rw [enter_run hr hserve, List.append_assoc]
          exact ⟨_, result, rest, r', LoopRun.nested hc hr hrun, rfl⟩
        · -- the nested call refuses
          rw [enter_of_nonpos (Int.not_lt.mp hr), List.append_assoc]
          exact ⟨_, _, _, _, LoopRun.refused hc (Int.not_lt.mp hr), rfl⟩

/-- The server runs as the relation says, or refuses at once. -/
theorem handleServerMessages_run (backlog : List (Option Connection)) (r : ℤ) :
    (r ≤ 0 ∧ handleServerMessages ⟨backlog, r, []⟩ =
      (some defaultError, ⟨backlog, r - 1, [.call (r - 1), .ret defaultError]⟩)) ∨
    (0 < r ∧ ∃ es result rest r', LoopRun backlog (r - 1) es result rest r' ∧
      handleServerMessages ⟨backlog, r, []⟩ =
        (result, ⟨rest, r', .call (r - 1) :: (es ++ returned result)⟩)) := by
  rw [handleServerMessages]
  by_cases hr : 0 < r
  · obtain ⟨es, result, rest, r', hrun, hserve⟩ :=
      serve_loopRun (Nat.le_succ backlog.length) (r - 1) [.call (r - 1)]
    exact Or.inr ⟨hr, es, result, rest, r', hrun, enter_run hr hserve⟩
  · exact Or.inl ⟨Int.not_lt.mp hr, enter_of_nonpos (Int.not_lt.mp hr)⟩

end StxSnmp.TrapServer
