import StxSnmp.Library.Monitor
import StxSnmp.TrapServer.Lifetime

/-!
# Connections and buffers

A ledger of what the server holds: the connection it accepted and the buffer it allocated. The
nested calls share one ledger, since a connection is given back before the call that follows it.

## Main definitions

* `Ledger`, `ledgerStep`: what is held, and the events it allows
* `holding`: what an event adds to the connections held on a descriptor

## Main results

* `LoopRun.ledger`: at any depth, the loop starts and ends with nothing held
* `accepts_eq_closes`: what the ledger allows closes every descriptor as often as it is accepted
* `handleServerMessages_ledger`: the server holds nothing whenever it accepts, returns or waits
-/

namespace StxSnmp.TrapServer

open Monitor

/-- The connections still to be accepted, the connection held, and whether its buffer is. -/
structure Ledger where
  pending : List Connection
  current : Option Connection
  buffer : Bool
  deriving DecidableEq, Repr

/-- Nothing is held. -/
def Ledger.idle (pending : List Connection) : Ledger := ⟨pending, none, false⟩

/-- What is held may be closed, freed and processed, and only when nothing is may the server
accept or return. -/
def ledgerStep (l : Ledger) : Event → Option Ledger
  | .call _ => some l
  | .accept connfd =>
    match l with
    | ⟨c :: pending, none, false⟩ =>
      if connfd = c.connfd then some ⟨pending, some c, false⟩ else none
    | _ => none
  | .malloc _ =>
    match l with
    | ⟨pending, some c, false⟩ => some ⟨pending, some c, c.mallocOk⟩
    | _ => none
  | .processJsonAlarm msg => if l.buffer = true ∧ msg.isSome = true then some l else none
  | .free => if l.buffer then some { l with buffer := false } else none
  | .close connfd =>
    if l.current.map Connection.connfd = some connfd then some { l with current := none } else none
  | .ret _ =>
    match l with
    | ⟨_, none, false⟩ => some l
    | _ => none

/-! ## The two kinds of connections -/

theorem passes_ledger_good {c : Connection} {msg : List UInt8} (hc : c.message = some msg)
    (pending : List Connection) :
    Passes ledgerStep (.idle (c :: pending)) (goodEvents c msg) (.idle pending) := by
  obtain ⟨-, hmalloc, -, -, -⟩ := message_eq_some hc
  simp [goodEvents, ledgerStep, Ledger.idle, hmalloc]

/-- Each of the four failures gives back what was obtained before it. -/
theorem passes_ledger_bad (c : Connection) (pending : List Connection) :
    Passes ledgerStep (.idle (c :: pending)) (badEvents c) (.idle pending) := by
  simp only [badEvents, Connection.cleanUp]
  split_ifs with hlength hmalloc
  · simp [ledgerStep, Ledger.idle]
  · simp [ledgerStep, Ledger.idle, hmalloc]
  · simp [ledgerStep, Ledger.idle, hmalloc]

theorem passes_ledger_returned (result : Option ℤ) (pending : List Connection) :
    Passes ledgerStep (.idle pending) (returned result) (.idle pending) := by
  cases result <;> rfl

/-! ## The run -/

/-- At any depth the loop starts with nothing held, and comes to its end or its next `accept` so. -/
theorem LoopRun.ledger {backlog rest : List (Option Connection)} {r r' : ℤ} {es : List Event}
    {result : Option ℤ} (h : LoopRun backlog r es result rest r') :
    Passes ledgerStep (.idle (connections backlog)) es (.idle (connections rest)) := by
  induction h with
  | waits r => exact passes_nil.mpr rfl
  | failed _ ih => exact ih
  | good hc _ ih => exact (passes_ledger_good hc _).append ih
  | @refused c backlog r hc hr => exact (passes_ledger_bad c _).append rfl
  | @nested c backlog r es result rest r' hc hr _ ih =>
    -- the nested call finds nothing held, and leaves nothing
    have hcall : Passes ledgerStep (.idle (connections backlog))
        (.call (r - 1) :: (es ++ returned result)) (.idle (connections rest)) :=
      passes_cons.mpr ⟨_, rfl, ih.append (passes_ledger_returned result _)⟩
    exact (passes_ledger_bad c _).append hcall

theorem handleServerMessages_passes (backlog : List (Option Connection)) (r : ℤ) :
    ∃ pending, Passes ledgerStep (.idle (connections backlog))
      (handleServerMessages ⟨backlog, r, []⟩).2.trace (.idle pending) := by
  obtain ⟨-, hhandle⟩ | ⟨-, es, result, rest, r', hloop, hhandle⟩ :=
    handleServerMessages_run backlog r
  · rw [hhandle]
    exact ⟨connections backlog, rfl⟩
  · rw [hhandle]
    exact ⟨connections rest, passes_cons.mpr
      ⟨_, rfl, hloop.ledger.append (passes_ledger_returned result _)⟩⟩

/-! ## Balance -/

/-- The events at which nothing may be held. -/
def Event.atRest : Event → Bool
  | .accept _ | .ret _ => true
  | _ => false

theorem idle_of_atRest {l l' : Ledger} {e : Event} (he : e.atRest = true)
    (h : ledgerStep l e = some l') : ∃ pending, l = .idle pending := by
  obtain ⟨pending, _ | c, _ | _⟩ := l
  · exact ⟨pending, rfl⟩
  all_goals
    cases e with
    | accept connfd => cases pending <;> cases h
    | ret result => cases h
    | _ => cases he

/-- What an event adds to the connections held on a descriptor. -/
def holding (fd : ℕ) : Event → ℤ
  | .accept connfd => if connfd = fd then 1 else 0
  | .close connfd => if connfd = fd then -1 else 0
  | _ => 0

theorem depth_holding (fd : ℕ) (es : List Event) :
    Nesting.depth (holding fd) es = es.count (.accept fd) - es.count (.close fd) := by
  induction es with
  | nil => rfl
  | cons e es ih =>
    rw [Nesting.depth_cons, ih, List.count_cons, List.count_cons]
    cases e with
    | accept connfd | close connfd =>
      by_cases h : connfd = fd <;> simp [holding, h]
      omega
    | _ => simp [holding]

/-- The connections held on a descriptor, at most one. -/
def Ledger.held (fd : ℕ) (l : Ledger) : ℤ :=
  if l.current.map Connection.connfd = some fd then 1 else 0

/-- Each event changes what is held by what it adds. -/
theorem ledgerStep_held (fd : ℕ) (l : Ledger) (e : Event) (l' : Ledger)
    (h : ledgerStep l e = some l') : l'.held fd = l.held fd + holding fd e := by
  cases e with
  | accept connfd =>
    obtain ⟨pending, rfl⟩ := idle_of_atRest rfl h
    cases pending with
    | nil => cases h
    | cons c pending =>
      obtain ⟨rfl, rfl⟩ : connfd = c.connfd ∧ ⟨pending, some c, false⟩ = l' := by
        simpa [ledgerStep, Ledger.idle] using h
      simp [Ledger.held, Ledger.idle, holding]
  | malloc size =>
    obtain ⟨pending, _ | c, _ | _⟩ := l <;> cases h
    simp [Ledger.held, holding]
  | close connfd =>
    obtain ⟨hcurrent, rfl⟩ : l.current.map Connection.connfd = some connfd ∧
        { l with current := none } = l' := by
      simpa [ledgerStep] using h
    simp only [Ledger.held, hcurrent, holding]
    by_cases hfd : connfd = fd <;> simp [hfd]
  | free =>
    obtain ⟨-, rfl⟩ : l.buffer = true ∧ { l with buffer := false } = l' := by
      simpa [ledgerStep] using h
    simp [Ledger.held, holding]
  | processJsonAlarm msg =>
    obtain ⟨-, rfl⟩ : (l.buffer = true ∧ msg.isSome = true) ∧ l = l' := by
      simpa [ledgerStep] using h
    simp [holding]
  | call retries =>
    cases h
    simp [holding]
  | ret result =>
    obtain ⟨pending, rfl⟩ := idle_of_atRest rfl h
    cases h
    simp [holding]

/-- Between two states with nothing held, each descriptor is closed as often as accepted. -/
theorem accepts_eq_closes {pending pending' : List Connection} {es : List Event}
    (h : Passes ledgerStep (.idle pending) es (.idle pending')) (fd : ℕ) :
    es.count (.accept fd) = es.count (.close fd) := by
  have hheld := h.value_eq (ledgerStep_held fd)
  rw [depth_holding] at hheld
  simp only [Ledger.held, Ledger.idle, Option.map_none, reduceCtorEq, if_false] at hheld
  omega

/-- **Connections and buffers are balanced on every path**: whenever the server accepts or returns,
at any depth, and when it waits, the ledger has allowed every event so far and nothing is held; so
every descriptor has been closed as often as it was accepted. -/
theorem handleServerMessages_ledger (backlog : List (Option Connection)) (r : ℤ)
    (front back : List Event)
    (hsplit : (handleServerMessages ⟨backlog, r, []⟩).2.trace = front ++ back)
    (hrest : ∀ e ∈ back.head?, e.atRest = true) :
    (∃ pending, Passes ledgerStep (.idle (connections backlog)) front (.idle pending)) ∧
      ∀ fd, front.count (.accept fd) = front.count (.close fd) := by
  obtain ⟨pending, hpasses⟩ := handleServerMessages_passes backlog r
  rw [hsplit] at hpasses
  obtain ⟨l, hfront, hback⟩ := passes_append.mp hpasses
  obtain ⟨pending', rfl⟩ : ∃ pending', l = .idle pending' := by
    cases back with
    | nil => exact ⟨pending, passes_nil.mp hback⟩
    | cons e back =>
      obtain ⟨l', hstep, -⟩ := passes_cons.mp hback
      exact idle_of_atRest (hrest e rfl) hstep
  exact ⟨⟨pending', hfront⟩, fun fd => accepts_eq_closes hfront fd⟩

/-- A bad connection has been closed when the nested call accepts the next. -/
theorem handleServerMessages_ledger_second_accept :
    let front : List Event := [.call 4, .accept 7, .close 7, .call 3]
    (∃ pending,
      Passes ledgerStep (.idle [closedConnection, warmStartMessage]) front (.idle pending)) ∧
      ∀ fd, front.count (.accept fd) = front.count (.close fd) := by
  have hsplit : (handleServerMessages
      ⟨[some closedConnection, some warmStartMessage], retries, []⟩).2.trace =
      [.call 4, .accept 7, .close 7, .call 3] ++ goodEvents warmStartMessage warmStartPayload := by
    decide +kernel
  refine handleServerMessages_ledger _ _ _ _ hsplit ?_
  intro e he
  cases he
  rfl

end StxSnmp.TrapServer
