/-
# AdManager.Client.TcpClient — a session that reconnects by itself.

Translated from `TcpClient.h` and `TcpClient.cpp`, over `AdManager.Session.TcpSession`. The client
adds the hook `_afterNetError`, which starts an `async_connect`, and the reconnect timer. What the
io_service holds for it is part of the state: the receive loops (one outstanding `readHead` or
`readBody` each), the `async_connect`s, the pending wait of the timer and the timer handlers queued
to run. Operations complete and their handlers run as separate events, so any order of them is a
run.

Boost.Asio: an operation on a socket that was closed fails; a connect succeeds only on a socket that
is not connected; `expires_from_now` cancels the pending wait, whose handler still runs. What was
read is an input of the read handlers' events.

The client starts after the first `syncConnect` has succeeded, as `bgnBusiness` makes sure of.
`attempts` records for each `async_connect` whether the socket was connected at that moment.
-/
import AdManager.Session.Receiver
import AdManager.Session.TcpSession

namespace AdManager.Client

open AdManager.Wire AdManager.Session

/-! ## Data -/

/-- A receive loop: its outstanding `async_read`, whether that has its bytes so that its handler is
queued, and the socket it was started on. -/
structure ReadLoop where
  kind : ReadKind
  done : Bool
  socket : Socket
  deriving DecidableEq, Repr

/-- An `async_connect`: the socket it was started on, and its result when the handler is queued. -/
structure ConnectOp where
  socket : Socket
  result : Option Bool
  deriving DecidableEq, Repr

/-- `TcpClient`, with the operations Boost.Asio holds for it. `autoReconnect` says whether
`_afterNetError` is set. -/
structure TcpClient where
  session : TcpSession := {}
  autoReconnect : Bool := true
  reconnectInterval : Nat := 1
  loops : List ReadLoop := []
  connects : List ConnectOp := []
  timerWait : Option Nat := none
  timerQueue : Nat := 0
  attempts : List Bool := []
  deriving DecidableEq, Repr

namespace TcpClient

/-! ## Connecting -/

/-- `asyncConnect`: double the interval up to ten minutes, and start connecting. -/
def asyncConnect (c : TcpClient) : TcpClient :=
  { c with
    reconnectInterval :=
      if c.reconnectInterval < 10 * 60 then c.reconnectInterval * 2 else c.reconnectInterval
    connects := c.connects ++ [{ socket := c.session.socket, result := none }]
    attempts := c.attempts ++ [c.session.socket.up] }

/-- `_afterNetError`. -/
def afterNetError (c : TcpClient) : TcpClient := if c.autoReconnect then c.asyncConnect else c

/-- `TcpSession::handleNetError` of the client's session. -/
def handleNetError (c : TcpClient) (what : Bytes) : TcpClient :=
  afterNetError { c with session := c.session.handleNetError what }

/-- `readHead` or `readBody`: an `async_read` on the socket as it is now. -/
def startRead (c : TcpClient) (kind : ReadKind) : ReadLoop :=
  { kind := kind, done := false, socket := c.session.socket }

/-- `TcpSession::startSession`, with the receive loop it starts. -/
def startSession (c : TcpClient) : TcpClient :=
  { c with session := c.session.startSession, loops := c.loops ++ [c.startRead .head] }

/-- `_reconnectTimer.expires_from_now(_reconnectInterval)` and `async_wait`. -/
def armTimer (c : TcpClient) : TcpClient :=
  { c with
    timerQueue := c.timerQueue + (if c.timerWait.isSome then 1 else 0)
    timerWait := some c.reconnectInterval }

/-- The operating system has connected the socket of the `i`-th `async_connect`. -/
def connectOk (c : TcpClient) (i : Nat) : Option TcpClient :=
  c.connects[i]?.bind fun op =>
    if op.result = none ∧ op.socket = c.session.socket ∧ c.session.socket.up = false then
      some { c with
        session := c.session.connected
        connects := c.connects.set i { op with result := some true } }
    else none

/-- The `i`-th `async_connect` has failed. -/
def connectFail (c : TcpClient) (i : Nat) : Option TcpClient :=
  c.connects[i]?.bind fun op =>
    if op.result = none then
      some { c with connects := c.connects.set i { op with result := some false } }
    else none

/-- The handler of the `i`-th `async_connect`. -/
def connectHandler (c : TcpClient) (i : Nat) : Option TcpClient :=
  c.connects[i]?.bind fun op =>
    op.result.map fun ok =>
      let c := { c with connects := c.connects.eraseIdx i }
      if ok then startSession { c with reconnectInterval := 1 } else c.armTimer

/-- The reconnect timer expires. -/
def timerExpire (c : TcpClient) : Option TcpClient :=
  c.timerWait.map fun _ => { c with timerWait := none, timerQueue := c.timerQueue + 1 }

/-- The reconnect timer's handler, which `boost::bind` calls without the error code. -/
def timerHandler (c : TcpClient) : Option TcpClient :=
  if 0 < c.timerQueue then some (asyncConnect { c with timerQueue := c.timerQueue - 1 }) else none

/-- `stop`. -/
def stop (c : TcpClient) : TcpClient :=
  { c with autoReconnect := false, session := c.session.stopSession }

/-! ## Reading and writing -/

/-- The outstanding read of the `i`-th loop has its bytes. -/
def readDone (c : TcpClient) (i : Nat) : Option TcpClient :=
  c.loops[i]?.bind fun l =>
    if l.done = false ∧ (l.kind.size = 0 ∨ l.socket = c.session.socket ∧ c.session.socket.up) then
      some { c with loops := c.loops.set i { l with done := true } }
    else none

/-- The handler of `readHead`, which has read the length `bodyLen`. -/
def readHead (c : TcpClient) (i bodyLen : Nat) : Option TcpClient :=
  c.loops[i]?.bind fun l =>
    if l.kind = .head ∧ l.done = true then
      some { c with loops := c.loops.set i (c.startRead (.body bodyLen)) }
    else none

/-- The handler of `readBody`, which has read inbound message number `ref`, or a body that does not
parse. A client has no `_requestHandler`. -/
def readBody (c : TcpClient) (i ref : Nat) (msg : Option Message) : Option TcpClient :=
  c.loops[i]?.bind fun l =>
    if l.kind ≠ .head ∧ l.done = true then
      some { c with
        session := match msg with
          | none => c.session
          | some msg => (c.session.inbound ref msg).1
        loops := c.loops.set i (c.startRead .head) }
    else none

/-- The outstanding read of the `i`-th loop has failed; its handler ends the loop. -/
def readFail (c : TcpClient) (i : Nat) (what : Bytes) : Option TcpClient :=
  c.loops[i]?.bind fun l =>
    if l.done = false then some (handleNetError { c with loops := c.loops.eraseIdx i } what)
    else none

/-- The handler of the `i`-th outstanding write, which has failed. -/
def writeFail (c : TcpClient) (i : Nat) (what : Bytes) : Option TcpClient :=
  (c.session.writeFail i what).map fun s => afterNetError { c with session := s }

end TcpClient

/-! ## Events -/

/-- What can happen to a client. -/
inductive Event where
  | session (e : Session.Event)
  | readDone (i : Nat)
  | readHead (i bodyLen : Nat)
  | readBody (i ref : Nat) (msg : Option Message)
  | readFail (i : Nat) (what : Bytes)
  | writeFail (i : Nat) (what : Bytes)
  | connectOk (i : Nat)
  | connectFail (i : Nat)
  | connectHandler (i : Nat)
  | timerExpire
  | timerHandler
  | stop
  deriving DecidableEq, Repr

/-- One event. -/
def step (c : TcpClient) : Event → Option TcpClient
  | .session e =>
      if e.isLocal then (Session.step c.session e).map fun s => { c with session := s } else none
  | .readDone i => c.readDone i
  | .readHead i bodyLen => c.readHead i bodyLen
  | .readBody i ref msg => c.readBody i ref msg
  | .readFail i what => c.readFail i what
  | .writeFail i what => c.writeFail i what
  | .connectOk i => c.connectOk i
  | .connectFail i => c.connectFail i
  | .connectHandler i => c.connectHandler i
  | .timerExpire => c.timerExpire
  | .timerHandler => c.timerHandler
  | .stop => some c.stop

/-- The client whose first `syncConnect` has succeeded. -/
def connectedClient : TcpClient :=
  let c : TcpClient := {}
  TcpClient.startSession { c with session := c.session.connected }

/-! ## What the events change -/

theorem bind_guard_eq_some {α β : Type*} {o : Option α} {p : α → Prop} [DecidablePred p]
    {f : α → β} {b : β} :
    (o.bind fun a => if p a then some (f a) else none) = some b ↔
      ∃ a, o = some a ∧ p a ∧ f a = b := by
  simp [Option.bind_eq_some_iff]

/-- **An event of the client is an event of its session, or leaves the session alone.** -/
theorem session_step {c c' : TcpClient} {e : Event} (hs : step c e = some c') :
    c'.session = c.session ∨ ∃ e, Session.step c.session e = some c'.session := by
  cases e with
  | session e =>
      simp only [step] at hs
      split at hs
      · obtain ⟨s, hstep, rfl⟩ := Option.map_eq_some_iff.mp hs
        exact Or.inr ⟨e, hstep⟩
      · exact absurd hs (by simp)
  | readBody i ref msg =>
      obtain ⟨l, _, _, rfl⟩ := bind_guard_eq_some.mp hs
      cases msg with
      | none => exact Or.inl rfl
      | some msg => exact Or.inr ⟨.inbound ref msg, rfl⟩
  | readFail i what =>
      obtain ⟨l, _, _, rfl⟩ := bind_guard_eq_some.mp hs
      refine Or.inr ⟨.netError what, ?_⟩
      simp only [TcpClient.handleNetError, TcpClient.afterNetError]
      split <;> rfl
  | writeFail i what =>
      obtain ⟨s, hstep, rfl⟩ := Option.map_eq_some_iff.mp hs
      refine Or.inr ⟨.writeFail i what, ?_⟩
      simp only [TcpClient.afterNetError]
      split <;> exact hstep
  | connectOk i =>
      obtain ⟨op, _, _, rfl⟩ := bind_guard_eq_some.mp hs
      exact Or.inr ⟨.connected, rfl⟩
  | connectHandler i =>
      obtain ⟨op, _, hs⟩ := Option.bind_eq_some_iff.mp hs
      obtain ⟨ok, _, rfl⟩ := Option.map_eq_some_iff.mp hs
      cases ok with
      | true => exact Or.inr ⟨.startSession, rfl⟩
      | false => exact Or.inl rfl
  | stop =>
      obtain rfl := Option.some.inj hs
      exact Or.inr ⟨.stopSession, rfl⟩
  | readDone i => obtain ⟨_, _, _, rfl⟩ := bind_guard_eq_some.mp hs; exact Or.inl rfl
  | readHead i bodyLen => obtain ⟨_, _, _, rfl⟩ := bind_guard_eq_some.mp hs; exact Or.inl rfl
  | connectFail i => obtain ⟨_, _, _, rfl⟩ := bind_guard_eq_some.mp hs; exact Or.inl rfl
  | timerExpire => obtain ⟨_, _, rfl⟩ := Option.map_eq_some_iff.mp hs; exact Or.inl rfl
  | timerHandler =>
      simp only [step, TcpClient.timerHandler] at hs
      split at hs
      · obtain rfl := Option.some.inj hs
        exact Or.inl rfl
      · exact absurd hs (by simp)

end AdManager.Client
