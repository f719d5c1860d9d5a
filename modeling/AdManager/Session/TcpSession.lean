/-
# AdManager.Session.TcpSession — the sending half of `TcpSession` and its pending requests.

Translated from `TcpSession.cpp`. The state holds the members that the network thread works on
(`_msgID`, `_lstRequestCtx`, `_msgQueue`, `_isConnected`, the socket), and what Boost.Asio keeps for
the session: the handlers posted to the `io_service`, which run in post order, and the outstanding
`async_write`s, each with the buffers it was given and the number of bytes the socket has taken.
Each handler is a function on that state; `step` names the moments at which one of them runs.

The receiving half (`_recvBuf`, `readHead`, `readBody`) is `AdManager.Session.Receiver`. What reaches
this module from it is a parsed message (`inbound`) or a network error.

Five fields record history for the statements and are read by no handler: `wire` (the bytes the
socket of the current connection has taken), `queued` (every frame ever pushed), `ran` (every posted
handler that has run), `stamped` (every request context ever pushed) and `completed` (every
`set_value` call). A promise is named by the number of its `request()` call.
-/
import AdManager.Lib.Run
import AdManager.Wire.Frame

namespace AdManager.Session

open AdManager.Wire

/-! ## Data -/

/-- `RequestCtx`: the id and the method of a request that has not been answered, and its promise. -/
structure RequestCtx where
  msgID : UInt64
  method : Bytes
  prom : Nat
  deriving DecidableEq, Repr

/-- What a queued frame was queued for: a request, or the answer to the inbound message number
`ref`. -/
inductive Origin where
  | request (ctx : RequestCtx)
  | response (ref : Nat)
  deriving DecidableEq, Repr

/-- The request that a frame was queued for. -/
def Origin.ctx? : Origin → Option RequestCtx
  | .request ctx => some ctx
  | .response _ => none

/-- The promise of the request that a frame was queued for. -/
def Origin.prom? (o : Origin) : Option Nat := o.ctx?.map RequestCtx.prom

/-- The inbound message that a frame answers. -/
def Origin.ref? : Origin → Option Nat
  | .request _ => none
  | .response ref => some ref

/-- An element of `_msgQueue`: a string and, for a cached response, a shared second part. -/
structure QueuedFrame where
  first : Bytes
  second : Option Bytes
  origin : Origin
  deriving DecidableEq, Repr

/-- The bytes that `writeData` hands over for one element: `first`, then `*second` when present. -/
def QueuedFrame.bytes (f : QueuedFrame) : Bytes := f.first ++ f.second.getD []

/-- The part of a frame behind its header. -/
def QueuedFrame.body (f : QueuedFrame) : Bytes := f.bytes.drop 4

/-- A handler posted to the `io_service`. -/
inductive Post where
  | request (msg : Message) (prom : Nat)
  | rspMsg (msg : Message) (ref : Nat)
  | rspData (msgID : UInt64) (data : Bytes) (ref : Nat)
  deriving DecidableEq, Repr

/-- The socket: `gen` counts how often it was closed, so that it names the connection; `up` says
that it is connected. -/
structure Socket where
  gen : Nat := 0
  up : Bool := false
  deriving DecidableEq, Repr

/-- `_socket.close`. -/
def Socket.close (k : Socket) : Socket := { gen := k.gen + 1, up := false }

/-- An outstanding `async_write`: the element whose buffers it was given, how many of their bytes
the socket has taken, and the socket it was started on. -/
structure WriteOp where
  frame : QueuedFrame
  sent : Nat
  socket : Socket
  deriving DecidableEq, Repr

/-- A write makes progress only on the connection it was started on. -/
def WriteOp.live (op : WriteOp) (k : Socket) : Bool := op.socket == k && k.up

/-- A call of `set_value`: the promise, the value, and the inbound message it came with (`none`: a
network error). -/
structure Completion where
  prom : Nat
  msg : Message
  source : Option Nat
  deriving DecidableEq, Repr

/-- `TcpSession`, with the operations Boost.Asio holds for it. -/
structure TcpSession where
  msgID : UInt32 := 1
  lstRequestCtx : List RequestCtx := []
  msgQueue : List QueuedFrame := []
  isConnected : Bool := false
  socket : Socket := {}
  posts : List Post := []
  writes : List WriteOp := []
  nextProm : Nat := 0
  wire : Bytes := []
  queued : List QueuedFrame := []
  ran : List Post := []
  stamped : List RequestCtx := []
  completed : List Completion := []
  deriving DecidableEq, Repr

namespace TcpSession

/-! ## `request` and `queueRspMsg`: the calls -/

/-- `request(msg)`: post the handler; the future returned is that of the next promise. -/
def request (s : TcpSession) (msg : Message) : TcpSession :=
  { s with posts := s.posts ++ [.request msg s.nextProm], nextProm := s.nextProm + 1 }

/-- `queueRspMsg(const Message&)`, as the answer to inbound message `ref`. -/
def queueRspMsg (s : TcpSession) (msg : Message) (ref : Nat) : TcpSession :=
  { s with posts := s.posts ++ [.rspMsg msg ref] }

/-- `queueRspMsg(uint64_t, shared_ptr<string>)`, as the answer to inbound message `ref`. -/
def queueRspData (s : TcpSession) (msgID : UInt64) (data : Bytes) (ref : Nat) : TcpSession :=
  { s with posts := s.posts ++ [.rspData msgID data ref] }

/-! ## The posted handlers -/

/-- The context that `request` pushes: the counter's value, the method and the promise. -/
def ctxOf (msgID : UInt32) (msg : Message) (prom : Nat) : RequestCtx :=
  { msgID := msgID.toUInt64, method := msg.method, prom := prom }

/-- The frame that a posted handler queues; `msgID` is the counter at that moment, which only a
request uses. -/
def frameOf (msgID : UInt32) : Post → QueuedFrame
  | .request msg prom =>
      let origin := Origin.request (ctxOf msgID msg prom)
      let msg := { msg with id := msgID.toUInt64.toInt64 }
      { first := htonl msg.byteSize ++ msg.serialize, second := none, origin := origin }
  | .rspMsg msg ref =>
      { first := htonl msg.byteSize ++ msg.serialize, second := none, origin := .response ref }
  | .rspData msgID data ref =>
      let msg : Message := { id := msgID.toInt64 }
      { first := htonl (msg.byteSize + data.length) ++ msg.serialize, second := some data,
        origin := .response ref }

/-- `writeData`: an `async_write` of the front element's buffers. It is only called with a non-empty
queue. -/
def writeData (s : TcpSession) : TcpSession :=
  match s.msgQueue with
  | [] => s
  | f :: _ => { s with writes := s.writes ++ [{ frame := f, sent := 0, socket := s.socket }] }

/-- The end of all three posted handlers: push the frame, and start a write unless the queue shows
that one is in progress. -/
def pushFrame (s : TcpSession) (f : QueuedFrame) : TcpSession :=
  let writeInProgress := !s.msgQueue.isEmpty
  let s := { s with msgQueue := s.msgQueue ++ [f], queued := s.queued ++ [f] }
  if writeInProgress then s else s.writeData

/-- One posted handler. -/
def runHandler (s : TcpSession) (p : Post) : TcpSession :=
  let f := frameOf s.msgID p
  let s := { s with ran := s.ran ++ [p] }
  match p with
  | .request msg prom =>
      let ctx := ctxOf s.msgID msg prom
      pushFrame { s with
        lstRequestCtx := s.lstRequestCtx ++ [ctx]
        stamped := s.stamped ++ [ctx]
        msgID := s.msgID + 1 } f
  | .rspMsg _ _ => pushFrame s f
  | .rspData _ _ _ => pushFrame s f

/-- The network thread takes the handler posted first and runs it. -/
def runPost (s : TcpSession) : Option TcpSession :=
  match s.posts with
  | [] => none
  | p :: ps => some (runHandler { s with posts := ps } p)

/-! ## Answers and network errors -/

/-- `findReqPromise` finds the first pending request whose id is the message's, both compared as
unsigned 64-bit numbers. -/
def answers (msg : Message) (ctx : RequestCtx) : Bool := ctx.msgID == msg.id.toUInt64

/-- The handler of `readBody` on the parsed inbound message number `ref`: complete the pending
request that it answers, or else give it to `_requestHandler` as a request. -/
def inbound (s : TcpSession) (ref : Nat) (msg : Message) : TcpSession × Option Message :=
  match s.lstRequestCtx.find? (answers msg) with
  | some ctx =>
      ({ s with
          lstRequestCtx := s.lstRequestCtx.eraseP (answers msg)
          completed := s.completed ++ [{ prom := ctx.prom, msg := msg, source := some ref }] }, none)
  | none => (s, some { msg with returnCode := 0 })

/-- The message that `handleNetError` gives to every pending request. -/
def netErrorMsg (what : Bytes) : Message := { returnCode := -1, returnMsg := what }

/-- `handleNetError`, up to the call of `_afterNetError`; `what` is the error's text. -/
def handleNetError (s : TcpSession) (what : Bytes) : TcpSession :=
  { s with
    socket := s.socket.close
    isConnected := false
    completed := s.completed ++ s.lstRequestCtx.map fun ctx =>
      { prom := ctx.prom, msg := netErrorMsg what, source := none }
    lstRequestCtx := [] }

/-! ## The outstanding writes -/

/-- The socket takes the next `n` bytes of the `i`-th outstanding write. -/
def writeSome (s : TcpSession) (i n : Nat) : Option TcpSession :=
  match s.writes[i]? with
  | none => none
  | some op =>
      if op.live s.socket ∧ 0 < n ∧ op.sent + n ≤ op.frame.bytes.length then
        some { s with
          writes := s.writes.set i { op with sent := op.sent + n }
          wire := s.wire ++ (op.frame.bytes.drop op.sent).take n }
      else none

/-- The completion handler of the `i`-th outstanding write, all of whose bytes were taken. -/
def writeDone (s : TcpSession) (i : Nat) : Option TcpSession :=
  match s.writes[i]? with
  | none => none
  | some op =>
      if op.sent = op.frame.bytes.length then
        let s := { s with writes := s.writes.eraseIdx i, msgQueue := s.msgQueue.tail }
        some (if s.msgQueue.isEmpty then s else s.writeData)
      else none

/-- The completion handler of the `i`-th outstanding write, which failed. -/
def writeFail (s : TcpSession) (i : Nat) (what : Bytes) : Option TcpSession :=
  match s.writes[i]? with
  | none => none
  | some op =>
      if op.sent < op.frame.bytes.length then
        some (handleNetError { s with writes := s.writes.eraseIdx i } what)
      else none

/-! ## Connecting -/

/-- The operating system has connected the socket. -/
def connected (s : TcpSession) : TcpSession :=
  { s with socket := { s.socket with up := true }, wire := [] }

/-- `startSession`, up to the call of `readHead`. -/
def startSession (s : TcpSession) : TcpSession := { s with isConnected := true }

/-- `stopSession`. -/
def stopSession (s : TcpSession) : TcpSession :=
  { s with socket := s.socket.close, isConnected := false }

end TcpSession

/-! ## Events -/

/-- What can happen to a session: calls of its interface, posted handlers, progress and completion
of writes, inbound messages, network errors reported by the read side, and (re)connection. -/
inductive Event where
  | request (msg : Message)
  | queueRspMsg (msg : Message) (ref : Nat)
  | queueRspData (msgID : UInt64) (data : Bytes) (ref : Nat)
  | runPost
  | writeSome (i n : Nat)
  | writeDone (i : Nat)
  | writeFail (i : Nat) (what : Bytes)
  | inbound (ref : Nat) (msg : Message)
  | netError (what : Bytes)
  | connected
  | startSession
  | stopSession
  deriving DecidableEq, Repr

/-- One event. -/
def step (s : TcpSession) : Event → Option TcpSession
  | .request msg => some (s.request msg)
  | .queueRspMsg msg ref => some (s.queueRspMsg msg ref)
  | .queueRspData msgID data ref => some (s.queueRspData msgID data ref)
  | .runPost => s.runPost
  | .writeSome i n => s.writeSome i n
  | .writeDone i => s.writeDone i
  | .writeFail i what => s.writeFail i what
  | .inbound ref msg => some (s.inbound ref msg).1
  | .netError what => some (s.handleNetError what)
  | .connected => some s.connected
  | .startSession => some s.startSession
  | .stopSession => some s.stopSession

/-- The events that concern neither the connection nor the receive loop: calls, posted handlers, and
writes that succeed. -/
def Event.isLocal : Event → Bool
  | .request _ => true
  | .queueRspMsg _ _ => true
  | .queueRspData _ _ _ => true
  | .runPost => true
  | .writeSome _ _ => true
  | .writeDone _ => true
  | _ => false

/-! ## What the handlers change -/

/-- The promise that a posted handler carries. -/
def Post.prom? : Post → Option Nat
  | .request _ prom => some prom
  | .rspMsg _ _ => none
  | .rspData _ _ _ => none

/-- The inbound message that a posted handler answers. -/
def Post.ref? : Post → Option Nat
  | .request _ _ => none
  | .rspMsg _ ref => some ref
  | .rspData _ _ ref => some ref

namespace TcpSession

variable {s s' : TcpSession} {i n : Nat} {what : Bytes}

/-- `writeData` only adds an outstanding write. -/
theorem writeData_eq (s : TcpSession) :
    s.writeData = { s with writes := s.writes ++ s.msgQueue.head?.toList.map fun f =>
      { frame := f, sent := 0, socket := s.socket } } := by
  unfold writeData
  split
  · next hq =>
      have hhead : s.msgQueue.head? = none := by rw [hq]; rfl
      simp [hhead]
  · next f fs hq =>
      have hhead : s.msgQueue.head? = some f := by rw [hq]; rfl
      simp [hhead]

/-- `pushFrame` only changes the queue and, when the queue was empty, the outstanding writes. -/
theorem pushFrame_eq (s : TcpSession) (f : QueuedFrame) :
    s.pushFrame f = { s with
      msgQueue := s.msgQueue ++ [f]
      queued := s.queued ++ [f]
      writes := if s.msgQueue = [] then s.writes ++ [{ frame := f, sent := 0, socket := s.socket }]
        else s.writes } := by
  unfold pushFrame
  cases h : s.msgQueue with
  | nil => simp [writeData]
  | cons g gs => simp

theorem runHandler_request (s : TcpSession) (msg : Message) (prom : Nat) :
    s.runHandler (.request msg prom) = pushFrame { s with
      ran := s.ran ++ [.request msg prom]
      lstRequestCtx := s.lstRequestCtx ++ [ctxOf s.msgID msg prom]
      stamped := s.stamped ++ [ctxOf s.msgID msg prom]
      msgID := s.msgID + 1 } (frameOf s.msgID (.request msg prom)) := rfl

theorem runHandler_response (s : TcpSession) {p : Post} (h : p.prom? = none) :
    s.runHandler p = pushFrame { s with ran := s.ran ++ [p] } (frameOf s.msgID p) := by
  cases p with
  | request msg prom => simp [Post.prom?] at h
  | rspMsg msg ref => rfl
  | rspData msgID data ref => rfl

theorem writeSome_spec (h : s.writeSome i n = some s') :
    ∃ op, s.writes[i]? = some op ∧ op.live s.socket = true ∧ 0 < n ∧
      op.sent + n ≤ op.frame.bytes.length ∧
      s' = { s with
        writes := s.writes.set i { op with sent := op.sent + n }
        wire := s.wire ++ (op.frame.bytes.drop op.sent).take n } := by
  unfold writeSome at h
  split at h
  · exact absurd h (by simp)
  · next op hop =>
      split at h
      · next hc => exact ⟨op, hop, hc.1, hc.2.1, hc.2.2, (Option.some.inj h).symm⟩
      · exact absurd h (by simp)

theorem writeDone_spec (h : s.writeDone i = some s') :
    ∃ op, s.writes[i]? = some op ∧ op.sent = op.frame.bytes.length ∧
      s' = writeData { s with writes := s.writes.eraseIdx i, msgQueue := s.msgQueue.tail } := by
  unfold writeDone at h
  split at h
  · exact absurd h (by simp)
  · next op hop =>
      split at h
      · next hc =>
          refine ⟨op, hop, hc, ?_⟩
          simp only [Option.some.injEq] at h
          rw [← h]
          cases hq : s.msgQueue.tail <;> simp [writeData]
      · exact absurd h (by simp)

/-- A completed write takes its element off the queue, and leaves the socket alone. -/
theorem writeDone_frame (h : s.writeDone i = some s') :
    s'.queued = s.queued ∧ s'.msgQueue = s.msgQueue.tail ∧ s'.socket = s.socket ∧
      s'.wire = s.wire := by
  obtain ⟨_, _, _, rfl⟩ := writeDone_spec h
  rw [writeData_eq]
  exact ⟨rfl, rfl, rfl, rfl⟩

theorem writeFail_spec (h : s.writeFail i what = some s') :
    ∃ op, s.writes[i]? = some op ∧ op.sent < op.frame.bytes.length ∧
      s' = handleNetError { s with writes := s.writes.eraseIdx i } what := by
  unfold writeFail at h
  split at h
  · exact absurd h (by simp)
  · next op hop =>
      split at h
      · next hc => exact ⟨op, hop, hc, (Option.some.inj h).symm⟩
      · exact absurd h (by simp)

/-- `findReqPromise`, by cases: the first pending request with the message's id is taken out of the
list, or no pending request has that id and nothing changes. -/
theorem inbound_cases (s : TcpSession) (ref : Nat) (msg : Message) :
    (∃ ctx ∈ s.lstRequestCtx, s.lstRequestCtx.find? (answers msg) = some ctx ∧
        ctx.msgID = msg.id.toUInt64 ∧
        s.inbound ref msg = ({ s with
          lstRequestCtx := s.lstRequestCtx.eraseP (answers msg)
          completed := s.completed ++ [{ prom := ctx.prom, msg := msg, source := some ref }] },
          none)) ∨
      ((∀ ctx ∈ s.lstRequestCtx, ctx.msgID ≠ msg.id.toUInt64) ∧
        s.inbound ref msg = (s, some { msg with returnCode := 0 })) := by
  unfold inbound
  cases hfind : s.lstRequestCtx.find? (answers msg) with
  | some ctx =>
      have hid : ctx.msgID = msg.id.toUInt64 := by
        simpa [answers] using List.find?_some hfind
      exact Or.inl ⟨ctx, List.mem_of_find?_eq_some hfind, rfl, hid, rfl⟩
  | none =>
      refine Or.inr ⟨fun ctx hctx => ?_, rfl⟩
      simpa [answers] using List.find?_eq_none.mp hfind ctx hctx

/-- An inbound message only changes the pending list and the completions. -/
theorem inbound_frame (s : TcpSession) (ref : Nat) (msg : Message) :
    (s.inbound ref msg).1.socket = s.socket ∧ (s.inbound ref msg).1.queued = s.queued ∧
      (s.inbound ref msg).1.wire = s.wire ∧ (s.inbound ref msg).1.msgQueue = s.msgQueue ∧
      (s.inbound ref msg).1.posts = s.posts := by
  rcases s.inbound_cases ref msg with ⟨_, _, _, _, heq⟩ | ⟨_, heq⟩ <;> rw [heq] <;>
    exact ⟨rfl, rfl, rfl, rfl, rfl⟩

/-- A posted handler queues its frame and leaves the socket alone. -/
theorem runPost_spec (h : s.runPost = some s') :
    ∃ p ps, s.posts = p :: ps ∧ s' = runHandler { s with posts := ps } p ∧ s'.posts = ps ∧
      s'.ran = s.ran ++ [p] ∧ s'.queued = s.queued ++ [frameOf s.msgID p] ∧
      s'.msgQueue = s.msgQueue ++ [frameOf s.msgID p] ∧ s'.socket = s.socket ∧
      s'.wire = s.wire ∧ s'.completed = s.completed := by
  unfold runPost at h
  split at h
  · exact absurd h (by simp)
  · next p ps hposts =>
      obtain rfl := Option.some.inj h
      refine ⟨p, ps, hposts, rfl, ?_⟩
      cases p with
      | request msg prom =>
          rw [runHandler_request, pushFrame_eq]
          exact ⟨rfl, rfl, rfl, rfl, rfl, rfl, rfl⟩
      | rspMsg msg ref =>
          rw [runHandler_response _ rfl, pushFrame_eq]
          exact ⟨rfl, rfl, rfl, rfl, rfl, rfl, rfl⟩
      | rspData msgID data ref =>
          rw [runHandler_response _ rfl, pushFrame_eq]
          exact ⟨rfl, rfl, rfl, rfl, rfl, rfl, rfl⟩

end TcpSession

/-- The session's own events leave the socket alone. -/
theorem socket_step {s s' : TcpSession} {e : Event} (he : e.isLocal = true)
    (hs : step s e = some s') : s'.socket = s.socket := by
  cases e with
  | runPost =>
      obtain ⟨_, _, _, _, _, _, _, _, hsocket, _, _⟩ := TcpSession.runPost_spec hs
      exact hsocket
  | writeSome i n =>
      obtain ⟨_, _, _, _, _, rfl⟩ := TcpSession.writeSome_spec hs
      rfl
  | writeDone i =>
      obtain ⟨_, _, hsocket, _⟩ := TcpSession.writeDone_frame hs
      exact hsocket
  | request msg => obtain rfl := Option.some.inj hs; rfl
  | queueRspMsg msg ref => obtain rfl := Option.some.inj hs; rfl
  | queueRspData msgID data ref => obtain rfl := Option.some.inj hs; rfl
  | inbound ref msg => simp [Event.isLocal] at he
  | writeFail i what => simp [Event.isLocal] at he
  | netError what => simp [Event.isLocal] at he
  | connected => simp [Event.isLocal] at he
  | startSession => simp [Event.isLocal] at he
  | stopSession => simp [Event.isLocal] at he

/-- What has been queued stays in the record of queued frames. -/
theorem queued_step {s s' : TcpSession} {e : Event} (hs : step s e = some s') :
    s.queued <+: s'.queued := by
  cases e with
  | runPost =>
      obtain ⟨_, _, _, _, _, _, hqueued, _⟩ := TcpSession.runPost_spec hs
      exact hqueued ▸ List.prefix_append s.queued _
  | writeSome i n =>
      obtain ⟨_, _, _, _, _, rfl⟩ := TcpSession.writeSome_spec hs
      exact List.prefix_refl s.queued
  | writeDone i =>
      obtain ⟨hqueued, _⟩ := TcpSession.writeDone_frame hs
      exact hqueued ▸ List.prefix_refl s.queued
  | writeFail i what =>
      obtain ⟨_, _, _, rfl⟩ := TcpSession.writeFail_spec hs
      exact List.prefix_refl s.queued
  | inbound ref msg =>
      obtain rfl := Option.some.inj hs
      have hqueued := (s.inbound_frame ref msg).2.1
      exact hqueued ▸ List.prefix_refl s.queued
  | _ => obtain rfl := Option.some.inj hs; exact List.prefix_refl _

end AdManager.Session
