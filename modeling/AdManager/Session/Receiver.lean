/-
# AdManager.Session.Receiver — the receive loop of `TcpSession`.

Translated from `readHead` and `readBody`: two handlers that call each other and share `_recvBuf`.
`boost::asio::async_read` with `transfer_exactly(n)` appends to the buffer what it takes from the
socket, counts only the bytes taken by this very operation, and calls its handler when there are `n`
of them or when the connection fails; bytes taken before a failure stay in the buffer.

What becomes of a parsed message is not decided here, so the receiver is generic in the type of
messages and in the function that parses a body.

`conn` and `closed` record history for the statements and are read by no handler: for the current
connection and for each earlier one, the bytes taken from it, the bytes removed from the buffer by
`consume` while it was up, and the messages dispatched.
-/
import AdManager.Lib.Run
import AdManager.Wire.Frame

namespace AdManager.Session

open AdManager.Wire AdManager.Lib

/-! ## Data -/

/-- Which of the two handlers an outstanding `async_read` will call. -/
inductive ReadKind where
  | head
  | body (bodyLen : Nat)
  deriving DecidableEq, Repr

/-- The argument of `transfer_exactly`. -/
def ReadKind.size : ReadKind → Nat
  | .head => 4
  | .body bodyLen => bodyLen

/-- An outstanding `async_read`, and how many bytes it has taken. -/
structure ReadOp where
  kind : ReadKind
  got : Nat
  deriving DecidableEq, Repr

/-- What happened on one connection. -/
structure Conn (M : Type*) where
  received : Bytes := []
  consumed : Bytes := []
  dispatched : List M := []
  deriving DecidableEq, Repr

/-- The receiving half of a `TcpSession`: the buffer, the outstanding read, and the bytes that TCP
has delivered on the current connection but no read has taken yet. -/
structure Receiver (M : Type*) where
  recvBuf : Bytes := []
  op : Option ReadOp := none
  avail : Bytes := []
  conn : Conn M := {}
  closed : List (Conn M) := []
  deriving DecidableEq, Repr

namespace Receiver

variable {M : Type*}

/-! ## The two handlers -/

/-- `readHead`: start reading four bytes. -/
def readHead (r : Receiver M) : Receiver M := { r with op := some { kind := .head, got := 0 } }

/-- `readBody(bodyLen)`: start reading the body. -/
def readBody (r : Receiver M) (bodyLen : Nat) : Receiver M :=
  { r with op := some { kind := .body bodyLen, got := 0 } }

/-- `_recvBuf.consume(n)`. -/
def consume (r : Receiver M) (n : Nat) : Receiver M :=
  { r with
    recvBuf := r.recvBuf.drop n
    conn := { r.conn with consumed := r.conn.consumed ++ r.recvBuf.take n } }

/-- The handler of `readHead` without an error. A length outside `0 .. 1024 * 1024 * 20` is only
logged. -/
def handleHead (r : Receiver M) : Receiver M :=
  (r.consume 4).readBody (ntohl r.recvBuf)

variable (parse : Bytes → Option M)

/-- The handler of `readBody` without an error, after `length` bytes: the message to dispatch, if
the body parses, and the state after the next `readHead`. -/
def handleBody (r : Receiver M) (length : Nat) : Receiver M × Option M :=
  match parse (r.recvBuf.take length) with
  | none => ((r.consume length).readHead, none)
  | some msg =>
      let r := { r with conn := { r.conn with dispatched := r.conn.dispatched ++ [msg] } }
      ((r.consume length).readHead, some msg)

/-- The outstanding read has all its bytes: run its handler. -/
def complete (r : Receiver M) : Option (Receiver M × Option M) :=
  match r.op with
  | none => none
  | some op =>
      if op.got = op.kind.size then
        match op.kind with
        | .head => some (r.handleHead, none)
        | .body bodyLen => some (r.handleBody parse bodyLen)
      else none

/-! ## The connection -/

/-- TCP delivers the next bytes of the current connection. -/
def arrive (r : Receiver M) (chunk : Bytes) : Receiver M := { r with avail := r.avail ++ chunk }

/-- The outstanding read takes `n` of the bytes delivered. -/
def readSome (r : Receiver M) (n : Nat) : Option (Receiver M) :=
  match r.op with
  | none => none
  | some op =>
      if 0 < n ∧ n ≤ r.avail.length ∧ op.got + n ≤ op.kind.size then
        some { r with
          recvBuf := r.recvBuf ++ r.avail.take n
          avail := r.avail.drop n
          op := some { op with got := op.got + n }
          conn := { r.conn with received := r.conn.received ++ r.avail.take n } }
      else none

/-- The outstanding read fails before it has its bytes. Its handler calls `handleNetError`, which
leaves `_recvBuf` as it is. -/
def fail (r : Receiver M) : Option (Receiver M) :=
  match r.op with
  | none => none
  | some op =>
      if op.got < op.kind.size then
        some { r with op := none, avail := [], conn := {}, closed := r.closed ++ [r.conn] }
      else none

/-- `startSession` on a new connection, once the read of the last one has failed. -/
def startSession (r : Receiver M) : Option (Receiver M) :=
  match r.op with
  | none => some r.readHead
  | some _ => none

/-- What can happen to the receiver. -/
inductive Event where
  | startSession
  | arrive (chunk : Bytes)
  | readSome (n : Nat)
  | complete
  | fail
  deriving DecidableEq, Repr

/-- One event. Bytes are delivered only while a connection is up. -/
def step (r : Receiver M) : Event → Option (Receiver M)
  | .startSession => r.startSession
  | .arrive chunk => if r.op = none then none else some (r.arrive chunk)
  | .readSome n => r.readSome n
  | .complete => (r.complete parse).map Prod.fst
  | .fail => r.fail

/-- A receiver whose first connection has just been established. -/
def started : Receiver M := readHead {}

/-- The bytes that TCP has delivered on the current connection. -/
def arrived (r : Receiver M) : Bytes := r.conn.received ++ r.avail

/-- The outstanding read still needs bytes. -/
def Waiting (r : Receiver M) : Prop := ∃ op, r.op = some op ∧ op.got < op.kind.size

/-! ## What the handlers change -/

variable {parse} {r r' : Receiver M} {n : Nat}

theorem readSome_spec (h : r.readSome n = some r') :
    ∃ op, r.op = some op ∧ 0 < n ∧ n ≤ r.avail.length ∧ op.got + n ≤ op.kind.size ∧
      r' = { r with
        recvBuf := r.recvBuf ++ r.avail.take n
        avail := r.avail.drop n
        op := some { op with got := op.got + n }
        conn := { r.conn with received := r.conn.received ++ r.avail.take n } } := by
  unfold readSome at h
  split at h
  · exact absurd h (by simp)
  · next op hop =>
      split at h
      · next hc => exact ⟨op, hop, hc.1, hc.2.1, hc.2.2, (Option.some.inj h).symm⟩
      · exact absurd h (by simp)

theorem fail_spec (h : r.fail = some r') :
    ∃ op, r.op = some op ∧ op.got < op.kind.size ∧
      r' = { r with op := none, avail := [], conn := {}, closed := r.closed ++ [r.conn] } := by
  unfold fail at h
  split at h
  · exact absurd h (by simp)
  · next op hop =>
      split at h
      · next hc => exact ⟨op, hop, hc, (Option.some.inj h).symm⟩
      · exact absurd h (by simp)

theorem startSession_spec (h : r.startSession = some r') : r.op = none ∧ r' = r.readHead := by
  unfold startSession at h
  split at h
  · next hop => exact ⟨hop, (Option.some.inj h).symm⟩
  · exact absurd h (by simp)

/-- `handleBody` dispatches the body when it parses, and in any case consumes it and waits for the
next header. -/
theorem handleBody_eq (r : Receiver M) (length : Nat) :
    r.handleBody parse length =
      (({ r with conn := { r.conn with
        dispatched := r.conn.dispatched ++ (parse (r.recvBuf.take length)).toList } }).consume
          length |>.readHead, parse (r.recvBuf.take length)) := by
  unfold handleBody
  split
  · next h => simp [h]
  · next msg h => simp [h]

theorem complete_spec {out : Option M} (h : r.complete parse = some (r', out)) :
    (r.op = some { kind := .head, got := 4 } ∧ r' = r.handleHead ∧ out = none) ∨
      (∃ bodyLen, r.op = some { kind := .body bodyLen, got := bodyLen } ∧
        (r', out) = r.handleBody parse bodyLen) := by
  unfold complete at h
  split at h
  · exact absurd h (by simp)
  · next op hop =>
      obtain ⟨kind, got⟩ := op
      cases kind with
      | head =>
          split at h
          · next hc =>
              simp only [Option.some.injEq, Prod.mk.injEq] at h
              obtain rfl : got = 4 := hc
              exact Or.inl ⟨hop, h.1.symm, h.2.symm⟩
          · exact absurd h (by simp)
      | body bodyLen =>
          split at h
          · next hc =>
              obtain rfl : got = bodyLen := hc
              exact Or.inr ⟨got, hop, (Option.some.inj h).symm⟩
          · exact absurd h (by simp)

/-- A completed read dispatches its message, takes no bytes, starts the next read and leaves the earlier
connections alone. -/
theorem complete_frame {out : Option M} (h : r.complete parse = some (r', out)) :
    r'.conn.dispatched = r.conn.dispatched ++ out.toList ∧ r'.conn.received = r.conn.received ∧
      r'.avail = r.avail ∧ r'.closed = r.closed := by
  rcases complete_spec h with ⟨_, rfl, rfl⟩ | ⟨bodyLen, _, heq⟩
  · exact ⟨(List.append_nil _).symm, rfl, rfl, rfl⟩
  · rw [handleBody_eq] at heq
    obtain ⟨rfl, rfl⟩ := Prod.mk.inj heq
    exact ⟨rfl, rfl, rfl, rfl⟩

end Receiver

end AdManager.Session
