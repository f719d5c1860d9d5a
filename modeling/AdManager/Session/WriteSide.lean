/-
# AdManager.Session.WriteSide — what a session puts on an unbroken connection.

`request`, both `queueRspMsg` and the completion handler of `async_write` all decide whether to start
a write, each by looking at `_msgQueue` alone. The invariant `WriteSide` says why that is enough while
the connection lasts: a write is outstanding exactly when the queue is not empty, it is a write of the
front element, and the bytes taken by the socket are the frames that have left the queue followed by
a first part of the front one.

The frames themselves are those of the posted handlers in the order they ran (`framesOf`), each one a
frame of `Wire.stream`.
-/
import AdManager.Session.TcpSession
import AdManager.Wire.MessageRefine

namespace AdManager.Session

open AdManager.Wire AdManager.Lib
open TcpSession (frameOf)

/-! ## The frames of the posted handlers -/

/-- `_msgID` after a posted handler: only a request takes a number. -/
def nextID (n : UInt32) : Post → UInt32
  | .request _ _ => n + 1
  | .rspMsg _ _ => n
  | .rspData _ _ _ => n

/-- The frames that the posted handlers queue, run in this order from counter value `n`. -/
def framesOf : UInt32 → List Post → List QueuedFrame
  | _, [] => []
  | n, p :: ps => frameOf n p :: framesOf (nextID n p) ps

/-- What the body of a posted handler's frame is to hold: the message, a request with the number it takes
and a response as it is, or the id of a cached response and behind it the shared data. -/
def bodyOf (n : UInt32) : Post → Bytes
  | .request msg _ => { msg with id := n.toUInt64.toInt64 }.serialize
  | .rspMsg msg _ => msg.serialize
  | .rspData msgID data _ => ({ id := msgID.toInt64 } : Message).serialize ++ data

/-- The bodies of the posted handlers, run in this order from counter value `n`. -/
def bodiesOf : UInt32 → List Post → List Bytes
  | _, [] => []
  | n, p :: ps => bodyOf n p :: bodiesOf (nextID n p) ps

/-- The bytes of the frames, one behind the other. -/
def bytesOf (fs : List QueuedFrame) : Bytes := fs.flatMap QueuedFrame.bytes

theorem framesOf_concat (n : UInt32) (ps : List Post) (p : Post) :
    framesOf n (ps ++ [p]) = framesOf n ps ++ [frameOf (ps.foldl nextID n) p] := by
  induction ps generalizing n with
  | nil => rfl
  | cons q ps ih =>
      rw [List.cons_append, framesOf, ih]
      rfl

@[simp] theorem bytesOf_append (fs gs : List QueuedFrame) :
    bytesOf (fs ++ gs) = bytesOf fs ++ bytesOf gs :=
  List.flatMap_append

@[simp] theorem bytesOf_singleton (f : QueuedFrame) : bytesOf [f] = f.bytes := by
  simp [bytesOf]

/-- **The header announces the body**, also for a frame in two parts, whose length is the sum of the
prefix's size and the size of the shared data. -/
theorem frameOf_bytes (n : UInt32) (p : Post) :
    (frameOf n p).bytes = stream.frame (frameOf n p).body := by
  cases p with
  | request msg prom =>
      simp [frameOf, QueuedFrame.bytes, QueuedFrame.body, stream_frame, Message.byteSize_eq_length]
  | rspMsg msg ref =>
      simp [frameOf, QueuedFrame.bytes, QueuedFrame.body, stream_frame, Message.byteSize_eq_length]
  | rspData msgID data ref =>
      simp [frameOf, QueuedFrame.bytes, QueuedFrame.body, stream_frame, Message.byteSize_eq_length]

/-- The body of a request is the message with its number. -/
theorem frameOf_request_body (n : UInt32) (msg : Message) (prom : Nat) :
    (frameOf n (.request msg prom)).body = { msg with id := n.toUInt64.toInt64 }.serialize := by
  simp [frameOf, QueuedFrame.bytes, QueuedFrame.body]

theorem frameOf_rspMsg_body (n : UInt32) (msg : Message) (ref : Nat) :
    (frameOf n (.rspMsg msg ref)).body = msg.serialize := by
  simp [frameOf, QueuedFrame.bytes, QueuedFrame.body]

/-- The body of a cached response is the cached message with the id. -/
theorem frameOf_rspData_body (n : UInt32) (msgID : UInt64) {m : Message} (h0 : m.id = 0) (ref : Nat) :
    (frameOf n (.rspData msgID m.serialize ref)).body = { m with id := msgID.toInt64 }.serialize := by
  simp [frameOf, QueuedFrame.bytes, QueuedFrame.body, Message.serialize_withId m msgID.toInt64 h0]

/-- The body of a frame is what it is to hold. -/
theorem frameOf_body (n : UInt32) (p : Post) : (frameOf n p).body = bodyOf n p := by
  cases p with
  | request msg prom => exact frameOf_request_body n msg prom
  | rspMsg msg ref => exact frameOf_rspMsg_body n msg ref
  | rspData msgID data ref => simp [frameOf, QueuedFrame.bytes, QueuedFrame.body, bodyOf]

theorem framesOf_body (n : UInt32) (ps : List Post) :
    (framesOf n ps).map QueuedFrame.body = bodiesOf n ps := by
  induction ps generalizing n with
  | nil => rfl
  | cons p ps ih => rw [framesOf, bodiesOf, List.map_cons, frameOf_body, ih]

/-- The frame of a handler in the run is the one it makes from the counter at its turn. -/
theorem framesOf_getElem? {n : UInt32} {ps : List Post} {k : Nat} {p : Post} (h : ps[k]? = some p) :
    ∃ m, (framesOf n ps)[k]? = some (frameOf m p) := by
  induction ps generalizing n k with
  | nil => simp at h
  | cons q ps ih =>
      cases k with
      | zero =>
          obtain rfl := Option.some.inj h
          exact ⟨n, rfl⟩
      | succ k => exact ih h

theorem mem_framesOf {n : UInt32} {ps : List Post} {f : QueuedFrame} (h : f ∈ framesOf n ps) :
    ∃ m, ∃ p ∈ ps, f = frameOf m p := by
  induction ps generalizing n with
  | nil => simp [framesOf] at h
  | cons p ps ih =>
      rcases List.mem_cons.mp h with rfl | h
      · exact ⟨n, p, List.mem_cons_self, rfl⟩
      · obtain ⟨m, q, hq, hf⟩ := ih h
        exact ⟨m, q, List.mem_cons_of_mem _ hq, hf⟩

/-- The bytes of the posted handlers' frames are the stream of their bodies. -/
theorem bytesOf_eq_frames {fs : List QueuedFrame}
    (h : ∀ f ∈ fs, f.bytes = stream.frame f.body) :
    bytesOf fs = stream.frames (fs.map QueuedFrame.body) := by
  induction fs with
  | nil => rfl
  | cons f fs ih =>
      have hrest := ih fun g hg => h g (List.mem_cons_of_mem _ hg)
      rw [List.map_cons, Framing.frames_cons, ← hrest, ← h f List.mem_cons_self]
      rfl

/-! ## The invariant -/

/-- The events that end a connection or set one up; all others can happen while it lasts. -/
def Event.breaks : Event → Bool
  | .writeFail _ _ => true
  | .netError _ => true
  | .connected => true
  | .startSession => true
  | .stopSession => true
  | _ => false

/-- A session that has just been established: connected, with nothing queued. -/
def established : TcpSession := TcpSession.startSession (TcpSession.connected {})

/-- Where the writing stands when the frames `done` have left the queue: nothing is outstanding, or
one write of the front element is, `sent` of whose bytes the socket has taken. -/
inductive InFlight (s : TcpSession) (done : List QueuedFrame) : Prop
  | idle (hqueue : s.msgQueue = []) (hwrites : s.writes = []) (hwire : s.wire = bytesOf done)
  | writing (f : QueuedFrame) (rest : List QueuedFrame) (sent : Nat)
      (hqueue : s.msgQueue = f :: rest)
      (hwrites : s.writes = [{ frame := f, sent := sent, socket := s.socket }])
      (hsent : sent ≤ f.bytes.length) (hwire : s.wire = bytesOf done ++ f.bytes.take sent)

/-- **The write side of a connection**, before which the frames `before` were queued and written. -/
structure WriteSide (before : List QueuedFrame) (s : TcpSession) : Prop where
  counter : s.msgID = s.ran.foldl nextID 1
  order : s.queued = framesOf 1 s.ran
  flight : ∃ done, s.queued = before ++ (done ++ s.msgQueue) ∧ InFlight s done

namespace WriteSide

variable {before : List QueuedFrame} {s s' : TcpSession} {i n : Nat}

theorem init : WriteSide [] established where
  counter := rfl
  order := rfl
  flight := ⟨[], rfl, .idle rfl rfl rfl⟩

/-- A step that touches neither the queue nor the socket keeps the write side. -/
theorem of_same (h : WriteSide before s) (hid : s'.msgID = s.msgID) (hran : s'.ran = s.ran)
    (hqueued : s'.queued = s.queued) (hqueue : s'.msgQueue = s.msgQueue)
    (hwrites : s'.writes = s.writes) (hsocket : s'.socket = s.socket)
    (hwire : s'.wire = s.wire) : WriteSide before s' where
  counter := by rw [hid, hran]; exact h.counter
  order := by rw [hqueued, hran]; exact h.order
  flight := by
    obtain ⟨done, hdone, hfl⟩ := h.flight
    refine ⟨done, by rw [hqueued, hqueue]; exact hdone, ?_⟩
    cases hfl with
    | idle hq hw hb => exact .idle (hqueue ▸ hq) (hwrites ▸ hw) (hwire ▸ hb)
    | writing f rest sent hq hw hle hb =>
        exact .writing f rest sent (hqueue ▸ hq) (by rw [hwrites, hw, hsocket]) hle (hwire ▸ hb)

/-- Queueing a frame starts a write exactly when none is outstanding. -/
theorem pushFrame {p : Post} (h : WriteSide before s) (hid : s'.msgID = nextID s.msgID p)
    (hran : s'.ran = s.ran ++ [p]) (hqueued : s'.queued = s.queued ++ [frameOf s.msgID p])
    (hqueue : s'.msgQueue = s.msgQueue ++ [frameOf s.msgID p])
    (hwrites : s'.writes = if s.msgQueue = [] then
      s.writes ++ [{ frame := frameOf s.msgID p, sent := 0, socket := s.socket }] else s.writes)
    (hsocket : s'.socket = s.socket) (hwire : s'.wire = s.wire) : WriteSide before s' where
  counter := by rw [hid, hran, h.counter, List.foldl_append]; rfl
  order := by rw [hqueued, hran, h.order, framesOf_concat, h.counter]
  flight := by
    obtain ⟨done, hdone, hfl⟩ := h.flight
    refine ⟨done, by rw [hqueued, hqueue, hdone, List.append_assoc, List.append_assoc], ?_⟩
    cases hfl with
    | idle hq hw hb =>
        -- the queue was empty: this frame is written at once
        rw [if_pos hq, hw, ← hsocket] at hwrites
        refine .writing (frameOf s.msgID p) [] 0 (by rw [hqueue, hq]; rfl) hwrites
          (Nat.zero_le _) ?_
        rw [hwire, hb, List.take_zero, List.append_nil]
    | writing f rest sent hq hw hle hb =>
        have hne : s.msgQueue ≠ [] := by rw [hq]; simp
        rw [if_neg hne, hw, ← hsocket] at hwrites
        refine .writing f (rest ++ [frameOf s.msgID p]) sent ?_ hwrites hle (hwire ▸ hb)
        rw [hqueue, hq, List.cons_append]

theorem runPost (h : WriteSide before s) (hs : s.runPost = some s') : WriteSide before s' := by
  unfold TcpSession.runPost at hs
  split at hs
  · exact absurd hs (by simp)
  · next p ps hposts =>
      obtain rfl := Option.some.inj hs
      cases p with
      | request msg prom =>
          rw [TcpSession.runHandler_request, TcpSession.pushFrame_eq]
          exact h.pushFrame rfl rfl rfl rfl rfl rfl rfl
      | rspMsg msg ref =>
          rw [TcpSession.runHandler_response _ rfl, TcpSession.pushFrame_eq]
          exact h.pushFrame rfl rfl rfl rfl rfl rfl rfl
      | rspData msgID data ref =>
          rw [TcpSession.runHandler_response _ rfl, TcpSession.pushFrame_eq]
          exact h.pushFrame rfl rfl rfl rfl rfl rfl rfl

/-- The outstanding write is the only one, and it is a write of the front element. -/
theorem of_getElem? (h : WriteSide before s) {op : WriteOp} (hop : s.writes[i]? = some op) :
    ∃ done rest, i = 0 ∧ s.queued = before ++ (done ++ s.msgQueue) ∧ s.msgQueue = op.frame :: rest ∧
      s.writes = [op] ∧ op.socket = s.socket ∧ op.sent ≤ op.frame.bytes.length ∧
      s.wire = bytesOf done ++ op.frame.bytes.take op.sent := by
  obtain ⟨done, hdone, hfl⟩ := h.flight
  cases hfl with
  | idle hq hw hb => rw [hw] at hop; simp at hop
  | writing f rest sent hq hw hle hb =>
      rw [hw] at hop
      obtain ⟨hi, hget⟩ := List.getElem?_eq_some_iff.mp hop
      obtain rfl : i = 0 := by simpa using hi
      obtain rfl := hget
      exact ⟨done, rest, rfl, hdone, hq, hw, rfl, hle, hb⟩

theorem writeSome (h : WriteSide before s) (hs : s.writeSome i n = some s') : WriteSide before s' := by
  obtain ⟨op, hop, _, _, hle, rfl⟩ := TcpSession.writeSome_spec hs
  obtain ⟨done, rest, rfl, hdone, hq, hw, hk, _, hb⟩ := h.of_getElem? hop
  refine ⟨h.counter, h.order, done, hdone, ?_⟩
  refine .writing op.frame rest (op.sent + n) hq ?_ hle ?_
  · show s.writes.set 0 _ = _
    rw [hw, ← hk]
    rfl
  · show s.wire ++ _ = _
    rw [hb, List.append_assoc, List.take_add]

theorem writeDone (h : WriteSide before s) (hs : s.writeDone i = some s') : WriteSide before s' := by
  obtain ⟨op, hop, hall, rfl⟩ := TcpSession.writeDone_spec hs
  obtain ⟨done, rest, rfl, hdone, hq, hw, _, _, hb⟩ := h.of_getElem? hop
  -- the frame is complete on the wire
  have hwire : s.wire = bytesOf (done ++ [op.frame]) := by
    rw [hb, hall, List.take_length, bytesOf_append, bytesOf_singleton]
  rw [TcpSession.writeData_eq]
  refine ⟨h.counter, h.order, done ++ [op.frame], ?_, ?_⟩
  · show s.queued = before ++ (done ++ [op.frame] ++ s.msgQueue.tail)
    rw [hdone, hq, List.append_assoc]
    rfl
  · cases rest with
    | nil => exact .idle (by rw [hq]; rfl) (by simp [hq, hw]) hwire
    | cons g rest =>
        refine .writing g rest 0 (by rw [hq]; rfl) (by simp [hq, hw]) (Nat.zero_le _) ?_
        rw [List.take_zero, List.append_nil]
        exact hwire

/-- **Every event of an unbroken connection keeps the write side.** -/
theorem step (h : WriteSide before s) {e : Event} (hs : Session.step s e = some s')
    (he : e.breaks = false) : WriteSide before s' := by
  cases e with
  | request msg => obtain rfl := Option.some.inj hs; exact h.of_same rfl rfl rfl rfl rfl rfl rfl
  | queueRspMsg msg ref =>
      obtain rfl := Option.some.inj hs
      exact h.of_same rfl rfl rfl rfl rfl rfl rfl
  | queueRspData msgID data ref =>
      obtain rfl := Option.some.inj hs
      exact h.of_same rfl rfl rfl rfl rfl rfl rfl
  | runPost => exact h.runPost hs
  | writeSome i n => exact h.writeSome hs
  | writeDone i => exact h.writeDone hs
  | inbound ref msg =>
      obtain rfl := Option.some.inj hs
      rcases s.inbound_cases ref msg with ⟨_, _, _, _, heq⟩ | ⟨_, heq⟩ <;> rw [heq]
      · exact h.of_same rfl rfl rfl rfl rfl rfl rfl
      · exact h
  | writeFail i what => simp [Event.breaks] at he
  | netError what => simp [Event.breaks] at he
  | connected => simp [Event.breaks] at he
  | startSession => simp [Event.breaks] at he
  | stopSession => simp [Event.breaks] at he

/-- Every frame queued is the frame of a posted handler, and so a frame of the stream. -/
theorem queued_bytes (h : WriteSide before s) : ∀ f ∈ s.queued, f.bytes = stream.frame f.body := by
  intro f hf
  rw [h.order] at hf
  obtain ⟨m, p, _, rfl⟩ := mem_framesOf hf
  exact frameOf_bytes m p

/-- A step that breaks the connection while nothing is queued: nothing is lost, and a new connection
starts behind all that was written. -/
theorem of_empty (h : WriteSide before s) (hempty : s.msgQueue = []) (hid : s'.msgID = s.msgID)
    (hran : s'.ran = s.ran) (hqueued : s'.queued = s.queued) (hqueue : s'.msgQueue = s.msgQueue)
    (hwrites : s'.writes = s.writes) (hwire : s'.wire = s.wire ∨ s'.wire = []) :
    ∃ before', WriteSide before' s' := by
  have hcounter : s'.msgID = s'.ran.foldl nextID 1 := by rw [hid, hran]; exact h.counter
  have horder : s'.queued = framesOf 1 s'.ran := by rw [hqueued, hran]; exact h.order
  obtain ⟨done, hdone, hfl⟩ := h.flight
  cases hfl with
  | idle hq hw hb =>
      rcases hwire with hwire | hwire
      · exact ⟨before, hcounter, horder, done, by rw [hqueued, hqueue]; exact hdone,
          .idle (hqueue ▸ hq) (hwrites ▸ hw) (hwire ▸ hb)⟩
      · exact ⟨s'.queued, hcounter, horder, [], by simp [hqueue, hq],
          .idle (hqueue ▸ hq) (hwrites ▸ hw) hwire⟩
  | writing f rest sent hq hw hle hb => simp [hempty] at hq

/-- The writes outstanding are those of the front element. -/
theorem front (h : WriteSide before s) :
    (s.msgQueue = [] ∧ s.writes = []) ∨
      ∃ op rest, s.msgQueue = op.frame :: rest ∧ s.writes = [op] ∧ op.socket = s.socket := by
  obtain ⟨done, _, hfl⟩ := h.flight
  cases hfl with
  | idle hq hw hb => exact Or.inl ⟨hq, hw⟩
  | writing f rest sent hq hw hle hb => exact Or.inr ⟨_, rest, hq, hw, rfl⟩

/-- What the socket has taken is a prefix of the stream of the queued bodies. -/
theorem wire_prefix (h : WriteSide [] s) : s.wire <+: stream.frames (s.queued.map QueuedFrame.body) := by
  rw [← bytesOf_eq_frames h.queued_bytes]
  obtain ⟨done, hdone, hfl⟩ := h.flight
  rw [hdone, List.nil_append, bytesOf_append]
  cases hfl with
  | idle hq hw hb => rw [hb]; exact List.prefix_append _ _
  | writing f rest sent hq hw hle hb =>
      rw [hb, hq]
      apply List.prefix_append_right_inj _ |>.mpr
      exact (List.take_prefix sent f.bytes).trans (List.prefix_append _ _)

/-- The front element stays at the front until its write completes. -/
theorem front_stays {e : Event} (hs : Session.step s e = some s')
    (he : e.breaks = false) (hdone : ∀ i, e ≠ .writeDone i) : s.msgQueue <+: s'.msgQueue := by
  cases e with
  | runPost =>
      obtain ⟨_, _, _, _, _, _, _, hqueue, _⟩ := TcpSession.runPost_spec hs
      exact hqueue ▸ List.prefix_append s.msgQueue _
  | writeSome i n =>
      obtain ⟨_, _, _, _, _, rfl⟩ := TcpSession.writeSome_spec hs
      exact List.prefix_refl _
  | writeDone i => exact absurd rfl (hdone i)
  | inbound ref msg =>
      obtain rfl := Option.some.inj hs
      have hqueue := (s.inbound_frame ref msg).2.2.2.1
      exact hqueue ▸ List.prefix_refl s.msgQueue
  | request msg => obtain rfl := Option.some.inj hs; exact List.prefix_refl _
  | queueRspMsg msg ref => obtain rfl := Option.some.inj hs; exact List.prefix_refl _
  | queueRspData msgID data ref => obtain rfl := Option.some.inj hs; exact List.prefix_refl _
  | writeFail i what => simp [Event.breaks] at he
  | netError what => simp [Event.breaks] at he
  | connected => simp [Event.breaks] at he
  | startSession => simp [Event.breaks] at he
  | stopSession => simp [Event.breaks] at he

end WriteSide

/-- The write side holds in every state that an unbroken connection reaches. -/
theorem writeSide_run {es : List Event} {s : TcpSession} (h : run step established es = some s)
    (hes : ∀ e ∈ es, e.breaks = false) : WriteSide [] s := by
  refine inv_run_of_everyStep (C := fun _ e => e.breaks = false) WriteSide.init
    (fun t e t' ht he hstep => ht.step hstep he) h ?_
  intro pre e post t hpre _
  exact hes e (hpre ▸ List.mem_append_right _ List.mem_cons_self)

/-! ## Write-side integrity -/

/-- **Write-side integrity.** On an unbroken connection, in every state reached: the frames queued
are those of the posted handlers in the order they ran; each is its four-byte header, which announces
the length of the body, and the body, which is the message with its number, the response, or the id of
a cached response with the shared data in one piece behind it; at most one write is outstanding, it is
a write of the front element, and none is outstanding only when the queue is empty; the front element
stays until its own write completes; and the bytes handed to the socket are the frames that have left
the queue, each once and in order, followed by the part of the front one already taken. -/
theorem write_integrity (es : List Event) {s : TcpSession} (h : run step established es = some s)
    (hes : ∀ e ∈ es, e.breaks = false) :
    s.queued = framesOf 1 s.ran ∧
    s.queued.map QueuedFrame.bytes = (bodiesOf 1 s.ran).map (fun body => htonl body.length ++ body) ∧
    (∀ (k : Nat) msgID data ref, s.ran[k]? = some (.rspData msgID data ref) →
      ∃ f, s.queued[k]? = some f ∧ f.second = some data ∧
        ∃ pre : Bytes, pre = ({ id := msgID.toInt64 } : Message).serialize ∧
          f.first = htonl (pre.length + data.length) ++ pre) ∧
    (∀ f ∈ s.queued, f.bytes = htonl f.body.length ++ f.body ∧
      (f.body.length < 2 ^ 31 → ntohl f.bytes = f.body.length)) ∧
    s.writes.length ≤ 1 ∧ (s.writes = [] ↔ s.msgQueue = []) ∧
    (∀ op ∈ s.writes, s.msgQueue.head? = some op.frame ∧ op.socket = s.socket) ∧
    (∀ e s', step s e = some s' → e.breaks = false →
      (∀ i, e ≠ .writeDone i) ∧ s.msgQueue <+: s'.msgQueue ∨
      (∃ i, e = .writeDone i) ∧ s'.msgQueue = s.msgQueue.tail) ∧
    ∃ done, s.queued = done ++ s.msgQueue ∧
      s.wire = bytesOf done ++ (s.writes.flatMap fun op => op.frame.bytes.take op.sent) := by
  have hw := writeSide_run h hes
  have hqueued : ∀ f ∈ s.queued, f.bytes = htonl f.body.length ++ f.body := by
    intro f hf
    rw [hw.queued_bytes f hf, stream_frame]
  refine ⟨hw.order, ?_, ?_, ?_, ?_, ?_, ?_, ?_, ?_⟩
  · rw [← framesOf_body, ← hw.order, List.map_map]
    exact List.map_congr_left hqueued
  · intro k msgID data ref hk
    obtain ⟨m, hm⟩ := framesOf_getElem? (n := 1) hk
    refine ⟨frameOf m (.rspData msgID data ref), by rw [hw.order]; exact hm, rfl, _, rfl, ?_⟩
    simp only [frameOf, Message.byteSize_eq_length]
  · intro f hf
    refine ⟨hqueued f hf, fun hlen => ?_⟩
    rw [hqueued f hf]
    exact ntohl_htonl_append (by omega) _
  · rcases hw.front with ⟨_, hnone⟩ | ⟨op, rest, _, hone, _⟩
    · simp [hnone]
    · simp [hone]
  · rcases hw.front with ⟨hq, hnone⟩ | ⟨op, rest, hq, hone, _⟩
    · simp [hq, hnone]
    · simp [hq, hone]
  · intro op hop
    rcases hw.front with ⟨_, hnone⟩ | ⟨op', rest, hq, hone, hk⟩
    · simp [hnone] at hop
    · rw [hone] at hop
      obtain rfl := List.mem_singleton.mp hop
      exact ⟨by rw [hq]; rfl, hk⟩
  · intro e s' hs he
    by_cases hdone : ∃ i, e = .writeDone i
    · obtain ⟨i, rfl⟩ := hdone
      obtain ⟨op, _, _, rfl⟩ := TcpSession.writeDone_spec hs
      rw [TcpSession.writeData_eq]
      exact Or.inr ⟨⟨i, rfl⟩, rfl⟩
    · have hne : ∀ i, e ≠ .writeDone i := fun i hi => hdone ⟨i, hi⟩
      exact Or.inl ⟨hne, WriteSide.front_stays hs he hne⟩
  · obtain ⟨done, hdone, hfl⟩ := hw.flight
    refine ⟨done, hdone, ?_⟩
    cases hfl with
    | idle hq hws hb => simpa [hws] using hb
    | writing f rest sent hq hws hle hb => simpa [hws] using hb

/-- Three producers, and writes that the socket takes in pieces: a request, a response and a cached
response in two parts, all on the wire in the end. -/
def threeProducers : List Event :=
  [.request {}, .queueRspMsg { id := 5 } 0, .queueRspData 6 [0x10, 7] 1, .runPost, .runPost,
    .writeSome 0 2, .runPost, .writeSome 0 4, .writeDone 0, .writeSome 0 6, .writeDone 0,
    .writeSome 0 6, .writeSome 0 2, .writeDone 0]

theorem write_integrity_threeProducers :
    ∃ s, run step established threeProducers = some s ∧
      s.wire = [0, 0, 0, 2, 8, 1, 0, 0, 0, 2, 8, 5, 0, 0, 0, 4, 8, 6, 0x10, 7] ∧
      s.writes = [] ∧ s.msgQueue = [] ∧ bodiesOf 1 s.ran = [[8, 1], [8, 5], [8, 6, 0x10, 7]] ∧
      s.queued.map QueuedFrame.bytes =
        (bodiesOf 1 s.ran).map (fun body => htonl body.length ++ body) :=
  ⟨_, rfl, by decide, rfl, rfl, by decide, (write_integrity threeProducers rfl (by decide)).2.1⟩

/-! ## The two ways of queueing a response -/

/-- **The cached response is the plain one.** For every message without an id and every id: the bytes
that `queueRspMsg(msgID, data)` queues for the serialized message are those that `queueRspMsg` queues
for the message with that id, header included; the header announces the body; and the body is read
back as that message exactly when the two strings of the message are valid UTF-8. -/
theorem cached_response_eq_plain (skipField : UInt32 → Bytes → Option Bytes) (s : TcpSession)
    {m : Message} (h0 : m.id = 0) (msgID : UInt64) (ref : Nat)
    (hlen : { m with id := msgID.toInt64 }.serialize.length < 2 ^ 31) :
    ∃ cached plain,
      (s.runHandler (.rspData msgID m.serialize ref)).queued = s.queued ++ [cached] ∧
      (s.runHandler (.rspMsg { m with id := msgID.toInt64 } ref)).queued = s.queued ++ [plain] ∧
      cached.bytes = plain.bytes ∧
      cached.bytes = htonl cached.body.length ++ cached.body ∧
      ntohl cached.bytes = cached.body.length ∧
      (stream.split cached.bytes = ([cached.body], [])) ∧
      (Message.parseFromArray skipField cached.body = some { m with id := msgID.toInt64 } ↔
        m.WellFormed) := by
  have hcached := frameOf_rspData_body s.msgID msgID h0 ref
  have hplain := frameOf_rspMsg_body s.msgID { m with id := msgID.toInt64 } ref
  have hbytes := frameOf_bytes s.msgID (.rspData msgID m.serialize ref)
  have hbound : (frameOf s.msgID (.rspData msgID m.serialize ref)).body.length < 2 ^ 32 := by
    rw [hcached]
    omega
  refine ⟨frameOf s.msgID (.rspData msgID m.serialize ref),
    frameOf s.msgID (.rspMsg { m with id := msgID.toInt64 } ref), ?_, ?_, ?_, hbytes, ?_, ?_, ?_⟩
  · rw [TcpSession.runHandler_response s rfl, TcpSession.pushFrame_eq]
  · rw [TcpSession.runHandler_response s rfl, TcpSession.pushFrame_eq]
  · rw [hbytes, frameOf_bytes, hcached, hplain]
  · rw [hbytes, stream_frame, ntohl_htonl_append hbound]
  · have hone : stream.split (stream.frames [(frameOf s.msgID (.rspData msgID m.serialize ref)).body]) =
        ([(frameOf s.msgID (.rspData msgID m.serialize ref)).body], []) :=
      stream.split_frames_self (by simpa using hbound)
    rw [hbytes]
    simpa using hone
  · rw [hcached, Message.parse_serialize_iff skipField hlen]
    exact ⟨fun hwf => ⟨hwf.method, hwf.returnMsg⟩, fun hwf => ⟨hwf.method, hwf.returnMsg⟩⟩

/-- An id with the top bit set, which takes ten bytes as a varint. -/
theorem cached_response_eq_plain_topBit :
    ∃ cached plain : QueuedFrame, cached.bytes = plain.bytes ∧
      Message.parseFromArray (fun _ _ => none) cached.body =
        some { id := (0x8000000000000000 : UInt64).toInt64, method := ascii "getAdList" } := by
  obtain ⟨cached, plain, _, _, heq, _, _, _, hparse⟩ := cached_response_eq_plain (fun _ _ => none)
    established (m := { method := ascii "getAdList" }) rfl 0x8000000000000000 0
    (by decide +kernel)
  exact ⟨cached, plain, heq, hparse.mpr (by decide +kernel)⟩

/-- **A method that is not valid UTF-8 is serialized, but not read back**, neither from the cached
response nor from the plain one. -/
theorem cached_response_not_utf8 :
    Message.parseFromArray (fun _ _ => none)
        (frameOf 1 (.rspData 7 { method := [255] : Message }.serialize 0)).body ≠
      some { id := 7, method := [255] } := by
  rw [frameOf_rspData_body 1 7 rfl 0]
  intro hparse
  exact absurd (Message.parse_wellFormed hparse) (by decide)

end AdManager.Session
