/-
# AdManager.Link.Channel — one direction of a connection carries messages in order.

Between two sessions TCP is a byte pipe: what the receiver has been delivered is a prefix of what the
sender's socket has taken. `Channel` puts the write side of one session and the receive loop of the
other around that pipe, and `Channel.delivered` is what the two layers above need of it: the messages
dispatched on one end are the frames queued on the other end, in the order they were queued. Headers,
chunks, partial writes and the buffer are not seen above this module.
-/
import AdManager.Lib.ListKeys
import AdManager.Session.Decode
import AdManager.Session.WriteSide

namespace AdManager.Link

open AdManager.Wire AdManager.Lib AdManager.Session

/-! ## The pipe -/

/-- **One direction of an unbroken connection**: `s` writes, `r` reads, and TCP delivers in order. -/
structure Channel (parse : Bytes → Option Message) (s : TcpSession) (r : Receiver Message) :
    Prop where
  side : WriteSide [] s
  decoding : Receiver.Decoding parse r
  inOrder : r.arrived <+: s.wire

namespace Channel

variable {parse : Bytes → Option Message} {s s' : TcpSession} {r r' : Receiver Message}

theorem init : Channel parse established Receiver.started where
  side := WriteSide.init
  decoding := Receiver.Decoding.readHead rfl rfl
  inOrder := List.prefix_refl _

/-- What the socket has taken stays taken. -/
theorem wire_step {e : Session.Event} (hs : step s e = some s') (he : e.breaks = false) :
    s.wire <+: s'.wire := by
  cases e with
  | runPost =>
      obtain ⟨_, _, _, _, _, _, _, _, _, hwire, _⟩ := TcpSession.runPost_spec hs
      exact hwire ▸ List.prefix_refl s.wire
  | writeSome i n =>
      obtain ⟨_, _, _, _, _, rfl⟩ := TcpSession.writeSome_spec hs
      exact List.prefix_append _ _
  | writeDone i =>
      obtain ⟨_, _, _, hwire⟩ := TcpSession.writeDone_frame hs
      exact hwire ▸ List.prefix_refl s.wire
  | inbound ref msg =>
      obtain rfl := Option.some.inj hs
      have hwire := (s.inbound_frame ref msg).2.2.1
      exact hwire ▸ List.prefix_refl s.wire
  | request msg => obtain rfl := Option.some.inj hs; exact List.prefix_refl _
  | queueRspMsg msg ref => obtain rfl := Option.some.inj hs; exact List.prefix_refl _
  | queueRspData msgID data ref => obtain rfl := Option.some.inj hs; exact List.prefix_refl _
  | writeFail i what => simp [Event.breaks] at he
  | netError what => simp [Event.breaks] at he
  | connected => simp [Event.breaks] at he
  | startSession => simp [Event.breaks] at he
  | stopSession => simp [Event.breaks] at he

/-! ## Steps of the two ends -/

theorem write (h : Channel parse s r) {e : Session.Event} (hs : step s e = some s')
    (he : e.breaks = false) : Channel parse s' r where
  side := h.side.step hs he
  decoding := h.decoding
  inOrder := h.inOrder.trans (wire_step hs he)

theorem arrive (h : Channel parse s r) {chunk : Bytes} (hin : (r.arrive chunk).arrived <+: s.wire) :
    Channel parse s (r.arrive chunk) where
  side := h.side
  decoding := h.decoding.arrive chunk
  inOrder := hin

theorem readSome (h : Channel parse s r) {n : Nat} (hr : r.readSome n = some r') :
    Channel parse s r' where
  side := h.side
  decoding := h.decoding.readSome hr
  inOrder := by
    rw [@Receiver.arrived_step _ parse _ _ (.readSome n) hr rfl]
    exact h.inOrder

theorem complete (h : Channel parse s r) {out : Option Message}
    (hr : r.complete parse = some (r', out)) : Channel parse s r' where
  side := h.side
  decoding := h.decoding.complete hr
  inOrder := by
    obtain ⟨_, hrec, havail, _⟩ := Receiver.complete_frame hr
    rw [Receiver.arrived, hrec, havail]
    exact h.inOrder

/-! ## What is delivered -/

/-- The bodies read are bodies queued, in the same order. -/
theorem bodies_prefix (h : Channel parse s r) (hsize : ∀ f ∈ s.queued, f.body.length < 2 ^ 32) :
    ∃ done, done <+: s.queued.map QueuedFrame.body ∧ r.conn.dispatched = done.filterMap parse := by
  obtain ⟨done, rest, hdone, hdisp, hrec, _, _⟩ := h.decoding.frames_received
  refine ⟨done, ?_, hdisp⟩
  have hbound : ∀ b ∈ s.queued.map QueuedFrame.body, b.length < stream.bound := by
    intro b hb
    obtain ⟨f, hf, rfl⟩ := List.mem_map.mp hb
    exact hsize f hf
  -- bytes in order, hence frames in order
  apply Framing.prefix_of_frames_prefix hdone hbound
  have hread : stream.frames done <+: r.arrived := by
    rw [Receiver.arrived, hrec, List.append_assoc]
    exact List.prefix_append _ _
  exact (hread.trans h.inOrder).trans h.side.wire_prefix

/-- **Messages arrive in the order they were queued, none is lost on the way and none is made up.** -/
theorem delivered (h : Channel parse s r) (hsize : ∀ f ∈ s.queued, f.body.length < 2 ^ 32)
    (hparse : ∀ f ∈ s.queued, (parse f.body).isSome) :
    r.conn.dispatched.map some <+: s.queued.map fun f => parse f.body := by
  obtain ⟨done, hdone, hdisp⟩ := h.bodies_prefix hsize
  have hall : ∀ b ∈ done, (parse b).isSome := by
    intro b hb
    obtain ⟨f, hf, rfl⟩ := List.mem_map.mp (hdone.subset hb)
    exact hparse f hf
  rw [hdisp, map_some_filterMap hall]
  have hprefix := hdone.map parse
  rwa [List.map_map] at hprefix

/-- The message of index `k` is the `k`-th frame queued. -/
theorem delivered_get (h : Channel parse s r) (hsize : ∀ f ∈ s.queued, f.body.length < 2 ^ 32)
    (hparse : ∀ f ∈ s.queued, (parse f.body).isSome) {k : Nat} {m : Message}
    (hk : r.conn.dispatched[k]? = some m) :
    ∃ f, s.queued[k]? = some f ∧ parse f.body = some m := by
  obtain ⟨rest, hrest⟩ := h.delivered hsize hparse
  have hget : (s.queued.map fun f => parse f.body)[k]? = some (some m) := by
    rw [← hrest, List.getElem?_append_left]
    · rw [List.getElem?_map, hk]
      rfl
    · rw [List.length_map]
      exact (List.getElem?_eq_some_iff.mp hk).1
  rw [List.getElem?_map] at hget
  obtain ⟨f, hf, hm⟩ := Option.map_eq_some_iff.mp hget
  exact ⟨f, hf, hm⟩

/-- The message dispatched next is the frame queued next. -/
theorem complete_next (h : Channel parse s r) (hsize : ∀ f ∈ s.queued, f.body.length < 2 ^ 32)
    (hparse : ∀ f ∈ s.queued, (parse f.body).isSome) {m : Message}
    (hr : r.complete parse = some (r', some m)) :
    ∃ f, s.queued[r.conn.dispatched.length]? = some f ∧ parse f.body = some m := by
  have hdisp := (Receiver.complete_frame hr).1
  apply (h.complete hr).delivered_get hsize hparse
  rw [hdisp]
  simp

theorem dispatched_length_le (h : Channel parse s r)
    (hsize : ∀ f ∈ s.queued, f.body.length < 2 ^ 32)
    (hparse : ∀ f ∈ s.queued, (parse f.body).isSome) :
    r.conn.dispatched.length ≤ s.queued.length := by
  have hle := (h.delivered hsize hparse).length_le
  simpa using hle

/-- Nothing is on its way: no write is outstanding, TCP has delivered all bytes, and the receive loop
has done what it can. -/
structure Settled (parse : Bytes → Option Message) (s : TcpSession) (r : Receiver Message) :
    Prop where
  written : s.writes = []
  arrived : r.arrived = s.wire
  quiescent : Receiver.Quiescent parse r

/-- **When nothing is on its way, everything queued has been dispatched.** -/
theorem settled (h : Channel parse s r) (hsize : ∀ f ∈ s.queued, f.body.length < 2 ^ 32)
    (hparse : ∀ f ∈ s.queued, (parse f.body).isSome) (hset : Settled parse s r) :
    r.conn.dispatched.length = s.queued.length := by
  obtain ⟨hwait, havail⟩ := h.decoding.of_quiescent hset.quiescent
  have hwire : s.wire = stream.frames (s.queued.map QueuedFrame.body) := by
    obtain ⟨done, hdone, hfl⟩ := h.side.flight
    cases hfl with
    | idle hq hw hb =>
        rw [hb, ← bytesOf_eq_frames h.side.queued_bytes, hdone, hq]
        simp
    | writing f rest sent hq hw hle hb => simp [hset.written] at hw
  have hrec : r.conn.received = s.wire := by
    rw [← hset.arrived, Receiver.arrived, havail, List.append_nil]
  have hbound : ∀ b ∈ s.queued.map QueuedFrame.body, b.length < stream.bound := by
    intro b hb
    obtain ⟨f, hf, rfl⟩ := List.mem_map.mp hb
    exact hsize f hf
  have hdisp := h.decoding.dispatched_eq hwait
  rw [hrec, hwire, Framing.split_frames_self hbound] at hdisp
  apply Nat.le_antisymm (h.dispatched_length_le hsize hparse)
  -- every body queued parses, so none is skipped
  have hall : ∀ b ∈ s.queued.map QueuedFrame.body, (parse b).isSome := by
    intro b hb
    obtain ⟨f, hf, rfl⟩ := List.mem_map.mp hb
    exact hparse f hf
  have hlen := congrArg List.length (map_some_filterMap hall)
  rw [List.length_map, List.length_map, List.length_map] at hlen
  rw [hdisp, hlen]

end Channel

end AdManager.Link
