/-
# AdManager.Session.Decode — what the receive loop dispatches.

`Decoding` is the state of the loop on a connection that started with an empty `_recvBuf`: the bytes
consumed are the frames of the bodies read so far, with the header of the current body behind them
while a body is being read, and the buffer holds exactly the bytes of the outstanding read. Cutting
the bytes received into frames (`Framing.split`) therefore gives those bodies, whatever the chunks
were.

Two results stand on it. On one connection the loop dispatches the bodies that parse, for every
stream and every chunking. Over several connections it does so on each of them as long as the buffer
is empty whenever a session starts; it is not emptied by the code, and a connection cut inside a
frame spoils the next one.
-/
import AdManager.Session.Receiver

namespace AdManager.Session

open AdManager.Wire AdManager.Lib

namespace Receiver

variable {M : Type*}

/-! ## The state of the loop on a clean connection -/

/-- Where the loop stands when the bodies `done` have been read: at a header, or at a body whose
header `hd` has been consumed. The buffer holds what the outstanding read has taken. -/
inductive AtFrame (r : Receiver M) (done : List Bytes) : Prop
  | head (hop : r.op = some { kind := .head, got := r.recvBuf.length }) (hle : r.recvBuf.length ≤ 4)
      (hconsumed : r.conn.consumed = stream.frames done)
  | body (hd : Bytes) (hhd : hd.length = 4)
      (hop : r.op = some { kind := .body (ntohl hd), got := r.recvBuf.length })
      (hle : r.recvBuf.length ≤ ntohl hd) (hconsumed : r.conn.consumed = stream.frames done ++ hd)

variable (parse : Bytes → Option M)

/-- **The loop on a connection that started with an empty buffer.** -/
structure Decoding (r : Receiver M) : Prop where
  received : r.conn.received = r.conn.consumed ++ r.recvBuf
  loop : ∃ done, (∀ b ∈ done, b.length < 2 ^ 32) ∧ AtFrame r done ∧
    r.conn.dispatched = done.filterMap parse

variable {parse} {r r' : Receiver M} {n : Nat} {out : Option M}

namespace Decoding

/-- Starting with an empty buffer. -/
theorem readHead (hbuf : r.recvBuf = []) (hconn : r.conn = {}) : Decoding parse r.readHead where
  received := by simp [Receiver.readHead, hbuf, hconn]
  loop := by
    refine ⟨[], by simp, .head ?_ ?_ ?_, ?_⟩
    · simp [Receiver.readHead, hbuf]
    · simp [Receiver.readHead, hbuf]
    · simp [Receiver.readHead, hconn]
    · simp [Receiver.readHead, hconn]

theorem arrive (h : Decoding parse r) (chunk : Bytes) : Decoding parse (r.arrive chunk) where
  received := h.received
  loop := by
    obtain ⟨done, hdone, hat, hdisp⟩ := h.loop
    refine ⟨done, hdone, ?_, hdisp⟩
    cases hat with
    | head hop hle hc => exact .head hop hle hc
    | body hd hhd hop hle hc => exact .body hd hhd hop hle hc

theorem readSome (h : Decoding parse r) (hs : r.readSome n = some r') : Decoding parse r' := by
  obtain ⟨op, hop', hpos, havail, hsize, rfl⟩ := readSome_spec hs
  have hlen : (r.recvBuf ++ r.avail.take n).length = r.recvBuf.length + n := by
    rw [List.length_append, List.length_take]
    omega
  obtain ⟨done, hdone, hat, hdisp⟩ := h.loop
  refine ⟨?_, done, hdone, ?_, hdisp⟩
  · show r.conn.received ++ _ = r.conn.consumed ++ (r.recvBuf ++ _)
    rw [h.received, List.append_assoc]
  · cases hat with
    | head hop hle hc =>
        obtain rfl := Option.some.inj (hop'.symm.trans hop)
        refine .head ?_ ?_ hc
        · show some _ = some _
          rw [hlen]
        · show (r.recvBuf ++ _).length ≤ 4
          rw [hlen]
          exact hsize
    | body hd hhd hop hle hc =>
        obtain rfl := Option.some.inj (hop'.symm.trans hop)
        refine .body hd hhd ?_ ?_ hc
        · show some _ = some _
          rw [hlen]
        · show (r.recvBuf ++ _).length ≤ ntohl hd
          rw [hlen]
          exact hsize

theorem complete (h : Decoding parse r) (hs : r.complete parse = some (r', out)) :
    Decoding parse r' := by
  obtain ⟨done, hdone, hat, hdisp⟩ := h.loop
  rcases complete_spec hs with ⟨hop', rfl, rfl⟩ | ⟨bodyLen, hop', heq⟩
  · -- a header: the next read is that of the body it announces
    cases hat with
    | head hop hle hc =>
        have hlen : r.recvBuf.length = 4 := by
          simpa [eq_comm] using congrArg ReadOp.got (Option.some.inj (hop'.symm.trans hop))
        have htake : r.recvBuf.take 4 = r.recvBuf := List.take_of_length_le (by omega)
        have hdrop : r.recvBuf.drop 4 = [] := List.drop_of_length_le (by omega)
        refine ⟨?_, done, hdone, .body r.recvBuf hlen ?_ ?_ ?_, hdisp⟩
        · simp [handleHead, consume, readBody, htake, hdrop, h.received]
        · simp [handleHead, consume, readBody, hdrop]
        · simp [handleHead, consume, readBody, hdrop]
        · simp [handleHead, consume, readBody, htake, hc]
    | body hd hhd hop hle hc =>
        exact absurd (Option.some.inj (hop'.symm.trans hop)) (by simp)
  · -- a body: it is the next one, and the loop is at a header again
    cases hat with
    | head hop hle hc =>
        exact absurd (Option.some.inj (hop'.symm.trans hop)) (by simp)
    | body hd hhd hop hle hc =>
        have hbody : bodyLen = ntohl hd ∧ bodyLen = r.recvBuf.length := by
          simpa using Option.some.inj (hop'.symm.trans hop)
        obtain ⟨hsize, hlen⟩ := hbody
        have htake : r.recvBuf.take bodyLen = r.recvBuf := List.take_of_length_le (by omega)
        have hdrop : r.recvBuf.drop bodyLen = [] := List.drop_of_length_le (by omega)
        have hframe : stream.frame r.recvBuf = hd ++ r.recvBuf := by
          rw [stream_frame, ← hlen, hsize, htonl_ntohl hhd]
        rw [handleBody_eq, htake] at heq
        obtain ⟨rfl, rfl⟩ := Prod.mk.inj heq
        refine ⟨?_, done ++ [r.recvBuf], ?_, .head ?_ ?_ ?_, ?_⟩
        · simp [consume, Receiver.readHead, htake, hdrop, h.received]
        · intro b hb
          rcases List.mem_append.mp hb with hb | hb
          · exact hdone b hb
          · obtain rfl := List.mem_singleton.mp hb
            have hlt := ntohl_lt hd
            omega
        · simp [consume, Receiver.readHead, hdrop]
        · simp [consume, Receiver.readHead, hdrop]
        · simp [consume, Receiver.readHead, htake, hc, Framing.frames_append, hframe]
        · simp [consume, Receiver.readHead, hdisp, List.filterMap_append, List.filterMap_cons]
          cases parse r.recvBuf <;> rfl

/-- The bodies read so far, and the bytes behind them: there is no further complete frame in them
while the outstanding read still waits for bytes, and there are none only at the start of a
header. -/
theorem frames_received (h : Decoding parse r) :
    ∃ done rest, (∀ b ∈ done, b.length < 2 ^ 32) ∧ r.conn.dispatched = done.filterMap parse ∧
      r.conn.received = stream.frames done ++ rest ∧ (r.Waiting → stream.next rest = none) ∧
      (rest = [] → r.op = some { kind := .head, got := 0 } ∧ r.recvBuf = []) := by
  obtain ⟨done, hdone, hat, hdisp⟩ := h.loop
  cases hat with
  | head hop hle hc =>
      refine ⟨done, r.recvBuf, hdone, hdisp, by rw [h.received, hc], ?_,
        fun hnil => ⟨by rw [hop, hnil]; rfl, hnil⟩⟩
      rintro ⟨op, hop', hgot⟩
      obtain rfl := Option.some.inj (hop.symm.trans hop')
      rw [Framing.next_eq_none]
      simp only [ReadKind.size] at hgot
      simp only [stream_hdr]
      omega
  | body hd hhd hop hle hc =>
      have hne : hd ++ r.recvBuf ≠ [] := by
        intro hnil
        simp [(List.append_eq_nil_iff.mp hnil).1] at hhd
      refine ⟨done, hd ++ r.recvBuf, hdone, hdisp, by rw [h.received, hc, List.append_assoc], ?_,
        fun hnil => absurd hnil hne⟩
      rintro ⟨op, hop', hgot⟩
      obtain rfl := Option.some.inj (hop.symm.trans hop')
      have htake : (hd ++ r.recvBuf).take 4 = hd := by rw [← hhd, List.take_left]
      rw [Framing.next_eq_none]
      simp only [ReadKind.size] at hgot
      simp only [stream_hdr, stream_announced, htake, List.length_append, hhd]
      omega

/-- **What has been dispatched when the loop waits for bytes**: the bodies that parse, of the frames
received completely, in order. -/
theorem dispatched_eq (h : Decoding parse r) (hwait : r.Waiting) :
    r.conn.dispatched = (stream.split r.conn.received).1.filterMap parse := by
  obtain ⟨done, rest, hdone, hdisp, hrec, hnone, _⟩ := h.frames_received
  rw [hrec, Framing.split_frames_of_none hdone (hnone hwait), hdisp]

/-- At a header, the buffer holds only bytes of that header. -/
theorem head_buf (h : Decoding parse r) {got : Nat} (hop : r.op = some { kind := .head, got := got }) :
    r.recvBuf.length = got := by
  obtain ⟨done, _, hat, _⟩ := h.loop
  cases hat with
  | head hop' hle hc => simpa using congrArg ReadOp.got (Option.some.inj (hop'.symm.trans hop))
  | body hd hhd hop' hle hc => exact absurd (Option.some.inj (hop'.symm.trans hop)) (by simp)

end Decoding

/-! ## One connection -/

/-- The events of one connection. -/
def Event.onConnection : Event → Bool
  | .arrive _ => true
  | .readSome _ => true
  | .complete => true
  | .startSession => false
  | .fail => false

/-- The events that need nothing from outside: the reads go on by themselves. -/
def Event.internal : Event → Bool
  | .readSome _ => true
  | .complete => true
  | _ => false

/-- The loop has done everything it can with the bytes delivered. -/
def Quiescent (parse : Bytes → Option M) (r : Receiver M) : Prop :=
  ∀ e : Event, e.internal = true → step parse r e = none

/-- How much the loop still has to do: each byte delivered, and the handlers of completed reads. -/
def work (r : Receiver M) : Nat :=
  3 * r.avail.length +
    match r.op with
    | none => 0
    | some op =>
        match op.kind with
        | .head => if op.got = 4 then 2 else 0
        | .body bodyLen => if op.got = bodyLen then 1 else 0

/-- **Every event of a connection keeps the state of the loop.** -/
theorem Decoding.step {e : Event} (h : Decoding parse r) (hs : Receiver.step parse r e = some r')
    (he : e.onConnection = true) : Decoding parse r' := by
  cases e with
  | arrive chunk =>
      simp only [Receiver.step] at hs
      split at hs
      · exact absurd hs (by simp)
      · obtain rfl := Option.some.inj hs
        exact h.arrive chunk
  | readSome n => exact h.readSome hs
  | complete =>
      obtain ⟨⟨t, out⟩, ht, rfl⟩ := Option.map_eq_some_iff.mp hs
      exact h.complete ht
  | startSession => simp [Event.onConnection] at he
  | fail => simp [Event.onConnection] at he

theorem decoding_run {es : List Event} (h : run (step parse) started es = some r)
    (hes : ∀ e ∈ es, e.onConnection = true) : Decoding parse r := by
  refine inv_run_of_everyStep (C := fun _ e => e.onConnection = true)
    (Decoding.readHead rfl rfl) (fun t e t' ht he hstep => ht.step hstep he) h ?_
  intro pre e post t hpre _
  exact hes e (hpre ▸ List.mem_append_right _ List.mem_cons_self)

/-- The loop's own events deliver nothing and lose nothing. -/
theorem arrived_step {e : Event} (hs : step parse r e = some r') (he : e.internal = true) :
    r'.arrived = r.arrived := by
  cases e with
  | readSome n =>
      obtain ⟨op, _, _, _, _, rfl⟩ := readSome_spec hs
      simp [arrived]
  | complete =>
      obtain ⟨⟨t, out⟩, ht, rfl⟩ := Option.map_eq_some_iff.mp hs
      obtain ⟨_, hreceived, havail, _⟩ := complete_frame ht
      rw [arrived, arrived, hreceived, havail]
  | startSession => simp [Event.internal] at he
  | arrive chunk => simp [Event.internal] at he
  | fail => simp [Event.internal] at he

/-- Each of the loop's own events leaves it less to do, also when the next body is empty. -/
theorem work_step {e : Event} (he : e.internal = true) (hs : step parse r e = some r') :
    r'.work < r.work := by
  cases e with
  | readSome n =>
      obtain ⟨op, hop, hpos, havail, hsize, rfl⟩ := readSome_spec hs
      simp only [work, hop, List.length_drop]
      cases op.kind <;> simp only <;> split <;> split <;> omega
  | complete =>
      obtain ⟨⟨t, out⟩, ht, rfl⟩ := Option.map_eq_some_iff.mp hs
      rcases complete_spec ht with ⟨hop, rfl, _⟩ | ⟨bodyLen, hop, heq⟩
      · simp only [work, hop, handleHead, consume, readBody]
        split <;> simp
      · rw [handleBody_eq] at heq
        obtain ⟨rfl, _⟩ := Prod.mk.inj heq
        simp [work, hop, consume, readHead]
  | startSession => simp [Event.internal] at he
  | arrive chunk => simp [Event.internal] at he
  | fail => simp [Event.internal] at he

/-- A loop that can do nothing more waits for bytes, and has taken all that were delivered. -/
theorem Decoding.of_quiescent (h : Decoding parse r) (hq : Quiescent parse r) :
    r.Waiting ∧ r.avail = [] := by
  obtain ⟨op, hop, hle⟩ : ∃ op, r.op = some op ∧ op.got ≤ op.kind.size := by
    obtain ⟨done, _, hat, _⟩ := h.loop
    cases hat with
    | head hop hle hc => exact ⟨_, hop, hle⟩
    | body hd hhd hop hle hc => exact ⟨_, hop, hle⟩
  have hcomplete := hq .complete rfl
  have hread := hq (.readSome 1) rfl
  simp only [Receiver.step, Option.map_eq_none_iff, Receiver.complete, hop] at hcomplete
  simp only [Receiver.step, Receiver.readSome, hop] at hread
  have hlt : op.got < op.kind.size := by
    split at hcomplete
    · cases hk : op.kind <;> simp [hk] at hcomplete
    · omega
  refine ⟨⟨op, hop, hlt⟩, ?_⟩
  split at hread
  · exact absurd hread (by simp)
  · next hc =>
      rw [← List.length_eq_zero_iff]
      omega

/-- **Frame decoding on one connection.** For every sequence of bodies of at most 20 MiB, for every
run of the loop on a connection that delivers the stream of their frames or a prefix of it, in any
chunks: what is dispatched is a prefix of the bodies that parse, in order; at a header the buffer
holds only the bytes of that header; when the loop has done what it can, it has dispatched exactly
the bodies that parse among the complete frames delivered; when the whole stream was delivered, these
are all bodies that parse and the loop waits for a header with an empty buffer; and the loop always
gets that far by itself. -/
theorem decode_stream (parse : Bytes → Option M) (bodies : List Bytes)
    (hbodies : ∀ b ∈ bodies, b.length ≤ maxBody) (es : List Event) {r : Receiver M}
    (h : run (step parse) started es = some r) (hes : ∀ e ∈ es, e.onConnection = true)
    (harrived : r.arrived <+: stream.frames bodies) :
    r.conn.dispatched <+: bodies.filterMap parse ∧
    (∀ got, r.op = some { kind := .head, got := got } → r.recvBuf.length = got) ∧
    (Quiescent parse r → ∃ done rest, bodies = done ++ rest ∧
      r.conn.dispatched = done.filterMap parse ∧ stream.frames done <+: r.arrived ∧
      ∀ b, rest.head? = some b → ¬ stream.frames (done ++ [b]) <+: r.arrived) ∧
    (Quiescent parse r → r.arrived = stream.frames bodies →
      r.conn.dispatched = bodies.filterMap parse ∧ r.op = some { kind := .head, got := 0 } ∧
        r.recvBuf = []) ∧
    ∃ es' r', (∀ e ∈ es', e.internal = true) ∧ run (step parse) r es' = some r' ∧
      r'.arrived = r.arrived ∧ Quiescent parse r' := by
  have hdec := decoding_run h hes
  have hbound : ∀ b ∈ bodies, b.length < stream.bound := by
    intro b hb
    have hle := hbodies b hb
    simp only [maxBody] at hle
    simp only [stream_bound]
    omega
  have hsplit : (stream.split r.arrived).1 <+: bodies := Framing.split_prefix hbound harrived
  have hall : Quiescent parse r → r.conn.received = r.arrived := by
    intro hq
    simp [arrived, (hdec.of_quiescent hq).2]
  refine ⟨?_, fun got => hdec.head_buf, ?_, ?_, ?_⟩
  · obtain ⟨done, rest, hdone, hdisp, hrec, _, _⟩ := hdec.frames_received
    have hframes : stream.frames done <+: stream.frames bodies := by
      refine List.IsPrefix.trans ?_ harrived
      rw [arrived, hrec, List.append_assoc]
      exact List.prefix_append _ _
    rw [hdisp]
    exact (Framing.prefix_of_frames_prefix hdone hbound hframes).filterMap parse
  · intro hq
    obtain ⟨rest, hrest⟩ := hsplit
    have hdisp := hdec.dispatched_eq (hdec.of_quiescent hq).1
    rw [hall hq] at hdisp
    refine ⟨_, rest, hrest.symm, hdisp, Framing.frames_split_prefix _, ?_⟩
    intro b hb hprefix
    have hmem : ∀ p ∈ (stream.split r.arrived).1 ++ [b], p.length < stream.bound := by
      intro p hp
      apply hbound
      rw [← hrest]
      rcases List.mem_append.mp hp with hp | hp
      · exact List.mem_append_left _ hp
      · obtain rfl := List.mem_singleton.mp hp
        exact List.mem_append_right _ (List.mem_of_mem_head? hb)
    have hlen := Framing.length_le_split hmem hprefix
    simp at hlen
  · intro hq hwhole
    obtain ⟨done, rest, hdone, hdisp, hrec, hnone, hstart⟩ := hdec.frames_received
    have hnone' := hnone (hdec.of_quiescent hq).1
    -- cutting the whole stream gives the bodies and leaves nothing over
    have hcut : (bodies, []) = (done, rest) := by
      rw [← Framing.split_frames_self hbound, ← Framing.split_frames_of_none hdone hnone', ← hrec,
        hall hq, hwhole]
    obtain ⟨rfl, rfl⟩ := Prod.mk.inj hcut
    exact ⟨hdisp, hstart rfl⟩
  · have hdown : ∀ (t : Receiver M) (e : Event) t', e.internal = true →
        step parse t e = some t' → t'.work < t.work := fun _ _ _ he hs => work_step he hs
    obtain ⟨es', r', hint, hrun, hq⟩ := exists_quiescent work hdown r
    refine ⟨es', r', hint, hrun, ?_, hq⟩
    refine inv_run_of_everyStep (I := fun t => t.arrived = r.arrived)
      (C := fun _ e => e.internal = true) rfl
      (fun t e t' ht he hs => (arrived_step hs he).trans ht) hrun ?_
    intro pre e post t hpre _
    exact hint e (hpre ▸ List.mem_append_right _ List.mem_cons_self)

/-- Three bodies, the middle one empty and the last one no message, in chunks that cut a header. -/
theorem decode_stream_threeBodies :
    ∃ r, run (step (Message.parseFromArray fun _ _ => none)) started
        [.arrive [0, 0], .readSome 2, .arrive [0, 2, 8, 7, 0, 0, 0, 0, 0, 0, 0, 1, 255], .readSome 2,
          .complete, .readSome 2, .complete, .readSome 4, .complete, .complete, .readSome 4,
          .complete, .readSome 1, .complete] = some r ∧
      r.conn.dispatched = [{ id := 7 }, {}] ∧
      r.conn.dispatched <+: [[8, 7], [], [255]].filterMap (Message.parseFromArray fun _ _ => none) :=
  ⟨_, rfl, by decide, (decode_stream (Message.parseFromArray fun _ _ => none)
    [[8, 7], [], [255]] (by decide)
    [.arrive [0, 0], .readSome 2, .arrive [0, 2, 8, 7, 0, 0, 0, 0, 0, 0, 0, 1, 255],
      .readSome 2, .complete, .readSome 2, .complete, .readSome 4, .complete, .complete,
      .readSome 4, .complete, .readSome 1, .complete] rfl (by decide) (by decide)).1⟩

/-! ## Several connections -/

/-- What one connection must look like: what was removed from the buffer was received on it, and the
messages dispatched are the bodies that parse, of the frames received completely on it. -/
def Clean (parse : Bytes → Option M) (c : Conn M) : Prop :=
  c.consumed <+: c.received ∧ c.dispatched = (stream.split c.received).1.filterMap parse

/-- **A session that starts its receive side clean**: every earlier connection was clean; while one
is up, the bytes consumed and buffered are those received on it; and whenever its loop waits for
bytes, it has been clean so far. -/
def CleanSession (parse : Bytes → Option M) (r : Receiver M) : Prop :=
  (∀ c ∈ r.closed, Clean parse c) ∧
    (r.op ≠ none → r.conn.received = r.conn.consumed ++ r.recvBuf) ∧
    (r.Waiting → Clean parse r.conn)

/-- The buffer is empty whenever a session starts: the connection before was cut between two frames,
or right behind a header. -/
def StartsEmpty (r : Receiver M) (e : Event) : Prop := e = .startSession → r.recvBuf = []

/-- The invariant over connections: between them nothing is recorded, on each one the loop is that
of a clean connection. -/
structure CleanRun (parse : Bytes → Option M) (r : Receiver M) : Prop where
  closed : ∀ c ∈ r.closed, Clean parse c
  open_ : (r.op = none ∧ r.conn = {}) ∨ (r.op ≠ none ∧ Decoding parse r)

theorem Decoding.clean (h : Decoding parse r) (hwait : r.Waiting) : Clean parse r.conn :=
  ⟨h.received ▸ List.prefix_append _ _, h.dispatched_eq hwait⟩

theorem Decoding.op_ne_none (h : Decoding parse r) : r.op ≠ none := by
  obtain ⟨done, _, hat, _⟩ := h.loop
  cases hat with
  | head hop hle hc => simp [hop]
  | body hd hhd hop hle hc => simp [hop]

namespace CleanRun

theorem init : CleanRun parse ({} : Receiver M) where
  closed := by simp
  open_ := Or.inl ⟨rfl, rfl⟩

theorem cleanSession (h : CleanRun parse r) : CleanSession parse r := by
  refine ⟨h.closed, ?_, ?_⟩
  · intro hop
    rcases h.open_ with ⟨hnone, _⟩ | ⟨_, hdec⟩
    · exact absurd hnone hop
    · exact hdec.received
  · rintro ⟨op, hop, hgot⟩
    rcases h.open_ with ⟨hnone, _⟩ | ⟨_, hdec⟩
    · simp [hnone] at hop
    · exact hdec.clean ⟨op, hop, hgot⟩

theorem closed_step {e : Event} (hs : Receiver.step parse r e = some r')
    (he : e.onConnection = true) : r'.closed = r.closed := by
  cases e with
  | arrive chunk =>
      simp only [Receiver.step] at hs
      split at hs
      · exact absurd hs (by simp)
      · obtain rfl := Option.some.inj hs
        rfl
  | readSome n =>
      obtain ⟨op, _, _, _, _, rfl⟩ := readSome_spec hs
      rfl
  | complete =>
      obtain ⟨⟨t, out⟩, ht, rfl⟩ := Option.map_eq_some_iff.mp hs
      obtain ⟨_, _, _, hclosed⟩ := complete_frame ht
      exact hclosed
  | startSession => simp [Event.onConnection] at he
  | fail => simp [Event.onConnection] at he

/-- **Every event keeps the invariant, a session that starts with an empty buffer included.** -/
theorem step {e : Event} (h : CleanRun parse r) (hC : StartsEmpty r e)
    (hs : Receiver.step parse r e = some r') : CleanRun parse r' := by
  by_cases he : e.onConnection = true
  · refine ⟨by rw [closed_step hs he]; exact h.closed, ?_⟩
    rcases h.open_ with ⟨hnone, _⟩ | ⟨_, hdec⟩
    · -- nothing happens on a connection that is not there
      cases e with
      | arrive chunk => simp [Receiver.step, hnone] at hs
      | readSome n => simp [Receiver.step, Receiver.readSome, hnone] at hs
      | complete => simp [Receiver.step, Receiver.complete, hnone] at hs
      | startSession => simp [Event.onConnection] at he
      | fail => simp [Event.onConnection] at he
    · have hdec' := hdec.step hs he
      exact Or.inr ⟨hdec'.op_ne_none, hdec'⟩
  · cases e with
    | startSession =>
        obtain ⟨hnone, rfl⟩ := startSession_spec hs
        refine ⟨h.closed, Or.inr ?_⟩
        rcases h.open_ with ⟨_, hconn⟩ | ⟨hne, _⟩
        · have hdec' : Decoding parse r.readHead := Decoding.readHead (hC rfl) hconn
          exact ⟨hdec'.op_ne_none, hdec'⟩
        · exact absurd hnone hne
    | fail =>
        obtain ⟨op, hop, hgot, rfl⟩ := fail_spec hs
        refine ⟨?_, Or.inl ⟨rfl, rfl⟩⟩
        intro c hc
        rcases List.mem_append.mp hc with hc | hc
        · exact h.closed c hc
        · obtain rfl := List.mem_singleton.mp hc
          rcases h.open_ with ⟨hnone, _⟩ | ⟨_, hdec⟩
          · simp [hnone] at hop
          · exact hdec.clean ⟨op, hop, hgot⟩
    | arrive chunk => exact absurd rfl he
    | readSome n => exact absurd rfl he
    | complete => exact absurd rfl he

/-- A session that starts with bytes in the buffer does not start clean. -/
theorem startsEmpty {e : Event} (h : CleanRun parse r) (hs : Receiver.step parse r e = some r')
    (hclean : CleanSession parse r') : StartsEmpty r e := by
  rintro rfl
  obtain ⟨hnone, rfl⟩ := startSession_spec hs
  rcases h.open_ with ⟨_, hconn⟩ | ⟨hne, _⟩
  · have hrec := hclean.2.1 (by simp [readHead])
    simpa [readHead, hconn] using hrec
  · exact absurd hnone hne

end CleanRun

/-- **When reconnected sessions start clean.** A run over any number of connections, each cut
anywhere and delivered in any chunks, stays clean exactly when `_recvBuf` is empty at every start of
a session. -/
theorem reconnect_clean_iff (parse : Bytes → Option M) {es : List Event} {r : Receiver M}
    (h : run (step parse) {} es = some r) :
    EveryState (step parse) (CleanSession parse) {} es ↔
      EveryStep (step parse) StartsEmpty {} es :=
  everyState_iff_everyStep (I := CleanRun parse) CleanRun.init (fun _ ht => ht.cleanSession)
    (fun _ _ _ ht hC hs => ht.step hC hs) (fun _ _ _ ht hs hP => ht.startsEmpty hs hP) h

/-- A connection that is lost between two frames, and the next one, which dispatches its own message:
both are clean. -/
theorem reconnect_clean_iff_betweenFrames :
    ∃ r, run (step (Message.parseFromArray fun _ _ => none)) {}
        [.startSession, .arrive [0, 0, 0, 0], .readSome 4, .complete, .complete, .fail,
          .startSession, .arrive [0, 0, 0, 2, 8, 7], .readSome 4, .complete, .readSome 2,
          .complete] = some r ∧
      r.conn.dispatched = [{ id := 7 }] ∧
      (EveryState (step (Message.parseFromArray fun _ _ => none))
          (CleanSession (Message.parseFromArray fun _ _ => none)) {}
          [.startSession, .arrive [0, 0, 0, 0], .readSome 4, .complete, .complete, .fail,
            .startSession, .arrive [0, 0, 0, 2, 8, 7], .readSome 4, .complete, .readSome 2,
            .complete] ↔
        EveryStep (step (Message.parseFromArray fun _ _ => none)) StartsEmpty {}
          [.startSession, .arrive [0, 0, 0, 0], .readSome 4, .complete, .complete, .fail,
            .startSession, .arrive [0, 0, 0, 2, 8, 7], .readSome 4, .complete, .readSome 2,
            .complete]) :=
  ⟨_, rfl, by decide, reconnect_clean_iff _ rfl⟩

/-- **A connection cut inside a body spoils the next one.** One byte of a two-byte body arrives, the
connection is lost, and the same frame is sent again in full: its header is read one byte off, as
134217728, and the loop waits for that body instead of dispatching the message. -/
theorem reconnect_not_clean :
    ¬ ∀ (es : List Event) (r : Receiver Message),
        run (step (Message.parseFromArray fun _ _ => none)) {} es = some r → r.Waiting →
        r.conn.dispatched =
          (stream.split r.conn.received).1.filterMap (Message.parseFromArray fun _ _ => none) := by
  intro hall
  have hrun := hall [.startSession, .arrive [0, 0, 0, 2, 8], .readSome 4, .complete, .readSome 1,
    .fail, .startSession, .arrive [0, 0, 0, 2, 8, 7], .readSome 4, .complete, .readSome 2] _ rfl
    ⟨{ kind := .body 134217728, got := 2 }, rfl, by decide⟩
  revert hrun
  decide

end Receiver

end AdManager.Session
