/-
# AdManager.Link.Duplex — two sessions that both ask and both answer.

A `Peer` is a session with its receive loop on an unbroken connection, and an application behind it
that calls `request` at any time and answers each inbound request once, at any time and in any order.
Two peers make a duplex: each one's bytes are delivered to the other in order.

On the wire nothing tells a request from a response. `findReqPromise` takes a message for a response
when its id is pending, and both sides number from 1.
-/
import AdManager.Link.Channel
import AdManager.Session.Promises

namespace AdManager.Link

open AdManager.Wire AdManager.Lib AdManager.Session

/-! ## One end -/

/-- One end of a connection. `inbox` holds the requests given to `_requestHandler` and not answered
yet, `handled` all requests given to it, each with the number of its inbound message. -/
structure Peer where
  session : TcpSession := established
  receiver : Receiver Message := Receiver.started
  inbox : List (Nat × Message) := []
  handled : List (Nat × Message) := []
  deriving DecidableEq, Repr

namespace Peer

/-- The number of inbound messages so far, which is the number of the next one. -/
def inCount (p : Peer) : Nat := p.receiver.conn.dispatched.length

/-- The middle of the handler of `readBody`: a body has been parsed as `msg`. -/
def dispatch (p : Peer) (msg : Message) : Peer :=
  let out := p.session.inbound p.inCount msg
  { p with
    session := out.1
    inbox := p.inbox ++ out.2.toList.map fun req => (p.inCount, req)
    handled := p.handled ++ out.2.toList.map fun req => (p.inCount, req) }

/-- The outstanding read has its bytes: its handler runs, and dispatches a body that parses. -/
def complete (parse : Bytes → Option Message) (p : Peer) : Option Peer :=
  (p.receiver.complete parse).map fun out =>
    match out.2 with
    | none => { p with receiver := out.1 }
    | some msg => { p.dispatch msg with receiver := out.1 }

/-- The application answers its `i`-th open request with a message that gets the request's id. -/
def answer (p : Peer) (i : Nat) (rsp : Message) : Option Peer :=
  p.inbox[i]?.map fun e =>
    { p with
      session := p.session.queueRspMsg { rsp with id := e.2.id } e.1
      inbox := p.inbox.eraseIdx i }

/-- The application answers its `i`-th open request with a message cached without an id. -/
def answerData (p : Peer) (i : Nat) (cached : Message) : Option Peer :=
  p.inbox[i]?.map fun e =>
    { p with
      session := p.session.queueRspData e.2.id.toUInt64 cached.serialize e.1
      inbox := p.inbox.eraseIdx i }

/-- The numbers of the pending requests. -/
def pendingIDs (p : Peer) : List UInt64 := p.session.lstRequestCtx.map RequestCtx.msgID

end Peer

/-- What can happen at one end. -/
inductive PeerEvent where
  | request (msg : Message)
  | answer (i : Nat) (rsp : Message)
  | answerData (i : Nat) (cached : Message)
  | runPost
  | writeSome (i n : Nat)
  | writeDone (i : Nat)
  | arrive (chunk : Bytes)
  | readSome (n : Nat)
  | complete
  deriving DecidableEq, Repr

/-- One event at an end, when the other end's socket has taken the bytes `wire`. Messages are valid
proto3 messages, and a cached one has no id. -/
def Peer.step (parse : Bytes → Option Message) (p : Peer) (wire : Bytes) : PeerEvent → Option Peer
  | .request msg =>
      if msg.WellFormed then some { p with session := p.session.request msg } else none
  | .answer i rsp => if rsp.WellFormed then p.answer i rsp else none
  | .answerData i cached =>
      if cached.WellFormed ∧ cached.id = 0 then p.answerData i cached else none
  | .runPost => p.session.runPost.map fun s => { p with session := s }
  | .writeSome i n => (p.session.writeSome i n).map fun s => { p with session := s }
  | .writeDone i => (p.session.writeDone i).map fun s => { p with session := s }
  | .arrive chunk =>
      if (p.receiver.arrive chunk).arrived <+: wire then
        some { p with receiver := p.receiver.arrive chunk }
      else none
  | .readSome n => (p.receiver.readSome n).map fun r => { p with receiver := r }
  | .complete => p.complete parse

/-- What an event at an end does to its session is nothing, or an event of an unbroken connection. -/
theorem Peer.step_session {parse : Bytes → Option Message} {p p' : Peer} {wire : Bytes}
    {e : PeerEvent} (h : p.step parse wire e = some p') :
    p'.session = p.session ∨
      ∃ e', e'.breaks = false ∧ Session.step p.session e' = some p'.session := by
  cases e with
  | request msg =>
      simp only [Peer.step] at h
      split at h
      · obtain rfl := Option.some.inj h
        exact Or.inr ⟨.request msg, rfl, rfl⟩
      · exact absurd h (by simp)
  | answer i rsp =>
      simp only [Peer.step] at h
      split at h
      · obtain ⟨e, _, rfl⟩ := Option.map_eq_some_iff.mp h
        exact Or.inr ⟨.queueRspMsg { rsp with id := e.2.id } e.1, rfl, rfl⟩
      · exact absurd h (by simp)
  | answerData i cached =>
      simp only [Peer.step] at h
      split at h
      · obtain ⟨e, _, rfl⟩ := Option.map_eq_some_iff.mp h
        exact Or.inr ⟨.queueRspData e.2.id.toUInt64 cached.serialize e.1, rfl, rfl⟩
      · exact absurd h (by simp)
  | runPost =>
      obtain ⟨t, ht, rfl⟩ := Option.map_eq_some_iff.mp h
      exact Or.inr ⟨.runPost, rfl, ht⟩
  | writeSome i n =>
      obtain ⟨t, ht, rfl⟩ := Option.map_eq_some_iff.mp h
      exact Or.inr ⟨.writeSome i n, rfl, ht⟩
  | writeDone i =>
      obtain ⟨t, ht, rfl⟩ := Option.map_eq_some_iff.mp h
      exact Or.inr ⟨.writeDone i, rfl, ht⟩
  | arrive chunk =>
      simp only [Peer.step] at h
      split at h
      · obtain rfl := Option.some.inj h
        exact Or.inl rfl
      · exact absurd h (by simp)
  | readSome n =>
      obtain ⟨r, _, rfl⟩ := Option.map_eq_some_iff.mp h
      exact Or.inl rfl
  | complete =>
      obtain ⟨⟨r, out⟩, _, rfl⟩ := Option.map_eq_some_iff.mp h
      cases out with
      | none => exact Or.inl rfl
      | some msg => exact Or.inr ⟨.inbound p.inCount msg, rfl, rfl⟩

/-- Frames queued at an end stay queued. -/
theorem Peer.queued_step {parse : Bytes → Option Message} {p p' : Peer} {wire : Bytes}
    {e : PeerEvent} (h : p.step parse wire e = some p') :
    p.session.queued <+: p'.session.queued := by
  rcases Peer.step_session h with hsame | ⟨e', _, hs⟩
  · exact hsame ▸ List.prefix_refl _
  · exact Session.queued_step hs

/-- The receive loop reads on from the other end's socket through every event. -/
theorem Peer.channel_step {parse : Bytes → Option Message} {p p' : Peer} {t : TcpSession}
    {e : PeerEvent} (hch : Channel parse t p.receiver) (h : p.step parse t.wire e = some p') :
    Channel parse t p'.receiver := by
  cases e with
  | arrive chunk =>
      simp only [Peer.step] at h
      split at h
      · next hin =>
          obtain rfl := Option.some.inj h
          exact hch.arrive hin
      · exact absurd h (by simp)
  | readSome n =>
      obtain ⟨r, hr, rfl⟩ := Option.map_eq_some_iff.mp h
      exact hch.readSome hr
  | complete =>
      obtain ⟨⟨r, out⟩, hr, rfl⟩ := Option.map_eq_some_iff.mp h
      have hch' := hch.complete hr
      cases out with
      | none => exact hch'
      | some msg => exact hch'
  | request msg =>
      simp only [Peer.step] at h
      split at h
      · obtain rfl := Option.some.inj h
        exact hch
      · exact absurd h (by simp)
  | answer i rsp =>
      simp only [Peer.step] at h
      split at h
      · obtain ⟨e, _, rfl⟩ := Option.map_eq_some_iff.mp h
        exact hch
      · exact absurd h (by simp)
  | answerData i cached =>
      simp only [Peer.step] at h
      split at h
      · obtain ⟨e, _, rfl⟩ := Option.map_eq_some_iff.mp h
        exact hch
      · exact absurd h (by simp)
  | runPost =>
      obtain ⟨t, _, rfl⟩ := Option.map_eq_some_iff.mp h
      exact hch
  | writeSome i n =>
      obtain ⟨t, _, rfl⟩ := Option.map_eq_some_iff.mp h
      exact hch
  | writeDone i =>
      obtain ⟨t, _, rfl⟩ := Option.map_eq_some_iff.mp h
      exact hch

/-! ## Both ends -/

/-- A connection with its two ends. -/
structure Duplex where
  left : Peer := {}
  right : Peer := {}
  deriving DecidableEq, Repr

/-- An event at one of the ends. -/
inductive Event where
  | left (e : PeerEvent)
  | right (e : PeerEvent)
  deriving DecidableEq, Repr

/-- One event. -/
def step (parse : Bytes → Option Message) (l : Duplex) : Event → Option Duplex
  | .left e => (l.left.step parse l.right.session.wire e).map fun p => { l with left := p }
  | .right e => (l.right.step parse l.left.session.wire e).map fun p => { l with right := p }

/-! ## The property and the condition -/

/-- **Requests and responses are told apart** at the end `s`, whose other end is `o`: a future is
completed only by the message that `o` queued as the answer to that very request; and what
`_requestHandler` gets is exactly the inbound requests, each once. -/
structure ToldApart (parse : Bytes → Option Message) (s o : Peer) : Prop where
  answered : ∀ c ∈ s.session.completed, ∃ k j f g ctx, c.source = some k ∧
    o.session.queued[k]? = some f ∧ f.origin = .response j ∧ s.session.queued[j]? = some g ∧
      g.origin = .request ctx ∧ ctx.prom = c.prom ∧ parse f.body = some c.msg
  delivered : ∀ k m f ctx, s.receiver.conn.dispatched[k]? = some m →
    o.session.queued[k]? = some f → f.origin = .request ctx →
      parse f.body = some m ∧ (k, { m with returnCode := 0 }) ∈ s.handled
  onlyRequests : ∀ e ∈ s.handled, ∃ f ctx, o.session.queued[e.1]? = some f ∧ f.origin = .request ctx
  once : (s.handled.map Prod.fst).Nodup

/-- The frame whose body the outstanding read of `s` has just completed. -/
def nextFrame (s o : Peer) : Option QueuedFrame :=
  match s.receiver.op with
  | some { kind := .body bodyLen, got := got } =>
      if got = bodyLen then o.session.queued[s.inCount]? else none
  | _ => none

/-- The request number that an event at `s` brings up: the one a posted request is about to be given,
or the one of the inbound request about to be dispatched. -/
def numberOf (s o : Peer) : PeerEvent → Option UInt64
  | .runPost => (s.session.posts.head?.bind Post.prom?).map fun _ => s.session.msgID.toUInt64
  | .complete => ((nextFrame s o).bind fun f => f.origin.ctx?).map RequestCtx.msgID
  | _ => none

/-- No request number comes up at an end while a request with that number is pending there. -/
def NumbersApart (l : Duplex) : Event → Prop
  | .left e => ∀ n ∈ numberOf l.left l.right e, n ∉ l.left.pendingIDs
  | .right e => ∀ n ∈ numberOf l.right l.left e, n ∉ l.right.pendingIDs

instance (l : Duplex) : (e : Event) → Decidable (NumbersApart l e)
  | .left e => Option.decidableForallMem (numberOf l.left l.right e)
  | .right e => Option.decidableForallMem (numberOf l.right l.left e)

end AdManager.Link
