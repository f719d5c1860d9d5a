/-
# AdManager.Session.SendQueue — the send queue across connection losses.

Whether a write is in progress is read off `_msgQueue` alone, and `handleNetError` completes the
pending requests without touching the queue. As long as the queue is empty at every moment at which
the connection breaks or is made, the write side of `AdManager.Session.WriteSide` carries over from
one connection to the next. A single frame left in the queue is enough to stop it: no later push
starts a write, since the queue looks like one in progress.
-/
import AdManager.Session.Promises
import AdManager.Session.WriteSide

namespace AdManager.Session

open AdManager.Wire AdManager.Lib
open TcpSession (frameOf ctxOf)

/-! ## The two properties -/

/-- No lost wake-up: while connected, a non-empty queue has a write of its front element outstanding
on the current connection. -/
def NoLostWakeup (s : TcpSession) : Prop :=
  s.isConnected = true → s.msgQueue ≠ [] →
    ∃ op ∈ s.writes, s.msgQueue.head? = some op.frame ∧ op.socket = s.socket

/-- No leftover frame: a request that a network error has completed has no frame in the queue. -/
def NoLeftover (s : TcpSession) : Prop :=
  ∀ c ∈ s.completed, c.source = none → ∀ f ∈ s.msgQueue, f.origin.prom? ≠ some c.prom

instance (s : TcpSession) : Decidable (NoLostWakeup s) :=
  inferInstanceAs (Decidable (s.isConnected = true → s.msgQueue ≠ [] →
    ∃ op ∈ s.writes, s.msgQueue.head? = some op.frame ∧ op.socket = s.socket))

instance (s : TcpSession) : Decidable (NoLeftover s) :=
  inferInstanceAs (Decidable (∀ c ∈ s.completed, c.source = none →
    ∀ f ∈ s.msgQueue, f.origin.prom? ≠ some c.prom))

/-- The events at which a connection is lost or made. -/
def Event.severs : Event → Bool
  | .writeFail _ _ => true
  | .netError _ => true
  | .stopSession => true
  | .connected => true
  | _ => false

/-- The queue is empty when a connection is lost or made. -/
def NothingQueued (s : TcpSession) (e : Event) : Prop := e.severs = true → s.msgQueue = []

instance (s : TcpSession) (e : Event) : Decidable (NothingQueued s e) :=
  inferInstanceAs (Decidable (e.severs = true → s.msgQueue = []))

/-! ## The invariant -/

/-- A write side that has carried over, and no frame of a request completed by an error. -/
structure SendQueue (s : TcpSession) : Prop where
  side : ∃ before, WriteSide before s
  accounting : Accounting s
  leftover : NoLeftover s

namespace SendQueue

variable {s s' : TcpSession}

theorem init : SendQueue {} where
  side := ⟨[], rfl, rfl, [], rfl, .idle rfl rfl rfl⟩
  accounting := Accounting.init
  leftover := by simp [NoLeftover]

theorem noLostWakeup (h : SendQueue s) : NoLostWakeup s := by
  obtain ⟨before, hside⟩ := h.side
  intro _ hne
  rcases hside.front with ⟨hq, _⟩ | ⟨op, rest, hq, hone, hk⟩
  · exact absurd hq hne
  · exact ⟨op, by simp [hone], by rw [hq]; rfl, hk⟩

/-- The write side through one event: an unbroken connection keeps it, and nothing is in flight when
the connection breaks. -/
theorem side_step (h : SendQueue s) {e : Event} (hC : NothingQueued s e)
    (hs : step s e = some s') : ∃ before, WriteSide before s' := by
  obtain ⟨before, hside⟩ := h.side
  by_cases he : e.breaks = false
  · exact ⟨before, hside.step hs he⟩
  · cases e with
    | startSession =>
        obtain rfl := Option.some.inj hs
        exact ⟨before, hside.of_same rfl rfl rfl rfl rfl rfl rfl⟩
    | connected =>
        obtain rfl := Option.some.inj hs
        exact hside.of_empty (hC rfl) rfl rfl rfl rfl rfl (Or.inr rfl)
    | netError what =>
        obtain rfl := Option.some.inj hs
        exact hside.of_empty (hC rfl) rfl rfl rfl rfl rfl (Or.inl rfl)
    | stopSession =>
        obtain rfl := Option.some.inj hs
        exact hside.of_empty (hC rfl) rfl rfl rfl rfl rfl (Or.inl rfl)
    | writeFail i what =>
        -- there is no write to fail when nothing is queued
        obtain ⟨op, hop, _, _⟩ := TcpSession.writeFail_spec hs
        rcases hside.front with ⟨_, hnone⟩ | ⟨op', rest, hq, _, _⟩
        · simp [hnone] at hop
        · exact absurd (hC rfl) (by simp [hq])
    | _ => exact absurd rfl he

/-- A completion by a network error is of a request pending at that moment, whose frame is gone;
and a frame queued later belongs to a promise not completed yet. -/
theorem leftover_step (h : SendQueue s) {e : Event} (hC : NothingQueued s e)
    (hs : step s e = some s') : NoLeftover s' := by
  cases e with
  | runPost =>
      obtain ⟨p, ps, hposts, _, _, _, _, hqueue, _, _, hcompleted⟩ := TcpSession.runPost_spec hs
      intro c hc hsource f hf
      rw [hcompleted] at hc
      rw [hqueue] at hf
      rcases List.mem_append.mp hf with hf | hf
      · exact h.leftover c hc hsource f hf
      · obtain rfl := List.mem_singleton.mp hf
        intro horigin
        cases p with
        | request msg prom =>
            -- the promise of a posted request is not completed yet
            obtain rfl : prom = c.prom := by
              simpa [frameOf, Origin.prom?, Origin.ctx?, ctxOf] using horigin
            exact (h.accounting.posted_fresh hposts).2 (List.mem_map_of_mem hc)
        | rspMsg msg ref => exact absurd horigin (by simp [frameOf, Origin.prom?, Origin.ctx?])
        | rspData msgID data ref => exact absurd horigin (by simp [frameOf, Origin.prom?, Origin.ctx?])
  | writeDone i =>
      obtain ⟨_, _, _, rfl⟩ := TcpSession.writeDone_spec hs
      rw [TcpSession.writeData_eq]
      intro c hc hsource f hf
      exact h.leftover c hc hsource f (List.mem_of_mem_tail hf)
  | writeSome i n =>
      obtain ⟨_, _, _, _, _, rfl⟩ := TcpSession.writeSome_spec hs
      exact h.leftover
  | writeFail i what =>
      obtain ⟨_, _, _, rfl⟩ := TcpSession.writeFail_spec hs
      intro c _ _ f hf
      simp [TcpSession.handleNetError, hC rfl] at hf
  | netError what =>
      obtain rfl := Option.some.inj hs
      intro c _ _ f hf
      simp [TcpSession.handleNetError, hC rfl] at hf
  | inbound ref msg =>
      obtain rfl := Option.some.inj hs
      rcases s.inbound_cases ref msg with ⟨ctx, _, _, _, heq⟩ | ⟨_, heq⟩ <;> rw [heq]
      · intro c hc hsource
        rcases List.mem_append.mp hc with hc | hc
        · exact h.leftover c hc hsource
        · obtain rfl := List.mem_singleton.mp hc
          simp at hsource
      · exact h.leftover
  | _ => obtain rfl := Option.some.inj hs; exact h.leftover

theorem step (h : SendQueue s) {e : Event} (hC : NothingQueued s e)
    (hs : Session.step s e = some s') : SendQueue s' where
  side := h.side_step hC hs
  accounting := h.accounting.step hs
  leftover := h.leftover_step hC hs

end SendQueue

/-! ## When the queue is safe -/

/-- **The send queue across connection losses.** In every run of a session in which the queue is
empty whenever a connection is lost or made, no wake-up is lost and no frame of a failed request is
left over. -/
theorem send_queue (es : List Event) {s : TcpSession} (h : run step {} es = some s)
    (hC : EveryStep step NothingQueued {} es) : NoLostWakeup s ∧ NoLeftover s := by
  have hqueue : SendQueue s :=
    inv_run_of_everyStep SendQueue.init (fun _ _ _ ht he hs => ht.step he hs) h hC
  exact ⟨hqueue.noLostWakeup, hqueue.leftover⟩

/-- A request that is written completely before the connection is lost: its promise is completed by
the error, and the request made on the next connection is being written. -/
theorem send_queue_reconnect :
    ∃ s, run step {} [.connected, .startSession, .request {}, .runPost, .writeSome 0 6,
        .writeDone 0, .netError [], .connected, .startSession, .request {}, .runPost] = some s ∧
      s.isConnected = true ∧ s.msgQueue ≠ [] ∧ NoLostWakeup s ∧ NoLeftover s :=
  ⟨_, rfl, rfl, by decide, send_queue [.connected, .startSession, .request {}, .runPost,
    .writeSome 0 6, .writeDone 0, .netError [], .connected, .startSession, .request {}, .runPost]
    rfl (by decide)⟩

/-- **A frame left in the queue stops it.** The connection is lost while a request is being written:
the request fails with -1 but its frame stays, and after the reconnection nothing is written, neither
that frame nor one queued later. -/
theorem send_queue_stuck :
    ∃ s, run step {} [.connected, .startSession, .request {}, .runPost, .netError [],
        .writeFail 0 [], .connected, .startSession, .request {}, .runPost] = some s ∧
      s.msgQueue.length = 2 ∧ s.writes = [] ∧ ¬ NoLostWakeup s ∧ ¬ NoLeftover s :=
  ⟨_, rfl, by decide, by decide, by decide, by decide⟩

end AdManager.Session
