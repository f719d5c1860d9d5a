/-
# AdManager.Session.Promises — every request's promise is completed at most once.

The accounting of `_lstRequestCtx` over every run of a session: calls of `request`, inbound messages
with any id (duplicate, stale, negative, unknown), network errors reported any number of times, and
reconnections, in any order. The invariant is `Accounting`: promises are stamped in the order of
their `request()` calls, the pending list is what has been stamped and not completed, and each
completion is either the message with the stamped id or the message of a network error.

A step lemma for each handler that touches the list, then one induction over runs.
-/
import AdManager.Session.TcpSession
import AdManager.Lib.ListKeys

namespace AdManager.Session

open AdManager.Wire AdManager.Lib
open TcpSession (frameOf answers)

/-! ## The invariant -/

/-- A response is queued for no request. -/
theorem frameOf_ctx?_response {n : UInt32} {p : Post} (hp : p.prom? = none) :
    (frameOf n p).origin.ctx? = none := by
  cases p with
  | request msg prom => simp [Post.prom?] at hp
  | rspMsg msg ref => rfl
  | rspData msgID data ref => rfl

/-- How a completion answers its request: with the message of the stamped id, or with the message of
a network error. -/
def Completion.Answers (c : Completion) (ctx : RequestCtx) : Prop :=
  (∃ ref, c.source = some ref ∧ c.msg.id = ctx.msgID.toInt64) ∨
    (c.source = none ∧ c.msg.returnCode = -1)

/-- **The accounting of promises.** -/
structure Accounting (s : TcpSession) : Prop where
  /-- Promises are stamped in the order of their calls; those not stamped are still posted. -/
  proms : s.stamped.map RequestCtx.prom ++ s.posts.filterMap Post.prom? = List.range s.nextProm
  /-- The stamped requests are those whose posted handler has run. -/
  handled : s.stamped.map RequestCtx.prom = s.ran.filterMap Post.prom?
  /-- Each stamped request has a frame that carries the stamped id. -/
  frames : ∀ ctx ∈ s.stamped, ∃ (n : UInt32) (msg : Message), ctx.msgID = n.toUInt64 ∧
    ctx.method = msg.method ∧ frameOf n (.request msg ctx.prom) ∈ s.queued
  /-- The stamped requests are those that frames were queued for, in the same order. -/
  aligned : s.stamped = s.queued.filterMap fun f => f.origin.ctx?
  /-- The pending requests are those stamped and not completed. -/
  pending : s.lstRequestCtx =
    s.stamped.filter fun ctx => ctx.prom ∉ s.completed.map Completion.prom
  /-- No promise is completed twice. -/
  once : (s.completed.map Completion.prom).Nodup
  /-- Every completion answers a stamped request. -/
  answered : ∀ c ∈ s.completed, ∃ ctx ∈ s.stamped, ctx.prom = c.prom ∧ c.Answers ctx

namespace Accounting

variable {s s' : TcpSession}

theorem init : Accounting {} where
  proms := rfl
  handled := rfl
  frames := by simp
  aligned := rfl
  pending := rfl
  once := List.nodup_nil
  answered := by simp

/-- A step that touches neither the requests nor the posted handlers keeps the accounting. -/
theorem of_same (h : Accounting s) (hstamped : s'.stamped = s.stamped) (hposts : s'.posts = s.posts)
    (hran : s'.ran = s.ran) (hprom : s'.nextProm = s.nextProm) (hlst : s'.lstRequestCtx = s.lstRequestCtx)
    (hcompleted : s'.completed = s.completed) (hqueued : s'.queued = s.queued) : Accounting s' where
  proms := by rw [hstamped, hposts, hprom]; exact h.proms
  handled := by rw [hstamped, hran]; exact h.handled
  frames := by rw [hstamped, hqueued]; exact h.frames
  aligned := by rw [hstamped, hqueued]; exact h.aligned
  pending := by rw [hlst, hstamped, hcompleted]; exact h.pending
  once := by rw [hcompleted]; exact h.once
  answered := by rw [hcompleted, hstamped]; exact h.answered

/-- Stamped promises are pairwise different, and different from those still posted. -/
theorem nodup (h : Accounting s) :
    (s.stamped.map RequestCtx.prom ++ s.posts.filterMap Post.prom?).Nodup := by
  rw [h.proms]
  exact List.nodup_range

theorem stamped_nodup (h : Accounting s) : (s.stamped.map RequestCtx.prom).Nodup :=
  (List.nodup_append.mp h.nodup).1

theorem pending_nodup (h : Accounting s) : (s.lstRequestCtx.map RequestCtx.prom).Nodup := by
  rw [h.pending]
  exact (List.Sublist.map _ List.filter_sublist).nodup h.stamped_nodup

theorem mem_pending (h : Accounting s) {ctx : RequestCtx} :
    ctx ∈ s.lstRequestCtx ↔ ctx ∈ s.stamped ∧ ctx.prom ∉ s.completed.map Completion.prom := by
  rw [h.pending, List.mem_filter]
  simp

/-- The promise of a posted request has neither been stamped nor completed. -/
theorem posted_fresh (h : Accounting s) {msg : Message} {prom : Nat} {ps : List Post}
    (hposts : s.posts = .request msg prom :: ps) :
    prom ∉ s.stamped.map RequestCtx.prom ∧ prom ∉ s.completed.map Completion.prom := by
  have hnodup := h.nodup
  rw [hposts] at hnodup
  have hfresh : prom ∉ s.stamped.map RequestCtx.prom := by
    intro hmem
    exact (List.nodup_append.mp hnodup).2.2 prom hmem prom List.mem_cons_self rfl
  refine ⟨hfresh, ?_⟩
  intro hmem
  obtain ⟨c, hc, rfl⟩ := List.mem_map.mp hmem
  obtain ⟨ctx, hctx, hprom, _⟩ := h.answered c hc
  exact hfresh (List.mem_map.mpr ⟨ctx, hctx, hprom⟩)

/-! ## Step lemmas -/

theorem request (h : Accounting s) (msg : Message) : Accounting (s.request msg) where
  proms := by
    simp only [TcpSession.request, List.filterMap_append, ← List.append_assoc, h.proms]
    simp [Post.prom?, List.range_succ]
  handled := h.handled
  frames := h.frames
  aligned := h.aligned
  pending := h.pending
  once := h.once
  answered := h.answered

/-- A response handler is posted: it carries no promise. -/
theorem postResponse (h : Accounting s) {p : Post} (hp : p.prom? = none) :
    Accounting { s with posts := s.posts ++ [p] } where
  proms := by
    simp only [List.filterMap_append]
    simpa [hp] using h.proms
  handled := h.handled
  frames := h.frames
  aligned := h.aligned
  pending := h.pending
  once := h.once
  answered := h.answered

/-- A request is stamped: its promise leaves the posted handlers and enters the pending list. -/
theorem runRequest {msg : Message} {prom : Nat} {ps : List Post} (h : Accounting s)
    (hposts : s.posts = .request msg prom :: ps) :
    Accounting (TcpSession.runHandler { s with posts := ps } (.request msg prom)) := by
  have hproms := h.proms
  rw [hposts, List.filterMap_cons] at hproms
  have hpending := (h.posted_fresh hposts).2
  rw [TcpSession.runHandler_request, TcpSession.pushFrame_eq]
  constructor
  · show (s.stamped ++ [_]).map RequestCtx.prom ++ ps.filterMap Post.prom? = List.range s.nextProm
    rw [← hproms, List.map_append, List.append_assoc]
    rfl
  · show (s.stamped ++ [_]).map RequestCtx.prom =
      (s.ran ++ [Post.request msg prom]).filterMap Post.prom?
    rw [List.map_append, List.filterMap_append, h.handled]
    rfl
  · show ∀ ctx ∈ s.stamped ++ [_], ∃ (n : UInt32) (m : Message), ctx.msgID = n.toUInt64 ∧
      ctx.method = m.method ∧ frameOf n (.request m ctx.prom) ∈ s.queued ++ [_]
    intro ctx hctx
    rcases List.mem_append.mp hctx with hctx | hctx
    · obtain ⟨n, m, hid, hm, hf⟩ := h.frames ctx hctx
      exact ⟨n, m, hid, hm, List.mem_append_left _ hf⟩
    · obtain rfl := List.mem_singleton.mp hctx
      exact ⟨s.msgID, msg, rfl, rfl, List.mem_append_right _ (List.mem_singleton_self _)⟩
  · show s.stamped ++ [_] = (s.queued ++ [_]).filterMap fun f : QueuedFrame => f.origin.ctx?
    rw [List.filterMap_append, ← h.aligned]
    rfl
  · show s.lstRequestCtx ++ [_] =
      (s.stamped ++ [_]).filter fun ctx => decide (ctx.prom ∉ s.completed.map Completion.prom)
    rw [List.filter_append, ← h.pending,
      List.filter_cons_of_pos (by exact decide_eq_true hpending), List.filter_nil]
  · exact h.once
  · intro c hc
    obtain ⟨ctx, hctx, hans⟩ := h.answered c hc
    exact ⟨ctx, List.mem_append_left _ hctx, hans⟩

theorem runResponse {p : Post} {ps : List Post} (h : Accounting s) (hposts : s.posts = p :: ps)
    (hp : p.prom? = none) : Accounting (TcpSession.runHandler { s with posts := ps } p) := by
  rw [TcpSession.runHandler_response _ hp, TcpSession.pushFrame_eq]
  constructor
  · have hproms := h.proms
    rw [hposts, List.filterMap_cons, hp] at hproms
    exact hproms
  · show s.stamped.map RequestCtx.prom = (s.ran ++ [p]).filterMap Post.prom?
    simpa [List.filterMap_append, hp] using h.handled
  · intro ctx hctx
    obtain ⟨n, m, hid, hm, hf⟩ := h.frames ctx hctx
    exact ⟨n, m, hid, hm, List.mem_append_left _ hf⟩
  · show s.stamped = (s.queued ++ [frameOf s.msgID p]).filterMap fun f => f.origin.ctx?
    rw [List.filterMap_append, ← h.aligned, List.filterMap_cons, frameOf_ctx?_response hp]
    simp
  · exact h.pending
  · exact h.once
  · exact h.answered

theorem runPost (h : Accounting s) (hs : s.runPost = some s') : Accounting s' := by
  unfold TcpSession.runPost at hs
  split at hs
  · exact absurd hs (by simp)
  · next p ps hposts =>
      obtain rfl := Option.some.inj hs
      cases p with
      | request msg prom => exact h.runRequest hposts
      | rspMsg msg ref => exact h.runResponse hposts rfl
      | rspData msgID data ref => exact h.runResponse hposts rfl

/-- An inbound message completes at most the first pending request with its id. -/
theorem inbound (h : Accounting s) (ref : Nat) (msg : Message) :
    Accounting (s.inbound ref msg).1 := by
  rcases s.inbound_cases ref msg with ⟨ctx, hmem, hfind, hid, heq⟩ | ⟨_, heq⟩
  · obtain ⟨hstamped, hopen⟩ := h.mem_pending.mp hmem
    -- taking the first match out of the list removes exactly that promise
    have herase := eraseP_eq_filter_key h.pending_nodup hfind
    rw [heq]
    constructor
    · exact h.proms
    · exact h.handled
    · exact h.frames
    · exact h.aligned
    · show s.lstRequestCtx.eraseP _ = s.stamped.filter _
      rw [herase, h.pending, List.filter_filter]
      apply List.filter_congr
      intro c _
      rw [List.map_append, Bool.eq_iff_iff]
      simp only [Bool.and_eq_true, decide_eq_true_eq, List.mem_append, List.map_cons, List.map_nil,
        List.mem_singleton, not_or]
      exact and_comm
    · show ((s.completed ++ [_]).map Completion.prom).Nodup
      rw [List.map_append]
      refine List.nodup_append.mpr ⟨h.once, by simp, ?_⟩
      intro p hp q hq
      obtain rfl : q = ctx.prom := by simpa using hq
      exact fun hpq => hopen (hpq ▸ hp)
    · intro c hc
      rcases List.mem_append.mp hc with hc | hc
      · exact h.answered c hc
      · obtain rfl := List.mem_singleton.mp hc
        refine ⟨ctx, hstamped, rfl, Or.inl ⟨ref, rfl, ?_⟩⟩
        rw [hid]
        exact (Int64.toInt64_toUInt64 msg.id).symm
  · rw [heq]
    exact h

/-- A network error completes every pending request and no other. -/
theorem handleNetError (h : Accounting s) (what : Bytes) : Accounting (s.handleNetError what) where
  proms := h.proms
  handled := h.handled
  frames := h.frames
  aligned := h.aligned
  pending := by
    show [] = s.stamped.filter _
    symm
    rw [List.filter_eq_nil_iff]
    intro ctx hctx
    by_cases hdone : ctx.prom ∈ s.completed.map Completion.prom
    · simp [TcpSession.handleNetError, List.map_append, List.mem_append, hdone]
    · have hmem := List.mem_map_of_mem (f := RequestCtx.prom) (h.mem_pending.mpr ⟨hctx, hdone⟩)
      simp only [TcpSession.handleNetError, List.map_append, List.map_map, List.mem_append,
        decide_not, Bool.not_eq_true', decide_eq_false_iff_not, not_not]
      exact Or.inr hmem
  once := by
    show ((s.completed ++ s.lstRequestCtx.map _).map Completion.prom).Nodup
    rw [List.map_append, List.map_map]
    refine List.nodup_append.mpr ⟨h.once, h.pending_nodup, ?_⟩
    intro p hp q hq hpq
    obtain ⟨ctx, hctx, rfl⟩ := List.mem_map.mp hq
    have hprom : p = ctx.prom := hpq
    exact (h.mem_pending.mp hctx).2 (hprom ▸ hp)
  answered := by
    intro c hc
    rcases List.mem_append.mp hc with hc | hc
    · exact h.answered c hc
    · obtain ⟨ctx, hctx, rfl⟩ := List.mem_map.mp hc
      exact ⟨ctx, (h.mem_pending.mp hctx).1, rfl, Or.inr ⟨rfl, rfl⟩⟩

/-- **Every event keeps the accounting.** -/
theorem step (h : Accounting s) {e : Event} (hs : Session.step s e = some s') : Accounting s' := by
  cases e with
  | request msg => obtain rfl := Option.some.inj hs; exact h.request msg
  | queueRspMsg msg ref => obtain rfl := Option.some.inj hs; exact h.postResponse rfl
  | queueRspData msgID data ref => obtain rfl := Option.some.inj hs; exact h.postResponse rfl
  | runPost => exact h.runPost hs
  | writeSome i n =>
      obtain ⟨op, _, _, _, _, rfl⟩ := TcpSession.writeSome_spec hs
      exact h.of_same rfl rfl rfl rfl rfl rfl rfl
  | writeDone i =>
      obtain ⟨op, _, _, rfl⟩ := TcpSession.writeDone_spec hs
      rw [TcpSession.writeData_eq]
      exact h.of_same rfl rfl rfl rfl rfl rfl rfl
  | writeFail i what =>
      obtain ⟨op, _, _, rfl⟩ := TcpSession.writeFail_spec hs
      have hsame : Accounting { s with writes := s.writes.eraseIdx i } :=
        h.of_same rfl rfl rfl rfl rfl rfl rfl
      exact hsame.handleNetError what
  | inbound ref msg => obtain rfl := Option.some.inj hs; exact h.inbound ref msg
  | netError what => obtain rfl := Option.some.inj hs; exact h.handleNetError what
  | connected => obtain rfl := Option.some.inj hs; exact h.of_same rfl rfl rfl rfl rfl rfl rfl
  | startSession => obtain rfl := Option.some.inj hs; exact h.of_same rfl rfl rfl rfl rfl rfl rfl
  | stopSession => obtain rfl := Option.some.inj hs; exact h.of_same rfl rfl rfl rfl rfl rfl rfl

end Accounting

/-- The accounting holds in every reachable state of a fresh session. -/
theorem accounting_run {es : List Event} {s : TcpSession} (h : run step {} es = some s) :
    Accounting s :=
  inv_run Accounting.init (fun _ _ _ ht he => ht.step he) h

/-! ## Who completes a promise -/

/-- The network error that an event reports to the session. -/
def Event.netError? : Event → Option Bytes
  | .netError what => some what
  | .writeFail _ what => some what
  | _ => none

/-- `c` is what the event `e` gives to the pending request `ctx`: the inbound message with the
stamped id, or the message of the network error that `e` reports, with return code -1. -/
def CompletedBy (ctx : RequestCtx) (c : Completion) (e : Event) : Prop :=
  (∃ ref, e = .inbound ref c.msg ∧ c.msg.id = ctx.msgID.toInt64) ∨
    (∃ what, e.netError? = some what ∧ c.msg = TcpSession.netErrorMsg what ∧ c.msg.returnCode = -1)

/-- The completions of one step, each of a request that was pending before it. -/
theorem completed_step {s s' : TcpSession} {e : Event} (hs : step s e = some s') {c : Completion}
    (hc : c ∈ s'.completed) :
    c ∈ s.completed ∨ ∃ ctx ∈ s.lstRequestCtx, ctx.prom = c.prom ∧ CompletedBy ctx c e := by
  -- a network error completes exactly the pending requests
  have hfail : ∀ (t : TcpSession) (what : Bytes), c ∈ (t.handleNetError what).completed →
      e.netError? = some what → t.completed = s.completed → t.lstRequestCtx = s.lstRequestCtx →
      c ∈ s.completed ∨ ∃ ctx ∈ s.lstRequestCtx, ctx.prom = c.prom ∧ CompletedBy ctx c e := by
    intro t what hc he hcompleted hlst
    rcases List.mem_append.mp hc with hc | hc
    · exact Or.inl (hcompleted ▸ hc)
    · obtain ⟨ctx, hctx, rfl⟩ := List.mem_map.mp hc
      exact Or.inr ⟨ctx, hlst ▸ hctx, rfl, Or.inr ⟨what, he, rfl, rfl⟩⟩
  cases e with
  | inbound ref msg =>
      obtain rfl := Option.some.inj hs
      rcases s.inbound_cases ref msg with ⟨ctx, hmem, _, hid, heq⟩ | ⟨_, heq⟩
      · rw [heq] at hc
        rcases List.mem_append.mp hc with hc | hc
        · exact Or.inl hc
        · obtain rfl := List.mem_singleton.mp hc
          refine Or.inr ⟨ctx, hmem, rfl, Or.inl ⟨ref, rfl, ?_⟩⟩
          rw [hid]
          exact (Int64.toInt64_toUInt64 msg.id).symm
      · rw [heq] at hc
        exact Or.inl hc
  | netError what =>
      obtain rfl := Option.some.inj hs
      exact hfail s what hc rfl rfl rfl
  | writeFail i what =>
      obtain ⟨op, _, _, rfl⟩ := TcpSession.writeFail_spec hs
      exact hfail _ what hc rfl rfl rfl
  | runPost =>
      obtain ⟨_, _, _, _, _, _, _, _, _, _, hcompleted⟩ := TcpSession.runPost_spec hs
      exact Or.inl (hcompleted ▸ hc)
  | writeSome i n =>
      obtain ⟨op, _, _, _, _, rfl⟩ := TcpSession.writeSome_spec hs
      exact Or.inl hc
  | writeDone i =>
      obtain ⟨op, _, _, rfl⟩ := TcpSession.writeDone_spec hs
      rw [TcpSession.writeData_eq] at hc
      exact Or.inl hc
  | request msg => obtain rfl := Option.some.inj hs; exact Or.inl hc
  | queueRspMsg msg ref => obtain rfl := Option.some.inj hs; exact Or.inl hc
  | queueRspData msgID data ref => obtain rfl := Option.some.inj hs; exact Or.inl hc
  | connected => obtain rfl := Option.some.inj hs; exact Or.inl hc
  | startSession => obtain rfl := Option.some.inj hs; exact Or.inl hc
  | stopSession => obtain rfl := Option.some.inj hs; exact Or.inl hc

/-- A stamped request stays stamped. -/
theorem stamped_step {s s' : TcpSession} {e : Event} (hs : step s e = some s') :
    s.stamped ⊆ s'.stamped := by
  cases e with
  | runPost =>
      obtain ⟨p, ps, _, rfl, _⟩ := TcpSession.runPost_spec hs
      cases p <;> simp [TcpSession.runHandler, TcpSession.pushFrame_eq]
  | inbound ref msg =>
      obtain rfl := Option.some.inj hs
      rcases s.inbound_cases ref msg with ⟨_, _, _, _, heq⟩ | ⟨_, heq⟩ <;> rw [heq] <;>
        exact List.Subset.refl _
  | writeSome i n =>
      obtain ⟨_, _, _, _, _, rfl⟩ := TcpSession.writeSome_spec hs
      exact List.Subset.refl _
  | writeDone i =>
      obtain ⟨_, _, _, rfl⟩ := TcpSession.writeDone_spec hs
      rw [TcpSession.writeData_eq]
      exact List.Subset.refl _
  | writeFail i what =>
      obtain ⟨_, _, _, rfl⟩ := TcpSession.writeFail_spec hs
      exact List.Subset.refl _
  | _ => obtain rfl := Option.some.inj hs; exact List.Subset.refl _

/-- Every completion of a run was made by one of its events, while the request was pending. -/
theorem completed_run {es : List Event} {s : TcpSession} (h : run step {} es = some s) :
    ∀ c ∈ s.completed, ∃ pre e post t ctx, es = pre ++ e :: post ∧ run step {} pre = some t ∧
      ctx ∈ t.lstRequestCtx ∧ ctx ∈ s.stamped ∧ ctx.prom = c.prom ∧ CompletedBy ctx c e := by
  refine run_induction (P := fun es s => ∀ c ∈ s.completed, ∃ pre e post t ctx,
    es = pre ++ e :: post ∧ run step {} pre = some t ∧ ctx ∈ t.lstRequestCtx ∧
      ctx ∈ s.stamped ∧ ctx.prom = c.prom ∧ CompletedBy ctx c e) (by simp) ?_ h
  intro es e t t' ht ih he c hc
  have hgrow := stamped_step he
  rcases completed_step he hc with hc | ⟨ctx, hctx, hprom, hby⟩
  · obtain ⟨pre, e', post, u, ctx, rfl, hu, hctx, hstamped, hprom, hby⟩ := ih c hc
    exact ⟨pre, e', post ++ [e], u, ctx, by simp, hu, hctx, hgrow hstamped, hprom, hby⟩
  · have hstamped : ctx ∈ t.stamped := ((accounting_run ht).mem_pending.mp hctx).1
    exact ⟨es, e, [], t, ctx, rfl, ht, hctx, hgrow hstamped, hprom, hby⟩

/-! ## The accounting of promises across failures -/

/-- **Promise accounting.** In every run of a session: no promise is completed twice; the pending
list is exactly the requests whose posted handler has run and which are not completed, each of which
was queued with its stamped id; every completion was made while its request was pending, by the
inbound message with the stamped id or by a network error with return code -1; and an inbound message
whose id no pending request has changes nothing. -/
theorem promise_accounting (es : List Event) {s : TcpSession} (h : run step {} es = some s) :
    (s.completed.map Completion.prom).Nodup ∧
    (s.stamped.map RequestCtx.prom = s.ran.filterMap Post.prom? ∧
      s.lstRequestCtx =
        s.stamped.filter fun ctx => ctx.prom ∉ s.completed.map Completion.prom) ∧
    (∀ ctx ∈ s.stamped, ∃ (n : UInt32) (msg : Message), ctx.msgID = n.toUInt64 ∧
      frameOf n (.request msg ctx.prom) ∈ s.queued) ∧
    (∀ c ∈ s.completed, ∃ pre e post t ctx, es = pre ++ e :: post ∧ run step {} pre = some t ∧
      ctx ∈ t.lstRequestCtx ∧ ctx ∈ s.stamped ∧ ctx.prom = c.prom ∧ CompletedBy ctx c e) ∧
    (∀ ref msg, (∀ ctx ∈ s.lstRequestCtx, ctx.msgID ≠ msg.id.toUInt64) →
      (s.inbound ref msg).1 = s) := by
  have hacc := accounting_run h
  refine ⟨hacc.once, ⟨hacc.handled, hacc.pending⟩, ?_, completed_run h, ?_⟩
  · intro ctx hctx
    obtain ⟨n, msg, hid, _, hf⟩ := hacc.frames ctx hctx
    exact ⟨n, msg, hid, hf⟩
  · intro ref msg hnone
    rcases s.inbound_cases ref msg with ⟨ctx, hmem, _, hid, _⟩ | ⟨_, heq⟩
    · exact absurd hid (hnone ctx hmem)
    · rw [heq]

/-- A run with an answer, a duplicate of it, and two network errors for one connection loss: the
first request is completed by its answer, the second by the first error. -/
theorem promise_accounting_twoErrors :
    ∃ s, run step {} [.connected, .startSession, .request {}, .request {}, .runPost, .runPost,
        .inbound 0 { id := 1 }, .inbound 1 { id := 1 }, .netError [], .netError []] = some s ∧
      s.completed.map Completion.prom = [0, 1] ∧ (s.completed.map Completion.prom).Nodup :=
  ⟨_, rfl, rfl, (promise_accounting [.connected, .startSession, .request {}, .request {},
    .runPost, .runPost, .inbound 0 { id := 1 }, .inbound 1 { id := 1 }, .netError [],
    .netError []] rfl).1⟩

end AdManager.Session
