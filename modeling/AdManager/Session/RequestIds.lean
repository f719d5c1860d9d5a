/-
# AdManager.Session.RequestIds — the ids of the pending requests.

`request` stamps a message with `_msgID++`. The counter is a `uint32_t`, the stored and the transmitted
id have 64 bits; requests have no timeout, and neither a network error nor a reconnection resets the
counter. So an id comes back after 2^32 requests, and is given out again whether or not the request that
has it is still pending.

A promise is named by the number of its `request()` call, and requests are stamped in that order: the
request with promise `n` has the id `idOf n`, and two ids agree when the promises are a multiple of 2^32
apart. The rest is the accounting of `AdManager.Session.Promises`.
-/
import AdManager.Session.Promises

namespace AdManager.Session

open AdManager.Wire AdManager.Lib
open TcpSession (ctxOf answers)

/-! ## The ids given out -/

/-- The id of the request with promise `n`: the counter starts at 1. -/
def idOf (n : Nat) : UInt64 := (UInt32.ofNat (n + 1)).toUInt64

theorem idOf_eq_iff {m n : Nat} (hmn : m ≤ n) : idOf m = idOf n ↔ 2 ^ 32 ∣ n - m := by
  have hid : ∀ k, (idOf k).toNat = (k + 1) % 2 ^ 32 := fun k => by simp [idOf]
  rw [← UInt64.toNat_inj, hid, hid]
  omega

/-- What an event does to the requests that are stamped and pending: either the posted handler of a
request has run, or nothing was stamped and nothing new is pending. -/
theorem stamped_cases {s s' : TcpSession} {e : Event} (hs : step s e = some s') :
    (∃ msg prom ps, e = .runPost ∧ s.posts = .request msg prom :: ps ∧
      s'.stamped = s.stamped ++ [ctxOf s.msgID msg prom] ∧
      s'.lstRequestCtx = s.lstRequestCtx ++ [ctxOf s.msgID msg prom] ∧ s'.msgID = s.msgID + 1) ∨
    ((∀ msg prom ps, e = .runPost → s.posts ≠ .request msg prom :: ps) ∧
      s'.stamped = s.stamped ∧ s'.lstRequestCtx.Sublist s.lstRequestCtx ∧ s'.msgID = s.msgID) := by
  cases e with
  | runPost =>
      obtain ⟨p, ps, hposts, rfl, _⟩ := TcpSession.runPost_spec hs
      cases p with
      | request msg prom =>
          refine Or.inl ⟨msg, prom, ps, rfl, hposts, ?_⟩
          rw [TcpSession.runHandler_request, TcpSession.pushFrame_eq]
          exact ⟨rfl, rfl, rfl⟩
      | rspMsg msg ref =>
          refine Or.inr ⟨fun _ _ _ _ h => by simp [hposts] at h, ?_⟩
          rw [TcpSession.runHandler_response _ rfl, TcpSession.pushFrame_eq]
          exact ⟨rfl, List.Sublist.refl _, rfl⟩
      | rspData msgID data ref =>
          refine Or.inr ⟨fun _ _ _ _ h => by simp [hposts] at h, ?_⟩
          rw [TcpSession.runHandler_response _ rfl, TcpSession.pushFrame_eq]
          exact ⟨rfl, List.Sublist.refl _, rfl⟩
  | inbound ref msg =>
      obtain rfl := Option.some.inj hs
      refine Or.inr ⟨fun _ _ _ h => by simp at h, ?_⟩
      rcases s.inbound_cases ref msg with ⟨_, _, _, _, heq⟩ | ⟨_, heq⟩
      · rw [heq]
        exact ⟨rfl, List.eraseP_sublist, rfl⟩
      · rw [heq]
        exact ⟨rfl, List.Sublist.refl _, rfl⟩
  | writeSome i n =>
      obtain ⟨_, _, _, _, _, rfl⟩ := TcpSession.writeSome_spec hs
      exact Or.inr ⟨fun _ _ _ h => by simp at h, rfl, List.Sublist.refl _, rfl⟩
  | writeDone i =>
      obtain ⟨_, _, _, rfl⟩ := TcpSession.writeDone_spec hs
      rw [TcpSession.writeData_eq]
      exact Or.inr ⟨fun _ _ _ h => by simp at h, rfl, List.Sublist.refl _, rfl⟩
  | writeFail i what =>
      obtain ⟨_, _, _, rfl⟩ := TcpSession.writeFail_spec hs
      exact Or.inr ⟨fun _ _ _ h => by simp at h, rfl, List.nil_sublist _, rfl⟩
  | netError what =>
      obtain rfl := Option.some.inj hs
      exact Or.inr ⟨fun _ _ _ h => by simp at h, rfl, List.nil_sublist _, rfl⟩
  | _ =>
      obtain rfl := Option.some.inj hs
      exact Or.inr ⟨fun _ _ _ h => by simp at h, rfl, List.Sublist.refl _, rfl⟩

/-- **The numbering.** The counter is at the number of requests stamped, and every id is that of its
promise. -/
structure Numbered (s : TcpSession) : Prop where
  accounting : Accounting s
  counter : s.msgID = UInt32.ofNat (s.stamped.length + 1)
  ids : ∀ ctx ∈ s.stamped, ctx.msgID = idOf ctx.prom

namespace Numbered

variable {s s' : TcpSession}

/-- The stamped promises are the first ones. -/
theorem proms (h : Numbered s) :
    s.stamped.map RequestCtx.prom = List.range s.stamped.length := by
  have hlen : s.stamped.length ≤ s.nextProm := by
    have hproms := congrArg List.length h.accounting.proms
    simp only [List.length_append, List.length_map, List.length_range] at hproms
    omega
  have htake := congrArg (List.take s.stamped.length) h.accounting.proms
  rwa [List.take_append_of_le_length (by simp), List.take_of_length_le (by simp),
    List.take_range, Nat.min_eq_left hlen] at htake

theorem prom_lt (h : Numbered s) {ctx : RequestCtx} (hctx : ctx ∈ s.stamped) :
    ctx.prom < s.stamped.length := by
  have hmem := List.mem_map_of_mem (f := RequestCtx.prom) hctx
  rwa [h.proms, List.mem_range] at hmem

/-- The request posted first is the next one to be stamped. -/
theorem posted_prom (h : Numbered s) {msg : Message} {prom : Nat} {ps : List Post}
    (hposts : s.posts = .request msg prom :: ps) : prom = s.stamped.length := by
  have hnext : (List.range s.nextProm)[s.stamped.length]? = some prom := by
    rw [← h.accounting.proms, hposts, List.getElem?_append_right (by simp)]
    simp [Post.prom?]
  obtain ⟨_, hget⟩ := List.getElem?_eq_some_iff.mp hnext
  rw [← hget, List.getElem_range]

theorem init : Numbered {} where
  accounting := Accounting.init
  counter := rfl
  ids := by simp

theorem step (h : Numbered s) {e : Event} (hs : Session.step s e = some s') : Numbered s' where
  accounting := h.accounting.step hs
  counter := by
    rcases stamped_cases hs with ⟨msg, prom, ps, _, _, hstamped, _, hid⟩ | ⟨_, hstamped, _, hid⟩
    · rw [hid, hstamped, h.counter, List.length_append, List.length_singleton]
      exact (UInt32.ofNat_add (s.stamped.length + 1) 1).symm
    · rw [hid, hstamped, h.counter]
  ids := by
    intro ctx hctx
    rcases stamped_cases hs with ⟨msg, prom, ps, _, hposts, hstamped, _, _⟩ | ⟨_, hstamped, _, _⟩
    · rw [hstamped] at hctx
      rcases List.mem_append.mp hctx with hctx | hctx
      · exact h.ids ctx hctx
      · obtain rfl := List.mem_singleton.mp hctx
        rw [ctxOf, h.counter, h.posted_prom hposts, idOf]
    · exact h.ids ctx (hstamped ▸ hctx)

/-- A pending request is one of those stamped. -/
theorem pending (h : Numbered s) {ctx : RequestCtx} (hctx : ctx ∈ s.lstRequestCtx) :
    ctx.prom < s.stamped.length ∧ ctx.msgID = idOf ctx.prom := by
  have hstamped := (h.accounting.mem_pending.mp hctx).1
  exact ⟨h.prom_lt hstamped, h.ids ctx hstamped⟩

end Numbered

/-! ## Unique ids -/

/-- **The ids of the pending requests are distinct**, and a response with the id of one of them completes
that one. -/
structure UniqueIds (s : TcpSession) : Prop where
  distinct : (s.lstRequestCtx.map RequestCtx.msgID).Nodup
  completes : ∀ ctx ∈ s.lstRequestCtx, ∀ ref msg, msg.id.toUInt64 = ctx.msgID →
    (s.inbound ref msg).1.completed =
      s.completed ++ [{ prom := ctx.prom, msg := msg, source := some ref }]

/-- Distinct ids are enough. -/
theorem uniqueIds_of_distinct {s : TcpSession} (h : (s.lstRequestCtx.map RequestCtx.msgID).Nodup) :
    UniqueIds s where
  distinct := h
  completes := by
    intro ctx hctx ref msg hid
    rcases s.inbound_cases ref msg with ⟨ctx', hctx', _, hid', heq⟩ | ⟨hnone, _⟩
    · rw [heq, List.inj_on_of_nodup_map h hctx' hctx (hid'.trans hid)]
    · exact absurd hid.symm (hnone ctx hctx)

/-- When a request is stamped, no pending request was stamped a multiple of 2^32 requests before. -/
def FreshId (s : TcpSession) : Event → Prop
  | .runPost =>
      match s.posts with
      | .request _ _ :: _ => ∀ ctx ∈ s.lstRequestCtx, ¬ 2 ^ 32 ∣ s.stamped.length - ctx.prom
      | _ => True
  | _ => True

theorem freshId_request {s : TcpSession} {msg : Message} {prom : Nat} {ps : List Post}
    (hposts : s.posts = .request msg prom :: ps) :
    FreshId s .runPost ↔ ∀ ctx ∈ s.lstRequestCtx, ¬ 2 ^ 32 ∣ s.stamped.length - ctx.prom := by
  simp only [FreshId, hposts]

theorem freshId_other {s : TcpSession} {e : Event}
    (h : ∀ msg prom ps, e = .runPost → s.posts ≠ .request msg prom :: ps) : FreshId s e := by
  cases e with
  | runPost =>
      simp only [FreshId]
      split
      · next msg prom ps hposts => exact absurd hposts (h msg prom ps rfl)
      · trivial
  | _ => trivial

instance (s : TcpSession) (e : Event) : Decidable (FreshId s e) :=
  match e with
  | .runPost =>
      match h : s.posts with
      | .request _ _ :: _ =>
          @decidable_of_iff _ _ (freshId_request h).symm (List.decidableBAll _ _)
      | .rspMsg _ _ :: _ => isTrue (freshId_other fun _ _ _ _ hc => by simp [h] at hc)
      | .rspData _ _ _ :: _ => isTrue (freshId_other fun _ _ _ _ hc => by simp [h] at hc)
      | [] => isTrue (freshId_other fun _ _ _ _ hc => by simp [h] at hc)
  | .request _ => isTrue trivial
  | .queueRspMsg _ _ => isTrue trivial
  | .queueRspData _ _ _ => isTrue trivial
  | .writeSome _ _ => isTrue trivial
  | .writeDone _ => isTrue trivial
  | .writeFail _ _ => isTrue trivial
  | .inbound _ _ => isTrue trivial
  | .netError _ => isTrue trivial
  | .connected => isTrue trivial
  | .startSession => isTrue trivial
  | .stopSession => isTrue trivial

/-- The id of the next request is that of a pending one when the two are a multiple of 2^32 apart. -/
theorem next_id_eq_iff {s : TcpSession} (h : Numbered s) {ctx : RequestCtx}
    (hctx : ctx ∈ s.lstRequestCtx) :
    ctx.msgID = s.msgID.toUInt64 ↔ 2 ^ 32 ∣ s.stamped.length - ctx.prom := by
  obtain ⟨hlt, hid⟩ := h.pending hctx
  rw [hid, h.counter, ← idOf_eq_iff hlt.le, idOf, idOf]

theorem distinct_step {s s' : TcpSession} {e : Event} (h : Numbered s)
    (hdistinct : (s.lstRequestCtx.map RequestCtx.msgID).Nodup) (hs : step s e = some s') :
    (s'.lstRequestCtx.map RequestCtx.msgID).Nodup ↔ FreshId s e := by
  rcases stamped_cases hs with ⟨msg, prom, ps, rfl, hposts, _, hlst, _⟩ | ⟨hother, _, hlst, _⟩
  · rw [freshId_request hposts, hlst, List.map_append, List.map_singleton, List.nodup_append]
    constructor
    · rintro ⟨_, _, hne⟩ ctx hctx hdvd
      exact hne ctx.msgID (List.mem_map_of_mem hctx) _ (List.mem_singleton_self _)
        ((next_id_eq_iff h hctx).mpr hdvd)
    · intro hfresh
      refine ⟨hdistinct, List.nodup_singleton _, ?_⟩
      intro id hid id' hid' heq
      obtain ⟨ctx, hctx, rfl⟩ := List.mem_map.mp hid
      obtain rfl := List.mem_singleton.mp hid'
      exact hfresh ctx hctx ((next_id_eq_iff h hctx).mp heq)
  · exact iff_of_true ((hlst.map RequestCtx.msgID).nodup hdistinct) (freshId_other hother)

/-- **Outstanding ids are unique exactly when no request is stamped while one is pending that was stamped
a multiple of 2^32 requests before it.** -/
theorem uniqueIds_iff {es : List Event} {s' : TcpSession} (h : run step {} es = some s') :
    EveryState step UniqueIds {} es ↔ EveryStep step FreshId {} es := by
  refine everyState_iff_everyStep (I := fun s => Numbered s ∧ UniqueIds s)
    ⟨Numbered.init, uniqueIds_of_distinct List.nodup_nil⟩ (fun _ ht => ht.2) ?_ ?_ h
  · intro t e t' ht he hs
    exact ⟨ht.1.step hs, uniqueIds_of_distinct ((distinct_step ht.1 ht.2.distinct hs).mpr he)⟩
  · intro t e t' ht hs hunique
    exact (distinct_step ht.1 ht.2.distinct hs).mp hunique.distinct

/-- Two requests, an answer to the first, and a third. -/
theorem uniqueIds_answered :
    EveryState step UniqueIds {} [.request {}, .request {}, .runPost, .runPost, .inbound 0 { id := 1 },
      .request {}, .runPost] :=
  (uniqueIds_iff rfl).mpr (by decide +kernel)

/-! ## A counter that has come round -/

/-- `n` requests, each stamped and none answered. -/
def requests (n : Nat) : List Event := (List.replicate n [Event.request {}, Event.runPost]).flatten

theorem requests_run (n : Nat) : ∃ s, run step {} (requests n) = some s ∧ s.posts = [] ∧
    s.completed = [] ∧ s.stamped.length = n := by
  induction n with
  | zero => exact ⟨{}, rfl, rfl, rfl, rfl⟩
  | succ n ih =>
      obtain ⟨s, hs, hposts, hcompleted, hlen⟩ := ih
      have hsplit : requests (n + 1) = requests n ++ [.request {}, .runPost] := by
        rw [requests, List.replicate_succ', List.flatten_append, requests, List.flatten_singleton]
      have hrequest : (s.request {}).posts = [.request {} s.nextProm] := by
        rw [TcpSession.request, hposts]
        rfl
      have hpost : (s.request {}).runPost =
          some (TcpSession.runHandler { s.request {} with posts := [] } (.request {} s.nextProm)) := by
        rw [TcpSession.runPost, hrequest]
      obtain ⟨p, ps, hcons, hs', hrest, _, _, _, _, _, hdone⟩ := TcpSession.runPost_spec hpost
      refine ⟨_, ?_, ?_, hdone.trans hcompleted, ?_⟩
      · rw [hsplit]
        exact run_append_eq_some.mpr ⟨s, hs, run_cons_eq_some.mpr ⟨s.request {}, rfl,
          run_cons_eq_some.mpr ⟨_, hpost, rfl⟩⟩⟩
      · rw [hrequest] at hcons
        rw [hrest, (List.cons.inj hcons).2]
      · rw [TcpSession.runHandler_request, TcpSession.pushFrame_eq]
        simp [TcpSession.request, hlen]

/-- After one request more than there are values of the counter, with none answered, two pending requests
have one id. -/
theorem requests_not_distinct {n : Nat} {s : TcpSession} (hn : 2 ^ 32 < n)
    (h : run step {} (requests n) = some s) : ¬ (s.lstRequestCtx.map RequestCtx.msgID).Nodup := by
  obtain ⟨s', hs', _, hcompleted, hlen⟩ := requests_run n
  obtain rfl : s' = s := Option.some.inj (hs'.symm.trans h)
  have hnumbered : Numbered s' := inv_run Numbered.init (fun _ _ _ ht he => ht.step he) h
  have hpending : s'.lstRequestCtx = s'.stamped := by
    rw [hnumbered.accounting.pending, hcompleted]
    simp
  have hids : s'.lstRequestCtx.map RequestCtx.msgID = (List.range n).map idOf := by
    rw [hpending, ← hlen, ← hnumbered.proms, List.map_map]
    exact List.map_congr_left fun ctx hctx => hnumbered.ids ctx hctx
  rw [hids]
  intro hnodup
  have hzero : 0 ∈ List.range n := List.mem_range.mpr (by omega)
  have hround : 2 ^ 32 ∈ List.range n := List.mem_range.mpr hn
  have hsame : idOf 0 = idOf (2 ^ 32) := (idOf_eq_iff (Nat.zero_le _)).mpr (dvd_refl _)
  exact absurd (List.inj_on_of_nodup_map hnodup hzero hround hsame) (by omega)

/-- 2^32 + 1 requests without an answer. -/
theorem uniqueIds_wraps :
    ∃ s, run step {} (requests 4294967297) = some s ∧ ¬ (s.lstRequestCtx.map RequestCtx.msgID).Nodup ∧
      ¬ EveryState step UniqueIds {} (requests 4294967297) := by
  obtain ⟨s, hs, _, _, _⟩ := requests_run 4294967297
  have hsame := requests_not_distinct (by omega) hs
  refine ⟨s, hs, hsame, fun h => hsame ?_⟩
  exact (h (requests 4294967297) [] s (List.append_nil _).symm hs).distinct

end AdManager.Session
