/-
# AdManager.Link.Matching — when two asking and answering ends stay matched.

The invariant `Agree s o` ties the end `s` to the frames queued at the other end `o`. Every frame
carries a message whose id is the number of the request it makes or answers; every inbound request is
in one place, unanswered in the inbox, in a posted answer, or in a queued one; and what has been
completed and handled is told apart. A request stays pending until the frame that answers it is
dispatched, so that frame finds it as long as no other pending request has its number.
-/
import AdManager.Link.Duplex
import Mathlib.Data.List.Perm.Basic

namespace AdManager.Link

open AdManager.Wire AdManager.Lib AdManager.Session
open TcpSession (frameOf ctxOf)

/-! ## Frames that carry the right id -/

/-- The frame `j` of `fs` makes a request, and `id` is its number. -/
def RequestAt (fs : List QueuedFrame) (j : Nat) (id : Int64) : Prop :=
  ∃ g ctx, fs[j]? = some g ∧ g.origin = .request ctx ∧ id = ctx.msgID.toInt64

/-- The frame `f` carries a message with the number of the request that it makes, or that it answers
among the frames `fs` of the other end. -/
def Sound (fs : List QueuedFrame) (f : QueuedFrame) : Prop :=
  ∃ m : Message, m.WellFormed ∧ f.body = m.serialize ∧
    (∀ ctx, f.origin = .request ctx → m.id = ctx.msgID.toInt64) ∧
    ∀ j, f.origin = .response j → RequestAt fs j m.id

/-- The same for a posted handler, which has no number yet when it is a request. -/
def SoundPost (fs : List QueuedFrame) : Post → Prop
  | .request msg _ => msg.WellFormed
  | .rspMsg msg ref => msg.WellFormed ∧ RequestAt fs ref msg.id
  | .rspData msgID data ref =>
      (∃ m : Message, m.WellFormed ∧ m.id = 0 ∧ data = m.serialize) ∧
        RequestAt fs ref msgID.toInt64

variable {fs fs' : List QueuedFrame}

theorem RequestAt.mono (h : fs <+: fs') {j : Nat} {id : Int64} (hj : RequestAt fs j id) :
    RequestAt fs' j id := by
  obtain ⟨g, ctx, hg, hctx, hid⟩ := hj
  exact ⟨g, ctx, getElem?_of_prefix h hg, hctx, hid⟩

theorem Sound.mono (h : fs <+: fs') {f : QueuedFrame} (hf : Sound fs f) : Sound fs' f := by
  obtain ⟨m, hwf, hbody, hreq, hrsp⟩ := hf
  exact ⟨m, hwf, hbody, hreq, fun j hj => (hrsp j hj).mono h⟩

theorem SoundPost.mono (h : fs <+: fs') {p : Post} (hp : SoundPost fs p) : SoundPost fs' p := by
  cases p with
  | request msg prom => exact hp
  | rspMsg msg ref => exact ⟨hp.1, hp.2.mono h⟩
  | rspData msgID data ref => exact ⟨hp.1, hp.2.mono h⟩

/-- A posted handler that is sound queues a sound frame. -/
theorem SoundPost.frameOf {p : Post} (hp : SoundPost fs p) (n : UInt32) :
    Sound fs (TcpSession.frameOf n p) := by
  cases p with
  | request msg prom =>
      refine ⟨{ msg with id := n.toUInt64.toInt64 }, ⟨hp.method, hp.returnMsg⟩,
        frameOf_request_body n msg prom, ?_, ?_⟩
      · rintro ctx ⟨⟩
        rfl
      · rintro j ⟨⟩
  | rspMsg msg ref =>
      refine ⟨msg, hp.1, frameOf_rspMsg_body n msg ref, ?_, ?_⟩
      · rintro ctx ⟨⟩
      · rintro j ⟨⟩
        exact hp.2
  | rspData msgID data ref =>
      obtain ⟨⟨m, hwf, h0, rfl⟩, hat⟩ := hp
      refine ⟨{ m with id := msgID.toInt64 }, ⟨hwf.method, hwf.returnMsg⟩,
        frameOf_rspData_body n msgID h0 ref, ?_, ?_⟩
      · rintro ctx ⟨⟩
      · rintro j ⟨⟩
        exact hat

/-- A queued frame answers what its posted handler answers. -/
theorem frameOf_ref? (n : UInt32) (p : Post) : (frameOf n p).origin.ref? = p.ref? := by
  cases p <;> rfl

/-! ## The invariant -/

section Agree

variable (skipField : UInt32 → Bytes → Option Bytes)

/-- The parser of the receive loop. -/
abbrev parser : Bytes → Option Message := Message.parseFromArray skipField

/-- The inbound requests of an end that it has answered, is answering, or has still to answer. -/
def refs (s : Peer) : List Nat :=
  s.session.queued.filterMap (fun f => f.origin.ref?) ++
    (s.session.posts.filterMap Post.ref? ++ s.inbox.map Prod.fst)

/-- **The end `s` agrees with the frames of the end `o`.** -/
structure Agree (s o : Peer) : Prop where
  channel : Channel (parser skipField) o.session s.receiver
  accounting : Accounting s.session
  bounded : s.inCount ≤ o.session.queued.length
  frames : ∀ f ∈ s.session.queued, Sound o.session.queued f
  posts : ∀ p ∈ s.session.posts, SoundPost o.session.queued p
  inbox : ∀ e ∈ s.inbox, RequestAt o.session.queued e.1 e.2.id
  refsOnce : (refs s).Nodup
  refsHeard : ∀ j ∈ refs s, j < s.inCount
  numbers : s.pendingIDs.Nodup
  completed : ∀ c ∈ s.session.completed, ∃ k, c.source = some k ∧ k < s.inCount
  handled : ∀ e ∈ s.handled, e.1 < s.inCount
  toldApart : ToldApart (parser skipField) s o

end Agree

/-- The frames of an end are shorter than 2^31 bytes, the limit of protobuf. -/
def Sized (s : Peer) : Prop := ∀ f ∈ s.session.queued, f.body.length < 2 ^ 31

instance (s : Peer) : Decidable (Sized s) :=
  inferInstanceAs (Decidable (∀ f ∈ s.session.queued, f.body.length < 2 ^ 31))

namespace Agree

variable {skipField : UInt32 → Bytes → Option Bytes} {s s' o o' : Peer}

theorem init : Agree skipField {} {} where
  channel := Channel.init
  accounting := Accounting.init.of_same rfl rfl rfl rfl rfl rfl rfl
  bounded := Nat.le_refl _
  frames := by simp [established, TcpSession.startSession, TcpSession.connected]
  posts := by simp [established, TcpSession.startSession, TcpSession.connected]
  inbox := by simp
  refsOnce := List.nodup_nil
  refsHeard := by simp [refs, established, TcpSession.startSession, TcpSession.connected]
  numbers := List.nodup_nil
  completed := by simp [established, TcpSession.startSession, TcpSession.connected]
  handled := by simp
  toldApart := by
    constructor
    · simp [established, TcpSession.startSession, TcpSession.connected]
    · simp [Receiver.started, Receiver.readHead]
    · simp
    · simp

/-- Sound frames of bounded size parse to the message they carry. -/
theorem parses {f : QueuedFrame} {fs : List QueuedFrame} (hf : Sound fs f)
    (hsize : f.body.length < 2 ^ 31) : ∃ m, parser skipField f.body = some m ∧
      (∀ ctx, f.origin = .request ctx → m.id = ctx.msgID.toInt64) ∧
      ∀ j, f.origin = .response j → RequestAt fs j m.id := by
  obtain ⟨m, hwf, hbody, hreq, hrsp⟩ := hf
  rw [hbody] at hsize
  exact ⟨m, by rw [hbody]; exact Message.parse_serialize skipField hwf hsize, hreq, hrsp⟩

theorem parses_all (h : Agree skipField s o) (hsize : Sized s) :
    ∀ f ∈ s.session.queued, (parser skipField f.body).isSome := by
  intro f hf
  obtain ⟨m, hm, _⟩ := parses (h.frames f hf) (hsize f hf)
  rw [hm]
  rfl

/-! ## Steps of the other end -/

/-- The other end queues more frames: what has been matched stays matched. -/
theorem grow (h : Agree skipField s o) (hq : o.session.queued <+: o'.session.queued)
    (hch : Channel (parser skipField) o'.session s.receiver) : Agree skipField s o' where
  channel := hch
  accounting := h.accounting
  bounded := h.bounded.trans hq.length_le
  frames := fun f hf => (h.frames f hf).mono hq
  posts := fun p hp => (h.posts p hp).mono hq
  inbox := fun e he => (h.inbox e he).mono hq
  refsOnce := h.refsOnce
  refsHeard := h.refsHeard
  numbers := h.numbers
  completed := h.completed
  handled := h.handled
  toldApart := by
    constructor
    · intro c hc
      obtain ⟨k, j, f, g, ctx, hk, hf, hrest⟩ := h.toldApart.answered c hc
      exact ⟨k, j, f, g, ctx, hk, getElem?_of_prefix hq hf, hrest⟩
    · intro k m f ctx hm hf hctx
      -- the frame of a message already dispatched was already queued
      have hlt : k < o.session.queued.length :=
        Nat.lt_of_lt_of_le (List.getElem?_eq_some_iff.mp hm).1 h.bounded
      have hold : o.session.queued[k]? = some o.session.queued[k] := List.getElem?_eq_getElem hlt
      have hsame : f = o.session.queued[k] := by
        have hnew := getElem?_of_prefix hq hold
        rw [hf] at hnew
        exact Option.some.inj hnew
      exact h.toldApart.delivered k m f ctx hm (hsame ▸ hold) hctx
    · intro e he
      obtain ⟨f, ctx, hf, hctx⟩ := h.toldApart.onlyRequests e he
      exact ⟨f, ctx, getElem?_of_prefix hq hf, hctx⟩
    · exact h.toldApart.once

/-! ## Steps of this end that dispatch nothing -/

/-- A step that dispatches nothing, completes nothing and only moves answers on. -/
theorem of_refs (h : Agree skipField s o) (hreceiver : s'.receiver = s.receiver)
    (hhandled : s'.handled = s.handled) (hcompleted : s'.session.completed = s.session.completed)
    (hacc : Accounting s'.session) (hqueued : s.session.queued <+: s'.session.queued)
    (hframes : ∀ f ∈ s'.session.queued, Sound o.session.queued f)
    (hposts : ∀ p ∈ s'.session.posts, SoundPost o.session.queued p)
    (hinbox : ∀ e ∈ s'.inbox, RequestAt o.session.queued e.1 e.2.id)
    (hrefs : (refs s').Perm (refs s)) (hnumbers : s'.pendingIDs.Nodup) : Agree skipField s' o where
  channel := by rw [hreceiver]; exact h.channel
  accounting := hacc
  bounded := by rw [Peer.inCount, hreceiver]; exact h.bounded
  frames := hframes
  posts := hposts
  inbox := hinbox
  refsOnce := hrefs.nodup_iff.mpr h.refsOnce
  refsHeard := by
    intro j hj
    rw [Peer.inCount, hreceiver]
    exact h.refsHeard j (hrefs.mem_iff.mp hj)
  numbers := hnumbers
  completed := by rw [hcompleted, Peer.inCount, hreceiver]; exact h.completed
  handled := by rw [hhandled, Peer.inCount, hreceiver]; exact h.handled
  toldApart := by
    constructor
    · rw [hcompleted]
      intro c hc
      obtain ⟨k, j, f, g, ctx, hk, hf, hj, hg, hrest⟩ := h.toldApart.answered c hc
      exact ⟨k, j, f, g, ctx, hk, hf, hj, getElem?_of_prefix hqueued hg, hrest⟩
    · rw [hreceiver, hhandled]
      exact h.toldApart.delivered
    · rw [hhandled]
      exact h.toldApart.onlyRequests
    · rw [hhandled]
      exact h.toldApart.once

theorem request (h : Agree skipField s o) {msg : Message} (hwf : msg.WellFormed) :
    Agree skipField { s with session := s.session.request msg } o := by
  refine h.of_refs rfl rfl rfl (h.accounting.request msg) (List.prefix_refl _) h.frames ?_ h.inbox
    ?_ h.numbers
  · intro p hp
    rcases List.mem_append.mp hp with hp | hp
    · exact h.posts p hp
    · obtain rfl := List.mem_singleton.mp hp
      exact hwf
  · have hposts : (s.session.posts ++ [Post.request msg s.session.nextProm]).filterMap Post.ref? =
        s.session.posts.filterMap Post.ref? := by
      rw [List.filterMap_append]
      exact List.append_nil _
    show (_ ++ ((s.session.posts ++ [_]).filterMap Post.ref? ++ _)).Perm _
    rw [hposts]
    exact List.Perm.refl _

/-- An open request is answered: it moves from the inbox to the posted handlers. -/
theorem answer (h : Agree skipField s o) {i : Nat} {e : Nat × Message} {p : Post}
    (hi : s.inbox[i]? = some e) (hp : SoundPost o.session.queued p) (href : p.ref? = some e.1)
    (hprom : p.prom? = none) :
    Agree skipField { s with
      session := { s.session with posts := s.session.posts ++ [p] }
      inbox := s.inbox.eraseIdx i } o := by
  refine h.of_refs rfl rfl rfl (h.accounting.postResponse hprom) (List.prefix_refl _) h.frames ?_
    (fun e' he' => h.inbox e' (List.mem_of_mem_eraseIdx he')) ?_ h.numbers
  · intro q hq
    rcases List.mem_append.mp hq with hq | hq
    · exact h.posts q hq
    · obtain rfl := List.mem_singleton.mp hq
      exact hp
  · obtain ⟨hlt, hget⟩ := List.getElem?_eq_some_iff.mp hi
    have hperm : (e.1 :: (s.inbox.eraseIdx i).map Prod.fst).Perm (s.inbox.map Prod.fst) := by
      have hcons := (List.getElem_cons_eraseIdx_perm hlt).map Prod.fst
      rwa [hget, List.map_cons] at hcons
    have hposts : (s.session.posts ++ [p]).filterMap Post.ref? =
        s.session.posts.filterMap Post.ref? ++ [e.1] := by
      rw [List.filterMap_append, List.filterMap_cons, href]
      rfl
    show (_ ++ ((s.session.posts ++ [p]).filterMap Post.ref? ++
      (s.inbox.eraseIdx i).map Prod.fst)).Perm _
    rw [hposts, List.append_assoc]
    exact ((hperm.append_left _).append_left _)

/-- A posted handler runs: its answer moves on to the queue, its request becomes pending with a number
that no pending request has. -/
theorem runPost (h : Agree skipField s o) {t : TcpSession} (hs : s.session.runPost = some t)
    (hC : ∀ n ∈ numberOf s o .runPost, n ∉ s.pendingIDs) :
    Agree skipField { s with session := t } o := by
  obtain ⟨p, ps, hposts, heq, hposts', hran, hqueued, _, _, _, hcompleted⟩ :=
    TcpSession.runPost_spec hs
  have hsound : SoundPost o.session.queued p := h.posts p (by rw [hposts]; exact List.mem_cons_self)
  refine h.of_refs rfl rfl hcompleted (h.accounting.runPost hs) (hqueued ▸ List.prefix_append _ _)
    ?_ ?_ h.inbox ?_ ?_
  · show ∀ f ∈ t.queued, _
    rw [hqueued]
    intro f hf
    rcases List.mem_append.mp hf with hf | hf
    · exact h.frames f hf
    · obtain rfl := List.mem_singleton.mp hf
      exact hsound.frameOf s.session.msgID
  · show ∀ q ∈ t.posts, _
    rw [hposts']
    intro q hq
    exact h.posts q (by rw [hposts]; exact List.mem_cons_of_mem _ hq)
  · have hmove : t.queued.filterMap (fun f => f.origin.ref?) ++ t.posts.filterMap Post.ref? =
        s.session.queued.filterMap (fun f => f.origin.ref?) ++
          s.session.posts.filterMap Post.ref? := by
      rw [hqueued, hposts', hposts, List.filterMap_append, List.append_assoc, List.filterMap_cons,
        List.filterMap_cons, frameOf_ref?]
      cases p.ref? <;> rfl
    show (t.queued.filterMap _ ++ (t.posts.filterMap Post.ref? ++ _)).Perm _
    rw [← List.append_assoc, hmove, List.append_assoc]
    exact List.Perm.refl _
  · show (t.lstRequestCtx.map RequestCtx.msgID).Nodup
    cases p with
    | request msg prom =>
        have hfresh : s.session.msgID.toUInt64 ∉ s.pendingIDs :=
          hC _ (by simp [numberOf, hposts, Post.prom?])
        rw [heq, TcpSession.runHandler_request, TcpSession.pushFrame_eq]
        show ((s.session.lstRequestCtx ++ [_]).map RequestCtx.msgID).Nodup
        rw [List.map_append]
        refine List.nodup_append.mpr ⟨h.numbers, by simp, ?_⟩
        intro a ha b hb hab
        obtain rfl : b = s.session.msgID.toUInt64 := by simpa [ctxOf] using hb
        exact hfresh (hab ▸ ha)
    | rspMsg msg ref =>
        rw [heq, TcpSession.runHandler_response _ rfl, TcpSession.pushFrame_eq]
        exact h.numbers
    | rspData msgID data ref =>
        rw [heq, TcpSession.runHandler_response _ rfl, TcpSession.pushFrame_eq]
        exact h.numbers

/-- A step of the writing alone. -/
theorem of_writes (h : Agree skipField s o) {t : TcpSession} (hacc : Accounting t)
    (hqueued : t.queued = s.session.queued) (hposts : t.posts = s.session.posts)
    (hlst : t.lstRequestCtx = s.session.lstRequestCtx)
    (hcompleted : t.completed = s.session.completed) : Agree skipField { s with session := t } o := by
  refine h.of_refs rfl rfl hcompleted hacc (hqueued ▸ List.prefix_refl _) ?_ ?_ h.inbox ?_ ?_
  · show ∀ f ∈ t.queued, _
    rw [hqueued]
    exact h.frames
  · show ∀ p ∈ t.posts, _
    rw [hposts]
    exact h.posts
  · show (t.queued.filterMap _ ++ (t.posts.filterMap _ ++ _)).Perm _
    rw [hqueued, hposts]
    exact List.Perm.refl _
  · show (t.lstRequestCtx.map _).Nodup
    rw [hlst]
    exact h.numbers

/-- A step of the receive loop that dispatches nothing. -/
theorem of_receiver (h : Agree skipField s o) {r : Receiver Message}
    (hdisp : r.conn.dispatched = s.receiver.conn.dispatched)
    (hch : Channel (parser skipField) o.session r) : Agree skipField { s with receiver := r } o where
  channel := hch
  accounting := h.accounting
  bounded := by rw [Peer.inCount, hdisp]; exact h.bounded
  frames := h.frames
  posts := h.posts
  inbox := h.inbox
  refsOnce := h.refsOnce
  refsHeard := by rw [Peer.inCount, hdisp]; exact h.refsHeard
  numbers := h.numbers
  completed := by rw [Peer.inCount, hdisp]; exact h.completed
  handled := by rw [Peer.inCount, hdisp]; exact h.handled
  toldApart := by
    constructor
    · exact h.toldApart.answered
    · rw [hdisp]; exact h.toldApart.delivered
    · exact h.toldApart.onlyRequests
    · exact h.toldApart.once

/-! ## A body is dispatched -/

/-- The number of a request and the id that its messages carry determine each other. -/
theorem toInt64_inj {a : UInt64} {v : Int64} (h : v = a.toInt64) : v.toUInt64 = a := by
  rw [h]
  exact UInt64.toUInt64_toInt64 a

/-- The request that an arriving answer answers is still pending: it was completed by no other
message, since it is answered once. -/
theorem answered_pending (h : Agree skipField s o) (ho : Agree skipField o s)
    {f g : QueuedFrame} {j : Nat} {ctx : RequestCtx} (hf : o.session.queued[s.inCount]? = some f)
    (hj : f.origin = .response j) (hg : s.session.queued[j]? = some g)
    (hctx : g.origin = .request ctx) : ctx ∈ s.session.lstRequestCtx := by
  have hctx? : g.origin.ctx? = some ctx := by rw [hctx]; rfl
  have hstamped : ctx ∈ s.session.stamped := by
    rw [h.accounting.aligned]
    exact List.mem_filterMap.mpr ⟨g, List.mem_of_getElem? hg, hctx?⟩
  apply h.accounting.mem_pending.mpr
  refine ⟨hstamped, ?_⟩
  intro hdone
  obtain ⟨c, hc, hprom⟩ := List.mem_map.mp hdone
  obtain ⟨k, j', f', g', ctx', hk, hf', hj', hg', hctx', hprom', _⟩ := h.toldApart.answered c hc
  obtain ⟨k', hk', hlt⟩ := h.completed c hc
  obtain rfl : k = k' := Option.some.inj (hk.symm.trans hk')
  -- the two requests are one: a promise is stamped once
  have hproms : (s.session.queued.filterMap fun f => f.origin.prom?).Nodup := by
    have hmap : (s.session.queued.filterMap fun f => f.origin.prom?) =
        s.session.stamped.map RequestCtx.prom := by
      rw [h.accounting.aligned, List.map_filterMap]
      rfl
    rw [hmap]
    exact h.accounting.stamped_nodup
  have hindex : j' = j :=
    index_eq_of_key hproms hg' hg (k := ctx.prom)
      (by rw [hctx', Origin.prom?, Origin.ctx?, Option.map_some, hprom', hprom])
      (by rw [hctx]; rfl)
  -- and it is answered by one frame only
  have hrefs : (o.session.queued.filterMap fun f => f.origin.ref?).Nodup :=
    (List.nodup_append.mp ho.refsOnce).1
  have hsame : k = s.inCount :=
    index_eq_of_key hrefs hf' hf (k := j) (by rw [hj', hindex]; rfl) (by rw [hj]; rfl)
  omega

/-- **An inbound request** goes to `_requestHandler`: no pending request has its number. -/
theorem dispatch_request (h : Agree skipField s o) {r : Receiver Message} {m : Message}
    (hch : Channel (parser skipField) o.session r)
    (hdisp : r.conn.dispatched = s.receiver.conn.dispatched ++ [m]) {f : QueuedFrame}
    (hf : o.session.queued[s.inCount]? = some f) (hm : parser skipField f.body = some m)
    {ctx : RequestCtx} (hctx : f.origin = .request ctx) (hid : m.id = ctx.msgID.toInt64)
    (hC : ctx.msgID ∉ s.pendingIDs) : Agree skipField { s.dispatch m with receiver := r } o := by
  have hin : s.session.inbound s.inCount m = (s.session, some { m with returnCode := 0 }) := by
    rcases s.session.inbound_cases s.inCount m with ⟨c, hmem, _, hc, _⟩ | ⟨_, heq⟩
    · rw [toInt64_inj hid] at hc
      exact absurd (hc ▸ List.mem_map_of_mem hmem) hC
    · exact heq
  have hcount : r.conn.dispatched.length = s.inCount + 1 := by rw [hdisp]; simp [Peer.inCount]
  have hpeer : ({ s.dispatch m with receiver := r } : Peer) = { s with
      receiver := r
      inbox := s.inbox ++ [(s.inCount, { m with returnCode := 0 })]
      handled := s.handled ++ [(s.inCount, { m with returnCode := 0 })] } := by
    rw [Peer.dispatch, hin]
    rfl
  rw [hpeer]
  have hlt : s.inCount < o.session.queued.length := (List.getElem?_eq_some_iff.mp hf).1
  constructor
  · exact hch
  · exact h.accounting
  · rw [Peer.inCount, hcount]
    exact hlt
  · exact h.frames
  · exact h.posts
  · intro e he
    rcases List.mem_append.mp he with he | he
    · exact h.inbox e he
    · obtain rfl := List.mem_singleton.mp he
      exact ⟨f, ctx, hf, hctx, hid⟩
  · show (_ ++ (_ ++ (s.inbox ++ [_]).map Prod.fst)).Nodup
    rw [List.map_append, ← List.append_assoc, ← List.append_assoc]
    refine List.nodup_append.mpr ⟨?_, by simp, ?_⟩
    · rw [List.append_assoc]
      exact h.refsOnce
    · intro a ha b hb hab
      obtain rfl : b = s.inCount := by simpa using hb
      rw [List.append_assoc] at ha
      have hlt' := h.refsHeard a ha
      omega
  · intro j hj
    rw [Peer.inCount, hcount]
    have hj' : j ∈ refs s ∨ j = s.inCount := by
      simp only [refs, List.map_append, List.mem_append] at hj ⊢
      rcases hj with hj | hj | hj | hj
      · exact Or.inl (Or.inl hj)
      · exact Or.inl (Or.inr (Or.inl hj))
      · exact Or.inl (Or.inr (Or.inr hj))
      · exact Or.inr (by simpa using hj)
    rcases hj' with hj' | rfl
    · exact (h.refsHeard j hj').trans (Nat.lt_succ_self _)
    · exact Nat.lt_succ_self _
  · exact h.numbers
  · intro c hc
    obtain ⟨k, hk, hlt'⟩ := h.completed c hc
    rw [Peer.inCount, hcount]
    exact ⟨k, hk, hlt'.trans (Nat.lt_succ_self _)⟩
  · intro e he
    rw [Peer.inCount, hcount]
    rcases List.mem_append.mp he with he | he
    · exact (h.handled e he).trans (Nat.lt_succ_self _)
    · obtain rfl := List.mem_singleton.mp he
      exact Nat.lt_succ_self _
  · constructor
    · exact h.toldApart.answered
    · intro k m' f' ctx' hk hf' hctx'
      rw [hdisp] at hk
      rcases getElem?_concat_cases hk with hk | ⟨rfl, rfl⟩
      · obtain ⟨hm', hmem⟩ := h.toldApart.delivered k m' f' ctx' hk hf' hctx'
        exact ⟨hm', List.mem_append_left _ hmem⟩
      · obtain rfl : f' = f := Option.some.inj (hf'.symm.trans hf)
        exact ⟨hm, List.mem_append_right _ (List.mem_singleton_self _)⟩
    · intro e he
      rcases List.mem_append.mp he with he | he
      · exact h.toldApart.onlyRequests e he
      · obtain rfl := List.mem_singleton.mp he
        exact ⟨f, ctx, hf, hctx⟩
    · rw [List.map_append]
      refine List.nodup_append.mpr ⟨h.toldApart.once, by simp, ?_⟩
      intro a ha b hb hab
      obtain rfl : b = s.inCount := by simpa using hb
      obtain ⟨e, he, rfl⟩ := List.mem_map.mp ha
      have hlt' := h.handled e he
      omega

/-- **An answer** completes the request that it answers, the only one pending with its number. -/
theorem dispatch_response (h : Agree skipField s o) (ho : Agree skipField o s)
    {r : Receiver Message} {m : Message} (hch : Channel (parser skipField) o.session r)
    (hdisp : r.conn.dispatched = s.receiver.conn.dispatched ++ [m]) {f : QueuedFrame}
    (hf : o.session.queued[s.inCount]? = some f) (hm : parser skipField f.body = some m)
    {j : Nat} (hj : f.origin = .response j) (hat : RequestAt s.session.queued j m.id) :
    Agree skipField { s.dispatch m with receiver := r } o := by
  obtain ⟨g, ctx, hg, hctx, hid⟩ := hat
  have hpending := h.answered_pending ho hf hj hg hctx
  have hcount : r.conn.dispatched.length = s.inCount + 1 := by rw [hdisp]; simp [Peer.inCount]
  have hlt : s.inCount < o.session.queued.length := (List.getElem?_eq_some_iff.mp hf).1
  have hacc := h.accounting.inbound s.inCount m
  rcases s.session.inbound_cases s.inCount m with ⟨c, hmem, _, hc, heq⟩ | ⟨hnone, _⟩
  · -- numbers are apart, so the one found is the one answered
    obtain rfl : c = ctx :=
      List.inj_on_of_nodup_map h.numbers hmem hpending (hc.trans (toInt64_inj hid))
    have hpeer : ({ s.dispatch m with receiver := r } : Peer) = { s with
        receiver := r
        session := { s.session with
          lstRequestCtx := s.session.lstRequestCtx.eraseP (TcpSession.answers m)
          completed := s.session.completed ++
            [{ prom := c.prom, msg := m, source := some s.inCount }] } } := by
      rw [Peer.dispatch, heq]
      simp
    rw [heq] at hacc
    rw [hpeer]
    constructor
    · exact hch
    · exact hacc
    · rw [Peer.inCount, hcount]
      exact hlt
    · exact h.frames
    · exact h.posts
    · exact h.inbox
    · exact h.refsOnce
    · intro j' hj'
      rw [Peer.inCount, hcount]
      exact (h.refsHeard j' hj').trans (Nat.lt_succ_self _)
    · exact (List.eraseP_sublist.map RequestCtx.msgID).nodup h.numbers
    · intro c' hc'
      rw [Peer.inCount, hcount]
      rcases List.mem_append.mp hc' with hc' | hc'
      · obtain ⟨k, hk, hlt'⟩ := h.completed c' hc'
        exact ⟨k, hk, hlt'.trans (Nat.lt_succ_self _)⟩
      · obtain rfl := List.mem_singleton.mp hc'
        exact ⟨s.inCount, rfl, Nat.lt_succ_self _⟩
    · intro e he
      rw [Peer.inCount, hcount]
      exact (h.handled e he).trans (Nat.lt_succ_self _)
    · constructor
      · intro c' hc'
        rcases List.mem_append.mp hc' with hc' | hc'
        · exact h.toldApart.answered c' hc'
        · obtain rfl := List.mem_singleton.mp hc'
          exact ⟨s.inCount, j, f, g, c, rfl, hf, hj, hg, hctx, rfl, hm⟩
      · intro k m' f' ctx' hk hf' hctx'
        rw [hdisp] at hk
        rcases getElem?_concat_cases hk with hk | ⟨rfl, rfl⟩
        · exact h.toldApart.delivered k m' f' ctx' hk hf' hctx'
        · -- the frame dispatched now is no request
          obtain rfl : f' = f := Option.some.inj (hf'.symm.trans hf)
          simp [hj] at hctx'
      · exact h.toldApart.onlyRequests
      · exact h.toldApart.once
  · exact absurd (toInt64_inj hid).symm (hnone ctx hpending)

/-- **The handler of a completed read keeps the ends matched**, when no pending request has the number
of the request that it dispatches. -/
theorem complete (h : Agree skipField s o) (ho : Agree skipField o s) (hsize : Sized o)
    (hs : s.complete (parser skipField) = some s')
    (hC : ∀ n ∈ numberOf s o .complete, n ∉ s.pendingIDs) : Agree skipField s' o := by
  obtain ⟨⟨r, out⟩, hr, rfl⟩ := Option.map_eq_some_iff.mp hs
  have hch := h.channel.complete hr
  have hdisp := (Receiver.complete_frame hr).1
  cases out with
  | none => exact h.of_receiver (by simpa using hdisp) hch
  | some m =>
      have hsize32 : ∀ f ∈ o.session.queued, f.body.length < 2 ^ 32 := by
        intro f hf
        have hlt := hsize f hf
        omega
      obtain ⟨f, hf, hm⟩ := h.channel.complete_next hsize32 (ho.parses_all hsize) hr
      have hmem := List.mem_of_getElem? hf
      obtain ⟨m', hm', hreq, hrsp⟩ := @parses skipField _ _ (ho.frames f hmem) (hsize f hmem)
      obtain rfl : m' = m := Option.some.inj (hm'.symm.trans hm)
      cases horigin : f.origin with
      | request ctx =>
          apply h.dispatch_request hch hdisp hf hm horigin (hreq ctx horigin)
          -- the outstanding read is that of this body
          apply hC
          rcases Receiver.complete_spec hr with ⟨_, _, hout⟩ | ⟨bodyLen, hop, _⟩
          · simp at hout
          · have hnext : nextFrame s o = some f := by
              simp only [nextFrame, hop, if_true]
              exact hf
            simp [numberOf, hnext, horigin, Origin.ctx?]
      | response j => exact h.dispatch_response ho hch hdisp hf hm horigin (hrsp j horigin)

/-! ## The step lemma -/

/-- The other end stays matched through every event at this end. -/
theorem other (ho : Agree skipField o s) {e : PeerEvent}
    (hs : s.step (parser skipField) o.session.wire e = some s') : Agree skipField o s' := by
  refine ho.grow (Peer.queued_step hs) ?_
  rcases Peer.step_session hs with hsame | ⟨e', he', hstep⟩
  · rw [hsame]
    exact ho.channel
  · exact ho.channel.write hstep he'

/-- **Every event at an end keeps it matched**, when the number it brings up is not pending. -/
theorem step (h : Agree skipField s o) (ho : Agree skipField o s) (hsize : Sized o) {e : PeerEvent}
    (hC : ∀ n ∈ numberOf s o e, n ∉ s.pendingIDs)
    (hs : s.step (parser skipField) o.session.wire e = some s') : Agree skipField s' o := by
  cases e with
  | request msg =>
      simp only [Peer.step] at hs
      split at hs
      · next hwf =>
          obtain rfl := Option.some.inj hs
          exact h.request hwf
      · exact absurd hs (by simp)
  | answer i rsp =>
      simp only [Peer.step] at hs
      split at hs
      · next hwf =>
          obtain ⟨⟨j, req⟩, hi, rfl⟩ := Option.map_eq_some_iff.mp hs
          have hat := h.inbox _ (List.mem_of_getElem? hi)
          exact h.answer hi ⟨⟨hwf.method, hwf.returnMsg⟩, hat⟩ rfl rfl
      · exact absurd hs (by simp)
  | answerData i cached =>
      simp only [Peer.step] at hs
      split at hs
      · next hwf =>
          obtain ⟨⟨j, req⟩, hi, rfl⟩ := Option.map_eq_some_iff.mp hs
          have hat := h.inbox _ (List.mem_of_getElem? hi)
          rw [← Int64.toInt64_toUInt64 req.id] at hat
          exact h.answer hi ⟨⟨cached, hwf.1, hwf.2, rfl⟩, hat⟩ rfl rfl
      · exact absurd hs (by simp)
  | runPost =>
      obtain ⟨t, ht, rfl⟩ := Option.map_eq_some_iff.mp hs
      exact h.runPost ht hC
  | writeSome i n =>
      obtain ⟨t, ht, rfl⟩ := Option.map_eq_some_iff.mp hs
      have hacc := h.accounting.step (e := .writeSome i n) ht
      obtain ⟨_, _, _, _, _, rfl⟩ := TcpSession.writeSome_spec ht
      exact h.of_writes hacc rfl rfl rfl rfl
  | writeDone i =>
      obtain ⟨t, ht, rfl⟩ := Option.map_eq_some_iff.mp hs
      have hacc := h.accounting.step (e := .writeDone i) ht
      obtain ⟨_, _, _, rfl⟩ := TcpSession.writeDone_spec ht
      rw [TcpSession.writeData_eq] at hacc ⊢
      exact h.of_writes hacc rfl rfl rfl rfl
  | arrive chunk =>
      simp only [Peer.step] at hs
      split at hs
      · next hin =>
          obtain rfl := Option.some.inj hs
          exact h.of_receiver rfl (h.channel.arrive hin)
      · exact absurd hs (by simp)
  | readSome n =>
      obtain ⟨r, hr, rfl⟩ := Option.map_eq_some_iff.mp hs
      have hch := h.channel.readSome hr
      obtain ⟨_, _, _, _, _, rfl⟩ := Receiver.readSome_spec hr
      exact h.of_receiver rfl hch
  | complete => exact h.complete ho hsize hs hC

/-- When nothing is on its way to an end, it has dispatched every frame queued at the other end. -/
theorem settled (h : Agree skipField s o) (ho : Agree skipField o s) (hsize : Sized o)
    (hset : Channel.Settled (parser skipField) o.session s.receiver) :
    s.inCount = o.session.queued.length := by
  refine h.channel.settled ?_ (ho.parses_all hsize) hset
  intro f hf
  have hlt := hsize f hf
  omega

end Agree

/-! ## Runs of the duplex -/

/-- Both ends of a connection agree with each other. -/
def Matched (skipField : UInt32 → Bytes → Option Bytes) (l : Duplex) : Prop :=
  Agree skipField l.left l.right ∧ Agree skipField l.right l.left

theorem Sized.of_queued {s s' : Peer} (h : s.session.queued <+: s'.session.queued) (hs' : Sized s') :
    Sized s := fun f hf => hs' f (h.subset hf)

/-- **Every event of the duplex keeps both ends matched**, as long as frames are of bounded size. -/
theorem matched_step {skipField : UInt32 → Bytes → Option Bytes} {l l' : Duplex} {e : Event}
    (h : Sized l.left → Sized l.right → Matched skipField l) (hC : NumbersApart l e)
    (hs : step (parser skipField) l e = some l') :
    Sized l'.left → Sized l'.right → Matched skipField l' := by
  intro hleft hright
  cases e with
  | left e =>
      obtain ⟨p, hp, rfl⟩ := Option.map_eq_some_iff.mp hs
      obtain ⟨h1, h2⟩ := h (hleft.of_queued (Peer.queued_step hp)) hright
      exact ⟨h1.step h2 hright hC hp, h2.other hp⟩
  | right e =>
      obtain ⟨p, hp, rfl⟩ := Option.map_eq_some_iff.mp hs
      obtain ⟨h1, h2⟩ := h hleft (hright.of_queued (Peer.queued_step hp))
      exact ⟨h1.other hp, h2.step h1 hleft hC hp⟩

/-- **Requests and responses are told apart**, at both ends, in every run in which no request number
comes up at an end where a request with that number is pending: neither by a request that is numbered
there nor by a request of the other end that is dispatched there. When nothing is on its way, every
frame of the other end has been dispatched. -/
theorem told_apart (skipField : UInt32 → Bytes → Option Bytes) (es : List Event) {l : Duplex}
    (h : run (step (parser skipField)) {} es = some l)
    (hC : EveryStep (step (parser skipField)) NumbersApart {} es)
    (hleft : Sized l.left) (hright : Sized l.right) :
    ToldApart (parser skipField) l.left l.right ∧ ToldApart (parser skipField) l.right l.left ∧
    (Channel.Settled (parser skipField) l.right.session l.left.receiver →
      l.left.inCount = l.right.session.queued.length) ∧
    (Channel.Settled (parser skipField) l.left.session l.right.receiver →
      l.right.inCount = l.left.session.queued.length) := by
  have hmatched : Sized l.left → Sized l.right → Matched skipField l :=
    inv_run_of_everyStep (I := fun l => Sized l.left → Sized l.right → Matched skipField l)
      (fun _ _ => ⟨Agree.init, Agree.init⟩) (fun _ _ _ ht hC hs => matched_step ht hC hs) h hC
  obtain ⟨h1, h2⟩ := hmatched hleft hright
  exact ⟨h1.toldApart, h2.toldApart, h1.settled h2 hright, h2.settled h1 hleft⟩

/-- A request from the left, answered on the right; then a request from the right with the same
number, which comes when the first is no longer pending. -/
def inTurn : List Event :=
  [.left (.request {}), .left .runPost, .left (.writeSome 0 6),
    .right (.arrive [0, 0, 0, 2, 8, 1]), .right (.readSome 4), .right .complete,
    .right (.readSome 2), .right .complete, .right (.answer 0 {}), .right .runPost,
    .right (.writeSome 0 6), .right (.writeDone 0), .left (.arrive [0, 0, 0, 2, 8, 1]),
    .left (.readSome 4), .left .complete, .left (.readSome 2), .left .complete,
    .right (.request {}), .right .runPost, .right (.writeSome 0 6),
    .left (.arrive [0, 0, 0, 2, 8, 1]), .left (.readSome 4), .left .complete,
    .left (.readSome 2), .left .complete]

theorem told_apart_inTurn :
    ∃ l, run (step (parser fun _ _ => none)) {} inTurn = some l ∧
      l.left.session.completed = [{ prom := 0, msg := { id := 1 }, source := some 0 }] ∧
      l.left.handled = [(1, { id := 1 })] ∧ ToldApart (parser fun _ _ => none) l.left l.right := by
  have hview : (run (step (parser fun _ _ => none)) {} inTurn).map (fun l =>
      (l.left.session.completed, l.left.handled, decide (Sized l.left ∧ Sized l.right))) =
      some ([{ prom := 0, msg := { id := 1 }, source := some 0 }], [(1, { id := 1 })], true) := by
    decide +kernel
  obtain ⟨l, hl, hview⟩ := Option.map_eq_some_iff.mp hview
  simp only [Prod.mk.injEq, decide_eq_true_eq] at hview
  obtain ⟨hcompleted, hhandled, hleft, hright⟩ := hview
  exact ⟨l, hl, hcompleted, hhandled,
    (told_apart (fun _ _ => none) inTurn hl (by decide +kernel) hleft hright).1⟩

/-- Both ends number their first request 1, and the one from the right reaches the left end while the
left one's own is pending. -/
def crossing : List Event :=
  [.left (.request {}), .left .runPost, .right (.request { method := ascii "adListChanged" }),
    .right .runPost, .right (.writeSome 0 21),
    .left (.arrive [0, 0, 0, 17, 8, 1, 18, 13, 97, 100, 76, 105, 115, 116, 67, 104, 97, 110, 103, 101,
      100]),
    .left (.readSome 4), .left .complete, .left (.readSome 17), .left .complete]

/-- **Two requests that cross on the wire.** The left end takes the right one's request for the answer
to its own: the future is completed with it, and `_requestHandler` never sees it. -/
theorem crossing_requests :
    ∃ l, run (step (parser fun _ _ => none)) {} crossing = some l ∧
      l.left.session.completed =
        [{ prom := 0, msg := { id := 1, method := ascii "adListChanged" }, source := some 0 }] ∧
      l.left.handled = [] ∧ ¬ ToldApart (parser fun _ _ => none) l.left l.right := by
  have hview : (run (step (parser fun _ _ => none)) {} crossing).map (fun l =>
      (l.left.session.completed, l.left.handled, l.left.receiver.conn.dispatched[0]?,
        l.right.session.queued[0]?.bind fun f => f.origin.ctx?)) =
      some ([{ prom := 0, msg := { id := 1, method := ascii "adListChanged" }, source := some 0 }],
        [], some { id := 1, method := ascii "adListChanged" },
        some { msgID := 1, method := ascii "adListChanged", prom := 0 }) := by
    decide +kernel
  obtain ⟨l, hl, hview⟩ := Option.map_eq_some_iff.mp hview
  simp only [Prod.mk.injEq] at hview
  obtain ⟨hcompleted, hhandled, hdisp, hctx⟩ := hview
  refine ⟨l, hl, hcompleted, hhandled, ?_⟩
  intro htold
  obtain ⟨f, hf, hf'⟩ := Option.bind_eq_some_iff.mp hctx
  cases horigin : f.origin with
  | request ctx =>
      -- the request should have been handled, and nothing was
      have hmem := (htold.delivered 0 _ f ctx hdisp hf horigin).2
      simp [hhandled] at hmem
  | response j => simp [horigin, Origin.ctx?] at hf'

end AdManager.Link
