/-
# AdManager.Business.Wired — a bar with its connections.

The parties of `AdManager.Business.Distribution`, each behind its sessions. A client's thread posts a request
to its session and waits for the promise that comes with it. The request becomes a frame; the frame is
written piece by piece, arrives in whatever chunks, is cut out of the receive buffer, parsed and dispatched.
At the server `handleRequest` reads the cache that the business thread fills, in two pieces for a file, and
the response takes the same way back and sets the promise. All of this interleaves with all threads.

The connections are those of `AdManager.Server.Bar`: they are up, and stay so; no read, write or connect fails.
`endBusiness` is the flag that it sets, and stops no socket and no io_service. The business threads drive the
connections, so nothing else asks and nothing else writes the cache.
-/
import AdManager.Business.Freshness
import AdManager.Server.EndToEnd
import AdManager.Server.ServeFile

namespace AdManager.Business

open AdManager.Wire AdManager.Lib AdManager.Server AdManager.Session AdManager.Link
open TcpSession (frameOf ctxOf)

/-! ## The system -/

/-- The connections with the server's cache, the parties, and the promise that each client's thread waits
for. -/
structure Wired (ι : Type*) where
  bar : Bar ι := {}
  server : Party
  clients : ι → Party
  waiting : ι → Option Nat := fun _ => none

/-- What can happen: an event of the server's thread, an event of a client's thread that needs no answer, a
client's thread goes on because its promise was set, an event of the network. -/
inductive WiredEvent (ι : Type*) where
  | server (e : BizEvent)
  | client (i : ι) (e : BizEvent)
  | resume (i : ι) (rehash : Bool)
  | net (e : BarEvent ι)

/-- The events of a client's thread that need no answer. `requestAd` is left out: nothing calls it. -/
def BizEvent.onItsOwn : BizEvent → Bool
  | .tick _ => true
  | .fire _ => true
  | .runHandler => true
  | .connected => true
  | .next => true
  | .fetchEnded _ _ => true
  | .endBusiness => true
  | .policyAnswer _ => false
  | .adListAnswer _ => false
  | .fileAnswer _ _ => false
  | .requestAd _ => false
  | .adAnswer _ => false

/-- The events that are the network's. -/
def isNet {ι : Type*} : BarEvent ι → Bool
  | .client _ _ => true
  | .server _ _ => true
  | .serve _ => true
  | .reply _ => true
  | _ => false

namespace Wired

variable {ι : Type*} [DecidableEq ι] (w : Wired ι)

/-- The thread of client `i` goes on as `p`; what it asks for is posted to its session. -/
def goOn (i : ι) (p : Party) : Wired ι :=
  match (w.clients i).biz.newRequest p.biz with
  | none => { w with clients := Function.update w.clients i p }
  | some msg =>
      let c := w.bar.clients i
      { w with
        clients := Function.update w.clients i p
        waiting := Function.update w.waiting i (some c.session.nextProm)
        bar := { w.bar with
          clients := Function.update w.bar.clients i { c with session := c.session.request msg } } }

/-- The message that the promise of client `i` was set to. -/
def setTo (i : ι) : Option Message :=
  ((w.bar.clients i).session.completed.find? fun c => w.waiting i == some c.prom).map Completion.msg

end Wired

namespace Setup

variable {ι : Type*} (x : Setup ι)

/-- The bar before anything has happened. -/
def wired₀ : Wired ι where
  server := { biz := x.server₀ }
  clients i := { biz := x.client₀ i }

variable [DecidableEq ι]

/-- One event. -/
def wiredStep (w : Wired ι) : WiredEvent ι → Option (Wired ι)
  | .server e => (w.server.step x.server e).map fun p =>
      { w with server := p, bar := { w.bar with cache := p.biz.impl.cache } }
  | .client i e =>
      if e.onItsOwn then ((w.clients i).step (x.client i) e).map (w.goOn i) else none
  | .resume i rehash =>
      (w.setTo i).bind fun rsp => (delivery rsp rehash (w.clients i).biz.stage).bind fun e =>
        ((w.clients i).step (x.client i) e).map
          ({ w with waiting := Function.update w.waiting i none }.goOn i)
  | .net e =>
      if isNet e then (barStep (parser x.skipField) w.bar e).map fun b => { w with bar := b } else none

end Setup

/-- **The condition**: a response is queued from a position that is still valid. -/
def ValidReply {ι : Type*} (w : Wired ι) : WiredEvent ι → Prop
  | .net e => PositionValid w.bar e
  | _ => True

instance {ι : Type*} (w : Wired ι) : (e : WiredEvent ι) → Decidable (ValidReply w e)
  | .net e => inferInstanceAs (Decidable (PositionValid w.bar e))
  | .server _ => .isTrue trivial
  | .client _ _ => .isTrue trivial
  | .resume _ _ => .isTrue trivial

/-! ## What a thread does with an event -/

/-- A thread stays where it is; or it goes on without a request, or with one. -/
inductive Turn (b : ThreadBiz) (e : BizEvent) (b' : ThreadBiz) : Prop
  | stays (hanswer : e.answer? = none) (hout : b'.outgoing = b.outgoing) (hstage : b'.stage = b.stage)
  | goesOn (hwaits : b.stage.waits = e.answer?.isSome) (hnew : b.newRequest b' = none)
      (hstage : b'.stage.waits = false)
  | asks (a : Ask) (hwaits : b.stage.waits = e.answer?.isSome) (hnew : b.newRequest b' = some a.message)
      (hstage : b'.stage.waits = true) (hlast : b'.outgoing.getLast? = some (.request a.message))

theorem requestIn_httpGets (urls : List Bytes) : requestIn (urls.map .httpGet) = none := by
  cases urls with
  | nil => rfl
  | cons url urls => cases urls <;> rfl

/-- What a thread waits for is the answer to one of the three requests. -/
theorem ThreadBiz.HasAsked.ask {b : ThreadBiz} (h : b.HasAsked) (hstage : b.stage.waits = true) :
    ∃ a : Ask, b.outgoing.getLast? = some (.request a.message) := by
  unfold ThreadBiz.HasAsked at h
  cases hs : b.stage with
  | policy =>
      rw [hs] at h
      obtain ⟨barId, hlast⟩ := h
      exact ⟨_, hlast⟩
  | adList root =>
      rw [hs] at h
      exact ⟨_, h⟩
  | file id ad p =>
      rw [hs] at h
      exact ⟨_, h⟩
  | _ => exact absurd (hs ▸ hstage) (by simp [Stage.waits])

theorem turn {x : Environment} {b b' : ThreadBiz} {e : BizEvent} (hs : step x b e = some b')
    (he : ∀ adId, e ≠ .requestAd adId) (hasked : b'.HasAsked) : Turn b e b' := by
  rcases moves_step hs he with ⟨hanswer, hout, hstage⟩ | ⟨hwaits, hmoves⟩
  · exact .stays hanswer hout hstage
  · cases hmoves with
    | goesOn urls hout hstage =>
        exact .goesOn hwaits ((ThreadBiz.newRequest_append hout).trans (requestIn_httpGets urls)) hstage
    | asks msg hout hstage hwhy =>
        obtain ⟨a, ha⟩ := hasked.ask hstage
        have hmsg : msg = a.message := by
          rw [hout, List.getLast?_concat] at ha
          injection ha with ha
          injection ha
        subst hmsg
        exact .asks a hwaits (ThreadBiz.newRequest_append hout) hstage ha

theorem BizEvent.onItsOwn_spec {e : BizEvent} (h : e.onItsOwn = true) :
    e.answer? = none ∧ e.unanswered = true ∧ ∀ adId, e ≠ .requestAd adId := by
  cases e <;> simp_all [BizEvent.onItsOwn, BizEvent.answer?, BizEvent.unanswered]

theorem delivery_not_requestAd {rsp : Message} {rehash : Bool} {stage : Stage} {e : BizEvent}
    (h : delivery rsp rehash stage = some e) : ∀ adId, e ≠ .requestAd adId := by
  rintro adId rfl
  have hanswer := delivery_answer h
  simp [BizEvent.answer?] at hanswer

/-! ## Entries of the cache over time -/

/-- Whatever node the position refers to, now or later, is an entry of `id`. -/
structure LeadsTo (c : Cache) (pos : ImagePos) (id : UInt32) : Prop where
  made : pos.node < c.nextNode
  entry : ∀ n ∈ c.bufImages, n.node = pos.node → n.id = id

/-- No node is used for a second entry. -/
structure KeepsNodes (c c' : Cache) : Prop where
  next : c.nextNode ≤ c'.nextNode
  nodes : ∀ n ∈ c'.bufImages, n ∈ c.bufImages ∨ c.nextNode ≤ n.node

namespace KeepsNodes

variable {c c' : Cache}

theorem of_same (himages : c'.bufImages = c.bufImages) (hnext : c'.nextNode = c.nextNode) :
    KeepsNodes c c' where
  next := hnext.ge
  nodes _ hn := Or.inl (himages ▸ hn)

theorem insert (c : Cache) (id : UInt32) (data : Bytes) (rehash : Bool) :
    KeepsNodes c (c.insert id data rehash) := by
  unfold Cache.insert
  split
  · exact of_same rfl rfl
  · refine ⟨Nat.le_succ _, ?_⟩
    intro n hn
    rcases List.mem_append.mp hn with hn | hn
    · exact Or.inl hn
    · obtain rfl := List.mem_singleton.mp hn
      exact Or.inr le_rfl

theorem evict (c : Cache) (idSet : List UInt32) : KeepsNodes c (c.evict idSet) where
  next := le_rfl
  nodes _ hn := Or.inl (List.mem_filter.mp hn).1

theorem pass (s : AdManagerImpl) : KeepsNodes s.cache s.pass.cache := by
  unfold AdManagerImpl.pass
  split
  · exact of_same rfl rfl
  · exact evict _ _

/-- **What the business thread does to the cache.** -/
theorem step {x : Environment} {b b' : ThreadBiz} {e : BizEvent} (hs : Business.step x b e = some b') :
    KeepsNodes b.impl.cache b'.impl.cache := by
  cases dataStep hs with
  | same hquiet hdata => rw [hdata.impl]; exact of_same rfl rfl
  | policy rsp he hdata =>
      rw [hdata.impl]
      rcases b.impl.policyReceived_cases x rsp with ⟨_, heq⟩ | ⟨_, _, heq⟩ | ⟨_, _, heq⟩ <;>
        rw [heq] <;> exact of_same rfl rfl
  | list rsp ads he hads hdata =>
      have hlist := pass (b.impl.adListReceived ads rsp.content)
      rw [hdata.impl]
      rw [AdManagerImpl.adListReceived_eq] at hlist ⊢
      exact ⟨hlist.next, hlist.nodes⟩
  | retry f he hf htimer hend hdata => rw [hdata.impl]; exact evict _ _
  | image id ad urls p body rehash he hstage hverified hdata =>
      rw [hdata.impl]
      exact insert _ id (fileAnswer body).serialize rehash
  | file id ad p rsp rehash he hstage hdata =>
      rw [hdata.impl]
      by_cases hgood : rsp.returnCode = 0 ∧ x.verified ad rsp.content = true
      · rw [b.impl.fileReceived_verified hgood]
        exact insert _ id rsp.content rehash
      · rw [b.impl.fileReceived_refused hgood]
        exact of_same rfl rfl
  | ad rsp ad he hrec hdata => rw [hdata.impl]; exact of_same rfl rfl
  | ended he hdata => rw [hdata.impl]; exact of_same rfl rfl

end KeepsNodes

theorem LeadsTo.keep {c c' : Cache} {pos : ImagePos} {id : UInt32} (h : LeadsTo c pos id)
    (hkeeps : KeepsNodes c c') : LeadsTo c' pos id where
  made := h.made.trans_le hkeeps.next
  entry n hn hnode := by
    rcases hkeeps.nodes n hn with hold | hnew
    · exact h.entry n hold hnode
    · have hmade := h.made
      omega

/-- A position just found. -/
theorem LeadsTo.of_find {c : Cache} {pos : ImagePos} {id : UInt32} (hc : c.Distinct)
    (hfind : c.find id = some pos) : LeadsTo c pos id := by
  obtain ⟨n, hat, hid⟩ := Cache.find_at hfind
  refine ⟨hat.node ▸ hc.fresh n hat.mem, ?_⟩
  intro m hm hnode
  have heq : m = n := List.inj_on_of_nodup_map hc.nodes hm hat.mem (hnode.trans hat.node.symm)
  rw [heq, hid]

/-- **As long as the position is valid, it gives what a new lookup gives.** -/
theorem LeadsTo.find {c : Cache} {pos : ImagePos} {id : UInt32} (h : LeadsTo c pos id) (hc : c.Distinct)
    (hvalid : (c.nodeAt pos).isSome) (garbage garbage' : Bytes) :
    ∃ pos', c.find id = some pos' ∧ c.deref pos' garbage' = c.deref pos garbage := by
  obtain ⟨n, hn⟩ := Option.isSome_iff_exists.mp hvalid
  have hat : n ∈ c.bufImages ∧ n.node = pos.node := by
    unfold Cache.nodeAt at hn
    split at hn
    · exact ⟨List.mem_of_find?_eq_some hn, by simpa using List.find?_some hn⟩
    · exact absurd hn (by simp)
  have hid := h.entry n hat.1 hat.2
  have hcontains : c.find id ≠ none := by
    rw [Ne, Cache.find_eq_none, Bool.not_eq_false, Cache.contains_iff]
    exact ⟨n, hat.1, hid⟩
  obtain ⟨pos', hpos'⟩ := Option.ne_none_iff_exists'.mp hcontains
  obtain ⟨m, hm, hmid, hderef⟩ := hc.deref_find hpos' garbage'
  have heq : m = n := List.inj_on_of_nodup_map hc.ids hm hat.1 (hmid.trans hid.symm)
  refine ⟨pos', hpos', ?_⟩
  rw [hderef, heq, Cache.deref, hn]

end AdManager.Business
