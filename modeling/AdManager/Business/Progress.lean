/-
# AdManager.Business.Progress — no client waits for nothing.

A client's thread that waits for its promise is woken by one completion, at the end of a chain: posted handler,
write, bytes, receive loop, `handleRequest`, and the same way back. If any of these could be left over with
nothing to start it, the thread would wait for good. `waiting_goes_on` excludes that for a bar in service:
while a thread waits, its connection can do something more, or the promise is set.

In service means that the connections stay up and that no party has called `endBusiness`, which stops its
sockets and its io_services. Without that a thread can wait for good: with a send queue that is stuck after a
failed write (`send_queue_stuck`), or on a request it makes after the network has been stopped
(`thread_stranded`).

The argument is by what is left when the connection can do nothing more. A session's posts have run and its
writes are done, all bytes have arrived, and the receive loop waits for more; so every request was dispatched,
every response too, and each has completed its promise.
-/
import AdManager.Business.WiredRefine

namespace AdManager.Business

open AdManager.Wire AdManager.Lib AdManager.Server AdManager.Session AdManager.Link

/-! ## One end at rest -/

/-- The events of an end that do something: all but the arrival of no bytes. -/
def Acts (e : PeerEvent) : Prop := (isIo e = true ∨ e = .complete) ∧ e ≠ .arrive []

/-- The end can do nothing. -/
def Stuck (parse : Bytes → Option Message) (p : Peer) (wire : Bytes) : Prop :=
  ∀ e, Acts e → p.step parse wire e = none

section Stuck

variable {parse : Bytes → Option Message} {p : Peer} {wire : Bytes}

/-- All posted handlers have run. -/
theorem Stuck.posts (h : Stuck parse p wire) : p.session.posts = [] := by
  have hrun := h .runPost ⟨Or.inl rfl, by simp⟩
  rw [Peer.step, Option.map_eq_none_iff, TcpSession.runPost] at hrun
  cases hposts : p.session.posts with
  | nil => rfl
  | cons q qs => simp [hposts] at hrun

/-- A write that is outstanding on a live socket can go on, or is done. -/
theorem Stuck.writes (h : Stuck parse p wire) (hside : WriteSide [] p.session)
    (hup : p.session.socket.up = true) : p.session.writes = [] := by
  obtain ⟨done, _, hfl⟩ := hside.flight
  cases hfl with
  | idle hqueue hwrites hwire => exact hwrites
  | writing f rest sent hqueue hwrites hsent hwire =>
      exfalso
      rcases hsent.lt_or_eq with hlt | heq
      · have hsome := h (.writeSome 0 (f.bytes.length - sent)) ⟨Or.inl rfl, by simp⟩
        rw [Peer.step, Option.map_eq_none_iff, TcpSession.writeSome, hwrites] at hsome
        simp only [List.getElem?_cons_zero, WriteOp.live, hup, beq_self_eq_true, Bool.and_self, true_and,
          ite_eq_right_iff, reduceCtorEq, imp_false, not_and] at hsome
        omega
      · have hdone := h (.writeDone 0) ⟨Or.inl rfl, by simp⟩
        rw [Peer.step, Option.map_eq_none_iff, TcpSession.writeDone, hwrites] at hdone
        simp [heq] at hdone

/-- All bytes have arrived. -/
theorem Stuck.arrived (h : Stuck parse p wire) (horder : p.receiver.arrived <+: wire) :
    p.receiver.arrived = wire := by
  obtain ⟨rest, hrest⟩ := horder
  cases rest with
  | nil => rw [← hrest, List.append_nil]
  | cons byte rest =>
      have harrive := h (.arrive (byte :: rest)) ⟨Or.inl rfl, by simp⟩
      have hprefix : (p.receiver.arrive (byte :: rest)).arrived <+: wire := by
        refine ⟨[], ?_⟩
        rw [List.append_nil, ← hrest]
        exact (List.append_assoc _ _ _).symm
      rw [Peer.step, if_pos hprefix] at harrive
      exact absurd harrive (by simp)

/-- The receive loop has done what it can. -/
theorem Stuck.quiescent (h : Stuck parse p wire) : Receiver.Quiescent parse p.receiver := by
  intro e he
  cases e with
  | readSome n =>
      have hread := h (.readSome n) ⟨Or.inl rfl, by simp⟩
      rwa [Peer.step, Option.map_eq_none_iff] at hread
  | complete =>
      have hcomplete := h .complete ⟨Or.inr rfl, by simp⟩
      rw [Peer.step, Peer.complete, Option.map_eq_none_iff] at hcomplete
      rw [Receiver.step, hcomplete]
      rfl
  | arrive chunk => simp [Receiver.Event.internal] at he
  | startSession => simp [Receiver.Event.internal] at he
  | fail => simp [Receiver.Event.internal] at he

end Stuck

/-! ## One connection at rest -/

section Connection

variable {ι : Type*} {skipField : UInt32 → Bytes → Option Bytes} {c s : Peer} {asks : List Ask}

/-- **A connection that can do nothing more has completed everything that the client asked for.** -/
theorem all_completed (h : Served skipField c s (none : Option (Reply ι))) (hposted : Posted asks c.session)
    (hc : Sized c) (hs : Sized s) (hupc : c.session.socket.up = true) (hups : s.session.socket.up = true)
    (hstuckc : Stuck (parser skipField) c s.session.wire)
    (hstucks : Stuck (parser skipField) s c.session.wire) :
    c.session.completed.length = asks.length := by
  have hrequests := h.up.settled (Served.sized32 hc) (h.client_parses hc)
    ⟨hstuckc.writes h.up.side hupc, hstucks.arrived h.up.inOrder, hstucks.quiescent⟩
  have hresponses := h.down.settled (Served.sized32 hs) (h.server_parses hs)
    ⟨hstucks.writes h.down.side hups, hstuckc.arrived h.down.inOrder, hstuckc.quiescent⟩
  -- every request was posted, queued and dispatched
  have hasked := congrArg List.length hposted.calls
  rw [hstuckc.posts, List.append_nil, postsOf, List.length_map, List.length_zipIdx] at hasked
  have hqueued := congrArg List.length h.up.side.order
  rw [framesOf_length] at hqueued
  -- and its response too
  have hcount := h.server.count
  rw [hstucks.posts, Option.isSome_none, if_neg Bool.false_ne_true, List.length_nil] at hcount
  have hcompleted := h.client.count
  rw [Peer.inCount] at hcompleted hcount
  omega

end Connection

/-! ## The connections stay up -/

variable {ι : Type*} [DecidableEq ι]

theorem socket_kept {s s' : TcpSession} {e : Session.Event} (he : e.breaks = false)
    (hs : Session.step s e = some s') : s'.socket = s.socket := by
  cases hlocal : e.isLocal with
  | true => exact socket_step hlocal hs
  | false =>
      cases e with
      | inbound ref msg =>
          obtain rfl := Option.some.inj hs
          exact (s.inbound_frame ref msg).1
      | _ => simp_all [Session.Event.breaks, Session.Event.isLocal]

theorem peer_socket {parse : Bytes → Option Message} {p p' : Peer} {wire : Bytes} {e : PeerEvent}
    (hs : p.step parse wire e = some p') : p'.session.socket = p.session.socket := by
  rcases Peer.step_session hs with hsame | ⟨e', he', hstep⟩
  · rw [hsame]
  · exact socket_kept he' hstep

/-- All sockets are connected. -/
def SocketsUp (b : Bar ι) : Prop :=
  ∀ i, (b.clients i).session.socket.up = true ∧ (b.sessions i).session.socket.up = true

omit [DecidableEq ι] in
theorem serve_socket {cache : Cache} {i : ι} {p : Peer} {out : Peer × Option (Reply ι)}
    (h : Server.serve cache i p = some out) : out.1.session.socket = p.session.socket := by
  unfold Server.serve at h
  split at h
  · obtain rfl := Option.some.inj h
    rfl
  · split at h
    · obtain rfl := Option.some.inj h
      rfl
    · obtain rfl := Option.some.inj h
      rfl
    · obtain rfl := Option.some.inj h
      rfl
    · obtain rfl := Option.some.inj h
      rfl
    · exact absurd h (by simp)

namespace SocketsUp

variable {b b' : Bar ι} {i : ι} {p : Peer}

theorem client (h : SocketsUp b) (hp : p.session.socket = (b.clients i).session.socket) :
    SocketsUp { b with clients := Function.update b.clients i p } := by
  intro j
  by_cases hj : j = i
  · subst hj
    simp only [Function.update_self, hp]
    exact h j
  · simp only [Function.update_of_ne hj]
    exact h j

theorem session (h : SocketsUp b) (hp : p.session.socket = (b.sessions i).session.socket)
    (busy : Option (Reply ι)) :
    SocketsUp { b with sessions := Function.update b.sessions i p, busy := busy } := by
  intro j
  by_cases hj : j = i
  · subst hj
    simp only [Function.update_self, hp]
    exact h j
  · simp only [Function.update_of_ne hj]
    exact h j

theorem bar_step (h : SocketsUp b) {parse : Bytes → Option Message} {e : BarEvent ι}
    (hs : barStep parse b e = some b') : SocketsUp b' := by
  cases e with
  | ask i a =>
      obtain rfl := Option.some.inj hs
      exact h.client rfl
  | client i e =>
      simp only [barStep] at hs
      split at hs
      · obtain ⟨p, hp, rfl⟩ := Option.map_eq_some_iff.mp hs
        exact h.client (peer_socket hp)
      · exact absurd hs (by simp)
  | server i e =>
      simp only [barStep] at hs
      split at hs
      · obtain ⟨p, hp, rfl⟩ := Option.map_eq_some_iff.mp hs
        exact h.session (peer_socket hp) b.busy
      · exact absurd hs (by simp)
  | serve i =>
      simp only [barStep] at hs
      split at hs
      · obtain ⟨p, hp, hs⟩ := Option.bind_eq_some_iff.mp hs
        obtain ⟨out, hout, rfl⟩ := Option.map_eq_some_iff.mp hs
        have hsocket : p.session.socket = (b.sessions i).session.socket :=
          @peer_socket parse _ _ [] .complete hp
        exact h.session ((serve_socket hout).trans hsocket) out.2
      · exact absurd hs (by simp)
  | reply garbage =>
      obtain ⟨r, _, rfl⟩ := Option.map_eq_some_iff.mp hs
      refine h.session (i := r.client) ?_ none
      rfl
  | storePolicy content => obtain rfl := Option.some.inj hs; exact h
  | storeAdList content => obtain rfl := Option.some.inj hs; exact h
  | insertImage id body rehash => obtain rfl := Option.some.inj hs; exact h
  | evict idSet => obtain rfl := Option.some.inj hs; exact h

theorem goOn {w : Wired ι} (h : SocketsUp w.bar) (i : ι) (p : Party) : SocketsUp (w.goOn i p).bar := by
  unfold Wired.goOn
  split
  · exact h
  · exact h.client rfl

theorem step {x : Setup ι} {w w' : Wired ι} (h : SocketsUp w.bar) {e : WiredEvent ι}
    (hs : x.wiredStep w e = some w') : SocketsUp w'.bar := by
  cases e with
  | server e =>
      obtain ⟨p, _, rfl⟩ := Option.map_eq_some_iff.mp hs
      exact h
  | client i e =>
      simp only [Setup.wiredStep] at hs
      split at hs
      · obtain ⟨p, _, rfl⟩ := Option.map_eq_some_iff.mp hs
        exact h.goOn i p
      · exact absurd hs (by simp)
  | resume i rehash =>
      obtain ⟨rsp, _, hs⟩ := Option.bind_eq_some_iff.mp hs
      obtain ⟨e, _, hs⟩ := Option.bind_eq_some_iff.mp hs
      obtain ⟨p, _, rfl⟩ := Option.map_eq_some_iff.mp hs
      exact goOn (w := { w with waiting := Function.update w.waiting i none }) h i p
  | net e =>
      simp only [Setup.wiredStep] at hs
      split at hs
      · obtain ⟨b, hb, rfl⟩ := Option.map_eq_some_iff.mp hs
        exact h.bar_step hb
      · exact absurd hs (by simp)

end SocketsUp

/-! ## A bar in service -/

/-- `endBusiness` of one of the parties. -/
def WiredEvent.endsBusiness {ι : Type*} : WiredEvent ι → Bool
  | .server .endBusiness => true
  | .client _ .endBusiness => true
  | _ => false

/-- One event of a bar in service. An `endBusiness` is none: `wiredStep` has of it the flag alone, and not
what it does to the network. -/
def Setup.servingStep (x : Setup ι) (w : Wired ι) (e : WiredEvent ι) : Option (Wired ι) :=
  if e.endsBusiness then none else x.wiredStep w e

theorem Setup.wiredStep_of_serving {x : Setup ι} {w w' : Wired ι} {e : WiredEvent ι}
    (h : x.servingStep w e = some w') : x.wiredStep w e = some w' := by
  unfold Setup.servingStep at h
  split at h
  · exact absurd h (by simp)
  · exact h

/-! ## Progress -/

variable {x : Setup ι} {w : Wired ι}

/-- What can happen on connection `i`, and the response that the network thread has looked up and must
queue before it goes on, for whichever connection. -/
def Concerns (i : ι) : BarEvent ι → Prop
  | .client j e => j = i ∧ Acts e
  | .server j e => j = i ∧ Acts e
  | .serve j => j = i
  | .reply _ => True
  | _ => False

omit [DecidableEq ι] in
/-- `handleRequest` comes to an end for each of the three requests. -/
theorem serve_isSome (cache : Cache) (i : ι) {p : Peer}
    (h : p.inbox = [] ∨ ∃ (ref : Nat) (a : Ask) (id : Int64),
      p.inbox = [(ref, { a.message with id := id })]) : (Server.serve cache i p).isSome = true := by
  rcases h with hnil | ⟨ref, a, id, hinbox⟩
  · simp [Server.serve, hnil]
  · simp only [Server.serve, hinbox]
    cases a with
    | getAdPlayPolicy barId =>
        rw [handle_policy]
        rfl
    | getAdList =>
        rw [handle_adList]
        rfl
    | getAdFile file =>
        cases hfind : cache.find file with
        | none =>
            obtain ⟨rsp, hhandle⟩ := handle_no_file hfind id
            rw [hhandle]
            rfl
        | some pos =>
            rw [handle_file hfind]
            rfl

/-- Both ends of a connection on which nothing can happen are stuck. -/
theorem stuck_of_concerns {skipField : UInt32 → Bytes → Option Bytes} {b : Bar ι} {i : ι}
    {asks : List Ask} (hserved : AllServed skipField b) (hposted : Posted asks (b.clients i).session)
    (hsize : AllSized b) (hno : ∀ e, Concerns i e → barStep (parser skipField) b e = none) :
    b.busy = none ∧ Stuck (parser skipField) (b.clients i) (b.sessions i).session.wire ∧
      Stuck (parser skipField) (b.sessions i) (b.clients i).session.wire := by
  have hbusy : b.busy = none := by
    have hreply := hno (.reply []) trivial
    rwa [barStep, Option.map_eq_none_iff] at hreply
  refine ⟨hbusy, ?_, ?_⟩
  · intro e he
    have hclient := hno (.client i e) ⟨rfl, he⟩
    rwa [barStep, if_pos he.1, Option.map_eq_none_iff] at hclient
  · rintro e ⟨he, hacts⟩
    rcases he with he | rfl
    · have hserver := hno (.server i e) ⟨rfl, Or.inl he, hacts⟩
      rwa [barStep, if_pos ⟨he, Or.inl (by rw [hbusy]; rfl)⟩, Option.map_eq_none_iff] at hserver
    · have hserve := hno (.serve i) rfl
      rw [barStep, if_pos (by rw [hbusy]; rfl), Option.bind_eq_none_iff] at hserve
      by_contra hne
      obtain ⟨p, hp⟩ := Option.ne_none_iff_exists'.mp hne
      obtain ⟨_, hcase⟩ := served_dispatched (hserved.served i) hposted (hsize i).1 hp
      have hsome : (Server.serve b.cache i p).isSome = true := by
        refine serve_isSome b.cache i (hcase.imp_right ?_)
        rintro ⟨a, id, _, hinbox⟩
        exact ⟨_, a, id, hinbox⟩
      obtain ⟨out, hout⟩ := Option.isSome_iff_exists.mp hsome
      have hnone := hserve p hp
      rw [hout] at hnone
      exact absurd hnone (by simp)

/-- A thread takes the answer it waits for. -/
theorem delivery_enabled {y : Environment} {b : ThreadBiz} (hwaits : b.stage.waits = true) (rsp : Message)
    (rehash : Bool) : ∃ e b', delivery rsp rehash b.stage = some e ∧ step y b e = some b' := by
  cases hstage : b.stage with
  | policy => exact ⟨_, _, rfl, by rw [step, hstage]⟩
  | adList root => exact ⟨_, _, rfl, by rw [step, hstage]⟩
  | file id ad p => exact ⟨_, _, rfl, by rw [step, hstage]⟩
  | _ => exact absurd (hstage ▸ hwaits) (by simp [Stage.waits])

/-- **While a client's thread waits, a bar in service can go on**: on the thread's connection, or the thread
itself can. -/
theorem waiting_goes_on (x : Setup ι) (es : List (WiredEvent ι))
    (h : run x.servingStep x.wired₀ es = some w)
    (hvalid : EveryStep x.servingStep ValidReply x.wired₀ es) (hsize : AllSized w.bar) (i : ι)
    (hwaits : (w.clients i).biz.stage.waits = true) (rehash : Bool) :
    (∃ e w', Concerns i e ∧ x.servingStep w (.net e) = some w') ∨
      ∃ w', x.servingStep w (.resume i rehash) = some w' := by
  by_cases hsome : ∃ e w', Concerns i e ∧ x.servingStep w (.net e) = some w'
  · exact Or.inl hsome
  right
  have hsub : ∀ e ∈ es, ∀ w w', x.servingStep w e = some w' → x.wiredStep w e = some w' :=
    fun _ _ _ _ => Setup.wiredStep_of_serving
  have hwired := run_of_step hsub h
  obtain ⟨_, d, _, hrefines⟩ := refines_run hwired (everyStep_of_step hsub h hvalid) hsize
  have hup : SocketsUp w.bar := inv_run (I := fun w : Wired ι => SocketsUp w.bar)
    (fun _ => ⟨rfl, rfl⟩) (fun _ _ _ hI hs => hI.step hs) hwired
  obtain ⟨asks, hlink⟩ := hrefines.links i
  have hno : ∀ e, Concerns i e → barStep (parser x.skipField) w.bar e = none := by
    intro e he
    by_contra hne
    obtain ⟨b, hb⟩ := Option.ne_none_iff_exists'.mp hne
    refine hsome ⟨e, { w with bar := b }, he, ?_⟩
    have hnet : isNet e = true := by
      cases e <;> first | rfl | exact he.elim
    show x.wiredStep w (.net e) = _
    rw [Setup.wiredStep, if_pos hnet, hb]
    rfl
  obtain ⟨hbusy, hstuckc, hstucks⟩ := stuck_of_concerns hrefines.served hlink.posted hsize hno
  have hserved := hrefines.served.served i
  have hreply : replyFor w.bar i = none := by
    rw [replyFor, hbusy]
    rfl
  rw [hreply] at hserved
  have hall := all_completed hserved hlink.posted (hsize i).1 (hsize i).2 (hup i).1 (hup i).2 hstuckc
    hstucks
  -- the promise waited for is that of the last request
  obtain ⟨k, hk⟩ := Option.isSome_iff_exists.mp (hlink.waits.trans hwaits)
  have hlast : k < (w.bar.clients i).session.completed.length := by
    obtain ⟨a, ha, _⟩ := hlink.request k hk
    rw [hall]
    exact (List.getElem?_eq_some_iff.mp ha).1
  have hprom : k ∈ (w.bar.clients i).session.completed.map Completion.prom := by
    rw [(hserved.answeredInTurn hlink.posted).order, List.mem_range]
    exact hlast
  obtain ⟨cpl, hcpl, hcplk⟩ := List.mem_map.mp hprom
  have hset : (w.setTo i).isSome = true := by
    rw [Wired.setTo, Option.isSome_map, List.find?_isSome]
    exact ⟨cpl, hcpl, by rw [hk, hcplk]; exact beq_self_eq_true _⟩
  obtain ⟨rsp, hrsp⟩ := Option.isSome_iff_exists.mp hset
  obtain ⟨e, b', he, hb'⟩ := delivery_enabled (y := x.client i) hwaits rsp rehash
  apply Option.isSome_iff_exists.mp
  show (x.wiredStep w (.resume i rehash)).isSome = true
  rw [Setup.wiredStep, hrsp, Option.bind_some, he, Option.bind_some, Party.step, hb']
  rfl

/-- Client `false` has its policy and waits for the ad list. -/
theorem waiting_goes_on_policy :
    ∃ w, run sampleSetup.servingStep sampleSetup.wired₀ policyOverWire = some w ∧
      ((∃ e w', Concerns false e ∧ sampleSetup.servingStep w (.net e) = some w') ∨
        ∃ w', sampleSetup.servingStep w (.resume false false) = some w') := by
  obtain ⟨w, hw, hvalid, hsize, -, hwaits⟩ := policyOverWire_run
  have hserving : ∀ e ∈ policyOverWire, e.endsBusiness = false := by decide +kernel
  have hsub : ∀ e ∈ policyOverWire, ∀ w w',
      sampleSetup.wiredStep w e = some w' → sampleSetup.servingStep w e = some w' := by
    intro e he w w' hs
    rw [Setup.servingStep, hserving e he]
    exact hs
  have hrun := run_of_step hsub hw
  exact ⟨w, hrun, waiting_goes_on sampleSetup _ hrun (everyStep_of_step hsub hw hvalid) hsize false hwaits
    false⟩

end AdManager.Business
