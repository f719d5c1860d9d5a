/-
# AdManager.Business.Exchange — a client's requests and the responses posted to them.

`Link` follows one client and its connection: the requests that it has made, the responses posted to it at
the server, and the one request that may be open. From the moment at which its response is posted the open
request has an answer, the message that can be read in that response. That the client is given this message
and no other is what `Served` says of the connection (`Link.answered`).

A file is looked up before its response is posted, and read through the position found. The answer is that of
the later moment, which is the same as long as the position is valid.
-/
import AdManager.Business.Wired

namespace AdManager.Business

open AdManager.Wire AdManager.Lib AdManager.Server AdManager.Session AdManager.Link
open TcpSession (frameOf ctxOf)

/-! ## Answers in posted responses -/

section Answers

variable (skipField : UInt32 → Bytes → Option Bytes)

/-- What a client reads in a posted response. -/
def answerIn (post : Post) : Option Message :=
  if (frameOf 0 post).body.length < 2 ^ 31 then Message.parseFromArray skipField (frameOf 0 post).body
  else none

variable {skipField} {c : Cache} {req : Message}

theorem answerOf_queueData {msgID : UInt64} {data : Bytes} (ref : Nat)
    (h : handleRequest c req = .queueData msgID data) :
    answerOf skipField c req = answerIn skipField (.rspData msgID data ref) := by
  rw [answerOf, respond, h]
  rfl

theorem answerOf_queueMsg {rsp : Message} (ref : Nat) (h : handleRequest c req = .queueMsg rsp) :
    answerOf skipField c req = answerIn skipField (.rspMsg rsp ref) := by
  rw [answerOf, respond, h]
  rfl

theorem answerOf_queueImage {msgID : UInt64} {pos : ImagePos} (ref : Nat)
    (h : handleRequest c req = .queueImage msgID pos) :
    answerOf skipField c req = answerIn skipField (.rspData msgID (c.deref pos []) ref) := by
  rw [answerOf, respond, h]
  rfl

/-- The answer can be read in the frame, whatever the counter was when it was queued. -/
theorem answerIn_frame {n : UInt32} {post : Post} {k : Nat} {msg : Message}
    (horigin : (frameOf n post).origin = .response k) (hlen : (frameOf n post).body.length < 2 ^ 31)
    (hmsg : parser skipField (frameOf n post).body = some msg) : answerIn skipField post = some msg := by
  have hbody : (frameOf n post).body = (frameOf 0 post).body := by
    cases post with
    | request msg prom => exact absurd horigin (by simp [frameOf])
    | rspMsg rsp ref => rfl
    | rspData msgID data ref => rfl
  rw [hbody] at hlen hmsg
  rw [answerIn, if_pos hlen]
  exact hmsg

/-! The three requests of a client. -/

theorem handle_policy (c : Cache) (barId : UInt32) (id : Int64) :
    handleRequest c { (Ask.getAdPlayPolicy barId).message with id := id } =
      .queueData id.toUInt64 c.bufPolicy :=
  handleRequest_getAdPlayPolicy c rfl

theorem handle_adList (c : Cache) (id : Int64) :
    handleRequest c { Ask.getAdList.message with id := id } = .queueData id.toUInt64 c.bufAdList :=
  handleRequest_getAdList c rfl

theorem handle_file {file : UInt32} {pos : ImagePos} (hfind : c.find file = some pos) (id : Int64) :
    handleRequest c { (Ask.getAdFile file).message with id := id } = .queueImage id.toUInt64 pos := by
  rw [handleRequest_getAdFile c rfl (readId_leBytes file), hfind]

theorem handle_no_file {file : UInt32} (hfind : c.find file = none) (id : Int64) :
    ∃ rsp, handleRequest c { (Ask.getAdFile file).message with id := id } = .queueMsg rsp := by
  rw [handleRequest_getAdFile c rfl (readId_leBytes file), hfind]
  exact ⟨_, rfl⟩

variable {ι : Type*}

variable (skipField) in
/-- **`handleRequest` for a client's request**: the answer is posted, or the file was looked up. -/
theorem serve_cases {i : ι} {p : Peer} {out : Peer × Option (Reply ι)} {ref : Nat} {a : Ask} {id : Int64}
    (hinbox : p.inbox = [(ref, { a.message with id := id })]) (h : Server.serve c i p = some out) :
    (out.2 = none ∧ ∃ post, out.1.session = { p.session with posts := p.session.posts ++ [post] } ∧
        answerOf skipField c { a.message with id := id } = answerIn skipField post) ∨
      ∃ file pos, a = .getAdFile file ∧ c.find file = some pos ∧ out.1.session = p.session ∧
        out.2 = some { client := i, msgID := id.toUInt64, ref := ref, pos := pos } := by
  simp only [Server.serve, hinbox] at h
  cases a with
  | getAdPlayPolicy barId =>
      rw [handle_policy] at h
      obtain rfl := Option.some.inj h
      exact Or.inl ⟨rfl, _, rfl, answerOf_queueData ref (handle_policy c barId id)⟩
  | getAdList =>
      rw [handle_adList] at h
      obtain rfl := Option.some.inj h
      exact Or.inl ⟨rfl, _, rfl, answerOf_queueData ref (handle_adList c id)⟩
  | getAdFile file =>
      cases hfind : c.find file with
      | none =>
          obtain ⟨rsp, hhandle⟩ := handle_no_file hfind id
          rw [hhandle] at h
          obtain rfl := Option.some.inj h
          exact Or.inl ⟨rfl, _, rfl, answerOf_queueMsg ref hhandle⟩
      | some pos =>
          rw [handle_file hfind] at h
          obtain rfl := Option.some.inj h
          exact Or.inr ⟨file, pos, rfl, hfind, rfl, rfl⟩

/-- **A response through a valid position** is the answer to the request that was looked up. -/
theorem answerOf_reply {file : UInt32} {pos : ImagePos} (hc : c.Distinct) (hleads : LeadsTo c pos file)
    (hvalid : (c.nodeAt pos).isSome) (msgID : UInt64) (garbage : Bytes) (ref : Nat) :
    answerOf skipField c { (Ask.getAdFile file).message with id := msgID.toInt64 } =
      answerIn skipField (.rspData msgID (c.deref pos garbage) ref) := by
  obtain ⟨pos', hfind, hderef⟩ := hleads.find hc hvalid garbage []
  have hid : msgID.toInt64.toUInt64 = msgID := Agree.toInt64_inj rfl
  rw [answerOf_queueImage ref (handle_file hfind msgID.toInt64), hderef, hid]

end Answers

/-! ## One connection -/

variable {ι : Type*} {skipField : UInt32 → Bytes → Option Bytes}

/-- The calls of a session stay where they are: some handlers have run, the others have not yet. -/
theorem calls_step {parse : Bytes → Option Message} {p p' : Peer} {wire : Bytes} {e : PeerEvent}
    (he : isIo e = true ∨ e = .complete) (hs : p.step parse wire e = some p') :
    p'.session.ran ++ p'.session.posts = p.session.ran ++ p.session.posts := by
  cases e with
  | runPost =>
      obtain ⟨t, ht, rfl⟩ := Option.map_eq_some_iff.mp hs
      obtain ⟨q, qs, hposts, _, hposts', hran, _⟩ := TcpSession.runPost_spec ht
      show t.ran ++ t.posts = _
      rw [hran, hposts', hposts, List.append_assoc, List.singleton_append]
  | writeSome i n =>
      obtain ⟨t, ht, rfl⟩ := Option.map_eq_some_iff.mp hs
      obtain ⟨_, _, _, _, _, rfl⟩ := TcpSession.writeSome_spec ht
      rfl
  | writeDone i =>
      obtain ⟨t, ht, rfl⟩ := Option.map_eq_some_iff.mp hs
      obtain ⟨_, _, _, rfl⟩ := TcpSession.writeDone_spec ht
      rw [TcpSession.writeData_eq]
  | arrive chunk =>
      simp only [Peer.step] at hs
      split at hs
      · obtain rfl := Option.some.inj hs
        rfl
      · exact absurd hs (by simp)
  | readSome n =>
      obtain ⟨r, _, rfl⟩ := Option.map_eq_some_iff.mp hs
      rfl
  | complete =>
      obtain ⟨⟨r, out⟩, _, rfl⟩ := Option.map_eq_some_iff.mp hs
      cases out with
      | none => rfl
      | some m =>
          show (p.session.inbound p.inCount m).1.ran ++ (p.session.inbound p.inCount m).1.posts = _
          rcases p.session.inbound_cases p.inCount m with ⟨_, _, _, _, heq⟩ | ⟨_, heq⟩ <;> rw [heq]
  | request msg => simp [isIo] at he
  | answer i rsp => simp [isIo] at he
  | answerData i cached => simp [isIo] at he

theorem framesOf_length (n : UInt32) (ps : List Post) : (framesOf n ps).length = ps.length := by
  induction ps generalizing n with
  | nil => rfl
  | cons p ps ih => rw [framesOf, List.length_cons, List.length_cons, ih]

variable {c c' s s' p : Peer} {rp rp' : Option (Reply ι)} {asks : List Ask}

/-- **No response without its request**: the responses posted, and the one looked up, are those to the
requests dispatched, which the client has made. -/
theorem served_counts (h : Served skipField c s rp) (hposted : Posted asks c.session) :
    (s.session.ran ++ s.session.posts).length + (if rp.isSome then 1 else 0) = s.inCount ∧
      s.inCount ≤ asks.length := by
  have hcount := h.server.count
  rw [h.down.side.order, framesOf_length] at hcount
  have hle := h.server.bounded
  have hasks := congrArg List.length hposted.calls
  rw [h.up.side.order, framesOf_length] at hle
  rw [List.length_append, postsOf, List.length_map, List.length_zipIdx] at hasks
  rw [List.length_append]
  omega

/-- What the server's session dispatches next is the client's next request. -/
theorem served_dispatched (h : Served skipField c s rp) (hposted : Posted asks c.session) (hc : Sized c)
    (hs : s.complete (parser skipField) = some p) :
    p.session = s.session ∧ (p.inbox = [] ∨ ∃ a id, asks[s.inCount]? = some a ∧
      p.inbox = [(s.inCount, { a.message with id := id })]) := by
  obtain ⟨_, hsession, hcase⟩ := h.server_complete hc hs
  refine ⟨hsession, ?_⟩
  rcases hcase with ⟨hnil, _⟩ | ⟨g, a', ctx, hg, _, _, _, hinbox⟩
  · exact Or.inl hnil
  · right
    obtain ⟨a, n, ha, hframe⟩ := hposted.frame_get h.up.side.order hg
    refine ⟨a, n.toUInt64.toInt64, ha, ?_⟩
    obtain ⟨⟨r, out⟩, hr, rfl⟩ := Option.map_eq_some_iff.mp hs
    cases out with
    | none =>
        rw [show s.inbox = [] from h.server.mailbox] at hinbox
        exact absurd hinbox (by simp)
    | some m =>
        obtain ⟨g', hg', hm⟩ := h.up.complete_next (Served.sized32 hc) (h.client_parses hc) hr
        obtain rfl : g = g' := Option.some.inj (hg.symm.trans hg')
        -- the frame is that of the `inCount`-th call, and is read back as it was sent
        have hlen := hc g (List.mem_of_getElem? hg)
        rw [hframe, frameOf_request_body] at hlen hm
        have hback := Message.parse_serialize skipField
          (m := { a.message with id := n.toUInt64.toInt64 })
          ⟨a.wellFormed.method, a.wellFormed.returnMsg⟩ hlen
        obtain rfl := Option.some.inj (hback.symm.trans hm)
        have hin : s.session.inbound s.inCount { a.message with id := n.toUInt64.toInt64 } =
            (s.session, some { a.message with id := n.toUInt64.toInt64 }) := by
          rw [TcpSession.inbound, h.server.passive, List.find?_nil]
          cases a <;> rfl
        simp [Peer.dispatch, hin, h.server.mailbox]

/-! ## One exchange -/

/-- **Where a client's last request stands**, of all it has asked for and the responses posted to it. There
is none open; or the thread waits for promise `k` and the server has not answered, though it may have looked
a file up; or the answer was posted. The last argument is the answer that is on its way in the
distribution. -/
inductive Exchange (skipField : UInt32 → Bytes → Option Bytes) (cache : Cache) (asks : List Ask)
    (posts : List Post) (rp : Option (Reply ι)) : Option Nat → Option Message → Prop
  | idle (hposts : posts.length = asks.length) : Exchange skipField cache asks posts rp none none
  | pending (k : Nat) (hk : k + 1 = asks.length) (hposts : posts.length = k)
      (hrp : ∀ r ∈ rp, ∃ file, asks[k]? = some (.getAdFile file) ∧ LeadsTo cache r.pos file) :
      Exchange skipField cache asks posts rp (some k) none
  | answered (k : Nat) (post : Post) (hk : k + 1 = asks.length) (hposts : posts.length = k + 1)
      (hpost : posts[k]? = some post) :
      Exchange skipField cache asks posts rp (some k) (answerIn skipField post)

/-- **A client and its connection**, of which it has asked for `asks`. -/
structure Link (skipField : UInt32 → Bytes → Option Bytes) (cache : Cache) (asks : List Ask) (p : Party)
    (waiting : Option Nat) (answer : Option Message) (c s : Peer) (rp : Option (Reply ι)) : Prop where
  posted : Posted asks c.session
  waits : waiting.isSome = p.biz.stage.waits
  request : ∀ k ∈ waiting, ∃ a, asks[k]? = some a ∧ p.request? = some a.message
  exchange : Exchange skipField cache asks (s.session.ran ++ s.session.posts) rp waiting answer

namespace Link

variable {cache cache' : Cache} {p p' : Party} {waiting : Option Nat} {answer : Option Message}

/-- The connection's own events. -/
theorem of_calls (h : Link skipField cache asks p waiting answer c s rp) (hposted : Posted asks c'.session)
    (hcalls : s'.session.ran ++ s'.session.posts = s.session.ran ++ s.session.posts) :
    Link skipField cache asks p waiting answer c' s' rp :=
  ⟨hposted, h.waits, h.request, hcalls ▸ h.exchange⟩

/-- The server's thread writes the cache. -/
theorem keep (h : Link skipField cache asks p waiting answer c s rp) (hkeeps : KeepsNodes cache cache') :
    Link skipField cache' asks p waiting answer c s rp := by
  refine ⟨h.posted, h.waits, h.request, ?_⟩
  obtain ⟨_, _, _, hexchange⟩ := h
  cases hexchange with
  | idle hposts => exact .idle hposts
  | pending k hk hposts hrp =>
      refine .pending k hk hposts ?_
      intro r hr
      obtain ⟨file, ha, hleads⟩ := hrp r hr
      exact ⟨file, ha, hleads.keep hkeeps⟩
  | answered k post hk hposts hpost => exact .answered k post hk hposts hpost

/-- The client's thread stays where it is. -/
theorem stays (h : Link skipField cache asks p waiting answer c s rp)
    (hstage : p'.biz.stage = p.biz.stage) (hout : p'.biz.outgoing = p.biz.outgoing) :
    Link skipField cache asks p' waiting answer c s rp := by
  refine ⟨h.posted, hstage ▸ h.waits, ?_, h.exchange⟩
  intro k hk
  rw [Party.request?, hstage, hout]
  exact h.request k hk

/-- The thread goes on, with everything answered, and asks for nothing. -/
theorem goesOn (hposted : Posted asks c.session)
    (hposts : (s.session.ran ++ s.session.posts).length = asks.length)
    (hstage : p'.biz.stage.waits = false) : Link skipField cache asks p' none none c s rp :=
  ⟨hposted, hstage.symm, by simp, .idle hposts⟩

/-- The thread asks for `a`, with everything before it answered. -/
theorem asksFor (hposted : Posted asks c.session)
    (hposts : (s.session.ran ++ s.session.posts).length = asks.length) (hrp : rp = none) (a : Ask)
    (hstage : p'.biz.stage.waits = true)
    (hlast : p'.biz.outgoing.getLast? = some (.request a.message)) :
    Link skipField cache (asks ++ [a]) p' (some c.session.nextProm) none
      { c with session := c.session.request a.message } s rp := by
  refine ⟨hposted.request a, hstage.symm, ?_, ?_⟩
  · rintro k ⟨⟩
    refine ⟨a, ?_, ?_⟩
    · rw [hposted.next, List.getElem?_concat_length]
    · rw [Party.request?, if_pos hstage, hlast]
      rfl
  · refine .pending _ ?_ (hposts.trans hposted.next.symm) ?_
    · rw [hposted.next, List.length_append, List.length_singleton]
    · simp [hrp]

/-- **The answer that the connection has brought** is the one on its way in the distribution, and everything
asked for was answered. -/
theorem answered (h : Link skipField cache asks p waiting answer c s rp)
    (hserved : Served skipField c s rp) (hsize : Sized s) {cpl : Completion}
    (hcpl : cpl ∈ c.session.completed) (hwaiting : waiting = some cpl.prom) :
    answer = some cpl.msg ∧ (s.session.ran ++ s.session.posts).length = asks.length := by
  obtain ⟨k, hk⟩ := List.mem_iff_getElem?.mp hcpl
  have hturn := hserved.answeredInTurn h.posted
  have hprom : cpl.prom = k := by
    have hmap : (c.session.completed.map Completion.prom)[k]? = some cpl.prom := by
      rw [List.getElem?_map, hk]
      rfl
    rw [hturn.order] at hmap
    obtain ⟨_, hrange⟩ := List.getElem?_eq_some_iff.mp hmap
    rw [List.getElem_range] at hrange
    exact hrange.symm
  obtain ⟨a, n, f, _, _, hf, horigin, hmsg, _⟩ := hturn.answered k cpl hk
  -- the frame is that of the `k`-th response posted
  have hran : s.session.queued[k]? = some f := hf
  rw [hserved.down.side.order] at hran
  obtain ⟨m, post, hpost, rfl⟩ : ∃ m post, (s.session.ran ++ s.session.posts)[k]? = some post ∧
      f = frameOf m post := by
    obtain ⟨m, post, hpost, hframe⟩ := framesOf_getElem? hran
    exact ⟨m, post, getElem?_of_prefix (List.prefix_append _ _) hpost, hframe⟩
  have hread := answerIn_frame horigin (hsize _ (List.mem_of_getElem? hf)) hmsg
  obtain ⟨_, _, _, hexchange⟩ := h
  rw [hwaiting, hprom] at hexchange
  cases hexchange with
  | pending _ hk' hposts hrp =>
      rw [List.getElem?_eq_none (by omega)] at hpost
      exact absurd hpost (by simp)
  | answered _ post' hk' hposts hpost' =>
      obtain rfl : post' = post := Option.some.inj (hpost'.symm.trans hpost)
      exact ⟨hread, hposts.trans hk'⟩

/-- What the distribution does when `L` comes to hold of the answer on its way: nothing, or it handles the
client's request. -/
def Handles (skipField : UInt32 → Bytes → Option Bytes) (cache : Cache) (p : Party)
    (answer : Option Message) (L : Option Message → Prop) : Prop :=
  L answer ∨ answer = none ∧ ∃ req id rsp, p.request? = some req ∧
    answerOf skipField cache { req with id := id } = some rsp ∧ L (some rsp)

/-- **A response is posted to the open request.** -/
theorem respond (h : Link skipField cache asks p waiting answer c s rp) {a : Ask} {id : Int64} {post : Post}
    (hcount : (s.session.ran ++ s.session.posts).length < asks.length)
    (ha : asks[(s.session.ran ++ s.session.posts).length]? = some a)
    (hanswer : answerOf skipField cache { a.message with id := id } = answerIn skipField post)
    (hcalls : s'.session.ran ++ s'.session.posts = s.session.ran ++ s.session.posts ++ [post]) :
    Handles skipField cache p answer
      fun answer' => Link skipField cache asks p waiting answer' c s' rp' := by
  obtain ⟨hposted, hwaits, hrequest, hexchange⟩ := h
  cases hexchange with
  | idle hposts => omega
  | answered k post' hk hposts hpost => omega
  | pending k hk hposts hrp =>
      obtain ⟨a', ha', hreq⟩ := hrequest k rfl
      obtain rfl : a' = a := Option.some.inj (ha'.symm.trans (hposts ▸ ha))
      have hlink : Link skipField cache asks p (some k) (answerIn skipField post) c s' rp' := by
        refine ⟨hposted, hwaits, hrequest, .answered k post hk ?_ ?_⟩
        · rw [hcalls, List.length_append, hposts, List.length_singleton]
        · rw [hcalls, ← hposts, List.getElem?_concat_length]
      cases hread : answerIn skipField post with
      | none => exact Or.inl (hread ▸ hlink)
      | some rsp => exact Or.inr ⟨rfl, a'.message, id, rsp, hreq, hanswer.trans hread, hread ▸ hlink⟩

/-- **A request is dispatched at the server**, or bytes that are not one yet. -/
theorem serve (h : Link skipField cache asks p waiting answer c s (none : Option (Reply ι)))
    (hserved : Served skipField c s (none : Option (Reply ι))) (hc : Sized c) (hdistinct : cache.Distinct)
    {i : ι} {q : Peer} {out : Peer × Option (Reply ι)} (hs : s.complete (parser skipField) = some q)
    (hserve : Server.serve cache i q = some out) :
    Handles skipField cache p answer
      fun answer' => Link skipField cache asks p waiting answer' c out.1 out.2 := by
  obtain ⟨hsession, hcase⟩ := served_dispatched hserved h.posted hc hs
  obtain ⟨hcount, _⟩ := served_counts hserved h.posted
  rcases hcase with hnil | ⟨a, id, ha, hinbox⟩
  · left
    simp only [Server.serve, hnil, Option.some.injEq] at hserve
    subst hserve
    exact h.of_calls h.posted (by rw [hsession])
  · have hlen : (s.session.ran ++ s.session.posts).length = s.inCount := by simpa using hcount
    have hlt : s.inCount < asks.length := (List.getElem?_eq_some_iff.mp ha).1
    rcases serve_cases skipField hinbox hserve with
      ⟨hnone, post, hout, hanswer⟩ | ⟨file, pos, rfl, hfind, hout, hsome⟩
    · rw [hnone]
      refine h.respond (hlen ▸ hlt) (hlen ▸ ha) hanswer ?_
      rw [hout, hsession, List.append_assoc]
    · -- the file was looked up, and nothing is posted yet
      left
      obtain ⟨hposted, hwaits, hrequest, hexchange⟩ := h
      refine ⟨hposted, hwaits, hrequest, ?_⟩
      rw [hout, hsession]
      cases hexchange with
      | idle hposts => omega
      | answered k post hk hposts hpost => omega
      | pending k hk hposts hrp =>
          refine .pending k hk hposts ?_
          intro r hr
          obtain rfl := Option.some.inj (hsome.symm.trans hr)
          exact ⟨file, (hposts.symm.trans hlen) ▸ ha, LeadsTo.of_find hdistinct hfind⟩

/-- **The response to a request for a file is posted**, through a valid position. -/
theorem reply {r : Reply ι} (h : Link skipField cache asks p waiting answer c s (some r))
    (hserved : Served skipField c s (some r)) (hdistinct : cache.Distinct)
    (hvalid : (cache.nodeAt r.pos).isSome) (garbage : Bytes) :
    Handles skipField cache p answer fun answer' =>
      Link skipField cache asks p waiting answer' c
        { s with session := s.session.queueRspData r.msgID (cache.deref r.pos garbage) r.ref }
        (none : Option (Reply ι)) := by
  obtain ⟨hcount, hle⟩ := served_counts hserved h.posted
  rw [Option.isSome_some, if_pos rfl] at hcount
  have hlt : (s.session.ran ++ s.session.posts).length < asks.length := by omega
  obtain ⟨file, ha, hleads⟩ : ∃ file,
      asks[(s.session.ran ++ s.session.posts).length]? = some (.getAdFile file) ∧
        LeadsTo cache r.pos file := by
    obtain ⟨_, _, _, hexchange⟩ := h
    cases hexchange with
    | idle hposts => omega
    | answered k post hk hposts hpost => omega
    | pending k hk hposts hrp => exact hposts ▸ hrp r rfl
  refine h.respond hlt ha (answerOf_reply hdistinct hleads hvalid r.msgID garbage r.ref) ?_
  exact (List.append_assoc _ _ _).symm

end Link

end AdManager.Business
