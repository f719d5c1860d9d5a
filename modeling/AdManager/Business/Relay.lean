/-
# AdManager.Business.Relay — what a bar server answers.

A bar server is a business thread, which fills the cache, and any number of sessions, whose requests are
answered from it. The answers are kept serialized and get their id only when they are sent; what they say
is a matter of the whole history of exchanges with the center. Here `handleRequest` runs while the
business thread rests; what the thread can do between its two halves is in `AdManager.Server.Bar`.

Two results: in every reachable state the server answers with the last contents it accepted and with
verified files; and which requests get exactly one answer.
-/
import AdManager.Business.Downloads

namespace AdManager.Business

open AdManager.Wire AdManager.Lib AdManager.Server AdManager.Session
open TcpSession (frameOf)

/-! ## The server -/

/-- The business thread and the sessions. -/
structure BarServer (ι : Type*) where
  biz : ThreadBiz
  sessions : ι → TcpSession := fun _ => {}

/-- `handleRequest` for the request `req`, which is the inbound message number `ref` of the session. -/
def respond (c : Cache) (s : TcpSession) (ref : Nat) (req : Message) : Option TcpSession :=
  match handleRequest c req with
  | .queueData msgID data => some (s.queueRspData msgID data ref)
  | .queueMsg rsp => some (s.queueRspMsg rsp ref)
  | .queueImage msgID pos => some (s.queueRspData msgID (c.deref pos []) ref)
  -- `getAd` is only logged
  | .nothing => some s
  -- the id is read beyond the content
  | .outOfBounds => none

/-- The events of a session that are neither calls from outside nor inbound messages. -/
def ofNetwork : Session.Event → Bool
  | .request _ => false
  | .queueRspMsg _ _ => false
  | .queueRspData _ _ _ => false
  | .inbound _ _ => false
  | _ => true

/-- What can happen: an event of the business thread, the parsed inbound message number `ref` of a
session, another event of a session. -/
inductive ServerEvent (ι : Type*) where
  | biz (e : BizEvent)
  | inbound (i : ι) (ref : Nat) (msg : Message)
  | session (i : ι) (e : Session.Event)

/-- The event of the business thread. -/
def ServerEvent.biz? {ι : Type*} : ServerEvent ι → Option BizEvent
  | .biz e => some e
  | .inbound _ _ _ => none
  | .session _ _ => none

variable {ι : Type*} [DecidableEq ι]

/-- One event. Inbound messages have been parsed, so they are well formed. -/
def serverStep (x : Environment) (s : BarServer ι) : ServerEvent ι → Option (BarServer ι)
  | .biz e => (step x s.biz e).map fun b => { s with biz := b }
  | .inbound i ref msg =>
      if msg.WellFormed then
        let out := (s.sessions i).inbound ref msg
        match out.2 with
        -- the message answers a request of the server's own
        | none => some { s with sessions := Function.update s.sessions i out.1 }
        | some req => (respond s.biz.impl.cache out.1 ref req).map fun t =>
            { s with sessions := Function.update s.sessions i t }
      else none
  | .session i e =>
      if ofNetwork e then
        (Session.step (s.sessions i) e).map fun t =>
          { s with sessions := Function.update s.sessions i t }
      else none

/-- A bar server before the business thread has connected. -/
def BarServer.init (barId : Bytes) (hasPlayer : Bool) : BarServer ι where
  biz := ThreadBiz.init barId true hasPlayer

/-- The events of the business thread in a history of the server. -/
def bizEvents (es : List (ServerEvent ι)) : List BizEvent := es.filterMap ServerEvent.biz?

/-- The business thread of the server runs by itself. -/
theorem biz_run {x : Environment} {s t : BarServer ι} {es : List (ServerEvent ι)}
    (h : run (serverStep x) s es = some t) : run (step x) s.biz (bizEvents es) = some t.biz := by
  refine run_filterMap ?_ ?_ h
  · intro u e u' hs e' he
    cases e with
    | biz e =>
        obtain rfl := Option.some.inj he
        obtain ⟨b, hb, rfl⟩ := Option.map_eq_some_iff.mp hs
        exact hb
    | inbound i ref msg => exact absurd he (by simp [ServerEvent.biz?])
    | session i e => exact absurd he (by simp [ServerEvent.biz?])
  · intro u e u' hs he
    cases e with
    | biz e => exact absurd he (by simp [ServerEvent.biz?])
    | inbound i ref msg =>
        simp only [serverStep] at hs
        split at hs
        · split at hs
          · obtain rfl := Option.some.inj hs
            rfl
          · obtain ⟨t, _, rfl⟩ := Option.map_eq_some_iff.mp hs
            rfl
        · exact absurd hs (by simp)
    | session i e =>
        simp only [serverStep] at hs
        split at hs
        · obtain ⟨t, _, rfl⟩ := Option.map_eq_some_iff.mp hs
          rfl
        · exact absurd hs (by simp)

/-! ## What is cached -/

/-- The answer for `method` without an id: the content, if there is one, or else `missing`. -/
def answerFor (method missing : Bytes) : Option Bytes → Message
  | some content => { method := method, content := content }
  | none => { returnCode := errorDataNotExist, method := method, returnMsg := missing }

/-- The answer to `getAdPlayPolicy`. -/
def policyAnswerFor (content : Option Bytes) : Message :=
  answerFor (ascii "getAdPlayPolicy") (ascii "AdPlayPolicy not exist") content

/-- The answer to `getAdList`. -/
def adListAnswerFor (content : Option Bytes) : Message :=
  answerFor (ascii "getAdList") (ascii "AdList not exist") content

/-- The buffers hold the last content accepted, before and after an event. -/
theorem buffers_step {x : Environment} {b b' : ThreadBiz} {e : BizEvent}
    (hs : step x b e = some b') {policy adList : Option Bytes}
    (hpolicy : b.impl.cache.bufPolicy = (policyAnswerFor policy).serialize)
    (hlist : b.impl.cache.bufAdList = (adListAnswerFor adList).serialize) :
    b'.impl.cache.bufPolicy = (policyAnswerFor ((policyContent x e).or policy)).serialize ∧
      b'.impl.cache.bufAdList = (adListAnswerFor ((adListContent x e).or adList)).serialize := by
  cases dataStep hs with
  | same hquiet hdata =>
      rw [hdata.impl]
      cases e with
      | policyAnswer rsp => exact absurd hquiet (by simp [Quiet])
      | adListAnswer rsp =>
          exact ⟨hpolicy, by rw [adListContent_of_none hquiet]; exact hlist⟩
      | _ => exact ⟨hpolicy, hlist⟩
  | policy rsp he hdata =>
      subst he
      rw [hdata.impl]
      rcases b.impl.policyReceived_cases x rsp with ⟨hcode, heq⟩ | ⟨hcode, hparse, heq⟩ |
        ⟨hcode, hparse, heq⟩
      · have hnone : policyContent x (.policyAnswer rsp) = none := by simp [policyContent, hcode]
        rw [heq, hnone]
        exact ⟨hpolicy, hlist⟩
      · have hnone : policyContent x (.policyAnswer rsp) = none := by simp [policyContent, hparse]
        rw [heq, hnone]
        exact ⟨hpolicy, hlist⟩
      · have hsome : policyContent x (.policyAnswer rsp) = some rsp.content := by
          simp [policyContent, hcode, hparse]
        rw [heq, hsome]
        exact ⟨rfl, hlist⟩
  | list rsp ads he hads hdata =>
      subst he
      obtain ⟨hpass, hpass'⟩ := (b.impl.adListReceived ads rsp.content).pass_buffers
      rw [hdata.impl, adListContent_of_some hads, hpass, hpass', AdManagerImpl.adListReceived_eq]
      exact ⟨hpolicy, rfl⟩
  | retry f he hf htimer hend hdata =>
      subst he
      rw [hdata.impl]
      exact ⟨hpolicy, hlist⟩
  | image id ad urls p body rehash he hstage hverified hdata =>
      subst he
      obtain ⟨hpolicy', hlist'⟩ :=
        Cache.insert_buffers (c := b.impl.cache) id (fileAnswer body).serialize rehash
      rw [hdata.impl]
      exact ⟨hpolicy'.trans hpolicy, hlist'.trans hlist⟩
  | file id ad p rsp rehash he hstage hdata =>
      subst he
      obtain ⟨hpolicy', hlist'⟩ := Cache.insert_buffers (c := b.impl.cache) id rsp.content rehash
      rw [hdata.impl]
      by_cases hgood : rsp.returnCode = 0 ∧ x.verified ad rsp.content = true
      · rw [b.impl.fileReceived_verified hgood]
        exact ⟨hpolicy'.trans hpolicy, hlist'.trans hlist⟩
      · rw [b.impl.fileReceived_refused hgood]
        exact ⟨hpolicy, hlist⟩
  | ad rsp ad he hrec hdata =>
      subst he
      rw [hdata.impl]
      exact ⟨hpolicy, hlist⟩
  | ended he hdata =>
      subst he
      rw [hdata.impl]
      exact ⟨hpolicy, hlist⟩

theorem distinct_step {x : Environment} {b b' : ThreadBiz} {e : BizEvent}
    (hs : step x b e = some b') (h : b.impl.cache.Distinct) : b'.impl.cache.Distinct := by
  have hpass : ∀ s : AdManagerImpl, s.cache.Distinct → s.pass.cache.Distinct := by
    intro s hs
    unfold AdManagerImpl.pass
    split
    · exact hs
    · exact hs.evict _
  cases dataStep hs with
  | same hquiet hdata => rw [hdata.impl]; exact h
  | policy rsp he hdata =>
      rw [hdata.impl]
      rcases b.impl.policyReceived_cases x rsp with ⟨_, heq⟩ | ⟨_, _, heq⟩ | ⟨_, _, heq⟩ <;> rw [heq]
      · exact h
      · exact h
      · exact ⟨h.nodes, h.fresh, h.ids⟩
  | list rsp ads he hads hdata =>
      rw [hdata.impl]
      apply hpass
      rw [AdManagerImpl.adListReceived_eq]
      exact ⟨h.nodes, h.fresh, h.ids⟩
  | retry f he hf htimer hend hdata => rw [hdata.impl]; exact h.evict _
  | image id ad urls p body rehash he hstage hverified hdata =>
      rw [hdata.impl]
      exact h.insert id (fileAnswer body).serialize rehash
  | file id ad p rsp rehash he hstage hdata =>
      rw [hdata.impl]
      by_cases hgood : rsp.returnCode = 0 ∧ x.verified ad rsp.content = true
      · rw [b.impl.fileReceived_verified hgood]
        exact h.insert id rsp.content rehash
      · rw [b.impl.fileReceived_refused hgood]
        exact h
  | ad rsp ad he hrec hdata => rw [hdata.impl]; exact h
  | ended he hdata => rw [hdata.impl]; exact h

/-- **The cache of a server after the history `es` from `b₀`**: the last contents accepted, and files
that were fetched for the ids they are kept under. -/
structure Relayed (x : Environment) (b₀ : ThreadBiz) (es : List BizEvent) (b : ThreadBiz) : Prop where
  server : b.impl.isBarServer = true
  stage : b.AtStage
  distinct : b.impl.cache.Distinct
  policy : b.impl.cache.bufPolicy = (policyAnswerFor (acceptedPolicies x es).getLast?).serialize
  adList : b.impl.cache.bufAdList = (adListAnswerFor (acceptedAdLists x es).getLast?).serialize
  files : ∀ n ∈ b.impl.cache.bufImages, ∃ body, n.data = (fileAnswer body).serialize ∧
    FetchedIn x b₀ es n.id body

namespace Relayed

variable {x : Environment} {b₀ b b' : ThreadBiz} {es : List BizEvent} {e : BizEvent}

theorem init (x : Environment) (barId : Bytes) (hasPlayer : Bool) :
    Relayed x (ThreadBiz.init barId true hasPlayer) [] (ThreadBiz.init barId true hasPlayer) where
  server := rfl
  stage := trivial
  distinct := .init
  policy := rfl
  adList := rfl
  files := by simp [ThreadBiz.init, Cache.initResponseBuf]

theorem step (h : Relayed x b₀ es b) (hrun : run (step x) b₀ es = some b)
    (hs : Business.step x b e = some b') : Relayed x b₀ (es ++ [e]) b' := by
  obtain ⟨hgrows, hfiles⟩ := h.stage.files_step hs
  obtain ⟨hpolicy, hlist⟩ := buffers_step hs h.policy h.adList
  refine ⟨hgrows.isBarServer.trans h.server, h.stage.step hs, distinct_step hs h.distinct, ?_, ?_, ?_⟩
  · rw [hpolicy, acceptedPolicies_concat]
  · rw [hlist, acceptedAdLists_concat]
  · intro n hn
    rcases hfiles n hn with hn | ⟨body, hbytes, hcaches⟩
    · obtain ⟨body, hbytes, hfetched⟩ := h.files n hn
      exact ⟨body, hbytes, hfetched.append x [e]⟩
    · refine ⟨body, ?_, es, e, [], b, rfl, hrun, hcaches⟩
      rw [hbytes, AdManagerImpl.stored, if_pos h.server]

end Relayed

theorem relayed_run {x : Environment} {barId : Bytes} {hasPlayer : Bool} {es : List BizEvent}
    {b : ThreadBiz} (h : run (step x) (ThreadBiz.init barId true hasPlayer) es = some b) :
    Relayed x (ThreadBiz.init barId true hasPlayer) es b :=
  run_induction (P := Relayed x (ThreadBiz.init barId true hasPlayer)) (Relayed.init x barId hasPlayer)
    (fun _ _ _ _ hrun ih hs => ih.step hrun hs) h

/-! ## Answers -/

/-- The frame carries `msg`: its body is the encoding, behind its length, and is read back as `msg`
within protobuf's limit on the size of a message. -/
structure Carries (skipField : UInt32 → Bytes → Option Bytes) (f : QueuedFrame) (msg : Message) :
    Prop where
  bytes : f.bytes = stream.frame msg.serialize
  parses : msg.serialize.length < 2 ^ 31 → Message.parseFromArray skipField f.body = some msg

/-- The session answers the request `req`, its inbound message number `ref`, with `msg`: one response
is posted, and whenever it is queued, its frame carries `msg`. -/
def AnswersWith (skipField : UInt32 → Bytes → Option Bytes) (c : Cache) (s : TcpSession) (ref : Nat)
    (req msg : Message) : Prop :=
  ∃ post, respond c s ref req = some { s with posts := s.posts ++ [post] } ∧
    post.ref? = some ref ∧ ∀ n, Carries skipField (frameOf n post) msg

section Answers

variable {skipField : UInt32 → Bytes → Option Bytes} {c : Cache} {s : TcpSession} {ref : Nat}
  {req msg : Message}

theorem carries_frameOf {n : UInt32} {p : Post} (hbody : (frameOf n p).body = msg.serialize)
    (hwf : msg.WellFormed) : Carries skipField (frameOf n p) msg where
  bytes := by rw [frameOf_bytes, hbody]
  parses := by
    intro hlen
    rw [hbody]
    exact Message.parse_serialize skipField hwf hlen

/-- An answer that is cached without an id gets the id of the request. -/
theorem answersWith_data {m : Message} {data : Bytes} {msgID : UInt64}
    (hrespond : respond c s ref req = some (s.queueRspData msgID data ref))
    (hid : msgID = req.id.toUInt64) (hdata : data = m.serialize) (h0 : m.id = 0) (hwf : m.WellFormed) :
    AnswersWith skipField c s ref req { m with id := req.id } := by
  subst hid hdata
  refine ⟨.rspData req.id.toUInt64 m.serialize ref, hrespond, rfl, ?_⟩
  intro n
  apply carries_frameOf
  · rw [frameOf_rspData_body n _ h0 ref, Int64.toInt64_toUInt64]
  · exact ⟨hwf.method, hwf.returnMsg⟩

/-- An answer that echoes the request. -/
theorem answersWith_msg (hrespond : respond c s ref req = some (s.queueRspMsg msg ref))
    (hwf : msg.WellFormed) : AnswersWith skipField c s ref req msg :=
  ⟨.rspMsg msg ref, hrespond, rfl, fun n => carries_frameOf (frameOf_rspMsg_body n msg ref) hwf⟩

theorem answerFor_wellFormed {method missing : Bytes} (hmethod : isValidUtf8 method = true)
    (hmissing : isValidUtf8 missing = true) (content : Option Bytes) :
    (answerFor method missing content).WellFormed ∧ (answerFor method missing content).id = 0 := by
  cases content with
  | none => exact ⟨⟨hmethod, hmissing⟩, rfl⟩
  | some content => exact ⟨⟨hmethod, rfl⟩, rfl⟩

end Answers

/-- **What a server answers to the three requests of its clients** after the history `es`, in state
`b`. -/
structure Answers (x : Environment) (skipField : UInt32 → Bytes → Option Bytes) (b₀ : ThreadBiz)
    (es : List BizEvent) (b : ThreadBiz) (s : TcpSession) (ref : Nat) (req : Message) : Prop where
  policy : req.method = ascii "getAdPlayPolicy" → AnswersWith skipField b.impl.cache s ref req
    { policyAnswerFor (acceptedPolicies x es).getLast? with id := req.id }
  adList : req.method = ascii "getAdList" → AnswersWith skipField b.impl.cache s ref req
    { adListAnswerFor (acceptedAdLists x es).getLast? with id := req.id }
  file : ∀ k, req.method = ascii "getAdFile" → readId req.content = some k →
    b.impl.cache.contains k = true → ∃ body, FetchedIn x b₀ es k body ∧
      AnswersWith skipField b.impl.cache s ref req { fileAnswer body with id := req.id }
  noFile : ∀ k, req.method = ascii "getAdFile" → readId req.content = some k →
    b.impl.cache.contains k = false → AnswersWith skipField b.impl.cache s ref req
      { req with returnCode := errorDataNotExist, returnMsg := ascii "AdFile not exist" }

theorem Relayed.answers {x : Environment} {b₀ b : ThreadBiz} {es : List BizEvent}
    (h : Relayed x b₀ es b) (skipField : UInt32 → Bytes → Option Bytes) (s : TcpSession) (ref : Nat)
    {req : Message} (hwf : req.WellFormed) : Answers x skipField b₀ es b s ref req where
  policy := by
    intro hmethod
    have hutf8 : isValidUtf8 (ascii "getAdPlayPolicy") = true := by decide +kernel
    have hmissing : isValidUtf8 (ascii "AdPlayPolicy not exist") = true := by decide +kernel
    obtain ⟨hanswer, h0⟩ := answerFor_wellFormed hutf8 hmissing (acceptedPolicies x es).getLast?
    refine answersWith_data ?_ rfl h.policy h0 hanswer
    rw [respond, handleRequest_getAdPlayPolicy _ hmethod]
  adList := by
    intro hmethod
    have hutf8 : isValidUtf8 (ascii "getAdList") = true := by decide +kernel
    have hmissing : isValidUtf8 (ascii "AdList not exist") = true := by decide +kernel
    obtain ⟨hanswer, h0⟩ := answerFor_wellFormed hutf8 hmissing (acceptedAdLists x es).getLast?
    refine answersWith_data ?_ rfl h.adList h0 hanswer
    rw [respond, handleRequest_getAdList _ hmethod]
  file := by
    intro k hmethod hid hcached
    obtain ⟨pos, hpos⟩ : ∃ pos, b.impl.cache.find k = some pos := by
      rw [← Option.isSome_iff_exists, Option.isSome_iff_ne_none, ne_eq, Cache.find_eq_none, hcached]
      decide
    obtain ⟨n, hn, rfl, hderef⟩ := h.distinct.deref_find hpos []
    obtain ⟨body, hbytes, hfetched⟩ := h.files n hn
    have hutf8 : isValidUtf8 (ascii "getAdFile") = true := by decide +kernel
    refine ⟨body, hfetched, answersWith_data ?_ rfl (hderef.trans hbytes) rfl ⟨hutf8, rfl⟩⟩
    rw [respond, handleRequest_getAdFile _ hmethod hid, hpos]
  noFile := by
    intro k hmethod hid hcached
    have hutf8 : isValidUtf8 (ascii "AdFile not exist") = true := by decide +kernel
    refine answersWith_msg ?_ ⟨hwf.method, hutf8⟩
    rw [respond, handleRequest_getAdFile _ hmethod hid, Cache.find_eq_none.mpr hcached]

/-- **The bar server relays faithfully.** In every reachable state of the server, for every request: the
answer to `getAdPlayPolicy` carries the id of the request and the content of the last policy accepted,
or code 2 if there is none; likewise the answer to `getAdList`; the answer to `getAdFile` carries a file
that had the digest of its ad when it was cached, if one is cached for the id, and code 2 otherwise. -/
theorem bar_server_relays (x : Environment) (skipField : UInt32 → Bytes → Option Bytes)
    (barId : Bytes) (hasPlayer : Bool) (es : List (ServerEvent ι)) {s : BarServer ι}
    (h : run (serverStep x) (BarServer.init barId hasPlayer) es = some s) (i : ι) (ref : Nat)
    {req : Message} (hwf : req.WellFormed) :
    Answers x skipField (ThreadBiz.init barId true hasPlayer) (bizEvents es) s.biz (s.sessions i) ref
      req :=
  (relayed_run (biz_run h)).answers skipField (s.sessions i) ref hwf

/-- A refresh of a server, with the download of its only file. -/
def sampleRefresh : List (ServerEvent Unit) :=
  [.biz .connected, .biz (.policyAnswer { content := samplePolicy }),
    .biz (.adListAnswer { content := sampleAdList }), .biz .next,
    .biz (.fetchEnded (.response 200 sampleFile) false)]

theorem sampleRefresh_run : ∃ s : BarServer Unit,
    run (serverStep sampleEnvironment) (BarServer.init (ascii "1") false) sampleRefresh = some s ∧
      s.biz.impl.cache.contains 1 = true ∧ s.biz.impl.cache.contains 2 = false ∧ s.sessions () = {} := by
  have hview : (run (serverStep sampleEnvironment) (BarServer.init (ι := Unit) (ascii "1") false)
      sampleRefresh).map (fun s => (s.biz.impl.cache.contains 1, s.biz.impl.cache.contains 2,
        s.sessions ())) = some (true, false, {}) := by
    decide +kernel
  obtain ⟨s, hs, hview⟩ := Option.map_eq_some_iff.mp hview
  simp only [Prod.mk.injEq] at hview
  exact ⟨s, hs, hview⟩

/-- The server answers with the policy, the list and the file, and says that there is no file for id 2. -/
theorem bar_server_relays_refresh :
    ∃ s : BarServer Unit,
      run (serverStep sampleEnvironment) (BarServer.init (ascii "1") false) sampleRefresh = some s ∧
      AnswersWith (fun _ _ => none) s.biz.impl.cache (s.sessions ()) 0
        { id := 9, method := ascii "getAdPlayPolicy" }
        { id := 9, method := ascii "getAdPlayPolicy", content := samplePolicy } ∧
      AnswersWith (fun _ _ => none) s.biz.impl.cache (s.sessions ()) 1
        { id := 10, method := ascii "getAdList" }
        { id := 10, method := ascii "getAdList", content := sampleAdList } ∧
      (∃ body, FetchedIn sampleEnvironment (ThreadBiz.init (ascii "1") true false)
          (bizEvents sampleRefresh) 1 body ∧
        AnswersWith (fun _ _ => none) s.biz.impl.cache (s.sessions ()) 2
          { id := 11, method := ascii "getAdFile", content := [1, 0, 0, 0] }
          { fileAnswer body with id := 11 }) ∧
      AnswersWith (fun _ _ => none) s.biz.impl.cache (s.sessions ()) 3
        { id := 12, method := ascii "getAdFile", content := [2, 0, 0, 0] }
        { id := 12, method := ascii "getAdFile", content := [2, 0, 0, 0], returnCode := errorDataNotExist
          returnMsg := ascii "AdFile not exist" } := by
  obtain ⟨s, hs, hcached, hmissing, -⟩ := sampleRefresh_run
  have hwf9 : Message.WellFormed { id := 9, method := ascii "getAdPlayPolicy" } := by decide +kernel
  have hwf10 : Message.WellFormed { id := 10, method := ascii "getAdList" } := by decide +kernel
  have hwf11 : Message.WellFormed { id := 11, method := ascii "getAdFile", content := [1, 0, 0, 0] } := by
    decide +kernel
  have hwf12 : Message.WellFormed { id := 12, method := ascii "getAdFile", content := [2, 0, 0, 0] } := by
    decide +kernel
  have hpolicy := bar_server_relays sampleEnvironment (fun _ _ => none) (ascii "1") false _ hs () 0 hwf9
  have hlist := bar_server_relays sampleEnvironment (fun _ _ => none) (ascii "1") false _ hs () 1 hwf10
  have hfile := bar_server_relays sampleEnvironment (fun _ _ => none) (ascii "1") false _ hs () 2 hwf11
  have hnoFile := bar_server_relays sampleEnvironment (fun _ _ => none) (ascii "1") false _ hs () 3 hwf12
  -- what the server has accepted
  have hpolicies : acceptedPolicies sampleEnvironment (bizEvents sampleRefresh) = [samplePolicy] := by
    decide +kernel
  have hlists : acceptedAdLists sampleEnvironment (bizEvents sampleRefresh) = [sampleAdList] := by
    decide +kernel
  refine ⟨s, hs, ?_, ?_, hfile.file 1 rfl rfl hcached, hnoFile.noFile 2 rfl rfl hmissing⟩
  · have hanswer := hpolicy.policy rfl
    rw [hpolicies] at hanswer
    exact hanswer
  · have hanswer := hlist.adList rfl
    rw [hlists] at hanswer
    exact hanswer

/-! ## Which requests are answered -/

/-- The data that a request asks for is there. -/
def Available (x : Environment) (es : List BizEvent) (c : Cache) (req : Message) : Prop :=
  (req.method = ascii "getAdPlayPolicy" ∧ acceptedPolicies x es ≠ []) ∨
    (req.method = ascii "getAdList" ∧ acceptedAdLists x es ≠ []) ∨
    (req.method = ascii "getAdFile" ∧ ∃ k ∈ readId req.content, c.contains k = true)

/-- **The request is answered exactly once**: its handling posts one response, on its own session and as
the answer to this very message, and changes nothing else; the response carries a message with the id
of the request, whose code is 0 exactly when the data asked for is there. -/
def AnsweredOnce (x : Environment) (skipField : UInt32 → Bytes → Option Bytes)
    (es : List BizEvent) (s : BarServer ι) (i : ι) (ref : Nat) (msg req : Message) : Prop :=
  ∃ s' post answer, serverStep x s (.inbound i ref msg) = some s' ∧ s'.biz = s.biz ∧
    (∀ j, j ≠ i → s'.sessions j = s.sessions j) ∧
    s'.sessions i = { s.sessions i with posts := (s.sessions i).posts ++ [post] } ∧
    post.ref? = some ref ∧ (∀ n, Carries skipField (frameOf n post) answer) ∧
    answer.id = msg.id ∧ (answer.returnCode = 0 ↔ Available x es s.biz.impl.cache req)

section Answered

variable {x : Environment} {skipField : UInt32 → Bytes → Option Bytes} {s s' : BarServer ι} {i : ι}
  {ref : Nat} {msg req : Message}

/-- A message that is dispatched as a request is that message, with code 0, and leaves its session as it
was. -/
theorem inbound_request {t : TcpSession} (h : (t.inbound ref msg).2 = some req) :
    t.inbound ref msg = (t, some req) ∧ req = { msg with returnCode := 0 } := by
  rcases t.inbound_cases ref msg with ⟨_, _, _, _, heq⟩ | ⟨_, heq⟩
  · rw [heq] at h
    exact absurd h (by simp)
  · rw [heq] at h ⊢
    obtain rfl := Option.some.inj h
    exact ⟨rfl, rfl⟩

/-- The handling of a request is that of `handleRequest`. -/
theorem serverStep_request (hwf : msg.WellFormed) (hreq : ((s.sessions i).inbound ref msg).2 = some req) :
    serverStep x s (.inbound i ref msg) =
      (respond s.biz.impl.cache (s.sessions i) ref req).map fun t =>
        { s with sessions := Function.update s.sessions i t } := by
  obtain ⟨heq, _⟩ := inbound_request hreq
  simp only [serverStep, if_pos hwf, heq]

theorem answeredOnce_of_answersWith {es : List BizEvent} {answer : Message} (hwf : msg.WellFormed)
    (hreq : ((s.sessions i).inbound ref msg).2 = some req)
    (hanswer : AnswersWith skipField s.biz.impl.cache (s.sessions i) ref req answer)
    (hid : answer.id = req.id) (hcode : answer.returnCode = 0 ↔ Available x es s.biz.impl.cache req) :
    AnsweredOnce x skipField es s i ref msg req := by
  obtain ⟨post, hrespond, href, hcarries⟩ := hanswer
  let t : TcpSession := { s.sessions i with posts := (s.sessions i).posts ++ [post] }
  refine ⟨{ s with sessions := Function.update s.sessions i t }, post, answer, ?_, rfl, ?_, ?_, href,
    hcarries, ?_, hcode⟩
  · rw [serverStep_request hwf hreq, hrespond]
    rfl
  · intro j hj
    exact Function.update_of_ne hj _ _
  · exact Function.update_self i _ _
  · obtain ⟨_, rfl⟩ := inbound_request hreq
    exact hid

/-- Nothing is posted for `getAd`. -/
theorem method_of_answeredOnce {es : List BizEvent} (hwf : msg.WellFormed)
    (hreq : ((s.sessions i).inbound ref msg).2 = some req)
    (h : AnsweredOnce x skipField es s i ref msg req) : req.method ≠ ascii "getAd" := by
  obtain ⟨s', post, answer, hs, -, -, hsession, -⟩ := h
  rw [serverStep_request hwf hreq] at hs
  obtain ⟨t, hrespond, rfl⟩ := Option.map_eq_some_iff.mp hs
  simp only [Function.update_self] at hsession
  intro hgetAd
  rcases handleRequest_getAd s.biz.impl.cache hgetAd with hnone | hout
  · rw [respond, hnone] at hrespond
    obtain rfl := Option.some.inj hrespond
    simpa using congrArg TcpSession.posts hsession
  · rw [respond, hout] at hrespond
    exact absurd hrespond (by simp)

/-- The content of a request for a file holds an id. -/
theorem content_of_answeredOnce {es : List BizEvent} (hwf : msg.WellFormed)
    (hreq : ((s.sessions i).inbound ref msg).2 = some req)
    (h : AnsweredOnce x skipField es s i ref msg req) (hgetAdFile : req.method = ascii "getAdFile") :
    3 ≤ req.content.length := by
  obtain ⟨s', post, answer, hs, -⟩ := h
  rw [serverStep_request hwf hreq] at hs
  obtain ⟨t, hrespond, rfl⟩ := Option.map_eq_some_iff.mp hs
  rw [← readId_isSome]
  by_contra hshort
  rw [Option.not_isSome_iff_eq_none] at hshort
  rw [respond, handleRequest_getAdFile_short _ hgetAdFile hshort] at hrespond
  exact absurd hrespond (by simp)

theorem answerFor_code {method missing : Bytes} (id : Int64) (content : Option Bytes) :
    { answerFor method missing content with id := id }.returnCode = 0 ↔ content ≠ none := by
  cases content with
  | none => simp [answerFor, errorDataNotExist]
  | some content => simp [answerFor]

end Answered

/-- **Exactly which requests are answered once.** In every reachable state of the server, a message that
a session dispatches as a request is answered exactly once if and only if its method is not `getAd`,
and its content holds an id when its method is `getAdFile`. -/
theorem answered_once_iff (x : Environment) (skipField : UInt32 → Bytes → Option Bytes)
    (barId : Bytes) (hasPlayer : Bool) (es : List (ServerEvent ι)) {s : BarServer ι}
    (h : run (serverStep x) (BarServer.init barId hasPlayer) es = some s) (i : ι) (ref : Nat)
    {msg req : Message} (hwf : msg.WellFormed)
    (hreq : ((s.sessions i).inbound ref msg).2 = some req) :
    AnsweredOnce x skipField (bizEvents es) s i ref msg req ↔
      msg.method ≠ ascii "getAd" ∧ (msg.method = ascii "getAdFile" → 3 ≤ msg.content.length) := by
  obtain ⟨_, hreqEq⟩ := inbound_request hreq
  have hmethod : req.method = msg.method := by rw [hreqEq]
  have hcontent : req.content = msg.content := by rw [hreqEq]
  have hwfReq : req.WellFormed := by rw [hreqEq]; exact ⟨hwf.method, hwf.returnMsg⟩
  have hanswers := (relayed_run (biz_run h)).answers skipField (s.sessions i) ref hwfReq
  constructor
  · intro hanswered
    exact ⟨hmethod ▸ method_of_answeredOnce hwf hreq hanswered,
      fun h => hcontent ▸ content_of_answeredOnce hwf hreq hanswered (hmethod.trans h)⟩
  · rintro ⟨hgetAd, hlong⟩
    -- the branches of the dispatcher, in its order
    have hlist_ne := method_getAdList_ne
    obtain ⟨hfile_ne, hfile_ne', _⟩ := method_getAdFile_ne
    by_cases h1 : req.method = ascii "getAdPlayPolicy"
    · refine answeredOnce_of_answersWith hwf hreq (hanswers.policy h1) rfl ?_
      rw [policyAnswerFor, answerFor_code, ne_eq, List.getLast?_eq_none_iff]
      simp [Available, h1, hlist_ne.symm, hfile_ne.symm]
    by_cases h2 : req.method = ascii "getAdList"
    · refine answeredOnce_of_answersWith hwf hreq (hanswers.adList h2) rfl ?_
      rw [adListAnswerFor, answerFor_code, ne_eq, List.getLast?_eq_none_iff]
      simp [Available, h2, hlist_ne, hfile_ne'.symm]
    by_cases h3 : req.method = ascii "getAdFile"
    · obtain ⟨k, hk⟩ := Option.isSome_iff_exists.mp
        ((readId_isSome req.content).mpr (hcontent ▸ hlong (hmethod.symm.trans h3)))
      cases hcached : s.biz.impl.cache.contains k with
      | true =>
          obtain ⟨body, _, hanswer⟩ := hanswers.file k h3 hk hcached
          refine answeredOnce_of_answersWith hwf hreq hanswer rfl ?_
          simp [Available, h3, hk, hcached, fileAnswer]
      | false =>
          refine answeredOnce_of_answersWith hwf hreq (hanswers.noFile k h3 hk hcached) rfl ?_
          simp [Available, h3, hk, hcached, hfile_ne, hfile_ne', errorDataNotExist]
    · have hutf8 : isValidUtf8 (ascii "method handler not exist") = true := by decide +kernel
      have hother := handleRequest_other s.biz.impl.cache h1 h2 (hmethod ▸ hgetAd) h3
      have hanswer : AnswersWith skipField s.biz.impl.cache (s.sessions i) ref req { req with
          returnCode := errorMethodHandlerNotExist
          returnMsg := ascii "method handler not exist" } :=
        answersWith_msg (by rw [respond, hother]) ⟨hwfReq.method, hutf8⟩
      refine answeredOnce_of_answersWith hwf hreq hanswer rfl ?_
      simp [Available, h1, h2, h3, errorMethodHandlerNotExist]

/-- A request for the file of ad 1 after a refresh. -/
theorem answered_once_iff_cachedFile :
    ∃ s : BarServer Unit,
      run (serverStep sampleEnvironment) (BarServer.init (ascii "1") false) sampleRefresh = some s ∧
      s.biz.impl.cache.contains 1 = true ∧
      AnsweredOnce sampleEnvironment (fun _ _ => none) (bizEvents sampleRefresh) s () 0
        { id := 4, method := ascii "getAdFile", content := [1, 0, 0, 0] }
        { id := 4, method := ascii "getAdFile", content := [1, 0, 0, 0] } := by
  obtain ⟨s, hs, hcached, -, hsession⟩ := sampleRefresh_run
  exact ⟨s, hs, hcached, (answered_once_iff sampleEnvironment (fun _ _ => none) (ascii "1") false
    sampleRefresh hs () 0 (by decide +kernel) (by rw [hsession]; rfl)).mpr (by decide +kernel)⟩

/-- **`getAd` is never answered**, although `requestAd` waits for the answer. -/
theorem getAd_not_answered :
    ¬ AnsweredOnce (ι := Unit) sampleEnvironment (fun _ _ => none) []
      (BarServer.init (ascii "1") false) () 0
      { id := 4, method := ascii "getAd", content := [0, 0, 0, 1] }
      { id := 4, method := ascii "getAd", content := [0, 0, 0, 1] } := by
  intro hanswered
  exact method_of_answeredOnce (by decide +kernel) rfl hanswered rfl

end AdManager.Business
