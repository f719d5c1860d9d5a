/-
# AdManager.Business.FrameLimit — the 20 MiB limit on a frame's body, on both ends.

`readHead` compares the announced length with the limit as a signed number, logs a warning when it is
out of range, and reads the body all the same, with the length taken as unsigned. The code that builds
responses does not look at the length at all. So the limit is kept as far as the peers, the files and
the requests keep it.
-/
import AdManager.Business.CodecRefine
import AdManager.Business.Relay
import AdManager.Session.Receiver

/-! ## The receive loop -/

namespace AdManager.Session

open AdManager.Wire AdManager.Lib

namespace Receiver

variable {M : Type*}

/-- A body that is being read has a length within the limit. A length that is negative as a signed
number is at least `2 ^ 31` here. -/
def BodyInRange (r : Receiver M) : Prop :=
  ∀ op ∈ r.op, ∀ bodyLen, op.kind = .body bodyLen → bodyLen ≤ maxBody

/-- The buffer holds at most a body within the limit and a header. -/
def BufferInRange (r : Receiver M) : Prop := r.recvBuf.length ≤ maxBody + 4

/-- **The condition for the body**: a header, once read, announces a length within the limit. -/
def HeaderInRange (r : Receiver M) : Event → Prop
  | .complete => r.op = some { kind := .head, got := 4 } → ntohl r.recvBuf ≤ maxBody
  | _ => True

/-- **The condition for the buffer**: what a lost connection has left in the buffer is within the limit
when a session starts, and together with each body announced it does not exceed limit and header. -/
def BodyFits (r : Receiver M) : Event → Prop
  | .complete => r.op = some { kind := .head, got := 4 } →
      r.recvBuf.length - 4 + ntohl r.recvBuf ≤ maxBody + 4
  | .startSession => r.recvBuf.length ≤ maxBody
  | _ => True

/-- The bytes in front of those of the outstanding read are within the limit, and there is room for the
rest of the read. -/
structure Roomy (r : Receiver M) : Prop where
  buffer : r.recvBuf.length ≤ maxBody + 4
  front : ∀ op ∈ r.op, r.recvBuf.length ≤ maxBody + op.got
  room : ∀ op ∈ r.op, r.recvBuf.length + (op.kind.size - op.got) ≤ maxBody + 4

variable {parse : Bytes → Option M} {r r' : Receiver M} {e : Event}

/-- The bodies that are read: of the events, only a header that has been read starts one. -/
theorem bodyInRange_step (h : BodyInRange r) (hs : step parse r e = some r') :
    BodyInRange r' ↔ HeaderInRange r e := by
  cases e with
  | startSession =>
      obtain ⟨_, rfl⟩ := startSession_spec hs
      exact iff_of_true (by simp [BodyInRange, readHead]) trivial
  | arrive chunk =>
      simp only [step] at hs
      split at hs
      · exact absurd hs (by simp)
      · obtain rfl := Option.some.inj hs
        exact iff_of_true h trivial
  | readSome n =>
      obtain ⟨op, hop, _, _, _, rfl⟩ := readSome_spec hs
      refine iff_of_true ?_ trivial
      intro op' hop' bodyLen hkind
      obtain rfl := Option.some.inj hop'
      exact h op hop bodyLen hkind
  | complete =>
      obtain ⟨⟨t, out⟩, ht, rfl⟩ := Option.map_eq_some_iff.mp hs
      rcases complete_spec ht with ⟨hop, rfl, _⟩ | ⟨bodyLen, hop, heq⟩
      · simp [BodyInRange, HeaderInRange, handleHead, readBody, consume, hop]
      · rw [handleBody_eq] at heq
        obtain ⟨rfl, _⟩ := Prod.mk.inj heq
        simp [BodyInRange, HeaderInRange, readHead, hop]
  | fail =>
      obtain ⟨_, _, _, rfl⟩ := fail_spec hs
      exact iff_of_true (by simp [BodyInRange]) trivial

/-- An event that fits leaves room. -/
theorem Roomy.step (h : Roomy r) (hC : BodyFits r e) (hs : Receiver.step parse r e = some r') :
    Roomy r' := by
  cases e with
  | startSession =>
      obtain ⟨_, rfl⟩ := startSession_spec hs
      have hle : r.recvBuf.length ≤ maxBody := hC
      refine ⟨h.buffer, ?_, ?_⟩
      · intro op hop
        obtain rfl := Option.some.inj hop
        exact hle
      · intro op hop
        obtain rfl := Option.some.inj hop
        exact Nat.add_le_add_right hle 4
  | arrive chunk =>
      simp only [Receiver.step] at hs
      split at hs
      · exact absurd hs (by simp)
      · obtain rfl := Option.some.inj hs
        exact ⟨h.buffer, h.front, h.room⟩
  | readSome n =>
      obtain ⟨op, hop, _, havail, hsize, rfl⟩ := readSome_spec hs
      have hfront := h.front op hop
      have hroom := h.room op hop
      have hlen : (r.recvBuf ++ r.avail.take n).length = r.recvBuf.length + n := by
        rw [List.length_append, List.length_take]
        omega
      refine ⟨?_, ?_, ?_⟩
      · show (r.recvBuf ++ r.avail.take n).length ≤ _
        omega
      · intro op' hop'
        obtain rfl := Option.some.inj hop'
        show (r.recvBuf ++ r.avail.take n).length ≤ maxBody + (op.got + n)
        omega
      · intro op' hop'
        obtain rfl := Option.some.inj hop'
        show (r.recvBuf ++ r.avail.take n).length + (op.kind.size - (op.got + n)) ≤ maxBody + 4
        omega
  | complete =>
      obtain ⟨⟨t, out⟩, ht, rfl⟩ := Option.map_eq_some_iff.mp hs
      rcases complete_spec ht with ⟨hop, rfl, _⟩ | ⟨bodyLen, hop, heq⟩
      · -- the header leaves the buffer and the body is to come
        have hfront : r.recvBuf.length ≤ maxBody + 4 := h.front _ hop
        have hfits : r.recvBuf.length - 4 + ntohl r.recvBuf ≤ maxBody + 4 := hC hop
        have hlen : (r.recvBuf.drop 4).length = r.recvBuf.length - 4 := List.length_drop
        refine ⟨?_, ?_, ?_⟩
        · show (r.recvBuf.drop 4).length ≤ _
          omega
        · intro op hop'
          obtain rfl := Option.some.inj hop'
          show (r.recvBuf.drop 4).length ≤ maxBody + 0
          omega
        · intro op hop'
          obtain rfl := Option.some.inj hop'
          show (r.recvBuf.drop 4).length + (ntohl r.recvBuf - 0) ≤ _
          omega
      · -- the body leaves the buffer and the next header is to come
        rw [handleBody_eq] at heq
        obtain ⟨rfl, _⟩ := Prod.mk.inj heq
        have hfront : r.recvBuf.length ≤ maxBody + bodyLen := h.front _ hop
        have hlen : (r.recvBuf.drop bodyLen).length = r.recvBuf.length - bodyLen := List.length_drop
        refine ⟨?_, ?_, ?_⟩
        · show (r.recvBuf.drop bodyLen).length ≤ _
          omega
        · intro op hop'
          obtain rfl := Option.some.inj hop'
          show (r.recvBuf.drop bodyLen).length ≤ maxBody + 0
          omega
        · intro op hop'
          obtain rfl := Option.some.inj hop'
          show (r.recvBuf.drop bodyLen).length + (4 - 0) ≤ _
          omega
  | fail =>
      obtain ⟨_, _, _, rfl⟩ := fail_spec hs
      exact ⟨h.buffer, by simp, by simp⟩

theorem roomy_init : Roomy ({} : Receiver M) where
  buffer := by simp
  front := by simp
  room := by simp

end Receiver

end AdManager.Session

/-! ## The responses of a bar server -/

namespace AdManager.Business

open AdManager.Wire AdManager.Lib AdManager.Server AdManager.Session
open TcpSession (frameOf)

variable {ι : Type*} [DecidableEq ι]

/-- **No response goes beyond the limit**: neither one that is posted nor one that is queued. -/
def ResponsesInRange (s : BarServer ι) : Prop :=
  ∀ i, (∀ p ∈ (s.sessions i).posts, ∀ n, (frameOf n p).body.length ≤ maxBody) ∧
    ∀ f ∈ (s.sessions i).queued, f.body.length ≤ maxBody

/-- The length of the answer to `req`: of the cached answer and the id in front of it, or of the request
that is sent back with an error. -/
def answerLength (c : Cache) (req : Message) : Nat :=
  match handleRequest c req with
  | .queueData msgID data => (Message.serialize { id := msgID.toInt64 }).length + data.length
  | .queueMsg rsp => rsp.serialize.length
  | .queueImage msgID pos =>
      (Message.serialize { id := msgID.toInt64 }).length + (c.deref pos []).length
  | .nothing => 0
  | .outOfBounds => 0

/-- **The condition for the responses**: a request is answered within the limit. -/
def AnswerFits (s : BarServer ι) : ServerEvent ι → Prop
  | .inbound i ref msg => ∀ req ∈ ((s.sessions i).inbound ref msg).2,
      answerLength s.biz.impl.cache req ≤ maxBody
  | _ => True

/-- The body of a response: the parts that it was posted with. -/
theorem frameOf_rspData_length (n : UInt32) (msgID : UInt64) (data : Bytes) (ref : Nat) :
    (frameOf n (.rspData msgID data ref)).body.length =
      (Message.serialize { id := msgID.toInt64 }).length + data.length := by
  simp [frameOf, QueuedFrame.bytes, QueuedFrame.body]

/-- A message is at least as long as its content. -/
theorem content_le_serialize (msg : Message) : msg.content.length ≤ msg.serialize.length := by
  have hfield : msg.content.length ≤ (Message.contentField msg.content).length := by
    unfold Message.contentField
    split
    · simp only [writeBytes, List.length_append]
      omega
    · omega
  simp only [Message.serialize, List.length_append]
  omega

/-- A request is answered by nothing, or by one response of that length. -/
theorem respond_cases {c : Cache} {t t' : TcpSession} {ref : Nat} {req : Message}
    (h : respond c t ref req = some t') :
    (t' = t ∧ answerLength c req = 0) ∨ ∃ post, t' = { t with posts := t.posts ++ [post] } ∧
      ∀ n, (frameOf n post).body.length = answerLength c req := by
  unfold respond at h
  split at h
  · next msgID data hhandled =>
      obtain rfl := Option.some.inj h
      rw [answerLength, hhandled]
      exact Or.inr ⟨_, rfl, fun n => frameOf_rspData_length n msgID data ref⟩
  · next rsp hhandled =>
      obtain rfl := Option.some.inj h
      rw [answerLength, hhandled]
      exact Or.inr ⟨_, rfl, fun n => by rw [frameOf_rspMsg_body]⟩
  · next msgID pos hhandled =>
      obtain rfl := Option.some.inj h
      rw [answerLength, hhandled]
      exact Or.inr ⟨_, rfl, fun n => frameOf_rspData_length n msgID _ ref⟩
  · next hhandled =>
      obtain rfl := Option.some.inj h
      rw [answerLength, hhandled]
      exact Or.inl ⟨rfl, rfl⟩
  · exact absurd h (by simp)

/-- A session's own events queue what was posted, and post nothing. -/
theorem network_step {t t' : TcpSession} {e : Session.Event} (he : ofNetwork e = true)
    (hs : Session.step t e = some t') : (t'.posts = t.posts ∧ t'.queued = t.queued) ∨
      ∃ p ps, t.posts = p :: ps ∧ t'.posts = ps ∧ t'.queued = t.queued ++ [frameOf t.msgID p] := by
  cases e with
  | runPost =>
      obtain ⟨p, ps, hposts, _, hrest, _, hqueued, _⟩ := TcpSession.runPost_spec hs
      exact Or.inr ⟨p, ps, hposts, hrest, hqueued⟩
  | writeSome i n =>
      obtain ⟨_, _, _, _, _, rfl⟩ := TcpSession.writeSome_spec hs
      exact Or.inl ⟨rfl, rfl⟩
  | writeDone i =>
      obtain ⟨_, _, _, rfl⟩ := TcpSession.writeDone_spec hs
      rw [TcpSession.writeData_eq]
      exact Or.inl ⟨rfl, rfl⟩
  | writeFail i what =>
      obtain ⟨_, _, _, rfl⟩ := TcpSession.writeFail_spec hs
      exact Or.inl ⟨rfl, rfl⟩
  | netError what => obtain rfl := Option.some.inj hs; exact Or.inl ⟨rfl, rfl⟩
  | connected => obtain rfl := Option.some.inj hs; exact Or.inl ⟨rfl, rfl⟩
  | startSession => obtain rfl := Option.some.inj hs; exact Or.inl ⟨rfl, rfl⟩
  | stopSession => obtain rfl := Option.some.inj hs; exact Or.inl ⟨rfl, rfl⟩
  | _ => exact absurd he (by simp [ofNetwork])

/-- A step of one session, by what it does to the posts and the queue of that session. -/
theorem responsesInRange_update {s : BarServer ι} (h : ResponsesInRange s) {i : ι} {t : TcpSession} :
    ResponsesInRange { s with sessions := Function.update s.sessions i t } ↔
      (∀ p ∈ t.posts, ∀ n, (frameOf n p).body.length ≤ maxBody) ∧
        ∀ f ∈ t.queued, f.body.length ≤ maxBody := by
  constructor
  · intro hall
    have hi := hall i
    simp only [Function.update_self] at hi
    exact hi
  · intro ht j
    by_cases hj : j = i
    · subst hj
      simp only [Function.update_self]
      exact ht
    · simp only [Function.update_of_ne hj]
      exact h j

/-- The responses that are posted: of the events, only a request brings a new one. -/
theorem responsesInRange_step {x : Environment} {s s' : BarServer ι} {e : ServerEvent ι}
    (h : ResponsesInRange s) (hs : serverStep x s e = some s') :
    ResponsesInRange s' ↔ AnswerFits s e := by
  cases e with
  | biz e =>
      obtain ⟨b, _, rfl⟩ := Option.map_eq_some_iff.mp hs
      exact iff_of_true h trivial
  | session i e =>
      simp only [serverStep] at hs
      split at hs
      · next he =>
          obtain ⟨t, ht, rfl⟩ := Option.map_eq_some_iff.mp hs
          refine iff_of_true ((responsesInRange_update h).mpr ?_) trivial
          rcases network_step he ht with ⟨hposts, hqueued⟩ | ⟨p, ps, hposts, hrest, hqueued⟩
          · rw [hposts, hqueued]
            exact h i
          · rw [hrest, hqueued]
            constructor
            · intro q hq
              exact (h i).1 q (by rw [hposts]; exact List.mem_cons_of_mem p hq)
            · intro f hf
              rcases List.mem_append.mp hf with hf | hf
              · exact (h i).2 f hf
              · obtain rfl := List.mem_singleton.mp hf
                exact (h i).1 p (by rw [hposts]; exact List.mem_cons_self) _
      · exact absurd hs (by simp)
  | inbound i ref msg =>
      simp only [serverStep] at hs
      split at hs
      · split at hs
        · next hanswer =>
            -- the message is the answer to a request of the server's own
            obtain rfl := Option.some.inj hs
            refine iff_of_true ((responsesInRange_update h).mpr ?_) ?_
            · obtain ⟨_, hqueued, _, _, hposts⟩ := (s.sessions i).inbound_frame ref msg
              rw [hposts, hqueued]
              exact h i
            · intro req hreq
              exact absurd (hanswer.symm.trans hreq) (by simp)
        · next req hreq =>
            obtain ⟨t, ht, rfl⟩ := Option.map_eq_some_iff.mp hs
            obtain ⟨hsame, _⟩ := inbound_request hreq
            rw [hsame] at ht
            rw [responsesInRange_update h]
            have hcond : AnswerFits s (.inbound i ref msg) ↔
                answerLength s.biz.impl.cache req ≤ maxBody := by
              simp [AnswerFits, hreq]
            rw [hcond]
            rcases respond_cases ht with ⟨rfl, hzero⟩ | ⟨post, rfl, hlength⟩
            · -- nothing is answered
              exact iff_of_true (h i) (by omega)
            · constructor
              · rintro ⟨hposts, _⟩
                rw [← hlength 0]
                exact hposts post (List.mem_append_right _ (List.mem_singleton_self post)) 0
              · intro hfits
                refine ⟨?_, (h i).2⟩
                intro p hp n
                rcases List.mem_append.mp hp with hp | hp
                · exact (h i).1 p hp n
                · obtain rfl := List.mem_singleton.mp hp
                  rw [hlength n]
                  exact hfits
      · exact absurd hs (by simp)

/-- **When the 20 MiB limit is kept.** In every run of a receive loop, no body outside the limit is read
if and only if every header read announces one within it; and if what is announced and what a lost
connection has left behind fit, the buffer never holds more than such a body and a header. In every run
of a bar server, no response outside the limit is posted or queued if and only if every request is
answered within it. -/
theorem frame_limit {M : Type*} (parse : Bytes → Option M) (rs : List Receiver.Event) {r : Receiver M}
    (hr : run (Receiver.step parse) {} rs = some r) (x : Environment) (barId : Bytes) (hasPlayer : Bool)
    (es : List (ServerEvent ι)) {s : BarServer ι}
    (hs : run (serverStep x) (BarServer.init barId hasPlayer) es = some s) :
    (EveryState (Receiver.step parse) Receiver.BodyInRange {} rs ↔
        EveryStep (Receiver.step parse) Receiver.HeaderInRange {} rs) ∧
      (EveryStep (Receiver.step parse) Receiver.BodyFits {} rs →
        EveryState (Receiver.step parse) Receiver.BufferInRange {} rs) ∧
      (EveryState (serverStep x) ResponsesInRange (BarServer.init barId hasPlayer) es ↔
        EveryStep (serverStep x) AnswerFits (BarServer.init barId hasPlayer) es) := by
  refine ⟨?_, ?_, ?_⟩
  · exact everyState_iff_everyStep (I := Receiver.BodyInRange) (by simp [Receiver.BodyInRange])
      (fun _ ht => ht) (fun _ _ _ ht hC hs => (Receiver.bodyInRange_step ht hs).mpr hC)
      (fun _ _ _ ht hs hP => (Receiver.bodyInRange_step ht hs).mp hP) hr
  · intro hC pre post t hes ht
    have hroomy : Receiver.Roomy t :=
      inv_run_of_everyStep Receiver.roomy_init (fun _ _ _ h hC hs => h.step hC hs) ht
        (EveryStep.left (hes ▸ hC))
    exact hroomy.buffer
  · exact everyState_iff_everyStep (I := ResponsesInRange) (by simp [ResponsesInRange, BarServer.init])
      (fun _ ht => ht) (fun _ _ _ ht hC hs => (responsesInRange_step ht hs).mpr hC)
      (fun _ _ _ ht hs hP => (responsesInRange_step ht hs).mp hP) hs

instance {M : Type*} (r : Receiver M) : (e : Receiver.Event) → Decidable (r.HeaderInRange e)
  | .complete => inferInstanceAs (Decidable (r.op = some { kind := .head, got := 4 } → _))
  | .startSession => .isTrue trivial
  | .arrive _ => .isTrue trivial
  | .readSome _ => .isTrue trivial
  | .fail => .isTrue trivial

instance {M : Type*} (r : Receiver M) : (e : Receiver.Event) → Decidable (r.BodyFits e)
  | .complete => inferInstanceAs (Decidable (r.op = some { kind := .head, got := 4 } → _))
  | .startSession => inferInstanceAs (Decidable (r.recvBuf.length ≤ maxBody))
  | .arrive _ => .isTrue trivial
  | .readSome _ => .isTrue trivial
  | .fail => .isTrue trivial

instance (s : BarServer ι) : (e : ServerEvent ι) → Decidable (AnswerFits s e)
  | .inbound i ref msg => inferInstanceAs (Decidable
      (∀ req ∈ ((s.sessions i).inbound ref msg).2, answerLength s.biz.impl.cache req ≤ maxBody))
  | .biz _ => .isTrue trivial
  | .session _ _ => .isTrue trivial

/-- A frame of one byte, and the answer to a request for the policy. -/
theorem frame_limit_small :
    EveryState (Receiver.step fun _ => some ()) Receiver.BufferInRange {}
        [.startSession, .arrive [0, 0, 0, 1, 7], .readSome 4, .complete, .readSome 1, .complete] ∧
      EveryState (serverStep sampleEnvironment) ResponsesInRange
        (BarServer.init (ι := Unit) (ascii "1") false)
        [.inbound () 0 { id := 1, method := ascii "getAdPlayPolicy" }, .session () .runPost] := by
  have hview : (run (serverStep sampleEnvironment) (BarServer.init (ι := Unit) (ascii "1") false)
      [.inbound () 0 { id := 1, method := ascii "getAdPlayPolicy" },
        .session () .runPost]).isSome = true := by
    decide +kernel
  obtain ⟨s, hs⟩ := Option.isSome_iff_exists.mp hview
  obtain ⟨_, hbuffer, hresponses⟩ := frame_limit (fun _ => some ())
    [.startSession, .arrive [0, 0, 0, 1, 7], .readSome 4, .complete, .readSome 1, .complete] rfl
    sampleEnvironment (ascii "1") false _ hs
  exact ⟨hbuffer (by decide), hresponses.mpr (by decide +kernel)⟩

/-- A policy with a version of `n` bytes. -/
def longPolicy (n : Nat) : AdPlayPolicy where
  version := List.replicate n 97

theorem longPolicy_wellFormed (n : Nat) : (longPolicy n).WellFormed where
  version := by
    show isValidUtf8 (List.replicate n 97) = true
    induction n with
    | zero => rfl
    | succ n ih =>
        rw [List.replicate_succ]
        unfold isValidUtf8
        exact ih
  dateTime := rfl
  adPlays := by simp [longPolicy]

theorem longPolicy_length {n : Nat} (h : 0 < n) :
    (longPolicy n).serialize.length = 1 + (Varint.size n + n) := by
  have hversion : (putBytes 18 (List.replicate n 97)).length = sizeBytes 1 (List.replicate n 97) :=
    putBytes_length (by decide) _
  have hserialize : (longPolicy n).serialize = putBytes 18 (List.replicate n 97) := by
    simp [AdPlayPolicy.serialize, longPolicy, putInt32, putMessages, putBytes]
  rw [hserialize, hversion, sizeBytes, Message.stringSize, List.length_replicate, if_pos h]

/-- The generated parser accepts it. -/
theorem longPolicy_parses {n : Nat} (h : (longPolicy n).serialize.length < 2 ^ 31) :
    ((sampleEnvironment.withCode sampleRuntime).parsePolicy (longPolicy n).serialize).2 = true := by
  have hread := (AdPlayPolicy.codec sampleRuntime).parse_serialize (longPolicy_wellFormed n) h
  exact congrArg Prod.snd hread

/-- A policy that parses, of whatever length, is queued as a response. -/
theorem policy_queued (x : Environment) {content : Bytes} (hparse : (x.parsePolicy content).2 = true) :
    ∃ s : BarServer Unit, run (serverStep x) (BarServer.init (ascii "1") false)
        ([.biz .connected, .biz (.policyAnswer { content := content })] ++
          [.inbound () 0 { id := 1, method := ascii "getAdPlayPolicy" }, .session () .runPost]) =
        some s ∧
      ∃ f ∈ (s.sessions ()).queued, content.length ≤ f.body.length := by
  obtain ⟨s, hs, hsession⟩ : ∃ s : BarServer Unit,
      run (serverStep x) (BarServer.init (ascii "1") false)
        [.biz .connected, .biz (.policyAnswer { content := content })] = some s ∧
      s.sessions () = {} := ⟨_, rfl, rfl⟩
  have hpolicy : s.biz.impl.cache.bufPolicy = (policyAnswerFor (some content)).serialize := by
    rw [(relayed_run (biz_run hs)).policy]
    have haccepted : acceptedPolicies x (bizEvents (ι := Unit)
        [.biz .connected, .biz (.policyAnswer { content := content })]) = [content] := by
      simp [acceptedPolicies, bizEvents, ServerEvent.biz?, List.filterMap_cons, policyContent, hparse]
    rw [haccepted]
    rfl
  have hrequest : serverStep x s
      (.inbound () 0 { id := 1, method := ascii "getAdPlayPolicy" }) = some { s with
        sessions := Function.update s.sessions ()
          (TcpSession.queueRspData {} 1 s.biz.impl.cache.bufPolicy 0) } := by
    rw [serverStep_request (by decide +kernel) (by rw [hsession]; rfl), hsession, respond,
      handleRequest_getAdPlayPolicy _ rfl]
    rfl
  -- the network thread queues it
  obtain ⟨t, ht⟩ : ∃ t, (TcpSession.queueRspData {} 1 s.biz.impl.cache.bufPolicy 0).runPost =
      some t := ⟨_, rfl⟩
  have hqueued : frameOf 1 (.rspData 1 s.biz.impl.cache.bufPolicy 0) ∈ t.queued := by
    obtain ⟨p, ps, hposts, _, _, _, hqueued, _⟩ := TcpSession.runPost_spec ht
    have hp : [Post.rspData 1 s.biz.impl.cache.bufPolicy 0] = p :: ps := hposts
    rw [hqueued, ← (List.cons.inj hp).1]
    apply List.mem_append_right
    exact List.mem_singleton_self _
  have hpost : serverStep x { s with
      sessions := Function.update s.sessions ()
        (TcpSession.queueRspData {} 1 s.biz.impl.cache.bufPolicy 0) } (.session () .runPost) =
      some { s with sessions := Function.update (Function.update s.sessions ()
        (TcpSession.queueRspData {} 1 s.biz.impl.cache.bufPolicy 0)) () t } := by
    simp only [serverStep, ofNetwork, if_true, Function.update_self, Session.step, ht, Option.map_some]
  have hlength := content_le_serialize (policyAnswerFor (some content))
  simp only [policyAnswerFor, answerFor] at hlength
  refine ⟨{ s with sessions := Function.update (Function.update s.sessions ()
      (TcpSession.queueRspData {} 1 s.biz.impl.cache.bufPolicy 0)) () t }, ?_,
    frameOf 1 (.rspData 1 s.biz.impl.cache.bufPolicy 0), ?_, ?_⟩
  · rw [run_append_eq_some]
    refine ⟨s, hs, ?_⟩
    rw [run_cons_eq_some]
    refine ⟨_, hrequest, ?_⟩
    rw [run_singleton]
    exact hpost
  · simp only [Function.update_self]
    exact hqueued
  · rw [frameOf_rspData_length, hpolicy]
    simp only [policyAnswerFor, answerFor]
    omega

/-- **Beyond the limit on both ends.** A header of four bytes 255, which is -1 as a signed number, starts
the read of a body of `2 ^ 32 - 1` bytes; and a policy of more than 20 MiB, which the generated parser
accepts, is queued as a response. -/
theorem limit_exceeded :
    (∃ r : Receiver Unit, run (Receiver.step fun _ => some ()) {}
        [.startSession, .arrive [255, 255, 255, 255], .readSome 4, .complete] = some r ∧
      r.op = some { kind := .body 4294967295, got := 0 } ∧ ¬ r.BodyInRange) ∧
    ∃ s : BarServer Unit, run (serverStep (sampleEnvironment.withCode sampleRuntime))
        (BarServer.init (ascii "1") false)
        ([.biz .connected, .biz (.policyAnswer { content := (longPolicy maxBody).serialize })] ++
          [.inbound () 0 { id := 1, method := ascii "getAdPlayPolicy" }, .session () .runPost]) =
        some s ∧
      ∃ f ∈ (s.sessions ()).queued, maxBody < f.body.length := by
  constructor
  · refine ⟨_, rfl, rfl, ?_⟩
    intro hrange
    exact absurd (hrange _ rfl 4294967295 rfl) (by decide)
  · have hlength := longPolicy_length (n := maxBody) (by unfold maxBody; omega)
    have hsize : Varint.size maxBody = 4 := by decide +kernel
    have hshort : (longPolicy maxBody).serialize.length < 2 ^ 31 := by
      unfold maxBody at *
      omega
    obtain ⟨s, hs, f, hf, hle⟩ := policy_queued (sampleEnvironment.withCode sampleRuntime)
      (longPolicy_parses hshort)
    exact ⟨s, hs, f, hf, by omega⟩

end AdManager.Business
