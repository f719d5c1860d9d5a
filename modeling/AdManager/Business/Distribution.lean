/-
# AdManager.Business.Distribution — a bar: its server, its clients, and what is on its way between them.

The parties are business threads with their data. The server's has the center behind it, whose answers may
be anything. A client waits for one answer at a time; its request meets the server's cache at some moment
(`handle`), and the answer made there arrives later (`deliver`), or the connection is lost first and the wait
ends with an error. Parties, requests and answers interleave in any order. That one exchange on a connection
is what `handle` and `deliver` say it is, byte by byte, is the matter of `AdManager.Server.EndToEnd`; the
handler of a request is one step here.

A lost connection is idealised: the next exchange starts clean. In the code a loss inside a frame leaves its
bytes in `_recvBuf`, in front of those of the next connection (`AdManager.Session.Receiver`). `wired_refines`,
which takes the bar with its connections to this one, is about connections that stay up. And `endBusiness` is
the flag that it sets; the sockets and io_services that it stops are in `AdManager.Business.Shutdown`.

Policies and ad lists are published by the server and read by the clients in the sense of
`AdManager.Lib.Publication`: `publishes_run` is the simulation, and from it follow the order of what a client
accepts (`contents_inOrder`) and that it is never stale (`contents_fresh`).
-/
import AdManager.Business.Relay
import AdManager.Business.Shutdown
import AdManager.Lib.Publication

namespace AdManager.Business

open AdManager.Wire AdManager.Lib AdManager.Server AdManager.Session
open TcpSession (frameOf)

/-! ## The parties -/

/-- A business thread, and the record of its events. -/
structure Party where
  biz : ThreadBiz
  history : List BizEvent := []

/-- The request among what a thread has asked for. -/
def Outgoing.request? : Outgoing → Option Message
  | .request msg => some msg
  | .httpGet _ => none

namespace Party

/-- One event of the thread. -/
def step (x : Environment) (p : Party) (e : BizEvent) : Option Party :=
  (Business.step x p.biz e).map fun b => { biz := b, history := p.history ++ [e] }

/-- The request whose answer the thread waits for. -/
def request? (p : Party) : Option Message :=
  if p.biz.stage.waits then p.biz.outgoing.getLast?.bind Outgoing.request? else none

end Party

/-- What the client gets for the request `req`: the message in the body that the session queues for it. A
body that is longer than an `int` can say is not parsed. -/
def answerOf (skipField : UInt32 → Bytes → Option Bytes) (c : Cache) (req : Message) : Option Message :=
  (respond c {} 0 req).bind fun t => t.posts.head?.bind fun post =>
    if (frameOf 0 post).body.length < 2 ^ 31 then
      Message.parseFromArray skipField (frameOf 0 post).body
    else none

/-- The event with which a wait ends. -/
def delivery (rsp : Message) (rehash : Bool) : Stage → Option BizEvent
  | .policy => some (.policyAnswer rsp)
  | .adList _ => some (.adListAnswer rsp)
  | .file _ _ _ => some (.fileAnswer rsp rehash)
  | _ => none

/-- The events of a client that need no answer of the server: a wait may end with an error. -/
def BizEvent.unanswered : BizEvent → Bool
  | .policyAnswer rsp => rsp.returnCode != 0
  | .adListAnswer rsp => rsp.returnCode != 0
  | .fileAnswer rsp _ => rsp.returnCode != 0
  | .adAnswer rsp => rsp.returnCode != 0
  | _ => true

/-! ## The system -/

/-- What the parties are started with, and what they run in. -/
structure Setup (ι : Type*) where
  server : Environment
  client : ι → Environment
  barId : Bytes
  hasPlayer : Bool
  clientBarId : ι → Bytes
  clientHasPlayer : ι → Bool
  skipField : UInt32 → Bytes → Option Bytes

/-- The server, the clients, and the answers on their way to them. -/
structure Distribution (ι : Type*) where
  server : Party
  clients : ι → Party
  answers : ι → Option Message := fun _ => none

/-- What can happen: an event of the server, an event of a client, the server handles the request of a
client, which has come with the id `msgID`, or an answer arrives. -/
inductive DistEvent (ι : Type*) where
  | server (e : BizEvent)
  | client (i : ι) (e : BizEvent)
  | handle (i : ι) (msgID : Int64)
  | deliver (i : ι) (rehash : Bool)

namespace Setup

variable {ι : Type*} (x : Setup ι)

/-- The server before its business thread has connected. -/
def server₀ : ThreadBiz := ThreadBiz.init x.barId true x.hasPlayer

/-- A client before its business thread has connected. -/
def client₀ (i : ι) : ThreadBiz := ThreadBiz.init (x.clientBarId i) false (x.clientHasPlayer i)

/-- The system before anything has happened. -/
def init : Distribution ι where
  server := { biz := x.server₀ }
  clients i := { biz := x.client₀ i }

variable [DecidableEq ι]

/-- One event. -/
def step (s : Distribution ι) : DistEvent ι → Option (Distribution ι)
  | .server e => (s.server.step x.server e).map fun p => { s with server := p }
  | .client i e =>
      if e.unanswered then
        ((s.clients i).step (x.client i) e).map fun p =>
          { s with
            clients := Function.update s.clients i p
            -- what comes after an error finds no promise
            answers := if e.answer?.isSome then Function.update s.answers i none else s.answers }
      else none
  | .handle i msgID =>
      if s.answers i = none then
        (s.clients i).request?.bind fun req =>
          (answerOf x.skipField s.server.biz.impl.cache { req with id := msgID }).map fun rsp =>
            { s with answers := Function.update s.answers i (some rsp) }
      else none
  | .deliver i rehash =>
      (s.answers i).bind fun rsp => (delivery rsp rehash (s.clients i).biz.stage).bind fun e =>
        ((s.clients i).step (x.client i) e).map fun p =>
          { s with
            clients := Function.update s.clients i p
            answers := Function.update s.answers i none }

end Setup

/-! ## What a thread waits for -/

/-- The last thing asked for is what the stage waits for. -/
def Stage.Asked (out : Option Outgoing) : Stage → Prop
  | .policy => ∃ barId, out = some (.request (Ask.getAdPlayPolicy barId).message)
  | .adList _ => out = some (.request Ask.getAdList.message)
  | .file id _ _ => out = some (.request (Ask.getAdFile id).message)
  | _ => True

namespace ThreadBiz

variable {x : Environment} {b b' : ThreadBiz} {e : BizEvent}

/-- The thread waits for the answer to what it has asked for last. -/
def HasAsked (b : ThreadBiz) : Prop := b.stage.Asked b.outgoing.getLast?

theorem requestAdList_hasAsked (b : ThreadBiz) (root : Timer) : (b.requestAdList root).HasAsked := by
  unfold requestAdList
  split
  · trivial
  · exact List.getLast?_concat

theorem requestAdPlayPolicy_hasAsked (x : Environment) (b : ThreadBiz) :
    (b.requestAdPlayPolicy x).HasAsked := by
  unfold requestAdPlayPolicy
  split
  · trivial
  · exact ⟨_, List.getLast?_concat⟩

theorem downloadAds_hasAsked (b : ThreadBiz) (root : Timer) : (b.downloadAds root).HasAsked := by
  unfold downloadAds
  split <;> trivial

theorem fetchFrom_hasAsked (b : ThreadBiz) (id : UInt32) (ad : Ad) (p : Pass) (urls : List Bytes) :
    (b.fetchFrom id ad p urls).HasAsked := by
  cases urls with
  | nil => trivial
  | cons url urls => trivial

theorem nextAd_hasAsked (b : ThreadBiz) (p : Pass) : (b.nextAd p).HasAsked := by
  cases htodo : p.todo with
  | nil =>
      simp only [nextAd, htodo, endPass]
      split <;> trivial
  | cons id todo =>
      simp only [nextAd, htodo, downloadAd]
      split
      · trivial
      · split
        · trivial
        · split
          · trivial
          · split
            · exact fetchFrom_hasAsked _ _ _ _ _
            · exact List.getLast?_concat

/-- **The stage keeps to what was asked for last.** -/
theorem HasAsked.step (h : b.HasAsked) (hs : Business.step x b e = some b') : b'.HasAsked := by
  cases bizStep hs with
  | tick n => exact h
  | fire t l hl => exact h
  | runHandler f l hstage hl =>
      cases f.timer with
      | policy => exact requestAdPlayPolicy_hasAsked x _
      | adList => exact requestAdList_hasAsked _ .adList
      | download => exact downloadAds_hasAsked _ .download
  | connected hstage => exact b.requestAdPlayPolicy_hasAsked x
  | policyAnswer rsp hstage =>
      unfold policyAnswered
      simp only
      split
      · exact requestAdList_hasAsked _ .policy
      · trivial
  | adListAnswer rsp root hstage =>
      unfold adListAnswered
      split
      · exact downloadAds_hasAsked _ root
      · trivial
  | next p hstage => exact b.nextAd_hasAsked p
  | fetchEnded f rehash id ad urls p hstage =>
      cases f with
      | exception => exact b.fetchFrom_hasAsked id ad p urls
      | response status body =>
          simp only [fetchEnded]
          split
          · trivial
          · exact b.fetchFrom_hasAsked id ad p urls
  | fileAnswer rsp rehash id ad p hstage => trivial
  | requestAd adId hstage => trivial
  | adReceived rsp ad hstage hrec => trivial
  | adRefused rsp hstage hrec => trivial
  | endBusiness => exact h

end ThreadBiz

/-- **A wait ends with an answer only**: an event without one leaves a thread that waits where it is, and an
event with one finds it waiting. -/
theorem wait_step {x : Environment} {b b' : ThreadBiz} {e : BizEvent} (hs : step x b e = some b') :
    (e.answer? = none → b.stage.waits = true → b'.stage = b.stage) ∧
      (e.answer?.isSome → b.stage.waits = true) := by
  cases bizStep hs with
  | tick n => exact ⟨fun _ _ => rfl, by simp [BizEvent.answer?]⟩
  | fire t l hl => exact ⟨fun _ _ => rfl, by simp [BizEvent.answer?]⟩
  | endBusiness => exact ⟨fun _ _ => rfl, by simp [BizEvent.answer?]⟩
  | policyAnswer rsp hstage => exact ⟨by simp [BizEvent.answer?], fun _ => by rw [hstage]; rfl⟩
  | adListAnswer rsp root hstage => exact ⟨by simp [BizEvent.answer?], fun _ => by rw [hstage]; rfl⟩
  | fileAnswer rsp rehash id ad p hstage =>
      exact ⟨by simp [BizEvent.answer?], fun _ => by rw [hstage]; rfl⟩
  | runHandler f l hstage hl => exact ⟨by simp [hstage, Stage.waits], by simp [BizEvent.answer?]⟩
  | connected hstage => exact ⟨by simp [hstage, Stage.waits], by simp [BizEvent.answer?]⟩
  | next p hstage => exact ⟨by simp [hstage, Stage.waits], by simp [BizEvent.answer?]⟩
  | fetchEnded f rehash id ad urls p hstage =>
      exact ⟨by simp [hstage, Stage.waits], by simp [BizEvent.answer?]⟩
  | requestAd adId hstage => exact ⟨by simp [hstage, Stage.waits], by simp [BizEvent.answer?]⟩
  | adReceived rsp ad hstage hrec => exact ⟨by simp [hstage, Stage.waits], by simp [BizEvent.answer?]⟩
  | adRefused rsp hstage hrec => exact ⟨by simp [hstage, Stage.waits], by simp [BizEvent.answer?]⟩

/-! ## What is published -/

/-- The two contents that a server passes on as it has accepted them. -/
inductive Topic where
  | policy
  | adList
  deriving DecidableEq, Repr

namespace Topic

/-- The stage waits for this content. -/
def waits : Topic → Stage → Bool
  | .policy, .policy => true
  | .adList, .adList _ => true
  | _, _ => false

/-- The content that an event accepts. -/
def content (x : Environment) : Topic → BizEvent → Option Bytes
  | .policy => policyContent x
  | .adList => adListContent x

/-- The contents accepted in a history, in order. -/
def accepted (T : Topic) (x : Environment) (es : List BizEvent) : List Bytes :=
  es.filterMap (T.content x)

/-- The server's answer without an id. -/
def answerFor : Topic → Option Bytes → Message
  | .policy => policyAnswerFor
  | .adList => adListAnswerFor

variable {T : Topic} {x : Environment} {b b' : ThreadBiz} {e : BizEvent}

theorem accepted_concat (T : Topic) (x : Environment) (es : List BizEvent) (e : BizEvent) :
    T.accepted x (es ++ [e]) = T.accepted x es ++ (T.content x e).toList :=
  filterMap_concat (T.content x) es e

theorem waits_stage {stage : Stage} (h : T.waits stage = true) : stage.waits = true := by
  cases T <;> cases stage <;> simp_all [waits, Stage.waits]

/-- An answer without content is refused. -/
theorem answerFor_eq {v : Option Bytes} (h : (T.answerFor v).returnCode = 0) :
    v = some (T.answerFor v).content := by
  cases T <;> cases v <;>
    simp_all [answerFor, policyAnswerFor, adListAnswerFor, Business.answerFor, errorDataNotExist]

/-- What is accepted is the content of a successful answer. -/
theorem content_answer {c : Bytes} (h : T.content x e = some c) :
    ∃ rsp, e.answer? = some rsp ∧ rsp.returnCode = 0 ∧ rsp.content = c := by
  cases T with
  | policy =>
      cases e with
      | policyAnswer rsp =>
          simp only [content, policyContent] at h
          split at h
          · next hgood => exact ⟨rsp, rfl, hgood.1, Option.some.inj h⟩
          · exact absurd h (by simp)
      | _ => exact absurd h (by simp [content, policyContent])
  | adList =>
      cases e with
      | adListAnswer rsp =>
          simp only [content, adListContent] at h
          split at h
          · next hgood => exact ⟨rsp, rfl, hgood.1, Option.some.inj h⟩
          · exact absurd h (by simp)
      | _ => exact absurd h (by simp [content, adListContent])

/-- Nothing is accepted by a thread that does not wait for it. -/
theorem content_none (hs : step x b e = some b') (hwaits : T.waits b.stage = false) :
    T.content x e = none := by
  cases T with
  | policy =>
      cases bizStep hs with
      | policyAnswer rsp hstage =>
          rw [hstage] at hwaits
          exact absurd hwaits (by simp [waits])
      | _ => rfl
  | adList =>
      cases bizStep hs with
      | adListAnswer rsp root hstage =>
          rw [hstage] at hwaits
          exact absurd hwaits (by simp [waits])
      | _ => rfl

/-- An answer ends the wait, and the thread does not wait for the same again at once. -/
theorem waits_answered (hs : step x b e = some b') (hwaits : T.waits b.stage = true)
    (hanswer : e.answer?.isSome) : T.waits b'.stage = false := by
  have hquiet : e.answer? = none → False := fun hnone => by simp [hnone] at hanswer
  cases bizStep hs with
  | policyAnswer rsp hstage =>
      cases T with
      | policy =>
          unfold ThreadBiz.policyAnswered
          simp only
          split
          · unfold ThreadBiz.requestAdList
            split <;> rfl
          · rfl
      | adList =>
          rw [hstage] at hwaits
          exact absurd hwaits (by simp [waits])
  | adListAnswer rsp root hstage =>
      cases T with
      | policy =>
          rw [hstage] at hwaits
          exact absurd hwaits (by simp [waits])
      | adList =>
          unfold ThreadBiz.adListAnswered
          split
          · unfold ThreadBiz.downloadAds
            split <;> rfl
          · rfl
  | fileAnswer rsp rehash id ad p hstage => cases T <;> rfl
  | _ => exact (hquiet rfl).elim

end Topic

/-! ## A bar with two clients -/

/-- Two clients, all parties in one environment. -/
def sampleSetup : Setup Bool where
  server := sampleEnvironment
  client := fun _ => sampleEnvironment
  barId := ascii "1"
  hasPlayer := false
  clientBarId := fun _ => ascii "1"
  clientHasPlayer := fun _ => false
  skipField := fun _ _ => none

/-- The server has a policy, and both clients ask for it. -/
def bothAsk : List (DistEvent Bool) :=
  [.server .connected, .server (.policyAnswer { content := samplePolicy }), .client false .connected,
    .client true .connected]

/-- Six hours after its last policy the server asks the center for another one, and gets `policy`. -/
def serverReplaces (policy : Bytes) : List (DistEvent Bool) :=
  [.server (.tick (hours 6)), .server (.fire .policy), .server .runHandler,
    .server (.policyAnswer { content := policy })]

/-- The server replaces its policy between the answers to the two clients; the older one arrives last. -/
def replacedBetween : List (DistEvent Bool) :=
  [.handle false 1, .server (.adListAnswer { returnCode := 1 })] ++ serverReplaces lockPolicy ++
  [.handle true 1, .deliver true false, .deliver false false]

/-- Client `i`, to whom the server has no ad list to give, asks for the policy again after six hours. -/
def asksAgain (i : Bool) : List (DistEvent Bool) :=
  [.handle i 2, .deliver i false, .client i (.tick (hours 6)), .client i (.fire .policy),
    .client i .runHandler]

/-- Both clients ask again, and the server replaces its policy between these answers too. -/
def secondRound : List (DistEvent Bool) :=
  asksAgain false ++ asksAgain true ++
  [.handle true 3, .server (.adListAnswer {}), .server .next] ++ serverReplaces [] ++
  [.handle false 3, .deliver false false, .deliver true false]

/-- The policies that the server and the two clients have accepted. -/
def policiesOf (s : Distribution Bool) : List (List Bytes) :=
  [acceptedPolicies sampleEnvironment s.server.history,
    acceptedPolicies sampleEnvironment (s.clients false).history,
    acceptedPolicies sampleEnvironment (s.clients true).history]

/-- Each client has the policies of the moments at which its requests were handled. -/
theorem twoRounds_accepted :
    ∃ s s', run sampleSetup.step sampleSetup.init (bothAsk ++ replacedBetween) = some s ∧
      run sampleSetup.step s secondRound = some s' ∧ (s.clients true).biz.stage = .adList .policy ∧
      policiesOf s = [[samplePolicy, lockPolicy], [samplePolicy], [lockPolicy]] ∧
      policiesOf s' = [[samplePolicy, lockPolicy, []], [samplePolicy, []], [lockPolicy, lockPolicy]] := by
  have hview : ((run sampleSetup.step sampleSetup.init (bothAsk ++ replacedBetween)).bind fun s =>
      (run sampleSetup.step s secondRound).map fun s' =>
        (decide ((s.clients true).biz.stage = .adList .policy), policiesOf s, policiesOf s')) =
      some (true, [[samplePolicy, lockPolicy], [samplePolicy], [lockPolicy]],
        [[samplePolicy, lockPolicy, []], [samplePolicy, []], [lockPolicy, lockPolicy]]) := by
    decide +kernel
  obtain ⟨s, hs, hview⟩ := Option.bind_eq_some_iff.mp hview
  obtain ⟨s', hs', hview⟩ := Option.map_eq_some_iff.mp hview
  rw [Prod.mk.injEq, Prod.mk.injEq, decide_eq_true_eq] at hview
  exact ⟨s, s', hs, hs', hview⟩

end AdManager.Business
