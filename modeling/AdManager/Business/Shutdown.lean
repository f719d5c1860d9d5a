/-
# AdManager.Business.Shutdown — `endBusiness` against the two threads it stops.

Translated from `bgnBusiness` and `endBusiness`. The main thread sets the end flag, stops the client and
the server, stops both io_services and joins their threads. Meanwhile the network thread runs the
client's handlers and the business thread is somewhere in its connect loop or in one of the exchanges,
where it waits on the future of a request. That request's promise is set by a handler of the network
io_service, and by nothing else.

`io_service::stop` makes `run` return after the handler it is in; the handlers that are queued then, and
those posted later, do not run. Stopping the server concerns its own sessions only. A connect or a sleep
that has begun is not interrupted.
-/
import AdManager.Business.AdTable
import AdManager.Client.TcpClient
import AdManager.Session.Promises

namespace AdManager.Business

open AdManager.Wire AdManager.Lib AdManager.Server

/-! ## The process -/

/-- What `endBusiness` has done last. At `netJoined` it waits for the business thread. -/
inductive EndStage where
  | running
  | flagSet
  | clientStopped
  | serverStopped
  | netStopped
  | bizStopped
  | netJoined
  | ended
  deriving DecidableEq, Repr

/-- `_iosNet` is stopped. -/
def EndStage.stoppedNet : EndStage → Bool
  | .running => false
  | .flagSet => false
  | .clientStopped => false
  | .serverStopped => false
  | _ => true

/-- `_iosBiz` is stopped. -/
def EndStage.stoppedBiz : EndStage → Bool
  | .bizStopped => true
  | .netJoined => true
  | .ended => true
  | _ => false

/-- `bgnBusiness`'s handler up to its first request: posted, in `syncConnect`, in `sleep`, or over. -/
inductive ConnectLoop where
  | posted
  | attempting
  | sleeping
  | over
  deriving DecidableEq, Repr

/-- The stages at which the thread waits on the future of a request. -/
def Stage.waits : Stage → Bool
  | .policy => true
  | .adList _ => true
  | .file _ _ _ => true
  | _ => false

/-- The process. `waiting` is the promise of the future that the business thread waits on. `attempts`
records for each connection attempt of the business thread whether the end flag was set. -/
structure Process where
  biz : ThreadBiz
  connectLoop : ConnectLoop := .posted
  client : Client.TcpClient := {}
  waiting : Option Nat := none
  stage : EndStage := .running
  attempts : List Bool := []

/-- What can happen: the next step of `endBusiness`; an event of the network thread or of the business
thread; and in the connect loop, the thread takes the handler, an attempt fails or succeeds, the sleep
ends. -/
inductive ProcessEvent where
  | endBusiness
  | net (e : Client.Event)
  | biz (e : BizEvent)
  | takeHandler
  | connectFailed
  | connected
  | wake
  deriving DecidableEq, Repr

/-- The request that the thread has made, when `out` is what it has asked for. -/
def requestIn : List Outgoing → Option Message
  | [.request msg] => some msg
  | _ => none

/-- The request made on the way from `b` to `b'`. -/
def ThreadBiz.newRequest (b b' : ThreadBiz) : Option Message :=
  requestIn (b'.outgoing.drop b.outgoing.length)

/-- The message that a future has given to the thread. -/
def BizEvent.answer? : BizEvent → Option Message
  | .policyAnswer rsp => some rsp
  | .adListAnswer rsp => some rsp
  | .fileAnswer rsp _ => some rsp
  | _ => none

/-- The events of the network thread: requests and `stop` come from the other threads. -/
def isNetwork : Client.Event → Bool
  | .session (.request _) => false
  | .stop => false
  | _ => true

namespace Process

variable (x : Environment) (s : Process)

/-- The business thread waits on a future whose promise is not set. -/
def Unset : Prop := ∃ p ∈ s.waiting, p ∉ s.client.session.completed.map Session.Completion.prom

/-- The promise that the thread waits on was set to `rsp`. -/
def setTo (rsp : Message) : Bool :=
  s.client.session.completed.any fun c => s.waiting == some c.prom && c.msg == rsp

/-- Which events of the business thread can happen: a wait ends with the value of its promise, and no
handler is taken once `_iosBiz` is stopped. -/
def allows : BizEvent → Bool
  | .tick _ => true
  | .fire _ => true
  | .next => true
  | .fetchEnded _ _ => true
  | .runHandler => !s.stage.stoppedBiz
  | .policyAnswer rsp => s.setTo rsp
  | .adListAnswer rsp => s.setTo rsp
  | .fileAnswer rsp _ => s.setTo rsp
  | .connected => false
  | .requestAd _ => false
  | .adAnswer _ => false
  | .endBusiness => false

/-- The business thread goes on to `b`; what it asks for is posted to the session. -/
def goOn (b : ThreadBiz) : Process :=
  match s.biz.newRequest b with
  | none => { s with biz := b }
  | some msg =>
      { s with
        biz := b
        waiting := some s.client.session.nextProm
        client := { s.client with session := s.client.session.request msg } }

/-- The business thread has returned from `run`. -/
def bizReturned : Bool :=
  s.stage.stoppedBiz && (s.connectLoop == .posted || decide (s.biz.stage = .idle))

/-- The next step of `endBusiness`. -/
def endBusiness : Option Process :=
  match s.stage with
  | .running =>
      some { s with
        stage := .flagSet
        biz := { s.biz with impl := { s.biz.impl with isEndBusiness := true } } }
  | .flagSet => some { s with stage := .clientStopped, client := s.client.stop }
  | .clientStopped => some { s with stage := .serverStopped }
  | .serverStopped => some { s with stage := .netStopped }
  | .netStopped => some { s with stage := .bizStopped }
  | .bizStopped => some { s with stage := .netJoined }
  -- `_threadBiz.join()`
  | .netJoined => if s.bizReturned then some { s with stage := .ended } else none
  | .ended => none

/-- `syncConnect` begins. -/
def attempt : Process :=
  { s with connectLoop := .attempting, attempts := s.attempts ++ [s.stage != .running] }

/-- The start of a process that has called `bgnBusiness`. -/
def init (barId : Bytes) (isBarServer hasPlayer : Bool) : Process where
  biz := ThreadBiz.init barId isBarServer hasPlayer

end Process

/-- One event. -/
def processStep (x : Environment) (s : Process) : ProcessEvent → Option Process
  | .endBusiness => s.endBusiness
  | .net e =>
      if s.stage.stoppedNet = false ∧ isNetwork e then
        (Client.step s.client e).map fun c => { s with client := c }
      else none
  | .biz e =>
      if s.allows e then
        (step x s.biz e).map fun b =>
          { s with waiting := if e.answer?.isSome then none else s.waiting }.goOn b
      else none
  | .takeHandler =>
      if s.connectLoop = .posted ∧ s.stage.stoppedBiz = false then some s.attempt else none
  | .connectFailed =>
      if s.connectLoop = .attempting then some { s with connectLoop := .sleeping } else none
  -- the session starts to read, and `requestAdPlayPolicy` follows
  | .connected =>
      if s.connectLoop = .attempting then
        (step x s.biz .connected).map fun b =>
          { s with
            connectLoop := .over
            client := { s.client with session := s.client.session.connected }.startSession }.goOn b
      else none
  -- the loop does not look at the end flag
  | .wake => if s.connectLoop = .sleeping then some s.attempt else none

/-! ## The property and the condition -/

namespace Process

variable (s : Process)

/-- `endBusiness` waits for the business thread, which waits on a promise that nobody will set. -/
def Stranded : Prop := s.stage = .netJoined ∧ s.stage.stoppedNet = true ∧ s.Unset

/-- **Shutdown goes well**: the business thread is not stranded, and has made no connection attempt
since the end flag was set. -/
structure Clean : Prop where
  notStranded : ¬ s.Stranded
  noAttempt : true ∉ s.attempts

end Process

/-- A client's download loop comes to a file that it asks the server for. -/
def ThreadBiz.asksForFile (b : ThreadBiz) : Bool :=
  match b.stage with
  | .download p =>
      match p.todo with
      | [] => false
      | id :: _ => !b.impl.isBarServer && !b.impl.cached id &&
          (b.impl.mapAd id.toUInt32).any fun ad => ad.download ≠ []
  | _ => false

/-- **The condition**: the end flag is not set while the connect loop sleeps, and once it is set, the
loop does not begin and no attempt fails; `_iosNet` is not stopped while the business thread waits on a
promise that is not set; and once it is stopped, the download loop comes to no file that it asks for. -/
def Orderly (s : Process) : ProcessEvent → Prop
  | .endBusiness => (s.stage = .running → s.connectLoop ≠ .sleeping) ∧
      (s.stage = .serverStopped → ¬ s.Unset)
  | .takeHandler => s.stage = .running
  | .connectFailed => s.stage = .running
  | .biz .next => s.stage.stoppedNet = true → s.biz.asksForFile = false
  | _ => True

/-! ## What the business thread asks for -/

theorem AdManagerImpl.policyReceived_isEndBusiness (s : AdManagerImpl) (x : Environment)
    (rsp : Message) : (s.policyReceived x rsp).1.isEndBusiness = s.isEndBusiness := by
  unfold policyReceived
  split
  · simp only
    split <;> rfl
  · rfl

/-- How the business thread goes on from `b` to `b'`: without a request to the server, at most with some
HTTP requests; or it asks the server for something and waits, for which there is the reason `why`. -/
inductive Moves (b : ThreadBiz) (why : Prop) (b' : ThreadBiz) : Prop
  | goesOn (urls : List Bytes) (hout : b'.outgoing = b.outgoing ++ urls.map .httpGet)
      (hstage : b'.stage.waits = false)
  | asks (msg : Message) (hout : b'.outgoing = b.outgoing ++ [.request msg])
      (hstage : b'.stage.waits = true) (hwhy : why)

/-- Only what was asked for before counts; and the reason may be weakened. -/
theorem Moves.congr {a b b' : ThreadBiz} {why why' : Prop} (h : Moves a why b')
    (hout : a.outgoing = b.outgoing) (hwhy : why → why') : Moves b why' b' := by
  cases h with
  | goesOn urls hout' hstage' => exact .goesOn urls (hout ▸ hout') hstage'
  | asks msg hout' hstage' h => exact .asks msg (hout ▸ hout') hstage' (hwhy h)

namespace ThreadBiz

variable {x : Environment} {b b' : ThreadBiz} {why : Prop}

theorem newRequest_append {out : List Outgoing} (h : b'.outgoing = b.outgoing ++ out) :
    b.newRequest b' = requestIn out := by
  rw [newRequest, h, List.drop_left]

/-- The thread goes on and asks for nothing. -/
theorem goesOn_quiet (hout : b'.outgoing = b.outgoing) (hstage : b'.stage.waits = false) :
    Moves b why b' :=
  .goesOn [] (by rw [hout]; exact (List.append_nil _).symm) hstage

theorem requestAdList_moves (b : ThreadBiz) (root : Timer) :
    Moves b (b.impl.isEndBusiness = false) (b.requestAdList root) := by
  unfold requestAdList
  split
  · exact goesOn_quiet rfl rfl
  · next hend => exact .asks _ rfl rfl (by simpa using hend)

theorem requestAdPlayPolicy_moves (x : Environment) (b : ThreadBiz) :
    Moves b (b.impl.isEndBusiness = false) (b.requestAdPlayPolicy x) := by
  unfold requestAdPlayPolicy
  split
  · exact goesOn_quiet rfl rfl
  · next hend => exact .asks _ rfl rfl (by simpa using hend)

theorem downloadAds_moves (b : ThreadBiz) (root : Timer) : Moves b why (b.downloadAds root) := by
  unfold downloadAds
  split <;> exact goesOn_quiet rfl rfl

theorem handler_moves (x : Environment) (b : ThreadBiz) (t : Timer) :
    Moves b (b.impl.isEndBusiness = false) (b.handler x t) := by
  cases t with
  | policy => exact b.requestAdPlayPolicy_moves x
  | adList => exact b.requestAdList_moves .adList
  | download => exact b.downloadAds_moves .download

theorem fetchFrom_moves (b : ThreadBiz) (id : UInt32) (ad : Ad) (p : Pass) (urls : List Bytes) :
    Moves b why (b.fetchFrom id ad p urls) := by
  cases urls with
  | nil => exact goesOn_quiet rfl rfl
  | cons url urls => exact .goesOn [url] rfl rfl

theorem nextAd_moves {p : Pass} (h : b.stage = .download p) :
    Moves b (b.asksForFile = true) (b.nextAd p) := by
  cases htodo : p.todo with
  | nil =>
      simp only [nextAd, htodo, endPass]
      split <;> exact goesOn_quiet rfl rfl
  | cons id todo =>
      simp only [nextAd, htodo]
      split
      · exact goesOn_quiet rfl rfl
      · next hmissing =>
          simp only [downloadAd]
          split
          · exact goesOn_quiet rfl rfl
          · next ad htable =>
              split
              · exact goesOn_quiet rfl rfl
              · next hpaths =>
                  split
                  · exact (fetchFrom_moves _ _ ad _ ad.download).congr rfl fun hwhy => hwhy
                  · next hclient =>
                      refine .asks _ rfl rfl ?_
                      simp only [asksForFile, h, htodo, htable]
                      simp [hclient, hmissing, hpaths]

/-- The next step of the download loop is a request if the loop comes to a file that it asks for. -/
theorem nextAd_asks {p : Pass} (h : b.stage = .download p) (hasks : b.asksForFile = true) :
    ∃ msg, (b.nextAd p).outgoing = b.outgoing ++ [.request msg] := by
  unfold asksForFile at hasks
  rw [h] at hasks
  simp only at hasks
  split at hasks
  · exact absurd hasks (by simp)
  · next id todo htodo =>
      simp only [Bool.and_eq_true, Bool.not_eq_true', Option.any_eq_true, decide_eq_true_eq] at hasks
      obtain ⟨⟨hclient, hmissing⟩, ad, htable, hpaths⟩ := hasks
      refine ⟨(Ask.getAdFile id.toUInt32).message, ?_⟩
      simp only [nextAd, htodo, hmissing, Bool.false_eq_true, if_false, downloadAd, htable, hpaths,
        hclient]
      rfl

end ThreadBiz

/-- **What the business thread does with an event**: it stays where it is, without an answer; or the
stage fits the event and it goes on. After the end flag is set, only the download loop asks for
anything. -/
theorem moves_step {x : Environment} {b b' : ThreadBiz} {e : BizEvent} (hs : step x b e = some b')
    (he : ∀ adId, e ≠ .requestAd adId) :
    (e.answer? = none ∧ b'.outgoing = b.outgoing ∧ b'.stage = b.stage) ∨
      (b.stage.waits = e.answer?.isSome ∧
        Moves b (b.impl.isEndBusiness = false ∨ (e = .next ∧ b.asksForFile = true)) b') := by
  cases bizStep hs with
  | tick n => exact Or.inl ⟨rfl, rfl, rfl⟩
  | fire t l hl => exact Or.inl ⟨rfl, rfl, rfl⟩
  | runHandler f l hstage hl =>
      refine Or.inr ⟨by rw [hstage]; rfl, ?_⟩
      exact (ThreadBiz.handler_moves x _ f.timer).congr rfl Or.inl
  | connected hstage =>
      refine Or.inr ⟨by rw [hstage]; rfl, ?_⟩
      exact (b.requestAdPlayPolicy_moves x).congr rfl Or.inl
  | policyAnswer rsp hstage =>
      refine Or.inr ⟨by rw [hstage]; rfl, ?_⟩
      unfold ThreadBiz.policyAnswered
      simp only
      split
      · have hmoves := ThreadBiz.requestAdList_moves { b with
          impl := (b.impl.policyReceived x rsp).1
          loop := b.loop.expiresFromNow .policy (hours 6) } .policy
        refine hmoves.congr rfl ?_
        intro hend
        rw [b.impl.policyReceived_isEndBusiness] at hend
        exact Or.inl hend
      · exact ThreadBiz.goesOn_quiet rfl rfl
  | adListAnswer rsp root hstage =>
      refine Or.inr ⟨by rw [hstage]; rfl, ?_⟩
      unfold ThreadBiz.adListAnswered
      split
      · exact (ThreadBiz.downloadAds_moves _ root).congr rfl id
      · exact ThreadBiz.goesOn_quiet rfl rfl
  | next p hstage =>
      refine Or.inr ⟨by rw [hstage]; rfl, ?_⟩
      exact (b.nextAd_moves hstage).congr rfl fun hasks => Or.inr ⟨rfl, hasks⟩
  | fetchEnded f rehash id ad urls p hstage =>
      refine Or.inr ⟨by rw [hstage]; rfl, ?_⟩
      cases f with
      | exception => exact b.fetchFrom_moves id ad p urls
      | response status body =>
          simp only [ThreadBiz.fetchEnded]
          split
          · exact ThreadBiz.goesOn_quiet rfl rfl
          · exact b.fetchFrom_moves id ad p urls
  | fileAnswer rsp rehash id ad p hstage =>
      exact Or.inr ⟨by rw [hstage]; rfl, ThreadBiz.goesOn_quiet rfl rfl⟩
  | requestAd adId hstage => exact absurd rfl (he adId)
  | adReceived rsp ad hstage hrec =>
      exact Or.inr ⟨by rw [hstage]; rfl, ThreadBiz.goesOn_quiet rfl rfl⟩
  | adRefused rsp hstage hrec =>
      exact Or.inr ⟨by rw [hstage]; rfl, ThreadBiz.goesOn_quiet rfl rfl⟩
  | endBusiness => exact Or.inl ⟨rfl, rfl, rfl⟩

/-- The end flag stays set. -/
theorem isEndBusiness_step {x : Environment} {b b' : ThreadBiz} {e : BizEvent}
    (hs : step x b e = some b') (hend : b.impl.isEndBusiness = true) :
    b'.impl.isEndBusiness = true := by
  cases dataStep hs with
  | same hquiet hdata => rw [hdata.impl, hend]
  | policy rsp he hdata => rw [hdata.impl, b.impl.policyReceived_isEndBusiness, hend]
  | list rsp ads he hads hdata =>
      have hsame : (b.impl.adListReceived ads rsp.content).isEndBusiness = b.impl.isEndBusiness := by
        rw [AdManagerImpl.adListReceived_eq]
      rw [hdata.impl, AdManagerImpl.pass, if_pos (hsame.trans hend), hsame, hend]
  | retry f he hf htimer hnot hdata => exact absurd (hend.symm.trans hnot) (by simp)
  | image id ad urls p body rehash he hstage hverified hdata => rw [hdata.impl]; exact hend
  | file id ad p rsp rehash he hstage hdata =>
      rw [hdata.impl]
      by_cases hgood : rsp.returnCode = 0 ∧ x.verified ad rsp.content = true
      · rw [b.impl.fileReceived_verified hgood]
        exact hend
      · rw [b.impl.fileReceived_refused hgood]
        exact hend
  | ad rsp ad he hrec hdata => rw [hdata.impl]; exact hend
  | ended he hdata => rw [hdata.impl]

/-! ## Consistent processes -/

/-- **The invariant of all runs**: the end flag is set when `endBusiness` says so, the thread waits on a
promise at the stages where it waits, and the promises of the session are accounted for. -/
structure Process.Consistent (s : Process) : Prop where
  flag : s.stage ≠ .running → s.biz.impl.isEndBusiness = true
  waits : s.waiting.isSome = s.biz.stage.waits
  accounting : Session.Accounting s.client.session

namespace Process

variable {x : Environment} {s s' : Process} {e : BizEvent} {why : Prop}

/-- The promise of the next request is not set. -/
theorem nextProm_unset {c : Session.TcpSession} (h : Session.Accounting c) :
    c.nextProm ∉ c.completed.map Session.Completion.prom := by
  intro hmem
  obtain ⟨c₀, hc₀, hprom⟩ := List.mem_map.mp hmem
  obtain ⟨ctx, hctx, hsame, _⟩ := h.answered c₀ hc₀
  have hrange : ctx.prom ∈ List.range c.nextProm := by
    rw [← h.proms]
    exact List.mem_append_left _ (List.mem_map_of_mem hctx)
  rw [List.mem_range, hsame, hprom] at hrange
  exact absurd hrange (Nat.lt_irrefl _)

theorem goOn_frame (s : Process) (b : ThreadBiz) : (s.goOn b).biz = b ∧ (s.goOn b).stage = s.stage ∧
    (s.goOn b).connectLoop = s.connectLoop ∧ (s.goOn b).attempts = s.attempts := by
  unfold goOn
  split <;> exact ⟨rfl, rfl, rfl, rfl⟩

/-- What the thread does from `s` to `s'`: it stays where it is; or it does not wait on an unset promise,
and goes on without a request, or with one whose promise is not set. -/
inductive ThreadStep (s : Process) (why : Prop) (s' : Process) : Prop
  | stays (hwaiting : s'.waiting = s.waiting) (hclient : s'.client = s.client)
      (hstage : s'.biz.stage = s.biz.stage)
  | goesOn (hfree : ¬ s.Unset) (hwaiting : s'.waiting = none) (hstage : s'.biz.stage.waits = false)
      (haccounting : Session.Accounting s'.client.session)
  | asks (hfree : ¬ s.Unset) (hunset : s'.Unset) (hstage : s'.biz.stage.waits = true)
      (haccounting : Session.Accounting s'.client.session) (hwhy : why)

theorem unset_congr (hwaiting : s'.waiting = s.waiting)
    (hcompleted : s'.client.session.completed = s.client.session.completed) : s'.Unset ↔ s.Unset := by
  unfold Unset
  rw [hwaiting, hcompleted]

/-- A thread that waits on an unset promise can only stay where it is. -/
theorem ThreadStep.unset (h : ThreadStep s why s') (hunset : s.Unset) : s'.Unset := by
  cases h with
  | stays hwaiting hclient _ => exact (unset_congr hwaiting (by rw [hclient])).mpr hunset
  | goesOn hfree _ _ _ => exact absurd hunset hfree
  | asks hfree _ _ _ _ => exact absurd hunset hfree

/-- A thread that waits on an unset promise has waited on it before, or has asked for something. -/
theorem ThreadStep.unset_before (h : ThreadStep s why s') (hunset : s'.Unset) : s.Unset ∨ why := by
  cases h with
  | stays hwaiting hclient _ => exact Or.inl ((unset_congr hwaiting (by rw [hclient])).mp hunset)
  | goesOn _ hwaiting _ _ =>
      obtain ⟨p, hp, _⟩ := hunset
      exact absurd (hwaiting.symm.trans hp) (by simp)
  | asks _ _ _ _ hwhy => exact Or.inr hwhy

/-- The promise of a request that was just made is not set. -/
theorem goOn_unset {b : ThreadBiz} {msg : Message} (haccounting : Session.Accounting s.client.session)
    (hout : b.outgoing = s.biz.outgoing ++ [.request msg]) : (s.goOn b).Unset := by
  unfold goOn
  rw [ThreadBiz.newRequest_append hout]
  exact ⟨_, rfl, nextProm_unset haccounting⟩

theorem not_unset (hnone : s.waiting = none) : ¬ s.Unset := by
  rintro ⟨p, hp, _⟩
  exact absurd (hnone.symm.trans hp) (by simp)

/-- A thread that waits for nothing goes on. -/
theorem goOn_threadStep {t : Process} {b : ThreadBiz} (hfree : ¬ t.Unset) (hnone : s.waiting = none)
    (haccounting : Session.Accounting s.client.session) (hmoves : Moves s.biz why b) :
    ThreadStep t why (s.goOn b) := by
  cases hmoves with
  | goesOn urls hout hstage =>
      have hquiet : s.biz.newRequest b = none := by
        rw [ThreadBiz.newRequest_append hout]
        cases urls <;> rfl
      unfold goOn
      rw [hquiet]
      exact .goesOn hfree hnone hstage haccounting
  | asks msg hout hstage hwhy =>
      have hunset := goOn_unset haccounting hout
      unfold goOn at hunset ⊢
      rw [ThreadBiz.newRequest_append hout] at hunset ⊢
      exact .asks hfree hunset hstage (haccounting.request msg) hwhy

theorem setTo_free {rsp : Message} (h : s.setTo rsp = true) : ¬ s.Unset := by
  rintro ⟨p, hp, hunset⟩
  obtain ⟨c, hc, hmatch⟩ := List.any_eq_true.mp h
  rw [Bool.and_eq_true, beq_iff_eq] at hmatch
  obtain rfl : c.prom = p := Option.some.inj (hmatch.1.symm.trans hp)
  exact hunset (List.mem_map_of_mem hc)

/-- An answer is the value of the promise that the thread waits on. -/
theorem allows_answer (h : s.allows e = true) (hanswer : e.answer?.isSome = true) : ¬ s.Unset := by
  cases e with
  | policyAnswer rsp => exact setTo_free h
  | adListAnswer rsp => exact setTo_free h
  | fileAnswer rsp rehash => exact setTo_free h
  | _ => exact absurd hanswer (by simp [BizEvent.answer?])

/-- A step of `endBusiness`: it goes to the next stage, and touches the waiting thread in no way. -/
structure EndStep (s s' : Process) : Prop where
  flag : s'.stage ≠ .running
  ended : s'.biz.impl.isEndBusiness = true ∨ (s.stage ≠ .running ∧ s'.biz = s.biz)
  bizStage : s'.biz.stage = s.biz.stage
  waiting : s'.waiting = s.waiting
  completed : s'.client.session.completed = s.client.session.completed
  accounting : Session.Accounting s.client.session → Session.Accounting s'.client.session
  connectLoop : s'.connectLoop = s.connectLoop
  attempts : s'.attempts = s.attempts
  netStays : s.stage.stoppedNet = true → s'.stage.stoppedNet = true
  netStops : s'.stage.stoppedNet = true → s.stage.stoppedNet = true ∨ s.stage = .serverStopped

/-- A step that does nothing but go to the next stage. -/
theorem EndStep.advance {stage : EndStage} (hflag : s.stage ≠ .running) (hflag' : stage ≠ .running)
    (hstays : s.stage.stoppedNet = true → stage.stoppedNet = true)
    (hstops : stage.stoppedNet = true → s.stage.stoppedNet = true ∨ s.stage = .serverStopped) :
    EndStep s { s with stage := stage } where
  flag := hflag'
  ended := Or.inr ⟨hflag, rfl⟩
  bizStage := rfl
  waiting := rfl
  completed := rfl
  accounting := id
  connectLoop := rfl
  attempts := rfl
  netStays := hstays
  netStops := hstops

theorem endBusiness_step (hs : s.endBusiness = some s') : EndStep s s' := by
  unfold endBusiness at hs
  split at hs
  · next hstage =>
      obtain rfl := Option.some.inj hs
      exact ⟨by simp, Or.inl rfl, rfl, rfl, rfl, id, rfl, rfl, by simp [hstage, EndStage.stoppedNet],
        by simp [EndStage.stoppedNet]⟩
  · next hstage =>
      obtain rfl := Option.some.inj hs
      refine ⟨by simp, Or.inr ⟨by simp [hstage], rfl⟩, rfl, rfl, rfl, ?_, rfl, rfl,
        by simp [hstage, EndStage.stoppedNet], by simp [EndStage.stoppedNet]⟩
      intro haccounting
      exact haccounting.of_same rfl rfl rfl rfl rfl rfl rfl
  · next hstage =>
      obtain rfl := Option.some.inj hs
      apply EndStep.advance <;> simp [hstage, EndStage.stoppedNet]
  · next hstage =>
      obtain rfl := Option.some.inj hs
      apply EndStep.advance <;> simp [hstage, EndStage.stoppedNet]
  · next hstage =>
      obtain rfl := Option.some.inj hs
      apply EndStep.advance <;> simp [hstage, EndStage.stoppedNet]
  · next hstage =>
      obtain rfl := Option.some.inj hs
      apply EndStep.advance <;> simp [hstage, EndStage.stoppedNet]
  · next hstage =>
      split at hs
      · obtain rfl := Option.some.inj hs
        apply EndStep.advance <;> simp [hstage, EndStage.stoppedNet]
      · exact absurd hs (by simp)
  · exact absurd hs (by simp)

/-- What happens in a process: `endBusiness` goes on; the business thread has an event of its own; the
network thread has one, while `_iosNet` runs; an attempt begins, at the start of the connect loop or after
its sleep; or an attempt fails, and the loop sleeps. After the end flag is set, only the download loop
asks for anything. -/
inductive Happens (x : Environment) (s : Process) (e : ProcessEvent) (s' : Process) : Prop
  | ends (he : e = .endBusiness) (hend : EndStep s s')
  | thread (e₀ : BizEvent) (hb : step x s.biz e₀ = some s'.biz) (hstage : s'.stage = s.stage)
      (hsleeps : s'.connectLoop = .sleeping ↔ s.connectLoop = .sleeping)
      (hattempts : s'.attempts = s.attempts)
      (hthread : ThreadStep s
        (s.biz.impl.isEndBusiness = false ∨ (e = .biz .next ∧ s.biz.asksForFile = true)) s')
  | net (c : Client.TcpClient) (hrunning : s.stage.stoppedNet = false)
      (haccounting : Session.Accounting s.client.session → Session.Accounting c.session)
      (heq : s' = { s with client := c })
  | begins (hwhen : (e = .takeHandler ∧ s.connectLoop = .posted) ∨
      (e = .wake ∧ s.connectLoop = .sleeping)) (heq : s' = s.attempt)
  | sleeps (he : e = .connectFailed) (heq : s' = { s with connectLoop := .sleeping })

theorem biz_step {e : BizEvent} (h : s.Consistent) (hs : processStep x s (.biz e) = some s') :
    Happens x s (.biz e) s' := by
  simp only [processStep] at hs
  split at hs
  · next hallows =>
      obtain ⟨b, hb, rfl⟩ := Option.map_eq_some_iff.mp hs
      have hnot : ∀ adId, e ≠ .requestAd adId := by
        rintro adId rfl
        exact absurd hallows (by simp [allows])
      obtain ⟨hbiz, hstage, hloop, hattempts⟩ := goOn_frame { s with
        waiting := if e.answer?.isSome then none else s.waiting } b
      refine .thread e (by rw [hbiz, hb]) hstage (by rw [hloop]) hattempts ?_
      rcases moves_step hb hnot with ⟨hnone, hout, hsame⟩ | ⟨hwaits, hmoves⟩
      · have hquiet : s.biz.newRequest b = none := by
          rw [ThreadBiz.newRequest_append (hout.trans (List.append_nil _).symm)]
          rfl
        unfold goOn
        rw [hquiet, hnone]
        exact .stays rfl rfl hsame
      · have hmoves : Moves s.biz (s.biz.impl.isEndBusiness = false ∨
            (ProcessEvent.biz e = .biz .next ∧ s.biz.asksForFile = true)) b := by
          refine hmoves.congr rfl (Or.imp_right ?_)
          rintro ⟨rfl, hasks⟩
          exact ⟨rfl, hasks⟩
        -- either the promise is set, or the thread does not wait on one
        cases hanswer : e.answer?.isSome with
        | true => exact goOn_threadStep (allows_answer hallows hanswer) rfl h.accounting hmoves
        | false =>
            have hwaiting : s.waiting = none := by
              rw [← Option.not_isSome_iff_eq_none, h.waits, hwaits, hanswer]
              simp
            exact goOn_threadStep (not_unset hwaiting) hwaiting h.accounting hmoves
  · exact absurd hs (by simp)

/-- The first connection is there, and the first request follows. -/
theorem connected_step (h : s.Consistent) (hs : processStep x s .connected = some s') :
    Happens x s .connected s' := by
  simp only [processStep] at hs
  split at hs
  · next hloop =>
      obtain ⟨b, hb, rfl⟩ := Option.map_eq_some_iff.mp hs
      obtain ⟨hbiz, hstage, hover, hattempts⟩ := goOn_frame { s with
        connectLoop := .over
        client := { s.client with session := s.client.session.connected }.startSession } b
      refine .thread .connected (by rw [hbiz, hb]) hstage (by simp [hover, hloop]) hattempts ?_
      have haccounting : Session.Accounting s.client.session.connected.startSession :=
        h.accounting.of_same rfl rfl rfl rfl rfl rfl rfl
      cases bizStep hb with
      | connected hconnecting =>
          have hwaiting : s.waiting = none := by
            rw [← Option.not_isSome_iff_eq_none, h.waits, hconnecting]
            simp [Stage.waits]
          exact goOn_threadStep (not_unset hwaiting) hwaiting haccounting
            ((s.biz.requestAdPlayPolicy_moves x).congr rfl Or.inl)
  · exact absurd hs (by simp)

/-- **Every event is one of these.** -/
theorem happens (h : s.Consistent) {e : ProcessEvent} (hs : processStep x s e = some s') :
    Happens x s e s' := by
  cases e with
  | endBusiness => exact .ends rfl (endBusiness_step hs)
  | biz e => exact biz_step h hs
  | connected => exact connected_step h hs
  | net e =>
      simp only [processStep] at hs
      split at hs
      · next hrunning =>
          obtain ⟨c, hc, rfl⟩ := Option.map_eq_some_iff.mp hs
          refine .net c hrunning.1 ?_ rfl
          intro haccounting
          rcases Client.session_step hc with hsame | ⟨e, hstep⟩
          · rw [hsame]
            exact haccounting
          · exact haccounting.step hstep
      · exact absurd hs (by simp)
  | takeHandler =>
      simp only [processStep] at hs
      split at hs
      · next hposted =>
          obtain rfl := Option.some.inj hs
          exact .begins (Or.inl ⟨rfl, hposted.1⟩) rfl
      · exact absurd hs (by simp)
  | connectFailed =>
      simp only [processStep] at hs
      split at hs
      · obtain rfl := Option.some.inj hs
        exact .sleeps rfl rfl
      · exact absurd hs (by simp)
  | wake =>
      simp only [processStep] at hs
      split at hs
      · next hsleeping =>
          obtain rfl := Option.some.inj hs
          exact .begins (Or.inr ⟨rfl, hsleeping⟩) rfl
      · exact absurd hs (by simp)

end Process

namespace Process.Consistent

variable {x : Environment} {s s' : Process}

theorem init (barId : Bytes) (isBarServer hasPlayer : Bool) :
    (Process.init barId isBarServer hasPlayer).Consistent where
  flag := fun h => absurd rfl h
  waits := rfl
  accounting := Session.Accounting.init

/-- The end flag is set before `_iosNet` is stopped. -/
theorem ended (h : s.Consistent) (hstopped : s.stage.stoppedNet = true) :
    s.biz.impl.isEndBusiness = true := by
  apply h.flag
  intro hrunning
  simp [hrunning, EndStage.stoppedNet] at hstopped

/-- The thread waits after its step exactly at the stages where it waits. -/
theorem threadStep {why : Prop} (h : s.Consistent) (hthread : ThreadStep s why s') :
    s'.waiting.isSome = s'.biz.stage.waits ∧ Session.Accounting s'.client.session := by
  cases hthread with
  | stays hwaiting hclient hsame =>
      exact ⟨by rw [hwaiting, hsame, h.waits], hclient ▸ h.accounting⟩
  | goesOn _ hwaiting hwaits haccounting =>
      exact ⟨by rw [hwaiting, hwaits]; rfl, haccounting⟩
  | asks _ hunset hwaits haccounting _ =>
      obtain ⟨p, hp, _⟩ := hunset
      exact ⟨by rw [Option.mem_def.mp hp, hwaits]; rfl, haccounting⟩

/-- **Every event leaves the process consistent.** -/
theorem step (h : s.Consistent) {e : ProcessEvent} (hs : processStep x s e = some s') :
    s'.Consistent := by
  cases Process.happens h hs with
  | ends _ hend =>
      refine ⟨?_, by rw [hend.waiting, hend.bizStage, h.waits], hend.accounting h.accounting⟩
      intro _
      rcases hend.ended with hset | ⟨hflag, hsame⟩
      · exact hset
      · rw [hsame]
        exact h.flag hflag
  | thread e₀ hb hstage _ _ hthread =>
      obtain ⟨hwaits, haccounting⟩ := h.threadStep hthread
      refine ⟨?_, hwaits, haccounting⟩
      intro hflag
      exact isEndBusiness_step hb (h.flag (hstage ▸ hflag))
  | net c _ haccounting heq =>
      subst heq
      exact ⟨h.flag, h.waits, haccounting h.accounting⟩
  | begins _ heq =>
      subst heq
      exact ⟨h.flag, h.waits, h.accounting⟩
  | sleeps _ heq =>
      subst heq
      exact ⟨h.flag, h.waits, h.accounting⟩

end Process.Consistent

/-! ## The point of no return -/

/-- **From here on shutdown goes wrong**: `_iosNet` is stopped and the thread waits on a promise that is
not set; the connect loop sleeps, and will try again when the end flag is set; or it has done so. -/
inductive Process.Doomed (s : Process) : Prop
  | stuck (hnet : s.stage.stoppedNet = true) (hunset : s.Unset)
  | asleep (hflag : s.stage ≠ .running) (hloop : s.connectLoop = .sleeping)
  | late (hattempt : true ∈ s.attempts)

namespace Process

variable {x : Environment} {s s' : Process} {e : ProcessEvent}

/-- **There is no way back**: a stuck thread can only stay where it is, and the network thread does not
run any more. -/
theorem doomed_step (h : s.Consistent) (hdoomed : s.Doomed) (hs : processStep x s e = some s') :
    s'.Doomed := by
  cases happens h hs with
  | ends _ hend =>
      cases hdoomed with
      | stuck hstopped hunset =>
          exact .stuck (hend.netStays hstopped) ((unset_congr hend.waiting hend.completed).mpr hunset)
      | asleep _ hsleeping => exact .asleep hend.flag (hend.connectLoop.trans hsleeping)
      | late hattempt => exact .late (hend.attempts ▸ hattempt)
  | thread e₀ _ hstage hsleeps hattempts hthread =>
      cases hdoomed with
      | stuck hstopped hunset => exact .stuck (hstage ▸ hstopped) (hthread.unset hunset)
      | asleep hflag hsleeping => exact .asleep (hstage ▸ hflag) (hsleeps.mpr hsleeping)
      | late hattempt => exact .late (hattempts ▸ hattempt)
  | net c hrunning _ heq =>
      subst heq
      cases hdoomed with
      | stuck hstopped _ => exact absurd (hstopped.symm.trans hrunning) (by simp)
      | asleep hflag hsleeping => exact .asleep hflag hsleeping
      | late hattempt => exact .late hattempt
  | begins _ heq =>
      subst heq
      cases hdoomed with
      | stuck hstopped hunset => exact .stuck hstopped hunset
      | asleep hflag _ => exact .late (List.mem_append_right _ (by simp [hflag]))
      | late hattempt => exact .late (List.mem_append_left _ hattempt)
  | sleeps _ heq =>
      subst heq
      cases hdoomed with
      | stuck hstopped hunset => exact .stuck hstopped hunset
      | asleep hflag _ => exact .asleep hflag rfl
      | late hattempt => exact .late hattempt

/-- An orderly event does not go past the point of no return. -/
theorem not_doomed_step (h : s.Consistent) (hfine : ¬ s.Doomed) (hC : Orderly s e)
    (hs : processStep x s e = some s') : ¬ s'.Doomed := by
  intro hdoomed
  apply hfine
  cases happens h hs with
  | ends he hend =>
      subst he
      obtain ⟨hawake, hset⟩ := hC
      cases hdoomed with
      | stuck hstopped hunset =>
          have hbefore : s.Unset := (unset_congr hend.waiting hend.completed).mp hunset
          rcases hend.netStops hstopped with hstopped | hstage
          · exact .stuck hstopped hbefore
          · exact absurd hbefore (hset hstage)
      | asleep _ hsleeping =>
          rw [hend.connectLoop] at hsleeping
          exact .asleep (fun hrunning => hawake hrunning hsleeping) hsleeping
      | late hattempt => exact .late (hend.attempts ▸ hattempt)
  | thread e₀ _ hstage hsleeps hattempts hthread =>
      cases hdoomed with
      | stuck hstopped hunset =>
          rw [hstage] at hstopped
          have hend := h.ended hstopped
          rcases hthread.unset_before hunset with hbefore | hnot | ⟨rfl, hasks⟩
          · exact .stuck hstopped hbefore
          · exact absurd (hend.symm.trans hnot) (by simp)
          · exact absurd (hasks.symm.trans (hC hstopped)) (by simp)
      | asleep hflag hsleeping => exact .asleep (hstage ▸ hflag) (hsleeps.mp hsleeping)
      | late hattempt => exact .late (hattempts ▸ hattempt)
  | net c hrunning _ heq =>
      subst heq
      cases hdoomed with
      | stuck hstopped _ => exact absurd (hstopped.symm.trans hrunning) (by simp)
      | asleep hflag hsleeping => exact .asleep hflag hsleeping
      | late hattempt => exact .late hattempt
  | begins hwhen heq =>
      subst heq
      cases hdoomed with
      | stuck hstopped hunset => exact .stuck hstopped hunset
      | asleep _ hsleeping => exact absurd hsleeping (by simp [attempt])
      | late hattempt =>
          rcases List.mem_append.mp hattempt with hattempt | hnew
          · exact .late hattempt
          · -- a new attempt that is late: the handler is not taken any more, so the loop was asleep
            have hflag : s.stage ≠ .running := by simpa using hnew
            rcases hwhen with ⟨rfl, _⟩ | ⟨_, hsleeping⟩
            · exact absurd hC hflag
            · exact .asleep hflag hsleeping
  | sleeps he heq =>
      subst he heq
      cases hdoomed with
      | stuck hstopped hunset => exact .stuck hstopped hunset
      | asleep hflag _ => exact absurd hC hflag
      | late hattempt => exact .late hattempt

/-- An event that does not go past it is orderly. -/
theorem orderly_of_step (h : s.Consistent) (hs : processStep x s e = some s') (hfine : ¬ s'.Doomed) :
    Orderly s e := by
  cases e with
  | endBusiness =>
      have hend := endBusiness_step hs
      constructor
      · intro _ hsleeping
        exact hfine (.asleep hend.flag (hend.connectLoop.trans hsleeping))
      · intro hstage hunset
        refine hfine (.stuck ?_ ((unset_congr hend.waiting hend.completed).mpr hunset))
        simp only [processStep, endBusiness, hstage] at hs
        obtain rfl := Option.some.inj hs
        rfl
  | takeHandler =>
      simp only [processStep] at hs
      split at hs
      · obtain rfl := Option.some.inj hs
        by_contra hflag
        exact hfine (.late (List.mem_append_right _ (by simpa [Orderly] using hflag)))
      · exact absurd hs (by simp)
  | connectFailed =>
      simp only [processStep] at hs
      split at hs
      · obtain rfl := Option.some.inj hs
        by_contra hflag
        exact hfine (.asleep hflag rfl)
      · exact absurd hs (by simp)
  | biz e =>
      cases e with
      | next =>
          intro hstopped
          rw [Bool.eq_false_iff]
          intro hasks
          simp only [processStep] at hs
          split at hs
          · obtain ⟨b, hb, rfl⟩ := Option.map_eq_some_iff.mp hs
            rw [← (goOn_frame _ b).2.1] at hstopped
            cases bizStep hb with
            | next p hdownload =>
                obtain ⟨msg, hout⟩ := s.biz.nextAd_asks hdownload hasks
                exact hfine (.stuck hstopped (goOn_unset h.accounting hout))
          · exact absurd hs (by simp)
      | _ => trivial
  | _ => trivial

theorem clean_of_not_doomed (hfine : ¬ s.Doomed) : s.Clean where
  notStranded := fun hstranded => hfine (.stuck hstranded.2.1 hstranded.2.2)
  noAttempt := fun hattempt => hfine (.late hattempt)

theorem not_doomed_init (barId : Bytes) (isBarServer hasPlayer : Bool) :
    ¬ (Process.init barId isBarServer hasPlayer).Doomed := by
  intro hdoomed
  cases hdoomed with
  | stuck hstopped _ => exact absurd hstopped (by simp [Process.init, EndStage.stoppedNet])
  | asleep hflag _ => exact hflag rfl
  | late hattempt => exact absurd hattempt (by simp [Process.init])

end Process

/-- **When shutdown goes well.** In every run whose events are all orderly, no state reached has the
business thread stranded, or a connection attempt made after the end flag was set. And a run that gets
to the join of the business thread, with no sleep left to end, goes well only if its events are all
orderly. -/
theorem shutdown_clean (x : Environment) (barId : Bytes) (isBarServer hasPlayer : Bool)
    (es : List ProcessEvent) {s : Process}
    (h : run (processStep x) (Process.init barId isBarServer hasPlayer) es = some s) :
    (EveryStep (processStep x) Orderly (Process.init barId isBarServer hasPlayer) es →
        EveryState (processStep x) Process.Clean (Process.init barId isBarServer hasPlayer) es) ∧
      (s.stage = .netJoined → s.connectLoop ≠ .sleeping →
        EveryState (processStep x) Process.Clean (Process.init barId isBarServer hasPlayer) es →
        EveryStep (processStep x) Orderly (Process.init barId isBarServer hasPlayer) es) := by
  have hconsistent := Process.Consistent.init barId isBarServer hasPlayer
  have hexact : EveryState (processStep x) (fun s => ¬ s.Doomed)
        (Process.init barId isBarServer hasPlayer) es ↔
      EveryStep (processStep x) Orderly (Process.init barId isBarServer hasPlayer) es :=
    everyState_iff_everyStep (I := fun s => s.Consistent ∧ ¬ s.Doomed)
      ⟨hconsistent, Process.not_doomed_init barId isBarServer hasPlayer⟩
      (fun _ ht => ht.2)
      (fun _ _ _ ht hC hs => ⟨ht.1.step hs, Process.not_doomed_step ht.1 ht.2 hC hs⟩)
      (fun _ _ _ ht hs hfine => Process.orderly_of_step ht.1 hs hfine) h
  constructor
  · intro horderly pre post t hes ht
    exact Process.clean_of_not_doomed (hexact.mpr horderly pre post t hes ht)
  · intro hstage hawake hclean
    apply hexact.mp
    intro pre post t hes ht hdoomed
    -- the doom lasts until the join, where it shows
    rw [hes] at h
    obtain ⟨u, hu, hrest⟩ := run_append_eq_some.mp h
    obtain rfl : t = u := Option.some.inj (ht.symm.trans hu)
    have hthere : t.Consistent :=
      inv_run (I := Process.Consistent) hconsistent (fun _ _ _ ht hs => ht.step hs) ht
    have hend : s.Consistent ∧ s.Doomed :=
      inv_run (I := fun s => s.Consistent ∧ s.Doomed) ⟨hthere, hdoomed⟩
        (fun _ _ _ ht hs => ⟨ht.1.step hs, Process.doomed_step ht.1 ht.2 hs⟩) hrest
    have hlast : s.Clean := hclean es [] s (List.append_nil es).symm (hes ▸ h)
    cases hend.2 with
    | stuck hstopped hunset => exact hlast.notStranded ⟨hstage, hstopped, hunset⟩
    | asleep _ hsleeping => exact hawake hsleeping
    | late hattempt => exact hlast.noAttempt hattempt

instance (s : Process) : Decidable s.Unset := inferInstanceAs (Decidable (∃ p ∈ s.waiting, _))

instance (s : Process) : (e : ProcessEvent) → Decidable (Orderly s e)
  | .endBusiness => inferInstanceAs (Decidable (_ ∧ _))
  | .takeHandler => inferInstanceAs (Decidable (s.stage = .running))
  | .connectFailed => inferInstanceAs (Decidable (s.stage = .running))
  | .biz .next => inferInstanceAs (Decidable (_ → _))
  | .biz (.tick _) => .isTrue trivial
  | .biz (.fire _) => .isTrue trivial
  | .biz .runHandler => .isTrue trivial
  | .biz .connected => .isTrue trivial
  | .biz (.policyAnswer _) => .isTrue trivial
  | .biz (.adListAnswer _) => .isTrue trivial
  | .biz (.fetchEnded _ _) => .isTrue trivial
  | .biz (.fileAnswer _ _) => .isTrue trivial
  | .biz (.requestAd _) => .isTrue trivial
  | .biz (.adAnswer _) => .isTrue trivial
  | .biz .endBusiness => .isTrue trivial
  | .net _ => .isTrue trivial
  | .connected => .isTrue trivial
  | .wake => .isTrue trivial

/-- The policy request is out when `endBusiness` is called, and the closed socket ends it in time. -/
def timelyShutdown : List ProcessEvent :=
  [.takeHandler, .connected, .net (.session .runPost), .endBusiness, .endBusiness,
    .net (.readFail 0 []), .endBusiness, .endBusiness, .biz (.policyAnswer { returnCode := -1 }),
    .endBusiness, .endBusiness]

theorem shutdown_clean_timely :
    EveryState (processStep sampleEnvironment) Process.Clean (Process.init (ascii "1") false false)
        timelyShutdown ∧
      ∃ s, run (processStep sampleEnvironment) (Process.init (ascii "1") false false) timelyShutdown =
          some s ∧ s.stage = .netJoined ∧
        EveryStep (processStep sampleEnvironment) Orderly (Process.init (ascii "1") false false)
          timelyShutdown := by
  have hview : (run (processStep sampleEnvironment) (Process.init (ascii "1") false false)
      timelyShutdown).map (fun s => (s.stage, s.connectLoop)) = some (.netJoined, .over) := by
    decide +kernel
  obtain ⟨s, hs, hview⟩ := Option.map_eq_some_iff.mp hview
  obtain ⟨hstage, hloop⟩ := Prod.mk.inj hview
  obtain ⟨hclean, hexact⟩ :=
    shutdown_clean sampleEnvironment (ascii "1") false false timelyShutdown hs
  have hall := hclean (by decide +kernel)
  exact ⟨hall, s, hs, hstage, hexact hstage (by simp [hloop]) hall⟩

/-- **Two shutdowns that go wrong.** `_iosNet` is stopped before it has run the handlers of the closed
socket, so nobody sets the promise of the policy request; and the connect loop, asleep when the end flag
is set, tries again. -/
theorem thread_stranded :
    (∃ s, run (processStep sampleEnvironment) (Process.init (ascii "1") false false)
        [.takeHandler, .connected, .endBusiness, .endBusiness, .endBusiness, .endBusiness, .endBusiness,
          .endBusiness] = some s ∧ s.Stranded) ∧
    ∃ s, run (processStep sampleEnvironment) (Process.init (ascii "1") false false)
        [.takeHandler, .connectFailed, .endBusiness, .wake] = some s ∧ ¬ s.Clean := by
  constructor
  · have hview : (run (processStep sampleEnvironment) (Process.init (ascii "1") false false)
        [.takeHandler, .connected, .endBusiness, .endBusiness, .endBusiness, .endBusiness, .endBusiness,
          .endBusiness]).map (fun s => (s.stage, s.waiting, s.client.session.completed)) =
        some (.netJoined, some 0, []) := by
      decide +kernel
    obtain ⟨s, hs, hview⟩ := Option.map_eq_some_iff.mp hview
    obtain ⟨hstage, hview⟩ := Prod.mk.inj hview
    obtain ⟨hwaiting, hcompleted⟩ := Prod.mk.inj hview
    refine ⟨s, hs, hstage, by rw [hstage]; rfl, 0, hwaiting, ?_⟩
    rw [hcompleted]
    exact List.not_mem_nil
  · have hview : (run (processStep sampleEnvironment) (Process.init (ascii "1") false false)
        [.takeHandler, .connectFailed, .endBusiness, .wake]).map Process.attempts =
        some [false, true] := by
      decide +kernel
    obtain ⟨s, hs, hattempts⟩ := Option.map_eq_some_iff.mp hview
    refine ⟨s, hs, ?_⟩
    intro hclean
    refine hclean.noAttempt ?_
    rw [hattempts]
    decide

end AdManager.Business
