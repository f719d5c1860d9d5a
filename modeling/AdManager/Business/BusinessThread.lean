/-
# AdManager.Business.BusinessThread — the business thread and its three timers.

`_iosBiz` is served by one thread. It runs `bgnBusiness`'s handler and then the handlers of the policy,
ad-list and download timers, each of which calls on from policy to ad list to downloads and blocks at
every exchange on the way. An event is the end of such a wait, the arrival of an answer among others, or
time passing, or a timer that expires; `none` means that the thread is not waiting for it.

Each of the three functions returns to its caller after it has armed its timer, so the policy timer is
armed last in a policy refresh. That a handler runs says nothing about why: `boost::bind` drops the error
code, and a handler whose wait was cancelled does the same as one whose wait is over.
-/
import AdManager.Business.AdManagerImpl
import AdManager.Lib.Run
import AdManager.Lib.TimerLoop
import AdManager.Server.Bar

namespace AdManager.Business

open AdManager.Wire AdManager.Lib AdManager.Server
open AdManager.Md5 (MD5 zeroBlock)

/-! ## State -/

/-- `_timerPolicy`, `_timerAdList` and `_timerDownload`. -/
inductive Timer where
  | policy
  | adList
  | download
  deriving DecidableEq, Repr

/-- A duration in the microseconds of `boost::posix_time`. -/
def seconds (n : Nat) : Nat := n * 1000000

def minutes (n : Nat) : Nat := seconds (n * 60)

def hours (n : Nat) : Nat := minutes (n * 60)

/-- The delay of `_timerAdList`. -/
def adListTimeout (debug : Bool) : Nat := if debug then seconds 3 else seconds (5 * 60)

/-- A run of `downloadAds` in its second loop: the ids needed and those still to be looked at. `root` is
the timer whose handler is running. -/
structure Pass where
  idSet : List Int32
  todo : List Int32
  root : Timer
  deriving DecidableEq, Repr

/-- What the business thread is at: nothing, `bgnBusiness`'s connect loop, one of the exchanges, or the
second loop of `downloadAds`. The first policy request counts as the policy timer's. -/
inductive Stage where
  | idle
  | connecting
  | policy
  | adList (root : Timer)
  | ad
  | download (p : Pass)
  | fetch (id : UInt32) (ad : Ad) (urls : List Bytes) (p : Pass)
  | file (id : UInt32) (ad : Ad) (p : Pass)
  deriving DecidableEq, Repr

/-- The timer whose handler is running. -/
def Stage.root? : Stage → Option Timer
  | .idle => none
  | .connecting => some .policy
  | .policy => some .policy
  | .adList root => some root
  | .ad => none
  | .download p => some p.root
  | .fetch _ _ _ p => some p.root
  | .file _ _ p => some p.root

/-- What the thread has asked the network for. -/
inductive Outgoing where
  | request (msg : Message)
  | httpGet (url : Bytes)
  deriving DecidableEq, Repr

/-- What became of an HTTP request. -/
inductive Fetched where
  | exception
  | response (status : Nat) (body : Bytes)
  deriving DecidableEq, Repr

/-- The handler of `timer`, run at `time`, and the wait that it belongs to. -/
structure Execution where
  timer : Timer
  wait : Wait
  time : Nat
  deriving DecidableEq, Repr

/-- The business thread with its data. `executions`, `outgoing`, `downloadCalls` (the ids for which `downloadAd`
was called), `listed` (the ads of the last list accepted) and `received` (all ads accepted) are records. -/
structure ThreadBiz where
  impl : AdManagerImpl
  loop : TimerLoop Timer := {}
  stage : Stage := .connecting
  executions : List Execution := []
  outgoing : List Outgoing := []
  downloadCalls : List UInt32 := []
  listed : List Ad := []
  received : List Ad := []

namespace ThreadBiz

/-! ## Calls and returns -/

variable (x : Environment) (b : ThreadBiz)

/-- `expires_from_now` and `async_wait`. -/
def arm (t : Timer) (d : Nat) : ThreadBiz :=
  { b with loop := (b.loop.expiresFromNow t d).asyncWait t }

/-- Return to the caller: `requestAdPlayPolicy` still has to wait on its timer. -/
def finish (root : Timer) : ThreadBiz :=
  { b with
    loop := if root = .policy then b.loop.asyncWait .policy else b.loop
    stage := .idle }

/-- Ask for something and wait for the answer. -/
def await (out : Outgoing) (stage : Stage) : ThreadBiz :=
  { b with outgoing := b.outgoing ++ [out], stage := stage }

/-- `downloadAds`, called in the handler of `root`. -/
def downloadAds (root : Timer) : ThreadBiz :=
  if b.impl.isEndBusiness then b.finish root
  else
    { b with
      impl := b.impl.beginPass.1
      stage := .download { idSet := b.impl.beginPass.2, todo := b.impl.beginPass.2, root := root } }

/-- `requestAdList`, called in the handler of `root`. -/
def requestAdList (root : Timer) : ThreadBiz :=
  if b.impl.isEndBusiness then b.finish root
  else b.await (.request Ask.getAdList.message) (.adList root)

/-- `requestAdPlayPolicy`. -/
def requestAdPlayPolicy : ThreadBiz :=
  if b.impl.isEndBusiness then { b with stage := .idle }
  else b.await (.request (Ask.getAdPlayPolicy (x.barIdOf b.impl.barId)).message) .policy

/-- The handler of a timer. -/
def handler : Timer → ThreadBiz
  | .policy => b.requestAdPlayPolicy x
  | .adList => b.requestAdList .adList
  | .download => b.downloadAds .download

/-- The rest of `requestAdPlayPolicy`, with the response. -/
def policyAnswered (rsp : Message) : ThreadBiz :=
  let out := b.impl.policyReceived x rsp
  if out.2 then
    { b with impl := out.1, loop := b.loop.expiresFromNow .policy (hours 6) }.requestAdList .policy
  else { b with impl := out.1, loop := b.loop.expiresFromNow .policy (minutes 5) }.finish .policy

/-- The rest of `requestAdList`, with the response. -/
def adListAnswered (root : Timer) (rsp : Message) : ThreadBiz :=
  match x.receivedAds rsp with
  | some ads =>
      { b with
        impl := b.impl.adListReceived ads rsp.content
        listed := ads
        received := b.received ++ ads }.downloadAds root
  | none => (b.arm .adList (adListTimeout x.debug)).finish root

/-- The third loop of `downloadAds`. -/
def endPass (p : Pass) : ThreadBiz :=
  if p.idSet.all b.impl.cached then b.finish p.root
  else (b.arm .download (minutes 5)).finish p.root

/-- The server's loop over the download paths of an ad. -/
def fetchFrom (id : UInt32) (ad : Ad) (p : Pass) : List Bytes → ThreadBiz
  | [] => { b with stage := .download p }
  | url :: urls => b.await (.httpGet url) (.fetch id ad urls p)

/-- `downloadAd`. -/
def downloadAd (id : UInt32) (p : Pass) : ThreadBiz :=
  let b := { b with downloadCalls := b.downloadCalls ++ [id] }
  match b.impl.mapAd id with
  | none => { b with stage := .download p }
  | some ad =>
      if ad.download = [] then { b with stage := .download p }
      else if b.impl.isBarServer then b.fetchFrom id ad p ad.download
      else b.await (.request (Ask.getAdFile id).message) (.file id ad p)

/-- The second loop of `downloadAds`, for its next id. -/
def nextAd (p : Pass) : ThreadBiz :=
  match p.todo with
  | [] => b.endPass p
  | id :: todo =>
      let p := { p with todo := todo }
      if b.impl.cached id then { b with stage := .download p } else b.downloadAd id.toUInt32 p

/-- The server's `downloadAd` when an HTTP request ends: a verified file is kept and ends the loop. -/
def fetchEnded (id : UInt32) (ad : Ad) (urls : List Bytes) (p : Pass) (f : Fetched) (rehash : Bool) :
    ThreadBiz :=
  match f with
  | .exception => b.fetchFrom id ad p urls
  | .response status body =>
      if status = 200 ∧ x.verified ad body then
        { b with impl := b.impl.imageDownloaded id body rehash, stage := .download p }
      else b.fetchFrom id ad p urls

end ThreadBiz

/-! ## Events -/

/-- What can happen. The hash table's choice to rehash comes with the event that inserts. -/
inductive BizEvent where
  | tick (n : Nat)
  | fire (t : Timer)
  | runHandler
  | connected
  | policyAnswer (rsp : Message)
  | adListAnswer (rsp : Message)
  | next
  | fetchEnded (f : Fetched) (rehash : Bool)
  | fileAnswer (rsp : Message) (rehash : Bool)
  | requestAd (adId : UInt32)
  | adAnswer (rsp : Message)
  | endBusiness
  deriving DecidableEq, Repr

/-- The state when the business thread takes `bgnBusiness`'s handler. -/
def ThreadBiz.init (barId : Bytes) (isBarServer hasPlayer : Bool) : ThreadBiz where
  impl := { barId := barId, isBarServer := isBarServer, hasPlayer := hasPlayer }

/-- One event. -/
def step (x : Environment) (b : ThreadBiz) : BizEvent → Option ThreadBiz
  | .tick n => some { b with loop := b.loop.tick n }
  | .fire t => (b.loop.fire t).map fun loop => { b with loop := loop }
  | .runHandler =>
      if b.stage = .idle then
        b.loop.take.map fun out =>
          let run := { timer := out.1.timer, wait := out.1.wait, time := out.2.now }
          { b with loop := out.2, executions := b.executions ++ [run] }.handler x out.1.timer
      else none
  | .connected => if b.stage = .connecting then some (b.requestAdPlayPolicy x) else none
  | .policyAnswer rsp =>
      match b.stage with
      | .policy => some (b.policyAnswered x rsp)
      | _ => none
  | .adListAnswer rsp =>
      match b.stage with
      | .adList root => some (b.adListAnswered x root rsp)
      | _ => none
  | .next =>
      match b.stage with
      | .download p => some (b.nextAd p)
      | _ => none
  | .fetchEnded f rehash =>
      match b.stage with
      | .fetch id ad urls p => some (b.fetchEnded x id ad urls p f rehash)
      | _ => none
  | .fileAnswer rsp rehash =>
      match b.stage with
      | .file id ad p =>
          some { b with impl := b.impl.fileReceived x ad id rsp rehash, stage := .download p }
      | _ => none
  | .requestAd adId =>
      if b.stage = .idle then
        some (b.await (.request { method := ascii "getAd", content := htonl adId.toNat }) .ad)
      else none
  | .adAnswer rsp =>
      match b.stage with
      | .ad =>
          some (match x.receivedAd rsp with
            | some ad =>
                { b with impl := b.impl.adReceived ad, received := b.received ++ [ad], stage := .idle }
            | none => { b with stage := .idle })
      | _ => none
  | .endBusiness => some { b with impl := { b.impl with isEndBusiness := true } }

/-- **What an event does from `b`**, and the stage at which it can happen. -/
inductive BizStep (x : Environment) (b : ThreadBiz) : BizEvent → ThreadBiz → Prop
  | tick (n : Nat) : BizStep x b (.tick n) { b with loop := b.loop.tick n }
  | fire (t : Timer) (l : TimerLoop Timer) (hl : b.loop.fire t = some l) :
      BizStep x b (.fire t) { b with loop := l }
  | runHandler (f : Fired Timer) (l : TimerLoop Timer) (hstage : b.stage = .idle)
      (hl : b.loop.take = some (f, l)) :
      BizStep x b .runHandler ({ b with
        loop := l
        executions := b.executions ++
          [({ timer := f.timer, wait := f.wait, time := l.now } : Execution)] }.handler x f.timer)
  | connected (hstage : b.stage = .connecting) : BizStep x b .connected (b.requestAdPlayPolicy x)
  | policyAnswer (rsp : Message) (hstage : b.stage = .policy) :
      BizStep x b (.policyAnswer rsp) (b.policyAnswered x rsp)
  | adListAnswer (rsp : Message) (root : Timer) (hstage : b.stage = .adList root) :
      BizStep x b (.adListAnswer rsp) (b.adListAnswered x root rsp)
  | next (p : Pass) (hstage : b.stage = .download p) : BizStep x b .next (b.nextAd p)
  | fetchEnded (f : Fetched) (rehash : Bool) (id : UInt32) (ad : Ad) (urls : List Bytes) (p : Pass)
      (hstage : b.stage = .fetch id ad urls p) :
      BizStep x b (.fetchEnded f rehash) (b.fetchEnded x id ad urls p f rehash)
  | fileAnswer (rsp : Message) (rehash : Bool) (id : UInt32) (ad : Ad) (p : Pass)
      (hstage : b.stage = .file id ad p) :
      BizStep x b (.fileAnswer rsp rehash)
        { b with impl := b.impl.fileReceived x ad id rsp rehash, stage := .download p }
  | requestAd (adId : UInt32) (hstage : b.stage = .idle) :
      BizStep x b (.requestAd adId)
        (b.await (.request { method := ascii "getAd", content := htonl adId.toNat }) .ad)
  | adReceived (rsp : Message) (ad : Ad) (hstage : b.stage = .ad)
      (hrec : x.receivedAd rsp = some ad) :
      BizStep x b (.adAnswer rsp)
        { b with impl := b.impl.adReceived ad, received := b.received ++ [ad], stage := .idle }
  | adRefused (rsp : Message) (hstage : b.stage = .ad) (hrec : x.receivedAd rsp = none) :
      BizStep x b (.adAnswer rsp) { b with stage := .idle }
  | endBusiness : BizStep x b .endBusiness { b with impl := { b.impl with isEndBusiness := true } }

theorem bizStep {x : Environment} {b b' : ThreadBiz} {e : BizEvent} (hs : step x b e = some b') :
    BizStep x b e b' := by
  cases e with
  | tick n => obtain rfl := Option.some.inj hs; exact .tick n
  | fire t =>
      obtain ⟨l, hl, rfl⟩ := Option.map_eq_some_iff.mp hs
      exact .fire t l hl
  | runHandler =>
      simp only [step] at hs
      split at hs
      · next hstage =>
          obtain ⟨⟨f, l⟩, hl, rfl⟩ := Option.map_eq_some_iff.mp hs
          exact .runHandler f l hstage hl
      · exact absurd hs (by simp)
  | connected =>
      simp only [step] at hs
      split at hs
      · next hstage => obtain rfl := Option.some.inj hs; exact .connected hstage
      · exact absurd hs (by simp)
  | policyAnswer rsp =>
      simp only [step] at hs
      split at hs
      · next hstage => obtain rfl := Option.some.inj hs; exact .policyAnswer rsp hstage
      · exact absurd hs (by simp)
  | adListAnswer rsp =>
      simp only [step] at hs
      split at hs
      · next root hstage => obtain rfl := Option.some.inj hs; exact .adListAnswer rsp root hstage
      · exact absurd hs (by simp)
  | next =>
      simp only [step] at hs
      split at hs
      · next p hstage => obtain rfl := Option.some.inj hs; exact .next p hstage
      · exact absurd hs (by simp)
  | fetchEnded f rehash =>
      simp only [step] at hs
      split at hs
      · next id ad urls p hstage =>
          obtain rfl := Option.some.inj hs
          exact .fetchEnded f rehash id ad urls p hstage
      · exact absurd hs (by simp)
  | fileAnswer rsp rehash =>
      simp only [step] at hs
      split at hs
      · next id ad p hstage =>
          obtain rfl := Option.some.inj hs
          exact .fileAnswer rsp rehash id ad p hstage
      · exact absurd hs (by simp)
  | requestAd adId =>
      simp only [step] at hs
      split at hs
      · next hstage => obtain rfl := Option.some.inj hs; exact .requestAd adId hstage
      · exact absurd hs (by simp)
  | adAnswer rsp =>
      simp only [step] at hs
      split at hs
      · next hstage =>
          obtain rfl := Option.some.inj hs
          cases hrec : x.receivedAd rsp with
          | none => exact .adRefused rsp hstage hrec
          | some ad => exact .adReceived rsp ad hstage hrec
      · exact absurd hs (by simp)
  | endBusiness => obtain rfl := Option.some.inj hs; exact .endBusiness

/-! ## The pieces of a download pass -/

namespace ThreadBiz

variable (b : ThreadBiz)

/-- The thread has moved on in the pass `p`, by the calls of `downloadAd` in `calls`: it has asked for
something, or nothing. -/
def MovesOn (p : Pass) (calls : List UInt32) (b' : ThreadBiz) : Prop :=
  ∃ out stage, stage.root? = some p.root ∧ b' = { b with
    outgoing := b.outgoing ++ out, downloadCalls := b.downloadCalls ++ calls, stage := stage }

theorem movesOn_stage (p : Pass) {stage : Stage} (h : stage.root? = some p.root) :
    b.MovesOn p [] { b with stage := stage } :=
  ⟨[], stage, h, by rw [List.append_nil, List.append_nil]⟩

theorem movesOn_await (p : Pass) (out : Outgoing) {stage : Stage} (h : stage.root? = some p.root) :
    b.MovesOn p [] (b.await out stage) :=
  ⟨[out], stage, h, by rw [List.append_nil]; rfl⟩

theorem fetchFrom_movesOn (id : UInt32) (ad : Ad) (p : Pass) (urls : List Bytes) :
    b.MovesOn p [] (b.fetchFrom id ad p urls) := by
  cases urls with
  | nil => exact b.movesOn_stage p rfl
  | cons url urls => exact b.movesOn_await p (.httpGet url) rfl

/-- `downloadAd` is recorded, and moves on. -/
theorem downloadAd_movesOn (id : UInt32) (p : Pass) : b.MovesOn p [id] (b.downloadAd id p) := by
  have hcalled : ∀ b', MovesOn { b with downloadCalls := b.downloadCalls ++ [id] } p [] b' →
      b.MovesOn p [id] b' := by
    rintro b' ⟨out, stage, hroot, rfl⟩
    exact ⟨out, stage, hroot, by rw [List.append_nil]⟩
  apply hcalled
  simp only [downloadAd]
  split
  · exact movesOn_stage _ p rfl
  · next ad _ =>
      split
      · exact movesOn_stage _ p rfl
      · split
        · exact fetchFrom_movesOn _ id ad p ad.download
        · exact movesOn_await _ p _ rfl

/-- With an id left to look at, the thread moves on, by a call of `downloadAd` if it is not cached. -/
theorem nextAd_movesOn {p : Pass} {id : Int32} {todo : List Int32} (h : p.todo = id :: todo) :
    b.MovesOn p (if b.impl.cached id then [] else [id.toUInt32]) (b.nextAd p) := by
  simp only [nextAd, h]
  split
  · exact b.movesOn_stage { p with todo := todo } rfl
  · exact b.downloadAd_movesOn id.toUInt32 { p with todo := todo }

/-- When an HTTP request ends the thread moves on, at most with a new file. -/
theorem fetchEnded_movesOn (x : Environment) (id : UInt32) (ad : Ad) (urls : List Bytes) (p : Pass)
    (f : Fetched) (rehash : Bool) : ∃ cache,
    MovesOn { b with impl := { b.impl with cache := cache } } p []
      (b.fetchEnded x id ad urls p f rehash) := by
  cases f with
  | exception => exact ⟨b.impl.cache, b.fetchFrom_movesOn id ad p urls⟩
  | response status body =>
      simp only [fetchEnded]
      split
      · exact ⟨(b.impl.imageDownloaded id body rehash).cache, movesOn_stage _ p rfl⟩
      · exact ⟨b.impl.cache, b.fetchFrom_movesOn id ad p urls⟩

end ThreadBiz

/-! ## What an event does to the data -/

/-- The data of `b`: the business data, and the two records of ads. -/
structure ThreadBiz.HasData (b : ThreadBiz) (s : AdManagerImpl) (listed received : List Ad) : Prop where
  impl : b.impl = s
  listed : b.listed = listed
  received : b.received = received

/-- The events that leave the data alone. -/
def Quiet (x : Environment) (b : ThreadBiz) : BizEvent → Prop
  | .policyAnswer _ => False
  | .adListAnswer rsp => x.receivedAds rsp = none
  | .runHandler => ∀ f ∈ b.loop.queue.head?, f.timer = .download → b.impl.isEndBusiness = true
  | .fileAnswer _ _ => False
  | .adAnswer rsp => x.receivedAd rsp = none
  | .endBusiness => False
  | _ => True

/-- **What the event `e` from `b` to `b'` does to the data**: nothing; or it is one of the exchanges of
`requestAdPlayPolicy`, `requestAdList`, `downloadAd` and `requestAd`, the start of a download retry, or
`endBusiness`. -/
inductive DataStep (x : Environment) (b : ThreadBiz) (e : BizEvent) (b' : ThreadBiz) : Prop
  | same (hquiet : Quiet x b e) (hdata : b'.HasData b.impl b.listed b.received)
  | policy (rsp : Message) (he : e = .policyAnswer rsp)
      (hdata : b'.HasData (b.impl.policyReceived x rsp).1 b.listed b.received)
  | list (rsp : Message) (ads : List Ad) (he : e = .adListAnswer rsp)
      (hads : x.receivedAds rsp = some ads)
      (hdata : b'.HasData (b.impl.adListReceived ads rsp.content).pass ads (b.received ++ ads))
  | retry (f : Fired Timer) (he : e = .runHandler) (hf : b.loop.queue.head? = some f)
      (htimer : f.timer = .download) (hend : b.impl.isEndBusiness = false)
      (hdata : b'.HasData b.impl.beginPass.1 b.listed b.received)
  | image (id : UInt32) (ad : Ad) (urls : List Bytes) (p : Pass) (body : Bytes) (rehash : Bool)
      (he : e = .fetchEnded (.response 200 body) rehash) (hstage : b.stage = .fetch id ad urls p)
      (hverified : x.verified ad body = true)
      (hdata : b'.HasData (b.impl.imageDownloaded id body rehash) b.listed b.received)
  | file (id : UInt32) (ad : Ad) (p : Pass) (rsp : Message) (rehash : Bool)
      (he : e = .fileAnswer rsp rehash) (hstage : b.stage = .file id ad p)
      (hdata : b'.HasData (b.impl.fileReceived x ad id rsp rehash) b.listed b.received)
  | ad (rsp : Message) (ad : Ad) (he : e = .adAnswer rsp) (hrec : x.receivedAd rsp = some ad)
      (hdata : b'.HasData (b.impl.adReceived ad) b.listed (b.received ++ [ad]))
  | ended (he : e = .endBusiness)
      (hdata : b'.HasData { b.impl with isEndBusiness := true } b.listed b.received)

namespace ThreadBiz

variable {x : Environment} {b b' : ThreadBiz} {root : Timer} {p : Pass}

theorem requestAdList_data (b : ThreadBiz) (root : Timer) :
    (b.requestAdList root).HasData b.impl b.listed b.received := by
  unfold requestAdList
  split <;> exact ⟨rfl, rfl, rfl⟩

theorem requestAdPlayPolicy_data (x : Environment) (b : ThreadBiz) :
    (b.requestAdPlayPolicy x).HasData b.impl b.listed b.received := by
  unfold requestAdPlayPolicy
  split <;> exact ⟨rfl, rfl, rfl⟩

theorem downloadAds_data (b : ThreadBiz) (root : Timer) :
    (b.downloadAds root).HasData b.impl.pass b.listed b.received := by
  unfold downloadAds AdManagerImpl.pass
  split <;> exact ⟨rfl, rfl, rfl⟩

theorem policyAnswered_data (x : Environment) (b : ThreadBiz) (rsp : Message) :
    (b.policyAnswered x rsp).HasData (b.impl.policyReceived x rsp).1 b.listed b.received := by
  unfold policyAnswered
  simp only
  split
  · exact requestAdList_data _ .policy
  · exact ⟨rfl, rfl, rfl⟩

theorem adListAnswered_data {rsp : Message} {ads : List Ad} (h : x.receivedAds rsp = some ads)
    (b : ThreadBiz) (root : Timer) : (b.adListAnswered x root rsp).HasData
      (b.impl.adListReceived ads rsp.content).pass ads (b.received ++ ads) := by
  unfold adListAnswered
  rw [h]
  exact downloadAds_data _ root

theorem MovesOn.data {calls : List UInt32} (h : b.MovesOn p calls b') :
    b'.HasData b.impl b.listed b.received := by
  obtain ⟨out, stage, _, rfl⟩ := h
  exact ⟨rfl, rfl, rfl⟩

theorem nextAd_data (b : ThreadBiz) (p : Pass) : (b.nextAd p).HasData b.impl b.listed b.received := by
  cases htodo : p.todo with
  | nil =>
      simp only [nextAd, htodo, endPass]
      split <;> exact ⟨rfl, rfl, rfl⟩
  | cons id todo => exact (b.nextAd_movesOn htodo).data

end ThreadBiz

/-- **Every event is one of these.** -/
theorem dataStep {x : Environment} {b b' : ThreadBiz} {e : BizEvent} (hs : step x b e = some b') :
    DataStep x b e b' := by
  cases bizStep hs with
  | tick n => exact .same trivial ⟨rfl, rfl, rfl⟩
  | fire t l hl => exact .same trivial ⟨rfl, rfl, rfl⟩
  | runHandler f l hstage hl =>
      obtain ⟨hqueue, _⟩ := TimerLoop.take_spec hl
      have hhead : b.loop.queue.head? = some f := by rw [hqueue]; rfl
      have hquiet : (f.timer = .download → b.impl.isEndBusiness = true) → Quiet x b .runHandler := by
        intro hended g hg htimer
        obtain rfl : f = g := Option.some.inj (hhead.symm.trans hg)
        exact hended htimer
      cases htimer : f.timer with
      | policy =>
          simp only [ThreadBiz.handler]
          exact .same (hquiet (by simp [htimer])) (ThreadBiz.requestAdPlayPolicy_data x _)
      | adList =>
          simp only [ThreadBiz.handler]
          exact .same (hquiet (by simp [htimer])) (ThreadBiz.requestAdList_data _ .adList)
      | download =>
          simp only [ThreadBiz.handler]
          have hdata := ThreadBiz.downloadAds_data { b with
            loop := l
            executions := b.executions ++
              [{ timer := .download, wait := f.wait, time := l.now }] } .download
          unfold AdManagerImpl.pass at hdata
          cases hend : b.impl.isEndBusiness with
          | true =>
              rw [if_pos hend] at hdata
              exact .same (hquiet fun _ => hend) hdata
          | false =>
              rw [if_neg (by simp [hend])] at hdata
              exact .retry f rfl hhead htimer hend hdata
  | connected hstage => exact .same trivial (b.requestAdPlayPolicy_data x)
  | policyAnswer rsp hstage => exact .policy rsp rfl (b.policyAnswered_data x rsp)
  | adListAnswer rsp root hstage =>
      cases hads : x.receivedAds rsp with
      | none =>
          simp only [ThreadBiz.adListAnswered, hads]
          exact .same hads ⟨rfl, rfl, rfl⟩
      | some ads => exact .list rsp ads rfl hads (b.adListAnswered_data hads root)
  | next p hstage => exact .same trivial (b.nextAd_data p)
  | fetchEnded f rehash id ad urls p hstage =>
      cases f with
      | exception => exact .same trivial (b.fetchFrom_movesOn id ad p urls).data
      | response status body =>
          simp only [ThreadBiz.fetchEnded]
          split
          · next hgood =>
              obtain ⟨rfl, hverified⟩ := hgood
              exact .image id ad urls p body rehash rfl hstage hverified ⟨rfl, rfl, rfl⟩
          · exact .same trivial (b.fetchFrom_movesOn id ad p urls).data
  | fileAnswer rsp rehash id ad p hstage => exact .file id ad p rsp rehash rfl hstage ⟨rfl, rfl, rfl⟩
  | requestAd adId hstage => exact .same trivial ⟨rfl, rfl, rfl⟩
  | adReceived rsp ad hstage hrec => exact .ad rsp ad rfl hrec ⟨rfl, rfl, rfl⟩
  | adRefused rsp hstage hrec => exact .same hrec ⟨rfl, rfl, rfl⟩
  | endBusiness => exact .ended rfl ⟨rfl, rfl, rfl⟩

/-! ## Contents for concrete runs -/

/-- A policy that names ad 1 for the pop-up location, serialized. -/
def samplePolicy : Bytes := [34, 5, 8, 2, 42, 1, 1]

/-- A policy that names ad 1 for the lock screen, serialized. -/
def lockPolicy : Bytes := [34, 5, 8, 1, 42, 1, 1]

/-- The file of ad 1. -/
def sampleFile : Bytes := [7]

/-- Ad 1, with the digest of its file. Its file name has one Chinese character, here in GB2312. -/
def sampleAd : Ad where
  id := 1
  fileName := [0xD6, 0xD0] ++ ascii ".mp4"
  md5 := ascii "89e74e640b8c46257a29de0616794d5d"
  download := [ascii "a"]

/-- Ad 1 with the digest of another file. -/
def updatedAd : Ad := { sampleAd with md5 := ascii "e2ba905bf306f46faca223d3cb20e2cf" }

/-- The file name in UTF-8. -/
def utf8Name : Bytes := [0xE4, 0xB8, 0xAD] ++ ascii ".mp4"

/-- An ad list with ad 1, serialized. -/
def sampleAdList : Bytes := [10, 48, 8, 1, 26, 7] ++ utf8Name ++ [98, 32] ++ sampleAd.md5 ++ [114, 1, 97]

/-- The list with the updated ad. -/
def updatedAdList : Bytes := [10, 48, 8, 1, 26, 7] ++ utf8Name ++ [98, 32] ++ updatedAd.md5 ++ [114, 1, 97]

/-- The generated parsers and the conversion on these contents, with ASCII text otherwise, and `MD5`. -/
def sampleEnvironment : Environment where
  fromUtf := fun text => if text = utf8Name then sampleAd.fileName else text
  lexicalCast := fun barId => if barId = ascii "1" then some 1 else none
  parsePolicy := fun content =>
    if content = samplePolicy then ({ adPlays := [{ location := 2, adIds := [1] }] }, true)
    else if content = lockPolicy then ({ adPlays := [{ location := 1, adIds := [1] }] }, true)
    else ({}, content.isEmpty)
  parseResult := fun content =>
    if content = sampleAdList then some [{ sampleAd with fileName := utf8Name }]
    else if content = updatedAdList then some [{ updatedAd with fileName := utf8Name }]
    else if content.isEmpty then some [] else none
  parseAd := fun content => if content.isEmpty then some {} else none
  md5 := fun body => (MD5.digestOf zeroBlock [] body).getD []
  debug := false

example : sampleEnvironment.verified sampleAd sampleFile = true ∧
    sampleEnvironment.verified updatedAd sampleFile = false := by
  decide +kernel

end AdManager.Business
