/-
# AdManager.Business.Retries — one retry at a time, and none before its time.

Each timer's own handler arms it when nothing of it is outstanding, since the handler that runs was the
one. That is the invariant `Chain`: for every timer, what is outstanding and the handler that runs make
at most one. The ad-list and download timers are armed from another timer's handler too, a policy
refresh above all, and that is where a second retry can come from; the cancelled wait then runs at once.
-/
import AdManager.Business.BusinessThread

namespace AdManager.Business

open AdManager.Wire AdManager.Lib AdManager.Server

/-! ## The property and the condition -/

/-- **Retries hold**: at most one is outstanding of each timer, and every handler that has run had
waited for its full delay. -/
structure RetriesHold (b : ThreadBiz) : Prop where
  one : ∀ t, b.loop.outstanding t ≤ 1
  onTime : ∀ run ∈ b.executions, run.wait.due ≤ run.time

/-- **The condition**: when an ad-list request fails in another handler than the ad-list timer's, no
ad-list retry is outstanding; and when a download pass ends with a file missing in another handler than
the download timer's, no download retry is. -/
def NoOverlap (x : Environment) (b : ThreadBiz) (e : BizEvent) : Prop :=
  match b.stage, e with
  | .adList root, .adListAnswer rsp =>
      root ≠ .adList → x.receivedAds rsp = none → b.loop.outstanding .adList = 0
  | .download p, .next =>
      p.root ≠ .download → p.todo = [] → p.idSet.all b.impl.cached = false →
        b.loop.outstanding .download = 0
  | _, _ => True

/-- Whether the event arms a retry over an outstanding one. -/
def overlaps (x : Environment) (b : ThreadBiz) (e : BizEvent) : Bool :=
  match b.stage, e with
  | .adList root, .adListAnswer rsp =>
      root != .adList && ((x.receivedAds rsp).isNone && b.loop.outstanding .adList != 0)
  | .download p, .next =>
      p.root != .download && (p.todo.isEmpty && (!p.idSet.all b.impl.cached &&
        b.loop.outstanding .download != 0))
  | _, _ => false

theorem overlaps_eq_false_iff {x : Environment} {b : ThreadBiz} {e : BizEvent} :
    overlaps x b e = false ↔ NoOverlap x b e := by
  unfold overlaps NoOverlap
  split <;> simp

instance (x : Environment) (b : ThreadBiz) (e : BizEvent) : Decidable (NoOverlap x b e) :=
  decidable_of_iff _ overlaps_eq_false_iff

/-! ## The invariant -/

/-- What is outstanding of each timer, when the handler of `root` is running. -/
structure Chain (l : TimerLoop Timer) (root : Option Timer) : Prop where
  one : ∀ t, l.outstanding t + (if root = some t then 1 else 0) ≤ 1
  punctual : l.Punctual

namespace Chain

variable {l l' : TimerLoop Timer} {root t : Timer} {d : Nat}

/-- Nothing is outstanding of the timer whose handler is running. -/
theorem own (h : Chain l (some root)) : l.outstanding root = 0 := by
  have hone := h.one root
  rw [if_pos rfl] at hone
  omega

/-- The handler ends. -/
theorem drop (h : Chain l (some root)) : Chain l none where
  one := by
    intro t
    have hone := h.one t
    rw [if_neg (by simp)]
    omega
  punctual := h.punctual

/-- A timer of which nothing is outstanding is set, in its own handler or in another one. -/
theorem expiresFromNow (h : Chain l (some root)) (ht : l.outstanding t = 0) :
    Chain (l.expiresFromNow t d) (some root) where
  one := by
    intro u
    rw [TimerLoop.outstanding_expiresFromNow]
    exact h.one u
  punctual := h.punctual.expiresFromNow (TimerLoop.waits_eq_nil ht)

/-- The handler ends with a wait on its own timer. -/
theorem asyncWait_own (h : Chain l (some root)) : Chain (l.asyncWait root) none where
  one := by
    intro u
    have hone := h.one u
    rw [TimerLoop.outstanding_asyncWait, if_neg (show ¬ none = some u by simp), Nat.add_zero]
    by_cases hu : u = root
    · subst hu
      rwa [if_pos rfl] at hone ⊢
    · rw [if_neg hu]
      omega
  punctual := h.punctual.asyncWait

/-- A wait on another timer, of which nothing is outstanding. -/
theorem asyncWait_other (h : Chain l (some root)) (hne : root ≠ t) (ht : l.outstanding t = 0) :
    Chain (l.asyncWait t) (some root) where
  one := by
    intro u
    have hone := h.one u
    rw [TimerLoop.outstanding_asyncWait]
    by_cases hu : u = t
    · subst hu
      rw [ht, if_pos rfl, if_neg (by simpa using hne)]
    · rw [if_neg hu, Nat.add_zero]
      exact hone
  punctual := h.punctual.asyncWait

/-- The thread takes a handler, whose time has come. -/
theorem take {f : Fired Timer} (h : Chain l none) (hl : l.take = some (f, l')) :
    Chain l' (some f.timer) ∧ f.wait.due ≤ l'.now := by
  obtain ⟨hpunctual, hdue⟩ := h.punctual.take hl
  refine ⟨⟨?_, hpunctual⟩, hdue⟩
  intro t
  have hone := h.one t
  rw [TimerLoop.outstanding_take hl, if_neg (show ¬ none = some t by simp), Nat.add_zero] at hone
  by_cases ht : t = f.timer
  · rw [if_pos ht] at hone
    rwa [if_pos (congrArg some ht.symm)]
  · rw [if_neg (by simpa using Ne.symm ht)]
    omega

end Chain

/-- **The invariant of the business thread.** -/
structure Timely (b : ThreadBiz) : Prop where
  chain : Chain b.loop b.stage.root?
  onTime : ∀ run ∈ b.executions, run.wait.due ≤ run.time

namespace Timely

variable {x : Environment} {b b' : ThreadBiz} {root : Timer} {p : Pass}

theorem init (barId : Bytes) (isBarServer hasPlayer : Bool) :
    Timely (ThreadBiz.init barId isBarServer hasPlayer) where
  chain :=
    { one := by
        intro t
        show ({} : TimerLoop Timer).outstanding t + (if some Timer.policy = some t then 1 else 0) ≤ 1
        cases t <;> decide
      punctual := TimerLoop.Punctual.init }
  onTime := by simp [ThreadBiz.init]

theorem retriesHold (h : Timely b) : RetriesHold b where
  one := fun t => (Nat.le_add_right _ _).trans (h.chain.one t)
  onTime := h.onTime

/-- A step that leaves the timers alone and stays in the handler. -/
theorem of_same (h : Timely b) (hloop : b'.loop = b.loop) (hroot : b'.stage.root? = b.stage.root?)
    (hexec : b'.executions = b.executions) : Timely b' where
  chain := by rw [hloop, hroot]; exact h.chain
  onTime := by rw [hexec]; exact h.onTime

section Calls

/-- `finish` keeps the promise of every handler. -/
theorem finish (hchain : Chain b.loop (some root))
    (htime : ∀ run ∈ b.executions, run.wait.due ≤ run.time) : Timely (b.finish root) where
  chain := by
    show Chain (if root = .policy then b.loop.asyncWait .policy else b.loop) none
    by_cases hroot : root = .policy
    · subst hroot
      rw [if_pos rfl]
      exact hchain.asyncWait_own
    · rw [if_neg hroot]
      exact hchain.drop
  onTime := htime

/-- A retry is armed on the way back to the caller. -/
theorem arm_finish {t : Timer} {d : Nat} (ht : t ≠ .policy) (hchain : Chain b.loop (some root))
    (hnone : root ≠ t → b.loop.outstanding t = 0)
    (htime : ∀ run ∈ b.executions, run.wait.due ≤ run.time) : Timely ((b.arm t d).finish root) := by
  by_cases hroot : root = t
  · -- its own handler, whose place the wait takes
    subst hroot
    refine ⟨?_, htime⟩
    show Chain (if root = .policy then _ else _) none
    rw [if_neg ht]
    exact (hchain.expiresFromNow hchain.own).asyncWait_own
  · have hset := hchain.expiresFromNow (d := d) (hnone hroot)
    have hzero : (b.loop.expiresFromNow t d).outstanding t = 0 := by
      rw [TimerLoop.outstanding_expiresFromNow]
      exact hnone hroot
    exact Timely.finish (b := b.arm t d) (hset.asyncWait_other hroot hzero) htime

theorem downloadAds (hchain : Chain b.loop (some root))
    (htime : ∀ run ∈ b.executions, run.wait.due ≤ run.time) : Timely (b.downloadAds root) := by
  unfold ThreadBiz.downloadAds
  split
  · exact Timely.finish hchain htime
  · exact ⟨hchain, htime⟩

theorem requestAdList (hchain : Chain b.loop (some root))
    (htime : ∀ run ∈ b.executions, run.wait.due ≤ run.time) : Timely (b.requestAdList root) := by
  unfold ThreadBiz.requestAdList
  split
  · exact Timely.finish hchain htime
  · exact ⟨hchain, htime⟩

theorem requestAdPlayPolicy (hchain : Chain b.loop (some .policy))
    (htime : ∀ run ∈ b.executions, run.wait.due ≤ run.time) : Timely (b.requestAdPlayPolicy x) := by
  unfold ThreadBiz.requestAdPlayPolicy
  split
  · exact ⟨hchain.drop, htime⟩
  · exact ⟨hchain, htime⟩

theorem handler {t : Timer} (hchain : Chain b.loop (some t))
    (htime : ∀ run ∈ b.executions, run.wait.due ≤ run.time) : Timely (b.handler x t) := by
  cases t with
  | policy => exact Timely.requestAdPlayPolicy hchain htime
  | adList => exact Timely.requestAdList hchain htime
  | download => exact Timely.downloadAds hchain htime

theorem policyAnswered {rsp : Message} (hchain : Chain b.loop (some .policy))
    (htime : ∀ run ∈ b.executions, run.wait.due ≤ run.time) : Timely (b.policyAnswered x rsp) := by
  unfold ThreadBiz.policyAnswered
  simp only
  split
  · exact Timely.requestAdList (hchain.expiresFromNow hchain.own) htime
  · exact Timely.finish (hchain.expiresFromNow hchain.own) htime

theorem adListAnswered {rsp : Message} (hchain : Chain b.loop (some root))
    (hnone : root ≠ .adList → x.receivedAds rsp = none → b.loop.outstanding .adList = 0)
    (htime : ∀ run ∈ b.executions, run.wait.due ≤ run.time) : Timely (b.adListAnswered x root rsp) := by
  unfold ThreadBiz.adListAnswered
  split
  · exact Timely.downloadAds hchain htime
  · next hrsp => exact Timely.arm_finish (by decide) hchain (fun hroot => hnone hroot hrsp) htime

theorem endPass (hchain : Chain b.loop (some p.root))
    (hnone : p.root ≠ .download → p.idSet.all b.impl.cached = false → b.loop.outstanding .download = 0)
    (htime : ∀ run ∈ b.executions, run.wait.due ≤ run.time) : Timely (b.endPass p) := by
  unfold ThreadBiz.endPass
  split
  · exact Timely.finish hchain htime
  · next hall =>
      exact Timely.arm_finish (by decide) hchain (fun hroot => hnone hroot (by simpa using hall)) htime

/-- Moving on in a pass leaves the timers alone. -/
theorem movesOn {calls : List UInt32} (hmoves : b.MovesOn p calls b') (hchain : Chain b.loop (some p.root))
    (htime : ∀ run ∈ b.executions, run.wait.due ≤ run.time) : Timely b' := by
  obtain ⟨out, stage, hroot, rfl⟩ := hmoves
  refine ⟨?_, htime⟩
  show Chain b.loop stage.root?
  rw [hroot]
  exact hchain

end Calls

/-- **Every event without an overlap keeps the invariant.** -/
theorem step {e : BizEvent} (h : Timely b) (hC : NoOverlap x b e)
    (hs : Business.step x b e = some b') : Timely b' := by
  have hchain := h.chain
  cases bizStep hs with
  | tick n => exact ⟨⟨hchain.one, hchain.punctual.tick n⟩, h.onTime⟩
  | fire t l hl =>
      refine ⟨⟨?_, hchain.punctual.fire hl⟩, h.onTime⟩
      intro u
      show l.outstanding u + _ ≤ 1
      rw [TimerLoop.outstanding_fire hl]
      exact hchain.one u
  | runHandler f l hstage hl =>
      rw [hstage] at hchain
      obtain ⟨hchain', hdue⟩ := hchain.take hl
      apply Timely.handler hchain'
      intro run hrun
      rcases List.mem_append.mp hrun with hrun | hrun
      · exact h.onTime run hrun
      · obtain rfl := List.mem_singleton.mp hrun
        exact hdue
  | connected hstage =>
      rw [hstage] at hchain
      exact Timely.requestAdPlayPolicy hchain h.onTime
  | policyAnswer rsp hstage =>
      rw [hstage] at hchain
      exact Timely.policyAnswered hchain h.onTime
  | adListAnswer rsp root hstage =>
      simp only [NoOverlap, hstage] at hC hchain
      exact Timely.adListAnswered hchain hC h.onTime
  | next p hstage =>
      simp only [NoOverlap, hstage] at hC hchain
      cases htodo : p.todo with
      | nil =>
          simp only [ThreadBiz.nextAd, htodo]
          exact Timely.endPass hchain (fun hroot => hC hroot htodo) h.onTime
      | cons id todo => exact Timely.movesOn (b.nextAd_movesOn htodo) hchain h.onTime
  | fetchEnded f rehash id ad urls p hstage =>
      rw [hstage] at hchain
      obtain ⟨cache, hmoves⟩ := b.fetchEnded_movesOn x id ad urls p f rehash
      exact Timely.movesOn hmoves hchain h.onTime
  | fileAnswer rsp rehash id ad p hstage => exact h.of_same rfl (by rw [hstage]; rfl) rfl
  | requestAd adId hstage => exact h.of_same rfl (by rw [hstage]; rfl) rfl
  | adReceived rsp ad hstage hrec => exact h.of_same rfl (by rw [hstage]; rfl) rfl
  | adRefused rsp hstage hrec => exact h.of_same rfl (by rw [hstage]; rfl) rfl
  | endBusiness => exact h.of_same rfl rfl rfl

end Timely

/-! ## Exactly when -/

/-- Arming a timer and returning makes one more of it outstanding. -/
theorem outstanding_arm_finish (b : ThreadBiz) {t root : Timer} {d : Nat} (ht : t ≠ .policy) :
    ((b.arm t d).finish root).loop.outstanding t = b.loop.outstanding t + 1 := by
  have harm : (b.arm t d).loop.outstanding t = b.loop.outstanding t + 1 := by
    simp [ThreadBiz.arm]
  show (if root = .policy then (b.arm t d).loop.asyncWait .policy else (b.arm t d).loop).outstanding t = _
  split
  · rw [TimerLoop.outstanding_asyncWait, if_neg ht, harm]
  · exact harm

/-- **An overlap makes a second retry.** -/
theorem noOverlap_of_step {x : Environment} {b b' : ThreadBiz} {e : BizEvent}
    (hs : step x b e = some b') (hone : ∀ t, b'.loop.outstanding t ≤ 1) : NoOverlap x b e := by
  unfold NoOverlap
  split
  · next root rsp hstage =>
      intro _ hrsp
      simp only [step, hstage, ThreadBiz.adListAnswered, hrsp, Option.some.injEq] at hs
      have hle := hone .adList
      rw [← hs, outstanding_arm_finish b (by decide)] at hle
      omega
  · next p hstage =>
      intro _ htodo hall
      simp only [step, hstage, ThreadBiz.nextAd, htodo, ThreadBiz.endPass, hall, Bool.false_eq_true,
        if_false, Option.some.injEq] at hs
      have hle := hone .download
      rw [← hs, outstanding_arm_finish b (by decide)] at hle
      omega
  · trivial

/-- **Retries hold in all states of a run exactly when no retry is armed over an outstanding one from
another timer's handler.** -/
theorem retries_hold_iff (x : Environment) (barId : Bytes) (isBarServer hasPlayer : Bool)
    (es : List BizEvent) {b : ThreadBiz}
    (h : run (step x) (ThreadBiz.init barId isBarServer hasPlayer) es = some b) :
    EveryState (step x) RetriesHold (ThreadBiz.init barId isBarServer hasPlayer) es ↔
      EveryStep (step x) (NoOverlap x) (ThreadBiz.init barId isBarServer hasPlayer) es :=
  everyState_iff_everyStep (I := Timely) (Timely.init barId isBarServer hasPlayer)
    (fun _ h => h.retriesHold) (fun _ _ _ h hC hs => h.step hC hs)
    (fun _ _ _ _ hs hP => noOverlap_of_step hs hP.one) h

/-- A policy refresh of a client whose download of ad 1 fails; `wait` is how long that takes. -/
def refresh (wait : Nat) : List BizEvent :=
  [.policyAnswer { content := samplePolicy }, .adListAnswer { content := sampleAdList }, .next,
    .tick wait, .fileAnswer { returnCode := -1 } false, .next]

/-- A retry of the download, which fails again. -/
def retry : List BizEvent :=
  [.tick (minutes 5), .fire .download, .runHandler, .next, .fileAnswer { returnCode := -1 } false, .next]

/-- A failed ad-list request and its retry. -/
def adListRetried : List BizEvent :=
  [.connected, .policyAnswer { content := samplePolicy }, .adListAnswer { returnCode := -1 },
    .tick (minutes 5), .fire .adList, .runHandler, .adListAnswer { content := sampleAdList }, .next,
    .fileAnswer { returnCode := -1 } false, .next] ++ retry

theorem retries_hold_iff_adListRetried :
    EveryState (step sampleEnvironment) RetriesHold (ThreadBiz.init (ascii "1") false false)
      adListRetried := by
  have hview : (run (step sampleEnvironment) (ThreadBiz.init (ascii "1") false false)
      adListRetried).isSome = true := by
    decide +kernel
  obtain ⟨b, hb⟩ := Option.isSome_iff_exists.mp hview
  exact (retries_hold_iff sampleEnvironment (ascii "1") false false adListRetried hb).mpr
    (by decide +kernel)

/-- Six hours of failing downloads; the policy refresh falls between two retries. -/
def refreshBetweenRetries : List BizEvent :=
  [.connected] ++ refresh (minutes 2) ++ (List.replicate 71 retry).flatten ++
  [.tick (minutes 3), .fire .policy, .runHandler] ++ refresh 0

/-- **A policy refresh two minutes before a retry.** Its own download pass fails and arms the timer:
the retry that was pending is queued at once, and runs two minutes early, beside the new one. -/
theorem retry_multiplied :
    ∃ b b', run (step sampleEnvironment) (ThreadBiz.init (ascii "1") false false)
        refreshBetweenRetries = some b ∧ b.loop.outstanding .download = 2 ∧
      step sampleEnvironment b .runHandler = some b' ∧ b'.executions.getLast? = some
        { timer := .download, wait := { since := minutes 357, delay := minutes 5 }, time := hours 6 } ∧
      ¬ RetriesHold b ∧ ¬ RetriesHold b' := by
  have hview : (run (step sampleEnvironment) (ThreadBiz.init (ascii "1") false false)
      refreshBetweenRetries).bind (fun b => (step sampleEnvironment b .runHandler).map fun b' =>
        (b.loop.outstanding .download, b'.loop.outstanding .download, b'.executions.getLast?)) =
      some (2, 1, some
        { timer := .download, wait := { since := minutes 357, delay := minutes 5 }, time := hours 6 }) := by
    decide +kernel
  obtain ⟨b, hb, hview⟩ := Option.bind_eq_some_iff.mp hview
  obtain ⟨b', hb', hview⟩ := Option.map_eq_some_iff.mp hview
  simp only [Prod.mk.injEq] at hview
  obtain ⟨htwo, _, hlast⟩ := hview
  refine ⟨b, b', hb, htwo, hb', hlast, ?_, ?_⟩
  · intro hhold
    have hone := hhold.one .download
    omega
  · intro hhold
    have hdue := hhold.onTime _ (List.mem_of_getLast? hlast)
    revert hdue
    decide

end AdManager.Business
