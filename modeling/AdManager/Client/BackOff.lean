/-
# AdManager.Client.BackOff — the delays of the reconnect timer.

`asyncConnect` doubles `_reconnectInterval` when an attempt *starts*, as long as it is below ten minutes;
a failed connect arms the timer with whatever the interval is by then; a successful one sets it back to
one second. So the delay counts the attempts started since the last success, not the failures: the two
are the same only while nothing but the timer of the last failure starts an attempt. And the doubling
starts from below the limit, so the last one leads beyond it.

`Schedule` puts these two counts beside the client.
-/
import AdManager.Client.TcpClient
import AdManager.Lib.BackOff

namespace AdManager.Client

open AdManager.Wire AdManager.Lib AdManager.Session

/-! ## The record -/

/-- The result of the `async_connect` whose handler the event runs. -/
def completion (c : TcpClient) : Event → Option Bool
  | .connectHandler i => c.connects[i]?.bind ConnectOp.result
  | _ => none

/-- A client, with the attempts started and the connects failed since the last success, and all delays
armed after a failed connect: which failure in a row that was, and the delay in seconds. -/
structure Schedule where
  client : TcpClient
  attempts : Nat := 0
  failures : Nat := 0
  delays : List (Nat × Nat) := []
  deriving DecidableEq, Repr

/-- One event, from `s.client` to `c`. -/
def Schedule.record (s : Schedule) (e : Event) (c : TcpClient) : Schedule :=
  match completion s.client e with
  | some true => { client := c, delays := s.delays }
  | some false =>
      { client := c
        attempts := s.attempts
        failures := s.failures + 1
        delays := s.delays ++ [(s.failures + 1, c.timerWait.getD 0)] }
  | none =>
      { s with
        client := c
        attempts := s.attempts + (c.attempts.length - s.client.attempts.length) }

/-- One event of the client, recorded. -/
def scheduleStep (s : Schedule) (e : Event) : Option Schedule := (step s.client e).map (s.record e)

/-! ## The law and the condition -/

/-- **The back-off law**: no delay is longer than 600 seconds, and the delay after the `k`-th failure in a
row is `min (2 ^ k) 600`. -/
def FollowsLaw (s : Schedule) : Prop := ∀ p ∈ s.delays, p.2 ≤ 600 ∧ p.2 = min (2 ^ p.1) 600

/-- **The condition**: a connect that fails is at most the ninth in a row, and since the last success
attempts were started for the failures before it and for it only. -/
def OnSchedule (s : Schedule) (e : Event) : Prop :=
  completion s.client e = some false → s.failures < 9 ∧ s.attempts = s.failures + 1

instance (s : Schedule) (e : Event) : Decidable (OnSchedule s e) :=
  inferInstanceAs (Decidable (_ → _ ∧ _))

/-! ## What an event does to the interval -/

/-- **What the event `e` from `c` to `c'` does to the interval**: nothing; it starts an attempt; a connect
has succeeded; or a connect has failed and the timer is armed. -/
inductive RetryStep (c : TcpClient) (e : Event) (c' : TcpClient) : Prop
  | same (hdone : completion c e = none) (hinterval : c'.reconnectInterval = c.reconnectInterval)
      (hattempts : c'.attempts = c.attempts)
  | started (hdone : completion c e = none)
      (hinterval : c'.reconnectInterval = doubled 600 c.reconnectInterval)
      (hattempts : c'.attempts.length = c.attempts.length + 1)
  | succeeded (hdone : completion c e = some true) (hinterval : c'.reconnectInterval = 1)
  | failed (hdone : completion c e = some false) (hinterval : c'.reconnectInterval = c.reconnectInterval)
      (hwait : c'.timerWait = some c.reconnectInterval)

section Steps

variable {c c' : TcpClient} {e : Event}

theorem asyncConnect_attempts (c : TcpClient) :
    c.asyncConnect.attempts.length = c.attempts.length + 1 := by
  simp [TcpClient.asyncConnect]

/-- An error that was reported starts an attempt while auto-reconnect is on. -/
theorem afterNetError_retry {t : TcpClient} (hdone : completion c e = none)
    (hinterval : t.reconnectInterval = c.reconnectInterval) (hattempts : t.attempts = c.attempts) :
    RetryStep c e t.afterNetError := by
  unfold TcpClient.afterNetError
  split
  · apply RetryStep.started hdone
    · rw [← hinterval]
      rfl
    · rw [asyncConnect_attempts, hattempts]
  · exact .same hdone hinterval hattempts

theorem retryStep (hs : step c e = some c') : RetryStep c e c' := by
  cases e with
  | session e =>
      simp only [step] at hs
      split at hs
      · obtain ⟨s, _, rfl⟩ := Option.map_eq_some_iff.mp hs
        exact .same rfl rfl rfl
      · exact absurd hs (by simp)
  | readFail i what =>
      obtain ⟨l, _, _, rfl⟩ := bind_guard_eq_some.mp hs
      exact afterNetError_retry rfl rfl rfl
  | writeFail i what =>
      obtain ⟨s, _, rfl⟩ := Option.map_eq_some_iff.mp hs
      exact afterNetError_retry rfl rfl rfl
  | connectHandler i =>
      obtain ⟨op, hop, hs⟩ := Option.bind_eq_some_iff.mp hs
      obtain ⟨ok, hok, rfl⟩ := Option.map_eq_some_iff.mp hs
      have hdone : completion c (.connectHandler i) = some ok := by
        show c.connects[i]?.bind ConnectOp.result = some ok
        rw [hop, Option.bind_some, hok]
      cases ok with
      | true => exact .succeeded hdone rfl
      | false => exact .failed hdone rfl rfl
  | timerHandler =>
      simp only [step, TcpClient.timerHandler] at hs
      split at hs
      · obtain rfl := Option.some.inj hs
        exact .started rfl rfl (asyncConnect_attempts _)
      · exact absurd hs (by simp)
  | readDone i => obtain ⟨_, _, _, rfl⟩ := bind_guard_eq_some.mp hs; exact .same rfl rfl rfl
  | readHead i bodyLen => obtain ⟨_, _, _, rfl⟩ := bind_guard_eq_some.mp hs; exact .same rfl rfl rfl
  | readBody i ref msg => obtain ⟨_, _, _, rfl⟩ := bind_guard_eq_some.mp hs; exact .same rfl rfl rfl
  | connectOk i => obtain ⟨_, _, _, rfl⟩ := bind_guard_eq_some.mp hs; exact .same rfl rfl rfl
  | connectFail i => obtain ⟨_, _, _, rfl⟩ := bind_guard_eq_some.mp hs; exact .same rfl rfl rfl
  | timerExpire => obtain ⟨_, _, rfl⟩ := Option.map_eq_some_iff.mp hs; exact .same rfl rfl rfl
  | stop => obtain rfl := Option.some.inj hs; exact .same rfl rfl rfl

end Steps

/-! ## The invariant -/

/-- **The interval is the delay after the attempts started since the last success.** -/
def Backed (s : Schedule) : Prop := s.client.reconnectInterval = backOff 600 s.attempts

section Invariant

variable {s s' : Schedule} {e : Event}

/-- A recorded step is a step of the client. -/
theorem scheduleStep_cases (hs : scheduleStep s e = some s') :
    ∃ c, RetryStep s.client e c ∧ s' = s.record e c := by
  obtain ⟨c, hc, rfl⟩ := Option.map_eq_some_iff.mp hs
  exact ⟨c, retryStep hc, rfl⟩

theorem Backed.step (h : Backed s) (hs : scheduleStep s e = some s') : Backed s' := by
  obtain ⟨c, hc, rfl⟩ := scheduleStep_cases hs
  unfold Backed at h ⊢
  cases hc with
  | same hdone hinterval hattempts =>
      simp only [Schedule.record, hdone, hattempts, hinterval, Nat.sub_self, Nat.add_zero]
      exact h
  | started hdone hinterval hattempts =>
      -- one attempt was started, and the interval doubled once
      have hone : c.attempts.length - s.client.attempts.length = 1 := by omega
      simp only [Schedule.record, hdone, hinterval, hone, h]
      exact doubled_backOff 600 s.attempts
  | succeeded hdone hinterval =>
      simp only [Schedule.record, hdone, hinterval, backOff_zero]
  | failed hdone hinterval hwait =>
      -- a failure changes neither the attempts nor the interval
      simp only [Schedule.record, hdone, hinterval]
      exact h

/-- The delay after a failure. -/
theorem delays_failed (h : Backed s) (hdone : completion s.client e = some false)
    (hs : scheduleStep s e = some s') :
    s'.delays = s.delays ++ [(s.failures + 1, backOff 600 s.attempts)] := by
  obtain ⟨c, hc, rfl⟩ := scheduleStep_cases hs
  cases hc with
  | failed _ _ hwait =>
      simp only [Schedule.record, hdone, hwait, Option.getD_some]
      rw [h]
  | same hno _ _ => exact absurd (hdone.symm.trans hno) (by simp)
  | started hno _ _ => exact absurd (hdone.symm.trans hno) (by simp)
  | succeeded hno _ => exact absurd (hdone.symm.trans hno) (by simp)

/-- No other event arms the timer. -/
theorem delays_other (hdone : completion s.client e ≠ some false) (hs : scheduleStep s e = some s') :
    s'.delays = s.delays := by
  obtain ⟨c, _, rfl⟩ := scheduleStep_cases hs
  unfold Schedule.record
  split
  · rfl
  · next hno => exact absurd hno hdone
  · rfl

theorem clog_limit : Nat.clog 2 600 = 10 := by
  apply Nat.le_antisymm
  · exact Nat.clog_le_of_le_pow (by norm_num)
  · exact (Nat.lt_clog_iff_pow_lt (by norm_num)).mpr (by norm_num)

/-- **The delay of a failure is the one of the law exactly on schedule.** -/
theorem delay_iff {k n : Nat} :
    (backOff 600 n ≤ 600 ∧ backOff 600 n = min (2 ^ (k + 1)) 600) ↔ k < 9 ∧ n = k + 1 := by
  -- the limit is no power of two, so the last doubling leads beyond it
  have hlimit : 2 ^ Nat.clog 2 600 ≠ 600 := by
    rw [clog_limit]
    norm_num
  have hmin := backOff_eq_min_iff (n := n) (k := k + 1) hlimit
  rw [clog_limit] at hmin
  constructor
  · rintro ⟨_, heq⟩
    obtain ⟨hn, hk⟩ := hmin.mp heq
    exact ⟨by omega, hn⟩
  · rintro ⟨hk, hn⟩
    have heq := hmin.mpr ⟨hn, by omega⟩
    exact ⟨heq ▸ Nat.min_le_right _ _, heq⟩

theorem FollowsLaw.step (h : FollowsLaw s) (hb : Backed s) (hC : OnSchedule s e)
    (hs : scheduleStep s e = some s') : FollowsLaw s' := by
  intro p hp
  by_cases hdone : completion s.client e = some false
  · rw [delays_failed hb hdone hs, List.mem_append, List.mem_singleton] at hp
    rcases hp with hp | rfl
    · exact h p hp
    · exact delay_iff.mpr (hC hdone)
  · rw [delays_other hdone hs] at hp
    exact h p hp

theorem OnSchedule.of_law (hb : Backed s) (hs : scheduleStep s e = some s') (h : FollowsLaw s') :
    OnSchedule s e := by
  intro hdone
  refine delay_iff.mp (h (s.failures + 1, backOff 600 s.attempts) ?_)
  rw [delays_failed hb hdone hs]
  exact List.mem_append_right _ (List.mem_singleton_self _)

end Invariant

/-! ## When the law holds -/

/-- The start: connected, and no connect has failed. -/
def firstSchedule : Schedule := { client := connectedClient }

/-- **When the delays follow the back-off law.** In every run of a client, all delays armed after failed
connects are `min (2 ^ k) 600` seconds after the `k`-th failure in a row, if and only if every connect
that fails in it is on schedule. -/
theorem backOff_law_iff (es : List Event) {s : Schedule}
    (h : run scheduleStep firstSchedule es = some s) :
    EveryState scheduleStep FollowsLaw firstSchedule es ↔
      EveryStep scheduleStep OnSchedule firstSchedule es := by
  refine everyState_iff_everyStep (I := fun s => Backed s ∧ FollowsLaw s) ⟨?_, ?_⟩ ?_ ?_ ?_ h
  · show 1 = backOff 600 0
    rw [backOff_zero]
  · intro p hp
    cases hp
  · intro t ht
    exact ht.2
  · intro t e t' ht hC hs
    exact ⟨ht.1.step hs, ht.2.step ht.1 hC hs⟩
  · intro t e t' ht hs hP
    exact OnSchedule.of_law ht.1 hs hP

/-- A connect fails, and the timer starts the next attempt. -/
def failAndRetry : List Event := [.connectFail 0, .connectHandler 0, .timerExpire, .timerHandler]

/-- The connection is lost and the first two attempts fail. -/
theorem backOff_law_iff_twoFailures :
    EveryState scheduleStep FollowsLaw firstSchedule (.readFail 0 [] :: failAndRetry ++ failAndRetry) :=
  (backOff_law_iff (.readFail 0 [] :: failAndRetry ++ failAndRetry) rfl).mpr (by decide)

/-- **Two schedules that break the law.** The tenth failure in a row arms 1024 seconds. And when a write
and the read both report the loss of a connection, the interval was doubled twice at the first failure,
which arms 4 seconds. -/
theorem backOff_law_broken :
    (∃ s, run scheduleStep firstSchedule
        (.readFail 0 [] :: (List.replicate 10 failAndRetry).flatten) = some s ∧
      (10, 1024) ∈ s.delays ∧ ¬ FollowsLaw s) ∧
    ∃ s, run scheduleStep firstSchedule [.session (.request {}), .session .runPost, .writeFail 0 [],
        .readFail 0 [], .connectFail 0, .connectHandler 0] = some s ∧
      s.delays = [(1, 4)] ∧ ¬ FollowsLaw s := by
  constructor
  · have hview : (run scheduleStep firstSchedule
        (.readFail 0 [] :: (List.replicate 10 failAndRetry).flatten)).map
        (fun s => decide ((10, 1024) ∈ s.delays)) = some true := by
      decide +kernel
    obtain ⟨s, hs, hview⟩ := Option.map_eq_some_iff.mp hview
    have hmem : (10, 1024) ∈ s.delays := of_decide_eq_true hview
    exact ⟨s, hs, hmem, fun h => absurd (h _ hmem).1 (by decide)⟩
  · refine ⟨_, rfl, rfl, fun h => ?_⟩
    exact absurd (h (1, 4) (List.mem_singleton_self _)).2 (by decide)

end AdManager.Client
