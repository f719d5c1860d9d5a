/-
# AdManager.Server.Stopping — what a server still does after `stop`.

`stop` closes the acceptor, stops the sessions and clears the pool. It sets nothing that the handler of
an `async_accept` looks at, and that handler accepts again whatever its error is: a completion that was
queued before, or the one that closing the acceptor causes, goes through the same code as ever.

So what is left after `stop` depends on the network thread alone. `stop_final_iff` says which of its
events break it: those of the accept chain, and no other. An event that ends in a fault, as the aborted
read of a session does, is the last one.
-/
import AdManager.Server.TcpServer

namespace AdManager.Server

open AdManager.Wire AdManager.Lib AdManager.Session

namespace TcpServer

/-! ## The property -/

/-- **Nothing was accepted since `stopped`**: the pool is empty, no further `async_accept` was started
and no further session. -/
structure AcceptFree (stopped s : TcpServer) : Prop where
  pool : s.pool = ∅
  accepts : s.nextSession = stopped.nextSession
  started : ∀ i, (s.sessions i).history.count .accepted = (stopped.sessions i).history.count .accepted

/-- The event does not accept: it is not `start`, not the end of the accept handler, which accepts again,
and not the accept handler with a connection. -/
def NotAccepting (s : TcpServer) : Event → Prop
  | .start => False
  | .rearm => False
  | .acceptHandler => ∀ i, s.accept ≠ .completed i true
  | _ => True

instance (s : TcpServer) (e : Event) : Decidable (NotAccepting s e) :=
  match e with
  | .start => isFalse id
  | .rearm => isFalse id
  | .acceptHandler =>
      match h : s.accept with
      | .completed i true => isFalse fun hno => hno i h
      | .completed _ false => isTrue fun _ hc => by simp [h] at hc
      | .notStarted => isTrue fun _ hc => by simp [h] at hc
      | .outstanding _ => isTrue fun _ hc => by simp [h] at hc
      | .rearming => isTrue fun _ hc => by simp [h] at hc
  | .acceptOk => isTrue trivial
  | .acceptFail => isTrue trivial
  | .readDone _ => isTrue trivial
  | .readHead _ _ => isTrue trivial
  | .readBody _ _ _ => isTrue trivial
  | .readFail _ _ => isTrue trivial
  | .writeFail _ _ _ => isTrue trivial
  | .runPost _ => isTrue trivial
  | .writeSome _ _ _ => isTrue trivial
  | .writeDone _ _ => isTrue trivial
  | .closeAcceptor => isTrue trivial
  | .clearPool => isTrue trivial

/-! ## Steps -/

section Steps

variable {s s' stopped : TcpServer} {handler : TcpSession → Nat → Message → Option TcpSession} {e : Event}

/-- An event of one session that was not its acceptance. -/
theorem AcceptFree.setSession (h : AcceptFree stopped s) {i : Nat} {t : ServerSession}
    {pool : Finset Nat} {accept : AcceptStage} {fault : Option ServerFault} (hpool : pool = ∅)
    (ht : t.history.count .accepted = (s.sessions i).history.count .accepted) :
    AcceptFree stopped
      ({ s with pool := pool, accept := accept, fault := fault }.setSession i t) where
  pool := hpool
  accepts := h.accepts
  started j := by
    by_cases hj : j = i
    · subst hj
      simp only [TcpServer.setSession, Function.update_self, ht, h.started]
    · rw [setSession_other hj, h.started]

theorem AcceptFree.io (h : AcceptFree stopped s) {i : Nat} {e : Session.Event}
    (hs : s.io i e = some s') : AcceptFree stopped s' := by
  obtain ⟨session, _, rfl⟩ := Option.map_eq_some_iff.mp hs
  exact h.setSession h.pool rfl

/-- A reported error, as `handleNetError` leaves it. -/
theorem AcceptFree.afterNetError (h : AcceptFree stopped s) {i : Nat} {t : ServerSession}
    (ht : t.history = (s.sessions i).history) : AcceptFree stopped (s.afterNetError i t) := by
  unfold TcpServer.afterNetError eraseSession
  simp only
  split
  · exact h.setSession h.pool (by simp [ht])
  · exact h.setSession h.pool (by simp [ht])

/-- **No other event accepts.** -/
theorem AcceptFree.step (h : AcceptFree stopped s) (he : NotAccepting s e)
    (hs : TcpServer.step handler s e = some s') : AcceptFree stopped s' := by
  unfold TcpServer.step at hs
  split at hs
  · exact absurd hs (by simp)
  · cases e with
    | start => exact absurd he id
    | rearm => exact absurd he id
    | acceptOk =>
        simp only [react, acceptOk] at hs
        split at hs
        · split at hs
          · obtain rfl := Option.some.inj hs
            exact h.setSession h.pool rfl
          · exact absurd hs (by simp)
        · exact absurd hs (by simp)
    | acceptFail =>
        simp only [react, acceptFail] at hs
        split at hs
        · obtain rfl := Option.some.inj hs
          exact ⟨h.pool, h.accepts, h.started⟩
        · exact absurd hs (by simp)
    | acceptHandler =>
        simp only [react, acceptHandler] at hs
        split at hs
        · next i haccept => exact absurd haccept (he i)
        · obtain rfl := Option.some.inj hs
          exact ⟨h.pool, h.accepts, h.started⟩
        · exact absurd hs (by simp)
    | readDone i =>
        obtain ⟨l, _, _, rfl⟩ := Client.bind_guard_eq_some.mp hs
        exact h.setSession h.pool rfl
    | readHead i bodyLen =>
        obtain ⟨l, _, _, rfl⟩ := Client.bind_guard_eq_some.mp hs
        exact h.setSession h.pool rfl
    | readBody i ref msg =>
        obtain ⟨l, _, hs⟩ := Option.bind_eq_some_iff.mp hs
        split at hs
        · obtain ⟨t, ht, rfl⟩ := Option.map_eq_some_iff.mp hs
          apply h.setSession h.pool
          obtain ⟨⟨k, hinvoked⟩, _⟩ := Ordered.dispatch_cases ht
          simp [hinvoked, List.count_replicate]
        · exact absurd hs (by simp)
    | readFail i what =>
        obtain ⟨l, _, _, rfl⟩ := Client.bind_guard_eq_some.mp hs
        exact h.afterNetError rfl
    | writeFail i j what =>
        obtain ⟨session, _, rfl⟩ := Option.map_eq_some_iff.mp hs
        exact h.afterNetError rfl
    | runPost i => exact h.io hs
    | writeSome i j n => exact h.io hs
    | writeDone i j => exact h.io hs
    | closeAcceptor =>
        obtain ⟨_, hs⟩ := Option.ite_none_right_eq_some.mp hs
        obtain rfl := Option.some.inj hs
        exact ⟨h.pool, h.accepts, h.started⟩
    | clearPool =>
        obtain ⟨_, hs⟩ := Option.ite_none_right_eq_some.mp hs
        obtain rfl := Option.some.inj hs
        refine ⟨rfl, h.accepts, fun i => ?_⟩
        rw [← h.started i]
        dsimp only
        split <;> rfl

/-- **And the events of the accept chain do.** -/
theorem AcceptFree.of_step (h : AcceptFree stopped s) (hs : TcpServer.step handler s e = some s')
    (h' : AcceptFree stopped s') : NotAccepting s e := by
  have hno : s'.nextSession ≠ s.nextSession + 1 := by
    rw [h'.accepts, h.accepts]
    omega
  unfold TcpServer.step at hs
  split at hs
  · exact absurd hs (by simp)
  · cases e with
    | start =>
        obtain ⟨_, hs⟩ := Option.ite_none_right_eq_some.mp hs
        exact hno (congrArg TcpServer.nextSession (Option.some.inj hs)).symm
    | rearm =>
        obtain ⟨_, hs⟩ := Option.ite_none_right_eq_some.mp hs
        exact hno (congrArg TcpServer.nextSession (Option.some.inj hs)).symm
    | acceptHandler =>
        intro i haccept
        simp only [react, acceptHandler, haccept] at hs
        obtain rfl := Option.some.inj hs
        exact Finset.insert_ne_empty i s.pool h'.pool
    | _ => trivial

end Steps

end TcpServer

/-! ## After `stop` -/

/-- **Nothing ends the accept chain.** In whatever state a server is that was started and has met no
fault, also after `stop`, what is left for the network thread to do leads to another `async_accept`. -/
theorem acceptChain_continues (handler : TcpSession → Nat → Message → Option TcpSession)
    {s : TcpServer} (hstarted : s.accept ≠ .notStarted) (hsound : s.fault = none) :
    ∃ es s', (∀ e ∈ es, e = .acceptFail ∨ e = .acceptHandler ∨ e = .rearm) ∧
      run (TcpServer.step handler) s es = some s' ∧ s'.nextSession = s.nextSession + 1 := by
  have hrearm : ∀ t : TcpServer, t.fault = none → t.accept = .rearming →
      t.nextSession = s.nextSession →
      ∃ s', TcpServer.step handler t .rearm = some s' ∧ s'.nextSession = s.nextSession + 1 := by
    intro t hsound ht hnext
    refine ⟨t.doAccept, ?_, congrArg (· + 1) hnext⟩
    simp [TcpServer.step, TcpServer.Event.runsHandler, TcpServer.react, TcpServer.rearm, ht, hsound]
  have hhandled : ∀ t : TcpServer, t.fault = none → (∃ i ok, t.accept = .completed i ok) →
      t.nextSession = s.nextSession → ∃ t', TcpServer.step handler t .acceptHandler = some t' ∧
        t'.fault = none ∧ t'.accept = .rearming ∧ t'.nextSession = s.nextSession := by
    rintro t hsound ⟨i, ok, ht⟩ hnext
    cases ok with
    | true =>
        refine ⟨{ t.startSession i with accept := .rearming }, ?_, hsound, rfl, hnext⟩
        simp [TcpServer.step, TcpServer.react, TcpServer.acceptHandler, ht, hsound]
    | false =>
        refine ⟨{ t with accept := .rearming }, ?_, hsound, rfl, hnext⟩
        simp [TcpServer.step, TcpServer.react, TcpServer.acceptHandler, ht, hsound]
  cases haccept : s.accept with
  | notStarted => exact absurd haccept hstarted
  | rearming =>
      obtain ⟨s', hs', hnext⟩ := hrearm s hsound haccept rfl
      exact ⟨[.rearm], s', by simp, run_cons_eq_some.mpr ⟨s', hs', rfl⟩, hnext⟩
  | completed i ok =>
      obtain ⟨t, ht, hsound', hrearming, hsame⟩ := hhandled s hsound ⟨i, ok, haccept⟩ rfl
      obtain ⟨s', hs', hnext⟩ := hrearm t hsound' hrearming hsame
      exact ⟨[.acceptHandler, .rearm], s', by simp,
        run_cons_eq_some.mpr ⟨t, ht, run_cons_eq_some.mpr ⟨s', hs', rfl⟩⟩, hnext⟩
  | outstanding i =>
      -- closing the acceptor aborts it
      have haborted : TcpServer.step handler s .acceptFail =
          some { s with accept := .completed i false } := by
        simp [TcpServer.step, TcpServer.Event.runsHandler, TcpServer.react, TcpServer.acceptFail,
          haccept, hsound]
      obtain ⟨t, ht, hsound', hrearming, hsame⟩ :=
        hhandled { s with accept := .completed i false } hsound ⟨i, false, rfl⟩ rfl
      obtain ⟨s', hs', hnext⟩ := hrearm t hsound' hrearming hsame
      exact ⟨[.acceptFail, .acceptHandler, .rearm], s', by simp,
        run_cons_eq_some.mpr ⟨_, haborted,
          run_cons_eq_some.mpr ⟨t, ht, run_cons_eq_some.mpr ⟨s', hs', rfl⟩⟩⟩, hnext⟩

/-- **`stop` is final exactly when no event of the accept chain follows.** From the moment `stop` has
returned, in whatever state that happened: the pool stays empty, no further `async_accept` and no further
session is started, exactly when from then on no accept handler gets a connection, none accepts again,
and `start` is not called. -/
theorem stop_final_iff (handler : TcpSession → Nat → Message → Option TcpSession)
    {t stopped s' : TcpServer} (hstop : TcpServer.step handler t .clearPool = some stopped)
    {es : List TcpServer.Event} (h : run (TcpServer.step handler) stopped es = some s') :
    EveryState (TcpServer.step handler) (TcpServer.AcceptFree stopped) stopped es ↔
      EveryStep (TcpServer.step handler) TcpServer.NotAccepting stopped es := by
  have hempty : stopped.pool = ∅ := by
    obtain ⟨_, hstop⟩ := Option.ite_none_left_eq_some.mp hstop
    obtain ⟨_, hstop⟩ := Option.ite_none_right_eq_some.mp hstop
    obtain rfl := Option.some.inj hstop
    rfl
  refine everyState_iff_everyStep (I := TcpServer.AcceptFree stopped) ⟨hempty, rfl, fun _ => rfl⟩
    (fun _ ht => ht) ?_ ?_ h
  · intro u e u' hu he hs
    exact hu.step he hs
  · intro u e u' hu hs hu'
    exact hu.of_step hs hu'

/-- A connection is accepted, and `stop` runs before its handler does. -/
def stopBeforeHandler : List TcpServer.Event := [.start, .acceptOk, .closeAcceptor]

/-- The session of that connection is started and in the pool, and the server accepts again. -/
theorem stop_not_final : ∃ t stopped s',
    run (TcpServer.step fun _ _ _ => none) {} stopBeforeHandler = some t ∧
      TcpServer.step (fun _ _ _ => none) t .clearPool = some stopped ∧
      run (TcpServer.step fun _ _ _ => none) stopped [.acceptHandler, .rearm] = some s' ∧
      s'.pool = {0} ∧ (s'.sessions 0).history = [.accepted] ∧ s'.accept = .outstanding 1 ∧
      ¬ EveryState (TcpServer.step fun _ _ _ => none) (TcpServer.AcceptFree stopped) stopped
        [.acceptHandler, .rearm] := by
  refine ⟨_, _, _, rfl, rfl, rfl, rfl, rfl, rfl, fun h => ?_⟩
  have hpool := (h [.acceptHandler, .rearm] [] _ rfl rfl).pool
  exact absurd hpool (by decide)

/-- Two sessions are in the pool, and the first of them has read a header. -/
def stopWithSessions : List TcpServer.Event :=
  [.start, .acceptOk, .acceptHandler, .rearm, .acceptOk, .acceptHandler, .rearm, .readDone 0,
    .closeAcceptor]

/-- `stop` empties the pool. The accept that was outstanding is aborted, the first session goes on to the
body, and the network thread stops before any other handler. -/
theorem stop_final_aborted : ∃ t stopped s',
    run (TcpServer.step fun _ _ _ => none) {} stopWithSessions = some t ∧ t.pool = {0, 1} ∧
      TcpServer.step (fun _ _ _ => none) t .clearPool = some stopped ∧ stopped.pool = ∅ ∧
      run (TcpServer.step fun _ _ _ => none) stopped [.acceptFail, .readHead 0 4] = some s' ∧
      EveryState (TcpServer.step fun _ _ _ => none) (TcpServer.AcceptFree stopped) stopped
        [.acceptFail, .readHead 0 4] := by
  have hview : (run (TcpServer.step fun _ _ _ => none) {} stopWithSessions).map (·.pool) =
      some {0, 1} := by decide +kernel
  obtain ⟨t, ht, hpool⟩ := Option.map_eq_some_iff.mp hview
  have hrest : ((TcpServer.step (fun _ _ _ => none) t .clearPool).bind fun stopped =>
      run (TcpServer.step fun _ _ _ => none) stopped [.acceptFail, .readHead 0 4]).isSome := by
    have hall : ((run (TcpServer.step fun _ _ _ => none) {} stopWithSessions).bind fun t =>
        (TcpServer.step (fun _ _ _ => none) t .clearPool).bind fun stopped =>
          run (TcpServer.step fun _ _ _ => none) stopped [.acceptFail, .readHead 0 4]).isSome := by
      decide +kernel
    rwa [ht] at hall
  obtain ⟨s', hs'⟩ := Option.isSome_iff_exists.mp hrest
  obtain ⟨stopped, hstop, hrun⟩ := Option.bind_eq_some_iff.mp hs'
  have hsteps : EveryStep (TcpServer.step fun _ _ _ => none) TcpServer.NotAccepting stopped
      [.acceptFail, .readHead 0 4] := by
    rw [everyStep_cons]
    exact ⟨trivial, fun u _ => everyStep_cons.mpr ⟨trivial, fun _ _ => everyStep_nil⟩⟩
  have hfinal := (stop_final_iff (fun _ _ _ => none) hstop hrun).mpr hsteps
  exact ⟨t, stopped, s', ht, hpool, hstop, (hfinal [] _ stopped rfl rfl).pool, hrun, hfinal⟩

end AdManager.Server
