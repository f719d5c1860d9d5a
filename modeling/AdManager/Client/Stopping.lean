/-
# AdManager.Client.Stopping — what a client still does after `stop`.

`stop` takes `_afterNetError` away and closes the socket, so no error reported from then on starts an
attempt. But the chain of a reconnect does not come back to `_afterNetError`: an `async_connect` has its
own handler, which starts a session or arms the timer, and the timer's handler starts the next
`async_connect`, on the closed socket, which that opens again. Whatever part of this chain is under way
when `stop` is called goes on as before. The same holds for `syncConnect`, which `bgnBusiness` calls on the
business thread until it succeeds.

`final_stop_iff` is exact: nothing happens after `stop` if and only if nothing of this is under way.
-/
import AdManager.Client.TcpClient

namespace AdManager.Client

open AdManager.Wire AdManager.Lib AdManager.Session

/-! ## The client and its connect loop -/

/-- `syncConnect`, when the connect succeeds. -/
def TcpClient.syncConnected (c : TcpClient) : TcpClient :=
  TcpClient.startSession { c with session := c.session.connected }

/-- A client, and whether the connect loop of `bgnBusiness` is still to succeed. -/
structure Dialer where
  client : TcpClient := {}
  dialing : Bool := true
  deriving DecidableEq, Repr

/-- An event of the client, or a `syncConnect` of the loop. -/
inductive DialEvent where
  | net (e : Event)
  | syncConnect (ok : Bool)
  deriving DecidableEq, Repr

/-- One event. A connect succeeds only on a socket that is not connected, and ends the loop. -/
def dialStep (d : Dialer) : DialEvent → Option Dialer
  | .net e => (step d.client e).map fun c => { d with client := c }
  | .syncConnect ok =>
      if d.dialing = true ∧ (ok = true → d.client.session.socket.up = false) then
        some (if ok then { client := d.client.syncConnected, dialing := false } else d)
      else none

/-- `stop`, which any thread may call at any time. -/
def Dialer.stop (d : Dialer) : Dialer := { d with client := d.client.stop }

/-! ## The property and the condition -/

/-- From `c` to `c'` the socket is connected, a session is started or the reconnect timer is armed. -/
inductive Revives (c c' : TcpClient) : Prop
  | connects (hdown : c.session.socket.up = false) (hup : c'.session.socket.up = true)
  | starts (hloop : c.loops.length < c'.loops.length)
  | arms (hwait : c'.timerWait.isSome) (hnew : c.timerWait = none ∨ c.timerQueue < c'.timerQueue)

/-- **Nothing happens from `d` on**: in no run does a step connect, start a session or arm the timer. -/
def Final (d : Dialer) : Prop :=
  ∀ es d', run dialStep d es = some d' →
    EveryStep dialStep (fun t e => ∀ t', dialStep t e = some t' → ¬ Revives t.client t'.client) d es

/-- **The condition**: no `async_connect` is outstanding or has a handler queued, the reconnect timer has
no wait and no handler queued, and the connect loop has succeeded. -/
structure Idle (d : Dialer) : Prop where
  connects : d.client.connects = []
  timerWait : d.client.timerWait = none
  timerQueue : d.client.timerQueue = 0
  dialing : d.dialing = false

/-! ## Nothing under way -/

/-- **The invariant after `stop`**: nothing is under way, and no error will start anything. -/
structure Dormant (d : Dialer) : Prop extends Idle d where
  auto : d.client.autoReconnect = false
  up : d.client.session.socket.up = false

namespace Dormant

variable {d d' : Dialer} {c : TcpClient}

/-- A client that was left alone but for its session and its loops. -/
theorem next (h : Dormant d) {s : TcpSession} {loops : List ReadLoop} (hup : s.socket.up = false)
    (hloops : loops.length ≤ d.client.loops.length)
    (hc : c = { d.client with session := s, loops := loops }) :
    Dormant { d with client := c } ∧ ¬ Revives d.client c := by
  subst hc
  refine ⟨⟨⟨h.connects, h.timerWait, h.timerQueue, h.dialing⟩, h.auto, hup⟩, ?_⟩
  intro hrev
  cases hrev with
  | connects _ hconnected =>
      have hconnected : s.socket.up = true := hconnected
      exact absurd (hup.symm.trans hconnected) (by simp)
  | starts hloop =>
      have hloop : d.client.loops.length < loops.length := hloop
      omega
  | arms hwait _ =>
      have hwait : d.client.timerWait.isSome := hwait
      rw [h.timerWait] at hwait
      exact absurd hwait (by simp)

/-- A reported error closes the socket and starts nothing. -/
theorem afterNetError (h : Dormant d) {s : TcpSession} {loops : List ReadLoop}
    (hup : s.socket.up = false) (hloops : loops.length ≤ d.client.loops.length)
    (hc : c = TcpClient.afterNetError { d.client with session := s, loops := loops }) :
    Dormant { d with client := c } ∧ ¬ Revives d.client c := by
  apply h.next hup hloops
  rw [hc, TcpClient.afterNetError]
  exact if_neg (by simp [h.auto])

/-- **A step from a dormant client revives nothing.** -/
theorem step {e : DialEvent} (h : Dormant d) (hs : dialStep d e = some d') :
    Dormant d' ∧ ¬ Revives d.client d'.client := by
  cases e with
  | syncConnect ok =>
      obtain ⟨hdial, _⟩ := Option.ite_none_right_eq_some.mp hs
      exact absurd (h.dialing.symm.trans hdial.1) (by simp)
  | net e =>
      obtain ⟨c, hc, rfl⟩ := Option.map_eq_some_iff.mp hs
      cases e with
      | session e =>
          simp only [Client.step] at hc
          split at hc
          · next he =>
              obtain ⟨s, hstep, rfl⟩ := Option.map_eq_some_iff.mp hc
              exact h.next (by rw [Session.socket_step he hstep, h.up]) (Nat.le_refl _) rfl
          · exact absurd hc (by simp)
      | readDone i =>
          obtain ⟨l, _, _, rfl⟩ := bind_guard_eq_some.mp hc
          exact h.next h.up (by simp) rfl
      | readHead i bodyLen =>
          obtain ⟨l, _, _, rfl⟩ := bind_guard_eq_some.mp hc
          exact h.next h.up (by simp) rfl
      | readBody i ref msg =>
          obtain ⟨l, _, _, rfl⟩ := bind_guard_eq_some.mp hc
          refine h.next ?_ (by simp) rfl
          cases msg with
          | none => exact h.up
          | some msg => rw [(d.client.session.inbound_frame ref msg).1, h.up]
      | readFail i what =>
          obtain ⟨l, _, _, rfl⟩ := bind_guard_eq_some.mp hc
          -- the loop that failed is gone, and nothing takes its place
          exact h.afterNetError rfl (List.length_eraseIdx_le _ _) rfl
      | writeFail i what =>
          obtain ⟨s, hfail, rfl⟩ := Option.map_eq_some_iff.mp hc
          refine h.afterNetError ?_ (Nat.le_refl _) rfl
          simp only [TcpSession.writeFail] at hfail
          split at hfail
          · exact absurd hfail (by simp)
          · obtain ⟨_, hfail⟩ := Option.ite_none_right_eq_some.mp hfail
            rw [← Option.some.inj hfail]
            rfl
      | connectOk i =>
          -- no connect is outstanding that could complete
          obtain ⟨op, hop, _⟩ := bind_guard_eq_some.mp hc
          exact absurd hop (by simp [h.connects])
      | connectFail i =>
          obtain ⟨op, hop, _⟩ := bind_guard_eq_some.mp hc
          exact absurd hop (by simp [h.connects])
      | connectHandler i =>
          obtain ⟨op, hop, _⟩ := Option.bind_eq_some_iff.mp hc
          exact absurd hop (by simp [h.connects])
      | timerExpire =>
          obtain ⟨w, hw, _⟩ := Option.map_eq_some_iff.mp hc
          exact absurd (h.timerWait.symm.trans hw) (by simp)
      | timerHandler =>
          -- no handler of the timer is queued
          simp only [Client.step, TcpClient.timerHandler] at hc
          split at hc
          · next hpos => exact absurd h.timerQueue (by omega)
          · exact absurd hc (by simp)
      | stop =>
          obtain rfl := Option.some.inj hc
          obtain ⟨_, hrev⟩ := h.next (s := d.client.session.stopSession) rfl (Nat.le_refl _) rfl
          refine ⟨⟨⟨h.connects, h.timerWait, h.timerQueue, h.dialing⟩, rfl, rfl⟩, ?_⟩
          intro hstop
          apply hrev
          cases hstop with
          | connects hdown hup => exact .connects hdown hup
          | starts hloop => exact .starts hloop
          | arms hwait hnew => exact .arms hwait hnew

/-- **Nothing happens from a dormant client on.** -/
theorem final (h : Dormant d) : Final d := by
  intro es d' _ pre e post t _ ht t' hs
  have hdormant : Dormant t := inv_run h (fun _ _ _ hu hstep => (hu.step hstep).1) ht
  exact (hdormant.step hs).2

end Dormant

/-! ## Something under way -/

namespace Final

variable {d d' : Dialer} {e : DialEvent}

theorem not_revives (h : Final d) (hs : dialStep d e = some d') : ¬ Revives d.client d'.client :=
  h [e] d' ((run_singleton dialStep d e).trans hs) [] e [] d rfl rfl d' hs

theorem step (h : Final d) (hs : dialStep d e = some d') : Final d' := by
  intro es u hu pre e' post t hes ht
  exact h (e :: es) u (run_cons_eq_some.mpr ⟨d', hs, hu⟩) (e :: pre) e' post t
    (by rw [hes, List.cons_append]) (run_cons_eq_some.mpr ⟨d', hs, ht⟩)

/-- The handler of a connect starts a session or arms the timer. -/
theorem no_handler (h : Final d) {op : ConnectOp} {ops : List ConnectOp}
    (hops : d.client.connects = op :: ops) : op.result = none := by
  cases hresult : op.result with
  | none => rfl
  | some ok =>
      have hget : d.client.connects[0]? = some op := by rw [hops, List.getElem?_cons_zero]
      cases ok with
      | true =>
          -- the handler starts a session, whatever `stop` did
          have hs : dialStep d (.net (.connectHandler 0)) = some { d with
              client := TcpClient.startSession { d.client with
                connects := d.client.connects.eraseIdx 0, reconnectInterval := 1 } } := by
            simp [dialStep, Client.step, TcpClient.connectHandler, hget, hresult]
          apply absurd _ (h.not_revives hs)
          apply Revives.starts
          simp [TcpClient.startSession]
      | false =>
          have hs : dialStep d (.net (.connectHandler 0)) = some { d with
              client := TcpClient.armTimer { d.client with
                connects := d.client.connects.eraseIdx 0 } } := by
            simp [dialStep, Client.step, TcpClient.connectHandler, hget, hresult]
          apply absurd _ (h.not_revives hs)
          apply Revives.arms rfl
          -- a wait that was pending is cancelled, so its handler is queued
          cases hw : d.client.timerWait with
          | none => exact Or.inl rfl
          | some w =>
              right
              show d.client.timerQueue < d.client.timerQueue + if d.client.timerWait.isSome then 1 else 0
              rw [hw, Option.isSome_some, if_pos rfl]
              omega

/-- No connect is outstanding: it could fail, and then its handler runs. -/
theorem connects (h : Final d) : d.client.connects = [] := by
  cases hops : d.client.connects with
  | nil => rfl
  | cons op ops =>
      have hnone := h.no_handler hops
      have hs : dialStep d (.net (.connectFail 0)) = some { d with
          client := { d.client with
            connects := { op with result := some false } :: ops } } := by
        simp [dialStep, Client.step, TcpClient.connectFail, hnone, hops]
      -- `Final` goes along with the step, and now a handler is queued
      have hfailed := (h.step hs).no_handler (show _ = { op with result := some false } :: ops from rfl)
      exact absurd hfailed (by simp)

/-- No handler of the timer is queued: it would start a connect. -/
theorem timerQueue (h : Final d) : d.client.timerQueue = 0 := by
  by_contra hpos
  have hs : dialStep d (.net .timerHandler) = some { d with
      client := TcpClient.asyncConnect { d.client with
        timerQueue := d.client.timerQueue - 1 } } := by
    simp [dialStep, Client.step, TcpClient.timerHandler, Nat.pos_of_ne_zero hpos]
  -- the handler leaves a connect outstanding
  have hnone := (h.step hs).connects
  simp [TcpClient.asyncConnect] at hnone

/-- The timer has no wait: it would expire. -/
theorem timerWait (h : Final d) : d.client.timerWait = none := by
  cases hw : d.client.timerWait with
  | none => rfl
  | some w =>
      have hs : dialStep d (.net .timerExpire) = some { d with
          client := { d.client with
            timerWait := none, timerQueue := d.client.timerQueue + 1 } } := by
        simp [dialStep, Client.step, TcpClient.timerExpire, hw]
      have hzero : d.client.timerQueue + 1 = 0 := (h.step hs).timerQueue
      omega

/-- The connect loop is over: its next connect could succeed. -/
theorem dialing (h : Final d) (hdown : d.client.session.socket.up = false) : d.dialing = false := by
  by_contra hdial
  rw [Bool.not_eq_false] at hdial
  have hs : dialStep d (.syncConnect true) =
      some { client := d.client.syncConnected, dialing := false } := by
    simp [dialStep, hdial, hdown]
  exact h.not_revives hs (.connects hdown rfl)

end Final

/-! ## After `stop` -/

/-- **`stop` is final exactly when nothing is under way.** In whatever state of a client `stop` is called:
no step of any run that follows connects the socket, starts a session or arms the reconnect timer, if and
only if at that moment no `async_connect` is outstanding or has its handler queued, the timer has neither
a wait nor a handler queued, and the connect loop of `bgnBusiness` has succeeded. -/
theorem final_stop_iff (d : Dialer) : Final d.stop ↔ Idle d := by
  constructor
  · intro h
    exact ⟨h.connects, h.timerWait, h.timerQueue, h.dialing rfl⟩
  · intro h
    have hdormant : Dormant d.stop :=
      ⟨⟨h.connects, h.timerWait, h.timerQueue, h.dialing⟩, rfl, rfl⟩
    exact hdormant.final

/-- **`stop` while an `async_connect` is outstanding.** The connect is aborted and arms the timer, whose
handler starts another one: the client is connected again, with a session. -/
theorem connects_after_stop :
    (∃ d d', run dialStep {} [.syncConnect true, .net (.readFail 0 [])] = some d ∧
      run dialStep d.stop [.net (.connectFail 0), .net (.connectHandler 0), .net .timerExpire,
        .net .timerHandler, .net (.connectOk 0), .net (.connectHandler 0)] = some d' ∧
      d'.client.session.isConnected = true ∧ d'.client.session.socket.up = true ∧
      d'.client.loops.length = 1 ∧ ¬ Final d.stop) := by
  refine ⟨_, _, rfl, rfl, rfl, rfl, rfl, ?_⟩
  intro hfinal
  exact absurd hfinal.connects (by decide)

end AdManager.Client
