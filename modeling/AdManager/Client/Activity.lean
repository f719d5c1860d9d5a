/-
# AdManager.Client.Activity — one connection activity at a time.

While auto-reconnect is on, exactly one of three things keeps the client going: a receive loop, an
`async_connect`, or the reconnect timer. Each event hands the activity on: a failed read starts a
connect, a failed connect arms the timer, an expired timer starts a connect, a successful connect
starts a loop. The one exception is a failed write, which starts a connect of its own while the other
activity goes on; the hook is not taken away after the first error of a connection, as
`TcpServer::startSession` does on the other side.

Hence the exact condition: there is one activity in every state of a run exactly when no write fails.
-/
import AdManager.Client.TcpClient

namespace AdManager.Client

open AdManager.Wire AdManager.Lib AdManager.Session

/-! ## The property and the condition -/

/-- The number of connection activities. -/
def activity (c : TcpClient) : Nat :=
  c.connects.length + ((if c.timerWait.isSome then 1 else 0) + c.timerQueue) + c.loops.length

/-- While auto-reconnect is on, there is at most one connection activity, and no attempt was made on
a connected socket. -/
def OneActivity (c : TcpClient) : Prop :=
  c.autoReconnect = true → activity c ≤ 1 ∧ ∀ up ∈ c.attempts, up = false

instance (c : TcpClient) : Decidable (OneActivity c) :=
  inferInstanceAs (Decidable (c.autoReconnect = true →
    activity c ≤ 1 ∧ ∀ up ∈ c.attempts, up = false))

/-- The completion of an `async_write` with an error. -/
def Event.isWriteFail : Event → Bool
  | .writeFail _ _ => true
  | _ => false

/-- No write fails while auto-reconnect is on. -/
def NoWriteFails (c : TcpClient) (e : Event) : Prop :=
  c.autoReconnect = true → e.isWriteFail = false

instance (c : TcpClient) (e : Event) : Decidable (NoWriteFails c e) :=
  inferInstanceAs (Decidable (c.autoReconnect = true → e.isWriteFail = false))

/-! ## The invariant -/

/-- The one activity of a client, and that the socket is connected only with a loop on it or with
the handler of its connect queued. -/
inductive Sole (c : TcpClient) : Prop
  | reading (l : ReadLoop) (hloops : c.loops = [l]) (hconnects : c.connects = [])
      (hwait : c.timerWait = none) (hqueue : c.timerQueue = 0)
  | connecting (op : ConnectOp) (hloops : c.loops = []) (hconnects : c.connects = [op])
      (hwait : c.timerWait = none) (hqueue : c.timerQueue = 0)
      (hup : c.session.socket.up = true → op.result = some true)
  | waiting (hloops : c.loops = []) (hconnects : c.connects = [])
      (htimer : c.timerWait.isSome ∧ c.timerQueue = 0 ∨ c.timerWait = none ∧ c.timerQueue = 1)
      (hup : c.session.socket.up = false)

/-- **The invariant**: while auto-reconnect is on, there is exactly one activity and no attempt was
made on a connected socket. -/
def Steady (c : TcpClient) : Prop :=
  c.autoReconnect = true → Sole c ∧ ∀ up ∈ c.attempts, up = false

namespace Steady

variable {c c' : TcpClient} {i : Nat} {what : Bytes}

theorem init : Steady connectedClient := fun _ =>
  ⟨.reading _ rfl rfl rfl rfl, by decide⟩

theorem activity_eq (h : Sole c) : activity c = 1 := by
  cases h with
  | reading l hl hc hw hq => simp [activity, hl, hc, hw, hq]
  | connecting op hl hc hw hq hup => simp [activity, hl, hc, hw, hq]
  | waiting hl hc ht hup =>
      rcases ht with ⟨hw, hq⟩ | ⟨hw, hq⟩ <;> simp [activity, hl, hc, hw, hq]

theorem oneActivity (h : Steady c) : OneActivity c := by
  intro hauto
  obtain ⟨hsole, hattempts⟩ := h hauto
  exact ⟨(activity_eq hsole).le, hattempts⟩

/-! ## Step lemmas -/

/-- A step that leaves the client's own members and the socket alone keeps the invariant. -/
theorem of_session (h : Steady c) {s : TcpSession} (hs : s.socket = c.session.socket) :
    Steady { c with session := s } := by
  intro hauto
  obtain ⟨hsole, hattempts⟩ := h hauto
  refine ⟨?_, hattempts⟩
  cases hsole with
  | reading l hl hc hw hq => exact .reading l hl hc hw hq
  | connecting op hl hc hw hq hup => exact .connecting op hl hc hw hq fun hs' => hup (hs ▸ hs')
  | waiting hl hc ht hup => exact .waiting hl hc ht (hs ▸ hup)

/-- Replacing the outstanding read of the loop by the next one keeps the invariant. -/
theorem set_loop (h : Steady c) {l l' : ReadLoop} (hi : c.loops[i]? = some l) :
    Steady { c with loops := c.loops.set i l' } := by
  intro hauto
  obtain ⟨hsole, hattempts⟩ := h hauto
  refine ⟨?_, hattempts⟩
  cases hsole with
  | reading l₀ hl hc hw hq =>
      rw [hl] at hi
      obtain ⟨hlt, _⟩ := List.getElem?_eq_some_iff.mp hi
      obtain rfl : i = 0 := by simpa using hlt
      exact .reading l' (by simp [hl]) hc hw hq
  | connecting op hl hc hw hq hup => simp [hl] at hi
  | waiting hl hc ht hup => simp [hl] at hi

/-- The end of the one loop: its error handler closes the socket and starts a connect. -/
theorem readFail (h : Steady c) (hs : c.readFail i what = some c') : Steady c' := by
  obtain ⟨l, hi, _, rfl⟩ := bind_guard_eq_some.mp hs
  intro hauto
  have hauto' : c.autoReconnect = true := by
    simp only [TcpClient.handleNetError, TcpClient.afterNetError] at hauto
    split at hauto <;> exact hauto
  obtain ⟨hsole, hattempts⟩ := h hauto'
  cases hsole with
  | reading l₀ hl hc hw hq =>
      rw [hl] at hi
      obtain ⟨hlt, _⟩ := List.getElem?_eq_some_iff.mp hi
      obtain rfl : i = 0 := by simpa using hlt
      simp only [TcpClient.handleNetError, TcpClient.afterNetError, hauto', if_true,
        TcpClient.asyncConnect, TcpSession.handleNetError, Socket.close]
      refine ⟨.connecting _ (by simp [hl]) (by simp [hc]; rfl) hw hq (by simp), ?_⟩
      intro up hup
      rcases List.mem_append.mp hup with hup | hup
      · exact hattempts up hup
      · exact List.mem_singleton.mp hup
  | connecting op hl hc hw hq hup => simp [hl] at hi
  | waiting hl hc ht hup => simp [hl] at hi

/-- The one connect, at index 0. -/
theorem connect_cases (h : Sole c) {op : ConnectOp} (hi : c.connects[i]? = some op) :
    i = 0 ∧ c.loops = [] ∧ c.connects = [op] ∧ c.timerWait = none ∧ c.timerQueue = 0 ∧
      (c.session.socket.up = true → op.result = some true) := by
  cases h with
  | connecting op' hl hc hw hq hup =>
      rw [hc] at hi
      obtain ⟨hlt, hget⟩ := List.getElem?_eq_some_iff.mp hi
      obtain rfl : i = 0 := by simpa using hlt
      obtain rfl := hget
      exact ⟨rfl, hl, hc, hw, hq, hup⟩
  | reading l hl hc hw hq => simp [hc] at hi
  | waiting hl hc ht hup => simp [hc] at hi

theorem connectOk (h : Steady c) (hs : c.connectOk i = some c') : Steady c' := by
  obtain ⟨op, hi, _, rfl⟩ := bind_guard_eq_some.mp hs
  intro hauto
  obtain ⟨hsole, hattempts⟩ := h hauto
  obtain ⟨rfl, hl, hc, hw, hq, _⟩ := connect_cases hsole hi
  exact ⟨.connecting { op with result := some true } hl (by simp [hc]) hw hq fun _ => rfl, hattempts⟩

theorem connectFail (h : Steady c) (hs : c.connectFail i = some c') : Steady c' := by
  obtain ⟨op, hi, hnone, rfl⟩ := bind_guard_eq_some.mp hs
  intro hauto
  obtain ⟨hsole, hattempts⟩ := h hauto
  obtain ⟨rfl, hl, hc, hw, hq, hup⟩ := connect_cases hsole hi
  refine ⟨.connecting { op with result := some false } hl (by simp [hc]) hw hq ?_, hattempts⟩
  intro hup'
  exact absurd (hup hup') (by simp [hnone])

/-- The end of the one connect: a loop starts, or the timer is armed. -/
theorem connectHandler (h : Steady c) (hs : c.connectHandler i = some c') : Steady c' := by
  obtain ⟨op, hi, hs⟩ := Option.bind_eq_some_iff.mp hs
  obtain ⟨ok, hok, rfl⟩ := Option.map_eq_some_iff.mp hs
  cases ok with
  | true =>
      intro hauto
      obtain ⟨hsole, hattempts⟩ := h hauto
      obtain ⟨rfl, hl, hc, hw, hq, _⟩ := connect_cases hsole hi
      exact ⟨.reading _ (by simp [TcpClient.startSession, hl]; rfl)
        (by simp [TcpClient.startSession, hc]) hw hq, hattempts⟩
  | false =>
      intro hauto
      obtain ⟨hsole, hattempts⟩ := h hauto
      obtain ⟨rfl, hl, hc, hw, hq, hup⟩ := connect_cases hsole hi
      refine ⟨.waiting hl (by simp [TcpClient.armTimer, hc])
        (Or.inl (by simp [TcpClient.armTimer, hw, hq])) ?_, hattempts⟩
      show c.session.socket.up = false
      -- a connected socket would have made the connect succeed
      by_contra hne
      have htrue := hup (by simpa using hne)
      simp [hok] at htrue

theorem timerExpire (h : Steady c) (hs : c.timerExpire = some c') : Steady c' := by
  obtain ⟨d, hd, rfl⟩ := Option.map_eq_some_iff.mp hs
  intro hauto
  obtain ⟨hsole, hattempts⟩ := h hauto
  refine ⟨?_, hattempts⟩
  cases hsole with
  | reading l hl hc hw hq => simp [hw] at hd
  | connecting op hl hc hw hq hup => simp [hw] at hd
  | waiting hl hc ht hup =>
      rcases ht with ⟨_, hq⟩ | ⟨hw, _⟩
      · exact .waiting hl hc (Or.inr ⟨rfl, by simp [hq]⟩) hup
      · simp [hw] at hd

/-- The timer's handler runs while nothing else goes on: the socket is not connected. -/
theorem timerHandler (h : Steady c) (hs : c.timerHandler = some c') : Steady c' := by
  unfold TcpClient.timerHandler at hs
  split at hs
  · next hpos =>
      obtain rfl := Option.some.inj hs
      intro hauto
      obtain ⟨hsole, hattempts⟩ := h hauto
      cases hsole with
      | reading l hl hc hw hq => omega
      | connecting op hl hc hw hq hup => omega
      | waiting hl hc ht hup =>
          rcases ht with ⟨_, hq⟩ | ⟨hw, hq⟩
          · omega
          · refine ⟨.connecting _ hl (by simp [TcpClient.asyncConnect, hc]; rfl) hw
              (by simp [TcpClient.asyncConnect, hq]) ?_, ?_⟩
            · simp [TcpClient.asyncConnect, hup]
            · intro up hmem
              rcases List.mem_append.mp hmem with hmem | hmem
              · exact hattempts up hmem
              · rw [List.mem_singleton.mp hmem]
                exact hup
  · exact absurd hs (by simp)

/-- **Every event but a failed write hands the one activity on.** -/
theorem step {e : Event} (h : Steady c) (hC : NoWriteFails c e) (hs : Client.step c e = some c') :
    Steady c' := by
  cases e with
  | session e =>
      simp only [Client.step] at hs
      split at hs
      · next he =>
          obtain ⟨s, hstep, rfl⟩ := Option.map_eq_some_iff.mp hs
          exact h.of_session (Session.socket_step he hstep)
      · exact absurd hs (by simp)
  | readDone i =>
      obtain ⟨l, hi, _, rfl⟩ := bind_guard_eq_some.mp hs
      exact h.set_loop hi
  | readHead i bodyLen =>
      obtain ⟨l, hi, _, rfl⟩ := bind_guard_eq_some.mp hs
      exact h.set_loop hi
  | readBody i ref msg =>
      obtain ⟨l, hi, _, rfl⟩ := bind_guard_eq_some.mp hs
      refine of_session (h.set_loop hi) ?_
      cases msg with
      | none => rfl
      | some msg => exact (c.session.inbound_frame ref msg).1
  | readFail i what => exact h.readFail hs
  | writeFail i what =>
      intro hauto
      obtain ⟨s, _, rfl⟩ := Option.map_eq_some_iff.mp hs
      have hauto' : c.autoReconnect = true := by
        simp only [TcpClient.afterNetError] at hauto
        split at hauto <;> exact hauto
      exact absurd (hC hauto') (by simp [Event.isWriteFail])
  | connectOk i => exact h.connectOk hs
  | connectFail i => exact h.connectFail hs
  | connectHandler i => exact h.connectHandler hs
  | timerExpire => exact h.timerExpire hs
  | timerHandler => exact h.timerHandler hs
  | stop =>
      obtain rfl := Option.some.inj hs
      intro hauto
      simp [TcpClient.stop] at hauto

/-- A failed write starts a second activity. -/
theorem noWriteFails {e : Event} (h : Steady c) (hs : Client.step c e = some c')
    (hone : OneActivity c') : NoWriteFails c e := by
  intro hauto
  cases e with
  | writeFail i what =>
      obtain ⟨s, _, rfl⟩ := Option.map_eq_some_iff.mp hs
      have hle := (hone (by simp [TcpClient.afterNetError, hauto, TcpClient.asyncConnect])).1
      have heq := activity_eq (h hauto).1
      simp only [activity] at heq
      simp only [activity, TcpClient.afterNetError, hauto, if_true, TcpClient.asyncConnect,
        List.length_append, List.length_singleton] at hle
      omega
  | _ => rfl

end Steady

/-! ## When there is one activity -/

/-- **One connection activity at a time, exactly.** In every run of a client, there is at most one
activity in each state visited while auto-reconnect is on, and no attempt on a connected socket, if
and only if no write fails in it while auto-reconnect is on. -/
theorem one_activity_iff (es : List Event) {c : TcpClient} (h : run step connectedClient es = some c) :
    EveryState step OneActivity connectedClient es ↔
      EveryStep step NoWriteFails connectedClient es :=
  everyState_iff_everyStep (I := Steady) Steady.init (fun _ ht => ht.oneActivity)
    (fun _ _ _ ht hC hs => ht.step hC hs) (fun _ _ _ ht hs hP => ht.noWriteFails hs hP) h

/-- A loss noticed by the read, a connect that fails, the timer, and a connect that succeeds. -/
theorem one_activity_iff_readError :
    ∃ c, run step connectedClient [.readFail 0 [], .connectFail 0, .connectHandler 0, .timerExpire,
        .timerHandler, .connectOk 0, .connectHandler 0] = some c ∧ activity c = 1 ∧
      EveryState step OneActivity connectedClient [.readFail 0 [], .connectFail 0,
        .connectHandler 0, .timerExpire, .timerHandler, .connectOk 0, .connectHandler 0] :=
  ⟨_, rfl, rfl, (one_activity_iff [.readFail 0 [], .connectFail 0, .connectHandler 0, .timerExpire,
    .timerHandler, .connectOk 0, .connectHandler 0] rfl).mpr (by decide)⟩

/-- **A loss noticed by a write and by the read** starts two connects, since the hook runs twice. The
first one is aborted when the second error closes the socket again; its timer then makes an attempt
on the socket that the second one has connected. -/
theorem two_activities :
    (∃ c, run step connectedClient [.session (.request {}), .session .runPost, .writeFail 0 [],
        .readFail 0 []] = some c ∧ activity c = 2 ∧ ¬ OneActivity c) ∧
    (∃ c, run step connectedClient [.session (.request {}), .session .runPost, .writeFail 0 [],
        .readFail 0 [], .connectFail 0, .connectHandler 0, .connectOk 0, .connectHandler 0,
        .timerExpire, .timerHandler] = some c ∧ true ∈ c.attempts) := by
  refine ⟨⟨_, rfl, by decide, by decide⟩, ⟨_, rfl, by decide⟩⟩

end AdManager.Client
