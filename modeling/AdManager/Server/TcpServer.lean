/-
# AdManager.Server.TcpServer — the acceptor and the pool of sessions.

Translated from `TcpServer.cpp`, over `AdManager.Session.TcpSession`. One `async_accept` is outstanding at
a time, with a new session each; its handler sets the session up, puts it in the pool and accepts again. A
session is to leave the pool through its hook `_afterNetError`, a closure that clears itself and the
request handler and erases the session; `handleNetError` runs it, and can run twice for one session, once
for its read and once for its write.

The handlers run on the network thread, one at a time; `stop` runs on the main thread. `_mutex` makes the
insert with the start of the session one atomic section, and the erase and the clear another, so a `stop`
can fall between the insert and the next accept (`rearming`).

The captures of a closure live in the member that holds it, so the closure's first statement, which clears
that member, destroys what the next ones read. Such a read is a `fault`; nothing is known of a server
after one, and it takes no further step.

What `_requestHandler` does with a request is a parameter. The `history` of a session records what
happened to it and is read by no handler.
-/
import AdManager.Client.TcpClient
import Mathlib.Data.Finset.Basic
import Mathlib.Logic.Function.Basic

namespace AdManager.Server

open AdManager.Wire AdManager.Lib AdManager.Session

/-! ## Data -/

/-- What happens to a session, as far as its server is concerned: it is accepted, a network error is
reported, it is erased from the pool, its request handler is invoked. -/
inductive Notice where
  | accepted
  | netError
  | removed
  | invoked
  deriving DecidableEq, Repr

/-- A session of the server, with its receive loop. `afterNetError` and `requestHandler` say whether the
two members of that name are set. -/
structure ServerSession where
  session : TcpSession := {}
  loop : Option Client.ReadLoop := none
  afterNetError : Bool := false
  requestHandler : Bool := false
  history : List Notice := []
  deriving DecidableEq, Repr

/-- Where the accept chain is: not started, an `async_accept` outstanding, its handler queued, or its
handler between the insert and the next accept. -/
inductive AcceptStage where
  | notStarted
  | outstanding (i : Nat)
  | completed (i : Nat) (ok : Bool)
  | rearming
  deriving DecidableEq, Repr

/-- What a server must not do: the closure of a session reads its captures after it has destroyed them. -/
inductive ServerFault where
  | destroyedCaptures (i : Nat)
  deriving DecidableEq, Repr

/-- How far `stop` has come. -/
inductive StopStage where
  | running
  | acceptorClosed
  | stopped
  deriving DecidableEq, Repr

/-- `TcpServer`. A session is named by its number; those from `nextSession` on do not exist yet. -/
structure TcpServer where
  sessions : Nat → ServerSession := fun _ => {}
  nextSession : Nat := 0
  pool : Finset Nat := ∅
  accept : AcceptStage := .notStarted
  stopStage : StopStage := .running
  fault : Option ServerFault := none

namespace TcpServer

variable (s : TcpServer)

/-! ## Accepting -/

/-- `doAccept`. -/
def doAccept : TcpServer :=
  { s with accept := .outstanding s.nextSession, nextSession := s.nextSession + 1 }

/-- `start`. -/
def start : Option TcpServer := if s.accept = .notStarted then some s.doAccept else none

def setSession (i : Nat) (t : ServerSession) : TcpServer :=
  { s with sessions := Function.update s.sessions i t }

/-- The operating system has accepted a connection. -/
def acceptOk : Option TcpServer :=
  match s.accept with
  | .outstanding i =>
      if s.stopStage = .running then
        let t := s.sessions i
        some ({ s with accept := .completed i true }.setSession i
          { t with session := t.session.connected })
      else none
  | _ => none

/-- The `async_accept` fails. -/
def acceptFail : Option TcpServer :=
  match s.accept with
  | .outstanding i => some { s with accept := .completed i false }
  | _ => none

/-- `startSession`, for a session whose request handler has just been set. -/
def startSession (i : Nat) : TcpServer :=
  let t := s.sessions i
  let session := t.session.startSession
  { s with pool := insert i s.pool }.setSession i
    { t with
      session := session
      loop := some { kind := .head, done := false, socket := session.socket }
      afterNetError := true
      requestHandler := true
      history := t.history ++ [Notice.accepted] }

/-- The handler of the `async_accept`, up to its call of `doAccept`. -/
def acceptHandler : Option TcpServer :=
  match s.accept with
  | .completed i true => some { s.startSession i with accept := .rearming }
  -- an error is only logged
  | .completed _ false => some { s with accept := .rearming }
  | _ => none

/-- The end of that handler. -/
def rearm : Option TcpServer := if s.accept = .rearming then some s.doAccept else none

/-! ## Network errors -/

/-- The closure `_afterNetError` of session `i` behind its first statement. It reads its captures `session`
and `this`, which live in the member `_afterNetError`. -/
def eraseSession (i : Nat) (t : ServerSession) : TcpServer :=
  if t.afterNetError then
    { s with pool := s.pool.erase i }.setSession i
      { t with
        requestHandler := false
        history := t.history ++ if i ∈ s.pool then [Notice.removed] else [] }
  else { s with fault := some (.destroyedCaptures i) }.setSession i t

/-- The end of `handleNetError` for session `i`, which it leaves as `t`: the hook, if it is set. -/
def afterNetError (i : Nat) (t : ServerSession) : TcpServer :=
  let t := { t with history := t.history ++ [Notice.netError] }
  if t.afterNetError then
    -- the first statement of the closure: `session->_afterNetError = NULL`
    s.eraseSession i { t with afterNetError := false }
  else s.setSession i t

/-- The outstanding read of session `i` has failed. -/
def readFail (i : Nat) (what : Bytes) : Option TcpServer :=
  let t := s.sessions i
  t.loop.bind fun l =>
    if l.done = false then
      some (s.afterNetError i { t with session := t.session.handleNetError what, loop := none })
    else none

/-- The `j`-th outstanding write of session `i` has failed. -/
def writeFail (i j : Nat) (what : Bytes) : Option TcpServer :=
  let t := s.sessions i
  (t.session.writeFail j what).map fun session => s.afterNetError i { t with session := session }

/-! ## Reading and writing -/

/-- An event of the session itself. -/
def io (i : Nat) (e : Session.Event) : Option TcpServer :=
  let t := s.sessions i
  (Session.step t.session e).map fun session => s.setSession i { t with session := session }

/-- The outstanding read of session `i` has its bytes. -/
def readDone (i : Nat) : Option TcpServer :=
  let t := s.sessions i
  t.loop.bind fun l =>
    if l.done = false ∧ (l.kind.size = 0 ∨ l.socket = t.session.socket ∧ t.session.socket.up) then
      some (s.setSession i { t with loop := some { l with done := true } })
    else none

/-- The handler of `readHead`, which has read the length `bodyLen`. -/
def readHead (i bodyLen : Nat) : Option TcpServer :=
  let t := s.sessions i
  t.loop.bind fun l =>
    if l.kind = .head ∧ l.done = true then
      some (s.setSession i { t with
        loop := some { kind := .body bodyLen, done := false, socket := t.session.socket } })
    else none

/-- What the handler of `readBody` does with the parsed inbound message number `ref`, if the body has
parsed: the request handler is invoked for a request, if it is set. -/
def dispatch (handler : TcpSession → Nat → Message → Option TcpSession) (t : ServerSession) (ref : Nat)
    (msg : Option Message) : Option ServerSession :=
  match msg with
  -- a body that does not parse is only logged
  | none => some t
  | some msg =>
      let out := t.session.inbound ref msg
      match out.2 with
      | none => some { t with session := out.1 }
      | some req =>
          if t.requestHandler then
            (handler out.1 ref req).map fun session =>
              { t with session := session, history := t.history ++ [Notice.invoked] }
          else some { t with session := out.1 }

/-- The handler of `readBody`, up to the next read. -/
def readBody (handler : TcpSession → Nat → Message → Option TcpSession) (i ref : Nat)
    (msg : Option Message) : Option TcpServer :=
  let t := s.sessions i
  t.loop.bind fun l =>
    if l.kind ≠ .head ∧ l.done = true then
      (dispatch handler t ref msg).map fun t =>
        s.setSession i { t with
          loop := some { kind := .head, done := false, socket := t.session.socket } }
    else none

/-! ## Stopping -/

/-- `stop`, its first statement. -/
def closeAcceptor : Option TcpServer :=
  if s.stopStage = .running then some { s with stopStage := .acceptorClosed } else none

/-- `stop`, the rest: the sessions of the pool are stopped, and the pool is cleared. -/
def clearPool : Option TcpServer :=
  if s.stopStage = .acceptorClosed then
    some { s with
      stopStage := .stopped
      pool := ∅
      sessions := fun i =>
        if i ∈ s.pool then
          { s.sessions i with session := (s.sessions i).session.stopSession }
        else s.sessions i }
  else none

/-! ## Events -/

/-- What can happen to a server. -/
inductive Event where
  | start
  | acceptOk
  | acceptFail
  | acceptHandler
  | rearm
  | readDone (i : Nat)
  | readHead (i bodyLen : Nat)
  | readBody (i ref : Nat) (msg : Option Message)
  | readFail (i : Nat) (what : Bytes)
  | writeFail (i j : Nat) (what : Bytes)
  | runPost (i : Nat)
  | writeSome (i j n : Nat)
  | writeDone (i j : Nat)
  | closeAcceptor
  | clearPool
  deriving DecidableEq, Repr

/-- The session that an event is about. -/
def Event.session? : Event → Option Nat
  | .readDone i => some i
  | .readHead i _ => some i
  | .readBody i _ _ => some i
  | .readFail i _ => some i
  | .writeFail i _ _ => some i
  | .runPost i => some i
  | .writeSome i _ _ => some i
  | .writeDone i _ => some i
  | _ => none

/-- The session whose network error an event reports. -/
def Event.reportsError? : Event → Option Nat
  | .readFail i _ => some i
  | .writeFail i _ _ => some i
  | _ => none

/-- The events that run a handler on the network thread. -/
def Event.runsHandler : Event → Bool
  | .acceptHandler => true
  | .readHead _ _ => true
  | .readBody _ _ _ => true
  | .readFail _ _ => true
  | .writeFail _ _ _ => true
  | .runPost _ => true
  | .writeDone _ _ => true
  | _ => false

variable (handler : TcpSession → Nat → Message → Option TcpSession)

/-- One event, when the network thread is free for it. -/
def react : Event → Option TcpServer
  | .start => s.start
  | .acceptOk => s.acceptOk
  | .acceptFail => s.acceptFail
  | .acceptHandler => s.acceptHandler
  | .rearm => s.rearm
  | .readDone i => s.readDone i
  | .readHead i bodyLen => s.readHead i bodyLen
  | .readBody i ref msg => s.readBody handler i ref msg
  | .readFail i what => s.readFail i what
  | .writeFail i j what => s.writeFail i j what
  | .runPost i => s.io i .runPost
  | .writeSome i j n => s.io i (.writeSome j n)
  | .writeDone i j => s.io i (.writeDone j)
  | .closeAcceptor => s.closeAcceptor
  | .clearPool => s.clearPool

/-- One event. While the accept handler runs, no other handler does; after a fault there is none. -/
def step (s : TcpServer) (e : Event) : Option TcpServer :=
  if s.fault ≠ none ∨ (s.accept = .rearming ∧ e.runsHandler) then none else s.react handler e

end TcpServer

/-! ## The property -/

namespace TcpServer

/-- **The pool is exact**, and no fault has happened: it holds the sessions that were accepted and have no
reported error; a session with one was erased once, at the first one, and its request handler was not
invoked afterwards; a session without one was not erased. -/
structure PoolExact (s : TcpServer) : Prop where
  sound : s.fault = none
  pool : ∀ i, i ∈ s.pool ↔ .accepted ∈ (s.sessions i).history ∧ .netError ∉ (s.sessions i).history
  removed : ∀ i, .netError ∈ (s.sessions i).history → ∃ before after,
    (s.sessions i).history = before ++ [.netError, .removed] ++ after ∧ .netError ∉ before ∧
      .removed ∉ before ∧ .removed ∉ after ∧ .invoked ∉ after
  kept : ∀ i, .netError ∉ (s.sessions i).history → .removed ∉ (s.sessions i).history

/-- The event reports no network error on a session whose hook is set. -/
def NoHookedError (s : TcpServer) (e : Event) : Prop :=
  ∀ i ∈ e.reportsError?, (s.sessions i).afterNetError = false

instance (s : TcpServer) (e : Event) : Decidable (NoHookedError s e) :=
  inferInstanceAs (Decidable (∀ i ∈ e.reportsError?, (s.sessions i).afterNetError = false))

end TcpServer

/-! ## The life of a session -/

/-- **Where a session is in its life**, and whether it is in the pool: not accepted, and then nothing has
happened to it; or serving, with the two members set. The reported error that is to end its service is a
fault. -/
inductive Life (inPool : Prop) (t : ServerSession) : Prop
  | waiting (hhistory : t.history = []) (hpool : ¬ inPool) (hposts : t.session.posts = [])
      (hwrites : t.session.writes = []) (hloop : t.loop = none)
  | serving (n : Nat) (hhistory : t.history = .accepted :: List.replicate n .invoked) (hpool : inPool)
      (hhook : t.afterNetError = true)

namespace Life

variable {inPool : Prop} {t t' : ServerSession}

/-- A session with something outstanding has been accepted. -/
theorem history_ne_nil (h : Life inPool t) (hstarted : t.loop.isSome = true ∨ t.session.posts ≠ [] ∨
    t.session.writes ≠ []) : t.history ≠ [] := by
  cases h with
  | waiting _ _ hposts hwrites hloop =>
      rcases hstarted with hsome | hne | hne
      · rw [hloop] at hsome
        exact absurd hsome (by simp)
      · exact absurd hposts hne
      · exact absurd hwrites hne
  | serving n hhistory _ _ => simp [hhistory]

/-- An accepted session has its hook. -/
theorem hooked (h : Life inPool t) (hne : t.history ≠ []) : t.afterNetError = true := by
  cases h with
  | waiting hnil _ _ _ _ => exact absurd hnil hne
  | serving n _ _ hhook => exact hhook

/-- An accepted session moves on with its reads and writes, and with the invocations of its handler. -/
theorem of_more (h : Life inPool t) (hne : t.history ≠ []) (k : Nat)
    (hhistory : t'.history = t.history ++ List.replicate k .invoked)
    (hhook : t'.afterNetError = t.afterNetError) : Life inPool t' := by
  cases h with
  | waiting hnil _ _ _ _ => exact absurd hnil hne
  | serving n hh hpool hk =>
      refine .serving (n + k) ?_ hpool (hhook.trans hk)
      rw [hhistory, hh, List.cons_append, List.replicate_append_replicate]

theorem of_same (h : Life inPool t) (hne : t.history ≠ []) (hhistory : t'.history = t.history)
    (hhook : t'.afterNetError = t.afterNetError) : Life inPool t' :=
  h.of_more hne 0 (by rw [hhistory, List.replicate_zero, List.append_nil]) hhook

/-- A session that is not accepted yet. -/
theorem of_nil (h : Life inPool t) (hnil : t.history = []) : ¬ inPool ∧ t.session.posts = [] ∧
    t.session.writes = [] ∧ t.loop = none := by
  cases h with
  | waiting _ hpool hposts hwrites hloop => exact ⟨hpool, hposts, hwrites, hloop⟩
  | serving n hh _ _ => exact absurd (hh.symm.trans hnil) (by simp)

end Life

namespace TcpServer

/-- **The invariant of the runs before `stop` in which no hook runs**: every session has a place in its
life; the one that is being accepted, and those to come, are still to be accepted. -/
structure Ordered (s : TcpServer) : Prop where
  life : ∀ i, Life (i ∈ s.pool) (s.sessions i)
  accepting : ∀ i ok, (s.accept = .outstanding i ∨ s.accept = .completed i ok) →
    (s.sessions i).history = [] ∧ i < s.nextSession
  coming : ∀ i, s.nextSession ≤ i → (s.sessions i).history = []
  running : s.stopStage = .running
  sound : s.fault = none

namespace Ordered

variable {s s' : TcpServer} {handler : TcpSession → Nat → Message → Option TcpSession}

/-- One session is replaced, and the pool keeps the others. -/
theorem life_update (h : s.Ordered) {i : Nat} {t : ServerSession} {pool : Finset Nat}
    (hlife : Life (i ∈ pool) t) (hpool : ∀ j, j ≠ i → (j ∈ pool ↔ j ∈ s.pool)) (j : Nat) :
    Life (j ∈ pool) (Function.update s.sessions i t j) := by
  by_cases hj : j = i
  · subst hj
    rw [Function.update_self]
    exact hlife
  · rw [Function.update_of_ne hj, hpool j hj]
    exact h.life j

/-- An event of one session keeps the order, if it keeps the session in its life. -/
theorem update (h : s.Ordered) {i : Nat} {t : ServerSession} {pool : Finset Nat}
    (hlife : Life (i ∈ pool) t) (hpool : ∀ j, j ≠ i → (j ∈ pool ↔ j ∈ s.pool))
    (hne : (s.sessions i).history ≠ []) : ({ s with pool := pool }.setSession i t).Ordered where
  life := h.life_update hlife hpool
  accepting := by
    intro j ok haccept
    obtain ⟨hnil, hlt⟩ := h.accepting j ok haccept
    have hj : j ≠ i := by
      rintro rfl
      exact hne hnil
    simp only [setSession, Function.update_of_ne hj]
    exact ⟨hnil, hlt⟩
  coming := by
    intro j hle
    have hnil := h.coming j hle
    have hj : j ≠ i := by
      rintro rfl
      exact hne hnil
    simp only [setSession, Function.update_of_ne hj]
    exact hnil
  running := h.running
  sound := h.sound

/-- An event of one session that leaves the pool alone. -/
theorem setSession (h : s.Ordered) {i : Nat} {t : ServerSession} (hlife : Life (i ∈ s.pool) t)
    (hne : (s.sessions i).history ≠ []) : (s.setSession i t).Ordered :=
  h.update hlife (fun _ _ => Iff.rfl) hne

/-- **A reported error finds the hook set**: only a session that has been accepted reads or writes. -/
theorem reported (h : s.Ordered) {i : Nat} (hstarted : (s.sessions i).loop.isSome = true ∨
    (s.sessions i).session.posts ≠ [] ∨ (s.sessions i).session.writes ≠ []) :
    (s.sessions i).afterNetError = true :=
  (h.life i).hooked ((h.life i).history_ne_nil hstarted)

/-- The session goes on by itself. -/
theorem io (h : s.Ordered) {i : Nat} {e : Session.Event} (hs : s.io i e = some s')
    (hstarted : ∀ t, Session.step (s.sessions i).session e = some t →
      (s.sessions i).session.posts ≠ [] ∨ (s.sessions i).session.writes ≠ []) : s'.Ordered := by
  obtain ⟨session, hsession, rfl⟩ := Option.map_eq_some_iff.mp hs
  have hne := (h.life i).history_ne_nil (Or.inr (hstarted session hsession))
  exact h.setSession ((h.life i).of_same hne rfl rfl) hne

theorem readDone (h : s.Ordered) {i : Nat} (hs : s.readDone i = some s') : s'.Ordered := by
  obtain ⟨l, hl, _, rfl⟩ := Client.bind_guard_eq_some.mp hs
  have hne := (h.life i).history_ne_nil (Or.inl (by rw [hl]; rfl))
  exact h.setSession ((h.life i).of_same hne rfl rfl) hne

theorem readHead (h : s.Ordered) {i bodyLen : Nat} (hs : s.readHead i bodyLen = some s') :
    s'.Ordered := by
  obtain ⟨l, hl, _, rfl⟩ := Client.bind_guard_eq_some.mp hs
  have hne := (h.life i).history_ne_nil (Or.inl (by rw [hl]; rfl))
  exact h.setSession ((h.life i).of_same hne rfl rfl) hne

/-- A dispatched message invokes the request handler, if it is set, or nothing. -/
theorem dispatch_cases {t t' : ServerSession} {ref : Nat} {msg : Option Message}
    (hs : dispatch handler t ref msg = some t') :
    (∃ k, t'.history = t.history ++ List.replicate k .invoked) ∧ t'.afterNetError = t.afterNetError := by
  unfold dispatch at hs
  split at hs
  · obtain rfl := Option.some.inj hs
    exact ⟨⟨0, by simp⟩, rfl⟩
  · simp only at hs
    split at hs
    · obtain rfl := Option.some.inj hs
      exact ⟨⟨0, by simp⟩, rfl⟩
    · split at hs
      · obtain ⟨session, _, rfl⟩ := Option.map_eq_some_iff.mp hs
        exact ⟨⟨1, rfl⟩, rfl⟩
      · obtain rfl := Option.some.inj hs
        exact ⟨⟨0, by simp⟩, rfl⟩

theorem readBody (h : s.Ordered) {i ref : Nat} {msg : Option Message}
    (hs : s.readBody handler i ref msg = some s') : s'.Ordered := by
  obtain ⟨l, hl, hs⟩ := Option.bind_eq_some_iff.mp hs
  have hne := (h.life i).history_ne_nil (Or.inl (by rw [hl]; rfl))
  split at hs
  · obtain ⟨t, ht, rfl⟩ := Option.map_eq_some_iff.mp hs
    obtain ⟨⟨k, hhistory⟩, hhook⟩ := dispatch_cases ht
    exact h.setSession ((h.life i).of_more hne k hhistory hhook) hne
  · exact absurd hs (by simp)

/-- The next session is to be accepted. -/
theorem doAccept (h : s.Ordered) : s.doAccept.Ordered where
  life := h.life
  accepting := by
    intro i ok haccept
    have hi : s.nextSession = i := by
      rcases haccept with haccept | haccept
      · exact AcceptStage.outstanding.inj haccept
      · exact absurd haccept (by simp [TcpServer.doAccept])
    subst hi
    exact ⟨h.coming _ (Nat.le_refl _), Nat.lt_succ_self _⟩
  coming := fun i hle => h.coming i (Nat.le_of_succ_le hle)
  running := h.running
  sound := h.sound

/-- The session that is being accepted moves on, and the accept chain with it. -/
theorem accepted (h : s.Ordered) {i : Nat} {t : ServerSession} {pool : Finset Nat}
    {accept : AcceptStage} (hlt : i < s.nextSession) (hlife : Life (i ∈ pool) t)
    (hpool : ∀ j, j ≠ i → (j ∈ pool ↔ j ∈ s.pool))
    (haccept : ∀ j ok, (accept = .outstanding j ∨ accept = .completed j ok) →
      j = i ∧ t.history = []) :
    ({ s with pool := pool, accept := accept }.setSession i t).Ordered where
  life := h.life_update hlife hpool
  accepting := by
    intro j ok hj
    obtain ⟨rfl, hnil⟩ := haccept j ok hj
    simp only [TcpServer.setSession, Function.update_self]
    exact ⟨hnil, hlt⟩
  coming := by
    intro j hle
    have hj : j ≠ i := by
      rintro rfl
      exact absurd hlt (Nat.not_lt.mpr hle)
    simp only [TcpServer.setSession, Function.update_of_ne hj]
    exact h.coming j hle
  running := h.running
  sound := h.sound

/-- A connection is accepted: its session is still to be set up. -/
theorem acceptOk (h : s.Ordered) (hs : s.acceptOk = some s') : s'.Ordered := by
  unfold TcpServer.acceptOk at hs
  split at hs
  · next i haccept =>
      split at hs
      · obtain rfl := Option.some.inj hs
        obtain ⟨hnil, hlt⟩ := h.accepting i true (Or.inl haccept)
        obtain ⟨hpool, hposts, hwrites, hloop⟩ := (h.life i).of_nil hnil
        refine h.accepted hlt ?_ (fun _ _ => Iff.rfl) ?_
        · exact .waiting hnil hpool hposts hwrites hloop
        · intro j ok haccept'
          rcases haccept' with haccept' | haccept'
          · exact absurd haccept' (by simp)
          · exact ⟨(AcceptStage.completed.inj haccept').1.symm, hnil⟩
      · exact absurd hs (by simp)
  · exact absurd hs (by simp)

theorem acceptFail (h : s.Ordered) (hs : s.acceptFail = some s') : s'.Ordered := by
  unfold TcpServer.acceptFail at hs
  split at hs
  · next i haccept =>
      obtain rfl := Option.some.inj hs
      refine ⟨h.life, ?_, h.coming, h.running, h.sound⟩
      intro j ok haccept'
      have hj : j = i := by
        rcases haccept' with haccept' | haccept'
        · exact absurd haccept' (by simp)
        · exact (AcceptStage.completed.inj haccept').1.symm
      subst hj
      exact h.accepting j ok (Or.inl haccept)
  · exact absurd hs (by simp)

/-- **The accept handler** puts the session in the pool, where it starts to serve. -/
theorem acceptHandler (h : s.Ordered) (hs : s.acceptHandler = some s') : s'.Ordered := by
  -- nothing is being accepted until the handler has ended
  have hnone : ∀ j ok, ¬ (AcceptStage.rearming = .outstanding j ∨
      AcceptStage.rearming = .completed j ok) := by simp
  unfold TcpServer.acceptHandler at hs
  split at hs
  · next i haccept =>
      obtain rfl := Option.some.inj hs
      obtain ⟨hnil, hlt⟩ := h.accepting i true (Or.inr haccept)
      refine h.accepted hlt (.serving 0 ?_ (Finset.mem_insert_self i s.pool) rfl) ?_
        fun j ok haccept' => absurd haccept' (hnone j ok)
      · rw [hnil]
        rfl
      · intro j hj
        rw [Finset.mem_insert, or_iff_right hj]
  · obtain rfl := Option.some.inj hs
    exact ⟨h.life, fun j ok haccept' => absurd haccept' (hnone j ok), h.coming, h.running, h.sound⟩
  · exact absurd hs (by simp)

theorem init : Ordered {} where
  life := fun _ => .waiting rfl (Finset.notMem_empty _) rfl rfl rfl
  accepting := fun _ _ haccept => absurd haccept (by simp)
  coming := fun _ _ => rfl
  running := rfl
  sound := rfl

/-- **Every event before `stop` that runs no hook keeps the order.** -/
theorem step (h : s.Ordered) {e : Event} (he : e ≠ .closeAcceptor) (hhook : NoHookedError s e)
    (hs : TcpServer.step handler s e = some s') : s'.Ordered := by
  unfold TcpServer.step at hs
  split at hs
  · exact absurd hs (by simp)
  · cases e with
    | start =>
        simp only [react, start] at hs
        split at hs
        · obtain rfl := Option.some.inj hs
          exact h.doAccept
        · exact absurd hs (by simp)
    | rearm =>
        simp only [react, rearm] at hs
        split at hs
        · obtain rfl := Option.some.inj hs
          exact h.doAccept
        · exact absurd hs (by simp)
    | acceptOk => exact h.acceptOk hs
    | acceptFail => exact h.acceptFail hs
    | acceptHandler => exact h.acceptHandler hs
    | readDone i => exact h.readDone hs
    | readHead i bodyLen => exact h.readHead hs
    | readBody i ref msg => exact h.readBody hs
    | readFail i what =>
        obtain ⟨l, hl, _, _⟩ := Client.bind_guard_eq_some.mp hs
        have hset := h.reported (Or.inl (by rw [hl]; rfl))
        exact absurd (hset.symm.trans (hhook i rfl)) (by simp)
    | writeFail i j what =>
        obtain ⟨session, hsession, _⟩ := Option.map_eq_some_iff.mp hs
        obtain ⟨op, hop, _⟩ := TcpSession.writeFail_spec hsession
        have hset := h.reported (Or.inr (Or.inr (List.ne_nil_of_mem (List.mem_of_getElem? hop))))
        exact absurd (hset.symm.trans (hhook i rfl)) (by simp)
    | runPost i =>
        refine h.io hs ?_
        intro t ht
        obtain ⟨p, ps, hposts, _⟩ := TcpSession.runPost_spec ht
        exact Or.inl (by simp [hposts])
    | writeSome i j n =>
        refine h.io hs ?_
        intro t ht
        obtain ⟨op, hop, _⟩ := TcpSession.writeSome_spec ht
        exact Or.inr (List.ne_nil_of_mem (List.mem_of_getElem? hop))
    | writeDone i j =>
        refine h.io hs ?_
        intro t ht
        obtain ⟨op, hop, _⟩ := TcpSession.writeDone_spec ht
        exact Or.inr (List.ne_nil_of_mem (List.mem_of_getElem? hop))
    | closeAcceptor => exact absurd rfl he
    | clearPool =>
        simp only [react, clearPool] at hs
        split at hs
        · next hclosed => exact absurd (h.running.symm.trans hclosed) (by simp)
        · exact absurd hs (by simp)

/-- The order of the sessions says what the pool holds. -/
theorem poolExact (h : s.Ordered) : s.PoolExact where
  sound := h.sound
  pool := by
    intro i
    cases h.life i with
    | waiting hh hpool _ _ _ => simp [hh, hpool]
    | serving n hh hpool _ => simp [hh, hpool]
  removed := by
    intro i herror
    cases h.life i with
    | waiting hh _ _ _ _ => exact absurd herror (by simp [hh])
    | serving n hh _ _ => exact absurd herror (by simp [hh])
  kept := by
    intro i _
    cases h.life i with
    | waiting hh _ _ _ _ => simp [hh]
    | serving n hh _ _ => simp [hh]

end Ordered

/-! ## The hook -/

section Hook

variable {s s' : TcpServer} {handler : TcpSession → Nat → Message → Option TcpSession} {i : Nat}

/-- **A hook that runs reads what it has destroyed.** -/
theorem afterNetError_hooked (i : Nat) {t : ServerSession} (hhook : t.afterNetError = true) :
    (s.afterNetError i t).fault = some (.destroyedCaptures i) := by
  unfold afterNetError
  simp only [hhook, if_true]
  rfl

/-- So does every event that runs one. -/
theorem step_hooked {e : Event} (hs : step handler s e = some s') (he : ¬ NoHookedError s e) :
    s'.fault ≠ none := by
  obtain ⟨i, hi, hhook⟩ : ∃ i ∈ e.reportsError?, (s.sessions i).afterNetError = true := by
    simpa [NoHookedError] using he
  have hfault : s'.fault = some (.destroyedCaptures i) := by
    unfold step at hs
    split at hs
    · exact absurd hs (by simp)
    · cases e with
      | readFail j what =>
          obtain rfl := Option.some.inj hi
          obtain ⟨l, _, _, rfl⟩ := Client.bind_guard_eq_some.mp hs
          exact afterNetError_hooked j hhook
      | writeFail j k what =>
          obtain rfl := Option.some.inj hi
          obtain ⟨session, _, rfl⟩ := Option.map_eq_some_iff.mp hs
          exact afterNetError_hooked j hhook
      | _ => exact absurd hi (by simp [Event.reportsError?])
  rw [hfault]
  exact Option.some_ne_none _

end Hook

/-! ## Other sessions -/

section Others

variable {s s' : TcpServer} {handler : TcpSession → Nat → Message → Option TcpSession} {i j : Nat}

theorem setSession_other (hj : j ≠ i) (t : ServerSession) : (s.setSession i t).sessions j = s.sessions j :=
  Function.update_of_ne hj _ _

/-- A reported error concerns its own session only. -/
theorem afterNetError_other (hj : j ≠ i) (t : ServerSession) :
    (s.afterNetError i t).sessions j = s.sessions j ∧
      (j ∈ (s.afterNetError i t).pool ↔ j ∈ s.pool) := by
  unfold afterNetError eraseSession
  simp only
  split
  · exact ⟨setSession_other hj _, Iff.rfl⟩
  · exact ⟨setSession_other hj _, Iff.rfl⟩

/-- **An event of a session leaves the others alone.** -/
theorem step_other {e : Event} (hs : step handler s e = some s') (he : e.session? = some i)
    (hj : j ≠ i) : s'.sessions j = s.sessions j ∧ (j ∈ s'.pool ↔ j ∈ s.pool) := by
  unfold step at hs
  split at hs
  · exact absurd hs (by simp)
  · have hio : ∀ e, s.io i e = some s' →
        s'.sessions j = s.sessions j ∧ (j ∈ s'.pool ↔ j ∈ s.pool) := by
      intro e hs
      obtain ⟨session, _, rfl⟩ := Option.map_eq_some_iff.mp hs
      exact ⟨setSession_other hj _, Iff.rfl⟩
    cases e with
    | readDone i =>
        obtain rfl := Option.some.inj he
        obtain ⟨l, _, _, rfl⟩ := Client.bind_guard_eq_some.mp hs
        exact ⟨setSession_other hj _, Iff.rfl⟩
    | readHead i bodyLen =>
        obtain rfl := Option.some.inj he
        obtain ⟨l, _, _, rfl⟩ := Client.bind_guard_eq_some.mp hs
        exact ⟨setSession_other hj _, Iff.rfl⟩
    | readBody i ref msg =>
        obtain rfl := Option.some.inj he
        obtain ⟨l, _, hs⟩ := Option.bind_eq_some_iff.mp hs
        split at hs
        · obtain ⟨t, _, rfl⟩ := Option.map_eq_some_iff.mp hs
          exact ⟨setSession_other hj _, Iff.rfl⟩
        · exact absurd hs (by simp)
    | readFail i what =>
        obtain rfl := Option.some.inj he
        obtain ⟨l, _, _, rfl⟩ := Client.bind_guard_eq_some.mp hs
        exact afterNetError_other hj _
    | writeFail i k what =>
        obtain rfl := Option.some.inj he
        obtain ⟨session, _, rfl⟩ := Option.map_eq_some_iff.mp hs
        exact afterNetError_other hj _
    | runPost i => obtain rfl := Option.some.inj he; exact hio .runPost hs
    | writeSome i k n => obtain rfl := Option.some.inj he; exact hio (.writeSome k n) hs
    | writeDone i k => obtain rfl := Option.some.inj he; exact hio (.writeDone k) hs
    | _ => exact absurd he (by simp [Event.session?])

end Others

end TcpServer

/-- **The session pool is exact until a hook runs.** In every run of a server before `stop`, whatever its
request handler does: in every state the pool holds exactly the sessions that were accepted and have no
reported error, each of the others having been erased once, at its first one, and not served afterwards,
exactly when no network error is reported on a session whose hook is set; and an event of a session leaves
every other one alone, and its place in the pool. -/
theorem session_pool_exact_iff (handler : TcpSession → Nat → Message → Option TcpSession)
    (es : List TcpServer.Event) (hes : TcpServer.Event.closeAcceptor ∉ es) {s : TcpServer}
    (h : run (TcpServer.step handler) {} es = some s) :
    (EveryState (TcpServer.step handler) TcpServer.PoolExact {} es ↔
      EveryStep (TcpServer.step handler) TcpServer.NoHookedError {} es) ∧
    ∀ e s' i, TcpServer.step handler s e = some s' → s'.fault = none → e.session? = some i →
      ∀ j, j ≠ i → s'.sessions j = s.sessions j ∧ (j ∈ s'.pool ↔ j ∈ s.pool) := by
  refine ⟨⟨?_, ?_⟩, fun _ _ _ hs _ he _ hj => TcpServer.step_other hs he hj⟩
  · -- a hook that runs leaves a fault behind
    intro hexact pre e post t hpre ht
    rw [hpre, run_append_eq_some] at h
    obtain ⟨t', ht', hrest⟩ := h
    obtain rfl := Option.some.inj (ht.symm.trans ht')
    obtain ⟨u, hu, _⟩ := run_cons_eq_some.mp hrest
    by_contra hhooked
    have hsound : u.fault = none :=
      (hexact (pre ++ [e]) post u (by rw [hpre, List.append_assoc]; rfl)
        (run_snoc.mpr ⟨t, ht, hu⟩)).sound
    exact TcpServer.step_hooked hu hhooked hsound
  · intro hstep pre post t hpre ht
    have hordered : t.Ordered := by
      refine inv_run_of_everyStep (C := fun u e => e ≠ .closeAcceptor ∧ TcpServer.NoHookedError u e)
        TcpServer.Ordered.init (fun _ _ _ hu he hs => hu.step he.1 he.2 hs) ht ?_
      intro pre' e post' u hpre' hu
      have hsplit : es = pre' ++ e :: (post' ++ post) := by
        rw [hpre, hpre', List.append_assoc, List.cons_append]
      refine ⟨?_, hstep pre' e (post' ++ post) u hsplit hu⟩
      rintro rfl
      exact hes (hsplit ▸ List.mem_append_right _ List.mem_cons_self)
    exact hordered.poolExact

/-- Two sessions, the first of which answers a request. -/
def twoSessions : List TcpServer.Event :=
  [.start, .acceptOk, .acceptHandler, .rearm, .acceptOk, .acceptHandler, .rearm, .readDone 0,
    .readHead 0 0, .readDone 0, .readBody 0 0 (some {}), .runPost 0]

/-- The read of the first one reports that the connection is lost: its closure clears itself, and then
reads the captures that went with it. The session is still in the pool. The handler sends every request
back. -/
theorem session_pool_stale :
    ∃ s, run (TcpServer.step fun t ref msg => some (t.queueRspMsg msg ref)) {}
        (twoSessions ++ [.readFail 0 []]) = some s ∧
      s.fault = some (.destroyedCaptures 0) ∧ s.pool = {0, 1} ∧
      (s.sessions 0).history = [.accepted, .invoked, .netError] ∧ ¬ s.PoolExact := by
  have hview : (run (TcpServer.step fun t ref msg => some (t.queueRspMsg msg ref)) {}
        (twoSessions ++ [.readFail 0 []])).map (fun s => (s.fault, s.pool, (s.sessions 0).history)) =
      some (some (.destroyedCaptures 0), {0, 1}, [.accepted, .invoked, .netError]) := by
    decide +kernel
  obtain ⟨s, hs, hview⟩ := Option.map_eq_some_iff.mp hview
  obtain ⟨hfault, hview⟩ := Prod.mk.inj hview
  obtain ⟨hpool, hhistory⟩ := Prod.mk.inj hview
  refine ⟨s, hs, hfault, hpool, hhistory, fun hexact => ?_⟩
  have herror := ((hexact.pool 0).mp (by simp [hpool])).2
  simp [hhistory] at herror

/-- While both connections last, both sessions are in the pool. -/
theorem session_pool_exact_twoSessions :
    ∃ s, run (TcpServer.step fun t ref msg => some (t.queueRspMsg msg ref)) {} twoSessions = some s ∧
      s.pool = {0, 1} ∧ (s.sessions 0).history = [.accepted, .invoked] ∧
      EveryState (TcpServer.step fun t ref msg => some (t.queueRspMsg msg ref)) TcpServer.PoolExact {}
        twoSessions := by
  have hview : (run (TcpServer.step fun t ref msg => some (t.queueRspMsg msg ref)) {} twoSessions).map
      (fun s => (s.pool, (s.sessions 0).history)) = some ({0, 1}, [.accepted, .invoked]) := by
    decide +kernel
  obtain ⟨s, hs, hview⟩ := Option.map_eq_some_iff.mp hview
  obtain ⟨hpool, hhistory⟩ := Prod.mk.inj hview
  refine ⟨s, hs, hpool, hhistory, ?_⟩
  exact (session_pool_exact_iff (fun t ref msg => some (t.queueRspMsg msg ref)) twoSessions
    (by decide) hs).1.mpr (by decide +kernel)

end AdManager.Server
