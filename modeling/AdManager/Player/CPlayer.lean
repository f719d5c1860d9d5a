/-
# AdManager.Player.CPlayer — the player as a state machine over its Media Foundation calls.

Translated from `player.cpp` and `player.h`. A `CPlayer` keeps a media session, the media source that is
playing and the display control of the session. Everything it does is a chain of external calls, each of
which may fail; `CHECK_HR` then jumps to the clean-up at the end of the function. The outcomes of these
calls are inputs here, one `Bool` for a call, in the order of the source, so a step is a function of the
player and of what the calls answered.

Two things of the outside are state. The reference counts and shut-down flags of the media sources are
a `RefHeap`, on which `AddRef`, `Release` and `Shutdown` act. And a call through `m_pSession` while it is
null is an outcome of its own, `PlayerFault.nullSession`, after which there is no further step.

The player is counted itself. `_pPlayer` holds one reference on it, and Media Foundation takes others as
the callback of the session (`lent`) and gives them back when it likes. The `Release` that gives back the
last one, whose ever it is, runs the destructor, and that calls `Shutdown`.

`Invoke` runs on a thread of Media Foundation and only posts the event to the window; `HandleEvent` takes
it up later, in whatever order and after whatever else has happened to the player.

The names, buffers and window handles that are only handed on to external calls are left out.
-/
import AdManager.Lib.RefCount
import AdManager.Lib.Run
import AdManager.Player.PlayList

namespace AdManager.Player

open AdManager.Lib AdManager.Business

/-! ## State -/

/-- `PlayerState`. -/
inductive PlayerState where
  | closed | ready | openPending | started | paused | stopped | closing
  deriving DecidableEq, Repr

/-- `MediaEventType`, as far as the player tells the types apart. -/
inductive MediaEventType where
  | sessionTopologyStatus | endOfPresentation | newPresentation | sessionEnded | sessionClosed | other
  deriving DecidableEq, Repr

/-- `MF_EVENT_TOPOLOGY_STATUS` of an event. -/
inductive TopoStatus where
  | ready | startedSource | ended | other
  deriving DecidableEq, Repr

/-- `IMFMediaEvent`; `status` says that the operation which triggered it succeeded. -/
structure MediaEvent where
  meType : MediaEventType
  status : Bool
  topoStatus : TopoStatus
  deriving DecidableEq, Repr

/-- `CPlayer`. A pointer or handle of which only its being null matters is a `Bool`; a media source has
a number. `posted` are the events `Invoke` has posted to the window and that were not taken up yet. The
counts at the end record calls of `MFStartup` that succeeded, calls of `MFShutdown`, and close events
created and closed. Of the references in `m_nRefCount`, Media Foundation holds `lent`; `deleted` says that
the destructor has run. -/
structure CPlayer where
  m_pSession : Bool := false
  m_pSource : Option Nat := none
  m_pVideoDisplay : Bool := false
  m_state : PlayerState := .closed
  m_hCloseEvent : Bool := false
  playList : List PlayItem := []
  posted : List MediaEvent := []
  sources : RefHeap Nat := {}
  nextSource : Nat := 0
  startups : Nat := 0
  shutdowns : Nat := 0
  eventsCreated : Nat := 0
  eventsClosed : Nat := 0
  m_nRefCount : Nat := 1
  lent : Nat := 0
  deleted : Bool := false

/-- A call through a null pointer. -/
inductive PlayerFault where
  | nullSession
  deriving DecidableEq, Repr

/-! ## Outcomes of the external calls -/

/-- The calls of `AddBranchToPartialTopology` for one stream. -/
structure BranchCalls where
  getStreamDescriptorByIndex : Bool := true
  selected : Bool := true
  createMediaSinkActivate : Bool := true
  addSourceNode : Bool := true
  addOutputNode : Bool := true
  connectOutput : Bool := true
  deriving DecidableEq, Repr

/-- The calls of `CreatePlaybackTopology`, with one branch for each stream. -/
structure TopologyCalls where
  createTopology : Bool := true
  getStreamDescriptorCount : Bool := true
  streams : List BranchCalls := []
  deriving DecidableEq, Repr

/-- The calls of `CreateMediaSource`. -/
structure SourceCalls where
  createSourceResolver : Bool := true
  createObjectFromByteStream : Bool := true
  queryInterface : Bool := true
  deriving DecidableEq, Repr

/-- The calls of `OpenMem`; `shutdown` is that of the source played before. -/
structure OpenCalls where
  createMemStream : Bool := true
  createMFByteStream : Bool := true
  source : SourceCalls := {}
  createPresentationDescriptor : Bool := true
  topology : TopologyCalls := {}
  setTopology : Bool := true
  shutdown : Bool := true
  deriving DecidableEq, Repr

/-- The calls of `CreateSession`; `close` is that of `CloseSession`. -/
structure SessionCalls where
  close : Bool := true
  createMediaSession : Bool := true
  beginGetEvent : Bool := true
  deriving DecidableEq, Repr

/-- The calls of `SetVideoWindow`, and what `ready` was each time its loop looked. -/
structure WindowCalls where
  mfStartup : Bool := true
  createEvent : Bool := true
  session : SessionCalls := {}
  ready : List Bool := [true]
  openMem : OpenCalls := {}
  deriving DecidableEq, Repr

/-- The calls of `Invoke`. -/
structure InvokeCalls where
  endGetEvent : Bool := true
  getType : Bool := true
  beginGetEvent : Bool := true
  deriving DecidableEq, Repr

/-- The calls of `HandleEvent` and of the handlers it goes to. -/
structure EventCalls where
  getType : Bool := true
  getStatus : Bool := true
  getUINT32 : Bool := true
  getEventObject : Bool := true
  getTopologyID : Bool := true
  getFullTopology : Bool := true
  getService : Bool := true
  start : Bool := true
  topology : TopologyCalls := {}
  setTopology : Bool := true
  openMem : OpenCalls := {}
  deriving DecidableEq, Repr

/-- The calls of `endBusiness`; `closeAgain` is the `Close` of the destructor, if that runs. -/
structure EndCalls where
  close : Bool := true
  closeAgain : Bool := true
  deriving DecidableEq, Repr

/-- `AddBranchToPartialTopology`. -/
def addBranchToPartialTopology (c : BranchCalls) : Bool :=
  c.getStreamDescriptorByIndex &&
    (!c.selected ||
      (c.createMediaSinkActivate && c.addSourceNode && c.addOutputNode && c.connectOutput))

/-- `CreatePlaybackTopology`. -/
def createPlaybackTopology (c : TopologyCalls) : Bool :=
  c.createTopology && c.getStreamDescriptorCount && c.streams.all addBranchToPartialTopology

/-- `HandleEvent` gets to its `switch`: the event's type and status can be read, and what it reports
succeeded. -/
def EventCalls.taken (c : EventCalls) (e : MediaEvent) : Bool := c.getType && c.getStatus && e.status

theorem map_eq_error {α β : Type*} {x : Except PlayerFault α} {f : α → β} {e : PlayerFault} :
    x.map f = .error e ↔ x = .error e := by
  cases x <;> simp [Except.map]

theorem map_eq_ok {α β : Type*} {x : Except PlayerFault α} {f : α → β} {b : β} :
    x.map f = .ok b ↔ ∃ a, x = .ok a ∧ f a = b := by
  cases x <;> simp [Except.map]

namespace CPlayer

/-! ## Sources -/

/-- `SafeRelease` on a pointer to a media source; the caller sets the pointer to null. -/
def safeRelease (p : CPlayer) : Option Nat → CPlayer
  | none => p
  | some i => { p with sources := p.sources.release i }

/-- `Shutdown` on a pointer to a media source, if it is not null. -/
def shutdownSource (p : CPlayer) : Option Nat → CPlayer
  | none => p
  | some i => { p with sources := p.sources.shutDown i }

/-- `CreateMediaSource` into `m_pSource`. A failed `QueryInterface` sets the pointer to null; before it
the pointer is not written. The reference of the new object itself is given back in either case. -/
def createMediaSource (p : CPlayer) (c : SourceCalls) : Bool × CPlayer :=
  if !c.createSourceResolver then (false, p)
  else if !c.createObjectFromByteStream then (false, p)
  else
    let i := p.nextSource
    let p := { p with sources := p.sources.addRef i, nextSource := i + 1 }
    if !c.queryInterface then
      (false, { p with m_pSource := none, sources := p.sources.release i })
    else (true, { p with m_pSource := some i, sources := (p.sources.addRef i).release i })

/-! ## `OpenMem` and `NotifyPlay` -/

/-- The clean-up of `OpenMem`. -/
def openMemDone (p : CPlayer) (pSourceTmp : Option Nat) (hr : Bool) : Bool × CPlayer :=
  (hr, { p with m_state := if hr then p.m_state else .closed }.safeRelease pSourceTmp)

/-- `OpenMem`. -/
def openMem (p : CPlayer) (c : OpenCalls) : Except PlayerFault (Bool × CPlayer) :=
  let pSourceTmp := p.m_pSource
  if !c.createMemStream then .ok (p.openMemDone pSourceTmp false)
  else if !c.createMFByteStream then .ok (p.openMemDone pSourceTmp false)
  else
    let (hr, p) := p.createMediaSource c.source
    if !hr then .ok (p.openMemDone pSourceTmp false)
    else if !c.createPresentationDescriptor then .ok (p.openMemDone pSourceTmp false)
    else if !createPlaybackTopology c.topology then .ok (p.openMemDone pSourceTmp false)
    else if !p.m_pSession then .error .nullSession
    else if !c.setTopology then .ok (p.openMemDone pSourceTmp false)
    else if pSourceTmp.isSome && !c.shutdown then
      .ok ((p.shutdownSource pSourceTmp).openMemDone pSourceTmp false)
    else
      .ok ({ p.shutdownSource pSourceTmp with m_state := .openPending }.openMemDone pSourceTmp true)

/-- `NotifyPlay`. -/
def notifyPlay (p : CPlayer) (c : OpenCalls) : Except PlayerFault CPlayer :=
  let out := Business.notifyPlay p.playList.length p.playList
  let p := { p with playList := out.1 }
  match out.2 with
  | none => .ok p
  | some _ => (p.openMem c).map Prod.snd

/-! ## The session -/

/-- `CloseSession`; a wait that times out does not change what follows. -/
def closeSession (p : CPlayer) (close : Bool) : Bool × CPlayer :=
  let hr := !p.m_pSession || close
  let p := { p with
    m_pVideoDisplay := false, m_state := if p.m_pSession then .closing else p.m_state }
  let p := if hr then p.shutdownSource p.m_pSource else p
  let p := p.safeRelease p.m_pSource
  (hr, { p with m_pSource := none, m_pSession := false, m_state := .closed })

/-- `CreateSession`. -/
def createSession (p : CPlayer) (c : SessionCalls) : Bool × CPlayer :=
  let (hr, p) := p.closeSession c.close
  if !hr then (false, p)
  else if !c.createMediaSession then (false, p)
  else
    let p := { p with m_pSession := true }
    if !c.beginGetEvent then (false, p)
    else (true, { p with m_state := .ready })

/-- `SetVideoWindow`: it does not look at the result of `CreateSession`, and `NotifyPlay` follows when
one of thirty looks at `ready` finds it set. -/
def setVideoWindow (p : CPlayer) (c : WindowCalls) : Except PlayerFault CPlayer :=
  if !c.mfStartup then .ok p
  else
    let p := { p with startups := p.startups + 1 }
    if !c.createEvent then .ok { p with m_hCloseEvent := false }
    else
      let p := { p with m_hCloseEvent := true, eventsCreated := p.eventsCreated + 1 }
      let p := (p.createSession c.session).2
      if (c.ready.take 30).any id then p.notifyPlay c.openMem else .ok p

/-- `Shutdown`. -/
def shutdown (p : CPlayer) (close : Bool) : CPlayer :=
  let p := (p.closeSession close).2
  { p with
    shutdowns := p.shutdowns + 1
    eventsClosed := p.eventsClosed + if p.m_hCloseEvent then 1 else 0
    m_hCloseEvent := false }

/-- The reference that is given back next is the last one. -/
def lastReference (p : CPlayer) : Bool := p.m_nRefCount - 1 = 0

/-- `Release`. With the last reference the destructor runs, which calls `Shutdown`. -/
def release (p : CPlayer) (close : Bool) : CPlayer :=
  let last := p.lastReference
  let p := { p with m_nRefCount := p.m_nRefCount - 1 }
  if last then { p.shutdown close with deleted := true } else p

/-- What `endBusiness` does with the player: `Shutdown`, then `Release`. -/
def endBusiness (p : CPlayer) (c : EndCalls) : CPlayer := (p.shutdown c.close).release c.closeAgain

/-! ## Playback -/

/-- `StartPlayback`. -/
def startPlayback (p : CPlayer) (start : Bool) : Except PlayerFault (Bool × CPlayer) :=
  if !p.m_pSession then .error .nullSession
  else .ok (start, if start then { p with m_state := .started } else p)

/-- `Play`, with whether it was accepted. -/
def play (p : CPlayer) (start : Bool) : Except PlayerFault (Bool × CPlayer) :=
  if p.m_state ≠ .paused ∧ p.m_state ≠ .stopped then .ok (false, p)
  else if !p.m_pSession || p.m_pSource.isNone then .ok (false, p)
  else p.startPlayback start

/-- `Pause`. -/
def pause (p : CPlayer) (hr : Bool) : Bool × CPlayer :=
  if p.m_state ≠ .started then (false, p)
  else if !p.m_pSession || p.m_pSource.isNone then (false, p)
  else (hr, if hr then { p with m_state := .paused } else p)

/-- `Stop`. -/
def stop (p : CPlayer) (hr : Bool) : Bool × CPlayer :=
  if p.m_state ≠ .started ∧ p.m_state ≠ .paused then (false, p)
  else if !p.m_pSession then (false, p)
  else (hr, if hr then { p with m_state := .stopped } else p)

/-! ## Events -/

/-- `Invoke`, called back with `e`: the event is posted unless the session is being closed or an earlier
call failed. -/
def invoke (p : CPlayer) (e : MediaEvent) (c : InvokeCalls) : Except PlayerFault CPlayer :=
  if !p.m_pSession then .error .nullSession
  else if !c.endGetEvent then .ok p
  else if !c.getType then .ok p
  else if e.meType ≠ .sessionClosed ∧ !c.beginGetEvent then .ok p
  else if p.m_state ≠ .closing then .ok { p with posted := p.posted ++ [e] }
  else .ok p

/-- `OnTopologyStatus`. -/
def onTopologyStatus (p : CPlayer) (e : MediaEvent) (c : EventCalls) : Except PlayerFault CPlayer :=
  if !c.getUINT32 then .ok p
  else
    match e.topoStatus with
    | .ready =>
        if !c.getEventObject then .ok p
        else if !c.getTopologyID then .ok p
        else if !p.m_pSession then .error .nullSession
        else if !c.getFullTopology then .ok p
        else ({ p with m_pVideoDisplay := c.getService }.startPlayback c.start).map Prod.snd
    | .startedSource => .ok p
    | .ended => if !p.m_pSession then .error .nullSession else .ok p
    | .other => .ok p

/-- `OnPresentationEnded`. -/
def onPresentationEnded (p : CPlayer) : CPlayer := { p with m_state := .stopped }

/-- `OnNewPresentation`. -/
def onNewPresentation (p : CPlayer) (c : EventCalls) : Except PlayerFault CPlayer :=
  if !c.getEventObject then .ok p
  else if !createPlaybackTopology c.topology then .ok p
  else if !p.m_pSession then .error .nullSession
  else if !c.setTopology then .ok p
  else .ok { p with m_state := .openPending }

/-- `HandleEvent`. -/
def handleEvent (p : CPlayer) (e : MediaEvent) (c : EventCalls) : Except PlayerFault CPlayer :=
  if !c.getType then .ok p
  else if !c.getStatus || !e.status then .ok p
  else
    match e.meType with
    | .sessionTopologyStatus => p.onTopologyStatus e c
    | .endOfPresentation => .ok p.onPresentationEnded
    | .newPresentation => p.onNewPresentation c
    | .sessionEnded => p.notifyPlay c.openMem
    | .sessionClosed => .ok p
    | .other => .ok p

theorem handleEvent_of_not_taken (p : CPlayer) {e : MediaEvent} {c : EventCalls}
    (h : c.taken e = false) : p.handleEvent e c = .ok p := by
  simp only [EventCalls.taken, Bool.and_eq_false_iff] at h
  rcases h with (h | h) | h <;> simp [handleEvent, h]

theorem handleEvent_of_taken (p : CPlayer) {e : MediaEvent} {c : EventCalls}
    (h : c.taken e = true) :
    p.handleEvent e c =
      match e.meType with
      | .sessionTopologyStatus => p.onTopologyStatus e c
      | .endOfPresentation => .ok p.onPresentationEnded
      | .newPresentation => p.onNewPresentation c
      | .sessionEnded => p.notifyPlay c.openMem
      | .sessionClosed => .ok p
      | .other => .ok p := by
  simp only [EventCalls.taken, Bool.and_eq_true] at h
  simp only [handleEvent, h, Bool.not_true, Bool.or_self, Bool.false_eq_true, if_false]

/-! ## What an open writes -/

/-- `q` is `p` but for the sources and the state. -/
def Opens (p q : CPlayer) : Prop :=
  ∃ source state sources next, q = { p with
    m_pSource := source, m_state := state, sources := sources, nextSource := next }

theorem Opens.refl (p : CPlayer) : p.Opens p :=
  ⟨p.m_pSource, p.m_state, p.sources, p.nextSource, rfl⟩

theorem Opens.trans {p q r : CPlayer} (h : p.Opens q) (h' : q.Opens r) : p.Opens r := by
  obtain ⟨source, state, sources, next, rfl⟩ := h
  obtain ⟨source', state', sources', next', rfl⟩ := h'
  exact ⟨source', state', sources', next', rfl⟩

theorem safeRelease_opens (p : CPlayer) (i : Option Nat) : p.Opens (p.safeRelease i) := by
  cases i with
  | none => exact .refl p
  | some i => exact ⟨p.m_pSource, p.m_state, p.sources.release i, p.nextSource, rfl⟩

theorem shutdownSource_opens (p : CPlayer) (i : Option Nat) : p.Opens (p.shutdownSource i) := by
  cases i with
  | none => exact .refl p
  | some i => exact ⟨p.m_pSource, p.m_state, p.sources.shutDown i, p.nextSource, rfl⟩

theorem createMediaSource_opens (p : CPlayer) (c : SourceCalls) :
    p.Opens (p.createMediaSource c).2 := by
  unfold createMediaSource
  split
  · exact .refl p
  split
  · exact .refl p
  dsimp only
  split
  · exact ⟨none, p.m_state, _, p.nextSource + 1, rfl⟩
  · exact ⟨some p.nextSource, p.m_state, _, p.nextSource + 1, rfl⟩

theorem openMemDone_opens (p : CPlayer) (i : Option Nat) (hr : Bool) :
    p.Opens (p.openMemDone i hr).2 := by
  have hstate : p.Opens { p with m_state := if hr then p.m_state else .closed } :=
    ⟨p.m_pSource, _, p.sources, p.nextSource, rfl⟩
  exact hstate.trans (safeRelease_opens _ i)

/-- Every exit of `OpenMem` is its clean-up. -/
theorem openMem_opens {p q : CPlayer} {hr : Bool} {c : OpenCalls} (hq : p.openMem c = .ok (hr, q)) :
    p.Opens q := by
  have hdone : ∀ {t : CPlayer} {i : Option Nat} {ok : Bool}, p.Opens t →
      Except.ok (t.openMemDone i ok) = (.ok (hr, q) : Except PlayerFault (Bool × CPlayer)) →
      p.Opens q := by
    intro t i ok ht hq
    obtain rfl := congrArg Prod.snd (Except.ok.inj hq)
    exact ht.trans (openMemDone_opens t i ok)
  have hmade := createMediaSource_opens p c.source
  rw [openMem] at hq
  generalize p.createMediaSource c.source = out at hmade hq
  obtain ⟨ok, t⟩ := out
  have hshut : p.Opens (t.shutdownSource p.m_pSource) := hmade.trans (shutdownSource_opens t _)
  dsimp only at hq hmade
  -- the exits in the order of the source; the source is made before the third
  split at hq
  · exact hdone (.refl p) hq
  split at hq
  · exact hdone (.refl p) hq
  split at hq
  · exact hdone hmade hq
  split at hq
  · exact hdone hmade hq
  split at hq
  · exact hdone hmade hq
  split at hq
  · exact absurd hq (by simp)
  split at hq
  · exact hdone hmade hq
  split at hq
  · exact hdone hshut hq
  · obtain ⟨source, state, sources, next, hopened⟩ := hshut
    refine hdone ⟨source, .openPending, sources, next, ?_⟩ hq
    rw [hopened]

/-! ## What playback writes -/

/-- `q` is `p` but for the state, the display control and the events posted. -/
def Plays (p q : CPlayer) : Prop :=
  ∃ state display posted, q = { p with m_state := state, m_pVideoDisplay := display, posted := posted }

variable {p q : CPlayer} {hr : Bool}

theorem Plays.refl (p : CPlayer) : p.Plays p := ⟨p.m_state, p.m_pVideoDisplay, p.posted, rfl⟩

theorem startPlayback_plays {start : Bool} (hq : p.startPlayback start = .ok (hr, q)) : p.Plays q := by
  rw [startPlayback] at hq
  split at hq
  · exact absurd hq (by simp)
  obtain rfl := congrArg Prod.snd (Except.ok.inj hq)
  cases start with
  | false => exact .refl p
  | true => exact ⟨.started, p.m_pVideoDisplay, p.posted, rfl⟩

theorem play_plays {start : Bool} (hq : p.play start = .ok (hr, q)) : p.Plays q := by
  rw [play] at hq
  split at hq
  · obtain rfl := congrArg Prod.snd (Except.ok.inj hq)
    exact .refl p
  split at hq
  · obtain rfl := congrArg Prod.snd (Except.ok.inj hq)
    exact .refl p
  · exact startPlayback_plays hq

theorem pause_plays (p : CPlayer) (hr : Bool) : p.Plays (p.pause hr).2 := by
  rw [pause]
  split
  · exact .refl p
  split
  · exact .refl p
  cases hr with
  | false => exact .refl p
  | true => exact ⟨.paused, p.m_pVideoDisplay, p.posted, rfl⟩

theorem stop_plays (p : CPlayer) (hr : Bool) : p.Plays (p.stop hr).2 := by
  rw [stop]
  split
  · exact .refl p
  split
  · exact .refl p
  cases hr with
  | false => exact .refl p
  | true => exact ⟨.stopped, p.m_pVideoDisplay, p.posted, rfl⟩

theorem invoke_plays {e : MediaEvent} {c : InvokeCalls} (hq : p.invoke e c = .ok q) : p.Plays q := by
  rw [invoke] at hq
  split at hq
  · exact absurd hq (by simp)
  split at hq
  · obtain rfl := Except.ok.inj hq
    exact .refl p
  split at hq
  · obtain rfl := Except.ok.inj hq
    exact .refl p
  split at hq
  · obtain rfl := Except.ok.inj hq
    exact .refl p
  split at hq
  · obtain rfl := Except.ok.inj hq
    exact ⟨p.m_state, p.m_pVideoDisplay, p.posted ++ [e], rfl⟩
  · obtain rfl := Except.ok.inj hq
    exact .refl p

theorem onTopologyStatus_plays {e : MediaEvent} {c : EventCalls} (hq : p.onTopologyStatus e c = .ok q) :
    p.Plays q := by
  have hsame : ∀ {q'}, Except.ok p = (.ok q' : Except PlayerFault CPlayer) → p.Plays q' := by
    intro q' hq
    obtain rfl := Except.ok.inj hq
    exact .refl p
  rw [onTopologyStatus] at hq
  split at hq
  · exact hsame hq
  split at hq
  · split at hq
    · exact hsame hq
    split at hq
    · exact hsame hq
    split at hq
    · exact absurd hq (by simp)
    split at hq
    · exact hsame hq
    obtain ⟨⟨hr, t⟩, hstart, rfl⟩ := map_eq_ok.mp hq
    obtain ⟨state, display, posted, rfl⟩ := startPlayback_plays hstart
    exact ⟨state, display, posted, rfl⟩
  · exact hsame hq
  · split at hq
    · exact absurd hq (by simp)
    · exact hsame hq
  · exact hsame hq

theorem onNewPresentation_plays {c : EventCalls} (hq : p.onNewPresentation c = .ok q) : p.Plays q := by
  rw [onNewPresentation] at hq
  split at hq
  · obtain rfl := Except.ok.inj hq
    exact .refl p
  split at hq
  · obtain rfl := Except.ok.inj hq
    exact .refl p
  split at hq
  · exact absurd hq (by simp)
  split at hq
  · obtain rfl := Except.ok.inj hq
    exact .refl p
  obtain rfl := Except.ok.inj hq
  exact ⟨.openPending, p.m_pVideoDisplay, p.posted, rfl⟩

/-- Of the events only the end of an item does more: it opens the next one. -/
theorem handleEvent_plays {e : MediaEvent} {c : EventCalls}
    (hother : ¬ (e.meType = .sessionEnded ∧ c.taken e = true)) (hq : p.handleEvent e c = .ok q) :
    p.Plays q := by
  cases htaken : c.taken e with
  | false =>
      rw [handleEvent_of_not_taken p htaken] at hq
      obtain rfl := Except.ok.inj hq
      exact .refl p
  | true =>
      rw [handleEvent_of_taken p htaken] at hq
      split at hq
      · exact onTopologyStatus_plays hq
      · obtain rfl := Except.ok.inj hq
        exact ⟨.stopped, p.m_pVideoDisplay, p.posted, rfl⟩
      · exact onNewPresentation_plays hq
      · next htype => exact absurd ⟨htype, htaken⟩ hother
      · obtain rfl := Except.ok.inj hq
        exact .refl p
      · obtain rfl := Except.ok.inj hq
        exact .refl p

end CPlayer

/-! ## Runs -/

/-- What can happen to the player. `setPlayList` is a change of `_playList` by the business thread, `addRef`
and `release` are what Media Foundation does with references of its own. -/
inductive PlayerOp where
  | setPlayList (playList : List PlayItem)
  | setVideoWindow (c : WindowCalls)
  | notifyPlay (c : OpenCalls)
  | openMem (c : OpenCalls)
  | createSession (c : SessionCalls)
  | closeSession (close : Bool)
  | play (start : Bool)
  | pause (hr : Bool)
  | stop (hr : Bool)
  | invoke (e : MediaEvent) (c : InvokeCalls)
  | handleEvent (e : MediaEvent) (c : EventCalls)
  | shutdown (close : Bool)
  | endBusiness (c : EndCalls)
  | addRef
  | release (close : Bool)
  deriving DecidableEq, Repr

/-- One step of a player. `HandleEvent` takes up one of the events posted, whichever. -/
def CPlayer.step (p : CPlayer) : PlayerOp → Option (Except PlayerFault CPlayer)
  | .setPlayList playList => some (.ok { p with playList })
  | .setVideoWindow c => some (p.setVideoWindow c)
  | .notifyPlay c => some (p.notifyPlay c)
  | .openMem c => some ((p.openMem c).map Prod.snd)
  | .createSession c => some (.ok (p.createSession c).2)
  | .closeSession close => some (.ok (p.closeSession close).2)
  | .play start => some ((p.play start).map Prod.snd)
  | .pause hr => some (.ok (p.pause hr).2)
  | .stop hr => some (.ok (p.stop hr).2)
  | .invoke e c => some (p.invoke e c)
  | .handleEvent e c =>
      if e ∈ p.posted then some ({ p with posted := p.posted.erase e }.handleEvent e c) else none
  | .shutdown close => some (.ok (p.shutdown close))
  | .endBusiness c => some (.ok (p.endBusiness c))
  | .addRef => some (.ok { p with m_nRefCount := p.m_nRefCount + 1, lent := p.lent + 1 })
  | .release close =>
      if 0 < p.lent then some (.ok ({ p with lent := p.lent - 1 }.release close)) else none

/-- One step; none follows a fault, and none is taken on a player that was deleted. -/
def playerStep (s : Except PlayerFault CPlayer) (op : PlayerOp) : Option (Except PlayerFault CPlayer) :=
  match s with
  | .error _ => none
  | .ok p => if p.deleted then none else p.step op

/-- Every step is one of a player that was not deleted. -/
theorem playerStep_eq_some {s s' : Except PlayerFault CPlayer} {op : PlayerOp} :
    playerStep s op = some s' ↔ ∃ p, s = .ok p ∧ p.deleted = false ∧ p.step op = some s' := by
  cases s with
  | error e => simp [playerStep]
  | ok p => cases hp : p.deleted <;> simp [playerStep, hp]

end AdManager.Player
