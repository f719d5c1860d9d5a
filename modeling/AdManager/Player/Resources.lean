/-
# AdManager.Player.Resources — `m_state` against the session and the source.

`PlayerState` says of each value what the player holds in it: `Closed` has no session, `Ready` has one and
nothing open, the others have both a session and a source. `Play`, `Pause` and `Stop` go by `m_state`
alone, so that they are refused only when there is nothing to play depends on this.

But `m_state` and the two pointers are written apart from each other. `OpenMem` goes to `Closed` on every
failure and keeps the session; `CreateSession` keeps a session whose `BeginGetEvent` has failed; and the
handlers of late events write a playing state without a look at what there is. `stateMatches_iff` says
exactly which steps break the match.
-/
import AdManager.Player.NullSession

namespace AdManager.Player

open AdManager.Lib AdManager.Business

/-! ## The property -/

namespace CPlayer

/-- There is nothing that `Pause` or `Stop` could stop: a session or a source is missing, or the player
has not started yet, is being closed, or was paused or stopped. -/
def NothingPlaying (p : CPlayer) : Prop :=
  p.m_pSession = false ∨ p.m_pSource = none ∨
    p.m_state ∈ [PlayerState.openPending, .paused, .stopped, .closing]

/-- **The state matches the resources.** -/
structure StateFits (p : CPlayer) : Prop where
  closed : p.m_state = .closed → p.m_pSession = false
  ready : p.m_state = .ready → p.m_pSession = true ∧ p.m_pSource = none
  loaded : p.m_state ∈ [PlayerState.openPending, .started, .paused, .stopped] →
    p.m_pSession = true ∧ p.m_pSource.isSome
  pause : p.m_state ≠ .started → p.NothingPlaying
  stop : p.m_state ≠ .started ∧ p.m_state ≠ .paused → p.NothingPlaying

/-- What the match is about. -/
def view (p : CPlayer) : PlayerState × Bool × Bool := (p.m_state, p.m_pSession, p.m_pSource.isSome)

/-- The match, computed from a view. -/
def viewFits : PlayerState × Bool × Bool → Bool
  | (.closed, session, _) => !session
  | (.ready, session, source) => session && !source
  | (.openPending, session, source) => session && source
  | (.started, session, source) => session && source
  | (.paused, session, source) => session && source
  | (.stopped, session, source) => session && source
  | (.closing, _, _) => true

/-- The match, computed. -/
def fits (p : CPlayer) : Bool := viewFits p.view

variable {p q : CPlayer}

/-- The last two parts follow from the others. -/
theorem stateFits_iff : p.StateFits ↔ p.fits = true := by
  unfold fits view
  constructor
  · intro h
    cases hs : p.m_state with
    | closed => simp [viewFits, h.closed hs]
    | ready => simp [viewFits, h.ready hs]
    | openPending => simpa [viewFits] using h.loaded (by simp [hs])
    | started => simpa [viewFits] using h.loaded (by simp [hs])
    | paused => simpa [viewFits] using h.loaded (by simp [hs])
    | stopped => simpa [viewFits] using h.loaded (by simp [hs])
    | closing => rfl
  · intro h
    have hpause : p.m_state ≠ .started → p.NothingPlaying := by
      intro hno
      unfold NothingPlaying
      cases hs : p.m_state with
      | closed => exact Or.inl (by simpa [viewFits, hs] using h)
      | ready =>
          obtain ⟨_, hnone⟩ : p.m_pSession = true ∧ p.m_pSource = none := by
            simpa [viewFits, hs] using h
          exact Or.inr (Or.inl hnone)
      | started => exact absurd hs hno
      | openPending => simp
      | paused => simp
      | stopped => simp
      | closing => simp
    refine ⟨?_, ?_, ?_, hpause, fun hno => hpause hno.1⟩
    · intro hs
      simpa [viewFits, hs] using h
    · intro hs
      simpa [viewFits, hs] using h
    · intro hs
      simp only [List.mem_cons, List.not_mem_nil, or_false] at hs
      rcases hs with hs | hs | hs | hs <;> simpa [viewFits, hs] using h

/-- The match depends on the view only. -/
theorem fits_congr (h : q.view = p.view) : q.fits = p.fits := congrArg viewFits h

/-! ## The condition -/

/-- `CreateSession` gets a session: closing the one before and `MFCreateMediaSession` succeed. -/
def makesSession (p : CPlayer) (c : SessionCalls) : Bool :=
  (!p.m_pSession || c.close) && c.createMediaSession

end CPlayer

/-- All calls of `OpenMem` succeed; `playing` says that a source is playing, which is then shut down. -/
def OpenCalls.succeeds (c : OpenCalls) (playing : Bool) : Bool :=
  c.reachesSession && c.setTopology && (!playing || c.shutdown)

/-- A topology is ready, and `Start` and the calls before it succeed. -/
def EventCalls.starts (c : EventCalls) (e : MediaEvent) : Bool :=
  c.reachesTopology e && e.topoStatus = .ready && c.getFullTopology && c.start

/-- The topology of a new presentation is set. -/
def EventCalls.presents (c : EventCalls) : Bool :=
  c.getEventObject && createPlaybackTopology c.topology && c.setTopology

namespace CPlayer

/-- **The condition.** An open on a session succeeds. A new session also delivers events, or, in
`SetVideoWindow`, the open that follows at once succeeds. And an event finds a session and a source if it
ends a presentation, and a source if it starts playback or sets the topology of a new presentation. -/
def keepsState (p : CPlayer) : PlayerOp → Bool
  | .setVideoWindow c =>
      !(c.mfStartup && c.createEvent && p.makesSession c.session) ||
        (if (c.ready.take 30).any id && p.hasPlayable then c.openMem.succeeds false
          else c.session.beginGetEvent)
  | .notifyPlay c => !(p.hasPlayable && p.m_pSession) || c.succeeds p.m_pSource.isSome
  | .openMem c => !p.m_pSession || c.succeeds p.m_pSource.isSome
  | .createSession c => !p.makesSession c || c.beginGetEvent
  | .handleEvent e c =>
      !c.taken e ||
        match e.meType with
        | .sessionTopologyStatus => !(p.m_pSession && c.starts e) || p.m_pSource.isSome
        | .endOfPresentation => p.m_pSession && p.m_pSource.isSome
        | .newPresentation => !(p.m_pSession && c.presents) || p.m_pSource.isSome
        | .sessionEnded => !(p.hasPlayable && p.m_pSession) || c.openMem.succeeds p.m_pSource.isSome
        | .sessionClosed => true
        | .other => true
  | _ => true

/-! ## Opening -/

variable {p q : CPlayer} {hr : Bool}

@[simp] theorem safeRelease_view (p : CPlayer) (i : Option Nat) : (p.safeRelease i).view = p.view := by
  cases i <;> rfl

theorem openMemDone_view (p : CPlayer) (i : Option Nat) (hr : Bool) :
    (p.openMemDone i hr).2.view =
      (if hr then p.m_state else .closed, p.m_pSession, p.m_pSource.isSome) := by
  rw [openMemDone, safeRelease_view]
  rfl

/-- A failed open goes to `Closed` and keeps the session. -/
theorem openMemDone_failed (p : CPlayer) (i : Option Nat) :
    (p.openMemDone i false).2.fits = !p.m_pSession := by
  rw [fits, openMemDone_view]
  rfl

/-- So an open that does not succeed matches only without a session. -/
theorem openMem_failed {t : CPlayer} {i : Option Nat} {c : OpenCalls}
    (hq : Except.ok (t.openMemDone i false) = (.ok (hr, q) : Except PlayerFault (Bool × CPlayer)))
    (hsession : t.m_pSession = p.m_pSession) (hno : c.succeeds p.m_pSource.isSome = false) :
    q.fits = (!p.m_pSession || c.succeeds p.m_pSource.isSome) := by
  obtain rfl := congrArg Prod.snd (Except.ok.inj hq)
  rw [openMemDone_failed, hsession, hno, Bool.or_false]

/-- What `CreateMediaSource` leaves. -/
theorem createMediaSource_made (p : CPlayer) (c : SourceCalls) :
    (p.createMediaSource c).2.m_pSession = p.m_pSession ∧
      (p.createMediaSource c).1 =
        (c.createSourceResolver && c.createObjectFromByteStream && c.queryInterface) ∧
      ((p.createMediaSource c).1 = true → (p.createMediaSource c).2.m_pSource.isSome = true) := by
  rw [createMediaSource]
  cases c.createSourceResolver with
  | false => exact ⟨rfl, rfl, fun h => absurd h Bool.false_ne_true⟩
  | true =>
      cases c.createObjectFromByteStream with
      | false => exact ⟨rfl, rfl, fun h => absurd h Bool.false_ne_true⟩
      | true =>
          cases c.queryInterface with
          | false => exact ⟨rfl, rfl, fun h => absurd h Bool.false_ne_true⟩
          | true => exact ⟨rfl, rfl, fun _ => rfl⟩

/-- **An open leaves a match exactly when it succeeds**, on a session. -/
theorem openMem_fits {c : OpenCalls} (hq : p.openMem c = .ok (hr, q)) :
    q.fits = (!p.m_pSession || c.succeeds p.m_pSource.isSome) := by
  obtain ⟨hsession, hmade, hsource⟩ := createMediaSource_made p c.source
  rw [openMem] at hq
  generalize p.createMediaSource c.source = out at hsession hmade hsource hq
  obtain ⟨ok, t⟩ := out
  dsimp only at hsession hmade hsource hq
  have hsucceeds : c.succeeds p.m_pSource.isSome = (c.createMemStream && c.createMFByteStream && ok &&
      c.createPresentationDescriptor && createPlaybackTopology c.topology && c.setTopology &&
      (!p.m_pSource.isSome || c.shutdown)) := by
    rw [hmade]
    simp only [OpenCalls.succeeds, OpenCalls.reachesSession, OpenCalls.replacesSource, Bool.and_assoc]
  -- one exit for each call that fails, in the order of the source
  split at hq
  · next h =>
      rw [Bool.not_eq_true'] at h
      exact openMem_failed hq rfl (by simp [hsucceeds, h])
  next hstream =>
  split at hq
  · next h =>
      rw [Bool.not_eq_true'] at h
      exact openMem_failed hq rfl (by simp [hsucceeds, h])
  next hbytes =>
  split at hq
  · next h =>
      rw [Bool.not_eq_true'] at h
      exact openMem_failed hq hsession (by simp [hsucceeds, h])
  next hok =>
  split at hq
  · next h =>
      rw [Bool.not_eq_true'] at h
      exact openMem_failed hq hsession (by simp [hsucceeds, h])
  next hdesc =>
  split at hq
  · next h =>
      rw [Bool.not_eq_true'] at h
      exact openMem_failed hq hsession (by simp [hsucceeds, h])
  next htopology =>
  split at hq
  · exact absurd hq (by simp)
  next hthere =>
  split at hq
  · next h =>
      rw [Bool.not_eq_true'] at h
      exact openMem_failed hq hsession (by simp [hsucceeds, h])
  next hset =>
  split at hq
  · -- the source before it could not be shut down
    next h =>
      rw [Bool.and_eq_true, Bool.not_eq_true'] at h
      refine openMem_failed hq ?_ (by rw [hsucceeds]; simp [h])
      rw [← hsession]
      cases p.m_pSource <;> rfl
  · next hshut =>
      simp only [Bool.not_eq_true', Bool.not_eq_false] at hstream hbytes hok hdesc htopology hthere hset
      -- no exit was taken, so all calls have succeeded
      have hall : c.succeeds p.m_pSource.isSome = true := by
        rw [hsucceeds, hstream, hbytes, hok, hdesc, htopology, hset]
        cases hsome : p.m_pSource.isSome with
        | false => rfl
        | true => simpa [hsome] using hshut
      obtain rfl := congrArg Prod.snd (Except.ok.inj hq)
      rw [fits, openMemDone_view, hall, Bool.or_true]
      cases p.m_pSource <;> simp [viewFits, shutdownSource, hthere, hsource hok]

theorem notifyPlay_fits {c : OpenCalls} (hq : p.notifyPlay c = .ok q) :
    q.fits =
      if p.hasPlayable then !p.m_pSession || c.succeeds p.m_pSource.isSome else p.fits := by
  rcases notifyPlay_cases p c with ⟨hplay, h⟩ | ⟨turned, hplay, h⟩
  · obtain rfl := Except.ok.inj (h.symm.trans hq)
    rw [hplay]
    rfl
  · rw [h] at hq
    obtain ⟨⟨hr, t⟩, hopen, rfl⟩ := map_eq_ok.mp hq
    rw [hplay, if_pos rfl]
    exact openMem_fits (p := { p with playList := turned }) hopen

/-! ## The session -/

theorem closeSession_view (p : CPlayer) (close : Bool) :
    (p.closeSession close).2.view = (.closed, false, false) := rfl

theorem createSession_view (p : CPlayer) (c : SessionCalls) :
    (p.createSession c).2.view =
      (if p.makesSession c && c.beginGetEvent then .ready else .closed, p.makesSession c, false) := by
  have hclosed := closeSession_view p c.close
  have hr : (p.closeSession c.close).1 = (!p.m_pSession || c.close) := rfl
  rw [createSession, makesSession, ← hr]
  -- the session before is given up in any case; only then is a new one made
  generalize p.closeSession c.close = out at hclosed ⊢
  obtain ⟨ok, t⟩ := out
  obtain ⟨hstate, hsession, hsource⟩ := (by simpa [view] using hclosed :
    t.m_state = .closed ∧ t.m_pSession = false ∧ t.m_pSource = none)
  cases ok with
  | false => simp [view, hstate, hsession, hsource]
  | true =>
      cases hmade : c.createMediaSession with
      | false => simp [view, hstate, hsession, hsource]
      | true => cases hevents : c.beginGetEvent <;> simp [view, hstate, hsource]

theorem createSession_fits (p : CPlayer) (c : SessionCalls) :
    (p.createSession c).2.fits = (!p.makesSession c || c.beginGetEvent) := by
  rw [fits, createSession_view]
  cases p.makesSession c <;> cases c.beginGetEvent <;> rfl

/-- A new session, and the open that follows at once. -/
theorem createSession_notify {c : SessionCalls} {o : OpenCalls}
    (hq : (p.createSession c).2.notifyPlay o = .ok q) :
    q.fits =
      (!p.makesSession c || if p.hasPlayable then o.succeeds false else c.beginGetEvent) := by
  obtain ⟨_, hsession, hsource⟩ := (by simpa [view] using createSession_view p c :
    _ ∧ (p.createSession c).2.m_pSession = p.makesSession c ∧ (p.createSession c).2.m_pSource = none)
  have hplay : (p.createSession c).2.hasPlayable = p.hasPlayable := by
    rw [hasPlayable, createSession_playList, hasPlayable]
  rw [notifyPlay_fits hq, hplay, hsession, hsource, createSession_fits]
  cases p.hasPlayable <;> rfl

theorem setVideoWindow_fits {c : WindowCalls} (hp : p.fits = true) (hq : p.setVideoWindow c = .ok q) :
    q.fits = p.keepsState (.setVideoWindow c) := by
  show q.fits = (!(c.mfStartup && c.createEvent && p.makesSession c.session) ||
    if (c.ready.take 30).any id && p.hasPlayable then c.openMem.succeeds false
      else c.session.beginGetEvent)
  rw [setVideoWindow] at hq
  split at hq
  · next hstart =>
      obtain rfl := Except.ok.inj hq
      rw [Bool.not_eq_true'] at hstart
      simp [hp, hstart]
  split at hq
  · next hevent =>
      obtain rfl := Except.ok.inj hq
      rw [Bool.not_eq_true'] at hevent
      -- without an event the old session stays, and so do state and source
      refine (fits_congr (p := p) rfl).trans ?_
      simp [hp, hevent]
  next hstart hevent =>
  simp only [Bool.not_eq_true', Bool.not_eq_false] at hstart hevent
  rw [hstart, hevent, Bool.true_and, Bool.true_and]
  split at hq
  · next hready =>
      rw [hready, Bool.true_and]
      dsimp only at hq
      exact createSession_notify
        (p := { p with startups := p.startups + 1, m_hCloseEvent := true,
                       eventsCreated := p.eventsCreated + 1 }) hq
  · next hready =>
      rw [Bool.not_eq_true] at hready
      obtain rfl := Except.ok.inj hq
      rw [hready, Bool.false_and, if_neg (by simp)]
      exact createSession_fits _ c.session

theorem shutdown_fits (p : CPlayer) (close : Bool) : (p.shutdown close).fits = true := rfl

theorem endBusiness_fits (p : CPlayer) (c : EndCalls) : (p.endBusiness c).fits = true := by
  unfold endBusiness release
  dsimp only
  split <;> rfl

theorem release_fits (hp : p.fits = true) (close : Bool) : (p.release close).fits = true := by
  unfold release
  dsimp only
  split
  · rfl
  · exact hp

/-! ## Playback and events -/

/-- A state written on a session with a source. -/
theorem fits_loaded {s : PlayerState} (hs : s ∈ [PlayerState.openPending, .started, .paused, .stopped])
    (hview : q.view = (s, p.m_pSession, p.m_pSource.isSome)) :
    q.fits = (p.m_pSession && p.m_pSource.isSome) := by
  rw [fits, hview]
  simp only [List.mem_cons, List.not_mem_nil, or_false] at hs
  rcases hs with rfl | rfl | rfl | rfl <;> rfl

/-- A state written on a player that fits, in a loaded state. -/
theorem fits_playing {s : PlayerState} (hp : p.fits = true)
    (hstate : p.m_state ∈ [PlayerState.openPending, .started, .paused, .stopped])
    (hs : s ∈ [PlayerState.openPending, .started, .paused, .stopped])
    (hview : q.view = (s, p.m_pSession, p.m_pSource.isSome)) : q.fits = true := by
  rw [fits_loaded hs hview, ← fits_loaded (q := p) hstate rfl]
  exact hp

theorem play_fits {start : Bool} (hp : p.fits = true) (hq : p.play start = .ok (hr, q)) :
    q.fits = true := by
  rw [play] at hq
  split at hq
  · obtain rfl := congrArg Prod.snd (Except.ok.inj hq)
    exact hp
  next hstate =>
  split at hq
  · obtain rfl := congrArg Prod.snd (Except.ok.inj hq)
    exact hp
  rw [startPlayback] at hq
  split at hq
  · exact absurd hq (by simp)
  obtain rfl := congrArg Prod.snd (Except.ok.inj hq)
  cases start with
  | false => exact hp
  | true =>
      -- the guard has let a loaded state through, so there are a session and a source
      exact fits_playing (s := .started) hp (by grind) (by simp) rfl

theorem pause_fits (hp : p.fits = true) (hr : Bool) : (p.pause hr).2.fits = true := by
  rw [pause]
  split
  · exact hp
  next hstate =>
  split
  · exact hp
  cases hr with
  | false => exact hp
  | true =>
      exact fits_playing (s := .paused) hp (by grind) (by simp) rfl

theorem stop_fits (hp : p.fits = true) (hr : Bool) : (p.stop hr).2.fits = true := by
  rw [stop]
  split
  · exact hp
  next hstate =>
  split
  · exact hp
  cases hr with
  | false => exact hp
  | true =>
      exact fits_playing (s := .stopped) hp (by grind) (by simp) rfl

theorem invoke_fits (hp : p.fits = true) {e : MediaEvent} {c : InvokeCalls}
    (hq : p.invoke e c = .ok q) : q.fits = true := by
  rw [invoke] at hq
  split at hq
  · exact absurd hq (by simp)
  split at hq
  · obtain rfl := Except.ok.inj hq
    exact hp
  split at hq
  · obtain rfl := Except.ok.inj hq
    exact hp
  split at hq
  · obtain rfl := Except.ok.inj hq
    exact hp
  split at hq
  · obtain rfl := Except.ok.inj hq
    exact hp
  · obtain rfl := Except.ok.inj hq
    exact hp

theorem onTopologyStatus_fits {e : MediaEvent} {c : EventCalls} (hp : p.fits = true)
    (hq : p.onTopologyStatus e c = .ok q) :
    q.fits = (!(p.m_pSession && c.starts e) || p.m_pSource.isSome) := by
  rw [EventCalls.starts, EventCalls.reachesTopology]
  rw [onTopologyStatus] at hq
  split at hq
  · next h =>
      obtain rfl := Except.ok.inj hq
      rw [Bool.not_eq_true'] at h
      simp [hp, h]
  next hstatus =>
  split at hq
  · next hready =>
      split at hq
      · next h =>
          obtain rfl := Except.ok.inj hq
          rw [Bool.not_eq_true'] at h
          simp [hp, hready, h]
      split at hq
      · next h =>
          obtain rfl := Except.ok.inj hq
          rw [Bool.not_eq_true'] at h
          simp [hp, hready, h]
      split at hq
      · exact absurd hq (by simp)
      split at hq
      · next h =>
          obtain rfl := Except.ok.inj hq
          rw [Bool.not_eq_true'] at h
          simp [hp, hready, h]
      next hobject hid hthere hfull =>
      simp only [Bool.not_eq_true', Bool.not_eq_false] at hstatus hobject hid hthere hfull
      rw [startPlayback, if_neg (by simp [hthere])] at hq
      cases hstart : c.start with
      | false =>
          obtain rfl : _ = q := by simpa [hstart, Except.map] using hq
          simp only [Bool.and_false, Bool.not_false, Bool.true_or]
          exact (fits_congr (p := p) rfl).trans hp
      | true =>
          obtain rfl : _ = q := by simpa [hstart, Except.map] using hq
          -- `Started` is written whether or not there is a source
          rw [fits_loaded (p := p) (s := .started) (by simp) rfl]
          simp [hstatus, hready, hobject, hid, hthere, hfull]
  · next h =>
      obtain rfl := Except.ok.inj hq
      simp [hp, h]
  · next h =>
      split at hq
      · exact absurd hq (by simp)
      · obtain rfl := Except.ok.inj hq
        simp [hp, h]
  · next h =>
      obtain rfl := Except.ok.inj hq
      simp [hp, h]

theorem onNewPresentation_fits {c : EventCalls} (hp : p.fits = true)
    (hq : p.onNewPresentation c = .ok q) :
    q.fits = (!(p.m_pSession && c.presents) || p.m_pSource.isSome) := by
  rw [onNewPresentation] at hq
  unfold EventCalls.presents
  split at hq
  · next h =>
      obtain rfl := Except.ok.inj hq
      rw [Bool.not_eq_true'] at h
      simp [hp, h]
  split at hq
  · next h =>
      obtain rfl := Except.ok.inj hq
      rw [Bool.not_eq_true'] at h
      simp [hp, h]
  split at hq
  · exact absurd hq (by simp)
  split at hq
  · next h =>
      obtain rfl := Except.ok.inj hq
      rw [Bool.not_eq_true'] at h
      simp [hp, h]
  next hpd htopology hthere hset =>
  simp only [Bool.not_eq_true', Bool.not_eq_false] at hpd htopology hthere hset
  obtain rfl := Except.ok.inj hq
  rw [fits_loaded (p := p) (s := .openPending) (by simp) rfl, hpd, htopology, hset, hthere]
  rfl

theorem handleEvent_fits {e : MediaEvent} {c : EventCalls} (hp : p.fits = true)
    (hq : p.handleEvent e c = .ok q) : q.fits = p.keepsState (.handleEvent e c) := by
  rw [keepsState]
  cases htaken : c.taken e with
  | false =>
      rw [handleEvent_of_not_taken p htaken] at hq
      obtain rfl := Except.ok.inj hq
      exact hp
  | true =>
      rw [handleEvent_of_taken p htaken] at hq
      rw [Bool.not_true, Bool.false_or]
      cases htype : e.meType with
      | sessionTopologyStatus =>
          rw [htype] at hq
          exact onTopologyStatus_fits hp hq
      | endOfPresentation =>
          rw [htype] at hq
          obtain rfl := Except.ok.inj hq
          -- `Stopped` is written without a look at the session or the source
          exact fits_loaded (p := p) (s := .stopped) (by simp) rfl
      | newPresentation =>
          rw [htype] at hq
          exact onNewPresentation_fits hp hq
      | sessionEnded =>
          rw [htype] at hq
          rw [notifyPlay_fits hq, hp]
          cases p.hasPlayable <;> rfl
      | sessionClosed =>
          rw [htype] at hq
          obtain rfl := Except.ok.inj hq
          exact hp
      | other =>
          rw [htype] at hq
          obtain rfl := Except.ok.inj hq
          exact hp

/-! ## Steps -/

/-- **A step of a player that fits leaves one that fits exactly when it meets the condition.** -/
theorem step_fits {op : PlayerOp} (hp : p.fits = true) (hstep : p.step op = some (.ok q)) :
    q.fits = p.keepsState op := by
  cases op with
  | setPlayList playList =>
      obtain rfl := Except.ok.inj (Option.some.inj hstep)
      exact hp
  | setVideoWindow c => exact setVideoWindow_fits hp (Option.some.inj hstep)
  | notifyPlay c =>
      rw [notifyPlay_fits (Option.some.inj hstep), hp]
      show _ = (!(p.hasPlayable && p.m_pSession) || c.succeeds p.m_pSource.isSome)
      cases p.hasPlayable <;> rfl
  | openMem c =>
      obtain ⟨⟨hr, t⟩, hopen, rfl⟩ := map_eq_ok.mp (Option.some.inj hstep)
      exact openMem_fits hopen
  | createSession c =>
      obtain rfl := Except.ok.inj (Option.some.inj hstep)
      exact createSession_fits p c
  | closeSession close =>
      obtain rfl := Except.ok.inj (Option.some.inj hstep)
      exact congrArg viewFits (closeSession_view p close)
  | play start =>
      obtain ⟨⟨hr, t⟩, hplay, rfl⟩ := map_eq_ok.mp (Option.some.inj hstep)
      exact play_fits hp hplay
  | pause hr =>
      obtain rfl := Except.ok.inj (Option.some.inj hstep)
      exact pause_fits hp hr
  | stop hr =>
      obtain rfl := Except.ok.inj (Option.some.inj hstep)
      exact stop_fits hp hr
  | invoke e c => exact invoke_fits hp (Option.some.inj hstep)
  | handleEvent e c =>
      obtain ⟨_, hstep⟩ := Option.ite_none_right_eq_some.mp hstep
      exact handleEvent_fits (p := { p with posted := p.posted.erase e }) hp (Option.some.inj hstep)
  | shutdown close =>
      obtain rfl := Except.ok.inj (Option.some.inj hstep)
      exact shutdown_fits p close
  | endBusiness c =>
      obtain rfl := Except.ok.inj (Option.some.inj hstep)
      exact endBusiness_fits p c
  | addRef =>
      obtain rfl := Except.ok.inj (Option.some.inj hstep)
      exact hp
  | release close =>
      obtain ⟨_, hstep⟩ := Option.ite_none_right_eq_some.mp hstep
      obtain rfl := Except.ok.inj (Option.some.inj hstep)
      exact release_fits (p := { p with lent := p.lent - 1 }) hp close

/-- A step that faults meets the condition: it has found no session. -/
theorem keepsState_of_fault {op : PlayerOp} (hstep : p.step op = some (.error .nullSession)) :
    p.keepsState op = true := by
  obtain ⟨hreach, hnone⟩ := (step_fault_iff hstep).mp rfl
  cases op with
  | setVideoWindow c =>
      have hno : p.makesSession c.session = false := hnone
      simp [keepsState, hno]
  | notifyPlay c =>
      have hno : p.m_pSession = false := hnone
      simp [keepsState, hno]
  | openMem c =>
      have hno : p.m_pSession = false := hnone
      simp [keepsState, hno]
  | handleEvent e c =>
      have hno : p.m_pSession = false := hnone
      simp only [PlayerOp.reachesSession, EventCalls.reachesSession, Bool.and_eq_true] at hreach
      cases htype : e.meType with
      -- this handler calls nothing on the session, so it cannot have faulted
      | endOfPresentation => simp [htype] at hreach
      | _ => simp [keepsState, htype, hno]
  | invoke e c => rfl
  | _ => simp [PlayerOp.reachesSession] at hreach

end CPlayer

/-! ## Runs -/

/-- The state of a player that did not fault matches its resources. -/
def StateMatches : Except PlayerFault CPlayer → Prop
  | .error _ => True
  | .ok p => p.StateFits

/-- The condition on a step. -/
def KeepsState : Except PlayerFault CPlayer → PlayerOp → Prop
  | .error _, _ => True
  | .ok p, op => p.keepsState op = true

instance (s : Except PlayerFault CPlayer) (op : PlayerOp) : Decidable (KeepsState s op) :=
  match s with
  | .error _ => isTrue trivial
  | .ok p => inferInstanceAs (Decidable (p.keepsState op = true))

/-- **`m_state` matches the session and the source throughout, exactly when every step meets the
condition.** -/
theorem stateMatches_iff {ops : List PlayerOp} {s' : Except PlayerFault CPlayer}
    (h : run playerStep (.ok {}) ops = some s') :
    EveryState playerStep StateMatches (.ok {}) ops ↔
      EveryStep playerStep KeepsState (.ok {}) ops := by
  have hinit : StateMatches (.ok {}) := CPlayer.stateFits_iff.mpr rfl
  refine everyState_iff_everyStep (I := StateMatches) hinit (fun t ht => ht) ?_ ?_ h
  · intro t op t' hI hop hstep
    obtain ⟨p, rfl, _, hp⟩ := playerStep_eq_some.mp hstep
    cases t' with
    | error e => trivial
    | ok q =>
        have hfits : p.fits = true := CPlayer.stateFits_iff.mp hI
        apply CPlayer.stateFits_iff.mpr
        rw [CPlayer.step_fits hfits hp]
        exact hop
  · intro t op t' hI hstep hI'
    obtain ⟨p, rfl, _, hp⟩ := playerStep_eq_some.mp hstep
    show p.keepsState op = true
    cases t' with
    | error e => exact CPlayer.keepsState_of_fault hp
    | ok q =>
        rw [← CPlayer.step_fits (CPlayer.stateFits_iff.mp hI) hp]
        exact CPlayer.stateFits_iff.mp hI'

/-- The window plays an item to its end, and the next one cannot be opened. -/
def failedOpen : List PlayerOp :=
  [.setPlayList [⟨1, 1, [], some []⟩], .setVideoWindow {},
    .invoke ⟨.sessionTopologyStatus, true, .ready⟩ {},
    .handleEvent ⟨.sessionTopologyStatus, true, .ready⟩ {},
    .invoke ⟨.endOfPresentation, true, .other⟩ {}, .handleEvent ⟨.endOfPresentation, true, .other⟩ {},
    .invoke ⟨.sessionEnded, true, .other⟩ {},
    .handleEvent ⟨.sessionEnded, true, .other⟩ { openMem := { createMemStream := false } }]

/-- **A failed open goes to `Closed` and keeps the session.** -/
theorem stateMatches_broken :
    ∃ p : CPlayer, run playerStep (.ok {}) failedOpen = some (.ok p) ∧ p.m_state = .closed ∧
      p.m_pSession = true ∧ ¬ EveryState playerStep StateMatches (.ok {}) failedOpen := by
  refine ⟨_, rfl, rfl, rfl, ?_⟩
  intro hall
  have hmatches := hall.last rfl
  exact absurd (CPlayer.StateFits.closed hmatches rfl) (by decide)

/-- A window that plays, pauses, goes on and is closed. -/
theorem stateMatches_played :
    EveryState playerStep StateMatches (.ok {})
      [.setPlayList [⟨1, 1, [], some []⟩], .setVideoWindow {},
        .invoke ⟨.sessionTopologyStatus, true, .ready⟩ {},
        .handleEvent ⟨.sessionTopologyStatus, true, .ready⟩ {}, .pause true, .play true, .stop true,
        .shutdown true] :=
  (stateMatches_iff rfl).mpr (by decide)

end AdManager.Player
