/-
# AdManager.Player.NullSession — when the player calls through a null `m_pSession`.

`Play`, `Pause`, `Stop` and `CloseSession` look at `m_pSession` first. `OpenMem`, `OnTopologyStatus`,
`OnNewPresentation` and `Invoke` do not. The first three are reached from `NotifyPlay`, from
`SetVideoWindow`, which ignores a failed `CreateSession`, and from `HandleEvent`, which takes up events
that were posted while there was a session and may be delivered when it is gone.

For each of them the fault is characterised by its inputs: the external calls before the first call on
the session succeed, and there is no session at that moment. Whether there is one is read off the calls
made so far (`sessionOpen`): a session was made, and since then nothing has given it up. Likewise whether
there is something to play is decided by the last list set. So which orders of calls are unsafe is a
question about their sequence alone, and `noNullSession_iff` answers it.
-/
import AdManager.Player.MediaSource

namespace AdManager.Player

open AdManager.Lib AdManager.Business

/-! ## How far a step gets -/

/-- The calls of `OpenMem` succeed up to `SetTopology`. -/
def OpenCalls.reachesSession (c : OpenCalls) : Bool :=
  c.replacesSource && c.source.queryInterface && c.createPresentationDescriptor &&
    createPlaybackTopology c.topology

/-- The calls of `OnTopologyStatus` succeed up to its first call on the session. -/
def EventCalls.reachesTopology (c : EventCalls) (e : MediaEvent) : Bool :=
  c.getUINT32 &&
    match e.topoStatus with
    | .ready => c.getEventObject && c.getTopologyID
    | .startedSource => false
    | .ended => true
    | .other => false

/-- `HandleEvent` gets to a call on the session; for the end of an item that needs one to open next. -/
def EventCalls.reachesSession (c : EventCalls) (e : MediaEvent) (hasPlayable : Bool) : Bool :=
  c.taken e &&
    match e.meType with
    | .sessionTopologyStatus => c.reachesTopology e
    | .endOfPresentation => false
    | .newPresentation => c.getEventObject && createPlaybackTopology c.topology
    | .sessionEnded => hasPlayable && c.openMem.reachesSession
    | .sessionClosed => false
    | .other => false

/-- The calls of `SetVideoWindow` succeed up to that of `CreateSession`, and one of its looks finds
`ready` set. -/
def WindowCalls.reachesNotify (c : WindowCalls) : Bool :=
  c.mfStartup && c.createEvent && (c.ready.take 30).any id

/-- The external calls of a step succeed up to its first unchecked call on the session; `hasPlayable` says
that there is an item to open. -/
def PlayerOp.reachesSession (hasPlayable : Bool) : PlayerOp → Bool
  | .setVideoWindow c => c.reachesNotify && hasPlayable && c.openMem.reachesSession
  | .notifyPlay c => hasPlayable && c.reachesSession
  | .openMem c => c.reachesSession
  | .handleEvent e c => c.reachesSession e hasPlayable
  | .invoke _ _ => true
  | _ => false

/-- There is a session at that moment. `SetVideoWindow` has made a new one, unless closing the old one
or making it failed. -/
def CPlayer.sessionThere (p : CPlayer) : PlayerOp → Bool
  | .setVideoWindow c => (!p.m_pSession || c.session.close) && c.session.createMediaSession
  | _ => p.m_pSession

/-! ## What the calls made so far say -/

/-- The step makes a session; `there` says that there was one, which is closed first. -/
def PlayerOp.opens (there : Bool) : PlayerOp → Bool
  | .setVideoWindow c => c.mfStartup && c.createEvent &&
      ((!there || c.session.close) && c.session.createMediaSession)
  | .createSession c => (!there || c.close) && c.createMediaSession
  | _ => false

/-- The step gives the session up, if there is one: a close, or the close that precedes a new one. -/
def PlayerOp.closes : PlayerOp → Bool
  | .setVideoWindow c => c.mfStartup && c.createEvent
  | .createSession _ => true
  | .closeSession _ => true
  | .shutdown _ => true
  | .endBusiness _ => true
  | _ => false

/-- **After these calls there is a session.** -/
def sessionOpen (ops : List PlayerOp) : Bool :=
  ops.foldl (fun there op => op.opens there || (there && !op.closes)) false

/-- There is an item to open after the step, by the list that it sets or else by the one before. -/
def PlayerOp.lists (listed : Bool) : PlayerOp → Bool
  | .setPlayList playList => playList.any playable
  | _ => listed

/-- The last list set has an item to open. -/
def playableListed (ops : List PlayerOp) : Bool := ops.foldl PlayerOp.lists false

theorem sessionOpen_concat (ops : List PlayerOp) (op : PlayerOp) :
    sessionOpen (ops ++ [op]) = (op.opens (sessionOpen ops) || (sessionOpen ops && !op.closes)) := by
  rw [sessionOpen, List.foldl_append]
  rfl

/-- **Read off the sequence**: one of the calls made a session, and none after it has given one up. -/
theorem sessionOpen_iff {ops : List PlayerOp} : sessionOpen ops = true ↔
    ∃ pre op post, ops = pre ++ op :: post ∧ op.opens (sessionOpen pre) = true ∧
      ∀ o ∈ post, o.closes = false := by
  constructor
  · intro h
    induction ops using List.reverseRecOn with
    | nil => exact absurd h (by decide)
    | append_singleton ops op ih =>
        rw [sessionOpen_concat, Bool.or_eq_true, Bool.and_eq_true] at h
        rcases h with hopens | ⟨hthere, hkeeps⟩
        · exact ⟨ops, op, [], rfl, hopens, by simp⟩
        · obtain ⟨pre, o, post, rfl, hopens, hpost⟩ := ih hthere
          refine ⟨pre, o, post ++ [op], by simp, hopens, ?_⟩
          intro o' ho'
          rcases List.mem_append.mp ho' with ho' | ho'
          · exact hpost o' ho'
          · rw [List.mem_singleton.mp ho']
            simpa using hkeeps
  · rintro ⟨pre, op, post, rfl, hopens, hpost⟩
    induction post using List.reverseRecOn with
    | nil => rw [sessionOpen_concat, hopens, Bool.true_or]
    | append_singleton post o ih =>
        have hthere := ih fun o' ho' => hpost o' (List.mem_append_left _ ho')
        have hkeeps := hpost o (by simp)
        rw [show pre ++ op :: (post ++ [o]) = (pre ++ op :: post) ++ [o] by simp, sessionOpen_concat,
          hthere, hkeeps]
        simp

/-- **The condition.** Each step that gets to a call on the session comes when one is open; for
`SetVideoWindow`, when its own `CreateSession` has made one. -/
def PlaysOnSession (ops : List PlayerOp) : Prop :=
  ∀ pre op post, ops = pre ++ op :: post → op.reachesSession (playableListed pre) = true →
    sessionOpen (pre ++ [op]) = true

/-- The condition, one step after the other. -/
theorem playsOnSession_iff {ops : List PlayerOp} : PlaysOnSession ops ↔
    ∀ k, ∀ hk : k < ops.length, ops[k].reachesSession (playableListed (ops.take k)) = true →
      sessionOpen (ops.take (k + 1)) = true := by
  constructor
  · intro h k hk hreach
    have hsplit := h (ops.take k) ops[k] (ops.drop (k + 1)) (by simp) hreach
    rwa [List.take_append_getElem hk] at hsplit
  · rintro h pre op post rfl hreach
    have hstep := h pre.length (by simp)
    simp only [List.getElem_append_right (Nat.le_refl _), Nat.sub_self, List.getElem_cons_zero,
      List.take_left'] at hstep
    have htake : (pre ++ op :: post).take (pre.length + 1) = pre ++ [op] := by simp [List.take_append]
    rw [htake] at hstep
    exact hstep hreach

instance (ops : List PlayerOp) : Decidable (PlaysOnSession ops) :=
  decidable_of_iff _ playsOnSession_iff.symm

/-! ## The fault of each function -/

namespace CPlayer

variable {p : CPlayer}

theorem openMem_fault_iff {c : OpenCalls} :
    p.openMem c = .error .nullSession ↔ c.reachesSession = true ∧ p.m_pSession = false := by
  cases hrep : c.replacesSource with
  | false => simp [openMem_early p hrep, OpenCalls.reachesSession, hrep]
  | true =>
      simp only [OpenCalls.reachesSession, hrep, Bool.true_and, Bool.and_eq_true]
      simp only [OpenCalls.replacesSource, Bool.and_eq_true] at hrep
      obtain ⟨⟨⟨h1, h2⟩, h3⟩, h4⟩ := hrep
      simp only [openMem, createMediaSource, h1, h2, h3, h4]
      cases c.source.queryInterface with
      | false => simp
      | true =>
          cases c.createPresentationDescriptor with
          | false => simp
          | true =>
              cases createPlaybackTopology c.topology with
              | false => simp
              | true =>
                  cases p.m_pSession with
                  | false => simp
                  | true =>
                      simp only [Bool.not_true, Bool.false_eq_true, if_false]
                      split
                      · simp
                      · split <;> simp

theorem notifyPlay_fault_iff {c : OpenCalls} :
    p.notifyPlay c = .error .nullSession ↔
      (p.hasPlayable && c.reachesSession) = true ∧ p.m_pSession = false := by
  rcases notifyPlay_cases p c with ⟨hnone, h⟩ | ⟨turned, hsome, h⟩
  · simp [h, hnone]
  · rw [h, map_eq_error, openMem_fault_iff, hsome, Bool.true_and]

/-- What `CreateSession` leaves. -/
theorem createSession_session (p : CPlayer) (c : SessionCalls) :
    (p.createSession c).2.m_pSession = ((!p.m_pSession || c.close) && c.createMediaSession) := by
  rw [createSession, closeSession]
  cases p.m_pSession <;> cases c.close <;> cases c.createMediaSession <;> cases c.beginGetEvent <;> rfl

theorem closeSession_playList (p : CPlayer) (close : Bool) :
    (p.closeSession close).2.playList = p.playList := by
  rw [closeSession]
  cases p.m_pSource with
  | none => split <;> rfl
  | some i => split <;> rfl

theorem createSession_playList (p : CPlayer) (c : SessionCalls) :
    (p.createSession c).2.playList = p.playList := by
  rw [createSession, ← closeSession_playList p c.close]
  rcases p.closeSession c.close with ⟨hr, q⟩
  dsimp only
  split
  · rfl
  split
  · rfl
  split <;> rfl

theorem setVideoWindow_fault_iff {c : WindowCalls} :
    p.setVideoWindow c = .error .nullSession ↔
      (c.reachesNotify && p.hasPlayable && c.openMem.reachesSession) = true ∧
        ((!p.m_pSession || c.session.close) && c.session.createMediaSession) = false := by
  rw [setVideoWindow, WindowCalls.reachesNotify]
  cases c.mfStartup with
  | false => simp
  | true =>
      cases c.createEvent with
      | false => simp
      | true =>
          cases (c.ready.take 30).any id with
          | false => simp
          | true =>
              simp only [Bool.not_true, Bool.false_eq_true, if_false, if_true, Bool.true_and]
              rw [notifyPlay_fault_iff, createSession_session, hasPlayable, createSession_playList]
              rfl

theorem invoke_fault_iff {e : MediaEvent} {c : InvokeCalls} :
    p.invoke e c = .error .nullSession ↔ p.m_pSession = false := by
  rw [invoke]
  cases p.m_pSession with
  | false => simp
  | true =>
      simp only [Bool.not_true, Bool.false_eq_true, if_false, Bool.true_eq_false, iff_false]
      split
      · simp
      split
      · simp
      split
      · simp
      split <;> simp

theorem startPlayback_fault_iff {start : Bool} :
    p.startPlayback start = .error .nullSession ↔ p.m_pSession = false := by
  cases hs : p.m_pSession <;> simp [startPlayback, hs]

/-- `Play` looks first. -/
theorem play_no_fault (p : CPlayer) (start : Bool) : p.play start ≠ .error .nullSession := by
  rw [play]
  split
  · simp
  split
  · simp
  · next hthere =>
      rw [ne_eq, startPlayback_fault_iff]
      intro hnull
      exact hthere (by simp [hnull])

theorem onTopologyStatus_fault_iff {e : MediaEvent} {c : EventCalls} :
    p.onTopologyStatus e c = .error .nullSession ↔
      c.reachesTopology e = true ∧ p.m_pSession = false := by
  rw [onTopologyStatus, EventCalls.reachesTopology]
  cases c.getUINT32 with
  | false => simp
  | true =>
      cases e.topoStatus with
      | ready =>
          cases c.getEventObject with
          | false => simp
          | true =>
              cases c.getTopologyID with
              | false => simp
              | true =>
                  cases hs : p.m_pSession with
                  | false => simp
                  | true => cases c.getFullTopology <;> simp [map_eq_error, startPlayback_fault_iff]
      | startedSource => simp
      | ended => cases hs : p.m_pSession <;> simp
      | other => simp

theorem onNewPresentation_fault_iff {c : EventCalls} :
    p.onNewPresentation c = .error .nullSession ↔
      (c.getEventObject && createPlaybackTopology c.topology) = true ∧ p.m_pSession = false := by
  rw [onNewPresentation]
  cases c.getEventObject with
  | false => simp
  | true =>
      cases createPlaybackTopology c.topology with
      | false => simp
      | true =>
          cases hs : p.m_pSession with
          | false => simp
          | true => cases c.setTopology <;> simp

theorem handleEvent_fault_iff {e : MediaEvent} {c : EventCalls} :
    p.handleEvent e c = .error .nullSession ↔
      c.reachesSession e p.hasPlayable = true ∧ p.m_pSession = false := by
  rw [EventCalls.reachesSession]
  cases htaken : c.taken e with
  | false => simp [handleEvent_of_not_taken p htaken]
  | true =>
      rw [handleEvent_of_taken p htaken, Bool.true_and]
      cases e.meType with
      | sessionTopologyStatus => exact onTopologyStatus_fault_iff
      | endOfPresentation => simp
      | newPresentation => exact onNewPresentation_fault_iff
      | sessionEnded => exact notifyPlay_fault_iff
      | sessionClosed => simp
      | other => simp

end CPlayer

/-! ## Steps -/

/-- **A step faults exactly when it gets to a call on the session and there is none.** -/
theorem step_fault_iff {p : CPlayer} {op : PlayerOp} {t : Except PlayerFault CPlayer}
    (ht : p.step op = some t) :
    t = .error .nullSession ↔ op.reachesSession p.hasPlayable = true ∧ p.sessionThere op = false := by
  cases op with
  | setVideoWindow c =>
      obtain rfl := Option.some.inj ht
      exact CPlayer.setVideoWindow_fault_iff
  | notifyPlay c =>
      obtain rfl := Option.some.inj ht
      exact CPlayer.notifyPlay_fault_iff
  | openMem c =>
      obtain rfl := Option.some.inj ht
      exact map_eq_error.trans CPlayer.openMem_fault_iff
  | play start =>
      obtain rfl := Option.some.inj ht
      have hno := CPlayer.play_no_fault p start
      simp [map_eq_error, hno, PlayerOp.reachesSession]
  | handleEvent e c =>
      obtain ⟨_, ht⟩ := Option.ite_none_right_eq_some.mp ht
      obtain rfl := Option.some.inj ht
      exact CPlayer.handleEvent_fault_iff
  | invoke e c =>
      obtain rfl := Option.some.inj ht
      simp [CPlayer.invoke_fault_iff, PlayerOp.reachesSession, CPlayer.sessionThere]
  | release close =>
      obtain ⟨_, ht⟩ := Option.ite_none_right_eq_some.mp ht
      obtain rfl := Option.some.inj ht
      simp [PlayerOp.reachesSession]
  | _ =>
      obtain rfl := Option.some.inj ht
      simp [PlayerOp.reachesSession]

/-! ## What a step leaves -/

/-- What a step leaves of the session and of what there is to play, by the step alone. -/
structure CPlayer.Leaves (p : CPlayer) (op : PlayerOp) (q : CPlayer) : Prop where
  session : q.m_pSession = (op.opens p.m_pSession || (p.m_pSession && !op.closes))
  playable : q.hasPlayable = op.lists p.hasPlayable

namespace CPlayer

variable {p q : CPlayer}

theorem Plays.session (h : p.Plays q) : q.m_pSession = p.m_pSession ∧ q.hasPlayable = p.hasPlayable := by
  obtain ⟨state, display, posted, rfl⟩ := h
  exact ⟨rfl, rfl⟩

theorem Opens.session (h : p.Opens q) : q.m_pSession = p.m_pSession ∧ q.hasPlayable = p.hasPlayable := by
  obtain ⟨source, state, sources, next, rfl⟩ := h
  exact ⟨rfl, rfl⟩

theorem notifyPlay_session {c : OpenCalls} (hq : p.notifyPlay c = .ok q) :
    q.m_pSession = p.m_pSession ∧ q.hasPlayable = p.hasPlayable := by
  have hturned : ∀ item, Business.notifyPlay p.playList.length p.playList = item →
      CPlayer.hasPlayable { p with playList := item.1 } = p.hasPlayable := by
    rintro item rfl
    exact notifyPlay_any p.playList
  rw [notifyPlay] at hq
  split at hq
  · obtain rfl := Except.ok.inj hq
    exact ⟨rfl, hturned _ rfl⟩
  · obtain ⟨⟨hr, t⟩, hopen, rfl⟩ := map_eq_ok.mp hq
    obtain ⟨hsession, hplay⟩ := (openMem_opens hopen).session
    exact ⟨hsession, hplay.trans (hturned _ rfl)⟩

theorem handleEvent_session {e : MediaEvent} {c : EventCalls} (hq : p.handleEvent e c = .ok q) :
    q.m_pSession = p.m_pSession ∧ q.hasPlayable = p.hasPlayable := by
  by_cases hended : e.meType = .sessionEnded ∧ c.taken e = true
  · rw [handleEvent_of_taken p hended.2, hended.1] at hq
    exact notifyPlay_session hq
  · exact (handleEvent_plays hended hq).session

theorem createSession_leaves (p : CPlayer) (c : SessionCalls) :
    p.Leaves (.createSession c) (p.createSession c).2 where
  session := by
    rw [createSession_session]
    simp [PlayerOp.opens, PlayerOp.closes]
  playable := congrArg (List.any · playable) (createSession_playList p c)

theorem closeSession_leaves (p : CPlayer) (close : Bool) :
    (p.closeSession close).2.m_pSession = false ∧
      (p.closeSession close).2.hasPlayable = p.hasPlayable :=
  ⟨rfl, congrArg (List.any · playable) (closeSession_playList p close)⟩

theorem setVideoWindow_leaves {c : WindowCalls} (hq : p.setVideoWindow c = .ok q) :
    p.Leaves (.setVideoWindow c) q := by
  rw [setVideoWindow] at hq
  split at hq
  · next hstart =>
      obtain rfl := Except.ok.inj hq
      rw [Bool.not_eq_true'] at hstart
      exact ⟨by simp [PlayerOp.opens, PlayerOp.closes, hstart], rfl⟩
  split at hq
  · next hevent =>
      obtain rfl := Except.ok.inj hq
      rw [Bool.not_eq_true'] at hevent
      exact ⟨by simp [PlayerOp.opens, PlayerOp.closes, hevent], rfl⟩
  next hstart hevent =>
  simp only [Bool.not_eq_true', Bool.not_eq_false] at hstart hevent
  -- the session is the one that `CreateSession` has left, whatever `NotifyPlay` does with it
  have hmade := createSession_leaves
    { p with startups := p.startups + 1, m_hCloseEvent := true, eventsCreated := p.eventsCreated + 1 }
    c.session
  have hkept : ∀ r : CPlayer, q.m_pSession = r.m_pSession → q.hasPlayable = r.hasPlayable →
      r = (createSession { p with
        startups := p.startups + 1, m_hCloseEvent := true,
        eventsCreated := p.eventsCreated + 1 } c.session).2 → p.Leaves (.setVideoWindow c) q := by
    rintro r hsession hplay rfl
    refine ⟨?_, hplay.trans hmade.playable⟩
    rw [hsession, hmade.session]
    simp [PlayerOp.opens, PlayerOp.closes, hstart, hevent]
  split at hq
  · obtain ⟨hsession, hplay⟩ := notifyPlay_session hq
    exact hkept _ hsession hplay rfl
  · obtain rfl := Except.ok.inj hq
    exact hkept _ rfl rfl rfl

/-- The session and the items are as they were. -/
theorem leaves_of_same {op : PlayerOp} (h : q.m_pSession = p.m_pSession ∧ q.hasPlayable = p.hasPlayable)
    (hopens : op.opens p.m_pSession = false) (hcloses : op.closes = false)
    (hlist : op.lists p.hasPlayable = p.hasPlayable) : p.Leaves op q where
  session := by rw [h.1, hopens, hcloses, Bool.false_or, Bool.not_false, Bool.and_true]
  playable := by rw [h.2, hlist]

/-- The session is given up. -/
theorem leaves_of_closed {op : PlayerOp} (h : q.m_pSession = false ∧ q.hasPlayable = p.hasPlayable)
    (hopens : op.opens p.m_pSession = false) (hcloses : op.closes = true)
    (hlist : op.lists p.hasPlayable = p.hasPlayable) : p.Leaves op q where
  session := by rw [h.1, hopens, hcloses, Bool.not_true, Bool.and_false, Bool.or_self]
  playable := by rw [h.2, hlist]

/-- **Every step, as long as the player is not deleted.** -/
theorem step_leaves {op : PlayerOp} (hstep : p.step op = some (.ok q)) (hlive : q.deleted = false) :
    p.Leaves op q := by
  cases op with
  | setPlayList playList =>
      obtain rfl := Except.ok.inj (Option.some.inj hstep)
      exact ⟨by simp [PlayerOp.opens, PlayerOp.closes], rfl⟩
  | setVideoWindow c => exact setVideoWindow_leaves (Option.some.inj hstep)
  | notifyPlay c => exact leaves_of_same (notifyPlay_session (Option.some.inj hstep)) rfl rfl rfl
  | openMem c =>
      obtain ⟨⟨hr, t⟩, hopen, rfl⟩ := map_eq_ok.mp (Option.some.inj hstep)
      exact leaves_of_same (openMem_opens hopen).session rfl rfl rfl
  | createSession c =>
      obtain rfl := Except.ok.inj (Option.some.inj hstep)
      exact createSession_leaves p c
  | closeSession close =>
      obtain rfl := Except.ok.inj (Option.some.inj hstep)
      exact leaves_of_closed (closeSession_leaves p close) rfl rfl rfl
  | play start =>
      obtain ⟨⟨hr, t⟩, hplay, rfl⟩ := map_eq_ok.mp (Option.some.inj hstep)
      exact leaves_of_same (play_plays hplay).session rfl rfl rfl
  | pause hr =>
      obtain rfl := Except.ok.inj (Option.some.inj hstep)
      exact leaves_of_same (pause_plays p hr).session rfl rfl rfl
  | stop hr =>
      obtain rfl := Except.ok.inj (Option.some.inj hstep)
      exact leaves_of_same (stop_plays p hr).session rfl rfl rfl
  | invoke e c =>
      exact leaves_of_same (invoke_plays (Option.some.inj hstep)).session rfl rfl rfl
  | handleEvent e c =>
      obtain ⟨_, hstep⟩ := Option.ite_none_right_eq_some.mp hstep
      have hsame := handleEvent_session (p := { p with posted := p.posted.erase e })
        (Option.some.inj hstep)
      exact leaves_of_same hsame rfl rfl rfl
  | shutdown close =>
      obtain rfl := Except.ok.inj (Option.some.inj hstep)
      exact leaves_of_closed (closeSession_leaves p close) rfl rfl rfl
  | endBusiness c =>
      obtain rfl := Except.ok.inj (Option.some.inj hstep)
      refine leaves_of_closed ?_ rfl rfl rfl
      rw [endBusiness, release]
      dsimp only
      split
      · refine ⟨rfl, ?_⟩
        exact (closeSession_leaves _ c.closeAgain).2.trans (closeSession_leaves p c.close).2
      · exact closeSession_leaves p c.close
  | addRef =>
      obtain rfl := Except.ok.inj (Option.some.inj hstep)
      exact leaves_of_same ⟨rfl, rfl⟩ rfl rfl rfl
  | release close =>
      obtain ⟨_, hstep⟩ := Option.ite_none_right_eq_some.mp hstep
      obtain rfl := Except.ok.inj (Option.some.inj hstep)
      refine leaves_of_same ?_ rfl rfl rfl
      rw [release] at hlive ⊢
      dsimp only at hlive ⊢
      split
      · next hlast => exact absurd hlive (by simp [hlast])
      · exact ⟨rfl, rfl⟩

end CPlayer

/-! ## Runs -/

/-- **There is a session exactly when the calls made so far say so**, and likewise something to play. -/
theorem sessionOpen_run {ops : List PlayerOp} {s : Except PlayerFault CPlayer}
    (h : run playerStep (.ok {}) ops = some s) : ∀ p, s = .ok p → p.deleted = false →
      p.m_pSession = sessionOpen ops ∧ p.hasPlayable = playableListed ops := by
  refine run_induction (P := fun ops s => ∀ p, s = .ok p → p.deleted = false →
    p.m_pSession = sessionOpen ops ∧ p.hasPlayable = playableListed ops) ?_ ?_ h
  · rintro p hp _
    obtain rfl := Except.ok.inj hp
    exact ⟨rfl, rfl⟩
  · rintro ops op s s' _ ih hs q rfl hlive
    obtain ⟨p, rfl, hp, hstep⟩ := playerStep_eq_some.mp hs
    obtain ⟨hsession, hplay⟩ := ih p rfl hp
    have hleaves := CPlayer.step_leaves hstep hlive
    refine ⟨?_, ?_⟩
    · rw [hleaves.session, sessionOpen_concat, hsession]
    · rw [hleaves.playable, playableListed, List.foldl_append, hplay]
      rfl

/-- At a step that gets to a call on the session, the calls made so far say whether there is one. -/
theorem sessionThere_eq {p : CPlayer} {pre : List PlayerOp} {op : PlayerOp} {hasPlayable : Bool}
    (hsession : p.m_pSession = sessionOpen pre) (hreach : op.reachesSession hasPlayable = true) :
    p.sessionThere op = sessionOpen (pre ++ [op]) := by
  rw [sessionOpen_concat, ← hsession]
  cases op with
  | setVideoWindow c =>
      simp only [PlayerOp.reachesSession, WindowCalls.reachesNotify, Bool.and_eq_true] at hreach
      simp [CPlayer.sessionThere, PlayerOp.opens, PlayerOp.closes, hreach]
  | notifyPlay c => simp [CPlayer.sessionThere, PlayerOp.opens, PlayerOp.closes]
  | openMem c => simp [CPlayer.sessionThere, PlayerOp.opens, PlayerOp.closes]
  | handleEvent e c => simp [CPlayer.sessionThere, PlayerOp.opens, PlayerOp.closes]
  | invoke e c => simp [CPlayer.sessionThere, PlayerOp.opens, PlayerOp.closes]
  | _ => exact absurd hreach (by simp [PlayerOp.reachesSession])

/-- **No step uses a null session, exactly when the sequence of calls plays on an open session.** Each
step whose external calls succeed up to an unchecked call on the session comes after a call that made one
and that no close has followed since. Events may be taken up at any time after they were posted. -/
theorem noNullSession_iff {ops : List PlayerOp} {s' : Except PlayerFault CPlayer}
    (h : run playerStep (.ok {}) ops = some s') :
    EveryState playerStep (· ≠ .error .nullSession) (.ok {}) ops ↔ PlaysOnSession ops := by
  -- the step at a split of the run, and what is known there
  have hsplit : ∀ pre op post, ops = pre ++ op :: post → ∃ p t, run playerStep (.ok {}) pre = some (.ok p) ∧
      run playerStep (.ok {}) (pre ++ [op]) = some t ∧ p.hasPlayable = playableListed pre ∧
      p.m_pSession = sessionOpen pre ∧ (t = .error .nullSession ↔
        op.reachesSession p.hasPlayable = true ∧ p.sessionThere op = false) := by
    rintro pre op post rfl
    obtain ⟨s, hs, hrest⟩ := run_append_eq_some.mp h
    obtain ⟨t, ht, _⟩ := run_cons_eq_some.mp hrest
    obtain ⟨p, rfl, hlive, hp⟩ := playerStep_eq_some.mp ht
    obtain ⟨hsession, hplay⟩ := sessionOpen_run hs p rfl hlive
    exact ⟨p, t, hs, run_snoc.mpr ⟨_, hs, ht⟩, hplay, hsession, step_fault_iff hp⟩
  constructor
  · intro hall pre op post hops hreach
    obtain ⟨p, t, _, ht, hplay, hsession, hfault⟩ := hsplit pre op post hops
    have hsound : t ≠ .error .nullSession :=
      hall (pre ++ [op]) post t (by rw [hops, List.append_assoc]; rfl) ht
    rw [ne_eq, hfault, hplay, not_and, Bool.not_eq_false] at hsound
    rw [← sessionThere_eq hsession hreach]
    exact hsound hreach
  · intro hplays pre post t hops ht
    rcases List.eq_nil_or_concat pre with rfl | ⟨pre, op, rfl⟩
    · obtain rfl := Option.some.inj ht
      simp
    · rw [List.concat_eq_append] at hops ht
      have hops' : ops = pre ++ op :: post := by rw [hops, List.append_assoc]; rfl
      obtain ⟨p, t', _, ht', hplay, hsession, hfault⟩ := hsplit pre op post hops'
      obtain rfl := Option.some.inj (ht.symm.trans ht')
      rw [ne_eq, hfault]
      rintro ⟨hreach, hnone⟩
      rw [sessionThere_eq hsession hreach] at hnone
      rw [hplay] at hreach
      exact absurd (hplays pre op post hops' hreach) (by simp [hnone])

/-- The session reports that a topology is ready, the window is closed, and then the event arrives. -/
def lateEvent : List PlayerOp :=
  [.setVideoWindow { ready := [] }, .invoke ⟨.sessionTopologyStatus, true, .ready⟩ {}, .shutdown true,
    .handleEvent ⟨.sessionTopologyStatus, true, .ready⟩ {}]

theorem nullSession_lateEvent :
    run playerStep (.ok {}) lateEvent = some (.error .nullSession) := rfl

/-- The window is opened, plays, is closed and opened again, and takes an event of before up then. -/
def reopened : List PlayerOp :=
  [.setPlayList [⟨1, 1, [], some []⟩], .setVideoWindow {},
    .invoke ⟨.sessionTopologyStatus, true, .ready⟩ {},
    .handleEvent ⟨.sessionTopologyStatus, true, .ready⟩ {},
    .invoke ⟨.sessionEnded, true, .other⟩ {}, .shutdown true, .setVideoWindow { ready := [] },
    .handleEvent ⟨.sessionEnded, true, .other⟩ {}, .shutdown true]

theorem noNullSession_played : EveryState playerStep (· ≠ .error .nullSession) (.ok {}) reopened :=
  (noNullSession_iff rfl).mpr (by decide)

end AdManager.Player
