/-
# AdManager.Player.Balance — `MFStartup` against `MFShutdown`, and the close-event handles.

`SetVideoWindow` calls `MFStartup` once and stores a new close event in `m_hCloseEvent`. `Shutdown` calls
`MFShutdown` each time it is called, also when nothing was started, and closes the event if there is one.
It is reached from `closeVideoWnd`, from `endBusiness`, and from the destructor. That runs with the last
reference, which is either the one that `endBusiness` gives back or one that Media Foundation held on to:
a business that ends with a window open shuts down once more than it has started up, then or later.

`endBusiness` clears `_pPlayer` only if its own `Release` was the last. Otherwise the pointer stays, and a
call through it after the destructor has run is a fault.

Everything else a player does leaves the calls made so far alone, which is one fact for each function
(`ledger`). `balanced_iff` then says exactly which calls keep the two in balance.
-/
import AdManager.Player.NullSession

namespace AdManager.Player

open AdManager.Lib AdManager.Business

/-! ## The ledger -/

/-- What was started, shut down, created and closed so far, and whether `m_hCloseEvent` is set and the
player deleted. -/
structure Ledger where
  startups : Nat
  shutdowns : Nat
  eventsCreated : Nat
  eventsClosed : Nat
  m_hCloseEvent : Bool
  deleted : Bool
  deriving DecidableEq, Repr

namespace Ledger

/-- A window is opened: a start-up, then a new close event in place of the old one. -/
def opened (l : Ledger) (mfStartup createEvent : Bool) : Ledger :=
  if !mfStartup then l
  else
    { l with
      startups := l.startups + 1
      eventsCreated := l.eventsCreated + if createEvent then 1 else 0
      m_hCloseEvent := createEvent }

/-- A shut-down, whatever was started before. -/
def shutDown (l : Ledger) : Ledger :=
  { l with
    shutdowns := l.shutdowns + 1
    eventsClosed := l.eventsClosed + if l.m_hCloseEvent then 1 else 0
    m_hCloseEvent := false }

/-- A reference is given back: the last one deletes the player, which shuts down. -/
def released (l : Ledger) (last : Bool) : Ledger :=
  if last then { l.shutDown with deleted := true } else l

/-- The end of the business: one shut-down, and a second one if the player is deleted. -/
def ended (l : Ledger) (last : Bool) : Ledger := l.shutDown.released last

/-- The start-ups and shut-downs are even, and no close event is left open. -/
structure Even (l : Ledger) : Prop where
  startups : l.shutdowns = l.startups
  events : l.eventsClosed = l.eventsCreated

instance (l : Ledger) : Decidable l.Even :=
  decidable_of_iff (l.shutdowns = l.startups ∧ l.eventsClosed = l.eventsCreated)
    ⟨fun h => ⟨h.1, h.2⟩, fun h => ⟨h.startups, h.events⟩⟩

/-- The shut-downs that the end of the business makes. -/
def closings (last : Bool) : Nat := if last then 2 else 1

theorem opened_shutdowns_le {l : Ledger} (h : l.shutdowns ≤ l.startups) (mfStartup createEvent : Bool) :
    (l.opened mfStartup createEvent).shutdowns ≤ (l.opened mfStartup createEvent).startups := by
  unfold opened
  split
  · exact h
  · show l.shutdowns ≤ l.startups + 1
    omega

theorem opened_deleted (l : Ledger) (mfStartup createEvent : Bool) :
    (l.opened mfStartup createEvent).deleted = l.deleted := by
  unfold opened
  split <;> rfl

/-- One shut-down too many is one when no start-up is left. -/
theorem shutDown_le_iff {l : Ledger} :
    l.shutDown.shutdowns ≤ l.shutDown.startups ↔ l.shutdowns < l.startups := by
  show l.shutdowns + 1 ≤ l.startups ↔ _
  omega

/-- The second shut-down has no event to close. -/
theorem ended_even_iff {l : Ledger} {last : Bool} :
    (l.ended last).Even ↔
      l.startups = l.shutdowns + closings last ∧
        l.eventsCreated = l.eventsClosed + if l.m_hCloseEvent then 1 else 0 := by
  have hshut : (l.ended last).shutdowns = l.shutdowns + closings last := by
    cases last <;> rfl
  have hstart : (l.ended last).startups = l.startups := by
    cases last <;> rfl
  have hclosed : (l.ended last).eventsClosed = l.eventsClosed + if l.m_hCloseEvent then 1 else 0 := by
    cases last <;> rfl
  have hcreated : (l.ended last).eventsCreated = l.eventsCreated := by
    cases last <;> rfl
  constructor
  · intro h
    have h1 := h.startups
    have h2 := h.events
    omega
  · intro h
    exact ⟨by omega, by omega⟩

theorem ended_deleted {l : Ledger} (hlive : l.deleted = false) (last : Bool) :
    (l.ended last).deleted = last := by
  cases last with
  | false => exact hlive
  | true => rfl

/-- **The invariant**: no shut-down too many, everything even after the end of the business, and, once
`_pPlayer` is null, the player deleted and everything even. -/
structure Sound (l : Ledger) (pPlayer ended : Bool) : Prop where
  le : l.shutdowns ≤ l.startups
  even : ended = true → l.Even
  gone : pPlayer = false → l.deleted = true ∧ l.Even

namespace Sound

variable {l : Ledger} {pPlayer ended : Bool}

/-- Calls through a null `_pPlayer` do nothing. -/
theorem of_null (h : l.Sound false ended) (ended' : Bool) : l.Sound false ended' where
  le := h.le
  even _ := (h.gone rfl).2
  gone := h.gone

theorem opened (h : l.Sound true ended) (mfStartup createEvent : Bool) :
    (l.opened mfStartup createEvent).Sound true false where
  le := opened_shutdowns_le h.le mfStartup createEvent
  even := by simp
  gone := by simp

theorem shutDown (hlt : l.shutdowns < l.startups) : l.shutDown.Sound true false where
  le := shutDown_le_iff.mpr hlt
  even := by simp
  gone := by simp

/-- The business ends evenly. -/
theorem of_even (hlive : l.deleted = false) {last : Bool} (h : (l.ended last).Even) :
    (l.ended last).Sound (!last) true where
  le := h.startups.le
  even _ := h
  gone hlast := by
    rw [ended_deleted hlive]
    exact ⟨by simpa using hlast, h⟩

/-- A reference is given back: the last one must find a start-up to shut down. -/
theorem released_iff (h : l.Sound pPlayer ended) (hlive : l.deleted = false) (last : Bool) :
    ((last = true → l.shutdowns < l.startups) → (l.released last).Sound pPlayer ended) ∧
      ((l.released last).shutdowns ≤ (l.released last).startups → last = true →
        l.shutdowns < l.startups) := by
  cases last with
  | false => exact ⟨fun _ => h, fun _ hlast => absurd hlast (by simp)⟩
  | true =>
      refine ⟨fun hlt => ⟨shutDown_le_iff.mpr (hlt rfl), fun hended => ?_, fun hnull => ?_⟩, fun hle _ => ?_⟩
      · -- after the end of the business all start-ups are shut down already
        exact absurd (h.even hended).startups (hlt rfl).ne
      · exact absurd (hlive.symm.trans (h.gone hnull).1) (by simp)
      · exact shutDown_le_iff.mp hle

end Sound

end Ledger

/-! ## What leaves the ledger alone -/

namespace CPlayer

/-- The ledger of a player. -/
def ledger (p : CPlayer) : Ledger where
  startups := p.startups
  shutdowns := p.shutdowns
  eventsCreated := p.eventsCreated
  eventsClosed := p.eventsClosed
  m_hCloseEvent := p.m_hCloseEvent
  deleted := p.deleted

variable {p q : CPlayer} {hr : Bool}

theorem Opens.ledger (h : p.Opens q) : q.ledger = p.ledger := by
  obtain ⟨source, state, sources, next, rfl⟩ := h
  rfl

theorem notifyPlay_ledger {c : OpenCalls} (hq : p.notifyPlay c = .ok q) : q.ledger = p.ledger := by
  rcases notifyPlay_cases p c with ⟨_, h⟩ | ⟨turned, _, h⟩
  · obtain rfl := Except.ok.inj (h.symm.trans hq)
    rfl
  · rw [h] at hq
    obtain ⟨⟨hr, t⟩, hopen, rfl⟩ := map_eq_ok.mp hq
    exact (openMem_opens hopen).ledger

theorem closeSession_ledger (p : CPlayer) (close : Bool) :
    (p.closeSession close).2.ledger = p.ledger := by
  rw [closeSession]
  cases p.m_pSource with
  | none => split <;> rfl
  | some i => split <;> rfl

theorem createSession_ledger (p : CPlayer) (c : SessionCalls) :
    (p.createSession c).2.ledger = p.ledger := by
  rw [createSession, ← closeSession_ledger p c.close]
  rcases p.closeSession c.close with ⟨hr, q⟩
  dsimp only
  split
  · rfl
  split
  · rfl
  split <;> rfl

theorem Plays.ledger (h : p.Plays q) : q.ledger = p.ledger := by
  obtain ⟨state, display, posted, rfl⟩ := h
  rfl

theorem handleEvent_ledger {e : MediaEvent} {c : EventCalls} (hq : p.handleEvent e c = .ok q) :
    q.ledger = p.ledger := by
  -- only the end of a session opens the next item
  by_cases hended : e.meType = .sessionEnded ∧ c.taken e = true
  · rw [handleEvent_of_taken p hended.2, hended.1] at hq
    exact notifyPlay_ledger hq
  · exact (handleEvent_plays hended hq).ledger

end CPlayer

/-- What the player does besides the three calls of `AdManager` and the end of its last reference. -/
def PlayerOp.internal : PlayerOp → Bool
  | .setVideoWindow _ => false
  | .shutdown _ => false
  | .endBusiness _ => false
  | .release _ => false
  | _ => true

namespace CPlayer

variable {p q : CPlayer}

/-- The functions of the player other than those that write the ledger. -/
theorem step_ledger {op : PlayerOp} (hop : op.internal = true) (hstep : p.step op = some (.ok q)) :
    q.ledger = p.ledger := by
  cases op with
  | setVideoWindow c => simp [PlayerOp.internal] at hop
  | shutdown close => simp [PlayerOp.internal] at hop
  | endBusiness c => simp [PlayerOp.internal] at hop
  | release close => simp [PlayerOp.internal] at hop
  | setPlayList playList =>
      obtain rfl := Except.ok.inj (Option.some.inj hstep)
      rfl
  | notifyPlay c => exact notifyPlay_ledger (Option.some.inj hstep)
  | openMem c =>
      obtain ⟨⟨hr, t⟩, hopen, rfl⟩ := map_eq_ok.mp (Option.some.inj hstep)
      exact (openMem_opens hopen).ledger
  | createSession c =>
      obtain rfl := Except.ok.inj (Option.some.inj hstep)
      exact createSession_ledger p c
  | closeSession close =>
      obtain rfl := Except.ok.inj (Option.some.inj hstep)
      exact closeSession_ledger p close
  | play start =>
      obtain ⟨⟨hr, t⟩, hplay, rfl⟩ := map_eq_ok.mp (Option.some.inj hstep)
      exact (play_plays hplay).ledger
  | pause hr =>
      obtain rfl := Except.ok.inj (Option.some.inj hstep)
      exact (pause_plays p hr).ledger
  | stop hr =>
      obtain rfl := Except.ok.inj (Option.some.inj hstep)
      exact (stop_plays p hr).ledger
  | invoke e c => exact (invoke_plays (Option.some.inj hstep)).ledger
  | addRef =>
      obtain rfl := Except.ok.inj (Option.some.inj hstep)
      rfl
  | handleEvent e c =>
      obtain ⟨_, hstep⟩ := Option.ite_none_right_eq_some.mp hstep
      exact handleEvent_ledger (p := { p with posted := p.posted.erase e }) (Option.some.inj hstep)

/-! ## What writes it -/

theorem shutdown_ledger (p : CPlayer) (close : Bool) :
    (p.shutdown close).ledger = p.ledger.shutDown := by
  rw [← closeSession_ledger p close]
  rfl

theorem shutdown_lastReference (p : CPlayer) (close : Bool) :
    (p.shutdown close).lastReference = p.lastReference := by
  unfold shutdown closeSession
  cases p.m_pSource with
  | none => dsimp only; split <;> rfl
  | some i => dsimp only; split <;> rfl

/-- The destructor shuts down. -/
theorem release_ledger (p : CPlayer) (close : Bool) :
    (p.release close).ledger = p.ledger.released p.lastReference := by
  unfold release Ledger.released
  cases p.lastReference with
  | false => rfl
  | true =>
      have hagain := shutdown_ledger { p with m_nRefCount := p.m_nRefCount - 1 } close
      rw [if_pos rfl, if_pos rfl]
      exact congrArg (fun l : Ledger => { l with deleted := true }) hagain

theorem endBusiness_ledger (p : CPlayer) (c : EndCalls) :
    (p.endBusiness c).ledger = p.ledger.ended p.lastReference := by
  rw [endBusiness, release_ledger, shutdown_ledger, shutdown_lastReference]
  rfl

theorem setVideoWindow_ledger {c : WindowCalls} (hq : p.setVideoWindow c = .ok q) :
    q.ledger = p.ledger.opened c.mfStartup c.createEvent := by
  rw [setVideoWindow] at hq
  unfold Ledger.opened
  split at hq
  · next hstart =>
      obtain rfl := Except.ok.inj hq
      rw [if_pos hstart]
  next hstart =>
  rw [if_neg hstart]
  split at hq
  · next hevent =>
      obtain rfl := Except.ok.inj hq
      rw [Bool.not_eq_true'] at hevent
      -- the start-up counts, and the handle is overwritten by the failed creation
      rw [hevent]
      rfl
  next hevent =>
  rw [Bool.not_eq_true', Bool.not_eq_false] at hevent
  rw [hevent]
  have hsession := createSession_ledger
    { p with startups := p.startups + 1, m_hCloseEvent := true, eventsCreated := p.eventsCreated + 1 }
    c.session
  split at hq
  · exact (notifyPlay_ledger hq).trans hsession
  · obtain rfl := Except.ok.inj hq
    exact hsession

end CPlayer

/-! ## The calls of `AdManager` -/

/-- What ends the calls: a fault of the player, or a call through `_pPlayer` after the destructor. -/
inductive MediaFault where
  | player (e : PlayerFault)
  | deletedPlayer
  deriving DecidableEq, Repr

/-- The player of a business that has begun, whether `_pPlayer` still points to it, and whether the last
of the three calls was `endBusiness`. -/
structure Media where
  player : Except MediaFault CPlayer := .ok {}
  pPlayer : Bool := true
  ended : Bool := false

/-- A call of `AdManager`, a reference that Media Foundation gives back, or something else that goes on in
the player. -/
inductive MediaOp where
  | setVideoWnd (c : WindowCalls)
  | closeVideoWnd (close : Bool)
  | endBusiness (c : EndCalls)
  | release (close : Bool)
  | player (op : PlayerOp)
  deriving DecidableEq, Repr

/-- A call through `_pPlayer`, if it is not null. -/
def Media.call (s : Media) (p : CPlayer) (f : CPlayer → Except PlayerFault CPlayer) :
    Except MediaFault CPlayer :=
  if !s.pPlayer then .ok p
  else if p.deleted then .error .deletedPlayer
  else (f p).mapError .player

/-- One step. `endBusiness` sets `_pPlayer` to null if its `Release` was the last. -/
def mediaStep (s : Media) (op : MediaOp) : Option Media :=
  match s.player with
  | .error _ => none
  | .ok p =>
      match op with
      | .setVideoWnd c =>
          some { s with player := s.call p (·.setVideoWindow c), ended := false }
      | .closeVideoWnd close =>
          some { s with player := s.call p fun p => .ok (p.shutdown close), ended := false }
      | .endBusiness c =>
          some {
            player := s.call p fun p => .ok (p.endBusiness c)
            pPlayer := s.pPlayer && !p.lastReference
            ended := true }
      | .release close =>
          if p.deleted then none
          else (p.step (.release close)).map fun t => { s with player := t.mapError .player }
      | .player op =>
          if op.internal && !p.deleted then
            (p.step op).map fun t => { s with player := t.mapError .player }
          else none

/-- **Balance**: no shut-down too many, and everything even after `endBusiness`. -/
def Balanced (s : Media) : Prop :=
  match s.player with
  | .error _ => True
  | .ok p => p.shutdowns ≤ p.startups ∧ (s.ended = true → p.ledger.Even)

/-- **The condition**, for a call through `_pPlayer` that reaches a player. `closeVideoWnd` finds a
start-up that is not shut down yet. `endBusiness` finds as many of them as it makes shut-downs, two if it
gives back the last reference, and no event open but the one in `m_hCloseEvent`. And if Media Foundation
gives back the last reference, that also finds a start-up that is not shut down yet. -/
def KeepsBalance (s : Media) (op : MediaOp) : Prop :=
  match s.player with
  | .error _ => True
  | .ok p =>
      match op with
      | .closeVideoWnd _ => s.pPlayer = false ∨ p.deleted = true ∨ p.shutdowns < p.startups
      | .endBusiness _ => s.pPlayer = false ∨ p.deleted = true ∨
          (p.startups = p.shutdowns + Ledger.closings p.lastReference ∧
            p.eventsCreated = p.eventsClosed + if p.m_hCloseEvent then 1 else 0)
      | .release _ => p.lastReference = true → p.shutdowns < p.startups
      | _ => True

/-- The invariant of a run. -/
def SoundMedia (s : Media) : Prop :=
  match s.player with
  | .error _ => True
  | .ok p => p.ledger.Sound s.pPlayer s.ended

instance (s : Media) : Decidable (Balanced s) := by
  unfold Balanced
  split <;> infer_instance

instance (s : Media) (op : MediaOp) : Decidable (KeepsBalance s op) := by
  unfold KeepsBalance
  split
  · infer_instance
  · split <;> infer_instance

theorem SoundMedia.balanced {s : Media} (h : SoundMedia s) : Balanced s := by
  unfold SoundMedia at h
  unfold Balanced
  split
  · trivial
  · next p hp =>
      rw [hp] at h
      exact ⟨h.le, h.even⟩

/-- **A step from a sound state keeps the balance exactly when it meets the condition.** -/
theorem mediaStep_sound {s s' : Media} {op : MediaOp} (hs : SoundMedia s)
    (hstep : mediaStep s op = some s') :
    (KeepsBalance s op → SoundMedia s') ∧ (Balanced s' → KeepsBalance s op) := by
  obtain ⟨player, pPlayer, ended⟩ := s
  cases player with
  | error e => simp [mediaStep] at hstep
  | ok p =>
      have hs : p.ledger.Sound pPlayer ended := hs
      cases op with
      | setVideoWnd c =>
          obtain rfl := Option.some.inj hstep
          refine ⟨fun _ => ?_, fun _ => trivial⟩
          cases pPlayer with
          | false => exact hs.of_null false
          | true =>
              cases hdel : p.deleted with
              | true => simp [SoundMedia, Media.call, hdel]
              | false =>
                  cases hq : p.setVideoWindow c with
                  | error e => simp [SoundMedia, Media.call, hdel, hq, Except.mapError]
                  | ok q =>
                      simp only [SoundMedia, Media.call, hdel, hq, Except.mapError, Bool.not_true,
                        Bool.false_eq_true, if_false]
                      rw [CPlayer.setVideoWindow_ledger hq]
                      exact hs.opened c.mfStartup c.createEvent
      | closeVideoWnd close =>
          obtain rfl := Option.some.inj hstep
          cases pPlayer with
          | false => exact ⟨fun _ => hs.of_null false, fun _ => Or.inl rfl⟩
          | true =>
              cases hdel : p.deleted with
              | true => exact ⟨fun _ => by simp [SoundMedia, Media.call, hdel], fun _ => Or.inr (Or.inl hdel)⟩
              | false =>
                  have hledger := CPlayer.shutdown_ledger p close
                  simp only [SoundMedia, Balanced, KeepsBalance, Media.call, hdel, Except.mapError,
                    Bool.not_true, Bool.false_eq_true, Bool.true_eq_false, if_false, false_or]
                  refine ⟨fun hlt => ?_, fun hle => ?_⟩
                  · rw [hledger]
                    exact Ledger.Sound.shutDown hlt
                  · have hle : (p.shutdown close).ledger.shutdowns ≤ (p.shutdown close).ledger.startups :=
                      hle.1
                    rw [hledger] at hle
                    exact Ledger.shutDown_le_iff.mp hle
      | endBusiness c =>
          obtain rfl := Option.some.inj hstep
          cases pPlayer with
          | false => exact ⟨fun _ => hs.of_null true, fun _ => Or.inl rfl⟩
          | true =>
              cases hdel : p.deleted with
              | true => exact ⟨fun _ => by simp [SoundMedia, Media.call, hdel], fun _ => Or.inr (Or.inl hdel)⟩
              | false =>
                  have hledger := CPlayer.endBusiness_ledger p c
                  simp only [SoundMedia, Balanced, KeepsBalance, Media.call, hdel, Except.mapError,
                    Bool.not_true, Bool.false_eq_true, Bool.true_eq_false, if_false, false_or,
                    Bool.true_and]
                  refine ⟨fun hfit => ?_, fun heven => ?_⟩
                  · rw [hledger]
                    exact Ledger.Sound.of_even hdel (Ledger.ended_even_iff.mpr hfit)
                  · have heven : (p.endBusiness c).ledger.Even := heven.2 trivial
                    rw [hledger] at heven
                    exact Ledger.ended_even_iff.mp heven
      | release close =>
          obtain ⟨hdel, hstep⟩ := Option.ite_none_left_eq_some.mp hstep
          rw [Bool.not_eq_true] at hdel
          obtain ⟨t, ht, rfl⟩ := Option.map_eq_some_iff.mp hstep
          obtain ⟨_, ht⟩ := Option.ite_none_right_eq_some.mp ht
          obtain rfl := Option.some.inj ht
          have hledger := CPlayer.release_ledger { p with lent := p.lent - 1 } close
          have hreleased := hs.released_iff hdel p.lastReference
          refine ⟨fun hlt => ?_, fun hle => hreleased.2 ?_⟩
          · show (CPlayer.release { p with lent := p.lent - 1 } close).ledger.Sound pPlayer ended
            rw [hledger]
            exact hreleased.1 hlt
          · have hle : (CPlayer.release { p with lent := p.lent - 1 } close).ledger.shutdowns ≤
              (CPlayer.release { p with lent := p.lent - 1 } close).ledger.startups := hle.1
            rw [hledger] at hle
            exact hle
      | player op =>
          refine ⟨fun _ => ?_, fun _ => trivial⟩
          obtain ⟨hop, hstep⟩ := Option.ite_none_right_eq_some.mp hstep
          rw [Bool.and_eq_true] at hop
          obtain ⟨t, ht, rfl⟩ := Option.map_eq_some_iff.mp hstep
          cases t with
          | error e => trivial
          | ok q =>
              show q.ledger.Sound pPlayer ended
              rw [CPlayer.step_ledger hop.1 ht]
              exact hs

end AdManager.Player
