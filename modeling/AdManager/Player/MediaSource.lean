/-
# AdManager.Player.MediaSource — who holds a reference on the media source.

`OpenMem` keeps the pointer to the source played before in `pSourceTmp`, lets `CreateMediaSource`
overwrite `m_pSource`, and gives the old reference back in its clean-up. The clean-up is shared by all
its exits, also by those taken before `m_pSource` was overwritten: there the reference goes back while
`m_pSource` keeps the pointer, and the next close or open releases it a second time.

`Custody` is what holds at every point of the functions otherwise: the references held are those of
`m_pSource` and of `pSourceTmp`, once each.
-/
import AdManager.Player.CPlayer

namespace AdManager.Player

open AdManager.Lib AdManager.Business

/-! ## Custody of the sources -/

/-- The references the player holds while `pSourceTmp` is set beside `m_pSource`; sources are numbered
as they are made. -/
structure Custody (sources : RefHeap Nat) (m_pSource pSourceTmp : Option Nat) (next : Nat) : Prop where
  holds : sources.Holds (m_pSource.toList ++ pSourceTmp.toList)
  live : ∀ i, m_pSource = some i → (sources.object i).shut = false
  apart : ∀ i, pSourceTmp = some i → m_pSource ≠ some i
  below : ∀ i, m_pSource = some i ∨ pSourceTmp = some i → i < next
  fresh : ∀ i, next ≤ i → (sources.object i).shut = false

namespace Custody

variable {sources : RefHeap Nat} {m_pSource : Option Nat} {i next : Nat}

/-- `m_pSource` is taken over by `pSourceTmp`. -/
theorem detach (h : Custody sources m_pSource none next) : Custody sources none m_pSource next where
  holds := by simpa using h.holds
  live := by simp
  apart := by simp
  below j hj := h.below j (by simpa using hj)
  fresh := h.fresh

/-- A source made and not kept: its `QueryInterface` failed. -/
theorem create_none (h : Custody sources none m_pSource next) :
    Custody ((sources.addRef next).release next) none m_pSource (next + 1) where
  holds := by
    have hback := (h.holds.addRef (i := next)).release List.mem_cons_self
    rwa [List.erase_cons_head] at hback
  live := by simp
  apart := by simp
  below j hj := (h.below j hj).trans (Nat.lt_succ_self next)
  fresh j hj := by simpa using h.fresh j (by omega)

/-- A source made and stored in `m_pSource`. -/
theorem create_some (h : Custody sources none m_pSource next) :
    Custody (((sources.addRef next).addRef next).release next) (some next) m_pSource (next + 1) where
  holds := by
    have hback := ((h.holds.addRef (i := next)).addRef (i := next)).release List.mem_cons_self
    rwa [List.erase_cons_head] at hback
  live j hj := by
    obtain rfl := Option.some.inj hj
    simpa using h.fresh next le_rfl
  apart j hj heq := by
    obtain rfl := Option.some.inj heq
    exact absurd (h.below next (Or.inr hj)) (lt_irrefl next)
  below j hj := by
    rcases hj with hj | hj
    · obtain rfl := Option.some.inj hj
      exact Nat.lt_succ_self next
    · exact (h.below j (Or.inr hj)).trans (Nat.lt_succ_self next)
  fresh j hj := by simpa using h.fresh j (by omega)

/-- `pSourceTmp` is shut down. -/
theorem shutDown (h : Custody sources m_pSource (some i) next) :
    Custody (sources.shutDown i) m_pSource (some i) next where
  holds := h.holds.shutDown (by simp)
  live j hj := by
    have hne : j ≠ i := fun hji => h.apart i rfl (hji ▸ hj)
    rw [RefHeap.shutDown_shut _ _ _ hne, h.live j hj]
  apart := h.apart
  below := h.below
  fresh j hj := by
    have hne : j ≠ i := fun hji => absurd (h.below i (Or.inr rfl)) (by omega)
    rw [RefHeap.shutDown_shut _ _ _ hne, h.fresh j hj]

/-- `pSourceTmp` is released. -/
theorem release (h : Custody sources m_pSource (some i) next) :
    Custody (sources.release i) m_pSource none next where
  holds := by
    refine (h.holds.release (i := i) (by simp)).perm ?_
    have hnot : i ∉ m_pSource.toList := fun hi => h.apart i rfl (by simpa using hi)
    rw [List.erase_append_right _ hnot]
    simp
  live j hj := by simpa using h.live j hj
  apart := by simp
  below j hj := h.below j (by simpa using hj.imp_right (by simp))
  fresh j hj := by simpa using h.fresh j hj

end Custody

namespace CPlayer

/-- Between calls `pSourceTmp` is gone. -/
abbrev SourceInv (p : CPlayer) : Prop := Custody p.sources p.m_pSource none p.nextSource

/-- The fields custody is about. -/
def held (p : CPlayer) : RefHeap Nat × Option Nat × Nat := (p.sources, p.m_pSource, p.nextSource)

theorem SourceInv.of_held {p q : CPlayer} (hp : p.SourceInv) (h : q.held = p.held) : q.SourceInv := by
  obtain ⟨hsources, hsource, hnext⟩ := (by simpa [held] using h :
    q.sources = p.sources ∧ q.m_pSource = p.m_pSource ∧ q.nextSource = p.nextSource)
  rw [SourceInv, hsources, hsource, hnext]
  exact hp

end CPlayer

/-! ## `OpenMem` -/

/-- The calls of `OpenMem` succeed until `CreateMediaSource` overwrites `m_pSource`. -/
def OpenCalls.replacesSource (c : OpenCalls) : Bool :=
  c.createMemStream && c.createMFByteStream && c.source.createSourceResolver &&
    c.source.createObjectFromByteStream

namespace CPlayer

variable {p q r : CPlayer} {c : OpenCalls} {hr : Bool} {pSourceTmp : Option Nat}

theorem openMemDone_inv (h : Custody r.sources r.m_pSource pSourceTmp r.nextSource) (hr : Bool) :
    (r.openMemDone pSourceTmp hr).2.SourceInv := by
  cases pSourceTmp with
  | none => exact h
  | some i => exact h.release

theorem shutdownSource_custody (h : Custody r.sources r.m_pSource pSourceTmp r.nextSource) :
    Custody (r.shutdownSource pSourceTmp).sources (r.shutdownSource pSourceTmp).m_pSource pSourceTmp
      (r.shutdownSource pSourceTmp).nextSource := by
  cases pSourceTmp with
  | none => exact h
  | some i => exact h.shutDown

/-- Once the object was made, `m_pSource` is null or the new source, and the one before is held by
`pSourceTmp` alone. -/
theorem createMediaSource_custody (hp : p.SourceInv) {c : SourceCalls} (h1 : c.createSourceResolver)
    (h2 : c.createObjectFromByteStream) :
    Custody (p.createMediaSource c).2.sources (p.createMediaSource c).2.m_pSource p.m_pSource
      (p.createMediaSource c).2.nextSource := by
  simp only [createMediaSource, h1, h2, Bool.not_true, Bool.false_eq_true, if_false]
  split
  · exact hp.detach.create_none
  · exact hp.detach.create_some

/-- Before that, the clean-up finds `m_pSource` as it was. -/
theorem openMem_early (p : CPlayer) (h : c.replacesSource = false) :
    p.openMem c = .ok (p.openMemDone p.m_pSource false) := by
  simp only [OpenCalls.replacesSource, Bool.and_eq_false_iff] at h
  rcases h with ((h | h) | h) | h <;> simp [openMem, createMediaSource, h]

/-- **`OpenMem` that gets as far as its new source keeps custody**, whatever fails afterwards. -/
theorem openMem_replaced (hp : p.SourceInv) (hc : c.replacesSource = true)
    (hq : p.openMem c = .ok (hr, q)) : q.SourceInv := by
  simp only [OpenCalls.replacesSource, Bool.and_eq_true] at hc
  obtain ⟨⟨⟨h1, h2⟩, h3⟩, h4⟩ := hc
  have hcustody := createMediaSource_custody hp h3 h4
  have hdone := openMemDone_inv hcustody
  have hshut := openMemDone_inv (shutdownSource_custody hcustody)
  simp only [openMem, h1, h2, Bool.not_true, Bool.false_eq_true, if_false] at hq
  split at hq
  · obtain rfl := congrArg Prod.snd (Except.ok.inj hq)
    exact hdone false
  split at hq
  · obtain rfl := congrArg Prod.snd (Except.ok.inj hq)
    exact hdone false
  split at hq
  · obtain rfl := congrArg Prod.snd (Except.ok.inj hq)
    exact hdone false
  split at hq
  · exact absurd hq (by simp)
  split at hq
  · obtain rfl := congrArg Prod.snd (Except.ok.inj hq)
    exact hdone false
  split at hq
  · obtain rfl := congrArg Prod.snd (Except.ok.inj hq)
    exact hshut false
  · obtain rfl := congrArg Prod.snd (Except.ok.inj hq)
    exact (hshut true).of_held (by cases p.m_pSource <;> rfl)

/-! ## Sole ownership -/

/-- **The player owns its source.** It holds one reference on the source of `m_pSource`, which is not
shut down, none on any other, and has released or shut down nothing it held no reference on. -/
structure OwnsSource (p : CPlayer) : Prop where
  owned : ∀ i, p.m_pSource = some i → p.sources.object i = { refs := 1, shut := false }
  others : ∀ i, p.m_pSource ≠ some i → (p.sources.object i).refs = 0
  clean : p.sources.misused = []

theorem SourceInv.ownsSource (hp : p.SourceInv) : p.OwnsSource where
  owned i hi := by
    have hrefs : (p.sources.object i).refs = 1 := by
      rw [hp.holds.refs, hi]
      simp
    rw [← hrefs, ← hp.live i hi]
  others i hi := by
    rw [hp.holds.refs, List.count_eq_zero]
    simpa using hi
  clean := hp.holds.clean

/-- A step to `q` keeps the source in custody if `C`, and otherwise the source is no longer owned. -/
structure KeepsIff (q : CPlayer) (C : Prop) : Prop where
  keeps : C → q.SourceInv
  breaks : q.OwnsSource → C

theorem SourceInv.keepsIff (hq : q.SourceInv) : q.KeepsIff True where
  keeps _ := hq
  breaks _ := trivial

/-- `OpenMem` keeps custody unless it gives up, with a source playing, before that was replaced. -/
theorem openMem_keepsIff (hp : p.SourceInv) (hq : p.openMem c = .ok (hr, q)) :
    q.KeepsIff (p.m_pSource.isSome → c.replacesSource) := by
  cases hc : c.replacesSource with
  | true => exact ⟨fun _ => openMem_replaced hp hc hq, fun _ _ => rfl⟩
  | false =>
      rw [openMem_early p hc] at hq
      obtain rfl := congrArg Prod.snd (Except.ok.inj hq)
      cases hi : p.m_pSource with
      | none =>
          refine ⟨fun _ => hp.of_held ?_, fun _ h => absurd h (by simp)⟩
          simp [openMemDone, safeRelease, held]
      | some i =>
          -- the reference is given back and the pointer stays
          refine ⟨fun h => absurd (h rfl) (by simp), fun howns => ?_⟩
          have hone : (p.sources.object i).refs = 1 := by rw [hp.ownsSource.owned i hi]
          have hgone : ((p.sources.release i).object i).refs = 0 := by
            rw [RefHeap.release, RefHeap.use_object, if_pos ⟨rfl, by omega⟩]
            show (p.sources.object i).refs - 1 = 0
            omega
          have hstill := howns.owned i hi
          have hzero : ({ refs := 1, shut := false } : Counted).refs = 0 := by
            rw [← hstill]
            exact hgone
          exact absurd hzero (by decide)

/-- There is an item `NotifyPlay` would open. -/
def hasPlayable (p : CPlayer) : Bool := p.playList.any playable

/-- `NotifyPlay` is `OpenMem` on a player with the list turned, if there is something to play. -/
theorem notifyPlay_cases (p : CPlayer) (c : OpenCalls) :
    (p.hasPlayable = false ∧ p.notifyPlay c = .ok p) ∨
    ∃ turned, p.hasPlayable = true ∧
      p.notifyPlay c = ({ p with playList := turned }.openMem c).map Prod.snd := by
  rcases Player.notifyPlay_cases p.playList with ⟨hnone, h⟩ | ⟨turned, item, hsome, h⟩
  · exact Or.inl ⟨hnone, by simp only [CPlayer.notifyPlay, h]⟩
  · exact Or.inr ⟨turned, hsome, by simp only [CPlayer.notifyPlay, h]⟩

theorem notifyPlay_keepsIff (hp : p.SourceInv) (hq : p.notifyPlay c = .ok q) :
    q.KeepsIff (p.hasPlayable → p.m_pSource.isSome → c.replacesSource) := by
  rcases notifyPlay_cases p c with ⟨hplay, h⟩ | ⟨turned, hplay, h⟩
  · obtain rfl := Except.ok.inj (h.symm.trans hq)
    exact ⟨fun _ => hp, fun _ hc => absurd hc (by simp [hplay])⟩
  · rw [h] at hq
    obtain ⟨⟨hr, t⟩, ho, rfl⟩ := map_eq_ok.mp hq
    have hopen := openMem_keepsIff (p := { p with playList := turned }) hp ho
    exact ⟨fun hc => hopen.keeps (hc hplay), fun howns _ => hopen.breaks howns⟩

/-! ## Closing -/

theorem closeSession_inv (hp : p.SourceInv) (close : Bool) : (p.closeSession close).2.SourceInv := by
  have hdetach := hp.detach
  rw [closeSession]
  cases hi : p.m_pSource with
  | none =>
      rw [hi] at hdetach
      split <;> exact hdetach
  | some i =>
      rw [hi] at hdetach
      split
      · exact hdetach.shutDown.release
      · exact hdetach.release

theorem createSession_held (p : CPlayer) (c : SessionCalls) :
    (p.createSession c).2.held = (p.closeSession c.close).2.held := by
  rw [createSession]
  rcases p.closeSession c.close with ⟨hr, q⟩
  dsimp only
  split
  · rfl
  split
  · rfl
  split <;> rfl

theorem createSession_inv (hp : p.SourceInv) (c : SessionCalls) : (p.createSession c).2.SourceInv :=
  (closeSession_inv hp c.close).of_held (createSession_held p c)

theorem shutdown_inv (hp : p.SourceInv) (close : Bool) : (p.shutdown close).SourceInv :=
  (closeSession_inv hp close).of_held rfl

theorem release_inv (hp : p.SourceInv) (close : Bool) : (p.release close).SourceInv := by
  rw [release]
  dsimp only
  split
  · exact shutdown_inv (p := { p with m_nRefCount := p.m_nRefCount - 1 }) hp close
  · exact hp

/-- `SetVideoWindow` has closed what was playing before it opens anything. -/
theorem setVideoWindow_inv (hp : p.SourceInv) {c : WindowCalls} (hq : p.setVideoWindow c = .ok q) :
    q.SourceInv := by
  rw [setVideoWindow] at hq
  split at hq
  · obtain rfl := Except.ok.inj hq
    exact hp
  split at hq
  · obtain rfl := Except.ok.inj hq
    exact hp
  have hcreated := createSession_inv (p := { p with
    startups := p.startups + 1, m_hCloseEvent := true, eventsCreated := p.eventsCreated + 1 }) hp c.session
  have hsource := congrArg (fun x => x.2.1) (createSession_held { p with
    startups := p.startups + 1, m_hCloseEvent := true, eventsCreated := p.eventsCreated + 1 } c.session)
  split at hq
  · refine (notifyPlay_keepsIff hcreated hq).keeps fun _ hsome => ?_
    rw [Option.isSome_iff_ne_none] at hsome
    exact absurd hsource hsome
  · obtain rfl := Except.ok.inj hq
    exact hcreated

/-! ## Playback and events -/

theorem Plays.held (h : p.Plays q) : q.held = p.held := by
  obtain ⟨state, display, posted, rfl⟩ := h
  rfl

theorem handleEvent_keepsIff (hp : p.SourceInv) {e : MediaEvent} {c : EventCalls}
    (hq : p.handleEvent e c = .ok q) :
    q.KeepsIff (e.meType = .sessionEnded ∧ c.taken e = true → p.hasPlayable → p.m_pSource.isSome →
      c.openMem.replacesSource) := by
  by_cases hended : e.meType = .sessionEnded ∧ c.taken e = true
  · rw [handleEvent_of_taken p hended.2, hended.1] at hq
    have hplay := notifyPlay_keepsIff hp hq
    exact ⟨fun hc => hplay.keeps (hc hended), fun howns _ => hplay.breaks howns⟩
  · exact ⟨fun _ => hp.of_held (handleEvent_plays hended hq).held, fun _ h => absurd h hended⟩

end CPlayer

/-! ## Runs -/

/-- The player owns its source once; a fault has no state to speak of. -/
def SourceOwned : Except PlayerFault CPlayer → Prop
  | .error _ => True
  | .ok p => p.OwnsSource

/-- An open that happens while a source is playing gets as far as replacing it. -/
def KeepsSource : Except PlayerFault CPlayer → PlayerOp → Prop
  | .ok p, .openMem c => p.m_pSource.isSome → c.replacesSource
  | .ok p, .notifyPlay c => p.hasPlayable → p.m_pSource.isSome → c.replacesSource
  | .ok p, .handleEvent e c =>
      e.meType = .sessionEnded ∧ c.taken e = true → p.hasPlayable → p.m_pSource.isSome →
        c.openMem.replacesSource
  | _, _ => True

instance (s : Except PlayerFault CPlayer) (op : PlayerOp) : Decidable (KeepsSource s op) :=
  match s, op with
  | .ok p, .openMem c => inferInstanceAs (Decidable (p.m_pSource.isSome = true → c.replacesSource = true))
  | .ok p, .notifyPlay c =>
      inferInstanceAs (Decidable
        (p.hasPlayable = true → p.m_pSource.isSome = true → c.replacesSource = true))
  | .ok p, .handleEvent e c =>
      inferInstanceAs (Decidable (e.meType = .sessionEnded ∧ c.taken e = true → p.hasPlayable = true →
        p.m_pSource.isSome = true → c.openMem.replacesSource = true))
  | .error _, _ => isTrue trivial
  | .ok _, .setPlayList _ => isTrue trivial
  | .ok _, .setVideoWindow _ => isTrue trivial
  | .ok _, .createSession _ => isTrue trivial
  | .ok _, .closeSession _ => isTrue trivial
  | .ok _, .play _ => isTrue trivial
  | .ok _, .pause _ => isTrue trivial
  | .ok _, .stop _ => isTrue trivial
  | .ok _, .invoke _ _ => isTrue trivial
  | .ok _, .shutdown _ => isTrue trivial
  | .ok _, .endBusiness _ => isTrue trivial
  | .ok _, .addRef => isTrue trivial
  | .ok _, .release _ => isTrue trivial

/-- What every step does to custody. -/
theorem step_keepsIff {p q : CPlayer} {op : PlayerOp} (hp : p.SourceInv)
    (hq : p.step op = some (.ok q)) : q.KeepsIff (KeepsSource (.ok p) op) := by
  cases op with
  | setPlayList playList =>
      obtain rfl := Except.ok.inj (Option.some.inj hq)
      exact CPlayer.SourceInv.keepsIff hp
  | setVideoWindow c =>
      exact (CPlayer.setVideoWindow_inv hp (Option.some.inj hq)).keepsIff
  | notifyPlay c => exact CPlayer.notifyPlay_keepsIff hp (Option.some.inj hq)
  | openMem c =>
      obtain ⟨⟨hr, t⟩, hopen, rfl⟩ := map_eq_ok.mp (Option.some.inj hq)
      exact CPlayer.openMem_keepsIff hp hopen
  | createSession c =>
      obtain rfl := Except.ok.inj (Option.some.inj hq)
      exact (CPlayer.createSession_inv hp c).keepsIff
  | closeSession close =>
      obtain rfl := Except.ok.inj (Option.some.inj hq)
      exact (CPlayer.closeSession_inv hp close).keepsIff
  | play start =>
      obtain ⟨⟨hr, t⟩, hplay, rfl⟩ := map_eq_ok.mp (Option.some.inj hq)
      exact (hp.of_held (CPlayer.play_plays hplay).held).keepsIff
  | pause hr =>
      obtain rfl := Except.ok.inj (Option.some.inj hq)
      exact (hp.of_held (CPlayer.pause_plays p hr).held).keepsIff
  | stop hr =>
      obtain rfl := Except.ok.inj (Option.some.inj hq)
      exact (hp.of_held (CPlayer.stop_plays p hr).held).keepsIff
  | invoke e c => exact (hp.of_held (CPlayer.invoke_plays (Option.some.inj hq)).held).keepsIff
  | handleEvent e c =>
      obtain ⟨_, hq⟩ := Option.ite_none_right_eq_some.mp hq
      exact CPlayer.handleEvent_keepsIff (p := { p with posted := p.posted.erase e }) hp
        (Option.some.inj hq)
  | shutdown close =>
      obtain rfl := Except.ok.inj (Option.some.inj hq)
      exact (CPlayer.shutdown_inv hp close).keepsIff
  | endBusiness c =>
      obtain rfl := Except.ok.inj (Option.some.inj hq)
      exact (CPlayer.release_inv (CPlayer.shutdown_inv hp c.close) c.closeAgain).keepsIff
  | addRef =>
      obtain rfl := Except.ok.inj (Option.some.inj hq)
      exact CPlayer.SourceInv.keepsIff hp
  | release close =>
      obtain ⟨_, hq⟩ := Option.ite_none_right_eq_some.mp hq
      obtain rfl := Except.ok.inj (Option.some.inj hq)
      exact (CPlayer.release_inv (p := { p with lent := p.lent - 1 }) hp close).keepsIff

/-- A fault comes after `m_pSource` was replaced. -/
theorem openMem_fault {p : CPlayer} {c : OpenCalls} {e : PlayerFault} (h : p.openMem c = .error e) :
    c.replacesSource = true := by
  cases hc : c.replacesSource with
  | true => rfl
  | false => exact absurd (CPlayer.openMem_early p hc ▸ h) (by simp)

theorem notifyPlay_fault {p : CPlayer} {c : OpenCalls} {e : PlayerFault}
    (h : p.notifyPlay c = .error e) : c.replacesSource = true := by
  rcases CPlayer.notifyPlay_cases p c with ⟨_, hok⟩ | ⟨turned, _, hopen⟩
  · exact absurd (hok ▸ h) (by simp)
  · rw [hopen] at h
    cases ho : { p with playList := turned }.openMem c with
    | error e' => exact openMem_fault ho
    | ok out => simp [ho, Except.map] at h

/-- A step that faults breaks nothing about the source. -/
theorem step_fault {p : CPlayer} {op : PlayerOp} {e : PlayerFault}
    (hq : p.step op = some (.error e)) : KeepsSource (.ok p) op := by
  cases op with
  | openMem c =>
      intro _
      exact openMem_fault (map_eq_error.mp (Option.some.inj hq))
  | notifyPlay c => exact fun _ _ => notifyPlay_fault (Option.some.inj hq)
  | handleEvent e c =>
      intro hended _ _
      obtain ⟨_, hq⟩ := Option.ite_none_right_eq_some.mp hq
      have hq := Option.some.inj hq
      rw [CPlayer.handleEvent_of_taken _ hended.2, hended.1] at hq
      exact notifyPlay_fault hq
  | _ => trivial

/-- The invariant of a run. -/
def SourceKept : Except PlayerFault CPlayer → Prop
  | .error _ => True
  | .ok p => p.SourceInv

theorem sourceKept_init : SourceKept (.ok {}) where
  holds := { refs := by simp, clean := rfl }
  live := by simp
  apart := by simp
  below := by simp
  fresh _ _ := rfl

/-- **The media source is owned exactly once, exactly when every open that happens while a source is
playing gets as far as replacing it.** -/
theorem ownsSource_iff {ops : List PlayerOp} {s' : Except PlayerFault CPlayer}
    (h : run playerStep (.ok {}) ops = some s') :
    EveryState playerStep SourceOwned (.ok {}) ops ↔ EveryStep playerStep KeepsSource (.ok {}) ops := by
  refine everyState_iff_everyStep (I := SourceKept) sourceKept_init ?_ ?_ ?_ h
  · intro t ht
    cases t with
    | error e => trivial
    | ok p => exact CPlayer.SourceInv.ownsSource ht
  · intro t op t' ht hop hstep
    obtain ⟨p, rfl, _, hp⟩ := playerStep_eq_some.mp hstep
    cases t' with
    | error e => trivial
    | ok q => exact (step_keepsIff ht hp).keeps hop
  · intro t op t' ht hstep howns
    obtain ⟨p, rfl, _, hp⟩ := playerStep_eq_some.mp hstep
    cases t' with
    | error e => exact step_fault hp
    | ok q => exact (step_keepsIff ht hp).breaks howns

/-- A session, an item playing, and the next `OpenMem` fails at its first call: `m_pSource` is left with
a pointer on which no reference is held, and closing the session releases it once more. -/
def reopenFails : List PlayerOp :=
  [.createSession {}, .openMem {}, .openMem { createMemStream := false }]

theorem ownsSource_fails :
    (∃ s', run playerStep (.ok {}) reopenFails = some s' ∧
      ¬ EveryState playerStep SourceOwned (.ok {}) reopenFails) ∧
    ∃ q, run playerStep (.ok {}) (reopenFails ++ [.closeSession true]) = some (.ok q) ∧
      q.sources.misused = [0, 0] := by
  refine ⟨⟨_, rfl, fun h => ?_⟩, ⟨_, rfl, rfl⟩⟩
  have howned := (h.last rfl : CPlayer.OwnsSource _).owned 0 rfl
  exact absurd howned (by decide)

/-- Nothing fails, and the player is closed and opened again. -/
theorem ownsSource_reopened :
    EveryState playerStep SourceOwned (.ok {})
      [.createSession {}, .openMem {}, .openMem {}, .closeSession true, .createSession {}, .openMem {}] :=
  (ownsSource_iff rfl).mpr (by decide)

end AdManager.Player
