/-
# AdManager.Business.Player — the player's list over many refreshes.

Translated from `player.cpp` and `Player.h`. `requestAdList` adds an item for every lock-screen ad of the
policy and records its id in `_lockAds`; nothing takes one out again. `downloadAd` gives a new file to the
items of its id that are there at that moment; an item made later, when the file is cached already, is
made without one and no download follows that would bring it.

So both questions here are about histories: does the list agree with the last policy, and does every
item have the file that is cached for it?
-/
import AdManager.Business.Coherence

namespace AdManager.Business

open AdManager.Wire AdManager.Lib AdManager.Server

/-! ## `CPlayer` -/

/-- `CPlayer::NotifyPlay` with `count` turns of its loop left: the front item goes to the back, and the
first one of type 1 that has a file is opened. Gives the list and the item opened. -/
def notifyPlay : Nat → List PlayItem → List PlayItem × Option PlayItem
  | 0, playList => (playList, none)
  | _ + 1, [] => ([], none)
  | count + 1, item :: rest =>
      if item.type = 1 ∧ item.adfile.isSome then (rest ++ [item], some item)
      else notifyPlay count (rest ++ [item])

/-- A bar client with its player. `refreshed`, the policy at the last ad list accepted, and `opened`, the
items opened, are records. -/
structure BarClient where
  biz : ThreadBiz
  refreshed : Option AdPlayPolicy := none
  opened : List PlayItem := []

/-- What can happen: an event of the business thread, or `NotifyPlay`. -/
inductive ClientEvent where
  | biz (e : BizEvent)
  | notifyPlay
  deriving DecidableEq, Repr

/-- One event. -/
def clientStep (x : Environment) (s : BarClient) : ClientEvent → Option BarClient
  | .biz e => (step x s.biz e).map fun b =>
      { s with
        biz := b
        refreshed := if (adListContent x e).isSome then some s.biz.impl.policy else s.refreshed }
  | .notifyPlay =>
      let out := notifyPlay s.biz.impl.playList.length s.biz.impl.playList
      some { s with
        biz := { s.biz with impl := { s.biz.impl with playList := out.1 } }
        opened := s.opened ++ out.2.toList }

/-- The start of a bar client with a player. -/
def BarClient.init (barId : Bytes) : BarClient where
  biz := ThreadBiz.init barId false true

/-- **`NotifyPlay` only turns the list.** -/
theorem notifyPlay_perm (count : Nat) (playList : List PlayItem) :
    (notifyPlay count playList).1.Perm playList := by
  induction count generalizing playList with
  | zero => exact .refl _
  | succ count ih =>
      cases playList with
      | nil => exact .refl _
      | cons item rest =>
          have hturn : (rest ++ [item]).Perm (item :: rest) := List.perm_append_singleton item rest
          simp only [notifyPlay]
          split
          · exact hturn
          · exact (ih (rest ++ [item])).trans hturn

/-- What is opened is an item of the list, of type 1 and with a file. -/
theorem notifyPlay_opened {count : Nat} {playList : List PlayItem} {item : PlayItem}
    (h : (notifyPlay count playList).2 = some item) :
    item ∈ playList ∧ item.type = 1 ∧ item.adfile.isSome := by
  induction count generalizing playList with
  | zero => exact absurd h (by simp [notifyPlay])
  | succ count ih =>
      cases playList with
      | nil => exact absurd h (by simp [notifyPlay])
      | cons front rest =>
          simp only [notifyPlay] at h
          split at h
          · next hopen =>
              obtain rfl := Option.some.inj h
              exact ⟨List.mem_cons_self, hopen⟩
          · obtain ⟨hmem, hopen⟩ := ih h
            rw [List.mem_append, List.mem_singleton, or_comm, ← List.mem_cons] at hmem
            exact ⟨hmem, hopen⟩

/-! ## The properties and the conditions -/

/-- The keys of a policy's lock-screen ads, one for each occurrence. -/
def AdPlayPolicy.lockKeys (p : AdPlayPolicy) : List UInt32 := p.lockIds.map Int32.toUInt32

namespace BarClient

variable (x : Environment) (s : BarClient)

/-- **The list depends on the last policy only**: `_lockAds` is the set of its lock-screen ads, and the
player's list has one item for each of their occurrences, in some order. -/
def ShowsPolicy : Prop :=
  ∀ p ∈ s.refreshed, (∀ k, k ∈ s.biz.impl.lockAds ↔ k ∈ p.lockKeys) ∧
    (s.biz.impl.playList.map PlayItem.id).Perm p.lockKeys

/-- **Every item carries the file that is cached for it.** -/
def CarriesFiles : Prop :=
  ∀ item ∈ s.biz.impl.playList, ∀ n ∈ s.biz.impl.cache.bufImages, n.id = item.id →
    item.adfile = some n.data

/-- The condition for the first: when a list is accepted, the player has nothing to show yet. -/
def NothingShown : ClientEvent → Prop
  | .biz e => (adListContent x e).isSome = true → s.biz.impl.playList = []
  | .notifyPlay => True

/-- The condition for the second: when a list is accepted, no lock-screen ad of the policy has its file
in the cache. -/
def NoLockFile : ClientEvent → Prop
  | .biz e => (adListContent x e).isSome = true →
      ∀ n ∈ s.biz.impl.cache.bufImages, n.id ∉ s.biz.impl.policy.lockKeys
  | .notifyPlay => True

instance : (e : ClientEvent) → Decidable (s.NothingShown x e)
  | .biz e => inferInstanceAs (Decidable ((adListContent x e).isSome = true → _ = _))
  | .notifyPlay => .isTrue trivial

instance : (e : ClientEvent) → Decidable (s.NoLockFile x e)
  | .biz e => inferInstanceAs (Decidable ((adListContent x e).isSome = true →
      ∀ n ∈ s.biz.impl.cache.bufImages, n.id ∉ s.biz.impl.policy.lockKeys))
  | .notifyPlay => .isTrue trivial

end BarClient

/-! ## What an event does to the list -/

theorem lockIds_subset {p : AdPlayPolicy} {id : Int32} (h : id ∈ p.lockIds) : id ∈ p.ids := by
  obtain ⟨adplay, hadplay, hid⟩ := List.mem_flatMap.mp h
  exact List.mem_flatMap.mpr ⟨adplay, (List.mem_filter.mp hadplay).1, hid⟩

theorem mem_foldl_setInsert (ids : List Int32) (lockAds : List UInt32) (k : UInt32) :
    k ∈ ids.foldl (fun l id => setInsert l id.toUInt32) lockAds ↔
      k ∈ lockAds ∨ k ∈ ids.map Int32.toUInt32 := by
  induction ids generalizing lockAds with
  | nil => simp
  | cons id ids ih =>
      rw [List.foldl_cons, ih, AdManagerImpl.mem_setInsert, List.map_cons, List.mem_cons]
      tauto

/-- What the event `e` from `b` to `b'` does on a client with a player: nothing to the list, though files
may be evicted; it accepts a list, adds the lock-screen ads of the policy and keeps their files; or it
caches the file `body` of `id` and hands it to the items of that id. -/
inductive ScreenStep (x : Environment) (b : ThreadBiz) (e : BizEvent) (b' : ThreadBiz) : Prop
  | same (haccept : adListContent x e = none) (hlock : b'.impl.lockAds = b.impl.lockAds)
      (hplay : b'.impl.playList = b.impl.playList)
      (hfiles : ∀ n ∈ b'.impl.cache.bufImages, n ∈ b.impl.cache.bufImages)
  | list (m : PMap UInt32 Ad) (haccept : (adListContent x e).isSome = true)
      (hlock : ∀ k, k ∈ b'.impl.lockAds ↔ k ∈ b.impl.lockAds ∨ k ∈ b.impl.policy.lockKeys)
      (hplay : b'.impl.playList = b.impl.playList ++ b.impl.policy.lockIds.map (playItem m))
      (hfiles : ∀ n ∈ b'.impl.cache.bufImages, n ∈ b.impl.cache.bufImages)
      (hkept : ∀ n ∈ b.impl.cache.bufImages, n.id ∈ b.impl.policy.lockKeys →
        n ∈ b'.impl.cache.bufImages)
  | file (id : UInt32) (body : Bytes) (haccept : adListContent x e = none)
      (hmissing : b.impl.cache.contains id = false) (hlock : b'.impl.lockAds = b.impl.lockAds)
      (hplay : b'.impl.playList =
        if id ∈ b.impl.lockAds then (b.impl.updatePlayList id body).playList else b.impl.playList)
      (hfiles : ∀ n ∈ b'.impl.cache.bufImages,
        n ∈ b.impl.cache.bufImages ∨ (n.id = id ∧ n.data = body))

/-- **The invariant of all runs**: a client with a player, with verified files, that has an item for every
id of `_lockAds` and for no other. -/
structure ThreadBiz.Showing (x : Environment) (b : ThreadBiz) : Prop where
  downloaded : Downloaded x b
  client : b.impl.isBarServer = false
  player : b.impl.hasPlayer = true
  shown : ∀ k, k ∈ b.impl.lockAds ↔ k ∈ b.impl.playList.map PlayItem.id

namespace ThreadBiz.Showing

variable {x : Environment} {b b' : ThreadBiz} {e : BizEvent}

/-- The start of a pass changes nothing of the list. -/
theorem pass_screen (s : AdManagerImpl) :
    s.pass.lockAds = s.lockAds ∧ s.pass.playList = s.playList := by
  unfold AdManagerImpl.pass
  split <;> exact ⟨rfl, rfl⟩

/-- The file of a lock-screen ad outlives the start of a pass: the policy names it, and its ad has
download paths. -/
theorem lockFile_kept (h : b.Showing x) (ads : List Ad) (content : Bytes) {n : ImageNode}
    (hn : n ∈ b.impl.cache.bufImages) (hlock : n.id ∈ b.impl.policy.lockKeys) :
    n ∈ (b.impl.adListReceived ads content).pass.cache.bufImages := by
  obtain ⟨id, hid, hkey⟩ := List.mem_map.mp hlock
  obtain ⟨ad, _, htable, hpaths, _⟩ := h.downloaded.files n hn
  have hgrows := b.impl.adListReceived_grows ads content
  refine pass_keeps ?_ ⟨id, ?_, hkey, ad, hgrows.mapAd _ _ htable, hpaths⟩
  · rw [AdManagerImpl.adListReceived_eq]
    exact hn
  · rw [AdManagerImpl.adListReceived_eq]
    exact lockIds_subset hid

/-- **Every event is one of these.** -/
theorem screenStep (h : b.Showing x) (hs : Business.step x b e = some b') : ScreenStep x b e b' := by
  cases dataStep hs with
  | same hquiet hdata =>
      have haccept : adListContent x e = none := by
        cases e with
        | adListAnswer rsp => exact adListContent_of_none hquiet
        | _ => rfl
      exact .same haccept (by rw [hdata.impl]) (by rw [hdata.impl]) fun n hn => hdata.impl ▸ hn
  | policy rsp he hdata =>
      subst he
      rcases b.impl.policyReceived_cases x rsp with ⟨_, heq⟩ | ⟨_, _, heq⟩ | ⟨_, _, heq⟩ <;>
        rw [heq] at hdata <;>
        exact .same rfl (by rw [hdata.impl]) (by rw [hdata.impl]) fun n hn => by
          rw [hdata.impl] at hn
          exact hn
  | list rsp ads he hads hdata =>
      subst he
      obtain ⟨hpassLock, hpassPlay⟩ := pass_screen (b.impl.adListReceived ads rsp.content)
      have hread : b.impl.lockIdsRead = b.impl.policy.lockIds := if_neg (by simp [h.client])
      refine .list (b.impl.mapAd.insertAll (pairs ads)) ?_ ?_ ?_ ?_ ?_
      · rw [adListContent_of_some hads]
        rfl
      · intro k
        rw [hdata.impl, hpassLock, AdManagerImpl.adListReceived_eq, hread]
        exact mem_foldl_setInsert b.impl.policy.lockIds b.impl.lockAds k
      · rw [hdata.impl, hpassPlay, AdManagerImpl.adListReceived_eq, hread]
        exact if_pos h.player
      · intro n hn
        rw [hdata.impl] at hn
        have hbefore := AdManagerImpl.pass_images hn
        rw [AdManagerImpl.adListReceived_eq] at hbefore
        exact hbefore
      · intro n hn hlock
        rw [hdata.impl]
        exact h.lockFile_kept ads rsp.content hn hlock
  | retry f he hf htimer hend hdata =>
      subst he
      refine .same rfl (by rw [hdata.impl]; rfl) (by rw [hdata.impl]; rfl) ?_
      intro n hn
      rw [hdata.impl, AdManagerImpl.beginPass_eq] at hn
      exact (List.mem_filter.mp hn).1
  | image id ad urls p body rehash he hstage hverified hdata =>
      -- only a server fetches over HTTP
      have hfits := h.downloaded.stage
      unfold AtStage at hfits
      rw [hstage] at hfits
      exact absurd (h.client.symm.trans hfits.1) (by simp)
  | file id ad p rsp rehash he hstage hdata =>
      subst he
      have hfits := h.downloaded.stage
      unfold AtStage at hfits
      rw [hstage] at hfits
      by_cases hgood : rsp.returnCode = 0 ∧ x.verified ad rsp.content = true
      · rw [b.impl.fileReceived_verified hgood] at hdata
        refine .file id rsp.content rfl hfits.2.missing (by rw [hdata.impl]) ?_ ?_
        · rw [hdata.impl]
          simp only [h.player, and_true]
        · intro n hn
          rw [hdata.impl] at hn
          exact Cache.mem_insert hn
      · rw [b.impl.fileReceived_refused hgood] at hdata
        exact .same rfl (by rw [hdata.impl]) (by rw [hdata.impl]) fun n hn => hdata.impl ▸ hn
  | ad rsp ad he hrec hdata =>
      subst he
      exact .same rfl (by rw [hdata.impl]; rfl) (by rw [hdata.impl]; rfl) fun n hn => by
        rw [hdata.impl] at hn
        exact hn
  | ended he hdata =>
      subst he
      exact .same rfl (by rw [hdata.impl]) (by rw [hdata.impl]) fun n hn => by
        rw [hdata.impl] at hn
        exact hn

theorem map_playItem_id (m : PMap UInt32 Ad) (ids : List Int32) :
    (ids.map (playItem m)).map PlayItem.id = ids.map Int32.toUInt32 := List.map_map

/-- A new file changes no id of the list. -/
theorem updatePlayList_ids (s : AdManagerImpl) (id : UInt32) (body : Bytes) :
    (s.updatePlayList id body).playList.map PlayItem.id = s.playList.map PlayItem.id := by
  simp only [AdManagerImpl.updatePlayList, List.map_map]
  apply List.map_congr_left
  intro item _
  simp only [Function.comp_apply]
  split <;> rfl

theorem step (h : b.Showing x) (hs : Business.step x b e = some b') : b'.Showing x := by
  obtain ⟨hgrows, _⟩ := h.downloaded.stage.files_step hs
  refine ⟨h.downloaded.step hs, hgrows.isBarServer.trans h.client, hgrows.hasPlayer.trans h.player, ?_⟩
  intro k
  cases h.screenStep hs with
  | same _ hlock hplay _ =>
      rw [hlock, hplay]
      exact h.shown k
  | list m _ hlock hplay _ _ =>
      rw [hlock, hplay, List.map_append, List.mem_append, map_playItem_id, h.shown k]
      rfl
  | file id body _ _ hlock hplay _ =>
      rw [hlock, hplay, h.shown k]
      split
      · rw [updatePlayList_ids]
      · rfl

/-- Nothing of this depends on the order of the list. -/
theorem reorder (h : b.Showing x) {playList : List PlayItem} (hperm : playList.Perm b.impl.playList) :
    { b with impl := { b.impl with playList := playList } }.Showing x where
  downloaded := h.downloaded.grows ⟨rfl, rfl, .refl _⟩ rfl rfl
  client := h.client
  player := h.player
  shown := fun k => (h.shown k).trans (hperm.map PlayItem.id).mem_iff.symm

end ThreadBiz.Showing

namespace BarClient

variable {x : Environment} {s s' : BarClient} {e : ClientEvent}

theorem showing_init (x : Environment) (barId : Bytes) : (BarClient.init barId).biz.Showing x where
  downloaded := Downloaded.init x barId false true
  client := rfl
  player := rfl
  shown := by simp [BarClient.init, ThreadBiz.init]

/-- **Every event is one of the business thread, or turns the list.** -/
theorem step_cases (hs : clientStep x s e = some s') :
    (∃ e₀ b, e = .biz e₀ ∧ step x s.biz e₀ = some b ∧ s'.biz = b ∧ s'.refreshed =
        if (adListContent x e₀).isSome then some s.biz.impl.policy else s.refreshed) ∨
      (e = .notifyPlay ∧ s'.refreshed = s.refreshed ∧ ∃ playList : List PlayItem,
        playList.Perm s.biz.impl.playList ∧
        s'.biz = { s.biz with impl := { s.biz.impl with playList := playList } }) := by
  cases e with
  | biz e₀ =>
      obtain ⟨b, hb, rfl⟩ := Option.map_eq_some_iff.mp hs
      exact Or.inl ⟨e₀, b, rfl, hb, rfl, rfl⟩
  | notifyPlay =>
      obtain rfl := Option.some.inj hs
      exact Or.inr ⟨rfl, rfl, _, notifyPlay_perm _ s.biz.impl.playList, rfl⟩

theorem showing_step (h : s.biz.Showing x) (hs : clientStep x s e = some s') : s'.biz.Showing x := by
  rcases step_cases hs with ⟨e₀, b, _, hb, hbiz, _⟩ | ⟨_, _, playList, hperm, hbiz⟩
  · rw [hbiz]
    exact h.step hb
  · rw [hbiz]
    exact h.reorder hperm

/-! ## The list and the last policy -/

theorem showsPolicy_step (h : s.biz.Showing x) (hshows : s.ShowsPolicy) (hC : s.NothingShown x e)
    (hs : clientStep x s e = some s') : s'.ShowsPolicy := by
  unfold ShowsPolicy at hshows ⊢
  rcases step_cases hs with ⟨e₀, b, rfl, hb, rfl, hrefreshed⟩ | ⟨_, hrefreshed, playList, hperm, hbiz⟩
  · intro p hp
    rw [hrefreshed] at hp
    cases h.screenStep hb with
    | same haccept hlock hplay _ =>
        rw [hlock, hplay]
        exact hshows p (by simpa [haccept] using hp)
    | list m haccept hlock hplay _ _ =>
        -- nothing is there but what this list adds
        rw [if_pos haccept] at hp
        obtain rfl := Option.some.inj hp
        have hempty : s.biz.impl.playList = [] := hC haccept
        constructor
        · intro k
          rw [hlock, h.shown k, hempty]
          simp
        · rw [hplay, hempty, List.nil_append, ThreadBiz.Showing.map_playItem_id]
          rfl
    | file id body haccept _ hlock hplay _ =>
        have hids : s'.biz.impl.playList.map PlayItem.id = s.biz.impl.playList.map PlayItem.id := by
          rw [hplay]
          split
          · exact ThreadBiz.Showing.updatePlayList_ids _ id body
          · rfl
        rw [hlock, hids]
        exact hshows p (by simpa [haccept] using hp)
  · intro p hp
    rw [hrefreshed] at hp
    rw [hbiz]
    exact ⟨(hshows p hp).1, (hperm.map PlayItem.id).trans (hshows p hp).2⟩

/-- The list has grown by the ads of the policy, so before that it was empty. -/
theorem nothingShown_of_step (h : s.biz.Showing x) (hs : clientStep x s e = some s')
    (hshows : s'.ShowsPolicy) : s.NothingShown x e := by
  rcases step_cases hs with ⟨e₀, b, rfl, hb, rfl, hrefreshed⟩ | ⟨rfl, _⟩
  · intro haccept
    cases h.screenStep hb with
    | same hnone _ _ _ => exact absurd haccept (by simp [hnone])
    | file _ _ hnone _ _ _ _ => exact absurd haccept (by simp [hnone])
    | list m _ _ hplay _ _ =>
        rw [if_pos haccept] at hrefreshed
        obtain ⟨_, hperm⟩ := hshows _ hrefreshed
        rw [hplay, List.map_append, ThreadBiz.Showing.map_playItem_id] at hperm
        have hlength := hperm.length_eq
        rw [List.length_append, List.length_map, AdPlayPolicy.lockKeys] at hlength
        exact List.length_eq_zero_iff.mp (by omega)
  · trivial

/-- **When the list depends on the last policy only.** After every ad list of a run, the set and the
player's list are those of the policy, if and only if every list finds the player's list empty: no policy
before it had a lock-screen ad. -/
theorem shows_policy_iff (x : Environment) (barId : Bytes) (es : List ClientEvent) {s : BarClient}
    (h : run (clientStep x) (BarClient.init barId) es = some s) :
    EveryState (clientStep x) ShowsPolicy (BarClient.init barId) es ↔
      EveryStep (clientStep x) (NothingShown x) (BarClient.init barId) es :=
  everyState_iff_everyStep (I := fun s => s.biz.Showing x ∧ s.ShowsPolicy)
    ⟨showing_init x barId, by intro p hp; simp [BarClient.init] at hp⟩
    (fun _ h => h.2)
    (fun _ _ _ h hC hs => ⟨showing_step h.1 hs, showsPolicy_step h.1 h.2 hC hs⟩)
    (fun _ _ _ h hs hP => nothingShown_of_step h.1 hs hP) h

end BarClient

/-- A refresh with the policy `policy`, up to its first id. -/
def refreshTo (policy : Bytes) : List BizEvent :=
  [.policyAnswer { content := policy }, .adListAnswer { content := sampleAdList }, .next]

/-- The first refresh with its download, until the policy timer expires, and then the events `es`. -/
def afterRefresh (policy : Bytes) (es : List BizEvent) : List ClientEvent :=
  (BizEvent.connected :: (refreshTo policy ++ untilNextRefresh ++ es)).map .biz

/-- One refresh, and the ad is shown when its file is here. -/
theorem shows_policy_iff_once :
    EveryState (clientStep sampleEnvironment) BarClient.ShowsPolicy (BarClient.init (ascii "1"))
      (afterRefresh lockPolicy [] ++ [.notifyPlay]) := by
  have hview : (run (clientStep sampleEnvironment) (BarClient.init (ascii "1"))
      (afterRefresh lockPolicy [] ++ [.notifyPlay])).isSome = true := by
    decide +kernel
  obtain ⟨s, hs⟩ := Option.isSome_iff_exists.mp hview
  exact (BarClient.shows_policy_iff sampleEnvironment (ascii "1") _ hs).mpr (by decide +kernel)

/-- **Two refreshes that go wrong.** The same one twice doubles the list, and an ad that the second policy
drops is still there. -/
theorem list_accumulates :
    (∃ s, run (clientStep sampleEnvironment) (BarClient.init (ascii "1"))
        (afterRefresh lockPolicy (refreshTo lockPolicy)) =
        some s ∧
      s.biz.impl.playList.map PlayItem.id = [1, 1] ∧ ¬ s.ShowsPolicy) ∧
    ∃ s, run (clientStep sampleEnvironment) (BarClient.init (ascii "1"))
        (afterRefresh lockPolicy (refreshTo samplePolicy)) =
        some s ∧
      s.biz.impl.lockAds = [1] ∧ ¬ s.ShowsPolicy := by
  constructor
  · have hview : (run (clientStep sampleEnvironment) (BarClient.init (ascii "1"))
        (afterRefresh lockPolicy (refreshTo lockPolicy))).map
        (fun s => (s.refreshed, s.biz.impl.playList.map PlayItem.id)) =
        some (some { adPlays := [{ location := 1, adIds := [1] }] }, [1, 1]) := by
      decide +kernel
    obtain ⟨s, hs, hview⟩ := Option.map_eq_some_iff.mp hview
    obtain ⟨hrefreshed, hids⟩ := Prod.mk.inj hview
    refine ⟨s, hs, hids, ?_⟩
    intro hshows
    obtain ⟨_, hperm⟩ := hshows _ hrefreshed
    rw [hids] at hperm
    exact absurd hperm.length_eq (by decide)
  · have hview : (run (clientStep sampleEnvironment) (BarClient.init (ascii "1"))
        (afterRefresh lockPolicy (refreshTo samplePolicy))).map
        (fun s => (s.refreshed, s.biz.impl.lockAds)) =
        some (some { adPlays := [{ location := 2, adIds := [1] }] }, [1]) := by
      decide +kernel
    obtain ⟨s, hs, hview⟩ := Option.map_eq_some_iff.mp hview
    obtain ⟨hrefreshed, hlock⟩ := Prod.mk.inj hview
    refine ⟨s, hs, hlock, ?_⟩
    intro hshows
    obtain ⟨hset, _⟩ := hshows _ hrefreshed
    exact absurd ((hset 1).mp (by rw [hlock]; exact List.mem_singleton_self _)) (by decide)

/-! ## The files of the items -/

namespace BarClient

variable {x : Environment} {s s' : BarClient} {e : ClientEvent}

theorem carriesFiles_step (h : s.biz.Showing x) (hcarries : s.CarriesFiles) (hC : s.NoLockFile x e)
    (hs : clientStep x s e = some s') : s'.CarriesFiles := by
  rcases step_cases hs with ⟨e₀, b, rfl, hb, rfl, _⟩ | ⟨_, _, playList, hperm, hbiz⟩
  · intro item hitem n hn hid
    cases h.screenStep hb with
    | same _ _ hplay hfiles =>
        rw [hplay] at hitem
        exact hcarries item hitem n (hfiles n hn) hid
    | list m haccept _ hplay hfiles _ =>
        rw [hplay, List.mem_append] at hitem
        rcases hitem with hitem | hitem
        · exact hcarries item hitem n (hfiles n hn) hid
        · -- a new item is one of the lock screen, whose files are not here
          obtain ⟨id, hmem, rfl⟩ := List.mem_map.mp hitem
          refine absurd ?_ (hC haccept n (hfiles n hn))
          rw [hid]
          exact List.mem_map_of_mem hmem
    | file id body _ hmissing _ hplay hfiles =>
        have hother : ∀ n ∈ s.biz.impl.cache.bufImages, n.id ≠ id := by
          intro n hn heq
          have hfound := Cache.contains_iff.mpr ⟨n, hn, heq⟩
          exact absurd (hmissing.symm.trans hfound) (by simp)
        rw [hplay] at hitem
        split at hitem
        · obtain ⟨item, hold, rfl⟩ := List.mem_map.mp hitem
          have hkeep : ∀ a : PlayItem, (if a.id = id then { a with adfile := some body } else a).id =
              a.id := by
            intro a
            split <;> rfl
          rw [hkeep] at hid
          rcases hfiles n hn with hn | ⟨hnew, hdata⟩
          · rw [if_neg (hid ▸ hother n hn)]
            exact hcarries item hold n hn hid
          · rw [if_pos (hid.symm.trans hnew), hdata]
        · next hnot =>
            rcases hfiles n hn with hn | ⟨hnew, _⟩
            · exact hcarries item hitem n hn hid
            · -- an item of the new file would have its id in the set
              refine absurd ((h.shown id).mpr ?_) hnot
              rw [← hnew, hid]
              exact List.mem_map_of_mem hitem
  · intro item hitem n hn hid
    rw [hbiz] at hitem hn
    exact hcarries item (hperm.mem_iff.mp hitem) n hn hid

/-- A new item has no file, so none is cached for it. -/
theorem noLockFile_of_step (h : s.biz.Showing x) (hs : clientStep x s e = some s')
    (hcarries : s'.CarriesFiles) : s.NoLockFile x e := by
  rcases step_cases hs with ⟨e₀, b, rfl, hb, rfl, _⟩ | ⟨rfl, _⟩
  · intro haccept n hn hlock
    cases h.screenStep hb with
    | same hnone _ _ _ => exact absurd haccept (by simp [hnone])
    | file _ _ hnone _ _ _ _ => exact absurd haccept (by simp [hnone])
    | list m _ _ hplay _ hkept =>
        obtain ⟨id, hid, hkey⟩ := List.mem_map.mp hlock
        have hitem : playItem m id ∈ s'.biz.impl.playList := by
          rw [hplay]
          exact List.mem_append_right _ (List.mem_map_of_mem hid)
        have hfile := hcarries _ hitem n (hkept n hn hlock) hkey.symm
        exact absurd hfile (by simp [playItem])
  · trivial

/-- **When every item carries its cached file.** It does in all states of a run, those after a refresh or
a pass among them, if and only if, whenever a list is accepted, no file is cached for a lock-screen ad of
the policy. -/
theorem carries_files_iff (x : Environment) (barId : Bytes) (es : List ClientEvent) {s : BarClient}
    (h : run (clientStep x) (BarClient.init barId) es = some s) :
    EveryState (clientStep x) CarriesFiles (BarClient.init barId) es ↔
      EveryStep (clientStep x) (NoLockFile x) (BarClient.init barId) es :=
  everyState_iff_everyStep (I := fun s => s.biz.Showing x ∧ s.CarriesFiles)
    ⟨showing_init x barId, by intro item hitem; simp [BarClient.init, ThreadBiz.init] at hitem⟩
    (fun _ h => h.2)
    (fun _ _ _ h hC hs => ⟨showing_step h.1 hs, carriesFiles_step h.1 h.2 hC hs⟩)
    (fun _ _ _ h hs hP => noLockFile_of_step h.1 hs hP) h

end BarClient

/-- The file comes after its item. -/
theorem carries_files_iff_downloaded :
    EveryState (clientStep sampleEnvironment) BarClient.CarriesFiles (BarClient.init (ascii "1"))
      (afterRefresh lockPolicy [] ++ [.notifyPlay]) := by
  have hview : (run (clientStep sampleEnvironment) (BarClient.init (ascii "1"))
      (afterRefresh lockPolicy [] ++ [.notifyPlay])).isSome = true := by
    decide +kernel
  obtain ⟨s, hs⟩ := Option.isSome_iff_exists.mp hview
  exact (BarClient.carries_files_iff sampleEnvironment (ascii "1") _ hs).mpr (by decide +kernel)

/-- **An ad that moves to the lock screen after its file was cached.** When the pass is over, its item is
still without the file, which no later pass will download again. -/
theorem moved_ad_without_file :
    ∃ s, run (clientStep sampleEnvironment) (BarClient.init (ascii "1"))
        (afterRefresh samplePolicy (refreshTo lockPolicy ++ [.next])) = some s ∧
      s.biz.stage = .idle ∧
      s.biz.impl.playList = [{ id := 1, type := 0, filename := sampleAd.fileName, adfile := none }] ∧
      s.biz.impl.cache.bufImages = [{ node := 0, id := 1, data := sampleFile }] ∧ ¬ s.CarriesFiles := by
  have hview : (run (clientStep sampleEnvironment) (BarClient.init (ascii "1"))
      (afterRefresh samplePolicy (refreshTo lockPolicy ++ [.next]))).map
      (fun s => (s.biz.stage, s.biz.impl.playList, s.biz.impl.cache.bufImages)) =
      some (.idle, [{ id := 1, type := 0, filename := sampleAd.fileName, adfile := none }],
        [{ node := 0, id := 1, data := sampleFile }]) := by
    decide +kernel
  obtain ⟨s, hs, hview⟩ := Option.map_eq_some_iff.mp hview
  obtain ⟨hstage, hview⟩ := Prod.mk.inj hview
  obtain ⟨hplay, himages⟩ := Prod.mk.inj hview
  refine ⟨s, hs, hstage, hplay, himages, ?_⟩
  intro hcarries
  have hfile := hcarries _ (by rw [hplay]; exact List.mem_singleton_self _) _
    (by rw [himages]; exact List.mem_singleton_self _) rfl
  exact absurd hfile (by simp)

end AdManager.Business
