/-
# AdManager.Business.AdTable — when the ad table follows the ad list.

All writes to `_mapAd` leave an id that is there alone: `insert` by its nature, and `operator[]`, which
creates an ad with default fields when an id of the policy is not there. So an ad takes effect exactly if
its id is new or has that very ad already, and no ad is made up exactly if every id that is read has an
ad. Whether that holds depends on the lists and policies of the whole history.
-/
import AdManager.Business.BusinessThread

namespace AdManager.Business

open AdManager.Wire AdManager.Lib AdManager.Server

/-! ## The property and the condition -/

/-- **The table `m` follows the list**: it has every ad of the last list, if their ids are pairwise
different, and nothing but ads that were received, each under its id. -/
structure Follows (m : PMap UInt32 Ad) (listed received : List Ad) : Prop where
  listed : (listed.map Ad.id).Nodup → ∀ ad ∈ listed, m ad.key = some ad
  entries : ∀ k ad, m k = some ad → ad.key = k ∧ ad ∈ received

namespace ThreadBiz

/-- The table follows the list. -/
def TableFollows (b : ThreadBiz) : Prop := Follows b.impl.mapAd b.listed b.received

end ThreadBiz

/-- The ids of the policy that are read through `operator[]` after a list has been received: those of
the lock screen by a client, and all of them by `downloadAds` unless business has ended. -/
def AdManagerImpl.idsRead (s : AdManagerImpl) : List Int32 :=
  (if s.isBarServer then [] else s.policy.lockIds) ++
    (if s.isEndBusiness then [] else s.policy.ids)

/-- **The condition**: when a list is received, no other ad stands in the way of one of its ads, if
their ids are pairwise different, and every id that is read is in the table or in the list; and when a
download retry starts, every id of the policy is in the table. -/
def TakesEffect (x : Environment) (b : ThreadBiz) : BizEvent → Prop
  | .adListAnswer rsp => ∀ ads ∈ x.receivedAds rsp,
      ((ads.map Ad.id).Nodup →
        ∀ ad ∈ ads, b.impl.mapAd ad.key = none ∨ b.impl.mapAd ad.key = some ad) ∧
      ∀ id ∈ b.impl.idsRead, (b.impl.mapAd id.toUInt32).isSome ∨ id.toUInt32 ∈ ads.map Ad.key
  | .runHandler => ∀ f ∈ b.loop.queue.head?, f.timer = .download → b.impl.isEndBusiness = false →
      ∀ id ∈ b.impl.policy.ids, (b.impl.mapAd id.toUInt32).isSome
  | _ => True

/-- By running through the list, and not through all of `Int32`. -/
instance decidableForallIds (ids : List Int32) (p : Int32 → Prop) [DecidablePred p] :
    Decidable (∀ id ∈ ids, p id) := List.decidableBAll p ids

instance (x : Environment) (b : ThreadBiz) : (e : BizEvent) → Decidable (TakesEffect x b e)
  | .adListAnswer rsp => inferInstanceAs (Decidable (∀ ads ∈ x.receivedAds rsp, _ ∧ _))
  | .runHandler => inferInstanceAs (Decidable (∀ f ∈ b.loop.queue.head?, _ → _))
  | .tick _ => .isTrue trivial
  | .fire _ => .isTrue trivial
  | .connected => .isTrue trivial
  | .policyAnswer _ => .isTrue trivial
  | .next => .isTrue trivial
  | .fetchEnded _ _ => .isTrue trivial
  | .fileAnswer _ _ => .isTrue trivial
  | .requestAd _ => .isTrue trivial
  | .adAnswer _ => .isTrue trivial
  | .endBusiness => .isTrue trivial

/-! ## The table under the writes -/

/-- The pairs that a list of ads writes. -/
def pairs (ads : List Ad) : List (UInt32 × Ad) := ads.map fun ad => (ad.key, ad)

/-- The pairs that reading ids through `operator[]` writes. -/
def defaults (ids : List Int32) : List (UInt32 × Ad) := ids.map fun id => (id.toUInt32, {})

/-- What every received ad leaves behind: its id is in the table. -/
structure Known (m : PMap UInt32 Ad) (listed received : List Ad) : Prop where
  follows : Follows m listed received
  present : ∀ ad ∈ received, (m ad.key).isSome

variable {m : PMap UInt32 Ad} {listed received ads : List Ad} {ids : List Int32}

/-- Different ids have different keys. -/
theorem toUInt32_injective : Function.Injective Int32.toUInt32 := by
  rintro ⟨a⟩ ⟨b⟩ h
  exact congrArg Int32.ofUInt32 h

theorem key_nodup (h : (ads.map Ad.id).Nodup) : ((pairs ads).map Prod.fst).Nodup := by
  have hkeys : (pairs ads).map Prod.fst = (ads.map Ad.id).map Int32.toUInt32 := by
    simp only [pairs, List.map_map]
    rfl
  rw [hkeys]
  exact h.map toUInt32_injective

theorem mem_pairs {kv : UInt32 × Ad} (h : kv ∈ pairs ads) : kv.2 ∈ ads ∧ kv.1 = kv.2.key := by
  obtain ⟨ad, had, rfl⟩ := List.mem_map.mp h
  exact ⟨had, rfl⟩

theorem insertAll_pairs_isSome {ad : Ad} (h : ad ∈ ads) :
    (m.insertAll (pairs ads) ad.key).isSome :=
  m.insertAll_isSome (List.mem_map_of_mem h : (ad.key, ad) ∈ pairs ads)

/-- After a list, an id is in the table if it was there or is in the list. -/
theorem insertAll_pairs_isSome_iff {k : UInt32} :
    (m.insertAll (pairs ads) k).isSome ↔ (m k).isSome ∨ k ∈ ads.map Ad.key := by
  constructor
  · intro h
    obtain ⟨ad, had⟩ := Option.isSome_iff_exists.mp h
    rcases m.mem_of_insertAll had with hm | ⟨_, hmem⟩
    · exact Or.inl (by rw [hm]; rfl)
    · obtain ⟨had', hkey⟩ := mem_pairs hmem
      exact Or.inr (List.mem_map.mpr ⟨ad, had', hkey.symm⟩)
  · rintro (h | h)
    · exact (m.insertAll_extends (pairs ads)).isSome h
    · obtain ⟨ad, had, rfl⟩ := List.mem_map.mp h
      exact insertAll_pairs_isSome had

namespace Known

/-- The received ads are present, and only they, after more have been received. -/
theorem insertAds (h : Known m listed received) (ads : List Ad) :
    Known (m.insertAll (pairs ads)) listed (received ++ ads) where
  follows :=
    { listed := fun hnodup ad had => m.insertAll_extends _ _ _ (h.follows.listed hnodup ad had)
      entries := by
        intro k ad hk
        rcases m.mem_of_insertAll hk with hm | ⟨_, hmem⟩
        · obtain ⟨hkey, hrec⟩ := h.follows.entries k ad hm
          exact ⟨hkey, List.mem_append_left _ hrec⟩
        · obtain ⟨had, hkey⟩ := mem_pairs hmem
          exact ⟨hkey.symm, List.mem_append_right _ had⟩ }
  present := by
    intro ad had
    rcases List.mem_append.mp had with had | had
    · exact (m.insertAll_extends (pairs ads)).isSome (h.present ad had)
    · exact insertAll_pairs_isSome had

/-- A list takes effect where no other ad stands in its way. -/
theorem accept (h : Known m listed received)
    (hnew : (ads.map Ad.id).Nodup → ∀ ad ∈ ads, m ad.key = none ∨ m ad.key = some ad) :
    Known (m.insertAll (pairs ads)) ads (received ++ ads) where
  follows :=
    { listed := by
        intro hnodup ad had
        have hpair : (ad.key, ad) ∈ pairs ads := List.mem_map_of_mem had
        exact m.insertAll_of_mem (key_nodup hnodup) hpair (hnew hnodup ad had)
      entries := (h.insertAds ads).follows.entries }
  present := (h.insertAds ads).present

/-- **An ad that reading makes up was not received.** -/
theorem of_defaults (hpresent : ∀ ad ∈ received, (m ad.key).isSome)
    (h : Follows (m.insertAll (defaults ids)) listed received) :
    ∀ id ∈ ids, (m id.toUInt32).isSome := by
  intro id hid
  by_contra hnone
  rw [Option.not_isSome_iff_eq_none] at hnone
  have hpair : (id.toUInt32, ({} : Ad)) ∈ defaults ids := List.mem_map_of_mem hid
  obtain ⟨ad, had⟩ := Option.isSome_iff_exists.mp (m.insertAll_isSome hpair)
  rcases m.mem_of_insertAll had with hm | ⟨_, hmem⟩
  · simp [hnone] at hm
  · -- the entry is a default ad, so its key is that of a received ad
    obtain ⟨id', _, heq⟩ := List.mem_map.mp hmem
    obtain ⟨_, rfl⟩ := Prod.mk.inj heq
    obtain ⟨hkey, hrec⟩ := h.entries _ _ had
    have hsome := hpresent _ hrec
    rw [hkey, hnone] at hsome
    simp at hsome

end Known

theorem defaults_append (ids ids' : List Int32) :
    defaults (ids ++ ids') = defaults ids ++ defaults ids' := List.map_append

theorem insertAll_defaults (h : ∀ id ∈ ids, (m id.toUInt32).isSome) :
    m.insertAll (defaults ids) = m := by
  apply m.insertAll_eq_self
  intro kv hkv
  obtain ⟨id, hid, rfl⟩ := List.mem_map.mp hkv
  exact h id hid

/-- Reading an id through `operator[]` does not change what is read afterwards. -/
theorem getD_insertNew (m : PMap UInt32 Ad) (k j : UInt32) :
    (m.insertNew k {} j).getD {} = (m j).getD {} := by
  unfold PMap.insertNew
  cases m j with
  | some ad => rfl
  | none => by_cases hj : j = k <;> simp [hj]

/-- The entry of the player's list for an id of the lock screen, without a file. -/
def playItem (m : PMap UInt32 Ad) (id : Int32) : PlayItem where
  id := id.toUInt32
  type := ((m id.toUInt32).getD {}).type.toUInt32
  filename := ((m id.toUInt32).getD {}).fileName
  adfile := none

theorem playItem_insertNew (m : PMap UInt32 Ad) (k : UInt32) (id : Int32) :
    playItem (m.insertNew k {}) id = playItem m id := by
  simp only [playItem, getD_insertNew]

/-! ## What the code does to the table -/

namespace AdManagerImpl

variable (s : AdManagerImpl)

theorem insertAds_mapAd (ads : List Ad) : (s.insertAds ads).mapAd = s.mapAd.insertAll (pairs ads) := by
  simp only [insertAds, pairs, PMap.insertAll, List.foldl_map]

/-- The loop over the lock-screen ads: their ids are read, and recorded in the set and in the player's
list. -/
theorem foldl_lockAd (ids : List Int32) :
    ids.foldl lockAd s = { s with
      lockAds := ids.foldl (fun l id => setInsert l id.toUInt32) s.lockAds
      mapAd := s.mapAd.insertAll (defaults ids)
      playList := if s.hasPlayer then s.playList ++ ids.map (playItem s.mapAd) else s.playList } := by
  induction ids generalizing s with
  | nil => simp [defaults]
  | cons id ids ih =>
      have hitem : playItem (s.lockAd id).mapAd = playItem s.mapAd :=
        funext fun id' => playItem_insertNew s.mapAd id.toUInt32 id'
      rw [List.foldl_cons, ih, hitem]
      have hfirst : (s.lockAd id).playList =
          if s.hasPlayer then s.playList ++ [playItem s.mapAd id] else s.playList := by
        rw [← playItem_insertNew s.mapAd id.toUInt32 id]
        rfl
      rw [hfirst]
      cases hplayer : s.hasPlayer with
      | true => simp [lockAd, defaults, hplayer]
      | false => simp [lockAd, defaults, hplayer]

/-- The ids of the lock screen that are read when a list has been received. -/
def lockIdsRead : List Int32 := if s.isBarServer then [] else s.policy.lockIds

/-- **What a received list does**: it is stored, its ads are written, and a client reads the ids of the
lock screen. -/
theorem adListReceived_eq (ads : List Ad) (content : Bytes) :
    s.adListReceived ads content = { s with
      cache := s.cache.storeAdList content
      mapAd := (s.mapAd.insertAll (pairs ads)).insertAll (defaults s.lockIdsRead)
      lockAds := s.lockIdsRead.foldl (fun l id => setInsert l id.toUInt32) s.lockAds
      playList :=
        if s.hasPlayer then
          s.playList ++ s.lockIdsRead.map (playItem (s.mapAd.insertAll (pairs ads)))
        else s.playList } := by
  unfold adListReceived lockIdsRead
  cases hserver : s.isBarServer with
  | true => simp [insertAds, hserver, ← insertAds_mapAd, defaults]
  | false =>
      simp only [insertAds, Bool.false_eq_true, if_false]
      rw [foldl_lockAd, ← insertAds_mapAd]
      rfl

theorem foldl_collect (ids : List Int32) (acc : PMap UInt32 Ad × List Int32) :
    (ids.foldl collect acc).1 = acc.1.insertAll (defaults ids) := by
  induction ids generalizing acc with
  | nil => rfl
  | cons id ids ih => exact ih (collect acc id)

theorem mem_setInsert {α : Type*} [LE α] [DecidableLE α] [DecidableEq α] {l : List α} {a k : α} :
    k ∈ setInsert l a ↔ k = a ∨ k ∈ l := by
  unfold setInsert
  split
  · next ha =>
      constructor
      · exact Or.inr
      · rintro (rfl | hk)
        · exact ha
        · exact hk
  · exact List.mem_orderedInsert _

/-- The ids collected are those whose ad has download paths. -/
theorem mem_foldl_collect (ids : List Int32) (acc : PMap UInt32 Ad × List Int32) (k : Int32) :
    k ∈ (ids.foldl collect acc).2 ↔
      k ∈ acc.2 ∨ (k ∈ ids ∧ ((acc.1 k.toUInt32).getD {}).download ≠ []) := by
  induction ids generalizing acc with
  | nil => simp
  | cons id ids ih =>
      have hread : ((collect acc id).1 k.toUInt32).getD {} = (acc.1 k.toUInt32).getD {} :=
        getD_insertNew acc.1 id.toUInt32 k.toUInt32
      have hcollected : k ∈ (collect acc id).2 ↔
          k ∈ acc.2 ∨ (k = id ∧ ((acc.1 id.toUInt32).getD {}).download ≠ []) := by
        simp only [collect, getD_insertNew]
        split
        · next hpaths => rw [mem_setInsert, or_comm, and_iff_left hpaths]
        · next hpaths => simp [hpaths]
      rw [List.foldl_cons, ih, hread, hcollected, List.mem_cons]
      constructor
      · rintro ((hk | ⟨rfl, hpaths⟩) | ⟨hk, hpaths⟩)
        · exact Or.inl hk
        · exact Or.inr ⟨Or.inl rfl, hpaths⟩
        · exact Or.inr ⟨Or.inr hk, hpaths⟩
      · rintro (hk | ⟨rfl | hk, hpaths⟩)
        · exact Or.inl (Or.inl hk)
        · exact Or.inl (Or.inr ⟨rfl, hpaths⟩)
        · exact Or.inr ⟨hk, hpaths⟩

/-- **The files a pass needs**: those of the policy whose ad is in the table with download paths. -/
theorem mem_beginPass (k : Int32) : k ∈ s.beginPass.2 ↔
    k ∈ s.policy.ids ∧ ∃ ad, s.mapAd k.toUInt32 = some ad ∧ ad.download ≠ [] := by
  have hmem := mem_foldl_collect s.policy.ids (s.mapAd, []) k
  simp only [List.not_mem_nil, false_or] at hmem
  refine hmem.trans (and_congr_right fun _ => ?_)
  cases s.mapAd k.toUInt32 with
  | none => simp
  | some ad => simp

theorem beginPass_mapAd : s.beginPass.1.mapAd = s.mapAd.insertAll (defaults s.policy.ids) :=
  foldl_collect s.policy.ids (s.mapAd, [])

theorem pass_mapAd : s.pass.mapAd =
    s.mapAd.insertAll (defaults (if s.isEndBusiness then [] else s.policy.ids)) := by
  unfold pass
  split
  · rfl
  · exact s.beginPass_mapAd

/-- **What the start of a pass does**: the ids of the policy are read, and the files of others evicted. -/
theorem beginPass_eq : s.beginPass.1 = { s with
    mapAd := s.mapAd.insertAll (defaults s.policy.ids)
    cache := s.cache.evict (s.beginPass.2.map Int32.toUInt32) } := by
  rw [← beginPass_mapAd]
  rfl

end AdManagerImpl

/-! ## What an event does to the table -/

/-- What the event `e` from `b` to `b'` does to the table: nothing; it writes a list and then reads the
policy; it reads the policy; or it writes one ad. Only where the policy is read or a list is written
does the condition ask for anything. -/
inductive TableStep (x : Environment) (b : ThreadBiz) (e : BizEvent) (b' : ThreadBiz) : Prop
  | same (htakes : TakesEffect x b e) (hmap : b'.impl.mapAd = b.impl.mapAd)
      (hlisted : b'.listed = b.listed) (hreceived : b'.received = b.received)
  | list (rsp : Message) (ads : List Ad) (he : e = .adListAnswer rsp)
      (hads : x.receivedAds rsp = some ads)
      (hmap : b'.impl.mapAd =
        (b.impl.mapAd.insertAll (pairs ads)).insertAll (defaults b.impl.idsRead))
      (hlisted : b'.listed = ads) (hreceived : b'.received = b.received ++ ads)
  | retry (f : Fired Timer) (he : e = .runHandler) (hf : b.loop.queue.head? = some f)
      (htimer : f.timer = .download)
      (hend : b.impl.isEndBusiness = false)
      (hmap : b'.impl.mapAd = b.impl.mapAd.insertAll (defaults b.impl.policy.ids))
      (hlisted : b'.listed = b.listed) (hreceived : b'.received = b.received)
  | ad (ad : Ad) (htakes : TakesEffect x b e)
      (hmap : b'.impl.mapAd = b.impl.mapAd.insertAll (pairs [ad])) (hlisted : b'.listed = b.listed)
      (hreceived : b'.received = b.received ++ [ad])

namespace AdManagerImpl

variable (s : AdManagerImpl)

/-- **The three outcomes of a policy request**: an error, a content that does not parse, and success. -/
theorem policyReceived_cases (x : Environment) (rsp : Message) :
    (rsp.returnCode ≠ 0 ∧ s.policyReceived x rsp = (s, false)) ∨
      (rsp.returnCode = 0 ∧ (x.parsePolicy rsp.content).2 = false ∧
        s.policyReceived x rsp = ({ s with policy := (x.parsePolicy rsp.content).1 }, false)) ∨
      (rsp.returnCode = 0 ∧ (x.parsePolicy rsp.content).2 = true ∧
        s.policyReceived x rsp = ({ s with
          policy := (x.parsePolicy rsp.content).1
          cache := s.cache.storePolicy rsp.content }, true)) := by
  unfold policyReceived
  by_cases hcode : rsp.returnCode = 0
  · cases hparse : (x.parsePolicy rsp.content).2 with
    | false => exact Or.inr (Or.inl ⟨hcode, rfl, by simp [hcode]⟩)
    | true => exact Or.inr (Or.inr ⟨hcode, rfl, by simp [hcode]⟩)
  · exact Or.inl ⟨hcode, if_neg hcode⟩

theorem policyReceived_mapAd (x : Environment) (rsp : Message) :
    (s.policyReceived x rsp).1.mapAd = s.mapAd := by
  rcases s.policyReceived_cases x rsp with ⟨_, heq⟩ | ⟨_, _, heq⟩ | ⟨_, _, heq⟩ <;> rw [heq]

/-- A file that is refused changes nothing. -/
theorem fileReceived_refused {x : Environment} {ad : Ad} {rsp : Message}
    (h : ¬ (rsp.returnCode = 0 ∧ x.verified ad rsp.content = true)) (id : UInt32) (rehash : Bool) :
    s.fileReceived x ad id rsp rehash = s := by
  unfold fileReceived
  rw [if_neg h]

/-- A verified file is cached, and given to the player when it is one of the lock screen. -/
theorem fileReceived_verified {x : Environment} {ad : Ad} {rsp : Message}
    (h : rsp.returnCode = 0 ∧ x.verified ad rsp.content = true) (id : UInt32) (rehash : Bool) :
    s.fileReceived x ad id rsp rehash = { s with
      cache := s.cache.insert id rsp.content rehash
      playList :=
        if id ∈ s.lockAds ∧ s.hasPlayer then (s.updatePlayList id rsp.content).playList
        else s.playList } := by
  unfold fileReceived
  simp only [if_pos h]
  split <;> rfl

theorem fileReceived_mapAd (x : Environment) (ad : Ad) (id : UInt32) (rsp : Message) (rehash : Bool) :
    (s.fileReceived x ad id rsp rehash).mapAd = s.mapAd := by
  by_cases h : rsp.returnCode = 0 ∧ x.verified ad rsp.content = true
  · rw [s.fileReceived_verified h]
  · rw [s.fileReceived_refused h]

/-- A received list is written, and then the ids of the policy are read. -/
theorem adListReceived_pass_mapAd (ads : List Ad) (content : Bytes) :
    (s.adListReceived ads content).pass.mapAd =
      (s.mapAd.insertAll (pairs ads)).insertAll (defaults s.idsRead) := by
  have hids : s.idsRead = s.lockIdsRead ++ if s.isEndBusiness then [] else s.policy.ids := rfl
  rw [pass_mapAd, adListReceived_eq, hids, defaults_append, PMap.insertAll_append]

end AdManagerImpl

/-- **What an event can do to the table.** -/
theorem tableStep {x : Environment} {b b' : ThreadBiz} {e : BizEvent} (hs : step x b e = some b') :
    TableStep x b e b' := by
  cases dataStep hs with
  | same hquiet hdata =>
      refine .same ?_ (by rw [hdata.impl]) hdata.listed hdata.received
      -- where the condition asks for something, the event is not quiet
      cases e with
      | adListAnswer rsp =>
          intro ads hads
          exact absurd (hquiet.symm.trans hads) (by simp)
      | runHandler =>
          intro f hf htimer hend
          exact absurd (hend.symm.trans (hquiet f hf htimer)) (by simp)
      | _ => trivial
  | policy rsp he hdata =>
      subst he
      exact .same trivial (by rw [hdata.impl, b.impl.policyReceived_mapAd]) hdata.listed hdata.received
  | list rsp ads he hads hdata =>
      exact .list rsp ads he hads (by rw [hdata.impl, b.impl.adListReceived_pass_mapAd]) hdata.listed
        hdata.received
  | retry f he hf htimer hend hdata =>
      exact .retry f he hf htimer hend (by rw [hdata.impl, b.impl.beginPass_mapAd]) hdata.listed
        hdata.received
  | image id ad urls p body rehash he hstage hverified hdata =>
      subst he
      exact .same trivial (by rw [hdata.impl]; rfl) hdata.listed hdata.received
  | file id ad p rsp rehash he hstage hdata =>
      subst he
      exact .same trivial (by rw [hdata.impl, b.impl.fileReceived_mapAd]) hdata.listed hdata.received
  | ad rsp ad he hrec hdata =>
      subst he
      exact .ad ad trivial (by rw [hdata.impl]; rfl) hdata.listed hdata.received
  | ended he hdata =>
      subst he
      exact .same trivial (by rw [hdata.impl]) hdata.listed hdata.received

/-! ## Exactly when -/

/-- **The invariant**: the table follows, and every received ad has left its id in it. -/
def ThreadBiz.KnownTable (b : ThreadBiz) : Prop := Known b.impl.mapAd b.listed b.received

theorem knownTable_init (barId : Bytes) (isBarServer hasPlayer : Bool) :
    (ThreadBiz.init barId isBarServer hasPlayer).KnownTable where
  follows :=
    { listed := by simp [ThreadBiz.init]
      entries := by simp [ThreadBiz.init, PMap.empty] }
  present := by simp [ThreadBiz.init]

/-- An event that takes effect keeps the invariant. -/
theorem knownTable_step {x : Environment} {b b' : ThreadBiz} {e : BizEvent} (h : b.KnownTable)
    (hC : TakesEffect x b e) (hs : step x b e = some b') : b'.KnownTable := by
  unfold ThreadBiz.KnownTable at h ⊢
  cases tableStep hs with
  | same _ hmap hlisted hreceived =>
      rw [hmap, hlisted, hreceived]
      exact h
  | list rsp ads he hads hmap hlisted hreceived =>
      subst he
      obtain ⟨hnew, hread⟩ := hC ads hads
      rw [hmap, hlisted, hreceived, insertAll_defaults]
      · exact h.accept hnew
      · intro id hid
        exact insertAll_pairs_isSome_iff.mpr (hread id hid)
  | retry f he hf htimer hend hmap hlisted hreceived =>
      subst he
      rw [hmap, hlisted, hreceived, insertAll_defaults (hC f hf htimer hend)]
      exact h
  | ad ad _ hmap hlisted hreceived =>
      rw [hmap, hlisted, hreceived]
      exact h.insertAds [ad]

/-- An event after which the table follows takes effect. -/
theorem takesEffect_of_step {x : Environment} {b b' : ThreadBiz} {e : BizEvent} (h : b.KnownTable)
    (hs : step x b e = some b') (hP : b'.TableFollows) : TakesEffect x b e := by
  unfold ThreadBiz.TableFollows at hP
  cases tableStep hs with
  | same htakes _ _ _ => exact htakes
  | list rsp ads he hads hmap hlisted hreceived =>
      subst he
      rw [hmap, hlisted, hreceived] at hP
      have hread : ∀ id ∈ b.impl.idsRead, (b.impl.mapAd.insertAll (pairs ads) id.toUInt32).isSome :=
        Known.of_defaults (h.insertAds ads).present hP
      intro ads' hads'
      obtain rfl : ads = ads' := Option.some.inj (hads.symm.trans hads')
      refine ⟨?_, fun id hid => insertAll_pairs_isSome_iff.mp (hread id hid)⟩
      -- what was there is still there, and it is the ad of the list
      intro hnodup ad had
      have hnow := hP.listed hnodup ad had
      rw [insertAll_defaults hread] at hnow
      cases hold : b.impl.mapAd ad.key with
      | none => exact Or.inl rfl
      | some old =>
          right
          rw [← hnow]
          exact (b.impl.mapAd.insertAll_extends (pairs ads) _ _ hold).symm
  | retry f he hf htimer hend hmap hlisted hreceived =>
      subst he
      rw [hmap, hlisted, hreceived] at hP
      intro _ _ _ _
      exact Known.of_defaults h.present hP
  | ad _ htakes _ _ _ => exact htakes

/-- **The ad table follows the ad list in all states of a run exactly when every list takes effect and
every id that is read has an ad.** -/
theorem table_follows_iff (x : Environment) (barId : Bytes) (isBarServer hasPlayer : Bool)
    (es : List BizEvent) {b : ThreadBiz}
    (h : run (step x) (ThreadBiz.init barId isBarServer hasPlayer) es = some b) :
    EveryState (step x) ThreadBiz.TableFollows (ThreadBiz.init barId isBarServer hasPlayer) es ↔
      EveryStep (step x) (TakesEffect x) (ThreadBiz.init barId isBarServer hasPlayer) es :=
  everyState_iff_everyStep (I := ThreadBiz.KnownTable) (knownTable_init barId isBarServer hasPlayer)
    (fun _ h => h.follows) (fun _ _ _ h hC hs => knownTable_step h hC hs)
    (fun _ _ _ h hs hP => takesEffect_of_step h hs hP) h

/-- A policy refresh up to the first download, with the ad list `adList`. -/
def listRefresh (adList : Bytes) : List BizEvent :=
  [.policyAnswer { content := samplePolicy }, .adListAnswer { content := adList }]

/-- The rest of it, when ad 1 cannot be downloaded, and the next handler of the policy timer. -/
def nextRefresh : List BizEvent :=
  [.next, .fileAnswer { returnCode := -1 } false, .next, .tick (hours 6), .fire .policy, .runHandler]

/-- The same list twice. -/
def sameList : List BizEvent :=
  [.connected] ++ listRefresh sampleAdList ++ nextRefresh ++ listRefresh sampleAdList

theorem table_follows_iff_sameList :
    EveryState (step sampleEnvironment) ThreadBiz.TableFollows
      (ThreadBiz.init (ascii "1") false false) sameList := by
  have hview : (run (step sampleEnvironment) (ThreadBiz.init (ascii "1") false false)
      sameList).isSome = true := by
    decide +kernel
  obtain ⟨b, hb⟩ := Option.isSome_iff_exists.mp hview
  exact (table_follows_iff sampleEnvironment (ascii "1") false false sameList hb).mpr
    (by decide +kernel)

/-- Ad 1 gets another digest from one list to the next. -/
def updatedList : List BizEvent :=
  [.connected] ++ listRefresh sampleAdList ++ nextRefresh ++ listRefresh updatedAdList

/-- The policy names ad 1 before a list contains it. -/
def policyFirst : List BizEvent :=
  [.connected] ++ listRefresh [] ++ [.next, .tick (hours 6), .fire .policy, .runHandler] ++
  listRefresh sampleAdList

/-- **Two lists that have no effect.** An ad that is in the table is not updated; and one that a policy
has named before is there with default fields, under an id that is not its own. -/
theorem table_stale :
    (∃ b, run (step sampleEnvironment) (ThreadBiz.init (ascii "1") false false) updatedList = some b ∧
      b.listed = [updatedAd] ∧
      b.impl.mapAd 1 = some sampleAd ∧ ¬ b.TableFollows) ∧
    ∃ b, run (step sampleEnvironment) (ThreadBiz.init (ascii "1") false false) policyFirst = some b ∧
      b.listed = [sampleAd] ∧ b.impl.mapAd 1 = some {} ∧ ¬ b.TableFollows := by
  constructor
  · have hview : (run (step sampleEnvironment) (ThreadBiz.init (ascii "1") false false)
        updatedList).map (fun b => (b.listed, b.impl.mapAd 1)) =
        some ([updatedAd], some sampleAd) := by
      decide +kernel
    obtain ⟨b, hb, hview⟩ := Option.map_eq_some_iff.mp hview
    obtain ⟨hlisted, hmap⟩ := Prod.mk.inj hview
    refine ⟨b, hb, hlisted, hmap, ?_⟩
    intro hfollows
    have heffect := hfollows.listed (by rw [hlisted]; decide)
      updatedAd (by rw [hlisted]; exact List.mem_singleton_self _)
    exact absurd (hmap.symm.trans heffect) (by decide)
  · have hview : (run (step sampleEnvironment) (ThreadBiz.init (ascii "1") false false)
        policyFirst).map (fun b => (b.listed, b.impl.mapAd 1)) =
        some ([sampleAd], some {}) := by
      decide +kernel
    obtain ⟨b, hb, hview⟩ := Option.map_eq_some_iff.mp hview
    obtain ⟨hlisted, hmap⟩ := Prod.mk.inj hview
    refine ⟨b, hb, hlisted, hmap, ?_⟩
    intro hfollows
    exact absurd (hfollows.entries 1 {} hmap).1 (by decide)

end AdManager.Business
