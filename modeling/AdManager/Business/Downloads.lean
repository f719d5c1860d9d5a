/-
# AdManager.Business.Downloads — the files that `downloadAd` caches.

A file is asked for when its ad is in the table, has download paths, and the file is not cached. That
stays so until the answer is there, because only the business thread writes to the table and to the
cache. The file is cached when it has the digest of that ad: the server keeps the answer to a request
for the file, the client the file itself.

The ad of an id in the table never changes, so a cached file has the digest of the ad in the table at
any time afterwards.
-/
import AdManager.Business.AdTable

namespace AdManager.Business

open AdManager.Wire AdManager.Lib AdManager.Server

/-! ## Files in the cache -/

/-- The answer to a request for a file. -/
def fileAnswer (body : Bytes) : Message := { method := ascii "getAdFile", content := body }

theorem fileAnswer_injective {body body' : Bytes}
    (h : (fileAnswer body).serialize = (fileAnswer body').serialize) : body = body' := by
  simp only [fileAnswer, Message.serialize] at h
  have hrest := List.append_cancel_left (List.append_cancel_left h)
  exact Message.contentField_injective (List.append_cancel_right hrest)

namespace AdManagerImpl

variable (s : AdManagerImpl)

/-- How a file lies in `_bufImages`. -/
def stored (body : Bytes) : Bytes := if s.isBarServer then (fileAnswer body).serialize else body

theorem stored_injective {body body' : Bytes} (h : s.stored body = s.stored body') : body = body' := by
  unfold stored at h
  split at h
  · exact fileAnswer_injective h
  · exact h

/-- The file of `id` is to be fetched: `ad` is its ad, has download paths, and it is not cached. -/
structure Wanted (id : UInt32) (ad : Ad) : Prop where
  table : s.mapAd id = some ad
  paths : ad.download ≠ []
  missing : s.cache.contains id = false

/-- What no event changes, and the ads of the table, which stay. -/
structure Grows (s s' : AdManagerImpl) : Prop where
  isBarServer : s'.isBarServer = s.isBarServer
  hasPlayer : s'.hasPlayer = s.hasPlayer
  mapAd : s.mapAd.Extends s'.mapAd

end AdManagerImpl

/-! ## The stages of a download -/

/-- What holds at a stage: where the thread waits for a file, the file is wanted, by HTTP on the server
and from the server on a client. -/
def Stage.Fits (s : AdManagerImpl) : Stage → Prop
  | .fetch id wanted _ _ => s.isBarServer = true ∧ s.Wanted id wanted
  | .file id wanted _ => s.isBarServer = false ∧ s.Wanted id wanted
  | _ => True

namespace ThreadBiz

variable {x : Environment} {b b' : ThreadBiz} {id : UInt32} {ad : Ad} {p : Pass} {root : Timer}

/-- The stage of the thread fits its data. -/
def AtStage (b : ThreadBiz) : Prop := b.stage.Fits b.impl

/-- What fits goes on to fit while the table grows and the cache stays. -/
theorem AtStage.grows (h : b.AtStage) (hgrows : b.impl.Grows b'.impl)
    (hcache : b'.impl.cache = b.impl.cache) (hstage : b'.stage = b.stage) : b'.AtStage := by
  have hwanted : ∀ id ad, b.impl.Wanted id ad → b'.impl.Wanted id ad := by
    intro id ad hw
    exact ⟨hgrows.mapAd _ _ hw.table, hw.paths, by rw [hcache, hw.missing]⟩
  unfold AtStage at h ⊢
  rw [hstage]
  cases hs : b.stage with
  | fetch id ad urls p =>
      rw [hs] at h
      exact ⟨hgrows.isBarServer.trans h.1, hwanted id ad h.2⟩
  | file id ad p =>
      rw [hs] at h
      exact ⟨hgrows.isBarServer.trans h.1, hwanted id ad h.2⟩
  | _ => trivial

theorem finish_atStage (b : ThreadBiz) (root : Timer) : (b.finish root).AtStage := trivial

theorem requestAdList_atStage (b : ThreadBiz) (root : Timer) : (b.requestAdList root).AtStage := by
  unfold requestAdList
  split <;> trivial

theorem requestAdPlayPolicy_atStage (x : Environment) (b : ThreadBiz) :
    (b.requestAdPlayPolicy x).AtStage := by
  unfold requestAdPlayPolicy
  split <;> trivial

theorem downloadAds_atStage (b : ThreadBiz) (root : Timer) : (b.downloadAds root).AtStage := by
  unfold downloadAds
  split <;> trivial

theorem handler_atStage (x : Environment) (b : ThreadBiz) (t : Timer) : (b.handler x t).AtStage := by
  cases t with
  | policy => exact b.requestAdPlayPolicy_atStage x
  | adList => exact b.requestAdList_atStage .adList
  | download => exact b.downloadAds_atStage .download

theorem policyAnswered_atStage (x : Environment) (b : ThreadBiz) (rsp : Message) :
    (b.policyAnswered x rsp).AtStage := by
  unfold policyAnswered
  simp only
  split
  · exact requestAdList_atStage _ .policy
  · exact finish_atStage _ .policy

theorem adListAnswered_atStage (x : Environment) (b : ThreadBiz) (root : Timer) (rsp : Message) :
    (b.adListAnswered x root rsp).AtStage := by
  unfold adListAnswered
  split
  · exact downloadAds_atStage _ root
  · exact finish_atStage _ root

theorem fetchFrom_atStage (hserver : b.impl.isBarServer = true) (hwanted : b.impl.Wanted id ad)
    (p : Pass) (urls : List Bytes) : (b.fetchFrom id ad p urls).AtStage := by
  cases urls with
  | nil => trivial
  | cons url urls => exact ⟨hserver, hwanted⟩

theorem downloadAd_atStage (hmissing : b.impl.cache.contains id = false) (p : Pass) :
    (b.downloadAd id p).AtStage := by
  simp only [downloadAd]
  split
  · trivial
  · next ad htable =>
      split
      · trivial
      · next hpaths =>
          have hwanted : b.impl.Wanted id ad := ⟨htable, hpaths, hmissing⟩
          split
          · next hserver =>
              apply fetchFrom_atStage
              · exact hserver
              · exact hwanted
          · next hserver => exact ⟨Bool.eq_false_iff.mpr hserver, hwanted⟩

theorem nextAd_atStage (b : ThreadBiz) (p : Pass) : (b.nextAd p).AtStage := by
  cases htodo : p.todo with
  | nil =>
      simp only [nextAd, htodo, endPass]
      split <;> exact finish_atStage _ p.root
  | cons id todo =>
      simp only [nextAd, htodo]
      split
      · trivial
      · next hmissing => exact downloadAd_atStage (by simpa [AdManagerImpl.cached] using hmissing) _

/-- **The stage keeps fitting.** -/
theorem AtStage.step {e : BizEvent} (h : b.AtStage) (hs : Business.step x b e = some b') :
    b'.AtStage := by
  cases bizStep hs with
  | tick n => exact h
  | fire t l hl => exact h
  | runHandler f l hstage hl => exact handler_atStage x _ f.timer
  | connected hstage => exact b.requestAdPlayPolicy_atStage x
  | policyAnswer rsp hstage => exact b.policyAnswered_atStage x rsp
  | adListAnswer rsp root hstage => exact b.adListAnswered_atStage x root rsp
  | next p hstage => exact b.nextAd_atStage p
  | fetchEnded f rehash id ad urls p hstage =>
      unfold AtStage at h
      rw [hstage] at h
      obtain ⟨hserver, hwanted⟩ := h
      cases f with
      | exception => exact fetchFrom_atStage hserver hwanted p urls
      | response status body =>
          simp only [fetchEnded]
          split
          · trivial
          · exact fetchFrom_atStage hserver hwanted p urls
  | fileAnswer rsp rehash id ad p hstage => trivial
  | requestAd adId hstage => trivial
  | adReceived rsp ad hstage hrec => trivial
  | adRefused rsp hstage hrec => trivial
  | endBusiness => exact h.grows ⟨rfl, rfl, .refl _⟩ rfl rfl

end ThreadBiz

/-! ## What an event does to the files -/

namespace AdManagerImpl

variable {s : AdManagerImpl}

theorem Grows.stored {s' : AdManagerImpl} (h : s.Grows s') (body : Bytes) :
    s'.stored body = s.stored body := by
  unfold AdManagerImpl.stored
  rw [h.isBarServer]

theorem beginPass_grows (s : AdManagerImpl) : s.Grows s.beginPass.1 := by
  rw [beginPass_eq]
  exact ⟨rfl, rfl, s.mapAd.insertAll_extends _⟩

theorem adListReceived_grows (s : AdManagerImpl) (ads : List Ad) (content : Bytes) :
    s.Grows (s.adListReceived ads content) := by
  rw [adListReceived_eq]
  exact ⟨rfl, rfl, (s.mapAd.insertAll_extends _).trans (PMap.insertAll_extends _ _)⟩

theorem Grows.trans {s' s'' : AdManagerImpl} (h : s.Grows s') (h' : s'.Grows s'') : s.Grows s'' :=
  ⟨h'.isBarServer.trans h.isBarServer, h'.hasPlayer.trans h.hasPlayer, h.mapAd.trans h'.mapAd⟩

theorem pass_grows (s : AdManagerImpl) : s.Grows s.pass := by
  unfold pass
  split
  · exact ⟨rfl, rfl, .refl _⟩
  · exact s.beginPass_grows

theorem pass_buffers (s : AdManagerImpl) :
    s.pass.cache.bufPolicy = s.cache.bufPolicy ∧ s.pass.cache.bufAdList = s.cache.bufAdList := by
  unfold pass
  split <;> exact ⟨rfl, rfl⟩

theorem pass_images {n : ImageNode} (h : n ∈ s.pass.cache.bufImages) : n ∈ s.cache.bufImages := by
  unfold pass at h
  split at h
  · exact h
  · rw [beginPass_eq] at h
    exact (List.mem_filter.mp h).1

end AdManagerImpl

/-- The event `e` caches the file `body` for `id`: the answer to the request for it is here, and it has
the digest of its ad. -/
inductive Caches (x : Environment) (b : ThreadBiz) (id : UInt32) (body : Bytes) : BizEvent → Prop
  | image (ad : Ad) (urls : List Bytes) (p : Pass) (rehash : Bool)
      (hstage : b.stage = .fetch id ad urls p) (htable : b.impl.mapAd id = some ad)
      (hpaths : ad.download ≠ []) (hverified : x.verified ad body = true) :
      Caches x b id body (.fetchEnded (.response 200 body) rehash)
  | file (ad : Ad) (p : Pass) (rsp : Message) (rehash : Bool) (hstage : b.stage = .file id ad p)
      (htable : b.impl.mapAd id = some ad) (hpaths : ad.download ≠ []) (hcode : rsp.returnCode = 0)
      (hcontent : rsp.content = body) (hverified : x.verified ad body = true) :
      Caches x b id body (.fileAnswer rsp rehash)

/-- The ad of a file that is cached. -/
theorem Caches.ad {x : Environment} {b : ThreadBiz} {id : UInt32} {body : Bytes} {e : BizEvent}
    (h : Caches x b id body e) :
    ∃ ad, b.impl.mapAd id = some ad ∧ ad.download ≠ [] ∧ x.verified ad body = true := by
  cases h with
  | image ad urls p rehash hstage htable hpaths hverified => exact ⟨ad, htable, hpaths, hverified⟩
  | file ad p rsp rehash hstage htable hpaths hcode hcontent hverified =>
      exact ⟨ad, htable, hpaths, hverified⟩

/-- **Every file in the cache was there before, or is cached by this very event**; and the table
grows. -/
theorem ThreadBiz.AtStage.files_step {x : Environment} {b b' : ThreadBiz} {e : BizEvent}
    (h : b.AtStage) (hs : Business.step x b e = some b') :
    b.impl.Grows b'.impl ∧ ∀ n ∈ b'.impl.cache.bufImages, n ∈ b.impl.cache.bufImages ∨
      ∃ body, n.data = b.impl.stored body ∧ Caches x b n.id body e := by
  cases dataStep hs with
  | same hquiet hdata =>
      rw [hdata.impl]
      exact ⟨⟨rfl, rfl, .refl _⟩, fun n hn => Or.inl hn⟩
  | policy rsp he hdata =>
      rw [hdata.impl]
      rcases b.impl.policyReceived_cases x rsp with ⟨_, heq⟩ | ⟨_, _, heq⟩ | ⟨_, _, heq⟩ <;> rw [heq] <;>
        exact ⟨⟨rfl, rfl, .refl _⟩, fun n hn => Or.inl hn⟩
  | list rsp ads he hads hdata =>
      rw [hdata.impl]
      refine ⟨(b.impl.adListReceived_grows ads rsp.content).trans (AdManagerImpl.pass_grows _), ?_⟩
      intro n hn
      have hbefore := AdManagerImpl.pass_images hn
      rw [AdManagerImpl.adListReceived_eq] at hbefore
      exact Or.inl hbefore
  | retry f he hf htimer hend hdata =>
      rw [hdata.impl]
      refine ⟨b.impl.beginPass_grows, ?_⟩
      intro n hn
      rw [AdManagerImpl.beginPass_eq] at hn
      exact Or.inl (List.mem_filter.mp hn).1
  | image id ad urls p body rehash he hstage hverified hdata =>
      subst he
      unfold ThreadBiz.AtStage at h
      rw [hstage] at h
      obtain ⟨hserver, hwanted⟩ := h
      rw [hdata.impl]
      refine ⟨⟨rfl, rfl, .refl _⟩, ?_⟩
      intro n hn
      rcases Cache.mem_insert hn with hn | ⟨rfl, hbytes⟩
      · exact Or.inl hn
      · -- the new file: the server keeps the whole answer
        refine Or.inr ⟨body, ?_, .image ad urls p rehash hstage hwanted.table hwanted.paths hverified⟩
        rw [hbytes, AdManagerImpl.stored, if_pos hserver]
        rfl
  | file id ad p rsp rehash he hstage hdata =>
      subst he
      unfold ThreadBiz.AtStage at h
      rw [hstage] at h
      obtain ⟨hclient, hwanted⟩ := h
      rw [hdata.impl]
      by_cases hgood : rsp.returnCode = 0 ∧ x.verified ad rsp.content = true
      · rw [b.impl.fileReceived_verified hgood]
        refine ⟨⟨rfl, rfl, .refl _⟩, ?_⟩
        intro n hn
        rcases Cache.mem_insert hn with hn | ⟨rfl, hbytes⟩
        · exact Or.inl hn
        · -- a client keeps the file itself
          refine Or.inr ⟨rsp.content, ?_, .file ad p rsp rehash hstage hwanted.table hwanted.paths
            hgood.1 rfl hgood.2⟩
          rw [hbytes, AdManagerImpl.stored, if_neg (by simp [hclient])]
      · rw [b.impl.fileReceived_refused hgood]
        exact ⟨⟨rfl, rfl, .refl _⟩, fun n hn => Or.inl hn⟩
  | ad rsp ad he hrec hdata =>
      rw [hdata.impl]
      refine ⟨⟨rfl, rfl, ?_⟩, fun n hn => Or.inl hn⟩
      exact b.impl.mapAd.insertAll_extends [(ad.key, ad)]
  | ended he hdata =>
      rw [hdata.impl]
      exact ⟨⟨rfl, rfl, .refl _⟩, fun n hn => Or.inl hn⟩

/-! ## Every file is verified -/

/-- **Every cached file has the digest of its ad in the table**, and that ad has download paths. -/
def FilesVerified (x : Environment) (s : AdManagerImpl) : Prop :=
  ∀ n ∈ s.cache.bufImages, ∃ ad body, s.mapAd n.id = some ad ∧ ad.download ≠ [] ∧
    n.data = s.stored body ∧ x.verified ad body = true

theorem FilesVerified.step {x : Environment} {b b' : ThreadBiz} {e : BizEvent} (hstage : b.AtStage)
    (h : FilesVerified x b.impl) (hs : Business.step x b e = some b') : FilesVerified x b'.impl := by
  obtain ⟨hgrows, hfiles⟩ := hstage.files_step hs
  intro n hn
  rcases hfiles n hn with hn | ⟨body, hbytes, hcaches⟩
  · obtain ⟨ad, body, htable, hpaths, hbytes, hverified⟩ := h n hn
    exact ⟨ad, body, hgrows.mapAd _ _ htable, hpaths, by rw [hbytes, hgrows.stored], hverified⟩
  · obtain ⟨ad, htable, hpaths, hverified⟩ := hcaches.ad
    exact ⟨ad, body, hgrows.mapAd _ _ htable, hpaths, by rw [hbytes, hgrows.stored], hverified⟩

/-- What holds of every reachable state: the stage fits, and the files are verified. -/
structure Downloaded (x : Environment) (b : ThreadBiz) : Prop where
  stage : b.AtStage
  files : FilesVerified x b.impl

theorem Downloaded.init (x : Environment) (barId : Bytes) (isBarServer hasPlayer : Bool) :
    Downloaded x (ThreadBiz.init barId isBarServer hasPlayer) where
  stage := trivial
  files := by simp [FilesVerified, ThreadBiz.init, Cache.initResponseBuf]

theorem Downloaded.step {x : Environment} {b b' : ThreadBiz} {e : BizEvent} (h : Downloaded x b)
    (hs : Business.step x b e = some b') : Downloaded x b' where
  stage := h.stage.step hs
  files := h.files.step h.stage hs

/-- It also survives whatever lets the table grow and leaves the cache and the stage alone. -/
theorem Downloaded.grows {x : Environment} {b b' : ThreadBiz} (h : Downloaded x b)
    (hgrows : b.impl.Grows b'.impl) (hcache : b'.impl.cache = b.impl.cache)
    (hstage : b'.stage = b.stage) : Downloaded x b' where
  stage := h.stage.grows hgrows hcache hstage
  files := by
    intro n hn
    rw [hcache] at hn
    obtain ⟨ad, body, htable, hpaths, hbytes, hverified⟩ := h.files n hn
    exact ⟨ad, body, hgrows.mapAd _ _ htable, hpaths, by rw [hbytes, hgrows.stored], hverified⟩

/-! ## The history of accepted contents -/

section History

variable (x : Environment)

/-- The content of a policy answer that is accepted. -/
def policyContent : BizEvent → Option Bytes
  | .policyAnswer rsp =>
      if rsp.returnCode = 0 ∧ (x.parsePolicy rsp.content).2 = true then some rsp.content else none
  | _ => none

/-- The content of an ad-list answer that is accepted. -/
def adListContent : BizEvent → Option Bytes
  | .adListAnswer rsp =>
      if rsp.returnCode = 0 ∧ (x.parseResult rsp.content).isSome = true then some rsp.content else none
  | _ => none

/-- A content is accepted when its ads are received. -/
theorem adListContent_eq (rsp : Message) :
    adListContent x (.adListAnswer rsp) = (x.receivedAds rsp).map fun _ => rsp.content := by
  unfold adListContent Environment.receivedAds
  by_cases hcode : rsp.returnCode = 0
  · cases hparse : x.parseResult rsp.content <;> simp [hcode, hparse]
  · simp [hcode]

variable {x} in
theorem adListContent_of_none {rsp : Message} (h : x.receivedAds rsp = none) :
    adListContent x (.adListAnswer rsp) = none := by
  rw [adListContent_eq, h, Option.map_none]

variable {x} in
theorem adListContent_of_some {rsp : Message} {ads : List Ad} (h : x.receivedAds rsp = some ads) :
    adListContent x (.adListAnswer rsp) = some rsp.content := by
  rw [adListContent_eq, h, Option.map_some]

/-- The contents of the policies accepted in a history, in order. -/
def acceptedPolicies (es : List BizEvent) : List Bytes := es.filterMap (policyContent x)

/-- The contents of the ad lists accepted in a history, in order. -/
def acceptedAdLists (es : List BizEvent) : List Bytes := es.filterMap (adListContent x)

/-- The file `body` of `id` was cached in the history `es` from `b`. -/
def FetchedIn (b : ThreadBiz) (es : List BizEvent) (id : UInt32) (body : Bytes) : Prop :=
  ∃ pre e post t, es = pre ++ e :: post ∧ run (step x) b pre = some t ∧ Caches x t id body e

theorem FetchedIn.append {b : ThreadBiz} {es : List BizEvent} {id : UInt32} {body : Bytes}
    (h : FetchedIn x b es id body) (fs : List BizEvent) : FetchedIn x b (es ++ fs) id body := by
  obtain ⟨pre, e, post, t, rfl, ht, hcaches⟩ := h
  exact ⟨pre, e, post ++ fs, t, by simp, ht, hcaches⟩

end History

/-- The last of the chosen events of a history. -/
theorem getLast?_filterMap_concat {α β : Type*} (f : α → Option β) (l : List α) (a : α) :
    ((l ++ [a]).filterMap f).getLast? = (f a).or (l.filterMap f).getLast? := by
  rw [List.filterMap_append, List.getLast?_append]
  cases h : f a <;> simp [h]

theorem acceptedPolicies_concat (x : Environment) (es : List BizEvent) (e : BizEvent) :
    (acceptedPolicies x (es ++ [e])).getLast? =
      (policyContent x e).or (acceptedPolicies x es).getLast? :=
  getLast?_filterMap_concat (policyContent x) es e

theorem acceptedAdLists_concat (x : Environment) (es : List BizEvent) (e : BizEvent) :
    (acceptedAdLists x (es ++ [e])).getLast? =
      (adListContent x e).or (acceptedAdLists x es).getLast? :=
  getLast?_filterMap_concat (adListContent x) es e

end AdManager.Business
