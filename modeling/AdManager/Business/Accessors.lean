/-
# AdManager.Business.Accessors — the functions of `AdManager` that read.

Translated from `AdManager.cpp`. The application calls them from its own thread, between any two steps of
the business thread. Two of them look an id up with `operator[]`: `getAd` so makes up an ad with default
fields, which the next ad list will not replace, and `getAdFile` follows the null pointer that it has
just put into the cache. The other three use `find`, or copy.
-/
import AdManager.Business.DownloadPass
import AdManager.Lib.Interference

namespace AdManager.Business

open AdManager.Wire AdManager.Lib AdManager.Server

/-! ## The functions -/

namespace AdManagerImpl

variable (s : AdManagerImpl)

/-- `getAd`: the ad, and what is left behind. -/
def getAd (adId : Int32) : Ad × AdManagerImpl :=
  let mapAd := s.mapAd.insertNew adId.toUInt32 {}
  ((mapAd adId.toUInt32).getD {}, { s with mapAd := mapAd })

/-- The file of an id in `_bufImages`. -/
def bufImage (id : UInt32) : Option Bytes :=
  (s.cache.bufImages.find? (·.id == id)).map ImageNode.data

/-- One id of the loop in `getLockImage`: the image of its ad, which is looked for in the ad first and
then in the cache. -/
def lockImage (id : UInt32) : Option Bytes :=
  match s.mapAd id with
  | none => none
  | some ad =>
      if ad.type = 4 then
        if ad.image ≠ [] then some ad.image else s.bufImage id
      else none

/-- `getLockImage`. -/
def getLockImage : Bytes := (s.lockAds.findSome? s.lockImage).getD []

/-- `getAdFile`. `none` is the access through the null pointer that `operator[]` has created. -/
def getAdFile (adId : Int32) : Option Bytes := s.bufImage adId.toUInt32

/-- `getAdList`. -/
def getAdList : PMap UInt32 Ad := s.mapAd

/-- `getAdPlayPolicy`. -/
def getAdPlayPolicy : AdPlayPolicy := s.policy

end AdManagerImpl

/-- A call from the application. -/
inductive Accessor where
  | getAd (adId : Int32)
  | getLockImage
  | getAdFile (adId : Int32)
  | getAdList
  | getAdPlayPolicy
  deriving DecidableEq, Repr

/-- What a call returns. -/
inductive Accessed where
  | ad (ad : Ad)
  | image (image : Bytes)
  | file (file : Bytes)
  | adList (ads : PMap UInt32 Ad)
  | policy (policy : AdPlayPolicy)

namespace ThreadBiz

/-- A call, with the state that it leaves behind; `none` when it faults. -/
def access (b : ThreadBiz) : Accessor → Option (Accessed × ThreadBiz)
  | .getAd adId => some (.ad (b.impl.getAd adId).1, { b with impl := (b.impl.getAd adId).2 })
  | .getLockImage => some (.image b.impl.getLockImage, b)
  | .getAdFile adId => (b.impl.getAdFile adId).map fun file => (.file file, b)
  | .getAdList => some (.adList b.impl.getAdList, b)
  | .getAdPlayPolicy => some (.policy b.impl.getAdPlayPolicy, b)

/-- The state that a call leaves behind. -/
def accessed (b : ThreadBiz) (a : Accessor) : Option ThreadBiz := (b.access a).map Prod.snd

/-! ## The property and the condition -/

/-- The ad table, the cached files, what has been asked of the network and the responses to any request
are the same. -/
structure SameService (t u : ThreadBiz) : Prop where
  mapAd : t.impl.mapAd = u.impl.mapAd
  files : t.impl.cache.bufImages = u.impl.cache.bufImages
  outgoing : t.outgoing = u.outgoing
  served : ∀ msg, handleRequest t.impl.cache msg = handleRequest u.impl.cache msg

/-- **Accessors do not interfere** with the run from `b`: whatever calls are inserted, at every point
none has faulted, and the service and the calls of `downloadAd` are those of the run without them. -/
def Unaffected (x : Environment) (b : ThreadBiz) (es : List (BizEvent ⊕ Accessor)) : Prop :=
  Undisturbed (step x) accessed SameService calls b es

/-- What a call looks up is there: the ad in the table, or the file in the cache. -/
def Finds (b : ThreadBiz) : Accessor → Prop
  | .getAd adId => (b.impl.mapAd adId.toUInt32).isSome
  | .getAdFile adId => b.impl.cached adId = true
  | _ => True

instance (b : ThreadBiz) : (a : Accessor) → Decidable (b.Finds a)
  | .getAd adId => inferInstanceAs (Decidable ((b.impl.mapAd adId.toUInt32).isSome = true))
  | .getLockImage => .isTrue trivial
  | .getAdFile adId => inferInstanceAs (Decidable (b.impl.cached adId = true))
  | .getAdList => .isTrue trivial
  | .getAdPlayPolicy => .isTrue trivial

/-! ## Exactly when -/

variable {x : Environment} {b b' : ThreadBiz} {a : Accessor}

theorem bufImage_isSome (s : AdManagerImpl) (id : UInt32) :
    (s.bufImage id).isSome = s.cache.contains id := by
  rw [AdManagerImpl.bufImage, Option.isSome_map, Bool.eq_iff_iff, List.find?_isSome, Cache.contains,
    List.any_eq_true]

/-- A call that finds what it looks for changes nothing. -/
theorem accessed_of_finds (h : b.Finds a) : b.accessed a = some b := by
  cases a with
  | getAd adId =>
      have hfound : (b.impl.mapAd adId.toUInt32).isSome := h
      have hmap : b.impl.mapAd.insertAll [(adId.toUInt32, {})] = b.impl.mapAd :=
        b.impl.mapAd.insertAll_eq_self (by simpa using hfound)
      rw [PMap.insertAll_cons, PMap.insertAll_nil] at hmap
      simp only [accessed, access, AdManagerImpl.getAd, hmap, Option.map_some]
  | getAdFile adId =>
      have hfile : (b.impl.bufImage adId.toUInt32).isSome := by
        rw [bufImage_isSome]
        exact h
      obtain ⟨file, hfile⟩ := Option.isSome_iff_exists.mp hfile
      simp only [accessed, access, AdManagerImpl.getAdFile, hfile, Option.map_some]
  | getLockImage => rfl
  | getAdList => rfl
  | getAdPlayPolicy => rfl

/-- A call that leaves the service as it was has found what it looked for. -/
theorem finds_of_accessed (h : b.accessed a = some b') (hsame : SameService b' b) : b.Finds a := by
  cases a with
  | getAd adId =>
      obtain rfl := Option.some.inj h
      have hmap : b.impl.mapAd.insertNew adId.toUInt32 {} = b.impl.mapAd := hsame.mapAd
      show (b.impl.mapAd adId.toUInt32).isSome
      rw [← hmap]
      exact b.impl.mapAd.insertAll_isSome (List.mem_singleton_self (adId.toUInt32, {}))
  | getAdFile adId =>
      have hfile : (b.impl.bufImage adId.toUInt32).isSome := by
        rw [Option.isSome_iff_exists]
        obtain ⟨out, hout, _⟩ := Option.map_eq_some_iff.mp h
        obtain ⟨file, hfile, _⟩ := Option.map_eq_some_iff.mp hout
        exact ⟨file, hfile⟩
      rw [bufImage_isSome] at hfile
      exact hfile
  | getLockImage => trivial
  | getAdList => trivial
  | getAdPlayPolicy => trivial

end ThreadBiz

/-- **Exactly when accessors do not interfere.** In every run of business, from any state, and with any
calls inserted at any points: no call faults and the table, the files, the downloads attempted and the
responses are always those of the run without the calls, if and only if every `getAd` is for an id in
the table and every `getAdFile` for one whose file is cached. -/
theorem accessors_unaffected_iff (x : Environment) (b : ThreadBiz) (es : List (BizEvent ⊕ Accessor))
    {u : ThreadBiz} (h : run (step x) b (es.filterMap Sum.getLeft?) = some u) :
    b.Unaffected x es ↔
      EveryStep (calledStep (step x) ThreadBiz.accessed) (OnCalls ThreadBiz.Finds) { state := b } es :=
  undisturbed_iff (fun _ => ⟨rfl, rfl, rfl, fun _ => rfl⟩) (fun _ _ => ThreadBiz.accessed_of_finds)
    (fun _ _ _ => ThreadBiz.finds_of_accessed) h

/-- A refresh, during which the application reads what is there. -/
def readRefresh : List (BizEvent ⊕ Accessor) :=
  [.inl .connected, .inl (.policyAnswer { content := samplePolicy }),
    .inl (.adListAnswer { content := sampleAdList }), .inr (.getAd 1), .inr .getLockImage, .inl .next,
    .inl (.fileAnswer { content := sampleFile } false), .inr (.getAdFile 1), .inr .getAdList, .inl .next]

theorem accessors_unaffected_iff_readRefresh :
    (ThreadBiz.init (ascii "1") false false).Unaffected sampleEnvironment readRefresh := by
  have hview : (run (step sampleEnvironment) (ThreadBiz.init (ascii "1") false false)
      (readRefresh.filterMap Sum.getLeft?)).isSome = true := by
    decide +kernel
  obtain ⟨u, hu⟩ := Option.isSome_iff_exists.mp hview
  exact (accessors_unaffected_iff sampleEnvironment _ readRefresh hu).mpr (by decide +kernel)

/-- A refresh, in which the application asks for ad 1 before the list is there. -/
def earlyGetAd : List (BizEvent ⊕ Accessor) :=
  [.inl .connected, .inl (.policyAnswer { content := samplePolicy }), .inr (.getAd 1),
    .inl (.adListAnswer { content := sampleAdList }), .inl .next]

/-- **Two calls that interfere.** `getAdFile` of an id without a file faults. And after an early `getAd`
the list has no effect on ad 1: its file, which the run without the call downloads, is not. -/
theorem accessors_interfere :
    (∃ t, run (calledStep (step sampleEnvironment) ThreadBiz.accessed)
        { state := ThreadBiz.init (ascii "1") false false } [.inr (.getAdFile 1)] = some t ∧
      t.faulted = true) ∧
    ¬ (ThreadBiz.init (ascii "1") false false).Unaffected sampleEnvironment [.inr (.getAdFile 1)] ∧
    observe (calledStep (step sampleEnvironment) ThreadBiz.accessed) (shown ThreadBiz.calls)
      { state := ThreadBiz.init (ascii "1") false false } earlyGetAd = [] ∧
    (ThreadBiz.init (ascii "1") false false).attempts sampleEnvironment
      (earlyGetAd.filterMap Sum.getLeft?) = [1] ∧
    ¬ (ThreadBiz.init (ascii "1") false false).Unaffected sampleEnvironment earlyGetAd := by
  have hfault : (run (calledStep (step sampleEnvironment) ThreadBiz.accessed)
      { state := ThreadBiz.init (ascii "1") false false } [.inr (.getAdFile 1)]).map Called.faulted =
      some true := by
    decide +kernel
  have hcalled : observe (calledStep (step sampleEnvironment) ThreadBiz.accessed)
      (shown ThreadBiz.calls) { state := ThreadBiz.init (ascii "1") false false } earlyGetAd = [] := by
    decide +kernel
  have halone : (ThreadBiz.init (ascii "1") false false).attempts sampleEnvironment
      (earlyGetAd.filterMap Sum.getLeft?) = [1] := by
    decide +kernel
  obtain ⟨t, ht, hfaulted⟩ := Option.map_eq_some_iff.mp hfault
  refine ⟨⟨t, ht, hfaulted⟩, ?_, hcalled, halone, ?_⟩
  · intro hsame
    obtain ⟨t', _, ht', hfine, _⟩ := hsame [.inr (.getAdFile 1)] [] rfl
    obtain rfl : t = t' := Option.some.inj (ht.symm.trans ht')
    exact absurd (hfaulted.symm.trans hfine) (by decide)
  · intro hsame
    obtain ⟨_, _, _, _, _, _, hshown⟩ := hsame earlyGetAd [] (List.append_nil _).symm
    rw [hcalled] at hshown
    exact absurd (hshown.trans halone) (by decide)

end AdManager.Business
