/-
# AdManager.Business.Representation — what lies in `_bufImages`, and what its readers take it for.

Translated from `AdManager.cpp` and `AdManagerImpl.h`. The comment of `_bufImages` says that it holds the
serialized messages of the ad files, without an id. A bar server fills it in this way, and `handleRequest`
splices an id in front of what is there. A client fills it with the files themselves, and `getAdFile` and
`getLockImage` return what is there.

So each mode has one representation (`Downloaded.represents`), in which what it needs itself works:
`client_reads`, `server_serves`. But the readers do not look at the mode, and no bytes at all are both a file
and a message with that file as content: `agrees_iff` says that all readers agree only while nothing is cached.
-/
import AdManager.Business.Accessors
import AdManager.Business.Relay

namespace AdManager.Business

open AdManager.Wire AdManager.Lib AdManager.Server

/-! ## The readers -/

namespace AdManagerImpl

/-- What `handleRequest` sends in answer to a request for the file of `id`, behind the length: the id of the
request, and then the bytes at the position it has found. -/
def served (s : AdManagerImpl) (id : Int32) (msgID : Int64) : Option Bytes :=
  match handleRequest s.cache { (Ask.getAdFile id.toUInt32).message with id := msgID } with
  | .queueImage v pos => some (({ id := v.toInt64 } : Message).serialize ++ s.cache.deref pos [])
  | _ => none

/-- **All readers take what is cached for `id` for the same file**, which has the digest of its ad:
`getAdFile` and, where it goes to the cache, `getLockImage` return it, and the response to a request is a
message with this content. -/
structure ReadAs (x : Environment) (skipField : UInt32 → Bytes → Option Bytes) (s : AdManagerImpl)
    (id : Int32) (file : Bytes) : Prop where
  verified : ∃ ad, s.mapAd id.toUInt32 = some ad ∧ x.verified ad file = true
  getAdFile : s.getAdFile id = some file
  lockImage : ∀ ad, s.mapAd id.toUInt32 = some ad → ad.type = 4 → ad.image = [] →
    s.lockImage id.toUInt32 = some file
  served : ∀ msgID, ∃ m, (s.served id msgID).bind (Message.parseFromArray skipField) = some m ∧
    m.method = ascii "getAdFile" ∧ m.content = file

/-- **Writers and readers agree** on every file that is cached. -/
def Agrees (x : Environment) (skipField : UInt32 → Bytes → Option Bytes) (s : AdManagerImpl) : Prop :=
  ∀ id, s.cached id = true → ∃ file, s.ReadAs x skipField id file

/-- What lies in the cache for `id`: the file with the digest of its ad, in the form of the mode. -/
structure Represents (x : Environment) (s : AdManagerImpl) (id : Int32) (ad : Ad) (file : Bytes) :
    Prop where
  table : s.mapAd id.toUInt32 = some ad
  verified : x.verified ad file = true
  held : s.bufImage id.toUInt32 = some (s.stored file)

variable {s : AdManagerImpl} {x : Environment} {skipField : UInt32 → Bytes → Option Bytes} {id : Int32}
  {file : Bytes}

/-- The entry of an id that is cached. -/
theorem entry_of_cached (h : s.cached id = true) :
    ∃ n ∈ s.cache.bufImages, n.id = id.toUInt32 ∧ s.bufImage id.toUInt32 = some n.data := by
  have hsome : (s.bufImage id.toUInt32).isSome = true := by
    rw [ThreadBiz.bufImage_isSome]
    exact h
  obtain ⟨data, hdata⟩ := Option.isSome_iff_exists.mp hsome
  obtain ⟨n, hn, rfl⟩ := Option.map_eq_some_iff.mp hdata
  exact ⟨n, List.mem_of_find?_eq_some hn, by simpa using List.find?_some hn, hdata⟩

/-- The position leads to the bytes that `getAdFile` returns. -/
theorem served_eq (h : s.cache.Distinct) (id : Int32) (msgID : Int64) :
    s.served id msgID =
      (s.bufImage id.toUInt32).map fun data => ({ id := msgID } : Message).serialize ++ data := by
  have hid : readId { (Ask.getAdFile id.toUInt32).message with id := msgID }.content =
      some id.toUInt32 := readId_leBytes id.toUInt32
  rw [served, handleRequest_getAdFile s.cache rfl hid]
  cases hfind : s.cache.find id.toUInt32 with
  | none =>
      have hnone : s.bufImage id.toUInt32 = none := by
        rw [← Option.not_isSome_iff_eq_none, ThreadBiz.bufImage_isSome, Cache.find_eq_none.mp hfind]
        simp
      rw [hnone]
      rfl
  | some pos =>
      have hcached : s.cached id = true := by
        rw [cached, ← Bool.not_eq_false, ← Cache.find_eq_none, hfind]
        simp
      obtain ⟨n, hn, hid, hdata⟩ := entry_of_cached hcached
      obtain ⟨n', hn', hid', hderef⟩ := h.deref_find hfind []
      -- both nodes have the id, and no two nodes do
      obtain rfl : n' = n := List.inj_on_of_nodup_map h.ids hn' hn (hid'.trans hid.symm)
      show some (({ id := msgID.toUInt64.toInt64 } : Message).serialize ++ s.cache.deref pos []) = _
      rw [hdata, hderef, Int64.toInt64_toUInt64]
      rfl

/-- **No file is read in the same way by all readers**, in whatever form it is kept. -/
theorem not_readAs (hskip : Message.Skips skipField) (h : s.cache.Distinct) :
    ¬ s.ReadAs x skipField id file := by
  intro hread
  obtain ⟨m, hparse, hmethod, hcontent⟩ := hread.served 0
  have hfile : s.bufImage id.toUInt32 = some file := hread.getAdFile
  rw [served_eq h, hfile, Option.map_some, Option.bind_some] at hparse
  -- what the parser reads as content is shorter than what it was read from
  apply Message.content_ne_of_parse_withId hskip hparse _ hcontent
  rw [hmethod]
  decide +kernel

/-- So they agree exactly while nothing is cached. -/
theorem agrees_iff_empty (hskip : Message.Skips skipField) (h : s.cache.Distinct) :
    s.Agrees x skipField ↔ s.cache.bufImages = [] := by
  constructor
  · intro hagrees
    rw [List.eq_nil_iff_forall_not_mem]
    intro n hn
    have hcached : s.cached n.id.toInt32 = true := by
      rw [cached, UInt32.toUInt32_toInt32]
      exact Cache.contains_iff.mpr ⟨n, hn, rfl⟩
    obtain ⟨file, hread⟩ := hagrees _ hcached
    exact not_readAs hskip h hread
  · intro hempty id hid
    rw [cached, Cache.contains, hempty] at hid
    exact absurd hid (by simp)

end AdManagerImpl

/-! ## The representation of each mode -/

section Modes

variable {x : Environment} {b : ThreadBiz} {id : Int32} {ad : Ad} {file : Bytes}

/-- **In every reachable state a cached file lies in the cache in the form of the mode.** -/
theorem Downloaded.represents (h : Downloaded x b) (hid : b.impl.cached id = true) :
    ∃ ad file, b.impl.Represents x id ad file := by
  obtain ⟨n, hn, hkey, hdata⟩ := AdManagerImpl.entry_of_cached hid
  obtain ⟨ad, file, htable, _, hbytes, hverified⟩ := h.files n hn
  exact ⟨ad, file, hkey ▸ htable, hverified, by rw [hdata, hbytes]⟩

/-- On a client `getAdFile` and `getLockImage` return the file. -/
theorem AdManagerImpl.Represents.client_reads (h : b.impl.Represents x id ad file)
    (hclient : b.impl.isBarServer = false) :
    b.impl.getAdFile id = some file ∧
      (ad.type = 4 → ad.image = [] → b.impl.lockImage id.toUInt32 = some file) := by
  have hheld : b.impl.bufImage id.toUInt32 = some file := by
    rw [h.held, AdManagerImpl.stored, if_neg (by simp [hclient])]
  refine ⟨hheld, ?_⟩
  intro htype himage
  rw [AdManagerImpl.lockImage, h.table]
  simp only [htype, himage, ne_eq, not_true_eq_false, if_true, if_false, hheld]

/-- On a server the response to a request is a message with the file as content, within protobuf's limit on
the size of a message. -/
theorem AdManagerImpl.Represents.server_serves (h : b.impl.Represents x id ad file)
    (hserver : b.impl.isBarServer = true) (hdistinct : b.impl.cache.Distinct)
    (skipField : UInt32 → Bytes → Option Bytes) {msgID : Int64}
    (hlen : { fileAnswer file with id := msgID }.serialize.length < 2 ^ 31) :
    (b.impl.served id msgID).bind (Message.parseFromArray skipField) =
      some { fileAnswer file with id := msgID } := by
  have hwf : { fileAnswer file with id := msgID }.WellFormed :=
    ⟨by show isValidUtf8 (ascii "getAdFile") = true; decide +kernel, rfl⟩
  rw [AdManagerImpl.served_eq hdistinct, h.held, AdManagerImpl.stored, if_pos hserver, Option.map_some,
    Option.bind_some, Message.serialize_withId _ _ rfl]
  exact Message.parse_serialize skipField hwf hlen

end Modes

/-! ## Runs -/

/-- The event brings a file that has the digest of the ad it was asked for. -/
def fileArrives (x : Environment) (b : ThreadBiz) : BizEvent → Bool
  | .fetchEnded (.response status body) _ =>
      match b.stage with
      | .fetch _ ad _ _ => status = 200 && x.verified ad body
      | _ => false
  | .fileAnswer rsp _ =>
      match b.stage with
      | .file _ ad _ => rsp.returnCode = 0 && x.verified ad rsp.content
      | _ => false
  | _ => false

/-- The condition: no file arrives. The calls of the application are free. -/
def NoFileArrives (x : Environment) (t : Called ThreadBiz) : BizEvent ⊕ Accessor → Prop
  | .inl e => fileArrives x t.state e = false
  | .inr _ => True

instance (x : Environment) (t : Called ThreadBiz) :
    (e : BizEvent ⊕ Accessor) → Decidable (NoFileArrives x t e)
  | .inl e => inferInstanceAs (Decidable (fileArrives x t.state e = false))
  | .inr _ => .isTrue trivial

section Runs

variable {x : Environment} {b b' : ThreadBiz}

/-- What was inserted is there. -/
theorem insert_ne_nil (c : Cache) (id : UInt32) (data : Bytes) (rehash : Bool) :
    (c.insert id data rehash).bufImages ≠ [] := by
  unfold Cache.insert
  split
  · next hthere =>
      obtain ⟨n, hn, _⟩ := Cache.contains_iff.mp hthere
      exact List.ne_nil_of_mem hn
  · simp

/-- A file that arrives is cached. -/
theorem cached_of_arrives {e : BizEvent} (harrives : fileArrives x b e = true)
    (hs : step x b e = some b') : b'.impl.cache.bufImages ≠ [] := by
  cases bizStep hs with
  | fetchEnded f rehash id ad urls p hstage =>
      cases f with
      | exception => exact absurd harrives (by simp [fileArrives])
      | response status body =>
          have hgood : status = 200 ∧ x.verified ad body = true := by
            simpa [fileArrives, hstage] using harrives
          simp only [ThreadBiz.fetchEnded, hgood, and_self, if_true]
          exact insert_ne_nil b.impl.cache id (fileAnswer body).serialize rehash
  | fileAnswer rsp rehash id ad p hstage =>
      have hgood : rsp.returnCode = 0 ∧ x.verified ad rsp.content = true := by
        simpa [fileArrives, hstage] using harrives
      show (b.impl.fileReceived x ad id rsp rehash).cache.bufImages ≠ []
      rw [b.impl.fileReceived_verified hgood]
      exact insert_ne_nil b.impl.cache id rsp.content rehash
  | _ => exact absurd harrives (by simp [fileArrives])

/-- What is cached has arrived. -/
theorem arrives_of_caches {id : UInt32} {body : Bytes} {e : BizEvent} (h : Caches x b id body e) :
    fileArrives x b e = true := by
  cases h with
  | image ad urls p rehash hstage htable hpaths hverified => simp [fileArrives, hstage, hverified]
  | file ad p rsp rehash hstage htable hpaths hcode hcontent hverified =>
      simp [fileArrives, hstage, hcode, hcontent, hverified]

/-- **An event leaves an empty cache empty exactly when no file arrives.** -/
theorem empty_step_iff (hstage : b.AtStage) (hempty : b.impl.cache.bufImages = []) {e : BizEvent}
    (hs : step x b e = some b') : b'.impl.cache.bufImages = [] ↔ fileArrives x b e = false := by
  constructor
  · intro hnil
    rw [← Bool.not_eq_true]
    intro harrives
    exact cached_of_arrives harrives hs hnil
  · intro hnone
    rw [List.eq_nil_iff_forall_not_mem]
    intro n hn
    rcases (hstage.files_step hs).2 n hn with hold | ⟨body, _, hcaches⟩
    · rw [hempty] at hold
      exact absurd hold (by simp)
    · exact absurd (arrives_of_caches hcaches) (by simp [hnone])

/-- Nothing cached, nothing to tell apart. -/
theorem distinct_of_empty {c : Cache} (h : c.bufImages = []) : c.Distinct where
  nodes := by simp [h]
  fresh := by simp [h]
  ids := by simp [h]

/-- A call of the application leaves the cache and the stage alone, and the table grows. -/
theorem accessed_grows {a : Accessor} (h : b.accessed a = some b') :
    b.impl.Grows b'.impl ∧ b'.impl.cache = b.impl.cache ∧ b'.stage = b.stage := by
  have hsame : b.impl.Grows b.impl := ⟨rfl, rfl, .refl _⟩
  obtain ⟨⟨out, b''⟩, haccess, rfl⟩ := Option.map_eq_some_iff.mp h
  cases a with
  | getAd adId =>
      -- `mapAd[adId]` puts an empty ad in for an id the table does not have
      obtain ⟨_, rfl⟩ := Prod.mk.inj (Option.some.inj haccess)
      exact ⟨⟨rfl, rfl, b.impl.mapAd.insertAll_extends [(adId.toUInt32, {})]⟩, rfl, rfl⟩
  | getLockImage =>
      obtain ⟨_, rfl⟩ := Prod.mk.inj (Option.some.inj haccess)
      exact ⟨hsame, rfl, rfl⟩
  | getAdFile adId =>
      obtain ⟨file, _, heq⟩ := Option.map_eq_some_iff.mp haccess
      obtain ⟨_, rfl⟩ := Prod.mk.inj heq
      exact ⟨hsame, rfl, rfl⟩
  | getAdList =>
      obtain ⟨_, rfl⟩ := Prod.mk.inj (Option.some.inj haccess)
      exact ⟨hsame, rfl, rfl⟩
  | getAdPlayPolicy =>
      obtain ⟨_, rfl⟩ := Prod.mk.inj (Option.some.inj haccess)
      exact ⟨hsame, rfl, rfl⟩

/-- What the application makes up stays out of the way of downloads and of what they brought. -/
theorem Downloaded.accessed (h : Downloaded x b) {a : Accessor} (hcall : b.accessed a = some b') :
    Downloaded x b' := by
  obtain ⟨hgrows, hcache, hstage⟩ := accessed_grows hcall
  exact h.grows hgrows hcache hstage

/-- A step, or a call that may fault. -/
theorem Downloaded.calledStep {t t' : Called ThreadBiz} {e : BizEvent ⊕ Accessor}
    (h : Downloaded x t.state) (hs : calledStep (Business.step x) ThreadBiz.accessed t e = some t') :
    Downloaded x t'.state := by
  cases e with
  | inl e =>
      obtain ⟨_, hs⟩ := Option.ite_none_left_eq_some.mp hs
      obtain ⟨b, hb, rfl⟩ := Option.map_eq_some_iff.mp hs
      exact h.step hb
  | inr a =>
      obtain ⟨_, hs⟩ := Option.ite_none_left_eq_some.mp hs
      cases hcall : t.state.accessed a with
      | none =>
          rw [hcall] at hs
          obtain rfl := Option.some.inj hs
          exact h
      | some b =>
          rw [hcall] at hs
          obtain rfl := Option.some.inj hs
          exact h.accessed hcall

/-- A call leaves the cache alone, also one that faults. -/
theorem called_cache {t t' : Called ThreadBiz} {a : Accessor}
    (hs : Lib.calledStep (step x) ThreadBiz.accessed t (.inr a) = some t') :
    t'.state.impl.cache = t.state.impl.cache := by
  obtain ⟨_, hs⟩ := Option.ite_none_left_eq_some.mp hs
  cases hcall : t.state.accessed a with
  | none =>
      rw [hcall] at hs
      obtain rfl := Option.some.inj hs
      rfl
  | some b =>
      rw [hcall] at hs
      obtain rfl := Option.some.inj hs
      exact (accessed_grows hcall).2.1

end Runs

/-- **In every reachable state every cached file lies in the cache in the form of the mode**, whatever the
application calls in between. -/
theorem represents_run (x : Environment) (barId : Bytes) (isBarServer hasPlayer : Bool)
    {es : List (BizEvent ⊕ Accessor)} {t : Called ThreadBiz}
    (h : run (calledStep (step x) ThreadBiz.accessed)
      { state := ThreadBiz.init barId isBarServer hasPlayer } es = some t) (id : Int32)
    (hid : t.state.impl.cached id = true) : ∃ ad file, t.state.impl.Represents x id ad file := by
  have hdownloaded : Downloaded x t.state :=
    inv_run (I := fun t => Downloaded x t.state) (Downloaded.init x barId isBarServer hasPlayer)
      (fun _ _ _ ht hs => ht.calledStep hs) h
  exact hdownloaded.represents hid

/-- **Writers and readers agree exactly while nothing is cached.** For a bar server and for a client, with
calls of the application at any points: they agree in every state of a run if and only if no step of it
brings a verified file. -/
theorem agrees_iff (x : Environment) {skipField : UInt32 → Bytes → Option Bytes}
    (hskip : Message.Skips skipField) (barId : Bytes) (isBarServer hasPlayer : Bool)
    {es : List (BizEvent ⊕ Accessor)} {t : Called ThreadBiz}
    (h : run (calledStep (step x) ThreadBiz.accessed)
      { state := ThreadBiz.init barId isBarServer hasPlayer } es = some t) :
    EveryState (calledStep (step x) ThreadBiz.accessed) (fun t => t.state.impl.Agrees x skipField)
        { state := ThreadBiz.init barId isBarServer hasPlayer } es ↔
      EveryStep (calledStep (step x) ThreadBiz.accessed) (NoFileArrives x)
        { state := ThreadBiz.init barId isBarServer hasPlayer } es := by
  refine everyState_iff_everyStep
    (I := fun t => Downloaded x t.state ∧ t.state.impl.cache.bufImages = [])
    ⟨Downloaded.init x barId isBarServer hasPlayer, rfl⟩ ?_ ?_ ?_ h
  · rintro t ⟨_, hempty⟩
    exact (AdManagerImpl.agrees_iff_empty hskip (distinct_of_empty hempty)).mpr hempty
  · rintro t e t' ⟨hdown, hempty⟩ hnone hs
    refine ⟨hdown.calledStep hs, ?_⟩
    cases e with
    | inl e =>
        obtain ⟨_, hs⟩ := Option.ite_none_left_eq_some.mp hs
        obtain ⟨b, hb, rfl⟩ := Option.map_eq_some_iff.mp hs
        exact (empty_step_iff hdown.stage hempty hb).mpr hnone
    | inr a =>
        rw [called_cache hs]
        exact hempty
  · rintro t e t' ⟨hdown, hempty⟩ hs hagrees
    cases e with
    | inl e =>
        obtain ⟨_, hs⟩ := Option.ite_none_left_eq_some.mp hs
        obtain ⟨b, hb, rfl⟩ := Option.map_eq_some_iff.mp hs
        -- the new cache may hold a file, but each only once, which is enough to tell the readers apart
        have hdistinct := distinct_step hb (distinct_of_empty hempty)
        exact (empty_step_iff hdown.stage hempty hb).mp
          ((AdManagerImpl.agrees_iff_empty hskip hdistinct).mp hagrees)
    | inr a => trivial

/-- A refresh whose file is refused, and then the calls of the application. -/
def refusedRefresh : List (BizEvent ⊕ Accessor) :=
  [.inl .connected, .inl (.policyAnswer { content := samplePolicy }),
    .inl (.adListAnswer { content := sampleAdList }), .inl .next,
    .inl (.fileAnswer { returnCode := errorDataNotExist } false), .inr .getLockImage, .inr (.getAd 1),
    .inl .next]

theorem agrees_iff_refused :
    EveryState (calledStep (step sampleEnvironment) ThreadBiz.accessed)
      (fun t => t.state.impl.Agrees sampleEnvironment fun _ _ => none)
      { state := ThreadBiz.init (ascii "1") false false } refusedRefresh := by
  have hview : (run (calledStep (step sampleEnvironment) ThreadBiz.accessed)
      { state := ThreadBiz.init (ascii "1") false false } refusedRefresh).isSome = true := by
    decide +kernel
  obtain ⟨t, ht⟩ := Option.isSome_iff_exists.mp hview
  have hskip : Message.Skips fun _ _ => none := by
    intro tag input rest hrest
    exact absurd hrest (by simp)
  exact (agrees_iff sampleEnvironment hskip (ascii "1") false false ht).mpr (by decide +kernel)

/-- A refresh, and the answer `e` to the request for the file of ad 1. -/
def refreshed (e : BizEvent) : List (BizEvent ⊕ Accessor) :=
  [.inl .connected, .inl (.policyAnswer { content := samplePolicy }),
    .inl (.adListAnswer { content := sampleAdList }), .inl .next, .inl e]

/-- **One cached file in each mode.** On a server `getAdFile` returns the serialized message, which has not
the digest of the ad. On a client what would be sent for the file is no message at all. -/
theorem agrees_broken :
    (∃ t, run (calledStep (step sampleEnvironment) ThreadBiz.accessed)
        { state := ThreadBiz.init (ascii "1") true false }
        (refreshed (.fetchEnded (.response 200 sampleFile) false)) = some t ∧
      t.state.impl.getAdFile 1 = some (fileAnswer sampleFile).serialize ∧
      (t.state.impl.mapAd 1).map (fun ad =>
        sampleEnvironment.verified ad (fileAnswer sampleFile).serialize) = some false ∧
      ¬ t.state.impl.Agrees sampleEnvironment fun _ _ => none) ∧
    ∃ t, run (calledStep (step sampleEnvironment) ThreadBiz.accessed)
        { state := ThreadBiz.init (ascii "1") false false }
        (refreshed (.fileAnswer { content := sampleFile } false)) = some t ∧
      t.state.impl.getAdFile 1 = some sampleFile ∧
      (t.state.impl.served 1 1).bind (Message.parseFromArray fun _ _ => none) = none ∧
      ¬ t.state.impl.Agrees sampleEnvironment fun _ _ => none := by
  constructor
  · have hview : (run (calledStep (step sampleEnvironment) ThreadBiz.accessed)
        { state := ThreadBiz.init (ascii "1") true false }
        (refreshed (.fetchEnded (.response 200 sampleFile) false))).map (fun t =>
          (t.state.impl.getAdFile 1, (t.state.impl.mapAd 1).map fun ad =>
            sampleEnvironment.verified ad (fileAnswer sampleFile).serialize, t.state.impl.cached 1)) =
        some (some (fileAnswer sampleFile).serialize, some false, true) := by
      decide +kernel
    obtain ⟨t, ht, hview⟩ := Option.map_eq_some_iff.mp hview
    simp only [Prod.mk.injEq] at hview
    obtain ⟨hfile, hdigest, hcached⟩ := hview
    refine ⟨t, ht, hfile, hdigest, ?_⟩
    intro hagrees
    obtain ⟨file, hread⟩ := hagrees 1 hcached
    obtain ⟨ad, htable, hverified⟩ := hread.verified
    obtain rfl := Option.some.inj (hfile.symm.trans hread.getAdFile)
    have htable : t.state.impl.mapAd 1 = some ad := htable
    rw [htable, Option.map_some, hverified] at hdigest
    exact absurd hdigest (by decide)
  · have hview : (run (calledStep (step sampleEnvironment) ThreadBiz.accessed)
        { state := ThreadBiz.init (ascii "1") false false }
        (refreshed (.fileAnswer { content := sampleFile } false))).map (fun t =>
          (t.state.impl.getAdFile 1,
            (t.state.impl.served 1 1).bind (Message.parseFromArray fun _ _ => none),
            t.state.impl.cached 1)) = some (some sampleFile, none, true) := by
      decide +kernel
    obtain ⟨t, ht, hview⟩ := Option.map_eq_some_iff.mp hview
    simp only [Prod.mk.injEq] at hview
    obtain ⟨hfile, hserved, hcached⟩ := hview
    refine ⟨t, ht, hfile, hserved, ?_⟩
    intro hagrees
    obtain ⟨file, hread⟩ := hagrees 1 hcached
    obtain ⟨m, hparse, _⟩ := hread.served 1
    rw [hserved] at hparse
    exact absurd hparse (by simp)

end AdManager.Business
