/-
# AdManager.Business.DownloadAd — one call of `downloadAd`, up to its return.

A call is a run of the thread that ends before the second loop of `downloadAds` goes on. On a server it
takes the download paths in their order and stops at the first one that answers with the file; on a
client there is one request, whose answer decides. Meanwhile time passes and business may be ended, but
the policy and the table stay as they are, so the ad whose digest is compared at the end is the one that
was found at the start.
-/
import AdManager.Business.Downloads

namespace AdManager.Business

open AdManager.Wire AdManager.Lib AdManager.Server

/-! ## Steps inside a pass -/

/-- The pass that the thread is in. -/
def Stage.pass? : Stage → Option Pass
  | .download p => some p
  | .fetch _ _ _ p => some p
  | .file _ _ p => some p
  | _ => none

/-- The outcome of an HTTP request that ends with the event. -/
def BizEvent.fetched? : BizEvent → Option (Fetched × Bool)
  | .fetchEnded f rehash => some (f, rehash)
  | _ => none

/-- The answer to a client's request for a file. -/
def BizEvent.file? : BizEvent → Option (Message × Bool)
  | .fileAnswer rsp rehash => some (rsp, rehash)
  | _ => none

/-- The data of business, which a pass may see ended. -/
def AdManagerImpl.ended (s : AdManagerImpl) (e : Bool) : AdManagerImpl := { s with isEndBusiness := e }

/-- **What an event does inside a pass**: nothing but to the timers and to `_isEndBusiness`; a turn of the
second loop; or the end of what `downloadAd` waits for. -/
inductive PassStep (x : Environment) (b : ThreadBiz) : BizEvent → ThreadBiz → Prop
  | outside (e : BizEvent) (l : TimerLoop Timer) (ended : Bool) (hnext : e ≠ .next)
      (hfetched : e.fetched? = none) (hfile : e.file? = none)
      (hwaits : ∀ t, l.outstanding t = b.loop.outstanding t) (hexpiry : l.expiry = b.loop.expiry) :
      PassStep x b e { b with loop := l, impl := b.impl.ended ended }
  | next (p : Pass) (hstage : b.stage = .download p) : PassStep x b .next (b.nextAd p)
  | fetched (f : Fetched) (rehash : Bool) (id : UInt32) (ad : Ad) (urls : List Bytes) (p : Pass)
      (hstage : b.stage = .fetch id ad urls p) :
      PassStep x b (.fetchEnded f rehash) (b.fetchEnded x id ad urls p f rehash)
  | file (rsp : Message) (rehash : Bool) (id : UInt32) (ad : Ad) (p : Pass)
      (hstage : b.stage = .file id ad p) :
      PassStep x b (.fileAnswer rsp rehash)
        { b with impl := b.impl.fileReceived x ad id rsp rehash, stage := .download p }

theorem passStep {x : Environment} {b b' : ThreadBiz} {e : BizEvent} {p : Pass}
    (hp : b.stage.pass? = some p) (hs : step x b e = some b') : PassStep x b e b' := by
  cases bizStep hs with
  | tick n =>
      exact PassStep.outside (x := x) (b := b) (.tick n) (b.loop.tick n) b.impl.isEndBusiness (by simp)
        rfl rfl (fun _ => rfl) rfl
  | fire t l hl =>
      obtain ⟨w, ws, _, _, hfired⟩ := TimerLoop.fire_spec hl
      exact PassStep.outside (x := x) (b := b) (.fire t) l b.impl.isEndBusiness (by simp) rfl rfl
        (fun _ => TimerLoop.outstanding_fire hl) (by rw [hfired])
  | next q hstage => exact .next q hstage
  | fetchEnded f rehash id ad urls q hstage => exact .fetched f rehash id ad urls q hstage
  | fileAnswer rsp rehash id ad q hstage => exact .file rsp rehash id ad q hstage
  | endBusiness =>
      exact PassStep.outside (x := x) (b := b) .endBusiness b.loop true (by simp) rfl rfl
        (fun _ => rfl) rfl
  | runHandler f l hstage hl => rw [hstage] at hp; cases hp
  | connected hstage => rw [hstage] at hp; cases hp
  | policyAnswer rsp hstage => rw [hstage] at hp; cases hp
  | adListAnswer rsp root hstage => rw [hstage] at hp; cases hp
  | requestAd adId hstage => rw [hstage] at hp; cases hp
  | adReceived rsp ad hstage hrec => rw [hstage] at hp; cases hp
  | adRefused rsp hstage hrec => rw [hstage] at hp; cases hp

/-! ## The tables during a pass -/

/-- What a pass reads and no event inside it writes. -/
structure AdManagerImpl.SameTables (s s' : AdManagerImpl) : Prop where
  isBarServer : s'.isBarServer = s.isBarServer
  hasPlayer : s'.hasPlayer = s.hasPlayer
  policy : s'.policy = s.policy
  mapAd : s'.mapAd = s.mapAd
  lockAds : s'.lockAds = s.lockAds

theorem AdManagerImpl.SameTables.refl (s : AdManagerImpl) : s.SameTables s := ⟨rfl, rfl, rfl, rfl, rfl⟩

theorem AdManagerImpl.SameTables.trans {s s' s'' : AdManagerImpl} (h : s.SameTables s')
    (h' : s'.SameTables s'') : s.SameTables s'' where
  isBarServer := h'.isBarServer.trans h.isBarServer
  hasPlayer := h'.hasPlayer.trans h.hasPlayer
  policy := h'.policy.trans h.policy
  mapAd := h'.mapAd.trans h.mapAd
  lockAds := h'.lockAds.trans h.lockAds

section Tables

variable {x : Environment} {b b' : ThreadBiz} {e : BizEvent}

theorem fileReceived_tables (s : AdManagerImpl) (ad : Ad) (id : UInt32) (rsp : Message)
    (rehash : Bool) : s.SameTables (s.fileReceived x ad id rsp rehash) := by
  by_cases hgood : rsp.returnCode = 0 ∧ x.verified ad rsp.content = true
  · rw [s.fileReceived_verified hgood]
    exact ⟨rfl, rfl, rfl, rfl, rfl⟩
  · rw [s.fileReceived_refused hgood]
    exact .refl s

theorem PassStep.tables (h : PassStep x b e b') : b.impl.SameTables b'.impl := by
  cases h with
  | outside e l ended _ _ _ _ _ => exact ⟨rfl, rfl, rfl, rfl, rfl⟩
  | next p hstage =>
      rw [(b.nextAd_data p).impl]
      exact .refl b.impl
  | fetched f rehash id ad urls p hstage =>
      obtain ⟨cache, hmoves⟩ := b.fetchEnded_movesOn x id ad urls p f rehash
      rw [hmoves.data.impl]
      exact ⟨rfl, rfl, rfl, rfl, rfl⟩
  | file rsp rehash id ad p hstage => exact fileReceived_tables b.impl ad id rsp rehash

end Tables

/-! ## What a call has done -/

/-- What `downloadAd` keeps of an HTTP request: the body of an answer with status 200 that has the
digest of the ad. -/
def Environment.goodBody (x : Environment) (ad : Ad) : Fetched → Option Bytes
  | .exception => none
  | .response status body => if status = 200 ∧ x.verified ad body then some body else none

/-- `c'` is `c` with the file `data` of `id`, and otherwise unchanged. -/
structure Gains (c : Cache) (id : UInt32) (data : Bytes) (c' : Cache) : Prop where
  images : ∃ node, c'.bufImages = c.bufImages ++ [{ node := node, id := id, data := data }]
  bufPolicy : c'.bufPolicy = c.bufPolicy
  bufAdList : c'.bufAdList = c.bufAdList

theorem insert_gains {c : Cache} {id : UInt32} (h : c.contains id = false) (data : Bytes)
    (rehash : Bool) : Gains c id data (c.insert id data rehash) := by
  unfold Cache.insert
  rw [if_neg (by simp [h])]
  exact ⟨⟨c.nextNode, rfl⟩, rfl, rfl⟩

/-- **What `downloadAd` has done on a server**, called in the state `b`, when the HTTP requests so far
have ended with `outs`. The paths in `done` have failed; `url` is the one asked last. -/
inductive ServerCall (x : Environment) (b : ThreadBiz) (id : UInt32) (ad : Ad) (p : Pass) :
    List (Fetched × Bool) → ThreadBiz → Prop
  /-- It waits for the answer from `url`. -/
  | fetching (outs : List (Fetched × Bool)) (t : ThreadBiz) (done : List Bytes) (url : Bytes)
      (rest : List Bytes) (hurls : ad.download = done ++ url :: rest)
      (hlen : outs.length = done.length) (hbad : ∀ out ∈ outs, x.goodBody ad out.1 = none)
      (hstage : t.stage = .fetch id ad rest p)
      (hout : t.outgoing = b.outgoing ++ (done ++ [url]).map .httpGet)
      (hplay : t.impl.playList = b.impl.playList) (hcache : t.impl.cache = b.impl.cache) :
      ServerCall x b id ad p outs t
  /-- It has cached the file from `url`, and asked none of the rest. -/
  | cached (outs : List (Fetched × Bool)) (f : Fetched) (rehash : Bool) (body : Bytes) (t : ThreadBiz)
      (done : List Bytes) (url : Bytes) (rest : List Bytes) (hurls : ad.download = done ++ url :: rest)
      (hlen : outs.length = done.length) (hbad : ∀ out ∈ outs, x.goodBody ad out.1 = none)
      (hgood : x.goodBody ad f = some body) (hstage : t.stage = .download p)
      (hout : t.outgoing = b.outgoing ++ (done ++ [url]).map .httpGet)
      (hplay : t.impl.playList = b.impl.playList)
      (hcache : Gains b.impl.cache id (fileAnswer body).serialize t.impl.cache) :
      ServerCall x b id ad p (outs ++ [(f, rehash)]) t
  /-- All paths have failed. -/
  | failed (outs : List (Fetched × Bool)) (t : ThreadBiz) (hlen : outs.length = ad.download.length)
      (hbad : ∀ out ∈ outs, x.goodBody ad out.1 = none) (hstage : t.stage = .download p)
      (hout : t.outgoing = b.outgoing ++ ad.download.map .httpGet)
      (hplay : t.impl.playList = b.impl.playList) (hcache : t.impl.cache = b.impl.cache) :
      ServerCall x b id ad p outs t

/-- **What `downloadAd` has done on a client**, called in the state `b`, when the answers so far are
`outs`: it waits for the one answer, or has it. -/
inductive ClientCall (x : Environment) (b : ThreadBiz) (id : UInt32) (ad : Ad) (p : Pass) :
    List (Message × Bool) → ThreadBiz → Prop
  | waiting (t : ThreadBiz) (hstage : t.stage = .file id ad p)
      (hout : t.outgoing = b.outgoing ++ [.request (Ask.getAdFile id).message])
      (hplay : t.impl.playList = b.impl.playList) (hcache : t.impl.cache = b.impl.cache) :
      ClientCall x b id ad p [] t
  | cached (rsp : Message) (rehash : Bool) (t : ThreadBiz) (hcode : rsp.returnCode = 0)
      (hverified : x.verified ad rsp.content = true) (hstage : t.stage = .download p)
      (hout : t.outgoing = b.outgoing ++ [.request (Ask.getAdFile id).message])
      (hplay : t.impl.playList =
        if id ∈ b.impl.lockAds ∧ b.impl.hasPlayer then
          b.impl.playList.map fun item =>
            if item.id = id then { item with adfile := some rsp.content } else item
        else b.impl.playList)
      (hcache : Gains b.impl.cache id rsp.content t.impl.cache) :
      ClientCall x b id ad p [(rsp, rehash)] t
  | refused (rsp : Message) (rehash : Bool) (t : ThreadBiz)
      (hbad : ¬ (rsp.returnCode = 0 ∧ x.verified ad rsp.content = true)) (hstage : t.stage = .download p)
      (hout : t.outgoing = b.outgoing ++ [.request (Ask.getAdFile id).message])
      (hplay : t.impl.playList = b.impl.playList) (hcache : t.impl.cache = b.impl.cache) :
      ClientCall x b id ad p [(rsp, rehash)] t

/-! ## Step by step -/

section Steps

variable {x : Environment} {b t t' : ThreadBiz} {e : BizEvent} {id : UInt32} {ad : Ad} {p : Pass}

theorem fetchEnded_good {f : Fetched} {body : Bytes} (h : x.goodBody ad f = some body)
    (t : ThreadBiz) (urls : List Bytes) (rehash : Bool) : t.fetchEnded x id ad urls p f rehash =
      { t with impl := t.impl.imageDownloaded id body rehash, stage := .download p } := by
  cases f with
  | exception => exact absurd h (by simp [Environment.goodBody])
  | response status body' =>
      simp only [Environment.goodBody, Option.ite_none_right_eq_some, Option.some.injEq] at h
      obtain ⟨hgood, rfl⟩ := h
      simp only [ThreadBiz.fetchEnded, if_pos hgood]

theorem fetchEnded_bad {f : Fetched} (h : x.goodBody ad f = none) (t : ThreadBiz)
    (urls : List Bytes) (rehash : Bool) :
    t.fetchEnded x id ad urls p f rehash = t.fetchFrom id ad p urls := by
  cases f with
  | exception => rfl
  | response status body =>
      have hbad : ¬ (status = 200 ∧ x.verified ad body = true) := by
        simpa [Environment.goodBody] using h
      simp only [ThreadBiz.fetchEnded, if_neg hbad]

/-- A call that has returned stays as it is until the next turn. -/
theorem returned_step (hstage : t.stage = .download p) (hnext : e ≠ .next) (hs : step x t e = some t') :
    e.fetched? = none ∧ e.file? = none ∧ t'.stage = t.stage ∧ t'.outgoing = t.outgoing ∧
      t'.impl.playList = t.impl.playList ∧ t'.impl.cache = t.impl.cache := by
  have hp : t.stage.pass? = some p := by
    rw [hstage]
    rfl
  cases passStep hp hs with
  | outside e l ended _ hfetched hfile _ _ => exact ⟨hfetched, hfile, rfl, rfl, rfl, rfl⟩
  | next q _ => exact absurd rfl hnext
  | fetched f rehash id ad urls q hstage' => exact absurd (hstage.symm.trans hstage') (by simp)
  | file rsp rehash id ad q hstage' => exact absurd (hstage.symm.trans hstage') (by simp)

theorem ServerCall.pass {outs : List (Fetched × Bool)} (h : ServerCall x b id ad p outs t) :
    t.stage.pass? = some p := by
  cases h with
  | fetching _ _ _ _ _ _ _ _ hstage => rw [hstage]; rfl
  | cached _ _ _ _ _ _ _ _ _ _ _ _ hstage => rw [hstage]; rfl
  | failed _ _ _ _ hstage => rw [hstage]; rfl

theorem ClientCall.pass {outs : List (Message × Bool)} (h : ClientCall x b id ad p outs t) :
    t.stage.pass? = some p := by
  cases h with
  | waiting _ hstage => rw [hstage]; rfl
  | cached _ _ _ _ _ hstage => rw [hstage]; rfl
  | refused _ _ _ _ hstage => rw [hstage]; rfl

theorem ServerCall.start (hwanted : b.impl.Wanted id ad) (hserver : b.impl.isBarServer = true)
    (p : Pass) : ServerCall x b id ad p [] (b.downloadAd id p) := by
  simp only [ThreadBiz.downloadAd, hwanted.table, if_neg hwanted.paths, if_pos hserver]
  obtain ⟨url, urls, hurls⟩ := List.exists_cons_of_ne_nil hwanted.paths
  rw [hurls]
  exact .fetching [] _ [] url urls hurls rfl (by simp) rfl rfl rfl rfl

/-- **The end of an HTTP request** takes the call to the next path, or ends it. -/
theorem ServerCall.fetched {outs : List (Fetched × Bool)} {done : List Bytes} {url : Bytes}
    {rest : List Bytes} (hwanted : b.impl.Wanted id ad) (hurls : ad.download = done ++ url :: rest)
    (hlen : outs.length = done.length) (hbad : ∀ out ∈ outs, x.goodBody ad out.1 = none)
    (hout : t.outgoing = b.outgoing ++ (done ++ [url]).map .httpGet)
    (hplay : t.impl.playList = b.impl.playList) (hcache : t.impl.cache = b.impl.cache)
    (f : Fetched) (rehash : Bool) :
    ServerCall x b id ad p (outs ++ [(f, rehash)]) (t.fetchEnded x id ad rest p f rehash) := by
  cases hf : x.goodBody ad f with
  | some body =>
      rw [fetchEnded_good hf]
      refine .cached outs f rehash body _ done url rest hurls hlen hbad hf rfl hout hplay ?_
      have hgains := insert_gains hwanted.missing (fileAnswer body).serialize rehash
      rw [← hcache] at hgains ⊢
      exact hgains
  | none =>
      rw [fetchEnded_bad hf]
      have hbad' : ∀ out ∈ outs ++ [(f, rehash)], x.goodBody ad out.1 = none := by
        intro out hmem
        rcases List.mem_append.mp hmem with hmem | hmem
        · exact hbad out hmem
        · obtain rfl := List.mem_singleton.mp hmem
          exact hf
      have hlen' : (outs ++ [(f, rehash)]).length = (done ++ [url]).length := by
        rw [List.length_append, List.length_append, hlen]
        rfl
      cases rest with
      | nil =>
          refine .failed _ _ ?_ hbad' rfl ?_ hplay hcache
          · rw [hlen', hurls]
          · rw [hurls]
            exact hout
      | cons url' rest =>
          refine .fetching _ _ (done ++ [url]) url' rest ?_ hlen' hbad' rfl ?_ hplay hcache
          · rw [hurls, List.append_assoc, List.singleton_append]
          · show t.outgoing ++ [url'].map .httpGet = _
            rw [hout, List.append_assoc, ← List.map_append]

theorem ServerCall.step {outs : List (Fetched × Bool)} (hwanted : b.impl.Wanted id ad)
    (h : ServerCall x b id ad p outs t) (hnext : e ≠ .next) (hs : Business.step x t e = some t') :
    ServerCall x b id ad p (outs ++ e.fetched?.toList) t' := by
  have hpass := h.pass
  cases h with
  | fetching _ _ done url rest hurls hlen hbad hstage hout hplay hcache =>
      cases passStep hpass hs with
      | outside e l ended _ hfetched _ _ _ =>
          rw [hfetched, Option.toList_none, List.append_nil]
          exact .fetching outs _ done url rest hurls hlen hbad hstage hout hplay hcache
      | next q _ => exact absurd rfl hnext
      | fetched f rehash id' ad' urls q hstage' =>
          obtain ⟨rfl, rfl, rfl, rfl⟩ := Stage.fetch.inj (hstage.symm.trans hstage')
          exact .fetched hwanted hurls hlen hbad hout hplay hcache f rehash
      | file rsp rehash id' ad' q hstage' => exact absurd (hstage.symm.trans hstage') (by simp)
  | cached outs f rehash body _ done url rest hurls hlen hbad hgood hstage hout hplay hcache =>
      obtain ⟨hfetched, _, hstage', hout', hplay', hcache'⟩ := returned_step hstage hnext hs
      rw [hfetched, Option.toList_none, List.append_nil]
      exact .cached outs f rehash body t' done url rest hurls hlen hbad hgood (hstage'.trans hstage)
        (hout'.trans hout) (hplay'.trans hplay) (hcache' ▸ hcache)
  | failed _ _ hlen hbad hstage hout hplay hcache =>
      obtain ⟨hfetched, _, hstage', hout', hplay', hcache'⟩ := returned_step hstage hnext hs
      rw [hfetched, Option.toList_none, List.append_nil]
      exact .failed outs t' hlen hbad (hstage'.trans hstage) (hout'.trans hout) (hplay'.trans hplay)
        (hcache'.trans hcache)

theorem ClientCall.start (hwanted : b.impl.Wanted id ad) (hclient : b.impl.isBarServer = false)
    (p : Pass) : ClientCall x b id ad p [] (b.downloadAd id p) := by
  simp only [ThreadBiz.downloadAd, hwanted.table, if_neg hwanted.paths, hclient, Bool.false_eq_true,
    if_false]
  exact .waiting _ rfl rfl rfl rfl

theorem ClientCall.step {outs : List (Message × Bool)} (hwanted : b.impl.Wanted id ad)
    (htables : b.impl.SameTables t.impl) (h : ClientCall x b id ad p outs t) (hnext : e ≠ .next)
    (hs : Business.step x t e = some t') : ClientCall x b id ad p (outs ++ e.file?.toList) t' := by
  have hpass := h.pass
  cases h with
  | waiting _ hstage hout hplay hcache =>
      cases passStep hpass hs with
      | outside e l ended _ _ hfile _ _ =>
          rw [hfile]
          exact .waiting _ hstage hout hplay hcache
      | next q _ => exact absurd rfl hnext
      | fetched f rehash id' ad' urls q hstage' => exact absurd (hstage.symm.trans hstage') (by simp)
      | file rsp rehash id' ad' q hstage' =>
          obtain ⟨rfl, rfl, rfl⟩ := Stage.file.inj (hstage.symm.trans hstage')
          by_cases hgood : rsp.returnCode = 0 ∧ x.verified ad rsp.content = true
          · rw [t.impl.fileReceived_verified hgood]
            refine .cached rsp rehash _ hgood.1 hgood.2 rfl hout ?_ ?_
            · show (if id ∈ t.impl.lockAds ∧ t.impl.hasPlayer then _ else t.impl.playList) = _
              rw [htables.lockAds, htables.hasPlayer, ← hplay]
              rfl
            · show Gains _ _ _ (t.impl.cache.insert id rsp.content rehash)
              rw [hcache]
              exact insert_gains hwanted.missing rsp.content rehash
          · rw [t.impl.fileReceived_refused hgood]
            exact .refused rsp rehash _ hgood rfl hout hplay hcache
  | cached rsp rehash _ hcode hverified hstage hout hplay hcache =>
      obtain ⟨_, hfile, hstage', hout', hplay', hcache'⟩ := returned_step hstage hnext hs
      rw [hfile]
      exact .cached rsp rehash t' hcode hverified (hstage'.trans hstage) (hout'.trans hout)
        (hplay'.trans hplay) (hcache' ▸ hcache)
  | refused rsp rehash _ hbad hstage hout hplay hcache =>
      obtain ⟨_, hfile, hstage', hout', hplay', hcache'⟩ := returned_step hstage hnext hs
      rw [hfile]
      exact .refused rsp rehash t' hbad (hstage'.trans hstage) (hout'.trans hout) (hplay'.trans hplay)
        (hcache'.trans hcache)

end Steps

/-! ## The whole call -/

section Call

variable {x : Environment} {b t : ThreadBiz} {id : UInt32} {ad : Ad} {es : List BizEvent}

theorem downloadAd_tables (b : ThreadBiz) (id : UInt32) (p : Pass) :
    b.impl.SameTables (b.downloadAd id p).impl := by
  rw [(b.downloadAd_movesOn id p).data.impl]
  exact .refl b.impl

theorem not_mem_concat {α : Type*} {l : List α} {a c : α} (h : a ∉ l ++ [c]) : a ∉ l ∧ c ≠ a :=
  ⟨fun hmem => h (List.mem_append_left _ hmem), fun heq => h (by simp [heq])⟩

/-- A call on a server, at any point of it. -/
theorem serverCall_run (hwanted : b.impl.Wanted id ad) (hserver : b.impl.isBarServer = true) (p : Pass)
    (hnext : .next ∉ es) (h : run (step x) (b.downloadAd id p) es = some t) :
    b.impl.SameTables t.impl ∧ ServerCall x b id ad p (es.filterMap BizEvent.fetched?) t := by
  refine run_induction (P := fun es t => .next ∉ es → b.impl.SameTables t.impl ∧
    ServerCall x b id ad p (es.filterMap BizEvent.fetched?) t)
    (fun _ => ⟨downloadAd_tables b id p, .start hwanted hserver p⟩) ?_ h hnext
  intro es e t t' _ ih hs hnext
  obtain ⟨hbefore, he⟩ := not_mem_concat hnext
  obtain ⟨htables, hcall⟩ := ih hbefore
  rw [filterMap_concat]
  exact ⟨htables.trans (passStep hcall.pass hs).tables, hcall.step hwanted he hs⟩

/-- A call on a client, at any point of it. -/
theorem clientCall_run (hwanted : b.impl.Wanted id ad) (hclient : b.impl.isBarServer = false) (p : Pass)
    (hnext : .next ∉ es) (h : run (step x) (b.downloadAd id p) es = some t) :
    b.impl.SameTables t.impl ∧ ClientCall x b id ad p (es.filterMap BizEvent.file?) t := by
  refine run_induction (P := fun es t => .next ∉ es → b.impl.SameTables t.impl ∧
    ClientCall x b id ad p (es.filterMap BizEvent.file?) t)
    (fun _ => ⟨downloadAd_tables b id p, .start hwanted hclient p⟩) ?_ h hnext
  intro es e t t' _ ih hs hnext
  obtain ⟨hbefore, he⟩ := not_mem_concat hnext
  obtain ⟨htables, hcall⟩ := ih hbefore
  rw [filterMap_concat]
  exact ⟨htables.trans (passStep hcall.pass hs).tables, hcall.step hwanted htables he hs⟩

/-- A call on a server that has not returned takes any outcome. -/
theorem ServerCall.takes {p : Pass} {outs : List (Fetched × Bool)} (h : ServerCall x b id ad p outs t)
    (hstage : t.stage ≠ .download p) (f : Fetched) (rehash : Bool) :
    (Business.step x t (.fetchEnded f rehash)).isSome := by
  cases h with
  | fetching _ _ _ _ _ _ _ _ hfetch => simp only [Business.step, hfetch, Option.isSome_some]
  | cached _ _ _ _ _ _ _ _ _ _ _ _ hreturned => exact absurd hreturned hstage
  | failed _ _ _ _ hreturned => exact absurd hreturned hstage

/-- A call on a client that has not returned takes any answer. -/
theorem ClientCall.takes {p : Pass} {outs : List (Message × Bool)} (h : ClientCall x b id ad p outs t)
    (hstage : t.stage ≠ .download p) (rsp : Message) (rehash : Bool) :
    (Business.step x t (.fileAnswer rsp rehash)).isSome := by
  cases h with
  | waiting _ hfile => simp only [Business.step, hfile, Option.isSome_some]
  | cached _ _ _ _ _ hreturned => exact absurd hreturned hstage
  | refused _ _ _ _ hreturned => exact absurd hreturned hstage

end Call

/-- **Only verified files are published, from the first good path.** Whatever the outcomes are, at any
point of a call for a file that is wanted: a server has asked the paths in order, up to the first one
that answered with the file, and has cached the answer to a request for it, or nothing; a client has
cached the content of a successful answer with the digest of the ad, or nothing, and given it to the
player exactly if it is of the lock screen. The other files, the tables and the policy are unchanged,
and the call takes any outcome of what it waits for. -/
theorem downloadAd_verified (x : Environment) {b : ThreadBiz} {id : UInt32} {ad : Ad}
    (hwanted : b.impl.Wanted id ad) (p : Pass) {es : List BizEvent} (hnext : .next ∉ es) {t : ThreadBiz}
    (h : run (step x) (b.downloadAd id p) es = some t) :
    b.impl.SameTables t.impl ∧
      (b.impl.isBarServer = true → ServerCall x b id ad p (es.filterMap BizEvent.fetched?) t ∧
        (t.stage ≠ .download p → ∀ f rehash, (step x t (.fetchEnded f rehash)).isSome)) ∧
      (b.impl.isBarServer = false → ClientCall x b id ad p (es.filterMap BizEvent.file?) t ∧
        (t.stage ≠ .download p → ∀ rsp rehash, (step x t (.fileAnswer rsp rehash)).isSome)) := by
  have hserver : b.impl.isBarServer = true → b.impl.SameTables t.impl ∧
      ServerCall x b id ad p (es.filterMap BizEvent.fetched?) t :=
    fun hserver => serverCall_run hwanted hserver p hnext h
  have hclient : b.impl.isBarServer = false → b.impl.SameTables t.impl ∧
      ClientCall x b id ad p (es.filterMap BizEvent.file?) t :=
    fun hclient => clientCall_run hwanted hclient p hnext h
  refine ⟨?_, fun hb => ⟨(hserver hb).2, (hserver hb).2.takes⟩,
    fun hb => ⟨(hclient hb).2, (hclient hb).2.takes⟩⟩
  cases hb : b.impl.isBarServer with
  | true => exact (hserver hb).1
  | false => exact (hclient hb).1

/-- Ad 1 with two download paths, in the table of a server. -/
def twoPaths : Ad := { sampleAd with download := [ascii "a", ascii "b"] }

def twoPathsServer : ThreadBiz where
  impl :=
    { barId := ascii "1", isBarServer := true, hasPlayer := false
      mapAd := PMap.empty.insertNew 1 twoPaths }

/-- The first path fails, the second one answers. -/
theorem downloadAd_verified_second :
    ∃ t, run (step sampleEnvironment)
        (twoPathsServer.downloadAd 1 { idSet := [1], todo := [], root := .policy })
        [.fetchEnded .exception false, .tick 1, .fetchEnded (.response 200 sampleFile) false] = some t ∧
      ServerCall sampleEnvironment twoPathsServer 1 twoPaths { idSet := [1], todo := [], root := .policy }
        [(.exception, false), (.response 200 sampleFile, false)] t := by
  have hview : (run (step sampleEnvironment)
      (twoPathsServer.downloadAd 1 { idSet := [1], todo := [], root := .policy })
      [.fetchEnded .exception false, .tick 1, .fetchEnded (.response 200 sampleFile) false]).isSome =
        true := by
    decide +kernel
  obtain ⟨t, ht⟩ := Option.isSome_iff_exists.mp hview
  have hwanted : twoPathsServer.impl.Wanted 1 twoPaths := ⟨by decide, by decide, by decide⟩
  exact ⟨t, ht, ((downloadAd_verified sampleEnvironment hwanted _ (by decide) ht).2.1 rfl).1⟩

end AdManager.Business
