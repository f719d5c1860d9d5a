/-
# AdManager.Business.SharedFiles — the files of a bar.

A client caches only what its server has sent it for the id that it asked for, and the server sends only
what it has fetched for that id and found to have the digest of its ad. The ad of an id never changes in the
server's table; so whatever was passed on for one id, to whichever client and however long ago, has one
digest, and is one file unless `transform` has a collision.
-/
import AdManager.Business.Freshness
import AdManager.Business.Integrity

namespace AdManager.Business

open AdManager.Wire AdManager.Lib AdManager.Server AdManager.Session AdManager.Md5

variable {ι : Type*} [DecidableEq ι] {x : Setup ι} {s s' : Distribution ι}

/-! ## One ad for each id -/

theorem AdManagerImpl.Grows.refl (s : AdManagerImpl) : s.Grows s := ⟨rfl, rfl, .refl _⟩

/-- The table grows along every run. -/
theorem grows_run {y : Environment} {b b' : ThreadBiz} {es : List BizEvent} (hstage : b.AtStage)
    (h : run (step y) b es = some b') : b.impl.Grows b'.impl := by
  have hboth : b'.AtStage ∧ b.impl.Grows b'.impl := by
    refine inv_run (I := fun b' => b'.AtStage ∧ b.impl.Grows b'.impl) ⟨hstage, .refl _⟩ ?_ h
    intro t e t' ⟨hat, hgrows⟩ hs
    exact ⟨hat.step hs, hgrows.trans (hat.files_step hs).1⟩
  exact hboth.2

/-- What was cached for an id in a run has the digest of the ad that the table has for it in the end. -/
theorem FetchedIn.verified {y : Environment} {b₀ b : ThreadBiz} {es : List BizEvent} {id : UInt32}
    {body : Bytes} (hstage : b₀.AtStage) (h : run (step y) b₀ es = some b)
    (hfetched : FetchedIn y b₀ es id body) :
    ∃ ad, b.impl.mapAd id = some ad ∧ ad.download ≠ [] ∧ y.verified ad body = true := by
  obtain ⟨pre, e, post, t, rfl, ht, hcaches⟩ := hfetched
  obtain ⟨u, hu, hrest⟩ := run_append_eq_some.mp h
  obtain rfl : t = u := Option.some.inj (ht.symm.trans hu)
  obtain ⟨ad, htable, hpaths, hverified⟩ := hcaches.ad
  have hat : t.AtStage := inv_run (I := ThreadBiz.AtStage) hstage (fun _ _ _ hI hs => hI.step hs) ht
  exact ⟨ad, (grows_run hat hrest).mapAd _ _ htable, hpaths, hverified⟩

/-- The file `body` of `id` was fetched over HTTP in the history `es` from `b`: one of the urls of its ad in
the table answered with code 200 and a file of the ad's digest. -/
def FetchedOverHttp (y : Environment) (b : ThreadBiz) (es : List BizEvent) (id : UInt32) (body : Bytes) :
    Prop :=
  ∃ pre rehash post t ad urls p, es = pre ++ .fetchEnded (.response 200 body) rehash :: post ∧
    run (step y) b pre = some t ∧ t.stage = .fetch id ad urls p ∧ t.impl.mapAd id = some ad ∧
    y.verified ad body = true

/-- A server caches no other files. -/
theorem FetchedIn.overHttp {y : Environment} {b₀ : ThreadBiz} {es : List BizEvent} {id : UInt32}
    {body : Bytes} (hstage : b₀.AtStage) (hserver : b₀.impl.isBarServer = true)
    (h : FetchedIn y b₀ es id body) : FetchedOverHttp y b₀ es id body := by
  obtain ⟨pre, e, post, t, rfl, ht, hcaches⟩ := h
  cases hcaches with
  | image ad urls p rehash hfetch htable hpaths hverified =>
      exact ⟨pre, rehash, post, t, ad, urls, p, rfl, ht, hfetch, htable, hverified⟩
  | file ad p rsp rehash hfile htable hpaths hcode hcontent hverified =>
      have hat : t.AtStage := inv_run (I := ThreadBiz.AtStage) hstage (fun _ _ _ hI hs => hI.step hs) ht
      have hkeeps := (grows_run hstage ht).isBarServer
      unfold ThreadBiz.AtStage at hat
      rw [hfile] at hat
      exact absurd (hat.1.symm.trans (hkeeps.trans hserver)) (by decide)

/-- **All files that were ever cached for one id are one file**, or `transform` has a collision. -/
theorem fetched_agree {y : Environment} {b₀ b : ThreadBiz} {es : List BizEvent} {id : UInt32}
    {body body' : Bytes} (hstage : b₀.AtStage) (h : run (step y.withMD5) b₀ es = some b)
    (hbody : FetchedIn y.withMD5 b₀ es id body) (hbody' : FetchedIn y.withMD5 b₀ es id body')
    (hlen : body.length ≤ 2 ^ 32 - 64) (hlen' : body'.length ≤ 2 ^ 32 - 64) :
    body = body' ∨ DigestsCollide body body' := by
  obtain ⟨ad, htable, _, hverified⟩ := hbody.verified hstage h
  obtain ⟨ad', htable', _, hverified'⟩ := hbody'.verified hstage h
  obtain rfl := Option.some.inj (htable.symm.trans htable')
  exact eq_or_collide_of_verified hlen hlen' hverified hverified' rfl

/-! ## The files on their way -/

/-- **What a bar keeps of its files**: what is on its way to a client that waits for a file, and what a
client has cached, was fetched by the server for that id. -/
structure Shared (x : Setup ι) (s : Distribution ι) : Prop where
  client : ∀ i, (s.clients i).biz.impl.isBarServer = false
  downloaded : ∀ i, Downloaded (x.client i) (s.clients i).biz
  coming : ∀ i id ad p rsp, (s.clients i).biz.stage = .file id ad p → s.answers i = some rsp →
    rsp.returnCode = 0 → FetchedIn x.server x.server₀ s.server.history id rsp.content
  files : ∀ i, ∀ n ∈ (s.clients i).biz.impl.cache.bufImages,
    FetchedIn x.server x.server₀ s.server.history n.id n.data

omit [DecidableEq ι] in
theorem Shared.init (x : Setup ι) : Shared x x.init where
  client _ := rfl
  downloaded i := Downloaded.init (x.client i) (x.clientBarId i) false (x.clientHasPlayer i)
  coming i id ad p rsp hstage := by exact absurd hstage (by simp [Setup.init, Setup.client₀, ThreadBiz.init])
  files i n hn := by
    exact absurd hn (by simp [Setup.init, Setup.client₀, ThreadBiz.init, Cache.initResponseBuf])

omit [DecidableEq ι] in
/-- The answer to a client that waits for a file is a file that was fetched for its id, or an error. -/
theorem file_answer (h : Joined x s) {i : ι} {msgID : Int64} {req rsp : Message} {id : UInt32} {ad : Ad}
    {p : Pass} (hstage : (s.clients i).biz.stage = .file id ad p)
    (hreq : (s.clients i).request? = some req)
    (hrsp : answerOf x.skipField s.server.biz.impl.cache { req with id := msgID } = some rsp)
    (hcode : rsp.returnCode = 0) :
    FetchedIn x.server x.server₀ s.server.history id rsp.content := by
  have hasked := h.asked i
  unfold ThreadBiz.HasAsked at hasked
  rw [hstage] at hasked
  obtain rfl := request?_eq hreq hasked
  have hwf : Message.WellFormed { (Ask.getAdFile id).message with id := msgID } :=
    ⟨(Ask.getAdFile id).wellFormed.method, (Ask.getAdFile id).wellFormed.returnMsg⟩
  have hanswers := (relayed_run h.server).answers x.skipField {} 0 hwf
  cases hcached : s.server.biz.impl.cache.contains id with
  | true =>
      obtain ⟨body, hfetched, hanswer⟩ := hanswers.file id rfl (readId_leBytes id) hcached
      rw [answerOf_eq hanswer hrsp]
      exact hfetched
  | false =>
      rw [answerOf_eq (hanswers.noFile id rfl (readId_leBytes id) hcached) hrsp] at hcode
      exact absurd (show errorDataNotExist = 0 from hcode) (by decide)

theorem Shared.step {e : DistEvent ι} (h : Shared x s) (hjoined : Joined x s)
    (hs : x.step s e = some s') : Shared x s' := by
  cases distStep hs with
  | server e q hq hs' =>
      obtain ⟨_, hhistory⟩ := Party.step_spec hq
      subst hs'
      refine ⟨h.client, h.downloaded, ?_, ?_⟩
      · intro i id ad p rsp hstage hrsp hcode
        rw [hhistory]
        exact (h.coming i id ad p rsp hstage hrsp hcode).append x.server [e]
      · intro i n hn
        rw [hhistory]
        exact (h.files i n hn).append x.server [e]
  | handle i msgID req rsp hfree hreq hrsp hs' =>
      subst hs'
      refine ⟨h.client, h.downloaded, ?_, h.files⟩
      intro j id ad p rsp' hstage hrsp' hcode
      by_cases hj : j = i
      · subst hj
        simp only [Function.update_self, Option.some.injEq] at hrsp'
        subst hrsp'
        exact file_answer hjoined hstage hreq hrsp hcode
      · simp only [Function.update_of_ne hj] at hrsp'
        exact h.coming j id ad p rsp' hstage hrsp' hcode
  | client i e q hq hanswer hs' =>
      obtain ⟨hb, _⟩ := Party.step_spec hq
      subst hs'
      obtain ⟨hgrows, hfiles⟩ := (h.downloaded i).stage.files_step hb
      refine ⟨?_, ?_, ?_, ?_⟩
      · intro j
        by_cases hj : j = i
        · subst hj
          simp only [Function.update_self]
          exact hgrows.isBarServer.trans (h.client j)
        · simp only [Function.update_of_ne hj]
          exact h.client j
      · intro j
        by_cases hj : j = i
        · subst hj
          simp only [Function.update_self]
          exact (h.downloaded j).step hb
        · simp only [Function.update_of_ne hj]
          exact h.downloaded j
      · intro j id ad p rsp hstage hrsp hcode
        by_cases hj : j = i
        · subst hj
          simp only [Function.update_self] at hstage
          by_cases he : e.answer?.isSome
          · simp [he] at hrsp
          · simp only [he, Bool.false_eq_true, if_false] at hrsp
            have hwaits := hjoined.waiting j (by rw [hrsp]; rfl)
            rw [(wait_step hb).1 (by simpa using he) hwaits] at hstage
            exact h.coming j id ad p rsp hstage hrsp hcode
        · simp only [Function.update_of_ne hj] at hstage
          refine h.coming j id ad p rsp hstage ?_ hcode
          by_cases he : e.answer?.isSome
          · simpa [he, Function.update_of_ne hj] using hrsp
          · simpa [he] using hrsp
      · intro j n hn
        by_cases hj : j = i
        · subst hj
          simp only [Function.update_self] at hn
          rcases hfiles n hn with hn | ⟨body, hbytes, hcaches⟩
          · exact h.files j n hn
          · -- a new file came with the answer that was on its way
            rw [AdManagerImpl.stored, if_neg (by simp [h.client j])] at hbytes
            have hat := (h.downloaded j).stage
            rw [hbytes]
            cases hcaches with
            | image ad urls p rehash hstage htable hpaths hverified =>
                unfold ThreadBiz.AtStage at hat
                rw [hstage] at hat
                exact absurd (hat.1.symm.trans (h.client j)) (by decide)
            | file ad p rsp rehash hstage htable hpaths hcode hcontent hverified =>
                have hon := (hanswer rsp rfl).resolve_right (not_not_intro hcode)
                rw [← hcontent]
                exact h.coming j n.id ad p rsp hstage hon hcode
        · simp only [Function.update_of_ne hj] at hn
          exact h.files j n hn

theorem shared_run {es : List (DistEvent ι)} (h : run x.step x.init es = some s) : Shared x s := by
  have hboth : Joined x s ∧ Shared x s := by
    refine inv_run (I := fun s => Joined x s ∧ Shared x s) ⟨Joined.init x, Shared.init x⟩ ?_ h
    intro t e t' ⟨hjoined, hshared⟩ hs
    exact ⟨hjoined.step hs, hshared.step hjoined hs⟩
  exact hboth.2

/-! ## Results -/

/-- The server fetches the file over HTTP, and client `i` gets it from the server. -/
def fetchAndShare (i : Bool) : List (DistEvent Bool) :=
  [.client i .connected, .handle i 1, .deliver i false, .handle i 2, .deliver i false, .client i .next,
    .handle i 3, .deliver i false]

/-- Both clients get the file that the server has fetched. -/
def shareFile : List (DistEvent Bool) :=
  [.server .connected, .server (.policyAnswer { content := samplePolicy }),
    .server (.adListAnswer { content := sampleAdList }), .server .next,
    .server (.fetchEnded (.response 200 sampleFile) false)] ++ fetchAndShare false ++ fetchAndShare true

theorem shareFile_cached : ∃ s, run sampleSetup.step sampleSetup.init shareFile = some s ∧
    (s.clients false).biz.impl.cache.bufImages = [{ node := 0, id := 1, data := sampleFile }] ∧
    (s.clients true).biz.impl.cache.bufImages = [{ node := 0, id := 1, data := sampleFile }] := by
  have hview : (run sampleSetup.step sampleSetup.init shareFile).map (fun s =>
      [(s.clients false).biz.impl.cache.bufImages, (s.clients true).biz.impl.cache.bufImages]) =
      some [[{ node := 0, id := 1, data := sampleFile }], [{ node := 0, id := 1, data := sampleFile }]] := by
    decide +kernel
  obtain ⟨s, hs, hview⟩ := Option.map_eq_some_iff.mp hview
  simp only [List.cons.injEq, and_true] at hview
  exact ⟨s, hs, hview⟩

/-- **Every file of a client comes from its server**: in every run of a bar, a file that a client has cached
for an id was fetched by the server over HTTP for that id, and has both the digest of the client's ad and
that of the ad that the server has in its table. -/
theorem files_from_server (x : Setup ι) (es : List (DistEvent ι)) (h : run x.step x.init es = some s)
    (i : ι) : ∀ n ∈ (s.clients i).biz.impl.cache.bufImages,
      FetchedOverHttp x.server x.server₀ s.server.history n.id n.data ∧
      (∃ ad, (s.clients i).biz.impl.mapAd n.id = some ad ∧ (x.client i).verified ad n.data = true) ∧
      ∃ ad, s.server.biz.impl.mapAd n.id = some ad ∧ x.server.verified ad n.data = true := by
  have hshared := shared_run h
  intro n hn
  have hfetched := hshared.files i n hn
  obtain ⟨ad, body, htable, _, hbytes, hverified⟩ := (hshared.downloaded i).files n hn
  rw [AdManagerImpl.stored, if_neg (by simp [hshared.client i])] at hbytes
  have hat : x.server₀.AtStage := trivial
  obtain ⟨ad', htable', _, hverified'⟩ := hfetched.verified hat (joined_run h).server
  exact ⟨hfetched.overHttp hat rfl, ⟨ad, htable, by rw [hbytes]; exact hverified⟩, ad', htable', hverified'⟩

theorem files_from_server_shareFile :
    ∃ s, run sampleSetup.step sampleSetup.init shareFile = some s ∧
      (s.clients true).biz.impl.cache.bufImages = [{ node := 0, id := 1, data := sampleFile }] ∧
      FetchedOverHttp sampleSetup.server sampleSetup.server₀ s.server.history 1 sampleFile ∧
      (∃ ad, (s.clients true).biz.impl.mapAd 1 = some ad ∧
        (sampleSetup.client true).verified ad sampleFile = true) ∧
      ∃ ad, s.server.biz.impl.mapAd 1 = some ad ∧ sampleSetup.server.verified ad sampleFile = true := by
  obtain ⟨s, hs, -, htrue⟩ := shareFile_cached
  exact ⟨s, hs, htrue, files_from_server sampleSetup shareFile hs true
    { node := 0, id := 1, data := sampleFile } (by rw [htrue]; exact List.mem_singleton_self _)⟩

/-- **The clients agree on the files**: in every run of a bar, two clients that have cached a file for the
same id have the same file, or `transform` has a collision; whatever their own tables say, and whenever
they fetched it. -/
theorem clients_agree (x : Setup ι) {y : Environment} (hserver : x.server = y.withMD5)
    (es : List (DistEvent ι)) (h : run x.step x.init es = some s) (i j : ι)
    {n m : ImageNode} (hn : n ∈ (s.clients i).biz.impl.cache.bufImages)
    (hm : m ∈ (s.clients j).biz.impl.cache.bufImages) (hid : n.id = m.id)
    (hlen : n.data.length ≤ 2 ^ 32 - 64) (hlen' : m.data.length ≤ 2 ^ 32 - 64) :
    n.data = m.data ∨ DigestsCollide n.data m.data := by
  have hshared := shared_run h
  have hfetched := hshared.files i n hn
  have hfetched' := hshared.files j m hm
  rw [← hid] at hfetched'
  have hrun := (joined_run h).server
  rw [hserver] at hfetched hfetched' hrun
  have hat : x.server₀.AtStage := trivial
  exact fetched_agree hat hrun hfetched hfetched' hlen hlen'

theorem clients_agree_shareFile :
    sampleFile = sampleFile ∨ DigestsCollide sampleFile sampleFile := by
  obtain ⟨s, hs, hfalse, htrue⟩ := shareFile_cached
  exact clients_agree sampleSetup (y := sampleEnvironment) rfl shareFile hs false true
    (n := { node := 0, id := 1, data := sampleFile }) (m := { node := 0, id := 1, data := sampleFile })
    (by rw [hfalse]; exact List.mem_singleton_self _) (by rw [htrue]; exact List.mem_singleton_self _)
    rfl (by decide) (by decide)

end AdManager.Business
