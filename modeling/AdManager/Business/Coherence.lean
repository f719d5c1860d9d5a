/-
# AdManager.Business.Coherence — the data against the last answers of the other side.

Two questions about what a refresh leaves behind. After a download pass, is every cached file one that
the last ad list describes? The pass keeps a file when the policy names its id, whatever the list says
about it, so that depends on whether the list and the table agree. And does an exchange that fails leave
the data alone? `ParseFromString` writes to `_policy` itself, so that depends on what the parser leaves
there when it fails.
-/
import AdManager.Business.Downloads

namespace AdManager.Business

open AdManager.Wire AdManager.Lib AdManager.Server

/-! ## Cached files and the last ad list -/

namespace ThreadBiz

variable (x : Environment) (b : ThreadBiz)

/-- The ad that the last ad list has under a key. -/
def listedAd (k : UInt32) : Option Ad := b.listed.find? fun ad => ad.key == k

/-- **The cache is coherent with the last ad list**: every file has the digest that the list gives for
its id. -/
def Coherent : Prop :=
  ∀ n ∈ b.impl.cache.bufImages, ∃ ad body, b.listedAd n.id = some ad ∧
    n.data = b.impl.stored body ∧ x.verified ad body = true

/-- The event is the end of a download pass. -/
def endsPass : BizEvent → Bool
  | .next =>
      match b.stage with
      | .download p => p.todo.isEmpty
      | _ => false
  | _ => false

/-- **The condition**: at the end of a pass, for every file in the cache, the last ad list has an ad of
that id, with the digest, in either case, of the ad in the table. -/
def DigestsAgree (e : BizEvent) : Prop :=
  b.endsPass e = true → ∀ n ∈ b.impl.cache.bufImages, ∃ ad ∈ b.listedAd n.id,
    ∃ old ∈ b.impl.mapAd n.id, toUpperCopy ad.md5 = toUpperCopy old.md5

end ThreadBiz

/-- The end of a pass changes neither the data nor the record of the last list. -/
theorem endsPass_data {x : Environment} {b b' : ThreadBiz} {e : BizEvent} (he : b.endsPass e = true)
    (hs : step x b e = some b') : b'.HasData b.impl b.listed b.received := by
  cases e with
  | next =>
      cases bizStep hs with
      | next p _ => exact b.nextAd_data p
  | _ => exact absurd he (by simp [ThreadBiz.endsPass])

theorem verified_iff {x : Environment} {ad : Ad} {body : Bytes} :
    x.verified ad body = true ↔ toUpperCopy ad.md5 = toUpperCopy (x.md5 body) := by
  rw [Environment.verified, beq_iff_eq]

/-- A file that has the digest of its ad in the table has the digest of the listed ad exactly if the two
agree. -/
theorem coherent_iff_agree {x : Environment} {b : ThreadBiz} (h : FilesVerified x b.impl) :
    b.Coherent x ↔ ∀ n ∈ b.impl.cache.bufImages, ∃ ad ∈ b.listedAd n.id,
      ∃ old ∈ b.impl.mapAd n.id, toUpperCopy ad.md5 = toUpperCopy old.md5 := by
  refine forall₂_congr fun n hn => ?_
  obtain ⟨old, body, htable, _, hbytes, hverified⟩ := h n hn
  rw [verified_iff] at hverified
  constructor
  · rintro ⟨ad, body', hlisted, hbytes', hverified'⟩
    rw [verified_iff] at hverified'
    have hsame : body' = body := b.impl.stored_injective (hbytes'.symm.trans hbytes)
    exact ⟨ad, hlisted, old, htable, by rw [hverified', hverified, hsame]⟩
  · rintro ⟨ad, hlisted, old', htable', hagree⟩
    -- the digest of the file goes from the table's ad to the listed one
    obtain rfl : old = old' := Option.some.inj (htable.symm.trans htable')
    exact ⟨ad, body, hlisted, hbytes, by rw [verified_iff, hagree, hverified]⟩

/-- **When download passes leave a coherent cache.** Every pass of a run ends with a cache that is
coherent with the last ad list exactly if, at the end of every pass, the list and the table agree on
the digests of the cached files. -/
theorem passes_coherent_iff (x : Environment) (barId : Bytes) (isBarServer hasPlayer : Bool)
    (es : List BizEvent) {b : ThreadBiz}
    (h : run (step x) (ThreadBiz.init barId isBarServer hasPlayer) es = some b) :
    EveryStep (step x) (fun b e => b.endsPass e = true → ∀ b', step x b e = some b' → b'.Coherent x)
        (ThreadBiz.init barId isBarServer hasPlayer) es ↔
      EveryStep (step x) ThreadBiz.DigestsAgree (ThreadBiz.init barId isBarServer hasPlayer) es := by
  refine everyStep_congr (I := Downloaded x) (Downloaded.init x barId isBarServer hasPlayer)
    (fun _ _ _ ht hs => ht.step hs) ?_ h
  intro t e t' ht hs
  refine imp_congr_right fun he => ?_
  have hdata := endsPass_data he hs
  -- the state after the pass has the data of the state before
  have hsame : t'.Coherent x ↔ t.Coherent x := by
    unfold ThreadBiz.Coherent ThreadBiz.listedAd
    rw [hdata.impl, hdata.listed]
  rw [← coherent_iff_agree ht.files, ← hsame]
  constructor
  · intro hall
    exact hall t' hs
  · intro hcoherent t'' hs''
    obtain rfl : t' = t'' := Option.some.inj (hs.symm.trans hs'')
    exact hcoherent

instance (b : ThreadBiz) (e : BizEvent) : Decidable (b.DigestsAgree e) :=
  inferInstanceAs (Decidable (_ → ∀ n ∈ b.impl.cache.bufImages, ∃ ad ∈ b.listedAd n.id,
    ∃ old ∈ b.impl.mapAd n.id, toUpperCopy ad.md5 = toUpperCopy old.md5))

/-- A refresh with the ad list `adList`, whose file is downloaded or kept. -/
def refreshWith (adList : Bytes) : List BizEvent :=
  [.policyAnswer { content := samplePolicy }, .adListAnswer { content := adList }, .next]

/-- The end of the first download, and the next handler of the policy timer. -/
def untilNextRefresh : List BizEvent :=
  [.fileAnswer { content := sampleFile } false, .next, .tick (hours 6), .fire .policy, .runHandler]

/-- The same ad twice: its file stays, and is the one described. -/
theorem passes_coherent_iff_sameAd :
    EveryStep (step sampleEnvironment)
      (fun b e => b.endsPass e = true → ∀ b', step sampleEnvironment b e = some b' →
        b'.Coherent sampleEnvironment)
      (ThreadBiz.init (ascii "1") false false)
      ([.connected] ++ refreshWith sampleAdList ++ untilNextRefresh ++ refreshWith sampleAdList ++
        [.next]) := by
  have hview : (run (step sampleEnvironment) (ThreadBiz.init (ascii "1") false false)
      ([.connected] ++ refreshWith sampleAdList ++ untilNextRefresh ++ refreshWith sampleAdList ++
        [.next])).isSome = true := by
    decide +kernel
  obtain ⟨b, hb⟩ := Option.isSome_iff_exists.mp hview
  exact (passes_coherent_iff sampleEnvironment (ascii "1") false false _ hb).mpr (by decide +kernel)

/-- **A file that the list no longer describes is kept.** Ad 1 gets another digest from one list to the next;
the file downloaded before, which has the old one, survives the pass. -/
theorem stale_file_kept :
    ∃ b b', run (step sampleEnvironment) (ThreadBiz.init (ascii "1") false false)
        ([.connected] ++ refreshWith sampleAdList ++ untilNextRefresh ++ refreshWith updatedAdList) =
        some b ∧
      b.endsPass .next = true ∧ step sampleEnvironment b .next = some b' ∧
      ¬ b'.Coherent sampleEnvironment := by
  have hview : ((run (step sampleEnvironment) (ThreadBiz.init (ascii "1") false false)
      ([.connected] ++ refreshWith sampleAdList ++ untilNextRefresh ++ refreshWith updatedAdList)).map
      fun b => (b.endsPass .next, (step sampleEnvironment b .next).map fun b' =>
        (b'.impl.cache.bufImages, b'.listed, b'.impl.isBarServer))) =
      some (true, some ([{ node := 0, id := 1, data := sampleFile }], [updatedAd], false)) := by
    decide +kernel
  obtain ⟨b, hb, hview⟩ := Option.map_eq_some_iff.mp hview
  obtain ⟨hend, hview⟩ := Prod.mk.inj hview
  obtain ⟨b', hb', hview⟩ := Option.map_eq_some_iff.mp hview
  obtain ⟨himages, hview⟩ := Prod.mk.inj hview
  obtain ⟨hlisted, hclient⟩ := Prod.mk.inj hview
  refine ⟨b, b', hb, hend, hb', ?_⟩
  intro hcoherent
  obtain ⟨ad, body, had, hbody, hverified⟩ :=
    hcoherent { node := 0, id := 1, data := sampleFile } (by rw [himages]; exact List.mem_singleton_self _)
  -- the listed ad has the digest of another file
  rw [ThreadBiz.listedAd, hlisted] at had
  obtain rfl := Option.some.inj had
  simp only [AdManagerImpl.stored, hclient, Bool.false_eq_true, if_false] at hbody
  subst hbody
  exact absurd hverified (by decide +kernel)

/-! ## Failed exchanges -/

/-- The event is the end of an exchange that fails: an error, a content that does not parse, or a file
that is not the one described. -/
def Fails (x : Environment) (b : ThreadBiz) : BizEvent → Prop
  | .policyAnswer rsp => ¬ (rsp.returnCode = 0 ∧ (x.parsePolicy rsp.content).2 = true)
  | .adListAnswer rsp => x.receivedAds rsp = none
  | .fetchEnded .exception _ => True
  | .fetchEnded (.response status body) _ => ∀ id ad urls p, b.stage = .fetch id ad urls p →
      ¬ (status = 200 ∧ x.verified ad body = true)
  | .fileAnswer rsp _ => ∀ id ad p, b.stage = .file id ad p →
      ¬ (rsp.returnCode = 0 ∧ x.verified ad rsp.content = true)
  | _ => False

/-- **The condition**: when the content of a policy answer does not parse, what the parser leaves in
`_policy` is what was there. -/
def ParserRestores (x : Environment) (b : ThreadBiz) : BizEvent → Prop
  | .policyAnswer rsp => rsp.returnCode = 0 → (x.parsePolicy rsp.content).2 = false →
      (x.parsePolicy rsp.content).1 = b.impl.policy
  | _ => True

/-- The parse of the last policy accepted. -/
def lastPolicy (x : Environment) (es : List BizEvent) : AdPlayPolicy :=
  ((acceptedPolicies x es).getLast?.map fun content => (x.parsePolicy content).1).getD {}

/-- A policy needs the file of `k`: it names it, and the ad in the table has download paths. -/
def Needs (p : AdPlayPolicy) (m : PMap UInt32 Ad) (k : UInt32) : Prop :=
  ∃ id ∈ p.ids, id.toUInt32 = k ∧ ∃ ad, m k = some ad ∧ ad.download ≠ []

/-- **Failures leave the data intact** in the run of `es` from `b₀`: a failed exchange changes no data;
the policy is the parse of the last content accepted; and no event removes a file that this policy
needs. -/
structure DataIntact (x : Environment) (b₀ : ThreadBiz) (es : List BizEvent) : Prop where
  failing : EveryStep (step x)
    (fun b e => Fails x b e → ∀ b', step x b e = some b' → b'.impl = b.impl) b₀ es
  policy : ∀ pre post b, es = pre ++ post → run (step x) b₀ pre = some b →
    b.impl.policy = lastPolicy x pre
  files : ∀ pre e post b b', es = pre ++ e :: post → run (step x) b₀ pre = some b →
    step x b e = some b' → ∀ n ∈ b.impl.cache.bufImages,
      Needs (lastPolicy x pre) b.impl.mapAd n.id → n ∈ b'.impl.cache.bufImages

section Failures

variable {x : Environment} {b b' : ThreadBiz} {e : BizEvent}

/-- A failed exchange changes nothing, if the parser restores the policy. -/
theorem failed_impl (hfail : Fails x b e) (hC : ParserRestores x b e) (hs : step x b e = some b') :
    b'.impl = b.impl := by
  cases dataStep hs with
  | same hquiet hdata => exact hdata.impl
  | policy rsp he hdata =>
      subst he
      rw [hdata.impl]
      rcases b.impl.policyReceived_cases x rsp with ⟨_, heq⟩ | ⟨hcode, hparse, heq⟩ |
        ⟨hcode, hparse, _⟩
      · rw [heq]
      · -- `_policy` holds what the parser has left there
        rw [heq, hC hcode hparse]
      · exact absurd ⟨hcode, hparse⟩ hfail
  | list rsp ads he hads hdata =>
      subst he
      exact absurd (hads.symm.trans hfail) (by simp)
  | retry f he hf htimer hend hdata =>
      subst he
      exact hfail.elim
  | image id ad urls p body rehash he hstage hverified hdata =>
      subst he
      exact absurd ⟨rfl, hverified⟩ (hfail id ad urls p hstage)
  | file id ad p rsp rehash he hstage hdata =>
      subst he
      rw [hdata.impl]
      exact b.impl.fileReceived_refused (hfail id ad p hstage) id rehash
  | ad rsp ad he hrec hdata =>
      subst he
      exact hfail.elim
  | ended he hdata =>
      subst he
      exact hfail.elim

/-- If a failed exchange changes nothing, the parser has restored the policy. -/
theorem restores_of_failed (hs : step x b e = some b') (hkeep : Fails x b e → b'.impl = b.impl) :
    ParserRestores x b e := by
  cases e with
  | policyAnswer rsp =>
      intro hcode hparse
      have himpl : b'.impl = b.impl := hkeep fun hgood => absurd hgood.2 (by simp [hparse])
      cases bizStep hs with
      | policyAnswer _ _ =>
          rw [(b.policyAnswered_data x rsp).impl] at himpl
          rcases b.impl.policyReceived_cases x rsp with ⟨hne, _⟩ | ⟨_, _, heq⟩ | ⟨_, hparse', _⟩
          · exact absurd hcode hne
          · rw [heq] at himpl
            exact congrArg AdManagerImpl.policy himpl
          · exact absurd (hparse.symm.trans hparse') (by decide)
  | _ => trivial

theorem lastPolicy_concat (x : Environment) (es : List BizEvent) (e : BizEvent) :
    lastPolicy x (es ++ [e]) =
      ((policyContent x e).map fun content => (x.parsePolicy content).1).getD (lastPolicy x es) := by
  unfold lastPolicy
  rw [acceptedPolicies_concat]
  cases policyContent x e <;> rfl

/-- An accepted content replaces the policy, and nothing else touches it. -/
theorem policy_step (hC : ParserRestores x b e) (hs : step x b e = some b') : b'.impl.policy =
    ((policyContent x e).map fun content => (x.parsePolicy content).1).getD b.impl.policy := by
  have hpass : ∀ s : AdManagerImpl, s.pass.policy = s.policy := by
    intro s
    unfold AdManagerImpl.pass
    split <;> rfl
  cases dataStep hs with
  | same hquiet hdata =>
      rw [hdata.impl]
      cases e with
      | policyAnswer rsp => exact hquiet.elim
      | _ => rfl
  | policy rsp he hdata =>
      subst he
      rw [hdata.impl]
      rcases b.impl.policyReceived_cases x rsp with ⟨hcode, heq⟩ | ⟨hcode, hparse, heq⟩ |
        ⟨hcode, hparse, heq⟩
      · rw [heq, policyContent, if_neg (by simp [hcode])]
        rfl
      · rw [heq, policyContent, if_neg (by simp [hparse])]
        exact hC hcode hparse
      · rw [heq, policyContent, if_pos ⟨hcode, hparse⟩]
        rfl
  | list rsp ads he hads hdata =>
      subst he
      rw [hdata.impl, hpass, AdManagerImpl.adListReceived_eq]
      rfl
  | retry f he hf htimer hend hdata => subst he; rw [hdata.impl]; rfl
  | image id ad urls p body rehash he hstage hverified hdata => subst he; rw [hdata.impl]; rfl
  | file id ad p rsp rehash he hstage hdata =>
      subst he
      rw [hdata.impl]
      by_cases hgood : rsp.returnCode = 0 ∧ x.verified ad rsp.content = true
      · rw [b.impl.fileReceived_verified hgood]
        rfl
      · rw [b.impl.fileReceived_refused hgood]
        rfl
  | ad rsp ad he hrec hdata => subst he; rw [hdata.impl]; rfl
  | ended he hdata => subst he; rw [hdata.impl]; rfl

/-- The start of a pass keeps the files that the policy needs. -/
theorem beginPass_keeps {s : AdManagerImpl} {n : ImageNode} (hn : n ∈ s.cache.bufImages)
    (hneeds : Needs s.policy s.mapAd n.id) : n ∈ s.beginPass.1.cache.bufImages := by
  obtain ⟨id, hid, hkey, ad, htable, hpaths⟩ := hneeds
  -- an id that the pass collects is not evicted
  have hneeded : id ∈ s.beginPass.2 :=
    (s.mem_beginPass id).mpr ⟨hid, ad, hkey ▸ htable, hpaths⟩
  rw [AdManagerImpl.beginPass_eq]
  refine List.mem_filter.mpr ⟨hn, ?_⟩
  rw [decide_eq_true_eq, ← hkey]
  exact List.mem_map_of_mem hneeded

theorem pass_keeps {s : AdManagerImpl} {n : ImageNode} (hn : n ∈ s.cache.bufImages)
    (hneeds : Needs s.policy s.mapAd n.id) : n ∈ s.pass.cache.bufImages := by
  unfold AdManagerImpl.pass
  split
  · exact hn
  · exact beginPass_keeps hn hneeds

/-- No event removes a file that the policy needs. -/
theorem needed_file_kept (hs : step x b e = some b') {n : ImageNode} (hn : n ∈ b.impl.cache.bufImages)
    (hneeds : Needs b.impl.policy b.impl.mapAd n.id) : n ∈ b'.impl.cache.bufImages := by
  cases dataStep hs with
  | same hquiet hdata => rw [hdata.impl]; exact hn
  | policy rsp he hdata =>
      rw [hdata.impl]
      rcases b.impl.policyReceived_cases x rsp with ⟨_, heq⟩ | ⟨_, _, heq⟩ | ⟨_, _, heq⟩ <;> rw [heq] <;>
        exact hn
  | list rsp ads he hads hdata =>
      rw [hdata.impl]
      apply pass_keeps
      · rw [AdManagerImpl.adListReceived_eq]
        exact hn
      · -- the table has grown, so the ad is still there
        obtain ⟨id, hid, hkey, ad, htable, hpaths⟩ := hneeds
        have hgrown := (b.impl.adListReceived_grows ads rsp.content).mapAd _ _ htable
        refine ⟨id, ?_, hkey, ad, hgrown, hpaths⟩
        rw [AdManagerImpl.adListReceived_eq]
        exact hid
  | retry f he hf htimer hend hdata => rw [hdata.impl]; exact beginPass_keeps hn hneeds
  | image id ad urls p body rehash he hstage hverified hdata =>
      rw [hdata.impl]
      exact Cache.mem_insert_of_mem hn id (fileAnswer body).serialize rehash
  | file id ad p rsp rehash he hstage hdata =>
      rw [hdata.impl]
      by_cases hgood : rsp.returnCode = 0 ∧ x.verified ad rsp.content = true
      · rw [b.impl.fileReceived_verified hgood]
        exact Cache.mem_insert_of_mem hn id rsp.content rehash
      · rw [b.impl.fileReceived_refused hgood]
        exact hn
  | ad rsp ad he hrec hdata => rw [hdata.impl]; exact hn
  | ended he hdata => rw [hdata.impl]; exact hn

/-- As long as the parser restores it, the policy is the parse of the last content accepted. -/
theorem policy_run {barId : Bytes} {isBarServer hasPlayer : Bool} {es : List BizEvent}
    (h : run (step x) (ThreadBiz.init barId isBarServer hasPlayer) es = some b)
    (hC : EveryStep (step x) (ParserRestores x) (ThreadBiz.init barId isBarServer hasPlayer) es) :
    b.impl.policy = lastPolicy x es := by
  refine run_induction (P := fun es b => EveryStep (step x) (ParserRestores x)
    (ThreadBiz.init barId isBarServer hasPlayer) es → b.impl.policy = lastPolicy x es)
    (fun _ => rfl) ?_ h hC
  intro es e t t' ht ih hs hC'
  rw [policy_step (hC'.last ht) hs, ih hC'.left, lastPolicy_concat]

end Failures

/-- **Exactly when failures leave the data intact.** In every run: failed exchanges change no data, the
policy is the parse of the last content accepted and no event removes a file that it needs, if and only
if, whenever a policy answer with code 0 does not parse, the parser leaves the policy that was there. -/
theorem data_intact_iff (x : Environment) (barId : Bytes) (isBarServer hasPlayer : Bool)
    (es : List BizEvent) {b : ThreadBiz}
    (h : run (step x) (ThreadBiz.init barId isBarServer hasPlayer) es = some b) :
    DataIntact x (ThreadBiz.init barId isBarServer hasPlayer) es ↔
      EveryStep (step x) (ParserRestores x) (ThreadBiz.init barId isBarServer hasPlayer) es := by
  have hpoint : EveryStep (step x)
      (fun b e => Fails x b e → ∀ b', step x b e = some b' → b'.impl = b.impl)
        (ThreadBiz.init barId isBarServer hasPlayer) es ↔
      EveryStep (step x) (ParserRestores x) (ThreadBiz.init barId isBarServer hasPlayer) es := by
    refine everyStep_congr (I := fun _ => True) trivial (fun _ _ _ _ _ => trivial) ?_ h
    intro t e t' _ hs
    constructor
    · intro hkeep
      exact restores_of_failed hs fun hfail => hkeep hfail t' hs
    · intro hC hfail t'' hs''
      exact failed_impl hfail hC hs''
  constructor
  · intro hintact
    exact hpoint.mp hintact.failing
  · intro hC
    refine ⟨hpoint.mpr hC, ?_, ?_⟩
    · intro pre post t hes ht
      exact policy_run ht (EveryStep.left (hes ▸ hC))
    · intro pre e post t t' hes ht hs n hn hneeds
      rw [← policy_run ht (EveryStep.left (hes ▸ hC))] at hneeds
      exact needed_file_kept hs hn hneeds

instance (x : Environment) (b : ThreadBiz) : (e : BizEvent) → Decidable (ParserRestores x b e)
  | .policyAnswer rsp => inferInstanceAs (Decidable (rsp.returnCode = 0 → _ → _))
  | .tick _ => .isTrue trivial
  | .fire _ => .isTrue trivial
  | .runHandler => .isTrue trivial
  | .connected => .isTrue trivial
  | .adListAnswer _ => .isTrue trivial
  | .next => .isTrue trivial
  | .fetchEnded _ _ => .isTrue trivial
  | .fileAnswer _ _ => .isTrue trivial
  | .requestAd _ => .isTrue trivial
  | .adAnswer _ => .isTrue trivial
  | .endBusiness => .isTrue trivial

/-- A refresh with its download, and two more that end with a network error: that of the policy request, and
after the retry that of the request for the ad list. -/
def refreshThenNetError : List BizEvent :=
  [.connected] ++ refreshWith sampleAdList ++ untilNextRefresh ++
  [.policyAnswer { returnCode := -1 }, .tick (minutes 5), .fire .policy, .runHandler,
    .policyAnswer { content := samplePolicy }, .adListAnswer { returnCode := -1 }]

/-- The data of the first refresh are all there. -/
theorem data_intact_iff_netError :
    DataIntact sampleEnvironment (ThreadBiz.init (ascii "1") false false) refreshThenNetError ∧
      ∃ b, run (step sampleEnvironment) (ThreadBiz.init (ascii "1") false false) refreshThenNetError =
          some b ∧
        b.impl.policy.ids = [1] ∧ b.impl.mapAd 1 = some sampleAd ∧
        b.impl.cache.bufImages = [{ node := 0, id := 1, data := sampleFile }] := by
  have hview : (run (step sampleEnvironment) (ThreadBiz.init (ascii "1") false false)
      refreshThenNetError).map (fun b => (b.impl.policy.ids, b.impl.mapAd 1, b.impl.cache.bufImages)) =
      some ([1], some sampleAd, [{ node := 0, id := 1, data := sampleFile }]) := by
    decide +kernel
  obtain ⟨b, hb, hview⟩ := Option.map_eq_some_iff.mp hview
  simp only [Prod.mk.injEq] at hview
  exact ⟨(data_intact_iff sampleEnvironment (ascii "1") false false _ hb).mpr (by decide +kernel), b, hb,
    hview⟩

/-- **A content that does not parse clears the policy.** -/
theorem policy_lost :
    ∃ b b', run (step sampleEnvironment) (ThreadBiz.init (ascii "1") false false)
        ([.connected] ++ refreshWith sampleAdList ++ untilNextRefresh) = some b ∧
      Fails sampleEnvironment b (.policyAnswer { content := [0] }) ∧
      step sampleEnvironment b (.policyAnswer { content := [0] }) = some b' ∧
      b.impl.policy = { adPlays := [{ location := 2, adIds := [1] }] } ∧ b'.impl.policy = {} := by
  have hview : ((run (step sampleEnvironment) (ThreadBiz.init (ascii "1") false false)
      ([.connected] ++ refreshWith sampleAdList ++ untilNextRefresh)).map
      fun b => (b.impl.policy, (step sampleEnvironment b (.policyAnswer { content := [0] })).map
        fun b' => b'.impl.policy)) =
      some ({ adPlays := [{ location := 2, adIds := [1] }] }, some {}) := by
    decide +kernel
  obtain ⟨b, hb, hview⟩ := Option.map_eq_some_iff.mp hview
  obtain ⟨hbefore, hview⟩ := Prod.mk.inj hview
  obtain ⟨b', hb', hafter⟩ := Option.map_eq_some_iff.mp hview
  exact ⟨b, b', hb, fun hgood => absurd hgood.2 (by decide), hb', hbefore, hafter⟩

end AdManager.Business
