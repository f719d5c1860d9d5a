/-
# AdManager.Business.Agreement — what the clients of a bar hold, against each other and against the center.

Three things travel from the center over the server to the clients. A policy and an ad list arrive as the
messages that the center has serialized, because the server passes their bytes on and all parties parse
alike. A file arrives as the server has fetched it; and since the ad of an id never changes in the server's
table, all files that were ever passed on for one id have one digest.
-/
import AdManager.Business.CodecRefine
import AdManager.Business.Freshness
import AdManager.Business.Integrity

namespace AdManager.Business

open AdManager.Wire AdManager.Lib AdManager.Server AdManager.Session AdManager.Md5

variable {ι : Type*} [DecidableEq ι] {x : Setup ι} {s s' : Distribution ι}

/-! ## Policies -/

omit [DecidableEq ι] in
/-- A successful answer that is on its way to a client carries a content that the server has accepted. -/
theorem Publishes.delivered {T : Topic} {p : Publication ι Bytes} (h : Publishes T x s p) {i : ι}
    {rsp : Message} (hwaits : T.waits (s.clients i).biz.stage = true) (hrsp : s.answers i = some rsp)
    (hcode : rsp.returnCode = 0) : rsp.content ∈ T.accepted x.server s.server.history := by
  obtain ⟨v, hv, hvalue⟩ := (h.reader i).answered rsp hwaits hrsp
  have hcode' : (T.answerFor (p.valueAt v)).returnCode = 0 :=
    (congrArg Message.returnCode hvalue).symm.trans hcode
  have hcontent : rsp.content = (T.answerFor (p.valueAt v)).content :=
    (congrArg Message.content hvalue).trans rfl
  obtain ⟨_, hget⟩ := Publication.valueAt_eq_some ((h.inOrder i).answered v hv).1
    (Topic.answerFor_eq hcode')
  rw [← h.published, hcontent]
  exact List.mem_of_getElem? hget

theorem parses_of_accepted {y : Environment} {es : List BizEvent} {c : Bytes}
    (h : c ∈ acceptedPolicies y es) : (y.parsePolicy c).2 = true := by
  obtain ⟨e, _, he⟩ := List.mem_filterMap.mp h
  cases e with
  | policyAnswer rsp =>
      simp only [policyContent] at he
      split at he
      · next hgood =>
          obtain rfl := Option.some.inj he
          exact hgood.2
      · exact absurd he (by simp)
  | _ => exact absurd he (by simp [policyContent])

/-- A client that parses as its server does is never given a policy that it cannot parse. -/
theorem client_restores {es : List (DistEvent ι)} (h : run x.step x.init es = some s)
    (hparse : ∀ i, (x.client i).parsePolicy = x.server.parsePolicy) :
    ∀ i, EveryStep (step (x.client i)) (ParserRestores (x.client i)) (x.client₀ i)
      (s.clients i).history := by
  refine run_induction (P := fun _ s => ∀ i, EveryStep (step (x.client i))
    (ParserRestores (x.client i)) (x.client₀ i) (s.clients i).history) ?_ ?_ h
  · intro i
    exact everyStep_nil
  · intro es e t t' ht ih hs i
    have hjoined := joined_run ht
    obtain ⟨_, p, _, hpub⟩ := publishes_run (Publishes.init .policy x) (Joined.init x) ht
    cases distStep hs with
    | server e p hp hs' => subst hs'; exact ih i
    | handle j msgID req rsp hfree hreq hrsp hs' => subst hs'; exact ih i
    | client j e q hq hanswer hs' =>
        obtain ⟨hb, hhistory⟩ := Party.step_spec hq
        subst hs'
        by_cases hi : i = j
        · subst hi
          simp only [Function.update_self, hhistory]
          refine (ih i).concat (hjoined.clients i) ?_
          generalize q.biz = b' at hb
          cases bizStep hb with
          | policyAnswer rsp hstage =>
              intro hcode hfails
              have hon := (hanswer rsp rfl).resolve_right (not_not_intro hcode)
              have hmem := hpub.delivered (by rw [hstage]; rfl) hon hcode
              have hgood := parses_of_accepted (y := x.server) (c := rsp.content) hmem
              rw [hparse i, hgood] at hfails
              exact absurd hfails (by decide)
          | _ => trivial
        · simp only [Function.update_of_ne hi]
          exact ih i

/-- **A client's policy is the last one that it has accepted**, in every run of a bar whose clients parse as
their server does. -/
theorem client_policy (x : Setup ι) (hparse : ∀ i, (x.client i).parsePolicy = x.server.parsePolicy)
    (es : List (DistEvent ι)) (h : run x.step x.init es = some s) (i : ι) :
    (s.clients i).biz.impl.policy = lastPolicy (x.client i) (s.clients i).history :=
  policy_run ((joined_run h).clients i) (client_restores h hparse i)

theorem client_policy_twoClients :
    ∃ s, run sampleSetup.step sampleSetup.init (bothAsk ++ replacedBetween ++ secondRound) = some s ∧
      (s.clients true).biz.impl.policy = lastPolicy sampleEnvironment (s.clients true).history := by
  obtain ⟨s, s', hs, hs', -⟩ := twoRounds_accepted
  have hrun : run sampleSetup.step sampleSetup.init (bothAsk ++ replacedBetween ++ secondRound) = some s' :=
    run_append_eq_some.mpr ⟨s, hs, hs'⟩
  exact ⟨s', hrun, client_policy sampleSetup (fun _ => rfl) _ hrun true⟩

/-- The server is given a policy, and then a content that does not parse. -/
def badPolicy : List (DistEvent Bool) :=
  [.server .connected, .server (.policyAnswer { content := samplePolicy }),
    .server (.adListAnswer { returnCode := 1 })] ++ serverReplaces [0]

/-- **The server itself can lose its policy**: it has accepted only the first content, and has the default. -/
theorem server_policy_lost :
    ∃ s, run sampleSetup.step sampleSetup.init badPolicy = some s ∧ s.server.biz.impl.policy = {} ∧
      lastPolicy sampleEnvironment s.server.history = { adPlays := [{ location := 2, adIds := [1] }] } := by
  have hview : (run sampleSetup.step sampleSetup.init badPolicy).map (fun s =>
      (s.server.biz.impl.policy, lastPolicy sampleEnvironment s.server.history)) =
      some ({}, { adPlays := [{ location := 2, adIds := [1] }] }) := by
    decide +kernel
  obtain ⟨s, hs, hview⟩ := Option.map_eq_some_iff.mp hview
  simp only [Prod.mk.injEq] at hview
  exact ⟨s, hs, hview⟩

/-! ## Ad lists -/

/-- The ads of the last list accepted in a history. -/
def lastAds (x : Environment) (es : List BizEvent) : List Ad :=
  ((acceptedAdLists x es).getLast?.bind fun content =>
    (x.parseResult content).map (·.map x.utf8ToGB2312)).getD []

theorem listed_run {x : Environment} {b₀ b : ThreadBiz} {es : List BizEvent} (h0 : b₀.listed = [])
    (h : run (step x) b₀ es = some b) : b.listed = lastAds x es := by
  refine run_induction (P := fun es b => b.listed = lastAds x es) h0 ?_ h
  intro es e t t' _ ih hs
  rw [lastAds, acceptedAdLists_concat]
  have hother : adListContent x e = none → t'.listed = t.listed → t'.listed =
      (((adListContent x e).or (acceptedAdLists x es).getLast?).bind fun content =>
        (x.parseResult content).map (·.map x.utf8ToGB2312)).getD [] := by
    intro hnone hlisted
    rw [hnone, hlisted, ih]
    rfl
  cases dataStep hs with
  | same hquiet hdata =>
      refine hother ?_ hdata.listed
      cases e with
      | adListAnswer rsp => exact adListContent_of_none hquiet
      | _ => rfl
  | list rsp ads he hads hdata =>
      subst he
      rw [adListContent_of_some hads, hdata.listed]
      simp only [Environment.receivedAds] at hads
      split at hads
      · simp [hads]
      · exact absurd hads (by simp)
  | policy rsp he hdata => subst he; exact hother rfl hdata.listed
  | retry f he hf htimer hend hdata => subst he; exact hother rfl hdata.listed
  | image id ad urls p body rehash he hstage hverified hdata => subst he; exact hother rfl hdata.listed
  | file id ad p rsp rehash he hstage hdata => subst he; exact hother rfl hdata.listed
  | ad rsp ad he hrec hdata => subst he; exact hother rfl hdata.listed
  | ended he hdata => subst he; exact hother rfl hdata.listed

/-! ## Catching up -/

/-- A reading of a single value. -/
theorem readsInOrder_single {α : Type*} {a : α} {xs : List α} (h : ReadsInOrder [a] xs) :
    ∀ b ∈ xs, b = a := by
  obtain ⟨ks, _, hks⟩ := h
  intro b hb
  have hmem : some b ∈ ks.map fun k => [a][k]? := by
    rw [← hks]
    exact List.mem_map_of_mem hb
  obtain ⟨k, _, hk⟩ := List.mem_map.mp hmem
  exact List.mem_singleton.mp (List.mem_of_getElem? hk)

/-- **A client catches up with one exchange**: if, since `s`, when it did not wait for a content, a client
has accepted one and the server none, then the client's last is the server's last. -/
theorem caught_up {es fs : List (DistEvent ι)} (h : run x.step x.init es = some s)
    (h' : run x.step s fs = some s') {i : ι} {T : Topic}
    (hidle : T.waits (s.clients i).biz.stage = false)
    (hquiet : T.accepted x.server s'.server.history = T.accepted x.server s.server.history)
    (hnew : T.accepted (x.client i) (s'.clients i).history ≠
      T.accepted (x.client i) (s.clients i).history) :
    (T.accepted (x.client i) (s'.clients i).history).getLast? =
      (T.accepted x.server s'.server.history).getLast? := by
  obtain ⟨new, hsplit, hreads⟩ := contents_fresh x es fs h h' i T hidle
  have hne : new ≠ [] := by
    rintro rfl
    exact hnew (by rw [hsplit, List.append_nil])
  rw [← hquiet] at hreads
  cases hserver : T.accepted x.server s'.server.history using List.reverseRecOn with
  | nil =>
      rw [hserver] at hreads
      obtain ⟨ks, _, hks⟩ := hreads
      cases new with
      | nil => exact absurd rfl hne
      | cons a new =>
          cases ks with
          | nil => exact absurd hks (by simp)
          | cons k ks => exact absurd hks (by simp)
  | append_singleton log last =>
      rw [hserver, List.length_append, List.length_singleton, Nat.add_sub_cancel, List.drop_left] at hreads
      rw [hsplit, List.getLast?_append_of_ne_nil _ hne, List.getLast?_concat,
        List.getLast?_eq_getLast_of_ne_nil hne,
        readsInOrder_single hreads _ (List.getLast_mem hne)]

/-! ## From the center to the clients -/

/-- All parties of the bar `x`, with the repository's own code. -/
def Setup.withCode {ι : Type*} (x : Setup ι) (rt : Runtime) : Setup ι :=
  { x with server := x.server.withCode rt, client := fun i => (x.client i).withCode rt }

/-- The parsers of `sampleEnvironment` are the generated ones on its contents. -/
example :
    (∀ content ∈ [samplePolicy, lockPolicy, [], [0]], sampleEnvironment.parsePolicy content =
      (sampleEnvironment.withCode sampleRuntime).parsePolicy content) ∧
    ∀ content ∈ [sampleAdList, updatedAdList, []], sampleEnvironment.parseResult content =
      (sampleEnvironment.withCode sampleRuntime).parseResult content := by
  decide +kernel

/-- The server gets a policy and an ad list from the center. -/
def serverRefresh : List (DistEvent Bool) :=
  [.server .connected, .server (.policyAnswer { content := twoLocations.serialize }),
    .server (.adListAnswer { content := twoAds.serialize })]

/-- A client gets both from the server. -/
def clientRefresh : List (DistEvent Bool) :=
  [.client true .connected, .handle true 1, .deliver true false, .handle true 2, .deliver true false]

/-- What the server and the client have accepted of the two contents. -/
def acceptedOf (s : Distribution Bool) : List (List Bytes) :=
  [acceptedPolicies (sampleSetup.withCode sampleRuntime).server s.server.history,
    acceptedPolicies ((sampleSetup.withCode sampleRuntime).client true) (s.clients true).history,
    acceptedAdLists (sampleSetup.withCode sampleRuntime).server s.server.history,
    acceptedAdLists ((sampleSetup.withCode sampleRuntime).client true) (s.clients true).history]

theorem refreshes_accepted : ∃ s s',
    run (sampleSetup.withCode sampleRuntime).step (sampleSetup.withCode sampleRuntime).init
      serverRefresh = some s ∧
    run (sampleSetup.withCode sampleRuntime).step s clientRefresh = some s' ∧
    (s.clients true).biz.stage = .connecting ∧
    acceptedOf s = [[twoLocations.serialize], [], [twoAds.serialize], []] ∧
    acceptedOf s' = [[twoLocations.serialize], [twoLocations.serialize], [twoAds.serialize],
      [twoAds.serialize]] := by
  have hview : ((run (sampleSetup.withCode sampleRuntime).step (sampleSetup.withCode sampleRuntime).init
      serverRefresh).bind fun s => (run (sampleSetup.withCode sampleRuntime).step s clientRefresh).map
        fun s' => (decide ((s.clients true).biz.stage = .connecting), [acceptedOf s, acceptedOf s'])) =
      some (true, [[[twoLocations.serialize], [], [twoAds.serialize], []],
        [[twoLocations.serialize], [twoLocations.serialize], [twoAds.serialize],
          [twoAds.serialize]]]) := by
    decide +kernel
  obtain ⟨s, hs, hview⟩ := Option.bind_eq_some_iff.mp hview
  obtain ⟨s', hs', hview⟩ := Option.map_eq_some_iff.mp hview
  rw [Prod.mk.injEq, decide_eq_true_eq, List.cons.injEq, List.cons.injEq] at hview
  exact ⟨s, s', hs, hs', hview.1, hview.2.1, hview.2.2.1⟩

section Center

variable {rt : Runtime}

/-- **A policy reaches the clients as the center has made it.** The center has serialized the policy `q`, and
it is the last that the server has accepted; a client that did not wait for a policy in `s` has accepted
one since, and the server none. Then the client's policy is `q`. -/
theorem policy_reaches_client (x : Setup ι) (rt : Runtime) (es fs : List (DistEvent ι))
    (h : run (x.withCode rt).step (x.withCode rt).init es = some s)
    (h' : run (x.withCode rt).step s fs = some s') (i : ι)
    (hidle : Topic.policy.waits (s.clients i).biz.stage = false)
    (hquiet : acceptedPolicies ((x.withCode rt).server) s'.server.history =
      acceptedPolicies ((x.withCode rt).server) s.server.history)
    (hnew : acceptedPolicies ((x.withCode rt).client i) (s'.clients i).history ≠
      acceptedPolicies ((x.withCode rt).client i) (s.clients i).history)
    {q : AdPlayPolicy} (hwf : q.WellFormed) (hlen : q.serialize.length < 2 ^ 31)
    (hlast : (acceptedPolicies ((x.withCode rt).server) s'.server.history).getLast? = some q.serialize) :
    (s'.clients i).biz.impl.policy = q := by
  have hrun : run (x.withCode rt).step (x.withCode rt).init (es ++ fs) = some s' :=
    run_append_eq_some.mpr ⟨s, h, h'⟩
  have hcaught : (acceptedPolicies ((x.withCode rt).client i) (s'.clients i).history).getLast? =
      (acceptedPolicies ((x.withCode rt).server) s'.server.history).getLast? :=
    caught_up (T := .policy) h h' hidle hquiet hnew
  have hread : AdPlayPolicy.parse rt q.serialize = (q, true) :=
    (AdPlayPolicy.codec rt).parse_serialize hwf hlen
  rw [client_policy (x.withCode rt) (fun _ => rfl) (es ++ fs) hrun i, lastPolicy, hcaught, hlast]
  show (AdPlayPolicy.parse rt q.serialize).1 = q
  rw [hread]

/-- The server fetches a policy; a client asks for it, and it arrives. -/
theorem policy_reaches_client_twoLocations :
    ∃ s s', run (sampleSetup.withCode sampleRuntime).step (sampleSetup.withCode sampleRuntime).init
        serverRefresh = some s ∧
      run (sampleSetup.withCode sampleRuntime).step s clientRefresh = some s' ∧
      (s'.clients true).biz.impl.policy = twoLocations := by
  obtain ⟨s, s', hs, hs', hstage, hbefore, hafter⟩ := refreshes_accepted
  simp only [acceptedOf, List.cons.injEq, and_true] at hbefore hafter
  obtain ⟨hserver, hclient, -, -⟩ := hbefore
  obtain ⟨hserver', hclient', -, -⟩ := hafter
  exact ⟨s, s', hs, hs', policy_reaches_client sampleSetup sampleRuntime _ _ hs hs' true
    (by rw [hstage]; rfl) (by rw [hserver, hserver']) (by rw [hclient, hclient']; simp)
    twoLocations_wellFormed samples_length.1 (by rw [hserver']; rfl)⟩

/-- **An ad list reaches the clients as the center has made it**, with the names, file names, advertisers
and paths converted. -/
theorem adList_reaches_client (x : Setup ι) (rt : Runtime) (es fs : List (DistEvent ι))
    (h : run (x.withCode rt).step (x.withCode rt).init es = some s)
    (h' : run (x.withCode rt).step s fs = some s') (i : ι)
    (hidle : Topic.adList.waits (s.clients i).biz.stage = false)
    (hquiet : acceptedAdLists ((x.withCode rt).server) s'.server.history =
      acceptedAdLists ((x.withCode rt).server) s.server.history)
    (hnew : acceptedAdLists ((x.withCode rt).client i) (s'.clients i).history ≠
      acceptedAdLists ((x.withCode rt).client i) (s.clients i).history)
    {r : Result} (hwf : r.WellFormed) (hlen : r.serialize.length < 2 ^ 31)
    (hlast : (acceptedAdLists ((x.withCode rt).server) s'.server.history).getLast? = some r.serialize) :
    (s'.clients i).biz.listed = r.ads.map (x.client i).utf8ToGB2312 := by
  have hrun : run (x.withCode rt).step (x.withCode rt).init (es ++ fs) = some s' :=
    run_append_eq_some.mpr ⟨s, h, h'⟩
  have hcaught : (acceptedAdLists ((x.withCode rt).client i) (s'.clients i).history).getLast? =
      (acceptedAdLists ((x.withCode rt).server) s'.server.history).getLast? :=
    caught_up (T := .adList) h h' hidle hquiet hnew
  have hread : Result.parse rt r.serialize = (r, true) := (Result.codec rt).parse_serialize hwf hlen
  have hparse : ((x.withCode rt).client i).parseResult r.serialize = some r.ads := by
    show (if (Result.parse rt r.serialize).2 then some (Result.parse rt r.serialize).1.ads else none) = _
    rw [hread]
    rfl
  rw [listed_run rfl ((joined_run hrun).clients i), lastAds, hcaught, hlast, Option.bind_some, hparse]
  rfl

/-- The list of two ads, on the same way. -/
theorem adList_reaches_client_twoAds :
    ∃ s s', run (sampleSetup.withCode sampleRuntime).step (sampleSetup.withCode sampleRuntime).init
        serverRefresh = some s ∧
      run (sampleSetup.withCode sampleRuntime).step s clientRefresh = some s' ∧
      (s'.clients true).biz.listed = twoAds.ads.map sampleEnvironment.utf8ToGB2312 := by
  obtain ⟨s, s', hs, hs', hstage, hbefore, hafter⟩ := refreshes_accepted
  simp only [acceptedOf, List.cons.injEq, and_true] at hbefore hafter
  obtain ⟨-, -, hserver, hclient⟩ := hbefore
  obtain ⟨-, -, hserver', hclient'⟩ := hafter
  exact ⟨s, s', hs, hs', adList_reaches_client sampleSetup sampleRuntime _ _ hs hs' true
    (by rw [hstage]; rfl) (by rw [hserver, hserver']) (by rw [hclient, hclient']; simp)
    twoAds_wellFormed samples_length.2 (by rw [hserver']; rfl)⟩

end Center

end AdManager.Business
