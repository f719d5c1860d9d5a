/-
# AdManager.Business.WiredRefine — the bar with its connections does what the distribution can do.

What a party is given over a connection it could have been given in one piece: `Refines.simulates` takes each
event of the wired bar to at most one of the distribution. A request is handled when its response is posted,
and delivered when the client's thread goes on with it; all that the network does in between is nothing there.
So the results about the distribution hold over the wires, for responses that are queued from valid positions
and frames that an `int` can measure.
-/
import AdManager.Business.Exchange
import AdManager.Lib.Simulation

namespace AdManager.Business

open AdManager.Wire AdManager.Lib AdManager.Server AdManager.Session AdManager.Link
open TcpSession (frameOf)

/-! ## The simulation -/

variable {ι : Type*} [DecidableEq ι] {x : Setup ι} {w w' : Wired ι} {d d' : Distribution ι} {i : ι}

/-- **The bar `w` and the distribution `d`** have the same parties, and the answers on their way in `d` are
those posted in `w` to requests that are open. -/
structure Refines (x : Setup ι) (w : Wired ι) (d : Distribution ι) : Prop where
  joined : Joined x d
  server : d.server = w.server
  clients : d.clients = w.clients
  served : AllServed x.skipField w.bar
  cache : w.bar.cache = w.server.biz.impl.cache
  links : ∀ i, ∃ asks, Link x.skipField w.bar.cache asks (w.clients i) (w.waiting i) (d.answers i)
    (w.bar.clients i) (w.bar.sessions i) (replyFor w.bar i)

/-- The cache of a server has what answers requests, in entries that are told apart. -/
theorem Relayed.sound {y : Environment} {b₀ b : ThreadBiz} {es : List BizEvent} (h : Relayed y b₀ es b) :
    b.impl.cache.Sound := by
  have hvalid : ∀ text ∈ [ascii "getAdPlayPolicy", ascii "AdPlayPolicy not exist", ascii "getAdList",
      ascii "AdList not exist", ascii "getAdFile"], isValidUtf8 text = true := by decide +kernel
  have hanswer : ∀ {method missing : Bytes} (content : Option Bytes), isValidUtf8 method = true →
      isValidUtf8 missing = true → CachedFor method (answerFor method missing content).serialize := by
    intro method missing content hmethod hmissing
    obtain ⟨hwf, hid⟩ := answerFor_wellFormed hmethod hmissing content
    exact ⟨_, hwf, hid, by cases content <;> rfl, rfl⟩
  constructor
  · rw [h.policy]
    exact hanswer _ (hvalid _ (by simp)) (hvalid _ (by simp))
  · rw [h.adList]
    exact hanswer _ (hvalid _ (by simp)) (hvalid _ (by simp))
  · intro n hn
    obtain ⟨body, hdata, _⟩ := h.files n hn
    rw [hdata]
    exact cachedFor_content (hvalid _ (by simp)) body

namespace Refines

theorem init (x : Setup ι) : Refines x x.wired₀ x.init where
  joined := Joined.init x
  server := rfl
  clients := rfl
  served := AllServed.init
  cache := rfl
  links _ := ⟨[], Link.goesOn Posted.init rfl rfl⟩

theorem relayed (h : Refines x w d) :
    Relayed x.server x.server₀ w.server.history w.server.biz := by
  rw [← h.server]
  exact relayed_run h.joined.server

theorem distinct (h : Refines x w d) : w.bar.cache.Distinct := by
  rw [h.cache]
  exact h.relayed.distinct

/-- The server's thread. -/
theorem server_step (h : Refines x w d) {e : BizEvent} {p : Party} (hp : w.server.step x.server e = some p) :
    ∃ fs d', run x.step d fs = some d' ∧
      Refines x { w with server := p, bar := { w.bar with cache := p.biz.impl.cache } } d' := by
  obtain ⟨hb, _⟩ := Party.step_spec hp
  have hs : x.step d (.server e) = some { d with server := p } := by
    rw [Setup.step, h.server, hp]
    rfl
  have hjoined := h.joined.step hs
  refine abstract_step hs ⟨hjoined, rfl, h.clients, ⟨?_, h.served.served⟩, rfl, ?_⟩
  · exact (relayed_run hjoined.server).sound
  · intro i
    obtain ⟨asks, hlink⟩ := h.links i
    exact ⟨asks, hlink.keep (h.cache ▸ KeepsNodes.step hb)⟩

/-- A client's thread goes on to `p`, with everything answered that it has asked for. -/
theorem goOn (h : Refines x w d) {e : BizEvent} {p : Party} (hjoined : Joined x d')
    (hserver : d'.server = d.server) (hclients : d'.clients = Function.update d.clients i p)
    (hother : ∀ j, j ≠ i → d'.answers j = d.answers j) (hnone : d'.answers i = none)
    (hturn : Turn (w.clients i).biz e p.biz) (hwaits : (w.clients i).biz.stage.waits = e.answer?.isSome)
    {asks : List Ask} (hposted : Posted asks (w.bar.clients i).session)
    (hposts : ((w.bar.sessions i).session.ran ++ (w.bar.sessions i).session.posts).length = asks.length) :
    Refines x ({ w with waiting := Function.update w.waiting i none }.goOn i p) d' := by
  -- without a request, only the party changes
  have hquiet : (w.clients i).biz.newRequest p.biz = none → p.biz.stage.waits = false →
      Refines x ({ w with waiting := Function.update w.waiting i none }.goOn i p) d' := by
    intro hnew hstage
    have hgo : { w with waiting := Function.update w.waiting i none }.goOn i p = { w with
        waiting := Function.update w.waiting i none, clients := Function.update w.clients i p } := by
      simp only [Wired.goOn, hnew]
    rw [hgo]
    refine ⟨hjoined, hserver.trans h.server, hclients.trans (by rw [h.clients]), h.served, h.cache, ?_⟩
    intro j
    by_cases hj : j = i
    · subst hj
      simp only [Function.update_self, hnone]
      exact ⟨asks, Link.goesOn hposted hposts hstage⟩
    · simp only [Function.update_of_ne hj, hother j hj]
      exact h.links j
  cases hturn with
  | stays hanswer hout hstage =>
      have hnew := ThreadBiz.newRequest_append (hout.trans (List.append_nil _).symm)
      refine hquiet hnew ?_
      rw [hstage, hwaits, hanswer]
      rfl
  | goesOn hwaits hnew hstage => exact hquiet hnew hstage
  | asks a hwaits hnew hstage hlast =>
      have hgo : { w with waiting := Function.update w.waiting i none }.goOn i p = { w with
          waiting := Function.update (Function.update w.waiting i none) i
            (some (w.bar.clients i).session.nextProm)
          clients := Function.update w.clients i p
          bar := { w.bar with clients := Function.update w.bar.clients i { w.bar.clients i with
            session := (w.bar.clients i).session.request a.message } } } := by
        simp only [Wired.goOn, hnew]
      rw [hgo]
      have hrp : replyFor w.bar i = none := by
        obtain ⟨hcount, hle⟩ := served_counts (h.served.served i) hposted
        rw [hposts] at hcount
        cases hreply : replyFor w.bar i with
        | none => rfl
        | some r =>
            rw [hreply, Option.isSome_some, if_pos rfl] at hcount
            omega
      refine ⟨hjoined, hserver.trans h.server, hclients.trans (by rw [h.clients]),
        h.served.update_client ((h.served.served i).ask a), h.cache, ?_⟩
      intro j
      by_cases hj : j = i
      · subst hj
        simp only [Function.update_self, hnone]
        exact ⟨asks ++ [a], Link.asksFor hposted hposts hrp a hstage hlast⟩
      · simp only [Function.update_of_ne hj, hother j hj]
        exact h.links j

/-- A client's thread takes an event that needs no answer. -/
theorem client_step (h : Refines x w d) {e : BizEvent} {p : Party} (he : e.onItsOwn = true)
    (hp : (w.clients i).step (x.client i) e = some p) :
    ∃ fs d', run x.step d fs = some d' ∧ Refines x (w.goOn i p) d' := by
  obtain ⟨hb, _⟩ := Party.step_spec hp
  obtain ⟨hanswer, hunanswered, hno⟩ := BizEvent.onItsOwn_spec he
  have hs : x.step d (.client i e) = some { d with clients := Function.update d.clients i p } := by
    rw [Setup.step, if_pos hunanswered, h.clients, hp, hanswer]
    rfl
  have hjoined := h.joined.step hs
  refine abstract_step hs ?_
  have hasked : p.biz.HasAsked := by
    have hi := hjoined.asked i
    simpa only [Function.update_self] using hi
  have hturn := turn hb hno hasked
  obtain ⟨asks, hlink⟩ := h.links i
  cases hwaits : (w.clients i).biz.stage.waits with
  | true =>
      -- the thread waits, and nothing but its answer ends that
      cases hturn with
      | stays _ hout hstage =>
          have hnew := ThreadBiz.newRequest_append (hout.trans (List.append_nil _).symm)
          have hgo : w.goOn i p = { w with clients := Function.update w.clients i p } := by
            simp only [Wired.goOn, hnew]
            rfl
          rw [hgo]
          refine ⟨hjoined, h.server, by rw [h.clients], h.served, h.cache, ?_⟩
          intro j
          by_cases hj : j = i
          · subst hj
            simp only [Function.update_self]
            exact ⟨asks, hlink.stays hstage hout⟩
          · simp only [Function.update_of_ne hj]
            exact h.links j
      | goesOn hfits _ _ => simp [hwaits, hanswer] at hfits
      | asks a hfits _ _ _ => simp [hwaits, hanswer] at hfits
  | false =>
      have hfree := hlink.waits
      have hexchange := hlink.exchange
      rw [hwaits, Option.isSome_eq_false_iff, Option.isNone_iff_eq_none] at hfree
      have hsame : { w with waiting := Function.update w.waiting i none } = w := by
        rw [← hfree, Function.update_eq_self]
      rw [← hsame]
      rw [hfree] at hexchange
      generalize hans : d.answers i = answer at hexchange
      cases hexchange with
      | idle hposts =>
          exact h.goOn hjoined rfl rfl (fun _ _ => rfl) hans hturn (by rw [hwaits, hanswer]; rfl)
            hlink.posted hposts

/-- A client's thread goes on with the answer that its promise was set to. -/
theorem resume_step (h : Refines x w d) (hsize : AllSized w.bar) {rsp : Message} {rehash : Bool}
    {e : BizEvent} {p : Party} (hset : w.setTo i = some rsp)
    (he : delivery rsp rehash (w.clients i).biz.stage = some e)
    (hp : (w.clients i).step (x.client i) e = some p) :
    ∃ fs d', run x.step d fs = some d' ∧
      Refines x ({ w with waiting := Function.update w.waiting i none }.goOn i p) d' := by
  obtain ⟨hb, _⟩ := Party.step_spec hp
  obtain ⟨cpl, hfind, rfl⟩ := Option.map_eq_some_iff.mp hset
  have hwaiting : w.waiting i = some cpl.prom := by simpa using List.find?_some hfind
  obtain ⟨asks, hlink⟩ := h.links i
  obtain ⟨hanswer, hposts⟩ := hlink.answered (h.served.served i) (hsize i).2
    (List.mem_of_find?_eq_some hfind) hwaiting
  have hs : x.step d (.deliver i rehash) = some { d with
      clients := Function.update d.clients i p, answers := Function.update d.answers i none } := by
    rw [Setup.step, hanswer, h.clients, Option.bind_some, he, Option.bind_some, hp]
    rfl
  have hjoined := h.joined.step hs
  refine abstract_step hs ?_
  have hasked : p.biz.HasAsked := by
    have hi := hjoined.asked i
    simpa only [Function.update_self] using hi
  have hwaits : (w.clients i).biz.stage.waits = true := by
    rw [← hlink.waits, hwaiting]
    rfl
  refine h.goOn hjoined rfl rfl ?_ (Function.update_self i none d.answers)
    (turn hb (delivery_not_requestAd he) hasked) ?_ hlink.posted hposts
  · intro j hj
    exact Function.update_of_ne hj none d.answers
  · rw [hwaits, delivery_answer he]
    rfl

/-- An event of connection `i`, at which the distribution does nothing or handles that client's request. -/
theorem handles_step (h : Refines x w d) {b : Bar ι} (asks : List Ask) (hserved : AllServed x.skipField b)
    (hcache : b.cache = w.bar.cache)
    (hother : ∀ j, j ≠ i → b.clients j = w.bar.clients j ∧ b.sessions j = w.bar.sessions j ∧
      replyFor b j = replyFor w.bar j)
    (hi : Link.Handles x.skipField w.bar.cache (w.clients i) (d.answers i) fun answer =>
      Link x.skipField w.bar.cache asks (w.clients i) (w.waiting i) answer (b.clients i) (b.sessions i)
        (replyFor b i)) :
    ∃ fs d', run x.step d fs = some d' ∧ Refines x { w with bar := b } d' := by
  have hothers : ∀ j, j ≠ i → ∃ asks, Link x.skipField b.cache asks (w.clients j) (w.waiting j)
      (d.answers j) (b.clients j) (b.sessions j) (replyFor b j) := by
    intro j hj
    obtain ⟨hclient, hsession, hreply⟩ := hother j hj
    rw [hcache, hclient, hsession, hreply]
    exact h.links j
  rcases hi with hlink | ⟨hnone, req, id, rsp, hreq, hanswer, hlink⟩
  · refine abstract_stutter ⟨h.joined, h.server, h.clients, hserved, hcache.trans h.cache, ?_⟩
    intro j
    by_cases hj : j = i
    · subst hj
      exact ⟨asks, hcache.symm ▸ hlink⟩
    · exact hothers j hj
  · have hs : x.step d (.handle i id) =
        some { d with answers := Function.update d.answers i (some rsp) } := by
      rw [Setup.step, if_pos hnone, h.clients, hreq, Option.bind_some, h.server, ← h.cache, hanswer]
      rfl
    refine abstract_step hs
      ⟨h.joined.step hs, h.server, h.clients, hserved, hcache.trans h.cache, ?_⟩
    intro j
    by_cases hj : j = i
    · subst hj
      simp only [Function.update_self]
      exact ⟨asks, hcache.symm ▸ hlink⟩
    · simp only [Function.update_of_ne hj]
      exact hothers j hj

/-- An event of the network. -/
theorem net_step (h : Refines x w d) (hsize : AllSized w.bar) {e : BarEvent ι} (hnet : isNet e = true)
    (hC : PositionValid w.bar e) {b : Bar ι} (hs : barStep (parser x.skipField) w.bar e = some b) :
    ∃ fs d', run x.step d fs = some d' ∧ Refines x { w with bar := b } d' := by
  have hserved := h.served.step hsize hC hs
  cases e with
  | client i e =>
      simp only [barStep] at hs
      split at hs
      · next he =>
          obtain ⟨p, hp, rfl⟩ := Option.map_eq_some_iff.mp hs
          obtain ⟨asks, hlink⟩ := h.links i
          refine h.handles_step (i := i) asks hserved rfl ?_ ?_
          · intro j hj
            exact ⟨Function.update_of_ne hj p w.bar.clients, rfl, rfl⟩
          · simp only [Function.update_self]
            exact Or.inl (hlink.of_calls (hlink.posted.step he hp) rfl)
      · exact absurd hs (by simp)
  | server i e =>
      simp only [barStep] at hs
      split at hs
      · next he =>
          obtain ⟨p, hp, rfl⟩ := Option.map_eq_some_iff.mp hs
          obtain ⟨asks, hlink⟩ := h.links i
          refine h.handles_step (i := i) asks hserved rfl ?_ ?_
          · intro j hj
            exact ⟨rfl, Function.update_of_ne hj p w.bar.sessions, rfl⟩
          · simp only [Function.update_self]
            exact Or.inl (hlink.of_calls hlink.posted (calls_step (Or.inl he.1) hp))
      · exact absurd hs (by simp)
  | serve i =>
      simp only [barStep] at hs
      split at hs
      · next hbusy =>
          obtain ⟨p, hp, hs⟩ := Option.bind_eq_some_iff.mp hs
          obtain ⟨out, hout, rfl⟩ := Option.map_eq_some_iff.mp hs
          have hfree : ∀ j, replyFor w.bar j = none := by
            intro j
            rw [replyFor, Option.isNone_iff_eq_none.mp hbusy]
            rfl
          have hclient := serve_client hout
          obtain ⟨asks, hlink⟩ := h.links i
          have hservedi := h.served.served i
          rw [hfree i] at hlink hservedi
          refine h.handles_step (i := i) asks hserved rfl ?_ ?_
          · intro j hj
            refine ⟨rfl, Function.update_of_ne hj out.1 w.bar.sessions, ?_⟩
            rw [hfree j, replyFor, Option.filter_eq_none_iff]
            intro r hr
            simpa [hclient r hr] using Ne.symm hj
          · -- a response looked up now is this connection's
            have hown : (out.2.filter fun r => r.client = i) = out.2 := by
              cases hout2 : out.2 with
              | none => rfl
              | some r => simp [Option.filter, hclient r hout2]
            simp only [Function.update_self, replyFor, hown]
            exact hlink.serve hservedi (hsize i).1 h.distinct hp hout
      · exact absurd hs (by simp)
  | reply garbage =>
      obtain ⟨r, hr, rfl⟩ := Option.map_eq_some_iff.mp hs
      obtain ⟨asks, hlink⟩ := h.links r.client
      have hservedi := h.served.served r.client
      have hopen : replyFor w.bar r.client = some r := by simp [replyFor, hr]
      rw [hopen] at hlink hservedi
      refine h.handles_step (i := r.client) asks hserved rfl ?_ ?_
      · intro j hj
        refine ⟨rfl, Function.update_of_ne hj _ w.bar.sessions, ?_⟩
        rw [replyFor, replyFor, hr]
        simpa [Option.filter] using Ne.symm hj
      · simp only [Function.update_self]
        exact hlink.reply hservedi h.distinct (hC r hr) garbage
  | _ => exact absurd hnet (by simp [isNet])

/-- **The simulation.** -/
theorem simulates (x : Setup ι) :
    Simulates x.wiredStep (fun w e => ValidReply w e ∧ AllSized w.bar) x.step (Refines x) := by
  rintro w e w' d h ⟨hC, hsize⟩ hs
  cases e with
  | server e =>
      obtain ⟨p, hp, rfl⟩ := Option.map_eq_some_iff.mp hs
      exact h.server_step hp
  | client i e =>
      simp only [Setup.wiredStep] at hs
      split at hs
      · next he =>
          obtain ⟨p, hp, rfl⟩ := Option.map_eq_some_iff.mp hs
          exact h.client_step he hp
      · exact absurd hs (by simp)
  | resume i rehash =>
      obtain ⟨rsp, hset, hs⟩ := Option.bind_eq_some_iff.mp hs
      obtain ⟨e, he, hs⟩ := Option.bind_eq_some_iff.mp hs
      obtain ⟨p, hp, rfl⟩ := Option.map_eq_some_iff.mp hs
      exact h.resume_step hsize hset he hp
  | net e =>
      simp only [Setup.wiredStep] at hs
      split at hs
      · next hnet =>
          obtain ⟨b, hb, rfl⟩ := Option.map_eq_some_iff.mp hs
          exact h.net_step hsize hnet hC hb
      · exact absurd hs (by simp)

end Refines

/-! ## Runs -/

/-- What a client's thread does leaves the frames alone. -/
theorem goOn_queued (w : Wired ι) (i : ι) (p : Party) (j : ι) :
    ((w.goOn i p).bar.clients j).session.queued = (w.bar.clients j).session.queued ∧
      (w.goOn i p).bar.sessions = w.bar.sessions := by
  unfold Wired.goOn
  split
  · exact ⟨rfl, rfl⟩
  · refine ⟨?_, rfl⟩
    by_cases hj : j = i
    · subst hj
      simp only [Function.update_self]
      rfl
    · simp only [Function.update_of_ne hj]

theorem goOn_sized {i : ι} {p : Party} (h : AllSized (w.goOn i p).bar) : AllSized w.bar := by
  intro j
  obtain ⟨hclient, hsession⟩ := goOn_queued w i p j
  obtain ⟨hc, hs⟩ := h j
  rw [hsession] at hs
  exact ⟨hc.of_queued (hclient ▸ List.prefix_refl _), hs⟩

/-- No frame is taken back. -/
theorem sized_back {e : WiredEvent ι} (hs : x.wiredStep w e = some w') (h : AllSized w'.bar) :
    AllSized w.bar := by
  cases e with
  | server e =>
      obtain ⟨p, _, rfl⟩ := Option.map_eq_some_iff.mp hs
      exact h
  | client i e =>
      simp only [Setup.wiredStep] at hs
      split at hs
      · obtain ⟨p, _, rfl⟩ := Option.map_eq_some_iff.mp hs
        exact goOn_sized h
      · exact absurd hs (by simp)
  | resume i rehash =>
      obtain ⟨rsp, _, hs⟩ := Option.bind_eq_some_iff.mp hs
      obtain ⟨e, _, hs⟩ := Option.bind_eq_some_iff.mp hs
      obtain ⟨p, _, rfl⟩ := Option.map_eq_some_iff.mp hs
      exact goOn_sized (w := { w with waiting := Function.update w.waiting i none }) h
  | net e =>
      simp only [Setup.wiredStep] at hs
      split at hs
      · obtain ⟨b, hb, rfl⟩ := Option.map_eq_some_iff.mp hs
        exact h.of_step hb
      · exact absurd hs (by simp)

/-- Every state of the wired bar is one of the distribution. -/
theorem refines_run {es : List (WiredEvent ι)} (h : run x.wiredStep x.wired₀ es = some w)
    (hvalid : EveryStep x.wiredStep ValidReply x.wired₀ es) (hsize : AllSized w.bar) :
    ∃ fs d, run x.step x.init fs = some d ∧ Refines x w d := by
  have hsized := everyStep_of_last (P := fun w : Wired ι => AllSized w.bar)
    (fun _ _ _ hs => sized_back hs) h hsize
  exact (Refines.simulates x).run (Refines.init x) h (hvalid.and hsized)

/-- **The wired bar refines the distribution**: whatever the parties have been given and done over their
connections, they can be given and do in the distribution. -/
theorem wired_refines (x : Setup ι) (es : List (WiredEvent ι)) (h : run x.wiredStep x.wired₀ es = some w)
    (hvalid : EveryStep x.wiredStep ValidReply x.wired₀ es) (hsize : AllSized w.bar) :
    ∃ fs d, run x.step x.init fs = some d ∧ d.server = w.server ∧ d.clients = w.clients := by
  obtain ⟨fs, d, hd, hrefines⟩ := refines_run h hvalid hsize
  exact ⟨fs, d, hd, hrefines.server, hrefines.clients⟩

/-- The frame of the response with the policy `content` to a client's first request. -/
def policyFrame (content : Bytes) : Bytes :=
  (frameOf 0 (.rspData 1 (policyAnswerFor (some content)).serialize 0)).bytes

/-- The server accepts a policy; client `false` asks for it and is given it. -/
def policyOverWire : List (WiredEvent Bool) :=
  [.server .connected, .server (.policyAnswer { content := samplePolicy }), .client false .connected] ++
  (sendRequest false (firstFrame (.getAdPlayPolicy 1))).map .net ++
  (sendResponse false (policyFrame samplePolicy)).map .net ++ [.resume false false]

/-- The client has the policy, and waits for the ad list. -/
theorem policyOverWire_run :
    ∃ w, run sampleSetup.wiredStep sampleSetup.wired₀ policyOverWire = some w ∧
      EveryStep sampleSetup.wiredStep ValidReply sampleSetup.wired₀ policyOverWire ∧ AllSized w.bar ∧
      Topic.policy.accepted sampleEnvironment (w.clients false).history = [samplePolicy] ∧
      (w.clients false).biz.stage.waits = true := by
  have hview : stepsMeet sampleSetup.wiredStep ValidReply sampleSetup.wired₀ policyOverWire = true ∧
      (run sampleSetup.wiredStep sampleSetup.wired₀ policyOverWire).map (fun w =>
        (decide ((Sized (w.bar.clients false) ∧ Sized (w.bar.sessions false)) ∧
            Sized (w.bar.clients true) ∧ Sized (w.bar.sessions true)),
          Topic.policy.accepted sampleEnvironment (w.clients false).history,
          (w.clients false).biz.stage.waits)) = some (true, [samplePolicy], true) := by
    decide +kernel
  obtain ⟨w, hw, hview'⟩ := Option.map_eq_some_iff.mp hview.2
  simp only [Prod.mk.injEq, decide_eq_true_eq] at hview'
  obtain ⟨hsize, haccepted, hwaits⟩ := hview'
  exact ⟨w, hw, stepsMeet_iff.mp hview.1, Bool.forall_bool.mpr hsize, haccepted, hwaits⟩

theorem wired_refines_policy :
    ∃ w, run sampleSetup.wiredStep sampleSetup.wired₀ policyOverWire = some w ∧
      ∃ fs d, run sampleSetup.step sampleSetup.init fs = some d ∧ d.server = w.server ∧
        d.clients = w.clients := by
  obtain ⟨w, hw, hvalid, hsize, -⟩ := policyOverWire_run
  exact ⟨w, hw, wired_refines sampleSetup _ hw hvalid hsize⟩

/-- **What a client accepts over its connection** is what its server has accepted, in the server's order. -/
theorem wired_contents_inOrder (x : Setup ι) (es : List (WiredEvent ι))
    (h : run x.wiredStep x.wired₀ es = some w)
    (hvalid : EveryStep x.wiredStep ValidReply x.wired₀ es) (hsize : AllSized w.bar) (i : ι) (T : Topic) :
    ReadsInOrder (T.accepted x.server w.server.history)
      (T.accepted (x.client i) (w.clients i).history) := by
  obtain ⟨fs, d, hd, hrefines⟩ := refines_run h hvalid hsize
  obtain ⟨_, p, _, hpub⟩ := publishes_run (Publishes.init T x) (Joined.init x) hd
  rw [← hrefines.server, ← hrefines.clients, ← hpub.published]
  exact (hpub.inOrder i).reads_inOrder (hpub.reader i).reads

theorem wired_contents_inOrder_policy :
    ∃ w, run sampleSetup.wiredStep sampleSetup.wired₀ policyOverWire = some w ∧
      ReadsInOrder (Topic.policy.accepted sampleEnvironment w.server.history) [samplePolicy] := by
  obtain ⟨w, hw, hvalid, hsize, haccepted, -⟩ := policyOverWire_run
  rw [← haccepted]
  exact ⟨w, hw, wired_contents_inOrder sampleSetup _ hw hvalid hsize false .policy⟩

end AdManager.Business
