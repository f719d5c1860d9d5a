/-
# AdManager.Business.Freshness — what a client has accepted, against what its server had.

The simulation of a bar by a publication, for each of the two contents, and its consequences: a client
accepts what its server has accepted, in its order, with gaps and repetitions, but never an older content
after a newer one, and never one that was replaced before it asked.
-/
import AdManager.Business.Distribution
import AdManager.Server.Served

namespace AdManager.Business

open AdManager.Wire AdManager.Lib AdManager.Server AdManager.Session
open TcpSession (frameOf)

/-! ## What an event of the system does -/

theorem Party.step_spec {x : Environment} {p p' : Party} {e : BizEvent} (hs : p.step x e = some p') :
    Business.step x p.biz e = some p'.biz ∧ p'.history = p.history ++ [e] := by
  obtain ⟨b, hb, rfl⟩ := Option.map_eq_some_iff.mp hs
  exact ⟨hb, rfl⟩

variable {ι : Type*} [DecidableEq ι] {x : Setup ι} {s s' : Distribution ι}

/-- **What an event does**: the server moves; or a client does, and if it is given a message with code 0,
that is the answer on its way to it; or an answer is made for a client that has none on its way. -/
inductive DistStep (x : Setup ι) (s s' : Distribution ι) : Prop
  | server (e : BizEvent) (p : Party) (hp : s.server.step x.server e = some p)
      (hs' : s' = { s with server := p })
  | client (i : ι) (e : BizEvent) (p : Party) (hp : (s.clients i).step (x.client i) e = some p)
      (hanswer : ∀ rsp ∈ e.answer?, s.answers i = some rsp ∨ rsp.returnCode ≠ 0)
      (hs' : s' = { s with
        clients := Function.update s.clients i p
        answers := if e.answer?.isSome then Function.update s.answers i none else s.answers })
  | handle (i : ι) (msgID : Int64) (req rsp : Message) (hfree : s.answers i = none)
      (hreq : (s.clients i).request? = some req)
      (hrsp : answerOf x.skipField s.server.biz.impl.cache { req with id := msgID } = some rsp)
      (hs' : s' = { s with answers := Function.update s.answers i (some rsp) })

theorem delivery_answer {rsp : Message} {rehash : Bool} {stage : Stage} {e : BizEvent}
    (h : delivery rsp rehash stage = some e) : e.answer? = some rsp := by
  cases stage <;> simp only [delivery, Option.some.injEq, reduceCtorEq] at h <;> subst h <;> rfl

theorem unanswered_code {e : BizEvent} (he : e.unanswered = true) :
    ∀ rsp ∈ e.answer?, rsp.returnCode ≠ 0 := by
  intro rsp hrsp
  cases e <;> simp_all [BizEvent.unanswered, BizEvent.answer?]

theorem distStep {e : DistEvent ι} (hs : x.step s e = some s') : DistStep x s s' := by
  cases e with
  | server e =>
      obtain ⟨p, hp, rfl⟩ := Option.map_eq_some_iff.mp hs
      exact .server e p hp rfl
  | client i e =>
      simp only [Setup.step] at hs
      split at hs
      · next he =>
          obtain ⟨p, hp, rfl⟩ := Option.map_eq_some_iff.mp hs
          exact .client i e p hp (fun rsp hrsp => Or.inr (unanswered_code he rsp hrsp)) rfl
      · exact absurd hs (by simp)
  | handle i msgID =>
      simp only [Setup.step] at hs
      split at hs
      · next hfree =>
          obtain ⟨req, hreq, hs⟩ := Option.bind_eq_some_iff.mp hs
          obtain ⟨rsp, hrsp, rfl⟩ := Option.map_eq_some_iff.mp hs
          exact .handle i msgID req rsp hfree hreq hrsp rfl
      · exact absurd hs (by simp)
  | deliver i rehash =>
      obtain ⟨rsp, hrsp, hs⟩ := Option.bind_eq_some_iff.mp hs
      obtain ⟨e, he, hs⟩ := Option.bind_eq_some_iff.mp hs
      obtain ⟨p, hp, rfl⟩ := Option.map_eq_some_iff.mp hs
      have hanswer := delivery_answer he
      refine .client i e p hp ?_ (by rw [hanswer]; rfl)
      intro rsp' hrsp'
      rw [hanswer] at hrsp'
      exact Or.inl (hrsp.trans hrsp')

/-! ## The parties run by themselves -/

/-- **What the system keeps of its parties**: their histories are runs, they wait for what they have asked
for, and answers are on their way to those who wait. -/
structure Joined (x : Setup ι) (s : Distribution ι) : Prop where
  server : run (Business.step x.server) x.server₀ s.server.history = some s.server.biz
  clients : ∀ i, run (Business.step (x.client i)) (x.client₀ i) (s.clients i).history = some (s.clients i).biz
  asked : ∀ i, (s.clients i).biz.HasAsked
  waiting : ∀ i, (s.answers i).isSome → (s.clients i).biz.stage.waits = true

omit [DecidableEq ι] in
theorem Joined.init (x : Setup ι) : Joined x x.init where
  server := rfl
  clients _ := rfl
  asked _ := trivial
  waiting := by simp [Setup.init]

theorem Joined.step {e : DistEvent ι} (h : Joined x s) (hs : x.step s e = some s') : Joined x s' := by
  cases distStep hs with
  | server e p hp hs' =>
      obtain ⟨hb, hhistory⟩ := Party.step_spec hp
      subst hs'
      refine ⟨?_, h.clients, h.asked, h.waiting⟩
      rw [hhistory]
      exact run_snoc.mpr ⟨_, h.server, hb⟩
  | client i e p hp hanswer hs' =>
      obtain ⟨hb, hhistory⟩ := Party.step_spec hp
      subst hs'
      refine ⟨h.server, ?_, ?_, ?_⟩
      · intro j
        by_cases hj : j = i
        · subst hj
          simp only [Function.update_self, hhistory]
          exact run_snoc.mpr ⟨_, h.clients j, hb⟩
        · simp only [Function.update_of_ne hj]
          exact h.clients j
      · intro j
        by_cases hj : j = i
        · subst hj
          simp only [Function.update_self]
          exact (h.asked j).step hb
        · simp only [Function.update_of_ne hj]
          exact h.asked j
      · intro j hj'
        by_cases hj : j = i
        · subst hj
          simp only [Function.update_self]
          by_cases he : e.answer?.isSome
          · simp [he] at hj'
          · simp only [he, Bool.false_eq_true, if_false] at hj'
            have hwaits := h.waiting j hj'
            rw [(wait_step hb).1 (by simpa using he) hwaits]
            exact hwaits
        · simp only [Function.update_of_ne hj]
          apply h.waiting j
          by_cases he : e.answer?.isSome
          · simpa [he, Function.update_of_ne hj] using hj'
          · simpa [he] using hj'
  | handle i msgID req rsp hfree hreq hrsp hs' =>
      subst hs'
      refine ⟨h.server, h.clients, h.asked, ?_⟩
      intro j hj'
      by_cases hj : j = i
      · subst hj
        unfold Party.request? at hreq
        split at hreq
        · next hwaits => exact hwaits
        · exact absurd hreq (by simp)
      · simp only [Function.update_of_ne hj] at hj'
        exact h.waiting j hj'

theorem joined_run {es : List (DistEvent ι)} (h : run x.step x.init es = some s) : Joined x s :=
  inv_run (Joined.init x) (fun _ _ _ hI hs => hI.step hs) h

/-! ## The answers of the server -/

theorem answerOf_eq {skipField : UInt32 → Bytes → Option Bytes} {c : Cache} {req msg rsp : Message}
    (h : AnswersWith skipField c {} 0 req msg) (hrsp : answerOf skipField c req = some rsp) :
    rsp = msg := by
  obtain ⟨post, hrespond, _, hcarries⟩ := h
  obtain ⟨hbytes, hparses⟩ := hcarries 0
  have hbody : (frameOf 0 post).body = msg.serialize := by
    rw [QueuedFrame.body, hbytes, stream_frame, drop_htonl]
  rw [answerOf, hrespond] at hrsp
  simp only [Option.bind_some, List.nil_append, List.head?_cons, hbody] at hrsp hparses
  split at hrsp
  · next hlen =>
      rw [hparses hlen] at hrsp
      exact (Option.some.inj hrsp).symm
  · exact absurd hrsp (by simp)

theorem request?_eq {p : Party} {req msg : Message} (hreq : p.request? = some req)
    (hlast : p.biz.outgoing.getLast? = some (.request msg)) : req = msg := by
  unfold Party.request? at hreq
  split at hreq
  · rw [hlast] at hreq
    exact (Option.some.inj hreq).symm
  · exact absurd hreq (by simp)

omit [DecidableEq ι] in
/-- **The answer to a client that waits for a content is the last one that the server has accepted.** -/
theorem topic_answer (T : Topic) (h : Joined x s) {i : ι} {msgID : Int64} {req rsp : Message}
    (hwaits : T.waits (s.clients i).biz.stage = true) (hreq : (s.clients i).request? = some req)
    (hrsp : answerOf x.skipField s.server.biz.impl.cache { req with id := msgID } = some rsp) :
    rsp = { T.answerFor (T.accepted x.server s.server.history).getLast? with id := msgID } := by
  have hasked := h.asked i
  have hwf : ∀ a : Ask, Message.WellFormed { a.message with id := msgID } :=
    fun a => ⟨a.wellFormed.method, a.wellFormed.returnMsg⟩
  have hanswers := fun a => (relayed_run h.server).answers x.skipField {} 0 (hwf a)
  unfold ThreadBiz.HasAsked at hasked
  cases T with
  | policy =>
      cases hstage : (s.clients i).biz.stage with
      | policy =>
          rw [hstage] at hasked
          obtain ⟨barId, hlast⟩ := hasked
          obtain rfl := request?_eq hreq hlast
          exact answerOf_eq ((hanswers (.getAdPlayPolicy barId)).policy rfl) hrsp
      | _ =>
          rw [hstage] at hwaits
          exact absurd hwaits (by simp [Topic.waits])
  | adList =>
      cases hstage : (s.clients i).biz.stage with
      | adList root =>
          rw [hstage] at hasked
          obtain rfl := request?_eq hreq hasked
          exact answerOf_eq ((hanswers .getAdList).adList rfl) hrsp
      | _ =>
          rw [hstage] at hwaits
          exact absurd hwaits (by simp [Topic.waits])

/-! ## The simulation -/

/-- The reader `i` of the publication `p` is the client `c`, to which `answer` is on its way. -/
structure Reader (T : Topic) (y : Environment) (c : Party) (answer : Option Message)
    (p : Publication ι Bytes) (i : ι) : Prop where
  reads : p.Reads i (T.accepted y c.history)
  asked : (p.asked i).isSome = T.waits c.biz.stage
  pending : answer = none ∨ T.waits c.biz.stage = false → p.answered i = none
  answered : ∀ rsp, T.waits c.biz.stage = true → answer = some rsp →
    ∃ v, p.answered i = some v ∧ rsp = { T.answerFor (p.valueAt v) with id := rsp.id }

section Reader

variable {T : Topic} {y : Environment} {c c' : Party} {answer : Option Message}
  {p p' : Publication ι Bytes} {i : ι} {e : BizEvent}

omit [DecidableEq ι] in
/-- A reader that is left alone stays what it is, whatever is published. -/
theorem Reader.mono (h : Reader T y c answer p i) (hin : p.InOrder i)
    (hgrows : p.published <+: p'.published) (hasked : p'.asked i = p.asked i)
    (hanswered : p'.answered i = p.answered i) (hreads : p'.reads i = p.reads i) :
    Reader T y c answer p' i where
  reads := by
    rw [Publication.Reads, h.reads, hreads]
    apply List.map_congr_left
    intro r hr
    exact (Publication.valueAt_grows hgrows (hin.interval r hr).2).symm
  asked := by rw [hasked, h.asked]
  pending := by
    intro hnone
    rw [hanswered, h.pending hnone]
  answered := by
    intro rsp hwaits hrsp
    obtain ⟨v, hv, heq⟩ := h.answered rsp hwaits hrsp
    refine ⟨v, hanswered.trans hv, ?_⟩
    rw [Publication.valueAt_grows hgrows (hin.answered v hv).1]
    exact heq

/-- What a client does, as what its reader does. -/
structure ReaderMoves (T : Topic) (y : Environment) (c' : Party) (answer : Option Message)
    (p : Publication ι Bytes) (i : ι) (p' : Publication ι Bytes) : Prop where
  published : p'.published = p.published
  others : ∀ j, j ≠ i → p'.asked j = p.asked j ∧ p'.answered j = p.answered j ∧ p'.reads j = p.reads j
  reader : Reader T y c' answer p' i

/-- **Each event of a client is at most one event of its reader.** -/
theorem Reader.step (h : Reader T y c answer p i) (hs : c.step y e = some c')
    (hwait : answer.isSome → c.biz.stage.waits = true)
    (hanswer : ∀ rsp ∈ e.answer?, answer = some rsp ∨ rsp.returnCode ≠ 0) :
    ∃ es p', run Publication.step p es = some p' ∧
      ReaderMoves T y c' (if e.answer?.isSome then none else answer) p i p' := by
  obtain ⟨hb, hhistory⟩ := Party.step_spec hs
  have haccepted : T.accepted y c'.history = T.accepted y c.history ++ (T.content y e).toList := by
    rw [hhistory, T.accepted_concat]
  cases hw : T.waits c.biz.stage with
  | true =>
      have hsome : (p.asked i).isSome := by rw [h.asked, hw]
      cases he : e.answer? with
      | some rsp =>
          have hw' := Topic.waits_answered hb hw (by rw [he]; rfl)
          cases hcontent : T.content y e with
          | some a =>
              -- the client accepts the answer that is on its way
              obtain ⟨rsp', hrsp', hcode, ha⟩ := Topic.content_answer hcontent
              obtain rfl := Option.some.inj (he.symm.trans hrsp')
              have hon : answer = some rsp := (hanswer rsp he).resolve_right (not_not_intro hcode)
              obtain ⟨v, hv, hvalue⟩ := h.answered rsp hw hon
              obtain ⟨n, hn⟩ := Option.isSome_iff_exists.mp hsome
              obtain ⟨p', hp', hsets⟩ := Publication.accept_sets hn hv
              have hlast : p.valueAt v = some a := by
                have hcode' : (T.answerFor (p.valueAt v)).returnCode = 0 :=
                  (congrArg Message.returnCode hvalue).symm.trans hcode
                rw [Topic.answerFor_eq hcode', ← ha]
                exact congrArg some (congrArg Message.content hvalue).symm
              refine ⟨[.accept i], p', by rw [run_singleton, hp'], hsets.published, hsets.others, ?_⟩
              refine ⟨?_, by rw [hsets.asked, hw']; rfl, fun _ => hsets.answered, ?_⟩
              · rw [Publication.Reads, haccepted, hcontent, hsets.reads,
                  Publication.valueAt_congr hsets.published, List.map_append, List.map_append, h.reads]
                simp [hlast]
              · intro rsp' hw''
                exact absurd (hw''.symm.trans hw') (by decide)
          | none =>
              obtain ⟨p', hp', hsets⟩ := Publication.abandon_sets p i
              refine ⟨[.abandon i], p', by rw [run_singleton, hp'], hsets.published, hsets.others, ?_⟩
              refine ⟨?_, by rw [hsets.asked, hw']; rfl, fun _ => hsets.answered, ?_⟩
              · rw [Publication.Reads, haccepted, hcontent, hsets.reads,
                  Publication.valueAt_congr hsets.published, Option.toList_none, List.append_nil]
                exact h.reads
              · intro rsp' hw''
                exact absurd (hw''.symm.trans hw') (by decide)
      | none =>
          -- the client goes on waiting
          have hstage := (wait_step hb).1 he (Topic.waits_stage hw)
          have hcontent : T.content y e = none := by
            cases hcontent : T.content y e with
            | none => rfl
            | some a =>
                obtain ⟨rsp, hrsp, _⟩ := Topic.content_answer hcontent
                exact absurd (he.symm.trans hrsp) (by simp)
          refine ⟨[], p, rfl, rfl, fun _ _ => ⟨rfl, rfl, rfl⟩, ?_, ?_, ?_, ?_⟩
          · rw [haccepted, hcontent]
            simpa using h.reads
          · rw [hstage, h.asked]
          · rw [hstage]
            exact h.pending
          · rw [hstage]
            exact h.answered
  | false =>
      have hcontent := Topic.content_none hb hw
      have hreads : p.Reads i (T.accepted y c'.history) := by
        rw [haccepted, hcontent]
        simpa using h.reads
      have hanswered := h.pending (Or.inr hw)
      cases hw' : T.waits c'.biz.stage with
      | true =>
          -- the client asks
          have hidle : p.asked i = none := by
            rw [← Option.not_isSome_iff_eq_none, h.asked, hw]
            decide
          obtain ⟨p', hp', hsets⟩ := Publication.ask_sets hidle
          refine ⟨[.ask i], p', by rw [run_singleton, hp'], hsets.published, hsets.others, ?_⟩
          refine ⟨?_, by rw [hsets.asked, hw']; rfl, fun _ => hsets.answered.trans hanswered, ?_⟩
          · rw [Publication.Reads, hsets.reads, Publication.valueAt_congr hsets.published]
            exact hreads
          · intro rsp _ hrsp
            split at hrsp
            · exact absurd hrsp (by simp)
            · next he =>
                have hstage := (wait_step hb).1 (by simpa using he) (hwait (by rw [hrsp]; rfl))
                rw [hstage, hw] at hw'
                exact absurd hw' (by decide)
      | false =>
          refine ⟨[], p, rfl, rfl, fun _ _ => ⟨rfl, rfl, rfl⟩, hreads, ?_, fun _ => hanswered, ?_⟩
          · rw [hw', h.asked, hw]
          · intro rsp hw''
            exact absurd (hw''.symm.trans hw') (by decide)

end Reader

/-- **The bar as a publication of the content `T`**: what the server has accepted is published, and each
client is a reader. -/
structure Publishes (T : Topic) (x : Setup ι) (s : Distribution ι) (p : Publication ι Bytes) : Prop where
  published : p.published = T.accepted x.server s.server.history
  reader : ∀ i, Reader T (x.client i) (s.clients i) (s.answers i) p i
  inOrder : ∀ i, p.InOrder i

section Publishes

variable {T : Topic} {p : Publication ι Bytes}

omit [DecidableEq ι] in
theorem Publishes.init (T : Topic) (x : Setup ι) : Publishes T x x.init {} where
  published := rfl
  reader i := by
    have hwaits : T.waits .connecting = false := by cases T <;> rfl
    exact ⟨rfl, hwaits.symm, fun _ => rfl, fun rsp hw => absurd (hw.symm.trans hwaits) (by decide)⟩
  inOrder i := Publication.InOrder.init i

theorem Publishes.step {e : DistEvent ι} (h : Publishes T x s p) (hjoined : Joined x s)
    (hs : x.step s e = some s') :
    ∃ es p', run Publication.step p es = some p' ∧ Publishes T x s' p' := by
  have hinOrder : ∀ {es p'}, run Publication.step p es = some p' → ∀ i, p'.InOrder i := by
    intro es p' hrun i
    exact inv_run (I := fun p => Publication.InOrder p i) (h.inOrder i)
      (fun _ _ _ hI hs => hI.step hs) hrun
  cases distStep hs with
  | server e q hq hs' =>
      obtain ⟨hb, hhistory⟩ := Party.step_spec hq
      subst hs'
      have haccepted : T.accepted x.server q.history =
          T.accepted x.server s.server.history ++ (T.content x.server e).toList := by
        rw [hhistory, T.accepted_concat]
      cases hcontent : T.content x.server e with
      | none =>
          refine ⟨[], p, rfl, ?_, h.reader, h.inOrder⟩
          rw [haccepted, hcontent, h.published, Option.toList_none, List.append_nil]
      | some a =>
          have hrun : run Publication.step p [.publish a] =
              some { p with published := p.published ++ [a] } := rfl
          refine ⟨[.publish a], _, hrun, ?_, ?_, hinOrder hrun⟩
          · rw [haccepted, hcontent, h.published]
            rfl
          · intro i
            exact (h.reader i).mono (h.inOrder i) (List.prefix_append _ _) rfl rfl rfl
  | client i e q hq hanswer hs' =>
      obtain ⟨es, p', hrun, hmoves⟩ := (h.reader i).step hq (hjoined.waiting i) hanswer
      subst hs'
      refine ⟨es, p', hrun, hmoves.published.trans h.published, ?_, hinOrder hrun⟩
      intro j
      by_cases hj : j = i
      · subst hj
        simp only [Function.update_self]
        have hreader := hmoves.reader
        by_cases he : e.answer?.isSome
        · simpa only [he, if_true, Function.update_self] using hreader
        · simpa only [he, Bool.false_eq_true, if_false] using hreader
      · obtain ⟨hasked, hanswered, hreads⟩ := hmoves.others j hj
        have hmono :=
          (h.reader j).mono (h.inOrder j) (hmoves.published ▸ List.prefix_rfl) hasked hanswered hreads
        simp only [Function.update_of_ne hj]
        by_cases he : e.answer?.isSome
        · simpa only [he, if_true, Function.update_of_ne hj] using hmono
        · simpa only [he, Bool.false_eq_true, if_false] using hmono
  | handle i msgID req rsp hfree hreq hrsp hs' =>
      subst hs'
      cases hw : T.waits (s.clients i).biz.stage with
      | true =>
          have hvalue := topic_answer T hjoined hw hreq hrsp
          obtain ⟨p', hp', hsets⟩ := Publication.answer_sets (s := p) (i := i)
            (by rw [(h.reader i).asked, hw]) ((h.reader i).pending (Or.inl hfree))
          have hrun : run Publication.step p [.answer i] = some p' := by rw [run_singleton, hp']
          refine ⟨[.answer i], p', hrun, hsets.published.trans h.published, ?_, hinOrder hrun⟩
          intro j
          by_cases hj : j = i
          · subst hj
            simp only [Function.update_self]
            refine ⟨?_, by rw [hsets.asked, (h.reader j).asked], ?_, ?_⟩
            · rw [Publication.Reads, hsets.reads, Publication.valueAt_congr hsets.published]
              exact (h.reader j).reads
            · intro hnone
              rcases hnone with hnone | hnone
              · exact absurd hnone (by simp)
              · exact absurd (hw.symm.trans hnone) (by decide)
            · -- the answer is that of the version published now
              intro rsp' _ hrsp'
              obtain rfl := Option.some.inj hrsp'
              refine ⟨_, hsets.answered, ?_⟩
              rw [Publication.valueAt_congr hsets.published, Publication.valueAt_length, h.published]
              rw [hvalue]
          · obtain ⟨hasked, hanswered, hreads⟩ := hsets.others j hj
            simp only [Function.update_of_ne hj]
            exact (h.reader j).mono (h.inOrder j) (hsets.published ▸ List.prefix_rfl) hasked hanswered hreads
      | false =>
          -- the answer is to another request
          refine ⟨[], p, rfl, h.published, ?_, h.inOrder⟩
          intro j
          by_cases hj : j = i
          · subst hj
            obtain ⟨hreads, hasked, hpending, hanswered⟩ := h.reader j
            refine ⟨hreads, hasked, fun _ => hpending (Or.inr hw), ?_⟩
            intro rsp' hw'
            exact absurd (hw'.symm.trans hw) (by decide)
          · simp only [Function.update_of_ne hj]
            exact h.reader j

/-- **The simulation**: every run of a bar is one of a publication. -/
theorem publishes_run {es : List (DistEvent ι)} (h : Publishes T x s p) (hjoined : Joined x s)
    (hrun : run x.step s es = some s') :
    ∃ fs p', run Publication.step p fs = some p' ∧ Publishes T x s' p' := by
  have hboth : Joined x s' ∧ ∃ fs p', run Publication.step p fs = some p' ∧ Publishes T x s' p' := by
    refine inv_run (I := fun s => Joined x s ∧ ∃ fs p', run Publication.step p fs = some p' ∧
      Publishes T x s p') ⟨hjoined, [], p, rfl, h⟩ ?_ hrun
    rintro t e t' ⟨hjoined, fs, q, hq, hpub⟩ hs
    obtain ⟨gs, q', hq', hpub'⟩ := hpub.step hjoined hs
    exact ⟨hjoined.step hs, fs ++ gs, q', run_append_eq_some.mpr ⟨q, hq, hq'⟩, hpub'⟩
  exact hboth.2

end Publishes

/-! ## Order and freshness -/

/-- **A client accepts what its server has accepted, in its order.** In every run of a bar, the policies
that a client has accepted read those of the server in order, and likewise the ad lists. -/
theorem contents_inOrder (x : Setup ι) (es : List (DistEvent ι)) (h : run x.step x.init es = some s)
    (i : ι) (T : Topic) : ReadsInOrder (T.accepted x.server s.server.history)
      (T.accepted (x.client i) (s.clients i).history) := by
  obtain ⟨_, p, _, hpub⟩ := publishes_run (Publishes.init T x) (Joined.init x) h
  rw [← hpub.published]
  exact (hpub.inOrder i).reads_inOrder (hpub.reader i).reads

/-- Of three policies of the server one client reads the first and the third, the other one the second
twice. -/
theorem contents_inOrder_twoClients :
    ∃ s, run sampleSetup.step sampleSetup.init (bothAsk ++ replacedBetween ++ secondRound) = some s ∧
      policiesOf s = [[samplePolicy, lockPolicy, []], [samplePolicy, []], [lockPolicy, lockPolicy]] ∧
      ReadsInOrder [samplePolicy, lockPolicy, []] [samplePolicy, []] ∧
      ReadsInOrder [samplePolicy, lockPolicy, []] [lockPolicy, lockPolicy] := by
  obtain ⟨s, s', hs, hs', -, -, hafter⟩ := twoRounds_accepted
  have hrun : run sampleSetup.step sampleSetup.init (bothAsk ++ replacedBetween ++ secondRound) = some s' :=
    run_append_eq_some.mpr ⟨s, hs, hs'⟩
  have hfalse := contents_inOrder sampleSetup _ hrun false .policy
  have htrue := contents_inOrder sampleSetup _ hrun true .policy
  have hpolicies := hafter
  simp only [policiesOf, List.cons.injEq, and_true] at hafter
  obtain ⟨hserver, haccepted, haccepted'⟩ := hafter
  refine ⟨s', hrun, hpolicies, ?_, ?_⟩
  · rw [← hserver, ← haccepted]
    exact hfalse
  · rw [← hserver, ← haccepted']
    exact htrue

/-- **A client is never given a content that was replaced before it asked.** Of a client that does not wait
for a content in `s`: what it accepts from then on reads, in order, what the server had accepted last in
`s` and what the server has accepted since. -/
theorem contents_fresh (x : Setup ι) (es fs : List (DistEvent ι)) (h : run x.step x.init es = some s)
    (h' : run x.step s fs = some s') (i : ι) (T : Topic)
    (hidle : T.waits (s.clients i).biz.stage = false) :
    ∃ new, T.accepted (x.client i) (s'.clients i).history =
        T.accepted (x.client i) (s.clients i).history ++ new ∧
      ReadsInOrder ((T.accepted x.server s'.server.history).drop
        ((T.accepted x.server s.server.history).length - 1)) new := by
  obtain ⟨_, p, _, hpub⟩ := publishes_run (Publishes.init T x) (Joined.init x) h
  obtain ⟨_, p', hrun, hpub'⟩ := publishes_run hpub (joined_run h) h'
  have hnone : p.asked i = none := by
    rw [← Option.not_isSome_iff_eq_none, (hpub.reader i).asked, hidle]
    decide
  rw [← hpub.published, ← hpub'.published]
  exact Publication.reads_fresh hnone (hpub.inOrder i) hrun (hpub.reader i).reads (hpub'.reader i).reads

/-- After the first replacement the client is given no policy from before it. -/
theorem contents_fresh_twoClients :
    ∃ s s' new, run sampleSetup.step sampleSetup.init (bothAsk ++ replacedBetween) = some s ∧
      run sampleSetup.step s secondRound = some s' ∧
      policiesOf s = [[samplePolicy, lockPolicy], [samplePolicy], [lockPolicy]] ∧
      policiesOf s' = [[samplePolicy, lockPolicy, []], [samplePolicy, []], [lockPolicy] ++ new] ∧
      ReadsInOrder [lockPolicy, []] new := by
  obtain ⟨s, s', hs, hs', hstage, hbefore, hafter⟩ := twoRounds_accepted
  obtain ⟨new, hnew, hreads⟩ :=
    contents_fresh sampleSetup _ secondRound hs hs' true .policy (by rw [hstage]; rfl)
  have hpolicies := hbefore
  simp only [policiesOf, List.cons.injEq, and_true] at hbefore hafter
  obtain ⟨hserver, -, hclient⟩ := hbefore
  obtain ⟨hserver', hother, -⟩ := hafter
  refine ⟨s, s', new, hs, hs', hpolicies, ?_, ?_⟩
  · rw [policiesOf, hserver', hother, ← hclient]
    exact congrArg (fun accepted => [_, _, accepted]) hnew
  · have hserver : Topic.policy.accepted sampleSetup.server s.server.history = [samplePolicy, lockPolicy] :=
      hserver
    have hserver' : Topic.policy.accepted sampleSetup.server s'.server.history =
      [samplePolicy, lockPolicy, []] := hserver'
    rw [hserver, hserver'] at hreads
    exact hreads

end AdManager.Business
