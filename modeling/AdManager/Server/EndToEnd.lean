/-
# AdManager.Server.EndToEnd — from the calls of a client to its futures.

`Served` pairs frames with frames. Here the two ends of the chain are attached to it: the requests that
a client has made in a run, in the order of its calls, and its futures, in the order in which they were
completed.
-/
import AdManager.Server.Served

namespace AdManager.Server

open AdManager.Wire AdManager.Lib AdManager.Session AdManager.Link
open TcpSession (frameOf ctxOf)

variable {ι : Type*} [DecidableEq ι]

/-! ## The requests that a client has made -/

/-- What client `i` has asked for in the events `es`. -/
def asksOf (i : ι) (es : List (BarEvent ι)) : List Ask :=
  es.filterMap fun
    | .ask j a => if j = i then some a else none
    | _ => none

/-- The handlers that the calls for `asked` post; the promises are numbered by the calls. -/
def postsOf (asked : List Ask) : List Post :=
  asked.zipIdx.map fun a => .request a.1.message a.2

/-- The handlers posted at the session `s` are those of the requests `asked`, in order: some have run,
the others have not yet. -/
structure Posted (asked : List Ask) (s : TcpSession) : Prop where
  calls : s.ran ++ s.posts = postsOf asked
  next : s.nextProm = asked.length

theorem framesOf_getElem? {n : UInt32} {ps : List Post} {k : Nat} {f : QueuedFrame}
    (h : (framesOf n ps)[k]? = some f) : ∃ m p, ps[k]? = some p ∧ f = frameOf m p := by
  induction ps generalizing n k with
  | nil => simp [framesOf] at h
  | cons p ps ih =>
      cases k with
      | zero => exact ⟨n, p, rfl, (Option.some.inj h).symm⟩
      | succ k => exact ih h

namespace Posted

variable {asked : List Ask} {s : TcpSession}

theorem init : Posted [] established where
  calls := rfl
  next := rfl

theorem request (h : Posted asked s) (a : Ask) :
    Posted (asked ++ [a]) (s.request a.message) where
  calls := by
    show s.ran ++ (s.posts ++ [.request a.message s.nextProm]) = postsOf (asked ++ [a])
    rw [← List.append_assoc, h.calls, h.next, postsOf, postsOf, List.zipIdx_append, List.map_append]
    simp
  next := by
    show s.nextProm + 1 = _
    rw [h.next, List.length_append, List.length_singleton]

/-- The client's own events and the dispatch of a response make no call. -/
theorem step {parse : Bytes → Option Message} {c c' : Peer} {wire : Bytes} {e : PeerEvent}
    (h : Posted asked c.session) (he : isIo e = true ∨ e = .complete)
    (hs : c.step parse wire e = some c') : Posted asked c'.session := by
  cases e with
  | runPost =>
      obtain ⟨t, ht, rfl⟩ := Option.map_eq_some_iff.mp hs
      obtain ⟨p, ps, hposts, heq, hposts', hran, _⟩ := TcpSession.runPost_spec ht
      have hnext : t.nextProm = c.session.nextProm := by
        cases p with
        | request msg prom => rw [heq, TcpSession.runHandler_request, TcpSession.pushFrame_eq]
        | rspMsg msg ref => rw [heq, TcpSession.runHandler_response _ rfl, TcpSession.pushFrame_eq]
        | rspData msgID data ref =>
            rw [heq, TcpSession.runHandler_response _ rfl, TcpSession.pushFrame_eq]
      refine ⟨?_, hnext.trans h.next⟩
      -- the first posted handler becomes the last one that has run
      show t.ran ++ t.posts = postsOf asked
      rw [hran, hposts', ← h.calls, hposts, List.append_assoc, List.singleton_append]
  | writeSome i n =>
      obtain ⟨t, ht, rfl⟩ := Option.map_eq_some_iff.mp hs
      obtain ⟨_, _, _, _, _, rfl⟩ := TcpSession.writeSome_spec ht
      exact ⟨h.calls, h.next⟩
  | writeDone i =>
      obtain ⟨t, ht, rfl⟩ := Option.map_eq_some_iff.mp hs
      obtain ⟨_, _, _, rfl⟩ := TcpSession.writeDone_spec ht
      rw [TcpSession.writeData_eq]
      exact ⟨h.calls, h.next⟩
  | arrive chunk =>
      simp only [Peer.step] at hs
      split at hs
      · obtain rfl := Option.some.inj hs
        exact h
      · exact absurd hs (by simp)
  | readSome n =>
      obtain ⟨r, _, rfl⟩ := Option.map_eq_some_iff.mp hs
      exact h
  | complete =>
      obtain ⟨⟨r, out⟩, _, rfl⟩ := Option.map_eq_some_iff.mp hs
      cases out with
      | none => exact h
      | some m =>
          show Posted asked (c.session.inbound c.inCount m).1
          rcases c.session.inbound_cases c.inCount m with ⟨_, _, _, _, heq⟩ | ⟨_, heq⟩
          · rw [heq]
            exact ⟨h.calls, h.next⟩
          · rw [heq]
            exact h
  | request msg => simp [isIo] at he
  | answer i rsp => simp [isIo] at he
  | answerData i cached => simp [isIo] at he

/-- The `k`-th frame of a client is that of its `k`-th request, whatever its number. -/
theorem frame_get (h : Posted asked s) (horder : s.queued = framesOf 1 s.ran) {k : Nat}
    {g : QueuedFrame} (hg : s.queued[k]? = some g) :
    ∃ a n, asked[k]? = some a ∧ g = frameOf n (.request a.message k) := by
  rw [horder] at hg
  obtain ⟨n, p, hp, rfl⟩ := framesOf_getElem? hg
  have hcall : (postsOf asked)[k]? = some p := by
    rw [← h.calls]
    exact getElem?_of_prefix (List.prefix_append _ _) hp
  rw [postsOf, List.getElem?_map, List.getElem?_zipIdx, Option.map_map] at hcall
  obtain ⟨a, ha, rfl⟩ := Option.map_eq_some_iff.mp hcall
  exact ⟨a, n, ha, by simp⟩

end Posted

/-- The calls of every client through one event. -/
theorem posted_step {parse : Bytes → Option Message} {b b' : Bar ι} {e : BarEvent ι}
    (hs : barStep parse b e = some b') {es : List (BarEvent ι)}
    (h : ∀ i, Posted (asksOf i es) (b.clients i).session) (i : ι) :
    Posted (asksOf i (es ++ [e])) (b'.clients i).session := by
  have hother : asksOf i [e] = [] → Posted (asksOf i (es ++ [e])) (b.clients i).session := by
    intro hnil
    rw [asksOf, List.filterMap_append]
    exact (congrArg (asksOf i es ++ ·) hnil).trans (List.append_nil _) ▸ h i
  cases e with
  | ask j a =>
      obtain rfl := Option.some.inj hs
      show Posted _ (Function.update b.clients j _ i).session
      by_cases hj : i = j
      · subst hj
        rw [Function.update_self, asksOf, List.filterMap_append]
        have hlast : [BarEvent.ask i a].filterMap (fun
            | .ask j a => if j = i then some a else none
            | _ => none) = [a] := by simp
        rw [hlast]
        exact (h i).request a
      · rw [Function.update_of_ne hj]
        apply hother
        simp [asksOf, Ne.symm hj]
  | client j e =>
      simp only [barStep] at hs
      split at hs
      · next he =>
          obtain ⟨p, hp, rfl⟩ := Option.map_eq_some_iff.mp hs
          have hi := hother (by simp [asksOf])
          show Posted _ (Function.update b.clients j p i).session
          by_cases hj : i = j
          · subst hj
            rw [Function.update_self]
            exact hi.step he hp
          · rw [Function.update_of_ne hj]
            exact hi
      · exact absurd hs (by simp)
  | server j e =>
      simp only [barStep] at hs
      split at hs
      · obtain ⟨p, _, rfl⟩ := Option.map_eq_some_iff.mp hs
        exact hother (by simp [asksOf])
      · exact absurd hs (by simp)
  | serve j =>
      simp only [barStep] at hs
      split at hs
      · obtain ⟨p, _, hs⟩ := Option.bind_eq_some_iff.mp hs
        obtain ⟨out, _, rfl⟩ := Option.map_eq_some_iff.mp hs
        exact hother (by simp [asksOf])
      · exact absurd hs (by simp)
  | reply garbage =>
      obtain ⟨r, _, rfl⟩ := Option.map_eq_some_iff.mp hs
      exact hother (by simp [asksOf])
  | storePolicy content => obtain rfl := Option.some.inj hs; exact hother (by simp [asksOf])
  | storeAdList content => obtain rfl := Option.some.inj hs; exact hother (by simp [asksOf])
  | insertImage id body rehash => obtain rfl := Option.some.inj hs; exact hother (by simp [asksOf])
  | evict idSet => obtain rfl := Option.some.inj hs; exact hother (by simp [asksOf])

/-! ## End to end -/

section EndToEnd

variable (skipField : UInt32 → Bytes → Option Bytes)

/-- **What a client that asked for `asked` gets.** Its futures are completed in the order of its
requests, each once. The `k`-th one holds the message that the client's own session at the server has
queued as the answer to the `k`-th request, with the id that this request was sent with and with its
method. -/
structure AnsweredInTurn (asked : List Ask) (c s : Peer) : Prop where
  order : c.session.completed.map Completion.prom = List.range c.session.completed.length
  answered : ∀ k cpl, c.session.completed[k]? = some cpl → ∃ (a : Ask) (n : UInt32) (f : QueuedFrame),
    asked[k]? = some a ∧ c.session.queued[k]? = some (frameOf n (.request a.message k)) ∧
      s.session.queued[k]? = some f ∧ f.origin = .response k ∧
      parser skipField f.body = some cpl.msg ∧ cpl.msg.id = n.toUInt64.toInt64 ∧
      cpl.msg.method = a.message.method

variable {skipField}

omit [DecidableEq ι] in
/-- A served client is answered in turn. -/
theorem Served.answeredInTurn {c s : Peer} {rp : Option (Reply ι)} (h : Served skipField c s rp)
    {asked : List Ask} (hposted : Posted asked c.session) : AnsweredInTurn skipField asked c s := by
  have hchain : ∀ k cpl, c.session.completed[k]? = some cpl → cpl.prom = k ∧
      ∃ (a : Ask) (n : UInt32) (f : QueuedFrame), asked[k]? = some a ∧
        c.session.queued[k]? = some (frameOf n (.request a.message k)) ∧
        s.session.queued[k]? = some f ∧ f.origin = .response k ∧
        parser skipField f.body = some cpl.msg ∧ cpl.msg.id = n.toUInt64.toInt64 ∧
        cpl.msg.method = a.message.method := by
    intro k cpl hk
    obtain ⟨f, ctx, hf, hr, hctx, hprom, _, hm, hid, hmethod⟩ := h.client.completed k cpl hk
    -- the `k`-th stamped request is that of the `k`-th frame
    obtain ⟨hlt, _⟩ := List.getElem?_eq_some_iff.mp hctx
    rw [h.client.stamped_length] at hlt
    have hg := List.getElem?_eq_getElem hlt
    obtain ⟨a, n, ha, heq⟩ := hposted.frame_get h.up.side.order hg
    rw [heq] at hg
    have hctx' := h.client.stamped_get hg rfl
    obtain rfl : ctx = ctxOf n a.message k := Option.some.inj (hctx.symm.trans hctx')
    exact ⟨hprom, a, n, f, ha, hg, hf, hr, hm, hid, hmethod⟩
  constructor
  · apply List.ext_getElem
    · rw [List.length_map, List.length_range]
    · intro k hk _
      rw [List.length_map] at hk
      rw [List.getElem_map, List.getElem_range]
      exact (hchain k _ (List.getElem?_eq_getElem hk)).1
  · intro k cpl hk
    exact (hchain k cpl hk).2

/-- **End to end**: in every run of any number of clients with their bar server, in which every
response is queued from a position that is still valid, every client is answered in turn. -/
theorem end_to_end (skipField : UInt32 → Bytes → Option Bytes) (es : List (BarEvent ι)) {b : Bar ι}
    (h : run (barStep (parser skipField)) {} es = some b)
    (hC : EveryStep (barStep (parser skipField)) PositionValid {} es) (hsize : AllSized b) (i : ι) :
    AnsweredInTurn skipField (asksOf i es) (b.clients i) (b.sessions i) := by
  have hserved : AllSized b → AllServed skipField b :=
    inv_run_of_everyStep (I := fun b => AllSized b → AllServed skipField b)
      (fun _ => AllServed.init)
      (fun _ _ _ ht hC hs hsize =>
        (ht (AllSized.of_step hs hsize)).step (AllSized.of_step hs hsize) hC hs) h hC
  have hposted : ∀ i, Posted (asksOf i es) (b.clients i).session := by
    refine run_induction (P := fun es b => ∀ i, Posted (asksOf i es) (b.clients i).session) ?_ ?_ h
    · intro i
      exact Posted.init
    · intro es e b b' _ ih hs i
      exact posted_step hs ih i
  exact ((hserved hsize).served i).answeredInTurn (hposted i)

/-- A posted request of client `i`, whose frame is `req`, goes out and is dispatched at the server. -/
def sendRequest (i : ι) (req : Bytes) : List (BarEvent ι) :=
  [.client i .runPost, .client i (.writeSome 0 req.length), .client i (.writeDone 0),
    .server i (.arrive req), .server i (.readSome 4), .serve i,
    .server i (.readSome (req.length - 4)), .serve i]

/-- The posted response to client `i`, whose frame is `rsp`, goes out and is dispatched there. -/
def sendResponse (i : ι) (rsp : Bytes) : List (BarEvent ι) :=
  [.server i .runPost, .server i (.writeSome 0 rsp.length), .server i (.writeDone 0),
    .client i (.arrive rsp), .client i (.readSome 4), .client i .complete,
    .client i (.readSome (rsp.length - 4)), .client i .complete]

/-- The frame of a client's first request. -/
def firstFrame (a : Ask) : Bytes := (frameOf 1 (.request a.message 0)).bytes

/-- Two clients; the file is looked up before the answer to the other client goes out, and its
response is queued after that. -/
def twoClients : List (BarEvent Bool) :=
  [.insertImage 1 [7] false, .ask false .getAdList, .ask true (.getAdFile 1)] ++
  sendRequest false (firstFrame .getAdList) ++ sendRequest true (firstFrame (.getAdFile 1)) ++
  [.storeAdList [9], .insertImage 2 [8] false, .evict [1, 2], .reply []] ++
  sendResponse true [0, 0, 0, 16, 8, 1, 18, 9, 103, 101, 116, 65, 100, 70, 105, 108, 101, 26, 1, 7] ++
  sendResponse false [0, 0, 0, 33, 8, 1, 18, 9, 103, 101, 116, 65, 100, 76, 105, 115, 116, 32, 2, 42,
    16, 65, 100, 76, 105, 115, 116, 32, 110, 111, 116, 32, 101, 120, 105, 115, 116]

theorem end_to_end_twoClients :
    ∃ b, run (barStep (parser fun _ _ => none)) {} twoClients = some b ∧
      (b.clients false).session.completed = [{ prom := 0, source := some 0, msg :=
        { id := 1, method := ascii "getAdList", returnCode := 2,
          returnMsg := ascii "AdList not exist" } }] ∧
      (b.clients true).session.completed = [{ prom := 0, source := some 0, msg :=
        { id := 1, method := ascii "getAdFile", content := [7] } }] ∧
      ∀ i, AnsweredInTurn (fun _ _ => none) (asksOf i twoClients) (b.clients i) (b.sessions i) := by
  have hview : (run (barStep (parser fun _ _ => none)) {} twoClients).map (fun b =>
      ((b.clients false).session.completed, (b.clients true).session.completed,
        decide ((Sized (b.clients false) ∧ Sized (b.sessions false)) ∧
          Sized (b.clients true) ∧ Sized (b.sessions true)))) =
      some ([{ prom := 0, source := some 0, msg :=
        { id := 1, method := ascii "getAdList", returnCode := 2,
          returnMsg := ascii "AdList not exist" } }],
        [{ prom := 0, source := some 0, msg :=
          { id := 1, method := ascii "getAdFile", content := [7] } }], true) := by
    decide +kernel
  obtain ⟨b, hb, hview⟩ := Option.map_eq_some_iff.mp hview
  simp only [Prod.mk.injEq, decide_eq_true_eq] at hview
  obtain ⟨hfalse, htrue, hsized⟩ := hview
  have hsize : AllSized b := Bool.forall_bool.mpr hsized
  exact ⟨b, hb, hfalse, htrue,
    end_to_end (fun _ _ => none) twoClients hb (by decide +kernel) hsize⟩

/-- The file is evicted between its lookup and the response; the position yields an empty string. -/
def evictedFile : List (BarEvent Unit) :=
  [.insertImage 1 [7] false, .ask () (.getAdFile 1)] ++ sendRequest () (firstFrame (.getAdFile 1)) ++
  [.evict [], .reply []] ++ sendResponse () [0, 0, 0, 2, 8, 1]

/-- **An eviction between the lookup and the response.** The client's future is completed with a
message without the method of its request. -/
theorem evicted_file :
    ∃ b, run (barStep (parser fun _ _ => none)) {} evictedFile = some b ∧
      (b.clients ()).session.completed = [{ prom := 0, source := some 0, msg := { id := 1 } }] ∧
      ¬ AnsweredInTurn (fun _ _ => none) (asksOf () evictedFile) (b.clients ()) (b.sessions ()) := by
  have hview : (run (barStep (parser fun _ _ => none)) {} evictedFile).map (fun b =>
      (b.clients ()).session.completed) =
      some [{ prom := 0, source := some 0, msg := { id := 1 } }] := by
    decide +kernel
  obtain ⟨b, hb, hcompleted⟩ := Option.map_eq_some_iff.mp hview
  refine ⟨b, hb, hcompleted, ?_⟩
  intro hturn
  obtain ⟨a, _, _, ha, _, _, _, _, _, hmethod⟩ :=
    hturn.answered 0 { prom := 0, source := some 0, msg := { id := 1 } } (by rw [hcompleted]; rfl)
  obtain rfl : Ask.getAdFile 1 = a := Option.some.inj ha
  revert hmethod
  decide +kernel

end EndToEnd

end AdManager.Server
