/-
# AdManager.Business.DownloadPass — a whole run of `downloadAds`.

Four loops have to agree on one set: the ids that the policy names and whose ad has download paths. The
first loop collects it, in the order of a `std::set<int32>` and so without repetitions; the second part
evicts by it, through the unsigned keys of the cache; the third calls `downloadAd` for what is missing,
and the fourth looks at it again to decide about the retry. The third one takes as long as its downloads
do. What makes its turns independent is that a download writes under its own id only, so an id that is
still to be looked at is cached exactly if it was at the start. Which ids `downloadAd` is called for is
recorded by `downloadAd` itself; `calls` foretells it (`step_downloadCalls`).
-/
import AdManager.Business.Coherence
import AdManager.Business.DownloadAd
import AdManager.Business.Retries

namespace AdManager.Business

open AdManager.Wire AdManager.Lib AdManager.Server

/-! ## The set of ids -/

theorem setInsert_nodup {α : Type*} [LE α] [DecidableLE α] [DecidableEq α] {l : List α} (h : l.Nodup)
    (a : α) : (setInsert l a).Nodup := by
  unfold setInsert
  split
  · exact h
  · next ha => exact (List.perm_orderedInsert (· ≤ ·) a l).nodup_iff.mpr (List.nodup_cons.mpr ⟨ha, h⟩)

namespace AdManagerImpl

theorem foldl_collect_nodup (ids : List Int32) {acc : PMap UInt32 Ad × List Int32} (h : acc.2.Nodup) :
    (ids.foldl collect acc).2.Nodup := by
  induction ids generalizing acc with
  | nil => exact h
  | cons id ids ih =>
      apply ih
      simp only [collect]
      split
      · exact setInsert_nodup h id
      · exact h

variable (s : AdManagerImpl)

/-- No id is collected twice. -/
theorem beginPass_nodup : s.beginPass.2.Nodup := foldl_collect_nodup s.policy.ids List.nodup_nil

/-- The keys of the ids collected are those of the files needed. -/
theorem needs_iff (k : UInt32) :
    Needs s.policy s.mapAd k ↔ ∃ id ∈ s.beginPass.2, id.toUInt32 = k := by
  constructor
  · rintro ⟨id, hid, rfl, ad, htable, hpaths⟩
    exact ⟨id, (s.mem_beginPass id).mpr ⟨hid, ad, htable, hpaths⟩, rfl⟩
  · rintro ⟨id, hid, rfl⟩
    obtain ⟨hid, ad, htable, hpaths⟩ := (s.mem_beginPass id).mp hid
    exact ⟨id, hid, rfl, ad, htable, hpaths⟩

/-- An id collected is cached after the eviction exactly if it was before. -/
theorem beginPass_cached {id : Int32} (hid : id ∈ s.beginPass.2) :
    s.beginPass.1.cached id = s.cached id := by
  rw [Bool.eq_iff_iff, cached, cached, Cache.contains_iff, Cache.contains_iff]
  constructor
  · rintro ⟨n, hn, hkey⟩
    rw [beginPass_eq] at hn
    exact ⟨n, (List.mem_filter.mp hn).1, hkey⟩
  · rintro ⟨n, hn, hkey⟩
    exact ⟨n, beginPass_keeps hn ((s.needs_iff n.id).mpr ⟨id, hid, hkey.symm⟩), hkey⟩

end AdManagerImpl

/-! ## Calls of `downloadAd` -/

namespace ThreadBiz

/-- The id for which the event calls `downloadAd`: the next one of the pass, if it is not cached. -/
def calls (b : ThreadBiz) : BizEvent → Option UInt32
  | .next =>
      match b.stage with
      | .download p =>
          match p.todo with
          | [] => none
          | id :: _ => if b.impl.cached id then none else some id.toUInt32
      | _ => none
  | _ => none

/-- The calls of `downloadAd` in a run, in order. -/
def attempts (x : Environment) (b : ThreadBiz) (es : List BizEvent) : List UInt32 :=
  observe (step x) calls b es

variable {x : Environment} {b b' : ThreadBiz}

theorem requestAdList_downloadCalls (b : ThreadBiz) (root : Timer) :
    (b.requestAdList root).downloadCalls = b.downloadCalls := by
  unfold requestAdList
  split <;> rfl

theorem requestAdPlayPolicy_downloadCalls (x : Environment) (b : ThreadBiz) :
    (b.requestAdPlayPolicy x).downloadCalls = b.downloadCalls := by
  unfold requestAdPlayPolicy
  split <;> rfl

theorem downloadAds_downloadCalls (b : ThreadBiz) (root : Timer) :
    (b.downloadAds root).downloadCalls = b.downloadCalls := by
  unfold downloadAds
  split <;> rfl

theorem handler_downloadCalls (x : Environment) (b : ThreadBiz) (t : Timer) :
    (b.handler x t).downloadCalls = b.downloadCalls := by
  cases t with
  | policy => exact requestAdPlayPolicy_downloadCalls x b
  | adList => exact requestAdList_downloadCalls b .adList
  | download => exact downloadAds_downloadCalls b .download

theorem policyAnswered_downloadCalls (x : Environment) (b : ThreadBiz) (rsp : Message) :
    (b.policyAnswered x rsp).downloadCalls = b.downloadCalls := by
  unfold policyAnswered
  simp only
  split
  · exact requestAdList_downloadCalls _ .policy
  · rfl

theorem adListAnswered_downloadCalls (x : Environment) (b : ThreadBiz) (root : Timer) (rsp : Message) :
    (b.adListAnswered x root rsp).downloadCalls = b.downloadCalls := by
  unfold adListAnswered
  split
  · exact downloadAds_downloadCalls _ root
  · rfl

theorem fetchEnded_downloadCalls (x : Environment) (b : ThreadBiz) (id : UInt32) (ad : Ad)
    (urls : List Bytes) (p : Pass) (f : Fetched) (rehash : Bool) :
    (b.fetchEnded x id ad urls p f rehash).downloadCalls = b.downloadCalls := by
  obtain ⟨cache, out, stage, _, hended⟩ := b.fetchEnded_movesOn x id ad urls p f rehash
  rw [hended]
  exact List.append_nil _

theorem nextAd_downloadCalls {p : Pass} (h : b.stage = .download p) :
    (b.nextAd p).downloadCalls = b.downloadCalls ++ (b.calls .next).toList := by
  cases htodo : p.todo with
  | nil =>
      simp only [nextAd, endPass, calls, h, htodo, Option.toList_none, List.append_nil]
      split <;> rfl
  | cons id todo =>
      obtain ⟨out, stage, _, hnext⟩ := b.nextAd_movesOn htodo
      simp only [hnext, calls, h, htodo]
      split <;> rfl

/-- **`calls` tells what `downloadAd` records**, at every event. -/
theorem step_downloadCalls {e : BizEvent} (hs : step x b e = some b') :
    b'.downloadCalls = b.downloadCalls ++ (b.calls e).toList := by
  have hquiet : ∀ e' : BizEvent, e' ≠ .next → b.calls e' = none := by
    intro e' hnext
    cases e' with
    | next => exact absurd rfl hnext
    | _ => rfl
  cases bizStep hs with
  | next p hstage => exact nextAd_downloadCalls hstage
  | runHandler f l hstage hl =>
      rw [hquiet _ (by simp), Option.toList_none, List.append_nil, handler_downloadCalls]
  | connected hstage =>
      rw [hquiet _ (by simp), Option.toList_none, List.append_nil, requestAdPlayPolicy_downloadCalls]
  | policyAnswer rsp hstage =>
      rw [hquiet _ (by simp), Option.toList_none, List.append_nil, policyAnswered_downloadCalls]
  | adListAnswer rsp root hstage =>
      rw [hquiet _ (by simp), Option.toList_none, List.append_nil, adListAnswered_downloadCalls]
  | fetchEnded f rehash id ad urls p hstage =>
      rw [hquiet _ (by simp), Option.toList_none, List.append_nil, fetchEnded_downloadCalls]
  | _ => exact (List.append_nil _).symm

end ThreadBiz

/-- The id whose file the thread waits for. -/
def Stage.current? : Stage → Option UInt32
  | .fetch id _ _ _ => some id
  | .file id _ _ => some id
  | _ => none

/-- A stage of the pass `p` at which the thread waits for no file but that of `id`. -/
structure Stage.At (p : Pass) (id : UInt32) (stage : Stage) : Prop where
  pass : stage.pass? = some p
  current : ∀ k ∈ stage.current?, k = id

section Turn

variable {b : ThreadBiz} {p : Pass} {id : UInt32}

theorem Stage.At.download (p : Pass) (id : UInt32) : (Stage.download p).At p id :=
  ⟨rfl, by simp [Stage.current?]⟩

theorem fetchFrom_at (b : ThreadBiz) (id : UInt32) (ad : Ad) (p : Pass) (urls : List Bytes) :
    (b.fetchFrom id ad p urls).stage.At p id := by
  cases urls with
  | nil => exact .download p id
  | cons url urls => exact ⟨rfl, by simp [ThreadBiz.fetchFrom, ThreadBiz.await, Stage.current?]⟩

theorem downloadAd_at (b : ThreadBiz) (id : UInt32) (p : Pass) : (b.downloadAd id p).stage.At p id := by
  simp only [ThreadBiz.downloadAd]
  split
  · exact .download p id
  · next ad _ =>
      split
      · exact .download p id
      · split
        · exact fetchFrom_at _ id ad p ad.download
        · exact ⟨rfl, by simp [ThreadBiz.await, Stage.current?]⟩

/-- A turn of the second loop goes on with the rest. -/
theorem nextAd_at {todo : List Int32} {i : Int32} (h : p.todo = i :: todo) :
    (b.nextAd p).stage.At { p with todo := todo } i.toUInt32 := by
  simp only [ThreadBiz.nextAd, h]
  split
  · exact .download _ _
  · exact downloadAd_at b i.toUInt32 _

theorem fetchEnded_at (x : Environment) (b : ThreadBiz) (id : UInt32) (ad : Ad) (urls : List Bytes)
    (p : Pass) (f : Fetched) (rehash : Bool) :
    (b.fetchEnded x id ad urls p f rehash).stage.At p id := by
  cases hf : x.goodBody ad f with
  | some body =>
      rw [fetchEnded_good hf]
      exact .download p id
  | none =>
      rw [fetchEnded_bad hf]
      exact fetchFrom_at b id ad p urls

end Turn

/-- From `t` to `t'` the timers are untouched, and at most a file of `id` has been cached. -/
structure CachesOnly (t : ThreadBiz) (id : UInt32) (t' : ThreadBiz) : Prop where
  kept : ∀ n ∈ t.impl.cache.bufImages, n ∈ t'.impl.cache.bufImages
  added : ∀ n ∈ t'.impl.cache.bufImages, n ∈ t.impl.cache.bufImages ∨ n.id = id
  loop : t'.loop = t.loop

theorem CachesOnly.of_insert {t t' : ThreadBiz} {id : UInt32} {data : Bytes} {rehash : Bool}
    (hcache : t'.impl.cache = t.impl.cache.insert id data rehash) (hloop : t'.loop = t.loop) :
    CachesOnly t id t' where
  kept := by
    rw [hcache]
    exact fun n hn => Cache.mem_insert_of_mem hn id data rehash
  added := by
    rw [hcache]
    exact fun n hn => (Cache.mem_insert hn).imp_right And.left
  loop := hloop

theorem CachesOnly.of_same {t t' : ThreadBiz} {id : UInt32} (hcache : t'.impl.cache = t.impl.cache)
    (hloop : t'.loop = t.loop) : CachesOnly t id t' where
  kept := by
    rw [hcache]
    exact fun n hn => hn
  added := by
    rw [hcache]
    exact fun n hn => Or.inl hn
  loop := hloop

theorem fetchEnded_cachesOnly (x : Environment) (t : ThreadBiz) (id : UInt32) (ad : Ad)
    (urls : List Bytes) (p : Pass) (f : Fetched) (rehash : Bool) :
    CachesOnly t id (t.fetchEnded x id ad urls p f rehash) := by
  cases hf : x.goodBody ad f with
  | some body =>
      rw [fetchEnded_good hf]
      exact .of_insert rfl rfl
  | none =>
      rw [fetchEnded_bad hf]
      obtain ⟨out, stage, _, hfrom⟩ := t.fetchFrom_movesOn id ad p urls
      rw [hfrom]
      exact .of_same rfl rfl

theorem fileReceived_cachesOnly (x : Environment) (t : ThreadBiz) (id : UInt32) (ad : Ad) (p : Pass)
    (rsp : Message) (rehash : Bool) :
    CachesOnly t id { t with impl := t.impl.fileReceived x ad id rsp rehash, stage := .download p } := by
  by_cases hgood : rsp.returnCode = 0 ∧ x.verified ad rsp.content = true
  · rw [t.impl.fileReceived_verified hgood]
    exact .of_insert rfl rfl
  · rw [t.impl.fileReceived_refused hgood]
    exact .of_same rfl rfl

/-! ## The property -/

/-- From `l` to `l'` the download timer has been armed, once, and for five minutes. -/
structure Armed (l l' : TimerLoop Timer) : Prop where
  once : l'.outstanding .download = l.outstanding .download + 1
  wait : l'.waits .download = [{ since := l'.now, delay := minutes 5 }]

/-- From `l` to `l'` the download timer has not been armed. -/
structure NotArmed (l l' : TimerLoop Timer) : Prop where
  none : l'.outstanding .download = l.outstanding .download
  expiry : l'.expiry .download = l.expiry .download

/-- **What `downloadAds` has done**, called in the state `b`, when it returns in the state `t` after the
calls of `downloadAd` in `calls`. The files needed are those for which `Needs` holds at the start. -/
structure PassDone (b : ThreadBiz) (calls : List UInt32) (t : ThreadBiz) : Prop where
  record : t.downloadCalls = b.downloadCalls ++ calls
  keys : ∀ n ∈ t.impl.cache.bufImages, Needs b.impl.policy b.impl.mapAd n.id
  kept : ∀ n ∈ b.impl.cache.bufImages, Needs b.impl.policy b.impl.mapAd n.id →
    n ∈ t.impl.cache.bufImages
  once : calls.Nodup
  attempted : ∀ k, k ∈ calls ↔
    Needs b.impl.policy b.impl.mapAd k ∧ b.impl.cache.contains k = false
  armed : Armed b.loop t.loop ↔
    ∃ k, Needs b.impl.policy b.impl.mapAd k ∧ t.impl.cache.contains k = false
  notArmed : NotArmed b.loop t.loop ↔
    ∀ k, Needs b.impl.policy b.impl.mapAd k → t.impl.cache.contains k = true

/-! ## The invariant of the second loop -/

/-- **The second loop is at the pass `p`**, after the ids in `seen` and the calls in `calls`. -/
structure Passing (b : ThreadBiz) (p : Pass) (seen : List Int32) (calls : List UInt32)
    (t : ThreadBiz) : Prop where
  stage : t.stage.pass? = some p
  idSet : p.idSet = b.impl.beginPass.2
  turns : b.impl.beginPass.2 = seen ++ p.todo
  record : t.downloadCalls = b.downloadCalls ++ calls
  calls : calls = (seen.filter fun id => !b.impl.cached id).map Int32.toUInt32
  current : ∀ k ∈ t.stage.current?, ∃ id ∈ seen, id.toUInt32 = k
  kept : ∀ n ∈ b.impl.beginPass.1.cache.bufImages, n ∈ t.impl.cache.bufImages
  added : ∀ n ∈ t.impl.cache.bufImages,
    n ∈ b.impl.beginPass.1.cache.bufImages ∨ ∃ id ∈ seen, id.toUInt32 = n.id
  timer : NotArmed b.loop t.loop

namespace Passing

variable {x : Environment} {b t t' : ThreadBiz} {p q : Pass} {seen : List Int32} {calls : List UInt32}
  {e : BizEvent}

theorem start (hend : b.impl.isEndBusiness = false) (root : Timer) :
    Passing b { idSet := b.impl.beginPass.2, todo := b.impl.beginPass.2, root := root } [] []
      (b.downloadAds root) := by
  unfold ThreadBiz.downloadAds
  rw [if_neg (by simp [hend])]
  exact ⟨rfl, rfl, rfl, (List.append_nil _).symm, rfl, by simp [Stage.current?], fun _ hn => hn,
    fun _ hn => Or.inl hn, ⟨rfl, rfl⟩⟩

/-- An id that is still to be looked at is cached exactly if it was at the start. -/
theorem cached_eq (h : Passing b p seen calls t) {id : Int32} (hid : id ∈ p.todo) :
    t.impl.cached id = b.impl.cached id := by
  have hmem : id ∈ b.impl.beginPass.2 := by
    rw [h.turns]
    exact List.mem_append_right _ hid
  rw [← b.impl.beginPass_cached hmem, Bool.eq_iff_iff, AdManagerImpl.cached, AdManagerImpl.cached,
    Cache.contains_iff, Cache.contains_iff]
  constructor
  · rintro ⟨n, hn, hkey⟩
    rcases h.added n hn with hn | ⟨i, hi, hikey⟩
    · exact ⟨n, hn, hkey⟩
    · -- a file that was added is that of another id, and so under another key
      have hnodup := b.impl.beginPass_nodup
      rw [h.turns] at hnodup
      obtain rfl : i = id := toUInt32_injective (hikey.trans hkey)
      exact absurd rfl ((List.nodup_append.mp hnodup).2.2 i hi i hid)
  · rintro ⟨n, hn, hkey⟩
    exact ⟨n, h.kept n hn, hkey⟩

/-- The end of a wait. -/
theorem file {id : UInt32} (h : Passing b p seen calls t) (hcurrent : id ∈ t.stage.current?)
    (hat : t'.stage.At p id) (hcalls : t'.downloadCalls = t.downloadCalls)
    (hfile : CachesOnly t id t') : Passing b p seen calls t' where
  stage := hat.pass
  idSet := h.idSet
  turns := h.turns
  record := hcalls.trans h.record
  calls := h.calls
  current := by
    intro k hk
    rw [hat.current k hk]
    exact h.current id hcurrent
  kept := fun n hn => hfile.kept n (h.kept n hn)
  added := by
    intro n hn
    rcases hfile.added n hn with hn | hid
    · exact h.added n hn
    · rw [hid]
      exact Or.inr (h.current id hcurrent)
  timer := by
    rw [hfile.loop]
    exact h.timer

/-- A turn of the second loop. -/
theorem turn (h : Passing b p seen calls t) {id : Int32} {todo : List Int32}
    (htodo : p.todo = id :: todo) (hstage : t.stage = .download p) :
    Passing b { p with todo := todo } (seen ++ [id]) (calls ++ (t.calls .next).toList) (t.nextAd p) := by
  have hat := nextAd_at (b := t) htodo
  have hrecord := ThreadBiz.nextAd_downloadCalls hstage
  obtain ⟨out, stage, _, hnext⟩ := t.nextAd_movesOn htodo
  rw [hnext] at hat hrecord ⊢
  refine ⟨hat.pass, h.idSet, ?_, ?_, ?_, ?_, h.kept, ?_, h.timer⟩
  · rw [h.turns, htodo, List.append_assoc, List.singleton_append]
  · rw [hrecord, h.record, List.append_assoc]
  · have hcached : t.impl.cached id = b.impl.cached id := h.cached_eq (by simp [htodo])
    simp only [ThreadBiz.calls, hstage, htodo, hcached, h.calls, List.filter_append, List.map_append]
    cases hid : b.impl.cached id <;> simp [hid]
  · intro k hk
    exact ⟨id, by simp, (hat.current k hk).symm⟩
  · intro n hn
    rcases h.added n hn with hn | ⟨i, hi, hkey⟩
    · exact Or.inl hn
    · exact Or.inr ⟨i, List.mem_append_left _ hi, hkey⟩

theorem step (h : Passing b p seen calls t) (hend : t.endsPass e = false)
    (hs : Business.step x t e = some t') :
    ∃ p' seen', Passing b p' seen' (calls ++ (t.calls e).toList) t' := by
  have hquiet : e ≠ .next → t.calls e = none := by
    intro hnext
    cases e with
    | next => exact absurd rfl hnext
    | _ => rfl
  cases passStep h.stage hs with
  | outside e l ended hnext _ _ hwaits hexpiry =>
      rw [hquiet hnext, Option.toList_none, List.append_nil]
      refine ⟨p, seen, h.stage, h.idSet, h.turns, h.record, h.calls, h.current, h.kept, h.added, ?_, ?_⟩
      · exact (hwaits .download).trans h.timer.none
      · exact (congrFun hexpiry .download).trans h.timer.expiry
  | next q hstage =>
      obtain rfl : q = p := by simpa [hstage, Stage.pass?] using h.stage
      cases htodo : q.todo with
      | nil => exact absurd hend (by simp [ThreadBiz.endsPass, hstage, htodo])
      | cons id todo => exact ⟨_, _, h.turn htodo hstage⟩
  | fetched f rehash id ad urls q hstage =>
      obtain rfl : q = p := by simpa [hstage, Stage.pass?] using h.stage
      rw [hquiet (by simp), Option.toList_none, List.append_nil]
      exact ⟨q, seen, h.file (by simp [hstage, Stage.current?])
        (fetchEnded_at x t id ad urls q f rehash)
        (ThreadBiz.fetchEnded_downloadCalls x t id ad urls q f rehash)
        (fetchEnded_cachesOnly x t id ad urls q f rehash)⟩
  | file rsp rehash id ad q hstage =>
      obtain rfl : q = p := by simpa [hstage, Stage.pass?] using h.stage
      rw [hquiet (by simp), Option.toList_none, List.append_nil]
      exact ⟨q, seen, h.file (by simp [hstage, Stage.current?]) (.download q id) rfl
        (fileReceived_cachesOnly x t id ad q rsp rehash)⟩

end Passing

/-! ## The end of a pass -/

theorem Armed.not_notArmed {l l' : TimerLoop Timer} (h : Armed l l') : ¬ NotArmed l l' := by
  intro hnot
  have honce := h.once
  rw [hnot.none] at honce
  omega

/-- Returning to the caller does not arm the download timer. -/
theorem finish_notArmed (t : ThreadBiz) (root : Timer) : NotArmed t.loop (t.finish root).loop := by
  show NotArmed t.loop (if root = .policy then t.loop.asyncWait .policy else t.loop)
  split
  · refine ⟨?_, rfl⟩
    rw [TimerLoop.outstanding_asyncWait, if_neg (by decide), Nat.add_zero]
  · exact ⟨rfl, rfl⟩

theorem arm_finish_armed (t : ThreadBiz) (root : Timer) :
    Armed t.loop ((t.arm .download (minutes 5)).finish root).loop where
  once := outstanding_arm_finish t (by decide)
  wait := by
    have harm : (t.arm .download (minutes 5)).loop.waits .download =
        [{ since := t.loop.now, delay := minutes 5 }] := by
      simp [ThreadBiz.arm, TimerLoop.expiresFromNow, TimerLoop.asyncWait]
    simp only [ThreadBiz.finish]
    split
    · exact harm
    · exact harm

theorem NotArmed.armed {l l' l'' : TimerLoop Timer} (h : NotArmed l l') (h' : Armed l' l'') :
    Armed l l'' where
  once := by rw [h'.once, h.none]
  wait := h'.wait

theorem NotArmed.trans {l l' l'' : TimerLoop Timer} (h : NotArmed l l') (h' : NotArmed l' l'') :
    NotArmed l l'' where
  none := h'.none.trans h.none
  expiry := h'.expiry.trans h.expiry

namespace Passing

variable {x : Environment} {b t t' : ThreadBiz} {p : Pass} {seen : List Int32} {calls : List UInt32}

/-- Every id collected has had its turn. -/
theorem seen_eq (h : Passing b p seen calls t) (htodo : p.todo = []) : seen = b.impl.beginPass.2 := by
  rw [h.turns, htodo, List.append_nil]

theorem keys (h : Passing b p seen calls t) {n : ImageNode} (hn : n ∈ t.impl.cache.bufImages) :
    Needs b.impl.policy b.impl.mapAd n.id := by
  rw [b.impl.needs_iff]
  rcases h.added n hn with hn | ⟨id, hid, hkey⟩
  · -- what the eviction has left
    rw [AdManagerImpl.beginPass_eq] at hn
    have hkept := (List.mem_filter.mp hn).2
    rw [decide_eq_true_eq, List.mem_map] at hkept
    exact hkept
  · refine ⟨id, ?_, hkey⟩
    rw [h.turns]
    exact List.mem_append_left _ hid

theorem calls_nodup (h : Passing b p seen calls t) : calls.Nodup := by
  have hnodup := b.impl.beginPass_nodup
  rw [h.turns] at hnodup
  rw [h.calls]
  exact ((List.nodup_append.mp hnodup).1.filter _).map toUInt32_injective

theorem mem_calls (h : Passing b p seen calls t) (htodo : p.todo = []) (k : UInt32) :
    k ∈ calls ↔ Needs b.impl.policy b.impl.mapAd k ∧ b.impl.cache.contains k = false := by
  rw [h.calls, h.seen_eq htodo, b.impl.needs_iff, List.mem_map]
  constructor
  · rintro ⟨id, hid, rfl⟩
    obtain ⟨hid, hmissing⟩ := List.mem_filter.mp hid
    exact ⟨⟨id, hid, rfl⟩, by simpa [AdManagerImpl.cached] using hmissing⟩
  · rintro ⟨⟨id, hid, rfl⟩, hmissing⟩
    exact ⟨id, List.mem_filter.mpr ⟨hid, by simpa [AdManagerImpl.cached] using hmissing⟩, rfl⟩

/-- The fourth loop finds no file missing exactly if all that are needed are cached. -/
theorem all_cached_iff (h : Passing b p seen calls t) : p.idSet.all t.impl.cached = true ↔
    ∀ k, Needs b.impl.policy b.impl.mapAd k → t.impl.cache.contains k = true := by
  rw [h.idSet, List.all_eq_true]
  constructor
  · intro hall k hk
    obtain ⟨id, hid, rfl⟩ := (b.impl.needs_iff k).mp hk
    exact hall id hid
  · intro hall id hid
    exact hall id.toUInt32 ((b.impl.needs_iff _).mpr ⟨id, hid, rfl⟩)

theorem done (h : Passing b p seen calls t) (htodo : p.todo = []) : PassDone b calls (t.nextAd p) := by
  have hall := h.all_cached_iff
  have hmisses : p.idSet.all t.impl.cached = false ↔
      ∃ k, Needs b.impl.policy b.impl.mapAd k ∧ t.impl.cache.contains k = false := by
    rw [← Bool.not_eq_true, hall]
    simp only [not_forall, Bool.not_eq_true, exists_prop]
  have hend : t.nextAd p = t.endPass p := by simp only [ThreadBiz.nextAd, htodo]
  have hloop : (p.idSet.all t.impl.cached = true ∧ NotArmed b.loop (t.nextAd p).loop) ∨
      (p.idSet.all t.impl.cached = false ∧ Armed b.loop (t.nextAd p).loop) := by
    rw [hend, ThreadBiz.endPass]
    cases hcached : p.idSet.all t.impl.cached with
    | true => exact Or.inl ⟨rfl, h.timer.trans (finish_notArmed t p.root)⟩
    | false => exact Or.inr ⟨rfl, h.timer.armed (arm_finish_armed t p.root)⟩
  have himpl : (t.nextAd p).impl = t.impl := (t.nextAd_data p).impl
  refine ⟨?_, ?_, ?_, h.calls_nodup, h.mem_calls htodo, ?_, ?_⟩
  · rw [hend, ThreadBiz.endPass]
    split <;> exact h.record
  · rw [himpl]
    exact fun n hn => h.keys hn
  · rw [himpl]
    exact fun n hn hneeds => h.kept n (beginPass_keeps hn hneeds)
  · rw [himpl, ← hmisses]
    rcases hloop with ⟨hcached, hnot⟩ | ⟨hcached, harmed⟩
    · rw [hcached]
      exact ⟨fun harmed => absurd hnot harmed.not_notArmed, fun hfalse => absurd hfalse (by decide)⟩
    · exact iff_of_true harmed hcached
  · rw [himpl, ← hall]
    rcases hloop with ⟨hcached, hnot⟩ | ⟨hcached, harmed⟩
    · exact iff_of_true hnot hcached
    · rw [hcached]
      exact ⟨fun hnot => absurd hnot harmed.not_notArmed, fun hfalse => absurd hfalse (by decide)⟩

end Passing

/-- Once a pass is over, no event but the next handler begins one. -/
theorem resting_step {x : Environment} {t t' : ThreadBiz} {e : BizEvent}
    (h : t.stage = .idle ∨ t.stage = .ad) (he : e ≠ .runHandler) (hs : step x t e = some t') :
    t'.stage = .idle ∨ t'.stage = .ad := by
  have hno : ∀ stage, t.stage = stage → stage ≠ .idle → stage ≠ .ad → t'.stage = .idle ∨ t'.stage = .ad := by
    intro stage hstage hidle had
    rcases h with h | h
    · exact absurd (hstage.symm.trans h) hidle
    · exact absurd (hstage.symm.trans h) had
  cases bizStep hs with
  | tick n => exact h
  | fire u l hl => exact h
  | runHandler f l hstage hl => exact absurd rfl he
  | connected hstage => exact hno _ hstage (by simp) (by simp)
  | policyAnswer rsp hstage => exact hno _ hstage (by simp) (by simp)
  | adListAnswer rsp root hstage => exact hno _ hstage (by simp) (by simp)
  | next p hstage => exact hno _ hstage (by simp) (by simp)
  | fetchEnded f rehash id ad urls p hstage => exact hno _ hstage (by simp) (by simp)
  | fileAnswer rsp rehash id ad p hstage => exact hno _ hstage (by simp) (by simp)
  | requestAd adId hstage => exact Or.inr rfl
  | adReceived rsp ad hstage hrec => exact Or.inl rfl
  | adRefused rsp hstage hrec => exact Or.inl rfl
  | endBusiness => exact h

/-- The event ends a pass in the state `t`. -/
theorem endsPass_iff {t : ThreadBiz} {e : BizEvent} :
    t.endsPass e = true ↔ e = .next ∧ ∃ p, t.stage = .download p ∧ p.todo = [] := by
  unfold ThreadBiz.endsPass
  split
  · split
    · next p hstage => simp [hstage, List.isEmpty_iff]
    · next hstage => simpa using fun p hp => absurd hp (hstage p)
  · next he => simpa using fun h => absurd h he

/-- Between the start of a pass and the next handler, the thread is in the pass or has ended it. -/
theorem pass_run {x : Environment} {b t : ThreadBiz} {root : Timer} {es : List BizEvent}
    (hend : b.impl.isEndBusiness = false) (hes : .runHandler ∉ es)
    (h : run (step x) (b.downloadAds root) es = some t) :
    (∃ p seen, Passing b p seen ((b.downloadAds root).attempts x es) t) ∨
      (t.stage = .idle ∨ t.stage = .ad) := by
  refine run_induction (P := fun es t => .runHandler ∉ es →
    (∃ p seen, Passing b p seen ((b.downloadAds root).attempts x es) t) ∨
      (t.stage = .idle ∨ t.stage = .ad)) (fun _ => Or.inl ⟨_, [], .start hend root⟩) ?_ h hes
  intro es e t t' ht ih hs hes
  obtain ⟨hbefore, he⟩ := not_mem_concat hes
  rcases ih hbefore with ⟨p, seen, hpassing⟩ | hresting
  · cases hlast : t.endsPass e with
    | true =>
        -- the pass returns to its caller
        obtain ⟨rfl, q, hstage, htodo⟩ := endsPass_iff.mp hlast
        simp only [step, hstage, ThreadBiz.nextAd, htodo, ThreadBiz.endPass] at hs
        obtain rfl := Option.some.inj hs
        right; left
        split <;> rfl
    | false =>
        obtain ⟨p', seen', hpassing'⟩ := hpassing.step hlast hs
        refine Or.inl ⟨p', seen', ?_⟩
        rw [ThreadBiz.attempts, observe_concat ht hs]
        exact hpassing'
  · exact Or.inr (resting_step hresting he hs)

/-! ## It returns -/

/-- The event is a turn of the second loop, or the end of what `downloadAd` waits for. -/
def BizEvent.isTurn (e : BizEvent) : Bool := e == .next || (e.fetched?.isSome || e.file?.isSome)

/-- The waits that the ids in `todo` can lead to, and their turns. -/
def turnsFor (m : PMap UInt32 Ad) (todo : List Int32) : Nat :=
  (todo.map fun id => ((m id.toUInt32).getD {}).download.length + 1).sum

/-- The turns and waits that are left of a pass. -/
def ThreadBiz.turnsLeft (t : ThreadBiz) : Nat :=
  match t.stage with
  | .download p => turnsFor t.impl.mapAd p.todo
  | .fetch _ _ urls p => urls.length + 1 + turnsFor t.impl.mapAd p.todo
  | .file _ _ p => 1 + turnsFor t.impl.mapAd p.todo
  | _ => 0

section Returns

variable {x : Environment} {t t' : ThreadBiz} {p : Pass} {id : UInt32} {ad : Ad} {e : BizEvent}

theorem fetchFrom_turnsLeft (t : ThreadBiz) (id : UInt32) (ad : Ad) (p : Pass) (urls : List Bytes) :
    (t.fetchFrom id ad p urls).turnsLeft = urls.length + turnsFor t.impl.mapAd p.todo := by
  cases urls with
  | nil => exact (Nat.zero_add _).symm
  | cons url urls => rfl

theorem downloadAd_turnsLeft (t : ThreadBiz) (id : UInt32) (p : Pass) :
    (t.downloadAd id p).turnsLeft ≤
      ((t.impl.mapAd id).getD {}).download.length + turnsFor t.impl.mapAd p.todo := by
  simp only [ThreadBiz.downloadAd]
  split
  · exact Nat.le_add_left _ _
  · next ad htable =>
      rw [htable, Option.getD_some]
      split
      · exact Nat.le_add_left _ _
      · next hpaths =>
          split
          · exact (fetchFrom_turnsLeft _ id ad p ad.download).le
          · exact Nat.add_le_add_right (List.length_pos_of_ne_nil hpaths) _

/-- Every turn, and every end of a wait, leaves less to do. -/
theorem turn_decreases (hturn : e.isTurn = true) (hend : t.endsPass e = false)
    (h : PassStep x t e t') : t'.turnsLeft < t.turnsLeft := by
  cases h with
  | outside e l ended hnext hfetched hfile _ _ =>
      simp [BizEvent.isTurn, hnext, hfetched, hfile] at hturn
  | next p hstage =>
      cases htodo : p.todo with
      | nil => exact absurd hend (by simp [ThreadBiz.endsPass, hstage, htodo])
      | cons id todo =>
          have hleft : t.turnsLeft = ((t.impl.mapAd id.toUInt32).getD {}).download.length + 1 +
              turnsFor t.impl.mapAd todo := by
            simp [ThreadBiz.turnsLeft, hstage, htodo, turnsFor]
          rw [hleft]
          simp only [ThreadBiz.nextAd, htodo]
          split
          · show turnsFor t.impl.mapAd todo < _
            omega
          · have hcall := downloadAd_turnsLeft t id.toUInt32 { p with todo := todo }
            simp only at hcall
            omega
  | fetched f rehash id ad urls p hstage =>
      have hleft : t.turnsLeft = urls.length + 1 + turnsFor t.impl.mapAd p.todo := by
        simp only [ThreadBiz.turnsLeft, hstage]
      rw [hleft]
      cases hf : x.goodBody ad f with
      | some body =>
          rw [fetchEnded_good hf]
          show turnsFor t.impl.mapAd p.todo < _
          omega
      | none =>
          rw [fetchEnded_bad hf, fetchFrom_turnsLeft]
          omega
  | file rsp rehash id ad p hstage =>
      have hleft : t.turnsLeft = 1 + turnsFor t.impl.mapAd p.todo := by
        simp only [ThreadBiz.turnsLeft, hstage]
      rw [hleft]
      show turnsFor (t.impl.fileReceived x ad id rsp rehash).mapAd p.todo < _
      rw [t.impl.fileReceived_mapAd]
      omega

/-- A turn that does not end the pass stays in it. -/
theorem turn_pass (hend : t.endsPass e = false) (hp : t.stage.pass? = some p)
    (h : PassStep x t e t') : t'.stage.pass?.isSome := by
  cases h with
  | outside e l ended _ _ _ _ _ => rw [hp]; rfl
  | next q hstage =>
      cases htodo : q.todo with
      | nil => exact absurd hend (by simp [ThreadBiz.endsPass, hstage, htodo])
      | cons id todo => rw [(nextAd_at htodo).pass]; rfl
  | fetched f rehash id ad urls q hstage => rw [(fetchEnded_at x t id ad urls q f rehash).pass]; rfl
  | file rsp rehash id ad q hstage => rfl

/-- **`downloadAds` returns**, from any point of the pass and whatever becomes of its downloads:
`outcome` chooses the next turn or the end of the wait, in any way in which it can happen. -/
theorem downloadAds_returns (x : Environment) {t : ThreadBiz} (hpass : t.stage.pass?.isSome)
    (outcome : ThreadBiz → BizEvent) (hturn : ∀ s : ThreadBiz, (outcome s).isTurn = true)
    (henabled : ∀ s : ThreadBiz, s.stage.pass?.isSome → (step x s (outcome s)).isSome) :
    ∃ es u, run (step x) t es = some u ∧ EveryStep (step x) (fun s e => e = outcome s) t es ∧
      u.endsPass (outcome u) = true := by
  induction h : t.turnsLeft using Nat.strongRecOn generalizing t with
  | ind n ih =>
      cases hlast : t.endsPass (outcome t) with
      | true => exact ⟨[], t, rfl, everyStep_nil, hlast⟩
      | false =>
          obtain ⟨p, hp⟩ := Option.isSome_iff_exists.mp hpass
          obtain ⟨t', ht'⟩ := Option.isSome_iff_exists.mp (henabled t hpass)
          have hstep := passStep hp ht'
          have hless := turn_decreases (hturn t) hlast hstep
          obtain ⟨es, u, hrun, hall, hend⟩ := ih _ (h ▸ hless) (turn_pass hlast hp hstep) rfl
          refine ⟨outcome t :: es, u, run_cons_eq_some.mpr ⟨t', ht', hrun⟩, ?_, hend⟩
          rw [everyStep_cons]
          refine ⟨rfl, ?_⟩
          intro t'' ht''
          obtain rfl : t' = t'' := Option.some.inj (ht'.symm.trans ht'')
          exact hall

end Returns

/-! ## The whole pass -/

/-- **A download pass keeps, evicts and retries exactly what it should.** Whatever the policy, the
table, the cache and the outcomes of the downloads are: when `downloadAds` returns, every cached file is
needed, every file needed that was cached is still there, `downloadAd` has recorded one call for each
file that was needed and missing and none for any other, and the download timer has been armed for five
minutes, once, exactly if a file needed is missing. The run `es` is that of the call: its last turn is
still to come, and no other handler has run since it began. -/
theorem downloadAds_exact (x : Environment) {b : ThreadBiz} (hend : b.impl.isEndBusiness = false)
    (root : Timer) {es : List BizEvent} (hes : .runHandler ∉ es) {t t' : ThreadBiz}
    (h : run (step x) (b.downloadAds root) es = some t) (hlast : t.endsPass .next = true)
    (hs : step x t .next = some t') : PassDone b ((b.downloadAds root).attempts x es) t' := by
  obtain ⟨_, q, hstage, htodo⟩ := endsPass_iff.mp hlast
  rcases pass_run hend hes h with ⟨p, seen, hpassing⟩ | hidle | had
  · obtain rfl : q = p := by simpa [hstage, Stage.pass?] using hpassing.stage
    simp only [step, hstage, Option.some.injEq] at hs
    rw [← hs]
    exact hpassing.done htodo
  · exact absurd (hstage.symm.trans hidle) (by simp)
  · exact absurd (hstage.symm.trans had) (by simp)

/-- A server whose policy names ads 1, 2 and 3, the first one twice. Ad 2 is cached, and so is ad 9,
which is not needed. -/
def threeAds : ThreadBiz where
  impl :=
    { barId := ascii "1", isBarServer := true, hasPlayer := false
      policy := { adPlays := [{ adIds := [1, 3] }, { adIds := [2, 1] }] }
      mapAd := PMap.empty.insertAll
        [(1, twoPaths), (2, { sampleAd with id := 2 }), (3, { id := 3 })]
      cache := { Cache.initResponseBuf with
        bufImages :=
          [{ node := 0, id := 9, data := (fileAnswer []).serialize },
            { node := 1, id := 2, data := (fileAnswer sampleFile).serialize }]
        nextNode := 2 } }

/-- Ad 1 cannot be downloaded: the file of ad 2 is kept, that of ad 9 goes, and the retry is armed. -/
theorem downloadAds_exact_retry :
    ∃ t t', run (step sampleEnvironment) (threeAds.downloadAds .policy)
        [.next, .fetchEnded .exception false, .fetchEnded (.response 404 []) false, .next] = some t ∧
      step sampleEnvironment t .next = some t' ∧ PassDone threeAds [1] t' ∧ t'.downloadCalls = [1] ∧
      t'.impl.cache.bufImages = [{ node := 1, id := 2, data := (fileAnswer sampleFile).serialize }] := by
  have hview : (run (step sampleEnvironment) (threeAds.downloadAds .policy)
      [.next, .fetchEnded .exception false, .fetchEnded (.response 404 []) false, .next]).map
      (fun t => (t.endsPass .next,
        (step sampleEnvironment t .next).map fun t' => t'.impl.cache.bufImages)) =
      some (true, some [{ node := 1, id := 2, data := (fileAnswer sampleFile).serialize }]) := by
    decide +kernel
  obtain ⟨t, ht, hview⟩ := Option.map_eq_some_iff.mp hview
  obtain ⟨hlast, hview⟩ := Prod.mk.inj hview
  obtain ⟨t', ht', hfiles⟩ := Option.map_eq_some_iff.mp hview
  have hcalls : (threeAds.downloadAds .policy).attempts sampleEnvironment
      [.next, .fetchEnded .exception false, .fetchEnded (.response 404 []) false, .next] = [1] := by
    decide +kernel
  have hdone := downloadAds_exact sampleEnvironment rfl .policy (by decide) ht hlast ht'
  rw [hcalls] at hdone
  exact ⟨t, t', ht, ht', hdone, hdone.record, hfiles⟩

end AdManager.Business
