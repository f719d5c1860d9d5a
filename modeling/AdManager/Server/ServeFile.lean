/-
# AdManager.Server.ServeFile — a file response against the business thread.

`handleRequest` looks the id up in `_bufImages` under `_mutex`, copies the `shared_ptr` it finds there
into `pStr`, releases the lock and then queues `it->second`. Between the release and the queueing the
business thread may take the lock any number of times: the erase loop of `downloadAds` and the insert of
`downloadAd` are one section each.

A position that was erased or relocated since its lookup is an outcome of its own here,
`Queued.stalePosition`. `serveFile_iff` says which sections between the lookup and the queueing leave the
response as the lookup found it.
-/
import AdManager.Server.Bar

namespace AdManager.Server

open AdManager.Wire AdManager.Lib

/-! ## The sections of the business thread -/

/-- A section under `_mutex`: the insert of `downloadAd`, of whatever it keeps for the file, and the erase
loop of `downloadAds`. -/
inductive Section where
  | insert (id : UInt32) (data : Bytes) (rehash : Bool)
  | evict (idSet : List UInt32)
  deriving DecidableEq, Repr

/-- One section. -/
def sectionStep (c : Cache) : Section → Option Cache
  | .insert id data rehash => some (c.insert id data rehash)
  | .evict idSet => some (c.evict idSet)

/-- What the queueing of a file response comes to. -/
inductive Queued where
  | response (msgID : UInt64) (data : Bytes)
  | stalePosition
  deriving DecidableEq, Repr

/-- `queueRspMsg(msg.id(), it->second)` after the lock was released. -/
def queueImage (c : Cache) (msgID : UInt64) (pos : ImagePos) : Queued :=
  match c.nodeAt pos with
  | some n => .response msgID n.data
  | none => .stalePosition

/-- The section leaves the entry of `id` where it is: it does not erase it, and it does not rehash the
table, which only an insert of a new id does. -/
def KeepsEntry (id : UInt32) (c : Cache) : Section → Prop
  | .insert id' _ rehash => rehash = true → c.contains id' = true
  | .evict idSet => id ∈ idSet

instance (id : UInt32) (c : Cache) : (e : Section) → Decidable (KeepsEntry id c e)
  | .insert id' _ rehash => inferInstanceAs (Decidable (rehash = true → c.contains id' = true))
  | .evict idSet => inferInstanceAs (Decidable (id ∈ idSet))

theorem distinct_section {c c' : Cache} {e : Section} (h : c.Distinct) (hs : sectionStep c e = some c') :
    c'.Distinct := by
  cases e with
  | insert id data rehash =>
      obtain rfl := Option.some.inj hs
      exact h.insert id data rehash
  | evict idSet =>
      obtain rfl := Option.some.inj hs
      exact h.evict idSet

/-! ## Positions over sections -/

namespace Cache

variable {c c' : Cache} {n : ImageNode} {pos : ImagePos} {e : Section}

/-- The position `pos` refers to the entry `n`. -/
structure At (c : Cache) (pos : ImagePos) (n : ImageNode) : Prop where
  rehashes : pos.rehashes = c.rehashes
  mem : n ∈ c.bufImages
  node : n.node = pos.node

/-- The position is stale, and stays so: the table was rehashed, or the node is gone. -/
structure Stale (c : Cache) (pos : ImagePos) : Prop where
  later : pos.rehashes ≤ c.rehashes
  made : pos.node < c.nextNode
  gone : pos.rehashes < c.rehashes ∨ ∀ m ∈ c.bufImages, m.node ≠ pos.node

theorem At.nodeAt (h : c.At pos n) (hc : c.Distinct) : c.nodeAt pos = some n := by
  rw [Cache.nodeAt, if_pos h.rehashes]
  have hsome : (c.bufImages.find? (·.node == pos.node)).isSome := by
    rw [List.find?_isSome]
    exact ⟨n, h.mem, by simp [h.node]⟩
  obtain ⟨m, hm⟩ := Option.isSome_iff_exists.mp hsome
  have hnode : m.node = n.node := by
    rw [h.node]
    simpa using List.find?_some hm
  rw [hm, List.inj_on_of_nodup_map hc.nodes (List.mem_of_find?_eq_some hm) h.mem hnode]

theorem Stale.nodeAt (h : c.Stale pos) : c.nodeAt pos = none := by
  rw [Cache.nodeAt]
  rcases h.gone with hlt | hgone
  · rw [if_neg (by omega)]
  · split
    · simpa [List.find?_eq_none] using hgone
    · rfl

/-- A position just found. -/
theorem find_at {id : UInt32} (h : c.find id = some pos) : ∃ n, c.At pos n ∧ n.id = id := by
  obtain ⟨n, hn, rfl⟩ := Option.map_eq_some_iff.mp h
  exact ⟨n, ⟨rfl, List.mem_of_find?_eq_some hn, rfl⟩, by simpa using List.find?_some hn⟩

/-- **A section that keeps the entry keeps the position.** -/
theorem At.keep (h : c.At pos n) (he : KeepsEntry n.id c e) (hs : sectionStep c e = some c') :
    c'.At pos n := by
  cases e with
  | insert id data rehash =>
      obtain rfl := Option.some.inj hs
      refine ⟨?_, mem_insert_of_mem h.mem id data rehash, h.node⟩
      rw [h.rehashes, Cache.insert]
      split
      · rfl
      · next hnew =>
          cases rehash with
          | false => rfl
          | true => exact absurd (he rfl) hnew
  | evict idSet =>
      obtain rfl := Option.some.inj hs
      exact ⟨h.rehashes, List.mem_filter.mpr ⟨h.mem, decide_eq_true he⟩, h.node⟩

/-- **Any other makes it stale.** -/
theorem At.lose (h : c.At pos n) (hc : c.Distinct) (he : ¬ KeepsEntry n.id c e)
    (hs : sectionStep c e = some c') : c'.Stale pos := by
  have hmade : pos.node < c.nextNode := h.node ▸ hc.fresh n h.mem
  cases e with
  | insert id data rehash =>
      obtain rfl := Option.some.inj hs
      simp only [KeepsEntry, not_forall] at he
      obtain ⟨rfl, hnew⟩ := he
      rw [Cache.insert, if_neg hnew]
      exact ⟨(h.rehashes.le).trans (Nat.le_succ _), hmade.trans (Nat.lt_succ_self _),
        Or.inl (h.rehashes ▸ Nat.lt_succ_self _)⟩
  | evict idSet =>
      obtain rfl := Option.some.inj hs
      refine ⟨h.rehashes.le, hmade, Or.inr fun m hm hnode => he ?_⟩
      obtain ⟨hm, hid⟩ := List.mem_filter.mp hm
      rw [← List.inj_on_of_nodup_map hc.nodes hm h.mem (hnode.trans h.node.symm)]
      exact of_decide_eq_true hid

/-- A stale position never becomes valid again: nodes are new ones. -/
theorem Stale.step (h : c.Stale pos) (hs : sectionStep c e = some c') : c'.Stale pos := by
  cases e with
  | insert id data rehash =>
      obtain rfl := Option.some.inj hs
      rw [Cache.insert]
      split
      · exact h
      · have hle : c.rehashes ≤ if rehash then c.rehashes + 1 else c.rehashes := by
          split <;> omega
        refine ⟨h.later.trans hle, h.made.trans (Nat.lt_succ_self _), ?_⟩
        rcases h.gone with hlt | hgone
        · exact Or.inl (hlt.trans_le hle)
        · refine Or.inr fun m hm => ?_
          rcases List.mem_append.mp hm with hm | hm
          · exact hgone m hm
          · obtain rfl := List.mem_singleton.mp hm
            exact h.made.ne'
  | evict idSet =>
      obtain rfl := Option.some.inj hs
      exact ⟨h.later, h.made, h.gone.imp_right fun hgone m hm => hgone m (List.mem_filter.mp hm).1⟩

theorem Stale.run {es : List Section} (h : c.Stale pos) (hs : run sectionStep c es = some c') :
    c'.Stale pos :=
  inv_run (I := fun c => c.Stale pos) h (fun _ _ _ ht he => ht.step he) hs

/-- **A position outlives the sections that all keep its entry**, and no others. -/
theorem At.run {es : List Section} (h : c.At pos n) (hc : c.Distinct)
    (hs : run sectionStep c es = some c') :
    (EveryStep sectionStep (KeepsEntry n.id) c es ∧ c'.At pos n ∧ c'.Distinct) ∨
    (¬ EveryStep sectionStep (KeepsEntry n.id) c es ∧ c'.Stale pos) := by
  induction es generalizing c with
  | nil =>
      obtain rfl := Option.some.inj hs
      exact Or.inl ⟨everyStep_nil, h, hc⟩
  | cons e es ih =>
      obtain ⟨d, hd, hs⟩ := run_cons_eq_some.mp hs
      rw [everyStep_cons]
      by_cases he : KeepsEntry n.id c e
      · rcases ih (h.keep he hd) (distinct_section hc hd) hs with ⟨hall, hrest⟩ | ⟨hnot, hstale⟩
        · refine Or.inl ⟨⟨he, fun t ht => ?_⟩, hrest⟩
          obtain rfl : d = t := Option.some.inj (hd.symm.trans ht)
          exact hall
        · exact Or.inr ⟨fun hall => hnot (hall.2 d hd), hstale⟩
      · exact Or.inr ⟨fun hall => he hall.1, (h.lose hc he hd).run hs⟩

end Cache

/-! ## Serving a file -/

/-- **A file response is what the lookup found exactly when every section in between keeps the entry.**
For every cache the business thread has built, every getAdFile request whose lookup found an entry, and
every sequence of sections between the lookup and the queueing: the response carries the bytes found at
the lookup if all of these keep the entry, and otherwise the queueing reads through a stale position. -/
theorem serveFile_iff {before between : List Section} {c c' : Cache} {msg : Message} {msgID : UInt64}
    {pos : ImagePos} (hbefore : run sectionStep Cache.initResponseBuf before = some c)
    (hmethod : msg.method = ascii "getAdFile") (hfound : handleRequest c msg = .queueImage msgID pos)
    (hbetween : run sectionStep c between = some c') :
    ∃ id n, readId msg.content = some id ∧ n ∈ c.bufImages ∧ n.id = id ∧
      (queueImage c' msgID pos = .response msg.id.toUInt64 n.data ↔
        EveryStep sectionStep (KeepsEntry id) c between) ∧
      (queueImage c' msgID pos = .stalePosition ↔
        ¬ EveryStep sectionStep (KeepsEntry id) c between) := by
  have hc : c.Distinct := inv_run Cache.Distinct.init (fun _ _ _ ht he => distinct_section ht he) hbefore
  cases hid : readId msg.content with
  | none =>
      rw [handleRequest_getAdFile_short c hmethod hid] at hfound
      exact absurd hfound (by simp)
  | some id =>
      rw [handleRequest_getAdFile c hmethod hid] at hfound
      split at hfound
      · next p hfind =>
          obtain ⟨rfl, rfl⟩ := Handled.queueImage.inj hfound
          obtain ⟨n, hat, rfl⟩ := Cache.find_at hfind
          refine ⟨n.id, n, rfl, hat.mem, rfl, ?_⟩
          rcases hat.run hc hbetween with ⟨hall, hat', hc'⟩ | ⟨hnot, hstale⟩
          · simp [queueImage, hat'.nodeAt hc', hall]
          · simp [queueImage, hstale.nodeAt, hnot]
      · exact absurd hfound (by simp)

/-- The file of ad 1 is found and evicted before the response is queued. -/
theorem serveFile_evicted : ∃ c c' pos,
    run sectionStep Cache.initResponseBuf [.insert 1 [7] false] = some c ∧
      handleRequest c (Ask.getAdFile 1).message = .queueImage 0 pos ∧
      run sectionStep c [.evict []] = some c' ∧ queueImage c' 0 pos = .stalePosition :=
  ⟨_, _, ⟨0, 0⟩, rfl, by decide +kernel, rfl, by decide +kernel⟩

/-- Between the two another file is inserted, and a policy that names both is stored. -/
theorem serveFile_kept : ∃ c c',
    run sectionStep Cache.initResponseBuf [.insert 1 [7] false] = some c ∧
      run sectionStep c [.insert 2 [8] false, .evict [2, 1]] = some c' ∧
      ∃ id n, readId (Ask.getAdFile 1).message.content = some id ∧ n ∈ c.bufImages ∧ n.id = id ∧
        (queueImage c' 0 ⟨0, 0⟩ = .response 0 n.data ↔
          EveryStep sectionStep (KeepsEntry id) c [.insert 2 [8] false, .evict [2, 1]]) ∧
        (queueImage c' 0 ⟨0, 0⟩ = .stalePosition ↔
          ¬ EveryStep sectionStep (KeepsEntry id) c [.insert 2 [8] false, .evict [2, 1]]) := by
  refine ⟨_, _, rfl, rfl, ?_⟩
  have hbefore : run sectionStep Cache.initResponseBuf [.insert 1 [7] false] =
      some (Cache.initResponseBuf.insert 1 [7] false) := rfl
  exact serveFile_iff hbefore rfl (by decide +kernel) rfl

end AdManager.Server
