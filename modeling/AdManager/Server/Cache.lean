/-
# AdManager.Server.Cache — the responses a bar server keeps, and `handleRequest`.

Translated from `AdManager.cpp`. The business thread keeps serialized answers without an id:
`_bufPolicy` and `_bufAdList`, each replaced as a whole, and the map `_bufImages` of ad files. The
network thread splices the id of a request in front of one of them.

`handleRequest` looks a file up while it holds `_mutex`, and reads `it->second` only when it queues
the response, after the lock has been released; so the result of the lookup is a position of the map
here. An erase of the entry, or an insert that rehashes the table, invalidates positions; reading
through an invalid one yields whatever the memory holds by then, which is an input of `deref`.
-/
import AdManager.Wire.MessageRefine
import Mathlib.Data.List.Nodup

namespace AdManager.Server

open AdManager.Wire

/-! ## Data -/

/-- A node of `_bufImages`; `node` tells nodes apart over time. -/
structure ImageNode where
  node : Nat
  id : UInt32
  data : Bytes
  deriving DecidableEq, Repr

/-- An iterator into `_bufImages`: the node, and how often the table had been rehashed. -/
structure ImagePos where
  node : Nat
  rehashes : Nat
  deriving DecidableEq, Repr

/-- The response buffers of `AdManagerImpl`. -/
structure Cache where
  bufPolicy : Bytes
  bufAdList : Bytes
  bufImages : List ImageNode
  nextNode : Nat
  rehashes : Nat
  deriving DecidableEq, Repr

/-- `ERROR_METHOD_HANDLER_NOT_EXIST`. -/
def errorMethodHandlerNotExist : Int32 := 1

/-- `ERROR_DATA_NOT_EXIST`. -/
def errorDataNotExist : Int32 := 2

namespace Cache

/-- `initResponseBuf`. -/
def initResponseBuf : Cache where
  bufPolicy := { returnCode := errorDataNotExist, method := ascii "getAdPlayPolicy",
                 returnMsg := ascii "AdPlayPolicy not exist" : Message }.serialize
  bufAdList := { returnCode := errorDataNotExist, method := ascii "getAdList",
                 returnMsg := ascii "AdList not exist" : Message }.serialize
  bufImages := []
  nextNode := 0
  rehashes := 0

/-! ## Updates by the business thread -/

/-- `requestAdPlayPolicy` stores the content of a successful answer. -/
def storePolicy (c : Cache) (content : Bytes) : Cache :=
  { c with bufPolicy := { method := ascii "getAdPlayPolicy", content := content : Message }.serialize }

/-- `requestAdList` stores the content of a successful answer. -/
def storeAdList (c : Cache) (content : Bytes) : Cache :=
  { c with bufAdList := { method := ascii "getAdList", content := content : Message }.serialize }

/-- Whether a file is cached for `id`. -/
def contains (c : Cache) (id : UInt32) : Bool := c.bufImages.any (·.id == id)

/-- `_bufImages.insert`, which does nothing when the id is there and may rehash otherwise. -/
def insert (c : Cache) (id : UInt32) (data : Bytes) (rehash : Bool) : Cache :=
  if c.contains id then c
  else
    { c with
      bufImages := c.bufImages ++ [{ node := c.nextNode, id := id, data := data }]
      nextNode := c.nextNode + 1
      rehashes := if rehash then c.rehashes + 1 else c.rehashes }

/-- The server's `downloadAd` inserts the answer to requests for the downloaded file. -/
def insertImage (c : Cache) (id : UInt32) (body : Bytes) (rehash : Bool) : Cache :=
  c.insert id { method := ascii "getAdFile", content := body : Message }.serialize rehash

/-- The erase loop of `downloadAds`: only the ids in `idSet` are kept. -/
def evict (c : Cache) (idSet : List UInt32) : Cache :=
  { c with bufImages := c.bufImages.filter fun n => n.id ∈ idSet }

/-! ## Reading -/

/-- `_bufImages.find(id)`. -/
def find (c : Cache) (id : UInt32) : Option ImagePos :=
  (c.bufImages.find? (·.id == id)).map fun n => { node := n.node, rehashes := c.rehashes }

/-- The node that a position refers to, if it is still valid. -/
def nodeAt (c : Cache) (pos : ImagePos) : Option ImageNode :=
  if pos.rehashes = c.rehashes then c.bufImages.find? (·.node == pos.node) else none

/-- `it->second`; `garbage` is what an invalid position yields. -/
def deref (c : Cache) (pos : ImagePos) (garbage : Bytes) : Bytes :=
  match c.nodeAt pos with
  | some n => n.data
  | none => garbage

end Cache

/-! ## Lookups -/

namespace Cache

variable {c : Cache}

theorem mem_insert {id : UInt32} {data : Bytes} {rehash : Bool} {n : ImageNode}
    (h : n ∈ (c.insert id data rehash).bufImages) : n ∈ c.bufImages ∨ (n.id = id ∧ n.data = data) := by
  unfold insert at h
  split at h
  · exact Or.inl h
  · rcases List.mem_append.mp h with h | h
    · exact Or.inl h
    · obtain rfl := List.mem_singleton.mp h
      exact Or.inr ⟨rfl, rfl⟩

/-- No file is lost by inserting another. -/
theorem mem_insert_of_mem {n : ImageNode} (h : n ∈ c.bufImages) (id : UInt32) (data : Bytes)
    (rehash : Bool) : n ∈ (c.insert id data rehash).bufImages := by
  unfold insert
  split
  · exact h
  · exact List.mem_append_left _ h

/-- Inserting a file leaves the other two buffers alone. -/
theorem insert_buffers (id : UInt32) (data : Bytes) (rehash : Bool) :
    (c.insert id data rehash).bufPolicy = c.bufPolicy ∧
      (c.insert id data rehash).bufAdList = c.bufAdList := by
  unfold insert
  split <;> exact ⟨rfl, rfl⟩

theorem contains_iff {id : UInt32} : c.contains id = true ↔ ∃ n ∈ c.bufImages, n.id = id := by
  simp [contains]

/-- **The entries are told apart** by their nodes, and each id has at most one. -/
structure Distinct (c : Cache) : Prop where
  nodes : (c.bufImages.map ImageNode.node).Nodup
  fresh : ∀ n ∈ c.bufImages, n.node < c.nextNode
  ids : (c.bufImages.map ImageNode.id).Nodup

namespace Distinct

theorem init : initResponseBuf.Distinct where
  nodes := List.nodup_nil
  fresh := by simp [initResponseBuf]
  ids := List.nodup_nil

theorem insert (h : c.Distinct) (id : UInt32) (data : Bytes) (rehash : Bool) :
    (c.insert id data rehash).Distinct := by
  unfold Cache.insert
  split
  · exact h
  · next hid =>
      rw [contains_iff] at hid
      refine ⟨?_, ?_, ?_⟩
      · rw [List.map_append, List.map_singleton, ← List.concat_eq_append]
        apply h.nodes.concat
        intro hmem
        obtain ⟨n, hn, heq⟩ := List.mem_map.mp hmem
        exact absurd heq (h.fresh n hn).ne
      · intro n hn
        rcases List.mem_append.mp hn with hn | hn
        · exact Nat.lt_succ_of_lt (h.fresh n hn)
        · obtain rfl := List.mem_singleton.mp hn
          exact Nat.lt_succ_self _
      · rw [List.map_append, List.map_singleton, ← List.concat_eq_append]
        apply h.ids.concat
        intro hmem
        obtain ⟨n, hn, heq⟩ := List.mem_map.mp hmem
        exact hid ⟨n, hn, heq⟩

theorem evict (h : c.Distinct) (idSet : List UInt32) : (c.evict idSet).Distinct where
  nodes := h.nodes.sublist (List.filter_sublist.map _)
  fresh := fun n hn => h.fresh n (List.mem_filter.mp hn).1
  ids := h.ids.sublist (List.filter_sublist.map _)

/-- A position that was just found gives the data of the id. -/
theorem deref_find (h : c.Distinct) {id : UInt32} {pos : ImagePos} (hfind : c.find id = some pos)
    (garbage : Bytes) : ∃ n ∈ c.bufImages, n.id = id ∧ c.deref pos garbage = n.data := by
  obtain ⟨n, hn, rfl⟩ := Option.map_eq_some_iff.mp hfind
  have hmem : n ∈ c.bufImages := List.mem_of_find?_eq_some hn
  refine ⟨n, hmem, by simpa using List.find?_some hn, ?_⟩
  have hat : c.nodeAt { node := n.node, rehashes := c.rehashes } = some n := by
    unfold nodeAt
    rw [if_pos rfl]
    have hsome : (c.bufImages.find? (·.node == n.node)).isSome := by
      rw [List.find?_isSome]
      exact ⟨n, hmem, beq_self_eq_true n.node⟩
    obtain ⟨m, hm⟩ := Option.isSome_iff_exists.mp hsome
    have hnode : m.node = n.node := by simpa using List.find?_some hm
    rw [hm, List.inj_on_of_nodup_map h.nodes (List.mem_of_find?_eq_some hm) hmem hnode]
  rw [deref, hat]

end Distinct

theorem find_eq_none {id : UInt32} : c.find id = none ↔ c.contains id = false := by
  rw [find, Option.map_eq_none_iff, List.find?_eq_none, contains, List.any_eq_false]

end Cache

/-! ## `handleRequest` -/

/-- `memcpy(&id, content.c_str(), sizeof(id))` on a little-endian machine. The string is followed by
its terminating zero, and by nothing else that may be read. -/
def readId (content : Bytes) : Option UInt32 :=
  match content ++ [0] with
  | a :: b :: c :: d :: _ =>
      some (UInt32.ofNat
        (a.toNat + b.toNat * 2 ^ 8 + c.toNat * 2 ^ 16 + d.toNat * 2 ^ 24))
  | _ => none

/-- What `handleRequest` does for a request, up to the point where it has released the lock. -/
inductive Handled where
  | queueData (msgID : UInt64) (data : Bytes)
  | queueMsg (msg : Message)
  | queueImage (msgID : UInt64) (pos : ImagePos)
  | nothing
  | outOfBounds
  deriving DecidableEq, Repr

/-- `handleRequest`. -/
def handleRequest (c : Cache) (msg : Message) : Handled :=
  if msg.method = ascii "getAdPlayPolicy" then .queueData msg.id.toUInt64 c.bufPolicy
  else if msg.method = ascii "getAdList" then .queueData msg.id.toUInt64 c.bufAdList
  else if msg.method = ascii "getAd" then
    match readId msg.content with
    | none => .outOfBounds
    | some _ => .nothing
  else if msg.method = ascii "getAdFile" then
    match readId msg.content with
    | none => .outOfBounds
    | some id =>
        match c.find id with
        | some pos => .queueImage msg.id.toUInt64 pos
        | none =>
            .queueMsg { msg with
              returnCode := errorDataNotExist, returnMsg := ascii "AdFile not exist" }
  else
    .queueMsg { msg with
      returnCode := errorMethodHandlerNotExist, returnMsg := ascii "method handler not exist" }

/-! ## What is cached -/

/-- `data` is a serialized message without an id, for the method `method`. -/
def CachedFor (method data : Bytes) : Prop :=
  ∃ m : Message, m.WellFormed ∧ m.id = 0 ∧ m.method = method ∧ data = m.serialize

/-- A successful answer is cached for its method, whatever its content is. -/
theorem cachedFor_content {method : Bytes} (h : isValidUtf8 method = true) (content : Bytes) :
    CachedFor method { method := method, content := content : Message }.serialize :=
  ⟨{ method := method, content := content }, ⟨h, rfl⟩, rfl, rfl, rfl⟩

/-- **Every buffer of the cache answers its own method.** -/
structure Cache.Sound (c : Cache) : Prop where
  policy : CachedFor (ascii "getAdPlayPolicy") c.bufPolicy
  adList : CachedFor (ascii "getAdList") c.bufAdList
  images : ∀ n ∈ c.bufImages, CachedFor (ascii "getAdFile") n.data

namespace Cache.Sound

variable {c : Cache}

theorem init : initResponseBuf.Sound where
  policy := ⟨{ returnCode := errorDataNotExist, method := ascii "getAdPlayPolicy",
               returnMsg := ascii "AdPlayPolicy not exist" }, by decide +kernel, rfl, rfl, rfl⟩
  adList := ⟨{ returnCode := errorDataNotExist, method := ascii "getAdList",
               returnMsg := ascii "AdList not exist" }, by decide +kernel, rfl, rfl, rfl⟩
  images := by simp [initResponseBuf]

theorem storePolicy (h : c.Sound) (content : Bytes) : (c.storePolicy content).Sound where
  policy := cachedFor_content (by decide +kernel) content
  adList := h.adList
  images := h.images

theorem storeAdList (h : c.Sound) (content : Bytes) : (c.storeAdList content).Sound where
  policy := h.policy
  adList := cachedFor_content (by decide +kernel) content
  images := h.images

theorem insertImage (h : c.Sound) (id : UInt32) (body : Bytes) (rehash : Bool) :
    (c.insertImage id body rehash).Sound := by
  unfold Cache.insertImage Cache.insert
  split
  · exact h
  · refine ⟨h.policy, h.adList, ?_⟩
    intro n hn
    rcases List.mem_append.mp hn with hn | hn
    · exact h.images n hn
    · obtain rfl := List.mem_singleton.mp hn
      exact cachedFor_content (by decide +kernel) body

theorem evict (h : c.Sound) (idSet : List UInt32) : (c.evict idSet).Sound where
  policy := h.policy
  adList := h.adList
  images := fun n hn => h.images n (List.mem_filter.mp hn).1

/-- A valid position gives a cached file. -/
theorem deref (h : c.Sound) {pos : ImagePos} (hvalid : (c.nodeAt pos).isSome) (garbage : Bytes) :
    CachedFor (ascii "getAdFile") (c.deref pos garbage) := by
  obtain ⟨n, hn⟩ := Option.isSome_iff_exists.mp hvalid
  have hmem : n ∈ c.bufImages := by
    unfold nodeAt at hn
    split at hn
    · exact List.mem_of_find?_eq_some hn
    · exact absurd hn (by simp)
  simp only [Cache.deref, hn]
  exact h.images n hmem

end Cache.Sound

end AdManager.Server
