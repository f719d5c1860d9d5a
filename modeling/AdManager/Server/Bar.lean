/-
# AdManager.Server.Bar — bar clients and their bar server.

Any number of clients, each with its own connection to one server. A client sends the three requests
that its own code makes; the server's network thread runs `handleRequest` for each message that its
sessions dispatch, while its business thread updates the cache at any moment. The handler of a file
request is in two pieces, before and after the release of the lock (`busy`); between them the business
thread may run, but no other handler of the network thread.
-/
import AdManager.Link.Duplex
import AdManager.Server.Cache
import Mathlib.Logic.Function.Basic

namespace AdManager.Server

open AdManager.Wire AdManager.Lib AdManager.Session AdManager.Link

/-! ## The requests of a client -/

/-- The four bytes of an `int` in memory. -/
def leBytes (n : UInt32) : Bytes :=
  [UInt8.ofNat n.toNat, UInt8.ofNat (n.toNat / 2 ^ 8), UInt8.ofNat (n.toNat / 2 ^ 16),
    UInt8.ofNat (n.toNat / 2 ^ 24)]

/-- What `requestAdPlayPolicy`, `requestAdList` and the client branch of `downloadAd` ask for. -/
inductive Ask where
  | getAdPlayPolicy (barId : UInt32)
  | getAdList
  | getAdFile (id : UInt32)
  deriving DecidableEq, Repr

/-- The message of a request: the bar id goes in network byte order, the ad id as it lies in
memory. -/
def Ask.message : Ask → Message
  | .getAdPlayPolicy barId => { method := ascii "getAdPlayPolicy", content := htonl barId.toNat }
  | .getAdList => { method := ascii "getAdList" }
  | .getAdFile id => { method := ascii "getAdFile", content := leBytes id }

/-! ## The system -/

variable {ι : Type*}

/-- A response that the network thread has looked up and not queued yet: the session, the id and the
number of the request, and the position found. -/
structure Reply (ι : Type*) where
  client : ι
  msgID : UInt64
  ref : Nat
  pos : ImagePos

/-- The clients, the server's sessions, and the server's cache. -/
structure Bar (ι : Type*) where
  clients : ι → Peer := fun _ => {}
  sessions : ι → Peer := fun _ => {}
  cache : Cache := Cache.initResponseBuf
  busy : Option (Reply ι) := none

/-- `handleRequest` for the request that the session `p` of client `i` has just dispatched, if it has
dispatched one: the response is queued, or is looked up and still to be queued. -/
def serve (cache : Cache) (i : ι) (p : Peer) : Option (Peer × Option (Reply ι)) :=
  match p.inbox with
  | [] => some (p, none)
  | (ref, msg) :: inbox =>
      let p := { p with inbox := inbox }
      match handleRequest cache msg with
      | .queueData msgID data => some ({ p with session := p.session.queueRspData msgID data ref }, none)
      | .queueMsg rsp => some ({ p with session := p.session.queueRspMsg rsp ref }, none)
      | .queueImage msgID pos => some (p, some { client := i, msgID := msgID, ref := ref, pos := pos })
      | .nothing => some (p, none)
      | .outOfBounds => none

/-- The events of a session that are no calls from outside and no dispatch. -/
def isIo : PeerEvent → Bool
  | .runPost => true
  | .writeSome _ _ => true
  | .writeDone _ => true
  | .arrive _ => true
  | .readSome _ => true
  | _ => false

/-- The events of a session at which a handler of the network thread runs. -/
def runsHandler : PeerEvent → Bool
  | .runPost => true
  | .writeDone _ => true
  | .complete => true
  | _ => false

/-- What can happen. -/
inductive BarEvent (ι : Type*) where
  | ask (i : ι) (a : Ask)
  | client (i : ι) (e : PeerEvent)
  | server (i : ι) (e : PeerEvent)
  | serve (i : ι)
  | reply (garbage : Bytes)
  | storePolicy (content : Bytes)
  | storeAdList (content : Bytes)
  | insertImage (id : UInt32) (body : Bytes) (rehash : Bool)
  | evict (idSet : List UInt32)

variable [DecidableEq ι]

/-- One event. `reply` queues the response whose position was looked up before; `garbage` is what lies
behind the position if it has become invalid. -/
def barStep (parse : Bytes → Option Message) (b : Bar ι) : BarEvent ι → Option (Bar ι)
  | .ask i a =>
      let p := { b.clients i with session := (b.clients i).session.request a.message }
      some { b with clients := Function.update b.clients i p }
  | .client i e =>
      if isIo e ∨ e = .complete then
        ((b.clients i).step parse (b.sessions i).session.wire e).map fun p =>
          { b with clients := Function.update b.clients i p }
      else none
  | .server i e =>
      if isIo e ∧ (b.busy.isNone ∨ runsHandler e = false) then
        ((b.sessions i).step parse (b.clients i).session.wire e).map fun p =>
          { b with sessions := Function.update b.sessions i p }
      else none
  | .serve i =>
      if b.busy.isNone then
        ((b.sessions i).complete parse).bind fun p =>
          (serve b.cache i p).map fun out =>
            { b with sessions := Function.update b.sessions i out.1, busy := out.2 }
      else none
  | .reply garbage =>
      b.busy.map fun r =>
        let data := b.cache.deref r.pos garbage
        let p := { b.sessions r.client with
          session := (b.sessions r.client).session.queueRspData r.msgID data r.ref }
        { b with sessions := Function.update b.sessions r.client p, busy := none }
  | .storePolicy content => some { b with cache := b.cache.storePolicy content }
  | .storeAdList content => some { b with cache := b.cache.storeAdList content }
  | .insertImage id body rehash => some { b with cache := b.cache.insertImage id body rehash }
  | .evict idSet => some { b with cache := b.cache.evict idSet }

/-- **The condition**: when a response is queued from a position, the position found by the lookup is
still valid. -/
def PositionValid (b : Bar ι) : BarEvent ι → Prop
  | .reply _ => ∀ r ∈ b.busy, (b.cache.nodeAt r.pos).isSome
  | _ => True

instance (b : Bar ι) : (e : BarEvent ι) → Decidable (PositionValid b e)
  | .reply _ => inferInstanceAs (Decidable (∀ r ∈ b.busy, (b.cache.nodeAt r.pos).isSome))
  | .ask _ _ => .isTrue trivial
  | .client _ _ => .isTrue trivial
  | .server _ _ => .isTrue trivial
  | .serve _ => .isTrue trivial
  | .storePolicy _ => .isTrue trivial
  | .storeAdList _ => .isTrue trivial
  | .insertImage _ _ _ => .isTrue trivial
  | .evict _ => .isTrue trivial

/-! ## What `handleRequest` answers -/

theorem readId_leBytes (id : UInt32) : readId (leBytes id) = some id := by
  have hlt := id.toNat_lt
  simp only [leBytes, readId, List.cons_append, Option.some.injEq, UInt8.toNat_ofNat']
  apply UInt32.toNat_inj.mp
  rw [UInt32.toNat_ofNat']
  omega

theorem method_getAdList_ne : ascii "getAdList" ≠ ascii "getAdPlayPolicy" := by decide +kernel

theorem method_getAdFile_ne : ascii "getAdFile" ≠ ascii "getAdPlayPolicy" ∧
    ascii "getAdFile" ≠ ascii "getAdList" ∧ ascii "getAdFile" ≠ ascii "getAd" := by decide +kernel

theorem handleRequest_getAdPlayPolicy (c : Cache) {msg : Message}
    (h : msg.method = ascii "getAdPlayPolicy") :
    handleRequest c msg = .queueData msg.id.toUInt64 c.bufPolicy := by
  rw [handleRequest, if_pos h]

theorem handleRequest_getAdList (c : Cache) {msg : Message} (h : msg.method = ascii "getAdList") :
    handleRequest c msg = .queueData msg.id.toUInt64 c.bufAdList := by
  rw [handleRequest, h, if_neg method_getAdList_ne, if_pos rfl]

/-- A request for an ad is answered by nothing. -/
theorem handleRequest_getAd (c : Cache) {msg : Message} (h : msg.method = ascii "getAd") :
    handleRequest c msg = .nothing ∨ handleRequest c msg = .outOfBounds := by
  have h1 : ascii "getAd" ≠ ascii "getAdPlayPolicy" := by decide +kernel
  have h2 : ascii "getAd" ≠ ascii "getAdList" := by decide +kernel
  rw [handleRequest, h, if_neg h1, if_neg h2, if_pos rfl]
  cases readId msg.content with
  | none => exact Or.inr rfl
  | some id => exact Or.inl rfl

/-- A file that is not cached is answered with `ERROR_DATA_NOT_EXIST`. -/
theorem handleRequest_getAdFile (c : Cache) {msg : Message} {id : UInt32}
    (h : msg.method = ascii "getAdFile") (hid : readId msg.content = some id) :
    handleRequest c msg = match c.find id with
      | some pos => .queueImage msg.id.toUInt64 pos
      | none => .queueMsg { msg with
          returnCode := errorDataNotExist, returnMsg := ascii "AdFile not exist" } := by
  obtain ⟨h1, h2, h3⟩ := method_getAdFile_ne
  cases hfind : c.find id with
  | none => simp [handleRequest, h, h1, h2, h3, hid, hfind]
  | some pos => simp [handleRequest, h, h1, h2, h3, hid, hfind]

/-- Without a whole id the content is read out of bounds. -/
theorem handleRequest_getAdFile_short (c : Cache) {msg : Message} (h : msg.method = ascii "getAdFile")
    (hid : readId msg.content = none) : handleRequest c msg = .outOfBounds := by
  obtain ⟨h1, h2, h3⟩ := method_getAdFile_ne
  simp [handleRequest, h, h1, h2, h3, hid]

/-- Any other method is answered with `ERROR_METHOD_HANDLER_NOT_EXIST`. -/
theorem handleRequest_other (c : Cache) {msg : Message} (h1 : msg.method ≠ ascii "getAdPlayPolicy")
    (h2 : msg.method ≠ ascii "getAdList") (h3 : msg.method ≠ ascii "getAd")
    (h4 : msg.method ≠ ascii "getAdFile") :
    handleRequest c msg = .queueMsg { msg with
      returnCode := errorMethodHandlerNotExist, returnMsg := ascii "method handler not exist" } := by
  rw [handleRequest, if_neg h1, if_neg h2, if_neg h3, if_neg h4]

/-- The id can be read from three bytes on: the fourth may be the terminating zero. -/
theorem readId_isSome (content : Bytes) : (readId content).isSome ↔ 3 ≤ content.length := by
  match content with
  | [] => simp [readId]
  | [_] => simp [readId]
  | [_, _] => simp [readId]
  | _ :: _ :: _ :: rest => cases rest <;> simp [readId]

end AdManager.Server
