/-
# AdManager.Business.AdIds — the ad id in the content of a request.

Two requests carry an ad id. `requestAd` puts `htonl(adId)` into the content of getAd; the client branch
of `downloadAd` copies the `int` into the content of getAdFile as it lies in memory. `handleRequest`
copies four bytes of the content into an `int` for both. On a little-endian machine the one encoder
writes the bytes the other way round than the other does, and the decoder goes with the second.

An id whose four bytes read the same in both directions does not show it.
-/
import AdManager.Business.BusinessThread

namespace AdManager.Business

open AdManager.Wire AdManager.Lib AdManager.Server

/-! ## The two requests -/

/-- A request that carries an ad id. -/
inductive IdRequest where
  | getAd (adId : UInt32)
  | getAdFile (id : UInt32)
  deriving DecidableEq, Repr

namespace IdRequest

/-- The id the client puts in. -/
def adId : IdRequest → UInt32
  | .getAd adId => adId
  | .getAdFile id => id

/-- The message that `requestAd` and `downloadAd` build. -/
def message : IdRequest → Message
  | .getAd adId => { method := ascii "getAd", content := htonl adId.toNat }
  | .getAdFile id => (Ask.getAdFile id).message

/-- `requestAd` and the client branch of `downloadAd` send these messages. -/
theorem requestAd_outgoing {x : Environment} {b b' : ThreadBiz} {adId : UInt32}
    (hs : step x b (.requestAd adId) = some b') :
    b'.outgoing = b.outgoing ++ [.request (IdRequest.getAd adId).message] := by
  obtain ⟨_, hs⟩ := Option.ite_none_right_eq_some.mp hs
  obtain rfl := Option.some.inj hs
  rfl

theorem downloadAd_outgoing (b : ThreadBiz) (id : UInt32) (p : Pass) {ad : Ad}
    (had : b.impl.mapAd id = some ad) (hurls : ad.download ≠ []) (hclient : b.impl.isBarServer = false) :
    (b.downloadAd id p).outgoing = b.outgoing ++ [.request (IdRequest.getAdFile id).message] := by
  simp only [ThreadBiz.downloadAd, had, if_neg hurls, hclient, Bool.false_eq_true, if_false]
  rfl

end IdRequest

/-- What `handleRequest` reads as the id from a request that the session has numbered `v` and that has
been serialized and parsed on the way. -/
def receivedId (skipField : UInt32 → Bytes → Option Bytes) (v : Int64) (msg : Message) : Option UInt32 :=
  (Message.parseFromArray skipField { msg with id := v }.serialize).bind fun m => readId m.content

/-- The four bytes of the id read the same in both directions. -/
def Palindromic (id : UInt32) : Prop := leBytes id = (leBytes id).reverse

instance (id : UInt32) : Decidable (Palindromic id) :=
  inferInstanceAs (Decidable (leBytes id = (leBytes id).reverse))

/-- Only getAd needs the id to be a palindrome. -/
def IdRequest.Survives : IdRequest → Prop
  | .getAd adId => Palindromic adId
  | .getAdFile _ => True

/-! ## Bytes -/

/-- Network byte order is the memory of a little-endian machine backwards. -/
theorem htonl_eq_reverse (id : UInt32) : htonl id.toNat = (leBytes id).reverse := rfl

/-- Four bytes are those of the number that is read from them. -/
theorem leBytes_of_readId {a b c d : UInt8} {id : UInt32} (h : readId [a, b, c, d] = some id) :
    [a, b, c, d] = leBytes id := by
  obtain rfl := Option.some.inj h
  have ha := a.toNat_lt
  have hb := b.toNat_lt
  have hc := c.toNat_lt
  have hd := d.toNat_lt
  simp only [leBytes, List.cons.injEq, and_true, ← UInt8.toNat_inj, UInt8.toNat_ofNat',
    UInt32.toNat_ofNat']
  omega

/-- Reading an id back from network byte order. -/
theorem readId_htonl_iff (id : UInt32) : readId (htonl id.toNat) = some id ↔ Palindromic id := by
  constructor
  · intro h
    exact (leBytes_of_readId h).symm
  · intro h
    rw [htonl_eq_reverse, ← h]
    exact readId_leBytes id

theorem readId_message_iff (r : IdRequest) : readId r.message.content = some r.adId ↔ r.Survives := by
  cases r with
  | getAd adId => exact readId_htonl_iff adId
  | getAdFile id => exact iff_of_true (readId_leBytes id) trivial

/-! ## On the way -/

theorem wellFormed_message (r : IdRequest) (v : Int64) :
    ({ r.message with id := v } : Message).WellFormed := by
  have hall : ∀ method ∈ [ascii "getAd", ascii "getAdFile"], isValidUtf8 method = true := by
    decide +kernel
  cases r with
  | getAd adId => exact ⟨hall (ascii "getAd") (by simp), rfl⟩
  | getAdFile id => exact ⟨hall (ascii "getAdFile") (by simp), rfl⟩

theorem method_length (r : IdRequest) : r.message.method.length ≤ 9 := by
  have hall : ∀ method ∈ [ascii "getAd", ascii "getAdFile"], method.length ≤ 9 := by decide +kernel
  cases r with
  | getAd adId => exact hall (ascii "getAd") (by simp)
  | getAdFile id => exact hall (ascii "getAdFile") (by simp)

/-- A request with an id is short. -/
theorem serialize_message_length (r : IdRequest) (v : Int64) :
    ({ r.message with id := v } : Message).serialize.length < 2 ^ 31 := by
  have hcode : r.message.returnCode = 0 := by cases r <;> rfl
  have hreturn : r.message.returnMsg.length = 0 := by cases r <;> rfl
  have hcontent : r.message.content.length = 4 := by cases r <;> rfl
  have hmethod := method_length r
  have hsize1 := Varint.size_le r.message.method.length
  have hsize2 := Varint.size_le 4
  have hsize3 := Varint.size_le v.toUInt64.toNat
  have hzero : Message.int32Size 0 = 1 := by decide +kernel
  rw [← Message.byteSize_eq_length]
  simp only [Message.byteSize, Message.stringSize, Message.int64Size, hcode, hreturn, hcontent]
  split_ifs <;> omega

/-! ## What arrives -/

/-- **The id survives exactly for getAdFile and for palindromes.** For every id and both requests,
however the session numbers them: `handleRequest` reads the id that the client put in exactly when the
request is getAdFile or the bytes of the id read the same in both directions; and the two encoders write
the same bytes for the same ids exactly for these. -/
theorem adId_received_iff (skipField : UInt32 → Bytes → Option Bytes) :
    (∀ (r : IdRequest) (v : Int64),
      receivedId skipField v r.message = some r.adId ↔ r.Survives) ∧
    ∀ id, (IdRequest.getAd id).message.content = (IdRequest.getAdFile id).message.content ↔
      Palindromic id := by
  constructor
  · intro r v
    rw [receivedId, Message.parse_serialize skipField (wellFormed_message r v)
      (serialize_message_length r v), Option.bind_some]
    exact readId_message_iff r
  · intro id
    exact eq_comm

/-- A getAd request for ad 1 arrives as one for ad 16777216; a getAdFile request arrives as it was sent. -/
theorem adId_one : receivedId (fun _ _ => none) 1 (IdRequest.getAd 1).message = some 16777216 ∧
    receivedId (fun _ _ => none) 1 (IdRequest.getAdFile 1).message = some 1 := by
  decide +kernel

end AdManager.Business
