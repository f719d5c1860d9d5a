/-
# AdManager.Business.AdManagerImpl — the business data and what the exchanges do to it.

Translated from `AdManager.cpp` and `AdManagerImpl.h`. `requestAdPlayPolicy`, `requestAdList` and
`downloadAd` each block on a future or on an HTTP request; the functions here are the pieces between
two such points, which read and write the policy, the ad table, the set of lock-screen ads, the response
buffers and the player's list. `_mapAd` is written in two ways: `insert`, which leaves an id that is
there alone, and `operator[]`, which creates an ad with default fields for an id that is not.

What lies outside the repository is a field of `Environment`: character conversion, the generated
parsers of the three content types, and the digest.
-/
import AdManager.Lib.PartialMap
import AdManager.Md5.MD5
import AdManager.Server.Cache
import Mathlib.Data.List.Sort

namespace AdManager.Business

open AdManager.Wire AdManager.Lib AdManager.Server
open AdManager.Md5 (MD5 zeroBlock)

/-! ## Messages of `AdPlayPolicy.proto` -/

structure PlayTime where
  bgnTime : Bytes := []
  endTime : Bytes := []
  deriving DecidableEq, Repr

structure AdPlay where
  location : Int32 := 0
  mode : Int32 := 0
  needSync : Bool := false
  playTimes : List PlayTime := []
  adIds : List Int32 := []
  deriving DecidableEq, Repr

structure AdPlayPolicy where
  id : Int32 := 0
  version : Bytes := []
  dateTime : Bytes := []
  adPlays : List AdPlay := []
  deriving DecidableEq, Repr

structure Ad where
  id : Int32 := 0
  name : Bytes := []
  fileName : Bytes := []
  advertiser : Bytes := []
  type : Int32 := 0
  url : Bytes := []
  image : Bytes := []
  width : Int32 := 0
  height : Int32 := 0
  format : Bytes := []
  size : Int32 := 0
  md5 : Bytes := []
  duration : Int32 := 0
  download : List Bytes := []
  minAge : Int32 := 0
  maxAge : Int32 := 0
  sex : Int32 := 0
  visitStatCode : List Bytes := []
  pausePopAdIds : List Int32 := []
  unlockPopAdIds : List Int32 := []
  deriving DecidableEq, Repr

/-- The key of an ad in `_mapAd`: an `int32` taken for a `uint32_t`. -/
def Ad.key (ad : Ad) : UInt32 := ad.id.toUInt32

/-- The ad ids of a policy, in the order of its two nested lists. -/
def AdPlayPolicy.ids (p : AdPlayPolicy) : List Int32 := p.adPlays.flatMap AdPlay.adIds

/-- Those at location 1, the lock screen. -/
def AdPlayPolicy.lockIds (p : AdPlayPolicy) : List Int32 :=
  (p.adPlays.filter fun adplay => adplay.location = 1).flatMap AdPlay.adIds

/-! ## The environment -/

/-- Libraries and generated code. `parsePolicy` gives what `ParseFromString` leaves in its target, which
it clears first, and whether it succeeds; the other targets are local variables. -/
structure Environment where
  fromUtf : Bytes → Bytes
  lexicalCast : Bytes → Option Int32
  parsePolicy : Bytes → AdPlayPolicy × Bool
  parseResult : Bytes → Option (List Ad)
  parseAd : Bytes → Option Ad
  md5 : Bytes → Bytes
  debug : Bool

/-- `boost::to_upper_copy`. -/
def toUpperCopy (b : Bytes) : Bytes := b.map fun c => if 97 ≤ c ∧ c ≤ 122 then c - 32 else c

/-- Insert into a `std::set`, which is kept in order. -/
def setInsert {α : Type*} [LE α] [DecidableLE α] [DecidableEq α] (s : List α) (a : α) : List α :=
  if a ∈ s then s else s.orderedInsert (· ≤ ·) a

namespace Environment

variable (x : Environment)

/-- `utf8ToGB2312(Ad&)`. -/
def utf8ToGB2312 (ad : Ad) : Ad :=
  { ad with
    name := x.fromUtf ad.name
    fileName := x.fromUtf ad.fileName
    advertiser := x.fromUtf ad.advertiser
    download := ad.download.map x.fromUtf }

/-- The converted ad of a successful answer to `getAd`. -/
def receivedAd (rsp : Message) : Option Ad :=
  if rsp.returnCode = 0 then (x.parseAd rsp.content).map x.utf8ToGB2312 else none

/-- The converted ads of a successful answer to `getAdList`. -/
def receivedAds (rsp : Message) : Option (List Ad) :=
  if rsp.returnCode = 0 then (x.parseResult rsp.content).map (·.map x.utf8ToGB2312) else none

/-- Whether a file has the digest of its ad, in either case. -/
def verified (ad : Ad) (body : Bytes) : Bool := toUpperCopy ad.md5 == toUpperCopy (x.md5 body)

/-- `lexical_cast<int>(_barId)`, or else 0. -/
def barIdOf (barId : Bytes) : UInt32 := ((x.lexicalCast barId).getD 0).toUInt32

/-- The environment with `MD5` for the digest: one `update`, `finalize` and `hex_digest`. -/
def withMD5 : Environment :=
  { x with md5 := fun body => (MD5.digestOf zeroBlock [] body).getD [] }

end Environment

/-! ## `AdManagerImpl` -/

/-- An entry of the player's `_playList`. -/
structure PlayItem where
  id : UInt32
  type : UInt32
  filename : Bytes
  adfile : Option Bytes
  deriving DecidableEq, Repr

/-- `AdManagerImpl`; `hasPlayer` says that `_pPlayer` is not null. -/
structure AdManagerImpl where
  barId : Bytes
  isBarServer : Bool
  hasPlayer : Bool
  isEndBusiness : Bool := false
  policy : AdPlayPolicy := {}
  mapAd : PMap UInt32 Ad := PMap.empty
  lockAds : List UInt32 := []
  cache : Cache := Cache.initResponseBuf
  playList : List PlayItem := []

namespace AdManagerImpl

variable (x : Environment) (s : AdManagerImpl)

/-- `requestAdPlayPolicy` with the response: the parser writes to `_policy` itself, whether it succeeds
or not. -/
def policyReceived (rsp : Message) : AdManagerImpl × Bool :=
  if rsp.returnCode = 0 then
    let s := { s with policy := (x.parsePolicy rsp.content).1 }
    if (x.parsePolicy rsp.content).2 then
      ({ s with cache := s.cache.storePolicy rsp.content }, true)
    else (s, false)
  else (s, false)

/-- The loop over the ads of a received list. -/
def insertAds (ads : List Ad) : AdManagerImpl :=
  { s with mapAd := ads.foldl (fun m ad => m.insertNew ad.key ad) s.mapAd }

/-- One id of the client's loop over the lock-screen ads of the policy. -/
def lockAd (s : AdManagerImpl) (id : Int32) : AdManagerImpl :=
  let mapAd := s.mapAd.insertNew id.toUInt32 {}
  let ad := (mapAd id.toUInt32).getD {}
  let item : PlayItem :=
    { id := id.toUInt32, type := ad.type.toUInt32, filename := ad.fileName, adfile := none }
  { s with
    lockAds := setInsert s.lockAds id.toUInt32
    mapAd := mapAd
    playList := if s.hasPlayer then s.playList ++ [item] else s.playList }

/-- `requestAdList` with a successful response, up to the call of `downloadAds`. -/
def adListReceived (ads : List Ad) (content : Bytes) : AdManagerImpl :=
  let s := { s with cache := s.cache.storeAdList content }.insertAds ads
  if s.isBarServer then s else s.policy.lockIds.foldl lockAd s

/-- `requestAd` with a successful response. -/
def adReceived (ad : Ad) : AdManagerImpl := { s with mapAd := s.mapAd.insertNew ad.key ad }

/-- One id of the first loop of `downloadAds`. -/
def collect (acc : PMap UInt32 Ad × List Int32) (id : Int32) : PMap UInt32 Ad × List Int32 :=
  let mapAd := acc.1.insertNew id.toUInt32 {}
  let ad := (mapAd id.toUInt32).getD {}
  (mapAd, if ad.download ≠ [] then setInsert acc.2 id else acc.2)

/-- `downloadAds` up to its second loop: the ids of the files needed, and the others evicted. -/
def beginPass : AdManagerImpl × List Int32 :=
  let out := s.policy.ids.foldl collect (s.mapAd, [])
  ({ s with mapAd := out.1, cache := s.cache.evict (out.2.map Int32.toUInt32) }, out.2)

/-- `downloadAds` up to its second loop, which is not reached when business has ended. -/
def pass : AdManagerImpl := if s.isEndBusiness then s else s.beginPass.1

/-- Whether a file is cached for an id of the policy. -/
def cached (id : Int32) : Bool := s.cache.contains id.toUInt32

/-- The server's `downloadAd` with a verified file. -/
def imageDownloaded (id : UInt32) (body : Bytes) (rehash : Bool) : AdManagerImpl :=
  { s with cache := s.cache.insertImage id body rehash }

/-- `CPlayer::UpdatePlayList`. -/
def updatePlayList (id : UInt32) (adfile : Bytes) : AdManagerImpl :=
  { s with
    playList := s.playList.map fun item =>
      if item.id = id then { item with adfile := some adfile } else item }

/-- The client's `downloadAd` with the response: it keeps the content itself. -/
def fileReceived (ad : Ad) (id : UInt32) (rsp : Message) (rehash : Bool) : AdManagerImpl :=
  if rsp.returnCode = 0 ∧ x.verified ad rsp.content then
    let s := { s with cache := s.cache.insert id rsp.content rehash }
    if id ∈ s.lockAds ∧ s.hasPlayer then s.updatePlayList id rsp.content else s
  else s

end AdManagerImpl

end AdManager.Business
