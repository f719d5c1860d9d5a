/-
# AdManager.Business.Codec — the generated codec of `AdPlayPolicy.proto`.

Translated from `ad/AdPlayPolicy.pb.cc`: for each message what `SerializeWithCachedSizes` writes, in its
order; the table of the fields that `MergePartialFromCodedStream` dispatches on, each with its tags; the sum of
`ByteSizeLong`; and `MergeFrom`.
-/
import AdManager.Business.AdManagerImpl
import AdManager.Wire.FieldsRefine

namespace AdManager.Business

open AdManager.Lib AdManager.Wire

/-- `Result`. -/
structure Result where
  ads : List Ad := []
  deriving DecidableEq, Repr

/-! ## `AdPlayPolicy_AdPlay_PlayTime` -/

namespace PlayTime

/-- `SerializeWithCachedSizes`. -/
def serialize (r : PlayTime) : Bytes :=
  List.flatten
    [putBytes 10 r.bgnTime, putBytes 18 r.endTime]

/-- The fields that `MergePartialFromCodedStream` dispatches on. -/
def fields (rt : Runtime) : List (Field PlayTime UInt32 UInt8) :=
  [stringField rt 10 (.mk PlayTime.bgnTime fun r a => { r with bgnTime := a }),
   stringField rt 18 (.mk PlayTime.endTime fun r a => { r with endTime := a })]

/-- `MergePartialFromCodedStream`, to the end of the input. -/
def mergePartial (rt : Runtime) (r : PlayTime) (input : Bytes) : PlayTime × Bool :=
  TagLoop.loop tags (TagLoop.dispatch (fields rt) (unusual rt)) input.length r input

/-- `ParseFromString`, which clears its target first. -/
def parse (rt : Runtime) (input : Bytes) : PlayTime × Bool := mergePartial rt {} input

/-- `ByteSizeLong`. -/
def byteSizeLong (r : PlayTime) : Nat :=
  sizeBytes 1 r.bgnTime + sizeBytes 1 r.endTime

/-- `MergeFrom`. -/
def mergeFrom (m s : PlayTime) : PlayTime :=
  { m with
    bgnTime := if s.bgnTime.length > 0 then s.bgnTime else m.bgnTime
    endTime := if s.endTime.length > 0 then s.endTime else m.endTime }

end PlayTime

/-! ## `AdPlayPolicy_AdPlay` -/

namespace AdPlay

/-- `SerializeWithCachedSizes`. -/
def serialize (r : AdPlay) : Bytes :=
  List.flatten
    [putInt32 8 r.location, putInt32 16 r.mode, putBool 24 r.needSync,
     putMessages 34 PlayTime.serialize r.playTimes, putInt32s 42 r.adIds]

/-- The fields that `MergePartialFromCodedStream` dispatches on. -/
def fields (rt : Runtime) : List (Field AdPlay UInt32 UInt8) :=
  [int32Field 8 (.mk AdPlay.location fun r a => { r with location := a }),
   int32Field 16 (.mk AdPlay.mode fun r a => { r with mode := a }),
   boolField 24 (.mk AdPlay.needSync fun r a => { r with needSync := a }),
   messagesField rt 34 (.mk AdPlay.playTimes fun r a => { r with playTimes := a })
     (PlayTime.parse rt) PlayTime.serialize,
   int32sField rt 42 40 (.mk AdPlay.adIds fun r a => { r with adIds := a })]

/-- `MergePartialFromCodedStream`, to the end of the input. -/
def mergePartial (rt : Runtime) (r : AdPlay) (input : Bytes) : AdPlay × Bool :=
  TagLoop.loop tags (TagLoop.dispatch (fields rt) (unusual rt)) input.length r input

/-- `ParseFromString`, which clears its target first. -/
def parse (rt : Runtime) (input : Bytes) : AdPlay × Bool := mergePartial rt {} input

/-- `ByteSizeLong`. -/
def byteSizeLong (r : AdPlay) : Nat :=
  sizeMessages 1 PlayTime.byteSizeLong r.playTimes + sizeInt32s 1 r.adIds +
  sizeInt32 1 r.location + sizeInt32 1 r.mode + sizeBool 1 r.needSync

/-- `MergeFrom`. -/
def mergeFrom (m s : AdPlay) : AdPlay :=
  { m with
    playTimes := m.playTimes ++ s.playTimes
    adIds := m.adIds ++ s.adIds
    location := if s.location ≠ 0 then s.location else m.location
    mode := if s.mode ≠ 0 then s.mode else m.mode
    needSync := if s.needSync then s.needSync else m.needSync }

end AdPlay

/-! ## `AdPlayPolicy` -/

namespace AdPlayPolicy

/-- `SerializeWithCachedSizes`. -/
def serialize (r : AdPlayPolicy) : Bytes :=
  List.flatten
    [putInt32 8 r.id, putBytes 18 r.version, putBytes 26 r.dateTime,
     putMessages 34 AdPlay.serialize r.adPlays]

/-- The fields that `MergePartialFromCodedStream` dispatches on. -/
def fields (rt : Runtime) : List (Field AdPlayPolicy UInt32 UInt8) :=
  [int32Field 8 (.mk AdPlayPolicy.id fun r a => { r with id := a }),
   stringField rt 18 (.mk AdPlayPolicy.version fun r a => { r with version := a }),
   stringField rt 26 (.mk AdPlayPolicy.dateTime fun r a => { r with dateTime := a }),
   messagesField rt 34 (.mk AdPlayPolicy.adPlays fun r a => { r with adPlays := a })
     (AdPlay.parse rt) AdPlay.serialize]

/-- `MergePartialFromCodedStream`, to the end of the input. -/
def mergePartial (rt : Runtime) (r : AdPlayPolicy) (input : Bytes) : AdPlayPolicy × Bool :=
  TagLoop.loop tags (TagLoop.dispatch (fields rt) (unusual rt)) input.length r input

/-- `ParseFromString`, which clears its target first. -/
def parse (rt : Runtime) (input : Bytes) : AdPlayPolicy × Bool := mergePartial rt {} input

/-- `ByteSizeLong`. -/
def byteSizeLong (r : AdPlayPolicy) : Nat :=
  sizeMessages 1 AdPlay.byteSizeLong r.adPlays + sizeBytes 1 r.version +
  sizeBytes 1 r.dateTime + sizeInt32 1 r.id

/-- `MergeFrom`. -/
def mergeFrom (m s : AdPlayPolicy) : AdPlayPolicy :=
  { m with
    adPlays := m.adPlays ++ s.adPlays
    version := if s.version.length > 0 then s.version else m.version
    dateTime := if s.dateTime.length > 0 then s.dateTime else m.dateTime
    id := if s.id ≠ 0 then s.id else m.id }

end AdPlayPolicy

/-! ## `Ad` -/

namespace Ad

/-- `SerializeWithCachedSizes`. -/
def serialize (r : Ad) : Bytes :=
  List.flatten
    [putInt32 8 r.id, putBytes 18 r.name, putBytes 26 r.fileName, putBytes 34 r.advertiser,
     putInt32 40 r.type, putBytes 50 r.url, putBytes 58 r.image, putInt32 64 r.width,
     putInt32 72 r.height, putBytes 82 r.format, putInt32 88 r.size, putBytes 98 r.md5,
     putInt32 104 r.duration, putStrings 114 r.download, putInt32 120 r.minAge,
     putInt32 128 r.maxAge, putInt32 136 r.sex, putStrings 146 r.visitStatCode,
     putInt32s 154 r.pausePopAdIds, putInt32s 162 r.unlockPopAdIds]

/-- The fields that `MergePartialFromCodedStream` dispatches on. -/
def fields (rt : Runtime) : List (Field Ad UInt32 UInt8) :=
  [int32Field 8 (.mk Ad.id fun r a => { r with id := a }),
   stringField rt 18 (.mk Ad.name fun r a => { r with name := a }),
   stringField rt 26 (.mk Ad.fileName fun r a => { r with fileName := a }),
   stringField rt 34 (.mk Ad.advertiser fun r a => { r with advertiser := a }),
   int32Field 40 (.mk Ad.type fun r a => { r with type := a }),
   stringField rt 50 (.mk Ad.url fun r a => { r with url := a }),
   bytesField rt 58 (.mk Ad.image fun r a => { r with image := a }),
   int32Field 64 (.mk Ad.width fun r a => { r with width := a }),
   int32Field 72 (.mk Ad.height fun r a => { r with height := a }),
   stringField rt 82 (.mk Ad.format fun r a => { r with format := a }),
   int32Field 88 (.mk Ad.size fun r a => { r with size := a }),
   stringField rt 98 (.mk Ad.md5 fun r a => { r with md5 := a }),
   int32Field 104 (.mk Ad.duration fun r a => { r with duration := a }),
   stringsField rt 114 (.mk Ad.download fun r a => { r with download := a }),
   int32Field 120 (.mk Ad.minAge fun r a => { r with minAge := a }),
   int32Field 128 (.mk Ad.maxAge fun r a => { r with maxAge := a }),
   int32Field 136 (.mk Ad.sex fun r a => { r with sex := a }),
   stringsField rt 146 (.mk Ad.visitStatCode fun r a => { r with visitStatCode := a }),
   int32sField rt 154 152 (.mk Ad.pausePopAdIds fun r a => { r with pausePopAdIds := a }),
   int32sField rt 162 160 (.mk Ad.unlockPopAdIds fun r a => { r with unlockPopAdIds := a })]

/-- `MergePartialFromCodedStream`, to the end of the input. -/
def mergePartial (rt : Runtime) (r : Ad) (input : Bytes) : Ad × Bool :=
  TagLoop.loop tags (TagLoop.dispatch (fields rt) (unusual rt)) input.length r input

/-- `ParseFromString`, which clears its target first. -/
def parse (rt : Runtime) (input : Bytes) : Ad × Bool := mergePartial rt {} input

/-- `ByteSizeLong`. -/
def byteSizeLong (r : Ad) : Nat :=
  sizeStrings 1 r.download + sizeStrings 2 r.visitStatCode + sizeInt32s 2 r.pausePopAdIds +
  sizeInt32s 2 r.unlockPopAdIds + sizeBytes 1 r.name + sizeBytes 1 r.fileName +
  sizeBytes 1 r.advertiser + sizeBytes 1 r.url + sizeBytes 1 r.image + sizeBytes 1 r.format +
  sizeBytes 1 r.md5 + sizeInt32 1 r.id + sizeInt32 1 r.type + sizeInt32 1 r.width +
  sizeInt32 1 r.height + sizeInt32 1 r.size + sizeInt32 1 r.duration + sizeInt32 1 r.minAge +
  sizeInt32 2 r.maxAge + sizeInt32 2 r.sex

/-- `MergeFrom`. -/
def mergeFrom (m s : Ad) : Ad :=
  { m with
    download := m.download ++ s.download
    visitStatCode := m.visitStatCode ++ s.visitStatCode
    pausePopAdIds := m.pausePopAdIds ++ s.pausePopAdIds
    unlockPopAdIds := m.unlockPopAdIds ++ s.unlockPopAdIds
    name := if s.name.length > 0 then s.name else m.name
    fileName := if s.fileName.length > 0 then s.fileName else m.fileName
    advertiser := if s.advertiser.length > 0 then s.advertiser else m.advertiser
    url := if s.url.length > 0 then s.url else m.url
    image := if s.image.length > 0 then s.image else m.image
    format := if s.format.length > 0 then s.format else m.format
    md5 := if s.md5.length > 0 then s.md5 else m.md5
    id := if s.id ≠ 0 then s.id else m.id
    type := if s.type ≠ 0 then s.type else m.type
    width := if s.width ≠ 0 then s.width else m.width
    height := if s.height ≠ 0 then s.height else m.height
    size := if s.size ≠ 0 then s.size else m.size
    duration := if s.duration ≠ 0 then s.duration else m.duration
    minAge := if s.minAge ≠ 0 then s.minAge else m.minAge
    maxAge := if s.maxAge ≠ 0 then s.maxAge else m.maxAge
    sex := if s.sex ≠ 0 then s.sex else m.sex }

end Ad

/-! ## `Result` -/

namespace Result

/-- `SerializeWithCachedSizes`. -/
def serialize (r : Result) : Bytes :=
  List.flatten
    [putMessages 10 Ad.serialize r.ads]

/-- The fields that `MergePartialFromCodedStream` dispatches on. -/
def fields (rt : Runtime) : List (Field Result UInt32 UInt8) :=
  [messagesField rt 10 (.mk Result.ads fun r a => { r with ads := a })
     (Ad.parse rt) Ad.serialize]

/-- `MergePartialFromCodedStream`, to the end of the input. -/
def mergePartial (rt : Runtime) (r : Result) (input : Bytes) : Result × Bool :=
  TagLoop.loop tags (TagLoop.dispatch (fields rt) (unusual rt)) input.length r input

/-- `ParseFromString`, which clears its target first. -/
def parse (rt : Runtime) (input : Bytes) : Result × Bool := mergePartial rt {} input

/-- `ByteSizeLong`. -/
def byteSizeLong (r : Result) : Nat :=
  sizeMessages 1 Ad.byteSizeLong r.ads

/-- `MergeFrom`. -/
def mergeFrom (m s : Result) : Result :=
  { m with
    ads := m.ads ++ s.ads }

end Result

/-- The environment with the repository's own code in it: the generated parsers and `MD5`. -/
def Environment.withCode (y : Environment) (rt : Runtime) : Environment :=
  { y.withMD5 with
    parsePolicy := AdPlayPolicy.parse rt
    parseResult := fun content =>
      if (Result.parse rt content).2 then some (Result.parse rt content).1.ads else none
    parseAd := fun content => if (Ad.parse rt content).2 then some (Ad.parse rt content).1 else none }

end AdManager.Business
