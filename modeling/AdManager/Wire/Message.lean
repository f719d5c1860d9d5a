/-
# AdManager.Wire.Message — the protobuf `Message` and its generated codec.

Translated from `ad/Message.proto` and the generated `ad/Message.pb.cc`: the five fields, the order
in which `SerializeWithCachedSizes` writes those that are not default, the sum that `ByteSizeLong`
computes without writing, and the tag dispatch of `MergePartialFromCodedStream`. Strings are byte
strings, as `std::string` is; the parser accepts a `string` field only when it is valid UTF-8.

`WireFormatLite::SkipField`, which steps over a field that `Message` does not declare, lies in the
protobuf library and not in this repository: it is the parameter `skipField` of the parser.
-/
import AdManager.Lib.Varint

namespace AdManager.Wire

open AdManager.Lib

/-- A `std::string` or a byte buffer. -/
abbrev Bytes := List UInt8

/-- The bytes of an ASCII string literal of the source. -/
def ascii (s : String) : Bytes := s.toList.map fun c => UInt8.ofNat c.toNat

/-- `Message` of `Message.proto`, with the proto3 defaults. -/
structure Message where
  id : Int64 := 0
  method : Bytes := []
  content : Bytes := []
  returnCode : Int32 := 0
  returnMsg : Bytes := []
  deriving DecidableEq, Repr

/-! ## `SerializeWithCachedSizes` and `ByteSizeLong` -/

/-- `WriteInt64`: the tag and the varint of the value as unsigned 64-bit. -/
def writeInt64 (tag : Nat) (v : Int64) : Bytes :=
  Varint.encode tag ++ Varint.encode v.toUInt64.toNat

/-- `WriteInt32`: the tag and the varint of the value, sign-extended to 64 bits. -/
def writeInt32 (tag : Nat) (v : Int32) : Bytes :=
  Varint.encode tag ++ Varint.encode v.toInt64.toUInt64.toNat

/-- `WriteString` / `WriteBytes`: the tag, the length and the bytes. -/
def writeBytes (tag : Nat) (b : Bytes) : Bytes :=
  Varint.encode tag ++ Varint.encode b.length ++ b

namespace Message

/-- Field `id = 1`, absent when 0. -/
def idField (v : Int64) : Bytes := if v ≠ 0 then writeInt64 8 v else []

/-- Field `method = 2`, absent when empty. -/
def methodField (b : Bytes) : Bytes := if b.length > 0 then writeBytes 18 b else []

/-- Field `content = 3`, absent when empty. -/
def contentField (b : Bytes) : Bytes := if b.length > 0 then writeBytes 26 b else []

/-- Field `returnCode = 4`, absent when 0. -/
def returnCodeField (v : Int32) : Bytes := if v ≠ 0 then writeInt32 32 v else []

/-- Field `returnMsg = 5`, absent when empty. -/
def returnMsgField (b : Bytes) : Bytes := if b.length > 0 then writeBytes 42 b else []

/-- `SerializeToOstream` / `SerializeAsString`: the fields that are not default, in field order. -/
def serialize (m : Message) : Bytes :=
  idField m.id ++ (methodField m.method ++ (contentField m.content ++
    (returnCodeField m.returnCode ++ returnMsgField m.returnMsg)))

/-- `StringSize` / `BytesSize`: the length prefix and the bytes. -/
def stringSize (b : Bytes) : Nat := Varint.size b.length + b.length

/-- `Int64Size`. -/
def int64Size (v : Int64) : Nat := Varint.size v.toUInt64.toNat

/-- `Int32Size`: ten bytes for a negative value, which is written sign-extended. -/
def int32Size (v : Int32) : Nat := if v < 0 then 10 else Varint.size v.toUInt32.toNat

/-- `ByteSizeLong`, in the order of the generated code. -/
def byteSize (m : Message) : Nat :=
  (if m.method.length > 0 then 1 + stringSize m.method else 0) +
  (if m.content.length > 0 then 1 + stringSize m.content else 0) +
  (if m.returnMsg.length > 0 then 1 + stringSize m.returnMsg else 0) +
  (if m.id ≠ 0 then 1 + int64Size m.id else 0) +
  (if m.returnCode ≠ 0 then 1 + int32Size m.returnCode else 0)

end Message

/-! ## `ParseFromArray` -/

/-- `ReadVarint64`. -/
def readVarint64 (input : Bytes) : Option (UInt64 × Bytes) :=
  (Varint.decode input).map fun p => (UInt64.ofNat p.1, p.2)

/-- `ReadVarint32`: a longer varint is read to its end and its high bits are dropped. -/
def readVarint32 (input : Bytes) : Option (UInt32 × Bytes) :=
  (Varint.decode input).map fun p => (UInt32.ofNat p.1, p.2)

/-- `ReadString` / `ReadBytes`: the length is refused when negative as a signed 32-bit number or
when fewer bytes are left. -/
def readString (input : Bytes) : Option (Bytes × Bytes) :=
  (readVarint32 input).bind fun p =>
    if p.1.toNat < 2 ^ 31 ∧ p.1.toNat ≤ p.2.length then
      some (p.2.take p.1.toNat, p.2.drop p.1.toNat)
    else none

/-- A UTF-8 continuation byte. -/
def isContinuation (b : UInt8) : Bool := 0x80 ≤ b && b ≤ 0xBF

/-- `IsStructurallyValidUTF8`: shortest forms only, no surrogates, nothing above U+10FFFF. -/
def isValidUtf8 : Bytes → Bool
  | [] => true
  | a :: t =>
      if a < 0x80 then isValidUtf8 t
      else match t with
        | [] => false
        | b :: t =>
            if 0xC2 ≤ a ∧ a ≤ 0xDF then isContinuation b && isValidUtf8 t
            else match t with
              | [] => false
              | c :: t =>
                  if 0xE0 ≤ a ∧ a ≤ 0xEF then
                    isContinuation b && isContinuation c && (a != 0xE0 || 0xA0 ≤ b) &&
                      (a != 0xED || b ≤ 0x9F) && isValidUtf8 t
                  else match t with
                    | [] => false
                    | d :: t =>
                        0xF0 ≤ a && a ≤ 0xF4 && isContinuation b && isContinuation c &&
                          isContinuation d && (a != 0xF0 || 0x90 ≤ b) &&
                          (a != 0xF4 || b ≤ 0x8F) && isValidUtf8 t

namespace Message

variable (skipField : UInt32 → Bytes → Option Bytes)

/-- One turn of the loop in `MergePartialFromCodedStream`. Tag 0 and an end-group tag leave the loop
before the input is consumed, which `ParseFromArray` reports as a failure. -/
def mergeField (m : Message) (input : Bytes) : Option (Message × Bytes) :=
  (readVarint32 input).bind fun p =>
    if p.1 = 8 then (readVarint64 p.2).map fun q => ({ m with id := q.1.toInt64 }, q.2)
    else if p.1 = 18 then
      (readString p.2).bind fun q =>
        if isValidUtf8 q.1 then some ({ m with method := q.1 }, q.2) else none
    else if p.1 = 26 then (readString p.2).map fun q => ({ m with content := q.1 }, q.2)
    else if p.1 = 32 then (readVarint32 p.2).map fun q => ({ m with returnCode := q.1.toInt32 }, q.2)
    else if p.1 = 42 then
      (readString p.2).bind fun q =>
        if isValidUtf8 q.1 then some ({ m with returnMsg := q.1 }, q.2) else none
    else if p.1 = 0 ∨ p.1 % 8 = 4 then none
    else (skipField p.1 p.2).map fun rest => (m, rest)

/-- The loop of `MergePartialFromCodedStream`; every turn consumes at least the tag, so the length
of the input is fuel enough. -/
def mergeLoop : Nat → Message → Bytes → Option Message
  | _, m, [] => some m
  | 0, _, _ :: _ => none
  | k + 1, m, b :: bs =>
      (mergeField skipField m (b :: bs)).bind fun p => mergeLoop k p.1 p.2

/-- `ParseFromArray` into a fresh `Message`. -/
def parseFromArray (bytes : Bytes) : Option Message :=
  mergeLoop skipField bytes.length {} bytes

end Message

end AdManager.Wire
