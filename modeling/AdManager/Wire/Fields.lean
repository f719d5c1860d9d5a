/-
# AdManager.Wire.Fields — the kinds of fields in `AdPlayPolicy.proto`.

The generated code reads and writes each field of a message by one of few patterns. Each pattern is a
definition here, with the tag and the member as its parameters; the messages are tables of such fields.

`wire_format_lite.cc` and `coded_stream.cc` are not in this repository. What their headers say is modelled;
what they leave open is `Runtime`. A limit cuts the input: a packed block or a nested message that says it is
longer than what is left ends where the enclosing one does.
-/
import AdManager.Lib.TagLoop
import AdManager.Wire.MessageRefine

namespace AdManager.Wire

open AdManager.Lib

/-! ## The library -/

/-- What the protobuf library decides: the input behind an unknown field; the position behind a length that
cannot be read; what a failed read leaves in a string; and how many elements are allocated behind those of a
repeated field. -/
structure Runtime where
  skipField : UInt32 → Bytes → Option Bytes
  unreadable : Bytes → Bytes
  failedString : Bytes → Bytes → Bytes
  reserved : List Int32 → Nat

/-- A tag. -/
def writeTag (t : UInt32) : Bytes := Varint.encode t.toNat

/-- Tags are varints. -/
def tags : TagReader UInt32 UInt8 where
  read := readVarint32
  write := writeTag
  read_write t rest := by
    have hlt := t.toNat_lt
    rw [writeTag, Message.readVarint32_encode (by omega), UInt32.ofNat_toNat]
  write_ne_nil t := Varint.encode_ne_nil t.toNat

/-- `ReadVarintSizeAsInt`: a size above `INT_MAX` is refused. -/
def readVarintSizeAsInt (input : Bytes) : Option (Nat × Bytes) :=
  (Varint.decode input).bind fun p => if p.1 < 2 ^ 31 then some p else none

/-- `ExpectTag`. -/
def expectTag (t : UInt32) (input : Bytes) : Option Bytes :=
  if (writeTag t).isPrefixOf input then some (input.drop (writeTag t).length) else none

/-- Values up to the limit, and whether all were read. -/
def readInt32s : Nat → Bytes → List Int32 × Bool
  | _, [] => ([], true)
  | 0, _ :: _ => ([], false)
  | k + 1, b :: bs =>
      match readVarint32 (b :: bs) with
      | none => ([], false)
      | some p =>
          let q := readInt32s k p.2
          (p.1.toInt32 :: q.1, q.2)

/-- `WriteInt32NoTag`. -/
def writeInt32NoTag (v : Int32) : Bytes := Varint.encode v.toInt64.toUInt64.toNat

/-- Behind a tag that no field has: 0 and an end-group tag end the message before its input, which its reader
takes for a failure; other fields are stepped over. -/
def unusual {R : Type} (rt : Runtime) (t : UInt32) (r : R) (input : Bytes) : R × Option Bytes :=
  if t = 0 ∨ t % 8 = 4 then (r, none) else (r, rt.skipField t input)

/-! ## Writing -/

/-- An `int32`, unless it is 0. -/
def putInt32 (t : UInt32) (v : Int32) : Bytes := if v ≠ 0 then writeTag t ++ writeInt32NoTag v else []

/-- A `bool`, unless it is false. -/
def putBool (t : UInt32) (v : Bool) : Bytes := if v then writeTag t ++ [1] else []

/-- A length and the bytes. -/
def writeLengthDelimited (b : Bytes) : Bytes := Varint.encode b.length ++ b

/-- A `string` or `bytes`, unless it is empty. -/
def putBytes (t : UInt32) (b : Bytes) : Bytes :=
  if b.length > 0 then writeTag t ++ writeLengthDelimited b else []

/-- Each of the strings. -/
def putStrings (t : UInt32) (bs : List Bytes) : Bytes :=
  bs.flatMap fun (b : Bytes) => writeTag t ++ writeLengthDelimited b

/-- The values in one packed block, unless there are none. -/
def putInt32s (t : UInt32) (vs : List Int32) : Bytes :=
  if vs.length > 0 then writeTag t ++ writeLengthDelimited (vs.flatMap writeInt32NoTag) else []

/-- Each of the messages, written by `bytes`. -/
def putMessages {S : Type} (t : UInt32) (bytes : S → Bytes) (ss : List S) : Bytes :=
  ss.flatMap fun s => writeTag t ++ writeLengthDelimited (bytes s)

/-! ## Sizes -/

/-- `Int32Size` with a tag of `k` bytes, unless the value is 0. -/
def sizeInt32 (k : Nat) (v : Int32) : Nat := if v ≠ 0 then k + Message.int32Size v else 0

/-- A `bool` with its tag, unless it is false. -/
def sizeBool (k : Nat) (v : Bool) : Nat := if v then k + 1 else 0

/-- `StringSize` or `BytesSize` with a tag of `k` bytes, unless it is empty. -/
def sizeBytes (k : Nat) (b : Bytes) : Nat := if b.length > 0 then k + Message.stringSize b else 0

/-- The tags of the strings, and each of them. -/
def sizeStrings (k : Nat) (bs : List Bytes) : Nat := k * bs.length + (bs.map Message.stringSize).sum

/-- A packed block: its size is itself written as an `int32`. -/
def sizeInt32s (k : Nat) (vs : List Int32) : Nat :=
  let dataSize := (vs.map Message.int32Size).sum
  (if dataSize > 0 then k + Message.int32Size (Int32.ofNat dataSize) else 0) + dataSize

/-- The tags of the messages, and `MessageSizeNoVirtual` of each of them. -/
def sizeMessages {S : Type} (k : Nat) (size : S → Nat) (ss : List S) : Nat :=
  k * ss.length + (ss.map fun s => Varint.size (size s) + size s).sum

/-! ## The kinds of fields -/

section Kinds

variable {R S : Type}

/-- `int32`. -/
def int32Field (t : UInt32) (l : Lens R Int32) : Field R UInt32 UInt8 where
  tags := [t]
  read _ r input :=
    match readVarint32 input with
    | none => (r, none)
    | some p => (l.set r p.1.toInt32, some p.2)
  write r := putInt32 t (l.get r)
  merge s m := l.set m (if l.get s ≠ 0 then l.get s else l.get m)

/-- `bool`. -/
def boolField (t : UInt32) (l : Lens R Bool) : Field R UInt32 UInt8 where
  tags := [t]
  read _ r input :=
    match readVarint64 input with
    | none => (r, none)
    | some p => (l.set r (p.1 ≠ 0), some p.2)
  write r := putBool t (l.get r)
  merge s m := l.set m (if l.get s then l.get s else l.get m)

/-- `string`: what is read must be UTF-8. -/
def stringField (rt : Runtime) (t : UInt32) (l : Lens R Bytes) : Field R UInt32 UInt8 where
  tags := [t]
  read _ r input :=
    match readString input with
    | none => (l.set r (rt.failedString (l.get r) input), none)
    | some p => (l.set r p.1, if isValidUtf8 p.1 then some p.2 else none)
  write r := putBytes t (l.get r)
  merge s m := l.set m (if (l.get s).length > 0 then l.get s else l.get m)

/-- `bytes`. -/
def bytesField (rt : Runtime) (t : UInt32) (l : Lens R Bytes) : Field R UInt32 UInt8 where
  tags := [t]
  read _ r input :=
    match readString input with
    | none => (l.set r (rt.failedString (l.get r) input), none)
    | some p => (l.set r p.1, some p.2)
  write r := putBytes t (l.get r)
  merge s m := l.set m (if (l.get s).length > 0 then l.get s else l.get m)

/-- `repeated string`: a new string is added before it is read. -/
def stringsField (rt : Runtime) (t : UInt32) (l : Lens R (List Bytes)) : Field R UInt32 UInt8 where
  tags := [t]
  read _ r input :=
    match readString input with
    | none => (l.add r [rt.failedString [] input], none)
    | some p => (l.add r [p.1], if isValidUtf8 p.1 then some p.2 else none)
  write r := putStrings t (l.get r)
  merge s m := l.add m (l.get s)

/-- `ReadPackedPrimitive`. -/
def readPackedPrimitive (l : Lens R (List Int32)) (r : R) (input : Bytes) : R × Option Bytes :=
  match readVarintSizeAsInt input with
  | none => (r, none)
  | some p =>
      let vs := readInt32s p.2.length (p.2.take p.1)
      (l.add r vs.1, if vs.2 then some (p.2.drop p.1) else none)

/-- The loop of `ReadRepeatedPrimitive`, while elements are allocated. -/
def readReserved (packed : UInt32) (l : Lens R (List Int32)) : Nat → R → Bytes → R × Option Bytes
  | 0, r, input => (r, some input)
  | k + 1, r, input =>
      match expectTag packed input with
      | none => (r, some input)
      | some rest =>
          match readVarint32 rest with
          | none => (r, none)
          | some p => readReserved packed l k (l.add r [p.1.toInt32]) p.2

/-- `ReadRepeatedPrimitive`. The generated code hands it the tag of the packed form. -/
def readRepeatedPrimitive (rt : Runtime) (packed : UInt32) (l : Lens R (List Int32)) (r : R)
    (input : Bytes) : R × Option Bytes :=
  match readVarint32 input with
  | none => (r, none)
  | some p =>
      let r := l.add r [p.1.toInt32]
      readReserved packed l (rt.reserved (l.get r)) r p.2

/-- `repeated int32`, which is read in both forms. -/
def int32sField (rt : Runtime) (packed unpacked : UInt32) (l : Lens R (List Int32)) :
    Field R UInt32 UInt8 where
  tags := [packed, unpacked]
  read t r input :=
    if t = packed then readPackedPrimitive l r input else readRepeatedPrimitive rt packed l r input
  write r := putInt32s packed (l.get r)
  merge s m := l.add m (l.get s)

/-- `ReadMessageNoVirtualNoRecursionDepth` for an element that has just been added: a length that cannot be
read is taken for 0. -/
def readMessage (rt : Runtime) (sub : Bytes → S × Bool) (input : Bytes) : S × Option Bytes :=
  match readVarint32 input with
  | none => ((sub []).1, if (sub []).2 then some (rt.unreadable input) else none)
  | some p =>
      let q := sub (p.2.take p.1.toNat)
      (q.1, if q.2 then some (p.2.drop p.1.toNat) else none)

/-- A repeated message, read by `sub` and written as `bytes`. -/
def messagesField (rt : Runtime) (t : UInt32) (l : Lens R (List S)) (sub : Bytes → S × Bool)
    (bytes : S → Bytes) : Field R UInt32 UInt8 where
  tags := [t]
  read _ r input :=
    let q := readMessage rt sub input
    (l.add r [q.1], q.2)
  write r := putMessages t bytes (l.get r)
  merge s m := l.add m (l.get s)

end Kinds

end AdManager.Wire
