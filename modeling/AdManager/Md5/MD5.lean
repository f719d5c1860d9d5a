/-
# AdManager.Md5.MD5 — the class `MD5`.

Translated from `md5.cc` and `md5.hh`. An `MD5` takes its message in pieces: `update` fills a buffer of 64
bytes, compresses it when it is full, compresses whole blocks of the piece where they lie, and keeps what is
left over in the buffer. `finalize` pads the message through `update` itself and stores the digest.

Indices and counters are 32-bit words, as in the source, and every copy names the bytes it touches: a step
that would read behind the piece or write behind the buffer is `none`. The buffer and the digest of a new
object are not initialised, so they are arguments of the constructor.

`transform` is 64 calls of four macro-like functions. They are a table here, `lines`, one entry for each
call in the order of the source.
-/
import AdManager.Lib.Buffer
import AdManager.Wire.Message

namespace AdManager.Md5

open AdManager.Lib AdManager.Wire

/-! ## Words and bytes -/

/-- `encode`: the four bytes of each word, lowest first. -/
def encode (input : List UInt32) : Bytes :=
  input.flatMap fun (w : UInt32) =>
    [(w &&& 0xff).toUInt8, ((w >>> 8) &&& 0xff).toUInt8, ((w >>> 16) &&& 0xff).toUInt8,
      ((w >>> 24) &&& 0xff).toUInt8]

/-- `decode`: a word from each four bytes. -/
def decode : Bytes → List UInt32
  | j0 :: j1 :: j2 :: j3 :: rest =>
      (j0.toUInt32 ||| (j1.toUInt32 <<< 8) ||| (j2.toUInt32 <<< 16) ||| (j3.toUInt32 <<< 24)) ::
        decode rest
  | _ => []

/-! ## `transform` -/

/-- `state[0]` to `state[3]`, or the registers `a` to `d` of `transform`. -/
structure Regs where
  a : UInt32
  b : UInt32
  c : UInt32
  d : UInt32
  deriving DecidableEq, Repr

/-- The words in the order of `state`. -/
def Regs.words (r : Regs) : List UInt32 := [r.a, r.b, r.c, r.d]

def F (x y z : UInt32) : UInt32 := (x &&& y) ||| (~~~x &&& z)

def G (x y z : UInt32) : UInt32 := (x &&& z) ||| (y &&& ~~~z)

def H (x y z : UInt32) : UInt32 := x ^^^ y ^^^ z

def I (x y z : UInt32) : UInt32 := y ^^^ (x ||| ~~~z)

/-- `rotate_left`. -/
def rotateLeft (x n : UInt32) : UInt32 := (x <<< n) ||| (x >>> (32 - n))

/-- `FF`, `GG`, `HH` and `II`. -/
inductive Round where
  | FF | GG | HH | II
  deriving DecidableEq, Repr

/-- The function that a round mixes with. -/
def Round.mix : Round → UInt32 → UInt32 → UInt32 → UInt32
  | .FF => F
  | .GG => G
  | .HH => H
  | .II => I

/-- The body that the four share: the new value of their argument `a`. -/
def Round.apply (f : Round) (a b c d x s ac : UInt32) : UInt32 :=
  rotateLeft (a + (f.mix b c d + x + ac)) s + b

/-- The registers handed over; the first one is assigned. -/
inductive Order where
  | abcd | dabc | cdab | bcda
  deriving DecidableEq, Repr

/-- A call in `transform`: the function, the registers, the index into `x`, the shift and the constant. -/
structure Line where
  round : Round
  order : Order
  k : Nat
  s : UInt32
  ac : UInt32
  deriving DecidableEq, Repr

/-- The call. -/
def Line.run (l : Line) (x : List UInt32) (r : Regs) : Regs :=
  match l.order with
  | .abcd => { r with a := l.round.apply r.a r.b r.c r.d (x.getD l.k 0) l.s l.ac }
  | .dabc => { r with d := l.round.apply r.d r.a r.b r.c (x.getD l.k 0) l.s l.ac }
  | .cdab => { r with c := l.round.apply r.c r.d r.a r.b (x.getD l.k 0) l.s l.ac }
  | .bcda => { r with b := l.round.apply r.b r.c r.d r.a (x.getD l.k 0) l.s l.ac }

def S11 : UInt32 := 7
def S12 : UInt32 := 12
def S13 : UInt32 := 17
def S14 : UInt32 := 22
def S21 : UInt32 := 5
def S22 : UInt32 := 9
def S23 : UInt32 := 14
def S24 : UInt32 := 20
def S31 : UInt32 := 4
def S32 : UInt32 := 11
def S33 : UInt32 := 16
def S34 : UInt32 := 23
def S41 : UInt32 := 6
def S42 : UInt32 := 10
def S43 : UInt32 := 15
def S44 : UInt32 := 21

/-- The 64 calls. -/
def lines : List Line :=
  [⟨.FF, .abcd, 0, S11, 0xd76aa478⟩, ⟨.FF, .dabc, 1, S12, 0xe8c7b756⟩,
   ⟨.FF, .cdab, 2, S13, 0x242070db⟩, ⟨.FF, .bcda, 3, S14, 0xc1bdceee⟩,
   ⟨.FF, .abcd, 4, S11, 0xf57c0faf⟩, ⟨.FF, .dabc, 5, S12, 0x4787c62a⟩,
   ⟨.FF, .cdab, 6, S13, 0xa8304613⟩, ⟨.FF, .bcda, 7, S14, 0xfd469501⟩,
   ⟨.FF, .abcd, 8, S11, 0x698098d8⟩, ⟨.FF, .dabc, 9, S12, 0x8b44f7af⟩,
   ⟨.FF, .cdab, 10, S13, 0xffff5bb1⟩, ⟨.FF, .bcda, 11, S14, 0x895cd7be⟩,
   ⟨.FF, .abcd, 12, S11, 0x6b901122⟩, ⟨.FF, .dabc, 13, S12, 0xfd987193⟩,
   ⟨.FF, .cdab, 14, S13, 0xa679438e⟩, ⟨.FF, .bcda, 15, S14, 0x49b40821⟩,
   ⟨.GG, .abcd, 1, S21, 0xf61e2562⟩, ⟨.GG, .dabc, 6, S22, 0xc040b340⟩,
   ⟨.GG, .cdab, 11, S23, 0x265e5a51⟩, ⟨.GG, .bcda, 0, S24, 0xe9b6c7aa⟩,
   ⟨.GG, .abcd, 5, S21, 0xd62f105d⟩, ⟨.GG, .dabc, 10, S22, 0x2441453⟩,
   ⟨.GG, .cdab, 15, S23, 0xd8a1e681⟩, ⟨.GG, .bcda, 4, S24, 0xe7d3fbc8⟩,
   ⟨.GG, .abcd, 9, S21, 0x21e1cde6⟩, ⟨.GG, .dabc, 14, S22, 0xc33707d6⟩,
   ⟨.GG, .cdab, 3, S23, 0xf4d50d87⟩, ⟨.GG, .bcda, 8, S24, 0x455a14ed⟩,
   ⟨.GG, .abcd, 13, S21, 0xa9e3e905⟩, ⟨.GG, .dabc, 2, S22, 0xfcefa3f8⟩,
   ⟨.GG, .cdab, 7, S23, 0x676f02d9⟩, ⟨.GG, .bcda, 12, S24, 0x8d2a4c8a⟩,
   ⟨.HH, .abcd, 5, S31, 0xfffa3942⟩, ⟨.HH, .dabc, 8, S32, 0x8771f681⟩,
   ⟨.HH, .cdab, 11, S33, 0x6d9d6122⟩, ⟨.HH, .bcda, 14, S34, 0xfde5380c⟩,
   ⟨.HH, .abcd, 1, S31, 0xa4beea44⟩, ⟨.HH, .dabc, 4, S32, 0x4bdecfa9⟩,
   ⟨.HH, .cdab, 7, S33, 0xf6bb4b60⟩, ⟨.HH, .bcda, 10, S34, 0xbebfbc70⟩,
   ⟨.HH, .abcd, 13, S31, 0x289b7ec6⟩, ⟨.HH, .dabc, 0, S32, 0xeaa127fa⟩,
   ⟨.HH, .cdab, 3, S33, 0xd4ef3085⟩, ⟨.HH, .bcda, 6, S34, 0x4881d05⟩,
   ⟨.HH, .abcd, 9, S31, 0xd9d4d039⟩, ⟨.HH, .dabc, 12, S32, 0xe6db99e5⟩,
   ⟨.HH, .cdab, 15, S33, 0x1fa27cf8⟩, ⟨.HH, .bcda, 2, S34, 0xc4ac5665⟩,
   ⟨.II, .abcd, 0, S41, 0xf4292244⟩, ⟨.II, .dabc, 7, S42, 0x432aff97⟩,
   ⟨.II, .cdab, 14, S43, 0xab9423a7⟩, ⟨.II, .bcda, 5, S44, 0xfc93a039⟩,
   ⟨.II, .abcd, 12, S41, 0x655b59c3⟩, ⟨.II, .dabc, 3, S42, 0x8f0ccc92⟩,
   ⟨.II, .cdab, 10, S43, 0xffeff47d⟩, ⟨.II, .bcda, 1, S44, 0x85845dd1⟩,
   ⟨.II, .abcd, 8, S41, 0x6fa87e4f⟩, ⟨.II, .dabc, 15, S42, 0xfe2ce6e0⟩,
   ⟨.II, .cdab, 6, S43, 0xa3014314⟩, ⟨.II, .bcda, 13, S44, 0x4e0811a1⟩,
   ⟨.II, .abcd, 4, S41, 0xf7537e82⟩, ⟨.II, .dabc, 11, S42, 0xbd3af235⟩,
   ⟨.II, .cdab, 2, S43, 0x2ad7d2bb⟩, ⟨.II, .bcda, 9, S44, 0xeb86d391⟩]

/-- `transform`. -/
def transform (state : Regs) (block : Bytes) : Regs :=
  let x := decode block
  let r := lines.foldl (fun r l => l.run x r) state
  { a := state.a + r.a, b := state.b + r.b, c := state.c + r.c, d := state.d + r.d }

/-! ## `MD5` -/

/-- The contents of `buffer`. -/
structure Block where
  bytes : Bytes
  length_eq : bytes.length = 64
  deriving DecidableEq

/-- `memcpy` into the buffer. -/
def Block.write (b : Block) (i : Nat) (v : Bytes) : Option Block :=
  match h : writeAt b.bytes i v with
  | none => none
  | some bytes => some { bytes := bytes, length_eq := (writeAt_length h).trans b.length_eq }

/-- `MD5`. -/
structure MD5 where
  state : Regs
  count : UInt32 × UInt32
  buffer : Block
  digest : Bytes
  finalized : Bool
  deriving DecidableEq

namespace MD5

/-- `init`, on a buffer and a digest that were not initialised. -/
def init (buffer : Block) (digest : Bytes) : MD5 where
  state := { a := 0x67452301, b := 0xefcdab89, c := 0x98badcfe, d := 0x10325476 }
  count := (0, 0)
  buffer := buffer
  digest := digest
  finalized := false

/-- The number of bytes in the buffer: `count[0]` counts bits. -/
def bufferIndex (m : MD5) : UInt32 := (m.count.1 >>> 3) &&& 0x3F

/-- The count after `inputLength` more bytes. -/
def addCount (count : UInt32 × UInt32) (inputLength : UInt32) : UInt32 × UInt32 :=
  let bits := inputLength <<< 3
  let count0 := count.1 + bits
  (count0, (if count0 < bits then count.2 + 1 else count.2) + (inputLength >>> 29))

/-- The loop over the whole blocks of a piece, from `inputIndex` on. `inputIndex + 63` is a sum of 32-bit
words. -/
def transformLoop (input : Bytes) (inputLength : UInt32) : Nat → UInt32 → Regs → Option (Regs × UInt32)
  | 0, _, _ => none
  | fuel + 1, inputIndex, state =>
      if inputIndex + 63 < inputLength then
        (readAt input inputIndex.toNat 64).bind fun block =>
          transformLoop input inputLength fuel (inputIndex + 64) (transform state block)
      else some (state, inputIndex)

/-- `update`. -/
def update (m : MD5) (input : Bytes) (inputLength : UInt32) : Option MD5 :=
  if m.finalized then some m
  else
    let bufferSpace := 64 - m.bufferIndex
    let count := addCount m.count inputLength
    if inputLength ≥ bufferSpace then
      (readAt input 0 bufferSpace.toNat).bind fun head =>
      (m.buffer.write m.bufferIndex.toNat head).bind fun buffer =>
      (transformLoop input inputLength (inputLength.toNat + 1) bufferSpace
        (transform m.state buffer.bytes)).bind fun p =>
      (readAt input p.2.toNat (inputLength - p.2).toNat).bind fun tail =>
      (buffer.write 0 tail).map fun buffer => { m with state := p.1, count := count, buffer := buffer }
    else
      (readAt input 0 inputLength.toNat).bind fun head =>
      (m.buffer.write m.bufferIndex.toNat head).map fun buffer =>
        { m with count := count, buffer := buffer }

/-- `PADDING`. -/
def padding : Bytes := 0x80 :: List.replicate 63 0

/-- `finalize`. The `memset` at its end is given `sizeof(*buffer)`, which is one byte. -/
def finalize (m : MD5) : Option MD5 :=
  if m.finalized then some m
  else
    let bits := encode [m.count.1, m.count.2]
    let index := m.bufferIndex
    let padLen := if index < 56 then 56 - index else 120 - index
    (m.update padding padLen).bind fun m =>
    (m.update bits 8).bind fun m =>
    (m.buffer.write 0 [0]).map fun buffer =>
      { m with digest := encode m.state.words, buffer := buffer, finalized := true }

/-- A digit of `"%02x"`. -/
def hexDigit (n : UInt8) : UInt8 := if n < 10 then 48 + n else 87 + n

/-- `sprintf_s(…, "%02x", …)` over the bytes of a digest. -/
def hex (digest : Bytes) : Bytes :=
  digest.flatMap fun (b : UInt8) => [hexDigit (b >>> 4), hexDigit (b &&& 15)]

/-- `hex_digest`. -/
def hexDigest (m : MD5) : Bytes := if m.finalized then hex m.digest else []

/-! ## Streams -/

/-- `update(istream&)`: pieces of 1024 bytes; a piece that comes out shorter is the last one. -/
def updateStream : Nat → MD5 → Bytes → Option MD5
  | 0, _, _ => none
  | fuel + 1, m, stream =>
      let len := (stream.take 1024).length
      (m.update (stream.take 1024) (UInt32.ofNat len)).bind fun m =>
        if len = 1024 then updateStream fuel m (stream.drop 1024) else some m

/-- `update(FILE*)`, for what the calls of `fread` return: an empty piece ends the loop. -/
def updateFile : MD5 → List Bytes → Option MD5
  | m, [] => some m
  | m, piece :: pieces =>
      if piece.length = 0 then some m
      else (m.update piece (UInt32.ofNat piece.length)).bind fun m => updateFile m pieces

/-- What the download does with a file: one `update`, then `finalize` and `hex_digest`. -/
def digestOf (buffer : Block) (digest body : Bytes) : Option Bytes :=
  ((init buffer digest).update body (UInt32.ofNat body.length)).bind fun m => m.finalize.map hexDigest

end MD5

/-- A buffer of zeros. -/
def zeroBlock : Block := { bytes := List.replicate 64 0, length_eq := List.length_replicate }

/-- The first digest of the reference suite. -/
example : MD5.digestOf zeroBlock [] [] = some (ascii "d41d8cd98f00b204e9800998ecf8427e") := by
  decide +kernel

end AdManager.Md5
