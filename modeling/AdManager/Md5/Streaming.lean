/-
# AdManager.Md5.Streaming — what an `MD5` computes, however its message comes in.

The specification is the padded digest of `Lib.BlockDigest` with `transform` as its compression. An `MD5`
refines it: `Absorbed m xs` says what its state, its buffer and its bit count are after the bytes `xs`, and
one spec lemma for each operation carries it on. The words of `md5.cc` are 32 bits wide, and a piece that
ends within 64 bytes of `2^32` makes the loop of `update` run behind it; `update_isSome_iff` is the exact
bound.
-/
import AdManager.Lib.BlockDigest
import AdManager.Md5.MD5

namespace AdManager.Md5

open AdManager.Lib AdManager.Wire

/-! ## Bytes and words -/

/-- Shifted above what is there, a number is added. -/
theorem or_shiftLeft {a i : Nat} (h : a < 2 ^ i) (b : Nat) : a ||| b <<< i = a + b * 2 ^ i := by
  rw [Nat.or_comm, ← Nat.shiftLeft_add_eq_or_of_lt h, Nat.shiftLeft_eq, Nat.add_comm]

theorem or_bytes {a b c d : Nat} (ha : a < 256) (hb : b < 256) (hc : c < 256) :
    a ||| b <<< 8 ||| c <<< 16 ||| d <<< 24 = a + b * 256 + c * 65536 + d * 16777216 := by
  rw [or_shiftLeft (i := 8) ha, or_shiftLeft (i := 16) (by omega), or_shiftLeft (i := 24) (by omega)]
  rfl

/-- The four bytes of a word make up the word. -/
theorem word_bytes (w : UInt32) :
    (w &&& 0xff).toUInt8.toUInt32 ||| (((w >>> 8) &&& 0xff).toUInt8.toUInt32 <<< 8) |||
      (((w >>> 16) &&& 0xff).toUInt8.toUInt32 <<< 16) |||
      (((w >>> 24) &&& 0xff).toUInt8.toUInt32 <<< 24) = w := by
  have hw := w.toNat_lt
  have hmask : ∀ a, a % 256 &&& 255 = a % 256 := by
    intro a
    rw [Nat.and_two_pow_sub_one_eq_mod _ 8, Nat.mod_mod]
  have hfits : ∀ a i, i ≤ 24 → (a % 256) <<< i % 4294967296 = (a % 256) <<< i := by
    intro a i hi
    have hpow : 2 ^ i ≤ 2 ^ 24 := Nat.pow_le_pow_right (by decide) hi
    rw [Nat.shiftLeft_eq]
    apply Nat.mod_eq_of_lt
    calc a % 256 * 2 ^ i ≤ 255 * 2 ^ 24 := Nat.mul_le_mul (by omega) hpow
      _ < 4294967296 := by decide
  apply UInt32.toNat_inj.mp
  simp [hmask, hfits, Nat.shiftRight_eq_div_pow]
  rw [or_bytes (by omega) (by omega) (by omega)]
  omega

@[simp] theorem encode_length (ws : List UInt32) : (encode ws).length = 4 * ws.length := by
  simp [encode, Nat.mul_comm]

/-- **`decode` undoes `encode`.** -/
@[simp] theorem decode_encode (ws : List UInt32) : decode (encode ws) = ws := by
  induction ws with
  | nil => rfl
  | cons w ws ih =>
      show _ :: decode (encode ws) = w :: ws
      rw [ih, word_bytes]

/-! ## The specification -/

/-- `transform` as a compression. -/
def compression : Compression Regs UInt8 where
  size := 64
  size_pos := by decide
  compress := transform

@[simp] theorem compression_size : compression.size = 64 := rfl

/-- The number of bits of `n` bytes, in two words. -/
def bitCount (n : Nat) : UInt32 × UInt32 := (UInt32.ofNat (8 * n), UInt32.ofNat (8 * n / 2 ^ 32))

/-- The padding: a bit 1, zeros up to 8 bytes before the end of a block, and the number of bits. -/
def mdPadding : Padding compression where
  fill n := 0x80 :: List.replicate ((119 - n % 64) % 64) 0
  tag n := encode [(bitCount n).1, (bitCount n).2]
  tagLength := 8
  bound := 2 ^ 61
  tag_length _ := by simp
  tagLength_le := by decide
  aligned n := by
    rw [List.length_cons, List.length_replicate, compression_size]
    omega
  tag_injective m n hm hn h := by
    have hwords := congrArg decode h
    rw [decode_encode, decode_encode] at hwords
    obtain ⟨hlow, hhigh⟩ : UInt32.ofNat (8 * m) = UInt32.ofNat (8 * n) ∧
        UInt32.ofNat (8 * m / 2 ^ 32) = UInt32.ofNat (8 * n / 2 ^ 32) := by
      simpa [bitCount] using hwords
    have hlow := congrArg UInt32.toNat hlow
    have hhigh := congrArg UInt32.toNat hhigh
    simp only [UInt32.toNat_ofNat'] at hlow hhigh
    omega

/-- The registers of `init`. -/
def initState : Regs := (MD5.init zeroBlock []).state

/-- The digest of a message. -/
def md5 (xs : Bytes) : Bytes := encode (mdPadding.digest initState xs).words

/-! ## Counting -/

theorem addCount_bitCount {n L : Nat} (hL : L < 2 ^ 32) :
    MD5.addCount (bitCount n) (UInt32.ofNat L) = bitCount (n + L) := by
  have hbits : (UInt32.ofNat L <<< 3).toNat = 8 * L % 2 ^ 32 := by
    simp [Nat.shiftLeft_eq]
    omega
  have hhigh : (UInt32.ofNat L >>> 29).toNat = L / 2 ^ 29 := by
    simp [Nat.shiftRight_eq_div_pow]
    omega
  apply Prod.ext
  · apply UInt32.toNat_inj.mp
    simp only [MD5.addCount, bitCount, UInt32.toNat_add, hbits, UInt32.toNat_ofNat']
    omega
  · apply UInt32.toNat_inj.mp
    simp only [MD5.addCount, bitCount, UInt32.toNat_add, hbits, hhigh, UInt32.toNat_ofNat',
      UInt32.lt_iff_toNat_lt, apply_ite UInt32.toNat, UInt32.toNat_one]
    split <;> omega

theorem bufferIndex_bitCount {m : MD5} {n : Nat} (h : m.count = bitCount n) :
    m.bufferIndex.toNat = n % 64 := by
  rw [MD5.bufferIndex, h]
  simp [bitCount]
  rw [Nat.and_two_pow_sub_one_eq_mod _ 6, Nat.shiftRight_eq_div_pow]
  omega

theorem bufferIndex_lt (m : MD5) : m.bufferIndex.toNat < 64 := by
  rw [MD5.bufferIndex, UInt32.toNat_and]
  exact Nat.lt_of_le_of_lt Nat.and_le_right (by decide)

theorem bufferSpace_eq (m : MD5) : (64 - m.bufferIndex).toNat = 64 - m.bufferIndex.toNat := by
  have hlt := bufferIndex_lt m
  have h64 : (64 : UInt32).toNat = 64 := rfl
  rw [UInt32.toNat_sub_of_le, h64]
  rw [UInt32.le_iff_toNat_le, h64]
  omega

/-! ## The loop over whole blocks -/

section Loop

variable {input : Bytes} {L i : UInt32} {e : Nat}

/-- The loop takes in what lies between `inputIndex` and the end, and leaves what is less than a block. The
index stays below `2^32 - 63`: it is `-e` modulo 64, and `e + L` fits a word. -/
theorem transformLoop_absorb (hL : L.toNat ≤ input.length) (hend : e + L.toNat < 2 ^ 32) (ws : Bytes) :
    ∀ (fuel : Nat) {i : UInt32} {s : Regs}, (input.take L.toNat).drop i.toNat = ws →
      i.toNat ≤ L.toNat → (i.toNat + e) % 64 = 0 → ws.length < fuel →
      ∃ j, MD5.transformLoop input L fuel i s = some (compression.absorb s ws, j) ∧ j.toNat ≤ L.toNat ∧
        (input.take L.toNat).drop j.toNat = compression.rest ws := by
  induction ws using compression.block_induction with
  | hshort ws hlt =>
      intro fuel i s hws hi he hfuel
      have hlen : ws.length = L.toNat - i.toNat := by
        rw [← hws, List.length_drop, List.length_take, Nat.min_eq_left hL]
      rw [compression_size] at hlt
      obtain ⟨fuel, rfl⟩ : ∃ k, fuel = k + 1 := ⟨fuel - 1, by omega⟩
      have hstop : ¬ i + 63 < L := by
        rw [UInt32.lt_iff_toNat_lt, UInt32.toNat_add]
        have h63 : (63 : UInt32).toNat = 63 := rfl
        omega
      refine ⟨i, ?_, hi, ?_⟩
      · rw [MD5.transformLoop, if_neg hstop, Compression.absorb_of_lt hlt]
      · rw [Compression.rest_of_lt hlt, hws]
  | hblock b ws hb ih =>
      intro fuel i s hws hi he hfuel
      have hlen : b.length + ws.length = L.toNat - i.toNat := by
        rw [← List.length_append, ← hws, List.length_drop, List.length_take, Nat.min_eq_left hL]
      rw [compression_size] at hb
      obtain ⟨fuel, rfl⟩ : ∃ k, fuel = k + 1 := ⟨fuel - 1, by omega⟩
      have hgo : i + 63 < L := by
        rw [UInt32.lt_iff_toNat_lt, UInt32.toNat_add]
        have h63 : (63 : UInt32).toNat = 63 := rfl
        omega
      have hnext : (i + 64).toNat = i.toNat + 64 := by
        rw [UInt32.toNat_add]
        have h64 : (64 : UInt32).toNat = 64 := rfl
        omega
      have hread : readAt input i.toNat 64 = some b := by
        rw [readAt_take hL (by omega), hws, List.take_left' hb]
      have hdrop : (input.take L.toNat).drop (i + 64).toNat = ws := by
        rw [hnext, ← List.drop_drop, hws, List.drop_left' hb]
      rw [MD5.transformLoop, if_pos hgo, hread, Option.bind_some, Compression.absorb_block hb,
        Compression.rest_block hb]
      exact ih fuel hdrop (by omega) (by omega) (by rw [List.length_append] at hfuel; omega)

/-- The fuel of `update` suffices: with more of it the loop does the same, so its `none` is a read behind the
piece. -/
theorem transformLoop_fuel (hL : input.length = L.toNat) (fuel : Nat) : ∀ {more : Nat} {i : UInt32}
    {s : Regs}, i.toNat ≤ L.toNat → L.toNat < i.toNat + fuel → fuel ≤ more →
      MD5.transformLoop input L more i s = MD5.transformLoop input L fuel i s := by
  induction fuel with
  | zero =>
      intro more i s hi hfuel hmore
      omega
  | succ fuel ih =>
      intro more i s hi hfuel hmore
      obtain ⟨more, rfl⟩ : ∃ k, more = k + 1 := ⟨more - 1, by omega⟩
      rw [MD5.transformLoop, MD5.transformLoop]
      split
      · cases hread : readAt input i.toNat 64 with
        | none => rfl
        | some block =>
            have hbound : i.toNat + 64 ≤ input.length := by
              rw [← readAt_isSome_iff, hread]
              rfl
            have hnext : (i + 64).toNat = i.toNat + 64 := by
              have hword := L.toNat_lt
              have h64 : (64 : UInt32).toNat = 64 := rfl
              rw [UInt32.toNat_add]
              omega
            exact ih (by omega) (by omega) (by omega)
      · rfl

/-- A piece that ends too close to `2^32` makes the index run over its end. -/
theorem transformLoop_overrun (hL : input.length = L.toNat) (he : e < 64) (hend : 2 ^ 32 ≤ e + L.toNat)
    (fuel : Nat) : ∀ {i : UInt32} {s : Regs}, i.toNat ≤ L.toNat → (i.toNat + e) % 64 = 0 →
      MD5.transformLoop input L fuel i s = none := by
  have hword := L.toNat_lt
  have h63 : (63 : UInt32).toNat = 63 := rfl
  have h64 : (64 : UInt32).toNat = 64 := rfl
  induction fuel with
  | zero =>
      intro i s hi hmod
      rfl
  | succ fuel ih =>
      intro i s hi hmod
      have hgo : i + 63 < L := by
        rw [UInt32.lt_iff_toNat_lt, UInt32.toNat_add]
        omega
      rw [MD5.transformLoop, if_pos hgo]
      cases hread : readAt input i.toNat 64 with
      | none => rfl
      | some block =>
          have hbound : i.toNat + 64 ≤ input.length := by
            rw [← readAt_isSome_iff, hread]
            rfl
          have hnext : (i + 64).toNat = i.toNat + 64 := by
            rw [UInt32.toNat_add]
            omega
          exact ih (by omega) (by omega)

end Loop

/-! ## `update` -/

/-- The bytes in the buffer that are still to be compressed. -/
def held (m : MD5) : Bytes := m.buffer.bytes.take m.bufferIndex.toNat

theorem held_length (m : MD5) : (held m).length = m.bufferIndex.toNat := by
  have hlt := bufferIndex_lt m
  rw [held, List.length_take, m.buffer.length_eq]
  omega

/-- `m` with a piece of length `L` taken in and `b` as its buffer. -/
def took (m : MD5) (L : UInt32) (piece : Bytes) (b : Block) : MD5 :=
  { m with
    state := compression.absorb m.state (held m ++ piece)
    count := MD5.addCount m.count L
    buffer := b }

/-- A write into the buffer that fits. -/
theorem Block.write_eq (b : Block) {i : Nat} {v : Bytes} (h : i + v.length ≤ 64) :
    ∃ b', b.write i v = some b' ∧ b'.bytes = b.bytes.take i ++ v ++ b.bytes.drop (i + v.length) := by
  have hbound : i + v.length ≤ b.bytes.length := by
    rw [b.length_eq]
    exact h
  unfold Block.write
  split
  next hnone => simp [writeAt, hbound] at hnone
  next bytes hsome =>
      rw [writeAt, if_pos hbound, Option.some.injEq] at hsome
      exact ⟨_, rfl, hsome.symm⟩

section Update

variable {m : MD5} {input : Bytes} {L : UInt32}

/-- The piece fills the buffer, and what is behind it goes through the loop. -/
theorem update_full (hm : m.finalized = false) (hL : L.toNat ≤ input.length)
    (hend : m.bufferIndex.toNat + L.toNat < 2 ^ 32) (hfull : 64 - m.bufferIndex.toNat ≤ L.toNat) :
    ∃ b : Block, m.update input L = some (took m L (input.take L.toNat) b) ∧
      b.bytes.take ((held m ++ input.take L.toNat).length % 64) =
        compression.rest (held m ++ input.take L.toNat) ∧
      (L.toNat = 64 - m.bufferIndex.toNat → b.bytes = held m ++ input.take L.toNat) := by
  have hindex := bufferIndex_lt m
  have hspace := bufferSpace_eq m
  have hlen : (input.take L.toNat).length = L.toNat := by
    rw [List.length_take, Nat.min_eq_left hL]
  have hhead : ((input.take L.toNat).take (64 - m.bufferIndex.toNat)).length =
      64 - m.bufferIndex.toNat := by
    rw [List.length_take, hlen, Nat.min_eq_left hfull]
  have hread : readAt input 0 (64 - m.bufferIndex.toNat) =
      some ((input.take L.toNat).take (64 - m.bufferIndex.toNat)) := by
    rw [readAt_take hL (by omega), List.drop_zero]
  -- the buffer after the first copy is a block
  obtain ⟨b, hwrite, hb⟩ := m.buffer.write_eq (i := m.bufferIndex.toNat)
    (v := (input.take L.toNat).take (64 - m.bufferIndex.toNat)) (by omega)
  have hb : b.bytes = held m ++ (input.take L.toNat).take (64 - m.bufferIndex.toNat) := by
    rw [hb, List.drop_eq_nil_of_le (by rw [m.buffer.length_eq]; omega), List.append_nil, held]
  have hdata : held m ++ input.take L.toNat =
      b.bytes ++ (input.take L.toNat).drop (64 - m.bufferIndex.toNat) := by
    rw [hb, List.append_assoc, List.take_append_drop]
  -- the loop takes in the other blocks
  obtain ⟨j, hloop, hj, htail⟩ := transformLoop_absorb (s := transform m.state b.bytes) hL hend _
    (L.toNat + 1) (by rw [hspace]) (by rw [hspace]; exact hfull)
    (by rw [hspace]; omega) (by rw [List.length_drop, hlen]; omega)
  have habsorb : compression.absorb m.state (held m ++ input.take L.toNat) =
      compression.absorb (transform m.state b.bytes)
        ((input.take L.toNat).drop (64 - m.bufferIndex.toNat)) := by
    rw [hdata, Compression.absorb_block b.length_eq]
    rfl
  have hrest : compression.rest (held m ++ input.take L.toNat) =
      compression.rest ((input.take L.toNat).drop (64 - m.bufferIndex.toNat)) := by
    rw [hdata, Compression.rest_block b.length_eq]
  rw [← habsorb] at hloop
  rw [← hrest] at htail
  -- what is left over is copied to the start of the buffer
  have hcopy : readAt input j.toNat (L - j).toNat =
      some (compression.rest (held m ++ input.take L.toNat)) := by
    rw [UInt32.toNat_sub_of_le _ _ (UInt32.le_iff_toNat_le.mpr hj), readAt_take hL (by omega), htail,
      List.take_of_length_le]
    rw [← htail, List.length_drop, hlen]
  have hshort := compression.rest_length_lt (held m ++ input.take L.toNat)
  rw [compression_size] at hshort
  obtain ⟨b', hwrite', hb'⟩ := b.write_eq (i := 0)
    (v := compression.rest (held m ++ input.take L.toNat)) (by omega)
  refine ⟨b', ?_, ?_, ?_⟩
  · unfold MD5.update
    rw [if_neg (by rw [hm]; exact Bool.false_ne_true),
      if_pos (by rw [ge_iff_le, UInt32.le_iff_toNat_le, hspace]; exact hfull), hspace, hread,
      Option.bind_some, hwrite, Option.bind_some, hloop, Option.bind_some, hcopy, Option.bind_some,
      hwrite', Option.map_some]
    rfl
  · rw [hb', List.take_zero, List.nil_append, List.take_left']
    rw [Compression.rest_length, compression_size]
  · intro hexact
    have hnil : compression.rest (held m ++ input.take L.toNat) = [] := by
      apply Compression.rest_eq_nil
      rw [List.length_append, held_length, hlen, compression_size]
      omega
    rw [hb', hnil, hb, hexact, List.take_take, Nat.min_self]
    simp

/-- The piece fits the buffer. -/
theorem update_short (hm : m.finalized = false) (hL : L.toNat ≤ input.length)
    (hshort : L.toNat < 64 - m.bufferIndex.toNat) :
    ∃ b : Block, m.update input L = some (took m L (input.take L.toNat) b) ∧
      b.bytes.take ((held m ++ input.take L.toNat).length % 64) =
        compression.rest (held m ++ input.take L.toNat) := by
  have hlen : (input.take L.toNat).length = L.toNat := by
    rw [List.length_take, Nat.min_eq_left hL]
  have hread : readAt input 0 L.toNat = some (input.take L.toNat) := by
    rw [readAt_take hL (by omega), List.drop_zero, List.take_take, Nat.min_self]
  obtain ⟨b, hwrite, hb⟩ := m.buffer.write_eq (i := m.bufferIndex.toNat) (v := input.take L.toNat)
    (by omega)
  have hsum : (held m ++ input.take L.toNat).length < compression.size := by
    rw [List.length_append, held_length, hlen, compression_size]
    omega
  refine ⟨b, ?_, ?_⟩
  · unfold MD5.update
    rw [if_neg (by rw [hm]; exact Bool.false_ne_true),
      if_neg (by rw [ge_iff_le, UInt32.le_iff_toNat_le, bufferSpace_eq]; omega), hread,
      Option.bind_some, hwrite, Option.map_some, took, Compression.absorb_of_lt hsum]
  · rw [Nat.mod_eq_of_lt (b := 64) hsum, Compression.rest_of_lt hsum, hb, held, List.take_left]

/-- **`update`** compresses what it held and what it is given, and holds the rest. -/
theorem update_spec (hm : m.finalized = false) (hL : L.toNat ≤ input.length)
    (hend : m.bufferIndex.toNat + L.toNat < 2 ^ 32) :
    ∃ b : Block, m.update input L = some (took m L (input.take L.toNat) b) ∧
      b.bytes.take ((held m ++ input.take L.toNat).length % 64) =
        compression.rest (held m ++ input.take L.toNat) := by
  by_cases hfull : 64 - m.bufferIndex.toNat ≤ L.toNat
  · obtain ⟨b, hupdate, hrest, _⟩ := update_full hm hL hend hfull
    exact ⟨b, hupdate, hrest⟩
  · exact update_short hm hL (by omega)

/-- A piece that ends within a block of `2^32` makes `update` read behind it. -/
theorem update_overrun (hm : m.finalized = false) (hL : input.length = L.toNat)
    (hend : 2 ^ 32 ≤ m.bufferIndex.toNat + L.toNat) : m.update input L = none := by
  have hindex := bufferIndex_lt m
  have hspace := bufferSpace_eq m
  have hfull : L ≥ 64 - m.bufferIndex := by
    rw [ge_iff_le, UInt32.le_iff_toNat_le, hspace]
    omega
  unfold MD5.update
  rw [if_neg (by rw [hm]; exact Bool.false_ne_true), if_pos hfull]
  cases readAt input 0 (64 - m.bufferIndex).toNat with
  | none => rfl
  | some head =>
      rw [Option.bind_some]
      cases m.buffer.write m.bufferIndex.toNat head with
      | none => rfl
      | some b =>
          rw [Option.bind_some, transformLoop_overrun hL hindex hend _ (by omega) (by omega)]
          rfl

/-- **When `update` stays inside its piece and its buffer**: for a piece of `L` bytes, exactly when the end of
the piece, counted from the start of the buffer, fits a word. -/
theorem update_isSome_iff (hL : input.length = L.toNat) :
    (m.update input L).isSome ↔ m.finalized = true ∨ m.bufferIndex.toNat + L.toNat < 2 ^ 32 := by
  cases hm : m.finalized with
  | true =>
      unfold MD5.update
      rw [if_pos hm]
      simp
  | false =>
      by_cases hend : m.bufferIndex.toNat + L.toNat < 2 ^ 32
      · obtain ⟨b, hupdate, _⟩ := update_spec hm (Nat.le_of_eq hL.symm) hend
        rw [hupdate]
        exact iff_of_true rfl (Or.inr hend)
      · rw [update_overrun hm hL (by omega)]
        exact iff_of_false (by simp) fun h => h.elim Bool.false_ne_true hend

/-- A piece of three bytes into an empty buffer. -/
theorem update_isSome_iff_abc :
    ((MD5.init zeroBlock []).update (ascii "abc") 3).isSome ↔
      (MD5.init zeroBlock []).finalized = true ∨
        (MD5.init zeroBlock []).bufferIndex.toNat + (3 : UInt32).toNat < 2 ^ 32 :=
  update_isSome_iff rfl

end Update

/-! ## Messages in pieces -/

/-- **What an `MD5` is after the bytes `xs`**, as long as it is not finalized. -/
structure Absorbed (m : MD5) (xs : Bytes) : Prop where
  notFinalized : m.finalized = false
  state : m.state = compression.absorb initState xs
  count : m.count = bitCount xs.length
  held : held m = compression.rest xs

theorem init_absorbed (buffer : Block) (digest : Bytes) : Absorbed (MD5.init buffer digest) [] where
  notFinalized := rfl
  state := rfl
  count := rfl
  held := by
    rw [held, bufferIndex_bitCount (n := 0) rfl]
    rfl

section Pieces

variable {m m' : MD5} {xs input : Bytes} {L : UInt32}

theorem Absorbed.bufferIndex (h : Absorbed m xs) : m.bufferIndex.toNat = xs.length % 64 :=
  bufferIndex_bitCount h.count

/-- What `update` leaves has taken in the piece. -/
theorem Absorbed.extend (h : Absorbed m xs) (hL : L.toNat ≤ input.length) {b : Block}
    (hb : b.bytes.take ((Md5.held m ++ input.take L.toNat).length % 64) =
      compression.rest (Md5.held m ++ input.take L.toNat)) :
    Absorbed (took m L (input.take L.toNat) b) (xs ++ input.take L.toNat) := by
  have hlen : (input.take L.toNat).length = L.toNat := by
    rw [List.length_take, Nat.min_eq_left hL]
  have hcount : MD5.addCount m.count L = bitCount (xs ++ input.take L.toNat).length := by
    rw [h.count, List.length_append, hlen, ← addCount_bitCount L.toNat_lt, UInt32.ofNat_toNat]
  refine ⟨h.notFinalized, ?_, hcount, ?_⟩
  · rw [took, Compression.absorb_append initState, ← h.held, ← h.state]
  · rw [Md5.held, bufferIndex_bitCount (m := took m L (input.take L.toNat) b) hcount, took,
      Compression.rest_append, ← h.held, ← hb, List.length_append, List.length_append, held_length,
      h.bufferIndex]
    congr 1
    omega

/-- **`update` takes in the bytes that it is given**, if its index fits a word. -/
theorem update_absorbed (h : Absorbed m xs) (input : Bytes) (hL : L.toNat ≤ input.length)
    (hend : xs.length % 64 + L.toNat < 2 ^ 32) :
    ∃ m', m.update input L = some m' ∧ Absorbed m' (xs ++ input.take L.toNat) := by
  obtain ⟨b, hupdate, hb⟩ := update_spec h.notFinalized hL (by rw [h.bufferIndex]; exact hend)
  exact ⟨_, hupdate, h.extend hL hb⟩

/-- Any pieces, none of them within a block of `2^32` bytes. -/
theorem updates_absorbed (pieces : List Bytes) (hsmall : ∀ piece ∈ pieces, piece.length ≤ 2 ^ 32 - 64) :
    ∀ {m : MD5} {xs : Bytes}, Absorbed m xs →
      ∃ m', pieces.foldlM (fun m piece => MD5.update m piece (UInt32.ofNat piece.length)) m = some m' ∧
        Absorbed m' (xs ++ pieces.flatten) := by
  induction pieces with
  | nil =>
      intro m xs h
      exact ⟨m, rfl, by simpa using h⟩
  | cons piece pieces ih =>
      intro m xs h
      have hpiece := hsmall piece (by simp)
      have hlen : (UInt32.ofNat piece.length).toNat = piece.length := by
        rw [UInt32.toNat_ofNat']
        omega
      obtain ⟨m', hupdate, habsorbed⟩ := update_absorbed (L := UInt32.ofNat piece.length) h piece
        (by omega) (by omega)
      rw [hlen, List.take_length] at habsorbed
      obtain ⟨m'', hrest, hall⟩ := ih (fun p hp => hsmall p (by simp [hp])) habsorbed
      refine ⟨m'', ?_, ?_⟩
      · rw [List.foldlM_cons, hupdate]
        exact hrest
      · rw [List.flatten_cons, ← List.append_assoc]
        exact hall

end Pieces

/-! ## `finalize` -/

section Finalize

variable {m : MD5} {xs : Bytes}

theorem fill_length (n : Nat) : (mdPadding.fill n).length = (119 - n % 64) % 64 + 1 := by
  show (0x80 :: List.replicate ((119 - n % 64) % 64) (0 : UInt8)).length = _
  rw [List.length_cons, List.length_replicate]

/-- `PADDING` has enough zeros. -/
theorem padding_take (n : Nat) : MD5.padding.take (mdPadding.fill n).length = mdPadding.fill n := by
  rw [fill_length]
  show 0x80 :: (List.replicate 63 0).take ((119 - n % 64) % 64) =
    0x80 :: List.replicate ((119 - n % 64) % 64) (0 : UInt8)
  rw [List.take_replicate, Nat.min_eq_left (by omega)]

/-- `padLen`. -/
theorem padLen_eq (h : Absorbed m xs) :
    (if m.bufferIndex < 56 then 56 - m.bufferIndex else 120 - m.bufferIndex).toNat =
      (mdPadding.fill xs.length).length := by
  have hindex := h.bufferIndex
  have hlt := bufferIndex_lt m
  have h56 : (56 : UInt32).toNat = 56 := rfl
  have h120 : (120 : UInt32).toNat = 120 := rfl
  rw [fill_length]
  split
  next hsmall =>
      rw [UInt32.lt_iff_toNat_lt] at hsmall
      rw [UInt32.toNat_sub_of_le _ _ (by rw [UInt32.le_iff_toNat_le]; omega)]
      omega
  next hlarge =>
      rw [UInt32.lt_iff_toNat_lt] at hlarge
      rw [UInt32.toNat_sub_of_le _ _ (by rw [UInt32.le_iff_toNat_le]; omega)]
      omega

/-- The last block of a padded message: what `update` held before it, and the tag. -/
theorem padded_drop (xs : Bytes) :
    (mdPadding.padded xs).drop ((mdPadding.padded xs).length - 64) =
      compression.rest (xs ++ mdPadding.fill xs.length) ++ mdPadding.tag xs.length := by
  have htag := mdPadding.tag_length xs.length
  have hfill := fill_length xs.length
  have h8 : mdPadding.tagLength = 8 := rfl
  rw [Padding.padded, ← List.append_assoc, Compression.rest, compression_size, List.length_append, htag,
    h8, List.length_append, hfill, List.drop_append_of_le_length]
  · congr 2
    omega
  · rw [List.length_append]
    omega

/-- **`finalize`** stores the digest of what was taken in. It leaves the last padded block in the buffer,
but for its first byte. -/
theorem finalize_absorbed (h : Absorbed m xs) :
    ∃ m', m.finalize = some m' ∧ m'.finalized = true ∧ m'.digest = md5 xs ∧
      m'.buffer.bytes = 0 :: (mdPadding.padded xs).drop ((mdPadding.padded xs).length - 63) := by
  have hpad := padLen_eq h
  have hfill := fill_length xs.length
  have htag := mdPadding.tag_length xs.length
  have h8 : mdPadding.tagLength = 8 := rfl
  -- the padding up to 8 bytes before the end of a block
  obtain ⟨m₁, hfirst, h₁⟩ := update_absorbed h MD5.padding
    (by rw [hpad, hfill]; show _ ≤ 64; omega) (by rw [hpad]; omega)
  rw [hpad, padding_take] at h₁
  have hindex : m₁.bufferIndex.toNat = 56 := by
    rw [h₁.bufferIndex, List.length_append, hfill]
    omega
  -- the number of bits fills the block
  have hbits : encode [m.count.1, m.count.2] = mdPadding.tag xs.length := by
    rw [h.count]
    rfl
  have hall : (encode [m.count.1, m.count.2]).take (8 : UInt32).toNat = mdPadding.tag xs.length := by
    rw [hbits, List.take_of_length_le]
    exact Nat.le_of_eq htag
  obtain ⟨b, hsecond, hrest, hlast⟩ := update_full (L := 8) h₁.notFinalized
    (show (8 : UInt32).toNat ≤ (encode [m.count.1, m.count.2]).length by rw [hbits, htag]; decide)
    (by rw [hindex]; decide) (by rw [hindex]; decide)
  have h₂ := h₁.extend (by rw [hbits, htag]; decide) hrest
  have hblock := hlast (by rw [hindex]; rfl)
  rw [hall, h₁.held, ← padded_drop] at hblock
  rw [hall, List.append_assoc] at h₂
  -- one byte of the buffer is cleared
  obtain ⟨b', hwrite, hb'⟩ := b.write_eq (i := 0) (v := [0]) (by decide)
  refine ⟨{ took m₁ 8 (mdPadding.tag xs.length) b with
      digest := md5 xs, buffer := b', finalized := true }, ?_, rfl, rfl, ?_⟩
  · unfold MD5.finalize
    rw [if_neg (by rw [h.notFinalized]; exact Bool.false_ne_true)]
    simp only [hfirst, hsecond, Option.bind_some, hall, h₂.state]
    show (b.write 0 [0]).map _ = _
    rw [hwrite]
    rfl
  · show b'.bytes = _
    have hpos : 64 ≤ (mdPadding.padded xs).length := by
      rw [Padding.padded, ← List.append_assoc, List.length_append, htag, h8, List.length_append, hfill]
      omega
    rw [hb', hblock, List.take_zero, List.nil_append, List.drop_drop, List.length_singleton,
      List.singleton_append]
    congr 2
    omega

/-- The digest, as text. -/
theorem finalize_hexDigest (h : Absorbed m xs) :
    m.finalize.map MD5.hexDigest = some (MD5.hex (md5 xs)) := by
  obtain ⟨m', hfin, hdone, hdigest, _⟩ := finalize_absorbed h
  rw [hfin, Option.map_some, MD5.hexDigest, if_pos hdone, hdigest]

end Finalize

/-! ## The ways to digest a message -/

/-- **Any pieces give the digest of the whole message**: `update` for each of them, `finalize` and
`hex_digest`. -/
theorem hexDigest_pieces (buffer : Block) (digest : Bytes) (pieces : List Bytes)
    (hsmall : ∀ piece ∈ pieces, piece.length ≤ 2 ^ 32 - 64) :
    ((pieces.foldlM (fun m piece => MD5.update m piece (UInt32.ofNat piece.length))
      (MD5.init buffer digest)).bind fun m => m.finalize.map MD5.hexDigest) =
      some (MD5.hex (md5 pieces.flatten)) := by
  obtain ⟨m, hpieces, habsorbed⟩ := updates_absorbed pieces hsmall (init_absorbed buffer digest)
  rw [List.nil_append] at habsorbed
  rw [hpieces, Option.bind_some, finalize_hexDigest habsorbed]

/-- The second of these pieces fills the buffer, has a block of its own and leaves two bytes over. -/
def threePieces : List Bytes := [List.replicate 60 97, List.replicate 70 98, [99]]

theorem hexDigest_pieces_three :
    ((threePieces.foldlM (fun m piece => MD5.update m piece (UInt32.ofNat piece.length))
      (MD5.init zeroBlock [])).bind fun m => m.finalize.map MD5.hexDigest) =
      some (ascii "013ff76cf7016270337ee7eeb85f48eb") :=
  (hexDigest_pieces zeroBlock [] threePieces (by decide)).trans (by decide +kernel)

/-- **`finalize` leaves the end of the message in the buffer.** It clears a single byte: the buffer keeps the
last padded block, whatever the pieces were. -/
theorem finalize_leaves (buffer : Block) (digest : Bytes) (pieces : List Bytes)
    (hsmall : ∀ piece ∈ pieces, piece.length ≤ 2 ^ 32 - 64) :
    ((pieces.foldlM (fun m piece => MD5.update m piece (UInt32.ofNat piece.length))
      (MD5.init buffer digest)).bind fun m => m.finalize.map fun m => m.buffer.bytes) =
      some (0 :: (mdPadding.padded pieces.flatten).drop
        ((mdPadding.padded pieces.flatten).length - 63)) := by
  obtain ⟨m, hpieces, habsorbed⟩ := updates_absorbed pieces hsmall (init_absorbed buffer digest)
  rw [List.nil_append] at habsorbed
  obtain ⟨m', hfin, _, _, hbuffer⟩ := finalize_absorbed habsorbed
  rw [hpieces, Option.bind_some, hfin, Option.map_some, hbuffer]

/-- The last two bytes of the second piece and the third are still there, but for the first byte of the
block. -/
theorem finalize_leaves_three :
    ((threePieces.foldlM (fun m piece => MD5.update m piece (UInt32.ofNat piece.length))
      (MD5.init zeroBlock [])).bind fun m => m.finalize.map fun m => m.buffer.bytes) =
      some ([0, 98, 99, 128] ++ List.replicate 52 0 ++ [24, 4, 0, 0, 0, 0, 0, 0]) :=
  (finalize_leaves zeroBlock [] threePieces (by decide)).trans (by decide +kernel)

/-- A stream. -/
theorem updateStream_absorbed (fuel : Nat) : ∀ {m : MD5} {xs : Bytes} (stream : Bytes), Absorbed m xs →
    stream.length < 1024 * fuel →
      ∃ m', MD5.updateStream fuel m stream = some m' ∧ Absorbed m' (xs ++ stream) := by
  induction fuel with
  | zero =>
      intro m xs stream h hfuel
      omega
  | succ fuel ih =>
      intro m xs stream h hfuel
      have hpiece : (stream.take 1024).length ≤ 1024 := by
        rw [List.length_take]
        omega
      have hlen : (UInt32.ofNat (stream.take 1024).length).toNat = (stream.take 1024).length := by
        rw [UInt32.toNat_ofNat']
        omega
      obtain ⟨m', hupdate, habsorbed⟩ := update_absorbed
        (L := UInt32.ofNat (stream.take 1024).length) h (stream.take 1024) (by omega) (by omega)
      rw [hlen, List.take_length] at habsorbed
      simp only [MD5.updateStream, hupdate, Option.bind_some]
      split
      next hfull =>
          -- more may come: the rest is shorter
          rw [List.length_take] at hfull
          obtain ⟨m'', hrest, hall⟩ := ih (stream.drop 1024) habsorbed
            (by rw [List.length_drop]; omega)
          refine ⟨m'', hrest, ?_⟩
          rw [List.append_assoc, List.take_append_drop] at hall
          exact hall
      next hlast =>
          rw [List.length_take] at hlast
          rw [List.take_of_length_le (by omega)] at habsorbed
          exact ⟨m', rfl, habsorbed⟩

/-- A file, whatever `fread` returns until it returns nothing. -/
theorem updateFile_absorbed (reads : List Bytes) (hsmall : ∀ piece ∈ reads, piece.length ≤ 1024) :
    ∀ {m : MD5} {xs : Bytes}, Absorbed m xs → ∃ m', MD5.updateFile m reads = some m' ∧
      Absorbed m' (xs ++ (reads.takeWhile (· ≠ [])).flatten) := by
  induction reads with
  | nil =>
      intro m xs h
      exact ⟨m, rfl, by simpa using h⟩
  | cons piece reads ih =>
      intro m xs h
      by_cases hempty : piece = []
      · refine ⟨m, ?_, ?_⟩
        · rw [MD5.updateFile, if_pos (by simp [hempty])]
        · simpa [hempty] using h
      · have hpiece := hsmall piece (by simp)
        have hlen : (UInt32.ofNat piece.length).toNat = piece.length := by
          rw [UInt32.toNat_ofNat']
          omega
        obtain ⟨m', hupdate, habsorbed⟩ := update_absorbed (L := UInt32.ofNat piece.length)
          h piece (by omega) (by omega)
        rw [hlen, List.take_length] at habsorbed
        obtain ⟨m'', hrest, hall⟩ := ih (fun p hp => hsmall p (by simp [hp])) habsorbed
        refine ⟨m'', ?_, ?_⟩
        · rw [MD5.updateFile, if_neg (by simpa using hempty), hupdate, Option.bind_some, hrest]
        · rw [List.takeWhile_cons, if_pos (by simpa using hempty), List.flatten_cons,
            ← List.append_assoc]
          exact hall

/-- **The constructors digest the whole content**: `MD5(istream&)` any content of the stream, `MD5(FILE*)`
the content in whatever pieces it is read. -/
theorem constructors_digest (buffer : Block) (digest content : Bytes) :
    ((MD5.updateStream (content.length / 1024 + 1) (MD5.init buffer digest) content).bind fun m =>
      m.finalize.map MD5.hexDigest) = some (MD5.hex (md5 content)) ∧
    ∀ reads : List Bytes, (∀ piece ∈ reads, 0 < piece.length ∧ piece.length ≤ 1024) →
      reads.flatten = content →
      ((MD5.updateFile (MD5.init buffer digest) (reads ++ [[]])).bind fun m =>
        m.finalize.map MD5.hexDigest) = some (MD5.hex (md5 content)) := by
  refine ⟨?_, ?_⟩
  · obtain ⟨m, hstream, habsorbed⟩ := updateStream_absorbed (content.length / 1024 + 1)
      content (init_absorbed buffer digest) (by omega)
    rw [hstream, Option.bind_some, finalize_hexDigest habsorbed, List.nil_append]
  · intro reads hreads hcontent
    have hsmall : ∀ piece ∈ reads ++ [[]], piece.length ≤ 1024 := by
      intro piece hmem
      rcases List.mem_append.mp hmem with hread | hlast
      · exact (hreads piece hread).2
      · simp [List.mem_singleton.mp hlast]
    have hwhile : (reads ++ [[]]).takeWhile (· ≠ []) = reads := by
      rw [List.takeWhile_append_of_pos]
      · simp
      · intro piece hmem
        have hpos := (hreads piece hmem).1
        simpa using List.length_pos_iff.mp hpos
    obtain ⟨m, hfile, habsorbed⟩ := updateFile_absorbed (reads ++ [[]]) hsmall
      (init_absorbed buffer digest)
    rw [hwhile, hcontent, List.nil_append] at habsorbed
    rw [hfile, Option.bind_some, finalize_hexDigest habsorbed]

end AdManager.Md5
