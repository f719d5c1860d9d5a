/-
# AdManager.Lib.Varint — base-128 varints over byte lists.

A varint writes a number in groups of seven bits, lowest group first, with the high bit set on every
byte but the last. A reader takes at most ten bytes and gives back the number and the bytes after
it, so `decode_encode` is stated with an arbitrary tail. A serializer that announces lengths before
it writes needs the number of bytes without writing them: that is `size`, and `encode_length` says
that the announcement is right.

Everything here is structural recursion on a group count, so both directions evaluate in the kernel.
-/
import Mathlib.Algebra.Order.Ring.Nat
import Mathlib.Tactic.NormNum

namespace AdManager.Lib.Varint

/-! ## Writing and reading -/

/-- At most `k` groups of `n`, lowest first. -/
def encodeGroups : Nat → Nat → List UInt8
  | 0, _ => []
  | k + 1, n =>
      if n < 128 then [UInt8.ofNat n]
      else UInt8.ofNat (n % 128 + 128) :: encodeGroups k (n / 128)

/-- Read at most `k` groups: the number and the bytes after it. `none` when the bytes end inside the
number or when it does not end within `k` bytes. -/
def decodeGroups : Nat → List UInt8 → Option (Nat × List UInt8)
  | 0, _ => none
  | _ + 1, [] => none
  | k + 1, b :: rest =>
      if b.toNat < 128 then some (b.toNat, rest)
      else (decodeGroups k rest).map fun p => (b.toNat - 128 + 128 * p.1, p.2)

/-- The number of groups of `n`, at most `k`. -/
def sizeGroups : Nat → Nat → Nat
  | 0, _ => 0
  | k + 1, n => if n < 128 then 1 else sizeGroups k (n / 128) + 1

/-- A 64-bit number takes at most ten groups. -/
def maxGroups : Nat := 10

/-- The varint of a number below `2 ^ 64`. -/
def encode (n : Nat) : List UInt8 := encodeGroups maxGroups n

/-- Read one varint of at most ten bytes. -/
def decode (bytes : List UInt8) : Option (Nat × List UInt8) := decodeGroups maxGroups bytes

/-- The number of bytes of the varint of `n`. -/
def size (n : Nat) : Nat := sizeGroups maxGroups n

/-! ## Reading back what was written -/

theorem toNat_ofNat_of_lt {n : Nat} (h : n < 256) : (UInt8.ofNat n).toNat = n := by
  simp [Nat.mod_eq_of_lt h]

theorem div_groups {k n : Nat} (h : n < 128 ^ (k + 1)) : n / 128 < 128 ^ k := by
  rw [Nat.div_lt_iff_lt_mul (by norm_num)]
  exact h

theorem decodeGroups_encodeGroups {k n : Nat} (h : n < 128 ^ k) (hk : 0 < k)
    (rest : List UInt8) : decodeGroups k (encodeGroups k n ++ rest) = some (n, rest) := by
  induction k generalizing n with
  | zero => exact absurd hk (lt_irrefl 0)
  | succ k ih =>
      by_cases hn : n < 128
      · have hb := toNat_ofNat_of_lt (show n < 256 by omega)
        simp [encodeGroups, decodeGroups, hn, hb]
      · have hb := toNat_ofNat_of_lt (show n % 128 + 128 < 256 by omega)
        have hpos : 0 < k := by
          rcases Nat.eq_zero_or_pos k with rfl | hpos
          · exact absurd h (by simpa using hn)
          · exact hpos
        simp only [encodeGroups, decodeGroups, hn, if_false, List.cons_append, hb,
          ih (div_groups h) hpos, Option.map_some, show ¬ n % 128 + 128 < 128 by omega,
          Option.some.injEq, Prod.mk.injEq, and_true]
        omega

/-- **Reading back what was written**, whatever follows it. -/
theorem decode_encode {n : Nat} (h : n < 2 ^ 64) (rest : List UInt8) :
    decode (encode n ++ rest) = some (n, rest) :=
  decodeGroups_encodeGroups (lt_trans h (by norm_num [maxGroups])) (by norm_num [maxGroups]) rest

/-! ## Announced sizes -/

/-- Reading takes at least one byte. -/
theorem decodeGroups_length {k n : Nat} {input rest : List UInt8}
    (h : decodeGroups k input = some (n, rest)) : rest.length < input.length := by
  induction k generalizing n input with
  | zero => exact absurd h (by simp [decodeGroups])
  | succ k ih =>
      cases input with
      | nil => exact absurd h (by simp [decodeGroups])
      | cons b input =>
          rw [decodeGroups] at h
          split at h
          · obtain ⟨_, rfl⟩ := Prod.mk.inj (Option.some.inj h)
            simp
          · obtain ⟨⟨m, rest'⟩, hread, heq⟩ := Option.map_eq_some_iff.mp h
            obtain ⟨_, rfl⟩ := Prod.mk.inj heq
            exact Nat.lt_succ_of_lt (ih hread)

theorem decode_length {n : Nat} {input rest : List UInt8} (h : decode input = some (n, rest)) :
    rest.length < input.length := decodeGroups_length h

theorem encodeGroups_length (k n : Nat) : (encodeGroups k n).length = sizeGroups k n := by
  induction k generalizing n with
  | zero => rfl
  | succ k ih =>
      simp only [encodeGroups, sizeGroups]
      split <;> simp [ih]

theorem encode_length (n : Nat) : (encode n).length = size n :=
  encodeGroups_length maxGroups n

theorem encode_ne_nil (n : Nat) : encode n ≠ [] := by
  rw [encode, maxGroups, encodeGroups]
  split <;> exact List.cons_ne_nil _ _

theorem encode_small {n : Nat} (h : n < 128) : encode n = [UInt8.ofNat n] := by
  rw [encode, maxGroups, encodeGroups, if_pos h]

theorem sizeGroups_mono (k : Nat) {m n : Nat} (h : m ≤ n) : sizeGroups k m ≤ sizeGroups k n := by
  induction k generalizing m n with
  | zero => exact Nat.le_refl _
  | succ k ih =>
      simp only [sizeGroups]
      by_cases hn : n < 128
      · rw [if_pos (by omega), if_pos hn]
      · have hdiv := ih (Nat.div_le_div_right (c := 128) h)
        rw [if_neg hn]
        split <;> omega

theorem sizeGroups_le (k n : Nat) : sizeGroups k n ≤ k := by
  induction k generalizing n with
  | zero => exact Nat.le_refl _
  | succ k ih =>
      rw [sizeGroups]
      split
      · omega
      · exact Nat.succ_le_succ (ih (n / 128))

theorem size_le (n : Nat) : size n ≤ 10 := sizeGroups_le maxGroups n

/-- A larger number takes no fewer bytes. -/
theorem size_mono {m n : Nat} (h : m ≤ n) : size m ≤ size n := sizeGroups_mono maxGroups h

end AdManager.Lib.Varint
