/-
# AdManager.Business.Integrity — what the digest of an ad says about its file.

`downloadAd` keeps a file if its MD5, as hexadecimal text, is the one in the ad, in either case of the
letters. Neither the text nor the case loses anything, and the padded digest ties its message to the
compression: whoever makes a server or a client keep another file than the one its digest was made for has
found two inputs on which `transform` agrees.
-/
import AdManager.Business.Representation
import AdManager.Md5.Streaming

namespace AdManager.Business

open AdManager.Wire AdManager.Lib AdManager.Server AdManager.Md5

/-! ## Hexadecimal text -/

/-- A byte in upper case. -/
def toUpper (c : UInt8) : UInt8 := if 97 ≤ c ∧ c ≤ 122 then c - 32 else c

theorem toUpper_hexDigit {n : UInt8} (h : n.toNat < 16) :
    (toUpper (MD5.hexDigit n)).toNat = if n.toNat < 10 then 48 + n.toNat else 55 + n.toNat := by
  have h10 : (10 : UInt8).toNat = 10 := rfl
  have h48 : (48 : UInt8).toNat = 48 := rfl
  have h87 : (87 : UInt8).toNat = 87 := rfl
  have h97 : (97 : UInt8).toNat = 97 := rfl
  have h122 : (122 : UInt8).toNat = 122 := rfl
  have h32 : (32 : UInt8).toNat = 32 := rfl
  unfold MD5.hexDigit toUpper
  simp only [UInt8.lt_iff_toNat_lt, UInt8.le_iff_toNat_le, apply_ite UInt8.toNat, UInt8.toNat_add,
    UInt8.toNat_sub, h10, h48, h87, h97, h122, h32]
  split <;> split <;> omega

/-- Upper case keeps the digits of a byte apart. -/
theorem hexDigits_injective {b c : UInt8}
    (hhigh : toUpper (MD5.hexDigit (b >>> 4)) = toUpper (MD5.hexDigit (c >>> 4)))
    (hlow : toUpper (MD5.hexDigit (b &&& 15)) = toUpper (MD5.hexDigit (c &&& 15))) : b = c := by
  have hshift : ∀ a : UInt8, (a >>> 4).toNat = a.toNat / 16 := by
    intro a
    simp [Nat.shiftRight_eq_div_pow]
  have hmask : ∀ a : UInt8, (a &&& 15).toNat = a.toNat % 16 := by
    intro a
    rw [UInt8.toNat_and]
    exact Nat.and_two_pow_sub_one_eq_mod _ 4
  have hb := b.toNat_lt
  have hc := c.toNat_lt
  have hhigh := congrArg UInt8.toNat hhigh
  have hlow := congrArg UInt8.toNat hlow
  rw [toUpper_hexDigit (by rw [hshift]; omega), toUpper_hexDigit (by rw [hshift]; omega), hshift,
    hshift] at hhigh
  rw [toUpper_hexDigit (by rw [hmask]; omega), toUpper_hexDigit (by rw [hmask]; omega), hmask,
    hmask] at hlow
  apply UInt8.toNat_inj.mp
  split at hhigh <;> split at hhigh <;> split at hlow <;> split at hlow <;> omega

/-- **The text of a digest, in either case, determines the digest.** -/
theorem toUpperCopy_hex_injective : ∀ ds es : Bytes,
    toUpperCopy (MD5.hex ds) = toUpperCopy (MD5.hex es) → ds = es := by
  intro ds
  induction ds with
  | nil =>
      intro es h
      cases es with
      | nil => rfl
      | cons e es => exact absurd h (by simp [MD5.hex, toUpperCopy])
  | cons d ds ih =>
      intro es h
      cases es with
      | nil => exact absurd h (by simp [MD5.hex, toUpperCopy])
      | cons e es =>
          have hcons : ∀ c cs, toUpperCopy (MD5.hex (c :: cs)) = toUpper (MD5.hexDigit (c >>> 4)) ::
              toUpper (MD5.hexDigit (c &&& 15)) :: toUpperCopy (MD5.hex cs) := fun c cs => rfl
          rw [hcons, hcons, List.cons.injEq, List.cons.injEq] at h
          obtain ⟨hhigh, hlow, hrest⟩ := h
          rw [hexDigits_injective hhigh hlow, ih es hrest]

/-! ## The digest of a file -/

/-- What was not initialised does not matter. -/
theorem digestOf_eq (buffer : Block) (digest : Bytes) {body : Bytes} (h : body.length ≤ 2 ^ 32 - 64) :
    MD5.digestOf buffer digest body = some (MD5.hex (md5 body)) := by
  have hpieces := hexDigest_pieces buffer digest [body] (by simpa using h)
  simpa [MD5.digestOf] using hpieces

theorem withMD5_md5 (x : Environment) {body : Bytes} (h : body.length ≤ 2 ^ 32 - 64) :
    x.withMD5.md5 body = MD5.hex (md5 body) := by
  show (MD5.digestOf zeroBlock [] body).getD [] = _
  rw [digestOf_eq _ _ h, Option.getD_some]

/-- The digests of two messages meet a collision of `transform`. -/
def DigestsCollide (xs ys : Bytes) : Prop :=
  compression.Collide (compression.inputs initState (mdPadding.padded xs))
    (compression.inputs initState (mdPadding.padded ys))

/-- Two messages with one digest are the same, or `transform` has a collision. -/
theorem eq_or_digestsCollide {xs ys : Bytes} (hxs : xs.length < 2 ^ 61) (hys : ys.length < 2 ^ 61)
    (h : md5 xs = md5 ys) : xs = ys ∨ DigestsCollide xs ys := by
  by_cases hne : xs = ys
  · exact Or.inl hne
  · right
    have hwords := congrArg decode h
    rw [md5, md5, decode_encode, decode_encode] at hwords
    have hstate : mdPadding.digest initState xs = mdPadding.digest initState ys := by
      generalize mdPadding.digest initState xs = r at hwords ⊢
      generalize mdPadding.digest initState ys = t at hwords ⊢
      obtain ⟨a, b, c, d⟩ := r
      obtain ⟨a', b', c', d'⟩ := t
      simpa [Regs.words] using hwords
    exact Padding.collide_of_digest_eq hxs hys hne (by decide) hstate

/-- **An ad has one file**: two files that pass the check against digests that agree up to case are the
same, or `transform` has a collision. -/
theorem eq_or_collide_of_verified {x y : Environment} {ad ad' : Ad} {file file' : Bytes}
    (hlen : file.length ≤ 2 ^ 32 - 64) (hlen' : file'.length ≤ 2 ^ 32 - 64)
    (hverified : x.withMD5.verified ad file = true) (hverified' : y.withMD5.verified ad' file' = true)
    (hmd5 : toUpperCopy ad.md5 = toUpperCopy ad'.md5) : file = file' ∨ DigestsCollide file file' := by
  rw [verified_iff, withMD5_md5 x hlen] at hverified
  rw [verified_iff, withMD5_md5 y hlen'] at hverified'
  have hdigest : md5 file = md5 file' := by
    apply toUpperCopy_hex_injective
    rw [← hverified, ← hverified', hmd5]
  exact eq_or_digestsCollide (by omega) (by omega) hdigest

end AdManager.Business
