/-
# AdManager.Lib.BlockDigest — digests that take a list in block by block.

A `Compression` turns a state and a block of fixed size into the next state. `absorb` folds it over the
complete blocks of a list and `rest` is what is left over, which a streaming implementation has to keep.
`absorb_append` and `rest_append` are the two facts such an implementation rests on: what was taken in so
far matters only through the state and the rest.

A digest pads its message to whole blocks. If the padding ends with a tag that tells lengths apart, two
messages with one digest meet two inputs on which the compression itself agrees
(`Padding.collide_of_digest_eq`), so whoever has found the former has found the latter.
-/
import Mathlib.Data.List.Basic

namespace AdManager.Lib

/-- A compression function on blocks of `size` elements. -/
structure Compression (σ α : Type*) where
  size : Nat
  size_pos : 0 < size
  compress : σ → List α → σ

namespace Compression

variable {σ α : Type*} (C : Compression σ α)

/-! ## Complete blocks and the rest -/

/-- Compress the first `n` blocks of a list. -/
def absorbN : Nat → σ → List α → σ
  | 0, s, _ => s
  | n + 1, s, xs => absorbN n (C.compress s (xs.take C.size)) (xs.drop C.size)

/-- Compress all complete blocks of a list. -/
def absorb (s : σ) (xs : List α) : σ := C.absorbN (xs.length / C.size) s xs

/-- What is left over behind the complete blocks. -/
def rest (xs : List α) : List α := xs.drop (C.size * (xs.length / C.size))

variable {C} {s t : σ} {xs ys b : List α}

theorem rest_length (xs : List α) : (C.rest xs).length = xs.length % C.size := by
  have hdiv := Nat.div_add_mod xs.length C.size
  rw [rest, List.length_drop]
  omega

theorem rest_length_lt (xs : List α) : (C.rest xs).length < C.size := by
  rw [rest_length]
  exact Nat.mod_lt _ C.size_pos

theorem absorb_of_lt (h : xs.length < C.size) : C.absorb s xs = s := by
  rw [absorb, Nat.div_eq_of_lt h, absorbN]

theorem rest_of_lt (h : xs.length < C.size) : C.rest xs = xs := by
  rw [rest, Nat.div_eq_of_lt h, Nat.mul_zero, List.drop_zero]

/-- One block less is one division less. -/
theorem length_drop_div (h : C.size ≤ xs.length) :
    xs.length / C.size = (xs.drop C.size).length / C.size + 1 := by
  rw [List.length_drop, ← Nat.add_div_right _ C.size_pos, Nat.sub_add_cancel h]

/-- The first block is compressed first. -/
theorem absorb_of_le (h : C.size ≤ xs.length) :
    C.absorb s xs = C.absorb (C.compress s (xs.take C.size)) (xs.drop C.size) := by
  rw [absorb, length_drop_div h]
  rfl

theorem rest_of_le (h : C.size ≤ xs.length) : C.rest xs = C.rest (xs.drop C.size) := by
  rw [rest, length_drop_div h, rest, List.drop_drop, Nat.mul_add, Nat.mul_one, Nat.add_comm]

theorem absorb_block (hb : b.length = C.size) (xs : List α) :
    C.absorb s (b ++ xs) = C.absorb (C.compress s b) xs := by
  rw [absorb_of_le (by rw [List.length_append]; omega), List.take_left' hb, List.drop_left' hb]

theorem rest_block (hb : b.length = C.size) (xs : List α) : C.rest (b ++ xs) = C.rest xs := by
  rw [rest_of_le (by rw [List.length_append]; omega), List.drop_left' hb]

/-- **Induction on the blocks of a list**: less than a block, or a block and a shorter list. -/
theorem block_induction {P : List α → Prop} (hshort : ∀ xs, xs.length < C.size → P xs)
    (hblock : ∀ b xs, b.length = C.size → P xs → P (b ++ xs)) (xs : List α) : P xs := by
  induction h : xs.length using Nat.strongRecOn generalizing xs with
  | ind n ih =>
      by_cases hlt : xs.length < C.size
      · exact hshort xs hlt
      · have hpos := C.size_pos
        have hrec := ih (xs.drop C.size).length (by rw [List.length_drop]; omega) (xs.drop C.size) rfl
        have hb := hblock (xs.take C.size) _ (by rw [List.length_take]; omega) hrec
        rwa [List.take_append_drop] at hb

/-- **Taking in more** goes on from the state and the rest. -/
theorem absorb_append (s : σ) (xs ys : List α) :
    C.absorb s (xs ++ ys) = C.absorb (C.absorb s xs) (C.rest xs ++ ys) := by
  induction xs using C.block_induction generalizing s with
  | hshort xs hlt => rw [absorb_of_lt hlt, rest_of_lt hlt]
  | hblock b xs hb ih =>
      rw [List.append_assoc, absorb_block hb, absorb_block hb, rest_block hb]
      exact ih (C.compress s b)

theorem rest_append (xs ys : List α) : C.rest (xs ++ ys) = C.rest (C.rest xs ++ ys) := by
  induction xs using C.block_induction with
  | hshort xs hlt => rw [rest_of_lt hlt]
  | hblock b xs hb ih => rw [List.append_assoc, rest_block hb, rest_block hb, ih]

/-- Whole blocks leave nothing over. -/
theorem rest_eq_nil (h : C.size ∣ xs.length) : C.rest xs = [] := by
  rw [← List.length_eq_zero_iff, rest_length]
  exact Nat.mod_eq_zero_of_dvd h

/-- The last block is compressed last. -/
theorem absorb_last (hxs : C.size ∣ xs.length) (hb : b.length = C.size) :
    C.absorb s (xs ++ b) = C.compress (C.absorb s xs) b := by
  rw [absorb_append, rest_eq_nil hxs, List.nil_append, ← List.append_nil b, absorb_block hb,
    List.append_nil]
  exact absorb_of_lt C.size_pos

/-! ## Collisions -/

variable (C) in
/-- What the compression is applied to in the first `n` blocks of a list. -/
def inputsN : Nat → σ → List α → List (σ × List α)
  | 0, _, _ => []
  | n + 1, s, xs => (s, xs.take C.size) :: inputsN n (C.compress s (xs.take C.size)) (xs.drop C.size)

variable (C) in
/-- What the compression is applied to in all complete blocks of a list. -/
def inputs (s : σ) (xs : List α) : List (σ × List α) := C.inputsN (xs.length / C.size) s xs

variable (C) in
/-- Two different inputs, one of each list, on which the compression agrees. -/
def Collide (ps qs : List (σ × List α)) : Prop :=
  ∃ p ∈ ps, ∃ q ∈ qs, p ≠ q ∧ C.compress p.1 p.2 = C.compress q.1 q.2

theorem inputs_block (hb : b.length = C.size) (xs : List α) :
    C.inputs s (b ++ xs) = (s, b) :: C.inputs (C.compress s b) xs := by
  rw [inputs, length_drop_div (by rw [List.length_append]; omega), inputsN, List.take_left' hb,
    List.drop_left' hb]
  rfl

/-- The last block is the last input. -/
theorem mem_inputs_last (hxs : C.size ∣ xs.length) (hb : b.length = C.size) :
    (C.absorb s xs, b) ∈ C.inputs s (xs ++ b) := by
  induction xs using C.block_induction generalizing s with
  | hshort xs hlt =>
      have hnil : xs = [] := List.length_eq_zero_iff.mp (Nat.eq_zero_of_dvd_of_lt hxs hlt)
      have hone := inputs_block (s := s) hb []
      rw [List.append_nil] at hone
      have hstart : C.absorb s [] = s := absorb_of_lt C.size_pos
      rw [hnil, List.nil_append, hstart, hone]
      exact List.mem_cons_self
  | hblock b' xs hb' ih =>
      rw [List.append_assoc, inputs_block hb', absorb_block hb']
      rw [List.length_append, hb'] at hxs
      exact List.mem_cons_of_mem _ (ih ((Nat.dvd_add_right (Nat.dvd_refl _)).mp hxs))

/-- The lists that led to one state are the same, or a collision was met on the way. -/
theorem eq_or_collide {n : Nat} (hxs : xs.length = n * C.size) (hys : ys.length = n * C.size)
    (h : C.absorbN n s xs = C.absorbN n t ys) :
    (s = t ∧ xs = ys) ∨ C.Collide (C.inputsN n s xs) (C.inputsN n t ys) := by
  induction n generalizing s t xs ys with
  | zero =>
      left
      have hxs : xs = [] := by simpa using hxs
      have hys : ys = [] := by simpa using hys
      exact ⟨h, hxs.trans hys.symm⟩
  | succ n ih =>
      rw [Nat.succ_mul] at hxs hys
      rcases ih (by simp; omega) (by simp; omega) h with ⟨heq, hdrop⟩ | ⟨p, hp, q, hq, hcollide⟩
      · by_cases hin : (s, xs.take C.size) = (t, ys.take C.size)
        · left
          obtain ⟨hst, htake⟩ := Prod.mk.inj hin
          refine ⟨hst, ?_⟩
          rw [← List.take_append_drop C.size xs, htake, hdrop, List.take_append_drop]
        · right
          exact ⟨_, List.mem_cons_self, _, List.mem_cons_self, hin, heq⟩
      · right
        exact ⟨p, List.mem_cons_of_mem _ hp, q, List.mem_cons_of_mem _ hq, hcollide⟩

end Compression

/-! ## Padded digests -/

/-- A padding to whole blocks that ends with a tag of the length; tags of lengths below `bound` differ. -/
structure Padding {σ α : Type*} (C : Compression σ α) where
  fill : Nat → List α
  tag : Nat → List α
  tagLength : Nat
  bound : Nat
  tag_length : ∀ n, (tag n).length = tagLength
  tagLength_le : tagLength ≤ C.size
  aligned : ∀ n, C.size ∣ n + ((fill n).length + tagLength)
  tag_injective : ∀ m n, m < bound → n < bound → tag m = tag n → m = n

namespace Padding

variable {σ α : Type*} {C : Compression σ α} (P : Padding C)

/-- A message with its padding. -/
def padded (xs : List α) : List α := xs ++ (P.fill xs.length ++ P.tag xs.length)

/-- The state after a padded message. -/
def digest (s : σ) (xs : List α) : σ := C.absorb s (P.padded xs)

theorem padded_length (xs : List α) :
    (P.padded xs).length = xs.length + ((P.fill xs.length).length + P.tagLength) := by
  rw [padded, List.length_append, List.length_append, P.tag_length]

theorem padded_aligned (xs : List α) : C.size ∣ (P.padded xs).length := by
  rw [padded_length]
  exact P.aligned xs.length

variable {P} {s : σ} {xs ys : List α}

theorem padded_injective (h : P.padded xs = P.padded ys) (hlen : xs.length = ys.length) : xs = ys :=
  (List.append_inj h hlen).1

/-- A padded message that is not empty is whole blocks and a last one, which ends with the tag. -/
theorem padded_last (hne : P.padded xs ≠ []) : ∃ ws b, P.padded xs = ws ++ b ∧ C.size ∣ ws.length ∧
    b.length = C.size ∧ b.drop (C.size - P.tagLength) = P.tag xs.length := by
  have hpos : 0 < (P.padded xs).length := List.length_pos_iff.mpr hne
  have hle : C.size ≤ (P.padded xs).length := Nat.le_of_dvd hpos (P.padded_aligned xs)
  have htag := P.tagLength_le
  refine ⟨(P.padded xs).take ((P.padded xs).length - C.size),
    (P.padded xs).drop ((P.padded xs).length - C.size), ?_, ?_, ?_, ?_⟩
  · exact (List.take_append_drop _ _).symm
  · rw [List.length_take, Nat.min_eq_left (Nat.sub_le _ _)]
    exact Nat.dvd_sub (P.padded_aligned xs) (Nat.dvd_refl _)
  · rw [List.length_drop]
    omega
  · have hsplit : (P.padded xs).length - C.size + (C.size - P.tagLength) =
        (xs ++ P.fill xs.length).length := by
      rw [padded_length, List.length_append] at *
      omega
    rw [List.drop_drop, hsplit, padded, ← List.append_assoc, List.drop_left]

/-- **Two messages with one digest meet a collision of the compression** while they are digested. -/
theorem collide_of_digest_eq (hxs : xs.length < P.bound) (hys : ys.length < P.bound) (hne : xs ≠ ys)
    (htag : 0 < P.tagLength) (h : P.digest s xs = P.digest s ys) :
    C.Collide (C.inputs s (P.padded xs)) (C.inputs s (P.padded ys)) := by
  by_cases hlen : xs.length = ys.length
  · -- as many blocks: going back through the states, the padded messages are the same
    have hpad : (P.padded ys).length = (P.padded xs).length := by
      rw [padded_length, padded_length, hlen]
    obtain ⟨n, hn⟩ := P.padded_aligned xs
    have hblocks : (P.padded xs).length / C.size = n := by
      rw [hn, Nat.mul_div_cancel_left n C.size_pos]
    rw [digest, digest, Compression.absorb, Compression.absorb, hpad, hblocks] at h
    rw [Compression.inputs, Compression.inputs, hpad, hblocks]
    rw [Nat.mul_comm] at hn
    rcases Compression.eq_or_collide hn (hpad.trans hn) h with ⟨_, heq⟩ | hcollide
    · exact absurd (padded_injective heq hlen) hne
    · exact hcollide
  · -- the last blocks end with different tags
    have hnonempty : ∀ zs, P.padded zs ≠ [] := by
      intro zs hnil
      have hzero := P.padded_length zs
      rw [hnil, List.length_nil] at hzero
      omega
    obtain ⟨ws, b, hxs', hws, hb, hbtag⟩ := padded_last (hnonempty xs)
    obtain ⟨vs, c, hys', hvs, hc, hctag⟩ := padded_last (hnonempty ys)
    rw [digest, digest, hxs', hys', Compression.absorb_last hws hb, Compression.absorb_last hvs hc] at h
    rw [hxs', hys']
    refine ⟨_, Compression.mem_inputs_last hws hb, _, Compression.mem_inputs_last hvs hc, ?_, h⟩
    intro hin
    obtain ⟨_, rfl⟩ := Prod.mk.inj hin
    exact hlen (P.tag_injective _ _ hxs hys (hbtag.symm.trans hctag))

end Padding

end AdManager.Lib
