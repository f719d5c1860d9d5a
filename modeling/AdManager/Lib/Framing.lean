/-
# AdManager.Lib.Framing — length-prefixed streams.

A `Framing` puts a header of fixed size before each payload; headers and lengths below a bound
determine each other. `split` cuts any list into its complete frames and what is left over. The
facts a development needs about a stream are compositional: `split_append` says that cutting a
longer list continues from what was left over, so the result does not depend on how the list was
received; `split_frames` and `frames_split` say that `split` and writing frames undo each other; and
`prefix_of_frames_prefix` turns "these bytes are a prefix of those bytes" into "these payloads are a
prefix of those payloads", which is how an in-order byte pipe carries an in-order queue of payloads.
-/
import Mathlib.Data.List.Basic

namespace AdManager.Lib

/-- A header of `hdr` elements before each payload announces the payload's length, which is below
`bound`; headers and announced lengths are in bijection. -/
structure Framing (α : Type*) where
  hdr : Nat
  bound : Nat
  header : Nat → List α
  announced : List α → Nat
  hdr_pos : 0 < hdr
  header_length : ∀ n, n < bound → (header n).length = hdr
  announced_header : ∀ n, n < bound → announced (header n) = n
  announced_lt : ∀ h, h.length = hdr → announced h < bound
  header_announced : ∀ h, h.length = hdr → header (announced h) = h

namespace Framing

variable {α : Type*} (F : Framing α)

/-! ## Frames -/

/-- One payload with its header. -/
def frame (p : List α) : List α := F.header p.length ++ p

/-- The stream of the payloads `ps`. -/
def frames (ps : List (List α)) : List α := ps.flatMap F.frame

/-- The first complete frame of a list: its payload and what follows it. -/
def next (xs : List α) : Option (List α × List α) :=
  if F.hdr + F.announced (xs.take F.hdr) ≤ xs.length then
    some ((xs.drop F.hdr).take (F.announced (xs.take F.hdr)),
      (xs.drop F.hdr).drop (F.announced (xs.take F.hdr)))
  else none

/-- Cut at most `k` frames off the front. -/
def splitUpTo : Nat → List α → List (List α) × List α
  | 0, xs => ([], xs)
  | k + 1, xs =>
      match F.next xs with
      | none => ([], xs)
      | some (p, rest) => (p :: (splitUpTo k rest).1, (splitUpTo k rest).2)

/-- All complete frames of a list, and what is left over. -/
def split (xs : List α) : List (List α) × List α := F.splitUpTo xs.length xs

@[simp] theorem frames_nil : F.frames [] = [] := rfl

@[simp] theorem frames_cons (p : List α) (ps : List (List α)) :
    F.frames (p :: ps) = F.frame p ++ F.frames ps := rfl

theorem frames_append (ps qs : List (List α)) : F.frames (ps ++ qs) = F.frames ps ++ F.frames qs :=
  List.flatMap_append

/-! ## The first frame -/

variable {F} {xs ys rest p : List α} {ps qs : List (List α)}

theorem next_eq_none : F.next xs = none ↔ xs.length < F.hdr + F.announced (xs.take F.hdr) := by
  simp only [next]
  split <;> simp_all

theorem next_shortens (h : F.next xs = some (p, rest)) : rest.length < xs.length := by
  have hpos := F.hdr_pos
  simp only [next] at h
  split at h
  · simp only [Option.some.injEq, Prod.mk.injEq] at h
    simp only [← h.2, List.length_drop]
    omega
  · exact absurd h (by simp)

/-- A complete frame stays the first frame however the list goes on. -/
theorem next_append (h : F.next xs = some (p, rest)) (ys : List α) :
    F.next (xs ++ ys) = some (p, rest ++ ys) := by
  simp only [next] at h ⊢
  split at h
  · next hle =>
      simp only [Option.some.injEq, Prod.mk.injEq] at h
      have htake : (xs ++ ys).take F.hdr = xs.take F.hdr :=
        List.take_append_of_le_length (by omega)
      have hdrop : (xs ++ ys).drop F.hdr = xs.drop F.hdr ++ ys :=
        List.drop_append_of_le_length (by omega)
      have hlen : F.announced (xs.take F.hdr) ≤ (xs.drop F.hdr).length := by
        rw [List.length_drop]; omega
      rw [htake, hdrop, if_pos (by rw [List.length_append]; omega),
        List.take_append_of_le_length hlen, List.drop_append_of_le_length hlen, h.1, h.2]
  · exact absurd h (by simp)

/-- The first frame of a stream is the frame written first. -/
theorem next_frame (hp : p.length < F.bound) (rest : List α) :
    F.next (F.frame p ++ rest) = some (p, rest) := by
  have hlen := F.header_length p.length hp
  have htake : (F.frame p ++ rest).take F.hdr = F.header p.length := by
    rw [frame, List.append_assoc, ← hlen, List.take_left]
  have hdrop : (F.frame p ++ rest).drop F.hdr = p ++ rest := by
    rw [frame, List.append_assoc, ← hlen, List.drop_left]
  rw [next, htake, hdrop, F.announced_header _ hp, List.take_left, List.drop_left, if_pos]
  simp only [frame, List.length_append]
  omega

/-- A complete frame, written out again, gives back the elements it was cut from. -/
theorem frame_next (h : F.next xs = some (p, rest)) :
    F.frame p ++ rest = xs ∧ p.length < F.bound := by
  simp only [next] at h
  split at h
  · next hle =>
      simp only [Option.some.injEq, Prod.mk.injEq] at h
      obtain ⟨rfl, rfl⟩ := h
      have hh : (xs.take F.hdr).length = F.hdr := by rw [List.length_take]; omega
      have hp : ((xs.drop F.hdr).take (F.announced (xs.take F.hdr))).length
          = F.announced (xs.take F.hdr) := by
        rw [List.length_take, List.length_drop]; omega
      refine ⟨?_, by rw [hp]; exact F.announced_lt _ hh⟩
      rw [frame, hp, F.header_announced _ hh, List.append_assoc, List.take_append_drop,
        List.take_append_drop]
  · exact absurd h (by simp)

/-! ## Cutting a list into frames -/

theorem splitUpTo_eq_split : ∀ (k : Nat) (xs : List α), xs.length ≤ k →
    F.splitUpTo k xs = F.split xs := by
  suffices h : ∀ (k m : Nat) (xs : List α), xs.length ≤ k → xs.length ≤ m →
      F.splitUpTo k xs = F.splitUpTo m xs from
    fun k xs hk => h k xs.length xs hk (Nat.le_refl _)
  intro k
  induction k with
  | zero =>
      intro m xs hk _
      obtain rfl : xs = [] := List.length_eq_zero_iff.mp (by omega)
      have hnil : F.next ([] : List α) = none := by
        have hpos := F.hdr_pos
        rw [next_eq_none, List.length_nil]
        omega
      cases m with
      | zero => rfl
      | succ m => simp [splitUpTo, hnil]
  | succ k ih =>
      intro m xs hk hm
      cases hnext : F.next xs with
      | none => cases m <;> simp [splitUpTo, hnext]
      | some pr =>
          have hshort : pr.2.length < xs.length := next_shortens (p := pr.1) hnext
          cases m with
          | zero => omega
          | succ m => simp [splitUpTo, hnext, ih m pr.2 (by omega) (by omega)]

theorem split_of_none (h : F.next xs = none) : F.split xs = ([], xs) := by
  rw [split]
  cases xs.length <;> simp [splitUpTo, h]

theorem split_of_some (h : F.next xs = some (p, rest)) :
    F.split xs = (p :: (F.split rest).1, (F.split rest).2) := by
  have hshort := next_shortens h
  obtain ⟨k, hk⟩ : ∃ k, xs.length = k + 1 := ⟨xs.length - 1, by omega⟩
  rw [split, hk]
  simp only [splitUpTo, h, splitUpTo_eq_split k rest (by omega)]

/-- Induction along the frames of a list. -/
theorem split_induction {P : List α → Prop} (hnone : ∀ xs, F.next xs = none → P xs)
    (hsome : ∀ xs p rest, F.next xs = some (p, rest) → P rest → P xs) (xs : List α) : P xs := by
  induction h : xs.length using Nat.strongRecOn generalizing xs with
  | ind n ih =>
      cases hnext : F.next xs with
      | none => exact hnone xs hnext
      | some pr =>
          have hshort : pr.2.length < xs.length := next_shortens (p := pr.1) hnext
          exact hsome xs pr.1 pr.2 hnext (ih pr.2.length (h ▸ hshort) pr.2 rfl)

/-- **Cutting does not depend on how the list was received**: a longer list continues from what was
left over. -/
theorem split_append (xs ys : List α) :
    F.split (xs ++ ys) =
      ((F.split xs).1 ++ (F.split ((F.split xs).2 ++ ys)).1, (F.split ((F.split xs).2 ++ ys)).2) := by
  induction xs using F.split_induction with
  | hnone xs h => simp [split_of_none h]
  | hsome xs p rest h ih =>
      rw [split_of_some h, split_of_some (next_append h ys), ih]
      rfl

theorem split_frames (hps : ∀ p ∈ ps, p.length < F.bound) (rest : List α) :
    F.split (F.frames ps ++ rest) = (ps ++ (F.split rest).1, (F.split rest).2) := by
  induction ps with
  | nil => rfl
  | cons p ps ih =>
      have hp := hps p List.mem_cons_self
      have hps' := ih fun q hq => hps q (List.mem_cons_of_mem _ hq)
      rw [frames_cons, List.append_assoc, split_of_some (next_frame hp _), hps']
      rfl

/-- A stream that ends inside a frame is cut into the payloads written before it. -/
theorem split_frames_of_none (hps : ∀ p ∈ ps, p.length < F.bound) (hrest : F.next rest = none) :
    F.split (F.frames ps ++ rest) = (ps, rest) := by
  rw [split_frames hps, split_of_none hrest, List.append_nil]

/-- **The cut frames and the left-over, written out again, are the list.** -/
theorem frames_split (xs : List α) : F.frames (F.split xs).1 ++ (F.split xs).2 = xs := by
  induction xs using F.split_induction with
  | hnone xs h => simp [split_of_none h]
  | hsome xs p rest h ih =>
      rw [split_of_some h, frames_cons, List.append_assoc, ih, (frame_next h).1]

/-! ## Prefixes -/

theorem next_nil : F.next ([] : List α) = none := by
  have hpos := F.hdr_pos
  rw [next_eq_none, List.length_nil]
  omega

theorem split_frames_self (hps : ∀ p ∈ ps, p.length < F.bound) : F.split (F.frames ps) = (ps, []) := by
  have h := split_frames_of_none hps (F.next_nil)
  rwa [List.append_nil] at h

/-- The complete frames of a prefix of a stream are a prefix of its payloads. -/
theorem split_prefix (hps : ∀ p ∈ ps, p.length < F.bound) (h : xs <+: F.frames ps) :
    (F.split xs).1 <+: ps := by
  obtain ⟨ys, hys⟩ := h
  have hsplit := split_append (F := F) xs ys
  rw [hys, split_frames_self hps] at hsplit
  exact ⟨_, (congrArg Prod.fst hsplit).symm⟩

/-- No longer sequence of frames than the one cut off starts a list. -/
theorem length_le_split (hps : ∀ p ∈ ps, p.length < F.bound) (h : F.frames ps <+: xs) :
    ps.length ≤ (F.split xs).1.length := by
  obtain ⟨ys, rfl⟩ := h
  rw [split_frames hps, List.length_append]
  exact Nat.le_add_right _ _

theorem frames_split_prefix (xs : List α) : F.frames (F.split xs).1 <+: xs :=
  ⟨_, frames_split xs⟩

/-- **In-order elements carry in-order payloads.** -/
theorem prefix_of_frames_prefix (hps : ∀ p ∈ ps, p.length < F.bound)
    (hqs : ∀ q ∈ qs, q.length < F.bound) (h : F.frames ps <+: F.frames qs) : ps <+: qs := by
  have hsplit := split_prefix hqs h
  rwa [split_frames_self hps] at hsplit

end Framing

end AdManager.Lib
