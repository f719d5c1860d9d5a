/-
# AdManager.Lib.Buffer — accesses to a buffer of a fixed length.

An access names the first element and how many there are, and is `none` when one of them lies outside
of the buffer. A write within the bounds keeps the length, so the bounds of several writes in a row are
all those of the buffer at the start (`writeAt_writeAt_isSome_iff`).
-/
import Mathlib.Data.List.Basic

namespace AdManager.Lib

variable {α : Type*} {b b' v w : List α} {i j n : Nat}

/-- Read `n` elements from position `i` on. -/
def readAt (b : List α) (i n : Nat) : Option (List α) :=
  if i + n ≤ b.length then some ((b.drop i).take n) else none

/-- Write `v` from position `i` on. -/
def writeAt (b : List α) (i : Nat) (v : List α) : Option (List α) :=
  if i + v.length ≤ b.length then some (b.take i ++ v ++ b.drop (i + v.length)) else none

theorem readAt_isSome_iff : (readAt b i n).isSome ↔ i + n ≤ b.length := by
  unfold readAt
  split <;> simp_all

theorem writeAt_isSome_iff : (writeAt b i v).isSome ↔ i + v.length ≤ b.length := by
  unfold writeAt
  split <;> simp_all

/-- A read from what begins the buffer. -/
theorem readAt_take {L : Nat} (hL : L ≤ b.length) (h : i + n ≤ L) :
    readAt b i n = some (((b.take L).drop i).take n) := by
  rw [readAt, if_pos (Nat.le_trans h hL), List.drop_take, List.take_take, Nat.min_eq_left (by omega)]

/-- A write keeps the length. -/
theorem writeAt_length (h : writeAt b i v = some b') : b'.length = b.length := by
  obtain ⟨hbound, heq⟩ := Option.ite_none_right_eq_some.mp h
  rw [← Option.some.inj heq]
  simp only [List.length_append, List.length_take, List.length_drop]
  omega

/-- Two writes in a row. -/
theorem writeAt_writeAt_isSome_iff :
    ((writeAt b i v).bind fun b' => writeAt b' j w).isSome ↔
      i + v.length ≤ b.length ∧ j + w.length ≤ b.length := by
  cases hb : writeAt b i v with
  | none =>
      have hout : ¬ i + v.length ≤ b.length := by
        rw [← writeAt_isSome_iff, hb]
        simp
      simp [hout]
  | some b' =>
      have hin : i + v.length ≤ b.length := by
        rw [← writeAt_isSome_iff, hb]
        rfl
      rw [Option.bind_some, writeAt_isSome_iff, writeAt_length hb]
      exact (and_iff_right hin).symm

/-- Writing what is there changes nothing. -/
theorem writeAt_of_readAt (h : readAt b i v.length = some v) : writeAt b i v = some b := by
  obtain ⟨hbound, hread⟩ := Option.ite_none_right_eq_some.mp h
  have hread : (b.drop i).take v.length = v := Option.some.inj hread
  rw [writeAt, if_pos hbound, Option.some.injEq]
  calc b.take i ++ v ++ b.drop (i + v.length)
      = b.take i ++ ((b.drop i).take v.length ++ (b.drop i).drop v.length) := by
        rw [hread, List.drop_drop, List.append_assoc]
    _ = b := by rw [List.take_append_drop, List.take_append_drop]

/-- A write over a filler at the start. -/
theorem writeAt_replicate (a : α) (h : v.length ≤ n) :
    writeAt (List.replicate n a) 0 v = some (v ++ List.replicate (n - v.length) a) := by
  rw [writeAt, if_pos (by simpa using h)]
  simp

/-- The filler after it is still there. -/
theorem readAt_replicate (a : α) (hv : v.length ≤ i) (hn : i + n ≤ j + v.length) :
    readAt (v ++ List.replicate j a) i n = some (List.replicate n a) := by
  rw [readAt, if_pos (by simp; omega), List.drop_append, List.drop_eq_nil_of_le hv, List.nil_append,
    List.drop_replicate, List.take_replicate, Nat.min_eq_left (by omega)]

end AdManager.Lib
