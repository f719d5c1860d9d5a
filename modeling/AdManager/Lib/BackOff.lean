/-
# AdManager.Lib.BackOff — a retry delay that doubles until it reaches a limit.

The delay starts at one, and every attempt doubles it while it is *below* the limit. So it does not stop
at the limit but at the first power of two that is not below it (`doubled_backOff`), and it agrees with
the schedule `2, 4, 8, …` cut off at the limit only before that (`backOff_eq_min_iff`).
-/
import Mathlib.Algebra.Order.Ring.Nat
import Mathlib.Data.Nat.Log

namespace AdManager.Lib

/-- Double a delay that is below the limit. -/
def doubled (limit delay : Nat) : Nat := if delay < limit then delay * 2 else delay

/-- The delay after `n` attempts. -/
def backOff (limit n : Nat) : Nat := 2 ^ min n (Nat.clog 2 limit)

variable {limit n k : Nat}

@[simp] theorem backOff_zero (limit : Nat) : backOff limit 0 = 1 := by
  rw [backOff, Nat.zero_min, Nat.pow_zero]

/-- **One more attempt.** -/
theorem doubled_backOff (limit n : Nat) : doubled limit (backOff limit n) = backOff limit (n + 1) := by
  unfold doubled backOff
  by_cases hn : n < Nat.clog 2 limit
  · have hlt : 2 ^ n < limit := (Nat.lt_clog_iff_pow_lt (by omega)).mp hn
    rw [Nat.min_eq_left (by omega), Nat.min_eq_left (by omega), if_pos hlt, Nat.pow_succ]
  · have hle : limit ≤ 2 ^ Nat.clog 2 limit := Nat.le_pow_clog (by omega) limit
    rw [Nat.min_eq_right (by omega), Nat.min_eq_right (by omega), if_neg (by omega)]

/-- **When the delay is the one of the schedule cut off at the limit**: after as many attempts, and with
the limit not reached. -/
theorem backOff_eq_min_iff (hlimit : 2 ^ Nat.clog 2 limit ≠ limit) :
    backOff limit n = min (2 ^ k) limit ↔ n = k ∧ k < Nat.clog 2 limit := by
  have hpow : ∀ m, 2 ^ m < limit ↔ m < Nat.clog 2 limit := fun m =>
    (Nat.lt_clog_iff_pow_lt (by omega)).symm
  constructor
  · intro h
    by_cases hk : k < Nat.clog 2 limit
    · rw [Nat.min_eq_left ((hpow k).mpr hk).le] at h
      have hexp : min n (Nat.clog 2 limit) = k := Nat.pow_right_injective (le_refl 2) h
      omega
    · -- the schedule is at the limit, which is no power of two
      have hle : limit ≤ 2 ^ k := Nat.not_lt.mp fun hlt => hk ((hpow k).mp hlt)
      rw [Nat.min_eq_right hle] at h
      have hlog : Nat.clog 2 (backOff limit n) = min n (Nat.clog 2 limit) :=
        Nat.clog_pow 2 _ (by omega)
      apply absurd _ hlimit
      calc 2 ^ Nat.clog 2 limit = 2 ^ Nat.clog 2 (backOff limit n) := by rw [h]
        _ = backOff limit n := by rw [hlog, backOff]
        _ = limit := h
  · rintro ⟨rfl, hn⟩
    rw [backOff, Nat.min_eq_left hn.le, Nat.min_eq_left ((hpow n).mpr hn).le]

end AdManager.Lib
