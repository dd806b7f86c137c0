import Mathlib.Algebra.Order.ToIntervalMod
import Mathlib.Tactic.Linarith

/-!
# NfOrchestrator.Data.Cycle

**Readings of a clock that starts over.** A clock of period `P` shows an instant `t` as
`toIcoMod hP 0 t`. The difference of two readings is known up to a multiple of `P`; folded
into half a period on either side, it is the time between them if that was shorter than half
a period (`fold_sub`).
-/

namespace NfOrchestrator.Cycle

variable {K : Type} [Field K] [LinearOrder K]

/-- A difference of two readings, folded back once when it is longer than half a period. -/
def fold (P x : K) : K := if x < -(P / 2) then x + P else if P / 2 < x then x - P else x

variable [IsStrictOrderedRing K] {P x : K}

/-- What comes out of folding is no longer than half a period, if what is folded is no longer
than one and a half. -/
theorem fold_le (hx : x ≤ P + P / 2) : fold P x ≤ P / 2 := by
  rw [fold]
  split_ifs with hbelow habove
  · linarith
  · linarith
  · exact not_lt.mp habove

/-- A difference that is short is left as it is. -/
theorem fold_of_abs_lt {d : K} (h : |d| < P / 2) : fold P d = d := by
  obtain ⟨hlow, hhigh⟩ := abs_lt.mp h
  rw [fold, if_neg (by linarith), if_neg (by linarith)]

/-- One that is short but for a period is put right. -/
theorem fold_sub_period {d : K} (h : |d| < P / 2) : fold P (d - P) = d := by
  obtain ⟨-, hhigh⟩ := abs_lt.mp h
  rw [fold, if_pos (by linarith), sub_add_cancel]

theorem fold_add_period {d : K} (h : |d| < P / 2) : fold P (d + P) = d := by
  obtain ⟨hlow, hhigh⟩ := abs_lt.mp h
  rw [fold, if_neg (by linarith), if_pos (by linarith), add_sub_cancel_right]

variable [Archimedean K]

/-- Two readings, folded, give the time between them. -/
theorem fold_sub (hP : 0 < P) (t : K) {d : K} (h : |d| < P / 2) :
    fold P (toIcoMod hP 0 (t + d) - toIcoMod hP 0 t) = d := by
  obtain ⟨hlow, hhigh⟩ := abs_lt.mp h
  obtain ⟨hfirst, hfirst'⟩ := toIcoMod_mem_Ico' hP t
  obtain ⟨hsecond, hsecond'⟩ := toIcoMod_mem_Ico' hP (t + d)
  -- the readings are `P` times an integer away from the instants
  obtain ⟨j, hj⟩ : ∃ j : ℤ, toIcoMod hP 0 (t + d) - toIcoMod hP 0 t = d - j * P := by
    refine ⟨toIcoDiv hP 0 (t + d) - toIcoDiv hP 0 t, ?_⟩
    rw [← self_sub_toIcoDiv_zsmul, ← self_sub_toIcoDiv_zsmul, zsmul_eq_mul, zsmul_eq_mul]
    push_cast
    ring
  have hbelow : (j : K) * P < 2 * P := by linarith
  have habove : -2 * P < (j : K) * P := by linarith
  have hjhigh : j < 2 := by exact_mod_cast lt_of_mul_lt_mul_right hbelow hP.le
  have hjlow : -2 < j := by exact_mod_cast lt_of_mul_lt_mul_right habove hP.le
  rw [hj]
  obtain rfl | rfl | rfl : j = -1 ∨ j = 0 ∨ j = 1 := by omega
  · rw [Int.cast_neg, Int.cast_one, neg_one_mul, sub_neg_eq_add]
    exact fold_add_period h
  · rw [Int.cast_zero, zero_mul, sub_zero]
    exact fold_of_abs_lt h
  · rw [Int.cast_one, one_mul]
    exact fold_sub_period h

end NfOrchestrator.Cycle
