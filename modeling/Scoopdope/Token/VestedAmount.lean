import Scoopdope.Token.Steps

/-!
# Token: vesting curves

Whatever the ledger, the linear and the step curve stay at or below the total
of their schedule, and from `end_ledger` on they are at it.
-/

namespace Scoopdope.Token

open Soroban

/-- A part `k / n` of an amount, rounded, is at most the amount. -/
theorem part_le {total k n : Int} (htotal : 0 ≤ total) (hn : 0 < n) (hk : k ≤ n) :
    (total * k).tdiv n ≤ total := by
  calc (total * k).tdiv n ≤ (total * n).tdiv n :=
        Int.tdiv_le_tdiv hn (Int.mul_le_mul_of_nonneg_left hk htotal)
    _ = total := Int.mul_tdiv_cancel total hn.ne'

variable {Address : Type}

/-- The linear curve before its end, the same statements for both kinds of
schedule. -/
theorem linear_le {total vested : I128} {start end_ now : U32} (htotal : 0 ≤ total.val)
    (hnow : now.val < end_.val)
    (h : (do
      let elapsed ← expect (now.checkedSub start) "arithmetic overflow"
      let duration ← expect (end_.checkedSub start) "arithmetic overflow"
      let product ← expect (total.checkedMul elapsed.u32AsI128) "arithmetic overflow"
      expect (product.checkedDiv duration.u32AsI128) "arithmetic overflow") = .ok vested) :
    vested.val ≤ total.val := by
  simp only [bind_eq_ok, expect_eq_ok, BoundedInt.checkedSub_eq_some,
    BoundedInt.checkedMul_eq_some, BoundedInt.checkedDiv_eq_some, BoundedInt.u32AsI128_val] at h
  obtain ⟨elapsed, helapsed, duration, hduration, product, hproduct, _, hvested⟩ := h
  have hpos : 0 < duration.val := by
    have := elapsed.lo_le
    omega
  have hle : elapsed.val ≤ duration.val := by omega
  rw [hvested, hproduct]
  exact part_le htotal hpos hle

theorem vestedAmount_le {schedule : VestingSchedule Address} {now : U32} {vested : I128}
    (htotal : 0 ≤ schedule.totalAmount.val) (h : vestedAmount schedule now = .ok vested) :
    vested.val ≤ schedule.totalAmount.val := by
  unfold vestedAmount at h
  split at h
  · cases h
    exact htotal
  split at h
  · cases h
    exact le_refl _
  · next _ hend => exact linear_le htotal (not_le.mp hend) h

theorem vestedAmountV2_le {schedule : VestingScheduleV2 Address} {now : U32} {vested : I128}
    (htotal : 0 ≤ schedule.totalAmount.val) (h : vestedAmountV2 schedule now = .ok vested) :
    vested.val ≤ schedule.totalAmount.val := by
  unfold vestedAmountV2 at h
  split at h
  · cases h
    exact htotal
  split at h
  · cases h
    exact le_refl _
  next _ hend =>
  split at h
  -- linear
  · exact linear_le htotal (not_le.mp hend) h
  split at h
  -- step
  · split at h
    · cases h
      exact le_refl _
    · next hcount =>
      simp only [bind_eq_ok, expect_eq_ok, BoundedInt.checkedMul_eq_some,
        BoundedInt.checkedDiv_eq_some, BoundedInt.u32AsI128_val, BoundedInt.min_val] at h
      obtain ⟨elapsed, _, duration, _, product, hproduct, hne, hvested⟩ := h
      have hpos : 0 < schedule.stepCount.val := by
        have := schedule.stepCount.lo_le
        omega
      rw [hvested, hproduct]
      exact part_le htotal hpos (min_le_right _ _)
  · cases h
    exact htotal

theorem vestedAmountV2_end {schedule : VestingScheduleV2 Address} {now : U32} {vested : I128}
    (hcliff : schedule.cliffLedger.val < schedule.endLedger.val)
    (hend : schedule.endLedger.val ≤ now.val) (h : vestedAmountV2 schedule now = .ok vested) :
    vested = schedule.totalAmount := by
  unfold vestedAmountV2 at h
  split at h
  · next hearly =>
    have := BoundedInt.lt_def.mp hearly
    omega
  · rw [if_pos (BoundedInt.le_def.mpr hend)] at h
    cases h
    rfl

end Scoopdope.Token
