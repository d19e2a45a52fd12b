import Mathlib.Algebra.Order.Ring.Int
import Mathlib.Tactic.Linarith
import Scoopdope.Token.VestingCurves

/-!
# Token: the tranches of step vesting

The length of a step is the duration divided by the number of steps, rounded down, so the steps
are over before the schedule is unless the division is exact. `steps_never_ahead_iff`: a step
schedule is never ahead of the linear one exactly when there are steps and their number divides
the duration, or exceeds it (then nothing is vested before the end).
-/

namespace Scoopdope.Token

open Soroban ProportionalSplit

variable {Address : Type}

/-! ## Steps of equal length -/

section Tranches

variable {total start end_ count now : ℤ}

/-- The steps take up the duration exactly, or there is no time for a single one. -/
def StepsFit (start end_ count : ℤ) : Prop := end_ - start < count ∨ count ∣ end_ - start

theorem stepsCompleted_of_lt (hstart : start ≤ end_) (hlt : end_ - start < count) :
    stepsCompleted start end_ count now = 0 := by
  have hzero : (end_ - start).tdiv count = 0 := Int.tdiv_eq_zero_of_lt (by omega) hlt
  rw [stepsCompleted, hzero, Int.tdiv_zero]
  exact min_eq_left (by omega)

/-- At most as much of the steps as of the duration is over. -/
theorem stepsCompleted_mul_le (hcount : 0 < count) (hnow : start ≤ now) (hend : now < end_)
    (hfit : StepsFit start end_ count) :
    stepsCompleted start end_ count now * (end_ - start) ≤ count * (now - start) := by
  rcases hfit with hlt | ⟨step, hstep⟩
  · rw [stepsCompleted_of_lt (by omega) hlt, Int.zero_mul]
    exact Int.mul_nonneg hcount.le (by omega)
  · have hpos : 0 < step := by
      refine pos_of_mul_pos_right ?_ hcount.le
      omega
    have hlen : (end_ - start).tdiv count = step := by
      rw [hstep, Int.mul_tdiv_cancel_left step hcount.ne']
    have hsteps : stepsCompleted start end_ count now ≤ (now - start).tdiv step := by
      rw [stepsCompleted, hlen]
      exact min_le_left _ _
    calc stepsCompleted start end_ count now * (end_ - start)
        ≤ (now - start).tdiv step * (end_ - start) :=
          Int.mul_le_mul_of_nonneg_right hsteps (by omega)
      _ = count * (step * (now - start).tdiv step) := by rw [hstep]; ring
      _ ≤ count * (now - start) :=
          Int.mul_le_mul_of_nonneg_left (Int.mul_tdiv_self_le (by omega)) hcount.le

theorem stepped_mul_le (htotal : 0 ≤ total) (hcount : 0 < count) (hnow : start ≤ now)
    (hend : now < end_) (hfit : StepsFit start end_ count) :
    stepped total start end_ count now * (end_ - start) ≤ total * (now - start) := by
  have hduration : 0 ≤ end_ - start := by omega
  have hsteps := stepsCompleted_nonneg (hnow.trans hend.le) hcount.le hnow
  have hpart : count * stepped total start end_ count now ≤
      total * stepsCompleted start end_ count now := by
    rw [stepped, if_neg hcount.ne', part]
    exact Int.mul_tdiv_self_le (Int.mul_nonneg htotal hsteps)
  refine Int.le_of_mul_le_mul_left ?_ hcount
  calc count * (stepped total start end_ count now * (end_ - start))
      = count * stepped total start end_ count now * (end_ - start) := by ring
    _ ≤ total * stepsCompleted start end_ count now * (end_ - start) :=
        Int.mul_le_mul_of_nonneg_right hpart hduration
    _ = total * (stepsCompleted start end_ count now * (end_ - start)) := by ring
    _ ≤ total * (count * (now - start)) :=
        Int.mul_le_mul_of_nonneg_left (stepsCompleted_mul_le hcount hnow hend hfit) htotal
    _ = count * (total * (now - start)) := by ring

/-- Steps of a rounded length are all over one ledger before the end. -/
theorem stepsCompleted_of_not_fit (hcount : 0 < count) (hend : start < end_)
    (hfit : ¬ StepsFit start end_ count) : stepsCompleted start end_ count (end_ - 1) = count := by
  simp only [StepsFit, not_or, not_lt] at hfit
  obtain ⟨hle, hdvd⟩ := hfit
  have hlen : 1 ≤ (end_ - start).tdiv count :=
    Int.le_tdiv_of_mul_le hcount (by rw [Int.one_mul]; exact hle)
  have hmul : count * (end_ - start).tdiv count ≤ end_ - start := Int.mul_tdiv_self_le (by omega)
  have hne : count * (end_ - start).tdiv count ≠ end_ - start :=
    fun heq => hdvd ⟨_, heq.symm⟩
  exact min_eq_right (Int.le_tdiv_of_mul_le hlen (by omega))

/-- Steps of an exact length are all over but one. -/
theorem stepsCompleted_of_dvd (hcount : 0 < count) (hend : start < end_)
    (hdvd : count ∣ end_ - start) :
    stepsCompleted start end_ count (end_ - 1) = count - 1 := by
  obtain ⟨step, hstep⟩ := hdvd
  have hpos : 0 < step := by
    refine pos_of_mul_pos_right ?_ hcount.le
    omega
  have hlast : (end_ - 1 - start).tdiv step = count - 1 := by
    refine le_antisymm ?_ (Int.le_tdiv_of_mul_le hpos ?_)
    · rw [Int.tdiv_eq_ediv_of_nonneg (by omega)]
      refine Int.le_sub_one_of_lt (Int.ediv_lt_of_lt_mul hpos ?_)
      omega
    · linarith
  rw [stepsCompleted, hstep, Int.mul_tdiv_cancel_left step hcount.ne', hlast]
  exact min_eq_left (by omega)

end Tranches

/-! ## What the code computes -/

section Code

variable (now : U32) {schedule : VestingScheduleV2 Address}

/-- At the ledger the code says what is vested, and that is not more than the linear share. -/
def NotAhead (schedule : VestingScheduleV2 Address) (now : U32) : Prop :=
  ∃ v, vestedAmountV2 schedule now = .ok v ∧
    v.val * (schedule.endLedger.val - schedule.startLedger.val) ≤
      schedule.totalAmount.val * (now.val - schedule.startLedger.val)

variable (hstep : schedule.vestingType.val = 1) {now}
  (hcliff : schedule.cliffLedger.val ≤ now.val) (hend : now.val < schedule.endLedger.val)

include hstep hcliff hend

/-- Without steps everything is vested at the cliff. -/
theorem vestedAmountV2_no_steps (hcount : schedule.stepCount = 0) :
    vestedAmountV2 schedule now = .ok schedule.totalAmount := by
  have htype : schedule.vestingType = .lit 1 := BoundedInt.ext hstep
  have hlinear : ¬ schedule.vestingType = .lit 0 := by
    rw [htype]
    decide
  rw [vestedAmountV2, if_neg (BoundedInt.lt_def.not.mpr hcliff.not_gt),
    if_neg (BoundedInt.le_def.not.mpr hend.not_ge), if_neg hlinear, if_pos htype, if_pos hcount]
  rfl

theorem vestedAmountV2_steps_ok_iff (hcount : schedule.stepCount ≠ 0)
    (hstart : schedule.startLedger.val ≤ schedule.cliffLedger.val) {v : I128} :
    vestedAmountV2 schedule now = .ok v ↔
      (∃ product : I128, product.val = schedule.totalAmount.val *
        stepsCompleted schedule.startLedger.val schedule.endLedger.val schedule.stepCount.val
          now.val) ∧
      v.val = stepped schedule.totalAmount.val schedule.startLedger.val schedule.endLedger.val
        schedule.stepCount.val now.val := by
  have htype : schedule.vestingType = .lit 1 := BoundedInt.ext hstep
  have hlinear : ¬ schedule.vestingType = .lit 0 := by
    rw [htype]
    decide
  rw [vestedAmountV2, if_neg (BoundedInt.lt_def.not.mpr hcliff.not_gt),
    if_neg (BoundedInt.le_def.not.mpr hend.not_ge), if_neg hlinear, if_pos htype, if_neg hcount]
  exact stepped_ok_iff now hcount (hstart.trans hcliff) hend

end Code

/-! ## Exactly when the schedule is kept -/

section Schedule

variable {schedule : VestingScheduleV2 Address}

/-- There are steps, they fit, and the amounts of those before the end can be computed. -/
def StepsExact (schedule : VestingScheduleV2 Address) : Prop :=
  schedule.stepCount ≠ 0 ∧
    (schedule.endLedger.val - schedule.startLedger.val < schedule.stepCount.val ∨
      schedule.stepCount.val ∣ schedule.endLedger.val - schedule.startLedger.val ∧
        schedule.totalAmount.val * (schedule.stepCount.val - 1) ≤
          170141183460469231731687303715884105727)

variable (htimed : Timed schedule.totalAmount schedule.startLedger schedule.cliffLedger
    schedule.endLedger)
  (hstep : schedule.vestingType.val = 1)

include htimed hstep

theorem stepsExact_of_notAhead
    (h : ∀ now : U32, schedule.cliffLedger.val ≤ now.val → now.val < schedule.endLedger.val →
      NotAhead schedule now) : StepsExact schedule := by
  have hpos := htimed.pos
  have hstart := htimed.start_le
  have hcliff := htimed.cliff_lt
  have hnonneg := schedule.cliffLedger.lo_le
  have hend := schedule.endLedger.le_hi
  -- One ledger before the end there is room for anything but the total.
  let last : U32 := ⟨schedule.endLedger.val - 1, by omega, by omega⟩
  have hcliff' : schedule.cliffLedger.val ≤ last.val := Int.le_sub_one_of_lt hcliff
  have hend' : last.val < schedule.endLedger.val := Int.sub_one_lt_of_le le_rfl
  obtain ⟨v, hv, hle⟩ := h last hcliff' hend'
  have hne : v.val ≠ schedule.totalAmount.val := by
    intro heq
    rw [heq] at hle
    have hlt : schedule.totalAmount.val * (last.val - schedule.startLedger.val) <
        schedule.totalAmount.val * (schedule.endLedger.val - schedule.startLedger.val) :=
      Int.mul_lt_mul_of_pos_left (by omega) hpos
    omega
  have hcount : schedule.stepCount ≠ 0 := by
    intro hzero
    rw [vestedAmountV2_no_steps hstep hcliff' hend' hzero] at hv
    cases hv
    exact hne rfl
  have hcount' := count_pos hcount
  obtain ⟨⟨product, hproduct⟩, hstepped⟩ :=
    (vestedAmountV2_steps_ok_iff hstep hcliff' hend' hcount hstart).mp hv
  by_cases hfit : StepsFit schedule.startLedger.val schedule.endLedger.val schedule.stepCount.val
  · refine ⟨hcount, hfit.imp_right fun hdvd => ⟨hdvd, ?_⟩⟩
    rw [show last.val = schedule.endLedger.val - 1 from rfl,
      stepsCompleted_of_dvd hcount' (hstart.trans_lt hcliff) hdvd] at hproduct
    rw [← hproduct]
    exact product.le_hi
  · rw [show last.val = schedule.endLedger.val - 1 from rfl, stepped, if_neg hcount'.ne',
      stepsCompleted_of_not_fit hcount' (hstart.trans_lt hcliff) hfit,
      part_whole hcount'] at hstepped
    exact absurd hstepped hne

theorem notAhead_of_stepsExact (h : StepsExact schedule) {now : U32}
    (hcliff : schedule.cliffLedger.val ≤ now.val) (hend : now.val < schedule.endLedger.val) :
    NotAhead schedule now := by
  obtain ⟨hcount, hexact⟩ := h
  have hpos := htimed.pos
  have hstart := htimed.start_le.trans hcliff
  have hcount' := count_pos hcount
  have hnonneg := stepsCompleted_nonneg (hstart.trans hend.le) hcount'.le hstart
  -- The product of the last step before the end fits, and with it all others.
  have hproduct : ∃ product : I128, product.val = schedule.totalAmount.val *
      stepsCompleted schedule.startLedger.val schedule.endLedger.val schedule.stepCount.val
        now.val := by
    have hle : schedule.totalAmount.val *
        stepsCompleted schedule.startLedger.val schedule.endLedger.val schedule.stepCount.val
          now.val ≤ 170141183460469231731687303715884105727 := by
      rcases hexact with hlt | ⟨hdvd, hfits⟩
      · rw [stepsCompleted_of_lt (hstart.trans hend.le) hlt, Int.mul_zero]
        decide
      · refine le_trans (Int.mul_le_mul_of_nonneg_left ?_ hpos.le) hfits
        rw [← stepsCompleted_of_dvd hcount' (hstart.trans_lt hend) hdvd]
        exact stepsCompleted_mono (hstart.trans hend.le) hcount'.le (Int.le_sub_one_of_lt hend)
    have hproduct := Int.mul_nonneg hpos.le hnonneg
    exact ⟨⟨_, by omega, hle⟩, rfl⟩
  obtain ⟨v, hv⟩ := exists_part hpos.le schedule.stepCount.val _ hcount' hnonneg (min_le_right _ _)
  have hstepped : v.val = stepped schedule.totalAmount.val schedule.startLedger.val
      schedule.endLedger.val schedule.stepCount.val now.val := by
    rw [stepped, if_neg hcount'.ne']
    exact hv
  refine ⟨v, (vestedAmountV2_steps_ok_iff hstep hcliff hend hcount htimed.start_le).mpr
    ⟨hproduct, hstepped⟩, ?_⟩
  rw [hstepped]
  exact stepped_mul_le hpos.le hcount' hstart hend (hexact.imp_right And.left)

end Schedule

variable [DecidableEq Address] [Airdrop.XdrBytes Address]

/-- A stored step schedule always has a vested amount, never ahead of the linear share, exactly
when its steps are exact. The amounts there are, and the steps, are never ahead where the steps
fit. -/
theorem steps_never_ahead_iff {admin : Address} {s₀ : Storage Address} (h : Initialised admin s₀)
    (past : List (Env Address × Call Address)) {beneficiary : Address} {scheduleId : U32}
    {schedule : VestingScheduleV2 Address}
    (hget : getVestingV2 (after exec s₀ past) beneficiary scheduleId = some schedule)
    (hstep : schedule.vestingType.val = 1) :
    ((∀ now : U32, schedule.cliffLedger.val ≤ now.val → now.val < schedule.endLedger.val →
      NotAhead schedule now) ↔ StepsExact schedule) ∧
    (schedule.stepCount ≠ 0 →
      StepsFit schedule.startLedger.val schedule.endLedger.val schedule.stepCount.val →
      ∀ now : U32, schedule.cliffLedger.val ≤ now.val → now.val < schedule.endLedger.val →
      stepsCompleted schedule.startLedger.val schedule.endLedger.val schedule.stepCount.val
          now.val * (schedule.endLedger.val - schedule.startLedger.val) ≤
        schedule.stepCount.val * (now.val - schedule.startLedger.val) ∧
      ∀ v, vestedAmountV2 schedule now = .ok v →
        v.val * (schedule.endLedger.val - schedule.startLedger.val) ≤
          schedule.totalAmount.val * (now.val - schedule.startLedger.val)) := by
  obtain ⟨htimed, -⟩ := (schedulesTimed_after h past).vestingV2 _ _ hget
  refine ⟨⟨stepsExact_of_notAhead htimed hstep,
    fun hexact now hcliff hend => notAhead_of_stepsExact htimed hstep hexact hcliff hend⟩, ?_⟩
  intro hcount hfit now hcliff hend
  have hcount' := count_pos hcount
  have hstart := htimed.start_le.trans hcliff
  refine ⟨stepsCompleted_mul_le hcount' hstart hend hfit, fun v hv => ?_⟩
  obtain ⟨-, hstepped⟩ :=
    (vestedAmountV2_steps_ok_iff hstep hcliff hend hcount htimed.start_le).mp hv
  rw [hstepped]
  exact stepped_mul_le htimed.pos.le hcount' hstart hend hfit

/-- 1000 in four steps of 25 ledgers each. -/
def exampleQuarters : VestingScheduleV2 Nat :=
  { exampleStepsStored with stepCount := .lit 4 }

theorem steps_never_ahead_iff_quarters : NotAhead exampleQuarters (.lit 99) := by
  have hiff := (steps_never_ahead_iff exampleToken_initialised
    [(exampleEnv 0 [1], .createVestingV2 1 2 (.lit 1000) 0 (.lit 100) (.lit 1) (.lit 4))]
    (show getVestingV2 _ 2 0 = some exampleQuarters from rfl) rfl).1
  exact hiff.mpr ⟨by decide, by decide⟩ (.lit 99) (by decide) (by decide)

/-- Three steps of 33 ledgers each are over one ledger before the end. -/
theorem steps_over_early :
    getVestingV2 (after exec exampleToken [exampleSteps]) 2 0 = some exampleStepsStored ∧
      exampleStepsStored.vestingType.val = 1 ∧ exampleStepsStored.cliffLedger.val ≤ 99 ∧
      99 < exampleStepsStored.endLedger.val ∧
      vestedAmountV2 exampleStepsStored (.lit 99) = .ok (.lit 1000) ∧
      ¬ 1000 * (exampleStepsStored.endLedger.val - exampleStepsStored.startLedger.val) ≤
        exampleStepsStored.totalAmount.val * (99 - exampleStepsStored.startLedger.val) :=
  ⟨rfl, rfl, by decide, by decide, by decide, by decide⟩

end Scoopdope.Token
