import Scoopdope.Market.Release
import Scoopdope.Token.Vesting
import Scoopdope.Token.VestingV2

/-!
# Token: the vesting curves

What is vested of a schedule at a ledger is `curve` and `curveV2`, release curves between the
cliff and the end of the schedule: a line, or as many steps as the schedule says. The code
computes them without a trap for every stored schedule of at most the maximal supply
(`vestedAmount_eq`, `vestedAmountV2_eq`), so claims on a schedule that stays as it is pay in total
what is vested at the last of them (`vesting_curves_sound`).
-/

namespace Scoopdope.Token

open Soroban Release ProportionalSplit

variable {Address : Type}

/-! ## The curves -/

/-- `elapsed / duration` of the total. -/
def linear (total start end_ now : ℤ) : ℤ := part total (end_ - start) (now - start)

/-- The steps that are completed. The whole duration is no multiple of the length of a step. -/
def stepsCompleted (start end_ count now : ℤ) : ℤ :=
  min ((now - start).tdiv ((end_ - start).tdiv count)) count

/-- Equal parts of the total, one for each step; all of it if there are no steps. -/
def stepped (total start end_ count now : ℤ) : ℤ :=
  if count = 0 then total else part total count (stepsCompleted start end_ count now)

def curve (schedule : VestingSchedule Address) : ℤ → ℤ :=
  ramp schedule.totalAmount.val schedule.cliffLedger.val schedule.endLedger.val
    (linear schedule.totalAmount.val schedule.startLedger.val schedule.endLedger.val)

def curveV2 (schedule : VestingScheduleV2 Address) : ℤ → ℤ :=
  ramp schedule.totalAmount.val schedule.cliffLedger.val schedule.endLedger.val
    (if schedule.vestingType.val = 0 then
      linear schedule.totalAmount.val schedule.startLedger.val schedule.endLedger.val
    else stepped schedule.totalAmount.val schedule.startLedger.val schedule.endLedger.val
      schedule.stepCount.val)

/-- The figures of a schedule that `create_vesting` and `modify_vesting_v2` accept. -/
structure Timed (total : I128) (start cliff end_ : U32) : Prop where
  pos : 0 < total.val
  start_le : start.val ≤ cliff.val
  cliff_lt : cliff.val < end_.val

section Curves

variable {total start cliff end_ count : ℤ}

theorem curve_linear (htotal : 0 ≤ total) (hstart : start ≤ cliff) (hcliff : cliff < end_) :
    Curve total cliff end_ (ramp total cliff end_ (linear total start end_)) := by
  have hduration : 0 < end_ - start := by omega
  refine curve_ramp hcliff.le (fun time time' _ hle _ => ?_) (fun time hearly hlate => ?_) htotal
  · exact part_le_part htotal hduration (by omega)
  · refine ⟨part_nonneg htotal hduration.le (by omega), ?_⟩
    calc linear total start end_ time ≤ part total (end_ - start) (end_ - start) :=
          part_le_part htotal hduration (by omega)
      _ = total := part_whole hduration

theorem stepsCompleted_mono (hstart : start ≤ end_) (hcount : 0 ≤ count) {now now' : ℤ}
    (hle : now ≤ now') :
    stepsCompleted start end_ count now ≤ stepsCompleted start end_ count now' := by
  refine min_le_min_right count ?_
  rcases (Int.tdiv_nonneg (by omega : 0 ≤ end_ - start) hcount).eq_or_lt with hzero | hpos
  · rw [← hzero, Int.tdiv_zero, Int.tdiv_zero]
  · exact Int.tdiv_le_tdiv hpos (by omega)

theorem stepsCompleted_nonneg (hstart : start ≤ end_) (hcount : 0 ≤ count) {now : ℤ}
    (hnow : start ≤ now) : 0 ≤ stepsCompleted start end_ count now := by
  have hduration : 0 ≤ (end_ - start).tdiv count := Int.tdiv_nonneg (by omega) hcount
  exact le_min (Int.tdiv_nonneg (by omega) hduration) hcount

theorem curve_stepped (htotal : 0 ≤ total) (hstart : start ≤ cliff) (hcliff : cliff < end_)
    (hcount : 0 ≤ count) :
    Curve total cliff end_ (ramp total cliff end_ (stepped total start end_ count)) := by
  unfold stepped
  rcases hcount.eq_or_lt with hzero | hpos
  · refine curve_ramp hcliff.le (fun _ _ _ _ _ => ?_) (fun _ _ _ => ?_) htotal
    · rw [if_pos hzero.symm, if_pos hzero.symm]
    · rw [if_pos hzero.symm]
      exact ⟨htotal, le_rfl⟩
  · have hend : start ≤ end_ := by omega
    refine curve_ramp hcliff.le (fun time time' _ hle _ => ?_) (fun time hearly _ => ?_) htotal
    · rw [if_neg hpos.ne', if_neg hpos.ne']
      exact part_le_part htotal hpos (stepsCompleted_mono hend hcount hle)
    · rw [if_neg hpos.ne']
      have hsteps := stepsCompleted_nonneg hend hcount (hstart.trans hearly)
      refine ⟨part_nonneg htotal hcount hsteps, ?_⟩
      calc part total count (stepsCompleted start end_ count time) ≤ part total count count :=
            part_le_part htotal hpos (min_le_right _ _)
        _ = total := part_whole hpos

end Curves

theorem curve_sound {schedule : VestingSchedule Address}
    (h : Timed schedule.totalAmount schedule.startLedger schedule.cliffLedger schedule.endLedger) :
    Curve schedule.totalAmount.val schedule.cliffLedger.val schedule.endLedger.val
      (curve schedule) :=
  curve_linear h.pos.le h.start_le h.cliff_lt

theorem curveV2_sound {schedule : VestingScheduleV2 Address}
    (h : Timed schedule.totalAmount schedule.startLedger schedule.cliffLedger schedule.endLedger) :
    Curve schedule.totalAmount.val schedule.cliffLedger.val schedule.endLedger.val
      (curveV2 schedule) := by
  unfold curveV2
  split
  · exact curve_linear h.pos.le h.start_le h.cliff_lt
  · exact curve_stepped h.pos.le h.start_le h.cliff_lt schedule.stepCount.lo_le

/-! ## What the code computes -/

/-- A product of at most the maximal supply with a `u32` fits in an `i128`. -/
theorem exists_product {total : I128} (hpos : 0 ≤ total.val) (hcap : total.val ≤ maxSupply.val)
    (k : U32) : ∃ product : I128, product.val = total.val * k.val := by
  have hcap' : total.val ≤ 10000000000000000 := hcap
  have hle : total.val * k.val ≤ 10000000000000000 * 4294967295 :=
    Int.mul_le_mul hcap' k.le_hi k.lo_le (by decide)
  have hnonneg : 0 ≤ total.val * k.val := Int.mul_nonneg hpos k.lo_le
  exact ⟨⟨total.val * k.val, by omega, by omega⟩, rfl⟩

/-- A part of an amount fits where the amount does. -/
theorem exists_part {total : I128} (hpos : 0 ≤ total.val) (whole weight : ℤ) (hwhole : 0 < whole)
    (hweight : 0 ≤ weight) (hle : weight ≤ whole) :
    ∃ v : I128, v.val = part total.val whole weight := by
  have hnonneg := part_nonneg hpos hwhole.le hweight
  have hpart : part total.val whole weight ≤ total.val := by
    calc part total.val whole weight ≤ part total.val whole whole :=
          part_le_part hpos hwhole hle
      _ = total.val := part_whole hwhole
  have hhi := total.le_hi
  exact ⟨⟨part total.val whole weight, by omega, by omega⟩, rfl⟩

theorem exists_sub {a b : U32} (h : b.val ≤ a.val) : ∃ c : U32, c.val = a.val - b.val := by
  have hb := b.lo_le
  have ha := a.le_hi
  exact ⟨⟨a.val - b.val, by omega, by omega⟩, rfl⟩

theorem count_pos {count : U32} (h : count ≠ 0) : 0 < count.val := by
  have hne : count.val ≠ 0 := fun hzero => h (BoundedInt.ext hzero)
  have hnonneg := count.lo_le
  omega

/-- A quotient that has a value is not replaced by the default. -/
theorem checkedDiv_getD {a b : U32} (d : U32) (hb : b.val ≠ 0) :
    ((a.checkedDiv b).getD d).val = a.val.tdiv b.val := by
  have ha := a.lo_le
  have hhi := a.le_hi
  have hle : a.val.tdiv b.val ≤ a.val := Int.tdiv_le_self b.val ha
  have hnonneg : 0 ≤ a.val.tdiv b.val := Int.tdiv_nonneg ha b.lo_le
  have hquotient : a.checkedDiv b = some ⟨a.val.tdiv b.val, by omega, by omega⟩ :=
    BoundedInt.checkedDiv_eq_some.mpr ⟨hb, rfl⟩
  rw [hquotient]
  rfl

/-- A quotient by zero is replaced by 0. -/
theorem checkedDiv_getD_zero (a b : U32) :
    ((a.checkedDiv b).getD 0).val = a.val.tdiv b.val := by
  by_cases hb : b.val = 0
  · rw [BoundedInt.checkedDiv, if_pos hb, hb, Int.tdiv_zero]
    rfl
  · exact checkedDiv_getD 0 hb

/-- The statements for the linear curve, the same for both kinds of schedule. -/
theorem linear_eq {total : I128} (hpos : 0 ≤ total.val) (hcap : total.val ≤ maxSupply.val)
    {start end_ now : U32} (hstart : start.val ≤ now.val) (hend : now.val < end_.val) :
    ∃ v, (do
      let elapsed ← expect (now.checkedSub start) "arithmetic overflow"
      let duration ← expect (end_.checkedSub start) "arithmetic overflow"
      let product ← expect (total.checkedMul elapsed.u32AsI128) "arithmetic overflow"
      expect (product.checkedDiv duration.u32AsI128) "arithmetic overflow") = Except.ok v ∧
      v.val = linear total.val start.val end_.val now.val := by
  obtain ⟨elapsed, helapsed⟩ := exists_sub hstart
  obtain ⟨duration, hduration⟩ := exists_sub (hstart.trans hend.le)
  obtain ⟨product, hproduct⟩ := exists_product hpos hcap elapsed
  obtain ⟨v, hv⟩ := exists_part hpos (end_.val - start.val) (now.val - start.val)
    (by omega) (by omega) (by omega)
  refine ⟨v, ?_, hv⟩
  simp only [bind_eq_ok, expect_eq_ok, BoundedInt.checkedSub_eq_some,
    BoundedInt.checkedMul_eq_some, BoundedInt.checkedDiv_eq_some, BoundedInt.u32AsI128_val]
  refine ⟨elapsed, helapsed, duration, hduration, product, hproduct, ?_, ?_⟩
  · omega
  · rw [hv, hproduct, helapsed, hduration, part]

section Code

variable (now : U32)

/-- What is vested of a schedule of version 1. It is computed without a trap. -/
theorem vestedAmount_eq {schedule : VestingSchedule Address}
    (h : Timed schedule.totalAmount schedule.startLedger schedule.cliffLedger schedule.endLedger)
    (hcap : schedule.totalAmount.val ≤ maxSupply.val) :
    ∃ v, vestedAmount schedule now = .ok v ∧ v.val = curve schedule now.val := by
  unfold vestedAmount curve
  split
  · next hearly => exact ⟨0, rfl, (ramp_early hearly).symm⟩
  · next hearly =>
    have hcliff : schedule.cliffLedger.val ≤ now.val := not_lt.mp hearly
    split
    · next hlate => exact ⟨_, rfl, (ramp_late hcliff hlate).symm⟩
    · next hlate =>
      have hend : now.val < schedule.endLedger.val := not_le.mp hlate
      rw [ramp_between hcliff hend]
      exact linear_eq h.pos.le hcap (h.start_le.trans hcliff) hend

/-- The statements for the step curve. They trap where the product does not fit. -/
theorem stepped_ok_iff {total : I128} {start end_ count : U32} (hcount : count ≠ 0)
    (hstart : start.val ≤ now.val) (hend : now.val < end_.val) {v : I128} :
    (do
      let elapsed ← expect (now.checkedSub start) "arithmetic overflow"
      let duration ← expect (end_.checkedSub start) "arithmetic overflow"
      let stepDuration := (duration.checkedDiv count).getD (.lit 1)
      let stepsCompleted := (elapsed.checkedDiv stepDuration).getD 0
      let stepsCompleted := min stepsCompleted count
      let product ← expect (total.checkedMul stepsCompleted.u32AsI128) "arithmetic overflow"
      expect (product.checkedDiv count.u32AsI128) "arithmetic overflow") = Except.ok v ↔
    (∃ product : I128,
      product.val = total.val * stepsCompleted start.val end_.val count.val now.val) ∧
    v.val = stepped total.val start.val end_.val count.val now.val := by
  have hpositive : 0 < count.val := count_pos hcount
  obtain ⟨elapsed, helapsed⟩ := exists_sub hstart
  obtain ⟨duration, hduration⟩ := exists_sub (hstart.trans hend.le)
  let completed : U32 :=
    min ((elapsed.checkedDiv ((duration.checkedDiv count).getD (.lit 1))).getD 0) count
  -- A step longer than the duration has the length 0, and no step is ever completed.
  have hsteps : completed.val = stepsCompleted start.val end_.val count.val now.val := by
    show (min _ count).val = _
    rw [BoundedInt.min_val, checkedDiv_getD_zero, checkedDiv_getD _ hpositive.ne', helapsed,
      hduration, stepsCompleted]
  have hsub : now.checkedSub start = some elapsed := BoundedInt.checkedSub_eq_some.mpr helapsed
  have hsub' : end_.checkedSub start = some duration := BoundedInt.checkedSub_eq_some.mpr hduration
  rw [stepped, if_neg hpositive.ne', part, ← hsteps, expect_eq_ok.mpr hsub, ok_bind,
    expect_eq_ok.mpr hsub', ok_bind]
  show (do
      let product ← expect (total.checkedMul completed.u32AsI128) "arithmetic overflow"
      expect (product.checkedDiv count.u32AsI128) "arithmetic overflow") = Except.ok v ↔ _
  simp only [bind_eq_ok, expect_eq_ok, BoundedInt.checkedMul_eq_some,
    BoundedInt.checkedDiv_eq_some, BoundedInt.u32AsI128_val]
  constructor
  · rintro ⟨product, hproduct, -, hv⟩
    exact ⟨⟨product, hproduct⟩, hproduct ▸ hv⟩
  · rintro ⟨⟨product, hproduct⟩, hv⟩
    exact ⟨product, hproduct, hpositive.ne', hproduct ▸ hv⟩

theorem stepped_eq {total : I128} (hpos : 0 ≤ total.val) (hcap : total.val ≤ maxSupply.val)
    {start end_ count : U32} (hcount : count ≠ 0) (hstart : start.val ≤ now.val)
    (hend : now.val < end_.val) :
    ∃ v, (do
      let elapsed ← expect (now.checkedSub start) "arithmetic overflow"
      let duration ← expect (end_.checkedSub start) "arithmetic overflow"
      let stepDuration := (duration.checkedDiv count).getD (.lit 1)
      let stepsCompleted := (elapsed.checkedDiv stepDuration).getD 0
      let stepsCompleted := min stepsCompleted count
      let product ← expect (total.checkedMul stepsCompleted.u32AsI128) "arithmetic overflow"
      expect (product.checkedDiv count.u32AsI128) "arithmetic overflow") = Except.ok v ∧
      v.val = stepped total.val start.val end_.val count.val now.val := by
  have hpositive : 0 < count.val := count_pos hcount
  have hnonneg := stepsCompleted_nonneg (hstart.trans hend.le) count.lo_le hstart
  have hle : stepsCompleted start.val end_.val count.val now.val ≤ count.val := min_le_right _ _
  have hcompleted : ∃ completed : U32,
      completed.val = stepsCompleted start.val end_.val count.val now.val :=
    ⟨⟨_, hnonneg, hle.trans count.le_hi⟩, rfl⟩
  obtain ⟨completed, hcompleted⟩ := hcompleted
  obtain ⟨product, hproduct⟩ := exists_product hpos hcap completed
  obtain ⟨v, hv⟩ := exists_part hpos count.val _ hpositive hnonneg hle
  have hstepped : v.val = stepped total.val start.val end_.val count.val now.val := by
    rw [hv, stepped, if_neg hpositive.ne']
  rw [hcompleted] at hproduct
  exact ⟨v, (stepped_ok_iff now hcount hstart hend).mpr ⟨⟨product, hproduct⟩, hstepped⟩,
    hstepped⟩

/-- What is vested of a schedule of version 2. It is computed without a trap. -/
theorem vestedAmountV2_eq {schedule : VestingScheduleV2 Address}
    (h : Timed schedule.totalAmount schedule.startLedger schedule.cliffLedger schedule.endLedger)
    (htype : schedule.vestingType.val ≤ 1)
    (hcap : schedule.totalAmount.val ≤ maxSupply.val) :
    ∃ v, vestedAmountV2 schedule now = .ok v ∧ v.val = curveV2 schedule now.val := by
  unfold vestedAmountV2 curveV2
  split
  · next hearly => exact ⟨0, rfl, (ramp_early hearly).symm⟩
  next hearly =>
  have hcliff : schedule.cliffLedger.val ≤ now.val := not_lt.mp hearly
  split
  · next hlate => exact ⟨_, rfl, (ramp_late hcliff hlate).symm⟩
  next hlate =>
  have hend : now.val < schedule.endLedger.val := not_le.mp hlate
  have hstart := h.start_le.trans hcliff
  rw [ramp_between hcliff hend]
  split
  -- linear
  · next hlinear =>
    have hzero : schedule.vestingType.val = 0 := congrArg BoundedInt.val hlinear
    rw [if_pos hzero]
    exact linear_eq h.pos.le hcap hstart hend
  -- step
  · next hlinear =>
    have hne : schedule.vestingType.val ≠ 0 := fun he => hlinear (BoundedInt.ext he)
    have hstep : schedule.vestingType = .lit 1 := by
      have hnonneg := schedule.vestingType.lo_le
      ext
      show schedule.vestingType.val = 1
      omega
    rw [if_pos hstep, if_neg hne]
    split
    · next hnone =>
      refine ⟨_, rfl, ?_⟩
      show _ = stepped _ _ _ _ _
      rw [stepped, hnone]
      rfl
    · next hcount => exact stepped_eq now h.pos.le hcap hcount hstart hend

end Code

/-! ## The stored schedules -/

variable [DecidableEq Address]

/-- The figures of all stored schedules. -/
structure SchedulesTimed (s : Storage Address) : Prop where
  vesting : ∀ beneficiary schedule, s.vesting.get beneficiary = some schedule →
    Timed schedule.totalAmount schedule.startLedger schedule.cliffLedger schedule.endLedger
  vestingV2 : ∀ key schedule, s.vestingV2.get key = some schedule →
    Timed schedule.totalAmount schedule.startLedger schedule.cliffLedger schedule.endLedger ∧
      schedule.vestingType.val ≤ 1

variable [Airdrop.XdrBytes Address]

section Steps

variable {s s' : Storage Address} {i : Env Address × Call Address}

theorem SchedulesTimed.step (hs : SchedulesTimed s) (h : exec s i = .ok s') :
    SchedulesTimed s' := by
  have hframe := exec_frame h
  obtain ⟨env, call⟩ := i
  cases call with
  | createVesting admin beneficiary totalAmount cliffLedger endLedger =>
    obtain ⟨_, _, hpos, hcliff, hend, rfl⟩ := createVesting_ok h
    exact ⟨Table.forall_set hs.vesting ⟨hpos, hcliff, hend⟩, hs.vestingV2⟩
  | claimVesting beneficiary =>
    obtain ⟨_, schedule, vested, claimable, claimed, hget, _, _, _, _, v, w, _, rfl⟩ :=
      claimVesting_ok h
    have htimed := hs.vesting _ _ hget
    exact ⟨Table.forall_set hs.vesting htimed, hs.vestingV2⟩
  | createVestingV2 admin beneficiary totalAmount cliffLedger endLedger vestingType stepCount =>
    obtain ⟨scheduleId, hc⟩ := map_snd_eq_ok.mp h
    obtain ⟨_, _, hpos, htype, hcliff, hend, rfl, nextId, hnext, rfl⟩ := createVestingV2_ok hc
    exact ⟨hs.vesting, Table.forall_set hs.vestingV2 ⟨⟨hpos, hcliff, hend⟩, htype⟩⟩
  | claimVestingV2 beneficiary scheduleId =>
    obtain ⟨_, schedule, vested, claimable, claimed, hget, _, _, _, _, v, w, _, rfl⟩ :=
      claimVestingV2_ok h
    have htimed := hs.vestingV2 _ _ hget
    exact ⟨hs.vesting, Table.forall_set hs.vestingV2 htimed⟩
  | modifyVestingV2 admin beneficiary scheduleId newEndLedger =>
    obtain ⟨_, _, schedule, hget, hcliff, rfl⟩ := modifyVestingV2_ok h
    obtain ⟨htimed, htype⟩ := hs.vestingV2 _ _ hget
    have htimed' : Timed schedule.totalAmount schedule.startLedger schedule.cliffLedger
      newEndLedger := ⟨htimed.pos, htimed.start_le, hcliff⟩
    exact ⟨hs.vesting, Table.forall_set hs.vestingV2 ⟨htimed', htype⟩⟩
  | _ =>
    obtain ⟨hv, _⟩ := hframe.vestingV2 Part.noConfusion
    refine ⟨?_, ?_⟩
    · rw [hframe.vesting Part.noConfusion]
      exact hs.vesting
    · rw [hv]
      exact hs.vestingV2

end Steps

theorem schedulesTimed_after {admin : Address} {s₀ : Storage Address} (h : Initialised admin s₀)
    (past : List (Env Address × Call Address)) : SchedulesTimed (after exec s₀ past) := by
  refine after_invariant ?_ (fun _ _ _ hs he => SchedulesTimed.step hs he) past
  obtain ⟨env, h⟩ := h
  obtain ⟨_, _, rfl⟩ := initializeContract_ok.mp h
  exact ⟨fun _ _ hget => absurd hget Table.get_empty_ne_some,
    fun _ _ hget => absurd hget Table.get_empty_ne_some⟩

/-! ## Claims -/

/-- A claim is made: it is accepted, or there is nothing left to claim. -/
def Made (s : Storage Address) (i : Env Address × Call Address) : Prop :=
  (∃ s', exec s i = .ok s') ∨ exec s i = .error (.panic "Nothing to claim yet")

def ledger (i : Env Address × Call Address) : ℤ := i.1.sequence.val

section Refused

variable {α : Type}

omit [DecidableEq Address] [Airdrop.XdrBytes Address] in
theorem expect_ne_nothing_to_claim {o : Option α} {msg : String}
    (hmsg : "Nothing to claim yet" ≠ msg) :
    expect o msg ≠ .error (.panic "Nothing to claim yet") := by
  intro h
  cases (expect_eq_error.mp h).2
  exact hmsg rfl

omit [Airdrop.XdrBytes Address] in
theorem credit_ne_nothing_to_claim {s : Storage Address} {addr : Address} {x : I128}
    {f : Storage Address → Outcome α}
    (hf : ∀ s', f s' ≠ .error (.panic "Nothing to claim yet")) :
    (do
      let s ← addBalance s addr x
      let s ← addSupply s x
      f s) ≠ .error (.panic "Nothing to claim yet") := by
  refine bind_ne_error ?_ fun s' _ => bind_ne_error ?_ fun s'' _ => hf s''
  · exact bind_ne_error (expect_ne_nothing_to_claim (by decide)) fun _ _ => pure_ne_error
  · refine bind_ne_error (expect_ne_nothing_to_claim (by decide)) fun _ _ => ?_
    refine bind_ne_error (fun h => ?_) fun _ _ => pure_ne_error
    exact absurd (assert_eq_error.mp h).2 (by simp)

omit [DecidableEq Address] [Airdrop.XdrBytes Address] in
/-- The one check of a claim that refuses it for that reason. -/
theorem le_of_nothing_to_claim {vested claimed : I128} {f : I128 → Outcome α}
    (hf : ∀ claimable, f claimable ≠ .error (.panic "Nothing to claim yet"))
    (h : (do
      let claimable ← expect (vested.checkedSub claimed) "arithmetic overflow"
      assert (0 < claimable) "Nothing to claim yet"
      f claimable) = .error (.panic "Nothing to claim yet")) : vested.val ≤ claimed.val := by
  rcases bind_eq_error.mp h with hsub | ⟨claimable, hclaimable, h⟩
  · exact absurd hsub (expect_ne_nothing_to_claim (by decide))
  rw [expect_eq_ok, BoundedInt.checkedSub_eq_some] at hclaimable
  rcases bind_eq_error.mp h with hnone | ⟨_, _, h⟩
  · have hle : claimable.val ≤ 0 := not_lt.mp (assert_eq_error.mp hnone).1
    omega
  · exact absurd h (hf claimable)

end Refused

section Version1

variable {s s' : Storage Address} {i : Env Address × Call Address} {beneficiary : Address}
  {schedule : VestingSchedule Address}

def claimedOf (beneficiary : Address) (s : Storage Address) : ℤ :=
  amountOf (fun schedule => schedule.claimed.val) (getVesting s beneficiary)

/-- The call writes the schedule of the beneficiary anew. -/
def Rewrites (beneficiary : Address) (i : Env Address × Call Address) : Prop :=
  ∃ admin totalAmount cliffLedger endLedger,
    i.2 = .createVesting admin beneficiary totalAmount cliffLedger endLedger

/-- The schedule is stored, with some amount claimed. -/
structure Holds (schedule : VestingSchedule Address) (beneficiary : Address)
    (s : Storage Address) : Prop where
  sound : VestingSound s
  stored : ∃ claimed, getVesting s beneficiary = some { schedule with claimed }

variable (htimed : Timed schedule.totalAmount schedule.startLedger schedule.cliffLedger
    schedule.endLedger)
  (hcap : schedule.totalAmount.val ≤ maxSupply.val)

include htimed hcap

omit [DecidableEq Address] [Airdrop.XdrBytes Address] in
theorem vested_eq_curve (claimed : I128) {vested : I128} {now : U32}
    (h : vestedAmount { schedule with claimed } now = .ok vested) :
    vested.val = curve schedule now.val := by
  obtain ⟨v, hv, hcurve⟩ := vestedAmount_eq now
    (show Timed ({ schedule with claimed } : VestingSchedule Address).totalAmount _ _ _ from htimed)
    hcap
  cases hv.symm.trans h
  exact hcurve

theorem Holds.step (h : Holds schedule beneficiary s) (hkeep : ¬ Rewrites beneficiary i)
    (hexec : exec s i = .ok s') :
    Holds schedule beneficiary s' ∧
      Pays (claimedOf beneficiary) (mintedByClaim beneficiary) ledger (curve schedule) s i s' := by
  obtain ⟨hsound, claimed, hget⟩ := h
  -- A call that leaves the schedule pays nothing for it.
  have hleaves (hsame : getVesting s' beneficiary = getVesting s beneficiary)
      (hnone : mintedByClaim beneficiary s i = 0) : Holds schedule beneficiary s' ∧
      Pays (claimedOf beneficiary) (mintedByClaim beneficiary) ledger (curve schedule) s i s' := by
    refine ⟨⟨hsound.step hexec, claimed, hsame.trans hget⟩, hnone.ge, ?_, .inl hnone⟩
    rw [claimedOf, claimedOf, hsame, hnone, Int.add_zero]
  have hframe := (exec_frame hexec).vesting
  have hsound' := hsound.step hexec
  obtain ⟨env, call⟩ := i
  cases call with
  | createVesting admin beneficiary' totalAmount cliffLedger endLedger =>
    obtain ⟨_, _, _, _, _, rfl⟩ := createVesting_ok hexec
    refine hleaves ?_ rfl
    have hne : beneficiary ≠ beneficiary' := by
      rintro rfl
      exact hkeep ⟨admin, totalAmount, cliffLedger, endLedger, rfl⟩
    exact Table.get_set_ne hne
  | claimVesting beneficiary' =>
    obtain ⟨schedule', vested, claimed', claimable, hget', hvested, hclaimed, heq, hpos, _, hv,
      hpaid⟩ := claimVesting_pays hsound hexec
    by_cases hsame : beneficiary' = beneficiary
    · subst hsame
      rw [hget] at hget'
      cases hget'
      have hstored : getVesting s' beneficiary' = some { schedule with claimed := claimed' } := by
        rw [getVesting, hv, Table.get_set_self]
      have hminted : mintedByClaim beneficiary' s (env, .claimVesting beneficiary') = claimable :=
        (if_pos rfl).trans hpaid
      refine ⟨⟨hsound', claimed', hstored⟩, ?_, ?_, .inr ?_⟩
      · rw [hminted]
        exact hpos.le
      · rw [hminted, claimedOf, claimedOf, hstored, hget]
        exact hclaimed
      · rw [claimedOf, hstored]
        exact heq.trans (vested_eq_curve htimed hcap _ hvested)
    · refine hleaves ?_ (if_neg hsame)
      rw [getVesting, hv]
      exact Table.get_set_ne fun he => hsame he.symm
  | _ =>
    refine hleaves ?_ rfl
    rw [getVesting, hframe Part.noConfusion, getVesting]

omit [Airdrop.XdrBytes Address] in
/-- Whoever finds nothing to claim has claimed all that is vested. -/
theorem vested_le_claimed {env : Env Address} {claimed : I128}
    (hget : getVesting s beneficiary = some { schedule with claimed })
    (h : claimVesting env s beneficiary = .error (.panic "Nothing to claim yet")) :
    curve schedule env.sequence.val ≤ claimed.val := by
  obtain ⟨vested, hvested, -⟩ := vestedAmount_eq env.sequence
    (show Timed ({ schedule with claimed } : VestingSchedule Address).totalAmount _ _ _ from htimed)
    hcap
  rw [← vested_eq_curve htimed hcap _ hvested]
  have hfound : expect (s.vesting.get beneficiary) "No vesting schedule found" = .ok _ :=
    expect_eq_ok.mpr hget
  rcases bind_eq_error.mp h with hauth | ⟨_, _, h⟩
  · cases (Env.requireAuth_eq_error.mp hauth).2
  rw [hfound, ok_bind, hvested, ok_bind] at h
  refine le_of_nothing_to_claim (fun claimable => ?_) h
  refine bind_ne_error (expect_ne_nothing_to_claim (by decide)) fun claimed' _ => ?_
  exact credit_ne_nothing_to_claim fun _ => pure_ne_error

/-- Once a claim is made, all that is vested is claimed. -/
theorem Holds.made {env : Env Address} (h : Holds schedule beneficiary s)
    (hmade : Made s (env, .claimVesting beneficiary)) :
    curve schedule env.sequence.val ≤
      claimedOf beneficiary (apply exec s (env, .claimVesting beneficiary)) := by
  obtain ⟨hsound, claimed, hget⟩ := h
  rcases hmade with ⟨s', hexec⟩ | hnone
  · obtain ⟨schedule', vested, claimed', claimable, hget', hvested, _, heq, _, _, hv, _⟩ :=
      claimVesting_pays hsound hexec
    rw [hget] at hget'
    cases hget'
    rw [apply_ok hexec, claimedOf, getVesting, hv, Table.get_set_self]
    show _ ≤ claimed'.val
    rw [heq, vested_eq_curve htimed hcap _ hvested]
  · rw [apply_error hnone, claimedOf, hget]
    exact vested_le_claimed htimed hcap hget hnone

end Version1

section Version2

variable {s s' : Storage Address} {i : Env Address × Call Address} {beneficiary : Address}
  {scheduleId : U32} {schedule : VestingScheduleV2 Address}

def claimedOfV2 (beneficiary : Address) (scheduleId : U32) (s : Storage Address) : ℤ :=
  amountOf (fun schedule => schedule.claimed.val) (getVestingV2 s beneficiary scheduleId)

/-- The call re-times the schedule. -/
def Retimes (beneficiary : Address) (scheduleId : U32) (i : Env Address × Call Address) : Prop :=
  ∃ admin newEndLedger, i.2 = .modifyVestingV2 admin beneficiary scheduleId newEndLedger

/-- The schedule is stored, with some amount claimed. -/
structure HoldsV2 (schedule : VestingScheduleV2 Address) (beneficiary : Address)
    (scheduleId : U32) (s : Storage Address) : Prop where
  sound : SchedulesSound s
  stored : ∃ claimed, getVestingV2 s beneficiary scheduleId = some { schedule with claimed }

variable (htimed : Timed schedule.totalAmount schedule.startLedger schedule.cliffLedger
    schedule.endLedger)
  (htype : schedule.vestingType.val ≤ 1)
  (hcap : schedule.totalAmount.val ≤ maxSupply.val)

include htimed htype hcap

omit [DecidableEq Address] [Airdrop.XdrBytes Address] in
theorem vested_eq_curveV2 (claimed : I128) {vested : I128} {now : U32}
    (h : vestedAmountV2 { schedule with claimed } now = .ok vested) :
    vested.val = curveV2 schedule now.val := by
  obtain ⟨v, hv, hcurve⟩ := vestedAmountV2_eq now
    (show Timed ({ schedule with claimed } : VestingScheduleV2 Address).totalAmount _ _ _
      from htimed) htype hcap
  cases hv.symm.trans h
  exact hcurve

theorem HoldsV2.step (h : HoldsV2 schedule beneficiary scheduleId s)
    (hkeep : ¬ Retimes beneficiary scheduleId i) (hexec : exec s i = .ok s') :
    HoldsV2 schedule beneficiary scheduleId s' ∧
      Pays (claimedOfV2 beneficiary scheduleId) (mintedByClaimV2 beneficiary scheduleId) ledger
        (curveV2 schedule) s i s' := by
  obtain ⟨hsound, claimed, hget⟩ := h
  -- A call that leaves the schedule pays nothing for it.
  have hleaves (hsame : getVestingV2 s' beneficiary scheduleId =
      getVestingV2 s beneficiary scheduleId)
      (hnone : mintedByClaimV2 beneficiary scheduleId s i = 0) :
      HoldsV2 schedule beneficiary scheduleId s' ∧
      Pays (claimedOfV2 beneficiary scheduleId) (mintedByClaimV2 beneficiary scheduleId) ledger
        (curveV2 schedule) s i s' := by
    refine ⟨⟨hsound.step hexec, claimed, hsame.trans hget⟩, hnone.ge, ?_, .inl hnone⟩
    rw [claimedOfV2, claimedOfV2, hsame, hnone, Int.add_zero]
  have hframe := (exec_frame hexec).vestingV2
  have hsound' := hsound.step hexec
  obtain ⟨env, call⟩ := i
  cases call with
  | createVestingV2 admin beneficiary' totalAmount cliffLedger endLedger vestingType stepCount =>
    obtain ⟨id, hc⟩ := map_snd_eq_ok.mp hexec
    obtain ⟨_, _, _, _, _, _, rfl, nextId, _, rfl⟩ := createVestingV2_ok hc
    refine hleaves (Table.get_set_ne ?_) rfl
    -- The next id is free, so it is not that of the schedule.
    rintro heq
    cases heq
    cases ((hsound.ids beneficiary).fresh).symm.trans hget
  | claimVestingV2 beneficiary' id =>
    obtain ⟨schedule', vested, claimed', claimable, hget', hvested, hclaimed, heq, hpos, _, hv, _,
      hpaid⟩ := claimVestingV2_pays hsound hexec
    by_cases hsame : beneficiary' = beneficiary ∧ id = scheduleId
    · obtain ⟨rfl, rfl⟩ := hsame
      rw [hget] at hget'
      cases hget'
      have hstored : getVestingV2 s' beneficiary' id =
          some { schedule with claimed := claimed' } := by
        rw [getVestingV2, hv, Table.get_set_self]
      have hminted : mintedByClaimV2 beneficiary' id s (env, .claimVestingV2 beneficiary' id) =
          claimable := (if_pos ⟨rfl, rfl⟩).trans hpaid
      refine ⟨⟨hsound', claimed', hstored⟩, ?_, ?_, .inr ?_⟩
      · rw [hminted]
        exact hpos.le
      · rw [hminted, claimedOfV2, claimedOfV2, hstored, hget]
        exact hclaimed
      · rw [claimedOfV2, hstored]
        exact heq.trans (vested_eq_curveV2 htimed htype hcap _ hvested)
    · refine hleaves ?_ (if_neg hsame)
      rw [getVestingV2, hv]
      exact Table.get_set_ne fun he => hsame ⟨(Prod.mk.inj he).1.symm, (Prod.mk.inj he).2.symm⟩
  | modifyVestingV2 admin beneficiary' id newEndLedger =>
    obtain ⟨_, _, _, _, _, rfl⟩ := modifyVestingV2_ok hexec
    refine hleaves (Table.get_set_ne ?_) rfl
    rintro heq
    cases heq
    exact hkeep ⟨admin, newEndLedger, rfl⟩
  | _ =>
    refine hleaves ?_ rfl
    rw [getVestingV2, (hframe Part.noConfusion).1, getVestingV2]

omit [Airdrop.XdrBytes Address] in
theorem vestedV2_le_claimed {env : Env Address} {claimed : I128}
    (hget : getVestingV2 s beneficiary scheduleId = some { schedule with claimed })
    (h : claimVestingV2 env s beneficiary scheduleId = .error (.panic "Nothing to claim yet")) :
    curveV2 schedule env.sequence.val ≤ claimed.val := by
  obtain ⟨vested, hvested, -⟩ := vestedAmountV2_eq env.sequence
    (show Timed ({ schedule with claimed } : VestingScheduleV2 Address).totalAmount _ _ _
      from htimed) htype hcap
  rw [← vested_eq_curveV2 htimed htype hcap _ hvested]
  have hfound : expect (s.vestingV2.get (beneficiary, scheduleId)) "No vesting schedule found" =
      .ok _ := expect_eq_ok.mpr hget
  rcases bind_eq_error.mp h with hauth | ⟨_, _, h⟩
  · cases (Env.requireAuth_eq_error.mp hauth).2
  rw [hfound, ok_bind, hvested, ok_bind] at h
  refine le_of_nothing_to_claim (fun claimable => ?_) h
  refine bind_ne_error (expect_ne_nothing_to_claim (by decide)) fun claimed' _ => ?_
  exact credit_ne_nothing_to_claim fun _ => pure_ne_error

theorem HoldsV2.made {env : Env Address} (h : HoldsV2 schedule beneficiary scheduleId s)
    (hmade : Made s (env, .claimVestingV2 beneficiary scheduleId)) :
    curveV2 schedule env.sequence.val ≤ claimedOfV2 beneficiary scheduleId
      (apply exec s (env, .claimVestingV2 beneficiary scheduleId)) := by
  obtain ⟨hsound, claimed, hget⟩ := h
  rcases hmade with ⟨s', hexec⟩ | hnone
  · obtain ⟨schedule', vested, claimed', claimable, hget', hvested, _, heq, _, _, hv, _⟩ :=
      claimVestingV2_pays hsound hexec
    rw [hget] at hget'
    cases hget'
    rw [apply_ok hexec, claimedOfV2, getVestingV2, hv, Table.get_set_self]
    show _ ≤ claimed'.val
    rw [heq, vested_eq_curveV2 htimed htype hcap _ hvested]
  · have hnone' : claimVestingV2 env s beneficiary scheduleId = _ := hnone
    rw [apply_error hnone, claimedOfV2, hget]
    exact vestedV2_le_claimed htimed htype hcap hget hnone'

end Version2

/-! ## Every stored schedule -/

/-- What the code says is vested: from the start on it is always an amount between 0 and the
total, it is 0 before the cliff, it never falls, and at the end it is the total. -/
structure VestsSoundly (vested : U32 → Outcome I128) (total : I128) (start cliff end_ : U32) :
    Prop where
  computed : ∀ now, start.val ≤ now.val → ∃ v, vested now = .ok v ∧ 0 ≤ v.val ∧ v.val ≤ total.val
  early : ∀ now v, now.val < cliff.val → vested now = .ok v → v.val = 0
  monotone : ∀ now now' v v', now.val ≤ now'.val → vested now = .ok v → vested now' = .ok v' →
    v.val ≤ v'.val
  late : ∀ now v, end_.val ≤ now.val → vested now = .ok v → v = total

theorem vestsSoundly {vested : U32 → Outcome I128} {total : I128} {start cliff end_ : U32}
    {released : ℤ → ℤ} (hcurve : Curve total.val cliff.val end_.val released)
    (h : ∀ now, ∃ v, vested now = .ok v ∧ v.val = released now.val) :
    VestsSoundly vested total start cliff end_ := by
  have hvalue : ∀ now v, vested now = .ok v → v.val = released now.val := by
    intro now v hv
    obtain ⟨w, hw, hreleased⟩ := h now
    cases hw.symm.trans hv
    exact hreleased
  refine ⟨fun now _ => ?_, fun now v hnow hv => ?_, fun now now' v v' hle hv hv' => ?_,
    fun now v hnow hv => BoundedInt.ext ?_⟩
  · obtain ⟨v, hv, hreleased⟩ := h now
    refine ⟨v, hv, ?_⟩
    rw [hreleased]
    exact ⟨hcurve.nonneg _, hcurve.le_total _⟩
  · rw [hvalue now v hv]
    exact hcurve.early _ hnow
  · rw [hvalue now v hv, hvalue now' v' hv']
    exact hcurve.monotone hle
  · rw [hvalue now v hv]
    exact hcurve.late _ hnow

/-- The claims of a run in which nothing changes the schedule, none of them at a later ledger than
the last: together with `claimed` they have paid what is vested at that ledger, or there was more
claimed already. -/
def ClaimsExact (s : Storage Address) (claim : Call Address)
    (paid : Storage Address → Env Address × Call Address → ℤ)
    (changes : Env Address × Call Address → Prop) (claimed : I128) (vested : U32 → Outcome I128) :
    Prop :=
  ∀ env later v, Fixed exec changes s later →
    (∀ earlier i, i :: earlier <:+ later → Accepted exec s earlier i →
      paid (after exec s earlier) i ≠ 0 → ledger i ≤ env.sequence.val) →
    Made (after exec s later) (env, claim) → vested env.sequence = .ok v →
    claimed.val + accumulated exec s paid ((env, claim) :: later) = max claimed.val v.val

section Stored

variable {s : Storage Address} {beneficiary : Address} {scheduleId : U32}

theorem claimsExact {schedule : VestingSchedule Address} (hsound : VestingSound s)
    (hget : getVesting s beneficiary = some schedule)
    (htimed : Timed schedule.totalAmount schedule.startLedger schedule.cliffLedger
      schedule.endLedger) (hcap : schedule.totalAmount.val ≤ maxSupply.val) :
    ClaimsExact s (.claimVesting beneficiary) (mintedByClaim beneficiary) (Rewrites beneficiary)
      schedule.claimed (vestedAmount schedule) := by
  intro env later v hfixed htimes hmade hv
  have h0 : Holds schedule beneficiary s := ⟨hsound, schedule.claimed, hget⟩
  have hstep := fun t i t' (ht : Holds schedule beneficiary t) (hi : ¬ Rewrites beneficiary i)
    (he : exec t i = .ok t') => ht.step htimed hcap hi he
  have hlast : ¬ Rewrites beneficiary (env, .claimVesting beneficiary) := by
    rintro ⟨_, _, _, _, hcall⟩
    cases hcall
  have hclaimed : claimedOf beneficiary s = schedule.claimed.val := by
    rw [claimedOf, hget]
    rfl
  have hmade' := (fixed_after h0 hfixed hstep).made htimed hcap hmade
  rw [← hclaimed, vested_eq_curve htimed hcap schedule.claimed hv]
  exact claims_total h0 hfixed hstep (curve_sound htimed).monotone hlast htimes hmade'

theorem claimsExactV2 {schedule : VestingScheduleV2 Address} (hsound : SchedulesSound s)
    (hget : getVestingV2 s beneficiary scheduleId = some schedule)
    (htimed : Timed schedule.totalAmount schedule.startLedger schedule.cliffLedger
      schedule.endLedger) (htype : schedule.vestingType.val ≤ 1)
    (hcap : schedule.totalAmount.val ≤ maxSupply.val) :
    ClaimsExact s (.claimVestingV2 beneficiary scheduleId) (mintedByClaimV2 beneficiary scheduleId)
      (Retimes beneficiary scheduleId) schedule.claimed (vestedAmountV2 schedule) := by
  intro env later v hfixed htimes hmade hv
  have h0 : HoldsV2 schedule beneficiary scheduleId s := ⟨hsound, schedule.claimed, hget⟩
  have hstep := fun t i t' (ht : HoldsV2 schedule beneficiary scheduleId t)
    (hi : ¬ Retimes beneficiary scheduleId i) (he : exec t i = .ok t') =>
      ht.step htimed htype hcap hi he
  have hlast : ¬ Retimes beneficiary scheduleId (env, .claimVestingV2 beneficiary scheduleId) := by
    rintro ⟨_, _, hcall⟩
    cases hcall
  have hclaimed : claimedOfV2 beneficiary scheduleId s = schedule.claimed.val := by
    rw [claimedOfV2, hget]
    rfl
  have hmade' := (fixed_after h0 hfixed hstep).made htimed htype hcap hmade
  rw [← hclaimed, vested_eq_curveV2 htimed htype hcap schedule.claimed hv]
  exact claims_total h0 hfixed hstep (curveV2_sound htimed).monotone hlast htimes hmade'

end Stored

/-- Of every schedule that a run stores, re-timed or not, the code computes a sound curve, and
claims on it pay what is vested at the last of them. -/
theorem vesting_curves_sound {admin : Address} {s₀ : Storage Address} (h : Initialised admin s₀)
    (past : List (Env Address × Call Address)) :
    (∀ beneficiary schedule, getVesting (after exec s₀ past) beneficiary = some schedule →
      schedule.totalAmount.val ≤ maxSupply.val →
      VestsSoundly (vestedAmount schedule) schedule.totalAmount schedule.startLedger
        schedule.cliffLedger schedule.endLedger ∧
      ClaimsExact (after exec s₀ past) (.claimVesting beneficiary) (mintedByClaim beneficiary)
        (Rewrites beneficiary) schedule.claimed (vestedAmount schedule)) ∧
    ∀ beneficiary scheduleId schedule,
      getVestingV2 (after exec s₀ past) beneficiary scheduleId = some schedule →
      schedule.totalAmount.val ≤ maxSupply.val →
      VestsSoundly (vestedAmountV2 schedule) schedule.totalAmount schedule.startLedger
        schedule.cliffLedger schedule.endLedger ∧
      ClaimsExact (after exec s₀ past) (.claimVestingV2 beneficiary scheduleId)
        (mintedByClaimV2 beneficiary scheduleId) (Retimes beneficiary scheduleId) schedule.claimed
        (vestedAmountV2 schedule) := by
  have htimed := schedulesTimed_after h past
  constructor
  · intro beneficiary schedule hget hcap
    have hschedule := htimed.vesting _ _ hget
    refine ⟨vestsSoundly (curve_sound hschedule) fun now => vestedAmount_eq now hschedule hcap, ?_⟩
    exact claimsExact (vestingSound_after h past) hget hschedule hcap
  · intro beneficiary scheduleId schedule hget hcap
    obtain ⟨hschedule, htype⟩ := htimed.vestingV2 _ _ hget
    refine ⟨vestsSoundly (curveV2_sound hschedule)
      fun now => vestedAmountV2_eq now hschedule htype hcap, ?_⟩
    exact claimsExactV2 (schedulesSound_after h past) hget hschedule htype hcap

/-- Contract 2 is granted 1000 in three steps until ledger 100. -/
def exampleSteps : Env Nat × Call Nat :=
  (exampleEnv 0 [1], .createVestingV2 1 2 (.lit 1000) 0 (.lit 100) (.lit 1) (.lit 3))

def exampleStepsStored : VestingScheduleV2 Nat :=
  { id := 0, beneficiary := 2, totalAmount := .lit 1000, startLedger := 0, cliffLedger := 0,
    endLedger := .lit 100, claimed := 0, vestingType := .lit 1, stepCount := .lit 3 }

/-- Claims at the ledgers 50 and 70 pay two steps, whatever the first of them paid. -/
theorem vesting_curves_sound_steps :
    accumulated exec (after exec exampleToken [exampleSteps]) (mintedByClaimV2 2 0)
      [(exampleEnv (.lit 70) [2], .claimVestingV2 2 0),
        (exampleEnv (.lit 50) [2], .claimVestingV2 2 0)] = 666 := by
  obtain ⟨-, hclaims⟩ := (vesting_curves_sound exampleToken_initialised [exampleSteps]).2 2 0
    exampleStepsStored rfl (by decide)
  have hpaid := hclaims (exampleEnv (.lit 70) [2])
    [(exampleEnv (.lit 50) [2], .claimVestingV2 2 0)] (.lit 666) ?_ ?_ ?_ (by decide +kernel)
  · exact (Int.zero_add _).symm.trans (hpaid.trans (by decide))
  · rintro earlier i hsuf - ⟨_, _, hcall⟩
    rcases List.suffix_cons_iff.mp hsuf with heq | hnil
    · cases heq
      cases hcall
    · cases List.suffix_nil.mp hnil
  · intro earlier i hsuf _ _
    rcases List.suffix_cons_iff.mp hsuf with heq | hnil
    · cases heq
      decide
    · cases List.suffix_nil.mp hnil
  · exact .inl (accepted_iff.mpr (by decide +kernel))

end Scoopdope.Token
