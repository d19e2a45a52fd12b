import Scoopdope.Soroban.Env
import Scoopdope.Soroban.Table

/-!
# Token: staking

`contracts/token/src/staking.rs`: stakes, their rewards and withdrawals, under
storage keys of their own. `RewardRate` and `EarlyWithdrawalPenalty` are read and
never written there; `StakingAnalytics` is not used.

The second half has, for each call that returned, the checks that passed and the
storage it wrote.
-/

namespace Scoopdope.Token.Staking

open Soroban

structure StakeRecord (Address : Type) where
  staker : Address
  amount : I128
  lockStartLedger : U32
  lockEndLedger : U32
  rewardsEarned : I128

/-- The instance storage of the module. -/
structure Storage (Address : Type) where
  stake : Table Address (StakeRecord Address)
  totalStaked : Option I128
  rewardRate : Option I128
  earlyWithdrawalPenalty : Option I128
  /-- The events published so far, newest first. -/
  events : List (Event Address)

/-- No stakes yet, under the given rate and penalty. -/
def Storage.fresh (Address : Type) (rewardRate earlyWithdrawalPenalty : Option I128) :
    Storage Address where
  stake := ∅
  totalStaked := none
  rewardRate := rewardRate
  earlyWithdrawalPenalty := earlyWithdrawalPenalty
  events := []

variable {Address : Type}

/-- `env.events().publish(topics, data)`. -/
def Storage.publish (s : Storage Address) (topics data : List (Val Address)) : Storage Address :=
  { s with events := ⟨topics, data⟩ :: s.events }

variable [DecidableEq Address]

/-! ## Entry points -/

def getStake (s : Storage Address) (staker : Address) : Option (StakeRecord Address) :=
  s.stake.get staker

def getTotalStaked (s : Storage Address) : I128 := s.totalStaked.getD 0

/-- The reward rate, 5% where none is stored. -/
def rateOf (s : Storage Address) : I128 := s.rewardRate.getD (.lit 500)

/-- The new record and the storage afterwards. -/
def stake (env : Env Address) (s : Storage Address) (staker : Address) (amount : I128)
    (lockPeriods : U32) : Outcome (StakeRecord Address × Storage Address) := do
  env.requireAuth staker
  assert ((0 : I128) < amount) "Stake amount must be positive"
  -- ~100 ledgers per period
  let lockLedgers ← lockPeriods.mul (.lit 100)
  let lockEnd ← env.sequence.add lockLedgers
  let record : StakeRecord Address :=
    { staker, amount, lockStartLedger := env.sequence, lockEndLedger := lockEnd,
      rewardsEarned := 0 }
  let totalStaked := s.totalStaked.getD 0
  -- Whatever is stored for the staker is replaced.
  let s := { s with stake := s.stake.set staker record }
  let totalStaked ← totalStaked.add amount
  let s := { s with totalStaked := some totalStaked }
  pure (record, s.publish [.symbol "stake"] [.address staker, .i128 amount, .u32 lockPeriods])

def calculateRewards (env : Env Address) (s : Storage Address) (staker : Address) :
    Outcome I128 :=
  match s.stake.get staker with
  | some stake => do
    let rewardRate := rateOf s
    let elapsedLedgers ← env.sequence.sub stake.lockStartLedger
    let product ← stake.amount.mul rewardRate
    let product ← product.mul elapsedLedgers.u32AsI128
    product.div (.lit 1000000)
  | none => pure 0

/-- The amount withdrawn and the storage afterwards. -/
def withdraw (env : Env Address) (s : Storage Address) (staker : Address) (early : Bool) :
    Outcome (I128 × Storage Address) := do
  env.requireAuth staker
  let record ← expect (s.stake.get staker) "No stake found"
  let isLocked := env.sequence < record.lockEndLedger
  let withdrawalAmount ← (if early = true ∧ isLocked then do
      -- 1% default
      let penalty := s.earlyWithdrawalPenalty.getD (.lit 100)
      let penaltyAmount ← record.amount.mulDiv penalty (.lit 10000)
      record.amount.sub penaltyAmount
    else pure record.amount)
  let rewards ← calculateRewards env s staker
  let withdrawalAmount ← withdrawalAmount.add rewards
  let totalStaked := s.totalStaked.getD 0
  let totalStaked ← totalStaked.sub record.amount
  let s := { s with totalStaked := some totalStaked }
  let s := { s with stake := s.stake.remove staker }
  pure (withdrawalAmount,
    s.publish [.symbol "unstake"] [.address staker, .i128 withdrawalAmount])

/-- The rewards claimed and the storage afterwards. -/
def claimRewards (env : Env Address) (s : Storage Address) (staker : Address) :
    Outcome (I128 × Storage Address) := do
  env.requireAuth staker
  let record ← expect (s.stake.get staker) "No stake found"
  let rewards ← calculateRewards env s staker
  let rewardsEarned ← record.rewardsEarned.add rewards
  -- The start of the lock stays, so the same ledgers count again next time.
  let s := { s with stake := s.stake.set staker { record with rewardsEarned } }
  pure (rewards, s.publish [.symbol "reward"] [.address staker, .i128 rewards])

/-- A call with its arguments. -/
inductive Call (Address : Type)
  | stake (staker : Address) (amount : I128) (lockPeriods : U32)
  | withdraw (staker : Address) (early : Bool)
  | claimRewards (staker : Address)

/-- One call in its environment. The returned value is dropped; the entry points
above have it. -/
def exec (s : Storage Address) (i : Env Address × Call Address) : Outcome (Storage Address) :=
  match i.2 with
  | .stake staker amount lockPeriods => (stake i.1 s staker amount lockPeriods).map Prod.snd
  | .withdraw staker early => (withdraw i.1 s staker early).map Prod.snd
  | .claimRewards staker => (claimRewards i.1 s staker).map Prod.snd

/-! ## What an accepted call does -/

section Steps

variable {env : Env Address} {s s' : Storage Address} {staker : Address}

/-- The checks of `stake`. -/
structure Stakable (env : Env Address) (s : Storage Address) (staker : Address) (amount : I128)
    (lockPeriods : U32) : Prop where
  auth : staker ∈ env.auths
  pos : 0 < amount.val
  lockEnd : env.sequence.val + lockPeriods.val * 100 ≤ 4294967295
  total : (getTotalStaked s).val + amount.val ≤ 170141183460469231731687303715884105727

theorem stake_ok {amount : I128} {lockPeriods : U32} {record : StakeRecord Address}
    (h : stake env s staker amount lockPeriods = .ok (record, s')) :
    Stakable env s staker amount lockPeriods ∧
      record.amount = amount ∧ record.lockStartLedger = env.sequence ∧
      record.rewardsEarned = 0 ∧ s'.stake = s.stake.set staker record ∧
      (getTotalStaked s').val = (getTotalStaked s).val + amount.val ∧
      s'.rewardRate = s.rewardRate := by
  simp only [stake, bind_eq_ok, Env.requireAuth_eq_ok, assert_eq_ok, BoundedInt.mul_eq_ok,
    BoundedInt.add_eq_ok, pure_eq_ok, exists_const, BoundedInt.lit_val] at h
  obtain ⟨hauth, hpos, lockLedgers, hlock, lockEnd, hend, total, htotal, heq⟩ := h
  cases heq
  have hmax := lockEnd.le_hi
  have htmax := total.le_hi
  rw [hend, hlock] at hmax
  rw [htotal] at htmax
  exact ⟨⟨hauth, hpos, hmax, htmax⟩, rfl, rfl, rfl, rfl, htotal, rfl⟩

theorem calculateRewards_ok {stake : StakeRecord Address} {rewards : I128}
    (hget : getStake s staker = some stake) :
    calculateRewards env s staker = .ok rewards ↔
      stake.lockStartLedger.val ≤ env.sequence.val ∧
      (∃ product : I128, product.val = stake.amount.val * (rateOf s).val) ∧
      (∃ product : I128, product.val = stake.amount.val * (rateOf s).val *
        (env.sequence.val - stake.lockStartLedger.val)) ∧
      rewards.val = (stake.amount.val * (rateOf s).val *
        (env.sequence.val - stake.lockStartLedger.val)).tdiv 1000000 := by
  have hget' : s.stake.get staker = some stake := hget
  simp only [calculateRewards, hget', bind_eq_ok, BoundedInt.sub_eq_ok, BoundedInt.mul_eq_ok,
    BoundedInt.div_eq_ok, BoundedInt.lit_val]
  constructor
  · rintro ⟨elapsed, helapsed, product, hproduct, product', hproduct', -, hrewards⟩
    have hnonneg := elapsed.lo_le
    rw [hproduct, BoundedInt.u32AsI128_val, helapsed] at hproduct'
    rw [hproduct'] at hrewards
    exact ⟨by omega, ⟨product, hproduct⟩, ⟨product', hproduct'⟩, hrewards⟩
  · rintro ⟨hle, ⟨product, hproduct⟩, ⟨product', hproduct'⟩, hrewards⟩
    have hlo := stake.lockStartLedger.lo_le
    have hhi := env.sequence.le_hi
    refine ⟨⟨env.sequence.val - stake.lockStartLedger.val, by omega, by omega⟩, rfl, product,
      hproduct, product', ?_, by decide, ?_⟩
    · rw [hproduct', hproduct]
      rfl
    · rw [hproduct', hrewards]

theorem withdraw_ok {early : Bool} {withdrawn : I128}
    (h : withdraw env s staker early = .ok (withdrawn, s')) :
    ∃ record rewards, staker ∈ env.auths ∧ getStake s staker = some record ∧
      calculateRewards env s staker = .ok rewards ∧
      (record.lockEndLedger.val ≤ env.sequence.val →
        withdrawn.val = record.amount.val + rewards.val) ∧
      (getTotalStaked s').val = (getTotalStaked s).val - record.amount.val ∧
      s'.stake = s.stake.remove staker ∧ s'.rewardRate = s.rewardRate := by
  simp only [withdraw, bind_eq_ok, Env.requireAuth_eq_ok, expect_eq_ok, BoundedInt.add_eq_ok,
    BoundedInt.sub_eq_ok, pure_eq_ok, exists_const] at h
  obtain ⟨hauth, record, hget, base, hbase, rewards, hrewards, withdrawn', hwithdrawn, total,
    htotal, heq⟩ := h
  cases heq
  refine ⟨record, rewards, hauth, hget, hrewards, fun hend => ?_, htotal, rfl, rfl⟩
  have hunlocked : ¬ (early = true ∧ env.sequence < record.lockEndLedger) := by
    rintro ⟨_, hlt⟩
    exact absurd hend (not_le.mpr (BoundedInt.lt_def.mp hlt))
  rw [if_neg hunlocked, pure_eq_ok] at hbase
  rw [hwithdrawn, hbase]

theorem claimRewards_ok {rewards : I128} (h : claimRewards env s staker = .ok (rewards, s')) :
    ∃ record rewardsEarned, staker ∈ env.auths ∧ getStake s staker = some record ∧
      calculateRewards env s staker = .ok rewards ∧
      rewardsEarned.val = record.rewardsEarned.val + rewards.val ∧
      s'.stake = s.stake.set staker { record with rewardsEarned } ∧
      s'.totalStaked = s.totalStaked ∧ s'.rewardRate = s.rewardRate := by
  simp only [claimRewards, bind_eq_ok, Env.requireAuth_eq_ok, expect_eq_ok, BoundedInt.add_eq_ok,
    pure_eq_ok, exists_const] at h
  obtain ⟨hauth, record, hget, rewards', hrewards, earned, hearned, heq⟩ := h
  cases heq
  exact ⟨record, earned, hauth, hget, hrewards, hearned, rfl, rfl, rfl⟩

end Steps

end Scoopdope.Token.Staking
