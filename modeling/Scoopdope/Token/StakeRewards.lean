import Scoopdope.Soroban.History
import Scoopdope.Token.Staking

/-!
# Token: staking rewards

`claim_rewards` pays what has accrued since the stake and leaves the start of the
lock where it is; the amount it adds to `rewards_earned` is never subtracted. So
each claim pays for all ledgers since the stake, and the withdrawal pays for them
once more. `rewards_paid_once_iff`: the claims and the withdrawal together stay
within the reward of the whole time exactly when no claim finds anything accrued;
for a negative rate, of which nothing keeps the storage, the rounding of the
withdrawal has to be made up for.
-/

namespace Scoopdope.Token.Staking

open Soroban

variable {Address : Type} [DecidableEq Address]

/-- What accrues on `amount` from `start` to `now`, in millionths. -/
def accrued (amount rate : I128) (start now : U32) : Int :=
  amount.val * rate.val * (now.val - start.val)

/-- What a call pays the staker as claimed rewards. -/
def claimedBy (staker : Address) (s : Storage Address) (i : Env Address × Call Address) : Int :=
  match i.2 with
  | .claimRewards staker' =>
    if staker' = staker then
      match claimRewards i.1 s staker with
      | .ok (rewards, _) => rewards.val
      | .error _ => 0
    else 0
  | _ => 0

/-- The call is no `stake` and no `withdraw` of the staker. -/
def LeavesStake (staker : Address) (i : Env Address × Call Address) : Prop :=
  match i.2 with
  | .stake staker' _ _ => staker' ≠ staker
  | .withdraw staker' _ => staker' ≠ staker
  | .claimRewards _ => True

/-- A claim that the staker authorises, when a whole unit or more has accrued. -/
def ClaimsAccrued (staker : Address) (amount rate : I128) (start : U32)
    (i : Env Address × Call Address) : Prop :=
  i.2 = .claimRewards staker ∧ staker ∈ i.1.auths ∧
    1000000 ≤ (accrued amount rate start i.1.sequence).natAbs

section Arithmetic

theorem reward_eq_zero_iff {a : Int} : a.tdiv 1000000 = 0 ↔ a.natAbs < 1000000 := by
  rw [Int.tdiv_eq_ediv]
  split
  · omega
  · show a / 1000000 + 1 = 0 ↔ _
    omega

/-- A reward lies between nothing and its millionths. -/
theorem reward_within {a : Int} :
    0 ≤ a.tdiv 1000000 ∧ a.tdiv 1000000 ≤ a ∨ a ≤ a.tdiv 1000000 ∧ a.tdiv 1000000 ≤ 0 := by
  rw [Int.tdiv_eq_ediv]
  split
  · omega
  · show 0 ≤ a / 1000000 + 1 ∧ a / 1000000 + 1 ≤ a ∨ a ≤ a / 1000000 + 1 ∧ a / 1000000 + 1 ≤ 0
    omega

theorem reward_nonpos {a : Int} (h : a ≤ 0) : a.tdiv 1000000 ≤ 0 := by
  have hwithin := reward_within (a := a)
  omega

/-- A reward that is not negative is rounded down, and leaves room for nothing else. -/
theorem reward_alone_iff {a claimed : Int} (ha : 0 ≤ a) (hclaimed : 0 ≤ claimed) :
    claimed + a.tdiv 1000000 ≤ a / 1000000 ↔ claimed = 0 := by
  rw [Int.tdiv_eq_ediv, if_pos (.inl ha)]
  omega

/-- A negative reward is rounded up, unless it is whole; something claimed before, itself
negative, makes up for that. -/
theorem reward_made_up_iff {a claimed : Int} (ha : a ≤ 0) (hclaimed : claimed ≤ 0) :
    claimed + a.tdiv 1000000 ≤ a / 1000000 ↔ 1000000 ∣ a ∨ claimed ≠ 0 := by
  rw [Int.tdiv_eq_ediv]
  split
  · omega
  · show claimed + (a / 1000000 + 1) ≤ a / 1000000 ↔ _
    omega

/-- What accrues earlier lies between nothing and what accrues later. -/
theorem accrued_between {amount rate : I128} {start now later : U32}
    (hstart : start.val ≤ now.val) (hlater : now.val ≤ later.val) :
    0 ≤ accrued amount rate start now ∧
        accrued amount rate start now ≤ accrued amount rate start later ∨
      accrued amount rate start later ≤ accrued amount rate start now ∧
        accrued amount rate start now ≤ 0 := by
  have hnow : 0 ≤ now.val - start.val := by omega
  have hle : now.val - start.val ≤ later.val - start.val := by omega
  unfold accrued
  rcases le_total 0 (amount.val * rate.val) with hsign | hsign
  · exact .inl ⟨Int.mul_nonneg hsign hnow, Int.mul_le_mul_of_nonneg_left hle hsign⟩
  · exact .inr ⟨Int.mul_le_mul_of_nonpos_left hsign hle,
      Int.mul_nonpos_of_nonpos_of_nonneg hsign hnow⟩

theorem accrued_nonneg {amount rate : I128} {start now : U32} (hamount : 0 < amount.val)
    (hrate : 0 ≤ rate.val) (h : start.val ≤ now.val) : 0 ≤ accrued amount rate start now :=
  Int.mul_nonneg (Int.mul_nonneg hamount.le hrate) (by omega)

theorem accrued_nonpos {amount rate : I128} {start now : U32} (hamount : 0 < amount.val)
    (hrate : rate.val ≤ 0) (h : start.val ≤ now.val) : accrued amount rate start now ≤ 0 :=
  Int.mul_nonpos_of_nonpos_of_nonneg (Int.mul_nonpos_of_nonneg_of_nonpos hamount.le hrate)
    (by omega)

end Arithmetic

section Steps

variable {s s' : Storage Address} {i : Env Address × Call Address} {staker : Address}
  {record : StakeRecord Address}

/-- A call that leaves the stake adds what it pays to the rewards earned. -/
theorem exec_leaves (hi : LeavesStake staker i) (hget : getStake s staker = some record)
    (h : exec s i = .ok s') :
    (∃ rewardsEarned, getStake s' staker = some { record with rewardsEarned } ∧
      rewardsEarned.val = record.rewardsEarned.val + claimedBy staker s i) ∧
    s'.rewardRate = s.rewardRate := by
  obtain ⟨env, call⟩ := i
  cases call with
  | stake staker' amount lockPeriods =>
    obtain ⟨record', hc⟩ := map_snd_eq_ok.mp h
    obtain ⟨_, _, _, _, hstake, _, hrate⟩ := stake_ok hc
    have hne : staker ≠ staker' := Ne.symm hi
    refine ⟨⟨record.rewardsEarned, ?_, (Int.add_zero _).symm⟩, hrate⟩
    rw [getStake, hstake, Table.get_set_ne hne]
    exact hget
  | withdraw staker' early =>
    obtain ⟨_, hc⟩ := map_snd_eq_ok.mp h
    obtain ⟨_, _, _, _, _, _, _, hstake, hrate⟩ := withdraw_ok hc
    have hne : staker ≠ staker' := Ne.symm hi
    refine ⟨⟨record.rewardsEarned, ?_, (Int.add_zero _).symm⟩, hrate⟩
    rw [getStake, hstake, Table.get_remove_ne hne]
    exact hget
  | claimRewards staker' =>
    obtain ⟨rewards, hc⟩ := map_snd_eq_ok.mp h
    have hclaim : claimRewards env s staker' = .ok (rewards, s') := hc
    obtain ⟨record', rewardsEarned, _, hget', _, hearned, hstake, _, hrate⟩ := claimRewards_ok hc
    refine ⟨?_, hrate⟩
    by_cases heq : staker' = staker
    · subst heq
      rw [hget] at hget'
      cases hget'
      refine ⟨rewardsEarned, ?_, ?_⟩
      · rw [getStake, hstake, Table.get_set_self]
      · show _ = _ + if staker' = staker' then _ else _
        rw [if_pos rfl, hclaim]
        exact hearned
    · refine ⟨record.rewardsEarned, ?_, ?_⟩
      · rw [getStake, hstake, Table.get_set_ne (Ne.symm heq)]
        exact hget
      · show _ = _ + if staker' = staker then _ else _
        rw [if_neg heq, Int.add_zero]

/-- What an accepted claim pays. -/
theorem claimedBy_eq (hi : i.2 = .claimRewards staker) (hget : getStake s staker = some record)
    (h : exec s i = .ok s') :
    staker ∈ i.1.auths ∧ claimedBy staker s i =
      (accrued record.amount (rateOf s) record.lockStartLedger i.1.sequence).tdiv 1000000 := by
  obtain ⟨env, call⟩ := i
  cases hi
  obtain ⟨rewards, hc⟩ := map_snd_eq_ok.mp h
  have hclaim : claimRewards env s staker = .ok (rewards, s') := hc
  obtain ⟨record', _, hauth, hget', hrewards, _⟩ := claimRewards_ok hc
  rw [hget] at hget'
  cases hget'
  refine ⟨hauth, ?_⟩
  show (if staker = staker then _ else _) = _
  rw [if_pos rfl, hclaim]
  exact ((calculateRewards_ok hget).mp hrewards).2.2.2

theorem claimedBy_other (hi : i.2 ≠ .claimRewards staker) : claimedBy staker s i = 0 := by
  unfold claimedBy
  split
  · next staker' hcall =>
    rw [if_neg]
    rintro rfl
    exact hi hcall
  · rfl

/-- An authorised claim is accepted when nothing has been earned yet and the rewards
of a later ledger can be computed. -/
theorem claim_succeeds {env env' : Env Address} {rewards : I128}
    (hget : getStake s staker = some record) (hauth : staker ∈ env.auths)
    (hearned : record.rewardsEarned.val = 0)
    (hstart : record.lockStartLedger.val ≤ env.sequence.val)
    (hlater : env.sequence.val ≤ env'.sequence.val)
    (hrewards : calculateRewards env' s staker = .ok rewards) :
    ∃ s', exec s (env, .claimRewards staker) = .ok s' := by
  obtain ⟨_, hproduct, ⟨product', hproduct'⟩, _⟩ := (calculateRewards_ok hget).mp hrewards
  have hlo := product'.lo_le
  have hhi := product'.le_hi
  have hbetween := @accrued_between record.amount (rateOf s) _ _ _ hstart hlater
  have hbefore : product'.val =
      accrued record.amount (rateOf s) record.lockStartLedger env'.sequence := hproduct'
  have hwithin := reward_within
    (a := accrued record.amount (rateOf s) record.lockStartLedger env.sequence)
  have hnow : ∃ rewards, calculateRewards env s staker = .ok rewards := by
    refine ⟨⟨(accrued record.amount (rateOf s) record.lockStartLedger env.sequence).tdiv 1000000,
      by omega, by omega⟩, (calculateRewards_ok hget).mpr ⟨hstart, hproduct, ?_, rfl⟩⟩
    exact ⟨⟨accrued record.amount (rateOf s) record.lockStartLedger env.sequence, by omega,
      by omega⟩, rfl⟩
  obtain ⟨now, hnow⟩ := hnow
  have hok : ∃ p, claimRewards env s staker = .ok p := by
    simp only [claimRewards, bind_eq_ok, Env.requireAuth_eq_ok, expect_eq_ok,
      BoundedInt.add_eq_ok, pure_eq_ok, exists_const]
    exact ⟨_, hauth, record, hget, now, hnow, now, by omega, rfl⟩
  obtain ⟨⟨now', s'⟩, hp⟩ := hok
  exact ⟨s', map_snd_eq_ok.mpr ⟨now', hp⟩⟩

/-- Rewards depend on the amount, the start and the rate only. -/
theorem calculateRewards_congr {env : Env Address} {rewardsEarned rewardsEarned' : I128}
    (hget : getStake s staker = some { record with rewardsEarned })
    (hget' : getStake s' staker = some { record with rewardsEarned := rewardsEarned' })
    (hrate : s'.rewardRate = s.rewardRate) :
    calculateRewards env s' staker = calculateRewards env s staker := by
  have hlookup : s.stake.get staker = some { record with rewardsEarned } := hget
  have hlookup' : s'.stake.get staker =
    some { record with rewardsEarned := rewardsEarned' } := hget'
  rw [calculateRewards, calculateRewards, hlookup, hlookup', rateOf, rateOf, hrate]

end Steps

/-! ## Runs -/

section Runs

variable {s₁ : Storage Address} {staker : Address} {record : StakeRecord Address}
  {past : List (Env Address × Call Address)}

/-- While the stake is left, the rewards earned are what the claims have paid. -/
theorem stake_after (hget : getStake s₁ staker = some record)
    (honly : ∀ i ∈ past, LeavesStake staker i) :
    (∃ rewardsEarned, getStake (after exec s₁ past) staker = some { record with rewardsEarned } ∧
      rewardsEarned.val =
        record.rewardsEarned.val + accumulated exec s₁ (claimedBy staker) past) ∧
    (after exec s₁ past).rewardRate = s₁.rewardRate := by
  induction past with
  | nil => exact ⟨⟨record.rewardsEarned, hget, (Int.add_zero _).symm⟩, rfl⟩
  | cons i past ih =>
    obtain ⟨⟨earned, hget₁, hearned⟩, hrate⟩ := ih fun j hj => honly j (List.mem_cons_of_mem i hj)
    cases he : exec (after exec s₁ past) i with
    | ok s' =>
      obtain ⟨⟨earned', hget', hearned'⟩, hrate'⟩ :=
        exec_leaves (honly i List.mem_cons_self) hget₁ he
      rw [after, apply_ok he, accumulated_ok he]
      refine ⟨⟨earned', hget', ?_⟩, hrate'.trans hrate⟩
      rw [hearned']
      show earned.val + _ = _
      rw [hearned]
      exact Int.add_assoc _ _ _
    | error t =>
      rw [after, apply_error he, accumulated_error he]
      exact ⟨⟨earned, hget₁, hearned⟩, hrate⟩

/-- What an accepted claim of the run pays. -/
theorem claimedBy_after (hget : getStake s₁ staker = some record)
    (honly : ∀ i ∈ past, LeavesStake staker i) {i : Env Address × Call Address}
    (hi : i.2 = .claimRewards staker) {s' : Storage Address}
    (he : exec (after exec s₁ past) i = .ok s') :
    staker ∈ i.1.auths ∧ claimedBy staker (after exec s₁ past) i =
      (accrued record.amount (rateOf s₁) record.lockStartLedger i.1.sequence).tdiv 1000000 := by
  obtain ⟨⟨earned, hget₁, _⟩, hrate⟩ := stake_after hget honly
  have hpaid := claimedBy_eq hi hget₁ he
  rw [rateOf, hrate, ← rateOf] at hpaid
  exact hpaid

/-- What holds of 0 and of every reward of the run holds of all that is claimed. -/
theorem claimedBy_forall {P : Int → Prop} (hget : getStake s₁ staker = some record)
    (honly : ∀ i ∈ past, LeavesStake staker i) (hzero : P 0)
    (hP : ∀ i ∈ past,
      P ((accrued record.amount (rateOf s₁) record.lockStartLedger i.1.sequence).tdiv 1000000)) :
    ∀ e i s', i :: e <:+ past → exec (after exec s₁ e) i = .ok s' →
      P (claimedBy staker (after exec s₁ e) i) := by
  intro e i s' hs he
  by_cases hcall : i.2 = .claimRewards staker
  · have honly₀ : ∀ j ∈ e, LeavesStake staker j := fun j hj =>
      honly j (hs.subset (List.mem_cons_of_mem i hj))
    rw [(claimedBy_after hget honly₀ hcall he).2]
    exact hP i (hs.subset List.mem_cons_self)
  · rw [claimedBy_other hcall]
    exact hzero

/-- The claims pay nothing in all exactly when none of them finds anything accrued. -/
theorem nothing_claimed_iff {env' : Env Address} {rewards : I128}
    (hget : getStake s₁ staker = some record) (hearned : record.rewardsEarned.val = 0)
    (honly : ∀ i ∈ past, LeavesStake staker i)
    (hledgers : ∀ i ∈ past, record.lockStartLedger.val ≤ i.1.sequence.val ∧
      i.1.sequence.val ≤ env'.sequence.val)
    (hrewards : calculateRewards env' (after exec s₁ past) staker = .ok rewards)
    (hzero : accumulated exec s₁ (claimedBy staker) past = 0 ↔
      Guarded (fun e i => Accepted exec s₁ e i → claimedBy staker (after exec s₁ e) i = 0) past) :
    accumulated exec s₁ (claimedBy staker) past = 0 ↔
      ∀ i ∈ past, ¬ ClaimsAccrued staker record.amount (rateOf s₁) record.lockStartLedger i := by
  rw [hzero]
  constructor
  · rintro hg i hi ⟨hcall, hauth, hsome⟩
    obtain ⟨later, e, rfl⟩ := List.append_of_mem hi
    have hsuf : i :: e <:+ later ++ i :: e := List.suffix_append later (i :: e)
    obtain ⟨hi₀, hg₀⟩ := hg.suffix hsuf
    have honly₀ : ∀ j ∈ e, LeavesStake staker j := fun j hj =>
      honly j (List.mem_append_right later (List.mem_cons_of_mem i hj))
    obtain ⟨⟨earned, hget₀, hearned₀⟩, hrate₀⟩ := stake_after hget honly₀
    obtain ⟨⟨earned₁, hget₁, _⟩, hrate₁⟩ := stake_after hget honly
    obtain ⟨hstart, hlater⟩ := hledgers i hi
    -- Nothing was paid before, so nothing keeps this claim from being accepted.
    have hnone : earned.val = 0 := by
      rw [hearned₀, hearned, accumulated_of_guarded hg₀]
      rfl
    rw [calculateRewards_congr hget₀ hget₁ (hrate₁.trans hrate₀.symm)] at hrewards
    obtain ⟨env, call⟩ := i
    cases hcall
    obtain ⟨s', hs'⟩ := claim_succeeds hget₀ hauth hnone hstart hlater hrewards
    have hpaid := hi₀ ⟨s', hs'⟩
    rw [(claimedBy_after hget honly₀ rfl hs').2, reward_eq_zero_iff] at hpaid
    exact absurd hsome (not_le.mpr hpaid)
  · intro hnone
    refine guarded_iff.mpr fun i e hs => ?_
    rintro ⟨s', hs'⟩
    have hi := hs.subset List.mem_cons_self
    by_cases hcall : i.2 = .claimRewards staker
    · have honly₀ : ∀ j ∈ e, LeavesStake staker j := fun j hj =>
        honly j (hs.subset (List.mem_cons_of_mem i hj))
      obtain ⟨hauth, hpaid⟩ := claimedBy_after hget honly₀ hcall hs'
      rw [hpaid, reward_eq_zero_iff]
      by_contra hge
      exact hnone i hi ⟨hcall, hauth, not_lt.mp hge⟩
    · exact claimedBy_other hcall

/-- The claims of a stake and the reward of its withdrawal stay together within the
reward of the whole time exactly when, at a rate that is not negative, no claim finds
a whole unit accrued. At a negative rate the reward of the withdrawal is cut off
towards zero, and the claims have to make up for it if anything was cut off. -/
theorem rewards_paid_once_iff {env env' : Env Address} {s s₂ : Storage Address} {amount : I128}
    {lockPeriods : U32} {early : Bool} {withdrawn : I128}
    (hstake : stake env s staker amount lockPeriods = .ok (record, s₁))
    (honly : ∀ i ∈ past, LeavesStake staker i)
    (hledgers : ∀ i ∈ past, env.sequence.val ≤ i.1.sequence.val ∧
      i.1.sequence.val ≤ env'.sequence.val)
    (hwithdraw : withdraw env' (after exec s₁ past) staker early = .ok (withdrawn, s₂))
    (hend : record.lockEndLedger.val ≤ env'.sequence.val) :
    accumulated exec s₁ (claimedBy staker) past + (withdrawn.val - amount.val) ≤
        accrued amount (rateOf s) env.sequence env'.sequence / 1000000 ↔
      0 ≤ (rateOf s).val ∧
          (∀ i ∈ past, ¬ ClaimsAccrued staker amount (rateOf s) env.sequence i) ∨
        (rateOf s).val < 0 ∧
          (1000000 ∣ accrued amount (rateOf s) env.sequence env'.sequence ∨
            ∃ i ∈ past, ClaimsAccrued staker amount (rateOf s) env.sequence i) := by
  obtain ⟨hcheck, hamount, hstart, hearned, hset, _, hrate⟩ := stake_ok hstake
  have hget : getStake s₁ staker = some record := by rw [getStake, hset, Table.get_set_self]
  have hrate₁ : rateOf s₁ = rateOf s := by rw [rateOf, rateOf, hrate]
  rw [← hamount, ← hstart, ← hrate₁]
  have hpos : 0 < record.amount.val := hamount ▸ hcheck.pos
  rw [← hstart] at hledgers
  obtain ⟨⟨earned, hget₁, _⟩, hrate₂⟩ := stake_after hget honly
  obtain ⟨record', rewards, _, hget₂, hrewards, hsum, _⟩ := withdraw_ok hwithdraw
  rw [hget₁] at hget₂
  cases hget₂
  obtain ⟨hle, _, _, hreward⟩ := (calculateRewards_ok hget₁).mp hrewards
  rw [rateOf, hrate₂, ← rateOf] at hreward
  -- The reward part of the withdrawal.
  have hpart : withdrawn.val - record.amount.val =
      (accrued record.amount (rateOf s₁) record.lockStartLedger env'.sequence).tdiv 1000000 := by
    rw [hsum hend, hreward]
    show record.amount.val + _ - record.amount.val = _
    rw [add_sub_cancel_left]
    rfl
  have hzero := nothing_claimed_iff hget (by rw [hearned]; rfl) honly hledgers hrewards
  rw [hpart]
  rcases lt_or_ge (rateOf s₁).val 0 with hneg | hnonneg
  · have hclaims := claimedBy_forall (P := fun x => x ≤ 0) hget honly (le_refl 0) fun i hi =>
      reward_nonpos (accrued_nonpos hpos hneg.le (hledgers i hi).1)
    have hsome : accumulated exec s₁ (claimedBy staker) past ≠ 0 ↔
        ∃ i ∈ past, ClaimsAccrued staker record.amount (rateOf s₁) record.lockStartLedger i := by
      rw [ne_eq, hzero (accumulated_eq_zero_of_nonpos past hclaims)]
      push Not
      rfl
    rw [reward_made_up_iff (accrued_nonpos hpos hneg.le hle) (accumulated_nonpos past hclaims),
      hsome]
    constructor
    · intro h
      exact .inr ⟨hneg, h⟩
    · rintro (⟨h, _⟩ | ⟨_, h⟩)
      · exact absurd hneg (not_lt.mpr h)
      · exact h
  · have hclaims := claimedBy_forall (P := fun x => 0 ≤ x) hget honly (le_refl 0) fun i hi =>
      Int.tdiv_nonneg (accrued_nonneg hpos hnonneg (hledgers i hi).1) (by decide)
    rw [reward_alone_iff (accrued_nonneg hpos hnonneg hle) (accumulated_nonneg past hclaims),
      hzero (accumulated_eq_zero past hclaims)]
    constructor
    · intro h
      exact .inl ⟨hnonneg, h⟩
    · rintro (⟨_, h⟩ | ⟨h, _⟩)
      · exact h
      · exact absurd hnonneg (not_le.mpr h)

/-- Contract 5 stakes 1000000 at ledger 0, for one period. -/
def exampleRecord : StakeRecord Nat where
  staker := 5
  amount := .lit 1000000
  lockStartLedger := 0
  lockEndLedger := .lit 100
  rewardsEarned := 0

def exampleStaked : Storage Nat :=
  { Storage.fresh Nat none none with
    stake := (∅ : Table Nat (StakeRecord Nat)).set 5 exampleRecord
    totalStaked := some (.lit 1000000)
    events := [⟨[.symbol "stake"], [.address 5, .i128 (.lit 1000000), .u32 (.lit 1)]⟩] }

theorem exampleStaked_staked :
    stake (exampleEnv 0 [5]) (Storage.fresh Nat none none) 5 (.lit 1000000) (.lit 1) =
      .ok (exampleRecord, exampleStaked) := rfl

/-- A claim of contract 5. -/
def exampleClaimAt (sequence : U32) : Env Nat × Call Nat :=
  (exampleEnv sequence [5], .claimRewards 5)

/-- It claims at ledger 0, where nothing has accrued, and withdraws at ledger 100: it
is paid no more than what accrues in 100 ledgers. -/
theorem rewards_paid_once_idle :
    ∃ withdrawn s₂,
      withdraw (exampleEnv (.lit 100) [5]) (after exec exampleStaked [exampleClaimAt 0]) 5 false =
        .ok (withdrawn, s₂) ∧
      accumulated exec exampleStaked (claimedBy 5) [exampleClaimAt 0] +
        (withdrawn.val - 1000000) ≤ 50000 := by
  obtain ⟨⟨withdrawn, s₂⟩, hwithdraw⟩ := isOk_iff.mp
    (show (withdraw (exampleEnv (.lit 100) [5]) (after exec exampleStaked [exampleClaimAt 0]) 5
      false).isOk = true by decide +kernel)
  refine ⟨withdrawn, s₂, hwithdraw, ?_⟩
  refine (rewards_paid_once_iff exampleStaked_staked ?_ ?_ hwithdraw (by decide)).mpr
    (.inl ⟨by decide, ?_⟩)
  · rintro i hi
    rw [List.mem_singleton.mp hi]
    trivial
  · rintro i hi
    rw [List.mem_singleton.mp hi]
    decide
  · rintro i hi ⟨_, _, hsome⟩
    rw [List.mem_singleton.mp hi] at hsome
    exact absurd hsome (by decide)

/-- It claims at ledger 100 and withdraws there: 50000 have accrued, and it is paid
100000. -/
theorem claim_paid_twice :
    stake (exampleEnv 0 [5]) (Storage.fresh Nat none none) 5 (.lit 1000000) (.lit 1) =
      .ok (exampleRecord, exampleStaked) ∧
    exampleRecord.lockEndLedger.val ≤ 100 ∧
    ∃ withdrawn s₂,
      withdraw (exampleEnv (.lit 100) [5]) (after exec exampleStaked [exampleClaimAt (.lit 100)]) 5
        false = .ok (withdrawn, s₂) ∧
      accrued (.lit 1000000) (rateOf exampleStaked) 0 (.lit 100) / 1000000 = 50000 ∧
      accumulated exec exampleStaked (claimedBy 5) [exampleClaimAt (.lit 100)] +
        (withdrawn.val - 1000000) = 100000 := by
  have hpaid : (withdraw (exampleEnv (.lit 100) [5])
      (after exec exampleStaked [exampleClaimAt (.lit 100)]) 5 false).map (fun p => p.1.val) =
      .ok 1050000 := by decide +kernel
  obtain ⟨⟨withdrawn, s₂⟩, hwithdraw⟩ := isOk_iff.mp
    (show (withdraw (exampleEnv (.lit 100) [5])
      (after exec exampleStaked [exampleClaimAt (.lit 100)]) 5 false).isOk = true by decide +kernel)
  rw [hwithdraw] at hpaid
  have hwithdrawn : withdrawn.val = 1050000 := Except.ok.inj hpaid
  refine ⟨exampleStaked_staked, by decide, withdrawn, s₂, hwithdraw, by decide +kernel, ?_⟩
  rw [hwithdrawn]
  decide +kernel

end Runs

end Scoopdope.Token.Staking
