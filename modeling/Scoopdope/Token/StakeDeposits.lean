import Scoopdope.Soroban.History
import Scoopdope.Token.Staking

/-!
# Token: staked deposits

A staker has one `StakeRecord`, and `stake` writes it whether or not there is one
already, while `TotalStaked` counts every stake. So `TotalStaked` is what the stored
records come to, plus what was lost in overwritten ones (`totalStaked_eq`), and all
deposits are kept exactly when no stake finds an earlier one of the same staker
(`deposits_kept_iff`).
-/

namespace Scoopdope.Token.Staking

open Soroban

variable {Address : Type} [DecidableEq Address]

def amountOfRecord (record : StakeRecord Address) : Int := record.amount.val

/-- The amounts of all stored records. -/
def recordedStakes (s : Storage Address) : Int := Table.total amountOfRecord s.stake

/-- The amount of the staker's record, 0 where there is none. -/
def storedAmount (s : Storage Address) (staker : Address) : Int :=
  Table.share amountOfRecord s.stake staker

/-- What a call does to what the staker has staked since the last withdrawal. -/
def depositStep (staker : Address) (deposited : Int) (_ : Storage Address)
    (i : Env Address × Call Address) : Int :=
  match i.2 with
  | .stake staker' amount _ => if staker' = staker then deposited + amount.val else deposited
  | .withdraw staker' _ => if staker' = staker then 0 else deposited
  | .claimRewards _ => deposited

/-- What the staker has staked in a run since its last withdrawal. -/
def stakedSinceWithdraw (s₀ : Storage Address) (staker : Address)
    (past : List (Env Address × Call Address)) : Int :=
  traced exec s₀ (depositStep staker) 0 past

/-- What a call takes away by overwriting a record. -/
def overwritten (s : Storage Address) (i : Env Address × Call Address) : Int :=
  match i.2 with
  | .stake staker _ _ => storedAmount s staker
  | _ => 0

/-- The call is a `stake` that passes its checks and finds a record of the staker. -/
def Restakes (s₀ : Storage Address) (earlier : List (Env Address × Call Address))
    (i : Env Address × Call Address) : Prop :=
  ∃ staker amount lockPeriods, i.2 = .stake staker amount lockPeriods ∧
    Stakable i.1 (after exec s₀ earlier) staker amount lockPeriods ∧
    (getStake (after exec s₀ earlier) staker).isSome = true

/-- Stored amounts are positive. -/
def StakesPositive (s : Storage Address) : Prop :=
  ∀ staker record, s.stake.get staker = some record → 0 < record.amount.val

section Steps

variable {s s' : Storage Address} {i : Env Address × Call Address}

theorem storedAmount_of_get {staker : Address} {record : StakeRecord Address}
    (h : getStake s staker = some record) : storedAmount s staker = record.amount.val :=
  Table.share_of_get h

theorem storedAmount_of_none {staker : Address} (h : getStake s staker = none) :
    storedAmount s staker = 0 := by
  have hget : s.stake.get staker = none := h
  rw [storedAmount, Table.share, hget]
  rfl

theorem StakesPositive.storedAmount_nonneg (hs : StakesPositive s) (staker : Address) :
    0 ≤ storedAmount s staker := by
  cases hget : getStake s staker with
  | none => rw [storedAmount_of_none hget]
  | some record =>
    rw [storedAmount_of_get hget]
    exact (hs staker record hget).le

theorem stake_succeeds {env : Env Address} {staker : Address} {amount : I128} {lockPeriods : U32}
    (h : Stakable env s staker amount lockPeriods) :
    ∃ s', exec s (env, .stake staker amount lockPeriods) = .ok s' := by
  have hlo := lockPeriods.lo_le
  have hseq := env.sequence.lo_le
  have hend := h.lockEnd
  have hpos := h.pos
  have htlo := (getTotalStaked s).lo_le
  have hok : ∃ p, stake env s staker amount lockPeriods = .ok p := by
    simp only [stake, bind_eq_ok, Env.requireAuth_eq_ok, assert_eq_ok, BoundedInt.mul_eq_ok,
      BoundedInt.add_eq_ok, pure_eq_ok, exists_const]
    exact ⟨_, h.auth, h.pos, ⟨lockPeriods.val * 100, by omega, by omega⟩, rfl,
      ⟨env.sequence.val + lockPeriods.val * 100, by omega, hend⟩, rfl,
      ⟨(getTotalStaked s).val + amount.val, by omega, h.total⟩, rfl, rfl⟩
  obtain ⟨⟨record, s'⟩, hp⟩ := hok
  exact ⟨s', map_snd_eq_ok.mpr ⟨record, hp⟩⟩

theorem StakesPositive.step (hs : StakesPositive s) (h : exec s i = .ok s') :
    StakesPositive s' := by
  obtain ⟨env, call⟩ := i
  cases call with
  | stake staker amount lockPeriods =>
    obtain ⟨record, hc⟩ := map_snd_eq_ok.mp h
    obtain ⟨hcheck, hamount, _, _, hstake, _⟩ := stake_ok hc
    rw [StakesPositive, hstake]
    refine Table.forall_set
      (P := fun _ (record : StakeRecord Address) => 0 < record.amount.val) hs ?_
    rw [hamount]
    exact hcheck.pos
  | withdraw staker early =>
    obtain ⟨_, hc⟩ := map_snd_eq_ok.mp h
    obtain ⟨_, _, _, _, _, _, _, hstake, _⟩ := withdraw_ok hc
    rw [StakesPositive, hstake]
    exact Table.forall_remove
      (P := fun _ (record : StakeRecord Address) => 0 < record.amount.val) hs
  | claimRewards staker =>
    obtain ⟨_, hc⟩ := map_snd_eq_ok.mp h
    obtain ⟨record, _, _, hget, _, _, hstake, _⟩ := claimRewards_ok hc
    rw [StakesPositive, hstake]
    exact Table.forall_set (P := fun _ (record : StakeRecord Address) => 0 < record.amount.val) hs
      (hs staker record hget)

/-- `TotalStaked` runs ahead of the records by what is overwritten. -/
theorem exec_excess (h : exec s i = .ok s') :
    (getTotalStaked s').val - recordedStakes s' =
      (getTotalStaked s).val - recordedStakes s + overwritten s i := by
  obtain ⟨env, call⟩ := i
  cases call with
  | stake staker amount lockPeriods =>
    obtain ⟨record, hc⟩ := map_snd_eq_ok.mp h
    obtain ⟨_, hamount, _, _, hstake, htotal, _⟩ := stake_ok hc
    have hsum : recordedStakes s' = recordedStakes s - storedAmount s staker + amount.val := by
      rw [recordedStakes, hstake, Table.total_set, ← hamount]
      rfl
    rw [htotal, hsum]
    show _ = _ + storedAmount s staker
    omega
  | withdraw staker early =>
    obtain ⟨_, hc⟩ := map_snd_eq_ok.mp h
    obtain ⟨record, _, _, hget, _, _, htotal, hstake, _⟩ := withdraw_ok hc
    have hsum : recordedStakes s' = recordedStakes s - record.amount.val := by
      rw [recordedStakes, hstake, Table.total_remove, Table.share_of_get hget]
      rfl
    rw [htotal, hsum]
    show _ = _ + 0
    omega
  | claimRewards staker =>
    obtain ⟨_, hc⟩ := map_snd_eq_ok.mp h
    obtain ⟨record, _, _, hget, _, _, hstake, htotal, _⟩ := claimRewards_ok hc
    have hshare : Table.share amountOfRecord s.stake staker = record.amount.val :=
      storedAmount_of_get hget
    have hsum : recordedStakes s' = recordedStakes s := by
      rw [recordedStakes, hstake]
      exact Table.total_set_same hshare
    rw [hsum, getTotalStaked, htotal]
    exact (Int.add_zero _).symm

/-- A call that overwrites nothing does to the stored amount what it does to the deposit. -/
theorem exec_deposit (h : exec s i = .ok s') (hkept : overwritten s i = 0) (staker : Address) :
    storedAmount s' staker = depositStep staker (storedAmount s staker) s i := by
  obtain ⟨env, call⟩ := i
  cases call with
  | stake staker' amount lockPeriods =>
    obtain ⟨record, hc⟩ := map_snd_eq_ok.mp h
    obtain ⟨_, hamount, _, _, hstake, _⟩ := stake_ok hc
    have hzero : storedAmount s staker' = 0 := hkept
    show _ = if staker' = staker then storedAmount s staker + amount.val else storedAmount s staker
    rw [storedAmount, Table.share, hstake, Table.get_set]
    split
    · next heq =>
      subst heq
      rw [if_pos rfl, hzero, Int.zero_add, ← hamount]
      rfl
    · next hne =>
      rw [if_neg fun heq => hne heq.symm]
      rfl
  | withdraw staker' early =>
    obtain ⟨_, hc⟩ := map_snd_eq_ok.mp h
    obtain ⟨_, _, _, _, _, _, _, hstake, _⟩ := withdraw_ok hc
    show _ = if staker' = staker then 0 else storedAmount s staker
    rw [storedAmount, Table.share, hstake, Table.get_remove]
    split
    · next heq =>
      rw [if_pos heq.symm]
      rfl
    · next hne =>
      rw [if_neg fun heq => hne heq.symm]
      rfl
  | claimRewards staker' =>
    obtain ⟨_, hc⟩ := map_snd_eq_ok.mp h
    obtain ⟨record, _, _, hget, _, _, hstake, _⟩ := claimRewards_ok hc
    show _ = storedAmount s staker
    rw [storedAmount, Table.share, hstake, Table.get_set]
    split
    · next heq =>
      subst heq
      rw [storedAmount_of_get hget]
      rfl
    · rfl

end Steps

/-! ## Runs -/

section Runs

variable (rewardRate penalty : Option I128)

theorem stakesPositive_after (past : List (Env Address × Call Address)) :
    StakesPositive (after exec (Storage.fresh Address rewardRate penalty) past) :=
  after_invariant (fun _ _ hget => absurd hget Table.get_empty_ne_some)
    (fun _ _ _ hs he => hs.step he) past

/-- `TotalStaked` is what the records come to and what was lost in overwritten ones. -/
theorem totalStaked_eq (past : List (Env Address × Call Address)) :
    (getTotalStaked (after exec (Storage.fresh Address rewardRate penalty) past)).val =
      recordedStakes (after exec (Storage.fresh Address rewardRate penalty) past) +
        accumulated exec (Storage.fresh Address rewardRate penalty) overwritten past := by
  have hrun : (getTotalStaked (after exec (Storage.fresh Address rewardRate penalty) past)).val -
      recordedStakes (after exec (Storage.fresh Address rewardRate penalty) past) =
        (getTotalStaked (Storage.fresh Address rewardRate penalty)).val -
            recordedStakes (Storage.fresh Address rewardRate penalty) +
          accumulated exec (Storage.fresh Address rewardRate penalty) overwritten past :=
    after_accumulated (m := fun s => (getTotalStaked s).val - recordedStakes s) past
      fun _ _ _ _ he => exec_excess he
  have hstart : (getTotalStaked (Storage.fresh Address rewardRate penalty)).val -
      recordedStakes (Storage.fresh Address rewardRate penalty) = 0 := rfl
  rw [hstart] at hrun
  omega

variable {rewardRate penalty} in
/-- An accepted call overwrites nothing exactly when it is not a second stake. -/
theorem overwritten_eq_zero_iff (earlier : List (Env Address × Call Address))
    (i : Env Address × Call Address) :
    (Accepted exec (Storage.fresh Address rewardRate penalty) earlier i →
      overwritten (after exec (Storage.fresh Address rewardRate penalty) earlier) i = 0) ↔
      ¬ Restakes (Storage.fresh Address rewardRate penalty) earlier i := by
  have hpos := stakesPositive_after rewardRate penalty earlier
  obtain ⟨env, call⟩ := i
  constructor
  · rintro hkept ⟨staker, amount, lockPeriods, rfl, hcheck, hsome⟩
    obtain ⟨record, hget⟩ := Option.isSome_iff_exists.mp hsome
    have hzero : storedAmount _ staker = 0 := hkept (stake_succeeds hcheck)
    rw [storedAmount_of_get hget] at hzero
    exact absurd (hpos staker record hget) (by omega)
  · rintro hfirst ⟨s', he⟩
    cases call with
    | stake staker amount lockPeriods =>
      obtain ⟨_, hc⟩ := map_snd_eq_ok.mp he
      refine storedAmount_of_none (Option.not_isSome_iff_eq_none.mp fun hsome => ?_)
      exact hfirst ⟨staker, amount, lockPeriods, rfl, (stake_ok hc).1, hsome⟩
    | withdraw staker early => rfl
    | claimRewards staker => rfl

/-- In a run `TotalStaked` is the sum of the stored amounts, and each of these what
its staker has staked since its last withdrawal, exactly when no stake that passes
its checks finds an earlier one of the same staker. -/
theorem deposits_kept_iff (past : List (Env Address × Call Address)) :
    ((getTotalStaked (after exec (Storage.fresh Address rewardRate penalty) past)).val =
        Table.total (fun record => record.amount.val)
          (after exec (Storage.fresh Address rewardRate penalty) past).stake ∧
      ∀ staker, storedAmount (after exec (Storage.fresh Address rewardRate penalty) past) staker =
        stakedSinceWithdraw (Storage.fresh Address rewardRate penalty) staker past) ↔
      Guarded (fun earlier i => ¬ Restakes (Storage.fresh Address rewardRate penalty) earlier i)
        past := by
  have htotal := totalStaked_eq rewardRate penalty past
  have hnonneg : ∀ e i,
      0 ≤ overwritten (after exec (Storage.fresh Address rewardRate penalty) e) i := by
    intro e i
    unfold overwritten
    split
    · exact (stakesPositive_after rewardRate penalty e).storedAmount_nonneg _
    · exact le_refl 0
  have hzero := accumulated_eq_zero past fun e i _ _ (_ : exec _ i = _) => hnonneg e i
  constructor
  · rintro ⟨hlaw, -⟩
    have hsame : (getTotalStaked (after exec (Storage.fresh Address rewardRate penalty) past)).val =
      recordedStakes (after exec (Storage.fresh Address rewardRate penalty) past) := hlaw
    simp only [overwritten_eq_zero_iff] at hzero
    exact hzero.mp (by omega)
  · intro hg
    have hg' := hg
    simp only [← overwritten_eq_zero_iff] at hg'
    refine ⟨?_, fun staker => ?_⟩
    · rw [htotal, hzero.mpr hg', Int.add_zero]
      rfl
    · refine after_traced (R := fun s deposited => storedAmount s staker = deposited) rfl past ?_
      intro e i s' hs hR he
      rw [exec_deposit he ((hg'.suffix hs).1 ⟨s', he⟩), hR]

/-- Contract 5 stakes 100 for one period. -/
def exampleStake : Env Nat × Call Nat := (exampleEnv 0 [5], .stake 5 (.lit 100) (.lit 1))

/-- It stakes once more, 40: the record has 40, `TotalStaked` 140, and 100 cannot be
withdrawn any more. -/
theorem second_stake_erases :
    (getTotalStaked (after exec (Storage.fresh Nat none none)
      [(exampleEnv 0 [5], .stake 5 (.lit 40) (.lit 1)), exampleStake])).val = 140 ∧
    Table.total (fun record => record.amount.val) (after exec (Storage.fresh Nat none none)
      [(exampleEnv 0 [5], .stake 5 (.lit 40) (.lit 1)), exampleStake]).stake = 40 ∧
    storedAmount (after exec (Storage.fresh Nat none none)
      [(exampleEnv 0 [5], .stake 5 (.lit 40) (.lit 1)), exampleStake]) 5 = 40 ∧
    stakedSinceWithdraw (Storage.fresh Nat none none) 5
      [(exampleEnv 0 [5], .stake 5 (.lit 40) (.lit 1)), exampleStake] = 140 :=
  ⟨by decide +kernel, by decide +kernel, by decide +kernel, by decide +kernel⟩

end Runs

end Scoopdope.Token.Staking
