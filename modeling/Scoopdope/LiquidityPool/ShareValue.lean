import Scoopdope.LiquidityPool.Steps
import Scoopdope.Market.SharePool
import Scoopdope.Soroban.History

/-!
# Liquidity pool: the value of a share

The reserves and `TotalLiquidity` are a pool of two reserves owned by shares.
On a pool with positive reserves every accepted call is a fair operation of it,
whatever the signs of its arguments: the assertions on the minted and paid
amounts leave no other call (`exec_fair`). So a share never loses value.
-/

namespace Scoopdope.LiquidityPool

open Soroban

variable {Address : Type}

/-- The pool a storage stands for. -/
def Storage.pool (s : Storage Address) : SharePool where
  a := (LiquidityPool.reserveA s).val
  b := (LiquidityPool.reserveB s).val
  shares := (LiquidityPool.totalLiquidity s).val

/-- The configured fee is 3/1000. -/
def StandardFee (s : Storage Address) : Prop :=
  ∃ config, s.poolConfig = some config ∧ config.feeNumerator.val = 3 ∧
    config.feeDenominator.val = 1000

variable [DecidableEq Address]

section Steps

variable {s s' : Storage Address} {env : Env Address}

/-- Rounding down the shares of a deposit is fair. -/
theorem mul_le_of_minted {r t a m : Int} (hr : 0 < r) (hm : 0 < m) (h : m ≤ (a * t).tdiv r) :
    r * m ≤ a * t := by
  calc r * m ≤ r * (a * t).tdiv r := mul_le_mul_of_nonneg_left h hr.le
    _ ≤ a * t := SharePool.mul_tdiv_le hr (hm.trans_le h)

theorem addLiquidity_deposit {provider : Address} {aDesired bDesired aMin bMin minted : I128}
    (hp : s.pool.Positive)
    (h : addLiquidity env s provider aDesired bDesired aMin bMin = .ok (minted, s')) :
    ∃ a b, s.pool.Fair (.deposit a b minted.val) ∧
      s'.pool = s.pool.run (.deposit a b minted.val) := by
  obtain ⟨_, hpos, _, a, b, ra, rb, t, v, _, _, _, _, _, _, hm, hra, hrb, ht, _, rfl⟩ :=
    addLiquidity_ok h
  rcases mintedLiquidity_ok hm hpos with ⟨hzero, _⟩ | ⟨_, hmin⟩
  · have hshares : 0 < (totalLiquidity s).val := hp.shares_pos
    rw [hzero] at hshares
    exact absurd hshares (lt_irrefl _)
  · refine ⟨a.val, b.val, ⟨hpos, ?_, ?_⟩, ?_⟩
    · exact mul_le_of_minted hp.a_pos hpos (hmin.le.trans (min_le_left _ _))
    · exact mul_le_of_minted hp.b_pos hpos (hmin.le.trans (min_le_right _ _))
    · show SharePool.mk ra.val rb.val t.val = _
      rw [hra, hrb, ht]
      rfl

theorem addLiquidity_fair {provider : Address} {aDesired bDesired aMin bMin minted : I128}
    (hp : s.pool.Positive)
    (h : addLiquidity env s provider aDesired bDesired aMin bMin = .ok (minted, s')) :
    ∃ o, s.pool.Fair o ∧ s'.pool = s.pool.run o := by
  obtain ⟨a, b, hfair, hrun⟩ := addLiquidity_deposit hp h
  exact ⟨.deposit a b minted.val, hfair, hrun⟩

/-- A paid amount is at most the exact part. -/
theorem paid_mul_le {r t l a : Int} (ht : 0 < t) (ha : 0 < a) (h : a = (l * r).tdiv t) :
    a * t ≤ l * r := by
  rw [h, Int.mul_comm]
  exact SharePool.mul_tdiv_le ht (h ▸ ha)

theorem removeLiquidity_withdraw {provider : Address} {liquidity : I128} {amounts : I128 × I128}
    (hp : s.pool.Positive) (h : removeLiquidity env s provider liquidity = .ok (amounts, s'))
    (hleft : 0 < (totalLiquidity s').val) :
    s.pool.Fair (.withdraw amounts.1.val amounts.2.val liquidity.val) ∧
      s'.pool = s.pool.run (.withdraw amounts.1.val amounts.2.val liquidity.val) := by
  obtain ⟨_, _, _, hapos, hbpos, ha, hb, _, ra, rb, t, v, _, _, hra, hrb, ht, _, rfl⟩ :=
    removeLiquidity_ok h
  have hlt : liquidity.val < (totalLiquidity s).val := by
    have : 0 < t.val := hleft
    omega
  refine ⟨⟨hlt, ?_, ?_⟩, ?_⟩
  · exact paid_mul_le hp.shares_pos hapos ha
  · exact paid_mul_le hp.shares_pos hbpos hb
  · show SharePool.mk ra.val rb.val t.val = _
    rw [hra, hrb, ht]
    rfl

theorem removeLiquidity_fair {provider : Address} {liquidity : I128} {amounts : I128 × I128}
    (hp : s.pool.Positive) (h : removeLiquidity env s provider liquidity = .ok (amounts, s'))
    (hleft : 0 < (totalLiquidity s').val) :
    ∃ o, s.pool.Fair o ∧ s'.pool = s.pool.run o := by
  obtain ⟨hfair, hrun⟩ := removeLiquidity_withdraw hp h hleft
  exact ⟨_, hfair, hrun⟩

/-- The output of a swap against positive reserves. -/
theorem swapOutput_fair {config : PoolConfig} {amountIn reserveIn reserveOut out : I128}
    (hnum : config.feeNumerator.val = 3) (hden : config.feeDenominator.val = 1000)
    (hx : 0 < amountIn.val) (hin : 0 < reserveIn.val) (hout : 0 < reserveOut.val)
    (h : swapOutput config amountIn reserveIn reserveOut = .ok out) :
    0 ≤ out.val ∧ out.val < reserveOut.val ∧
      reserveIn.val * reserveOut.val ≤
        (reserveIn.val + amountIn.val) * (reserveOut.val - out.val) := by
  have hfee : withFee config amountIn = amountIn.val * 997 := by
    rw [withFee, hnum, hden]
    rfl
  rw [swapOutput_ok h, hden]
  refine SharePool.exchange_fair hin hout (by decide) ?_ ?_
  · rw [hfee]
    omega
  · rw [hfee]
    omega

theorem swap_fair {user : Address} {tokenIn : String} {amountIn amountOutMin out : I128}
    (hfee : StandardFee s) (hp : s.pool.Positive)
    (h : swap env s user tokenIn amountIn amountOutMin = .ok (out, s')) :
    ∃ da db, s.pool.Fair (.exchange da db) ∧ s'.pool = s.pool.run (.exchange da db) := by
  obtain ⟨config, hconfig, hnum, hden⟩ := hfee
  obtain ⟨_, hpos, _, config', rin, rout, hconfig', _, hsides, hout, _, ra, rb, _, _, hra, hrb,
    rfl⟩ := swap_ok h
  rw [hconfig] at hconfig'
  cases hconfig'
  refine ⟨deltaA tokenIn amountIn out, deltaB tokenIn amountIn out, ?_, ?_⟩
  · rcases swapReserves_ok hsides with ⟨rfl, rfl, rfl⟩ | ⟨rfl, rfl, rfl⟩
    · obtain ⟨_, hlt, hprod⟩ := swapOutput_fair hnum hden hpos hp.a_pos hp.b_pos hout
      exact ⟨add_pos hp.a_pos hpos, sub_pos.mpr hlt, hprod⟩
    · obtain ⟨_, hlt, hprod⟩ := swapOutput_fair hnum hden hpos hp.b_pos hp.a_pos hout
      refine ⟨sub_pos.mpr hlt, add_pos hp.b_pos hpos, ?_⟩
      show (reserveA s).val * (reserveB s).val ≤
        ((reserveA s).val - out.val) * ((reserveB s).val + amountIn.val)
      rw [Int.mul_comm, Int.mul_comm ((reserveA s).val - out.val)]
      exact hprod
  · show SharePool.mk ra.val rb.val (totalLiquidity s).val = _
    rw [hra, hrb]
    rfl

/-- Every accepted call that leaves shares is fair, or leaves the pool alone. -/
theorem exec_fair {i : Env Address × Call Address} (hfee : StandardFee s) (hp : s.pool.Positive)
    (h : exec s i = .ok s') (hleft : 0 < (totalLiquidity s').val) :
    s'.pool = s.pool ∨ ∃ o, s.pool.Fair o ∧ s'.pool = s.pool.run o := by
  obtain ⟨env, call⟩ := i
  cases call with
  | initializeContract admin bstToken feeCollector =>
    -- a second initialisation would leave no shares
    obtain ⟨_, _, rfl⟩ := initializeContract_ok.mp h
    exact absurd hleft (lt_irrefl _)
  | addLiquidity provider aDesired bDesired aMin bMin =>
    obtain ⟨minted, h⟩ := map_snd_eq_ok.mp h
    exact .inr (addLiquidity_fair hp h)
  | removeLiquidity provider liquidity =>
    obtain ⟨amounts, h⟩ := map_snd_eq_ok.mp h
    exact .inr (removeLiquidity_fair hp h hleft)
  | swap user tokenIn amountIn amountOutMin =>
    obtain ⟨out, h⟩ := map_snd_eq_ok.mp h
    obtain ⟨da, db, hfair, hrun⟩ := swap_fair hfee hp h
    exact .inr ⟨.exchange da db, hfair, hrun⟩
  | claimMiningRewards user =>
    obtain ⟨rewards, h⟩ := map_snd_eq_ok.mp h
    obtain ⟨_, miningRewards, events, rfl⟩ := claimMiningRewards_ok h
    exact .inl rfl

/-- The configuration is the one `initialize` writes, or has not changed. -/
theorem exec_poolConfig {i : Env Address × Call Address} (h : exec s i = .ok s') :
    s'.poolConfig = some initialConfig ∨ s'.poolConfig = s.poolConfig := by
  obtain ⟨env, call⟩ := i
  cases call with
  | initializeContract admin bstToken feeCollector =>
    obtain ⟨_, _, rfl⟩ := initializeContract_ok.mp h
    exact .inl rfl
  | addLiquidity provider aDesired bDesired aMin bMin =>
    obtain ⟨minted, h⟩ := map_snd_eq_ok.mp h
    obtain ⟨_, _, _, _, _, _, _, _, _, _, _, _, _, _, _, _, _, _, _, _, rfl⟩ := addLiquidity_ok h
    exact .inr rfl
  | removeLiquidity provider liquidity =>
    obtain ⟨amounts, h⟩ := map_snd_eq_ok.mp h
    obtain ⟨_, _, _, _, _, _, _, _, _, _, _, _, _, _, _, _, _, _, rfl⟩ := removeLiquidity_ok h
    exact .inr rfl
  | swap user tokenIn amountIn amountOutMin =>
    obtain ⟨out, h⟩ := map_snd_eq_ok.mp h
    obtain ⟨_, _, _, _, _, _, _, _, _, _, _, _, _, _, _, _, _, rfl⟩ := swap_ok h
    exact .inr rfl
  | claimMiningRewards user =>
    obtain ⟨rewards, h⟩ := map_snd_eq_ok.mp h
    obtain ⟨_, _, _, rfl⟩ := claimMiningRewards_ok h
    exact .inr rfl

theorem StandardFee.step {i : Env Address × Call Address} (hs : StandardFee s)
    (h : exec s i = .ok s') : StandardFee s' := by
  rcases exec_poolConfig h with hconfig | hconfig
  · exact ⟨initialConfig, hconfig, rfl, rfl⟩
  · obtain ⟨config, hc, hfee⟩ := hs
    exact ⟨config, hconfig.trans hc, hfee⟩

end Steps

/-- What holds between the first storage of a run and its last. -/
structure Appreciated (s₀ s : Storage Address) : Prop where
  fee : StandardFee s
  positive : s.pool.Positive
  notBelow : s₀.pool.NotBelow s.pool

theorem Appreciated.step {s₀ s s' : Storage Address} {i : Env Address × Call Address}
    (hs : Appreciated s₀ s) (h : exec s i = .ok s') (hleft : 0 < (totalLiquidity s').val) :
    Appreciated s₀ s' := by
  have hfee := hs.fee.step h
  rcases exec_fair hs.fee hs.positive h hleft with heq | ⟨o, hfair, hrun⟩
  · exact ⟨hfee, heq ▸ hs.positive, heq ▸ hs.notBelow⟩
  · refine ⟨hfee, ?_, ?_⟩
    · rw [hrun]
      exact hs.positive.run hfair
    · rw [hrun]
      exact hs.notBelow.trans hs.positive.shares_pos (hfair.notBelow hs.positive)

theorem appreciated_after {s₀ : Storage Address} (hfee : StandardFee s₀)
    (ha : 0 < (reserveA s₀).val) (hb : 0 < (reserveB s₀).val)
    (past : List (Env Address × Call Address))
    (hleft : ∀ earlier, earlier <:+ past → 0 < (totalLiquidity (after exec s₀ earlier)).val) :
    Appreciated s₀ (after exec s₀ past) := by
  induction past with
  | nil => exact ⟨hfee, ⟨ha, hb, hleft [] (List.suffix_refl _)⟩, SharePool.NotBelow.refl _⟩
  | cons i past ih =>
    have hs := ih fun earlier he => hleft earlier (he.trans (List.suffix_cons i past))
    have hlast := hleft (i :: past) (List.suffix_refl _)
    cases he : exec (after exec s₀ past) i with
    | ok s' =>
      rw [after, apply_ok he] at hlast ⊢
      exact hs.step he hlast
    | error t =>
      rw [after, apply_error he]
      exact hs

/-- From a storage with positive reserves and shares, a run each of whose calls
leaves shares keeps the reserves positive and never lowers the value of a share;
no swap of the run lowers the product of the reserves. -/
theorem share_value_never_falls {s₀ : Storage Address} (hfee : StandardFee s₀)
    (ha : 0 < (reserveA s₀).val) (hb : 0 < (reserveB s₀).val)
    (past : List (Env Address × Call Address))
    (hleft : ∀ earlier, earlier <:+ past → 0 < (totalLiquidity (after exec s₀ earlier)).val) :
    0 < (reserveA (after exec s₀ past)).val ∧ 0 < (reserveB (after exec s₀ past)).val ∧
    (reserveA s₀).val * (reserveB s₀).val * (totalLiquidity (after exec s₀ past)).val ^ 2 ≤
      (reserveA (after exec s₀ past)).val * (reserveB (after exec s₀ past)).val *
        (totalLiquidity s₀).val ^ 2 ∧
    ∀ env user tokenIn amountIn amountOutMin earlier,
      (env, .swap user tokenIn amountIn amountOutMin) :: earlier <:+ past →
      (reserveA (after exec s₀ earlier)).val * (reserveB (after exec s₀ earlier)).val ≤
        (reserveA (after exec s₀
          ((env, .swap user tokenIn amountIn amountOutMin) :: earlier))).val *
        (reserveB (after exec s₀
          ((env, .swap user tokenIn amountIn amountOutMin) :: earlier))).val := by
  have hs := appreciated_after hfee ha hb past hleft
  refine ⟨hs.positive.a_pos, hs.positive.b_pos, hs.notBelow, ?_⟩
  intro env user tokenIn amountIn amountOutMin earlier hsuf
  have hbefore := appreciated_after hfee ha hb earlier fun e he =>
    hleft e ((he.trans (List.suffix_cons _ earlier)).trans hsuf)
  cases he : exec (after exec s₀ earlier) (env, .swap user tokenIn amountIn amountOutMin) with
  | ok s' =>
    obtain ⟨out, hswap⟩ := map_snd_eq_ok.mp he
    obtain ⟨da, db, ⟨_, _, hprod⟩, hrun⟩ := swap_fair hbefore.fee hbefore.positive hswap
    rw [after, apply_ok he]
    show _ ≤ s'.pool.a * s'.pool.b
    rw [hrun]
    exact hprod
  | error t =>
    rw [after, apply_error he]

/-- The example pool once user 5 has seeded it with 2000 and 8000. -/
def seededPool : Storage Nat :=
  { examplePool with
    reserveA := some (.lit 2000)
    reserveB := some (.lit 8000)
    totalLiquidity := some (.lit 3000)
    liquidity := Table.set ∅ 5 (.lit 3000) }

/-- User 6 swaps 100 BST, then user 5 removes half of its shares. -/
def exampleTrades : List (Env Nat × Call Nat) :=
  [(exampleEnv 0 [5], .removeLiquidity 5 (.lit 1500)),
    (exampleEnv 0 [6], .swap 6 "bst" (.lit 100) 0)]

theorem share_value_never_falls_trades :
    2000 * 8000 * (totalLiquidity (after exec seededPool exampleTrades)).val ^ 2 ≤
      (reserveA (after exec seededPool exampleTrades)).val *
        (reserveB (after exec seededPool exampleTrades)).val * 3000 ^ 2 := by
  have hleft : ∀ earlier ∈ exampleTrades.tails,
      0 < (totalLiquidity (after exec seededPool earlier)).val := by decide +kernel
  exact (share_value_never_falls ⟨initialConfig, rfl, rfl, rfl⟩ (by decide) (by decide)
    exampleTrades fun earlier hsuf => hleft earlier ((List.mem_tails _ _).mpr hsuf)).2.2.1

end Scoopdope.LiquidityPool
