import Mathlib.Algebra.Order.Field.Basic
import Mathlib.Data.Rat.Cast.Order
import Scoopdope.LiquidityPool.Reserves

/-!
# Liquidity pool: a deposit that is taken back

The provider of a deposit who removes the shares it minted, right after it, gets no more than the
deposit, and the part of every other provider does not fall. Both come from the rounding of the
two calls (`SharePool.withdrawn_le_of_fair`).

A pool with reserves and no shares would give its reserves to the next provider. No run reaches
one: while there are no shares one reserve is zero (`Hollow`), also in a pool that was seeded with
negative amounts.
-/

namespace Scoopdope.LiquidityPool

open Soroban

variable {Address : Type} [DecidableEq Address]

/-! ## Pools whose shares own their reserves -/

/-- The balances add up to the shares there are, and reserves have owners. -/
structure Owned (s : Storage Address) : Prop where
  total_eq : Table.total BoundedInt.val s.liquidity = (totalLiquidity s).val
  nonneg : ∀ user, 0 ≤ (getUserLiquidity s user).val
  shares : 0 < (reserveA s).val → 0 < (reserveB s).val → 0 < (totalLiquidity s).val

/-- While there are no shares one of the reserves is zero. -/
structure Hollow (s : Storage Address) : Prop where
  config : s.poolConfig = some initialConfig
  empty : (totalLiquidity s).val = 0 → (reserveA s).val = 0 ∨ (reserveB s).val = 0

section Steps

variable {s s' : Storage Address} {env : Env Address}

/-- A swap on a pool without shares pays out all of the other reserve. -/
theorem Hollow.swap_takes_all {user : Address} {tokenIn : String}
    {amountIn amountOutMin out : I128} (hs : Hollow s)
    (hzero : (reserveA s).val = 0 ∨ (reserveB s).val = 0)
    (h : swap env s user tokenIn amountIn amountOutMin = .ok (out, s')) :
    (reserveA s').val = 0 ∨ (reserveB s').val = 0 := by
  obtain ⟨_, hpos, _, config, rin, rout, hconfig, _, hsides, hout, _, ra, rb, _, _, hra, hrb,
    rfl⟩ := swap_ok h
  rw [hs.config] at hconfig
  cases hconfig
  rcases swapReserves_ok hsides with ⟨rfl, rfl, rfl⟩ | ⟨rfl, rfl, rfl⟩
  · have hall := swapOutput_empty hpos hzero hout
    have hb : rb.val = (reserveB s).val + -out.val := hrb
    refine .inr ?_
    show rb.val = 0
    omega
  · have hall := swapOutput_empty hpos hzero.symm hout
    have ha : ra.val = (reserveA s).val + -out.val := hra
    refine .inl ?_
    show ra.val = 0
    omega

theorem Hollow.step {i : Env Address × Call Address} (hacc : Accounted s) (hs : Hollow s)
    (h : exec s i = .ok s') : Hollow s' := by
  have hn : 0 ≤ (totalLiquidity s).val := hacc.sound.supply_nonneg
  have hc : s'.poolConfig = some initialConfig := by
    rcases exec_poolConfig h with hinitial | hsame
    · exact hinitial
    · exact hsame.trans hs.config
  refine ⟨hc, fun hempty => ?_⟩
  obtain ⟨env, call⟩ := i
  cases call with
  | initializeContract admin bstToken feeCollector =>
    obtain ⟨_, _, rfl⟩ := initializeContract_ok.mp h
    exact .inl rfl
  | addLiquidity provider aDesired bDesired aMin bMin =>
    -- what was minted is left
    obtain ⟨minted, h⟩ := map_snd_eq_ok.mp h
    obtain ⟨_, hpos, _, _, _, _, _, t, _, _, _, _, _, _, _, _, _, _, ht, _, rfl⟩ :=
      addLiquidity_ok h
    have hzero : t.val = 0 := hempty
    omega
  | removeLiquidity provider liquidity =>
    obtain ⟨amounts, h⟩ := map_snd_eq_ok.mp h
    exact .inl (drain_takes_all hempty h).1
  | swap user tokenIn amountIn amountOutMin =>
    obtain ⟨out, h⟩ := map_snd_eq_ok.mp h
    have hsame : (totalLiquidity s').val = (totalLiquidity s).val := by
      obtain ⟨_, _, _, _, _, _, _, _, _, _, _, _, _, _, _, _, _, rfl⟩ := swap_ok h
      rfl
    exact hs.swap_takes_all (hs.empty (hsame ▸ hempty)) h
  | claimMiningRewards user =>
    obtain ⟨rewards, h⟩ := map_snd_eq_ok.mp h
    obtain ⟨_, _, _, rfl⟩ := claimMiningRewards_ok h
    exact hs.empty hempty

end Steps

theorem hollow_after {s₀ : Storage Address} (h : Initialised s₀)
    (past : List (Env Address × Call Address)) : Hollow (after exec s₀ past) := by
  have hboth : Accounted (after exec s₀ past) ∧ Hollow (after exec s₀ past) := by
    refine after_invariant (P := fun s : Storage Address => Accounted s ∧ Hollow s) ?_ ?_ past
    · refine ⟨h.accounted, ?_⟩
      obtain ⟨env, admin, bstToken, feeCollector, h⟩ := h
      obtain ⟨_, _, rfl⟩ := initializeContract_ok.mp h
      exact ⟨rfl, fun _ => .inl rfl⟩
    · exact fun _ _ _ hs he => ⟨hs.1.step he, hs.2.step hs.1 he⟩
  exact hboth.2

/-- Every pool that a run of calls reaches from `initialize` is owned by its shares. -/
theorem owned_after {s₀ : Storage Address} (h : Initialised s₀)
    (past : List (Env Address × Call Address)) : Owned (after exec s₀ past) := by
  have hsound := (accounted_after h past).sound
  have hn : 0 ≤ (totalLiquidity (after exec s₀ past)).val := hsound.supply_nonneg
  refine ⟨hsound.total_eq, hsound.amount_nonneg, fun ha hb => ?_⟩
  refine lt_of_le_of_ne hn fun hzero => ?_
  rcases (hollow_after h past).empty hzero.symm with hz | hz
  · omega
  · omega

/-! ## A deposit and its removal -/

/-- The part of a reserve that a user's balance owns, not rounded. -/
def partOf (s : Storage Address) (user : Address) (reserve : I128) : ℚ :=
  (getUserLiquidity s user).val * reserve.val / (totalLiquidity s).val

section RoundTrip

variable {s s' s₁ s₂ : Storage Address} {env env' : Env Address} {provider user : Address}
  {aDesired bDesired aMin bMin minted liquidity : I128} {amounts : I128 × I128}

theorem addLiquidity_others (hne : user ≠ provider)
    (h : addLiquidity env s provider aDesired bDesired aMin bMin = .ok (minted, s')) :
    getUserLiquidity s' user = getUserLiquidity s user := by
  obtain ⟨_, _, _, _, _, _, _, _, v, _, _, _, _, _, _, _, _, _, _, _, rfl⟩ := addLiquidity_ok h
  exact Table.amount_set_ne hne

theorem removeLiquidity_others (hne : user ≠ provider)
    (h : removeLiquidity env s provider liquidity = .ok (amounts, s')) :
    getUserLiquidity s' user = getUserLiquidity s user := by
  obtain ⟨_, _, _, _, _, _, _, _, _, _, _, v, _, _, _, _, _, _, rfl⟩ := removeLiquidity_ok h
  exact Table.amount_set_ne hne

/-- The two calls as operations of the pool: what they take and give back, and that there are
as many shares after them as before. -/
theorem roundTrip_pool (hp : s.pool.Positive)
    (hadd : addLiquidity env s provider aDesired bDesired aMin bMin = .ok (minted, s₁))
    (hremove : removeLiquidity env' s₁ provider minted = .ok (amounts, s₂)) :
    ∃ a b : ℤ, s₁.pool = s.pool.run (.deposit a b minted.val) ∧
      s₂.pool = s₁.pool.run (.withdraw amounts.1.val amounts.2.val minted.val) ∧
      amounts.1.val ≤ a ∧ amounts.2.val ≤ b ∧ s₂.pool.shares = s.pool.shares := by
  obtain ⟨a, b, hin, hdeposit⟩ := addLiquidity_deposit hp hadd
  have hp₁ : s₁.pool.Positive := hdeposit ▸ hp.run hin
  have hshares : s₂.pool.shares = s.pool.shares := by
    obtain ⟨_, _, _, _, _, _, _, _, _, _, t, _, _, _, _, _, ht, _, rfl⟩ :=
      removeLiquidity_ok hremove
    have hminted : (totalLiquidity s₁).val = s.pool.shares + minted.val :=
      congrArg SharePool.shares hdeposit
    show t.val = _
    omega
  have hleft : 0 < (totalLiquidity s₂).val := hp.shares_pos.trans_eq hshares.symm
  obtain ⟨hout, hwithdraw⟩ := removeLiquidity_withdraw hp₁ hremove hleft
  rw [hdeposit] at hout
  obtain ⟨ha, hb⟩ := SharePool.withdrawn_le_of_fair hp hin hout
  exact ⟨a, b, hdeposit, hwithdraw, ha, hb, hshares⟩

/-- A balance that stays keeps its part of a reserve that has not fallen. -/
theorem partOf_le {r r' : I128} (hnonneg : 0 ≤ (getUserLiquidity s user).val)
    (hshares : 0 < (totalLiquidity s).val)
    (hkept : getUserLiquidity s' user = getUserLiquidity s user)
    (htotal : (totalLiquidity s').val = (totalLiquidity s).val) (hr : r.val ≤ r'.val) :
    partOf s user r ≤ partOf s' user r' := by
  have hb : (0 : ℚ) ≤ (getUserLiquidity s user).val := by exact_mod_cast hnonneg
  have ht : (0 : ℚ) ≤ (totalLiquidity s).val := by exact_mod_cast hshares.le
  have hr' : (r.val : ℚ) ≤ r'.val := by exact_mod_cast hr
  rw [partOf, partOf, hkept, htotal]
  exact div_le_div_of_nonneg_right (mul_le_mul_of_nonneg_left hr' hb) ht

end RoundTrip

/-- In every pool owned by its shares, and that is every pool a run reaches: with positive
reserves, a deposit whose shares its provider removes right after it gives back at most the two
amounts it took, and no other provider's exact part of a reserve is smaller than before. -/
theorem deposit_taken_back_never_profits :
    (∀ (s₀ : Storage Address) past, Initialised s₀ → Owned (after exec s₀ past)) ∧
    ∀ (env env' : Env Address) (s s₁ s₂ : Storage Address) (provider : Address)
      (aDesired bDesired aMin bMin minted : I128) (amounts : I128 × I128),
      Owned s → 0 < (reserveA s).val → 0 < (reserveB s).val →
      addLiquidity env s provider aDesired bDesired aMin bMin = .ok (minted, s₁) →
      removeLiquidity env' s₁ provider minted = .ok (amounts, s₂) →
      ∃ a b : I128,
        depositAmounts (totalLiquidity s) (reserveA s) (reserveB s) aDesired bDesired aMin bMin =
          .ok (a, b) ∧
        (reserveA s₁).val = (reserveA s).val + a.val ∧
        (reserveB s₁).val = (reserveB s).val + b.val ∧
        amounts.1.val ≤ a.val ∧ amounts.2.val ≤ b.val ∧
        ∀ user, user ≠ provider →
          partOf s user (reserveA s) ≤ partOf s₂ user (reserveA s₂) ∧
          partOf s user (reserveB s) ≤ partOf s₂ user (reserveB s₂) := by
  refine ⟨fun s₀ past h => owned_after h past, ?_⟩
  intro env env' s s₁ s₂ provider aDesired bDesired aMin bMin minted amounts hs ha hb hadd hremove
  have hp : s.pool.Positive := ⟨ha, hb, hs.shares ha hb⟩
  obtain ⟨a', b', hdeposit, hwithdraw, hle, hle', hshares⟩ := roundTrip_pool hp hadd hremove
  obtain ⟨_, _, _, a, b, ra, rb, _, _, _, _, _, hab, _, _, _, hra, hrb, _, _, hs₁⟩ :=
    addLiquidity_ok hadd
  have htook : (reserveA s₁).val = (reserveA s).val + a.val := hs₁ ▸ hra
  have htook' : (reserveB s₁).val = (reserveB s).val + b.val := hs₁ ▸ hrb
  have hin : (reserveA s₁).val = (reserveA s).val + a' := congrArg SharePool.a hdeposit
  have hin' : (reserveB s₁).val = (reserveB s).val + b' := congrArg SharePool.b hdeposit
  have hout : (reserveA s₂).val = (reserveA s₁).val - amounts.1.val :=
    congrArg SharePool.a hwithdraw
  have hout' : (reserveB s₂).val = (reserveB s₁).val - amounts.2.val :=
    congrArg SharePool.b hwithdraw
  refine ⟨a, b, hab, htook, htook', by omega, by omega, fun user hne => ?_⟩
  have hkept : getUserLiquidity s₂ user = getUserLiquidity s user :=
    (removeLiquidity_others hne hremove).trans (addLiquidity_others hne hadd)
  constructor
  · exact partOf_le (hs.nonneg user) hp.shares_pos hkept hshares (by omega)
  · exact partOf_le (hs.nonneg user) hp.shares_pos hkept hshares (by omega)

theorem seededPool_owned : Owned seededPool := by
  refine ⟨by decide, fun user => ?_, fun _ _ => by decide⟩
  by_cases huser : user = 5
  · rw [huser]
    decide
  · have hnone : getUserLiquidity seededPool user = 0 := Table.amount_set_ne huser
    rw [hnone]
    exact le_rfl

/-- User 6 adds 100 and 400 to a pool of 2000 and 8000, for 150 shares. -/
def depositedPool : Storage Nat :=
  { seededPool with
    reserveA := some (.lit 2100)
    reserveB := some (.lit 8400)
    totalLiquidity := some (.lit 3150)
    liquidity := seededPool.liquidity.set 6 (.lit 150) }.publish
    [.symbol "add_liq", .symbol "provider"]
    [.address 6, .i128 (.lit 100), .i128 (.lit 400), .i128 (.lit 150)]

/-- It takes them out again. -/
def withdrawnPool : Storage Nat :=
  { depositedPool with
    liquidity := depositedPool.liquidity.set 6 0
    totalLiquidity := some (.lit 3000)
    reserveA := some (.lit 2000)
    reserveB := some (.lit 8000) }.publish
    [.symbol "rem_liq", .symbol "provider"]
    [.address 6, .i128 (.lit 100), .i128 (.lit 400), .i128 (.lit 150)]

theorem deposit_taken_back_never_profits_seeded :
    partOf seededPool 5 (reserveA seededPool) ≤
      partOf withdrawnPool 5 (reserveA withdrawnPool) := by
  have hadd : addLiquidity (exampleEnv 0 [6]) seededPool 6 (.lit 100) (.lit 1000) 0 0 =
      .ok (.lit 150, depositedPool) := rfl
  have hremove : removeLiquidity (exampleEnv 0 [6]) depositedPool 6 (.lit 150) =
      .ok ((.lit 100, .lit 400), withdrawnPool) := rfl
  obtain ⟨_, _, _, _, _, _, _, hothers⟩ := deposit_taken_back_never_profits.2 _ _ _ _ _ _ _ _ _ _ _
    _ seededPool_owned (by decide) (by decide) hadd hremove
  exact (hothers 5 (by decide)).1

end Scoopdope.LiquidityPool
