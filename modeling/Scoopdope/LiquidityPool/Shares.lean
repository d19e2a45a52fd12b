import Scoopdope.LiquidityPool.Steps
import Scoopdope.Soroban.History
import Scoopdope.Soroban.Ledger

/-!
# Liquidity pool: share accounting

The persistent liquidity balances and `TotalLiquidity` are a ledger. Adding
liquidity mints in it, removing burns, and nothing else touches it; a removal of
a negative amount is a burn of a negative amount, which the ledger allows. The
entry the pool keeps for its own address is in another table and no part of it.
-/

namespace Scoopdope.LiquidityPool

open Soroban

variable {Address : Type} [DecidableEq Address]

/-- The ledger of liquidity tokens a storage stands for. -/
noncomputable def Storage.ledger (s : Storage Address) : Ledger Address :=
  .ofTable s.liquidity (LiquidityPool.totalLiquidity s).val

/-- The storage was initialised, and its shares add up. -/
structure Accounted (s : Storage Address) : Prop where
  admin : ∃ admin, s.admin = some admin
  sound : s.ledger.Sound

theorem Initialised.accounted {s₀ : Storage Address} (h : Initialised s₀) : Accounted s₀ := by
  obtain ⟨env, admin, bstToken, feeCollector, h⟩ := h
  obtain ⟨_, _, rfl⟩ := initializeContract_ok.mp h
  exact ⟨⟨admin, rfl⟩, Ledger.sound_empty⟩

section Steps

variable {s s' : Storage Address} {env : Env Address}

theorem Accounted.addLiquidity {provider : Address} {aDesired bDesired aMin bMin minted : I128}
    (hs : Accounted s)
    (h : addLiquidity env s provider aDesired bDesired aMin bMin = .ok (minted, s')) :
    Accounted s' := by
  obtain ⟨_, hpos, _, a, b, ra, rb, t, v, _, _, _, _, _, _, _, _, _, ht, hv, rfl⟩ :=
    addLiquidity_ok h
  refine ⟨hs.admin, ?_⟩
  show (Ledger.ofTable (s.liquidity.set provider v) t.val).Sound
  rw [Ledger.ofTable_mint hv ht]
  exact hs.sound.run hpos.le

theorem Accounted.removeLiquidity {provider : Address} {liquidity : I128}
    {amounts : I128 × I128} (hs : Accounted s)
    (h : removeLiquidity env s provider liquidity = .ok (amounts, s')) : Accounted s' := by
  obtain ⟨_, hle, _, _, _, _, _, _, ra, rb, t, v, _, _, _, _, ht, hv, rfl⟩ := removeLiquidity_ok h
  refine ⟨hs.admin, ?_⟩
  show (Ledger.ofTable (s.liquidity.set provider v) t.val).Sound
  rw [Ledger.ofTable_burn hv ht]
  refine hs.sound.run ?_
  show liquidity.val ≤ s.ledger.balance provider
  rw [Storage.ledger, Ledger.ofTable_balance]
  exact hle

/-- Every accepted call keeps the shares accounted. -/
theorem Accounted.step {i : Env Address × Call Address} (hs : Accounted s)
    (h : exec s i = .ok s') : Accounted s' := by
  obtain ⟨env, call⟩ := i
  cases call with
  | initializeContract admin bstToken feeCollector =>
    obtain ⟨hnone, _⟩ := initializeContract_ok.mp h
    obtain ⟨admin', hsome⟩ := hs.admin
    rw [hnone] at hsome
    cases hsome
  | addLiquidity provider aDesired bDesired aMin bMin =>
    obtain ⟨minted, h⟩ := map_snd_eq_ok.mp h
    exact hs.addLiquidity h
  | removeLiquidity provider liquidity =>
    obtain ⟨amounts, h⟩ := map_snd_eq_ok.mp h
    exact hs.removeLiquidity h
  | swap user tokenIn amountIn amountOutMin =>
    obtain ⟨out, h⟩ := map_snd_eq_ok.mp h
    obtain ⟨_, _, _, _, _, _, _, _, _, _, _, ra, rb, _, _, _, _, rfl⟩ := swap_ok h
    exact ⟨hs.admin, hs.sound⟩
  | claimMiningRewards user =>
    obtain ⟨rewards, h⟩ := map_snd_eq_ok.mp h
    obtain ⟨_, miningRewards, events, rfl⟩ := claimMiningRewards_ok h
    exact ⟨hs.admin, hs.sound⟩

end Steps

theorem accounted_after {s₀ : Storage Address} (h : Initialised s₀)
    (past : List (Env Address × Call Address)) : Accounted (after exec s₀ past) :=
  after_invariant h.accounted (fun _ _ _ hs he => hs.step he) past

/-- In every storage that a run of calls reaches from `initialize`, the persistent
liquidity balances sum to `TotalLiquidity` and none is negative. -/
theorem shares_accounted {s₀ : Storage Address} (h : Initialised s₀)
    (past : List (Env Address × Call Address)) :
    Table.total BoundedInt.val (after exec s₀ past).liquidity =
      (totalLiquidity (after exec s₀ past)).val ∧
    ∀ user, 0 ≤ (getUserLiquidity (after exec s₀ past) user).val := by
  have hs := (accounted_after h past).sound
  exact ⟨hs.total_eq, hs.amount_nonneg⟩

/-- User 5 seeds the pool and drains it, then user 6 seeds it again. -/
theorem shares_accounted_reseed :
    Table.total BoundedInt.val (after exec examplePool
      [(exampleEnv 0 [6], .addLiquidity 6 (.lit 3000) (.lit 3000) 0 0),
        (exampleEnv 0 [5], .removeLiquidity 5 (.lit 1000)),
        (exampleEnv 0 [5], .addLiquidity 5 (.lit 2000) (.lit 2000) 0 0)]).liquidity = 2000 :=
  (shares_accounted examplePool_initialised _).1.trans (by decide +kernel)

end Scoopdope.LiquidityPool
