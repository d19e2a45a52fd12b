import Scoopdope.LiquidityPool.SquareRoot

/-!
# Liquidity pool: what an accepted call does

One specification for every entry point: from a returned value, the checks that
passed and the storage written. Everything about the pool is derived from
these, none of it from the code of an entry point.
-/

namespace Scoopdope.LiquidityPool

open Soroban

variable {Address : Type}

/-! ## Internal helpers -/

theorem quote_ok {amountA reserveA reserveB q : I128}
    (h : quote amountA reserveA reserveB = .ok q) :
    0 < reserveA.val ∧ 0 < reserveB.val ∧
      q.val = (amountA.val * reserveB.val).tdiv reserveA.val := by
  simp only [quote, bind_eq_ok, assert_eq_ok, exists_const] at h
  obtain ⟨⟨ha, hb⟩, hq⟩ := h
  exact ⟨ha, hb, (BoundedInt.mulDiv_ok hq).2⟩

/-- On a seeded pool the amounts are accepted only against positive reserves. -/
theorem depositAmounts_ok {total reserveA reserveB aDesired bDesired aMin bMin a b : I128}
    (h : depositAmounts total reserveA reserveB aDesired bDesired aMin bMin = .ok (a, b)) :
    (total = 0 ∧ a = aDesired ∧ b = bDesired) ∨
    (total ≠ 0 ∧ 0 < reserveA.val ∧ 0 < reserveB.val) := by
  unfold depositAmounts at h
  split at h
  · next ht =>
    cases pure_eq_ok.mp h
    exact .inl ⟨ht, rfl, rfl⟩
  · next ht =>
    obtain ⟨optimal, hq, _⟩ := bind_eq_ok.mp h
    obtain ⟨ha, hb, _⟩ := quote_ok hq
    exact .inr ⟨ht, ha, hb⟩

/-- The products of amounts that can seed an empty pool: their root is more than
the minimum liquidity, and in the domain of `sqrt`. -/
def Seeds (a b : I128) : Prop :=
  1001 * 1001 ≤ a.val * b.val ∧ a.val * b.val ≤ 85070591730234615865843651857942052863

instance (a b : I128) : Decidable (Seeds a b) := inferInstanceAs (Decidable (_ ∧ _))

theorem Seeds.product_pos {a b : I128} (h : Seeds a b) : 0 < a.val * b.val := by
  have := h.1
  omega

/-- What is minted: on an empty pool only for amounts that seed it, on a seeded
pool the smaller of the two parts of the shares. -/
theorem mintedLiquidity_ok {total reserveA reserveB a b m : I128}
    (h : mintedLiquidity total reserveA reserveB a b = .ok m) (hm : 0 < m.val) :
    (total = 0 ∧ Seeds a b) ∨
    (total ≠ 0 ∧ m.val = min ((a.val * total.val).tdiv reserveA.val)
      ((b.val * total.val).tdiv reserveB.val)) := by
  unfold mintedLiquidity at h
  split at h
  · next ht =>
    simp only [bind_eq_ok, BoundedInt.mul_eq_ok] at h
    obtain ⟨product, hproduct, root, hroot, h⟩ := h
    cases pure_eq_ok.mp h
    have hlarge : 1001 ≤ root.val := by
      cases hsub : root.checkedSub minimumLiquidity with
      | none =>
        rw [hsub] at hm
        exact absurd hm (lt_irrefl _)
      | some rest =>
        rw [hsub] at hm
        have hrest : rest.val = root.val - 1000 := BoundedInt.checkedSub_eq_some.mp hsub
        have hpos : 0 < rest.val := hm
        omega
    obtain ⟨hhalf, _, hle, _⟩ := sqrt_ok hroot (by omega)
    rw [hproduct] at hhalf hle
    exact .inl ⟨ht, (mul_le_mul hlarge hlarge (by omega) (by omega)).trans hle, hhalf⟩
  · next ht =>
    simp only [bind_eq_ok] at h
    obtain ⟨ma, ha, mb, hb, h⟩ := h
    cases pure_eq_ok.mp h
    refine .inr ⟨ht, ?_⟩
    rw [BoundedInt.min_val, (BoundedInt.mulDiv_ok ha).2, (BoundedInt.mulDiv_ok hb).2]

/-- Amounts that seed an empty pool do mint. -/
theorem mintedLiquidity_seeds (reserveA reserveB : I128) {a b : I128} (h : Seeds a b) :
    ∃ m, mintedLiquidity 0 reserveA reserveB a b = .ok m ∧ 0 < m.val := by
  have hpos := h.product_pos
  obtain ⟨hlarge, hhalf⟩ := h
  let product : I128 := ⟨a.val * b.val, by omega, by omega⟩
  obtain ⟨root, hroot, h0, hle, hlt⟩ := sqrt_root (x := product) hpos.le hhalf
  have hroot1001 : 1001 ≤ root.val := by
    by_contra hsmall
    have hup : (root.val + 1) * (root.val + 1) ≤ 1001 * 1001 :=
      mul_le_mul (by omega) (by omega) (by omega) (by omega)
    exact absurd (hlt.trans_le (hup.trans hlarge)) (lt_irrefl _)
  have hhi := root.le_hi
  let m : I128 := ⟨root.val - 1000, by omega, by omega⟩
  refine ⟨m, ?_, show 0 < root.val - 1000 by omega⟩
  have hm : root.checkedSub minimumLiquidity = some m := BoundedInt.checkedSub_eq_some.mpr rfl
  simp only [mintedLiquidity, if_true, bind_eq_ok, pure_eq_ok]
  refine ⟨product, BoundedInt.mul_eq_ok.mpr rfl, root, hroot, ?_⟩
  rw [hm]
  rfl

/-- The two tokens a swap can pay in. -/
theorem swapReserves_ok {tokenIn : String} {reserveA reserveB reserveIn reserveOut : I128}
    (h : swapReserves tokenIn reserveA reserveB = .ok (reserveIn, reserveOut)) :
    (tokenIn = "bst" ∧ reserveIn = reserveA ∧ reserveOut = reserveB) ∨
    (tokenIn = "xlm" ∧ reserveIn = reserveB ∧ reserveOut = reserveA) := by
  unfold swapReserves at h
  split_ifs at h with hbst hxlm
  · cases pure_eq_ok.mp h
    exact .inl ⟨hbst, rfl, rfl⟩
  · cases pure_eq_ok.mp h
    exact .inr ⟨hxlm, rfl, rfl⟩

/-- `amount_in_with_fee`. -/
def withFee (config : PoolConfig) (amountIn : I128) : Int :=
  amountIn.val * (config.feeDenominator.val - config.feeNumerator.val)

theorem swapOutput_ok {config : PoolConfig} {amountIn reserveIn reserveOut out : I128}
    (h : swapOutput config amountIn reserveIn reserveOut = .ok out) :
    out.val = (withFee config amountIn * reserveOut.val).tdiv
      (reserveIn.val * config.feeDenominator.val + withFee config amountIn) := by
  simp only [swapOutput, bind_eq_ok, BoundedInt.sub_eq_ok, BoundedInt.mul_eq_ok,
    BoundedInt.add_eq_ok, BoundedInt.div_eq_ok, BoundedInt.u32AsI128_val] at h
  obtain ⟨factor, hfactor, net, hnet, num, hnum, scaled, hscaled, den, hden, _, hout⟩ := h
  rw [hout, hnum, hden, hscaled, hnet, hfactor]
  rfl

/-- What `swap` adds to the reserve of token A. -/
def deltaA (tokenIn : String) (amountIn amountOut : I128) : Int :=
  if tokenIn = "bst" then amountIn.val else -amountOut.val

/-- What `swap` adds to the reserve of token B. -/
def deltaB (tokenIn : String) (amountIn amountOut : I128) : Int :=
  if tokenIn = "bst" then -amountOut.val else amountIn.val

theorem swapUpdate_ok {s s' : Storage Address} {tokenIn : String}
    {reserveA reserveB amountIn amountOut : I128} (htoken : tokenIn = "bst" ∨ tokenIn = "xlm")
    (h : swapUpdate s tokenIn reserveA reserveB amountIn amountOut = .ok s') :
    ∃ a b : I128, a.val = reserveA.val + deltaA tokenIn amountIn amountOut ∧
      b.val = reserveB.val + deltaB tokenIn amountIn amountOut ∧
      s' = { s with reserveA := some a, reserveB := some b } := by
  rcases htoken with rfl | rfl
  · simp only [swapUpdate, if_true, bind_eq_ok, BoundedInt.add_eq_ok, BoundedInt.sub_eq_ok] at h
    obtain ⟨a, ha, b, hb, hs⟩ := h
    exact ⟨a, b, ha, hb, (pure_eq_ok.mp hs).symm⟩
  · have hne : ("xlm" : String) ≠ "bst" := by decide
    simp only [swapUpdate, if_neg hne, if_true, bind_eq_ok, BoundedInt.add_eq_ok,
      BoundedInt.sub_eq_ok] at h
    obtain ⟨b, hb, a, ha, hs⟩ := h
    refine ⟨a, b, ?_, ?_, (pure_eq_ok.mp hs).symm⟩
    · rw [ha, deltaA, if_neg hne, Int.sub_eq_add_neg]
    · rw [hb, deltaB, if_neg hne]

/-! ## Entry points -/

section EntryPoints

variable [DecidableEq Address] {env : Env Address} {s s' : Storage Address}

/-- The configuration that `initialize` writes and nothing changes. -/
def initialConfig : PoolConfig where
  feeNumerator := .lit 3
  feeDenominator := .lit 1000
  swapEnabled := true
  addLiquidityEnabled := true
  removeLiquidityEnabled := true

theorem initializeContract_ok {admin bstToken feeCollector : Address} :
    initializeContract env s admin bstToken feeCollector = .ok s' ↔
      s.admin = none ∧ admin ∈ env.auths ∧ s' = { s with
        admin := some admin
        tokenA := some bstToken
        feeCollector := some feeCollector
        reserveA := some 0
        reserveB := some 0
        totalLiquidity := some 0
        poolConfig := some initialConfig
        miningConfig := some { enabled := true, rewardRate := .lit 100, rewardToken := bstToken }
        swapHistoryCount := some 0 } := by
  simp only [initializeContract, bind_eq_ok, assert_eq_ok, Option.isSome_eq_false_iff,
    Option.isNone_iff_eq_none, Env.requireAuth_eq_ok, exists_const, pure_eq_ok, @eq_comm _ s']
  rfl

theorem addLiquidity_ok {provider : Address} {aDesired bDesired aMin bMin minted : I128}
    (h : addLiquidity env s provider aDesired bDesired aMin bMin = .ok (minted, s')) :
    provider ∈ env.auths ∧ 0 < minted.val ∧ ∃ config a b ra rb t v ownLiquidity,
      s.poolConfig = some config ∧ config.addLiquidityEnabled = true ∧
      depositAmounts (totalLiquidity s) (reserveA s) (reserveB s) aDesired bDesired aMin bMin
        = .ok (a, b) ∧
      aMin.val ≤ a.val ∧ bMin.val ≤ b.val ∧
      mintedLiquidity (totalLiquidity s) (reserveA s) (reserveB s) a b = .ok minted ∧
      ra.val = (reserveA s).val + a.val ∧ rb.val = (reserveB s).val + b.val ∧
      t.val = (totalLiquidity s).val + minted.val ∧
      v.val = (getUserLiquidity s provider).val + minted.val ∧
      s' = { s with
        ownLiquidity
        reserveA := some ra
        reserveB := some rb
        totalLiquidity := some t
        liquidity := s.liquidity.set provider v }.publish [.symbol "add_liq", .symbol "provider"]
        [.address provider, .i128 a, .i128 b, .i128 minted] := by
  simp only [addLiquidity, bind_eq_ok, assert_eq_ok, unwrap_eq_ok, Env.requireAuth_eq_ok,
    pure_eq_ok, exists_const, BoundedInt.add_eq_ok, Prod.mk.injEq, Prod.exists] at h
  obtain ⟨hauth, config, hconfig, henabled, a, b, hab, ha, hb, m, hm, hpos, ra, hra, rb, hrb, t,
    ht, v, hv, rfl, rfl⟩ := h
  exact ⟨hauth, hpos, config, a, b, ra, rb, t, v, _, hconfig, henabled, hab, ha, hb, hm, hra, hrb,
    ht, hv, rfl⟩

theorem removeLiquidity_ok {provider : Address} {liquidity : I128} {amounts : I128 × I128}
    (h : removeLiquidity env s provider liquidity = .ok (amounts, s')) :
    provider ∈ env.auths ∧ liquidity.val ≤ (getUserLiquidity s provider).val ∧
      (totalLiquidity s).val ≠ 0 ∧ 0 < amounts.1.val ∧ 0 < amounts.2.val ∧
      amounts.1.val = (liquidity.val * (reserveA s).val).tdiv (totalLiquidity s).val ∧
      amounts.2.val = (liquidity.val * (reserveB s).val).tdiv (totalLiquidity s).val ∧
      ∃ config ra rb t v, s.poolConfig = some config ∧ config.removeLiquidityEnabled = true ∧
        ra.val = (reserveA s).val - amounts.1.val ∧ rb.val = (reserveB s).val - amounts.2.val ∧
        t.val = (totalLiquidity s).val - liquidity.val ∧
        v.val = (getUserLiquidity s provider).val - liquidity.val ∧
        s' = { s with
          liquidity := s.liquidity.set provider v
          totalLiquidity := some t
          reserveA := some ra
          reserveB := some rb }.publish [.symbol "rem_liq", .symbol "provider"]
          [.address provider, .i128 amounts.1, .i128 amounts.2, .i128 liquidity] := by
  simp only [removeLiquidity, bind_eq_ok, assert_eq_ok, unwrap_eq_ok, Env.requireAuth_eq_ok,
    pure_eq_ok, exists_const, BoundedInt.sub_eq_ok, Prod.mk.injEq] at h
  obtain ⟨hauth, config, hconfig, henabled, hle, a, ha, b, hb, ⟨hapos, hbpos⟩, v, hv, t, ht, ra,
    hra, rb, hrb, rfl, rfl⟩ := h
  obtain ⟨ht0, ha⟩ := BoundedInt.mulDiv_ok ha
  obtain ⟨_, hb⟩ := BoundedInt.mulDiv_ok hb
  exact ⟨hauth, hle, ht0, hapos, hbpos, ha, hb, config, ra, rb, t, v, hconfig, henabled, hra, hrb,
    ht, hv, rfl⟩

theorem swap_ok {user : Address} {tokenIn : String} {amountIn amountOutMin out : I128}
    (h : swap env s user tokenIn amountIn amountOutMin = .ok (out, s')) :
    user ∈ env.auths ∧ 0 < amountIn.val ∧ amountOutMin.val ≤ out.val ∧
      ∃ config reserveIn reserveOut, s.poolConfig = some config ∧ config.swapEnabled = true ∧
        swapReserves tokenIn (reserveA s) (reserveB s) = .ok (reserveIn, reserveOut) ∧
        swapOutput config amountIn reserveIn reserveOut = .ok out ∧ out.val ≤ reserveOut.val ∧
        ∃ (ra rb : I128) (swapHistory : Table U32 (SwapRecord Address)) (nextCount : U32),
          ra.val = (reserveA s).val + deltaA tokenIn amountIn out ∧
          rb.val = (reserveB s).val + deltaB tokenIn amountIn out ∧
          s' = { s with
            reserveA := some ra
            reserveB := some rb
            swapHistory
            swapHistoryCount := some nextCount }.publish [.symbol "swap", .symbol "user"]
            [.address user, .i128 amountIn, .i128 out] := by
  simp only [swap, bind_eq_ok, assert_eq_ok, unwrap_eq_ok, Env.requireAuth_eq_ok, pure_eq_ok,
    exists_const, Prod.mk.injEq, Prod.exists] at h
  obtain ⟨hauth, config, hconfig, henabled, hpos, rin, rout, hsides, out', hout, hmin, hmax, s₁,
    hs₁, fee, _, next, _, rfl, rfl⟩ := h
  have htoken : tokenIn = "bst" ∨ tokenIn = "xlm" := by
    rcases swapReserves_ok hsides with ⟨ht, _⟩ | ⟨ht, _⟩
    · exact .inl ht
    · exact .inr ht
  obtain ⟨ra, rb, hra, hrb, rfl⟩ := swapUpdate_ok htoken hs₁
  exact ⟨hauth, hpos, hmin, config, rin, rout, hconfig, henabled, hsides, hout, hmax, ra, rb, _,
    next, hra, hrb, rfl⟩

theorem claimMiningRewards_ok {user : Address} {rewards : I128}
    (h : claimMiningRewards env s user = .ok (rewards, s')) :
    user ∈ env.auths ∧ ∃ miningRewards events,
      s' = { s with miningRewards := miningRewards, events := events } := by
  simp only [claimMiningRewards, bind_eq_ok, assert_eq_ok, unwrap_eq_ok, Env.requireAuth_eq_ok,
    exists_const] at h
  obtain ⟨hauth, config, _, _, h⟩ := h
  split at h
  · cases pure_eq_ok.mp h
    exact ⟨hauth, _, _, rfl⟩
  · obtain ⟨r, _, h⟩ := bind_eq_ok.mp h
    cases pure_eq_ok.mp h
    exact ⟨hauth, _, _, rfl⟩

end EntryPoints

/-! ## The start of a run -/

/-- The storage after `initialize`. -/
def Initialised [DecidableEq Address] (s₀ : Storage Address) : Prop :=
  ∃ env admin bstToken feeCollector,
    initializeContract env (Storage.fresh Address) admin bstToken feeCollector = .ok s₀

/-- The pool initialised by contract 1. -/
def examplePool : Storage Nat :=
  { Storage.fresh Nat with
    admin := some 1
    tokenA := some 2
    feeCollector := some 3
    reserveA := some 0
    reserveB := some 0
    totalLiquidity := some 0
    poolConfig := some initialConfig
    miningConfig := some { enabled := true, rewardRate := .lit 100, rewardToken := 2 }
    swapHistoryCount := some 0 }

theorem examplePool_initialised : Initialised examplePool :=
  ⟨exampleEnv 0 [1], 1, 2, 3, rfl⟩

end Scoopdope.LiquidityPool
