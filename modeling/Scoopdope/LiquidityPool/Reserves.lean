import Scoopdope.LiquidityPool.Shares
import Scoopdope.LiquidityPool.ShareValue

/-!
# Liquidity pool: sane reserves

`ReserveSanity`: no reserve is negative, a pool with shares has both reserves,
and no call on it divides by zero. It does not hold of every run. The first
provision takes the desired amounts as they come, and `sqrt` of the product of
two negative amounts is positive, so that two negative amounts can seed an empty
pool (`NegativeSeed`). Nothing else breaks it: `reserves_sane_iff`.

A seeded pool is treated through its `SharePool`; the other cases are the pool
without shares, one of whose reserves is zero (`Sane.empty`), and the removal of
all shares.
-/

namespace Scoopdope.LiquidityPool

open Soroban

variable {Address : Type}

section Definitions

variable [DecidableEq Address]

/-- No reserve is negative, and a call on a seeded pool has positive reserves to
price against and never divides by zero. -/
structure ReserveSanity (s : Storage Address) : Prop where
  nonneg_a : 0 ≤ (reserveA s).val
  nonneg_b : 0 ≤ (reserveB s).val
  seeded : 0 < (totalLiquidity s).val → 0 < (reserveA s).val ∧ 0 < (reserveB s).val
  divides : 0 < (totalLiquidity s).val → ∀ i, exec s i ≠ .error .divisionByZero

/-- An authorised first provision of two negative amounts, above its minima,
whose product seeds a pool. -/
def NegativeSeed (s : Storage Address) (i : Env Address × Call Address) : Prop :=
  ∃ provider a b aMin bMin, i.2 = .addLiquidity provider a b aMin bMin ∧
    provider ∈ i.1.auths ∧ (totalLiquidity s).val = 0 ∧ a.val < 0 ∧ b.val < 0 ∧
    aMin.val ≤ a.val ∧ bMin.val ≤ b.val ∧ Seeds a b

end Definitions

/-- What a run without a negative seed keeps. -/
structure Sane (s : Storage Address) : Prop where
  config : s.poolConfig = some initialConfig
  nonneg_a : 0 ≤ (reserveA s).val
  nonneg_b : 0 ≤ (reserveB s).val
  seeded : 0 < (totalLiquidity s).val → 0 < (reserveA s).val ∧ 0 < (reserveB s).val
  empty : (totalLiquidity s).val = 0 → (reserveA s).val = 0 ∨ (reserveB s).val = 0

section Steps

variable {s s' : Storage Address} {env : Env Address}

theorem Sane.standardFee (hs : Sane s) : StandardFee s := ⟨initialConfig, hs.config, rfl, rfl⟩

theorem Sane.positive (hs : Sane s) (ht : 0 < (totalLiquidity s).val) : s.pool.Positive :=
  ⟨(hs.seeded ht).1, (hs.seeded ht).2, ht⟩

/-- A pool with positive reserves and shares. -/
theorem sane_of_positive (hc : s.poolConfig = some initialConfig) (hp : s.pool.Positive) :
    Sane s where
  config := hc
  nonneg_a := hp.a_pos.le
  nonneg_b := hp.b_pos.le
  seeded _ := ⟨hp.a_pos, hp.b_pos⟩
  empty ht := absurd ht hp.shares_pos.ne'

/-- A fair operation of a seeded pool. -/
theorem Sane.of_fair (hs : Sane s) (ht : 0 < (totalLiquidity s).val)
    (hc : s'.poolConfig = some initialConfig)
    (h : ∃ o, s.pool.Fair o ∧ s'.pool = s.pool.run o) : Sane s' := by
  obtain ⟨o, hfair, hrun⟩ := h
  refine sane_of_positive hc ?_
  rw [hrun]
  exact (hs.positive ht).run hfair

/-! ## No call divides by zero -/

theorem quote_ne_divisionByZero (amount reserveA reserveB : I128) :
    quote amount reserveA reserveB ≠ .error .divisionByZero := by
  refine bind_ne_error assert_ne_divisionByZero fun _ hpos => ?_
  have ha : 0 < reserveA.val := (assert_eq_ok.mp hpos).1
  exact BoundedInt.mulDiv_ne_divisionByZero ha.ne'

theorem depositAmounts_ne_divisionByZero (total reserveA reserveB aDesired bDesired aMin
    bMin : I128) : depositAmounts total reserveA reserveB aDesired bDesired aMin bMin ≠
      .error .divisionByZero := by
  unfold depositAmounts
  split
  · exact pure_ne_error
  · refine bind_ne_error (quote_ne_divisionByZero _ _ _) fun bOptimal _ => ?_
    split
    · exact bind_ne_error assert_ne_divisionByZero fun _ _ => pure_ne_error
    · refine bind_ne_error (quote_ne_divisionByZero _ _ _) fun aOptimal _ => ?_
      refine bind_ne_error assert_ne_divisionByZero fun _ _ => ?_
      exact bind_ne_error assert_ne_divisionByZero fun _ _ => pure_ne_error

theorem mintedLiquidity_ne_divisionByZero {total reserveA reserveB : I128} (amountA amountB : I128)
    (ht : total ≠ 0) (ha : 0 < reserveA.val) (hb : 0 < reserveB.val) :
    mintedLiquidity total reserveA reserveB amountA amountB ≠ .error .divisionByZero := by
  unfold mintedLiquidity
  rw [if_neg ht]
  refine bind_ne_error (BoundedInt.mulDiv_ne_divisionByZero ha.ne') fun _ _ => ?_
  refine bind_ne_error (BoundedInt.mulDiv_ne_divisionByZero hb.ne') fun _ _ => ?_
  exact pure_ne_error

theorem swapOutput_ne_divisionByZero {amountIn reserveIn reserveOut : I128}
    (hx : 0 < amountIn.val) (hin : 0 < reserveIn.val) :
    swapOutput initialConfig amountIn reserveIn reserveOut ≠ .error .divisionByZero := by
  refine bind_ne_error (BoundedInt.sub_ne_divisionByZero _ _) fun factor hfactor => ?_
  refine bind_ne_error (BoundedInt.mul_ne_divisionByZero _ _) fun net hnet => ?_
  refine bind_ne_error (BoundedInt.mul_ne_divisionByZero _ _) fun numerator _ => ?_
  refine bind_ne_error (BoundedInt.mul_ne_divisionByZero _ _) fun scaled hscaled => ?_
  refine bind_ne_error (BoundedInt.add_ne_divisionByZero _ _) fun denominator hdenominator => ?_
  refine BoundedInt.div_ne_divisionByZero ?_
  have hf : factor.val = 1000 - 3 := BoundedInt.sub_eq_ok.mp hfactor
  have hn : net.val = amountIn.val * factor.val := BoundedInt.mul_eq_ok.mp hnet
  have hsc : scaled.val = reserveIn.val * 1000 := BoundedInt.mul_eq_ok.mp hscaled
  have hd : denominator.val = scaled.val + net.val := BoundedInt.add_eq_ok.mp hdenominator
  rw [hf] at hn
  omega

theorem swapReserves_ne_divisionByZero (tokenIn : String) (reserveA reserveB : I128) :
    swapReserves tokenIn reserveA reserveB ≠ .error .divisionByZero := by
  unfold swapReserves
  split_ifs
  · exact pure_ne_error
  · exact pure_ne_error
  · exact nofun

theorem swapUpdate_ne_divisionByZero (tokenIn : String)
    (reserveA reserveB amountIn amountOut : I128) :
    swapUpdate s tokenIn reserveA reserveB amountIn amountOut ≠ .error .divisionByZero := by
  unfold swapUpdate
  split_ifs
  · refine bind_ne_error (BoundedInt.add_ne_divisionByZero _ _) fun _ _ => ?_
    exact bind_ne_error (BoundedInt.sub_ne_divisionByZero _ _) fun _ _ => pure_ne_error
  · refine bind_ne_error (BoundedInt.add_ne_divisionByZero _ _) fun _ _ => ?_
    exact bind_ne_error (BoundedInt.sub_ne_divisionByZero _ _) fun _ _ => pure_ne_error
  · exact pure_ne_error

variable [DecidableEq Address]

theorem Sane.addLiquidity_divides (hs : Sane s) (ht : 0 < (totalLiquidity s).val)
    (provider : Address) (aDesired bDesired aMin bMin : I128) :
    addLiquidity env s provider aDesired bDesired aMin bMin ≠ .error .divisionByZero := by
  obtain ⟨ha, hb⟩ := hs.seeded ht
  have hne : totalLiquidity s ≠ 0 := fun h => ht.ne' (congrArg BoundedInt.val h)
  refine bind_ne_error Env.requireAuth_ne_divisionByZero fun _ _ => ?_
  refine bind_ne_error unwrap_ne_divisionByZero fun config _ => ?_
  refine bind_ne_error assert_ne_divisionByZero fun _ _ => ?_
  refine bind_ne_error (depositAmounts_ne_divisionByZero _ _ _ _ _ _ _) fun amounts _ => ?_
  refine bind_ne_error assert_ne_divisionByZero fun _ _ => ?_
  refine bind_ne_error assert_ne_divisionByZero fun _ _ => ?_
  refine bind_ne_error (mintedLiquidity_ne_divisionByZero _ _ hne ha hb) fun minted _ => ?_
  refine bind_ne_error assert_ne_divisionByZero fun _ _ => ?_
  refine bind_ne_error (BoundedInt.add_ne_divisionByZero _ _) fun _ _ => ?_
  refine bind_ne_error (BoundedInt.add_ne_divisionByZero _ _) fun _ _ => ?_
  refine bind_ne_error (BoundedInt.add_ne_divisionByZero _ _) fun _ _ => ?_
  exact bind_ne_error (BoundedInt.add_ne_divisionByZero _ _) fun _ _ => pure_ne_error

theorem removeLiquidity_divides (ht : 0 < (totalLiquidity s).val) (provider : Address)
    (liquidity : I128) : removeLiquidity env s provider liquidity ≠ .error .divisionByZero := by
  refine bind_ne_error Env.requireAuth_ne_divisionByZero fun _ _ => ?_
  refine bind_ne_error unwrap_ne_divisionByZero fun config _ => ?_
  refine bind_ne_error assert_ne_divisionByZero fun _ _ => ?_
  refine bind_ne_error assert_ne_divisionByZero fun _ _ => ?_
  refine bind_ne_error (BoundedInt.mulDiv_ne_divisionByZero ht.ne') fun _ _ => ?_
  refine bind_ne_error (BoundedInt.mulDiv_ne_divisionByZero ht.ne') fun _ _ => ?_
  refine bind_ne_error assert_ne_divisionByZero fun _ _ => ?_
  refine bind_ne_error (BoundedInt.sub_ne_divisionByZero _ _) fun _ _ => ?_
  refine bind_ne_error (BoundedInt.sub_ne_divisionByZero _ _) fun _ _ => ?_
  refine bind_ne_error (BoundedInt.sub_ne_divisionByZero _ _) fun _ _ => ?_
  exact bind_ne_error (BoundedInt.sub_ne_divisionByZero _ _) fun _ _ => pure_ne_error

theorem Sane.swap_divides (hs : Sane s) (ht : 0 < (totalLiquidity s).val) (user : Address)
    (tokenIn : String) (amountIn amountOutMin : I128) :
    swap env s user tokenIn amountIn amountOutMin ≠ .error .divisionByZero := by
  obtain ⟨ha, hb⟩ := hs.seeded ht
  refine bind_ne_error Env.requireAuth_ne_divisionByZero fun _ _ => ?_
  refine bind_ne_error unwrap_ne_divisionByZero fun config hconfig => ?_
  rw [unwrap_eq_ok, hs.config] at hconfig
  cases hconfig
  refine bind_ne_error assert_ne_divisionByZero fun _ _ => ?_
  refine bind_ne_error assert_ne_divisionByZero fun _ hpos => ?_
  have hx : 0 < amountIn.val := assert_eq_ok.mp hpos
  refine bind_ne_error (swapReserves_ne_divisionByZero _ _ _) fun sides hsides => ?_
  obtain ⟨reserveIn, reserveOut⟩ := sides
  have hin : 0 < reserveIn.val := by
    rcases swapReserves_ok hsides with ⟨_, rfl, _⟩ | ⟨_, rfl, _⟩
    · exact ha
    · exact hb
  refine bind_ne_error (swapOutput_ne_divisionByZero hx hin) fun out _ => ?_
  refine bind_ne_error assert_ne_divisionByZero fun _ _ => ?_
  refine bind_ne_error assert_ne_divisionByZero fun _ _ => ?_
  refine bind_ne_error (swapUpdate_ne_divisionByZero _ _ _ _ _) fun _ _ => ?_
  refine bind_ne_error (BoundedInt.mulDiv_ne_divisionByZero (by decide)) fun _ _ => ?_
  exact bind_ne_error (BoundedInt.add_ne_divisionByZero _ _) fun _ _ => pure_ne_error

theorem claimMiningRewards_divides (user : Address) :
    claimMiningRewards env s user ≠ .error .divisionByZero := by
  refine bind_ne_error Env.requireAuth_ne_divisionByZero fun _ _ => ?_
  refine bind_ne_error unwrap_ne_divisionByZero fun config _ => ?_
  refine bind_ne_error assert_ne_divisionByZero fun _ _ => ?_
  dsimp only
  split
  · exact pure_ne_error
  · exact bind_ne_error (BoundedInt.mulDiv_ne_divisionByZero (by decide)) fun _ _ => pure_ne_error

/-- No call on a seeded pool divides by zero. -/
theorem Sane.divides (hs : Sane s) (ht : 0 < (totalLiquidity s).val)
    (i : Env Address × Call Address) : exec s i ≠ .error .divisionByZero := by
  obtain ⟨env, call⟩ := i
  cases call with
  | initializeContract admin bstToken feeCollector =>
    refine bind_ne_error assert_ne_divisionByZero fun _ _ => ?_
    exact bind_ne_error Env.requireAuth_ne_divisionByZero fun _ _ => pure_ne_error
  | addLiquidity provider aDesired bDesired aMin bMin =>
    exact map_snd_ne_error (hs.addLiquidity_divides ht provider aDesired bDesired aMin bMin)
  | removeLiquidity provider liquidity =>
    exact map_snd_ne_error (removeLiquidity_divides ht provider liquidity)
  | swap user tokenIn amountIn amountOutMin =>
    exact map_snd_ne_error (hs.swap_divides ht user tokenIn amountIn amountOutMin)
  | claimMiningRewards user => exact map_snd_ne_error (claimMiningRewards_divides user)

theorem Sane.reserveSanity (hs : Sane s) : ReserveSanity s :=
  ⟨hs.nonneg_a, hs.nonneg_b, hs.seeded, hs.divides⟩

/-! ## Accepted calls -/

/-- An accepted first provision that is no negative seed makes the pool positive. -/
theorem Sane.seed {provider : Address} {aDesired bDesired aMin bMin minted : I128} (hs : Sane s)
    (hempty : (totalLiquidity s).val = 0)
    (hg : ¬ NegativeSeed s (env, .addLiquidity provider aDesired bDesired aMin bMin))
    (h : addLiquidity env s provider aDesired bDesired aMin bMin = .ok (minted, s')) :
    Sane s' := by
  have hzero : totalLiquidity s = 0 := BoundedInt.ext hempty
  obtain ⟨hauth, hpos, _, a, b, ra, rb, t, v, _, _, _, hdeposit, hamin, hbmin, hm, hra, hrb, ht, _,
    rfl⟩ := addLiquidity_ok h
  rcases depositAmounts_ok hdeposit with ⟨_, rfl, rfl⟩ | ⟨hne, _⟩
  swap
  · exact absurd hzero hne
  rcases mintedLiquidity_ok hm hpos with ⟨_, hseeds⟩ | ⟨hne, _⟩
  swap
  · exact absurd hzero hne
  have hab : 0 < a.val ∧ 0 < b.val := by
    rcases pos_and_pos_or_neg_and_neg_of_mul_pos hseeds.product_pos with hpp | ⟨ha, hb⟩
    · exact hpp
    · exact absurd ⟨provider, a, b, aMin, bMin, rfl, hauth, hempty, ha, hb, hamin, hbmin, hseeds⟩ hg
  have hna := hs.nonneg_a
  have hnb := hs.nonneg_b
  refine sane_of_positive hs.config ⟨?_, ?_, ?_⟩
  · show 0 < ra.val
    omega
  · show 0 < rb.val
    omega
  · show 0 < t.val
    omega

/-- A swap on a pool without shares: one reserve is zero, and after it the other
one is, or it still is. -/
theorem swapOutput_empty {amountIn reserveIn reserveOut out : I128} (hx : 0 < amountIn.val)
    (hzero : reserveIn.val = 0 ∨ reserveOut.val = 0)
    (h : swapOutput initialConfig amountIn reserveIn reserveOut = .ok out) :
    out.val = reserveOut.val := by
  have hf : withFee initialConfig amountIn = amountIn.val * 997 := rfl
  have hden : (0 : Int) < amountIn.val * 997 := by omega
  rw [swapOutput_ok h, hf]
  rcases hzero with hz | hz
  · rw [hz, Int.zero_mul, Int.zero_add, Int.mul_tdiv_cancel_left _ hden.ne']
  · rw [hz, Int.mul_zero, Int.zero_tdiv]

theorem Sane.swap_empty {user : Address} {tokenIn : String} {amountIn amountOutMin out : I128}
    (hs : Sane s) (hempty : (totalLiquidity s).val = 0)
    (h : swap env s user tokenIn amountIn amountOutMin = .ok (out, s')) : Sane s' := by
  obtain ⟨_, hpos, _, config, rin, rout, hconfig, _, hsides, hout, _, ra, rb, _, _, hra, hrb,
    rfl⟩ := swap_ok h
  rw [hs.config] at hconfig
  cases hconfig
  have hna := hs.nonneg_a
  have hnb := hs.nonneg_b
  have hzero := hs.empty hempty
  have hnone : ¬ 0 < (totalLiquidity s).val := by omega
  rcases swapReserves_ok hsides with ⟨rfl, rfl, rfl⟩ | ⟨rfl, rfl, rfl⟩
  · have hall := swapOutput_empty hpos hzero hout
    have ha : ra.val = (reserveA s).val + amountIn.val := hra
    have hb : rb.val = (reserveB s).val + -out.val := hrb
    refine ⟨hs.config, ?_, ?_, fun ht => absurd ht hnone, fun _ => .inr ?_⟩
    · show 0 ≤ ra.val
      omega
    · show 0 ≤ rb.val
      omega
    · show rb.val = 0
      omega
  · have hall := swapOutput_empty hpos hzero.symm hout
    have ha : ra.val = (reserveA s).val + -out.val := hra
    have hb : rb.val = (reserveB s).val + amountIn.val := hrb
    refine ⟨hs.config, ?_, ?_, fun ht => absurd ht hnone, fun _ => .inl ?_⟩
    · show 0 ≤ ra.val
      omega
    · show 0 ≤ rb.val
      omega
    · show ra.val = 0
      omega

/-- Removing all shares takes all of both reserves. -/
theorem drain_takes_all {provider : Address} {liquidity : I128} {amounts : I128 × I128}
    (hempty : (totalLiquidity s').val = 0)
    (h : removeLiquidity env s provider liquidity = .ok (amounts, s')) :
    (reserveA s').val = 0 ∧ (reserveB s').val = 0 := by
  obtain ⟨_, _, hne, _, _, ha, hb, _, ra, rb, t, v, _, _, hra, hrb, ht, _, rfl⟩ :=
    removeLiquidity_ok h
  have hall : liquidity.val = (totalLiquidity s).val := by
    have : t.val = 0 := hempty
    omega
  rw [hall, Int.mul_tdiv_cancel_left _ hne] at ha hb
  constructor
  · show ra.val = 0
    omega
  · show rb.val = 0
    omega

theorem Sane.drain {provider : Address} {liquidity : I128} {amounts : I128 × I128}
    (hc : s'.poolConfig = some initialConfig) (hempty : (totalLiquidity s').val = 0)
    (h : removeLiquidity env s provider liquidity = .ok (amounts, s')) : Sane s' := by
  obtain ⟨ha, hb⟩ := drain_takes_all hempty h
  exact ⟨hc, ha.ge, hb.ge, fun ht => absurd ht (not_lt.mpr hempty.le), fun _ => .inl ha⟩

theorem Sane.config_step {i : Env Address × Call Address} (hs : Sane s) (h : exec s i = .ok s') :
    s'.poolConfig = some initialConfig := by
  rcases exec_poolConfig h with hconfig | hconfig
  · exact hconfig
  · exact hconfig.trans hs.config

/-- Every accepted call but a negative seed keeps the pool sane. -/
theorem Sane.step {i : Env Address × Call Address} (hacc : Accounted s) (hs : Sane s)
    (hg : ¬ NegativeSeed s i) (h : exec s i = .ok s') : Sane s' := by
  have hc := hs.config_step h
  have hn : 0 ≤ (totalLiquidity s).val := hacc.sound.supply_nonneg
  have hn' : 0 ≤ (totalLiquidity s').val := (hacc.step h).sound.supply_nonneg
  obtain ⟨env, call⟩ := i
  cases call with
  | initializeContract admin bstToken feeCollector =>
    obtain ⟨_, _, rfl⟩ := initializeContract_ok.mp h
    exact ⟨rfl, le_refl 0, le_refl 0, fun ht => absurd ht (lt_irrefl _), fun _ => .inl rfl⟩
  | addLiquidity provider aDesired bDesired aMin bMin =>
    obtain ⟨minted, h⟩ := map_snd_eq_ok.mp h
    rcases hn.eq_or_lt with hempty | ht
    · exact hs.seed hempty.symm hg h
    · exact hs.of_fair ht hc (addLiquidity_fair (hs.positive ht) h)
  | removeLiquidity provider liquidity =>
    obtain ⟨amounts, h⟩ := map_snd_eq_ok.mp h
    have hne : (totalLiquidity s).val ≠ 0 := (removeLiquidity_ok h).2.2.1
    have ht : 0 < (totalLiquidity s).val := lt_of_le_of_ne hn hne.symm
    rcases hn'.eq_or_lt with hdrained | hleft
    · exact Sane.drain hc hdrained.symm h
    · exact hs.of_fair ht hc (removeLiquidity_fair (hs.positive ht) h hleft)
  | swap user tokenIn amountIn amountOutMin =>
    obtain ⟨out, h⟩ := map_snd_eq_ok.mp h
    rcases hn.eq_or_lt with hempty | ht
    · exact hs.swap_empty hempty.symm h
    · obtain ⟨da, db, hfair, hrun⟩ := swap_fair hs.standardFee (hs.positive ht) h
      exact hs.of_fair ht hc ⟨.exchange da db, hfair, hrun⟩
  | claimMiningRewards user =>
    obtain ⟨rewards, h⟩ := map_snd_eq_ok.mp h
    obtain ⟨_, _, _, rfl⟩ := claimMiningRewards_ok h
    exact ⟨hs.config, hs.nonneg_a, hs.nonneg_b, hs.seeded, hs.empty⟩

/-- Nobody holds shares of a pool without shares. -/
theorem Accounted.amount_of_empty (hacc : Accounted s) (hempty : (totalLiquidity s).val = 0)
    (user : Address) : (s.liquidity.amount user).val = 0 := by
  have hle := hacc.sound.amount_le user
  have hnonneg := hacc.sound.amount_nonneg user
  omega

/-- A negative amount can be added to a reserve that is not negative. -/
theorem add_negative {x y : I128} (hx : 0 ≤ x.val) (hy : y.val < 0) :
    ∃ z, x.add y = .ok z ∧ z.val = x.val + y.val := by
  have hlo := y.lo_le
  have hhi := x.le_hi
  exact ⟨⟨x.val + y.val, by omega, by omega⟩, BoundedInt.add_eq_ok.mpr rfl, rfl⟩

/-- A negative seed is accepted, and makes a reserve negative. -/
theorem Sane.negativeSeed {i : Env Address × Call Address} (hacc : Accounted s) (hs : Sane s)
    (hseed : NegativeSeed s i) :
    ∃ s', exec s i = .ok s' ∧ ((reserveA s').val < 0 ∨ (reserveB s').val < 0) := by
  obtain ⟨env, call⟩ := i
  obtain ⟨provider, a, b, aMin, bMin, rfl, hauth, hempty, ha, hb, hamin, hbmin, hseeds⟩ := hseed
  have hzero : totalLiquidity s = 0 := BoundedInt.ext hempty
  obtain ⟨minted, hm, hpos⟩ := mintedLiquidity_seeds (reserveA s) (reserveB s) hseeds
  have huser := hacc.amount_of_empty hempty provider
  obtain ⟨ra, hra, hra'⟩ := add_negative hs.nonneg_a ha
  obtain ⟨rb, hrb, hrb'⟩ := add_negative hs.nonneg_b hb
  have hconfig : unwrap s.poolConfig = .ok initialConfig := unwrap_eq_ok.mpr hs.config
  have hdeposit : depositAmounts (totalLiquidity s) (reserveA s) (reserveB s) a b aMin bMin =
      .ok (a, b) := by
    rw [depositAmounts, if_pos hzero]
    rfl
  have ht : (totalLiquidity s).add minted = .ok minted := by
    rw [BoundedInt.add_eq_ok, hempty, Int.zero_add]
  have hv : (s.liquidity.amount provider).add minted = .ok minted := by
    rw [BoundedInt.add_eq_ok, huser, Int.zero_add]
  rw [← hzero] at hm
  have hok : ∃ p, addLiquidity env s provider a b aMin bMin = .ok (minted, p) ∧
      (reserveA p).val = ra.val ∧ (reserveB p).val = rb.val := by
    have hauth' : env.requireAuth provider = .ok () := Env.requireAuth_eq_ok.mpr hauth
    have henabled : assert (initialConfig.addLiquidityEnabled = true)
        "Adding liquidity is disabled" = .ok () := rfl
    have hamin' : assert (aMin ≤ a) "Insufficient A amount" = .ok () := assert_eq_ok.mpr hamin
    have hbmin' : assert (bMin ≤ b) "Insufficient B amount" = .ok () := assert_eq_ok.mpr hbmin
    have hpos' : assert (0 < minted) "Insufficient liquidity minted" = .ok () :=
      assert_eq_ok.mpr hpos
    simp only [addLiquidity, hauth', hconfig, henabled, hdeposit, hamin', hbmin', hm, hpos', hra,
      hrb, ht, hv, ok_bind]
    exact ⟨_, rfl, rfl, rfl⟩
  obtain ⟨s', hs', ha', hb'⟩ := hok
  refine ⟨s', map_snd_eq_ok.mpr ⟨minted, hs'⟩, ?_⟩
  rw [ha', hb', hra', hrb']
  rcases hs.empty hempty with hz | hz
  · exact .inl (by omega)
  · exact .inr (by omega)

end Steps

/-! ## Runs -/

variable [DecidableEq Address]

theorem Initialised.sane {s₀ : Storage Address} (h : Initialised s₀) : Sane s₀ := by
  obtain ⟨env, admin, bstToken, feeCollector, h⟩ := h
  obtain ⟨_, _, rfl⟩ := initializeContract_ok.mp h
  exact ⟨rfl, le_refl 0, le_refl 0, fun ht => absurd ht (lt_irrefl _), fun _ => .inl rfl⟩

theorem sane_after {s₀ : Storage Address} (h : Initialised s₀)
    (past : List (Env Address × Call Address))
    (hg : Guarded (fun earlier i => ¬ NegativeSeed (after exec s₀ earlier) i) past) :
    Sane (after exec s₀ past) := by
  refine after_history_guarded (P := fun _ s => Sane s) h.sane ?_ ?_ past hg
  · rintro past i s s' _ hgi rfl hs he
    exact hs.step (accounted_after h past) hgi he
  · rintro past i s t _ _ rfl hs _
    exact hs

/-- From `initialize`, the pool is sane in every storage of a run exactly when no
call of the run is a negative seed. -/
theorem reserves_sane_iff {s₀ : Storage Address} (h : Initialised s₀)
    (past : List (Env Address × Call Address)) :
    (∀ earlier, earlier <:+ past → ReserveSanity (after exec s₀ earlier)) ↔
      Guarded (fun earlier i => ¬ NegativeSeed (after exec s₀ earlier) i) past := by
  constructor
  · intro hall
    induction past with
    | nil => trivial
    | cons i past ih =>
      have hg := ih fun earlier he => hall earlier (he.trans (List.suffix_cons i past))
      refine ⟨fun hseed => ?_, hg⟩
      obtain ⟨s', he, hneg⟩ := (sane_after h past hg).negativeSeed (accounted_after h past) hseed
      have hlast := hall (i :: past) (List.suffix_refl _)
      rw [after, apply_ok he] at hlast
      have hna := hlast.nonneg_a
      have hnb := hlast.nonneg_b
      omega
  · intro hg earlier he
    exact (sane_after h earlier (hg.of_suffix he)).reserveSanity

/-- User 5 seeds the pool with 2000 and 8000, and user 6 swaps 100 BST. -/
def positiveSeedRun : List (Env Nat × Call Nat) :=
  [(exampleEnv 0 [6], .swap 6 "bst" (.lit 100) 0),
    (exampleEnv 0 [5], .addLiquidity 5 (.lit 2000) (.lit 8000) 0 0)]

theorem reserves_sane_positive_seed : ReserveSanity (after exec examplePool positiveSeedRun) := by
  have hrun := reserves_sane_iff examplePool_initialised positiveSeedRun
  refine hrun.mpr ⟨?_, ?_, trivial⟩ positiveSeedRun (List.suffix_refl _)
  · rintro ⟨_, _, _, _, _, hcall, _⟩
    cases hcall
  · rintro ⟨_, _, _, _, _, hcall, _, _, ha, _⟩
    cases hcall
    exact absurd ha (by decide)

/-- User 5 seeds the pool with -2000 and -2000. -/
def negativeSeedRun : List (Env Nat × Call Nat) :=
  [(exampleEnv 0 [5],
    .addLiquidity 5 (.lit (-2000)) (.lit (-2000)) (.lit (-2000)) (.lit (-2000)))]

/-- Both reserves are -2000 then. -/
theorem negative_seed_breaks :
    Initialised examplePool ∧ ¬ ReserveSanity (after exec examplePool negativeSeedRun) := by
  refine ⟨examplePool_initialised, fun h => ?_⟩
  have hneg : (reserveA (after exec examplePool negativeSeedRun)).val = -2000 := by
    decide +kernel
  have hnonneg := h.nonneg_a
  rw [hneg] at hnonneg
  exact absurd hnonneg (by decide)

end Scoopdope.LiquidityPool
