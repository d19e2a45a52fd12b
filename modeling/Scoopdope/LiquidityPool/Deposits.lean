import Scoopdope.LiquidityPool.ShareValue
import Scoopdope.Market.Proportions

/-!
# Liquidity pool: deposits at the ratio of the reserves

A seeded pool takes all that is desired of one token, and of the other what matches it at the
ratio of the reserves, rounded down (`atRatio`). `liquidity_added_at_ratio`: what a deposit takes
and mints, and that it is refused only where it does not meet a minimum or mints nothing.
-/

namespace Scoopdope.LiquidityPool

open Soroban ProportionalSplit

variable {Address : Type}

/-! ## The ratio -/

/-- All of one amount, and the part of the other that matches it. -/
def atRatio (reserveA reserveB aDesired bDesired : ℤ) : ℤ × ℤ :=
  if part aDesired reserveA reserveB ≤ bDesired then (aDesired, part aDesired reserveA reserveB)
  else (part bDesired reserveB reserveA, bDesired)

section Ratio

variable {reserveA reserveB aDesired bDesired : ℤ}

theorem atRatio_eq_desired : (atRatio reserveA reserveB aDesired bDesired).1 = aDesired ∨
    (atRatio reserveA reserveB aDesired bDesired).2 = bDesired := by
  unfold atRatio
  split
  · exact .inl rfl
  · exact .inr rfl

variable (ha : 0 < reserveA) (hb : 0 < reserveB) (hx : 0 ≤ aDesired) (hy : 0 ≤ bDesired)

include ha hb hx

theorem atRatio_le : (atRatio reserveA reserveB aDesired bDesired).1 ≤ aDesired ∧
    (atRatio reserveA reserveB aDesired bDesired).2 ≤ bDesired := by
  unfold atRatio
  split
  · next hle => exact ⟨le_rfl, hle⟩
  · next hgt => exact ⟨part_le_of_le_part hx ha.le hb (not_le.mp hgt).le, le_rfl⟩

include hy

theorem atRatio_nonneg : 0 ≤ (atRatio reserveA reserveB aDesired bDesired).1 ∧
    0 ≤ (atRatio reserveA reserveB aDesired bDesired).2 := by
  unfold atRatio
  split
  · exact ⟨hx, part_nonneg hx ha.le hb.le⟩
  · exact ⟨part_nonneg hy hb.le ha.le, hy⟩

end Ratio

/-- The shares minted for two amounts: the smaller part of the shares there are. -/
def sharesFor (total reserveA reserveB a b : ℤ) : ℤ :=
  min (part a reserveA total) (part b reserveB total)

/-! ## One deposit -/

def Fits (x : ℤ) : Prop := ∃ c : I128, c.val = x

section Quote

variable {reserveA reserveB amount : I128}

theorem exists_quotient {x y : ℤ} (hx : 0 ≤ x) (hy : 0 ≤ y) (hfits : Fits x) : Fits (x.tdiv y) := by
  obtain ⟨c, rfl⟩ := hfits
  have hle := Int.tdiv_le_self y hx
  have hnonneg := Int.tdiv_nonneg hx hy
  have hhi := c.le_hi
  exact ⟨⟨c.val.tdiv y, by omega, by omega⟩, rfl⟩

theorem quote_eq_ok (ha : 0 < reserveA.val) (hb : 0 < reserveB.val) {q : I128} :
    quote amount reserveA reserveB = .ok q ↔
      Fits (amount.val * reserveB.val) ∧ q.val = part amount.val reserveA.val reserveB.val := by
  simp only [quote, bind_eq_ok, assert_eq_ok, exists_const, BoundedInt.mulDiv_eq_ok, part, Fits]
  constructor
  · rintro ⟨-, hfits, -, hq⟩
    exact ⟨hfits, hq⟩
  · rintro ⟨hfits, hq⟩
    exact ⟨⟨ha, hb⟩, hfits, ha.ne', hq⟩

end Quote

section Deposit

variable {total reserveA reserveB aDesired bDesired aMin bMin a b m : I128}
  (ht : total ≠ 0) (ha : 0 < reserveA.val) (hb : 0 < reserveB.val)

include ht ha hb

theorem depositAmounts_taken
    (h : depositAmounts total reserveA reserveB aDesired bDesired aMin bMin = .ok (a, b)) :
    (a.val, b.val) = atRatio reserveA.val reserveB.val aDesired.val bDesired.val := by
  rw [depositAmounts, if_neg ht] at h
  obtain ⟨bOptimal, hquote, h⟩ := bind_eq_ok.mp h
  obtain ⟨-, hbOptimal⟩ := (quote_eq_ok ha hb).mp hquote
  unfold atRatio
  rw [← hbOptimal]
  split at h
  · next hle =>
    rw [if_pos (BoundedInt.le_def.mp hle)]
    simp only [bind_eq_ok, pure_eq_ok, Prod.mk.injEq] at h
    obtain ⟨_, _, rfl, rfl⟩ := h
    rfl
  · next hgt =>
    rw [if_neg fun hle => hgt (BoundedInt.le_def.mpr hle)]
    obtain ⟨aOptimal, hquote', h⟩ := bind_eq_ok.mp h
    obtain ⟨-, haOptimal⟩ := (quote_eq_ok hb ha).mp hquote'
    simp only [bind_eq_ok, pure_eq_ok, Prod.mk.injEq] at h
    obtain ⟨_, _, _, _, rfl, rfl⟩ := h
    rw [haOptimal]

/-- The amounts are determined wherever the products fit and the minima are met. -/
theorem depositAmounts_succeeds (hx : 0 ≤ aDesired.val) (hy : 0 ≤ bDesired.val)
    (hquote : Fits (aDesired.val * reserveB.val))
    (hquote' : ¬ part aDesired.val reserveA.val reserveB.val ≤ bDesired.val →
      Fits (bDesired.val * reserveA.val))
    (hmin : aMin.val ≤ (atRatio reserveA.val reserveB.val aDesired.val bDesired.val).1)
    (hmin' : bMin.val ≤ (atRatio reserveA.val reserveB.val aDesired.val bDesired.val).2) :
    ∃ a b, depositAmounts total reserveA reserveB aDesired bDesired aMin bMin = .ok (a, b) ∧
      (a.val, b.val) = atRatio reserveA.val reserveB.val aDesired.val bDesired.val := by
  obtain ⟨bOptimal, hbOptimal⟩ :=
    exists_quotient (Int.mul_nonneg hx hb.le) ha.le hquote
  have hok : quote aDesired reserveA reserveB = .ok bOptimal :=
    (quote_eq_ok ha hb).mpr ⟨hquote, hbOptimal⟩
  have hbOptimal' : bOptimal.val = part aDesired.val reserveA.val reserveB.val := hbOptimal
  rw [depositAmounts, if_neg ht, hok, ok_bind]
  unfold atRatio at hmin hmin' ⊢
  rw [← hbOptimal'] at hmin hmin' hquote' ⊢
  by_cases hle : bOptimal.val ≤ bDesired.val
  · rw [if_pos hle] at hmin'
    rw [if_pos (BoundedInt.le_def.mpr hle), if_pos hle]
    refine ⟨aDesired, bOptimal, ?_, rfl⟩
    simp only [bind_eq_ok, assert_eq_ok, pure_eq_ok, exists_const, and_true]
    exact hmin'
  · rw [if_neg hle] at hmin
    rw [if_neg fun h => hle (BoundedInt.le_def.mp h), if_neg hle]
    obtain ⟨aOptimal, haOptimal⟩ :=
      exists_quotient (Int.mul_nonneg hy ha.le) hb.le (hquote' hle)
    have haOptimal' : aOptimal.val = part bDesired.val reserveB.val reserveA.val := haOptimal
    have hok' : quote bDesired reserveB reserveA = .ok aOptimal :=
      (quote_eq_ok hb ha).mpr ⟨hquote' hle, haOptimal⟩
    -- The first of the two assertions holds of every rounded amount.
    have hle' : aOptimal.val ≤ aDesired.val := by
      rw [haOptimal']
      exact part_le_of_le_part hx ha.le hb (hbOptimal' ▸ (not_le.mp hle).le)
    rw [hok', ok_bind]
    refine ⟨aOptimal, bDesired, ?_, by rw [haOptimal']⟩
    simp only [bind_eq_ok, assert_eq_ok, pure_eq_ok, exists_const, and_true]
    refine ⟨hle', ?_⟩
    show aMin.val ≤ aOptimal.val
    rw [haOptimal']
    exact hmin

theorem mintedLiquidity_eq_ok (hx : 0 ≤ a.val) (hy : 0 ≤ b.val) (htotal : 0 ≤ total.val) :
    mintedLiquidity total reserveA reserveB a b = .ok m ↔
      Fits (a.val * total.val) ∧ Fits (b.val * total.val) ∧
        m.val = sharesFor total.val reserveA.val reserveB.val a.val b.val := by
  rw [mintedLiquidity, if_neg ht]
  simp only [bind_eq_ok, BoundedInt.mulDiv_eq_ok, pure_eq_ok, sharesFor, part]
  constructor
  · rintro ⟨ma, ⟨hfits, -, hma⟩, mb, ⟨hfits', -, hmb⟩, rfl⟩
    refine ⟨hfits, hfits', ?_⟩
    rw [BoundedInt.min_val, hma, hmb]
  · rintro ⟨hfits, hfits', hm⟩
    obtain ⟨ma, hma⟩ := exists_quotient (Int.mul_nonneg hx htotal) ha.le hfits
    obtain ⟨mb, hmb⟩ := exists_quotient (Int.mul_nonneg hy htotal) hb.le hfits'
    refine ⟨ma, ⟨hfits, ha.ne', hma⟩, mb, ⟨hfits', hb.ne', hmb⟩, BoundedInt.ext ?_⟩
    rw [BoundedInt.min_val, hma, hmb, hm]

end Deposit

/-! ## Calls of add_liquidity -/

variable [DecidableEq Address] {env : Env Address} {s s' : Storage Address} {provider : Address}
  {aDesired bDesired aMin bMin : I128}

/-- The amounts that the pool takes of what is desired. -/
def taken (s : Storage Address) (aDesired bDesired : I128) : ℤ × ℤ :=
  atRatio (reserveA s).val (reserveB s).val aDesired.val bDesired.val

/-- The shares that the pool mints for them. -/
def sharesOf (s : Storage Address) (aDesired bDesired : I128) : ℤ :=
  sharesFor (totalLiquidity s).val (reserveA s).val (reserveB s).val
    (taken s aDesired bDesired).1 (taken s aDesired bDesired).2

def AddingEnabled (s : Storage Address) : Prop :=
  ∃ config, s.poolConfig = some config ∧ config.addLiquidityEnabled = true

structure Seeded (s : Storage Address) : Prop where
  total : 0 < (totalLiquidity s).val
  reserveA : 0 < (reserveA s).val
  reserveB : 0 < (reserveB s).val

/-- Every number that the call computes fits in an `i128`. -/
structure NoOverflow (s : Storage Address) (provider : Address) (aDesired bDesired : I128) :
    Prop where
  quoteB : Fits (aDesired.val * (reserveB s).val)
  quoteA : ¬ part aDesired.val (reserveA s).val (reserveB s).val ≤ bDesired.val →
    Fits (bDesired.val * (reserveA s).val)
  sharesA : Fits ((taken s aDesired bDesired).1 * (totalLiquidity s).val)
  sharesB : Fits ((taken s aDesired bDesired).2 * (totalLiquidity s).val)
  reserveA : Fits ((reserveA s).val + (taken s aDesired bDesired).1)
  reserveB : Fits ((reserveB s).val + (taken s aDesired bDesired).2)
  total : Fits ((totalLiquidity s).val + sharesOf s aDesired bDesired)
  user : Fits ((getUserLiquidity s provider).val + sharesOf s aDesired bDesired)

/-- What an accepted call has taken and minted. -/
structure AtRatio (s s' : Storage Address) (aDesired bDesired aMin bMin minted : I128) (a b : ℤ) :
    Prop where
  reserveA : (reserveA s').val = (reserveA s).val + a
  reserveB : (reserveB s').val = (reserveB s).val + b
  minA : aMin.val ≤ a
  leA : a ≤ aDesired.val
  minB : bMin.val ≤ b
  leB : b ≤ bDesired.val
  desired : a = aDesired.val ∨ b = bDesired.val
  sharesA : minted.val * (LiquidityPool.reserveA s).val ≤ a * (totalLiquidity s).val
  sharesB : minted.val * (LiquidityPool.reserveB s).val ≤ b * (totalLiquidity s).val

section Call

variable (hs : Seeded s) (hx : 0 ≤ aDesired.val) (hy : 0 ≤ bDesired.val)

include hs

omit [DecidableEq Address] in
theorem Seeded.total_ne : totalLiquidity s ≠ 0 := by
  intro hzero
  have hpos := hs.total
  rw [hzero] at hpos
  exact lt_irrefl _ hpos

include hx hy

theorem addLiquidity_atRatio {minted : I128}
    (h : addLiquidity env s provider aDesired bDesired aMin bMin = .ok (minted, s')) :
    AtRatio s s' aDesired bDesired aMin bMin minted (taken s aDesired bDesired).1
      (taken s aDesired bDesired).2 ∧ minted.val = sharesOf s aDesired bDesired := by
  obtain ⟨_, _, config, a, b, ra, rb, t, v, _, _, _, hab, hamin, hbmin, hm, hra, hrb, _, _, rfl⟩ :=
    addLiquidity_ok h
  have htaken := depositAmounts_taken hs.total_ne hs.reserveA hs.reserveB hab
  have ha : a.val = (taken s aDesired bDesired).1 := congrArg Prod.fst htaken
  have hb : b.val = (taken s aDesired bDesired).2 := congrArg Prod.snd htaken
  obtain ⟨hle, hle'⟩ : (taken s aDesired bDesired).1 ≤ aDesired.val ∧
      (taken s aDesired bDesired).2 ≤ bDesired.val := atRatio_le hs.reserveA hs.reserveB hx
  obtain ⟨hnonneg, hnonneg'⟩ := atRatio_nonneg hs.reserveA hs.reserveB hx hy
  obtain ⟨-, -, hminted⟩ := (mintedLiquidity_eq_ok hs.total_ne hs.reserveA hs.reserveB
    (ha ▸ hnonneg) (hb ▸ hnonneg') hs.total.le).mp hm
  rw [ha, hb] at hminted
  refine ⟨⟨ha ▸ hra, hb ▸ hrb, ha ▸ hamin, hle, hb ▸ hbmin, hle', atRatio_eq_desired, ?_, ?_⟩,
    hminted⟩
  · calc minted.val * (reserveA s).val
        ≤ part (taken s aDesired bDesired).1 (reserveA s).val (totalLiquidity s).val *
          (reserveA s).val :=
        Int.mul_le_mul_of_nonneg_right (hminted.trans_le (min_le_left _ _)) hs.reserveA.le
      _ ≤ _ := part_mul_le hnonneg hs.total.le
  · calc minted.val * (reserveB s).val
        ≤ part (taken s aDesired bDesired).2 (reserveB s).val (totalLiquidity s).val *
          (reserveB s).val :=
        Int.mul_le_mul_of_nonneg_right (hminted.trans_le (min_le_right _ _)) hs.reserveB.le
      _ ≤ _ := part_mul_le hnonneg' hs.total.le

theorem addLiquidity_succeeds (hauth : provider ∈ env.auths) (henabled : AddingEnabled s)
    (hfits : NoOverflow s provider aDesired bDesired)
    (hmin : aMin.val ≤ (taken s aDesired bDesired).1)
    (hmin' : bMin.val ≤ (taken s aDesired bDesired).2)
    (hshares : 1 ≤ sharesOf s aDesired bDesired) :
    ∃ minted s', addLiquidity env s provider aDesired bDesired aMin bMin = .ok (minted, s') := by
  obtain ⟨config, hconfig, henabled⟩ := henabled
  obtain ⟨a, b, hab, htaken⟩ := depositAmounts_succeeds hs.total_ne hs.reserveA hs.reserveB hx hy
    hfits.quoteB hfits.quoteA hmin hmin'
  have ha : a.val = (taken s aDesired bDesired).1 := congrArg Prod.fst htaken
  have hb : b.val = (taken s aDesired bDesired).2 := congrArg Prod.snd htaken
  obtain ⟨hnonneg, hnonneg'⟩ := atRatio_nonneg hs.reserveA hs.reserveB hx hy
  obtain ⟨ra, hra⟩ := hfits.reserveA
  obtain ⟨rb, hrb⟩ := hfits.reserveB
  obtain ⟨t, ht⟩ := hfits.total
  obtain ⟨v, hv⟩ := hfits.user
  have hminted : Fits (sharesOf s aDesired bDesired) := by
    have hpos := hs.total
    have hhi := t.le_hi
    exact ⟨⟨sharesOf s aDesired bDesired, by omega, by omega⟩, rfl⟩
  obtain ⟨minted, hminted⟩ := hminted
  have hm := (mintedLiquidity_eq_ok hs.total_ne hs.reserveA hs.reserveB (ha ▸ hnonneg)
    (hb ▸ hnonneg') hs.total.le).mpr
      ⟨ha ▸ hfits.sharesA, hb ▸ hfits.sharesB, by rw [hminted, ha, hb]; rfl⟩
  have hpos : 0 < minted := by
    show 0 < minted.val
    omega
  simp only [addLiquidity, bind_eq_ok, assert_eq_ok, unwrap_eq_ok, Env.requireAuth_eq_ok,
    pure_eq_ok, exists_const, BoundedInt.add_eq_ok, Prod.mk.injEq, Prod.exists]
  refine ⟨minted, _, hauth, config, hconfig, henabled, a, b, hab, ?_, ?_, minted, hm, hpos, ra, ?_,
    rb, ?_, t, ?_, v, ?_, rfl, rfl⟩
  · exact BoundedInt.le_def.mpr (ha ▸ hmin)
  · exact BoundedInt.le_def.mpr (hb ▸ hmin')
  · rw [hra, ha]
  · rw [hrb, hb]
  · rw [ht, hminted]
  · rw [hv, hminted]
    rfl

end Call

/-- The configuration of a pool is the one `initialize` writes, in which adding is enabled. -/
theorem addingEnabled_after {s₀ : Storage Address} (h : Initialised s₀)
    (past : List (Env Address × Call Address)) : AddingEnabled (after exec s₀ past) := by
  have hconfig : (after exec s₀ past).poolConfig = some initialConfig := by
    refine after_invariant
      (P := fun s : Storage Address => s.poolConfig = some initialConfig) ?_ ?_ past
    · obtain ⟨env, admin, bstToken, feeCollector, h⟩ := h
      obtain ⟨_, _, rfl⟩ := initializeContract_ok.mp h
      rfl
    · intro s i s' hs he
      rcases exec_poolConfig he with hinitial | hsame
      · exact hinitial
      · exact hsame.trans hs
  exact ⟨initialConfig, hconfig, rfl⟩

/-- In a seeded pool, for amounts that are not negative: the rounded amount of token A is never
more than desired; an accepted deposit is at the ratio; and a call without overflow is refused
only without authority, where adding is disabled, below a minimum, or if it mints nothing. Adding
is never disabled in a pool that was initialised. -/
theorem liquidity_added_at_ratio (hs : Seeded s) (hx : 0 ≤ aDesired.val) (hy : 0 ≤ bDesired.val) :
    (∀ bOptimal aOptimal, quote aDesired (reserveA s) (reserveB s) = .ok bOptimal →
      ¬ bOptimal ≤ bDesired → quote bDesired (reserveB s) (reserveA s) = .ok aOptimal →
      aOptimal ≤ aDesired) ∧
    (∀ minted s', addLiquidity env s provider aDesired bDesired aMin bMin = .ok (minted, s') →
      AtRatio s s' aDesired bDesired aMin bMin minted (taken s aDesired bDesired).1
        (taken s aDesired bDesired).2) ∧
    (NoOverflow s provider aDesired bDesired →
      ((∃ minted s', addLiquidity env s provider aDesired bDesired aMin bMin = .ok (minted, s')) ↔
        provider ∈ env.auths ∧ AddingEnabled s ∧ aMin.val ≤ (taken s aDesired bDesired).1 ∧
          bMin.val ≤ (taken s aDesired bDesired).2 ∧ 1 ≤ sharesOf s aDesired bDesired)) ∧
    ∀ s₀ past, Initialised s₀ → s = after exec s₀ past → AddingEnabled s := by
  refine ⟨?_, fun minted s' h => (addLiquidity_atRatio hs hx hy h).1, fun hfits => ⟨?_, ?_⟩, ?_⟩
  · intro bOptimal aOptimal hquote hgt hquote'
    obtain ⟨-, hb⟩ := (quote_eq_ok hs.reserveA hs.reserveB).mp hquote
    obtain ⟨-, ha⟩ := (quote_eq_ok hs.reserveB hs.reserveA).mp hquote'
    have hlt : bDesired.val < bOptimal.val := not_le.mp hgt
    rw [BoundedInt.le_def, ha]
    exact part_le_of_le_part hx hs.reserveA.le hs.reserveB (hb ▸ hlt.le)
  · rintro ⟨minted, s', h⟩
    obtain ⟨hratio, hminted⟩ := addLiquidity_atRatio hs hx hy h
    obtain ⟨hauth, hpos, config, _, _, _, _, _, _, _, hconfig, henabled, _⟩ := addLiquidity_ok h
    rw [← hminted]
    exact ⟨hauth, ⟨config, hconfig, henabled⟩, hratio.minA, hratio.minB, hpos⟩
  · rintro ⟨hauth, henabled, hmin, hmin', hshares⟩
    exact addLiquidity_succeeds hs hx hy hauth henabled hfits hmin hmin' hshares
  · rintro s₀ past h rfl
    exact addingEnabled_after h past

/-- Of 100 and 1000 desired, a pool of 2000 and 8000 takes 100 and 400, for 150 of 3000 shares. -/
theorem liquidity_added_at_ratio_seeded :
    ∃ minted s', addLiquidity (exampleEnv 0 [6]) seededPool 6 (.lit 100) (.lit 1000) (.lit 90)
      (.lit 300) = .ok (minted, s') := by
  have hs : Seeded seededPool := ⟨by decide, by decide, by decide⟩
  have hfits : NoOverflow seededPool 6 (.lit 100) (.lit 1000) :=
    ⟨⟨.lit 800000, by decide⟩, fun _ => ⟨.lit 2000000, by decide⟩, ⟨.lit 300000, by decide⟩,
      ⟨.lit 1200000, by decide⟩, ⟨.lit 2100, by decide⟩, ⟨.lit 8400, by decide⟩,
      ⟨.lit 3150, by decide⟩, ⟨.lit 150, by decide⟩⟩
  have hx : 0 ≤ (.lit 100 : I128).val := by decide
  have hy : 0 ≤ (.lit 1000 : I128).val := by decide
  obtain ⟨-, -, hiff, -⟩ := liquidity_added_at_ratio hs hx hy
  exact (hiff hfits).mpr
    ⟨by decide, ⟨initialConfig, rfl, rfl⟩, by decide, by decide, by decide⟩

end Scoopdope.LiquidityPool
