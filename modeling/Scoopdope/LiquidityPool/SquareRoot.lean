import Mathlib.Tactic.Linarith
import Mathlib.Tactic.Ring
import Scoopdope.LiquidityPool.Contract

/-!
# Liquidity pool: the square root

`sqrt` is Newton's iteration from above. The loop keeps `z` the next iterate
after `y` and `y` an upper bound of the root, so it stops at the root
(`sqrtLoop_spec`). `sqrt_root`: on its domain the function returns, without a
trap, the integer square root. `sqrt_ok`: only there is the result positive.
-/

namespace Scoopdope.LiquidityPool

open Soroban

/-- The next iterate is at least the integer square root. -/
theorem newton_lt {x y : Int} (hx : 0 ≤ x) (hy : 0 < y) : x < ((x / y + y) / 2 + 1) ^ 2 := by
  have hq : 0 ≤ x / y := Int.ediv_nonneg hx hy.le
  have hlt : x < (x / y + 1) * y := Int.lt_ediv_add_one_mul_self x hy
  generalize x / y = q at hq hlt ⊢
  have hhalf : q + y + 1 ≤ 2 * ((q + y) / 2 + 1) := by omega
  have hsq : (q + y + 1) ^ 2 ≤ (2 * ((q + y) / 2 + 1)) ^ 2 :=
    pow_le_pow_left₀ (by omega) hhalf 2
  have hmean : 4 * ((q + 1) * y) ≤ (q + y + 1) ^ 2 := by linarith [sq_nonneg (q + 1 - y)]
  linarith

/-- An iterate that does not fall is the integer square root. -/
theorem newton_stop {x y : Int} (hy : 0 < y) (h : y ≤ (x / y + y) / 2) : y * y ≤ x := by
  have hq : y ≤ x / y := by omega
  calc y * y ≤ x / y * y := mul_le_mul_of_nonneg_right hq hy.le
    _ ≤ x := Int.ediv_mul_le x hy.ne'

/-- What the loop keeps: `z` follows `y`, and the root is at most `y`. -/
structure Iterates (x z y : I128) : Prop where
  y_pos : 0 < y.val
  y_le : y.val ≤ x.val
  next : z.val = (x.val / y.val + y.val) / 2
  above : x.val < (y.val + 1) ^ 2

/-- `r` is the integer square root of `x`. -/
def IsRoot (x r : I128) : Prop :=
  0 ≤ r.val ∧ r.val * r.val ≤ x.val ∧ x.val < (r.val + 1) * (r.val + 1)

instance (x r : I128) : Decidable (IsRoot x r) := inferInstanceAs (Decidable (_ ∧ _))

theorem Iterates.z_pos {x z y : I128} (h : Iterates x z y) : 0 < z.val := by
  have hx : 0 < x.val := h.y_pos.trans_le h.y_le
  have hlt := newton_lt hx.le h.y_pos
  rw [← h.next] at hlt
  have hz : 0 ≤ z.val := by
    have hq := Int.ediv_nonneg hx.le h.y_pos.le
    have hnext := h.next
    have hy := h.y_pos
    omega
  by_contra hneg
  have hzero : z.val = 0 := by omega
  rw [hzero] at hlt
  omega

/-- A round of the loop that goes on does not trap, and keeps the invariant. -/
theorem Iterates.round {x z y : I128} (h : Iterates x z y)
    (hx : x.val ≤ 85070591730234615865843651857942052863) (hzy : z < y) :
    ∃ q sum z', x.div z = .ok q ∧ q.checkedAdd z = some sum ∧ sum.div (.lit 2) = .ok z' ∧
      Iterates x z' z := by
  have hzpos := h.z_pos
  have hzlt : z.val < y.val := hzy
  have hxpos : 0 < x.val := h.y_pos.trans_le h.y_le
  have hzx : z.val ≤ x.val := hzlt.le.trans h.y_le
  have hq0 : 0 ≤ x.val / z.val := Int.ediv_nonneg hxpos.le hzpos.le
  have hqx : x.val / z.val ≤ x.val := Int.ediv_le_self _ hxpos.le
  let q : I128 := ⟨x.val / z.val, by omega, by omega⟩
  let sum : I128 := ⟨x.val / z.val + z.val, by omega, by omega⟩
  let z' : I128 := ⟨(x.val / z.val + z.val) / 2, by omega, by omega⟩
  have habove := newton_lt hxpos.le h.y_pos
  rw [← h.next] at habove
  refine ⟨q, sum, z', ?_, ?_, ?_, hzpos, hzx, rfl, habove⟩
  · exact BoundedInt.div_eq_ok.mpr ⟨hzpos.ne', (Int.tdiv_eq_ediv_of_nonneg hxpos.le).symm⟩
  · exact BoundedInt.checkedAdd_eq_some.mpr rfl
  · refine BoundedInt.div_eq_ok.mpr ⟨by decide, ?_⟩
    rw [Int.tdiv_eq_ediv_of_nonneg (show 0 ≤ sum.val by show 0 ≤ x.val / z.val + z.val; omega)]
    rfl

/-- The loop ends at the integer square root. The induction follows the loop:
every round lowers `y`. -/
theorem sqrtLoop_spec {x z y : I128} (hx : x.val ≤ 85070591730234615865843651857942052863)
    (h : Iterates x z y) : ∃ r, sqrtLoop x z y = .ok r ∧ IsRoot x r := by
  rw [sqrtLoop]
  split
  · next hzy =>
    obtain ⟨q, sum, z', hq, hsum, hz', hnext⟩ := h.round hx hzy
    have hzlt : z.val < y.val := hzy
    have hlo := z.lo_le
    obtain ⟨r, hr, hroot⟩ := sqrtLoop_spec hx hnext
    refine ⟨r, ?_, hroot⟩
    rw [hq, ok_bind, hsum, expect, ok_bind, hz', ok_bind, hr]
  · next hzy =>
    have hyz : y.val ≤ z.val := not_lt.mp hzy
    rw [h.next] at hyz
    refine ⟨y, rfl, h.y_pos.le, newton_stop h.y_pos hyz, ?_⟩
    rw [← sq]
    exact h.above
termination_by (y.val - -170141183460469231731687303715884105728).toNat
decreasing_by omega

/-- From 0 to half the greatest number, `sqrt` returns the integer square root. -/
theorem sqrt_root {x : I128} (h0 : 0 ≤ x.val)
    (hx : x.val ≤ 85070591730234615865843651857942052863) :
    ∃ r, sqrt x = .ok r ∧ IsRoot x r := by
  unfold sqrt
  split
  · next h =>
    rcases h with rfl | rfl
    · exact ⟨0, rfl, by decide⟩
    · exact ⟨.lit 1, rfl, by decide⟩
  · next h =>
    have hx2 : 2 ≤ x.val := by
      by_contra hlt
      have h01 : x.val = 0 ∨ x.val = 1 := by omega
      refine h (h01.imp ?_ ?_)
      · intro he
        ext
        exact he
      · intro he
        ext
        exact he
    let next : I128 := ⟨x.val + 1, by omega, by omega⟩
    let z : I128 := ⟨(x.val + 1) / 2, by omega, by omega⟩
    have hnext : x.add (.lit 1) = .ok next := BoundedInt.add_eq_ok.mpr rfl
    have hz : next.div (.lit 2) = .ok z :=
      BoundedInt.div_eq_ok.mpr ⟨by decide, (Int.tdiv_eq_ediv_of_nonneg (by omega)).symm⟩
    have hstart : Iterates x z x := by
      refine ⟨by omega, le_refl _, ?_, by linarith [sq_nonneg x.val]⟩
      show (x.val + 1) / 2 = (x.val / x.val + x.val) / 2
      rw [Int.ediv_self (by omega), Int.add_comm]
    obtain ⟨r, hr, hroot⟩ := sqrtLoop_spec hx hstart
    refine ⟨r, ?_, hroot⟩
    simp only [bind_eq_ok, assert_eq_ok, exists_const]
    exact ⟨hx, next, hnext, z, hz, hr⟩

/-- There is only one. -/
theorem IsRoot.unique {x r r' : I128} (h : IsRoot x r) (h' : IsRoot x r') : r = r' := by
  have hbelow : ∀ {q q' : I128}, IsRoot x q → IsRoot x q' → q.val ≤ q'.val := by
    intro q q' hq hq'
    by_contra hlt
    have hsq : (q'.val + 1) * (q'.val + 1) ≤ q.val * q.val :=
      mul_self_le_mul_self (by have := hq'.1; omega) (by omega)
    exact absurd (hq'.2.2.trans_le (hsq.trans hq.2.1)) (lt_irrefl _)
  exact BoundedInt.ext (le_antisymm (hbelow h h') (hbelow h' h))

/-- From 0 to half of `i128::MAX` the function returns, without a trap, the one number whose
square, and the next square, enclose `x`. -/
theorem sqrt_returns_the_root (x : I128) (h0 : 0 ≤ x.val)
    (hx : x.val ≤ 170141183460469231731687303715884105727 / 2) :
    ∃ y, sqrt x = .ok y ∧
      (0 ≤ y.val ∧ y.val * y.val ≤ x.val ∧ x.val < (y.val + 1) * (y.val + 1)) ∧
      ∀ y', IsRoot x y' → y' = y := by
  obtain ⟨y, hy, hroot⟩ := sqrt_root h0 hx
  exact ⟨y, hy, hroot, fun y' hroot' => hroot'.unique hroot⟩

theorem sqrt_returns_the_root_of_ten :
    ∃ y, sqrt (.lit 10) = .ok y ∧ y.val * y.val ≤ 10 ∧ 10 < (y.val + 1) * (y.val + 1) := by
  obtain ⟨y, hy, ⟨_, hle, hlt⟩, _⟩ := sqrt_returns_the_root (.lit 10) (by decide) (by decide)
  exact ⟨y, hy, hle, hlt⟩

theorem le_tdiv_two {x : Int} (hx : x ≤ 0) : x ≤ (x + 1).tdiv 2 := by
  rw [Int.tdiv_eq_ediv]
  split
  · omega
  · show x ≤ (x + 1) / 2 + 1
    omega

/-- The square root is positive only of a positive number. -/
theorem sqrt_pos {x r : I128} (h : sqrt x = .ok r) (hr : 0 < r.val) : 0 < x.val := by
  unfold sqrt at h
  split at h
  · cases pure_eq_ok.mp h
    exact hr
  · simp only [bind_eq_ok, assert_eq_ok, exists_const, BoundedInt.add_eq_ok,
      BoundedInt.div_eq_ok, BoundedInt.lit_val] at h
    obtain ⟨_, next, hnext, z, ⟨_, hz⟩, hloop⟩ := h
    by_contra hx
    -- a negative number starts the loop with `x ≤ z`, so it is returned as it is
    have hge : ¬ z < x := by
      rw [BoundedInt.lt_def, hz, hnext, not_lt]
      exact le_tdiv_two (not_lt.mp hx)
    rw [sqrtLoop, if_neg hge] at hloop
    cases pure_eq_ok.mp hloop
    exact hx hr

/-- A positive result is the integer square root of a number in the domain. -/
theorem sqrt_ok {x r : I128} (h : sqrt x = .ok r) (hr : 0 < r.val) :
    x.val ≤ 85070591730234615865843651857942052863 ∧ IsRoot x r := by
  have hx : 0 < x.val := sqrt_pos h hr
  have hhalf : x.val ≤ 85070591730234615865843651857942052863 := by
    unfold sqrt at h
    split at h
    · next h01 =>
      rcases h01 with rfl | rfl
      · decide
      · decide
    · simp only [bind_eq_ok, assert_eq_ok, exists_const] at h
      exact h.1
  obtain ⟨r', hr', hroot⟩ := sqrt_root hx.le hhalf
  rw [hr'] at h
  cases h
  exact ⟨hhalf, hroot⟩

end Scoopdope.LiquidityPool
