import Mathlib.Algebra.BigOperators.Group.List.Basic
import Mathlib.Algebra.Order.Group.MinMax
import Mathlib.Algebra.Order.Ring.Int
import Mathlib.Tactic.Ring

/-!
# Accrual in whole periods

An amount that accrues by `rate` for every whole period of a time. A time that is split
in two accrues less than the whole when what the two parts leave over of a period makes
up one (`accrued_add`). An amount that is subtracted from a value with a lower bound may
be subtracted in steps (`floor_sub_sub`), and the last step can be left out exactly when
it is nothing or the bound was reached (`floor_sub_eq_iff`).
-/

namespace PeriodicAccrual

variable {rate interval : ℤ}

/-- What accrues in a time of length `elapsed`. -/
def accrued (rate interval elapsed : ℤ) : ℤ := rate * (elapsed / interval)

theorem accrued_nonneg (hrate : 0 ≤ rate) (hinterval : 0 ≤ interval) {elapsed : ℤ}
    (helapsed : 0 ≤ elapsed) : 0 ≤ accrued rate interval elapsed :=
  Int.mul_nonneg hrate (Int.ediv_nonneg helapsed hinterval)

/-- Something has accrued exactly when a period is over. -/
theorem accrued_pos_iff (hrate : 0 < rate) (hinterval : 0 < interval) {elapsed : ℤ} :
    0 < accrued rate interval elapsed ↔ interval ≤ elapsed := by
  rw [accrued, mul_pos_iff_of_pos_left hrate, Int.lt_iff_add_one_le, Int.zero_add,
    Int.le_ediv_iff_mul_le hinterval, Int.one_mul]

/-- The whole time accrues one `rate` more where the rests of its parts make up a period. -/
theorem accrued_add (hinterval : 0 < interval) (a b : ℤ) :
    accrued rate interval (a + b) = accrued rate interval a + accrued rate interval b +
      if interval ≤ a % interval + b % interval then rate else 0 := by
  simp only [accrued, Int.add_ediv_of_pos hinterval]
  split <;> ring

section Floor

variable {floor x y : ℤ}

theorem floor_sub_sub (hy : 0 ≤ y) : max floor (max floor x - y) = max floor (x - y) := by
  omega

theorem floor_sub_eq_iff (hy : 0 ≤ y) : max floor x = max floor (x - y) ↔ y = 0 ∨ x ≤ floor := by
  omega

end Floor

end PeriodicAccrual

/-!
## Splitting an amount by weights

A payment of `total` is divided among parties with given weights, each part cut off
to a whole number. However many parties there are, the parts never come to more than
the payment (`sum_parts_le`); what is cut off stays with the payer.
-/

namespace ProportionalSplit

/-- What a party with weight `weight` out of `whole` gets of `total`. -/
def part (total whole weight : ℤ) : ℤ := (total * weight).tdiv whole

theorem part_nonneg {total whole weight : ℤ} (htotal : 0 ≤ total) (hwhole : 0 ≤ whole)
    (hweight : 0 ≤ weight) : 0 ≤ part total whole weight :=
  Int.tdiv_nonneg (Int.mul_nonneg htotal hweight) hwhole

theorem part_le_part {total whole weight weight' : ℤ} (htotal : 0 ≤ total) (hwhole : 0 < whole)
    (hle : weight ≤ weight') : part total whole weight ≤ part total whole weight' :=
  Int.tdiv_le_tdiv hwhole (Int.mul_le_mul_of_nonneg_left hle htotal)

/-- The part of the whole is the total. -/
theorem part_whole {total whole : ℤ} (hwhole : 0 < whole) : part total whole whole = total :=
  Int.mul_tdiv_cancel total hwhole.ne'

theorem part_mul_le {total whole weight : ℤ} (htotal : 0 ≤ total) (hweight : 0 ≤ weight) :
    part total whole weight * whole ≤ total * weight := by
  rw [Int.mul_comm]
  exact Int.mul_tdiv_self_le (Int.mul_nonneg htotal hweight)

/-- A part and what is cut off. -/
theorem part_mul_add_emod {total whole weight : ℤ} (htotal : 0 ≤ total) (hweight : 0 ≤ weight) :
    part total whole weight * whole + total * weight % whole = total * weight := by
  rw [part, Int.tdiv_eq_ediv_of_nonneg (Int.mul_nonneg htotal hweight)]
  exact Int.ediv_mul_add_emod (total * weight) whole

/-- Two amounts with the ratio of the weights: where the one is not enough for its part of the
other, its own part does not exceed the other. -/
theorem part_le_of_le_part {x y r r' : ℤ} (hx : 0 ≤ x) (hr : 0 ≤ r) (hr' : 0 < r')
    (h : y ≤ part x r r') : part y r' r ≤ x := by
  have hle : y * r ≤ x * r' := by
    calc y * r ≤ part x r r' * r := Int.mul_le_mul_of_nonneg_right h hr
      _ ≤ x * r' := part_mul_le hx hr'.le
  calc part y r' r ≤ part x r' r' := Int.tdiv_le_tdiv hr' hle
    _ = x := part_whole hr'

theorem whole_mul_parts_le {total whole : ℤ} {weights : List ℤ} (htotal : 0 ≤ total)
    (hweights : ∀ w ∈ weights, 0 ≤ w) :
    whole * (weights.map (part total whole)).sum ≤ total * weights.sum := by
  induction weights with
  | nil => simp
  | cons w weights ih =>
    have hw := hweights w List.mem_cons_self
    have hrest := ih fun v hv => hweights v (List.mem_cons_of_mem w hv)
    have hpart : whole * part total whole w ≤ total * w :=
      Int.mul_tdiv_self_le (Int.mul_nonneg htotal hw)
    rw [List.map_cons, List.sum_cons, List.sum_cons]
    calc whole * (part total whole w + (weights.map (part total whole)).sum)
        = whole * part total whole w + whole * (weights.map (part total whole)).sum := by ring
      _ ≤ total * w + total * weights.sum := Int.add_le_add hpart hrest
      _ = total * (w + weights.sum) := by ring

/-- Parts by weights that make up the whole come to no more than the total. -/
theorem sum_parts_le {total whole : ℤ} {weights : List ℤ} (htotal : 0 ≤ total)
    (hwhole : 0 < whole) (hweights : ∀ w ∈ weights, 0 ≤ w) (hsum : weights.sum = whole) :
    (weights.map (part total whole)).sum ≤ total := by
  have h : whole * (weights.map (part total whole)).sum ≤ total * weights.sum :=
    whole_mul_parts_le htotal hweights
  rw [hsum, Int.mul_comm total whole] at h
  exact Int.le_of_mul_le_mul_left h hwhole

end ProportionalSplit
