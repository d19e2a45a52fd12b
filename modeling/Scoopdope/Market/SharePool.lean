import Mathlib.Tactic.Linarith
import Mathlib.Tactic.Positivity
import Mathlib.Tactic.Ring

/-!
# Pools of two reserves owned by shares

A pool holds two reserves and a number of shares that own them. Three things
happen to it: a deposit mints shares, a withdrawal burns them, an exchange
trades one reserve for the other. Each rounds, and `Fair` says the rounding is
never against the pool.

The value of a share is the root of the product of the reserves over the number
of shares. `NotBelow p q` compares it between two states, squared and with the
denominators cleared. Fair operations keep a pool positive (`Positive.run`) and
never lower the value of a share (`Fair.notBelow`); `NotBelow` composes along a
run (`NotBelow.trans`).

The last section has the truncated divisions such pools are computed with.
-/

/-- Two reserves and the number of shares that own them. -/
structure SharePool where
  a : ℤ
  b : ℤ
  shares : ℤ

namespace SharePool

/-- What happens to a pool. An exchange adds `da` and `db`, one of them negative. -/
inductive Op
  | deposit (a b minted : ℤ)
  | withdraw (a b burned : ℤ)
  | exchange (da db : ℤ)

def run (p : SharePool) : Op → SharePool
  | .deposit a b m => ⟨p.a + a, p.b + b, p.shares + m⟩
  | .withdraw a b l => ⟨p.a - a, p.b - b, p.shares - l⟩
  | .exchange da db => ⟨p.a + da, p.b + db, p.shares⟩

/-- The operation rounds in the pool's favour: a deposit mints at most its part
of the shares, a withdrawal takes at most its part of the reserves and leaves a
share, an exchange does not lower the product. -/
def Fair (p : SharePool) : Op → Prop
  | .deposit a b m => 0 < m ∧ p.a * m ≤ a * p.shares ∧ p.b * m ≤ b * p.shares
  | .withdraw a b l => l < p.shares ∧ a * p.shares ≤ l * p.a ∧ b * p.shares ≤ l * p.b
  | .exchange da db => 0 < p.a + da ∧ 0 < p.b + db ∧ p.a * p.b ≤ (p.a + da) * (p.b + db)

structure Positive (p : SharePool) : Prop where
  a_pos : 0 < p.a
  b_pos : 0 < p.b
  shares_pos : 0 < p.shares

/-- A share of `q` is worth at least a share of `p`. -/
def NotBelow (p q : SharePool) : Prop :=
  p.a * p.b * q.shares ^ 2 ≤ q.a * q.b * p.shares ^ 2

theorem NotBelow.refl (p : SharePool) : NotBelow p p := le_refl _

theorem NotBelow.trans {p q r : SharePool} (hq : 0 < q.shares) (hpq : NotBelow p q)
    (hqr : NotBelow q r) : NotBelow p r := by
  have hsq : 0 < q.shares ^ 2 := by positivity
  refine le_of_mul_le_mul_right ?_ hsq
  calc p.a * p.b * r.shares ^ 2 * q.shares ^ 2
      = p.a * p.b * q.shares ^ 2 * r.shares ^ 2 := by ring
    _ ≤ q.a * q.b * p.shares ^ 2 * r.shares ^ 2 :=
      mul_le_mul_of_nonneg_right hpq (sq_nonneg _)
    _ = q.a * q.b * r.shares ^ 2 * p.shares ^ 2 := by ring
    _ ≤ r.a * r.b * q.shares ^ 2 * p.shares ^ 2 :=
      mul_le_mul_of_nonneg_right hqr (sq_nonneg _)
    _ = r.a * r.b * p.shares ^ 2 * q.shares ^ 2 := by ring

/-- Each reserve's part per share has not fallen, so neither has their product's. -/
theorem notBelow_of_parts {p q : SharePool} (hp : p.Positive) (hq : 0 < q.shares)
    (ha : p.a * q.shares ≤ q.a * p.shares) (hb : p.b * q.shares ≤ q.b * p.shares) :
    NotBelow p q := by
  have ha0 : 0 ≤ q.a * p.shares := (mul_pos hp.a_pos hq).le.trans ha
  have hb0 : 0 ≤ p.b * q.shares := (mul_pos hp.b_pos hq).le
  calc p.a * p.b * q.shares ^ 2
      = p.a * q.shares * (p.b * q.shares) := by ring
    _ ≤ q.a * p.shares * (q.b * p.shares) := mul_le_mul ha hb hb0 ha0
    _ = q.a * q.b * p.shares ^ 2 := by ring

/-- A reserve that is part of a share stays positive where shares are left. -/
theorem pos_of_part {x y s t : ℤ} (hx : 0 < x) (ht : 0 < t) (hs : 0 < s)
    (h : x * t ≤ y * s) : 0 < y :=
  pos_of_mul_pos_left ((mul_pos hx ht).trans_le h) hs.le

/-- For a deposit and a withdrawal: the parts per share, and a share is left. -/
theorem parts_of_fair {p : SharePool} (hp : p.Positive) {o : Op} (h : p.Fair o) :
    (∃ da db, o = .exchange da db) ∨
    (0 < (p.run o).shares ∧ p.a * (p.run o).shares ≤ (p.run o).a * p.shares ∧
      p.b * (p.run o).shares ≤ (p.run o).b * p.shares) := by
  cases o with
  | deposit a b m =>
    obtain ⟨hm, ha, hb⟩ := h
    refine .inr ⟨add_pos hp.shares_pos hm, ?_, ?_⟩
    · show p.a * (p.shares + m) ≤ (p.a + a) * p.shares
      linarith
    · show p.b * (p.shares + m) ≤ (p.b + b) * p.shares
      linarith
  | withdraw a b l =>
    obtain ⟨hl, ha, hb⟩ := h
    refine .inr ⟨sub_pos.mpr hl, ?_, ?_⟩
    · show p.a * (p.shares - l) ≤ (p.a - a) * p.shares
      linarith
    · show p.b * (p.shares - l) ≤ (p.b - b) * p.shares
      linarith
  | exchange da db => exact .inl ⟨da, db, rfl⟩

theorem Positive.run {p : SharePool} (hp : p.Positive) {o : Op} (h : p.Fair o) :
    (p.run o).Positive := by
  rcases parts_of_fair hp h with ⟨da, db, rfl⟩ | ⟨hs, ha, hb⟩
  · obtain ⟨hda, hdb, _⟩ := h
    exact ⟨hda, hdb, hp.shares_pos⟩
  · exact ⟨pos_of_part hp.a_pos hs hp.shares_pos ha, pos_of_part hp.b_pos hs hp.shares_pos hb, hs⟩

/-- A fair operation never lowers the value of a share. -/
theorem Fair.notBelow {p : SharePool} (hp : p.Positive) {o : Op} (h : p.Fair o) :
    NotBelow p (p.run o) := by
  rcases parts_of_fair hp h with ⟨da, db, rfl⟩ | ⟨hs, ha, hb⟩
  · obtain ⟨_, _, hprod⟩ := h
    exact mul_le_mul_of_nonneg_right hprod (sq_nonneg _)
  · exact notBelow_of_parts hp hs ha hb

/-- Withdrawing the shares of a deposit, right after it, takes at most the deposit. -/
theorem withdrawn_le_of_fair {p : SharePool} (hp : p.Positive) {a b m x y : ℤ}
    (hin : p.Fair (.deposit a b m)) (hout : (p.run (.deposit a b m)).Fair (.withdraw x y m)) :
    x ≤ a ∧ y ≤ b := by
  obtain ⟨hm, ha, hb⟩ := hin
  obtain ⟨_, hx, hy⟩ := hout
  change x * (p.shares + m) ≤ m * (p.a + a) at hx
  change y * (p.shares + m) ≤ m * (p.b + b) at hy
  have hshares : 0 < p.shares + m := add_pos hp.shares_pos hm
  constructor
  · refine le_of_mul_le_mul_right ?_ hshares
    calc x * (p.shares + m) ≤ m * (p.a + a) := hx
      _ = p.a * m + a * m := by ring
      _ ≤ a * p.shares + a * m := Int.add_le_add_right ha _
      _ = a * (p.shares + m) := (mul_add _ _ _).symm
  · refine le_of_mul_le_mul_right ?_ hshares
    calc y * (p.shares + m) ≤ m * (p.b + b) := hy
      _ = p.b * m + b * m := by ring
      _ ≤ b * p.shares + b * m := Int.add_le_add_right hb _
      _ = b * (p.shares + m) := (mul_add _ _ _).symm

/-! ## Truncated divisions -/

theorem pos_of_tdiv_pos {x r : ℤ} (hr : 0 < r) (h : 0 < x.tdiv r) : 0 < x := by
  by_contra hx
  have hle : x.tdiv r ≤ (0 : ℤ).tdiv r := Int.tdiv_le_tdiv hr (not_lt.mp hx)
  rw [Int.zero_tdiv] at hle
  omega

/-- A positive truncated quotient is at most the exact one. -/
theorem mul_tdiv_le {x r : ℤ} (hr : 0 < r) (h : 0 < x.tdiv r) : r * x.tdiv r ≤ x :=
  Int.mul_tdiv_self_le (pos_of_tdiv_pos hr h).le

/-- The constant product rule. Of the amount `x` paid in, `f / d` of it counts
(what is left after the fee); the amount `out` paid out is rounded down. It is
less than the reserve it is taken from, and the product does not fall. -/
theorem exchange_fair {rin rout d f x : ℤ} (hin : 0 < rin) (hout : 0 < rout) (hd : 0 < d)
    (hf : 0 ≤ f) (hfx : f ≤ x * d) :
    0 ≤ (f * rout).tdiv (rin * d + f) ∧ (f * rout).tdiv (rin * d + f) < rout ∧
      rin * rout ≤ (rin + x) * (rout - (f * rout).tdiv (rin * d + f)) := by
  have hden : 0 < rin * d + f := by positivity
  have hnum : 0 ≤ f * rout := by positivity
  have hnonneg := Int.tdiv_nonneg hnum hden.le
  have hround := Int.mul_tdiv_self_le (k := rin * d + f) hnum
  generalize (f * rout).tdiv (rin * d + f) = out at hnonneg hround ⊢
  have hpos : 0 < rin * d := mul_pos hin hd
  have hlt : out < rout := by
    by_contra hge
    have hmul : (rin * d + f) * rout ≤ (rin * d + f) * out :=
      mul_le_mul_of_nonneg_left (not_lt.mp hge) hden.le
    have : 0 < rin * d * rout := mul_pos hpos hout
    linarith
  refine ⟨hnonneg, hlt, le_of_mul_le_mul_right ?_ hd⟩
  have hkept : (rin * d + f) * (rout - out) ≤ (rin * d + x * d) * (rout - out) :=
    mul_le_mul_of_nonneg_right (by linarith) (sub_nonneg.mpr hlt.le)
  linarith

end SharePool
