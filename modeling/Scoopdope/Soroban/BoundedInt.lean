import Mathlib.Algebra.Notation.Defs
import Mathlib.Data.List.Nodup
import Mathlib.Tactic.Ring
import Scoopdope.Soroban.Outcome

/-!
# Machine integers with overflow checks

`BoundedInt lo hi` is the type of the integers from `lo` to `hi`. The bounds
are fields of the value, so a value outside them cannot be built, and every
operation has two forms, as in the language:

* `checkedAdd`, ... return `none` where the exact result leaves the bounds;
* `add`, `sub`, `mul`, `div` (the plain operators, compiled with overflow
  checks) trap there.

Each operation has one characterisation: it returns `c` exactly when `c` is
the exact result. Division truncates towards zero (`Int.tdiv`).
-/

namespace Soroban

/-- An integer with a proof that it lies between `lo` and `hi`. -/
@[ext]
structure BoundedInt (lo hi : Int) where
  val : Int
  lo_le : lo ≤ val
  le_hi : val ≤ hi
deriving DecidableEq

abbrev I128 : Type :=
  BoundedInt (-170141183460469231731687303715884105728) 170141183460469231731687303715884105727
abbrev U8 : Type := BoundedInt 0 255
abbrev U32 : Type := BoundedInt 0 4294967295
abbrev U64 : Type := BoundedInt 0 18446744073709551615

namespace BoundedInt

variable {lo hi : Int}

/-- A literal; the bounds are checked, by evaluation, when it is written. -/
def lit (x : Int) (h : decide (lo ≤ x ∧ x ≤ hi) = true := by exact Eq.refl true) :
    BoundedInt lo hi :=
  ⟨x, (of_decide_eq_true h).1, (of_decide_eq_true h).2⟩

@[simp] theorem lit_val (x : Int) (h : decide (lo ≤ x ∧ x ≤ hi) = true) :
    (lit x h : BoundedInt lo hi).val = x := rfl

instance : Zero I128 := ⟨lit 0⟩
instance : Zero U32 := ⟨lit 0⟩
instance : Zero U64 := ⟨lit 0⟩

@[simp] theorem i128_zero_val : (0 : I128).val = 0 := rfl

instance : LE (BoundedInt lo hi) := ⟨fun a b => a.val ≤ b.val⟩
instance : LT (BoundedInt lo hi) := ⟨fun a b => a.val < b.val⟩

instance (a b : BoundedInt lo hi) : Decidable (a ≤ b) := inferInstanceAs (Decidable (a.val ≤ b.val))
instance (a b : BoundedInt lo hi) : Decidable (a < b) := inferInstanceAs (Decidable (a.val < b.val))

theorem le_def {a b : BoundedInt lo hi} : a ≤ b ↔ a.val ≤ b.val := Iff.rfl
theorem lt_def {a b : BoundedInt lo hi} : a < b ↔ a.val < b.val := Iff.rfl

instance : Min (BoundedInt lo hi) := ⟨fun a b => if a ≤ b then a else b⟩

theorem min_val (a b : BoundedInt lo hi) : (min a b).val = min a.val b.val := by
  change (if a ≤ b then a else b).val = _
  split
  · next h => rw [min_eq_left (le_def.mp h)]
  · next h => rw [min_eq_right (by rw [le_def] at h; omega)]

instance : Max (BoundedInt lo hi) := ⟨fun a b => if a ≤ b then b else a⟩

theorem max_val (a b : BoundedInt lo hi) : (max a b).val = max a.val b.val := by
  change (if a ≤ b then b else a).val = _
  split
  · next h => rw [max_eq_right (le_def.mp h)]
  · next h => rw [max_eq_left (by rw [le_def] at h; omega)]

/-- The value with the exact result `x`, where there is one. -/
def ofInt? (x : Int) : Option (BoundedInt lo hi) :=
  if h : lo ≤ x ∧ x ≤ hi then some ⟨x, h.1, h.2⟩ else none

theorem ofInt?_eq_some {x : Int} {c : BoundedInt lo hi} : ofInt? x = some c ↔ c.val = x := by
  unfold ofInt?
  split
  · next h =>
    rw [Option.some.injEq]
    constructor
    · rintro rfl
      rfl
    · intro hc
      ext
      exact hc.symm
  · next h =>
    refine ⟨nofun, fun hc => ?_⟩
    subst hc
    exact absurd ⟨c.lo_le, c.le_hi⟩ h

def checkedAdd (a b : BoundedInt lo hi) : Option (BoundedInt lo hi) := ofInt? (a.val + b.val)
def checkedSub (a b : BoundedInt lo hi) : Option (BoundedInt lo hi) := ofInt? (a.val - b.val)
def checkedMul (a b : BoundedInt lo hi) : Option (BoundedInt lo hi) := ofInt? (a.val * b.val)
/-- `checked_div`: `none` for a zero divisor too. -/
def checkedDiv (a b : BoundedInt lo hi) : Option (BoundedInt lo hi) :=
  if b.val = 0 then none else ofInt? (a.val.tdiv b.val)

/-- `saturating_sub`: the exact result, cut off at the bounds. -/
def saturatingSub (a b : BoundedInt lo hi) : BoundedInt lo hi :=
  ⟨max lo (min hi (a.val - b.val)), le_max_left lo _,
    max_le (a.lo_le.trans a.le_hi) (min_le_left hi _)⟩

@[simp] theorem saturatingSub_val (a b : BoundedInt lo hi) :
    (a.saturatingSub b).val = max lo (min hi (a.val - b.val)) := rfl

/-- The exact result, or the overflow trap. -/
def orOverflow (o : Option (BoundedInt lo hi)) : Outcome (BoundedInt lo hi) :=
  match o with
  | some c => .ok c
  | none => .error .overflow

def add (a b : BoundedInt lo hi) : Outcome (BoundedInt lo hi) := orOverflow (a.checkedAdd b)
def sub (a b : BoundedInt lo hi) : Outcome (BoundedInt lo hi) := orOverflow (a.checkedSub b)
def mul (a b : BoundedInt lo hi) : Outcome (BoundedInt lo hi) := orOverflow (a.checkedMul b)
/-- `-a`. -/
def neg (a : BoundedInt lo hi) : Outcome (BoundedInt lo hi) := orOverflow (ofInt? (-a.val))
def div (a b : BoundedInt lo hi) : Outcome (BoundedInt lo hi) :=
  if b.val = 0 then .error .divisionByZero else orOverflow (ofInt? (a.val.tdiv b.val))

@[simp] theorem checkedAdd_eq_some {a b c : BoundedInt lo hi} :
    a.checkedAdd b = some c ↔ c.val = a.val + b.val := ofInt?_eq_some

@[simp] theorem checkedSub_eq_some {a b c : BoundedInt lo hi} :
    a.checkedSub b = some c ↔ c.val = a.val - b.val := ofInt?_eq_some

@[simp] theorem checkedMul_eq_some {a b c : BoundedInt lo hi} :
    a.checkedMul b = some c ↔ c.val = a.val * b.val := ofInt?_eq_some

@[simp] theorem checkedDiv_eq_some {a b c : BoundedInt lo hi} :
    a.checkedDiv b = some c ↔ b.val ≠ 0 ∧ c.val = a.val.tdiv b.val := by
  unfold checkedDiv
  split
  · next h => exact ⟨nofun, fun hc => absurd h hc.1⟩
  · next h => simp [ofInt?_eq_some, h]

@[simp] theorem orOverflow_eq_ok {o : Option (BoundedInt lo hi)} {c : BoundedInt lo hi} :
    orOverflow o = .ok c ↔ o = some c := by
  cases o with
  | none => exact ⟨nofun, nofun⟩
  | some d => simp [orOverflow]

theorem orOverflow_eq_error {o : Option (BoundedInt lo hi)} {t : Trap} :
    orOverflow o = .error t ↔ o = none ∧ t = .overflow := by
  cases o with
  | none => simp [orOverflow, eq_comm]
  | some d => simp [orOverflow]

@[simp] theorem add_eq_ok {a b c : BoundedInt lo hi} : a.add b = .ok c ↔ c.val = a.val + b.val := by
  simp [add]

@[simp] theorem sub_eq_ok {a b c : BoundedInt lo hi} : a.sub b = .ok c ↔ c.val = a.val - b.val := by
  simp [sub]

@[simp] theorem mul_eq_ok {a b c : BoundedInt lo hi} : a.mul b = .ok c ↔ c.val = a.val * b.val := by
  simp [mul]

@[simp] theorem neg_eq_ok {a c : BoundedInt lo hi} : a.neg = .ok c ↔ c.val = -a.val := by
  simp [neg, ofInt?_eq_some]

@[simp] theorem div_eq_ok {a b c : BoundedInt lo hi} :
    a.div b = .ok c ↔ b.val ≠ 0 ∧ c.val = a.val.tdiv b.val := by
  unfold div
  split
  · next h => exact ⟨nofun, fun hc => absurd h hc.1⟩
  · next h => simp [ofInt?_eq_some, h]

/-- `(a * b) / c`. -/
def mulDiv (a b c : BoundedInt lo hi) : Outcome (BoundedInt lo hi) := do
  let product ← a.mul b
  product.div c

theorem mulDiv_eq_ok {a b c q : BoundedInt lo hi} :
    a.mulDiv b c = .ok q ↔ (∃ product : BoundedInt lo hi, product.val = a.val * b.val) ∧
      c.val ≠ 0 ∧ q.val = (a.val * b.val).tdiv c.val := by
  simp only [mulDiv, bind_eq_ok, mul_eq_ok, div_eq_ok]
  constructor
  · rintro ⟨product, hproduct, hc, hq⟩
    rw [hproduct] at hq
    exact ⟨⟨product, hproduct⟩, hc, hq⟩
  · rintro ⟨⟨product, hproduct⟩, hc, hq⟩
    rw [← hproduct] at hq
    exact ⟨product, hproduct, hc, hq⟩

theorem mulDiv_ok {a b c q : BoundedInt lo hi} (h : a.mulDiv b c = .ok q) :
    c.val ≠ 0 ∧ q.val = (a.val * b.val).tdiv c.val :=
  (mulDiv_eq_ok.mp h).2

theorem orOverflow_traps (o : Option (BoundedInt lo hi)) : TrapsOnly .overflow (orOverflow o) :=
  fun _ he => (orOverflow_eq_error.mp he).2

/-- The overflow trap is not the trap of a zero divisor. -/
theorem orOverflow_ne_divisionByZero (o : Option (BoundedInt lo hi)) :
    orOverflow o ≠ .error .divisionByZero := by
  intro h
  obtain ⟨_, ht⟩ := orOverflow_eq_error.mp h
  cases ht

theorem mulDiv_traps {a b c : BoundedInt lo hi} (hc : c.val ≠ 0) :
    TrapsOnly .overflow (a.mulDiv b c) := by
  refine (orOverflow_traps _).bind fun product _ => ?_
  unfold div
  rw [if_neg hc]
  exact orOverflow_traps _

theorem add_ne_divisionByZero (a b : BoundedInt lo hi) : a.add b ≠ .error .divisionByZero :=
  orOverflow_ne_divisionByZero _

theorem sub_ne_divisionByZero (a b : BoundedInt lo hi) : a.sub b ≠ .error .divisionByZero :=
  orOverflow_ne_divisionByZero _

theorem mul_ne_divisionByZero (a b : BoundedInt lo hi) : a.mul b ≠ .error .divisionByZero :=
  orOverflow_ne_divisionByZero _

theorem div_ne_divisionByZero {a b : BoundedInt lo hi} (hb : b.val ≠ 0) :
    a.div b ≠ .error .divisionByZero := by
  unfold div
  rw [if_neg hb]
  exact orOverflow_ne_divisionByZero _

theorem mulDiv_ne_divisionByZero {a b c : BoundedInt lo hi} (hc : c.val ≠ 0) :
    a.mulDiv b c ≠ .error .divisionByZero :=
  bind_ne_error (mul_ne_divisionByZero a b) fun _ _ => div_ne_divisionByZero hc

end BoundedInt

/-- The numbers of the range `0..n`, in order. -/
def BoundedInt.upTo (n : U32) : List U32 :=
  (List.range n.val.toNat).filterMap fun k : Nat => BoundedInt.ofInt? (k : Int)

theorem BoundedInt.mem_upTo {n k : U32} : k ∈ n.upTo ↔ k.val < n.val := by
  have hk := k.lo_le
  rw [BoundedInt.upTo, List.mem_filterMap]
  constructor
  · rintro ⟨j, hj, he⟩
    rw [List.mem_range] at hj
    rw [BoundedInt.ofInt?_eq_some.mp he]
    omega
  · intro hlt
    refine ⟨k.val.toNat, List.mem_range.mpr (by omega), BoundedInt.ofInt?_eq_some.mpr ?_⟩
    omega

theorem BoundedInt.upTo_nodup (n : U32) : n.upTo.Nodup := by
  refine List.Nodup.filterMap (fun j j' k hj hj' => ?_) List.nodup_range
  have hval := BoundedInt.ofInt?_eq_some.mp hj
  have hval' := BoundedInt.ofInt?_eq_some.mp hj'
  omega

/-- The length of a host vector, a `u32`. -/
def vecLen {α : Type} (v : List α) : U32 :=
  ⟨(v.length : Int) % 4294967296, Int.emod_nonneg _ (by decide), by omega⟩

/-- `x as i128` of a `u32`. -/
def BoundedInt.u32AsI128 (a : U32) : I128 :=
  ⟨a.val, by have := a.lo_le; omega, by have := a.le_hi; omega⟩

@[simp] theorem BoundedInt.u32AsI128_val (a : U32) : a.u32AsI128.val = a.val := rfl

/-- `x as i128` of a `u8`. -/
def BoundedInt.u8AsI128 (a : U8) : I128 :=
  ⟨a.val, by have := a.lo_le; omega, by have := a.le_hi; omega⟩

/-- `x as u64` of a `u32`. -/
def BoundedInt.u32AsU64 (a : U32) : U64 :=
  ⟨a.val, a.lo_le, by have := a.le_hi; omega⟩

end Soroban
