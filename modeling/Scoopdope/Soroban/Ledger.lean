import Mathlib.Algebra.BigOperators.Finsupp.Basic
import Mathlib.Algebra.Order.BigOperators.Group.Finset
import Scoopdope.Soroban.Table

/-!
# Ledgers of balances

The abstract side of every contract that keeps one amount for each account and
one number for their sum: a finitely supported balance function and a supply,
changed by minting, burning and moving.

A ledger is `Sound` when no balance is negative and the supply is the sum of
the balances. `Sound.run`: every allowed operation keeps it sound, whichever
accounts coincide. `decrease`: only the account an operation burns from or
moves from can lose.

A contract supplies the ledger its storage stands for: `ofTable` of its stored
balances and its supply. `ofTable_mint` and `ofTable_burn` read its writes, and
`Sound.total_eq` gives soundness back as a sum over the table.
-/

namespace Soroban

structure Ledger (A : Type) where
  balance : A →₀ ℤ
  supply : ℤ

namespace Ledger

variable {A : Type}

/-- The sum of all balances. -/
noncomputable def sum (f : A →₀ ℤ) : ℤ := f.sum fun _ x => x

theorem sum_add_single (f : A →₀ ℤ) (a : A) (x : ℤ) : sum (f + Finsupp.single a x) = sum f + x := by
  unfold sum
  rw [Finsupp.sum_add_index' (fun _ => rfl) (fun _ _ _ => rfl), Finsupp.sum_single_index rfl]

theorem le_sum {f : A →₀ ℤ} (hf : ∀ a, 0 ≤ f a) (a : A) : f a ≤ sum f := by
  classical
  by_cases ha : a ∈ f.support
  · exact Finset.single_le_sum (f := fun b => f b) (fun b _ => hf b) ha
  · rw [Finsupp.notMem_support_iff.mp ha]
    exact Finset.sum_nonneg fun b _ => hf b

/-- The sum over finitely many accounts is at most the sum of all. -/
theorem sum_subset_le {f : A →₀ ℤ} (hf : ∀ a, 0 ≤ f a) (accounts : Finset A) :
    ∑ a ∈ accounts, f a ≤ sum f := by
  classical
  have hall : sum f = ∑ a ∈ f.support ∪ accounts, f a :=
    Finset.sum_subset Finset.subset_union_left
      fun a _ ha => Finsupp.notMem_support_iff.mp ha
  rw [hall]
  exact Finset.sum_le_sum_of_subset_of_nonneg Finset.subset_union_right fun a _ _ => hf a

/-- What a call does to the ledger. -/
inductive Op (A : Type)
  | mint (to_ : A) (x : ℤ)
  | burn (from_ : A) (x : ℤ)
  | move (from_ to_ : A) (x : ℤ)
  | idle

/-- The amount an operation creates. -/
def Op.minted : Op A → ℤ
  | .mint _ x => x
  | _ => 0

/-- The amount an operation destroys. -/
def Op.burned : Op A → ℤ
  | .burn _ x => x
  | _ => 0

noncomputable def run (l : Ledger A) : Op A → Ledger A
  | .mint a x => ⟨l.balance + Finsupp.single a x, l.supply + x⟩
  | .burn a x => ⟨l.balance + Finsupp.single a (-x), l.supply - x⟩
  | .move a b x => ⟨l.balance + Finsupp.single a (-x) + Finsupp.single b x, l.supply⟩
  | .idle => l

/-- The operations that keep balances non-negative. A burn may be of a negative
amount, which is a mint. -/
def Allowed (l : Ledger A) : Op A → Prop
  | .mint _ x => 0 ≤ x
  | .burn a x => x ≤ l.balance a
  | .move a _ x => 0 ≤ x ∧ x ≤ l.balance a
  | .idle => True

/-- No balance is negative and the supply is their sum. -/
structure Sound (l : Ledger A) : Prop where
  nonneg : ∀ a, 0 ≤ l.balance a
  sum_eq : sum l.balance = l.supply

theorem Sound.supply_nonneg {l : Ledger A} (h : l.Sound) : 0 ≤ l.supply := by
  rw [← h.sum_eq]
  exact Finset.sum_nonneg fun a _ => h.nonneg a

theorem Sound.balance_le {l : Ledger A} (h : l.Sound) (a : A) : l.balance a ≤ l.supply := by
  rw [← h.sum_eq]
  exact le_sum h.nonneg a

theorem single_apply_nonneg {x : ℤ} (hx : 0 ≤ x) (a b : A) : 0 ≤ Finsupp.single a x b := by
  by_cases hab : b = a
  · rw [hab, Finsupp.single_eq_same]
    exact hx
  · rw [Finsupp.single_eq_of_ne hab]

theorem single_nonneg_of_le {f : A →₀ ℤ} (hf : ∀ a, 0 ≤ f a) {a : A} {x : ℤ} (hx : x ≤ f a) :
    ∀ b, 0 ≤ (f + Finsupp.single a (-x)) b := by
  intro b
  have hb := hf b
  rw [Finsupp.add_apply]
  by_cases hab : b = a
  · subst hab
    rw [Finsupp.single_eq_same]
    omega
  · rw [Finsupp.single_eq_of_ne hab]
    omega

theorem add_single_nonneg {f : A →₀ ℤ} (hf : ∀ a, 0 ≤ f a) {a : A} {x : ℤ} (hx : 0 ≤ x) :
    ∀ b, 0 ≤ (f + Finsupp.single a x) b := by
  have h := single_nonneg_of_le hf (a := a) (x := -x) (by have := hf a; omega)
  rwa [neg_neg] at h

/-- Every allowed operation keeps the ledger sound. -/
theorem Sound.run {l : Ledger A} (h : l.Sound) {o : Op A} (ho : l.Allowed o) : (l.run o).Sound := by
  cases o with
  | mint a x =>
    refine ⟨add_single_nonneg h.nonneg ho, ?_⟩
    show sum (l.balance + Finsupp.single a x) = l.supply + x
    rw [sum_add_single, h.sum_eq]
  | burn a x =>
    refine ⟨single_nonneg_of_le h.nonneg ho, ?_⟩
    show sum (l.balance + Finsupp.single a (-x)) = l.supply - x
    rw [sum_add_single, h.sum_eq, Int.sub_eq_add_neg]
  | move a b x =>
    refine ⟨add_single_nonneg (single_nonneg_of_le h.nonneg ho.2) ho.1, ?_⟩
    show sum (l.balance + Finsupp.single a (-x) + Finsupp.single b x) = l.supply
    rw [sum_add_single, sum_add_single, h.sum_eq]
    omega
  | idle => exact h

theorem run_supply (l : Ledger A) (o : Op A) :
    (l.run o).supply = l.supply + o.minted - o.burned := by
  cases o <;> simp [run, Op.minted, Op.burned]

/-- A balance that an operation lowers is the one it takes from. -/
theorem decrease {l : Ledger A} {o : Op A} (ho : l.Allowed o) {a : A}
    (h : (l.run o).balance a < l.balance a) :
    (∃ x, o = .burn a x) ∨ ∃ b x, o = .move a b x := by
  cases o with
  | mint b x =>
    have hx : 0 ≤ x := ho
    change (l.balance + Finsupp.single b x) a < l.balance a at h
    rw [Finsupp.add_apply] at h
    have : 0 ≤ Finsupp.single b x a := single_apply_nonneg hx b a
    omega
  | burn b x =>
    by_cases hab : a = b
    · exact .inl ⟨x, by rw [hab]⟩
    · change (l.balance + Finsupp.single b (-x)) a < l.balance a at h
      rw [Finsupp.add_apply, Finsupp.single_eq_of_ne hab] at h
      omega
  | move b c x =>
    by_cases hab : a = b
    · exact .inr ⟨c, x, by rw [hab]⟩
    · change (l.balance + Finsupp.single b (-x) + Finsupp.single c x) a < l.balance a at h
      rw [Finsupp.add_apply, Finsupp.add_apply, Finsupp.single_eq_of_ne hab] at h
      have : 0 ≤ Finsupp.single c x a := single_apply_nonneg ho.1 c a
      omega
  | idle => exact absurd h (lt_irrefl _)

/-! ## What a set of accounts holds -/

section Held

variable [DecidableEq A]

/-- The sum of the balances of some accounts. -/
def held (l : Ledger A) (accounts : Finset A) : ℤ := ∑ a ∈ accounts, l.balance a

/-- The amount an operation takes out of a set of accounts: a burn in it, or a
move from it to an account outside. -/
def Op.leaving (accounts : Finset A) : Op A → ℤ
  | .burn a x => if a ∈ accounts then x else 0
  | .move a b x => if a ∈ accounts ∧ b ∉ accounts then x else 0
  | _ => 0

theorem held_add_single (f : A →₀ ℤ) (accounts : Finset A) (a : A) (x : ℤ) :
    ∑ b ∈ accounts, (f + Finsupp.single a x) b =
      ∑ b ∈ accounts, f b + if a ∈ accounts then x else 0 := by
  have hsingle : ∑ b ∈ accounts, Finsupp.single a x b = if a ∈ accounts then x else 0 := by
    simp only [Finsupp.single_apply]
    exact Finset.sum_ite_eq accounts a fun _ => x
  rw [← hsingle]
  exact Finset.sum_add_distrib

omit [DecidableEq A] in
theorem Sound.held_nonneg {l : Ledger A} (h : l.Sound) (accounts : Finset A) :
    0 ≤ l.held accounts :=
  Finset.sum_nonneg fun a _ => h.nonneg a

omit [DecidableEq A] in
theorem Sound.held_le {l : Ledger A} (h : l.Sound) (accounts : Finset A) :
    l.held accounts ≤ l.supply := by
  rw [← h.sum_eq]
  exact sum_subset_le h.nonneg accounts

theorem held_insert (l : Ledger A) {accounts : Finset A} {a : A} (ha : a ∉ accounts) :
    l.held (insert a accounts) = l.held accounts + l.balance a := by
  rw [held, Finset.sum_insert ha, held, Int.add_comm]

/-- Accounts lose at most what an operation takes out of them. -/
theorem held_run {l : Ledger A} {o : Op A} (ho : l.Allowed o) (accounts : Finset A) :
    l.held accounts ≤ (l.run o).held accounts + o.leaving accounts := by
  cases o with
  | mint a x =>
    have hx : 0 ≤ x := ho
    have hrun : (l.run (.mint a x)).held accounts =
        l.held accounts + if a ∈ accounts then x else 0 := held_add_single _ _ _ _
    show _ ≤ _ + 0
    rw [hrun]
    split <;> omega
  | burn a x =>
    have hrun : (l.run (.burn a x)).held accounts =
        l.held accounts + if a ∈ accounts then -x else 0 := held_add_single _ _ _ _
    rw [hrun, Op.leaving]
    split <;> omega
  | move a b x =>
    have hx : 0 ≤ x := ho.1
    have hrun : (l.run (.move a b x)).held accounts =
        (l.held accounts + if a ∈ accounts then -x else 0) + if b ∈ accounts then x else 0 := by
      rw [held, held, ← held_add_single l.balance]
      exact held_add_single _ _ _ _
    rw [hrun, Op.leaving]
    by_cases ha : a ∈ accounts
    · by_cases hb : b ∈ accounts
      · simp [ha, hb]
      · simp [ha, hb]
    · have hout : ¬ (a ∈ accounts ∧ b ∉ accounts) := fun h => ha h.1
      rw [if_neg ha, if_neg hout]
      split <;> omega
  | idle => exact (Int.add_zero _).ge

end Held

section OfTable

variable [DecidableEq A]

/-- The ledger of a table of stored balances and a supply. -/
noncomputable def ofTable (t : Table A I128) (supply : ℤ) : Ledger A where
  balance := t.amounts
  supply := supply

variable {t : Table A I128} {supply : ℤ}

theorem ofTable_balance (t : Table A I128) (supply : ℤ) (a : A) :
    (ofTable t supply).balance a = (t.amount a).val :=
  Table.amounts_apply t a

/-- Writing a balance raised by `x` and the supply raised by `x` is a mint. -/
theorem ofTable_mint {a : A} {v : I128} {x s : ℤ} (hv : v.val = (t.amount a).val + x)
    (hs : s = supply + x) : ofTable (t.set a v) s = (ofTable t supply).run (.mint a x) := by
  show Ledger.mk (t.set a v).amounts s = Ledger.mk (t.amounts + Finsupp.single a x) (supply + x)
  have hx : v.val - (t.amount a).val = x := by omega
  rw [Table.amounts_set, hx, hs]

/-- Writing a balance lowered by `x` and the supply lowered by `x` is a burn. -/
theorem ofTable_burn {a : A} {v : I128} {x s : ℤ} (hv : v.val = (t.amount a).val - x)
    (hs : s = supply - x) : ofTable (t.set a v) s = (ofTable t supply).run (.burn a x) := by
  show Ledger.mk (t.set a v).amounts s = Ledger.mk (t.amounts + Finsupp.single a (-x)) (supply - x)
  have hx : v.val - (t.amount a).val = -x := by omega
  rw [Table.amounts_set, hx, hs]

/-- Nothing is stored yet. -/
theorem sound_empty : (ofTable (∅ : Table A I128) 0).Sound := by
  have h : ofTable (∅ : Table A I128) 0 = ⟨0, 0⟩ := by
    rw [ofTable, Table.amounts_empty]
  rw [h]
  exact ⟨fun _ => le_refl 0, rfl⟩

theorem total_eq_sum (t : Table A I128) : Table.total BoundedInt.val t = sum t.amounts := by
  induction t using AList.insertRec with
  | H0 => rw [Table.amounts_empty]; rfl
  | IH k v t _ ih =>
    change Table.total BoundedInt.val (Table.set t k v) = sum (Table.set t k v).amounts
    rw [Table.total_set, Table.share_val, Table.amounts_set, sum_add_single, ih]
    omega

/-- A sound ledger in terms of the table: the stored balances sum to the supply. -/
theorem Sound.total_eq (h : (ofTable t supply).Sound) : Table.total BoundedInt.val t = supply := by
  rw [total_eq_sum]
  exact h.sum_eq

theorem Sound.amount_nonneg (h : (ofTable t supply).Sound) (a : A) : 0 ≤ (t.amount a).val := by
  rw [← ofTable_balance t supply a]
  exact h.nonneg a

theorem Sound.amount_le (h : (ofTable t supply).Sound) (a : A) : (t.amount a).val ≤ supply := by
  rw [← ofTable_balance t supply a]
  exact h.balance_le a

theorem Sound.stored_nonneg (h : (ofTable t supply).Sound) {a : A} {v : I128}
    (hv : t.get a = some v) : 0 ≤ v.val := by
  have hn := h.amount_nonneg a
  rw [Table.amount, hv] at hn
  exact hn

end OfTable

end Ledger

end Soroban
