import Mathlib.Algebra.Order.BigOperators.Group.List
import Mathlib.Data.Finsupp.AList
import Mathlib.Data.Finsupp.Basic
import Mathlib.Tactic.Abel
import Mathlib.Tactic.Ring
import Scoopdope.Soroban.BoundedInt

/-!
# Storage tables

The entries a contract keeps under one family of storage keys, such as
`Balance(addr)` for all `addr`. A `Table` is Mathlib's `AList`: a list of
entries whose keys are distinct, so that only finitely many keys are present
and sums over the stored values make sense.

`total f t` is the sum of `f` over the stored values; `total_set` says how one
write changes it. `amounts` forgets the representation: a table of amounts as a
finitely supported function, with absent keys at `0`.
-/

namespace Soroban

/-- The stored entries of one family of keys. -/
abbrev Table (K V : Type) : Type := AList fun _ : K => V

namespace Table

variable {K V M : Type}

section Access

variable [DecidableEq K]

/-- `storage.get(k)`. -/
def get (t : Table K V) (k : K) : Option V := t.lookup k

/-- `storage.has(k)`. -/
def has (t : Table K V) (k : K) : Bool := (t.get k).isSome

/-- `storage.set(k, v)`. -/
def set (t : Table K V) (k : K) (v : V) : Table K V := t.insert k v

/-- `storage.remove(k)`. -/
def remove (t : Table K V) (k : K) : Table K V := t.erase k

@[simp] theorem get_empty (k : K) : (∅ : Table K V).get k = none := AList.lookup_empty k

theorem get_empty_ne_some {k : K} {v : V} : (∅ : Table K V).get k ≠ some v := by
  rw [get_empty]
  exact nofun

@[simp] theorem get_set_self (t : Table K V) (k : K) (v : V) : (t.set k v).get k = some v :=
  AList.lookup_insert t

@[simp] theorem get_set_ne {t : Table K V} {k k' : K} {v : V} (h : k' ≠ k) :
    (t.set k v).get k' = t.get k' :=
  AList.lookup_insert_ne h

theorem get_set (t : Table K V) (k k' : K) (v : V) :
    (t.set k v).get k' = if k' = k then some v else t.get k' := by
  split
  · next h => rw [h, get_set_self]
  · next h => rw [get_set_ne h]

/-- A table after a write, as a function. -/
theorem get_set_eq (t : Table K V) (k : K) (v : V) :
    (t.set k v).get = fun k' => if k' = k then some v else t.get k' :=
  funext fun k' => get_set t k k' v

@[simp] theorem get_remove_self (t : Table K V) (k : K) : (t.remove k).get k = none :=
  AList.lookup_erase k t

@[simp] theorem get_remove_ne {t : Table K V} {k k' : K} (h : k' ≠ k) :
    (t.remove k).get k' = t.get k' :=
  AList.lookup_erase_ne h

theorem get_remove (t : Table K V) (k k' : K) :
    (t.remove k).get k' = if k' = k then none else t.get k' := by
  split
  · next h => rw [h, get_remove_self]
  · next h => rw [get_remove_ne h]

theorem has_eq_false {t : Table K V} {k : K} : t.has k = false ↔ t.get k = none := by
  simp [has]

/-- A property of all entries survives a removal. -/
theorem forall_remove {P : K → V → Prop} {t : Table K V} {k : K}
    (ht : ∀ k' v', t.get k' = some v' → P k' v') :
    ∀ k' v', (t.remove k).get k' = some v' → P k' v' := by
  intro k' v' h
  rw [get_remove] at h
  split at h
  · cases h
  · exact ht k' v' h

/-- A property of all entries survives a write of a value that has it. -/
theorem forall_set {P : K → V → Prop} {t : Table K V} {k : K} {v : V}
    (ht : ∀ k' v', t.get k' = some v' → P k' v') (hv : P k v) :
    ∀ k' v', (t.set k v).get k' = some v' → P k' v' := by
  intro k' v' h
  rw [get_set] at h
  split at h
  · next hk =>
    cases h
    rw [hk]
    exact hv
  · exact ht k' v' h

/-- A stored value with a property is still stored after a write, or replaced by
one with the property. -/
theorem exists_set {P : V → Prop} {t : Table K V} {k k' : K} {v v' : V} (ht : t.get k' = some v')
    (hv' : P v') (hv : k = k' → P v) : ∃ w, (t.set k v).get k' = some w ∧ P w := by
  rw [get_set]
  by_cases hk : k' = k
  · exact ⟨v, if_pos hk, hv hk.symm⟩
  · exact ⟨v', (if_neg hk).trans ht, hv'⟩

end Access

section Total

variable [AddCommGroup M]

/-- The sum of `f` over the stored values. -/
def total (f : V → M) (t : Table K V) : M := (t.entries.map fun e => f e.2).sum

variable [DecidableEq K]

/-- The part of the total that the key `k` accounts for. -/
def share (f : V → M) (t : Table K V) (k : K) : M := ((t.get k).map f).getD 0

theorem sum_kerase (f : V → M) (l : List (Sigma fun _ : K => V)) (hl : l.NodupKeys) (k : K) :
    (l.map fun e => f e.2).sum =
      ((l.dlookup k).map f).getD 0 + ((l.kerase k).map fun e => f e.2).sum := by
  induction l with
  | nil => simp
  | cons e l ih =>
    obtain ⟨a, v⟩ := e
    rw [List.nodupKeys_cons] at hl
    by_cases hk : k = a
    · subst hk
      simp
    · rw [List.kerase_cons_ne hk, List.dlookup_cons_ne l ⟨a, v⟩ hk]
      simp only [List.map_cons, List.sum_cons]
      rw [ih hl.2]
      abel

/-- A write replaces the part of the total under its key. -/
theorem total_set (f : V → M) (t : Table K V) (k : K) (v : V) :
    total f (t.set k v) = total f t - share f t k + f v := by
  have h := sum_kerase f t.entries t.nodupKeys k
  have hs : total f (t.set k v) = f v + ((t.entries.kerase k).map fun e => f e.2).sum := by
    simp [total, set, AList.entries_insert]
  have ht : total f t = share f t k + ((t.entries.kerase k).map fun e => f e.2).sum := h
  rw [hs, ht]
  abel

/-- A removal takes the part of the total under its key away. -/
theorem total_remove (f : V → M) (t : Table K V) (k : K) :
    total f (t.remove k) = total f t - share f t k := by
  have h := sum_kerase f t.entries t.nodupKeys k
  have ht : total f t = share f t k + total f (t.remove k) := h
  rw [ht]
  abel

theorem share_of_get {f : V → M} {t : Table K V} {k : K} {v : V} (h : t.get k = some v) :
    share f t k = f v := by
  rw [share, h]
  rfl

/-- A write of a value that counts as much as what it replaces leaves the total. -/
theorem total_set_same {f : V → M} {t : Table K V} {k : K} {v : V} (h : share f t k = f v) :
    total f (t.set k v) = total f t := by
  rw [total_set, h]
  abel

/-- Entries that do not count add up to nothing. -/
theorem total_eq_zero {f : V → M} {t : Table K V} (h : ∀ k v, t.get k = some v → f v = 0) :
    total f t = 0 := by
  refine List.sum_eq_zero fun x hx => ?_
  obtain ⟨e, he, rfl⟩ := List.mem_map.mp hx
  exact h e.1 e.2 (AList.mem_lookup_iff.mpr he)

/-- Totals compare as the stored values do. -/
theorem total_le [PartialOrder M] [IsOrderedAddMonoid M] {f g : V → M} {t : Table K V}
    (h : ∀ k v, t.get k = some v → f v ≤ g v) : total f t ≤ total g t := by
  refine List.sum_le_sum fun e he => ?_
  exact h e.1 e.2 (AList.mem_lookup_iff.mpr he)

end Total

section Amounts

variable [DecidableEq K]

/-- A table of amounts as a function, `0` where nothing is stored. -/
noncomputable def amounts (t : Table K I128) : K →₀ ℤ :=
  t.lookupFinsupp.mapRange BoundedInt.val BoundedInt.i128_zero_val

/-- The amount read with `unwrap_or(0)`. -/
def amount (t : Table K I128) (k : K) : I128 := (t.get k).getD 0

theorem amounts_apply (t : Table K I128) (k : K) : t.amounts k = (t.amount k).val := by
  simp [amounts, amount, get]

theorem amount_set_self (t : Table K I128) (k : K) (v : I128) : (t.set k v).amount k = v := by
  simp [amount]

theorem amount_set_ne {t : Table K I128} {k k' : K} {v : I128} (h : k' ≠ k) :
    (t.set k v).amount k' = t.amount k' := by
  simp [amount, h]

/-- A write adds the difference at its key. -/
theorem amounts_set (t : Table K I128) (k : K) (v : I128) :
    (t.set k v).amounts = t.amounts + Finsupp.single k (v.val - (t.amount k).val) := by
  ext k'
  rw [Finsupp.add_apply, amounts_apply, amounts_apply]
  by_cases h : k' = k
  · subst h
    rw [amount_set_self, Finsupp.single_eq_same]
    ring
  · rw [amount_set_ne h, Finsupp.single_eq_of_ne h, add_zero]

theorem share_val (t : Table K I128) (k : K) : share BoundedInt.val t k = (t.amount k).val := by
  unfold share amount
  cases t.get k <;> rfl

theorem amounts_empty : (∅ : Table K I128).amounts = 0 := by
  ext k
  rw [amounts_apply]
  simp [amount]

end Amounts

end Table

/-! ## Numbered entries

Entries filed under the numbers 0, 1, 2, ... with a counter that is the next
number to give out. `Numbered f count` says that exactly the numbers below the
counter are in use; adding an entry under the counter and replacing an entry
keep it, and the counter itself is never in use. -/

variable {V : Type} {f : U32 → Option V} {count : U32}

/-- Entries are filed under exactly the numbers below `count`. -/
def Numbered (f : U32 → Option V) (count : U32) : Prop :=
  ∀ id, (f id).isSome ↔ id.val < count.val

theorem numbered_empty : Numbered (fun _ => (none : Option V)) 0 := by
  intro id
  constructor
  · intro h
    cases h
  · intro h
    exact absurd id.lo_le (not_le.mpr h)

theorem Numbered.fresh (h : Numbered f count) : f count = none := by
  rw [← Option.not_isSome_iff_eq_none, h count]
  exact lt_irrefl _

theorem Numbered.add (h : Numbered f count) {next : U32} (hnext : next.val = count.val + 1)
    (v : V) : Numbered (fun id => if id = count then some v else f id) next := by
  intro id
  show (if id = count then some v else f id).isSome ↔ _
  split
  · next heq =>
    rw [heq, hnext]
    exact iff_of_true rfl (Int.lt_succ _)
  · next hne =>
    have hval : id.val ≠ count.val := fun he => hne (BoundedInt.ext he)
    rw [h id, hnext]
    omega

theorem Numbered.replace (h : Numbered f count) {k : U32} {v : V} (hk : f k = some v) (v' : V) :
    Numbered (fun id => if id = k then some v' else f id) count := by
  intro id
  show (if id = k then some v' else f id).isSome ↔ _
  split
  · next heq =>
    rw [← h id, heq, hk]
    exact Iff.rfl
  · exact h id

end Soroban
