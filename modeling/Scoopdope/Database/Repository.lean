import Mathlib.Logic.Function.Basic
import Scoopdope.Soroban.Table

/-!
# Rows

A table has columns `C`, and a value of type `V c` in column `c`. A `Row` has a value in
every column, a `Patch` in some of them. `spread row data` is the row with the values of
the patch written over its own.
-/

namespace Database

variable {C : Type} {V : C → Type}

abbrev Row (V : C → Type) : Type := (c : C) → V c

abbrev Patch (V : C → Type) : Type := (c : C) → Option (V c)

namespace Patch

def empty : Patch V := fun _ => none

/-- The patch with one more value. -/
def set [DecidableEq C] (data : Patch V) (c : C) (v : V c) : Patch V :=
  Function.update data c (some v)

/-- Does the patch have a value in this column? -/
def sets (data : Patch V) (c : C) : Bool := (data c).isSome

@[simp] theorem empty_apply (c : C) : (empty : Patch V) c = none := rfl

section Set

variable [DecidableEq C] (data : Patch V) (c : C) (v : V c)

@[simp] theorem set_self : data.set c v c = some v := by
  rw [set, Function.update_self]

@[simp] theorem set_ne {c' : C} (h : c' ≠ c) : data.set c v c' = data c' := by
  rw [set, Function.update_of_ne h]

theorem sets_set_empty {c c' : C} {v : V c} : (empty.set c v).sets c' = decide (c' = c) := by
  by_cases h : c' = c
  · subst h
    rw [sets, set_self, Option.isSome_some, decide_eq_true rfl]
  · rw [sets, set_ne _ _ _ h, empty_apply, Option.isSome_none, decide_eq_false h]

end Set

end Patch

/-- `{ ...row, ...data }`. -/
def spread (row : Row V) (data : Patch V) : Row V := fun c => (data c).getD (row c)

section Spread

variable {row : Row V} {data : Patch V} {c : C}

theorem spread_of_some {v : V c} (h : data c = some v) : spread row data c = v := by
  rw [spread, h]
  rfl

theorem spread_of_none (h : data c = none) : spread row data c = row c := by
  rw [spread, h]
  rfl

theorem spread_of_not_sets (h : data.sets c = false) : spread row data c = row c :=
  spread_of_none (Option.not_isSome_iff_eq_none.mp (by rw [← Patch.sets, h]; decide))

end Spread

end Database

/-!
## Repositories

The rows of a table, each under its primary key. A row is looked up by its key or by a
condition; which of several that satisfy it is found is not specified. `save` writes a row
in place of the one with its key, if there is one.
-/

namespace Database

open Soroban

variable {K R : Type} [DecidableEq K]

structure Repository (key : R → K) where
  rows : Table K R
  keyed : ∀ k row, rows.get k = some row → key row = k

namespace Repository

variable {key : R → K}

def empty : Repository key where
  rows := ∅
  keyed := fun _ _ h => absurd h Table.get_empty_ne_some

def get (t : Repository key) (k : K) : Option R := t.rows.get k

/-- `repo.findOne({ where })`. -/
def findOne (t : Repository key) (p : R → Bool) : Option R :=
  (t.rows.entries.map Sigma.snd).find? p

/-- `repo.find({ where })`. -/
def find (t : Repository key) (p : R → Bool) : List R :=
  (t.rows.entries.map Sigma.snd).filter p

/-- `repo.save(row)`. -/
def save (t : Repository key) (row : R) : Repository key where
  rows := t.rows.set (key row) row
  keyed := Table.forall_set t.keyed rfl

/-- `repo.remove(row)`, for the row with this key. -/
def remove (t : Repository key) (k : K) : Repository key where
  rows := t.rows.remove k
  keyed := Table.forall_remove t.keyed

/-- `repo.createQueryBuilder().update()`: some columns of all rows, but not the key. -/
def update (t : Repository key) (f : R → R) (hf : ∀ row, key (f row) = key row) :
    Repository key where
  rows := ⟨t.rows.entries.map fun e => ⟨e.1, f e.2⟩, by
    rw [List.NodupKeys, List.keys, List.map_map]
    exact t.rows.nodupKeys⟩
  keyed := by
    intro k row h
    obtain ⟨⟨k', row'⟩, hmem, heq⟩ := List.mem_map.mp (AList.mem_lookup_iff.mp h)
    cases heq
    exact (hf row').trans (t.keyed k' row' (AList.mem_lookup_iff.mpr hmem))

/-- The row is in the table. -/
instance : Membership R (Repository key) := ⟨fun t row => t.get (key row) = some row⟩

variable {t : Repository key} {p : R → Bool} {row : R} {k : K}

theorem key_of_get (h : t.get k = some row) : key row = k := t.keyed k row h

@[simp] theorem get_empty : (empty : Repository key).get k = none := Table.get_empty k

@[simp] theorem get_save_self : (t.save row).get (key row) = some row :=
  Table.get_set_self t.rows (key row) row

theorem get_save (t : Repository key) (row : R) (k : K) :
    (t.save row).get k = if k = key row then some row else t.get k :=
  Table.get_set t.rows (key row) k row

/-- A row that is saved in place of another makes no new key. -/
theorem isSome_get_save (row : R) {old : R} (h : t.get (key row) = some old) (k : K) :
    ((t.save row).get k).isSome = (t.get k).isSome := by
  rw [get_save]
  split
  · next hk => rw [hk, h, Option.isSome_some, Option.isSome_some]
  · rfl

theorem mem_def : row ∈ t ↔ t.get (key row) = some row := Iff.rfl

instance [DecidableEq R] : Decidable (row ∈ t) := inferInstanceAs (Decidable (_ = _))

theorem mem_entries : row ∈ t.rows.entries.map Sigma.snd ↔ row ∈ t := by
  rw [List.mem_map, mem_def]
  constructor
  · rintro ⟨⟨k, row'⟩, hmem, rfl⟩
    have hget : t.get k = some row' := AList.mem_lookup_iff.mpr hmem
    rw [key_of_get hget]
    exact hget
  · intro hget
    exact ⟨⟨key row, row⟩, AList.mem_lookup_iff.mp hget, rfl⟩

theorem mem_find : row ∈ t.find p ↔ row ∈ t ∧ p row = true := by
  rw [find, List.mem_filter, mem_entries]

/-- No two rows that are found have one key. -/
theorem nodup_find_keys : ((t.find p).map key).Nodup := by
  have hkeys : (t.rows.entries.map Sigma.snd).map key = t.rows.entries.map Sigma.fst := by
    rw [List.map_map]
    exact List.map_congr_left fun e he => t.keyed e.1 e.2 (AList.mem_lookup_iff.mpr he)
  have hnodup : ((t.rows.entries.map Sigma.snd).map key).Nodup := by
    rw [hkeys]
    exact t.rows.nodupKeys
  exact hnodup.sublist (List.filter_sublist.map key)

/-- No row is found twice. -/
theorem nodup_find : (t.find p).Nodup := nodup_find_keys.of_map

theorem findOne_eq_none : t.findOne p = none ↔ ∀ row ∈ t, p row = false := by
  unfold findOne
  rw [List.find?_eq_none]
  constructor
  · intro h row hrow
    exact Bool.eq_false_of_not_eq_true (h row (mem_entries.mpr hrow))
  · intro h row hrow
    rw [h row (mem_entries.mp hrow)]
    exact Bool.false_ne_true

theorem not_mem_empty : row ∉ (empty : Repository key) := by
  rw [mem_def, get_empty]
  exact nofun

theorem mem_save {row' : R} :
    row' ∈ t.save row ↔ row' = row ∨ row' ∈ t ∧ key row' ≠ key row := by
  rw [mem_def, get_save]
  split
  · next hkey =>
    rw [Option.some.injEq]
    constructor
    · exact fun h => .inl h.symm
    · rintro (h | ⟨-, hne⟩)
      · exact h.symm
      · exact absurd hkey hne
  · next hkey =>
    constructor
    · exact fun h => .inr ⟨h, hkey⟩
    · rintro (rfl | ⟨h, -⟩)
      · exact absurd rfl hkey
      · exact h

theorem get_remove (t : Repository key) (k k' : K) :
    (t.remove k).get k' = if k' = k then none else t.get k' :=
  Table.get_remove t.rows k k'

theorem mem_remove : row ∈ t.remove k ↔ row ∈ t ∧ key row ≠ k := by
  rw [mem_def, get_remove]
  split
  · next hkey => exact ⟨nofun, fun h => absurd hkey h.2⟩
  · next hkey => exact ⟨fun h => ⟨h, hkey⟩, And.left⟩

theorem mem_update {f : R → R} {hf : ∀ row, key (f row) = key row} :
    row ∈ t.update f hf ↔ ∃ old ∈ t, f old = row := by
  rw [← mem_entries, update, List.mem_map]
  constructor
  · rintro ⟨e, hmem, rfl⟩
    obtain ⟨old, hold, rfl⟩ := List.mem_map.mp hmem
    exact ⟨old.2, mem_entries.mp (List.mem_map.mpr ⟨old, hold, rfl⟩), rfl⟩
  · rintro ⟨old, hold, rfl⟩
    obtain ⟨e, hmem, rfl⟩ := List.mem_map.mp (mem_entries.mpr hold)
    exact ⟨⟨e.1, f e.2⟩, List.mem_map.mpr ⟨e, hmem, rfl⟩, rfl⟩

/-- A row that is updated is found under its key. -/
theorem get_update {f : R → R} {hf : ∀ row, key (f row) = key row} (k : K) :
    (t.update f hf).get k = (t.get k).map f := by
  cases hold : t.get k with
  | some row =>
    have hkey := key_of_get hold
    have hrow : row ∈ t := by
      rw [mem_def, hkey]
      exact hold
    have hmem : f row ∈ t.update f hf := mem_update.mpr ⟨row, hrow, rfl⟩
    rw [mem_def, hf, hkey] at hmem
    exact hmem
  | none =>
    cases hnew : (t.update f hf).get k with
    | none => rfl
    | some row =>
      have hmem : row ∈ t.update f hf := by
        rw [mem_def, key_of_get hnew]
        exact hnew
      obtain ⟨old, hrow, rfl⟩ := mem_update.mp hmem
      rw [mem_def, ← hf, key_of_get hnew, hold] at hrow
      cases hrow

theorem findOne_some (h : t.findOne p = some row) : p row = true ∧ t.get (key row) = some row :=
  ⟨List.find?_some h, mem_entries.mp (List.mem_of_find?_eq_some h)⟩

/-- A row that is the only one to satisfy a condition is the one that is found. -/
theorem findOne_of_unique (hrow : row ∈ t) (hp : p row = true)
    (hunique : ∀ other ∈ t, p other = true → key other = key row) : t.findOne p = some row := by
  cases hfound : t.findOne p with
  | none =>
    rw [findOne_eq_none.mp hfound row hrow] at hp
    cases hp
  | some other =>
    obtain ⟨hother, hget⟩ := findOne_some hfound
    rw [hunique other hget hother] at hget
    exact hget.symm.trans hrow

/-- A row is found by its key. -/
theorem findOne_key (hp : ∀ row, p row = true ↔ key row = k) : t.findOne p = t.get k := by
  cases hget : t.get k with
  | none =>
    refine findOne_eq_none.mpr fun row hrow => Bool.eq_false_iff.mpr fun hholds => ?_
    rw [mem_def, (hp row).mp hholds, hget] at hrow
    cases hrow
  | some row =>
    have hkey := key_of_get hget
    refine findOne_of_unique ?_ ((hp row).mpr hkey) fun other _ hother => ?_
    · rw [mem_def, hkey]
      exact hget
    · exact ((hp other).mp hother).trans hkey.symm

/-- A new row is found before the others. -/
theorem find_save_new (h : t.get (key row) = none) :
    (t.save row).find p = if p row then row :: t.find p else t.find p := by
  have hentries : (t.save row).rows.entries = ⟨key row, row⟩ :: t.rows.entries := by
    change (t.rows.insert (key row) row).entries = _
    exact AList.entries_insert_of_notMem (AList.lookup_eq_none.mp h)
  rw [find, find, hentries, List.map_cons, List.filter_cons]

/-- The rows that are found after one has been written. -/
theorem find_save : ((t.save row).find p).Perm
    ((if p row then [row] else []) ++ (t.find p).filter fun old => key old ≠ key row) := by
  have hnodup : ((if p row then [row] else []) ++
      (t.find p).filter fun old => key old ≠ key row).Nodup := by
    refine List.nodup_append.mpr ⟨?_, nodup_find.filter _, ?_⟩
    · split
      · exact List.nodup_singleton row
      · exact List.nodup_nil
    · intro a ha b hb hsame
      subst hsame
      split at ha
      · rw [List.mem_singleton.mp ha] at hb
        simp at hb
      · cases ha
  rw [List.perm_ext_iff_of_nodup nodup_find hnodup]
  intro other
  rw [mem_find, mem_save, List.mem_append, List.mem_filter, mem_find, decide_eq_true_iff]
  constructor
  · rintro ⟨rfl | ⟨hother, hne⟩, hholds⟩
    · exact .inl (by rw [if_pos hholds]; exact List.mem_singleton_self other)
    · exact .inr ⟨⟨hother, hholds⟩, hne⟩
  · rintro (h | ⟨⟨hother, hholds⟩, hne⟩)
    · split at h
      · next hholds =>
        rw [List.mem_singleton.mp h]
        exact ⟨.inl rfl, hholds⟩
      · cases h
    · exact ⟨.inr ⟨hother, hne⟩, hholds⟩

/-- What a row that is written in place of another one leaves as it was. -/
theorem map_find_save {B : Type} {f : R → B} {old : R} (hold : t.get (key row) = some old)
    (hp : p row = p old) (hf : f row = f old) :
    (((t.save row).find p).map f).Perm ((t.find p).map f) := by
  have hkey : key old = key row := key_of_get hold
  have hsame : ((t.save old).find p).Perm (t.find p) := by
    rw [List.perm_ext_iff_of_nodup nodup_find nodup_find]
    intro other
    rw [mem_find, mem_find, mem_def, mem_def, get_save]
    refine and_congr_left fun _ => ?_
    split
    · next heq => rw [heq, hkey, hold]
    · rfl
  refine (find_save.map f).trans (List.Perm.trans ?_ (hsame.map f))
  refine List.Perm.trans ?_ (find_save.map f).symm
  rw [hp, hkey, List.map_append, List.map_append]
  split
  · rw [List.map_singleton, List.map_singleton, hf]
  · rfl

/-- One row more is found after a row has been written that replaces none of them. -/
theorem length_find_save_new (hp : p row = true) (hnew : ∀ old ∈ t, p old = true →
    key old ≠ key row) : ((t.save row).find p).length = (t.find p).length + 1 := by
  have hkept : ((t.find p).filter fun old => key old ≠ key row) = t.find p := by
    refine List.filter_eq_self.mpr fun old hold => decide_eq_true ?_
    obtain ⟨hmem, hholds⟩ := mem_find.mp hold
    exact hnew old hmem hholds
  rw [find_save.length_eq, if_pos hp, hkept, List.length_append, List.length_singleton,
    Nat.add_comm]

/-- No more rows are found after a row has been written, unless it is a new one of them. -/
theorem length_find_save_le (h : p row = true → ∃ old ∈ t, p old = true ∧ key old = key row) :
    ((t.save row).find p).length ≤ (t.find p).length := by
  rw [find_save.length_eq, List.length_append]
  split
  · next hholds =>
    obtain ⟨old, hold, hfound, hkey⟩ := h hholds
    have hfewer : ((t.find p).filter fun old => key old ≠ key row).length < (t.find p).length :=
      List.length_filter_lt_length_iff_exists.mpr ⟨old, mem_find.mpr ⟨hold, hfound⟩, by simp [hkey]⟩
    rw [List.length_singleton, Nat.add_comm]
    exact hfewer
  · rw [List.length_nil, Nat.zero_add]
    exact List.length_filter_le _ _

/-- Where no rows are added, no more are found. -/
theorem length_find_le {t' : Repository key} (h : ∀ row ∈ t', row ∈ t) :
    (t'.find p).length ≤ (t.find p).length := by
  refine List.Subperm.length_le (List.subperm_of_subset nodup_find fun row hrow => ?_)
  obtain ⟨hmem, hholds⟩ := mem_find.mp hrow
  exact mem_find.mpr ⟨h row hmem, hholds⟩

/-- The rows that are found after one has been removed. -/
theorem find_remove :
    ((t.remove k).find p).Perm ((t.find p).filter fun row => key row ≠ k) := by
  rw [List.perm_ext_iff_of_nodup nodup_find (nodup_find.filter _)]
  intro row
  rw [mem_find, mem_remove, List.mem_filter, mem_find, decide_eq_true_iff]
  exact and_right_comm

/-- An update that does not change which rows are found. -/
theorem find_update {f : R → R} {hf : ∀ row, key (f row) = key row}
    (hp : ∀ row, p (f row) = p row) : (t.update f hf).find p = (t.find p).map f := by
  have hrows : (t.update f hf).rows.entries.map Sigma.snd =
      (t.rows.entries.map Sigma.snd).map f := by
    rw [update, List.map_map, List.map_map]
    rfl
  rw [find, find, hrows, List.filter_map]
  congr 2
  exact funext hp

end Repository

end Database
