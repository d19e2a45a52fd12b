import Scoopdope.Database.Repository

/-!
# Many rows at once

How many rows are found after one has been written or removed: `length_find_replace` and
`length_find_remove`. `delete` deletes all rows that satisfy a condition. `insertRows` inserts a
list of new rows in one transaction: all of them, or none if the key of one is taken.
-/

namespace Database.Repository

variable {K R : Type} [DecidableEq K] {key : R → K}

/-- `repo.delete({ where })`. -/
def delete (t : Repository key) (p : R → Bool) : Repository key where
  rows := ⟨t.rows.entries.filter fun e => !p e.2, t.rows.nodupKeys.sublist List.filter_sublist⟩
  keyed := by
    intro k row h
    have hmem := AList.mem_lookup_iff.mp h
    exact t.keyed k row (AList.mem_lookup_iff.mpr (List.mem_of_mem_filter hmem))

/-- `repo.save(rows)`, where the rows are new. -/
def insertRows (t : Repository key) : List R → Option (Repository key)
  | [] => some t
  | row :: rows => if (t.get (key row)).isSome then none else (t.save row).insertRows rows

variable {t t' : Repository key} {p q : R → Bool} {row : R} {rows : List R}

/-! ## One row -/

/-- The rows but for one of them. -/
theorem length_filter_ne {old : R} (hold : old ∈ t) :
    ((t.find p).filter fun row => key row ≠ key old).length + (if p old then 1 else 0) =
      (t.find p).length := by
  have hcount : (t.find p).countP (fun row => key row = key old) = if p old then 1 else 0 := by
    have hmap : (t.find p).countP (fun row => key row = key old) =
        ((t.find p).map key).count (key old) := by
      rw [List.count, List.countP_map]
      rfl
    rw [hmap, nodup_find_keys.count]
    refine if_congr (List.mem_map.trans ⟨?_, fun hp => ?_⟩) rfl rfl
    · rintro ⟨row, hrow, hkey⟩
      obtain ⟨hmem, hp⟩ := mem_find.mp hrow
      rw [mem_def, hkey, mem_def.mp hold] at hmem
      cases hmem
      exact hp
    · exact ⟨old, mem_find.mpr ⟨hold, hp⟩, rfl⟩
  have hsplit := List.length_eq_countP_add_countP (l := t.find p) fun row => key row = key old
  have hrest : ((t.find p).countP fun row => decide ¬ decide (key row = key old) = true) =
      ((t.find p).filter fun row => key row ≠ key old).length := by
    rw [List.countP_eq_length_filter]
    simp only [decide_eq_true_iff]
  rw [hcount, hrest] at hsplit
  rw [hsplit, Nat.add_comm]

theorem length_find_remove {old : R} (hold : old ∈ t) :
    ((t.remove (key old)).find p).length + (if p old then 1 else 0) = (t.find p).length := by
  rw [find_remove.length_eq, length_filter_ne hold]

/-- A row that is written in place of another one. -/
theorem length_find_replace {old : R} (hold : old ∈ t) (hkey : key row = key old) :
    ((t.save row).find p).length + (if p old then 1 else 0) =
      (t.find p).length + (if p row then 1 else 0) := by
  have hrest := length_filter_ne (p := p) hold
  rw [find_save.length_eq, List.length_append, hkey]
  split <;> simp only [List.length_singleton, List.length_nil] <;> omega

/-! ## Lists of rows -/

theorem find_delete : (t.delete p).find q = (t.find q).filter fun row => !p row := by
  unfold find delete
  rw [List.filter_filter, List.filter_map, List.filter_map, List.filter_filter]
  refine congrArg _ (List.filter_congr fun e _ => ?_)
  exact Bool.and_comm _ _

theorem mem_delete : row ∈ t.delete p ↔ row ∈ t ∧ p row = false := by
  rw [← mem_entries, ← mem_entries, delete, List.mem_map, List.mem_map]
  constructor
  · rintro ⟨e, he, rfl⟩
    obtain ⟨hmem, hp⟩ := List.mem_filter.mp he
    exact ⟨⟨e, hmem, rfl⟩, (Bool.not_eq_true' _).mp hp⟩
  · rintro ⟨⟨e, hmem, rfl⟩, hp⟩
    exact ⟨e, List.mem_filter.mpr ⟨hmem, (Bool.not_eq_true' _).mpr hp⟩, rfl⟩

/-- A row is there under its key, or another one, or none. -/
theorem isSome_get_iff {k : K} : (t.get k).isSome ↔ ∃ row ∈ t, key row = k := by
  rw [Option.isSome_iff_exists]
  constructor
  · rintro ⟨row, hrow⟩
    have hkey := key_of_get hrow
    refine ⟨row, ?_, hkey⟩
    rw [mem_def, hkey]
    exact hrow
  · rintro ⟨row, hrow, rfl⟩
    exact ⟨row, hrow⟩

/-- Rows with different keys can be inserted exactly when none of the keys is taken. -/
theorem insertRows_isSome (hnodup : (rows.map key).Nodup) :
    (t.insertRows rows).isSome ↔ ∀ row ∈ rows, t.get (key row) = none := by
  induction rows generalizing t with
  | nil => exact iff_of_true rfl nofun
  | cons row rows ih =>
    obtain ⟨hnew, hrows⟩ := List.nodup_cons.mp hnodup
    rw [insertRows, List.forall_mem_cons]
    split
    · next htaken =>
      refine iff_of_false nofun fun h => ?_
      rw [h.1] at htaken
      cases htaken
    · next hfree =>
      have hsame : ∀ other ∈ rows, (t.save row).get (key other) = t.get (key other) := by
        intro other hother
        rw [get_save, if_neg]
        exact fun hkey => hnew (hkey ▸ List.mem_map_of_mem hother)
      rw [ih hrows, and_iff_right (Option.not_isSome_iff_eq_none.mp hfree)]
      exact forall₂_congr fun other hother => by rw [hsame other hother]

/-- The rows that are found after an insertion are the new ones and those that were there. -/
theorem find_insertRows (h : t.insertRows rows = some t') :
    (t'.find p).Perm (rows.filter p ++ t.find p) := by
  induction rows generalizing t with
  | nil =>
    cases h
    exact List.Perm.refl _
  | cons row rows ih =>
    rw [insertRows] at h
    split at h
    · cases h
    · next hfree =>
      have hrest := ih h
      rw [find_save_new (Option.not_isSome_iff_eq_none.mp hfree)] at hrest
      rw [List.filter_cons]
      split at hrest
      · next hp =>
        rw [if_pos hp]
        exact hrest.trans List.perm_middle
      · next hp =>
        rw [if_neg hp]
        exact hrest

theorem mem_insertRows (h : t.insertRows rows = some t') :
    row ∈ t' ↔ row ∈ rows ∨ row ∈ t := by
  have hperm := find_insertRows (p := fun _ => true) h
  have hmem := hperm.mem_iff (a := row)
  rw [mem_find, List.mem_append, List.filter_true, mem_find, and_iff_left rfl,
    and_iff_left rfl] at hmem
  exact hmem

end Database.Repository
