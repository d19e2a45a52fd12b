import Mathlib.Data.List.Basic
import Mathlib.Data.Nat.Find
import Mathlib.Data.Set.Finite.Lattice

/-!
# Batches

A list of rows that is fetched in batches, from one offset to the next. A fetch may fail, and its
batch is then skipped; the loop ends with a batch that is not full.

* `fetchBatches_isSome_iff`: the loop ends within a number of fetches exactly when one of them
  succeeds and reaches past the last row.
* `fetches_le`: it takes one fetch more than there are full batches, at most, and those that fail.
* `fetchBatches_eq_some`: it has then fetched the rows outside of the failed batches.
-/

namespace Database

variable {R : Type*} {size : Nat} {fails : Nat → Bool} {rows fetched : List R}

/-- The rows that the loop fetches from an offset on, if it ends within the number of fetches. -/
def fetchBatches (size : Nat) (fails : Nat → Bool) (rows : List R) : Nat → Nat → Option (List R)
  | 0, _ => none
  | fetches + 1, offset =>
    if fails offset then fetchBatches size fails rows fetches (offset + size)
    else
      let batch := (rows.drop offset).take size
      if batch.length = 0 then some []
      else if batch.length < size then some batch
      else (fetchBatches size fails rows fetches (offset + size)).map fun rest => batch ++ rest

/-- The rows, of which the first one is at `offset`, that are in no batch that fails. -/
def outsideFailed (size : Nat) (fails : Nat → Bool) (rows : List R) (offset : Nat) : List R :=
  ((rows.zipIdx offset).filter fun entry => !fails (entry.2 / size * size)).map Prod.fst

/-! ## When the loop ends -/

/-- The fetch of number `k` succeeds, and its batch is not full. -/
def Ends (size : Nat) (fails : Nat → Bool) (rows : List R) (offset k : Nat) : Prop :=
  fails (offset + k * size) = false ∧ rows.length < offset + (k + 1) * size

instance (offset k : Nat) : Decidable (Ends size fails rows offset k) :=
  inferInstanceAs (Decidable (_ ∧ _))

theorem ends_succ {offset k : Nat} :
    Ends size fails rows offset (k + 1) ↔ Ends size fails rows (offset + size) k := by
  have hnext : offset + (k + 1) * size = offset + size + k * size := by
    rw [Nat.add_mul, Nat.one_mul]
    omega
  have hpast : offset + (k + 1 + 1) * size = offset + size + (k + 1) * size := by
    rw [Nat.add_mul (k + 1), Nat.one_mul]
    omega
  rw [Ends, Ends, hnext, hpast]

/-- The loop ends within the fetches exactly when one of them ends it. -/
theorem fetchBatches_isSome_iff (hsize : 0 < size) {fetches offset : Nat} :
    (fetchBatches size fails rows fetches offset).isSome ↔
      ∃ k < fetches, Ends size fails rows offset k := by
  induction fetches generalizing offset with
  | zero => exact iff_of_false nofun fun ⟨k, hk, _⟩ => absurd hk (Nat.not_lt_zero k)
  | succ fetches ih =>
    -- The later fetches are those of the rest of the loop.
    have hlater : (∃ k < fetches + 1, Ends size fails rows offset k) ↔
        Ends size fails rows offset 0 ∨ ∃ k < fetches, Ends size fails rows (offset + size) k := by
      rw [Nat.exists_lt_succ_left]
      exact or_congr_right (exists_congr fun k => and_congr_right fun _ => ends_succ)
    have hlength : ((rows.drop offset).take size).length = min size (rows.length - offset) := by
      rw [List.length_take, List.length_drop]
    rw [hlater, ← ih, fetchBatches, Ends, Nat.zero_mul, Nat.add_zero, Nat.zero_add, Nat.one_mul]
    by_cases hfails : fails offset = true
    · rw [if_pos hfails, hfails]
      exact (or_iff_right fun h => absurd h.1 (by decide)).symm
    · rw [if_neg hfails, Bool.eq_false_iff.mpr hfails]
      dsimp only
      rw [hlength]
      split
      · next hempty =>
        exact iff_of_true rfl (.inl ⟨rfl, by omega⟩)
      · split
        · next hshort => exact iff_of_true rfl (.inl ⟨rfl, by omega⟩)
        · next hfull =>
          rw [Option.isSome_map]
          exact (or_iff_right fun h => by omega).symm

/-- The loop comes to an end exactly when some fetch ends it. -/
theorem fetchBatches_ends_iff (hsize : 0 < size) {offset : Nat} :
    (∃ fetches, (fetchBatches size fails rows fetches offset).isSome) ↔
      ∃ k, Ends size fails rows offset k := by
  simp only [fetchBatches_isSome_iff hsize]
  exact ⟨fun ⟨_, k, _, hk⟩ => ⟨k, hk⟩, fun ⟨k, hk⟩ => ⟨k + 1, k, Nat.lt_succ_self k, hk⟩⟩

/-- How many of the first fetches fail. -/
def failedFetches (size : Nat) (fails : Nat → Bool) (fetches : Nat) : Nat :=
  (List.range fetches).countP fun k => fails (k * size)

/-- A loop that ends needs one fetch more than there are batches, at most, and those that fail. -/
theorem fetches_le {fetches : Nat} (hsize : 0 < size)
    (hlast : fetchBatches size fails rows fetches 0 = none) :
    fetches ≤ rows.length / size + failedFetches size fails fetches := by
  have hbefore {k : Nat} (hk : k < fetches) (hover : rows.length / size ≤ k) :
      fails (k * size) = true := by
    by_contra hok
    have hpast : rows.length < (k + 1) * size :=
      (Nat.div_lt_iff_lt_mul hsize).mp (Nat.lt_succ_of_le hover)
    have hends : Ends size fails rows 0 k := by
      rw [Ends, Nat.zero_add, Nat.zero_add]
      exact ⟨Bool.eq_false_iff.mpr hok, hpast⟩
    have hsome := (fetchBatches_isSome_iff hsize).mpr ⟨k, hk, hends⟩
    rw [hlast] at hsome
    cases hsome
  clear hlast
  induction fetches with
  | zero => exact Nat.zero_le _
  | succ fetches ih =>
    have hle := ih fun hk => hbefore (Nat.lt_succ_of_lt hk)
    rw [failedFetches, List.range_succ, List.countP_append, List.countP_singleton]
    rw [failedFetches] at hle
    by_cases hover : rows.length / size ≤ fetches
    · rw [if_pos (hbefore (Nat.lt_succ_self fetches) hover)]
      omega
    · omega

/-! ## What it has fetched -/

theorem outsideFailed_append (as bs : List R) (offset : Nat) :
    outsideFailed size fails (as ++ bs) offset =
      outsideFailed size fails as offset ++ outsideFailed size fails bs (offset + as.length) := by
  unfold outsideFailed
  rw [List.zipIdx_append, List.filter_append, List.map_append]

theorem outsideFailed_sublist (rows : List R) (offset : Nat) :
    (outsideFailed size fails rows offset).Sublist rows := by
  have hsub := (List.filter_sublist (p := fun entry => !fails (entry.2 / size * size))
    (l := rows.zipIdx offset)).map Prod.fst
  rw [List.zipIdx_map_fst] at hsub
  exact hsub

/-- Where no fetch fails, nothing is left out. -/
theorem outsideFailed_of_none (h : ∀ k, fails (k * size) = false) (rows : List R) (offset : Nat) :
    outsideFailed size fails rows offset = rows := by
  unfold outsideFailed
  rw [List.filter_eq_self.mpr fun entry _ => by rw [h]; rfl, List.zipIdx_map_fst]

/-- A batch is in as a whole or not at all. -/
theorem outsideFailed_batch {batch : List R} {k : Nat} (hbatch : batch.length ≤ size) :
    outsideFailed size fails batch (k * size) = if fails (k * size) then [] else batch := by
  have hoffset {entry : R × Nat} (h : entry ∈ batch.zipIdx (k * size)) :
      entry.2 / size * size = k * size := by
    obtain ⟨hle, hlt, -⟩ := List.mem_zipIdx h
    rw [Nat.div_eq_of_lt_le hle (by rw [Nat.succ_mul]; omega)]
  unfold outsideFailed
  split
  · next hfails =>
    rw [List.filter_eq_nil_iff.mpr fun entry h => by rw [hoffset h, hfails]; decide, List.map_nil]
  · next hfetched =>
    have hall : ∀ entry ∈ batch.zipIdx (k * size), (!fails (entry.2 / size * size)) = true := by
      intro entry h
      rw [hoffset h, Bool.eq_false_iff.mpr hfetched]
      rfl
    rw [List.filter_eq_self.mpr hall, List.zipIdx_map_fst]

/-- One batch, and those after it. -/
theorem outsideFailed_drop {k : Nat} :
    outsideFailed size fails (rows.drop (k * size)) (k * size) =
      (if fails (k * size) then [] else (rows.drop (k * size)).take size) ++
        outsideFailed size fails (rows.drop ((k + 1) * size)) ((k + 1) * size) := by
  have hnext : (k + 1) * size = k * size + size := Nat.succ_mul k size
  have hsplit := List.take_append_drop size (rows.drop (k * size))
  have hlength : ((rows.drop (k * size)).take size).length = min size (rows.length - k * size) := by
    rw [List.length_take, List.length_drop]
  rw [← outsideFailed_batch (List.length_take_le _ _)]
  conv_lhs => rw [← hsplit, outsideFailed_append, List.drop_drop, ← hnext, hlength]
  rcases le_total size (rows.length - k * size) with hfull | hshort
  · rw [min_eq_left hfull, hnext]
  · have hnil : rows.drop ((k + 1) * size) = [] := List.drop_eq_nil_of_le (by omega)
    rw [hnil]
    rfl

/-- A loop that has ended has fetched the rows outside of the failed batches. -/
theorem fetchBatches_eq_some (hsize : 0 < size) {fetches k : Nat}
    (h : fetchBatches size fails rows fetches (k * size) = some fetched) :
    fetched = outsideFailed size fails (rows.drop (k * size)) (k * size) := by
  induction fetches generalizing k fetched with
  | zero => cases h
  | succ fetches ih =>
    rw [fetchBatches, ← Nat.succ_mul] at h
    rw [outsideFailed_drop]
    -- Behind a batch that is not full there is nothing.
    have hrest (hshort : ((rows.drop (k * size)).take size).length < size) :
        outsideFailed size fails (rows.drop ((k + 1) * size)) ((k + 1) * size) = [] := by
      rw [List.length_take, List.length_drop] at hshort
      rw [List.drop_eq_nil_of_le (by rw [Nat.succ_mul]; omega)]
      rfl
    split at h
    · next hfails =>
      rw [if_pos hfails]
      exact ih h
    · next hfetched =>
      rw [if_neg hfetched]
      dsimp only at h
      split at h
      · next hempty =>
        cases h
        rw [hrest (by omega), List.append_nil, List.length_eq_zero_iff.mp hempty]
      · split at h
        · next hshort =>
          cases h
          rw [hrest hshort, List.append_nil]
        · obtain ⟨rest, hrows, rfl⟩ := Option.map_eq_some_iff.mp h
          rw [ih hrows]

end Database
