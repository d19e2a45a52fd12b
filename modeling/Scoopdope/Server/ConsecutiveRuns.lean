import Mathlib.Order.Bounds.Basic
import Mathlib.Data.Set.Insert
import Mathlib.Tactic.Common

/-!
# Runs of consecutive days

Days are integers. Some of them are active, and a run is a number of active days one after another.
When a day is added that comes after all of them:

* `isGreatest_endingOn`: the longest run that ends on it is one longer than the one that ends on
  the day before.
* `isGreatest_runs`: the longest run of all is that one or the longest one before.
-/

namespace ConsecutiveRuns

variable {active : Set ℤ} {d e : ℤ} {k n m : ℕ}

/-- The lengths of the runs that end on a day. -/
def endingOn (active : Set ℤ) (d : ℤ) : Set ℕ := {k | ∀ j : ℕ, j < k → d - j ∈ active}

/-- The lengths of the runs. -/
def runs (active : Set ℤ) : Set ℕ := {k | ∃ d, k ∈ endingOn active d}

theorem zero_mem_endingOn : 0 ∈ endingOn active d := fun j hj => absurd hj (Nat.not_lt_zero j)

/-- A run that is not empty is the run that ends on the day before, and its last day. -/
theorem succ_mem_endingOn :
    k + 1 ∈ endingOn active d ↔ d ∈ active ∧ k ∈ endingOn active (d - 1) := by
  have hbefore (j : ℕ) : d - 1 - j = d - (j + 1 : ℕ) := by omega
  constructor
  · intro h
    refine ⟨?_, fun j hj => ?_⟩
    · have hlast := h 0 (Nat.succ_pos k)
      rwa [Int.ofNat_zero, Int.sub_zero] at hlast
    · rw [hbefore]
      exact h (j + 1) (Nat.succ_lt_succ hj)
  · rintro ⟨hlast, h⟩ j hj
    cases j with
    | zero => rwa [Int.ofNat_zero, Int.sub_zero]
    | succ j =>
      rw [← hbefore]
      exact h j (Nat.lt_of_succ_lt_succ hj)

/-- Where the last day is not active, only the empty run ends on it. -/
theorem isGreatest_endingOn_zero (h : d ∉ active) : IsGreatest (endingOn active d) 0 := by
  refine ⟨zero_mem_endingOn, fun k hk => ?_⟩
  cases k with
  | zero => exact le_refl _
  | succ k => exact absurd (succ_mem_endingOn.mp hk).1 h

/-- A day that is added changes no run that ends before it. -/
theorem endingOn_insert (h : e < d) : endingOn (insert d active) e = endingOn active e := by
  ext k
  refine forall₂_congr fun j _ => ?_
  rw [Set.mem_insert_iff]
  exact or_iff_right (by omega)

theorem isGreatest_endingOn (h : IsGreatest (endingOn active (d - 1)) n) :
    IsGreatest (endingOn (insert d active) d) (n + 1) := by
  rw [← endingOn_insert (Int.sub_lt_self d Int.one_pos)] at h
  refine ⟨succ_mem_endingOn.mpr ⟨Set.mem_insert d active, h.1⟩, fun k hk => ?_⟩
  cases k with
  | zero => exact Nat.zero_le _
  | succ k => exact Nat.succ_le_succ (h.2 (succ_mem_endingOn.mp hk).2)

/-- A run ends on the day that is added or was there before. -/
theorem runs_insert (h : ∀ e ∈ active, e < d) :
    runs (insert d active) = runs active ∪ endingOn (insert d active) d := by
  ext k
  constructor
  · rintro ⟨e, hk⟩
    rcases lt_trichotomy e d with hlt | rfl | hgt
    · rw [endingOn_insert hlt] at hk
      exact .inl ⟨e, hk⟩
    · exact .inr hk
    · -- After the last active day there is only the empty run.
      cases k with
      | zero => exact .inr zero_mem_endingOn
      | succ k =>
        rcases (succ_mem_endingOn.mp hk).1 with rfl | he
        · exact absurd hgt (lt_irrefl e)
        · exact absurd (h e he) (not_lt_of_gt hgt)
  · rintro (⟨e, hk⟩ | hk)
    · exact ⟨e, fun j hj => Set.mem_insert_of_mem d (hk j hj)⟩
    · exact ⟨d, hk⟩

theorem isGreatest_runs (h : ∀ e ∈ active, e < d) (hruns : IsGreatest (runs active) m)
    (hlast : IsGreatest (endingOn (insert d active) d) n) :
    IsGreatest (runs (insert d active)) (max m n) := by
  rw [runs_insert h]
  exact hruns.union hlast

/-- Without active days there is only the empty run. -/
theorem isGreatest_runs_empty : IsGreatest (runs ∅) 0 :=
  ⟨⟨0, zero_mem_endingOn⟩, fun _ ⟨_, hk⟩ => (isGreatest_endingOn_zero (Set.notMem_empty _)).2 hk⟩

end ConsecutiveRuns
