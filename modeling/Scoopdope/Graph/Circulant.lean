import Mathlib.Data.List.FinRange
import Mathlib.Data.List.Nodup
import Mathlib.Data.List.Perm.Basic

/-!
# Circulant graphs

`n` vertices stand in a circle, and each has an edge to the `k` next ones. Where `k < n`, every
vertex has `k` targets (`length_targets`) and is the target of `k` others (`length_sources`), and
none has an edge to itself (`ne_of_mem_circulant`).
-/

namespace Graph

variable {n k d d' : Nat} {i j : Fin n}

/-- The vertex `d` places on. -/
def shift (i : Fin n) (d : Nat) : Fin n := ⟨(i + d) % n, Nat.mod_lt _ i.pos⟩

/-- The edges, vertex by vertex. -/
def circulant (n k : Nat) : List (Fin n × Fin n) :=
  (List.finRange n).flatMap fun i => (List.range' 1 k).map fun d => (i, shift i d)

theorem shift_val (h : d ≤ n) :
    (shift i d : Nat) = if i + d < n then i + d else i + d - n := by
  have hi := i.isLt
  split
  · next hlt => exact Nat.mod_eq_of_lt hlt
  · next hover =>
    change (i + d) % n = _
    rw [Nat.mod_eq_sub_mod (not_lt.mp hover)]
    -- It goes round once at most.
    by_cases hd : i + d - n < n
    · exact Nat.mod_eq_of_lt hd
    · omega

/-- The way back goes round the rest of the circle. -/
theorem shift_eq_iff (h : d ≤ n) : shift i d = j ↔ i = shift j (n - d) := by
  have hi := i.isLt
  have hj := j.isLt
  rw [Fin.ext_iff, Fin.ext_iff, shift_val h, shift_val (Nat.sub_le n d)]
  split <;> split <;> omega

theorem shift_ne (hpos : 0 < d) (h : d < n) : shift i d ≠ i := by
  have hi := i.isLt
  rw [Ne, Fin.ext_iff, shift_val h.le]
  split <;> omega

theorem shift_inj (h : d < n) (h' : d' < n) (heq : shift i d = shift i d') : d = d' := by
  have hi := i.isLt
  rw [Fin.ext_iff, shift_val h.le, shift_val h'.le] at heq
  split at heq <;> split at heq <;> omega

theorem mem_circulant : (i, j) ∈ circulant n k ↔ ∃ d ∈ List.range' 1 k, shift i d = j := by
  rw [circulant, List.mem_flatMap]
  constructor
  · rintro ⟨i', -, hmem⟩
    obtain ⟨d, hd, hpair⟩ := List.mem_map.mp hmem
    cases hpair
    exact ⟨d, hd, rfl⟩
  · rintro ⟨d, hd, rfl⟩
    exact ⟨i, List.mem_finRange i, List.mem_map.mpr ⟨d, hd, rfl⟩⟩

theorem lt_of_mem_range' (h : k < n) (hd : d ∈ List.range' 1 k) : 0 < d ∧ d < n := by
  have hd := List.mem_range'_1.mp hd
  omega

theorem nodup_circulant (h : k < n) : (circulant n k).Nodup := by
  refine List.nodup_flatMap.mpr ⟨fun i _ => ?_, ?_⟩
  · refine List.Nodup.map_on (fun d hd d' hd' heq => ?_) List.nodup_range'
    exact shift_inj (lt_of_mem_range' h hd).2 (lt_of_mem_range' h hd').2 (Prod.mk.inj heq).2
  · refine (List.nodup_finRange n).imp fun hne => ?_
    intro e hleft hright
    obtain ⟨d, -, rfl⟩ := List.mem_map.mp hleft
    obtain ⟨d', -, heq⟩ := List.mem_map.mp hright
    exact hne (Prod.mk.inj heq).1.symm

theorem length_circulant : (circulant n k).length = n * k := by
  rw [circulant, List.length_flatMap]
  simp

/-- No vertex has an edge to itself. -/
theorem ne_of_mem_circulant (h : k < n) (hmem : (i, j) ∈ circulant n k) : i ≠ j := by
  obtain ⟨d, hd, rfl⟩ := mem_circulant.mp hmem
  exact (shift_ne (lt_of_mem_range' h hd).1 (lt_of_mem_range' h hd).2).symm

/-! ## The targets of a vertex -/

theorem nodup_targets (h : k < n) :
    (((circulant n k).filter fun e => e.1 = i).map Prod.snd).Nodup := by
  refine List.Nodup.map_on (fun e he e' he' hsnd => ?_) ((nodup_circulant h).filter _)
  have hfst := of_decide_eq_true (List.mem_filter.mp he).2
  have hfst' := of_decide_eq_true (List.mem_filter.mp he').2
  exact Prod.ext (hfst.trans hfst'.symm) hsnd

theorem length_targets (h : k < n) :
    ((circulant n k).filter fun e => e.1 = i).length = k := by
  have hperm : (((circulant n k).filter fun e => e.1 = i).map Prod.snd).Perm
      ((List.range' 1 k).map (shift i)) := by
    rw [List.perm_ext_iff_of_nodup (nodup_targets h)]
    · intro j
      rw [List.mem_map, List.mem_map, ← mem_circulant]
      constructor
      · rintro ⟨⟨i', j'⟩, he, rfl⟩
        obtain ⟨hmem, hi⟩ := List.mem_filter.mp he
        cases of_decide_eq_true hi
        exact hmem
      · exact fun hmem => ⟨(i, j), List.mem_filter.mpr ⟨hmem, decide_eq_true rfl⟩, rfl⟩
    · refine List.Nodup.map_on (fun d hd d' hd' heq => ?_) List.nodup_range'
      exact shift_inj (lt_of_mem_range' h hd).2 (lt_of_mem_range' h hd').2 heq
  rw [← List.length_map Prod.snd, hperm.length_eq, List.length_map, List.length_range']

/-! ## The vertices that a vertex is a target of -/

theorem nodup_sources (h : k < n) :
    (((circulant n k).filter fun e => e.2 = j).map Prod.fst).Nodup := by
  refine List.Nodup.map_on (fun e he e' he' hfst => ?_) ((nodup_circulant h).filter _)
  have hsnd := of_decide_eq_true (List.mem_filter.mp he).2
  have hsnd' := of_decide_eq_true (List.mem_filter.mp he').2
  exact Prod.ext hfst (hsnd.trans hsnd'.symm)

theorem length_sources (h : k < n) :
    ((circulant n k).filter fun e => e.2 = j).length = k := by
  have hback {i : Fin n} :
      (i, j) ∈ circulant n k ↔ ∃ d ∈ List.range' 1 k, shift j (n - d) = i := by
    rw [mem_circulant]
    refine exists_congr fun d => and_congr_right fun hd => ?_
    rw [shift_eq_iff (lt_of_mem_range' h hd).2.le, eq_comm]
  have hperm : (((circulant n k).filter fun e => e.2 = j).map Prod.fst).Perm
      ((List.range' 1 k).map fun d => shift j (n - d)) := by
    rw [List.perm_ext_iff_of_nodup (nodup_sources h)]
    · intro i
      rw [List.mem_map, List.mem_map, ← hback]
      constructor
      · rintro ⟨⟨i', j'⟩, he, rfl⟩
        obtain ⟨hmem, hj⟩ := List.mem_filter.mp he
        cases of_decide_eq_true hj
        exact hmem
      · exact fun hmem => ⟨(i, j), List.mem_filter.mpr ⟨hmem, decide_eq_true rfl⟩, rfl⟩
    · refine List.Nodup.map_on (fun d hd d' hd' heq => ?_) List.nodup_range'
      have hd := lt_of_mem_range' h hd
      have hd' := lt_of_mem_range' h hd'
      have hsame := shift_inj (by omega) (by omega) heq
      omega
  rw [← List.length_map Prod.fst, hperm.length_eq, List.length_map, List.length_range']

end Graph
