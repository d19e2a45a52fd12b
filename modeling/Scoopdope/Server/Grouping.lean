import Mathlib.Data.List.Basic
import Mathlib.Data.List.Induction
import Mathlib.Order.Lattice

/-!
# Grouping

A loop that puts every row into the group of its key. The first row of a key opens the group
(`place`). Afterwards there is one group for each key, in the order of first appearance, and it has
the rows of the key in their order: `foldl_place`. The key may be computed from what identifies
the group, as long as it does not confuse two of them.

Sorting the groups by a number keeps the order of first appearance among those of the same number:
`pairwise_mergeSort`.
-/

namespace Grouping

variable {R K P G N : Type} [DecidableEq K] [DecidableEq P]

/-! ## First appearances -/

theorem eraseDups_concat (keys : List P) (key : P) :
    (keys ++ [key]).eraseDups = keys.eraseDups ++ if key ∈ keys then [] else [key] := by
  rw [List.eraseDups_append]
  congr 1
  split <;> simp_all [List.removeAll, List.eraseDups_cons]

/-- Earlier means that it appears first at a lower index. -/
theorem pairwise_eraseDups (keys : List P) :
    keys.eraseDups.Pairwise fun a b => keys.idxOf a < keys.idxOf b := by
  induction keys using List.reverseRecOn with
  | nil => exact List.Pairwise.nil
  | append_singleton keys key ih =>
    have hold : ∀ a ∈ keys.eraseDups, (keys ++ [key]).idxOf a = keys.idxOf a := fun a ha =>
      List.idxOf_append_of_mem (List.mem_eraseDups.mp ha)
    have hbefore : keys.eraseDups.Pairwise fun a b =>
        (keys ++ [key]).idxOf a < (keys ++ [key]).idxOf b :=
      ih.imp_of_mem fun {a b} ha hb h => by rwa [hold a ha, hold b hb]
    rw [eraseDups_concat]
    split
    · rwa [List.append_nil]
    · next hnew =>
      refine List.pairwise_append.mpr ⟨hbefore, List.pairwise_singleton _ _, fun a ha b hb => ?_⟩
      rw [List.mem_singleton.mp hb, hold a ha, List.idxOf_append_of_notMem hnew]
      exact Nat.lt_add_right _ (List.idxOf_lt_length_iff.mpr (List.mem_eraseDups.mp ha))

theorem nodup_eraseDups (keys : List P) : keys.eraseDups.Nodup :=
  (pairwise_eraseDups keys).imp fun {a b} h (heq : a = b) =>
    Nat.ne_of_lt h (congrArg (fun a => keys.idxOf a) heq)

/-! ## The loop -/

/-- The groups after one more row. -/
def place (key : R → K) (start : R → G) (push : G → R → G) (groups : List (K × G)) (row : R) :
    List (K × G) :=
  let groups :=
    if groups.any fun entry => entry.1 = key row then groups
    else groups ++ [(key row, start row)]
  groups.map fun entry =>
    if entry.1 = key row then (entry.1, push entry.2 row) else entry

/-- The group of `p`. -/
def groupOf (part : R → P) (start : P → G) (push : G → R → G) (rows : List R) (p : P) : G :=
  (rows.filter fun row => part row = p).foldl push (start p)

variable {part : R → P} {code : P → K} {start : P → G} {push : G → R → G} {rows : List R}

theorem groupOf_concat (row : R) (p : P) :
    groupOf part start push (rows ++ [row]) p =
      if part row = p then push (groupOf part start push rows p) row
      else groupOf part start push rows p := by
  unfold groupOf
  rw [List.filter_append, List.foldl_append]
  split <;> simp [*]

theorem groupOf_of_not_mem {p : P} (h : p ∉ rows.map part) :
    groupOf part start push rows p = start p := by
  have hnone : rows.filter (fun row => part row = p) = [] := by
    refine List.filter_eq_nil_iff.mpr fun row hrow heq => h ?_
    exact List.mem_map.mpr ⟨row, hrow, of_decide_eq_true heq⟩
  unfold groupOf
  rw [hnone]
  rfl

/-- One group for each part that has a row. -/
def groups (code : P → K) (part : R → P) (start : P → G) (push : G → R → G) (rows : List R) :
    List (K × G) :=
  (rows.map part).eraseDups.map fun p => (code p, groupOf part start push rows p)

theorem any_groups {row : R}
    (hcode : ∀ a ∈ rows, code (part a) = code (part row) → part a = part row) :
    ((groups code part start push rows).any fun entry => entry.1 = code (part row)) =
      decide (part row ∈ rows.map part) := by
  rw [groups, Bool.eq_iff_iff, List.any_map, List.any_eq_true, decide_eq_true_iff]
  constructor
  · rintro ⟨p, hp, heq⟩
    obtain ⟨a, ha, rfl⟩ := List.mem_map.mp (List.mem_eraseDups.mp hp)
    rw [← hcode a ha (of_decide_eq_true heq)]
    exact List.mem_map_of_mem ha
  · exact fun h => ⟨part row, List.mem_eraseDups.mpr h, decide_eq_true rfl⟩

/-- The row goes into its own group, and into no other. -/
theorem map_groups {row : R}
    (hcode : ∀ a ∈ rows, code (part a) = code (part row) → part a = part row) :
    ((groups code part start push rows).map fun entry =>
      if entry.1 = code (part row) then (entry.1, push entry.2 row) else entry) =
        (rows.map part).eraseDups.map fun p =>
          (code p, groupOf part start push (rows ++ [row]) p) := by
  rw [groups, List.map_map]
  refine List.map_congr_left fun p hp => ?_
  obtain ⟨a, ha, rfl⟩ := List.mem_map.mp (List.mem_eraseDups.mp hp)
  have hsame : code (part a) = code (part row) ↔ part row = part a :=
    ⟨fun h => (hcode a ha h).symm, fun h => congrArg code h.symm⟩
  rw [groupOf_concat, Function.comp_apply, apply_ite (Prod.mk (code (part a)))]
  exact if_congr hsame rfl rfl

theorem place_groups {row : R}
    (hcode : ∀ a ∈ rows, code (part a) = code (part row) → part a = part row) :
    place (fun row => code (part row)) (fun row => start (part row)) push
      (groups code part start push rows) row = groups code part start push (rows ++ [row]) := by
  rw [place, any_groups hcode, groups.eq_def code part start push (rows ++ [row]), List.map_append,
    List.map_singleton, eraseDups_concat, List.map_append, ← map_groups hcode]
  by_cases hmem : part row ∈ rows.map part
  · simp [hmem]
  · rw [if_neg hmem, if_neg (by simpa using hmem), List.map_append]
    simp [groupOf_concat, groupOf_of_not_mem hmem]

/-- The loop, if the keys do not confuse two parts. -/
theorem foldl_place
    (hcode : ∀ a ∈ rows, ∀ b ∈ rows, code (part a) = code (part b) → part a = part b) :
    rows.foldl (place (fun row => code (part row)) (fun row => start (part row)) push) [] =
      groups code part start push rows := by
  induction rows using List.reverseRecOn with
  | nil => rfl
  | append_singleton rows row ih =>
    have hold : ∀ a ∈ rows, a ∈ rows ++ [row] := fun a ha => List.mem_append_left _ ha
    have hrow : row ∈ rows ++ [row] := List.mem_append_right _ (List.mem_singleton_self row)
    rw [List.foldl_append, ih fun a ha b hb => hcode a (hold a ha) b (hold b hb)]
    exact place_groups fun a ha => hcode a (hold a ha) row hrow

/-! ## Sorting -/

section Sorting

variable [LinearOrder N] {number : P → N} {items : List P}

omit [DecidableEq P] in
theorem le_number_trans (a b c : P) :
    decide (number a ≤ number b) → decide (number b ≤ number c) → decide (number a ≤ number c) :=
  fun hab hbc => decide_eq_true (le_trans (of_decide_eq_true hab) (of_decide_eq_true hbc))

omit [DecidableEq P] in
theorem le_number_total (a b : P) :
    decide (number a ≤ number b) || decide (number b ≤ number a) := by
  rw [Bool.or_eq_true, decide_eq_true_iff, decide_eq_true_iff]
  exact le_total _ _

omit [DecidableEq P] in
/-- Sorting is stable. -/
theorem filter_mergeSort (n : N) :
    (items.mergeSort fun a b => decide (number a ≤ number b)).filter (fun a => number a = n) =
      items.filter fun a => number a = n := by
  let le (a b : P) : Bool := decide (number a ≤ number b)
  have hnumber : ∀ a ∈ items.filter (fun a => number a = n), number a = n := fun a ha =>
    of_decide_eq_true (List.mem_filter.mp ha).2
  have hsorted : (items.filter fun a => number a = n).Pairwise fun a b => le a b :=
    List.pairwise_of_forall_mem_list fun a ha b hb =>
      decide_eq_true (le_of_eq ((hnumber a ha).trans (hnumber b hb).symm))
  have hsublist : (items.filter fun a => number a = n).Sublist (items.mergeSort le) :=
    List.sublist_mergeSort le_number_trans le_number_total hsorted List.filter_sublist
  have hself : (items.filter fun a => number a = n).Sublist
      ((items.mergeSort le).filter fun a => number a = n) := by
    have hfiltered := hsublist.filter fun a => number a = n
    rwa [List.filter_filter, funext fun a => Bool.and_self (decide (number a = n))] at hfiltered
  exact (hself.eq_of_length ((List.mergeSort_perm items le).filter _).length_eq.symm).symm

omit [DecidableEq P] in
/-- By number, and what has the same number in the order from before. -/
theorem pairwise_mergeSort {Before : P → P → Prop} (h : items.Pairwise Before) :
    (items.mergeSort fun a b => decide (number a ≤ number b)).Pairwise fun a b =>
      number a < number b ∨ number a = number b ∧ Before a b := by
  refine List.pairwise_iff_forall_sublist.mpr fun {a b} hab => ?_
  have hle : number a ≤ number b :=
    of_decide_eq_true (List.pairwise_iff_forall_sublist.mp
      (List.pairwise_mergeSort le_number_trans le_number_total items) hab)
  rcases hle.lt_or_eq with hlt | heq
  · exact .inl hlt
  · have hpair : [a, b].Sublist (items.filter fun a => number a = number b) := by
      rw [← filter_mergeSort]
      simpa [heq] using hab.filter fun a => number a = number b
    exact .inr ⟨heq, List.pairwise_iff_forall_sublist.mp h (hpair.trans List.filter_sublist)⟩

end Sorting

end Grouping
