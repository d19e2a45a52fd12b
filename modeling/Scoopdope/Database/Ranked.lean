import Mathlib.Data.List.Sort

/-!
# Ranked lists

Entries with a rank that is written in them. `RankedFrom rank n entries` says that they stand at
the ranks `n`, `n + 1`, ... in the order of the list. An entry that is added takes the next rank
(`rankedFrom_append`), and those behind an entry that is taken out move up
(`RankedFrom.close`).
-/

namespace Database

variable {R : Type} {rank : R → Int} {n : Int} {entries as bs : List R} {e : R}

/-- The entries have the ranks from `n` on. -/
def RankedFrom (rank : R → Int) (n : Int) : List R → Prop
  | [] => True
  | e :: entries => rank e = n ∧ RankedFrom rank (n + 1) entries

theorem rankedFrom_iff :
    RankedFrom rank n entries ↔
      entries.map rank = (List.range entries.length).map fun i : Nat => n + i := by
  induction entries generalizing n with
  | nil => exact iff_of_true trivial rfl
  | cons e entries ih =>
    rw [RankedFrom, ih, List.map_cons, List.length_cons, List.range_succ_eq_map, List.map_cons,
      List.map_map, List.cons.injEq, Int.natCast_zero, Int.add_zero]
    have hshift : (fun i : Nat => n + i) ∘ Nat.succ = fun i : Nat => n + 1 + i := by
      funext i
      simp only [Function.comp_apply, Nat.succ_eq_add_one]
      omega
    rw [hshift]

theorem rankedFrom_append :
    RankedFrom rank n (as ++ bs) ↔
      RankedFrom rank n as ∧ RankedFrom rank (n + as.length) bs := by
  induction as generalizing n with
  | nil => simp [RankedFrom]
  | cons a as ih =>
    have hlength : n + ((a :: as).length : Int) = n + 1 + as.length := by
      rw [List.length_cons]
      omega
    rw [List.cons_append, RankedFrom, RankedFrom, ih, and_assoc, hlength]

theorem RankedFrom.bounds (h : RankedFrom rank n entries) (hmem : e ∈ entries) :
    n ≤ rank e ∧ rank e < n + entries.length := by
  induction entries generalizing n with
  | nil => cases hmem
  | cons a entries ih =>
    rw [List.length_cons]
    rcases List.mem_cons.mp hmem with rfl | hmem
    · have hrank := h.1
      omega
    · have hrest := ih h.2 hmem
      omega

/-- The ranks increase. -/
theorem RankedFrom.sorted (h : RankedFrom rank n entries) :
    entries.Pairwise fun a b => rank a < rank b := by
  induction entries generalizing n with
  | nil => exact .nil
  | cons a entries ih =>
    refine .cons (fun b hb => ?_) (ih h.2)
    have hrank := h.1
    have hbounds := h.2.bounds hb
    omega

/-- No two entries have one rank. -/
theorem RankedFrom.injective (h : RankedFrom rank n entries) {a b : R} (ha : a ∈ entries)
    (hb : b ∈ entries) (hrank : rank a = rank b) : a = b := by
  have hnodup : (entries.map rank).Nodup :=
    List.pairwise_map.mpr (h.sorted.imp fun hlt => Int.ne_of_lt hlt)
  exact List.inj_on_of_nodup_map hnodup ha hb hrank

/-- Entries that all move up. -/
theorem RankedFrom.map (h : RankedFrom rank (n + 1) entries) {f : R → R}
    (hf : ∀ a ∈ entries, rank (f a) = rank a - 1) : RankedFrom rank n (entries.map f) := by
  induction entries generalizing n with
  | nil => trivial
  | cons a entries ih =>
    have hrank := h.1
    have hmoved := hf a List.mem_cons_self
    refine ⟨by omega, ih h.2 fun b hb => hf b (List.mem_cons_of_mem a hb)⟩

theorem rankedFrom_congr {f : R → R} (hf : ∀ a ∈ entries, rank (f a) = rank a) :
    RankedFrom rank n (entries.map f) ↔ RankedFrom rank n entries := by
  have hranks : (entries.map f).map rank = entries.map rank := by
    rw [List.map_map]
    exact List.map_congr_left hf
  rw [rankedFrom_iff, rankedFrom_iff, List.length_map, hranks]

/-- An entry is taken out, and those behind it move up. -/
theorem RankedFrom.close (h : RankedFrom rank n (as ++ e :: bs)) {f : R → R}
    (hkept : ∀ a ∈ as, rank a < rank e → rank (f a) = rank a)
    (hmoved : ∀ b ∈ bs, rank e < rank b → rank (f b) = rank b - 1) :
    RankedFrom rank n ((as ++ bs).map f) := by
  obtain ⟨has, he, hbs⟩ := rankedFrom_append.mp h
  rw [List.map_append, rankedFrom_append, List.length_map]
  constructor
  · refine (rankedFrom_congr fun a ha => hkept a ha ?_).mpr has
    have hbounds := has.bounds ha
    omega
  · refine hbs.map fun b hb => hmoved b hb ?_
    have hbounds := hbs.bounds hb
    omega

/-- The greatest rank. -/
theorem RankedFrom.max (h : RankedFrom rank n entries) {ranked : List R}
    (hperm : ranked.Perm entries) :
    ((ranked.map rank).max?).getD (n - 1) = n - 1 + entries.length := by
  rcases entries.eq_nil_or_concat' with rfl | ⟨front, last, rfl⟩
  · rw [hperm.eq_nil]
    exact (Int.add_zero _).symm
  · have hlast : rank last = n + front.length := (rankedFrom_append.mp h).2.1
    have hmax : (ranked.map rank).max? = some (rank last) := by
      rw [List.max?_eq_some_iff]
      constructor
      · exact List.mem_map_of_mem (hperm.mem_iff.mpr (List.mem_append_right _ List.mem_cons_self))
      · intro r hr
        obtain ⟨b, hb, rfl⟩ := List.mem_map.mp hr
        have hbounds := h.bounds (hperm.mem_iff.mp hb)
        rw [List.length_append, List.length_singleton] at hbounds
        omega
    rw [hmax, hlast, List.length_append, List.length_singleton, Option.getD_some]
    omega

/-- The order of the ranks is the order of the list. -/
theorem RankedFrom.insertionSort (h : RankedFrom rank n entries) {ranked : List R}
    (hperm : ranked.Perm entries) :
    ranked.insertionSort (fun a b => rank a ≤ rank b) = entries := by
  have : Std.Total fun a b => rank a ≤ rank b := ⟨fun a b => Int.le_total (rank a) (rank b)⟩
  have : IsTrans R fun a b => rank a ≤ rank b := ⟨fun _ _ _ => Int.le_trans⟩
  have hsorted := List.pairwise_insertionSort (fun a b => rank a ≤ rank b) ranked
  have hsame := (List.perm_insertionSort (fun a b => rank a ≤ rank b) ranked).trans hperm
  refine List.Perm.eq_of_pairwise (fun a b ha hb hab hba => ?_) hsorted
    (h.sorted.imp Int.le_of_lt) hsame
  exact h.injective (hsame.mem_iff.mp ha) hb (Int.le_antisymm hab hba)

end Database
