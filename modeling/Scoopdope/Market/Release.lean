import Scoopdope.Market.Proportions
import Scoopdope.Soroban.History

/-!
# Amounts released over time

How much of a total is released at each time, as a curve: nothing before the cliff, the total from
the end on, and never less than before. `curve_ramp`: what is released between the two may follow
any monotone ramp within the bounds.

`claimed_eq_max`: whoever claims what is released, at any times, has in the end been paid what is
released at the last of them, whatever the times before it.
-/

namespace Release

/-! ## Curves -/

/-- What is released of `total` at each time. -/
structure Curve (total cliff end_ : ℤ) (released : ℤ → ℤ) : Prop where
  monotone : ∀ ⦃time time'⦄, time ≤ time' → released time ≤ released time'
  early : ∀ time, time < cliff → released time = 0
  late : ∀ time, end_ ≤ time → released time = total

section Curve

variable {total cliff end_ : ℤ} {released : ℤ → ℤ}

theorem Curve.nonneg (h : Curve total cliff end_ released) (time : ℤ) : 0 ≤ released time := by
  have hearly : released (min time (cliff - 1)) = 0 :=
    h.early _ ((min_le_right time _).trans_lt (Int.sub_one_lt_of_le le_rfl))
  rw [← hearly]
  exact h.monotone (min_le_left time _)

theorem Curve.le_total (h : Curve total cliff end_ released) (time : ℤ) :
    released time ≤ total := by
  rw [← h.late _ (le_max_right time end_)]
  exact h.monotone (le_max_left time end_)

/-- A cliff, a ramp from there on, and the total at the end. -/
def ramp (total cliff end_ : ℤ) (between : ℤ → ℤ) (time : ℤ) : ℤ :=
  if time < cliff then 0 else if end_ ≤ time then total else between time

variable {between : ℤ → ℤ}

theorem ramp_early {time : ℤ} (h : time < cliff) : ramp total cliff end_ between time = 0 :=
  if_pos h

theorem ramp_late {time : ℤ} (hcliff : cliff ≤ time) (hend : end_ ≤ time) :
    ramp total cliff end_ between time = total := by
  rw [ramp, if_neg (not_lt.mpr hcliff), if_pos hend]

theorem ramp_between {time : ℤ} (hcliff : cliff ≤ time) (hend : time < end_) :
    ramp total cliff end_ between time = between time := by
  rw [ramp, if_neg (not_lt.mpr hcliff), if_neg (not_le.mpr hend)]

theorem curve_ramp (hcliff : cliff ≤ end_)
    (hmono : ∀ time time', cliff ≤ time → time ≤ time' → time' < end_ →
      between time ≤ between time')
    (hbounds : ∀ time, cliff ≤ time → time < end_ → 0 ≤ between time ∧ between time ≤ total)
    (htotal : 0 ≤ total) : Curve total cliff end_ (ramp total cliff end_ between) where
  monotone time time' hle := by
    by_cases hearly : time < cliff
    · rw [ramp_early hearly]
      by_cases hearly' : time' < cliff
      · rw [ramp_early hearly']
      have hcliff' := not_lt.mp hearly'
      by_cases hlate' : end_ ≤ time'
      · rw [ramp_late hcliff' hlate']
        exact htotal
      · have hend' := not_le.mp hlate'
        rw [ramp_between hcliff' hend']
        exact (hbounds time' hcliff' hend').1
    have hcliff := not_lt.mp hearly
    by_cases hlate' : end_ ≤ time'
    · rw [ramp_late (hcliff.trans hle) hlate']
      by_cases hlate : end_ ≤ time
      · rw [ramp_late hcliff hlate]
      · have hend := not_le.mp hlate
        rw [ramp_between hcliff hend]
        exact (hbounds time hcliff hend).2
    · have hend' := not_le.mp hlate'
      rw [ramp_between hcliff (hle.trans_lt hend'), ramp_between (hcliff.trans hle) hend']
      exact hmono time time' hcliff hle hend'
  early _ h := ramp_early h
  late _ h := ramp_late (hcliff.trans h) h

end Curve

/-! ## Claims -/

section Claims

open Soroban

variable {S I : Type} {exec : S → I → Outcome S} {s : S} {claimed : S → ℤ} {paid : S → I → ℤ}
  {time : I → ℤ} {released : ℤ → ℤ}

/-- A call pays nothing, or it brings what is claimed up to what is released at its time. -/
structure Pays (claimed : S → ℤ) (paid : S → I → ℤ) (time : I → ℤ) (released : ℤ → ℤ) (s : S)
    (i : I) (s' : S) : Prop where
  nonneg : 0 ≤ paid s i
  added : claimed s' = claimed s + paid s i
  released : paid s i = 0 ∨ claimed s' = released (time i)

variable {later : List I}
  (hsteps : ∀ earlier i s', i :: earlier <:+ later → exec (after exec s earlier) i = .ok s' →
    Pays claimed paid time released (after exec s earlier) i s')

include hsteps

theorem claimed_eq_add_accumulated :
    claimed (after exec s later) = claimed s + accumulated exec s paid later :=
  after_accumulated later fun earlier i s' hsuf hexec => (hsteps earlier i s' hsuf hexec).added

theorem claimed_le_after : claimed s ≤ claimed (after exec s later) := by
  rw [claimed_eq_add_accumulated hsteps]
  refine Int.le_add_of_nonneg_right (accumulated_nonneg later ?_)
  exact fun earlier i s' hsuf hexec => (hsteps earlier i s' hsuf hexec).nonneg

/-- No more is claimed than at the start, or than is released at a time after the claims. -/
theorem claimed_le (hmono : ∀ ⦃time time'⦄, time ≤ time' → released time ≤ released time')
    {last : ℤ}
    (hlast : ∀ earlier i, i :: earlier <:+ later → Accepted exec s earlier i →
      paid (after exec s earlier) i ≠ 0 → time i ≤ last) :
    claimed (after exec s later) ≤ max (claimed s) (released last) := by
  induction later with
  | nil => exact le_max_left _ _
  | cons i earlier ih =>
    have hsuf := List.suffix_cons i earlier
    have hearlier := ih (fun earlier' i' s' hsuf' => hsteps earlier' i' s' (hsuf'.trans hsuf))
      fun earlier' i' hsuf' => hlast earlier' i' (hsuf'.trans hsuf)
    cases hexec : exec (after exec s earlier) i with
    | ok s' =>
      have hpays := hsteps earlier i s' (List.suffix_refl _) hexec
      rw [after, apply_ok hexec]
      by_cases hnone : paid (after exec s earlier) i = 0
      · rw [hpays.added, hnone, Int.add_zero]
        exact hearlier
      · rw [hpays.released.resolve_left hnone]
        have htime := hlast earlier i (List.suffix_refl _) ⟨s', hexec⟩ hnone
        exact (hmono htime).trans (le_max_right _ _)
    | error t =>
      rw [after, apply_error hexec]
      exact hearlier

/-- Once everything released at `last` is claimed, it does not matter which claims there were
before. -/
theorem claimed_eq_max (hmono : ∀ ⦃time time'⦄, time ≤ time' → released time ≤ released time')
    {last : ℤ}
    (hlast : ∀ earlier i, i :: earlier <:+ later → Accepted exec s earlier i →
      paid (after exec s earlier) i ≠ 0 → time i ≤ last)
    (hclaimed : released last ≤ claimed (after exec s later)) :
    claimed s + accumulated exec s paid later = max (claimed s) (released last) := by
  rw [← claimed_eq_add_accumulated hsteps]
  exact le_antisymm (claimed_le hsteps hmono hlast) (max_le (claimed_le_after hsteps) hclaimed)

end Claims

/-! ## Runs -/

section Runs

open Soroban

variable {S I : Type} {exec : S → I → Outcome S} {s : S} {claimed : S → ℤ} {paid : S → I → ℤ}
  {time : I → ℤ} {released : ℤ → ℤ} {rewrites : I → Prop} {P : S → Prop} {later : List I}

/-- No call that is accepted changes what is released. -/
def Fixed (exec : S → I → Outcome S) (rewrites : I → Prop) (s : S) (later : List I) : Prop :=
  ∀ earlier i, i :: earlier <:+ later → Accepted exec s earlier i → ¬ rewrites i

variable (h0 : P s) (hfixed : Fixed exec rewrites s later)
  (hstep : ∀ t i s', P t → ¬ rewrites i → exec t i = .ok s' →
    P s' ∧ Pays claimed paid time released t i s')

include h0 hfixed hstep

theorem fixed_after : P (after exec s later) := by
  refine after_kept (List.nil_suffix (l := later)) h0 fun i earlier s' hsuf _ ht hexec => ?_
  exact (hstep _ i s' ht (hfixed earlier i hsuf ⟨s', hexec⟩) hexec).1

theorem pays_after : ∀ earlier i s', i :: earlier <:+ later →
    exec (after exec s earlier) i = .ok s' →
      Pays claimed paid time released (after exec s earlier) i s' := by
  intro earlier i s' hsuf hexec
  have hprefix := (List.suffix_cons i earlier).trans hsuf
  have ht : P (after exec s earlier) :=
    fixed_after h0 (fun e j hj => hfixed e j (hj.trans hprefix)) hstep
  exact (hstep _ i s' ht (hfixed earlier i hsuf ⟨s', hexec⟩) hexec).2

/-- Where a claim leaves nothing that is released, all claims together have paid what is released
at its time. -/
theorem claims_total (hmono : ∀ ⦃time time'⦄, time ≤ time' → released time ≤ released time')
    {i : I} (hi : ¬ rewrites i)
    (htimes : ∀ earlier j, j :: earlier <:+ later → Accepted exec s earlier j →
      paid (after exec s earlier) j ≠ 0 → time j ≤ time i)
    (hmade : released (time i) ≤ claimed (after exec s (i :: later))) :
    claimed s + accumulated exec s paid (i :: later) = max (claimed s) (released (time i)) := by
  have hfixed' : Fixed exec rewrites s (i :: later) := by
    intro earlier j hsuf haccepted
    rcases List.suffix_cons_iff.mp hsuf with heq | hsuf
    · cases heq
      exact hi
    · exact hfixed earlier j hsuf haccepted
  refine claimed_eq_max (pays_after h0 hfixed' hstep) hmono (fun earlier j hsuf => ?_) hmade
  rcases List.suffix_cons_iff.mp hsuf with heq | hsuf
  · cases heq
    exact fun _ _ => le_rfl
  · exact htimes earlier j hsuf

end Runs

end Release
