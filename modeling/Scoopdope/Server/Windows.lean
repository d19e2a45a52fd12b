import Mathlib.Data.List.Count
import Mathlib.Data.List.Infix
import Mathlib.Tactic.Common

/-!
# Sliding windows

A log of what happened, newest first. Every entry has a time, and counts from then on for the
length of its window. `live now log` are the entries that count at `now`; as time goes by they
become fewer (`length_live_anti`).

`countP_between_le`: a bound on the entries that count whenever a new one is logged bounds those in
every interval that is shorter than the window.
-/

namespace Windows

variable {X : Type} (time window : X → Nat)

/-- The entries that still count. -/
def live (now : Nat) (log : List X) : List X := log.filter fun x => now < time x + window x

variable {time window} {x : X} {log : List X} {now now' : Nat}

theorem length_live_cons_le :
    (live time window now (x :: log)).length ≤ (live time window now log).length + 1 := by
  unfold live
  rw [List.filter_cons]
  split
  · exact le_refl _
  · exact Nat.le_succ _

theorem length_live_anti (h : now ≤ now') :
    (live time window now' log).length ≤ (live time window now log).length := by
  refine List.Sublist.length_le (List.monotone_filter_right log fun x hx => ?_)
  have hlater := of_decide_eq_true hx
  exact decide_eq_true (lt_of_le_of_lt h hlater)

theorem countP_live_le {kind kind' : X → Bool} (h : ∀ x, kind x = true → kind' x = true) :
    (live time window now log).countP kind ≤ (live time window now (log.filter kind')).length := by
  unfold live
  rw [List.countP_eq_length_filter, List.filter_filter, List.filter_filter]
  refine List.Sublist.length_le (List.monotone_filter_right log fun x hx => ?_)
  obtain ⟨hkind, hlive⟩ := Bool.and_eq_true_iff.mp hx
  exact Bool.and_eq_true_iff.mpr ⟨hlive, h x hkind⟩

variable (window) in
/-- Entries of one kind have one window. If at most `limit` of them count whenever one is logged,
then at most `limit` of them are in an interval shorter than the window. -/
theorem countP_between_le {kind : X → Bool} {width limit first last : Nat}
    (hwidth : ∀ x ∈ log, kind x = true → window x = width)
    (hlimit : ∀ x earlier, x :: earlier <:+ log → kind x = true →
      (live time window (time x) (x :: earlier)).countP kind ≤ limit)
    (hshort : last < first + width) :
    log.countP (fun x => kind x && decide (first ≤ time x ∧ time x ≤ last)) ≤ limit := by
  induction log with
  | nil => exact Nat.zero_le _
  | cons x earlier ih =>
    by_cases hx : (kind x && decide (first ≤ time x ∧ time x ≤ last)) = true
    · -- Everything else in the interval still counts when its newest entry is logged.
      obtain ⟨hkind, hbetween⟩ := Bool.and_eq_true_iff.mp hx
      have hlast : time x ≤ last := (of_decide_eq_true hbetween).2
      refine le_trans ?_ (hlimit x earlier (List.suffix_refl _) hkind)
      unfold live
      rw [List.countP_filter]
      refine List.countP_mono_left fun y hy hmem => ?_
      obtain ⟨hkind', hbetween'⟩ := Bool.and_eq_true_iff.mp hmem
      have hfirst : first ≤ time y := (of_decide_eq_true hbetween').1
      rw [hkind', hwidth y hy hkind', Bool.true_and]
      exact decide_eq_true (by omega)
    · rw [List.countP_cons, if_neg hx, Nat.add_zero]
      refine ih (fun y hy => hwidth y (List.mem_cons_of_mem x hy)) fun y before hs => ?_
      exact hlimit y before (hs.trans (List.suffix_cons x earlier))

end Windows
