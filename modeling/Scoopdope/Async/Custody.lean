import Mathlib.Data.List.Nodup
import Mathlib.Logic.Function.Basic

/-!
# Custody

Owners that have things in hand, each a list of keys. `Custody.Distinct`: no key is in hand twice,
neither with one owner nor with two. It is kept where an owner lets go of keys (`Distinct.mono`) and
where one takes keys that are `Free` (`Distinct.take`).
-/

namespace Async.Custody

variable {O K : Type} {hand hand' : O → List K} {o o' : O} {k : K}

/-- No owner has the key. -/
def Free (hand : O → List K) (k : K) : Prop := ∀ o, k ∉ hand o

structure Distinct (hand : O → List K) : Prop where
  nodup : ∀ o, (hand o).Nodup
  disjoint : ∀ o o', o ≠ o' → (hand o).Disjoint (hand o')

theorem Distinct.owner (h : Distinct hand) (ho : k ∈ hand o) (ho' : k ∈ hand o') : o = o' := by
  by_contra hne
  exact h.disjoint o o' hne ho ho'

theorem Distinct.mono (h : Distinct hand) (hsub : ∀ o, (hand' o).Sublist (hand o)) :
    Distinct hand' where
  nodup o := (h.nodup o).sublist (hsub o)
  disjoint o o' hne := fun _ hk hk' =>
    h.disjoint o o' hne ((hsub o).subset hk) ((hsub o').subset hk')

theorem distinct_empty : Distinct fun _ : O => ([] : List K) where
  nodup _ := List.nodup_nil
  disjoint _ _ _ := fun _ hk => absurd hk List.not_mem_nil

variable [DecidableEq O]

/-- An owner lets go of keys. -/
theorem Distinct.update (h : Distinct hand) {keys : List K} (hsub : keys.Sublist (hand o)) :
    Distinct (Function.update hand o keys) := by
  refine h.mono fun o' => ?_
  rw [Function.update_apply]
  split
  · next hsame =>
    rw [hsame]
    exact hsub
  · exact List.Sublist.refl _

/-- An owner takes free keys. -/
theorem Distinct.take (h : Distinct hand) {keys : List K} (hnodup : keys.Nodup)
    (hfree : ∀ k ∈ keys, Free hand k) :
    Distinct (Function.update hand o (hand o ++ keys)) where
  nodup o' := by
    rw [Function.update_apply]
    split
    · refine List.nodup_append.mpr ⟨h.nodup o, hnodup, ?_⟩
      rintro k hk k' hk' rfl
      exact hfree k hk' o hk
    · exact h.nodup o'
  disjoint o₁ o₂ hne := by
    intro k hk₁ hk₂
    have hold {o' : O} (hk : k ∈ Function.update hand o (hand o ++ keys) o') :
        k ∈ hand o' ∨ o' = o ∧ k ∈ keys := by
      rw [Function.update_apply] at hk
      split at hk
      · next hsame =>
        rw [hsame]
        exact (List.mem_append.mp hk).imp_right fun hkeys => ⟨rfl, hkeys⟩
      · exact .inl hk
    rcases hold hk₁ with h₁ | ⟨rfl, hkeys⟩
    · rcases hold hk₂ with h₂ | ⟨rfl, hkeys⟩
      · exact h.disjoint o₁ o₂ hne h₁ h₂
      · exact hfree k hkeys o₁ h₁
    · rcases hold hk₂ with h₂ | ⟨rfl, -⟩
      · exact hfree k hkeys o₂ h₂
      · exact hne rfl

theorem Free.of_take {keys : List K}
    (h : Free (Function.update hand o (hand o ++ keys)) k) : Free hand k := by
  intro o' hk
  refine h o' ?_
  rw [Function.update_apply]
  split
  · next hsame =>
    rw [hsame] at hk
    exact List.mem_append_left _ hk
  · exact hk

end Async.Custody
