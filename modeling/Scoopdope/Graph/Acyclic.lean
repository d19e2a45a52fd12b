import Mathlib.Order.WellFoundedSet
import Mathlib.Logic.Relation

/-!
# Acyclic relations

`R a b` says that `a` depends on `b`. A relation is acyclic if nothing depends on itself, directly
or through others. A `Schedule` is a list, **newest first**, in which everything comes after what
it depends on.

* `acyclic_insert_iff`: one more dependency keeps a relation acyclic exactly when there is no path
  back.
* `acyclic_iff_scheduled`: a relation with finitely many dependents, each with a list of what it
  depends on, is acyclic exactly when everything is in a schedule.
-/

namespace Graph

open Relation Function

variable {V : Type*} {R R' : V → V → Prop}

def Acyclic (R : V → V → Prop) : Prop := ∀ v, ¬ TransGen R v v

/-- The relation with one more dependency. -/
def insert (R : V → V → Prop) (a b : V) : V → V → Prop := fun x y => R x y ∨ x = a ∧ y = b

theorem acyclic_empty (h : ∀ a b, ¬ R a b) : Acyclic R := by
  intro v hv
  obtain ⟨w, hw, -⟩ := TransGen.head'_iff.mp hv
  exact h v w hw

theorem Acyclic.mono (h : Acyclic R) (hsub : ∀ a b, R' a b → R a b) : Acyclic R' :=
  fun v hv => h v (TransGen.mono hsub v v hv)

/-- A path that uses a new dependency leads to its source and on from its target. -/
theorem transGen_insert {a b x y : V} (h : TransGen (insert R a b) x y) :
    TransGen R x y ∨ ReflTransGen R x a ∧ ReflTransGen R b y := by
  induction h with
  | single hxy =>
    rcases hxy with hxy | ⟨rfl, rfl⟩
    · exact .inl (.single hxy)
    · exact .inr ⟨.refl, .refl⟩
  | tail _ hyz ih =>
    rcases hyz with hyz | ⟨rfl, rfl⟩
    · rcases ih with ih | ⟨hxa, hby⟩
      · exact .inl (ih.tail hyz)
      · exact .inr ⟨hxa, hby.tail hyz⟩
    · rcases ih with ih | ⟨hxa, -⟩
      · exact .inr ⟨ih.to_reflTransGen, .refl⟩
      · exact .inr ⟨hxa, .refl⟩

theorem acyclic_insert_iff (h : Acyclic R) {a b : V} :
    Acyclic (insert R a b) ↔ ¬ ReflTransGen R b a := by
  constructor
  · intro hacyclic hpath
    have hback : ReflTransGen (insert R a b) b a := ReflTransGen.mono (fun _ _ => .inl) b a hpath
    exact hacyclic a (.head' (.inr ⟨rfl, rfl⟩) hback)
  · intro hpath v hv
    rcases transGen_insert hv with hv | ⟨hva, hbv⟩
    · exact h v hv
    · exact hpath (hbv.trans hva)

/-! ## Schedules -/

/-- Each item is new, and all that it depends on has come before. -/
inductive Schedule (R : V → V → Prop) : List V → Prop
  | nil : Schedule R []
  | cons (v : V) (past : List V) (before : Schedule R past) (fresh : v ∉ past)
      (ready : ∀ w, R v w → w ∈ past) : Schedule R (v :: past)

/-- Two schedules go into one. -/
theorem Schedule.union {l₁ l₂ : List V} (h₁ : Schedule R l₁) (h₂ : Schedule R l₂) :
    ∃ l, Schedule R l ∧ l₁ ⊆ l ∧ l₂ ⊆ l := by
  induction h₂ with
  | nil => exact ⟨l₁, h₁, List.Subset.refl _, List.nil_subset _⟩
  | cons v past _ _ ready ih =>
    obtain ⟨l, hl, hl₁, hpast⟩ := ih
    by_cases hv : v ∈ l
    · exact ⟨l, hl, hl₁, List.cons_subset.mpr ⟨hv, hpast⟩⟩
    · refine ⟨v :: l, .cons v l hl hv fun w hw => hpast (ready w hw), ?_, ?_⟩
      · exact fun w hw => List.mem_cons_of_mem v (hl₁ hw)
      · exact List.cons_subset_cons v hpast

theorem Schedule.union_list (items : List V) (h : ∀ v ∈ items, ∃ l, Schedule R l ∧ v ∈ l) :
    ∃ l, Schedule R l ∧ items ⊆ l := by
  induction items with
  | nil => exact ⟨[], .nil, List.Subset.refl _⟩
  | cons v items ih =>
    obtain ⟨l₁, h₁, hv⟩ := h v List.mem_cons_self
    obtain ⟨l₂, h₂, hitems⟩ := ih fun w hw => h w (List.mem_cons_of_mem v hw)
    obtain ⟨l, hl, hl₁, hl₂⟩ := h₁.union h₂
    exact ⟨l, hl, List.cons_subset.mpr ⟨hl₁ hv, List.Subset.trans hitems hl₂⟩⟩

/-- Dependencies of what is scheduled end. -/
theorem Schedule.acc {l : List V} (h : Schedule R l) : ∀ v ∈ l, Acc (swap R) v := by
  induction h with
  | nil => exact fun v hv => absurd hv List.not_mem_nil
  | cons w past _ _ ready ih =>
    intro v hv
    rcases List.mem_cons.mp hv with rfl | hpast
    · exact .intro v fun u hu => ih u (ready u hu)
    · exact ih v hpast

theorem scheduled_of_acc (needs : V → List V) (hneeds : ∀ a b, R a b → b ∈ needs a)
    (hall : ∀ a b, b ∈ needs a → R a b) {v : V} (h : Acc (swap R) v) :
    ∃ l, Schedule R l ∧ v ∈ l := by
  induction h with
  | intro v _ ih =>
    obtain ⟨l, hl, hsub⟩ := Schedule.union_list (needs v) fun w hw => ih w (hall v w hw)
    by_cases hv : v ∈ l
    · exact ⟨l, hl, hv⟩
    · exact ⟨v :: l, .cons v l hl hv fun w hw => hsub (hneeds v w hw), List.mem_cons_self⟩

theorem not_transGen_of_acc {v : V} (h : Acc (swap R) v) : ¬ TransGen R v v := by
  have hacc := h.transGen
  clear h
  induction hacc with
  | intro v _ ih => exact fun hv => ih v (transGen_swap.mpr hv) hv

/-- In an acyclic relation with finitely many dependents all dependencies end. -/
theorem Acyclic.acc (h : Acyclic R) {dependents : Set V} (hfinite : dependents.Finite)
    (hmem : ∀ a b, R a b → a ∈ dependents) (v : V) : Acc (swap R) v := by
  have hirrefl : Std.Irrefl (TransGen (swap R)) := ⟨fun a ha => h a (transGen_swap.mp ha)⟩
  have hstrict : IsStrictOrder V (TransGen (swap R)) := { }
  have hends (a : V) (hbelow : ∀ b ∈ dependents, swap R b a → Acc (swap R) b) :
      Acc (swap R) a := by
    refine .intro a fun b hb => ?_
    by_cases hmore : b ∈ dependents
    · exact hbelow b hmore hb
    · exact .intro b fun c hc => absurd (hmem b c hc) hmore
  have hwell := hfinite.wellFoundedOn (r := TransGen (swap R))
  refine hends v fun b hb _ => ?_
  exact hwell.induction hb fun a _ ih => hends a fun c hc hca => ih c hc (.single hca)

theorem acyclic_iff_scheduled (needs : V → List V) (hneeds : ∀ a b, R a b ↔ b ∈ needs a)
    {dependents : Set V} (hfinite : dependents.Finite) (hmem : ∀ a b, R a b → a ∈ dependents) :
    Acyclic R ↔ ∀ v, ∃ l, Schedule R l ∧ v ∈ l := by
  constructor
  · intro h v
    exact scheduled_of_acc needs (fun a b => (hneeds a b).mp) (fun a b => (hneeds a b).mpr)
      (h.acc hfinite hmem v)
  · intro h v
    obtain ⟨l, hl, hv⟩ := h v
    exact not_transGen_of_acc (hl.acc v hv)

end Graph
