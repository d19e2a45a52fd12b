import Mathlib.Data.List.Basic
import Mathlib.Data.List.Infix
import Mathlib.Tactic.Ring
import Scoopdope.Soroban.Outcome

/-!
# Histories of calls

A contract is a function `exec : S → I → Outcome S` from a storage and a call
to the storage afterwards. A call that traps leaves the storage unchanged.

A run is the list of its calls, **newest first**: `after exec s₀ past` is the
storage after the calls of `past`, and an occurrence of a call in a run is a
suffix `i :: earlier` of it, where `earlier` is everything that came before.

Results:
1. `after_history`: what holds initially and is preserved by every accepted and
   by every trapped call, given the calls so far, holds after every run. Its
   instance `after_invariant` is about the storage alone.
2. `after_history_guarded`: the same for runs every call of which satisfies a
   condition on the calls before it.
   `throughout_iff_guarded_of`: what holds at every point of a run.
3. `Occurs`: facts about the past. They persist (`Occurs.cons`). `FirstOccurs`: the
   call with which one began.
4. `after_kept`: what is kept from some point of a run on. `exists_written`: the call
   that wrote what is there now. `accepted_once`: calls that can be accepted once only.
5. `accumulated`: amounts summed over the accepted calls of a run.
   `after_accumulated`: a measure of the storage that every accepted call changes
   by its amount.
6. `traced`: an abstract state that goes along with the run. `after_traced`: the
   storage simulates it.
7. `Nondecreasing`: runs in the order of a clock.
-/

namespace Soroban

variable {S I : Type}

/-- One call: the storage it leaves. -/
def apply (exec : S → I → Outcome S) (s : S) (i : I) : S :=
  match exec s i with
  | .ok s' => s'
  | .error _ => s

theorem apply_ok {exec : S → I → Outcome S} {s s' : S} {i : I} (h : exec s i = .ok s') :
    apply exec s i = s' := by
  rw [apply, h]

theorem apply_error {exec : S → I → Outcome S} {s : S} {i : I} {t : Trap}
    (h : exec s i = .error t) : apply exec s i = s := by
  rw [apply, h]

/-- The storage after the calls of a run, newest first. -/
def after (exec : S → I → Outcome S) (s₀ : S) : List I → S
  | [] => s₀
  | i :: past => apply exec (after exec s₀ past) i

section Invariants

variable {exec : S → I → Outcome S} {s₀ : S}

/-- Every call of the run satisfies `G` with respect to the calls before it. -/
def Guarded (G : List I → I → Prop) : List I → Prop
  | [] => True
  | i :: past => G past i ∧ Guarded G past

instance Guarded.decidable (G : List I → I → Prop) [∀ past i, Decidable (G past i)] :
    ∀ past, Decidable (Guarded G past)
  | [] => .isTrue trivial
  | _ :: past => @instDecidableAnd _ _ _ (Guarded.decidable G past)

theorem Guarded.suffix {G : List I → I → Prop} {past earlier : List I} {i : I}
    (h : Guarded G past) (hs : i :: earlier <:+ past) : G earlier i ∧ Guarded G earlier := by
  induction past with
  | nil => exact absurd (List.suffix_nil.mp hs) (List.cons_ne_nil i earlier)
  | cons j past ih =>
    rcases List.suffix_cons_iff.mp hs with he | hs'
    · cases he
      exact h
    · exact ih h.2 hs'

theorem Guarded.of_suffix {G : List I → I → Prop} {past earlier : List I} (h : Guarded G past)
    (hs : earlier <:+ past) : Guarded G earlier := by
  cases earlier with
  | nil => trivial
  | cons i earlier => exact h.suffix hs

theorem guarded_iff {G : List I → I → Prop} {past : List I} :
    Guarded G past ↔ ∀ i earlier, i :: earlier <:+ past → G earlier i := by
  constructor
  · intro h i earlier hs
    exact (h.suffix hs).1
  · intro h
    induction past with
    | nil => trivial
    | cons i past ih =>
      refine ⟨h i past (List.suffix_refl _), ih fun j earlier hs => ?_⟩
      exact h j earlier (hs.trans (List.suffix_cons i past))

/-- A property holds at every point of a run exactly when every call satisfies the
condition under which it carries over to the next point, after calls that satisfy it. -/
theorem throughout_iff_guarded_of {G : List I → I → Prop} {P : List I → Prop} (h0 : P [])
    (past : List I)
    (hstep : ∀ e i, i :: e <:+ past → Guarded G e → P e → (P (i :: e) ↔ G e i)) :
    (∀ earlier, earlier <:+ past → P earlier) ↔ Guarded G past := by
  induction past with
  | nil =>
    refine ⟨fun _ => trivial, fun _ earlier hs => ?_⟩
    rw [List.suffix_nil.mp hs]
    exact h0
  | cons i past ih =>
    have hrest := ih fun e j hs => hstep e j (hs.trans (List.suffix_cons i past))
    rw [Guarded]
    constructor
    · intro h
      have hguarded := hrest.mp fun earlier hs => h earlier (hs.trans (List.suffix_cons i past))
      have hpast := h past (List.suffix_cons i past)
      exact ⟨(hstep past i (List.suffix_refl _) hguarded hpast).mp (h _ (List.suffix_refl _)),
        hguarded⟩
    · rintro ⟨hi, hguarded⟩ earlier hs
      have hpast := hrest.mpr hguarded
      rcases List.suffix_cons_iff.mp hs with rfl | hs
      · exact (hstep past i (List.suffix_refl _) hguarded
          (hpast past (List.suffix_refl _))).mpr hi
      · exact hpast earlier hs

theorem throughout_iff_guarded {G : List I → I → Prop} {P : List I → Prop} (h0 : P [])
    (past : List I)
    (hstep : ∀ e i, i :: e <:+ past → P e → (P (i :: e) ↔ G e i)) :
    (∀ earlier, earlier <:+ past → P earlier) ↔ Guarded G past :=
  throughout_iff_guarded_of h0 past fun e i hs _ => hstep e i hs

/-- Induction over the runs whose calls satisfy `G`. -/
theorem after_history_guarded {G : List I → I → Prop} {P : List I → S → Prop} (h0 : P [] s₀)
    (hok : ∀ past i s s', Guarded G past → G past i → s = after exec s₀ past → P past s →
      exec s i = .ok s' → P (i :: past) s')
    (htrap : ∀ past i s t, Guarded G past → G past i → s = after exec s₀ past → P past s →
      exec s i = .error t → P (i :: past) s) :
    ∀ past, Guarded G past → P past (after exec s₀ past) := by
  intro past
  induction past with
  | nil =>
    intro _
    exact h0
  | cons i past ih =>
    intro hg
    have hp := ih hg.2
    cases he : exec (after exec s₀ past) i with
    | ok s' =>
      rw [after, apply_ok he]
      exact hok past i _ s' hg.2 hg.1 rfl hp he
    | error t =>
      rw [after, apply_error he]
      exact htrap past i _ t hg.2 hg.1 rfl hp he

/-- Induction over all runs. -/
theorem after_history {P : List I → S → Prop} (h0 : P [] s₀)
    (hok : ∀ past i s s', s = after exec s₀ past → P past s → exec s i = .ok s' →
      P (i :: past) s')
    (htrap : ∀ past i s t, s = after exec s₀ past → P past s → exec s i = .error t →
      P (i :: past) s) (past : List I) : P past (after exec s₀ past) := by
  refine after_history_guarded (G := fun _ _ => True) h0 (fun past i s s' _ _ => hok past i s s')
    (fun past i s t _ _ => htrap past i s t) past ?_
  induction past with
  | nil => trivial
  | cons i past ih => exact ⟨trivial, ih⟩

/-- What holds of the initial storage and is preserved by every accepted call
holds of every storage a run reaches. -/
theorem after_invariant {P : S → Prop} (h0 : P s₀)
    (hok : ∀ s i s', P s → exec s i = .ok s' → P s') (past : List I) :
    P (after exec s₀ past) :=
  after_history (P := fun _ s => P s) h0 (fun _ i s s' _ hs he => hok s i s' hs he)
    (fun _ _ _ _ _ hs _ => hs) past

/-- The call is accepted after the calls before it. -/
def Accepted (exec : S → I → Outcome S) (s₀ : S) (earlier : List I) (i : I) : Prop :=
  ∃ s', exec (after exec s₀ earlier) i = .ok s'

theorem accepted_iff {earlier : List I} {i : I} :
    Accepted exec s₀ earlier i ↔ (exec (after exec s₀ earlier) i).isOk = true :=
  isOk_iff.symm

instance (earlier : List I) (i : I) : Decidable (Accepted exec s₀ earlier i) :=
  decidable_of_iff _ accepted_iff.symm

/-- What holds at some point of a run and is kept by every accepted call from
there on holds at its end. -/
theorem after_kept {P : S → Prop} {earlier past : List I} (hsuf : earlier <:+ past)
    (h : P (after exec s₀ earlier))
    (hkeep : ∀ i e s', i :: e <:+ past → earlier <:+ e → P (after exec s₀ e) →
      exec (after exec s₀ e) i = .ok s' → P s') : P (after exec s₀ past) := by
  induction past with
  | nil =>
    rw [List.suffix_nil.mp hsuf] at h
    exact h
  | cons i past ih =>
    rcases List.suffix_cons_iff.mp hsuf with rfl | hsuf'
    · exact h
    · have hp := ih hsuf' fun j e s' hj => hkeep j e s' (hj.trans (List.suffix_cons i past))
      cases he : exec (after exec s₀ past) i with
      | ok s' =>
        rw [after, apply_ok he]
        exact hkeep i past s' (List.suffix_refl _) hsuf' hp he
      | error t =>
        rw [after, apply_error he]
        exact hp

/-- What a part of the storage is at the end of a run, and was not at its start, was written by
some call of the run and has been so since. -/
theorem exists_written {X : Type} (view : S → X) {x : X} {past : List I} (h0 : view s₀ ≠ x)
    (h : view (after exec s₀ past) = x) :
    ∃ i e, i :: e <:+ past ∧ view (after exec s₀ e) ≠ x ∧
      ∀ f, i :: e <:+ f → f <:+ past → view (after exec s₀ f) = x := by
  induction past with
  | nil => exact absurd h h0
  | cons i past ih =>
    by_cases hpast : view (after exec s₀ past) = x
    · obtain ⟨j, e, hs, hne, hsince⟩ := ih hpast
      refine ⟨j, e, hs.trans (List.suffix_cons i past), hne, fun f hf hfpast => ?_⟩
      rcases List.suffix_cons_iff.mp hfpast with rfl | hfpast
      · exact h
      · exact hsince f hf hfpast
    · refine ⟨i, past, List.suffix_refl _, hpast, fun f hf hfpast => ?_⟩
      rw [hfpast.eq_of_length (Nat.le_antisymm hfpast.length_le hf.length_le)]
      exact h

/-- A call that spends something which no call gives back, and is blocked once it
is spent, is accepted at most once in a run. `Q` says which calls, and in which
storages, are meant. -/
theorem accepted_once (Q : S → I → Prop) (spent : S → Prop)
    (hspend : ∀ s i s', Q s i → exec s i = .ok s' → spent s')
    {past : List I}
    (hkeep : ∀ e i s', i :: e <:+ past → spent (after exec s₀ e) →
      exec (after exec s₀ e) i = .ok s' → spent s')
    (hblock : ∀ s i s', Q s i → spent s → exec s i ≠ .ok s') {e f : List I} {i j : I}
    (hi : i :: e <:+ past) (hqi : Q (after exec s₀ e) i) (hai : Accepted exec s₀ e i)
    (hj : j :: f <:+ past) (hqj : Q (after exec s₀ f) j) (haj : Accepted exec s₀ f j) :
    i :: e = j :: f := by
  have hlater : ∀ {i j : I} {e f : List I}, Q (after exec s₀ e) i → Accepted exec s₀ e i →
      Q (after exec s₀ f) j → Accepted exec s₀ f j → j :: f <:+ past → i :: e <:+ j :: f →
      i :: e = j :: f := by
    rintro i j e f hqi ⟨s', hs'⟩ hqj ⟨t', ht'⟩ hj hsuf
    rcases List.suffix_cons_iff.mp hsuf with heq | hbefore
    · exact heq
    · have hspent : spent (after exec s₀ (i :: e)) := by
        rw [after, apply_ok hs']
        exact hspend _ i s' hqi hs'
      have hend := after_kept hbefore hspent fun k g u hk _ hg hu =>
        hkeep g k u (hk.trans ((List.suffix_cons j f).trans hj)) hg hu
      exact absurd ht' (hblock _ j t' hqj hend)
  rcases List.suffix_or_suffix_of_suffix hi hj with h | h
  · exact hlater hqi hai hqj haj hj h
  · exact (hlater hqj haj hqi hai hi h).symm

/-- The sum of the amounts `f` over the accepted calls of a run, each amount read
in the storage its call finds. -/
def accumulated (exec : S → I → Outcome S) (s₀ : S) (f : S → I → Int) : List I → Int
  | [] => 0
  | i :: past =>
    match exec (after exec s₀ past) i with
    | .ok _ => accumulated exec s₀ f past + f (after exec s₀ past) i
    | .error _ => accumulated exec s₀ f past

theorem accumulated_ok {f : S → I → Int} {past : List I} {i : I} {s' : S}
    (h : exec (after exec s₀ past) i = .ok s') :
    accumulated exec s₀ f (i :: past) =
      accumulated exec s₀ f past + f (after exec s₀ past) i := by
  rw [accumulated, h]

theorem accumulated_error {f : S → I → Int} {past : List I} {i : I} {t : Trap}
    (h : exec (after exec s₀ past) i = .error t) :
    accumulated exec s₀ f (i :: past) = accumulated exec s₀ f past := by
  rw [accumulated, h]

/-- A measure that every accepted call changes by its amount is the measure at the
start plus the amounts of the run. -/
theorem after_accumulated {m : S → Int} {f : S → I → Int} (past : List I)
    (hstep : ∀ e i s', i :: e <:+ past → exec (after exec s₀ e) i = .ok s' →
      m s' = m (after exec s₀ e) + f (after exec s₀ e) i) :
    m (after exec s₀ past) = m s₀ + accumulated exec s₀ f past := by
  induction past with
  | nil => rw [after, accumulated, Int.add_zero]
  | cons i past ih =>
    have hp := ih fun e j s' hj => hstep e j s' (hj.trans (List.suffix_cons i past))
    cases he : exec (after exec s₀ past) i with
    | ok s' =>
      rw [after, apply_ok he, accumulated_ok he, hstep past i s' (List.suffix_refl _) he, hp]
      ring
    | error t => rw [after, apply_error he, accumulated_error he, hp]

/-- Amounts that no accepted call makes negative do not sum to a negative amount. -/
theorem accumulated_nonneg {f : S → I → Int} (past : List I)
    (hf : ∀ e i s', i :: e <:+ past → exec (after exec s₀ e) i = .ok s' →
      0 ≤ f (after exec s₀ e) i) : 0 ≤ accumulated exec s₀ f past := by
  induction past with
  | nil => exact Int.le_refl 0
  | cons i past ih =>
    have hp := ih fun e j s' hj => hf e j s' (hj.trans (List.suffix_cons i past))
    cases he : exec (after exec s₀ past) i with
    | ok s' =>
      rw [accumulated_ok he]
      exact Int.add_nonneg hp (hf past i s' (List.suffix_refl _) he)
    | error t =>
      rw [accumulated_error he]
      exact hp

/-- Each of them is at most their sum. -/
theorem le_accumulated {f : S → I → Int} {past : List I}
    (hf : ∀ e i s', i :: e <:+ past → exec (after exec s₀ e) i = .ok s' →
      0 ≤ f (after exec s₀ e) i) {e : List I} {i : I} (hi : i :: e <:+ past)
    (hacc : Accepted exec s₀ e i) : f (after exec s₀ e) i ≤ accumulated exec s₀ f past := by
  induction past with
  | nil => exact absurd (List.suffix_nil.mp hi) (List.cons_ne_nil i e)
  | cons j past ih =>
    have hf' := fun g k s' (hk : k :: g <:+ past) =>
      hf g k s' (hk.trans (List.suffix_cons j past))
    rcases List.suffix_cons_iff.mp hi with heq | hi
    · cases heq
      obtain ⟨s', he⟩ := hacc
      rw [accumulated_ok he]
      exact Int.le_add_of_nonneg_left (accumulated_nonneg e hf')
    · have hle := ih hf' hi
      cases he : exec (after exec s₀ past) j with
      | ok s' =>
        rw [accumulated_ok he]
        exact hle.trans (Int.le_add_of_nonneg_right (hf past j s' (List.suffix_refl _) he))
      | error t =>
        rw [accumulated_error he]
        exact hle

/-- Amounts that are zero for all accepted calls sum to zero. -/
theorem accumulated_of_guarded {f : S → I → Int} {past : List I}
    (hg : Guarded (fun e i => Accepted exec s₀ e i → f (after exec s₀ e) i = 0) past) :
    accumulated exec s₀ f past = 0 := by
  induction past with
  | nil => rfl
  | cons i past ih =>
    cases he : exec (after exec s₀ past) i with
    | ok s' => rw [accumulated_ok he, ih hg.2, hg.1 ⟨s', he⟩, Int.add_zero]
    | error t => rw [accumulated_error he, ih hg.2]

/-- They sum to zero only if each of them is zero. -/
theorem accumulated_eq_zero {f : S → I → Int} (past : List I)
    (hf : ∀ e i s', i :: e <:+ past → exec (after exec s₀ e) i = .ok s' →
      0 ≤ f (after exec s₀ e) i) :
    accumulated exec s₀ f past = 0 ↔
      Guarded (fun e i => Accepted exec s₀ e i → f (after exec s₀ e) i = 0) past := by
  induction past with
  | nil => exact ⟨fun _ => trivial, fun _ => rfl⟩
  | cons i past ih =>
    have hf' := fun e j s' (hj : j :: e <:+ past) =>
      hf e j s' (hj.trans (List.suffix_cons i past))
    have hp := accumulated_nonneg past hf'
    rw [Guarded, ← ih hf']
    cases he : exec (after exec s₀ past) i with
    | ok s' =>
      have hi := hf past i s' (List.suffix_refl _) he
      rw [accumulated_ok he]
      constructor
      · intro hsum
        exact ⟨fun _ => by omega, by omega⟩
      · rintro ⟨hzero, hrest⟩
        rw [hrest, hzero ⟨s', he⟩, Int.add_zero]
    | error t =>
      rw [accumulated_error he]
      refine ⟨fun hzero => ⟨?_, hzero⟩, fun hzero => hzero.2⟩
      rintro ⟨s', hs'⟩
      rw [he] at hs'
      cases hs'

theorem accumulated_neg {f : S → I → Int} (past : List I) :
    accumulated exec s₀ (fun s i => - f s i) past = - accumulated exec s₀ f past := by
  induction past with
  | nil => rfl
  | cons i past ih =>
    cases he : exec (after exec s₀ past) i with
    | ok s' =>
      rw [accumulated_ok he, accumulated_ok he, ih]
      ring
    | error t => rw [accumulated_error he, accumulated_error he, ih]

/-- Amounts that no accepted call makes positive do not sum to a positive amount. -/
theorem accumulated_nonpos {f : S → I → Int} (past : List I)
    (hf : ∀ e i s', i :: e <:+ past → exec (after exec s₀ e) i = .ok s' →
      f (after exec s₀ e) i ≤ 0) : accumulated exec s₀ f past ≤ 0 := by
  have hneg := accumulated_nonneg (f := fun s i => - f s i) past fun e i s' hs he =>
    Int.neg_nonneg_of_nonpos (hf e i s' hs he)
  rw [accumulated_neg] at hneg
  omega

/-- They sum to zero only if each of them is zero. -/
theorem accumulated_eq_zero_of_nonpos {f : S → I → Int} (past : List I)
    (hf : ∀ e i s', i :: e <:+ past → exec (after exec s₀ e) i = .ok s' →
      f (after exec s₀ e) i ≤ 0) :
    accumulated exec s₀ f past = 0 ↔
      Guarded (fun e i => Accepted exec s₀ e i → f (after exec s₀ e) i = 0) past := by
  have hneg := accumulated_eq_zero (f := fun s i => - f s i) past fun e i s' hs he =>
    Int.neg_nonneg_of_nonpos (hf e i s' hs he)
  simp only [accumulated_neg, Int.neg_eq_zero] at hneg
  exact hneg

/-- An abstract state that goes along with a run: `f` is what an accepted call does
to it, in the storage the call finds. -/
def traced {G : Type} (exec : S → I → Outcome S) (s₀ : S) (f : G → S → I → G) (g₀ : G) :
    List I → G
  | [] => g₀
  | i :: past =>
    match exec (after exec s₀ past) i with
    | .ok _ => f (traced exec s₀ f g₀ past) (after exec s₀ past) i
    | .error _ => traced exec s₀ f g₀ past

section Traced

variable {G : Type} {f : G → S → I → G} {g₀ : G}

theorem traced_ok {past : List I} {i : I} {s' : S} (h : exec (after exec s₀ past) i = .ok s') :
    traced exec s₀ f g₀ (i :: past) = f (traced exec s₀ f g₀ past) (after exec s₀ past) i := by
  rw [traced, h]

theorem traced_error {past : List I} {i : I} {t : Trap}
    (h : exec (after exec s₀ past) i = .error t) :
    traced exec s₀ f g₀ (i :: past) = traced exec s₀ f g₀ past := by
  rw [traced, h]

/-- A relation between the storage and the abstract state that holds at the start and
is kept by every accepted call holds along the run. -/
theorem after_traced {R : S → G → Prop} (h0 : R s₀ g₀) (past : List I)
    (hstep : ∀ e i s', i :: e <:+ past → R (after exec s₀ e) (traced exec s₀ f g₀ e) →
      exec (after exec s₀ e) i = .ok s' →
      R s' (f (traced exec s₀ f g₀ e) (after exec s₀ e) i)) :
    R (after exec s₀ past) (traced exec s₀ f g₀ past) := by
  induction past with
  | nil => exact h0
  | cons i past ih =>
    have hp := ih fun e j s' hj => hstep e j s' (hj.trans (List.suffix_cons i past))
    cases he : exec (after exec s₀ past) i with
    | ok s' =>
      rw [after, apply_ok he, traced_ok he]
      exact hstep past i s' (List.suffix_refl _) hp he
    | error t =>
      rw [after, apply_error he, traced_error he]
      exact hp

end Traced

end Invariants

/-- The calls of the run come in the order of a clock that they read. -/
def Nondecreasing (clock : I → Int) (past : List I) : Prop :=
  past.Pairwise fun i j => clock j ≤ clock i

instance (clock : I → Int) (past : List I) : Decidable (Nondecreasing clock past) :=
  inferInstanceAs (Decidable (past.Pairwise _))

section Nondecreasing

variable {clock : I → Int} {past e f : List I} {i j : I}

theorem Nondecreasing.of_suffix (h : Nondecreasing clock past) (hs : e <:+ past) :
    Nondecreasing clock e :=
  List.Pairwise.sublist hs.sublist h

theorem Nondecreasing.le (h : Nondecreasing clock past) (hi : i :: e <:+ past)
    (hj : j :: f <:+ e) : clock j ≤ clock i :=
  List.rel_of_pairwise_cons (h.of_suffix hi) (hj.subset List.mem_cons_self)

end Nondecreasing

/-- Some call of the run, with the calls before it, satisfies `Q`. -/
def Occurs (Q : List I → I → Prop) (past : List I) : Prop :=
  ∃ i earlier, i :: earlier <:+ past ∧ Q earlier i

theorem Occurs.head {Q : List I → I → Prop} {past : List I} {i : I} (h : Q past i) :
    Occurs Q (i :: past) :=
  ⟨i, past, List.suffix_refl _, h⟩

theorem occurs_cons_iff {Q : List I → I → Prop} {past : List I} {i : I} :
    Occurs Q (i :: past) ↔ Q past i ∨ Occurs Q past := by
  constructor
  · rintro ⟨j, earlier, hs, hq⟩
    rcases List.suffix_cons_iff.mp hs with he | hs
    · cases he
      exact .inl hq
    · exact .inr ⟨j, earlier, hs, hq⟩
  · rintro (hq | ⟨j, earlier, hs, hq⟩)
    · exact .head hq
    · exact ⟨j, earlier, hs.trans (List.suffix_cons i past), hq⟩

/-- What occurs in a run occurs in it for a first time. -/
theorem Occurs.first {Q : List I → I → Prop} {past : List I} (h : Occurs Q past) :
    ∃ i earlier, i :: earlier <:+ past ∧ Q earlier i ∧ ¬ Occurs Q earlier := by
  induction past with
  | nil =>
    obtain ⟨i, earlier, hs, -⟩ := h
    cases List.suffix_nil.mp hs
  | cons j past ih =>
    by_cases hpast : Occurs Q past
    · obtain ⟨i, earlier, hs, hq, hfirst⟩ := ih hpast
      exact ⟨i, earlier, hs.trans (List.suffix_cons j past), hq, hfirst⟩
    · exact ⟨j, past, List.suffix_refl _, (occurs_cons_iff.mp h).resolve_right hpast, hpast⟩

theorem Occurs.cons {Q : List I → I → Prop} {past : List I} (i : I) (h : Occurs Q past) :
    Occurs Q (i :: past) :=
  occurs_cons_iff.mpr (.inr h)

/-- The call `i` with the calls `earlier` before it satisfies `Q`, and none of these does. -/
def FirstOccurs (Q : List I → I → Prop) (past : List I) (i : I) (earlier : List I) : Prop :=
  i :: earlier <:+ past ∧ Q earlier i ∧ ¬ Occurs Q earlier

theorem FirstOccurs.occurs {Q : List I → I → Prop} {past earlier : List I} {i : I}
    (h : FirstOccurs Q past i earlier) : Occurs Q past :=
  ⟨i, earlier, h.1, h.2.1⟩

/-- A first occurrence stays the first one. -/
theorem firstOccurs_cons_iff {Q : List I → I → Prop} {past earlier : List I} {i j : I} :
    FirstOccurs Q (j :: past) i earlier ↔
      FirstOccurs Q past i earlier ∨ (i = j ∧ earlier = past ∧ Q past j ∧ ¬ Occurs Q past) := by
  constructor
  · rintro ⟨hs, hq, hfirst⟩
    rcases List.suffix_cons_iff.mp hs with he | hs
    · cases he
      exact .inr ⟨rfl, rfl, hq, hfirst⟩
    · exact .inl ⟨hs, hq, hfirst⟩
  · rintro (⟨hs, hq, hfirst⟩ | ⟨rfl, rfl, hq, hfirst⟩)
    · exact ⟨hs.trans (List.suffix_cons j past), hq, hfirst⟩
    · exact ⟨List.suffix_refl _, hq, hfirst⟩

end Soroban

/-!
## Accounts that only grow

An entry of a storage with a part that is `fixed` when the entry is created and
an `amount` that starts at zero and is only ever raised. `Advance` is what one
call can do to such an entry.

`amount_after`: after a run the amount is the sum of what the accepted calls
added. `kept_after`: from any point of a run on, the entry stays, its fixed
part is the same and its amount has not fallen; `unchanged_after`: where nothing
is added any more, its amount is the same too.
-/

namespace Soroban

variable {S I V F : Type}

/-- One call that adds `x`: the entry stays absent, is created, or grows. -/
inductive Advance (fixed : V → F) (amount : V → Int) : Option V → Option V → Int → Prop
  | absent : Advance fixed amount none none 0
  | created (v : V) (hv : amount v = 0) : Advance fixed amount none (some v) 0
  | grown (v v' : V) (x : Int) (hfixed : fixed v' = fixed v) (hv : amount v' = amount v + x)
      (hx : 0 ≤ x) : Advance fixed amount (some v) (some v') x

/-- The amount of an entry, 0 while it is absent. -/
def amountOf (amount : V → Int) : Option V → Int
  | some v => amount v
  | none => 0

section Advance

variable {fixed : V → F} {amount : V → Int}

theorem Advance.refl (o : Option V) : Advance fixed amount o o 0 := by
  cases o with
  | none => exact .absent
  | some v => exact .grown v v 0 rfl (Int.add_zero _).symm (le_refl 0)

theorem Advance.amountOf_eq {o o' : Option V} {x : Int} (h : Advance fixed amount o o' x) :
    amountOf amount o' = amountOf amount o + x := by
  cases h with
  | absent => rfl
  | created v hv => exact hv
  | grown v v' _ _ hv _ => exact hv

theorem Advance.of_some {v : V} {o : Option V} {x : Int} (h : Advance fixed amount (some v) o x) :
    ∃ v', o = some v' ∧ fixed v' = fixed v ∧ amount v ≤ amount v' := by
  cases h with
  | grown _ v' _ hfixed hv hx =>
    refine ⟨v', rfl, hfixed, ?_⟩
    rw [hv]
    exact Int.le_add_of_nonneg_right hx

end Advance

section Runs

variable {exec : S → I → Outcome S} {s₀ : S} {fixed : V → F} {amount : V → Int}
  {f : S → I → Int}

/-- The amount of an entry that was absent at the start. -/
theorem amount_after (entry : S → Option V) (hstart : entry s₀ = none)
    (hstep : ∀ e i s', exec (after exec s₀ e) i = .ok s' →
      Advance fixed amount (entry (after exec s₀ e)) (entry s') (f (after exec s₀ e) i))
    (past : List I) :
    amountOf amount (entry (after exec s₀ past)) = accumulated exec s₀ f past := by
  have hrun := after_accumulated (m := fun s => amountOf amount (entry s)) past
    fun e i s' _ he => (hstep e i s' he).amountOf_eq
  rw [hrun, hstart, amountOf, Int.zero_add]

theorem kept_after (entry : S → Option V)
    (hstep : ∀ e i s', exec (after exec s₀ e) i = .ok s' →
      Advance fixed amount (entry (after exec s₀ e)) (entry s') (f (after exec s₀ e) i))
    {earlier past : List I} (hsuf : earlier <:+ past) {v : V}
    (hget : entry (after exec s₀ earlier) = some v) :
    ∃ v', entry (after exec s₀ past) = some v' ∧ fixed v' = fixed v ∧ amount v ≤ amount v' := by
  refine after_kept (P := fun s => ∃ v', entry s = some v' ∧ fixed v' = fixed v ∧
    amount v ≤ amount v') hsuf ⟨v, hget, rfl, le_refl _⟩ ?_
  rintro i e s' _ _ ⟨v₁, hget₁, hfixed₁, hle₁⟩ he
  have hadv := hstep e i s' he
  rw [hget₁] at hadv
  obtain ⟨v₂, hget₂, hfixed₂, hle₂⟩ := hadv.of_some
  exact ⟨v₂, hget₂, hfixed₂.trans hfixed₁, hle₁.trans hle₂⟩

/-- From a point of a run on after which nothing is added, the amount stays as well. -/
theorem unchanged_after (entry : S → Option V)
    (hstep : ∀ e i s', exec (after exec s₀ e) i = .ok s' →
      Advance fixed amount (entry (after exec s₀ e)) (entry s') (f (after exec s₀ e) i))
    {earlier past : List I} (hsuf : earlier <:+ past) {v : V}
    (hget : entry (after exec s₀ earlier) = some v)
    (hzero : ∀ e i s', i :: e <:+ past → earlier <:+ e → exec (after exec s₀ e) i = .ok s' →
      f (after exec s₀ e) i = 0) :
    ∃ v', entry (after exec s₀ past) = some v' ∧ fixed v' = fixed v ∧ amount v' = amount v := by
  refine after_kept (P := fun s => ∃ v', entry s = some v' ∧ fixed v' = fixed v ∧
    amount v' = amount v) hsuf ⟨v, hget, rfl, rfl⟩ ?_
  rintro i e s' hi hearlier ⟨v₁, hget₁, hfixed₁, hamount₁⟩ he
  have hadv := hstep e i s' he
  have hsum := hadv.amountOf_eq
  rw [hget₁] at hadv
  obtain ⟨v₂, hget₂, hfixed₂, _⟩ := hadv.of_some
  rw [hget₁, hget₂, hzero e i s' hi hearlier he, Int.add_zero] at hsum
  exact ⟨v₂, hget₂, hfixed₂.trans hfixed₁, hsum.trans hamount₁⟩

end Runs

end Soroban
