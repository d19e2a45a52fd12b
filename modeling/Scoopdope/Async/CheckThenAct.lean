import Scoopdope.Async.Protocol

/-!
# Check, then act

A request looks whether something has been done, finds that it has not, and does it later, with
other requests in between. What is done leaves a mark that a later look should find.

`at_most_once_iff`: in a run it is done at most once exactly when everyone who does it has looked
in time: the mark of what was done so far was there, and nothing was done since.

That a request in some stage of a protocol has looked at all is `Protocol.occurs_of_stages`.
-/

namespace Async

open Soroban

section Effects

variable {I X : Type}

/-- What the events of a run do, newest first, if an event does what `effect` says of it and of
those before it. -/
def effects (effect : List I → I → Option X) : List I → List X
  | [] => []
  | i :: past => (effect past i).toList ++ effects effect past

variable {effect : List I → I → Option X} {past before : List I} {i : I} {x : X}

theorem effects_of_some (h : effect past i = some x) :
    effects effect (i :: past) = x :: effects effect past := by
  rw [effects, h, Option.toList_some, List.singleton_append]

theorem effects_of_none (h : effect past i = none) :
    effects effect (i :: past) = effects effect past := by
  rw [effects, h, Option.toList_none, List.nil_append]

theorem mem_effects_cons :
    x ∈ effects effect (i :: past) ↔ effect past i = some x ∨ x ∈ effects effect past := by
  rw [effects, List.mem_append, Option.mem_toList]

theorem effects_suffix (h : before <:+ past) : effects effect before <:+ effects effect past := by
  induction past with
  | nil => rw [List.suffix_nil.mp h]
  | cons i past ih =>
    rcases List.suffix_cons_iff.mp h with rfl | h
    · exact List.suffix_refl _
    · exact (ih h).trans (List.suffix_append _ _)

/-- Every effect is that of an event, with what the events before it did. -/
theorem event_of_effect {xs : List X} (h : x :: xs <:+ effects effect past) :
    ∃ i before, i :: before <:+ past ∧ effect before i = some x ∧ effects effect before = xs := by
  induction past with
  | nil => cases List.suffix_nil.mp h
  | cons i past ih =>
    have hearlier (h : x :: xs <:+ effects effect past) : ∃ j before, j :: before <:+ i :: past ∧
        effect before j = some x ∧ effects effect before = xs := by
      obtain ⟨j, before, hbefore, hx, hxs⟩ := ih h
      exact ⟨j, before, hbefore.trans (List.suffix_cons i past), hx, hxs⟩
    cases hi : effect past i with
    | none =>
      rw [effects_of_none hi] at h
      exact hearlier h
    | some y =>
      rw [effects_of_some hi] at h
      rcases List.suffix_cons_iff.mp h with hhead | h
      · cases hhead
        exact ⟨i, past, List.suffix_refl _, hi, rfl⟩
      · exact hearlier h

/-- Whoever does something at `i` has looked when the mark of everything done so far was there,
and nothing was done since. -/
def InTime (effect : List I → I → Option X) (Looked : List I → I → List I → Prop)
    (Marked : List I → Prop) (past : List I) (i : I) : Prop :=
  ∀ x before, effect past i = some x → Looked past i before →
    (effects effect before ≠ [] → Marked before) ∧ effects effect past = effects effect before

variable {Looked : List I → I → List I → Prop} {Marked : List I → Prop}

theorem inTime_of_none (h : effect past i = none) : InTime effect Looked Marked past i := by
  intro x before hx
  rw [h] at hx
  cases hx

/-- Who has looked in time and found no mark is the first. -/
theorem effects_eq_nil_iff (hbefore : ∀ before, Looked past i before → before <:+ past)
    (hlooked : ∃ before, Looked past i before ∧ ¬ Marked before)
    (hx : effect past i = some x) :
    effects effect past = [] ↔ InTime effect Looked Marked past i := by
  constructor
  · intro hnil x before _ hlook
    have hsuffix : effects effect before <:+ effects effect past :=
      effects_suffix (hbefore before hlook)
    rw [hnil] at hsuffix
    have hempty := List.suffix_nil.mp hsuffix
    exact ⟨fun hdone => absurd hempty hdone, hnil.trans hempty.symm⟩
  · intro htime
    obtain ⟨before, hlook, hmark⟩ := hlooked
    obtain ⟨hmarked, hsame⟩ := htime x before hx hlook
    rw [hsame]
    -- Had something been done by then, its mark would have been found.
    by_contra hdone
    exact hmark (hmarked hdone)

/-- Something is done at most once exactly when everyone who does it has looked in time. -/
theorem at_most_once_iff (hbefore : ∀ past i before, Looked past i before → before <:+ past)
    (hlooked : ∀ past i x, effect past i = some x →
      ∃ before, Looked past i before ∧ ¬ Marked before) (run : List I) :
    (∀ earlier, earlier <:+ run → (effects effect earlier).length ≤ 1) ↔
      Guarded (InTime effect Looked Marked) run := by
  refine throughout_iff_guarded (Nat.zero_le 1) run fun past i _ honce => ?_
  cases hx : effect past i with
  | none =>
    rw [effects_of_none hx]
    exact iff_of_true honce (inTime_of_none hx)
  | some x =>
    rw [effects_of_some hx, ← effects_eq_nil_iff (hbefore past i) (hlooked past i x hx) hx]
    simp

end Effects

/-! ## Who has looked -/

namespace Protocol

variable {I : Interface} {E X A S C G R : Type} [DecidableEq R] {P : Protocol I G}
  {sys : System I E X A S C} {g₀ : G} {s : S}

/-- At an event the request performs an operation, and is answered what passes. -/
def Answered (sys : System I E X A S C) (s : S) (Passes : (o : I.Op) → I.Answer o → Prop) (r : R)
    (past : List (Event E C R)) (i : Event E C R) : Prop :=
  ∃ e c o, (after sys.exec (Pool.idle s) past).performs i = some (r, e, c, o) ∧
    Passes o (sys.handle e (after sys.exec (Pool.idle s) past).shared o).1

/-- If only answers that pass lead to the stages with `Q`, a request in such a stage has got
one. -/
theorem occurs_of_stages {ok : G → A → Prop} {bad : G → X → Prop} {Q : G → Prop}
    {Passes : (o : I.Op) → I.Answer o → Prop}
    (hfollows : ∀ c, (sys.start c).Follows P ok bad g₀) (hstart : ¬ Q g₀)
    (hnext : ∀ g o answer, P.Allows g o → Q (P.next g o answer) → Q g ∨ Passes o answer) {r : R}
    {schedule : List (Event E C R)} (h : Q (P.stages sys g₀ s schedule r)) :
    Occurs (Answered sys s Passes r) schedule := by
  revert h
  induction schedule with
  | nil => exact fun h => absurd h hstart
  | cons i past ih =>
    cases hperforms : (after sys.exec (Pool.idle s) past).performs i with
    | none =>
      rw [stages_of_none hperforms]
      exact fun h => (ih h).cons i
    | some moved =>
      obtain ⟨r', e, c, o⟩ := moved
      rw [stages_cons, note_performs hperforms, Function.update_apply]
      split
      · next hr =>
        subst hr
        intro h
        -- The request was in such a stage already, or this answer has led it there.
        rcases hnext _ _ _ (allows_of_performs hfollows hperforms) h with hold | hanswer
        · exact (ih hold).cons i
        · exact .head ⟨e, c, o, hperforms, hanswer⟩
      · exact fun h => (ih h).cons i

end Protocol

end Async
