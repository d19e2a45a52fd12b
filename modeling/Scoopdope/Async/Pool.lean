import Mathlib.Logic.Function.Basic
import Scoopdope.Async.Process
import Scoopdope.Soroban.History

/-!
# Interleaved requests

A `System` serves calls: `start` is the function each call runs, `handle` what an
operation does to the shared state. In a `Pool` any number of requests are in flight; a
schedule is a list of events, **newest first**, each of which takes in a new call or
resumes a request: its operation is performed, and its code runs on to the next `await`.
An event that names no such request changes nothing. So the pools of all schedules are all
interleavings.

`Pool.performs` is the operation that an event performs, `System.exec_happens` what it does
beyond that; `requests_step` carries a property of all requests over it. Runs are those of
`Soroban.History`.
-/

namespace Async

open Soroban

variable {I : Interface} {E X A S C R : Type}

structure System (I : Interface) (E X A S C : Type) where
  start : C → Process I E X A
  handle : E → S → (o : I.Op) → I.Answer o × S

/-- The shared state, and the requests taken in so far: the call and what is left of its
function. -/
structure Pool (I : Interface) (E X A S C R : Type) where
  shared : S
  request : R → Option (C × Process I E X A)

/-- Nobody has called yet. -/
def Pool.idle (s : S) : Pool I E X A S C R where
  shared := s
  request := fun _ => none

inductive Event (E C R : Type)
  | call (r : R) (e : E) (c : C)
  | resume (r : R) (e : E)

/-- The operation that a request awaits, with its call. -/
def Pool.pending (p : Pool I E X A S C R) (r : R) : Option (C × I.Op) :=
  match p.request r with
  | some (c, .await o _) => some (c, o)
  | _ => none

/-- What an event performs: the request, its environment, its call and the operation. -/
def Pool.performs (p : Pool I E X A S C R) : Event E C R → Option (R × E × C × I.Op)
  | .call _ _ _ => none
  | .resume r e => (p.pending r).map fun (c, o) => (r, e, c, o)

/-- What a request that is done has come to. -/
def Pool.result (p : Pool I E X A S C R) (r : R) : Option (C × Except X A) :=
  match p.request r with
  | some (c, .ret a) => some (c, .ok a)
  | some (c, .fail x) => some (c, .error x)
  | _ => none

variable [DecidableEq R]

namespace System

/-- One event. -/
def next (sys : System I E X A S C) (p : Pool I E X A S C R) : Event E C R → Pool I E X A S C R
  | .call r e c =>
    match p.request r with
    | none => { p with request := Function.update p.request r (some (c, (sys.start c).settle e)) }
    | some _ => p
  | .resume r e =>
    match p.request r with
    | some (c, .await o k) =>
      { shared := (sys.handle e p.shared o).2
        request := Function.update p.request r
          (some (c, (k (sys.handle e p.shared o).1).settle e)) }
    | _ => p

/-- The step of a run: no event fails. -/
def exec (sys : System I E X A S C) (p : Pool I E X A S C R) (i : Event E C R) :
    Outcome (Pool I E X A S C R) := .ok (sys.next p i)

/-- What an event does. -/
inductive Happens (sys : System I E X A S C) (p : Pool I E X A S C R) (i : Event E C R)
    (p' : Pool I E X A S C R) : Prop
  | called (r : R) (e : E) (c : C) (event : i = .call r e c) (free : p.request r = none)
      (performs : p.performs i = none) (shared : p'.shared = p.shared)
      (request : p'.request = Function.update p.request r (some (c, (sys.start c).settle e)))
  | resumed (r : R) (e : E) (c : C) (o : I.Op) (k : I.Answer o → Process I E X A)
      (performs : p.performs i = some (r, e, c, o))
      (awaits : p.request r = some (c, .await o k))
      (shared : p'.shared = (sys.handle e p.shared o).2)
      (request : p'.request = Function.update p.request r
        (some (c, (k (sys.handle e p.shared o).1).settle e)))
  | idle (performs : p.performs i = none) (same : p' = p)

variable {sys : System I E X A S C} {p p' : Pool I E X A S C R} {i : Event E C R}

theorem exec_happens (h : sys.exec p i = .ok p') : Happens sys p i p' := by
  cases h
  cases i with
  | call r e c =>
    cases hr : p.request r with
    | none => exact .called r e c rfl hr rfl (by rw [next, hr]) (by rw [next, hr])
    | some request => exact .idle rfl (by rw [next, hr])
  | resume r e =>
    have hidle (hpending : p.pending r = none) (hnext : sys.next p (.resume r e) = p) :
        Happens sys p (.resume r e) (sys.next p (.resume r e)) :=
      .idle (by rw [Pool.performs, hpending, Option.map_none]) hnext
    cases hr : p.request r with
    | none => exact hidle (by rw [Pool.pending, hr]) (by rw [next, hr])
    | some request =>
      obtain ⟨c, process⟩ := request
      cases process with
      | ret a => exact hidle (by rw [Pool.pending, hr]) (by rw [next, hr])
      | fail x => exact hidle (by rw [Pool.pending, hr]) (by rw [next, hr])
      | ask k => exact hidle (by rw [Pool.pending, hr]) (by rw [next, hr])
      | await o k =>
        have hperforms : p.performs (.resume r e) = some (r, e, c, o) := by
          rw [Pool.performs, Pool.pending, hr, Option.map_some]
        exact .resumed r e c o k hperforms hr (by rw [next, hr]) (by rw [next, hr])

omit [DecidableEq R] in
theorem awaits_of_performs {r : R} {e : E} {c : C} {o : I.Op}
    (h : p.performs i = some (r, e, c, o)) : ∃ k, p.request r = some (c, .await o k) := by
  cases i with
  | call r' e' c' => cases h
  | resume r' e' =>
    obtain ⟨⟨c', o'⟩, hpending, heq⟩ := Option.map_eq_some_iff.mp h
    cases heq
    unfold Pool.pending at hpending
    split at hpending
    · next k hr =>
      cases hpending
      exact ⟨k, hr⟩
    · cases hpending

theorem shared_of_performs {r : R} {e : E} {c : C} {o : I.Op} (h : sys.exec p i = .ok p')
    (hperforms : p.performs i = some (r, e, c, o)) : p'.shared = (sys.handle e p.shared o).2 := by
  cases exec_happens h with
  | called r' e' c' event free performs shared request => cases hperforms.symm.trans performs
  | resumed r' e' c' o' k performs awaits shared request =>
    cases hperforms.symm.trans performs
    exact shared
  | idle performs same => cases hperforms.symm.trans performs

theorem shared_of_idle (h : sys.exec p i = .ok p') (hperforms : p.performs i = none) :
    p'.shared = p.shared := by
  cases exec_happens h with
  | called r e c event free performs shared request => exact shared
  | resumed r e c o k performs awaits shared request => cases hperforms.symm.trans performs
  | idle performs same => exact congrArg Pool.shared same

variable (sys) in
theorem after_exec {s₀ : Pool I E X A S C R} (past : List (Event E C R)) (i : Event E C R) :
    sys.exec (after sys.exec s₀ past) i = .ok (after sys.exec s₀ (i :: past)) := rfl

/-- A property of all requests, which may depend on the state and the schedule, holds
after an event if it holds of the request that moved and is kept by the others. -/
theorem requests_step {Q Q' : R → C → Process I E X A → Prop}
    (hQ : ∀ r c process, p.request r = some (c, process) → Q r c process)
    (hothers : ∀ r c process, (∀ e c o, p.performs i ≠ some (r, e, c, o)) →
      p.request r = some (c, process) → Q r c process → Q' r c process)
    (hcall : ∀ r e c, i = .call r e c → p.request r = none →
      Q' r c ((sys.start c).settle e))
    (hresume : ∀ r e c o k, p.performs i = some (r, e, c, o) →
      p.request r = some (c, .await o k) → Q r c (.await o k) →
      Q' r c ((k (sys.handle e p.shared o).1).settle e))
    (h : sys.exec p i = .ok p') :
    ∀ r c process, p'.request r = some (c, process) → Q' r c process := by
  intro r c process hr
  have hkept (hperforms : p.performs i = none) (hr : p.request r = some (c, process)) :
      Q' r c process := by
    refine hothers r c process (fun e' c' o => ?_) hr (hQ r c process hr)
    rw [hperforms]
    exact nofun
  cases exec_happens h with
  | called r' e c' event free performs shared request =>
    rw [request, Function.update_apply] at hr
    split at hr
    · next hsame =>
      cases hr
      rw [hsame]
      exact hcall r' e c event free
    · exact hkept performs hr
  | resumed r' e c' o k performs awaits shared request =>
    rw [request, Function.update_apply] at hr
    split at hr
    · next hsame =>
      cases hr
      rw [hsame]
      exact hresume r' e c o k performs awaits (hQ r' c _ awaits)
    · next hne =>
      refine hothers r c process (fun e' c'' o' => ?_) hr (hQ r c process hr)
      rw [performs]
      intro heq
      cases heq
      exact hne rfl
  | idle performs same =>
    subst same
    exact hkept performs hr

/-- Every operation that is performed is one that the function of its call may await. -/
theorem only_of_performs (φ : C → I.Op → Prop) (hstart : ∀ c, (sys.start c).Only (φ c)) {s : S}
    {past : List (Event E C R)} {r : R} {e : E} {c : C} {o : I.Op}
    (h : (after sys.exec (Pool.idle s) past).performs i = some (r, e, c, o)) : φ c o := by
  have hall (past : List (Event E C R)) : ∀ r c process,
      (after sys.exec (Pool.idle s) past).request r = some (c, process) →
        process.Only (φ c) := by
    induction past with
    | nil => exact nofun
    | cons i past ih =>
      refine requests_step ih (fun r c process _ _ honly => honly) ?_ ?_ (after_exec sys past i)
      · exact fun r e c _ _ => Process.only_settle e (hstart c)
      · exact fun r e c o k _ _ honly => Process.only_settle e (honly.2 _)
  obtain ⟨k, hr⟩ := awaits_of_performs h
  exact (hall past r c _ hr).1

/-- A request keeps the call it was taken in with. -/
theorem call_kept {s₀ : Pool I E X A S C R} {past schedule : List (Event E C R)} {r : R} {c : C}
    {process : Process I E X A} (hs : past <:+ schedule)
    (h : (after sys.exec s₀ past).request r = some (c, process)) :
    ∃ process', (after sys.exec s₀ schedule).request r = some (c, process') := by
  obtain ⟨later, rfl⟩ := hs
  induction later with
  | nil => exact ⟨process, h⟩
  | cons i later ih =>
    obtain ⟨process', hr⟩ := ih
    rw [List.cons_append]
    have hnext : sys.exec (after sys.exec s₀ (later ++ past)) i =
      .ok (after sys.exec s₀ (i :: (later ++ past))) := after_exec sys (later ++ past) i
    cases exec_happens hnext with
    | called r' e c' event free performs shared request =>
      have hne : r ≠ r' := by
        rintro rfl
        cases hr.symm.trans free
      rw [request, Function.update_of_ne hne]
      exact ⟨process', hr⟩
    | resumed r' e c' o k performs awaits shared request =>
      rw [request, Function.update_apply]
      split
      next hsame =>
        subst hsame
        cases hr.symm.trans awaits
        exact ⟨_, rfl⟩
      next => exact ⟨process', hr⟩
    | idle performs same =>
      rw [same]
      exact ⟨process', hr⟩

/-! ## One call at a time -/

/-- A call that is served alone, in its environment. -/
def serve (sys : System I E X A S C) (s : S) (i : E × C) : Outcome S :=
  .ok ((sys.start i.2).run sys.handle i.1 s).2

/-- What the call answers. -/
def answer (sys : System I E X A S C) (s : S) (i : E × C) : Except X A :=
  ((sys.start i.2).run sys.handle i.1 s).1

end System

end Async
