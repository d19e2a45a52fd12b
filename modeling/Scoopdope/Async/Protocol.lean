import Scoopdope.Async.Pool

/-!
# Protocols

What a process awaits next depends on the answers it has been given, and on nothing else. A
`Protocol` says so by a stage that goes along: which operations are allowed in it, and which
stage an answer leads to. `Process.Follows` holds if a process keeps to the protocol whatever
it is answered, and comes to an end as its postconditions say; it has a rule for each way to
build a process.

Along a schedule every request is in a stage of its own (`Protocol.stages`). If the function of
each call follows the protocol, so does what is left of every request (`follows_reached`), and
each operation that is performed is allowed (`allows_of_performs`), whatever the other requests
do in between.
-/

namespace Async

open Soroban

variable {I : Interface} {E X A B G S C R : Type}

structure Protocol (I : Interface) (G : Type) where
  Allows : G → I.Op → Prop
  next : G → (o : I.Op) → I.Answer o → G

variable (P : Protocol I G)

namespace Process

/-- From the stage on, the process keeps to the protocol. What it returns satisfies `ok` in the
stage where it does, and what it throws `bad`. -/
def Follows (ok : G → A → Prop) (bad : G → X → Prop) : Process I E X A → G → Prop
  | ret a, g => ok g a
  | fail x, g => bad g x
  | ask k, g => ∀ e, (k e).Follows ok bad g
  | await o k, g => P.Allows g o ∧ ∀ r, (k r).Follows ok bad (P.next g o r)

variable {P} {ok : G → A → Prop} {bad : G → X → Prop} {g : G}

theorem Follows.mono {ok' : G → A → Prop} {bad' : G → X → Prop} {p : Process I E X A}
    (hp : p.Follows P ok bad g) (hok : ∀ g a, ok g a → ok' g a)
    (hbad : ∀ g x, bad g x → bad' g x) : p.Follows P ok' bad' g := by
  induction p generalizing g with
  | ret a => exact hok g a hp
  | fail x => exact hbad g x hp
  | ask k ih => exact fun e => ih e (hp e)
  | await o k ih => exact ⟨hp.1, fun r => ih r (hp.2 r)⟩

theorem follows_bind (ok : G → A → Prop) {ok' : G → B → Prop} {p : Process I E X A}
    {f : A → Process I E X B} (hp : p.Follows P ok bad g)
    (hf : ∀ g a, ok g a → (f a).Follows P ok' bad g) : (p >>= f).Follows P ok' bad g := by
  induction p generalizing g with
  | ret a => exact hf g a hp
  | fail x => exact hp
  | ask k ih => exact fun e => ih e (hp e)
  | await o k ih => exact ⟨hp.1, fun r => ih r (hp.2 r)⟩

theorem follows_tryCatch (bad : G → X → Prop) {bad' : G → X → Prop} {p : Process I E X A}
    {h : X → Process I E X A} (hp : p.Follows P ok bad g)
    (hh : ∀ g x, bad g x → (h x).Follows P ok bad' g) : (p.tryCatch h).Follows P ok bad' g := by
  induction p generalizing g with
  | ret a => exact hp
  | fail x => exact hh g x hp
  | ask k ih => exact fun e => ih e (hp e)
  | await o k ih => exact ⟨hp.1, fun r => ih r (hp.2 r)⟩

/-- A process with operations that are allowed in a stage and do not lead out of it. -/
theorem follows_of_only {φ : I.Op → Prop} {p : Process I E X A}
    (hφ : ∀ o, φ o → P.Allows g o ∧ ∀ r, P.next g o r = g) (hp : p.Only φ) :
    p.Follows P (fun g' _ => g' = g) (fun g' _ => g' = g) g := by
  induction p with
  | ret a => rfl
  | fail x => rfl
  | ask k ih => exact fun e => ih e (hp e)
  | await o k ih =>
    refine ⟨(hφ o hp.1).1, fun r => ?_⟩
    rw [(hφ o hp.1).2 r]
    exact ih r (hp.2 r)

theorem follows_settle {p : Process I E X A} (e : E) (hp : p.Follows P ok bad g) :
    (p.settle e).Follows P ok bad g := by
  induction p with
  | ret a => exact hp
  | fail x => exact hp
  | ask k ih => exact ih e (hp e)
  | await o k ih => exact hp

end Process

/-! ## Along a schedule -/

namespace Protocol

variable [DecidableEq R] (sys : System I E X A S C) (g₀ : G) (s : S)

/-- What an event does to the stages: a new request begins in the stage `g₀`, and the request
that moves goes on to the next one. -/
def note (pool : Pool I E X A S C R) (i : Event E C R) (stages : R → G) : R → G :=
  match pool.performs i with
  | some (r, e, _, o) =>
    Function.update stages r (P.next (stages r) o (sys.handle e pool.shared o).1)
  | none =>
    match i with
    | .call r _ _ => if pool.request r = none then Function.update stages r g₀ else stages
    | .resume _ _ => stages

/-- The stage of every request after a schedule. -/
def stages : List (Event E C R) → R → G :=
  traced sys.exec (Pool.idle s) (fun stages pool i => P.note sys g₀ pool i stages) fun _ => g₀

variable {P sys g₀ s} {pool : Pool I E X A S C R} {i : Event E C R} {stages : R → G}

theorem stages_cons (past : List (Event E C R)) (i : Event E C R) :
    P.stages sys g₀ s (i :: past) =
      P.note sys g₀ (after sys.exec (Pool.idle s) past) i (P.stages sys g₀ s past) := rfl

theorem note_performs {r : R} {e : E} {c : C} {o : I.Op}
    (h : pool.performs i = some (r, e, c, o)) :
    P.note sys g₀ pool i stages =
      Function.update stages r (P.next (stages r) o (sys.handle e pool.shared o).1) := by
  unfold note
  rw [h]

theorem note_call {r : R} {e : E} {c : C} (hcall : i = .call r e c)
    (hfree : pool.request r = none) : P.note sys g₀ pool i stages r = g₀ := by
  subst hcall
  simp [note, Pool.performs, hfree]

variable (P sys g₀ stages) in
/-- Where no request moves, stages stay as they are, but for that of a new request. -/
theorem note_of_none (h : pool.performs i = none) (r : R) :
    P.note sys g₀ pool i stages r = g₀ ∨ P.note sys g₀ pool i stages r = stages r := by
  unfold note
  rw [h]
  cases i with
  | resume r' e => exact .inr rfl
  | call r' e c =>
    dsimp only
    split
    · rw [Function.update_apply]
      split
      · exact .inl rfl
      · exact .inr rfl
    · exact .inr rfl

/-- Before it is taken in, a request is in the first stage. -/
theorem stages_of_free {schedule : List (Event E C R)} {r : R}
    (h : (after sys.exec (Pool.idle s) schedule).request r = none) :
    P.stages sys g₀ s schedule r = g₀ := by
  induction schedule with
  | nil => rfl
  | cons i past ih =>
    have hpast : (after sys.exec (Pool.idle s) past).request r = none := by
      cases System.exec_happens (System.after_exec sys past i) with
      | called r' e c event free performs shared request =>
        rw [request, Function.update_apply] at h
        split at h
        · cases h
        · exact h
      | resumed r' e c o k performs awaits shared request =>
        rw [request, Function.update_apply] at h
        split at h
        · cases h
        · exact h
      | idle performs same =>
        rw [same] at h
        exact h
    rw [stages_cons]
    cases hperforms : (after sys.exec (Pool.idle s) past).performs i with
    | none =>
      rcases note_of_none P sys g₀ (P.stages sys g₀ s past) hperforms r with hnew | hold
      · exact hnew
      · exact hold.trans (ih hpast)
    | some moved =>
      obtain ⟨r', e, c, o⟩ := moved
      rw [note_performs hperforms, Function.update_apply]
      split
      · next hsame =>
        subst hsame
        obtain ⟨k, hawaits⟩ := System.awaits_of_performs hperforms
        rw [hpast] at hawaits
        cases hawaits
      · exact ih hpast

/-- Where no request moves, all stay in their stages. -/
theorem stages_of_none {past : List (Event E C R)} {i : Event E C R}
    (h : (after sys.exec (Pool.idle s) past).performs i = none) :
    P.stages sys g₀ s (i :: past) = P.stages sys g₀ s past := by
  rw [stages_cons]
  unfold note
  rw [h]
  cases i with
  | resume r e => rfl
  | call r e c =>
    dsimp only
    split
    · next hfree =>
      -- The new request is put into the first stage, where it was before.
      have hstage : P.stages sys g₀ s past r = g₀ := stages_of_free hfree
      exact Function.update_eq_iff.mpr ⟨hstage.symm, fun _ _ => rfl⟩
    · rfl

/-- A request that does not move stays in its stage. -/
theorem note_other {r : R} {c : C} {process : Process I E X A}
    (hother : ∀ e c o, pool.performs i ≠ some (r, e, c, o))
    (hr : pool.request r = some (c, process)) : P.note sys g₀ pool i stages r = stages r := by
  have hne {r' : R} {g : G} (hsame : r' ≠ r) : Function.update stages r' g r = stages r :=
    Function.update_of_ne hsame.symm _ _
  cases hperforms : pool.performs i with
  | some moved =>
    obtain ⟨r', e, c', o⟩ := moved
    rw [note_performs hperforms]
    refine hne fun hsame => ?_
    subst hsame
    exact hother e c' o hperforms
  | none =>
    unfold note
    rw [hperforms]
    cases i with
    | resume r' e => rfl
    | call r' e c' =>
      dsimp only
      split
      · next hfree =>
        refine hne fun hsame => ?_
        subst hsame
        rw [hr] at hfree
        cases hfree
      · rfl

/-- If the calls of a schedule follow the protocol, so does what is left of the requests. -/
theorem follows_of_calls {ok : G → A → Prop} {bad : G → X → Prop} {schedule : List (Event E C R)}
    (hstart : ∀ r e c, Event.call r e c ∈ schedule → (sys.start c).Follows P ok bad g₀) :
    ∀ r c process, (after sys.exec (Pool.idle s) schedule).request r = some (c, process) →
      process.Follows P ok bad (P.stages sys g₀ s schedule r) := by
  induction schedule with
  | nil => exact nofun
  | cons i past ih =>
    have hpast := ih fun r e c hmem => hstart r e c (List.mem_cons_of_mem i hmem)
    refine System.requests_step hpast ?_ ?_ ?_ (System.after_exec sys past i)
    · intro r c process hother hr hfollows
      rw [stages_cons, note_other hother hr]
      exact hfollows
    · intro r e c hcall hfree
      rw [stages_cons, note_call hcall hfree]
      exact Process.follows_settle e (hstart r e c (hcall ▸ List.mem_cons_self))
    · intro r e c o k hperforms hr hfollows
      rw [stages_cons, note_performs hperforms, Function.update_self]
      exact Process.follows_settle e (hfollows.2 _)

/-- If every call follows the protocol, so does what is left of every request. -/
theorem follows_reached {ok : G → A → Prop} {bad : G → X → Prop}
    (hstart : ∀ c, (sys.start c).Follows P ok bad g₀) (schedule : List (Event E C R)) :
    ∀ r c process, (after sys.exec (Pool.idle s) schedule).request r = some (c, process) →
      process.Follows P ok bad (P.stages sys g₀ s schedule r) :=
  follows_of_calls fun _ _ c _ => hstart c

/-- Every operation that is performed is allowed. -/
theorem allows_of_performs {ok : G → A → Prop} {bad : G → X → Prop}
    (hstart : ∀ c, (sys.start c).Follows P ok bad g₀) {schedule : List (Event E C R)} {r : R}
    {e : E} {c : C} {o : I.Op}
    (h : (after sys.exec (Pool.idle s) schedule).performs i = some (r, e, c, o)) :
    P.Allows (P.stages sys g₀ s schedule r) o := by
  obtain ⟨k, hr⟩ := System.awaits_of_performs h
  exact (follows_reached hstart schedule r c _ hr).1

/-- A request that is in some stage has come there at an event. -/
theorem occurs_entry {Q : G → Prop} (hstart : ¬ Q g₀) {schedule : List (Event E C R)} {r : R}
    (h : Q (P.stages sys g₀ s schedule r)) :
    Occurs (fun past i => ∃ e c o,
      (after sys.exec (Pool.idle s) past).performs i = some (r, e, c, o) ∧
      ¬ Q (P.stages sys g₀ s past r) ∧
      Q (P.next (P.stages sys g₀ s past r) o
        (sys.handle e (after sys.exec (Pool.idle s) past).shared o).1)) schedule := by
  induction schedule with
  | nil => exact absurd h hstart
  | cons i past ih =>
    by_cases hpast : Q (P.stages sys g₀ s past r)
    · exact (ih hpast).cons i
    · cases hperforms : (after sys.exec (Pool.idle s) past).performs i with
      | none =>
        rw [stages_of_none hperforms] at h
        exact absurd h hpast
      | some moved =>
        obtain ⟨r', e, c, o⟩ := moved
        rw [stages_cons, note_performs hperforms, Function.update_apply] at h
        split at h
        next hr =>
          subst hr
          exact .head ⟨e, c, o, hperforms, hpast, h⟩
        next => exact absurd h hpast

end Protocol

end Async
