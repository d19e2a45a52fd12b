import Scoopdope.Async.Pool

/-!
# Turns

In a program with one thread some operations are synchronous: code that reads or writes memory runs
on. Only the others are waited for, and while a request waits, the others take their turns.

`Process.turn` runs a process on to the next operation that it waits for. In `System.nextTurn` an
event performs the operation that a request waits for and then runs such a turn. `turns_of_exec`
says what an event does; every proof about a schedule is a case analysis of it.
-/

namespace Async

open Soroban

variable {I : Interface} {E X A B S C R : Type}

namespace Process

/-- What is left of the process at the next operation that it waits for, and the state then. -/
def turn (sync : I.Op → Bool) (handle : E → S → (o : I.Op) → I.Answer o × S) (e : E) (s : S) :
    Process I E X A → Process I E X A × S
  | ret a => (ret a, s)
  | fail x => (fail x, s)
  | ask k => turn sync handle e s (k e)
  | await o k =>
    if sync o then turn sync handle e (handle e s o).2 (k (handle e s o).1) else (await o k, s)

variable {sync : I.Op → Bool} {handle : E → S → (o : I.Op) → I.Answer o × S} {e : E} {s : S}

@[simp] theorem turn_ret (a : A) :
    turn sync handle e s (ret a : Process I E X A) = (ret a, s) := rfl

@[simp] theorem turn_fail (x : X) :
    turn sync handle e s (fail x : Process I E X A) = (fail x, s) := rfl

@[simp] theorem turn_ask (k : E → Process I E X A) :
    turn sync handle e s (ask k) = turn sync handle e s (k e) := rfl

end Process

namespace System

variable [DecidableEq R] (sync : I.Op → Bool) (sys : System I E X A S C)

/-- One event: the turn of a new request, or of one whose operation is performed. -/
def nextTurn (p : Pool I E X A S C R) : Event E C R → Pool I E X A S C R
  | .call r e c =>
    match p.request r with
    | none =>
      let t := (sys.start c).turn sync sys.handle e p.shared
      { shared := t.2, request := Function.update p.request r (some (c, t.1)) }
    | some _ => p
  | .resume r e =>
    match p.request r with
    | some (c, .await o k) =>
      let answered := sys.handle e p.shared o
      let t := (k answered.1).turn sync sys.handle e answered.2
      { shared := t.2, request := Function.update p.request r (some (c, t.1)) }
    | _ => p

def execTurn (p : Pool I E X A S C R) (i : Event E C R) : Outcome (Pool I E X A S C R) :=
  .ok (sys.nextTurn sync p i)

/-- What an event does. -/
inductive Turns (p : Pool I E X A S C R) (i : Event E C R) (p' : Pool I E X A S C R) : Prop
  | called (r : R) (e : E) (c : C) (process : Process I E X A) (event : i = .call r e c)
      (free : p.request r = none)
      (turn : (sys.start c).turn sync sys.handle e p.shared = (process, p'.shared))
      (request : p'.request = Function.update p.request r (some (c, process)))
  | resumed (r : R) (e : E) (c : C) (o : I.Op) (k : I.Answer o → Process I E X A)
      (process : Process I E X A) (event : i = .resume r e)
      (awaits : p.request r = some (c, .await o k))
      (turn : (k (sys.handle e p.shared o).1).turn sync sys.handle e (sys.handle e p.shared o).2 =
        (process, p'.shared))
      (request : p'.request = Function.update p.request r (some (c, process)))
  | idle (same : p' = p)

variable {sync sys} {p p' : Pool I E X A S C R} {i : Event E C R}

theorem turns_of_exec (h : sys.execTurn sync p i = .ok p') : Turns sync sys p i p' := by
  cases h
  cases i with
  | call r e c =>
    cases hr : p.request r with
    | none => exact .called r e c _ rfl hr (by rw [nextTurn, hr]) (by rw [nextTurn, hr])
    | some request => exact .idle (by rw [nextTurn, hr])
  | resume r e =>
    cases hr : p.request r with
    | none => exact .idle (by rw [nextTurn, hr])
    | some request =>
      obtain ⟨c, process⟩ := request
      cases process with
      | ret a => exact .idle (by rw [nextTurn, hr])
      | fail x => exact .idle (by rw [nextTurn, hr])
      | ask k => exact .idle (by rw [nextTurn, hr])
      | await o k =>
        exact .resumed r e c o k _ rfl hr (by rw [nextTurn, hr]) (by rw [nextTurn, hr])

variable (sync sys) in
theorem nextTurn_call {r : R} (h : p.request r = none) (e : E) (c : C) :
    sys.nextTurn sync p (.call r e c) =
      let t := (sys.start c).turn sync sys.handle e p.shared
      ⟨t.2, Function.update p.request r (some (c, t.1))⟩ := by
  rw [nextTurn, h]

variable (sync sys) in
theorem nextTurn_resume {r : R} {c : C} {o : I.Op} {k : I.Answer o → Process I E X A}
    (h : p.request r = some (c, .await o k)) (e : E) :
    sys.nextTurn sync p (.resume r e) =
      let answered := sys.handle e p.shared o
      let t := (k answered.1).turn sync sys.handle e answered.2
      ⟨t.2, Function.update p.request r (some (c, t.1))⟩ := by
  rw [nextTurn, h]

variable (sync sys) in
theorem after_execTurn {s₀ : Pool I E X A S C R} (past : List (Event E C R)) (i : Event E C R) :
    sys.execTurn sync (after (sys.execTurn sync) s₀ past) i =
      .ok (after (sys.execTurn sync) s₀ (i :: past)) := rfl

end System

end Async
