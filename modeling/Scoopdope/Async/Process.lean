/-!
# Asynchronous functions

A server runs an asynchronous function without interruption from one `await` to the next.
What it awaits are operations on a state that all functions share, each of them atomic.
`Process` is such a function as a tree: it returns, throws, reads the environment of the
code it runs in (the clock, random numbers), or awaits an operation and goes on with its
answer.

A process has two meanings. `Process.run` lets nobody else run until it is done; a pool
(`Async.Pool`) interleaves it with others at every `await`. `run_bind` says how the first
goes along with sequencing.
-/

namespace Async

/-- The operations a function may await, with the types of their answers. -/
structure Interface where
  Op : Type
  Answer : Op → Type

/-- A function over the operations of `I` that reads environments `E`, throws `X` and
returns `A`. -/
inductive Process (I : Interface) (E X A : Type) : Type
  | ret (a : A)
  | fail (x : X)
  | ask (k : E → Process I E X A)
  | await (o : I.Op) (k : I.Answer o → Process I E X A)

namespace Process

variable {I J : Interface} {E X A B S : Type}

/-- Sequencing. An exception skips what follows. -/
def bind : Process I E X A → (A → Process I E X B) → Process I E X B
  | ret a, f => f a
  | fail x, _ => fail x
  | ask k, f => ask fun e => (k e).bind f
  | await o k, f => await o fun r => (k r).bind f

instance : Monad (Process I E X) where
  pure := ret
  bind := bind

/-- `try p catch h`. -/
def tryCatch : Process I E X A → (X → Process I E X A) → Process I E X A
  | ret a, _ => ret a
  | fail x, h => h x
  | ask k, h => ask fun e => (k e).tryCatch h
  | await o k, h => await o fun r => (k r).tryCatch h

/-- Code that does not await. -/
def ofExcept : Except X A → Process I E X A
  | .ok a => ret a
  | .error x => fail x

instance : MonadLift (Except X) (Process I E X) where
  monadLift := ofExcept

/-- Await one operation and return its answer. -/
def perform (o : I.Op) : Process I E X (I.Answer o) := await o ret

/-- The environment of the code that runs. -/
def env : Process I E X E := ask ret

/-- The operations of `I` among those of `J`. -/
structure Inclusion (I J : Interface) where
  op : I.Op → J.Op
  answer : ∀ o, J.Answer (op o) → I.Answer o

/-- The same function over more operations. -/
def lift (i : Inclusion I J) : Process I E X A → Process J E X A
  | ret a => ret a
  | fail x => fail x
  | ask k => ask fun e => (k e).lift i
  | await o k => await (i.op o) fun r => (k (i.answer o r)).lift i

/-- The code up to the next `await`, in its environment. -/
def settle (e : E) : Process I E X A → Process I E X A
  | ask k => (k e).settle e
  | p => p

section Laws

variable (a : A) (x : X) (f : A → Process I E X B)

@[simp] theorem pure_eq : (pure a : Process I E X A) = ret a := rfl
@[simp] theorem ret_bind : (ret a : Process I E X A) >>= f = f a := rfl
@[simp] theorem fail_bind : (fail x : Process I E X A) >>= f = fail x := rfl

@[simp] theorem lift_except (r : Except X A) : (liftM r : Process I E X A) = ofExcept r := rfl

@[simp] theorem ask_bind (k : E → Process I E X A) :
    ask k >>= f = ask fun e => k e >>= f := rfl

@[simp] theorem await_bind (o : I.Op) (k : I.Answer o → Process I E X A) :
    await o k >>= f = await o fun r => k r >>= f := rfl

@[simp] theorem perform_bind (o : I.Op) (g : I.Answer o → Process I E X B) :
    perform o >>= g = await o g := rfl

@[simp] theorem env_bind (g : E → Process I E X B) : env >>= g = ask g := rfl

@[simp] theorem settle_ask (e : E) (k : E → Process I E X A) :
    (ask k).settle e = (k e).settle e := rfl

theorem bind_ret (p : Process I E X A) : p >>= ret = p := by
  induction p with
  | ret a => rfl
  | fail x => rfl
  | ask k ih => exact congrArg ask (funext ih)
  | await o k ih => exact congrArg (await o) (funext ih)

theorem bind_assoc (p : Process I E X A) {D : Type} (g : B → Process I E X D) :
    p >>= f >>= g = p >>= fun a => f a >>= g := by
  induction p with
  | ret a => rfl
  | fail x => rfl
  | ask k ih => exact congrArg ask (funext ih)
  | await o k ih => exact congrArg (await o) (funext ih)

end Laws

/-! ## What a process may await -/

/-- Every operation that the process may come to await satisfies `φ`. -/
def Only (φ : I.Op → Prop) : Process I E X A → Prop
  | ret _ => True
  | fail _ => True
  | ask k => ∀ e, (k e).Only φ
  | await o k => φ o ∧ ∀ r, (k r).Only φ

/-- Before it returns, the process awaits one operation that satisfies `ψ`; all others
satisfy `φ`. -/
def Once (φ ψ : I.Op → Prop) : Process I E X A → Prop
  | ret _ => False
  | fail _ => True
  | ask k => ∀ e, (k e).Once φ ψ
  | await o k => (ψ o ∧ ∀ r, (k r).Only φ) ∨ (φ o ∧ ∀ r, (k r).Once φ ψ)

section Awaits

variable {φ ψ : I.Op → Prop}

theorem Only.mono {p : Process I E X A} (hp : p.Only φ) (h : ∀ o, φ o → ψ o) : p.Only ψ := by
  induction p with
  | ret a => trivial
  | fail x => trivial
  | ask k ih => exact fun e => ih e (hp e)
  | await o k ih => exact ⟨h o hp.1, fun r => ih r (hp.2 r)⟩

theorem only_bind {p : Process I E X A} {f : A → Process I E X B} (hp : p.Only φ)
    (hf : ∀ a, (f a).Only φ) : (p >>= f).Only φ := by
  induction p with
  | ret a => exact hf a
  | fail x => trivial
  | ask k ih => exact fun e => ih e (hp e)
  | await o k ih => exact ⟨hp.1, fun r => ih r (hp.2 r)⟩

theorem only_tryCatch {p : Process I E X A} {h : X → Process I E X A} (hp : p.Only φ)
    (hh : ∀ x, (h x).Only φ) : (p.tryCatch h).Only φ := by
  induction p with
  | ret a => trivial
  | fail x => exact hh x
  | ask k ih => exact fun e => ih e (hp e)
  | await o k ih => exact ⟨hp.1, fun r => ih r (hp.2 r)⟩

theorem only_ofExcept (r : Except X A) : (ofExcept r : Process I E X A).Only φ := by
  cases r <;> trivial

theorem once_bind {p : Process I E X A} {f : A → Process I E X B} (hp : p.Only φ)
    (hf : ∀ a, (f a).Once φ ψ) : (p >>= f).Once φ ψ := by
  induction p with
  | ret a => exact hf a
  | fail x => trivial
  | ask k ih => exact fun e => ih e (hp e)
  | await o k ih => exact .inr ⟨hp.1, fun r => ih r (hp.2 r)⟩

theorem once_bind_only {p : Process I E X A} {f : A → Process I E X B} (hp : p.Once φ ψ)
    (hf : ∀ a, (f a).Only φ) : (p >>= f).Once φ ψ := by
  induction p with
  | ret a => exact hp.elim
  | fail x => trivial
  | ask k ih => exact fun e => ih e (hp e)
  | await o k ih =>
    rcases hp with ⟨ho, hp⟩ | ⟨ho, hp⟩
    · exact .inl ⟨ho, fun r => only_bind (hp r) hf⟩
    · exact .inr ⟨ho, fun r => ih r (hp r)⟩

theorem only_settle {p : Process I E X A} (e : E) (h : p.Only φ) : (p.settle e).Only φ := by
  induction p with
  | ret a => trivial
  | fail x => trivial
  | ask k ih => exact ih e (h e)
  | await o k ih => exact h

theorem once_settle {p : Process I E X A} (e : E) (h : p.Once φ ψ) : (p.settle e).Once φ ψ := by
  induction p with
  | ret a => exact h
  | fail x => trivial
  | ask k ih => exact ih e (h e)
  | await o k ih => exact h

theorem only_lift {i : Inclusion I J} {φ : J.Op → Prop} (hφ : ∀ o, φ (i.op o))
    (p : Process I E X A) : (p.lift i).Only φ := by
  induction p with
  | ret a => trivial
  | fail x => trivial
  | ask k ih => exact ih
  | await o k ih => exact ⟨hφ o, fun r => ih _⟩

end Awaits

/-! ## Running alone -/

/-- The state and the result when nobody else runs. An exception undoes nothing. -/
def run (handle : E → S → (o : I.Op) → I.Answer o × S) (e : E) (s : S) :
    Process I E X A → Except X A × S
  | ret a => (.ok a, s)
  | fail x => (.error x, s)
  | ask k => run handle e s (k e)
  | await o k => run handle e (handle e s o).2 (k (handle e s o).1)

section Run

variable {handle : E → S → (o : I.Op) → I.Answer o × S} {e : E} {s : S}

@[simp] theorem run_ret (a : A) : run handle e s (ret a : Process I E X A) = (.ok a, s) := rfl

@[simp] theorem run_fail (x : X) :
    run handle e s (fail x : Process I E X A) = (.error x, s) := rfl

@[simp] theorem run_ask (k : E → Process I E X A) :
    run handle e s (ask k) = run handle e s (k e) := rfl

@[simp] theorem run_await (o : I.Op) (k : I.Answer o → Process I E X A) :
    run handle e s (await o k) = run handle e (handle e s o).2 (k (handle e s o).1) := rfl

@[simp] theorem run_ofExcept (r : Except X A) :
    run handle e s (ofExcept r : Process I E X A) = (r, s) := by
  cases r <;> rfl

/-- The second part runs from the state the first one leaves. -/
theorem run_bind (p : Process I E X A) (f : A → Process I E X B) :
    run handle e s (p >>= f) =
      match run handle e s p with
      | (.ok a, s') => run handle e s' (f a)
      | (.error x, s') => (.error x, s') := by
  induction p generalizing s with
  | ret a => rfl
  | fail x => rfl
  | ask k ih => exact ih e
  | await o k ih => exact ih _

theorem run_bind_of_ok {p : Process I E X A} {a : A} {s' : S} (h : run handle e s p = (.ok a, s'))
    (f : A → Process I E X B) : run handle e s (p >>= f) = run handle e s' (f a) := by
  rw [run_bind, h]

theorem run_bind_of_error {p : Process I E X A} {x : X} {s' : S}
    (h : run handle e s p = (.error x, s')) (f : A → Process I E X B) :
    run handle e s (p >>= f) = (.error x, s') := by
  rw [run_bind, h]

theorem run_bind_ok {p : Process I E X A} {f : A → Process I E X B} {b : B} {s' : S} :
    run handle e s (p >>= f) = (.ok b, s') ↔
      ∃ a s₁, run handle e s p = (.ok a, s₁) ∧ run handle e s₁ (f a) = (.ok b, s') := by
  rw [run_bind]
  rcases run handle e s p with ⟨x | a, s₁⟩
  · exact ⟨nofun, fun ⟨_, _, h, _⟩ => nomatch h⟩
  · constructor
    · exact fun h => ⟨a, s₁, rfl, h⟩
    · rintro ⟨a', s₁', h, hf⟩
      cases h
      exact hf

theorem run_tryCatch (p : Process I E X A) (h : X → Process I E X A) :
    run handle e s (p.tryCatch h) =
      match run handle e s p with
      | (.ok a, s') => (.ok a, s')
      | (.error x, s') => run handle e s' (h x) := by
  induction p generalizing s with
  | ret a => rfl
  | fail x => rfl
  | ask k ih => exact ih e
  | await o k ih => exact ih _

theorem run_tryCatch_of_ok {p : Process I E X A} {a : A} {s' : S}
    (hp : run handle e s p = (.ok a, s')) (h : X → Process I E X A) :
    run handle e s (p.tryCatch h) = (.ok a, s') := by
  rw [run_tryCatch, hp]

theorem run_tryCatch_of_error {p : Process I E X A} {x : X} {s' : S}
    (hp : run handle e s p = (.error x, s')) (h : X → Process I E X A) :
    run handle e s (p.tryCatch h) = run handle e s' (h x) := by
  rw [run_tryCatch, hp]

/-- What is done with the result alone. -/
theorem run_map (p : Process I E X A) (g : A → B) :
    run handle e s (p >>= fun a => ret (g a)) =
      ((run handle e s p).1.map g, (run handle e s p).2) := by
  induction p generalizing s with
  | ret a => rfl
  | fail x => rfl
  | ask k ih => exact ih e
  | await o k ih => exact ih _

/-- What no operation of a function changes, the function leaves as it is. -/
theorem run_preserves {V : Type} {φ : I.Op → Prop} (view : S → V)
    (hview : ∀ s o, φ o → view (handle e s o).2 = view s) {p : Process I E X A} (hp : p.Only φ) :
    view (run handle e s p).2 = view s := by
  induction p generalizing s with
  | ret a => rfl
  | fail x => rfl
  | ask k ih => exact ih e (hp e)
  | await o k ih => exact (ih _ (hp.2 _)).trans (hview s o hp.1)

/-- A function over some of the operations runs as it does by itself, on its part of the
state. `view` reads that part and `put` writes it back. -/
theorem run_lift {T : Type} {i : Inclusion I J} {handle' : E → T → (o : J.Op) → J.Answer o × T}
    (view : T → S) (put : T → S → T) (hput : ∀ t s, view (put t s) = s)
    (hself : ∀ t, put t (view t) = t) (hputput : ∀ t s s', put (put t s) s' = put t s')
    (hhandle : ∀ e t o, i.answer o (handle' e t (i.op o)).1 = (handle e (view t) o).1 ∧
      (handle' e t (i.op o)).2 = put t (handle e (view t) o).2) (t : T) (p : Process I E X A) :
    run handle' e t (p.lift i) =
      ((run handle e (view t) p).1, put t (run handle e (view t) p).2) := by
  induction p generalizing t with
  | ret a => rw [lift, run_ret, run_ret, hself]
  | fail x => rw [lift, run_fail, run_fail, hself]
  | ask k ih => exact ih e t
  | await o k ih =>
    rw [lift, run_await, run_await, (hhandle e t o).1, (hhandle e t o).2, ih, hput, hputput]

end Run

end Process

end Async
