import Mathlib.Tactic.Common

/-!
# Outcomes of contract code

A call of a contract either returns or traps. A trap aborts the whole call and
rolls back everything it wrote, so a call that traps has no successor storage.
`Outcome` is that result type, and this module has the statements contract
code is made of (`assert`, `expect`, `unwrap`) with one inversion lemma each:
from a returned value they give back the condition that was checked.
-/

namespace Soroban

/-- The ways a call can trap. -/
inductive Trap
  /-- A failed `assert!`, `expect` or `panic!`, with its message. -/
  | panic (msg : String)
  /-- `unwrap` of an absent value. -/
  | unwrapNone
  /-- Integer overflow in `+`, `-`, `*` or `/` (built with overflow checks). -/
  | overflow
  /-- Division by zero in `/`. -/
  | divisionByZero
  /-- `require_auth` of an address that did not authorise the call. -/
  | unauthorized
  /-- A contract called by this one trapped. -/
  | callee
deriving DecidableEq, Repr

/-- What a call comes to: a value, or a trap. -/
abbrev Outcome (α : Type) := Except Trap α

/-- `assert!(p, msg)`. -/
def assert (p : Prop) [Decidable p] (msg : String) : Outcome Unit :=
  if p then .ok () else .error (.panic msg)

/-- `o.expect(msg)`. -/
def expect {α : Type} (o : Option α) (msg : String) : Outcome α :=
  match o with
  | some a => .ok a
  | none => .error (.panic msg)

/-- `o.unwrap()`. -/
def unwrap {α : Type} (o : Option α) : Outcome α :=
  match o with
  | some a => .ok a
  | none => .error .unwrapNone

section Lemmas

variable {α β : Type} {msg : String}

/-- A sequence returns exactly when its first part returns a value on which
the rest returns. -/
theorem bind_eq_ok {x : Outcome α} {f : α → Outcome β} {b : β} :
    (x >>= f) = .ok b ↔ ∃ a, x = .ok a ∧ f a = .ok b := by
  cases x with
  | error t =>
    constructor
    · intro h
      exact nomatch h
    · rintro ⟨a, h, _⟩
      exact nomatch h
  | ok a =>
    constructor
    · intro h
      exact ⟨a, rfl, h⟩
    · rintro ⟨a', h, hf⟩
      cases h
      exact hf

/-- A sequence traps exactly when its first part does, or the rest does on the
value returned. -/
theorem bind_eq_error {x : Outcome α} {f : α → Outcome β} {t : Trap} :
    (x >>= f) = .error t ↔ x = .error t ∨ ∃ a, x = .ok a ∧ f a = .error t := by
  cases x with
  | error t' =>
    constructor
    · intro h
      cases h
      exact .inl rfl
    · rintro (h | ⟨a, h, _⟩)
      · cases h
        rfl
      · exact nomatch h
  | ok a =>
    constructor
    · intro h
      exact .inr ⟨a, rfl, h⟩
    · rintro (h | ⟨a', h, hf⟩)
      · exact nomatch h
      · cases h
        exact hf

/-- A sequence does not trap with `t` when neither of its parts does. -/
theorem bind_ne_error {x : Outcome α} {f : α → Outcome β} {t : Trap} (hx : x ≠ .error t)
    (hf : ∀ a, x = .ok a → f a ≠ .error t) : (x >>= f) ≠ .error t := by
  intro h
  rcases bind_eq_error.mp h with he | ⟨a, ha, he⟩
  · exact hx he
  · exact hf a ha he

@[simp] theorem ok_bind (a : α) (f : α → Outcome β) : ((.ok a : Outcome α) >>= f) = f a := rfl

@[simp] theorem pure_eq_ok {a b : α} : (pure a : Outcome α) = .ok b ↔ a = b := by
  constructor
  · intro h
    exact Except.ok.inj h
  · rintro rfl
    rfl

@[simp] theorem pure_ne_error {a : α} {t : Trap} : (pure a : Outcome α) ≠ .error t := nofun

@[simp] theorem assert_eq_ok {p : Prop} [Decidable p] {u : Unit} : assert p msg = .ok u ↔ p := by
  unfold assert
  split
  · next hp => exact ⟨fun _ => hp, fun _ => rfl⟩
  · next hp => exact ⟨nofun, fun h => absurd h hp⟩

@[simp] theorem assert_eq_error {p : Prop} [Decidable p] {t : Trap} :
    assert p msg = .error t ↔ ¬ p ∧ t = .panic msg := by
  unfold assert
  split
  · next hp => exact ⟨nofun, fun h => absurd hp h.1⟩
  · next hp =>
    constructor
    · intro h
      cases h
      exact ⟨hp, rfl⟩
    · rintro ⟨_, rfl⟩
      rfl

theorem assert_ne_divisionByZero {p : Prop} [Decidable p] :
    assert p msg ≠ .error .divisionByZero := by
  intro h
  obtain ⟨_, ht⟩ := assert_eq_error.mp h
  cases ht

@[simp] theorem expect_eq_ok {o : Option α} {a : α} : expect o msg = .ok a ↔ o = some a := by
  cases o with
  | none => exact ⟨nofun, nofun⟩
  | some b => simp [expect]

theorem expect_eq_error {o : Option α} {t : Trap} :
    expect o msg = .error t ↔ o = none ∧ t = .panic msg := by
  cases o with
  | none => simp [expect, eq_comm]
  | some b => simp [expect]

@[simp] theorem unwrap_eq_ok {o : Option α} {a : α} : unwrap o = .ok a ↔ o = some a := by
  cases o with
  | none => exact ⟨nofun, nofun⟩
  | some b => simp [unwrap]

@[simp] theorem unwrap_eq_error {o : Option α} {t : Trap} :
    unwrap o = .error t ↔ o = none ∧ t = .unwrapNone := by
  cases o with
  | none => simp [unwrap, eq_comm]
  | some b => simp [unwrap]

theorem unwrap_ne_divisionByZero {o : Option α} : unwrap o ≠ .error .divisionByZero := by
  intro h
  obtain ⟨_, ht⟩ := unwrap_eq_error.mp h
  cases ht

/-- A call that traps at most with `t`. -/
def TrapsOnly (t : Trap) (x : Outcome α) : Prop := ∀ t', x = .error t' → t' = t

theorem TrapsOnly.of_ok {x : Outcome α} {t : Trap} {a : α} (h : x = .ok a) : TrapsOnly t x := by
  intro t' he
  rw [h] at he
  cases he

theorem TrapsOnly.bind {x : Outcome α} {f : α → Outcome β} {t : Trap} (hx : TrapsOnly t x)
    (hf : ∀ a, x = .ok a → TrapsOnly t (f a)) : TrapsOnly t (x >>= f) := by
  intro t' he
  rcases bind_eq_error.mp he with he | ⟨a, ha, he⟩
  · exact hx t' he
  · exact hf a ha t' he

theorem isOk_iff {x : Outcome α} : x.isOk = true ↔ ∃ a, x = .ok a := by
  cases x with
  | error t => exact ⟨nofun, nofun⟩
  | ok a => exact ⟨fun _ => ⟨a, rfl⟩, fun _ => rfl⟩

/-- The storage an entry point leaves that also returns a value. -/
theorem map_snd_eq_ok {x : Outcome (α × β)} {b : β} :
    x.map Prod.snd = .ok b ↔ ∃ a, x = .ok (a, b) := by
  cases x with
  | error t => exact ⟨nofun, nofun⟩
  | ok p =>
    obtain ⟨a, b'⟩ := p
    constructor
    · intro h
      cases h
      exact ⟨a, rfl⟩
    · rintro ⟨_, h⟩
      cases h
      rfl

theorem map_snd_ne_error {x : Outcome (α × β)} {t : Trap} (hx : x ≠ .error t) :
    x.map Prod.snd ≠ .error t := by
  cases x with
  | error t' =>
    intro h
    cases h
    exact hx rfl
  | ok p => exact nofun

end Lemmas

end Soroban
