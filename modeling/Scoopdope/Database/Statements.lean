import Scoopdope.Database.Schema

/-!
# Statements that may fail

What a service awaits of the database: single statements, without a transaction. The statements
are served one after another, and each of them may fail, whatever the others do: a statement that
fails throws, and changes nothing. A statement that succeeds is `Schema.query`, with a date and a
primary key of its own.

`run_findOne`, `run_saveNew` and `run_save` say what a method comes to that goes on after a
statement, and `bind_findOne`, `bind_saveNew` and `bind_save` what holds of it whatever fails.
`run_spares`: a method leaves the tables that it does not write.
-/

namespace Database.Statements

open Async

variable {S : Schema} {X : Type}

/-- What the statements meet, by how many were served before. -/
structure Surroundings (S : Schema) (X : Type) where
  now : Nat → Int
  /-- The primary key that the database generates for an insertion. -/
  key : Nat → String
  /-- The exception with which a statement fails. -/
  fails : Nat → Query S → Option X
  /-- The exception of a statement that breaks a constraint. -/
  duplicate : X

def Surroundings.generated (around : Surroundings S X) (n : Nat) : Generated S where
  now := around.now n
  key := fun _ _ => around.key n

/-- The same without failures. -/
def Surroundings.calm (around : Surroundings S X) : Surroundings S X :=
  { around with fails := fun _ _ => none }

/-- A database with the number of statements that it has served. -/
structure Served (S : Schema) where
  tables : S.Tables
  count : Nat

namespace Served

def empty : Served S := ⟨fun _ => .empty, 0⟩

/-- One more statement that changes nothing. -/
def tick (d : Served S) : Served S := { d with count := d.count + 1 }

@[simp] theorem tick_tables (d : Served S) : d.tick.tables = d.tables := rfl

@[simp] theorem tick_count (d : Served S) : d.tick.count = d.count + 1 := rfl

variable [DecidableEq S.Entity]

/-- One more statement, that writes a row. -/
def put (d : Served S) (t : S.Entity) (row : S.Row t) : Served S where
  tables := Function.update d.tables t ((d.tables t).save row)
  count := d.count + 1

@[simp] theorem put_count (d : Served S) (t : S.Entity) (row : S.Row t) :
    (d.put t row).count = d.count + 1 := rfl

@[simp] theorem put_tables_self (d : Served S) (t : S.Entity) (row : S.Row t) :
    (d.put t row).tables t = (d.tables t).save row :=
  Function.update_self t _ d.tables

@[simp] theorem put_tables_ne (d : Served S) {t t' : S.Entity} (h : t' ≠ t) (row : S.Row t) :
    (d.put t row).tables t' = d.tables t' :=
  Function.update_of_ne h _ d.tables

end Served

abbrev statements (S : Schema) (X : Type) : Interface where
  Op := Query S
  Answer := fun q => Except X q.answer

/-- A method of a service. -/
abbrev Method (S : Schema) (X A : Type) : Type :=
  Process (statements S X) (Surroundings S X) X A

section Methods

variable {A : Type}

/-- Await a statement, and throw what it fails with. -/
def statement (q : Query S) : Method S X q.answer := do
  Process.ofExcept (← Process.perform (I := statements S X) q)

def findOne (t : S.Entity) (condition : S.Where t) : Method S X (Option (S.Row t)) :=
  statement (.findOne t condition)

def find (t : S.Entity) (condition : S.Where t) : Method S X (List (S.Row t)) :=
  statement (.find t condition)

/-- The row that was written. -/
def written {t : S.Entity} : Option (S.Row t) → Method S X (S.Row t)
  | some row => .ret row
  | none => .ask fun around => .fail around.duplicate

/-- `repo.save(repo.create(data))`. -/
def saveNew (t : S.Entity) (data : S.Columns t) : Method S X (S.Row t) := do
  written (← statement (.insert t data))

/-- `repo.save(row)`. -/
def save (t : S.Entity) (row : S.Row t) : Method S X (S.Row t) := do
  written (← statement (.save t row))

end Methods

variable [DecidableEq S.Entity]

def handle (around : Surroundings S X) (d : Served S) (q : Query S) :
    Except X q.answer × Served S :=
  match around.fails d.count q with
  | some x => (.error x, d.tick)
  | none =>
    let (answer, tables) := Schema.query (around.generated d.count) d.tables q
    (.ok answer, ⟨tables, d.count + 1⟩)

/-! ## Running alone -/

/-- A method while no other is served. -/
abbrev alone {A : Type} (around : Surroundings S X) (d : Served S) (p : Method S X A) :
    Except X A × Served S :=
  p.run handle around d

section Run

variable {A B : Type} {around : Surroundings S X} {d : Served S} {t : S.Entity}

theorem run_findOne (condition : S.Where t) (f : Option (S.Row t) → Method S X B) :
    alone around d (findOne t condition >>= f) =
      match around.fails d.count (.findOne t condition) with
      | some x => (.error x, d.tick)
      | none => alone around d.tick (f ((d.tables t).findOne (S.holds t condition))) := by
  show Process.run handle around (handle around d (.findOne t condition)).2
    ((Process.ofExcept (handle around d (.findOne t condition)).1 : Method S X _) >>= f) = _
  unfold handle
  cases around.fails d.count (.findOne t condition) <;> rfl

theorem run_find (condition : S.Where t) (f : List (S.Row t) → Method S X B) :
    alone around d (find t condition >>= f) =
      match around.fails d.count (.find t condition) with
      | some x => (.error x, d.tick)
      | none => alone around d.tick (f ((d.tables t).find (S.holds t condition))) := by
  show Process.run handle around (handle around d (.find t condition)).2
    ((Process.ofExcept (handle around d (.find t condition)).1 : Method S X _) >>= f) = _
  unfold handle
  cases around.fails d.count (.find t condition) <;> rfl

theorem tick_update (rows : S.Rows t) (h : rows = d.tables t) :
    (⟨Function.update d.tables t rows, d.count + 1⟩ : Served S) = d.tick := by
  rw [h, Function.update_eq_self]
  rfl

theorem run_saveNew (data : S.Columns t) (f : S.Row t → Method S X B) :
    alone around d (saveNew t data >>= f) =
      match around.fails d.count (.insert t data) with
      | some x => (.error x, d.tick)
      | none =>
        match (Schema.insert (around.generated d.count) (d.tables t) data).1 with
        | some row => alone around (d.put t row) (f row)
        | none => (.error around.duplicate, d.tick) := by
  show Process.run handle around (handle around d (.insert t data)).2
    ((Process.ofExcept (handle around d (.insert t data)).1 >>= written : Method S X _) >>= f) = _
  unfold handle
  cases around.fails d.count (.insert t data) with
  | some x => rfl
  | none =>
    have hrows := @insert_rows S (around.generated d.count) t (d.tables t) data
    dsimp only [Schema.query]
    cases hrow : (Schema.insert (around.generated d.count) (d.tables t) data).1 with
    | some row =>
      rw [hrow] at hrows
      rw [hrows]
      rfl
    | none =>
      rw [hrow] at hrows
      rw [tick_update _ hrows]
      rfl

theorem run_save (row : S.Row t) (f : S.Row t → Method S X B) :
    alone around d (save t row >>= f) =
      match around.fails d.count (.save t row) with
      | some x => (.error x, d.tick)
      | none =>
        match (Schema.save (around.generated d.count) (d.tables t) row).1 with
        | some row => alone around (d.put t row) (f row)
        | none => (.error around.duplicate, d.tick) := by
  show Process.run handle around (handle around d (.save t row)).2
    ((Process.ofExcept (handle around d (.save t row)).1 >>= written : Method S X _) >>= f) = _
  unfold handle
  cases around.fails d.count (.save t row) with
  | some x => rfl
  | none =>
    have hrows := @save_rows S (around.generated d.count) t (d.tables t) row
    dsimp only [Schema.query]
    cases hrow : (Schema.save (around.generated d.count) (d.tables t) row).1 with
    | some saved =>
      rw [hrow] at hrows
      rw [hrows]
      rfl
    | none =>
      rw [hrow] at hrows
      rw [tick_update _ hrows]
      rfl

/-! What a method comes to if its statement succeeds. -/

theorem run_findOne_ok {condition : S.Where t} {found : Option (S.Row t)}
    (hfails : around.fails d.count (.findOne t condition) = none)
    (hfound : (d.tables t).findOne (S.holds t condition) = found)
    (f : Option (S.Row t) → Method S X B) :
    alone around d (findOne t condition >>= f) = alone around d.tick (f found) := by
  rw [run_findOne, hfails, hfound]

theorem run_save_ok {row row' : S.Row t} (hfails : around.fails d.count (.save t row) = none)
    (hsaved : (Schema.save (around.generated d.count) (d.tables t) row).1 = some row')
    (f : S.Row t → Method S X B) :
    alone around d (save t row >>= f) = alone around (d.put t row') (f row') := by
  rw [run_save, hfails, hsaved]

/-! What holds of a method that goes on after a statement. -/

variable {P : Except X B × Served S → Prop}

theorem bind_findOne {condition : S.Where t} {f : Option (S.Row t) → Method S X B}
    (herror : ∀ x, P (.error x, d.tick))
    (hok : P (alone around d.tick (f ((d.tables t).findOne (S.holds t condition))))) :
    P (alone around d (findOne t condition >>= f)) := by
  rw [run_findOne]
  split
  · exact herror _
  · exact hok

theorem bind_saveNew {data : S.Columns t} {f : S.Row t → Method S X B}
    (herror : ∀ x, P (.error x, d.tick))
    (hok : ∀ row, row = Schema.inserted (around.generated d.count) data →
      (d.tables t).get row.id = none → P (alone around (d.put t row) (f row))) :
    P (alone around d (saveNew t data >>= f)) := by
  rw [run_saveNew]
  split
  · exact herror _
  · split
    · next row hrow =>
      obtain ⟨hinserted, hnew, -⟩ := insert_some.mp hrow
      exact hok row hinserted hnew
    · exact herror _

theorem bind_save {row : S.Row t} {f : S.Row t → Method S X B}
    (herror : ∀ x, P (.error x, d.tick))
    (hok : ∀ row', row' = { row with updatedAt := around.now d.count } →
      P (alone around (d.put t row') (f row'))) :
    P (alone around d (save t row >>= f)) := by
  rw [run_save]
  split
  · exact herror _
  · split
    · next row' hrow => exact hok row' (save_some.mp hrow).1
    · exact herror _

theorem alone_save {P : Except X (S.Row t) × Served S → Prop} {row : S.Row t}
    (herror : ∀ x, P (.error x, d.tick))
    (hok : ∀ row', row' = { row with updatedAt := around.now d.count } →
      P (.ok row', d.put t row')) : P (alone around d (save t row)) := by
  rw [← Process.bind_ret (save t row)]
  exact bind_save herror hok

/-! What a method leaves alone. -/

theorem handle_spares {q : Query S} (h : q.writes ≠ some t) :
    (handle around d q).2.tables t = d.tables t := by
  unfold handle
  cases around.fails d.count q with
  | some x => rfl
  | none => exact Schema.query_other h

theorem run_spares {p : Method S X A} (hp : p.Only fun q : Query S => q.writes ≠ some t) :
    (alone around d p).2.tables t = d.tables t :=
  Process.run_preserves (fun d : Served S => d.tables t) (fun _ _ h => handle_spares h) hp

omit [DecidableEq S.Entity] in
theorem only_statement {q : Query S} {φ : Query S → Prop} (h : φ q) :
    (statement q : Method S X q.answer).Only φ :=
  ⟨h, fun r => Process.only_ofExcept r⟩

omit [DecidableEq S.Entity] in
theorem only_written {φ : Query S → Prop} (row : Option (S.Row t)) :
    (written row : Method S X (S.Row t)).Only φ := by
  cases row with
  | some row => trivial
  | none => exact fun _ => trivial

omit [DecidableEq S.Entity] in
theorem only_saveNew {φ : Query S → Prop} {data : S.Columns t} (h : φ (.insert t data)) :
    (saveNew t data : Method S X (S.Row t)).Only φ :=
  Process.only_bind (only_statement h) only_written

end Run

end Database.Statements
