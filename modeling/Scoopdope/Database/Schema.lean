import Scoopdope.Async.Process
import Scoopdope.Database.Repository

/-!
# Schemas

The tables of a database, one for each entity of a `Schema`. A row is `Stored`: it has its
primary key, the dates of its insertion and of its last write, and its columns. A `Query` is one
statement on one table. An insertion whose primary key is taken, and an insertion or a `save`
that breaks a unique constraint, write nothing.

`query_other`: a statement leaves the other tables alone. `insert_some`, `save_some` and the
lemmas beside them say what a statement makes of its own table.
-/

namespace Database

open Async

structure Stored (D : Type) where
  id : String
  createdAt : Int
  updatedAt : Int
  data : D
deriving DecidableEq

structure Schema where
  Entity : Type
  Columns : Entity → Type
  /-- The conditions by which rows are looked up. -/
  Where : Entity → Type
  holds : (t : Entity) → Where t → Stored (Columns t) → Bool
  /-- Two rows with these columns break a unique constraint. -/
  conflict : (t : Entity) → Columns t → Columns t → Bool

variable {S : Schema}

namespace Schema

abbrev Row (t : S.Entity) : Type := Stored (S.Columns t)

abbrev Rows (t : S.Entity) : Type := Repository fun row : S.Row t => row.id

abbrev Tables (S : Schema) : Type := (t : S.Entity) → S.Rows t

end Schema

inductive Query (S : Schema)
  | findOne (t : S.Entity) (condition : S.Where t)
  | find (t : S.Entity) (condition : S.Where t)
  | insert (t : S.Entity) (data : S.Columns t)
  | save (t : S.Entity) (row : S.Row t)
  | update (t : S.Entity) (condition : S.Where t) (f : S.Columns t → S.Columns t)
  | remove (t : S.Entity) (row : S.Row t)

namespace Query

/-- `insert` answers with the new row and `save` with the row as written, unless nothing was
written. -/
abbrev answer : Query S → Type
  | findOne t _ => Option (S.Row t)
  | find t _ => List (S.Row t)
  | insert t _ => Option (S.Row t)
  | save t _ => Option (S.Row t)
  | update _ _ _ => Unit
  | remove _ _ => Unit

/-- The table that is written. -/
def writes : Query S → Option S.Entity
  | findOne _ _ => none
  | find _ _ => none
  | insert t _ => some t
  | save t _ => some t
  | update t _ _ => some t
  | remove t _ => some t

end Query

abbrev queryInterface (S : Schema) : Interface where
  Op := Query S
  Answer := Query.answer

/-- What a statement takes from its surroundings: the date, and the primary key that is generated
for an insertion. -/
structure Generated (S : Schema) where
  now : Int
  key : (t : S.Entity) → S.Columns t → String

namespace Schema

/-- Some other row breaks a unique constraint together with this one. -/
def conflicts {t : S.Entity} (rows : S.Rows t) (row : S.Row t) : Bool :=
  (rows.findOne fun other => other.id ≠ row.id && S.conflict t other.data row.data).isSome

/-- The row that an insertion makes. -/
def inserted (g : Generated S) {t : S.Entity} (data : S.Columns t) : S.Row t :=
  ⟨g.key t data, g.now, g.now, data⟩

def insert (g : Generated S) {t : S.Entity} (rows : S.Rows t) (data : S.Columns t) :
    Option (S.Row t) × S.Rows t :=
  let row := inserted g data
  if (rows.get row.id).isSome || conflicts rows row then (none, rows)
  else (some row, rows.save row)

def save (g : Generated S) {t : S.Entity} (rows : S.Rows t) (row : S.Row t) :
    Option (S.Row t) × S.Rows t :=
  let row := { row with updatedAt := g.now }
  if conflicts rows row then (none, rows) else (some row, rows.save row)

/-- What an update makes of a row. -/
def rewrite {t : S.Entity} (condition : S.Where t) (f : S.Columns t → S.Columns t)
    (row : S.Row t) : S.Row t :=
  if S.holds t condition row then { row with data := f row.data } else row

theorem rewrite_id {t : S.Entity} (condition : S.Where t) (f : S.Columns t → S.Columns t)
    (row : S.Row t) : (rewrite condition f row).id = row.id := by
  unfold rewrite
  split <;> rfl

variable [DecidableEq S.Entity]

def query (g : Generated S) (tables : S.Tables) : (q : Query S) → q.answer × S.Tables
  | .findOne t condition => ((tables t).findOne (S.holds t condition), tables)
  | .find t condition => ((tables t).find (S.holds t condition), tables)
  | .insert t data =>
    let (row, rows) := insert g (tables t) data
    (row, Function.update tables t rows)
  | .save t row =>
    let (row, rows) := save g (tables t) row
    (row, Function.update tables t rows)
  | .update t condition f =>
    let rows := (tables t).update (rewrite condition f) (rewrite_id condition f)
    ((), Function.update tables t rows)
  | .remove t row => ((), Function.update tables t ((tables t).remove row.id))

theorem query_other {g : Generated S} {tables : S.Tables} {q : Query S} {t : S.Entity}
    (h : q.writes ≠ some t) : (query g tables q).2 t = tables t := by
  have hne {t' : S.Entity} (h : some t' ≠ some t) (rows : S.Rows t') :
      Function.update tables t' rows t = tables t :=
    Function.update_of_ne (fun heq => h (congrArg some heq.symm)) _ _
  cases q with
  | findOne t' condition => rfl
  | find t' condition => rfl
  | insert t' data => exact hne h _
  | save t' row => exact hne h _
  | update t' condition f => exact hne h _
  | remove t' row => exact hne h _

end Schema

/-! ## The rows afterwards -/

section Rows

variable {g : Generated S} {t : S.Entity} {rows : S.Rows t} {row row' : S.Row t}
  {data : S.Columns t}

theorem insert_some :
    (Schema.insert g rows data).1 = some row ↔
      row = Schema.inserted g data ∧ rows.get row.id = none ∧
        Schema.conflicts rows row = false := by
  unfold Schema.insert
  dsimp only
  split
  · next htaken =>
    refine iff_of_false nofun ?_
    rintro ⟨rfl, hnew, hconflicts⟩
    simp [hnew, hconflicts] at htaken
  · next hnew =>
    simp only [Bool.or_eq_true, not_or, Bool.not_eq_true, Option.isSome_eq_false_iff,
      Option.isNone_iff_eq_none] at hnew
    constructor
    · rintro ⟨⟩
      exact ⟨rfl, hnew⟩
    · rintro ⟨rfl, -, -⟩
      rfl

theorem insert_rows :
    (Schema.insert g rows data).2 =
      match (Schema.insert g rows data).1 with
      | some row => rows.save row
      | none => rows := by
  unfold Schema.insert
  dsimp only
  split <;> rfl

theorem save_some :
    (Schema.save g rows row).1 = some row' ↔
      row' = { row with updatedAt := g.now } ∧ Schema.conflicts rows row' = false := by
  unfold Schema.save
  dsimp only
  split
  · next hconflicts =>
    refine iff_of_false nofun ?_
    rintro ⟨rfl, hnone⟩
    exact absurd hconflicts (by simp [hnone])
  · next hnone =>
    rw [Bool.not_eq_true] at hnone
    constructor
    · rintro ⟨⟩
      exact ⟨rfl, hnone⟩
    · rintro ⟨rfl, -⟩
      rfl

theorem save_rows :
    (Schema.save g rows row).2 =
      match (Schema.save g rows row).1 with
      | some row => rows.save row
      | none => rows := by
  unfold Schema.save
  dsimp only
  split <;> rfl

theorem mem_insert (h : row' ∈ (Schema.insert g rows data).2) :
    row' ∈ rows ∨ row' = Schema.inserted g data := by
  rw [insert_rows] at h
  split at h
  · next row hrow =>
    rcases Repository.mem_save.mp h with rfl | ⟨h, -⟩
    · exact .inr (insert_some.mp hrow).1
    · exact .inl h
  · exact .inl h

theorem mem_save (h : row' ∈ (Schema.save g rows row).2) :
    row' ∈ rows ∨ row' = { row with updatedAt := g.now } := by
  rw [save_rows] at h
  split at h
  · next saved hsaved =>
    rcases Repository.mem_save.mp h with rfl | ⟨h, -⟩
    · exact .inr (save_some.mp hsaved).1
    · exact .inl h
  · exact .inl h

theorem conflicts_eq_false :
    Schema.conflicts rows row = false ↔
      ∀ other ∈ rows, other.id ≠ row.id → S.conflict t other.data row.data = false := by
  unfold Schema.conflicts
  rw [Option.isSome_eq_false_iff, Option.isNone_iff_eq_none, Repository.findOne_eq_none]
  refine forall₂_congr fun other _ => ?_
  simp

end Rows

/-! ## Unique constraints -/

/-- No two rows break a unique constraint. -/
def Schema.Respected {t : S.Entity} (rows : S.Rows t) : Prop :=
  ∀ a ∈ rows, ∀ b ∈ rows, a.id ≠ b.id → S.conflict t a.data b.data = false

section Respected

variable {g : Generated S} {t : S.Entity} {rows : S.Rows t}

theorem respected_empty : Schema.Respected (.empty : S.Rows t) :=
  fun _ ha => absurd ha Repository.not_mem_empty

/-- A row that conflicts with no other may be written. -/
theorem Schema.Respected.save_row (h : Schema.Respected rows)
    (hsymm : ∀ a b, S.conflict t a b = S.conflict t b a) {row : S.Row t}
    (hfree : Schema.conflicts rows row = false) : Schema.Respected (rows.save row) := by
  rw [conflicts_eq_false] at hfree
  intro a ha b hb hne
  rcases Repository.mem_save.mp ha with ha | ⟨haold, hakey⟩ <;>
    rcases Repository.mem_save.mp hb with hb | ⟨hbold, hbkey⟩
  · exact absurd (congrArg Stored.id (ha.trans hb.symm)) hne
  · rw [hsymm, ha]
    exact hfree b hbold hbkey
  · rw [hb]
    exact hfree a haold hakey
  · exact h a haold b hbold hne

theorem Schema.Respected.insert (h : Schema.Respected rows)
    (hsymm : ∀ a b, S.conflict t a b = S.conflict t b a) (data : S.Columns t) :
    Schema.Respected (Schema.insert g rows data).2 := by
  rw [insert_rows]
  split
  · next row hrow => exact h.save_row hsymm (insert_some.mp hrow).2.2
  · exact h

theorem Schema.Respected.save (h : Schema.Respected rows)
    (hsymm : ∀ a b, S.conflict t a b = S.conflict t b a) (row : S.Row t) :
    Schema.Respected (Schema.save g rows row).2 := by
  rw [save_rows]
  split
  · next saved hsaved => exact h.save_row hsymm (save_some.mp hsaved).2
  · exact h

end Respected

end Database
