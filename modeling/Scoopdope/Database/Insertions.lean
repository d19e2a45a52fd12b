import Scoopdope.Database.Statements

/-!
# Insertions one after another

A method that inserts row after row, without a transaction. `Surroundings.refuses` says whether
the database refuses an insertion, and `insertAll` what a list of them leaves. An insertion may also
throw before there is a statement. What was inserted before the one that fails stays:
`keeps_rows_iff` says when a failure leaves no row behind.

`Repository.inserted` are the rows of a table in the order of their insertion, and `FreshKeys` says
that the keys to be generated are new. Without failures, `Served.inserts` is then what is left.
-/

namespace Database

namespace Repository

variable {K R : Type} [DecidableEq K] {key : R → K} {t : Repository key} {p : R → Bool} {row : R}

/-- The rows, those that were inserted first before the others. -/
def inserted (t : Repository key) : List R := (t.rows.entries.map Sigma.snd).reverse

theorem mem_inserted : row ∈ t.inserted ↔ row ∈ t := by
  rw [inserted, List.mem_reverse, mem_entries]

theorem reverse_find : (t.find p).reverse = t.inserted.filter p := by
  rw [find, inserted, List.filter_reverse]

theorem inserted_save (h : t.get (key row) = none) :
    (t.save row).inserted = t.inserted ++ [row] := by
  have hnew : key row ∉ t.rows := AList.lookup_eq_none.mp h
  have hentries : (t.save row).rows.entries = ⟨key row, row⟩ :: t.rows.entries :=
    AList.entries_insert_of_notMem hnew
  unfold inserted
  rw [hentries, List.map_cons, List.reverse_cons]

end Repository

namespace Statements

open Async

variable {S : Schema} {X B : Type} [DecidableEq S.Entity] {around : Surroundings S X}
  {d d' : Served S} {t : S.Entity} {data : S.Columns t}

/-- The exception with which the database refuses an insertion. -/
def Surroundings.refuses (around : Surroundings S X) (d : Served S) (t : S.Entity)
    (data : S.Columns t) : Option X :=
  match around.fails d.count (.insert t data) with
  | some x => some x
  | none =>
    match (Schema.insert (around.generated d.count) (d.tables t) data).1 with
    | some _ => none
    | none => some around.duplicate

/-- The database after an insertion. -/
def Served.insert (d : Served S) (around : Surroundings S X) (t : S.Entity)
    (data : S.Columns t) : Served S :=
  d.put t (Schema.inserted (around.generated d.count) data)

theorem run_insert (f : S.Row t → Method S X B) :
    alone around d (saveNew t data >>= f) =
      match around.refuses d t data with
      | some x => (.error x, d.tick)
      | none =>
        alone around (d.insert around t data)
          (f (Schema.inserted (around.generated d.count) data)) := by
  rw [run_saveNew]
  unfold Surroundings.refuses
  cases around.fails d.count (.insert t data) with
  | some x => rfl
  | none =>
    cases hrow : (Schema.insert (around.generated d.count) (d.tables t) data).1 with
    | none => rfl
    | some row =>
      rw [(insert_some.mp hrow).1]
      rfl

omit [DecidableEq S.Entity] in
theorem new_of_refuses (h : around.refuses d t data = none) :
    (d.tables t).get (around.key d.count) = none := by
  unfold Surroundings.refuses at h
  split at h
  · cases h
  · split at h
    · next row hrow =>
      obtain ⟨rfl, hnew, -⟩ := insert_some.mp hrow
      exact hnew
    · cases h

/-! ## Lists of insertions -/

structure Insertion (S : Schema) (X : Type) where
  table : S.Entity
  data : S.Columns table
  /-- What is thrown, if there is no statement for the data. -/
  throws : Option X := none

/-- The exception of an insertion that fails, and the database after it. -/
def Insertion.refused (i : Insertion S X) (around : Surroundings S X) (d : Served S) :
    Option (X × Served S) :=
  match i.throws with
  | some x => some (x, d)
  | none => (around.refuses d i.table i.data).map fun x => (x, d.tick)

/-- The insertions one after another, up to the first that fails. -/
def insertAll (around : Surroundings S X) : Served S → List (Insertion S X) →
    Except X Unit × Served S
  | d, [] => (.ok (), d)
  | d, i :: rest =>
    match i.refused around d with
    | some (x, d) => (.error x, d)
    | none => insertAll around (d.insert around i.table i.data) rest

/-- How many insertions go before the first that fails. -/
def firstRefused (around : Surroundings S X) : Served S → List (Insertion S X) → Option Nat
  | _, [] => none
  | d, i :: rest =>
    match i.refused around d with
    | some _ => some 0
    | none => (firstRefused around (d.insert around i.table i.data) rest).map (· + 1)

/-- What a method comes to that goes on after the insertions. -/
def andThen (f : Served S → Except X B × Served S) : Except X Unit × Served S →
    Except X B × Served S
  | (.ok (), d) => f d
  | (.error x, d) => (.error x, d)

variable {i : Insertion S X} {rest rest' : List (Insertion S X)}

omit [DecidableEq S.Entity] in
/-- The row of an insertion that goes through has a new key. -/
theorem Insertion.new_of_refused (h : i.refused around d = none) :
    (d.tables i.table).get (around.key d.count) = none := by
  unfold Insertion.refused at h
  cases hthrows : i.throws with
  | some x =>
    rw [hthrows] at h
    cases h
  | none =>
    rw [hthrows] at h
    exact new_of_refuses (Option.map_eq_none_iff.mp h)

omit [DecidableEq S.Entity] in
/-- An insertion that fails changes no table. -/
theorem Insertion.tables_of_refused {x : X} (h : i.refused around d = some (x, d')) :
    d'.tables = d.tables := by
  unfold Insertion.refused at h
  cases hthrows : i.throws with
  | some y =>
    rw [hthrows] at h
    cases h
    rfl
  | none =>
    rw [hthrows] at h
    obtain ⟨y, -, hy⟩ := Option.map_eq_some_iff.mp h
    cases hy
    rfl

theorem insertAll_cons : insertAll around d (i :: rest) =
    match i.refused around d with
    | some (x, d) => (.error x, d)
    | none => insertAll around (d.insert around i.table i.data) rest := rfl

theorem insertAll_append : insertAll around d (rest ++ rest') =
    andThen (fun d => insertAll around d rest') (insertAll around d rest) := by
  induction rest generalizing d with
  | nil => rfl
  | cons i rest ih =>
    rw [List.cons_append, insertAll, insertAll]
    split
    · rfl
    · exact ih

theorem count_insertAll (h : insertAll around d rest = (.ok (), d')) :
    d'.count = d.count + rest.length := by
  induction rest generalizing d with
  | nil =>
    cases h
    rfl
  | cons i rest ih =>
    rw [insertAll] at h
    split at h
    · cases h
    · rw [ih h, List.length_cons, Served.insert, Served.put_count]
      exact Nat.add_right_comm _ _ _

/-- A row stays. -/
theorem mem_insertAll {row : S.Row t} (h : row ∈ d.tables t) :
    row ∈ (insertAll around d rest).2.tables t := by
  induction rest generalizing d with
  | nil => exact h
  | cons i rest ih =>
    rw [insertAll]
    cases hrefused : i.refused around d with
    | some failure =>
      show row ∈ failure.2.tables t
      rw [Insertion.tables_of_refused hrefused]
      exact h
    | none =>
      refine ih ?_
      unfold Served.insert
      by_cases htable : t = i.table
      · subst htable
        rw [Served.put_tables_self]
        refine Repository.mem_save.mpr (.inr ⟨h, fun hkey => ?_⟩)
        have hnew := Insertion.new_of_refused hrefused
        have hstored := Repository.mem_def.mp h
        rw [hkey] at hstored
        cases hnew.symm.trans hstored
      · rw [Served.put_tables_ne _ htable]
        exact h

theorem firstRefused_eq_none_iff :
    firstRefused around d rest = none ↔ ∃ d', insertAll around d rest = (.ok (), d') := by
  induction rest generalizing d with
  | nil => exact iff_of_true rfl ⟨d, rfl⟩
  | cons i rest ih =>
    rw [firstRefused, insertAll]
    cases i.refused around d with
    | some failure =>
      refine iff_of_false (Option.some_ne_none 0) ?_
      rintro ⟨d', h⟩
      cases h
    | none => exact Option.map_eq_none_iff.trans ih

/-- No row is left behind that was not there before. -/
def Keeps (d d' : Served S) : Prop := ∀ t, ∀ row ∈ d'.tables t, row ∈ d.tables t

/-- A failure leaves no row behind exactly when it is not after the first insertion. -/
theorem keeps_rows_iff :
    (∀ x d', insertAll around d (i :: rest) = (.error x, d') → Keeps d d') ↔
      ∀ k, firstRefused around d (i :: rest) ≠ some (k + 1) := by
  rw [insertAll, firstRefused]
  cases hrefused : i.refused around d with
  | some failure =>
    refine iff_of_true (fun y d' h => ?_) nofun
    cases h
    intro t row hrow
    rwa [Insertion.tables_of_refused hrefused] at hrow
  | none =>
    dsimp only
    constructor
    · intro h k hk
      obtain ⟨k', hk', -⟩ := Option.map_eq_some_iff.mp hk
      -- The first row stays, and was not there before.
      cases hrest : insertAll around (d.insert around i.table i.data) rest with
      | mk result d' =>
        cases result with
        | ok u =>
          have hnone := firstRefused_eq_none_iff.mpr ⟨d', hrest⟩
          rw [hnone] at hk'
          cases hk'
        | error x =>
          let row := Schema.inserted (around.generated d.count) i.data
          have hput : row ∈ (d.insert around i.table i.data).tables i.table := by
            rw [Served.insert, Served.put_tables_self]
            exact Repository.mem_save.mpr (.inl rfl)
          have hstays : row ∈ d'.tables i.table := by
            have hmem : row ∈ (insertAll around _ rest).2.tables i.table := mem_insertAll hput
            rwa [hrest] at hmem
          have hbefore := Repository.mem_def.mp (h x d' hrest i.table row hstays)
          cases (Insertion.new_of_refused hrefused).symm.trans hbefore
    · intro h x d' hrest
      cases hfirst : firstRefused around (d.insert around i.table i.data) rest with
      | some k => exact absurd (by rw [hfirst]; rfl) (h k)
      | none =>
        obtain ⟨d'', hok⟩ := firstRefused_eq_none_iff.mp hfirst
        rw [hok] at hrest
        cases hrest

/-- Where all insertions go through, none of them throws. -/
theorem throws_of_insertAll (h : insertAll around d rest = (.ok (), d')) :
    ∀ i ∈ rest, i.throws = none := by
  induction rest generalizing d with
  | nil => exact fun _ hi => nomatch hi
  | cons i rest ih =>
    rw [insertAll] at h
    split at h
    · cases h
    · next hrefused =>
      refine List.forall_mem_cons.mpr ⟨?_, ih h⟩
      unfold Insertion.refused at hrefused
      cases hthrows : i.throws with
      | some x =>
        rw [hthrows] at hrefused
        cases hrefused
      | none => rfl

/-! ## Keys -/

/-- The keys that are generated from now on are not taken, and no two are the same. -/
structure FreshKeys (around : Surroundings S X) (d : Served S) : Prop where
  new : ∀ n t, d.count ≤ n → (d.tables t).get (around.key n) = none
  distinct : ∀ m n, d.count ≤ m → m < n → around.key m ≠ around.key n

theorem FreshKeys.insert (h : FreshKeys around d) (t : S.Entity) (data : S.Columns t) :
    FreshKeys around (d.insert around t data) := by
  refine ⟨fun n t' hn => ?_, fun m n hm => h.distinct m n (Nat.le_of_succ_le hm)⟩
  have hold : (d.tables t').get (around.key n) = none := h.new n t' (Nat.le_of_succ_le hn)
  unfold Served.insert
  by_cases htable : t' = t
  · subst htable
    rw [Served.put_tables_self, Repository.get_save, if_neg]
    · exact hold
    · exact fun hkey => h.distinct d.count n (le_refl _) hn hkey.symm
  · rw [Served.put_tables_ne _ htable]
    exact hold

omit [DecidableEq S.Entity] in
/-- Without failures, and where nothing is unique but the keys, nothing is refused. -/
theorem FreshKeys.not_refused (h : FreshKeys around d)
    (hunique : ∀ a b : S.Columns t, S.conflict t a b = false) :
    around.calm.refuses d t data = none := by
  have hinsert : (Schema.insert (around.generated d.count) (d.tables t) data).1 =
      some (Schema.inserted (around.generated d.count) data) :=
    insert_some.mpr ⟨rfl, h.new d.count t (le_refl _),
      conflicts_eq_false.mpr fun other _ _ => hunique other.data data⟩
  unfold Surroundings.refuses
  show (match (Schema.insert (around.generated d.count) (d.tables t) data).1 with
    | some _ => none
    | none => some around.duplicate) = none
  rw [hinsert]

/-- The database after insertions of which none is refused. -/
def Served.inserts (d : Served S) (around : Surroundings S X) (rest : List (Insertion S X)) :
    Served S :=
  rest.foldl (fun d i => d.insert around i.table i.data) d

theorem inserts_of_insertAll (h : insertAll around d rest = (.ok (), d')) :
    d' = d.inserts around rest := by
  induction rest generalizing d with
  | nil =>
    cases h
    rfl
  | cons i rest ih =>
    rw [insertAll] at h
    split at h
    · cases h
    · exact ih h

theorem count_inserts : (d.inserts around rest).count = d.count + rest.length := by
  induction rest generalizing d with
  | nil => rfl
  | cons i rest ih =>
    rw [List.length_cons, Nat.add_comm rest.length, ← Nat.add_assoc]
    exact ih

theorem inserts_append :
    d.inserts around (rest ++ rest') = (d.inserts around rest).inserts around rest' :=
  List.foldl_append

theorem FreshKeys.inserts (h : FreshKeys around d) : FreshKeys around (d.inserts around rest) := by
  induction rest generalizing d with
  | nil => exact h
  | cons i rest ih => exact ih (h.insert i.table i.data)

theorem FreshKeys.insertAll_calm (h : FreshKeys around d)
    (hunique : ∀ (t : S.Entity) (a b : S.Columns t), S.conflict t a b = false)
    (hthrows : ∀ i ∈ rest, i.throws = none) :
    insertAll around.calm d rest = (.ok (), d.inserts around rest) := by
  induction rest generalizing d with
  | nil => rfl
  | cons i rest ih =>
    obtain ⟨hi, hrest⟩ := List.forall_mem_cons.mp hthrows
    have hrefused : i.refused around.calm d = none := by
      rw [Insertion.refused, hi, h.not_refused (hunique i.table)]
      rfl
    rw [insertAll, hrefused]
    exact ih (h.insert i.table i.data) hrest

/-- The rows of a table after an insertion into it. -/
theorem FreshKeys.inserted_insert (h : FreshKeys around d) (t : S.Entity) (data : S.Columns t) :
    ((d.insert around t data).tables t).inserted =
      (d.tables t).inserted ++ [Schema.inserted (around.generated d.count) data] := by
  unfold Served.insert
  rw [Served.put_tables_self]
  exact Repository.inserted_save (h.new d.count t (le_refl _))

theorem FreshKeys.filter_insert (h : FreshKeys around d) (t : S.Entity) (data : S.Columns t)
    (p : S.Row t → Bool) :
    ((d.insert around t data).tables t).inserted.filter p =
      (d.tables t).inserted.filter p ++
        if p (Schema.inserted (around.generated d.count) data) then
          [Schema.inserted (around.generated d.count) data]
        else [] := by
  rw [h.inserted_insert, List.filter_append, List.filter_cons, List.filter_nil]

/-- A row stays where it is. -/
theorem get_insert_ne_none {t' : S.Entity} {id : String} (h : (d.tables t').get id ≠ none) :
    ((d.insert around t data).tables t').get id ≠ none := by
  unfold Served.insert
  by_cases htable : t' = t
  · subst htable
    rw [Served.put_tables_self, Repository.get_save]
    split
    · exact Option.some_ne_none _
    · exact h
  · rw [Served.put_tables_ne _ htable]
    exact h

end Statements

end Database
