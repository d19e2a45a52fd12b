import Scoopdope.Learning.Entities
import Scoopdope.Users.Service

/-!
# Learning: requests

What the services of courses, enrollments and credentials await: statements on the database, on
its tables of users and in transactions, calls of `StellarService`, and the events they emit.
Every request but `emit` may fail. A request that fails, and a transaction that is rolled back,
changes nothing; a call of `StellarService` that succeeds leaves its entry on the chain.
-/

namespace Scoopdope.Learning

open Async Database Server Users

structure CredentialMetadata where
  courseName : String
  grade : String
  skills : List String
deriving DecidableEq

/-- The methods of `StellarService` that write to the chain. -/
inductive ChainCall
  | recordProgress (studentPublicKey courseId : String) (progressPct : Nat)
  | issueCredential (recipientPublicKey courseId : String) (metadata : Option CredentialMetadata)
  | mintReward (recipientPublicKey : String) (amount : Nat)
  | mintCertificateNFT (recipientPublicKey certificateHash courseTitle : String)
  | recordEnrollment (studentPublicKey courseId : String)
deriving DecidableEq

/-- What the notifications say about a user and a course. -/
structure Addressee where
  courseTitle : String
  userEmail : String
  userName : String
deriving DecidableEq

/-- The events of the `EventEmitter2`. -/
inductive DomainEvent
  | enrollmentCreated (enrollmentId userId courseId : String) (enrolledAt : Int)
      (addressee : Option Addressee)
  | enrollmentConfirmed (enrollmentId userId courseId transactionHash : String) (enrolledAt : Int)
  | enrollmentRemoved (userId courseId : String)
  | waitlistJoined (userId courseId : String) (position : Int) (addressee : Addressee)
  | waitlistEnrolled (userId courseId : String) (addressee : Addressee)
  | progressCompleted (userId courseId stellarPublicKey courseName : String)
deriving DecidableEq

/-- The statements of a transaction. -/
abbrev Transaction : Type := Process (queryInterface schema) Unit HttpException Unit

/-- The statements run one after another. -/
def Transaction.runAlone (statements : Transaction) (g : Generated schema)
    (tables : schema.Tables) : Except HttpException Unit × schema.Tables :=
  statements.run (fun _ => Schema.query g) () tables

inductive Request
  | query (q : Query schema)
  /-- `dataSource.transaction(...)`. -/
  | transaction (statements : Transaction)
  | findUser (condition : Users.Where)
  | saveUser (user : User)
  /-- `findOne` on enrollments with the condition `completed`, and with the relations `user` and
  `course`. -/
  | findCompletedEnrollment (userId courseId : String)
  /-- `find` on bundle enrollments with the condition `unfinished`, and with the relations `bundle`
  and `bundle.courses`. -/
  | findUnfinishedBundles (userId : String)
  /-- `findOne` on waitlist entries with the condition `{ courseId, position: 1 }`, and with the
  relation `user`. -/
  | findFirstWaiting (courseId : String)
  | stellar (call : ChainCall)
  | emit (event : DomainEvent)

/-- What a request that does not fail answers. `saveUser` answers whether the row was written, a
transaction with what it threw, `stellar` with the transaction hash. -/
abbrev Request.value : Request → Type
  | .query q => q.answer
  | .transaction _ => Except HttpException Unit
  | .findUser _ => Option User
  | .saveUser _ => Bool
  | .findCompletedEnrollment _ _ => Option (schema.Row .enrollment × Option User × Option Course)
  | .findUnfinishedBundles _ => List (schema.Row .bundleEnrollment × Bundle)
  | .findFirstWaiting _ => Option (schema.Row .waitlistEntry × Option User)
  | .stellar _ => String
  | .emit _ => Unit

abbrev learningInterface : Interface where
  Op := Request
  Answer := fun q => Except HttpException q.value

/-- What a call meets. -/
structure Surroundings extends Generated schema where
  /-- The hash of the transaction that a call submits. -/
  hash : ChainCall → String
  /-- The exception with which a request fails. -/
  fails : Request → Option HttpException

/-- `emit` does not throw: the listeners are asynchronous. -/
def Surroundings.exception (around : Surroundings) : Request → Option HttpException
  | .emit _ => none
  | q => around.fails q

structure State where
  tables : schema.Tables
  users : UserTable
  /-- What was written to the chain, with the transaction hashes, newest first. -/
  chain : List (ChainCall × String)
  /-- Newest first. -/
  emitted : List DomainEvent

def State.empty : State where
  tables := fun _ => .empty
  users := .empty
  chain := []
  emitted := []

/-- A bundle enrollment with the bundle, if that exists. -/
def withBundle (tables : schema.Tables) (row : schema.Row .bundleEnrollment) :
    Option (schema.Row .bundleEnrollment × Bundle) :=
  ((tables .bundle).findOne (schema.holds .bundle row.data.bundleId)).map fun bundle =>
    (row, bundle.data)

/-- A request that does not fail. -/
def respond (around : Surroundings) (s : State) : (q : Request) → q.value × State
  | .query q =>
    let (answer, tables) := Schema.query around.toGenerated s.tables q
    (answer, { s with tables })
  | .transaction statements =>
    match statements.runAlone around.toGenerated s.tables with
    | (.ok (), tables) => (.ok (), { s with tables })
    | (.error x, _) => (.error x, s)
  | .findUser condition => (s.users.findOne condition.holds, s)
  | .saveUser user =>
    if Users.conflicts s.users user then (false, s)
    else (true, { s with users := s.users.save user })
  | .findCompletedEnrollment userId courseId =>
    (((s.tables .enrollment).findOne (schema.holds .enrollment (.completed userId courseId))).map
      fun row => (row, s.users.get row.data.userId,
        ((s.tables .course).get row.data.courseId).map Stored.data), s)
  | .findUnfinishedBundles userId =>
    (((s.tables .bundleEnrollment).find
      (schema.holds .bundleEnrollment (.unfinished userId))).filterMap (withBundle s.tables), s)
  | .findFirstWaiting courseId =>
    (((s.tables .waitlistEntry).findOne (schema.holds .waitlistEntry (.atPosition courseId 1))).map
      fun row => (row, s.users.get row.data.userId), s)
  | .stellar call =>
    (around.hash call, { s with chain := (call, around.hash call) :: s.chain })
  | .emit event => ((), { s with emitted := event :: s.emitted })

def handle (around : Surroundings) (s : State) (q : Request) :
    Except HttpException q.value × State :=
  match around.exception q with
  | some x => (.error x, s)
  | none =>
    let (value, s) := respond around s q
    (.ok value, s)

/-- A method of a service. -/
abbrev Method (A : Type) : Type := Process learningInterface Surroundings HttpException A

section Requests

variable {A : Type}

/-- Await a request, and throw what it fails with. -/
def request (q : Request) : Method q.value := do
  Process.ofExcept (← Process.perform (I := learningInterface) q)

def findOne (t : Entity) (condition : t.Where) : Method (Option (schema.Row t)) :=
  request (.query (.findOne t condition))

def find (t : Entity) (condition : t.Where) : Method (List (schema.Row t)) :=
  request (.query (.find t condition))

/-- `repo.save(repo.create(data))`. -/
def insert (t : Entity) (data : t.Columns) : Method (schema.Row t) := do
  let row ← request (.query (.insert t data))
  Process.ofExcept (match row with
    | some row => .ok row
    | none => .error duplicateKey)

/-- `repo.save(row)`. -/
def save (t : Entity) (row : schema.Row t) : Method (schema.Row t) := do
  let row ← request (.query (.save t row))
  Process.ofExcept (match row with
    | some row => .ok row
    | none => .error duplicateKey)

def update (t : Entity) (condition : t.Where) (f : t.Columns → t.Columns) : Method Unit :=
  request (.query (.update t condition f))

/-- `repo.remove(row)`. -/
def remove (t : Entity) (row : schema.Row t) : Method Unit := request (.query (.remove t row))

def stellar (call : ChainCall) : Method String := request (.stellar call)

def emit (event : DomainEvent) : Method Unit := request (.emit event)

/-! ## Running alone -/

variable {around : Surroundings} {s s' : State}

/-- The state with other rows in one table. -/
def State.put (s : State) (t : Entity) (rows : schema.Rows t) : State :=
  { s with tables := Function.update s.tables t rows }

@[simp] theorem State.put_tables_self (t : Entity) (rows : schema.Rows t) :
    (s.put t rows).tables t = rows :=
  Function.update_self t rows s.tables

@[simp] theorem State.put_tables_ne {t t' : Entity} (h : t' ≠ t) (rows : schema.Rows t) :
    (s.put t rows).tables t' = s.tables t' :=
  Function.update_of_ne h rows s.tables

@[simp] theorem State.put_same (t : Entity) : s.put t (s.tables t) = s := by
  rw [State.put, Function.update_eq_self]

@[simp] theorem State.put_put (t : Entity) (rows rows' : schema.Rows t) :
    (s.put t rows).put t rows' = s.put t rows' := by
  simp only [State.put, Function.update_idem]

theorem run_request (q : Request) :
    (request q).run handle around s =
      match around.exception q with
      | some x => (.error x, s)
      | none => (.ok (respond around s q).1, (respond around s q).2) := by
  have hrun : (request q).run handle around s =
      Process.run handle around (handle around s q).2
        (Process.ofExcept (handle around s q).1 : Method q.value) := rfl
  rw [hrun, Process.run_ofExcept]
  unfold handle
  cases around.exception q <;> rfl

theorem run_findOne (t : Entity) (condition : t.Where) :
    (findOne t condition).run handle around s =
      match around.exception (.query (.findOne t condition)) with
      | some x => (.error x, s)
      | none => (.ok ((s.tables t).findOne (schema.holds t condition)), s) :=
  run_request (.query (.findOne t condition))

theorem run_find (t : Entity) (condition : t.Where) :
    (find t condition).run handle around s =
      match around.exception (.query (.find t condition)) with
      | some x => (.error x, s)
      | none => (.ok ((s.tables t).find (schema.holds t condition)), s) :=
  run_request (.query (.find t condition))

theorem exception_query (q : Query schema) :
    around.exception (.query q) = around.fails (.query q) := rfl

theorem findOne_ok {t : Entity} {condition : t.Where} {row : Option (schema.Row t)} :
    (findOne t condition).run handle around s = (.ok row, s') ↔
      around.fails (.query (.findOne t condition)) = none ∧
        (s.tables t).findOne (schema.holds t condition) = row ∧ s = s' := by
  rw [run_findOne]
  change (match around.fails (.query (.findOne t condition)) with | some x => _ | none => _) = _ ↔ _
  cases around.fails (.query (.findOne t condition)) <;> simp

theorem find_ok {t : Entity} {condition : t.Where} {rows : List (schema.Row t)} :
    (find t condition).run handle around s = (.ok rows, s') ↔
      around.fails (.query (.find t condition)) = none ∧
        (s.tables t).find (schema.holds t condition) = rows ∧ s = s' := by
  rw [run_find]
  change (match around.fails (.query (.find t condition)) with | some x => _ | none => _) = _ ↔ _
  cases around.fails (.query (.find t condition)) <;> simp

theorem remove_ok {t : Entity} {row : schema.Row t} :
    (remove t row).run handle around s = (.ok (), s') ↔
      around.fails (.query (.remove t row)) = none ∧
        s' = s.put t ((s.tables t).remove row.id) := by
  unfold remove
  rw [run_request, exception_query]
  cases around.fails (.query (.remove t row)) with
  | some x => simp
  | none => exact ⟨fun h => ⟨rfl, by cases h; rfl⟩, fun h => by rw [h.2]; rfl⟩

theorem stellar_ok {call : ChainCall} {hash : String} :
    (stellar call).run handle around s = (.ok hash, s') ↔
      around.fails (.stellar call) = none ∧ hash = around.hash call ∧
        s' = { s with chain := (call, hash) :: s.chain } := by
  unfold stellar
  rw [run_request]
  change (match around.fails (.stellar call) with | some x => _ | none => _) = _ ↔ _
  cases around.fails (.stellar call) with
  | some x => simp
  | none =>
    constructor
    · rintro ⟨⟩
      exact ⟨rfl, rfl, rfl⟩
    · rintro ⟨-, rfl, rfl⟩
      rfl

theorem stellar_of_none {call : ChainCall} (h : around.fails (.stellar call) = none) :
    (stellar call).run handle around s =
      (.ok (around.hash call), { s with chain := (call, around.hash call) :: s.chain }) :=
  stellar_ok.mpr ⟨h, rfl, rfl⟩

theorem run_emit (event : DomainEvent) :
    (emit event).run handle around s = (.ok (), { s with emitted := event :: s.emitted }) :=
  run_request (.emit event)

theorem request_ok {q : Request} {value : q.value} :
    (request q).run handle around s = (.ok value, s') ↔
      around.exception q = none ∧ (respond around s q).1 = value ∧ (respond around s q).2 = s' := by
  rw [run_request]
  cases around.exception q <;> simp

/-- A request that fails. -/
theorem request_error {q : Request} {x : HttpException} :
    (request q).run handle around s = (.error x, s') ↔ around.exception q = some x ∧ s' = s := by
  rw [run_request]
  cases around.exception q with
  | some y =>
    simp only [Prod.mk.injEq, Except.error.injEq, Option.some.injEq]
    exact and_congr_right fun _ => eq_comm
  | none => simp

theorem stellar_of_some {call : ChainCall} {x : HttpException}
    (h : around.fails (.stellar call) = some x) :
    (stellar call).run handle around s = (.error x, s) :=
  request_error.mpr ⟨h, rfl⟩

theorem findOne_of_none {t : Entity} {condition : t.Where}
    (h : around.fails (.query (.findOne t condition)) = none) :
    (findOne t condition).run handle around s =
      (.ok ((s.tables t).findOne (schema.holds t condition)), s) :=
  findOne_ok.mpr ⟨h, rfl, rfl⟩

theorem findOne_of_some {t : Entity} {condition : t.Where} {x : HttpException}
    (h : around.fails (.query (.findOne t condition)) = some x) :
    (findOne t condition).run handle around s = (.error x, s) :=
  request_error.mpr ⟨h, rfl⟩

theorem run_insert (t : Entity) (data : t.Columns) :
    (insert t data).run handle around s =
      match around.fails (.query (.insert t data)) with
      | some x => (.error x, s)
      | none =>
        match (Schema.insert around.toGenerated (s.tables t) data).1 with
        | some row => (.ok row, s.put t ((s.tables t).save row))
        | none => (.error duplicateKey, s) := by
  unfold insert
  rw [Process.run_bind, run_request, exception_query]
  cases around.fails (.query (.insert t data)) with
  | some x => rfl
  | none =>
    have hstate : (respond around s (.query (.insert t data))).2 =
      s.put t (Schema.insert around.toGenerated (s.tables t) data).2 := rfl
    have hanswer : (respond around s (.query (.insert t data))).1 =
      (Schema.insert around.toGenerated (s.tables t) data).1 := rfl
    dsimp only
    rw [hstate, hanswer, Process.run_ofExcept, insert_rows]
    cases (Schema.insert around.toGenerated (s.tables t) data).1 with
    | some row => rfl
    | none => exact Prod.ext rfl (State.put_same t)

theorem run_save (t : Entity) (row : schema.Row t) :
    (save t row).run handle around s =
      match around.fails (.query (.save t row)) with
      | some x => (.error x, s)
      | none =>
        match (Schema.save around.toGenerated (s.tables t) row).1 with
        | some row => (.ok row, s.put t ((s.tables t).save row))
        | none => (.error duplicateKey, s) := by
  unfold save
  rw [Process.run_bind, run_request, exception_query]
  cases around.fails (.query (.save t row)) with
  | some x => rfl
  | none =>
    have hstate : (respond around s (.query (.save t row))).2 =
      s.put t (Schema.save around.toGenerated (s.tables t) row).2 := rfl
    have hanswer : (respond around s (.query (.save t row))).1 =
      (Schema.save around.toGenerated (s.tables t) row).1 := rfl
    dsimp only
    rw [hstate, hanswer, Process.run_ofExcept, save_rows]
    cases (Schema.save around.toGenerated (s.tables t) row).1 with
    | some row => rfl
    | none => exact Prod.ext rfl (State.put_same t)

theorem insert_ok {t : Entity} {data : t.Columns} {row : schema.Row t} :
    (insert t data).run handle around s = (.ok row, s') ↔
      around.fails (.query (.insert t data)) = none ∧
        row = Schema.inserted around.toGenerated data ∧ (s.tables t).get row.id = none ∧
        Schema.conflicts (s.tables t) row = false ∧ s' = s.put t ((s.tables t).save row) := by
  rw [run_insert]
  cases around.fails (.query (.insert t data)) with
  | some x => simp
  | none =>
    dsimp only
    cases hrow : (Schema.insert around.toGenerated (s.tables t) data).1 with
    | some row' =>
      obtain ⟨hinserted, hnew⟩ := insert_some.mp hrow
      constructor
      · rintro ⟨⟩
        exact ⟨rfl, hinserted, hnew.1, hnew.2, rfl⟩
      · rintro ⟨-, hdata, -, -, rfl⟩
        rw [hinserted, hdata]
    | none =>
      refine iff_of_false nofun ?_
      rintro ⟨-, hdata, hnew, hconflicts, -⟩
      rw [insert_some.mpr ⟨hdata, hnew, hconflicts⟩] at hrow
      cases hrow

theorem save_ok {t : Entity} {row row' : schema.Row t} :
    (save t row).run handle around s = (.ok row', s') ↔
      around.fails (.query (.save t row)) = none ∧
        row' = { row with updatedAt := around.now } ∧
        Schema.conflicts (s.tables t) row' = false ∧ s' = s.put t ((s.tables t).save row') := by
  rw [run_save]
  cases around.fails (.query (.save t row)) with
  | some x => simp
  | none =>
    dsimp only
    cases hrow : (Schema.save around.toGenerated (s.tables t) row).1 with
    | some saved =>
      obtain ⟨hsaved, hconflicts⟩ := save_some.mp hrow
      constructor
      · rintro ⟨⟩
        exact ⟨rfl, hsaved, hconflicts, rfl⟩
      · rintro ⟨-, hdata, -, rfl⟩
        rw [hsaved, hdata]
    | none =>
      refine iff_of_false nofun ?_
      rintro ⟨-, hdata, hconflicts, -⟩
      rw [save_some.mpr ⟨hdata, hconflicts⟩] at hrow
      cases hrow

theorem insert_error {t : Entity} {data : t.Columns} {x : HttpException}
    (h : (insert t data).run handle around s = (.error x, s')) : s' = s := by
  rw [run_insert] at h
  split at h
  · cases h
    rfl
  · split at h
    · cases h
    · cases h
      rfl

theorem save_error {t : Entity} {row : schema.Row t} {x : HttpException}
    (h : (save t row).run handle around s = (.error x, s')) : s' = s := by
  rw [run_save] at h
  split at h
  · cases h
    rfl
  · split at h
    · cases h
    · cases h
      rfl

end Requests

/-! ## What requests leave alone -/

section Kept

variable {around : Surroundings} {s : State} {q : Request}

/-- A request that only reads. -/
def Request.Reads : Request → Prop
  | .query q => q.writes = none
  | .findUser _ => True
  | .findCompletedEnrollment _ _ => True
  | .findUnfinishedBundles _ => True
  | .findFirstWaiting _ => True
  | _ => False

theorem handle_reads (h : q.Reads) : (handle around s q).2 = s := by
  unfold handle
  cases around.exception q with
  | some x => rfl
  | none =>
    cases q with
    | query q =>
      cases q with
      | findOne t condition => rfl
      | find t condition => rfl
      | insert t data => cases h
      | save t row => cases h
      | update t condition f => cases h
      | remove t row => cases h
    | findUser condition => rfl
    | findCompletedEnrollment userId courseId => rfl
    | findUnfinishedBundles userId => rfl
    | findFirstWaiting courseId => rfl
    | transaction statements => exact h.elim
    | saveUser user => exact h.elim
    | stellar call => exact h.elim
    | emit event => exact h.elim

/-- A method that only reads leaves the state as it is. -/
theorem run_reads {A : Type} {p : Method A} (hp : p.Only Request.Reads) :
    (p.run handle around s).2 = s :=
  Process.run_preserves (fun s : State => s) (fun _ _ h => handle_reads h) hp

/-! What a method that goes on after a request comes to. -/

section Rules

variable {A B : Type} {P : Except HttpException B × State → Prop}

theorem bind_reads {p : Method A} {f : A → Method B} (hp : p.Only Request.Reads)
    (herror : ∀ x, P (.error x, s))
    (hok : ∀ a, p.run handle around s = (.ok a, s) → P ((f a).run handle around s)) :
    P ((p >>= f).run handle around s) := by
  have hstate : (p.run handle around s).2 = s := run_reads hp
  rcases hrun : p.run handle around s with ⟨x | a, s'⟩
  · obtain rfl : s' = s := by
      rw [hrun] at hstate
      exact hstate
    rw [Process.run_bind_of_error hrun]
    exact herror x
  · obtain rfl : s' = s := by
      rw [hrun] at hstate
      exact hstate
    rw [Process.run_bind_of_ok hrun]
    exact hok a hrun

theorem bind_request {f : q.value → Method B}
    (herror : ∀ x, around.exception q = some x → P (.error x, s))
    (hok : around.exception q = none →
      P ((f (respond around s q).1).run handle around (respond around s q).2)) :
    P ((request q >>= f).run handle around s) := by
  rw [Process.run_bind, run_request]
  cases hexception : around.exception q with
  | some x => exact herror x hexception
  | none => exact hok hexception

theorem bind_insert {t : Entity} {data : t.Columns} {f : schema.Row t → Method B}
    (herror : ∀ x, P (.error x, s))
    (hok : ∀ row, row = Schema.inserted around.toGenerated data → (s.tables t).get row.id = none →
      Schema.conflicts (s.tables t) row = false →
        P ((f row).run handle around (s.put t ((s.tables t).save row)))) :
    P ((insert t data >>= f).run handle around s) := by
  rcases hrun : (insert t data).run handle around s with ⟨x | row, s'⟩
  · obtain rfl := insert_error hrun
    rw [Process.run_bind_of_error hrun]
    exact herror x
  · rw [Process.run_bind_of_ok hrun]
    obtain ⟨-, hrow, hnew, hconflicts, rfl⟩ := insert_ok.mp hrun
    exact hok row hrow hnew hconflicts

end Rules

/-- A request that leaves the rows of a table. -/
def Request.Spares (t : Entity) : Request → Prop
  | .query q => q.writes ≠ some t
  | .transaction _ => False
  | _ => True

/-- A request that writes no other table, and is no transaction. -/
def Request.WritesOnly (t : Entity) : Request → Prop
  | .query q => ∀ t', q.writes = some t' → t' = t
  | .transaction _ => False
  | _ => True

theorem Request.WritesOnly.spares {t t' : Entity} (h : q.WritesOnly t) (hne : t' ≠ t) :
    q.Spares t' := by
  cases q with
  | query q => exact fun hwrites => hne (h t' hwrites)
  | transaction statements => exact h.elim
  | _ => trivial

theorem Request.Reads.writesOnly (h : q.Reads) (t : Entity) : q.WritesOnly t := by
  cases q with
  | query q =>
    intro t' hwrites
    rw [h] at hwrites
    cases hwrites
  | transaction statements => exact h.elim
  | _ => trivial

theorem handle_spares {t : Entity} (h : q.Spares t) :
    (handle around s q).2.tables t = s.tables t := by
  unfold handle
  cases around.exception q with
  | some x => rfl
  | none =>
    cases q with
    | query q => exact Schema.query_other h
    | findUser condition => rfl
    | saveUser user =>
      unfold respond
      dsimp only
      split <;> rfl
    | findCompletedEnrollment userId courseId => rfl
    | findUnfinishedBundles userId => rfl
    | findFirstWaiting courseId => rfl
    | transaction statements => exact h.elim
    | stellar call => rfl
    | emit event => rfl

/-- A transaction leaves the rows of a table that none of its statements writes. -/
theorem handle_transaction_spares {t : Entity} {statements : Transaction}
    (h : statements.Only fun q : Query schema => q.writes ≠ some t) :
    (handle around s (.transaction statements)).2.tables t = s.tables t := by
  have hrun : (statements.runAlone around.toGenerated s.tables).2 t = s.tables t :=
    Process.run_preserves (fun tables : schema.Tables => tables t)
      (fun _ q hq => Schema.query_other (S := schema) hq) h
  unfold handle
  cases around.exception (.transaction statements) with
  | some x => rfl
  | none =>
    unfold respond
    dsimp only
    rcases hresult : statements.runAlone around.toGenerated s.tables with ⟨x | _, tables⟩
    · rfl
    · rw [hresult] at hrun
      exact hrun

theorem handle_users (h : ∀ user, q ≠ .saveUser user) : (handle around s q).2.users = s.users := by
  unfold handle
  cases around.exception q with
  | some x => rfl
  | none =>
    cases q with
    | saveUser user => exact absurd rfl (h user)
    | transaction statements =>
      unfold respond
      dsimp only
      split <;> rfl
    | _ => rfl

/-- A call of `StellarService` that does not fail answers its transaction hash. -/
theorem stellar_answered {call : ChainCall} {txHash : String}
    (h : (handle around s (.stellar call)).1 = .ok txHash) :
    around.fails (.stellar call) = none ∧ txHash = around.hash call := by
  unfold handle at h
  split at h
  · cases h
  · next hexception => exact ⟨hexception, (Except.ok.inj h).symm⟩

section Rows

variable {t : Entity} {row row' : schema.Row t} {data : t.Columns}

/-- Where a lookup finds none, no row satisfies its condition. -/
theorem holds_of_found_none {condition : t.Where}
    (h : (handle around s (.query (.findOne t condition))).1 = .ok none) (hrow : row ∈ s.tables t) :
    schema.holds t condition row = false := by
  unfold handle at h
  split at h
  · cases h
  · exact Repository.findOne_eq_none.mp (Except.ok.inj h) row hrow

/-- A request that fails changes nothing. -/
theorem handle_failing {x : HttpException} (h : around.exception q = some x) :
    (handle around s q).2 = s := by
  unfold handle
  rw [h]

theorem handle_insert (h : around.fails (.query (.insert t data)) = none) :
    (handle around s (.query (.insert t data))).2.tables t =
      (Schema.insert around.toGenerated (s.tables t) data).2 := by
  have hexception : around.exception (.query (.insert t data)) = none := h
  unfold handle respond Schema.query
  rw [hexception]
  dsimp only
  rw [Function.update_self]

theorem handle_save (h : around.fails (.query (.save t row)) = none) :
    (handle around s (.query (.save t row))).2.tables t =
      (Schema.save around.toGenerated (s.tables t) row).2 := by
  have hexception : around.exception (.query (.save t row)) = none := h
  unfold handle respond Schema.query
  rw [hexception]
  dsimp only
  rw [Function.update_self]

theorem mem_handle_insert (h : row' ∈ (handle around s (.query (.insert t data))).2.tables t) :
    row' ∈ s.tables t ∨ row' = Schema.inserted around.toGenerated data := by
  unfold handle at h
  split at h
  · exact .inl h
  · unfold respond Schema.query at h
    dsimp only at h
    rw [Function.update_self] at h
    exact mem_insert h

theorem mem_handle_save (h : row' ∈ (handle around s (.query (.save t row))).2.tables t) :
    row' ∈ s.tables t ∨ row' = { row with updatedAt := around.now } := by
  unfold handle at h
  split at h
  · exact .inl h
  · unfold respond Schema.query at h
    dsimp only at h
    rw [Function.update_self] at h
    exact mem_save h

theorem mem_handle_remove (h : row' ∈ (handle around s (.query (.remove t row))).2.tables t) :
    row' ∈ s.tables t := by
  unfold handle at h
  split at h
  · exact h
  · unfold respond Schema.query at h
    dsimp only at h
    rw [Function.update_self] at h
    exact (Repository.mem_remove.mp h).1

end Rows

/-- A method leaves the rows of a table that none of its requests writes. -/
theorem run_spares {A : Type} {t : Entity} {p : Method A} (hp : p.Only (Request.Spares t)) :
    (p.run handle around s).2.tables t = s.tables t :=
  Process.run_preserves (fun s : State => s.tables t) (fun _ _ h => handle_spares h) hp

theorem run_spares_all {A : Type} {p : Method A} (hp : ∀ t, p.Only (Request.Spares t)) :
    (p.run handle around s).2.tables = s.tables :=
  funext fun t => run_spares (hp t)

theorem only_request {φ : Request → Prop} (h : φ q) : (request q).Only φ :=
  ⟨h, fun r => Process.only_ofExcept r⟩

end Kept

end Scoopdope.Learning
