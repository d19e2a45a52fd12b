import Scoopdope.Enrollments.Anchoring
import Scoopdope.Learning.Runs

/-!
# The waitlist: the capacity of a course

Schedules of `enroll`, `unenroll`, `join`, `leave` and `promoteNext`, any request of which may
fail. Rows of enrollments are written by `enroll`, which looks neither at the limit of the course
nor at its waitlist, and by the transaction of `promoteNext`, some time after it has counted.

`capacity_respected_iff`: the limit is kept, and no `enroll` passes those who wait, exactly when
every row of the course is written while there is a place for it (`Admits`).
-/

namespace Scoopdope.Waitlist

open Async Database Server Learning Enrollments Soroban

/-! ## Seats -/

/-- The number of enrollments of the course. -/
def seats (s : State) (courseId : String) : Nat :=
  ((s.tables .enrollment).find (schema.holds .enrollment (.course courseId))).length

/-- The limit of the course. -/
def maxEnrollment (s : State) (courseId : String) : Option Nat :=
  ((s.tables .course).findOne (schema.holds .course (.id courseId))).bind fun course =>
    limit course.data

def WithinCapacity (s : State) (courseId : String) : Prop :=
  ∀ max, maxEnrollment s courseId = some max → seats s courseId ≤ max

/-- Another user is on the waitlist. -/
def OthersWait (s : State) (userId courseId : String) : Prop :=
  ∃ entry ∈ s.tables .waitlistEntry, entry.data.courseId = courseId ∧ entry.data.userId ≠ userId

section Seats

variable {s s' : State} {userId courseId : String} {row : schema.Row .enrollment}

theorem holds_enrollment_course {row : schema.Row .enrollment} :
    schema.holds .enrollment (.course courseId) row = true ↔ row.data.courseId = courseId :=
  decide_eq_true_iff

/-- A new row of the course takes a seat. -/
theorem seats_save_new (h : s'.tables .enrollment = (s.tables .enrollment).save row)
    (hcourse : row.data.courseId = courseId)
    (hnew : ∀ old ∈ s.tables .enrollment, old.id = row.id → old.data.courseId ≠ courseId) :
    seats s' courseId = seats s courseId + 1 := by
  unfold seats
  rw [h]
  refine Repository.length_find_save_new (holds_enrollment_course.mpr hcourse) ?_
  intro old hold hholds hkey
  exact hnew old hold hkey (holds_enrollment_course.mp hholds)

/-- A row of another course, or one in place of a row of the course, takes none. -/
theorem seats_save_le (h : s'.tables .enrollment = (s.tables .enrollment).save row)
    (hold : row.data.courseId = courseId →
      ∃ old ∈ s.tables .enrollment, old.id = row.id ∧ old.data.courseId = courseId) :
    seats s' courseId ≤ seats s courseId := by
  unfold seats
  rw [h]
  refine Repository.length_find_save_le fun hholds => ?_
  obtain ⟨old, hmem, hkey, hcourse⟩ := hold (holds_enrollment_course.mp hholds)
  exact ⟨old, hmem, holds_enrollment_course.mpr hcourse, hkey⟩

theorem seats_le (h : ∀ row ∈ s'.tables .enrollment, row ∈ s.tables .enrollment) :
    seats s' courseId ≤ seats s courseId :=
  Repository.length_find_le h

theorem enrolled_save (h : s'.tables .enrollment = (s.tables .enrollment).save row)
    (hnot : ¬ Enrolled s userId courseId) :
    Enrolled s' userId courseId ↔ row.data.userId = userId ∧ row.data.courseId = courseId := by
  unfold Enrolled
  rw [h]
  constructor
  · rintro ⟨row', hrow', huser, hcourse⟩
    rcases Repository.mem_save.mp hrow' with rfl | ⟨hmem, -⟩
    · exact ⟨huser, hcourse⟩
    · exact absurd ⟨row', hmem, huser, hcourse⟩ hnot
  · exact fun h => ⟨row, Repository.mem_save.mpr (.inl rfl), h⟩

end Seats

/-! ## Rows that are written -/

/-- The request writes this enrollment. -/
inductive Writes (around : Surroundings) (s : State) : Request → schema.Row .enrollment → Prop
  | insert {data : Enrollment} {row : schema.Row .enrollment}
      (succeeds : around.fails (.query (.insert .enrollment data)) = none)
      (written : (Schema.insert around.toGenerated (s.tables .enrollment) data).1 = some row) :
      Writes around s (.query (.insert .enrollment data)) row
  | save {row row' : schema.Row .enrollment}
      (succeeds : around.fails (.query (.save .enrollment row)) = none)
      (written : (Schema.save around.toGenerated (s.tables .enrollment) row).1 = some row') :
      Writes around s (.query (.save .enrollment row)) row'
  | promotion {next : schema.Row .waitlistEntry} {courseId : String}
      {row : schema.Row .enrollment}
      (succeeds : around.fails (.transaction (promotion next courseId)) = none)
      (notEnrolled : ¬ Enrolled s next.data.userId courseId)
      (written : (Schema.insert around.toGenerated (s.tables .enrollment)
        (promoted next.data.userId courseId)).1 = some row) :
      Writes around s (.transaction (promotion next courseId)) row

/-- No request of the calls updates enrollments or writes courses, and their transactions are
promotions. -/
def Confined : Request → Prop
  | .query q => q.writes ≠ some .course ∧ ∀ condition f, q ≠ .update .enrollment condition f
  | .transaction statements => ∃ next courseId, statements = promotion next courseId
  | _ => True

section Requests

variable {around : Surroundings} {s : State} {q : Request} {row : schema.Row .enrollment}

theorem handle_transaction {statements : Transaction}
    (h : around.fails (.transaction statements) = none) :
    (handle around s (.transaction statements)).2.tables =
      match statements.runAlone around.toGenerated s.tables with
      | (.ok (), tables) => tables
      | (.error _, _) => s.tables := by
  have hexception : around.exception (.transaction statements) = none := h
  unfold handle respond
  rw [hexception]
  dsimp only
  rcases statements.runAlone around.toGenerated s.tables with ⟨x | _, tables⟩ <;> rfl

/-- What a promotion makes of the enrollments. -/
theorem handle_promotion {next : schema.Row .waitlistEntry} {courseId : String}
    (h : around.fails (.transaction (promotion next courseId)) = none) :
    (Enrolled s next.data.userId courseId →
        (handle around s (.transaction (promotion next courseId))).2.tables .enrollment =
          s.tables .enrollment) ∧
      (¬ Enrolled s next.data.userId courseId →
        (handle around s (.transaction (promotion next courseId))).2.tables .enrollment =
          match (Schema.insert around.toGenerated (s.tables .enrollment)
            (promoted next.data.userId courseId)).1 with
          | some row => (s.tables .enrollment).save row
          | none => s.tables .enrollment) := by
  rw [handle_transaction h]
  constructor
  · intro henrolled
    obtain ⟨tables, hrun, hsame⟩ := run_advance courseId next around.toGenerated s.tables
    rw [run_promotion_enrolled henrolled, hrun]
    exact hsame
  · intro hnot
    rw [run_promotion_new hnot, insert_promoted hnot]
    cases (s.tables .enrollment).get
        (around.key .enrollment (promoted next.data.userId courseId)) with
    | some old => rfl
    | none =>
      dsimp only
      obtain ⟨tables, hrun, hsame⟩ := run_advance courseId next around.toGenerated
        (Function.update s.tables .enrollment ((s.tables .enrollment).save
          (Schema.inserted around.toGenerated (promoted next.data.userId courseId))))
      rw [hrun]
      exact hsame.trans (Function.update_self _ _ _)

theorem Writes.rows (h : Writes around s q row) :
    (handle around s q).2.tables .enrollment = (s.tables .enrollment).save row := by
  cases h with
  | insert succeeds written => rw [handle_insert succeeds, insert_rows, written]
  | save succeeds written => rw [handle_save succeeds, save_rows, written]
  | promotion succeeds notEnrolled written =>
    rw [(handle_promotion succeeds).2 notEnrolled, written]

variable (around s) in
/-- A request that writes no enrollment adds none. -/
theorem rows_or_writes (hq : Confined q) :
    (∃ row, Writes around s q row) ∨
      ∀ row ∈ (handle around s q).2.tables .enrollment, row ∈ s.tables .enrollment := by
  have hspares (h : q.Spares .enrollment) :
      ∀ row ∈ (handle around s q).2.tables .enrollment, row ∈ s.tables .enrollment := by
    rw [handle_spares h]
    exact fun row hrow => hrow
  have hfailing {x : HttpException} (h : around.exception q = some x) :
      ∀ row ∈ (handle around s q).2.tables .enrollment, row ∈ s.tables .enrollment := by
    rw [handle_failing h]
    exact fun row hrow => hrow
  cases q with
  | transaction statements =>
    obtain ⟨next, courseId, rfl⟩ := hq
    cases hfails : around.fails (.transaction (promotion next courseId)) with
    | some x => exact .inr (hfailing hfails)
    | none =>
      by_cases henrolled : Enrolled s next.data.userId courseId
      · rw [(handle_promotion hfails).1 henrolled]
        exact .inr fun row hrow => hrow
      cases hwritten : (Schema.insert around.toGenerated (s.tables .enrollment)
          (promoted next.data.userId courseId)).1 with
      | some row => exact .inl ⟨row, .promotion hfails henrolled hwritten⟩
      | none =>
        rw [(handle_promotion hfails).2 henrolled, hwritten]
        exact .inr fun row hrow => hrow
  | query query =>
    by_cases htable : query.writes = some .enrollment
    · cases hfails : around.fails (.query query) with
      | some x => exact .inr (hfailing hfails)
      | none =>
        cases query with
        | findOne t condition => cases htable
        | find t condition => cases htable
        | insert t data =>
          cases htable
          cases hwritten : (Schema.insert around.toGenerated (s.tables .enrollment) data).1 with
          | some row => exact .inl ⟨row, .insert hfails hwritten⟩
          | none =>
            rw [handle_insert hfails, insert_rows, hwritten]
            exact .inr fun row hrow => hrow
        | save t row =>
          cases htable
          cases hwritten : (Schema.save around.toGenerated (s.tables .enrollment) row).1 with
          | some row' => exact .inl ⟨row', .save hfails hwritten⟩
          | none =>
            rw [handle_save hfails, save_rows, hwritten]
            exact .inr fun row hrow => hrow
        | update t condition f =>
          cases htable
          exact absurd rfl (hq.2 condition f)
        | remove t row =>
          cases htable
          exact .inr fun row hrow => mem_handle_remove hrow
    · exact .inr (hspares htable)
  | _ => exact .inr (hspares trivial)

theorem promotion_spares_courses {next : schema.Row .waitlistEntry} {courseId : String} :
    (promotion next courseId).Only fun q : Query schema => q.writes ≠ some .course := by
  have hadvance : (advance next courseId).Only fun q : Query schema => q.writes ≠ some .course :=
    ⟨nofun, fun _ => ⟨nofun, fun _ => trivial⟩⟩
  refine Process.only_bind ⟨nofun, fun _ => trivial⟩ fun existing => ?_
  split
  · exact hadvance
  · refine Process.only_bind ⟨nofun, fun _ => trivial⟩ fun enrollment => ?_
    exact Process.only_bind (Process.only_ofExcept _) fun _ => hadvance

/-- No course is written. -/
theorem maxEnrollment_handle (hq : Confined q) (courseId : String) :
    maxEnrollment (handle around s q).2 courseId = maxEnrollment s courseId := by
  have hcourses : (handle around s q).2.tables .course = s.tables .course := by
    cases q with
    | transaction statements =>
      obtain ⟨next, courseId, rfl⟩ := hq
      exact handle_transaction_spares promotion_spares_courses
    | query query => exact handle_spares hq.1
    | _ => exact handle_spares trivial
  unfold maxEnrollment
  rw [hcourses]

theorem confined_of_writesOnly {t : Entity} (h : q.WritesOnly t) (hcourse : t ≠ .course)
    (henrollment : t ≠ .enrollment) : Confined q := by
  cases q with
  | query q =>
    refine ⟨fun hwrites => hcourse (h _ hwrites).symm, fun condition f hupdate => ?_⟩
    subst hupdate
    exact henrollment (h _ rfl).symm
  | transaction statements => exact h.elim
  | _ => trivial

theorem confined_of_reads (h : q.Reads) : Confined q :=
  confined_of_writesOnly (h.writesOnly .waitlistEntry) nofun nofun

theorem enroll_confined {userId courseId : String} {adminOverride : Bool} :
    (enroll userId courseId adminOverride).Only Confined := by
  have hinsert (data : Enrollment) : (insert .enrollment data).Only Confined :=
    Process.only_bind (only_request ⟨nofun, nofun⟩) fun _ => Process.only_ofExcept _
  have hsave (row : schema.Row .enrollment) : (save .enrollment row).Only Confined :=
    Process.only_bind (only_request ⟨nofun, nofun⟩) fun _ => Process.only_ofExcept _
  have hrollBack {A : Type} {row : schema.Row .enrollment} (x : HttpException) :
      (rollBack row x : Method A).Only Confined :=
    Process.only_bind (Process.only_tryCatch (only_request ⟨nofun, nofun⟩) fun _ => trivial)
      fun _ => trivial
  refine Process.only_bind (newEnrollment_only_reads.mono fun _ => confined_of_reads) fun data => ?_
  refine Process.only_bind (hinsert data) fun row => ?_
  refine Process.only_bind ?_ fun row => ?_
  · refine Process.only_bind (Process.only_tryCatch (only_request trivial) hrollBack) fun hash => ?_
    exact Process.only_tryCatch (hsave _) hrollBack
  · refine Process.only_bind ?_ fun _ => trivial
    exact Process.only_bind (only_request trivial) fun _ => only_request trivial

theorem promoteNext_confined {courseId : String} : (promoteNext courseId).Only Confined := by
  refine Process.only_bind (only_request ⟨nofun, nofun⟩) fun course => ?_
  split
  · refine Process.only_bind (Process.only_bind (only_request ⟨nofun, nofun⟩) fun _ => trivial)
      fun currentCount => ?_
    split
    · trivial
    refine Process.only_bind (only_request trivial) fun next => ?_
    split
    · trivial
    refine Process.only_bind (only_request ⟨_, _, rfl⟩) fun result => ?_
    refine Process.only_bind (Process.only_ofExcept _) fun _ => ?_
    exact Process.only_bind (only_request trivial) fun _ => fun _ => only_request trivial
  · trivial

theorem method_confined (call : Call) : call.method.Only Confined := by
  cases call with
  | enroll userId courseId adminOverride =>
    exact Process.only_bind enroll_confined fun _ => trivial
  | unenroll userId courseId =>
    refine Process.only_bind (only_request ⟨nofun, nofun⟩) fun enrollment => ?_
    split
    · trivial
    · exact Process.only_bind (only_request ⟨nofun, nofun⟩) fun _ => only_request trivial
  | join userId courseId =>
    refine Process.only_bind (join_writesOnly.mono fun _ h => ?_) fun _ => trivial
    exact confined_of_writesOnly h nofun nofun
  | leave userId courseId =>
    exact leave_writesOnly.mono fun _ h => confined_of_writesOnly h nofun nofun
  | promoteNext courseId => exact promoteNext_confined

end Requests

/-! ## Steps -/

section Steps

variable {R : Type} [DecidableEq R]

/-- A user whom a request of `enroll` gives a seat passes no other who waits. -/
def KeepsTurn (pool pool' : CallPool Unit Call R) (courseId : String) (i : CallEvent Call R) :
    Prop :=
  ∀ r around caller enrolledIn adminOverride q userId,
    pool.performs i = some (r, around, .enroll caller enrolledIn adminOverride, q) →
      ¬ Enrolled pool.shared userId courseId → Enrolled pool'.shared userId courseId →
        ¬ OthersWait pool.shared userId courseId

/-- A row of the course that is written finds its place. -/
structure Admits (pool : CallPool Unit Call R) (courseId : String) (i : CallEvent Call R) :
    Prop where
  /-- If it is no row in place of another of the course, the limit is not reached. -/
  vacant : ∀ r around call q row, pool.performs i = some (r, around, call, q) →
    Writes around pool.shared q row → row.data.courseId = courseId →
      (∀ old ∈ pool.shared.tables .enrollment, old.id = row.id → old.data.courseId ≠ courseId) →
        ∀ max, maxEnrollment pool.shared courseId = some max → seats pool.shared courseId < max
  /-- If `enroll` writes it for a user who is not enrolled, nobody else waits. -/
  inTurn : ∀ r around caller enrolledIn adminOverride q row,
    pool.performs i = some (r, around, .enroll caller enrolledIn adminOverride, q) →
      Writes around pool.shared q row → row.data.courseId = courseId →
        ¬ Enrolled pool.shared row.data.userId courseId →
          ¬ OthersWait pool.shared row.data.userId courseId

variable {s₀ : State} {past : List (CallEvent Call R)} {i : CallEvent Call R} {courseId : String}

/-- What a call asks for is confined. -/
theorem confined_of_performs {r : R} {around : Surroundings} {call : Call} {q : Request}
    (h : (reached Call.method s₀ past).performs i = some (r, around, call, q)) : Confined q :=
  System.only_of_performs (fun _ => Confined) method_confined h

/-- The limit of a course stays what it was. -/
theorem maxEnrollment_reached :
    maxEnrollment (reached Call.method s₀ past).shared courseId = maxEnrollment s₀ courseId := by
  induction past with
  | nil => rfl
  | cons i past ih =>
    cases hperforms : (reached Call.method s₀ past).performs i with
    | none => rw [shared_of_idle hperforms, ih]
    | some moved =>
      obtain ⟨r, around, call, q⟩ := moved
      have hconfined := confined_of_performs hperforms
      rw [shared_of_performs hperforms, maxEnrollment_handle hconfined, ih]

theorem within_and_keepsTurn_iff
    (hwithin : WithinCapacity (reached Call.method s₀ past).shared courseId) :
    WithinCapacity (reached Call.method s₀ (i :: past)).shared courseId ∧
        KeepsTurn (reached Call.method s₀ past) (reached Call.method s₀ (i :: past)) courseId i ↔
      Admits (reached Call.method s₀ past) courseId i := by
  have hlimit : maxEnrollment (reached Call.method s₀ (i :: past)).shared courseId =
      maxEnrollment (reached Call.method s₀ past).shared courseId :=
    maxEnrollment_reached.trans maxEnrollment_reached.symm
  constructor
  · rintro ⟨hwithin', hturn⟩
    constructor
    · intro r around call q row hperforms hwrites hcourse hnew max hmax
      have hrows := hwrites.rows
      rw [← shared_of_performs hperforms] at hrows
      have hseats := hwithin' max (hlimit.trans hmax)
      rw [seats_save_new hrows hcourse hnew] at hseats
      exact hseats
    · intro r around caller enrolledIn adminOverride q row hperforms hwrites hcourse hnot
      have hrows := hwrites.rows
      rw [← shared_of_performs hperforms] at hrows
      exact hturn r around caller enrolledIn adminOverride q _ hperforms hnot
        ((enrolled_save hrows hnot).mpr ⟨rfl, hcourse⟩)
  · intro hadmits
    cases hperforms : (reached Call.method s₀ past).performs i with
    | none =>
      have hsame := shared_of_idle hperforms
      refine ⟨?_, fun r around caller enrolledIn adminOverride q userId h => ?_⟩
      · rw [hsame]
        exact hwithin
      · rw [hperforms] at h
        cases h
    | some moved =>
      obtain ⟨r, around, call, q⟩ := moved
      have hconfined := confined_of_performs hperforms
      have hshared := shared_of_performs hperforms
      rcases rows_or_writes around (reached Call.method s₀ past).shared hconfined with
        ⟨row, hwrites⟩ | hkept
      · have hrows := hwrites.rows
        rw [← hshared] at hrows
        refine ⟨fun max hmax => ?_, ?_⟩
        · rw [hlimit] at hmax
          by_cases hnew : row.data.courseId = courseId ∧
            ∀ old ∈ (reached Call.method s₀ past).shared.tables .enrollment,
              old.id = row.id → old.data.courseId ≠ courseId
          · rw [seats_save_new hrows hnew.1 hnew.2]
            exact hadmits.vacant r around call q row hperforms hwrites hnew.1 hnew.2 max hmax
          · refine (seats_save_le hrows fun hcourse => ?_).trans (hwithin max hmax)
            by_contra hnone
            refine hnew ⟨hcourse, fun old hold hkey hsame => hnone ⟨old, hold, hkey, hsame⟩⟩
        · intro r' around' caller enrolledIn adminOverride q' userId hperforms' hnot henrolled
          rw [hperforms] at hperforms'
          cases hperforms'
          obtain ⟨rfl, hcourse⟩ := (enrolled_save hrows hnot).mp henrolled
          exact hadmits.inTurn _ _ _ _ _ _ row hperforms hwrites hcourse hnot
      · rw [← hshared] at hkept
        refine ⟨fun max hmax => ?_, ?_⟩
        · rw [hlimit] at hmax
          exact (seats_le hkept).trans (hwithin max hmax)
        · intro r' around' caller enrolledIn adminOverride q' userId _ hnot henrolled
          obtain ⟨row, hrow, huser⟩ := henrolled
          exact absurd ⟨row, hkept row hrow, huser⟩ hnot

end Steps

/-! ## Runs -/

section Runs

variable {R : Type} [DecidableEq R] {s₀ : State} {courseId : String}

/-- At the end of the run the limit is kept, and no `enroll` of it has passed those who wait. -/
structure Respected (s₀ : State) (courseId : String) (past : List (CallEvent Call R)) : Prop where
  within : WithinCapacity (reached Call.method s₀ past).shared courseId
  inTurn : Guarded (fun earlier i => KeepsTurn (reached Call.method s₀ earlier)
    (reached Call.method s₀ (i :: earlier)) courseId i) past

/-- The capacity of a course is respected at every point of a run exactly when every row of the
course that is written finds its place. -/
theorem capacity_respected_iff (hstart : WithinCapacity s₀ courseId)
    (past : List (CallEvent Call R)) :
    (∀ earlier, earlier <:+ past → Respected s₀ courseId earlier) ↔
      Guarded (fun earlier i => Admits (reached Call.method s₀ earlier) courseId i) past := by
  refine throughout_iff_guarded ⟨hstart, trivial⟩ past fun earlier i _ hearlier => ?_
  have hstep := within_and_keepsTurn_iff (i := i) hearlier.within
  constructor
  · exact fun h => hstep.mp ⟨h.within, h.inTurn.1⟩
  · intro h
    obtain ⟨hwithin, hturn⟩ := hstep.mpr h
    exact ⟨hwithin, hturn, hearlier.inTurn⟩

/-! ## One seat for two -/

/-- The events of a call that is served alone, newest first. -/
def alone (r : Nat) (call : Call) (requests : Nat) : List (CallEvent Call Nat) :=
  List.replicate requests (.resume r exampleKeys) ++ [.call r exampleKeys call]

/-- Two users enroll in a course with one place. -/
def exampleEnrollments : List (CallEvent Call Nat) :=
  alone 2 (.enroll "u2" "c1" false) 8 ++ alone 1 (.enroll "u1" "c1" false) 8

theorem exampleCourses_withinCapacity : WithinCapacity exampleCourses "c1" :=
  fun max _ => Nat.zero_le max

theorem capacity_respected_iff_example :
    (∀ earlier, earlier <:+ exampleEnrollments → Respected exampleCourses "c1" earlier) ↔
      Guarded (fun earlier i => Admits (reached Call.method exampleCourses earlier) "c1" i)
        exampleEnrollments :=
  capacity_respected_iff exampleCourses_withinCapacity exampleEnrollments

theorem enrolled_beyond_capacity :
    ¬ Respected exampleCourses "c1" exampleEnrollments := by
  intro h
  have hone : seats (reached Call.method exampleCourses exampleEnrollments).shared "c1" ≤ 1 :=
    h.within 1 (by decide +kernel)
  have htwo : seats (reached Call.method exampleCourses exampleEnrollments).shared "c1" = 2 := by
    decide +kernel
  omega

end Runs

end Scoopdope.Waitlist
