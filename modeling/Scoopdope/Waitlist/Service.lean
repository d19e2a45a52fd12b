import Scoopdope.Enrollments.Admission
import Scoopdope.Learning.Requests

/-!
# The waitlist: the service

`WaitlistService` (`waitlist/waitlist.service.ts`), without the methods that only list. A `count`
is the number of the rows that are found, and a maximum the greatest of their positions.
-/

namespace Scoopdope.Waitlist

open Async Database Server Users Learning

def getEnrollmentCount (courseId : String) : Method Nat := do
  let enrollments ← find .enrollment (.course courseId)
  pure enrollments.length

/-- The course's `maxEnrollment`, if it is truthy. -/
def limit (course : Course) : Option Nat := course.maxEnrollment.filter fun n => n ≠ 0

def isFull (courseId : String) : Method Bool := do
  let course ← findOne .course (.id courseId)
  match course.bind fun course => limit course.data with
  | none => pure false
  | some maxEnrollment =>
    let count ← getEnrollmentCount courseId
    pure (maxEnrollment ≤ count)

/-- `MAX(w.position)`. -/
def maxPos (entries : List (schema.Row .waitlistEntry)) : Option Int :=
  (entries.map fun e => e.data.position).max?

/-- `userEmail` and `userName` for a user who may be missing. -/
def addressee (courseTitle : String) (user : Option User) : Addressee where
  courseTitle := courseTitle
  userEmail := (user.map fun user => user .email).getD ""
  userName := ((user.bind fun user => user .username).orElse
    fun _ => user.map fun user => user .email).getD "Student"

def join (userId courseId : String) : Method (schema.Row .waitlistEntry) := do
  let course ← findOne .course (.id courseId)
  match course with
  | none => .fail (.notFound "Course not found")
  | some course =>
    if !course.data.isPublished && course.data.status ≠ .published then
      .fail (.badRequest "Course is not available for enrollment or waitlisting")
    else do
      let enrolled ← findOne .enrollment (.pair userId courseId)
      if enrolled.isSome then .fail (.conflict "Already enrolled in this course")
      else do
        let existing ← findOne .waitlistEntry (.pair userId courseId)
        if existing.isSome then .fail (.conflict "Already on the waitlist for this course")
        else do
          let full ← isFull courseId
          if !full then
            .fail (.badRequest "Course has available spots — please enroll directly")
          else do
            let entries ← find .waitlistEntry (.course courseId)
            let position := (maxPos entries).getD 0 + 1
            let entry ← insert .waitlistEntry { userId, courseId, position }
            let user ← request (.findUser (.id userId))
            emit (.waitlistJoined userId courseId position (addressee course.data.title user))
            pure entry

/-- `position - 1`. -/
def moveUp (entry : WaitlistEntry) : WaitlistEntry := { entry with position := entry.position - 1 }

def leave (userId courseId : String) : Method Unit := do
  let entry ← findOne .waitlistEntry (.pair userId courseId)
  match entry with
  | none => .fail (.notFound "Not on the waitlist for this course")
  | some entry =>
    let removedPosition := entry.data.position
    remove .waitlistEntry entry
    update .waitlistEntry (.after courseId removedPosition) moveUp

def adminRemove (courseId userId : String) : Method Unit := leave userId courseId

/-- The enrollment that a promotion creates. -/
def promoted (userId courseId : String) : Enrollment :=
  { userId, courseId, completedAt := none, enrolledVersionNumber := none, transactionHash := none }

/-- The end of the transaction: the entry is removed and the others move up. -/
def advance (next : schema.Row .waitlistEntry) (courseId : String) : Transaction := do
  Process.perform (I := queryInterface schema) (.remove (S := schema) .waitlistEntry next)
  Process.perform (I := queryInterface schema)
    (.update (S := schema) .waitlistEntry (.course courseId) moveUp)

/-- The transaction. -/
def promotion (next : schema.Row .waitlistEntry) (courseId : String) : Transaction := do
  let existing ← Process.perform (I := queryInterface schema)
    (.findOne (S := schema) .enrollment (.pair next.data.userId courseId))
  if existing.isSome then advance next courseId
  else do
    let enrollment ← Process.perform (I := queryInterface schema)
      (.insert (S := schema) .enrollment (promoted next.data.userId courseId))
    Process.ofExcept (if enrollment.isSome then .ok () else .error duplicateKey)
    advance next courseId

/-- The events of a promotion. -/
def notify (userId courseId : String) (whom : Addressee) : Method Unit := do
  emit (.waitlistEnrolled userId courseId whom)
  let around ← Process.env
  emit (.enrollmentCreated "" userId courseId around.now (some whom))

def promoteNext (courseId : String) : Method Unit := do
  let course ← findOne .course (.id courseId)
  match course, course.bind fun course => limit course.data with
  | some course, some maxEnrollment =>
    let currentCount ← getEnrollmentCount courseId
    if maxEnrollment ≤ currentCount then pure ()
    else do
      let next ← request (.findFirstWaiting courseId)
      match next with
      | none => pure ()
      | some (next, user) =>
        let result ← request (.transaction (promotion next courseId))
        Process.ofExcept result
        notify next.data.userId courseId (addressee course.data.title user)
  | _, _ => pure ()

/-- On `enrollment.removed`. -/
def handleEnrollmentRemoved (courseId : String) : Method Unit := promoteNext courseId

end Scoopdope.Waitlist

/-!
## The waitlist: promotions

What `promoteNext` makes of the enrollments when nothing fails. `promoteNext_enrollments`: it
adds the row `promoted` of the first in the queue if the course has a place for them
(`Promotes`), and no row otherwise.
-/

namespace Scoopdope.Waitlist

open Async Database Server Learning Enrollments

/-- Nothing fails. -/
def succeeding (around : Surroundings) : Surroundings := { around with fails := fun _ => none }

variable {around : Surroundings} {s : State} {userId courseId : String}
  {next : schema.Row .waitlistEntry}

/-! ## The transaction -/

section Transaction

variable {g : Generated schema} {tables : schema.Tables}

variable (g next courseId tables) in
theorem run_advance :
    ∃ tables', (advance next courseId).runAlone g tables = (.ok (), tables') ∧
      tables' .enrollment = tables .enrollment := by
  have hother {q : Query schema} {tables : schema.Tables} (h : q.writes = some .waitlistEntry) :
      (Schema.query g tables q).2 .enrollment = tables .enrollment :=
    Schema.query_other (by rw [h]; exact nofun)
  exact ⟨_, rfl, (hother rfl).trans (hother rfl)⟩

theorem run_promotion_enrolled (h : Enrolled s next.data.userId courseId) :
    (promotion next courseId).runAlone g s.tables =
      (advance next courseId).runAlone g s.tables := by
  have hrun : (promotion next courseId).runAlone g s.tables =
    (if ((s.tables .enrollment).findOne
        (schema.holds .enrollment (.pair next.data.userId courseId))).isSome then _ else _ :
      Transaction).runAlone g s.tables := rfl
  rw [hrun, if_pos (findOne_enrollment_isSome.mpr h)]

theorem run_promotion_new (h : ¬ Enrolled s next.data.userId courseId) :
    (promotion next courseId).runAlone g s.tables =
      match Schema.insert g (s.tables .enrollment) (promoted next.data.userId courseId) with
      | (some _, rows) => (advance next courseId).runAlone g
          (Function.update s.tables .enrollment rows)
      | (none, rows) => (.error Users.duplicateKey, Function.update s.tables .enrollment rows) := by
  have hrun : (promotion next courseId).runAlone g s.tables =
    (if ((s.tables .enrollment).findOne
        (schema.holds .enrollment (.pair next.data.userId courseId))).isSome then _ else _ :
      Transaction).runAlone g s.tables := rfl
  rw [hrun, if_neg fun hold => h (findOne_enrollment_isSome.mp hold)]
  change Transaction.runAlone (Process.ofExcept (if (Schema.insert g (s.tables .enrollment)
      (promoted next.data.userId courseId)).1.isSome then .ok () else .error Users.duplicateKey) >>=
        fun _ => advance next courseId) g
      (Function.update s.tables .enrollment (Schema.insert g (s.tables .enrollment)
        (promoted next.data.userId courseId)).2) = _
  rcases Schema.insert g (s.tables .enrollment) (promoted next.data.userId courseId) with
    ⟨_ | row, rows⟩ <;> rfl

/-- The insertion goes through exactly when its key is new. -/
theorem insert_promoted (h : ¬ Enrolled s userId courseId) :
    Schema.insert g (s.tables .enrollment) (promoted userId courseId) =
      match (s.tables .enrollment).get (g.key .enrollment (promoted userId courseId)) with
      | none => (some (Schema.inserted g (promoted userId courseId)),
          (s.tables .enrollment).save (Schema.inserted g (promoted userId courseId)))
      | some _ => (none, s.tables .enrollment) := by
  have hconflicts : Schema.conflicts (s.tables .enrollment)
      (Schema.inserted g (promoted userId courseId)) = false :=
    not_conflicts fun other hother _ huser hcourse => h ⟨other, hother, huser, hcourse⟩
  unfold Schema.insert
  dsimp only
  rw [hconflicts, Bool.or_false]
  change (if ((s.tables .enrollment).get
    (g.key .enrollment (promoted userId courseId))).isSome then _ else _) = _
  cases (s.tables .enrollment).get (g.key .enrollment (promoted userId courseId)) <;> rfl

end Transaction

/-! ## The method -/

/-- The course has a limit and fewer enrollments, the row is the first in its queue, and its user
is not enrolled. -/
structure Promotes (around : Surroundings) (s : State) (courseId : String)
    (next : schema.Row .waitlistEntry) : Prop where
  vacant : ∃ course maxEnrollment,
    (s.tables .course).findOne (schema.holds .course (.id courseId)) = some course ∧
      limit course.data = some maxEnrollment ∧
      ((s.tables .enrollment).find (schema.holds .enrollment (.course courseId))).length <
        maxEnrollment
  first : (s.tables .waitlistEntry).findOne
    (schema.holds .waitlistEntry (.atPosition courseId 1)) = some next
  notEnrolled : ¬ Enrolled s next.data.userId courseId
  fresh : (s.tables .enrollment).get
    (around.key .enrollment (promoted next.data.userId courseId)) = none

/-- A request answers. -/
theorem run_succeeding (q : Request) :
    (request q).run handle (succeeding around) s =
      (.ok (respond (succeeding around) s q).1, (respond (succeeding around) s q).2) := by
  have hnone : (succeeding around).exception q = none := by cases q <;> rfl
  rw [run_request, hnone]

theorem run_findOne_succeeding (t : Entity) (condition : t.Where) :
    (findOne t condition).run handle (succeeding around) s =
      (.ok ((s.tables t).findOne (schema.holds t condition)), s) :=
  run_succeeding _

theorem run_findFirstWaiting :
    (request (.findFirstWaiting courseId)).run handle (succeeding around) s =
      (.ok (((s.tables .waitlistEntry).findOne
        (schema.holds .waitlistEntry (.atPosition courseId 1))).map
          fun row => (row, s.users.get row.data.userId)), s) :=
  run_succeeding _

theorem run_transaction (statements : Transaction) :
    (request (.transaction statements)).run handle (succeeding around) s =
      match statements.runAlone around.toGenerated s.tables with
      | (.ok (), tables) => (.ok (.ok ()), { s with tables })
      | (.error x, _) => (.ok (.error x), s) := by
  have hsame : (succeeding around).toGenerated = around.toGenerated := rfl
  rw [run_succeeding]
  unfold respond
  rw [hsame]
  dsimp only
  rcases statements.runAlone around.toGenerated s.tables with ⟨x | _, tables⟩ <;> rfl

theorem run_getEnrollmentCount :
    (getEnrollmentCount courseId).run handle (succeeding around) s =
      (.ok ((s.tables .enrollment).find (schema.holds .enrollment (.course courseId))).length,
        s) := by
  unfold getEnrollmentCount
  exact Process.run_bind_of_ok (run_succeeding _) _

/-- Events are no rows. -/
theorem run_notify {whom : Addressee} :
    ((notify userId courseId whom).run handle around s).2.tables = s.tables := by
  unfold notify
  rw [Process.run_bind_of_ok (run_emit _)]
  rfl

/-- The enrollments after a call. -/
def promotedRows (around : Surroundings) (s : State) (courseId : String) :
    schema.Rows .enrollment :=
  ((promoteNext courseId).run handle (succeeding around) s).2.tables .enrollment

/-- There is no place. -/
theorem promotedRows_full
    (h : ∀ course maxEnrollment,
      (s.tables .course).findOne (schema.holds .course (.id courseId)) = some course →
        limit course.data = some maxEnrollment → maxEnrollment ≤
          ((s.tables .enrollment).find (schema.holds .enrollment (.course courseId))).length) :
    promotedRows around s courseId = s.tables .enrollment := by
  unfold promotedRows promoteNext
  rw [Process.run_bind_of_ok (run_findOne_succeeding _ _)]
  cases hcourse : (s.tables .course).findOne (schema.holds .course (.id courseId)) with
  | none => rfl
  | some course =>
    rw [Option.bind_some]
    cases hlimit : limit course.data with
    | none => rfl
    | some maxEnrollment =>
      dsimp only
      rw [Process.run_bind_of_ok run_getEnrollmentCount, if_pos (h course _ hcourse hlimit)]
      rfl

/-- There is a place. -/
theorem promotedRows_vacant {course : schema.Row .course} {maxEnrollment : Nat}
    (hcourse : (s.tables .course).findOne (schema.holds .course (.id courseId)) = some course)
    (hlimit : limit course.data = some maxEnrollment)
    (hvacant : ((s.tables .enrollment).find (schema.holds .enrollment (.course courseId))).length <
      maxEnrollment) :
    promotedRows around s courseId =
      match (s.tables .waitlistEntry).findOne
        (schema.holds .waitlistEntry (.atPosition courseId 1)) with
      | none => s.tables .enrollment
      | some next =>
        match (promotion next courseId).runAlone around.toGenerated s.tables with
        | (.ok (), tables) => tables .enrollment
        | (.error _, _) => s.tables .enrollment := by
  unfold promotedRows promoteNext
  rw [Process.run_bind_of_ok (run_findOne_succeeding _ _)]
  rw [hcourse, Option.bind_some, hlimit]
  dsimp only
  rw [Process.run_bind_of_ok run_getEnrollmentCount, if_neg (Nat.not_le_of_lt hvacant),
    Process.run_bind_of_ok run_findFirstWaiting]
  cases (s.tables .waitlistEntry).findOne
    (schema.holds .waitlistEntry (.atPosition courseId 1)) with
  | none => rfl
  | some next =>
    dsimp only [Option.map_some]
    rw [Process.run_bind, run_transaction]
    rcases (promotion next courseId).runAlone around.toGenerated s.tables with ⟨x | _, tables⟩
    · rfl
    · exact congrFun run_notify .enrollment

theorem promoteNext_promotes (h : Promotes around s courseId next) :
    promotedRows around s courseId = (s.tables .enrollment).save
      (Schema.inserted around.toGenerated (promoted next.data.userId courseId)) := by
  obtain ⟨course, maxEnrollment, hcourse, hlimit, hvacant⟩ := h.vacant
  obtain ⟨tables, hadvance, hrows⟩ := run_advance courseId next around.toGenerated
    (Function.update s.tables .enrollment ((s.tables .enrollment).save
      (Schema.inserted around.toGenerated (promoted next.data.userId courseId))))
  rw [promotedRows_vacant hcourse hlimit hvacant, h.first]
  dsimp only
  rw [run_promotion_new h.notEnrolled, insert_promoted h.notEnrolled, h.fresh]
  dsimp only
  rw [hadvance]
  exact hrows.trans (Function.update_self _ _ _)

theorem promoteNext_idle (h : ∀ next, ¬ Promotes around s courseId next) :
    promotedRows around s courseId = s.tables .enrollment := by
  by_cases hvacant : ∃ course maxEnrollment,
    (s.tables .course).findOne (schema.holds .course (.id courseId)) = some course ∧
      limit course.data = some maxEnrollment ∧
      ((s.tables .enrollment).find (schema.holds .enrollment (.course courseId))).length <
        maxEnrollment
  · obtain ⟨course, maxEnrollment, hcourse, hlimit, hfree⟩ := hvacant
    rw [promotedRows_vacant hcourse hlimit hfree]
    cases hfirst : (s.tables .waitlistEntry).findOne
      (schema.holds .waitlistEntry (.atPosition courseId 1)) with
    | none => rfl
    | some next =>
      dsimp only
      -- A user who is enrolled already is moved on without a row.
      by_cases henrolled : Enrolled s next.data.userId courseId
      · obtain ⟨tables, hadvance, hrows⟩ := run_advance courseId next around.toGenerated
          s.tables
        rw [run_promotion_enrolled henrolled, hadvance]
        exact hrows
      · rw [run_promotion_new henrolled, insert_promoted henrolled]
        cases hkey : (s.tables .enrollment).get
          (around.key .enrollment (promoted next.data.userId courseId)) with
        | none =>
          exact absurd ⟨⟨course, maxEnrollment, hcourse, hlimit, hfree⟩, hfirst, henrolled, hkey⟩
            (h next)
        -- The transaction fails, and its tables are dropped.
        | some row => rfl
  · refine promotedRows_full fun course maxEnrollment hcourse hlimit => ?_
    by_contra hfree
    exact hvacant ⟨course, maxEnrollment, hcourse, hlimit, Nat.lt_of_not_le hfree⟩

/-! ## The other methods -/

theorem join_writesOnly : (join userId courseId).Only (Request.WritesOnly .waitlistEntry) := by
  have hfull : (isFull courseId).Only (Request.WritesOnly .waitlistEntry) := by
    refine Process.only_bind (only_request nofun) fun course => ?_
    split
    · trivial
    · refine Process.only_bind ?_ fun _ => trivial
      exact Process.only_bind (only_request nofun) fun _ => trivial
  refine Process.only_bind (only_request nofun) fun course => ?_
  split
  · trivial
  split
  · trivial
  refine Process.only_bind (only_request nofun) fun enrolled => ?_
  split
  · trivial
  refine Process.only_bind (only_request nofun) fun existing => ?_
  split
  · trivial
  refine Process.only_bind hfull fun full => ?_
  split
  · trivial
  refine Process.only_bind (only_request nofun) fun entries => ?_
  refine Process.only_bind (Process.only_bind (only_request fun _ h => (Option.some.inj h).symm)
    fun _ => Process.only_ofExcept _) fun entry => ?_
  refine Process.only_bind (only_request trivial) fun user => ?_
  exact Process.only_bind (only_request trivial) fun _ => trivial

theorem leave_writesOnly : (leave userId courseId).Only (Request.WritesOnly .waitlistEntry) := by
  refine Process.only_bind (only_request nofun) fun entry => ?_
  split
  · trivial
  · refine Process.only_bind (only_request fun _ h => (Option.some.inj h).symm) fun _ => ?_
    exact only_request fun _ h => (Option.some.inj h).symm

theorem join_spares : (join userId courseId).Only (Request.Spares .enrollment) :=
  join_writesOnly.mono fun _ h => h.spares nofun

theorem leave_spares : (leave userId courseId).Only (Request.Spares .enrollment) :=
  leave_writesOnly.mono fun _ h => h.spares nofun

end Scoopdope.Waitlist
