import Mathlib.Data.List.Sort
import Scoopdope.Learning.Requests

/-!
# Enrollments: the service

`EnrollmentsService` (`enrollments/enrollments.service.ts`), with what it calls of
`PrerequisitesService` and `CourseVersioningService` (`courses/`). Counters and logs are left out.
-/

namespace Scoopdope.Enrollments

open Async Database Server Learning

/-! ## PrerequisitesService -/

/-- The set `completedCourseIds`. -/
def completedCourseIds (enrollments : List (schema.Row .enrollment)) : List String :=
  (enrollments.filter fun e => e.data.completedAt.isSome).map fun e => e.data.courseId

/-- The prerequisites that are not completed. -/
def missing (prereqs : List (schema.Row .coursePrerequisite))
    (enrollments : List (schema.Row .enrollment)) : List String :=
  (prereqs.filter fun p => !(completedCourseIds enrollments).contains p.data.prerequisiteId).map
    fun p => p.data.prerequisiteId

structure PrerequisiteCheck where
  satisfied : Bool
  missing : List String

def validatePrerequisites (userId courseId : String) (adminOverride : Bool) :
    Method PrerequisiteCheck :=
  if adminOverride then pure { satisfied := true, missing := [] }
  else do
    let prereqs ← find .coursePrerequisite courseId
    if prereqs.isEmpty then pure { satisfied := true, missing := [] }
    else do
      let completedEnrollments ← find .enrollment (.user userId)
      let missing := missing prereqs completedEnrollments
      pure { satisfied := missing.isEmpty, missing }

def enforcePrerequisites (userId courseId : String) (adminOverride : Bool) : Method Unit := do
  let check ← validatePrerequisites userId courseId adminOverride
  if check.satisfied then pure ()
  else .fail (.forbidden
    ("Prerequisites not completed. Missing course IDs: " ++ ", ".intercalate check.missing))

/-! ## CourseVersioningService -/

/-- `order: { versionNumber: 'DESC' }`. -/
def newestFirst (versions : List (schema.Row .courseVersion)) : List (schema.Row .courseVersion) :=
  versions.insertionSort fun a b => b.data.versionNumber ≤ a.data.versionNumber

def listVersions (courseId : String) : Method (List (schema.Row .courseVersion)) := do
  let versions ← find .courseVersion courseId
  pure (newestFirst versions)

/-! ## EnrollmentsService -/

/-- The enrollment that `enroll` creates, before its first `save`. -/
def newEnrollment (userId courseId : String) (adminOverride : Bool) : Method Enrollment := do
  let existing ← findOne .enrollment (.pair userId courseId)
  if existing.isSome then .fail (.conflict "Already enrolled in this course")
  else do
    enforcePrerequisites userId courseId adminOverride
    let versions ← listVersions courseId
    let latestVersion := versions.head?
    pure
      { userId, courseId, completedAt := none
        enrolledVersionNumber := latestVersion.map fun version => version.data.versionNumber
        transactionHash := none }

/-- The block of the `catch`. A failure of `remove` is caught too. -/
def rollBack {A : Type} (enrollment : schema.Row .enrollment) (_err : HttpException) :
    Method A := do
  (remove .enrollment enrollment).tryCatch fun _ => pure ()
  .fail (.internal "Failed to record enrollment on the Stellar network. Please try again.")

/-- The row with its hash. -/
def anchored (enrollment : schema.Row .enrollment) (transactionHash : String) :
    schema.Row .enrollment :=
  { enrollment with data := { enrollment.data with transactionHash := some transactionHash } }

/-- The `try` statement: the call of the chain and the second `save`. -/
def anchor (enrollment : schema.Row .enrollment) : Method (schema.Row .enrollment) := do
  let transactionHash ←
    (stellar (.recordEnrollment enrollment.data.userId enrollment.data.courseId)).tryCatch
      (rollBack enrollment)
  let enrollment := anchored enrollment transactionHash
  (save .enrollment enrollment).tryCatch (rollBack enrollment)

/-- The events of an enrollment. -/
def announce (enrollment : schema.Row .enrollment) : Method Unit := do
  emit (.enrollmentCreated enrollment.id enrollment.data.userId enrollment.data.courseId
    enrollment.createdAt none)
  emit (.enrollmentConfirmed enrollment.id enrollment.data.userId enrollment.data.courseId
    (enrollment.data.transactionHash.getD "") enrollment.createdAt)

def enroll (userId courseId : String) (adminOverride : Bool) :
    Method (schema.Row .enrollment) := do
  let data ← newEnrollment userId courseId adminOverride
  let enrollment ← insert .enrollment data
  let enrollment ← anchor enrollment
  announce enrollment
  pure enrollment

def unenroll (userId courseId : String) : Method Unit := do
  let enrollment ← findOne .enrollment (.pair userId courseId)
  match enrollment with
  | none => .fail (.notFound "Enrollment not found")
  | some enrollment =>
    remove .enrollment enrollment
    emit (.enrollmentRemoved userId courseId)

/-- `order: { enrolledAt: 'DESC' }`. -/
def findByUser (userId : String) : Method (List (schema.Row .enrollment)) := do
  let enrollments ← find .enrollment (.user userId)
  pure (enrollments.insertionSort fun a b => b.createdAt ≤ a.createdAt)

end Scoopdope.Enrollments
