import Scoopdope.Database.Schema

/-!
# Learning: the entities

The tables of courses, enrollments and what students earn (`courses/`, `enrollments/`,
`waitlist/`, `progress/`, `credentials/`, `certificates/`, `bundles/`, `kyc/`), with the columns
that the services modelled here read or write, the conditions they look rows up by and the unique
constraints. Column dates other than those of insertion and of the last write are milliseconds; a
column that may be NULL has an `Option` type.
-/

namespace Scoopdope.Learning

open Database

inductive Entity
  | course
  | coursePrerequisite
  | courseVersion
  | enrollment
  | waitlistEntry
  | progress
  | credential
  | certificate
  | bundle
  | bundleEnrollment
  | review
  | kycCustomer
deriving DecidableEq

/-! ## Columns -/

inductive CourseStatus
  | draft
  | scheduled
  | published
deriving DecidableEq

structure Course where
  title : String
  status : CourseStatus
  isPublished : Bool
  isDeleted : Bool
  requiresKyc : Bool
  skills : Option (List String)
  maxEnrollment : Option Nat
deriving DecidableEq

structure CoursePrerequisite where
  courseId : String
  prerequisiteId : String
deriving DecidableEq

structure CourseVersion where
  courseId : String
  versionNumber : Nat
deriving DecidableEq

/-- `enrolledAt` is the date of insertion. -/
structure Enrollment where
  userId : String
  courseId : String
  completedAt : Option Int
  enrolledVersionNumber : Option Nat
  transactionHash : Option String
deriving DecidableEq

/-- `joinedAt` is the date of insertion. -/
structure WaitlistEntry where
  userId : String
  courseId : String
  position : Int
deriving DecidableEq

structure Progress where
  userId : String
  courseId : String
  lessonId : Option String
  progressPct : Nat
  completedAt : Option Int
  txHash : Option String
deriving DecidableEq

/-- Of a course or of a bundle. `issuedAt` is the date of insertion. -/
structure Credential where
  userId : String
  courseId : Option String
  bundleId : Option String
  txHash : Option String
  stellarPublicKey : Option String
  grade : Option String
deriving DecidableEq

inductive CertificateStatus
  | pending
  | minted
  | verified
deriving DecidableEq

/-- `issuedAt` is the date of insertion. -/
structure Certificate where
  userId : String
  courseId : String
  certificateHash : String
  stellarTransactionId : Option String
  status : CertificateStatus
deriving DecidableEq

/-- A bundle, by the courses in it. -/
structure Bundle where
  courseIds : List String
deriving DecidableEq

structure BundleEnrollment where
  userId : String
  bundleId : String
  completedAt : Option Int
deriving DecidableEq

structure Review where
  userId : String
  courseId : String
  rating : Nat
  comment : Option String
deriving DecidableEq

inductive KycStatus
  | none
  | pending
  | approved
  | rejected
deriving DecidableEq

structure KycCustomer where
  stellarPublicKey : String
  status : KycStatus
deriving DecidableEq

abbrev Entity.Columns : Entity → Type
  | .course => Course
  | .coursePrerequisite => CoursePrerequisite
  | .courseVersion => CourseVersion
  | .enrollment => Enrollment
  | .waitlistEntry => WaitlistEntry
  | .progress => Progress
  | .credential => Credential
  | .certificate => Certificate
  | .bundle => Bundle
  | .bundleEnrollment => BundleEnrollment
  | .review => Review
  | .kycCustomer => KycCustomer

/-! ## Conditions -/

inductive CourseWhere
  | id (id : String)
  /-- `{ id, isDeleted: false }`. -/
  | active (id : String)
deriving DecidableEq

/-- The rows of a user, of a course, or of both. -/
inductive PairWhere
  | user (userId : String)
  | course (courseId : String)
  | pair (userId courseId : String)
  /-- `{ userId, courseId, completedAt: Not(IsNull()) }`. -/
  | completed (userId courseId : String)
  /-- `{ userId, completedAt: Not(IsNull()) }`. -/
  | completedOf (userId : String)
deriving DecidableEq

inductive WaitlistWhere
  | pair (userId courseId : String)
  | course (courseId : String)
  /-- `{ courseId, position }`. -/
  | atPosition (courseId : String) (position : Int)
  /-- `courseId = :courseId AND position > :pos`. -/
  | after (courseId : String) (pos : Int)
deriving DecidableEq

inductive CredentialWhere
  | course (userId courseId : String)
  | bundle (userId bundleId : String)
deriving DecidableEq

inductive BundleEnrollmentWhere
  /-- `{ userId, completedAt: IsNull() }`. -/
  | unfinished (userId : String)
deriving DecidableEq

abbrev Entity.Where : Entity → Type
  | .course => CourseWhere
  | .coursePrerequisite => String
  | .courseVersion => String
  | .enrollment => PairWhere
  | .waitlistEntry => WaitlistWhere
  | .progress => PairWhere
  | .credential => CredentialWhere
  | .certificate => PairWhere
  | .bundle => String
  | .bundleEnrollment => BundleEnrollmentWhere
  | .review => PairWhere
  | .kycCustomer => String

/-- The condition on a row with these columns. -/
def PairWhere.holds (userId courseId : String) (completedAt : Option Int) : PairWhere → Bool
  | .user u => userId = u
  | .course c => courseId = c
  | .pair u c => userId = u && courseId = c
  | .completed u c => userId = u && courseId = c && completedAt.isSome
  | .completedOf u => userId = u && completedAt.isSome

def Entity.holds : (t : Entity) → t.Where → Stored t.Columns → Bool
  | .course, .id id, row => row.id = id
  | .course, .active id, row => row.id = id && !row.data.isDeleted
  | .coursePrerequisite, courseId, row => row.data.courseId = courseId
  | .courseVersion, courseId, row => row.data.courseId = courseId
  | .enrollment, condition, row =>
    condition.holds row.data.userId row.data.courseId row.data.completedAt
  | .waitlistEntry, .pair u c, row => row.data.userId = u && row.data.courseId = c
  | .waitlistEntry, .course c, row => row.data.courseId = c
  | .waitlistEntry, .atPosition c pos, row => row.data.courseId = c && row.data.position = pos
  | .waitlistEntry, .after c pos, row => row.data.courseId = c && pos < row.data.position
  | .progress, condition, row =>
    condition.holds row.data.userId row.data.courseId row.data.completedAt
  | .credential, .course u c, row => row.data.userId = u && row.data.courseId = some c
  | .credential, .bundle u b, row => row.data.userId = u && row.data.bundleId = some b
  | .certificate, condition, row => condition.holds row.data.userId row.data.courseId none
  | .bundle, id, row => row.id = id
  | .bundleEnrollment, .unfinished u, row => row.data.userId = u && row.data.completedAt.isNone
  | .review, condition, row => condition.holds row.data.userId row.data.courseId none
  | .kycCustomer, key, row => row.data.stellarPublicKey = key

/-! ## Unique constraints -/

/-- `@Unique(['userId', 'courseId'])` and the like. Progress, credentials and certificates have
no such constraint. -/
def Entity.conflict : (t : Entity) → t.Columns → t.Columns → Bool
  | .coursePrerequisite, a, b => a.courseId = b.courseId && a.prerequisiteId = b.prerequisiteId
  | .enrollment, a, b => a.userId = b.userId && a.courseId = b.courseId
  | .waitlistEntry, a, b => a.userId = b.userId && a.courseId = b.courseId
  | .bundleEnrollment, a, b => a.userId = b.userId && a.bundleId = b.bundleId
  | .review, a, b => a.userId = b.userId && a.courseId = b.courseId
  | .kycCustomer, a, b => a.stellarPublicKey = b.stellarPublicKey
  | _, _, _ => false

abbrev schema : Schema where
  Entity := Entity
  Columns := Entity.Columns
  Where := Entity.Where
  holds := Entity.holds
  conflict := Entity.conflict

end Scoopdope.Learning
