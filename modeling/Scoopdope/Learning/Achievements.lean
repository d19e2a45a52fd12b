import Scoopdope.Enrollments.Service
import Scoopdope.Learning.Requests

/-!
# Learning: what progress leads to

The services that a call of `record` reaches: streaks, certificates, credentials and bundles.
-/

/-! ## Streaks

`StreaksService` (`streaks/streaks.service.ts`). Dates are milliseconds, so the days of UTC are
numbered by a division. -/

namespace Scoopdope.Streaks

open Async Database Server Users Learning

/-- The number of the day in UTC. -/
def day (date : Int) : Int := date / 86400000

def isSameDay (d1 d2 : Int) : Bool := day d1 = day d2

def isYesterday (now last : Int) : Bool := day now - 1 = day last

/-- The days of a streak and their reward. -/
def milestones : List (Int × Nat) := [(7, 10), (30, 50), (100, 200)]

/-- A text that is truthy. -/
def truthy (text : Option String) : Option String := text.filter fun t => t ≠ ""

/-- A call of `mintReward` whose failure is only logged. -/
def tryReward (recipientPublicKey : String) (amount : Nat) : Method Unit :=
  Process.tryCatch (stellar (.mintReward recipientPublicKey amount) >>= fun _ => pure ())
    fun _ => pure ()

/-- On the first activity of a day. -/
def checkMilestones (user : User) : Method Unit :=
  match milestones.find? fun m => m.1 = user .currentStreak, truthy (user .stellarPublicKey) with
  | some (_, reward), some stellarPublicKey => tryReward stellarPublicKey reward
  | _, _ => pure ()

/-- `userRepo.save(user)`. -/
def saveUser (user : User) : Method User := do
  let written ← request (.saveUser user)
  Process.ofExcept (if written then .ok user else .error duplicateKey)

/-- The user after the first activity of a day. -/
def withStreak (user : User) (currentStreak now : Int) : User :=
  let data := (Patch.empty.set .currentStreak currentStreak).set .lastActivityAt (some now)
  if user .longestStreak < currentStreak then
    spread user (data.set .longestStreak currentStreak)
  else spread user data

/-- The user after an activity, and whether it was the first one of its day. -/
def visited (user : User) (now : Int) : User × Bool :=
  match user .lastActivityAt with
  | none => (withStreak user 1 now, true)
  | some lastActivity =>
    if isSameDay now lastActivity then
      (spread user (Patch.empty.set .lastActivityAt (some now)), false)
    else if isYesterday now lastActivity then
      (withStreak user (user .currentStreak + 1) now, true)
    else (withStreak user 1 now, true)

def recordActivity (userId : String) : Method User := do
  let user ← request (.findUser (.id userId))
  match user with
  | none => .fail (.internal "User not found")
  | some user =>
    let around ← Process.env
    let visit := visited user around.now
    let savedUser ← saveUser visit.1
    (if visit.2 then checkMilestones savedUser else pure ())
    pure savedUser

end Scoopdope.Streaks

/-! ## Certificates

`issueCertificate` and `handleProgressCompleted` of `CertificatesService`
(`certificates/certificates.service.ts`). The hash function is a parameter. -/

namespace Scoopdope.Certificates

open Async Database Server Learning

variable (sha256 : String → String)

def generateCertificateHash (userId courseId : String) : String :=
  sha256 (userId ++ ":" ++ courseId)

/-- The certificate as it is first saved. -/
def pendingCertificate (userId courseId : String) : Certificate where
  userId := userId
  courseId := courseId
  certificateHash := generateCertificateHash sha256 userId courseId
  stellarTransactionId := none
  status := .pending

/-- The row with its status. -/
def minted (certificate : schema.Row .certificate) (txHash : Option String) :
    schema.Row .certificate :=
  { certificate with
    data := { certificate.data with
      stellarTransactionId := txHash.or certificate.data.stellarTransactionId
      status := .minted } }

/-- The block of the `catch`. A failure of `remove` is caught too. -/
def rollBack {A : Type} (certificate : schema.Row .certificate) (_error : HttpException) :
    Method A := do
  (remove .certificate certificate).tryCatch fun _ => pure ()
  .fail (.internal "Failed to mint certificate on the Stellar network. Please try again.")

/-- The `try` statement. -/
def mint (certificate : schema.Row .certificate) (recipientPublicKey courseTitle : String) :
    Method (schema.Row .certificate) := do
  let txHash ←
    (stellar (.mintCertificateNFT recipientPublicKey certificate.data.certificateHash
      courseTitle)).tryCatch (rollBack certificate)
  let certificate := minted certificate (some txHash)
  (save .certificate certificate).tryCatch (rollBack certificate)

/-- From the first `save` on. -/
def settle (certificate : schema.Row .certificate) (user : Option Users.User)
    (course : Option Course) : Method (schema.Row .certificate) :=
  let courseTitle := (course.map fun c => c.title).getD certificate.data.courseId
  match Streaks.truthy (user.bind fun u => u .stellarPublicKey) with
  | none => save .certificate (minted certificate none)
  | some recipientPublicKey => mint certificate recipientPublicKey courseTitle

def issueCertificate (userId courseId : String) : Method (schema.Row .certificate) := do
  let enrollment ← request (.findCompletedEnrollment userId courseId)
  match enrollment with
  | none => .fail (.badRequest "Enrollment not found or course not yet completed")
  | some (_, user, course) =>
    let existing ← findOne .certificate (.pair userId courseId)
    if existing.isSome then .fail (.conflict "Certificate already issued for this course")
    else do
      let certificate ← insert .certificate (pendingCertificate sha256 userId courseId)
      settle certificate user course

/-- On `progress.completed`. A failure is only logged. -/
def handleProgressCompleted (userId courseId : String) : Method Unit :=
  (issueCertificate sha256 userId courseId >>= fun _ => pure ()).tryCatch fun _ => pure ()

end Scoopdope.Certificates

/-! ## Credentials

`issue` and `issueBundle` of `CredentialsService` (`credentials/credentials.service.ts`), with
what they call of `KycService` and `CoursesService`. -/

namespace Scoopdope.Credentials

open Async Database Server Learning

/-- `KycService.isApproved`. -/
def isApproved (stellarPublicKey : String) : Method Bool := do
  let customer ← findOne .kycCustomer stellarPublicKey
  pure (customer.any fun c => c.data.status = .approved)

/-- `CoursesService.findOne`. -/
def findCourse (id : String) : Method (schema.Row .course) := do
  let course ← findOne .course (.active id)
  Process.ofExcept (match course with
    | some course => .ok course
    | none => .error (.notFound "Course not found"))

/-- The KYC gate, only where the course requires it. -/
def enforceKyc (course : schema.Row .course) (stellarPublicKey : String) : Method Unit :=
  if course.data.requiresKyc then do
    let approved ← isApproved stellarPublicKey
    if approved then pure ()
    else .fail (.forbidden "KYC verification required before credential issuance for this course")
  else pure ()

def metadata (course : schema.Row .course) : CredentialMetadata where
  courseName := course.data.title
  grade := "Pass"
  skills := course.data.skills.getD []

/-- The credential of a course that is stored. -/
def ofCourse (userId courseId txHash stellarPublicKey grade : String) : Credential where
  userId := userId
  courseId := some courseId
  bundleId := none
  txHash := some txHash
  stellarPublicKey := some stellarPublicKey
  grade := some grade

/-- `issue` once the course is found and the gate is passed. -/
def mint (userId courseId stellarPublicKey : String) (course : schema.Row .course) :
    Method (schema.Row .credential) := do
  let txHash ← stellar (.issueCredential stellarPublicKey courseId (some (metadata course)))
  Streaks.tryReward stellarPublicKey 100
  insert .credential
    (ofCourse userId courseId txHash stellarPublicKey (metadata course).grade)

def issue (userId courseId stellarPublicKey : String) : Method (schema.Row .credential) := do
  let existing ← findOne .credential (.course userId courseId)
  match existing with
  | some existing => pure existing
  | none =>
    let course ← findCourse courseId
    enforceKyc course stellarPublicKey
    mint userId courseId stellarPublicKey course

/-- The credential of a bundle that is stored. -/
def ofBundle (userId bundleId txHash stellarPublicKey : String) : Credential where
  userId := userId
  courseId := none
  bundleId := some bundleId
  txHash := some txHash
  stellarPublicKey := some stellarPublicKey
  grade := none

def issueBundle (userId bundleId stellarPublicKey : String) :
    Method (schema.Row .credential) := do
  let existing ← findOne .credential (.bundle userId bundleId)
  match existing with
  | some existing => pure existing
  | none =>
    let txHash ← stellar (.issueCredential stellarPublicKey ("bundle:" ++ bundleId) none)
    Streaks.tryReward stellarPublicKey 500
    insert .credential (ofBundle userId bundleId txHash stellarPublicKey)

end Scoopdope.Credentials

/-! ## Bundles

`updateProgress` of `BundlesService` (`bundles/bundles.service.ts`). -/

namespace Scoopdope.Bundles

open Async Database Server Learning

/-- The user has an enrollment in each of the courses, and each has a `completedAt`. -/
def allCompleted (courseIds : List String) (userEnrollments : List (schema.Row .enrollment)) :
    Bool :=
  let bundleCoursesEnrollments :=
    userEnrollments.filter fun e => courseIds.contains e.data.courseId
  bundleCoursesEnrollments.length = courseIds.length &&
    bundleCoursesEnrollments.all fun e => e.data.completedAt.isSome

/-- What is done once all courses of a bundle are completed. -/
def finish (userId : String) (enrollment : schema.Row .bundleEnrollment) : Method Unit := do
  let around ← Process.env
  let _ ← save .bundleEnrollment
    { enrollment with data := { enrollment.data with completedAt := some around.now } }
  let user ← request (.findUser (.id userId))
  match Streaks.truthy (user.bind fun user => user .stellarPublicKey) with
  | some stellarPublicKey => do
    let _ ← Credentials.issueBundle userId enrollment.data.bundleId stellarPublicKey
    pure ()
  | none => pure ()

/-- One enrollment of the loop. -/
def updateBundle (userId courseId : String) (enrollment : schema.Row .bundleEnrollment)
    (bundle : Bundle) : Method Unit :=
  if bundle.courseIds.contains courseId then do
    let userEnrollments ← Enrollments.findByUser userId
    if allCompleted bundle.courseIds userEnrollments then finish userId enrollment else pure ()
  else pure ()

/-- The loop. -/
def updateBundles (userId courseId : String) :
    List (schema.Row .bundleEnrollment × Bundle) → Method Unit
  | [] => pure ()
  | (enrollment, bundle) :: rest => do
    updateBundle userId courseId enrollment bundle
    updateBundles userId courseId rest

def updateProgress (userId courseId : String) : Method Unit := do
  let bundleEnrollments ← request (.findUnfinishedBundles userId)
  updateBundles userId courseId bundleEnrollments

end Scoopdope.Bundles
