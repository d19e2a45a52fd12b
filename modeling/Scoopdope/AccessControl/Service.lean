import Scoopdope.Database.Schema
import Scoopdope.Server.Http

/-!
# Access control: the service

`AccessControlService` (`access-control/access-control.service.ts`), without the methods that only
list. The table of access records has no unique constraint but its primary key: a second grant for
a course and a user makes a second record. The log is only written here.

A list of addresses is stored as a `simple-array`: one string, with commas between the items.
-/

namespace Scoopdope.AccessControl

open Async Database Server

inductive AccessRole
  | student
  | instructor
  | admin
deriving DecidableEq

inductive AccessAttemptType
  | payment
  | token
  | subscription
  | free
deriving DecidableEq

/-- `grantedAt` is the date of insertion. -/
structure CourseAccessControl where
  courseId : String
  userId : String
  role : AccessRole
  subscriptionExpiryDate : Option Int
  /-- As it is stored. -/
  allowedIpAddresses : Option String
  isActive : Bool
deriving DecidableEq

/-- `timestamp` is the date of insertion. -/
structure AccessLog where
  courseId : String
  userId : String
  action : String
  ipAddress : Option String
  isAllowed : Bool
  denialReason : Option String
  attemptType : Option AccessAttemptType
  contentId : Option String
deriving DecidableEq

def simpleArrayToString (value : List String) : String := String.intercalate "," value

def stringToSimpleArray (value : String) : List String :=
  if value = "" then [] else (value.toList.splitOn ',').map String.ofList

/-- `access.allowedIpAddresses`, and the empty list where it is NULL. -/
def CourseAccessControl.allowed (access : CourseAccessControl) : List String :=
  (access.allowedIpAddresses.map stringToSimpleArray).getD []

/-- A `Date`, or `none` for an invalid one. -/
abbrev Date : Type := Option Int

inductive Op
  | findOne (courseId userId : String)
  | insert (data : CourseAccessControl)
  | update (courseId userId : String) (f : CourseAccessControl → CourseAccessControl)
  | log (entry : AccessLog)

/-- `insert` answers with the new row, unless its primary key is taken. -/
abbrev Op.answer : Op → Type
  | .findOne _ _ => Option (Stored CourseAccessControl)
  | .insert _ => Option (Stored CourseAccessControl)
  | .update _ _ _ => Unit
  | .log _ => Unit

abbrev accessInterface : Interface where
  Op := Op
  Answer := Op.answer

structure Env where
  /-- `new Date()`. -/
  now : Int
  /-- The primary key that the database generates for an insertion. -/
  uuid : String
  /-- `setHours(getHours() + hours)`, which is about the local time of the server. -/
  hoursLater : Int → Rat → Date

structure State where
  access : Repository fun row : Stored CourseAccessControl => row.id
  /-- Newest first. -/
  logs : List (Stored AccessLog)

def State.empty : State where
  access := .empty
  logs := []

/-- `where: { courseId, userId }`. -/
def isFor (courseId userId : String) (row : Stored CourseAccessControl) : Bool :=
  row.data.courseId = courseId && row.data.userId = userId

/-- What an update makes of a row. -/
def rewrite (courseId userId : String) (f : CourseAccessControl → CourseAccessControl)
    (row : Stored CourseAccessControl) : Stored CourseAccessControl :=
  if isFor courseId userId row then { row with data := f row.data } else row

theorem rewrite_id (courseId userId : String) (f : CourseAccessControl → CourseAccessControl)
    (row : Stored CourseAccessControl) : (rewrite courseId userId f row).id = row.id := by
  unfold rewrite
  split <;> rfl

def handle (env : Env) (s : State) : (o : Op) → o.answer × State
  | .findOne courseId userId => (s.access.findOne (isFor courseId userId), s)
  | .insert data =>
    let row : Stored CourseAccessControl := ⟨env.uuid, env.now, env.now, data⟩
    if (s.access.get row.id).isSome then (none, s)
    else (some row, { s with access := s.access.save row })
  | .update courseId userId f =>
    ((), { s with
      access := s.access.update (rewrite courseId userId f) (rewrite_id courseId userId f) })
  | .log entry => ((), { s with logs := ⟨env.uuid, env.now, env.now, entry⟩ :: s.logs })

/-- A method of the service. -/
abbrev Method (A : Type) : Type := Process accessInterface Env HttpException A

def query (o : Op) : Method o.answer := Process.perform (I := accessInterface) o

/-- The value of a date column. No column holds an invalid date. -/
def timestamp : Option Date → Except HttpException (Option Int)
  | none => .ok none
  | some (some time) => .ok (some time)
  | some none => .error (.internal "invalid input syntax for type timestamp")

def grantAccess (courseId userId : String) (role : AccessRole)
    (subscriptionExpiryDate : Option Date) (allowedIpAddresses : Option (List String)) :
    Method (Stored CourseAccessControl) := do
  let subscriptionExpiryDate ← Process.ofExcept (timestamp subscriptionExpiryDate)
  let access ← query (.insert
    { courseId, userId, role, subscriptionExpiryDate
      allowedIpAddresses := allowedIpAddresses.map simpleArrayToString
      isActive := true })
  match access with
  | none => .fail (.internal "duplicate key value")
  | some access => pure access

def logAccess (courseId userId action : String) (ipAddress : Option String) (isAllowed : Bool)
    (denialReason : Option String) (attemptType : Option AccessAttemptType)
    (contentId : Option String) : Method Unit :=
  query (.log
    { courseId, userId, action, ipAddress, isAllowed, denialReason, attemptType, contentId })

/-- `access.subscriptionExpiryDate && new Date() > access.subscriptionExpiryDate`. -/
def isExpired (access : CourseAccessControl) (now : Int) : Bool :=
  access.subscriptionExpiryDate.any fun expiryDate => expiryDate < now

structure Decision where
  allowed : Bool
  reason : Option String
deriving DecidableEq

/-- A log entry of `checkAccess` that denies, and the answer with the same reason. -/
def deny (courseId userId : String) (ipAddress : Option String) (reason : String) :
    Method Decision := do
  logAccess courseId userId "access_denied" ipAddress false (some reason) none none
  pure { allowed := false, reason := some reason }

def checkAccess (courseId userId : String) (ipAddress : Option String) : Method Decision := do
  let access ← query (.findOne courseId userId)
  match access with
  | none => deny courseId userId ipAddress "Access revoked"
  | some access =>
    if !access.data.isActive then deny courseId userId ipAddress "Access revoked"
    else do
      let env ← Process.env
      if isExpired access.data env.now then deny courseId userId ipAddress "Subscription expired"
      else if access.data.allowed ≠ [] ∧
          ∀ address ∈ access.data.allowed, some address ≠ ipAddress then
        deny courseId userId ipAddress "IP not allowed"
      else do
        logAccess courseId userId "access_granted" ipAddress true none none none
        pure { allowed := true, reason := none }

def revokeAccess (courseId userId : String) : Method Unit :=
  query (.update courseId userId fun access => { access with isActive := false })

def updateSubscription (courseId userId : String) (expiryDate : Date) : Method Unit := do
  let expiryDate ← Process.ofExcept (timestamp (some expiryDate))
  query (.update courseId userId fun access => { access with subscriptionExpiryDate := expiryDate })

/-- A log entry of `verifyContentAccess` that denies, and the exception. -/
def refuse (courseId userId contentId : String) (ipAddress : Option String)
    (denialReason : String) (attemptType : AccessAttemptType) (message : String) :
    Method Unit := do
  logAccess courseId userId "content_denied" ipAddress false (some denialReason)
    (some attemptType) (some contentId)
  .fail (.forbidden message)

/-- It returns nothing when it grants access. -/
def verifyContentAccess (courseId userId contentId : String) (ipAddress : Option String) :
    Method Unit := do
  let access ← query (.findOne courseId userId)
  match access with
  | none =>
    refuse courseId userId contentId ipAddress "No access granted" .payment
      "Purchase required to access this content"
  | some access =>
    let attemptType : AccessAttemptType :=
      if access.data.role = .student then .payment else .free
    if !access.data.isActive then
      refuse courseId userId contentId ipAddress "No access granted" .payment
        "Purchase required to access this content"
    else do
      let env ← Process.env
      if isExpired access.data env.now then
        refuse courseId userId contentId ipAddress "Access pass expired" .subscription
          "Your access pass has expired"
      else
        logAccess courseId userId "content_accessed" ipAddress true none (some attemptType)
          (some contentId)

def grantTimeLimitedAccess (courseId userId : String) (role : AccessRole)
    (expiresInHours : Rat) : Method (Stored CourseAccessControl) := do
  let env ← Process.env
  let expiryDate := env.hoursLater env.now expiresInHours
  grantAccess courseId userId role (some expiryDate) none

end Scoopdope.AccessControl
