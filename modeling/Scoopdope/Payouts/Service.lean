import Mathlib.Data.List.Sort
import Mathlib.Data.Rat.Defs
import Scoopdope.Kyc.Service
import Scoopdope.Users.Service

/-!
# Payouts: the service

`calculatePayouts` and `processPayout` of `PayoutsService` (`payouts/payouts.service.ts`), each
served alone. What a call meets in the other tables, in the configuration and among the failures is
a `World`. The amounts are as the service computes them, before the columns round them.

The loop over the batches of a course ends with a batch that is not full. A batch that cannot be
fetched is skipped, so the loop may go on for ever: it is given a number of fetches, and a call
that needs more saves nothing.
-/

namespace Scoopdope.Payouts

open Database Server Users

inductive PayoutStatus
  | pending
  | processed
  | failed
deriving DecidableEq

structure Payout where
  instructorId : String
  courseId : String
  totalRevenue : Rat
  platformFee : Rat
  instructorShare : Rat
  status : PayoutStatus
  transactionId : Option String
  payoutDate : Int
deriving DecidableEq

abbrev PayoutRow : Type := Stored Payout

/-- The rows of `payouts`. -/
abbrev PayoutTable : Type := Repository fun row : PayoutRow => row.id

/-- The columns of a course that are read. -/
structure CourseRow where
  id : String
  instructorId : Option String
deriving DecidableEq

abbrev EnrollmentRow : Type := Learning.schema.Row .enrollment

inductive Statement
  | findCourses
  | fetchBatch (courseId : String) (offset : Nat)
  | savePayouts
  | findPayout
  | isApproved
  | savePayout

structure World where
  now : Int
  platformFeePercent : Rat
  batchSize : Nat
  /-- The configuration is validated. -/
  batchSize_pos : 0 < batchSize
  coursePrice : String → Rat
  courses : Repository fun course : CourseRow => course.id
  enrollments : Learning.schema.Rows .enrollment
  users : UserTable
  kycEnv : Kyc.Env
  kyc : Kyc.State
  /-- The primary key of each payout that is inserted. -/
  key : Nat → String
  /-- The exception with which a statement fails. -/
  fails : Statement → Option HttpException

namespace World

variable (w : World)

/-! ## calculatePayouts -/

/-- `where: { courseId, completedAt: Between(startDate, endDate) }`. -/
def isCompletion (courseId : String) (startDate endDate : Int) (row : EnrollmentRow) : Bool :=
  row.data.courseId = courseId &&
    row.data.completedAt.any fun completedAt => startDate ≤ completedAt && completedAt ≤ endDate

/-- The completions of a course, with `order: { id: 'ASC' }`. -/
def completions (courseId : String) (startDate endDate : Int) : List EnrollmentRow :=
  (w.enrollments.find (isCompletion courseId startDate endDate)).insertionSort fun a b =>
    a.id ≤ b.id

/-- `skip: offset, take: batchSize`. -/
def batch (courseId : String) (startDate endDate : Int) (offset : Nat) : List EnrollmentRow :=
  ((w.completions courseId startDate endDate).drop offset).take w.batchSize

/-- The completions that the loop counts, from an offset on. -/
def countCompletions (courseId : String) (startDate endDate : Int) :
    Nat → Nat → Option (List EnrollmentRow)
  | 0, _ => none
  | fetches + 1, offset =>
    match w.fails (.fetchBatch courseId offset) with
    | some _ => countCompletions courseId startDate endDate fetches (offset + w.batchSize)
    | none =>
      let enrollments := w.batch courseId startDate endDate offset
      if enrollments.length = 0 then some []
      else if enrollments.length < w.batchSize then some enrollments
      else
        (countCompletions courseId startDate endDate fetches (offset + w.batchSize)).map
          fun rest => enrollments ++ rest

/-- The courses with an instructor. -/
def taught : List (CourseRow × User) :=
  (w.courses.find fun course => course.instructorId.isSome).filterMap fun course =>
    (course.instructorId.bind w.users.get).map fun instructor => (course, instructor)

/-- The payout that is created for the completions of a course. -/
def newPayout (course : CourseRow) (instructor : User) (totalCompletions : Nat) : Payout :=
  let totalRevenue := totalCompletions * w.coursePrice course.id
  let platformFee := totalRevenue * w.platformFeePercent / 100
  { instructorId := instructor .id
    courseId := course.id
    totalRevenue
    platformFee
    instructorShare := totalRevenue - platformFee
    status := .pending
    transactionId := none
    payoutDate := w.now }

/-- The loop over the courses: the new payouts, each with the completions that it counts. A course
without completions has none. -/
def newPayouts (startDate endDate : Int) (fetches : Nat) :
    List (CourseRow × User) → Option (List (Payout × List EnrollmentRow))
  | [] => some []
  | (course, instructor) :: courses => do
    let completions ← w.countCompletions course.id startDate endDate fetches 0
    let payouts ← newPayouts startDate endDate fetches courses
    if completions.length = 0 then pure payouts
    else pure ((w.newPayout course instructor completions.length, completions) :: payouts)

/-- The rows of new payouts. -/
def rows (payouts : List (Payout × List EnrollmentRow)) :
    List (PayoutRow × List EnrollmentRow) :=
  payouts.mapIdx fun i (payout, completions) => (⟨w.key i, w.now, w.now, payout⟩, completions)

/-- The rows can be inserted, together. -/
def Insertable (table : PayoutTable) (rows : List (PayoutRow × List EnrollmentRow)) : Prop :=
  w.fails .findCourses = none ∧ w.fails .savePayouts = none ∧
    (rows.map fun row => row.1.id).Nodup ∧ ∀ row ∈ rows, table.get row.1.id = none

instance (table : PayoutTable) (rows : List (PayoutRow × List EnrollmentRow)) :
    Decidable (w.Insertable table rows) :=
  inferInstanceAs (Decidable (_ ∧ _ ∧ _ ∧ _))

/-- The rows that a call inserts, each with the completions that it counts, if it comes to insert
any. -/
def inserts (startDate endDate : Int) (fetches : Nat) (table : PayoutTable) :
    Option (List (PayoutRow × List EnrollmentRow)) := do
  let payouts ← w.newPayouts startDate endDate fetches w.taught
  if w.Insertable table (w.rows payouts) then some (w.rows payouts) else none

/-- It returns nothing where it throws or does not end. -/
def calculatePayouts (startDate endDate : Int) (fetches : Nat) (table : PayoutTable) :
    Option (List PayoutRow) × PayoutTable :=
  match w.inserts startDate endDate fetches table with
  | none => (none, table)
  | some rows =>
    (some (rows.map Prod.fst), rows.foldl (fun table row => table.save row.1) table)

/-! ## processPayout -/

/-- `payout.instructor?.stellarPublicKey`, if it is truthy. -/
def stellarPublicKey (payout : Payout) : Option String :=
  truthy ((w.users.get payout.instructorId).bind fun user => user .stellarPublicKey)

/-- What `kycService.isApproved` answers. -/
def isApproved (stellarPublicKey : String) : Bool :=
  match ((Kyc.isApproved stellarPublicKey).run Kyc.handle w.kycEnv w.kyc).1 with
  | .ok approved => approved
  | .error _ => false

/-- `payoutsRepository.save(payout)`. -/
def savePayout (row : PayoutRow) (table : PayoutTable) :
    Except HttpException PayoutRow × PayoutTable :=
  match w.fails .savePayout with
  | some x => (.error x, table)
  | none => (.ok row, table.save row)

def markFailed (row : PayoutRow) : PayoutRow :=
  { row with data := { row.data with status := .failed } }

def markProcessed (row : PayoutRow) : PayoutRow :=
  { row with data := { row.data with
      status := .processed, transactionId := some ("TXN-" ++ toString w.now) } }

@[simp] theorem id_markFailed (row : PayoutRow) : (markFailed row).id = row.id := rfl

@[simp] theorem id_markProcessed (row : PayoutRow) : (w.markProcessed row).id = row.id := rfl

def processPayout (payoutId : String) (table : PayoutTable) :
    Except HttpException PayoutRow × PayoutTable :=
  match w.fails .findPayout with
  | some x => (.error x, table)
  | none =>
    match table.get payoutId with
    | none => (.error (.notFound "Payout not found"), table)
    | some row =>
      match w.stellarPublicKey row.data with
      | none =>
        (.error (.forbidden
          "Instructor must have a Stellar public key configured to receive payouts"), table)
      | some stellarPublicKey =>
        match w.fails .isApproved with
        | some x => (.error x, table)
        | none =>
          if !w.isApproved stellarPublicKey then
            match w.savePayout (markFailed row) table with
            | (.error x, table) => (.error x, table)
            | (.ok _, table) =>
              (.error (.forbidden ("KYC verification is required before processing payouts. " ++
                "Please complete KYC verification.")), table)
          else w.savePayout (w.markProcessed row) table

end World

end Scoopdope.Payouts
