import Mathlib.Data.List.Sort
import Scoopdope.Database.Bulk
import Scoopdope.Graph.Circulant
import Scoopdope.Server.Http

/-!
# Assignments: the service

`AssignmentsService` (`assignments/assignments.service.ts`) with its entities, as far as peer
reviews and grades go. Points are rational numbers.

There is one review for a submission and a reviewer (`@Unique(['submissionId', 'reviewerId'])`), and
reviews are kept under this pair. A call runs to its end before the next one.
-/

namespace Scoopdope.Assignments

open Database Server

structure AssignmentSubmission where
  id : String
  assignmentId : String
  userId : String
  submittedAt : Int
  instructorGrade : Option ℚ
  instructorFeedback : Option String
  finalGrade : Option ℚ
deriving DecidableEq

structure RubricScore where
  criterionId : String
  score : ℚ
  feedback : String

structure PeerReview where
  submissionId : String
  reviewerId : String
  scores : List RubricScore
  overallFeedback : Option String
  isSubmitted : Bool

/-- The columns that are unique together. -/
def PeerReview.pair (review : PeerReview) : String × String :=
  (review.submissionId, review.reviewerId)

structure State where
  submissions : Repository AssignmentSubmission.id
  peerReviews : Repository PeerReview.pair

/-- The exception of a statement that breaks a unique constraint. -/
def duplicateKey : HttpException := .internal "duplicate key value violates unique constraint"

/-! ## Reviewers -/

/-- The order of submissions that were submitted at one time is the database's: `place`. -/
def Earlier (place : String → Nat) (a b : AssignmentSubmission) : Prop :=
  a.submittedAt < b.submittedAt ∨ a.submittedAt = b.submittedAt ∧ place a.id ≤ place b.id

instance (place : String → Nat) : DecidableRel (Earlier place) :=
  fun _ _ => inferInstanceAs (Decidable (_ ∨ _))

/-- `order: { submittedAt: 'ASC' }` -/
def submissionsOf (place : String → Nat) (s : State) (assignmentId : String) :
    List AssignmentSubmission :=
  (s.submissions.find fun submission => submission.assignmentId = assignmentId).insertionSort
    (Earlier place)

/-- `peerReviewRepo.create({ reviewerId, submissionId })`, with the defaults that the row gets. -/
def newReview (reviewerId submissionId : String) : PeerReview :=
  { submissionId, reviewerId, scores := [], overallFeedback := none, isSubmitted := false }

/-- User `i` will review the submissions `(i + 1) % n`, `(i + 2) % n` and `(i + 3) % n`. -/
def assignments (submissions : List AssignmentSubmission) : List PeerReview :=
  (List.finRange submissions.length).flatMap fun (i : Fin submissions.length) =>
    [1, 2, 3].map fun offset =>
      let submissionToReview :=
        submissions.get ⟨(i.val + offset) % submissions.length, Nat.mod_lt _ i.pos⟩
      newReview (submissions.get i).userId submissionToReview.id

/-- The review is an unsubmitted one of the submissions. -/
def isUnsubmitted (submissionIds : List String) (review : PeerReview) : Bool :=
  submissionIds.contains review.submissionId && !review.isSubmitted

def assignReviewers (place : String → Nat) (assignmentId : String) (s : State) :
    Except HttpException (List PeerReview) × State :=
  let submissions := submissionsOf place s assignmentId
  if submissions.length < 4 then
    (.error (.badRequest
      "Not enough submissions to assign 3 reviewers (minimum 4 required)"), s)
  else
    let submissionIds := submissions.map AssignmentSubmission.id
    let peerReviews := s.peerReviews.delete (isUnsubmitted submissionIds)
    match peerReviews.insertRows (assignments submissions) with
    | some peerReviews => (.ok (assignments submissions), { s with peerReviews })
    -- The deletion is a statement of its own and stays.
    | none => (.error duplicateKey, { s with peerReviews })

/-! ## Grades -/

def reviewScore (review : PeerReview) : ℚ :=
  review.scores.foldl (fun sum s => sum + s.score) 0

def calculateFinalGrade (submissionId : String) (s : State) : State :=
  match s.submissions.get submissionId with
  | none => s
  | some submission =>
    match submission.instructorGrade with
    | some instructorGrade =>
      let submission := { submission with finalGrade := some instructorGrade }
      { s with submissions := s.submissions.save submission }
    | none =>
      let peerReviews := s.peerReviews.find fun review => review.submissionId = submissionId
      let completedReviews := peerReviews.filter fun r => r.isSubmitted
      if completedReviews.length = 0 then s
      else
        let totalPeerScore :=
          completedReviews.foldl (fun total review => total + reviewScore review) 0
        let averageScore := totalPeerScore / completedReviews.length
        let submission := { submission with finalGrade := some averageScore }
        { s with submissions := s.submissions.save submission }

def submitPeerReview (reviewerId submissionId : String) (scores : List RubricScore)
    (overallFeedback : String) (s : State) : Except HttpException PeerReview × State :=
  match s.peerReviews.get (submissionId, reviewerId) with
  | none => (.error (.notFound "Peer review assignment not found"), s)
  | some review =>
    let review :=
      { review with scores, overallFeedback := some overallFeedback, isSubmitted := true }
    (.ok review,
      calculateFinalGrade submissionId { s with peerReviews := s.peerReviews.save review })

def instructorOverride (submissionId : String) (grade : ℚ) (feedback : String) (s : State) :
    Except HttpException AssignmentSubmission × State :=
  match s.submissions.get submissionId with
  | none => (.error (.notFound "Submission not found"), s)
  | some submission =>
    let submission :=
      { submission with
        instructorGrade := some grade
        instructorFeedback := some feedback
        finalGrade := some grade }
    (.ok submission, { s with submissions := s.submissions.save submission })

/-! ## Runs -/

/-- The calls that grade a submission. -/
inductive Grading
  | submitPeerReview (reviewerId submissionId : String) (scores : List RubricScore)
    (overallFeedback : String)
  | instructorOverride (submissionId : String) (grade : ℚ) (feedback : String)

def Grading.run (s : State) : Grading → State
  | submitPeerReview reviewerId submissionId scores overallFeedback =>
    (Assignments.submitPeerReview reviewerId submissionId scores overallFeedback s).2
  | instructorOverride submissionId grade feedback =>
    (Assignments.instructorOverride submissionId grade feedback s).2

/-- The calls for an assignment. -/
inductive Call
  | assignReviewers (place : String → Nat)
  | grade (call : Grading)

def Call.run (assignmentId : String) (s : State) : Call → State
  | assignReviewers place => (Assignments.assignReviewers place assignmentId s).2
  | grade call => call.run s

end Scoopdope.Assignments
