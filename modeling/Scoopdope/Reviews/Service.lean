import Scoopdope.Learning.Requests

/-!
# Reviews: the service

`create` of `ReviewsService` (`courses/reviews.service.ts`).
-/

namespace Scoopdope.Reviews

open Async Database Server Learning

structure CreateReviewDto where
  rating : Nat
  comment : Option String
deriving DecidableEq

/-- White space and line ends in the sense of `trim()`. -/
def isSpace (c : Char) : Bool :=
  [9, 10, 11, 12, 13, 32, 160, 5760, 8232, 8233, 8239, 8287, 12288, 65279].contains c.toNat ||
    8192 ≤ c.toNat && c.toNat ≤ 8202

def trim (text : String) : String :=
  .ofList ((text.toList.dropWhile isSpace).reverse.dropWhile isSpace).reverse

def ensureCourseExists (courseId : String) : Method Unit := do
  let course ← findOne .course (.active courseId)
  if course.isSome then pure () else .fail (.notFound "Course not found")

/-- The enrollment exists and is completed. -/
def hasCompleted (enrollment : Option (schema.Row .enrollment)) : Bool :=
  enrollment.any fun e => e.data.completedAt.isSome

def create (courseId userId : String) (dto : CreateReviewDto) : Method (schema.Row .review) := do
  ensureCourseExists courseId
  let existing ← findOne .review (.pair userId courseId)
  if existing.isSome then .fail (.conflict "You have already reviewed this course")
  else do
    let enrollment ← findOne .enrollment (.pair userId courseId)
    if hasCompleted enrollment then
      insert .review
        { userId, courseId, rating := dto.rating
          comment := (dto.comment.map trim).filter fun comment => comment ≠ "" }
    else
      .fail (.unprocessableEntity "Only users with completed enrollments can review this course")

end Scoopdope.Reviews
