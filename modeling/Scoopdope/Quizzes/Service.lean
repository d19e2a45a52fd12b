import Mathlib.Data.Rat.Defs
import Scoopdope.Database.Repository
import Scoopdope.Server.Http

/-!
# Quizzes: the service

`submitAttempt` and `gradeEssay` of `QuizzesService` (`quizzes/quizzes.service.ts`), with the
columns that they read and write. Scores are rational numbers. A call runs to its end before the
next one.
-/

namespace Scoopdope.Quizzes

open Database Server

inductive QuestionType
  | mcq
  | trueFalse
  | essay
deriving DecidableEq

structure QuizAnswer where
  text : String
  isCorrect : Bool

structure QuizQuestion where
  id : String
  type : QuestionType
  points : Int
  answers : List QuizAnswer

/-- A quiz with its questions and their answers. -/
structure Quiz where
  id : String
  questions : List QuizQuestion
  /-- The primary key of the questions. -/
  distinct : (questions.map QuizQuestion.id).Nodup

structure QuizAttempt where
  id : String
  quizId : String
  userId : String
  score : Option ℚ
  isGraded : Bool
  feedback : Option String
deriving DecidableEq

structure QuizAttemptAnswer where
  attemptId : String
  questionId : String
  answer : String
  points : Option ℚ
deriving DecidableEq

/-- The answers of all attempts are in the order of their insertion. -/
structure State where
  quizzes : Repository Quiz.id
  attempts : Repository QuizAttempt.id
  attemptAnswers : List QuizAttemptAnswer

def State.answersOf (s : State) (attemptId : String) : List QuizAttemptAnswer :=
  s.attemptAnswers.filter fun a => a.attemptId = attemptId

/-! ## `submitAttempt` -/

/-- An element of `answers`. -/
structure Submitted where
  questionId : String
  answer : String
deriving DecidableEq

structure GradedAnswer where
  questionId : String
  userAnswer : String
  correctAnswer : Option String
  isCorrect : Option Bool
  points : ℚ

structure Result where
  attempt : QuizAttempt
  gradedAnswers : List GradedAnswer

/-- `question.answers.find((a) => a.isCorrect)` -/
def QuizQuestion.correctAnswer (question : QuizQuestion) : Option String :=
  (question.answers.find? QuizAnswer.isCorrect).map QuizAnswer.text

/-- `correctAnswer && correctAnswer.text === answer.answer` -/
def QuizQuestion.isCorrect (question : QuizQuestion) (answer : String) : Option Bool :=
  question.correctAnswer.map fun text => decide (text = answer)

/-- What the loop over the answers has come to. -/
structure Grading where
  totalScore : Int
  totalPoints : Int
  saved : List QuizAttemptAnswer
  gradedAnswers : List GradedAnswer

def Quiz.question (quiz : Quiz) (questionId : String) : Option QuizQuestion :=
  quiz.questions.find? fun q => q.id = questionId

def gradeAnswer (quiz : Quiz) (attemptId : String) (g : Grading) (answer : Submitted) : Grading :=
  match quiz.question answer.questionId with
  | none => g
  | some question =>
    let totalPoints := g.totalPoints + question.points
    let attemptAnswer : QuizAttemptAnswer :=
      { attemptId, questionId := answer.questionId, answer := answer.answer, points := none }
    if question.type ≠ .essay then
      let isCorrect := question.isCorrect answer.answer
      let points : Int := if isCorrect = some true then question.points else 0
      { totalScore := g.totalScore + points
        totalPoints
        saved := g.saved ++ [{ attemptAnswer with points := some points }]
        gradedAnswers := g.gradedAnswers ++
          [{ questionId := question.id
             userAnswer := answer.answer
             correctAnswer := question.correctAnswer
             isCorrect
             points }] }
    else { g with totalPoints, saved := g.saved ++ [attemptAnswer] }

def gradeAnswers (quiz : Quiz) (attemptId : String) (answers : List Submitted) : Grading :=
  answers.foldl (gradeAnswer quiz attemptId)
    { totalScore := 0, totalPoints := 0, saved := [], gradedAnswers := [] }

/-- `totalPoints > 0 ? (totalScore / totalPoints) * 100 : 0` -/
def percentage (totalScore totalPoints : ℚ) : ℚ :=
  if 0 < totalPoints then totalScore / totalPoints * 100 else 0

/-- The score that `submitAttempt` stores. -/
def Grading.score (g : Grading) : ℚ := percentage g.totalScore g.totalPoints

/-- `key` is the primary key of the attempt. Of `recordActivity` of the streaks, only whether it
throws counts here. -/
def submitAttempt (recordActivity : String → Except HttpException Unit)
    (key quizId userId : String) (answers : List Submitted) (s : State) :
    Except HttpException Result × State :=
  match s.attempts.findOne fun a => a.quizId = quizId && a.userId = userId with
  | some _ => (.error (.badRequest "Quiz already submitted"), s)
  | none =>
    match recordActivity userId with
    | .error x => (.error x, s)
    | .ok () =>
      match s.quizzes.get quizId with
      | none => (.error (.badRequest "Quiz not found"), s)
      | some quiz =>
        let attempt : QuizAttempt :=
          { id := key, quizId, userId, score := none, isGraded := false, feedback := none }
        let g := gradeAnswers quiz attempt.id answers
        let savedAttempt :=
          { attempt with
            score := some g.score
            isGraded := quiz.questions.all fun q => decide (q.type ≠ .essay) }
        (.ok { attempt := savedAttempt, gradedAnswers := g.gradedAnswers },
          { s with
            attempts := (s.attempts.save attempt).save savedAttempt
            attemptAnswers := s.attemptAnswers ++ g.saved })

/-! ## `gradeEssay` -/

/-- `attempt.quiz.questions.reduce((sum, q) => sum + q.points, 0)` -/
def totalPoints (questions : List QuizQuestion) : Int :=
  questions.foldl (fun sum q => sum + q.points) 0

/-- `attempt.answers.reduce((sum, a) => sum + (a.points || 0), 0)` -/
def totalScore (answers : List QuizAttemptAnswer) : ℚ :=
  answers.foldl (fun sum a => sum + a.points.getD 0) 0

/-- The score of `gradeEssay`. -/
def essayScore (questions : List QuizQuestion) (answers : List QuizAttemptAnswer) : ℚ :=
  percentage (totalScore answers) (totalPoints questions)

/-- `attemptAnswer.points = points`, of the first answer that is found. -/
def setPoints (attemptId questionId : String) (points : ℚ) :
    List QuizAttemptAnswer → List QuizAttemptAnswer
  | [] => []
  | a :: rest =>
    if a.attemptId = attemptId ∧ a.questionId = questionId then
      { a with points := some points } :: rest
    else a :: setPoints attemptId questionId points rest

/-- `loaded` are the questions that the attempt's quiz comes with. -/
def gradeEssayWith (loaded : Quiz → Option (List QuizQuestion)) (attemptId questionId : String)
    (points : ℚ) (feedback : String) (s : State) : Except HttpException QuizAttempt × State :=
  let s := { s with attemptAnswers := setPoints attemptId questionId points s.attemptAnswers }
  match s.attempts.get attemptId with
  | none => (.error (.internal "Cannot read properties of null (reading 'quiz')"), s)
  | some attempt =>
    match (s.quizzes.get attempt.quizId).bind loaded with
    | none => (.error (.internal "Cannot read properties of undefined (reading 'reduce')"), s)
    | some questions =>
      let attempt :=
        { attempt with
          score := some (essayScore questions (s.answersOf attemptId))
          feedback := some feedback
          isGraded := true }
      (.ok attempt, { s with attempts := s.attempts.save attempt })

/-- `relations: ['answers', 'quiz']` loads the quiz without its questions. -/
def gradeEssay : String → String → ℚ → String → State →
    Except HttpException QuizAttempt × State := gradeEssayWith fun _ => none

end Scoopdope.Quizzes
