import Scoopdope.Enrollments.Admission
import Scoopdope.Learning.Achievements
import Scoopdope.Progress.Recording
import Scoopdope.Reviews.Service

/-!
# Progress: completion of a course

A call of `record` at 100 percent completes the course on the side of progress, credentials and
rewards. Prerequisites, certificates, bundles and reviews read the `completedAt` of the enrollment
instead, and no call of `record` writes it.

`completion_agrees_iff`: along a run, the courses that are reported as completed count as completed
for all four readers exactly when each of them was completed in its enrollment before it was
reported.
-/

namespace Scoopdope.Progress

open Async Database Server Learning Enrollments Soroban

variable {s s₀ : State} {userId courseId : String}

/-! ## The readers -/

/-- The course counts as completed for `validatePrerequisites`, for `issueCertificate`, for
`updateProgress` of bundles and for `create` of reviews. -/
structure CountsAsCompleted (s : State) (userId courseId : String) : Prop where
  prerequisite : (completedCourseIds (enrollmentsOf s userId)).contains courseId = true
  certificate : ((s.tables .enrollment).findOne
    (schema.holds .enrollment (.completed userId courseId))).isSome = true
  bundle : Bundles.allCompleted [courseId] (enrollmentsOf s userId) = true
  review : Reviews.hasCompleted ((s.tables .enrollment).findOne
    (schema.holds .enrollment (.pair userId courseId))) = true

/-- The unique constraint of the enrollments holds. -/
def Consistent (rows : schema.Rows .enrollment) : Prop :=
  ∀ row ∈ rows, ∀ row' ∈ rows, row.data.userId = row'.data.userId →
    row.data.courseId = row'.data.courseId → row = row'

/-- The rows that the bundle looks at are the one of the course. -/
theorem allCompleted_of_mem (h : Consistent (s.tables .enrollment)) {row : schema.Row .enrollment}
    (hrow : row ∈ s.tables .enrollment) (hcompleted : row.data.completedAt.isSome = true) :
    Bundles.allCompleted [row.data.courseId] (enrollmentsOf s row.data.userId) = true := by
  have hmem {e : schema.Row .enrollment} :
      e ∈ (enrollmentsOf s row.data.userId).filter
        (fun e => [row.data.courseId].contains e.data.courseId) ↔ e ∈ [row] := by
    simp only [List.mem_filter, mem_enrollmentsOf, List.contains_iff_mem, List.mem_singleton]
    constructor
    · rintro ⟨⟨he, huser⟩, hcourse⟩
      exact h e he row hrow huser hcourse
    · rintro rfl
      exact ⟨⟨hrow, rfl⟩, rfl⟩
  -- The bundle compares lengths, so the list must be the one row and no copy of it.
  have hperm := (List.perm_ext_iff_of_nodup (Repository.nodup_find.filter _)
    (List.nodup_singleton row)).mpr fun e => hmem
  unfold Bundles.allCompleted
  dsimp only
  rw [Bool.and_eq_true, decide_eq_true_iff]
  refine ⟨hperm.length_eq, List.all_eq_true.mpr fun e he => ?_⟩
  rw [List.mem_singleton.mp (hmem.mp he)]
  exact hcompleted

theorem countsAsCompleted_iff (h : Consistent (s.tables .enrollment)) :
    CountsAsCompleted s userId courseId ↔ Completed s userId courseId := by
  constructor
  · exact fun hcounts => contains_completedCourseIds.mp hcounts.prerequisite
  · rintro ⟨row, hrow, rfl, rfl, hcompleted⟩
    refine ⟨contains_completedCourseIds.mpr ⟨row, hrow, rfl, rfl, hcompleted⟩, ?_,
      allCompleted_of_mem h hrow hcompleted, ?_⟩
    · rw [Option.isSome_iff_ne_none]
      intro hnone
      have hholds := Repository.findOne_eq_none.mp hnone row hrow
      simp [Entity.holds, PairWhere.holds, hcompleted] at hholds
    · cases hfound : (s.tables .enrollment).findOne
          (schema.holds .enrollment (.pair row.data.userId row.data.courseId)) with
      | none => exact absurd ⟨row, hrow, rfl, rfl⟩ (findOne_enrollment_eq_none.mp hfound)
      | some found =>
        obtain ⟨hholds, hmem⟩ := Repository.findOne_some hfound
        have hpair : found.data.userId = row.data.userId ∧
            found.data.courseId = row.data.courseId := by
          simpa [Entity.holds, PairWhere.holds] using hholds
        rw [h found hmem row hrow hpair.1 hpair.2]
        exact hcompleted

theorem completed_congr {s' : State} (h : s'.tables .enrollment = s.tables .enrollment) :
    Completed s' userId courseId ↔ Completed s userId courseId := by
  unfold Completed
  rw [h]

/-! ## Runs -/

/-- A call of the run has reported the course as completed. -/
def Reported (s₀ : State) (past : List (Surroundings × Call)) (userId courseId : String) : Prop :=
  Occurs (fun earlier i => Completes (reached s₀ earlier) i ∧ i.2.userId = userId ∧
    i.2.dto.courseId = courseId) past

/-- What is reported as completed counts as completed. -/
def Agrees (s₀ : State) (past : List (Surroundings × Call)) : Prop :=
  ∀ userId courseId, Reported s₀ past userId courseId →
    CountsAsCompleted (reached s₀ past) userId courseId

theorem reached_enrollments (s₀ : State) (past : List (Surroundings × Call)) :
    (reached s₀ past).tables .enrollment = s₀.tables .enrollment := by
  induction past with
  | nil => rfl
  | cons i past ih => exact (recorded_enrollments _ _ _ _ _).trans ih

theorem countsAsCompleted_reached (h : Consistent (s₀.tables .enrollment))
    (past : List (Surroundings × Call)) :
    CountsAsCompleted (reached s₀ past) userId courseId ↔ Completed s₀ userId courseId := by
  rw [countsAsCompleted_iff, completed_congr (reached_enrollments s₀ past)]
  rwa [reached_enrollments]

/-- What is reported as completed counts as completed throughout a run exactly when each call that
reports a course finds it completed in its enrollment. -/
theorem completion_agrees_iff (s₀ : State) (h : Consistent (s₀.tables .enrollment))
    (past : List (Surroundings × Call)) :
    (∀ earlier, earlier <:+ past → Agrees s₀ earlier) ↔
      Guarded (fun earlier i => Completes (reached s₀ earlier) i →
        Completed (reached s₀ earlier) i.2.userId i.2.dto.courseId) past := by
  refine throughout_iff_guarded_of ?_ past fun earlier i _ _ hearlier => ⟨fun hagrees => ?_, ?_⟩
  · rintro userId courseId ⟨i, earlier, hsuffix, -⟩
    cases List.suffix_nil.mp hsuffix
  · intro hcompletes
    rw [completed_congr (reached_enrollments s₀ earlier)]
    exact (countsAsCompleted_reached h _).mp (hagrees _ _ (.head ⟨hcompletes, rfl, rfl⟩))
  · intro hguard userId courseId hreported
    rw [countsAsCompleted_reached h]
    rcases occurs_cons_iff.mp hreported with ⟨hcompletes, rfl, rfl⟩ | hreported
    · exact (completed_congr (reached_enrollments s₀ earlier)).mp (hguard hcompletes)
    · exact (countsAsCompleted_reached h _).mp (hearlier _ _ hreported)

/-! ## One call -/

def exampleAround : Surroundings where
  now := 0
  key := fun _ _ => "k1"
  hash := fun _ => "tx1"
  fails := fun _ => none

/-- A user who is enrolled in a course. -/
def exampleEnrolled (completedAt : Option Int) : State :=
  { State.empty with users := Repository.empty.save (Users.User.default "u1" 0) }
    |>.put .course (Repository.empty.save ⟨"c1", 0, 0, {
      title := "Rust", status := .published, isPublished := true, isDeleted := false
      requiresKyc := false, skills := none, maxEnrollment := none }⟩)
    |>.put .enrollment (Repository.empty.save ⟨"e1", 0, 0, {
      userId := "u1", courseId := "c1", completedAt, enrolledVersionNumber := none
      transactionHash := some "tx0" }⟩)

def exampleCall : Surroundings × Call := (exampleAround, ⟨"u1", ⟨"c1", some "l1", 100⟩, "G1"⟩)

theorem consistent_exampleEnrolled (completedAt : Option Int) :
    Consistent ((exampleEnrolled completedAt).tables .enrollment) := by
  intro row hrow row' hrow' _ _
  change row ∈ Repository.empty.save _ at hrow
  change row' ∈ Repository.empty.save _ at hrow'
  rw [Repository.mem_save] at hrow hrow'
  rcases hrow with rfl | ⟨hrow, -⟩
  · rcases hrow' with rfl | ⟨hrow', -⟩
    · rfl
    · exact absurd hrow' Repository.not_mem_empty
  · exact absurd hrow Repository.not_mem_empty

theorem completes_exampleCall (completedAt : Option Int) :
    Completes (exampleEnrolled completedAt) exampleCall :=
  ⟨⟨⟨Users.User.default "u1" 0, rfl, rfl, rfl, rfl⟩, rfl, rfl, rfl⟩, Nat.le_refl 100⟩

theorem completion_agrees_iff_completed :
    Consistent ((exampleEnrolled (some 0)).tables .enrollment) ∧
      ∀ earlier, earlier <:+ [exampleCall] → Agrees (exampleEnrolled (some 0)) earlier := by
  refine ⟨consistent_exampleEnrolled _, ?_⟩
  refine (completion_agrees_iff _ (consistent_exampleEnrolled _) _).mpr ⟨fun _ => ?_, trivial⟩
  exact ⟨⟨"e1", 0, 0, "u1", "c1", some 0, none, some "tx0"⟩, rfl, rfl, rfl, rfl⟩

/-- A credential is issued and the event is emitted, and none of the readers knows of it. -/
theorem completed_nowhere :
    Reported (exampleEnrolled none) [exampleCall] "u1" "c1" ∧
      (reached (exampleEnrolled none) [exampleCall]).emitted =
        [.progressCompleted "u1" "c1" "G1" "c1"] ∧
      (((reached (exampleEnrolled none) [exampleCall]).tables .credential).find fun _ => true) =
        [⟨"k1", 0, 0, Credentials.ofCourse "u1" "c1" "tx1" "G1" "Pass"⟩] ∧
      ¬ CountsAsCompleted (reached (exampleEnrolled none) [exampleCall]) "u1" "c1" ∧
      ¬ Agrees (exampleEnrolled none) [exampleCall] := by
  have hreported : Reported (exampleEnrolled none) [exampleCall] "u1" "c1" :=
    .head ⟨completes_exampleCall none, rfl, rfl⟩
  have hcounts : ¬ CountsAsCompleted (reached (exampleEnrolled none) [exampleCall]) "u1" "c1" :=
    fun h => absurd h.prerequisite (by decide +kernel)
  exact ⟨hreported, by decide +kernel, by decide +kernel, hcounts,
    fun hagrees => hcounts (hagrees _ _ hreported)⟩

/-! ## Updates of lessons

What the lesson page sends: `recordProgress(courseId, lessonId, pct)`, with 100 once the lesson is
finished. `record` takes 100 percent of a lesson for 100 percent of the course.

`completed_last_iff`: the course is completed only after all of its lessons exactly when no update
with 100 percent is recorded or the course has no two lessons. -/

/-- An update of one of the lessons. -/
structure LessonUpdate (lessons : List String) where
  lessonId : String
  belongs : lessonId ∈ lessons
  progressPct : Nat

variable {lessons : List String}

/-- The student who sends the updates, and the course. -/
structure Student where
  userId : String
  stellarPublicKey : String
  courseId : String

/-- The call that an update makes. -/
def Student.call (student : Student) (i : Surroundings × LessonUpdate lessons) :
    Surroundings × Call :=
  (i.1, { userId := student.userId
          dto := ⟨student.courseId, some i.2.lessonId, i.2.progressPct⟩
          stellarPublicKey := student.stellarPublicKey })

/-- The state after the updates, one after another. -/
def Student.after (student : Student) (s₀ : State)
    (past : List (Surroundings × LessonUpdate lessons)) : State :=
  reached s₀ (past.map student.call)

/-- The update comes past its `save`. -/
def Student.Recorded (student : Student) (s₀ : State)
    (earlier : List (Surroundings × LessonUpdate lessons))
    (i : Surroundings × LessonUpdate lessons) : Prop :=
  Progress.Recorded (student.after s₀ earlier) (student.call i)

/-- The update is recorded with 100 percent, and completes the course. -/
def Student.Completes (student : Student) (s₀ : State)
    (earlier : List (Surroundings × LessonUpdate lessons))
    (i : Surroundings × LessonUpdate lessons) : Prop :=
  Progress.Completes (student.after s₀ earlier) (student.call i)

/-- Every lesson has been recorded with 100 percent. -/
def Student.AllFinished (student : Student) (s₀ : State)
    (past : List (Surroundings × LessonUpdate lessons)) : Prop :=
  ∀ lessonId ∈ lessons,
    Occurs (fun earlier i => student.Completes s₀ earlier i ∧ i.2.lessonId = lessonId) past

/-- The course is completed only once every lesson is recorded with 100 percent. -/
theorem completed_last_iff (student : Student) (s₀ : State)
    (past : List (Surroundings × LessonUpdate lessons)) :
    (∀ i earlier, i :: earlier <:+ past → student.Completes s₀ earlier i →
        student.AllFinished s₀ (i :: earlier)) ↔
      ¬ Occurs (student.Completes s₀) past ∨
        ∀ lessonId ∈ lessons, ∀ lessonId' ∈ lessons, lessonId = lessonId' := by
  constructor
  · intro h
    by_cases hoccurs : Occurs (student.Completes s₀) past
    · right
      -- At the first completion no other lesson has been recorded with 100 percent.
      obtain ⟨i, earlier, hsuffix, hcompletes, hfirst⟩ := hoccurs.first
      have honly {lessonId : String} (hlesson : lessonId ∈ lessons) : i.2.lessonId = lessonId := by
        rcases occurs_cons_iff.mp (h i earlier hsuffix hcompletes lessonId hlesson) with
          ⟨-, heq⟩ | ⟨j, before, hbefore, hcompleted, -⟩
        · exact heq
        · exact absurd ⟨j, before, hbefore, hcompleted⟩ hfirst
      intro lessonId hlesson lessonId' hlesson'
      exact (honly hlesson).symm.trans (honly hlesson')
    · exact .inl hoccurs
  · rintro (hnever | hone) i earlier hsuffix hcompletes lessonId hlesson
    · exact absurd ⟨i, earlier, hsuffix, hcompletes⟩ hnever
    · exact .head ⟨hcompletes, hone _ i.2.belongs lessonId hlesson⟩

/-! ### The first of two lessons -/

def exampleStudent : Student := ⟨"u1", "G1", "c1"⟩

def exampleLesson : Surroundings × LessonUpdate ["l1", "l2"] :=
  (exampleAround, { lessonId := "l1", belongs := List.mem_cons_self, progressPct := 100 })

theorem completed_by_first_lesson :
    exampleStudent.Completes (exampleEnrolled none) [] exampleLesson ∧
      (((exampleStudent.after (exampleEnrolled none) [exampleLesson]).tables .progress).find
        fun _ => true) = [⟨"k1", 0, 0, "u1", "c1", some "l1", 100, some 0, some "tx1"⟩] ∧
      (exampleStudent.after (exampleEnrolled none) [exampleLesson]).emitted =
        [.progressCompleted "u1" "c1" "G1" "c1"] ∧
      ¬ exampleStudent.AllFinished (exampleEnrolled none) [exampleLesson] := by
  refine ⟨completes_exampleCall none, by decide +kernel, by decide +kernel, fun hfinished => ?_⟩
  rcases occurs_cons_iff.mp (hfinished "l2" (by decide)) with ⟨-, heq⟩ | ⟨i, earlier, hsuffix, -⟩
  · exact absurd heq (by decide)
  · cases List.suffix_nil.mp hsuffix

end Scoopdope.Progress
