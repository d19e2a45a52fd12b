import Scoopdope.Progress.CourseProgress

/-!
# Progress: the lessons of a course

The overview of a course after a run of updates. `record` keeps one row for a user and a course,
with the lesson of its last update, where the overview looks for a row of each lesson.

`overview_iff`: the overview shows the lessons whose last update had 100 percent exactly when no
lesson but that of the very last update is such a lesson.
-/

namespace Scoopdope.Progress

open Async Database Learning Soroban

variable {lessons : List String} {s s₀ : State} {around : Surroundings} {student : Student}

/-! ## The updates -/

/-- The last recorded update of the lesson had 100 percent. -/
def Student.Finished (student : Student) (s₀ : State) (lessonId : String) :
    List (Surroundings × LessonUpdate lessons) → Prop
  | [] => False
  | i :: past =>
    student.Recorded s₀ past i ∧ i.2.lessonId = lessonId ∧ 100 ≤ i.2.progressPct ∨
      ¬ (student.Recorded s₀ past i ∧ i.2.lessonId = lessonId) ∧
        student.Finished s₀ lessonId past

/-- The last recorded update was one of the lesson. -/
def Student.LastRecorded (student : Student) (s₀ : State) (lessonId : String) :
    List (Surroundings × LessonUpdate lessons) → Prop
  | [] => False
  | i :: past =>
    student.Recorded s₀ past i ∧ i.2.lessonId = lessonId ∨
      ¬ student.Recorded s₀ past i ∧ student.LastRecorded s₀ lessonId past

/-! ## The row -/

/-- A row of the student and the course. -/
def Student.Owns (student : Student) (s : State) (row : schema.Row .progress) : Prop :=
  row ∈ s.tables .progress ∧ row.data.userId = student.userId ∧
    row.data.courseId = student.courseId

/-- There is at most one row, and it is about the last recorded update. -/
structure Student.Tracked (student : Student) (s₀ : State)
    (past : List (Surroundings × LessonUpdate lessons)) : Prop where
  unique : ∀ row row', student.Owns (student.after s₀ past) row →
    student.Owns (student.after s₀ past) row' → row = row'
  lesson : ∀ lessonId, student.LastRecorded s₀ lessonId past ↔
    ∃ row, student.Owns (student.after s₀ past) row ∧ row.data.lessonId = some lessonId
  percentage : ∀ row lessonId, student.Owns (student.after s₀ past) row →
    row.data.lessonId = some lessonId →
      (100 ≤ row.data.progressPct ↔ student.Finished s₀ lessonId past)

section Row

variable {i : Surroundings × LessonUpdate lessons}

/-- The row that an update writes. -/
def Student.row (student : Student) (s : State) (i : Surroundings × LessonUpdate lessons) :
    schema.Row .progress :=
  let call := (student.call i).2
  written i.1 s call.userId call.dto call.stellarPublicKey

theorem row_data (student : Student) (s : State) (i : Surroundings × LessonUpdate lessons) :
    ∃ txHash completedAt, (student.row s i).data =
    { userId := student.userId, courseId := student.courseId, lessonId := some i.2.lessonId
      progressPct := i.2.progressPct, completedAt, txHash } := by
  obtain ⟨txHash, hcolumns⟩ := columns_eq i.1 s student.userId student.stellarPublicKey
    (student.call i).2.dto
  exact ⟨txHash, _, written_data.trans hcolumns⟩

theorem step_progress (h : Recorded s (student.call i)) :
    (step s (student.call i)).tables .progress = (s.tables .progress).save (student.row s i) :=
  recorded_progress h

theorem owns_step (hunique : ∀ row row', student.Owns s row → student.Owns s row' → row = row')
    (h : Recorded s (student.call i)) {row : schema.Row .progress} :
    student.Owns (step s (student.call i)) row ↔ row = student.row s i := by
  obtain ⟨txHash, completedAt, hdata⟩ := row_data student s i
  unfold Student.Owns
  rw [step_progress h, Repository.mem_save]
  constructor
  · rintro ⟨hrow | ⟨hrow, hne⟩, huser, hcourse⟩
    · exact hrow
    -- No other row is left: the one that `record` finds is overwritten.
    · have hcurrent : current s student.userId student.courseId = none := by
        cases hcurrent : current s student.userId student.courseId with
        | none => rfl
        | some old =>
          obtain ⟨hholds, hold⟩ := Repository.findOne_some hcurrent
          have hpair : old.data.userId = student.userId ∧ old.data.courseId = student.courseId := by
            simpa [Entity.holds, PairWhere.holds] using hholds
          rw [hunique row old ⟨hrow, huser, hcourse⟩ ⟨hold, hpair.1, hpair.2⟩] at hne
          have hrow : student.row s i = _ := written_of_current hcurrent
          exact absurd (congrArg Stored.id hrow).symm hne
      have hholds := Repository.findOne_eq_none.mp hcurrent row hrow
      simp [Entity.holds, PairWhere.holds, huser, hcourse] at hholds
  · rintro rfl
    rw [hdata]
    exact ⟨.inl rfl, rfl, rfl⟩

end Row

section Tracked

variable {i : Surroundings × LessonUpdate lessons}
  {past : List (Surroundings × LessonUpdate lessons)}

theorem tracked_recorded (h : student.Recorded s₀ past i) (hpast : student.Tracked s₀ past) :
    student.Tracked s₀ (i :: past) := by
  obtain ⟨txHash, completedAt, hdata⟩ := row_data student (student.after s₀ past) i
  have howns {row : schema.Row .progress} : student.Owns (student.after s₀ (i :: past)) row ↔
      row = student.row (student.after s₀ past) i := owns_step hpast.unique h
  refine ⟨fun row row' hrow hrow' => ?_, fun lessonId => ⟨?_, ?_⟩,
    fun row lessonId hrow hlesson => ?_⟩
  · rw [howns.mp hrow, howns.mp hrow']
  · rintro (⟨-, rfl⟩ | ⟨hnot, -⟩)
    · exact ⟨_, howns.mpr rfl, by rw [hdata]⟩
    · exact absurd h hnot
  · rintro ⟨row, hrow, hlesson⟩
    rw [howns.mp hrow, hdata] at hlesson
    exact .inl ⟨h, Option.some.inj hlesson⟩
  · rw [howns.mp hrow, hdata] at hlesson ⊢
    have hlast := Option.some.inj hlesson
    constructor
    · exact fun hpct => .inl ⟨h, hlast, hpct⟩
    · rintro (⟨-, -, hpct⟩ | ⟨hnot, -⟩)
      · exact hpct
      · exact absurd ⟨h, hlast⟩ hnot

theorem tracked_not_recorded (h : ¬ student.Recorded s₀ past i) (hpast : student.Tracked s₀ past) :
    student.Tracked s₀ (i :: past) := by
  have hsame : (student.after s₀ (i :: past)).tables = (student.after s₀ past).tables :=
    recorded_of_not_stores h
  have howns {row : schema.Row .progress} : student.Owns (student.after s₀ (i :: past)) row ↔
      student.Owns (student.after s₀ past) row := by
    unfold Student.Owns
    rw [hsame]
  have hlast (lessonId : String) :
      student.LastRecorded s₀ lessonId (i :: past) ↔ student.LastRecorded s₀ lessonId past :=
    ⟨fun hlast => (hlast.resolve_left fun hi => h hi.1).2, fun hlast => .inr ⟨h, hlast⟩⟩
  have hfinished (lessonId : String) :
      student.Finished s₀ lessonId (i :: past) ↔ student.Finished s₀ lessonId past :=
    ⟨fun hfinished => (hfinished.resolve_left fun hi => h hi.1).2,
      fun hfinished => .inr ⟨fun hi => h hi.1, hfinished⟩⟩
  refine ⟨fun row row' hrow hrow' => ?_, fun lessonId => ?_, fun row lessonId hrow hlesson => ?_⟩
  · exact hpast.unique row row' (howns.mp hrow) (howns.mp hrow')
  · rw [hlast, hpast.lesson]
    exact exists_congr fun row => and_congr_left fun _ => howns.symm
  · rw [hfinished]
    exact hpast.percentage row lessonId (howns.mp hrow) hlesson

theorem tracked (hnew : ∀ row, ¬ student.Owns s₀ row)
    (past : List (Surroundings × LessonUpdate lessons)) : student.Tracked s₀ past := by
  induction past with
  | nil =>
    refine ⟨fun row _ hrow => absurd hrow (hnew row), fun lessonId => ?_,
      fun row _ hrow => absurd hrow (hnew row)⟩
    exact iff_of_false id fun ⟨row, hrow, _⟩ => hnew row hrow
  | cons i past ih =>
    by_cases h : student.Recorded s₀ past i
    · exact tracked_recorded h ih
    · exact tracked_not_recorded h ih

end Tracked

/-! ## The overview -/

/-- The rows that `findByUser` returns. -/
def rowsOf (s : State) (userId : String) : List (schema.Row .progress) :=
  ((s.tables .progress).find (schema.holds .progress (.user userId))).insertionSort
    fun a b => b.updatedAt ≤ a.updatedAt

theorem findByUser_ok {userId : String}
    (h : around.fails (.query (.find .progress (.user userId))) = none) :
    (findByUser userId).run handle around s = (.ok (rowsOf s userId), s) :=
  Process.run_bind_of_ok (find_ok.mpr ⟨h, rfl, rfl⟩) _

/-- A row as the frontend gets it. -/
def response (row : schema.Row .progress) : ProgressResponse where
  courseId := row.data.courseId
  lessonId := row.data.lessonId
  progressPct := row.data.progressPct
  completedAt := row.data.completedAt

/-- The rows of the course that the overview looks at. -/
theorem mem_responses {p : ProgressResponse} :
    p ∈ ((rowsOf s student.userId).map response).filter
        (fun p => p.courseId = student.courseId) ↔
      ∃ row, student.Owns s row ∧ response row = p := by
  unfold rowsOf
  simp only [List.mem_filter, List.mem_map, List.mem_insertionSort, Repository.mem_find,
    decide_eq_true_iff]
  constructor
  · rintro ⟨⟨row, ⟨hrow, huser⟩, rfl⟩, hcourse⟩
    exact ⟨row, ⟨hrow, of_decide_eq_true huser, hcourse⟩, rfl⟩
  · rintro ⟨row, ⟨hrow, huser, hcourse⟩, rfl⟩
    exact ⟨⟨row, ⟨hrow, decide_eq_true huser⟩, rfl⟩, hcourse⟩

theorem marked_iff (hunique : ∀ row row', student.Owns s row → student.Owns s row' → row = row')
    {lessonId : String} :
    marked student.courseId ((rowsOf s student.userId).map response) lessonId = true ↔
      ∃ row, student.Owns s row ∧ row.data.lessonId = some lessonId ∧
        100 ≤ row.data.progressPct := by
  unfold marked
  rw [decide_eq_true_iff]
  cases hfound : lessonProgress student.courseId ((rowsOf s student.userId).map response)
      lessonId with
  | none =>
    refine iff_of_false (by simp) ?_
    rintro ⟨row, hrow, hlesson, -⟩
    have hnone := List.find?_eq_none.mp hfound (response row)
      (List.mem_reverse.mpr (mem_responses.mpr ⟨row, hrow, rfl⟩))
    exact hnone (decide_eq_true hlesson)
  | some p =>
    obtain ⟨row, hrow, rfl⟩ := mem_responses.mp
      (List.mem_reverse.mp (List.mem_of_find?_eq_some hfound))
    have hholds := List.find?_some hfound
    have hlesson : row.data.lessonId = some lessonId := of_decide_eq_true hholds
    constructor
    · exact fun hpct => ⟨row, hrow, hlesson, hpct⟩
    · rintro ⟨row', hrow', -, hpct⟩
      rw [← hunique row row' hrow hrow'] at hpct
      exact hpct

/-- A lesson is marked when the last recorded update was one of it, with 100 percent. -/
theorem marked_after (hnew : ∀ row, ¬ student.Owns s₀ row)
    (past : List (Surroundings × LessonUpdate lessons)) {lessonId : String} :
    marked student.courseId
        ((rowsOf (student.after s₀ past) student.userId).map response) lessonId = true ↔
      student.LastRecorded s₀ lessonId past ∧ student.Finished s₀ lessonId past := by
  have htracked := tracked hnew past
  rw [marked_iff htracked.unique, htracked.lesson]
  constructor
  · rintro ⟨row, hrow, hlesson, hpct⟩
    exact ⟨⟨row, hrow, hlesson⟩, (htracked.percentage row lessonId hrow hlesson).mp hpct⟩
  · rintro ⟨⟨row, hrow, hlesson⟩, hfinished⟩
    exact ⟨row, hrow, hlesson, (htracked.percentage row lessonId hrow hlesson).mpr hfinished⟩

open Classical in
/-- The overview shows the lessons whose last recorded update had 100 percent exactly when the last
recorded update of the course was one of each such lesson that is listed. -/
theorem overview_iff (percent : Nat → Nat → Nat) (student : Student) (s₀ : State)
    (hnew : ∀ row, ¬ student.Owns s₀ row) (past : List (Surroundings × LessonUpdate lessons))
    (modulesRes : List ModuleResponse) (courseTitle : Option String) :
    Shows percent (fun lessonId => decide (student.Finished s₀ lessonId past)) modulesRes
        (fetchCourseProgress percent student.courseId
          ((rowsOf (student.after s₀ past) student.userId).map response) modulesRes courseTitle) ↔
      ∀ mod ∈ modulesRes, ∀ lesson ∈ mod.listed,
        student.Finished s₀ lesson.id past → student.LastRecorded s₀ lesson.id past := by
  rw [shows_iff]
  refine forall₄_congr fun mod _ lesson _ => ?_
  rw [Bool.eq_iff_iff, marked_after hnew, decide_eq_true_iff]
  exact ⟨fun h hfinished => (h.mpr hfinished).1, fun h => ⟨And.right, fun hf => ⟨h hf, hf⟩⟩⟩

/-! ## Two lessons -/

/-- The update of the second lesson. -/
def exampleSecond : Surroundings × LessonUpdate ["l1", "l2"] :=
  (exampleAround, { lessonId := "l2", belongs := by decide, progressPct := 100 })

def exampleModules : List ModuleResponse := [⟨"m1", "Basics", 1, some [⟨"l1", "A"⟩, ⟨"l2", "B"⟩]⟩]

/-- The overview after some updates, with two lessons in all. -/
def exampleOverview (past : List (Surroundings × LessonUpdate ["l1", "l2"])) :
    CourseProgressPayload :=
  fetchCourseProgress (fun completed total => 100 * completed / total) "c1"
    ((rowsOf (exampleStudent.after (exampleEnrolled none) past) "u1").map response) exampleModules
    (some "Rust")

theorem not_owns_example (row : schema.Row .progress) :
    ¬ exampleStudent.Owns (exampleEnrolled none) row :=
  fun h => Repository.not_mem_empty h.1

open Classical in
theorem overview_iff_one :
    Shows (fun completed total => 100 * completed / total)
      (fun lessonId => decide (exampleStudent.Finished (exampleEnrolled none) lessonId
        [exampleLesson])) exampleModules (exampleOverview [exampleLesson]) := by
  refine (overview_iff _ exampleStudent _ not_owns_example [exampleLesson] _ _).mpr ?_
  rintro mod - lesson - (⟨hrecorded, hlesson, -⟩ | ⟨-, hnever⟩)
  · exact .inl ⟨hrecorded, hlesson⟩
  · exact hnever.elim

open Classical in
/-- Both lessons are finished, and of what `findByUser` returns only the second one is shown. -/
theorem first_lesson_lost :
    (∃ rows s, (findByUser "u1").run handle exampleAround
        (exampleStudent.after (exampleEnrolled none) [exampleSecond, exampleLesson]) =
          (.ok rows, s) ∧
      exampleOverview [exampleSecond, exampleLesson] =
        fetchCourseProgress (fun completed total => 100 * completed / total) "c1"
          (rows.map response) exampleModules (some "Rust")) ∧
      (exampleOverview [exampleSecond, exampleLesson]).modules =
        [⟨"m1", "Basics", 1, [⟨"l1", "A", false, none⟩, ⟨"l2", "B", true, some 0⟩], 50⟩] ∧
      exampleStudent.Finished (exampleEnrolled none) "l1" [exampleSecond, exampleLesson] ∧
      ¬ Shows (fun completed total => 100 * completed / total)
        (fun lessonId => decide (exampleStudent.Finished (exampleEnrolled none) lessonId
          [exampleSecond, exampleLesson])) exampleModules
        (exampleOverview [exampleSecond, exampleLesson]) := by
  have hfinished : exampleStudent.Finished (exampleEnrolled none) "l1"
      [exampleSecond, exampleLesson] :=
    .inr ⟨fun h => absurd h.2 (by decide),
      .inl ⟨(completes_exampleCall none).1, rfl, Nat.le_refl 100⟩⟩
  refine ⟨⟨_, _, findByUser_ok rfl, rfl⟩, by decide +kernel, hfinished, fun h => ?_⟩
  have hmarked := shows_iff.mp h _ List.mem_cons_self ⟨"l1", "A"⟩ List.mem_cons_self
  rw [decide_eq_true hfinished] at hmarked
  exact absurd hmarked (by decide +kernel)

end Scoopdope.Progress
