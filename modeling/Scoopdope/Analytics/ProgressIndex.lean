import Scoopdope.Analytics.Contract
import Scoopdope.Soroban.History

/-!
# Analytics: the progress records of a student

The contract cannot enumerate its records, so it lists the courses of each student that
have one. The list is a listing of the relation "there is a record" (`Indexed`): a first
record appends its course, a later one finds it there, and a reset takes record and
course out together. So reading the list reads the records of the student, each once,
and a reset takes one of them out of that reading (`progress_indexed`).
-/

namespace Scoopdope.Analytics

open Soroban

variable {Address : Type} [DecidableEq Address]

/-- The courses of a student are those it has a record for, and a record names its
student and its course. -/
structure Indexed (s : Storage Address) : Prop where
  listed : Listing (studentCourses s) fun student courseId =>
    (getProgress s student courseId).isSome = true
  named : ∀ student courseId record, getProgress s student courseId = some record →
    record.student = student ∧ record.courseId = courseId

section Steps

variable {s s' : Storage Address}

theorem getProgress_set {student : Address} {courseId : String} {record : ProgressRecord Address}
    (h : s'.progress = s.progress.set (student, courseId) record) (student' : Address)
    (courseId' : String) :
    getProgress s' student' courseId' =
      if student' = student ∧ courseId' = courseId then some record
      else getProgress s student' courseId' := by
  unfold getProgress
  simp only [h, Table.get_set, Prod.mk.injEq]

theorem getProgress_remove {student : Address} {courseId : String}
    (h : s'.progress = s.progress.remove (student, courseId)) (student' : Address)
    (courseId' : String) :
    getProgress s' student' courseId' =
      if student' = student ∧ courseId' = courseId then none
      else getProgress s student' courseId' := by
  unfold getProgress
  simp only [h, Table.get_remove, Prod.mk.injEq]

theorem Indexed.recordProgress (hs : Indexed s) {env : Env Address} {caller student : Address}
    {courseId : String} {progressPct : U32}
    (h : recordProgress env s caller student courseId progressPct = .ok s') : Indexed s' := by
  obtain ⟨hprogress, hcourses⟩ := recordProgress_ok h
  have hget := getProgress_set hprogress
  refine ⟨?_, fun student' courseId' record hrecord => ?_⟩
  · have hrel : ∀ student' courseId', (getProgress s' student' courseId').isSome = true ↔
        (getProgress s student' courseId').isSome = true ∨
          student' = student ∧ courseId' = courseId := by
      intro student' courseId'
      rw [hget]
      by_cases heq : student' = student ∧ courseId' = courseId
      · simp [heq]
      · simp [heq]
    unfold studentCourses
    rw [hcourses]
    by_cases hin : (studentCourses s student).contains courseId = true
    · rw [if_pos hin]
      refine hs.listed.congr fun student' courseId' => (hrel student' courseId').trans ?_
      refine or_iff_left_of_imp ?_
      rintro ⟨rfl, rfl⟩
      exact (hs.listed.mem_iff student' courseId').mp (List.contains_iff_mem.mp hin)
    · rw [if_neg hin]
      have hnew : ¬ (getProgress s student courseId).isSome = true := fun hsome =>
        hin (List.contains_iff_mem.mpr ((hs.listed.mem_iff student courseId).mpr hsome))
      exact (hs.listed.push hnew).congr hrel
  · rw [hget] at hrecord
    split at hrecord
    · next heq =>
      cases hrecord
      exact ⟨heq.1.symm, heq.2.symm⟩
    · exact hs.named student' courseId' record hrecord

theorem Indexed.resetProgress (hs : Indexed s) {env : Env Address} {admin student : Address}
    {courseId : String} (h : resetProgress env s admin student courseId = .ok s') :
    Indexed s' := by
  obtain ⟨_, _, hprogress, hcourses⟩ := resetProgress_ok h
  have hget := getProgress_remove hprogress
  refine ⟨?_, fun student' courseId' record hrecord => ?_⟩
  · unfold studentCourses
    rw [hcourses]
    refine (hs.listed.drop student courseId).congr fun student' courseId' => ?_
    rw [hget]
    by_cases heq : student' = student ∧ courseId' = courseId
    · simp [heq]
    · simp [heq]
  · rw [hget] at hrecord
    split at hrecord
    · cases hrecord
    · exact hs.named student' courseId' record hrecord

theorem Indexed.of_eq (hs : Indexed s) (hprogress : s'.progress = s.progress)
    (hcourses : s'.studentCourses = s.studentCourses) : Indexed s' := by
  obtain ⟨hlisted, hnamed⟩ := hs
  unfold studentCourses getProgress at hlisted
  unfold getProgress at hnamed
  rw [← hprogress, ← hcourses] at hlisted
  rw [← hprogress] at hnamed
  exact ⟨hlisted, hnamed⟩

theorem Indexed.step (hs : Indexed s) {i : Env Address × Call Address} (h : exec s i = .ok s') :
    Indexed s' := by
  obtain ⟨env, call⟩ := i
  cases call with
  | initializeContract admin =>
    obtain ⟨_, _, rfl⟩ := initializeContract_ok.mp h
    exact hs.of_eq rfl rfl
  | setAdmin newAdmin =>
    obtain ⟨_, _, _, rfl⟩ := setAdmin_ok.mp h
    exact hs.of_eq rfl rfl
  | recordProgress caller student courseId progressPct => exact hs.recordProgress h
  | resetProgress admin student courseId => exact hs.resetProgress h
  | updateAggregates admin =>
    obtain ⟨hprogress, hcourses⟩ := updateAggregates_ok h
    exact hs.of_eq hprogress hcourses

end Steps

/-! ## The readers -/

section Readers

variable {s s' : Storage Address} {student : Address}

theorem getAllProgress_eq (s : Storage Address) (student : Address) :
    getAllProgress s student = (studentCourses s student).filterMap (getProgress s student) := by
  unfold getAllProgress studentCourses listAt
  cases s.studentCourses.get student with
  | none => rfl
  | some courses => rfl

/-- The records are read in the order of their courses. -/
theorem Indexed.courses_eq (hs : Indexed s) (student : Address) :
    (getAllProgress s student).map ProgressRecord.courseId = studentCourses s student := by
  rw [getAllProgress_eq, List.map_filterMap]
  refine (List.filterMap_congr fun courseId hmem => ?_).trans List.filterMap_some
  have hsome := (hs.listed.mem_iff student courseId).mp hmem
  obtain ⟨record, hrecord⟩ := Option.isSome_iff_exists.mp hsome
  rw [hrecord, Option.map_some, (hs.named student courseId record hrecord).2]

theorem Indexed.mem_getAllProgress (hs : Indexed s) {record : ProgressRecord Address} :
    record ∈ getAllProgress s student ↔
      ∃ courseId, getProgress s student courseId = some record := by
  rw [getAllProgress_eq, List.mem_filterMap]
  constructor
  · rintro ⟨courseId, _, hrecord⟩
    exact ⟨courseId, hrecord⟩
  · rintro ⟨courseId, hrecord⟩
    exact ⟨courseId, (hs.listed.mem_iff student courseId).mpr (by rw [hrecord]; rfl), hrecord⟩

theorem Indexed.count_getAllProgress (hs : Indexed s) {courseId : String}
    {record : ProgressRecord Address} (hrecord : getProgress s student courseId = some record) :
    (getAllProgress s student).count record = 1 := by
  have hnodup : ((getAllProgress s student).map ProgressRecord.courseId).Nodup := by
    rw [hs.courses_eq]
    exact hs.listed.nodup student
  exact List.count_eq_one_of_mem hnodup.of_map (hs.mem_getAllProgress.mpr ⟨courseId, hrecord⟩)

/-- After a reset the records are read as before, without the one that is gone. -/
theorem Indexed.getAllProgress_reset (hs : Indexed s) {env : Env Address} {admin : Address}
    {courseId : String} (h : Analytics.resetProgress env s admin student courseId = .ok s')
    (student' : Address) :
    getAllProgress s' student' = (getAllProgress s student').filter fun record =>
      ¬ (student' = student ∧ record.courseId = courseId) := by
  obtain ⟨_, _, hprogress, hcourses⟩ := resetProgress_ok h
  have hget := getProgress_remove hprogress student'
  have hlist : studentCourses s' student' = (studentCourses s student').filter fun c =>
      ¬ (student' = student ∧ c = courseId) := by
    unfold studentCourses
    rw [hcourses, listAt_removeItem]
    by_cases hstudent : student' = student
    · have hnodup : (listAt s.studentCourses student).Nodup := hs.listed.nodup student
      rw [if_pos hstudent, hstudent, hnodup.erase_eq_filter]
      exact List.filter_congr fun c _ => by simp [bne, beq_eq_decide]
    · simp [hstudent]
  rw [getAllProgress_eq, getAllProgress_eq, hlist, List.filterMap_filter, List.filter_filterMap]
  refine List.filterMap_congr fun c _ => ?_
  rw [hget]
  cases hrecord : getProgress s student' c with
  | none => simp
  | some record =>
    have hcourse := (hs.named student' c record hrecord).2
    rw [← hcourse]
    by_cases heq : student' = student ∧ record.courseId = courseId
    · simp [heq, Option.filter]
    · simp [heq, Option.filter]

end Readers

/-! ## Runs -/

section Runs

variable {admin : Address} {s₀ : Storage Address}

theorem Initialised.indexed (h : Initialised admin s₀) : Indexed s₀ := by
  obtain ⟨env, h⟩ := h
  obtain ⟨_, _, rfl⟩ := initializeContract_ok.mp h
  refine ⟨Listing.empty fun _ _ => ?_, fun _ _ _ hget => absurd hget Table.get_empty_ne_some⟩
  exact Bool.false_ne_true

theorem indexed_after (h : Initialised admin s₀) (past : List (Env Address × Call Address)) :
    Indexed (after exec s₀ past) :=
  after_invariant h.indexed (fun _ _ _ hs he => hs.step he) past

/-- In every state of a run the courses of a student are, without repetition, those it has
a record for; all its records are read, each once, the completed and the others apart; and
a reset takes one record out and leaves the others, and their order, as they were. -/
theorem progress_indexed (h : Initialised admin s₀) (past : List (Env Address × Call Address)) :
    (∀ student, (studentCourses (after exec s₀ past) student).Nodup ∧
      ∀ courseId, courseId ∈ studentCourses (after exec s₀ past) student ↔
        (getProgress (after exec s₀ past) student courseId).isSome = true) ∧
    (∀ student courseId record,
      getProgress (after exec s₀ past) student courseId = some record →
      (getAllProgress (after exec s₀ past) student).count record = 1) ∧
    (∀ student record, record ∈ getAllProgress (after exec s₀ past) student →
      ∃ courseId, getProgress (after exec s₀ past) student courseId = some record) ∧
    (∀ student, (getCompletedCourses (after exec s₀ past) student ++
        getInProgressCourses (after exec s₀ past) student).Perm
          (getAllProgress (after exec s₀ past) student) ∧
      (∀ record ∈ getCompletedCourses (after exec s₀ past) student, record.completed = true) ∧
      ∀ record ∈ getInProgressCourses (after exec s₀ past) student, record.completed = false) ∧
    ∀ env caller student courseId s',
      resetProgress env (after exec s₀ past) caller student courseId = .ok s' →
      getProgress s' student courseId = none ∧
      (∀ student' courseId', ¬ (student' = student ∧ courseId' = courseId) →
        getProgress s' student' courseId' =
          getProgress (after exec s₀ past) student' courseId') ∧
      ∀ student', getAllProgress s' student' =
        (getAllProgress (after exec s₀ past) student').filter fun record =>
          ¬ (student' = student ∧ record.courseId = courseId) := by
  have hs := indexed_after h past
  refine ⟨fun student => ⟨hs.listed.nodup student, hs.listed.mem_iff student⟩,
    fun student courseId record => hs.count_getAllProgress,
    fun student record hmem => hs.mem_getAllProgress.mp hmem, fun student => ⟨?_, ?_, ?_⟩, ?_⟩
  · exact List.filter_append_perm _ _
  · intro record hmem
    exact (List.mem_filter.mp hmem).2
  · intro record hmem
    have hnot := (List.mem_filter.mp hmem).2
    simpa using hnot
  · intro env caller student courseId s' hreset
    have hget := getProgress_remove (resetProgress_ok hreset).2.2.1
    refine ⟨?_, fun student' courseId' hne => ?_, hs.getAllProgress_reset hreset⟩
    · rw [hget, if_pos ⟨rfl, rfl⟩]
    · rw [hget, if_neg hne]

/-- Student 5 records two courses, the first one twice, and the admin resets the first. -/
def exampleProgressRun : List (Env Nat × Call Nat) :=
  [(exampleEnv 0 [1], .resetProgress 1 5 "rust"),
    (exampleEnv 0 [5], .recordProgress 5 5 "rust" (.lit 100)),
    (exampleEnv 0 [1], .recordProgress 1 5 "web" (.lit 50)),
    (exampleEnv 0 [5], .recordProgress 5 5 "rust" (.lit 25))]

theorem progress_indexed_reset :
    (getAllProgress (after exec exampleAnalytics exampleProgressRun) 5).count
      ⟨5, "web", .lit 50, false, .lit 0⟩ = 1 :=
  (progress_indexed exampleAnalytics_initialised exampleProgressRun).2.1 5 "web" _
    (by decide +kernel)

end Runs

end Scoopdope.Analytics
