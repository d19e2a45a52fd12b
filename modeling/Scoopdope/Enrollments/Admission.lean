import Scoopdope.Enrollments.Service

/-!
# Enrollments: who is admitted

What `enroll` reads before its first `save`. `newEnrollment_ok`: it comes to that point exactly
when the user is `Admitted`, and the row it is about to save is `pinned`, with the latest version
of the course (`isLatest_latestVersion`).
-/

namespace Scoopdope.Enrollments

open Async Database Server Learning

variable {around : Surroundings} {s s' : State} {userId courseId : String} {adminOverride : Bool}

/-! ## Prerequisites -/

/-- The user has an enrollment in the course with a `completedAt`. -/
def Completed (s : State) (userId courseId : String) : Prop :=
  ∃ row ∈ s.tables .enrollment, row.data.userId = userId ∧ row.data.courseId = courseId ∧
    row.data.completedAt.isSome = true

/-- The user has completed every prerequisite of the course. -/
def Satisfied (s : State) (userId courseId : String) : Prop :=
  ∀ row ∈ s.tables .coursePrerequisite, row.data.courseId = courseId →
    Completed s userId row.data.prerequisiteId

/-- The rows of prerequisites that are looked up. -/
def prerequisites (s : State) (courseId : String) : List (schema.Row .coursePrerequisite) :=
  (s.tables .coursePrerequisite).find (schema.holds .coursePrerequisite courseId)

/-- The rows of enrollments that are looked up. -/
def enrollmentsOf (s : State) (userId : String) : List (schema.Row .enrollment) :=
  (s.tables .enrollment).find (schema.holds .enrollment (.user userId))

theorem mem_prerequisites {row : schema.Row .coursePrerequisite} :
    row ∈ prerequisites s courseId ↔
      row ∈ s.tables .coursePrerequisite ∧ row.data.courseId = courseId := by
  unfold prerequisites
  rw [Repository.mem_find]
  exact and_congr_right fun _ => decide_eq_true_iff

theorem mem_enrollmentsOf {row : schema.Row .enrollment} :
    row ∈ enrollmentsOf s userId ↔ row ∈ s.tables .enrollment ∧ row.data.userId = userId := by
  unfold enrollmentsOf
  rw [Repository.mem_find]
  exact and_congr_right fun _ => decide_eq_true_iff

theorem contains_completedCourseIds :
    (completedCourseIds (enrollmentsOf s userId)).contains courseId = true ↔
      Completed s userId courseId := by
  unfold completedCourseIds Completed
  simp only [List.contains_iff_mem, List.mem_map, List.mem_filter, mem_enrollmentsOf]
  constructor
  · rintro ⟨row, ⟨⟨hrow, huser⟩, hcompleted⟩, rfl⟩
    exact ⟨row, hrow, huser, rfl, hcompleted⟩
  · rintro ⟨row, hrow, huser, rfl, hcompleted⟩
    exact ⟨row, ⟨⟨hrow, huser⟩, hcompleted⟩, rfl⟩

theorem missing_isEmpty :
    (missing (prerequisites s courseId) (enrollmentsOf s userId)).isEmpty = true ↔
      Satisfied s userId courseId := by
  unfold missing Satisfied
  simp only [List.isEmpty_iff, List.map_eq_nil_iff, List.filter_eq_nil_iff, mem_prerequisites,
    Bool.not_eq_true, Bool.not_eq_false', contains_completedCourseIds]
  exact ⟨fun h row hrow hcourse => h row ⟨hrow, hcourse⟩, fun h row hrow => h row hrow.1 hrow.2⟩

/-- The requests of `validatePrerequisites` that are made are answered. -/
def Validated (around : Surroundings) (s : State) (userId courseId : String)
    (adminOverride : Bool) : Prop :=
  adminOverride = false →
    around.fails (.query (.find .coursePrerequisite courseId)) = none ∧
      (prerequisites s courseId ≠ [] →
        around.fails (.query (.find .enrollment (.user userId))) = none)

theorem validatePrerequisites_ok {check : PrerequisiteCheck} :
    (validatePrerequisites userId courseId adminOverride).run handle around s = (.ok check, s') ↔
      Validated around s userId courseId adminOverride ∧
        check.missing = (if adminOverride then []
          else missing (prerequisites s courseId) (enrollmentsOf s userId)) ∧
        check.satisfied = check.missing.isEmpty ∧ s' = s := by
  unfold validatePrerequisites Validated
  rcases check with ⟨satisfied, missed⟩
  cases adminOverride with
  | true =>
    simp only [if_true, Process.pure_eq, Process.run_ret, Prod.mk.injEq, Except.ok.injEq,
      PrerequisiteCheck.mk.injEq, reduceCtorEq, false_implies, true_and]
    constructor
    · rintro ⟨⟨rfl, rfl⟩, rfl⟩
      exact ⟨rfl, rfl, rfl⟩
    · rintro ⟨rfl, rfl, rfl⟩
      exact ⟨⟨rfl, rfl⟩, rfl⟩
  | false =>
    simp only [Bool.false_eq_true, if_false, Process.run_bind_ok, find_ok, true_implies]
    change (∃ prereqs s₁, (_ ∧ prerequisites s courseId = prereqs ∧ s = s₁) ∧ _) ↔ _
    constructor
    · rintro ⟨prereqs, s₁, ⟨hlisted, rfl, rfl⟩, h⟩
      split at h
      · next hempty =>
        rw [List.isEmpty_iff] at hempty
        cases h
        rw [hempty]
        exact ⟨⟨hlisted, fun hne => absurd rfl hne⟩, rfl, rfl, rfl⟩
      · rw [Process.run_bind_ok] at h
        obtain ⟨rows, s₁, h, hok⟩ := h
        obtain ⟨hfound, rfl, rfl⟩ := find_ok.mp h
        cases hok
        exact ⟨⟨hlisted, fun _ => hfound⟩, rfl, rfl, rfl⟩
    · rintro ⟨⟨hlisted, hfound⟩, rfl, rfl, rfl⟩
      refine ⟨_, _, ⟨hlisted, rfl, rfl⟩, ?_⟩
      split
      · next hempty =>
        rw [List.isEmpty_iff] at hempty
        rw [hempty]
        rfl
      · next hne =>
        rw [List.isEmpty_iff] at hne
        exact Process.run_bind_ok.mpr ⟨_, _, find_ok.mpr ⟨hfound hne, rfl, rfl⟩, rfl⟩

theorem enforcePrerequisites_ok :
    (enforcePrerequisites userId courseId adminOverride).run handle around s = (.ok (), s') ↔
      Validated around s userId courseId adminOverride ∧
        (adminOverride = true ∨ Satisfied s userId courseId) ∧ s' = s := by
  unfold enforcePrerequisites
  rw [Process.run_bind_ok]
  constructor
  · rintro ⟨check, s₁, h, hok⟩
    obtain ⟨hvalidated, hmissing, hsatisfied, rfl⟩ := validatePrerequisites_ok.mp h
    split at hok
    · next hcheck =>
      cases hok
      refine ⟨hvalidated, ?_, rfl⟩
      rw [hsatisfied, hmissing] at hcheck
      cases adminOverride with
      | true => exact .inl rfl
      | false => exact .inr (missing_isEmpty.mp hcheck)
    · cases hok
  · rintro ⟨hvalidated, hjustified, rfl⟩
    let missed := if adminOverride then []
      else missing (prerequisites s' courseId) (enrollmentsOf s' userId)
    have hmissed : missed.isEmpty = true := by
      cases adminOverride with
      | true => rfl
      | false => exact missing_isEmpty.mpr (hjustified.resolve_left Bool.false_ne_true)
    refine ⟨⟨missed.isEmpty, missed⟩, s', validatePrerequisites_ok.mpr
      ⟨hvalidated, rfl, rfl, rfl⟩, ?_⟩
    rw [if_pos hmissed]
    rfl

/-! ## Versions -/

/-- The version number that an enrollment is pinned to. -/
def latestVersion (s : State) (courseId : String) : Option Nat :=
  (newestFirst ((s.tables .courseVersion).find (schema.holds .courseVersion courseId))).head?.map
    fun version => version.data.versionNumber

/-- The number is that of a version of the course, and there is none with a greater one. It is
missing only where the course has no version. -/
def IsLatest (s : State) (courseId : String) : Option Nat → Prop
  | none => ∀ version ∈ s.tables .courseVersion, version.data.courseId ≠ courseId
  | some n =>
    (∃ version ∈ s.tables .courseVersion,
      version.data.courseId = courseId ∧ version.data.versionNumber = n) ∧
    ∀ version ∈ s.tables .courseVersion,
      version.data.courseId = courseId → version.data.versionNumber ≤ n

theorem isLatest_latestVersion : IsLatest s courseId (latestVersion s courseId) := by
  have hmem {version : schema.Row .courseVersion} :
      version ∈ newestFirst
          ((s.tables .courseVersion).find (schema.holds .courseVersion courseId)) ↔
        version ∈ s.tables .courseVersion ∧ version.data.courseId = courseId := by
    unfold newestFirst
    rw [List.mem_insertionSort, Repository.mem_find]
    exact and_congr_right fun _ => decide_eq_true_iff
  have hsorted := List.pairwise_insertionSort
    (fun a b : schema.Row .courseVersion => b.data.versionNumber ≤ a.data.versionNumber)
    ((s.tables .courseVersion).find (schema.holds .courseVersion courseId))
  unfold latestVersion
  change List.Pairwise _ (newestFirst _) at hsorted
  cases hversions : newestFirst
      ((s.tables .courseVersion).find (schema.holds .courseVersion courseId)) with
  | nil =>
    intro version hversion hcourse
    have hnil := hmem.mpr ⟨hversion, hcourse⟩
    rw [hversions] at hnil
    cases hnil
  | cons newest older =>
    rw [hversions] at hmem hsorted
    refine ⟨⟨newest, (hmem.mp List.mem_cons_self).1, (hmem.mp List.mem_cons_self).2, rfl⟩, ?_⟩
    intro version hversion hcourse
    rcases List.mem_cons.mp (hmem.mpr ⟨hversion, hcourse⟩) with rfl | holder
    · exact Nat.le_refl _
    · exact List.rel_of_pairwise_cons hsorted holder

/-! ## The row -/

def Enrolled (s : State) (userId courseId : String) : Prop :=
  ∃ row ∈ s.tables .enrollment, row.data.userId = userId ∧ row.data.courseId = courseId

/-- `enroll` comes to its first `save`. -/
structure Admitted (around : Surroundings) (s : State) (userId courseId : String)
    (adminOverride : Bool) : Prop where
  lookedUp : around.fails (.query (.findOne .enrollment (.pair userId courseId))) = none
  notEnrolled : ¬ Enrolled s userId courseId
  validated : Validated around s userId courseId adminOverride
  justified : adminOverride = true ∨ Satisfied s userId courseId
  listed : around.fails (.query (.find .courseVersion courseId)) = none

/-- The enrollment before its first `save`. -/
def pinned (s : State) (userId courseId : String) : Enrollment :=
  { userId, courseId, completedAt := none
    enrolledVersionNumber := latestVersion s courseId
    transactionHash := none }

theorem findOne_enrollment_eq_none :
    (s.tables .enrollment).findOne (schema.holds .enrollment (.pair userId courseId)) = none ↔
      ¬ Enrolled s userId courseId := by
  rw [Repository.findOne_eq_none]
  constructor
  · rintro h ⟨row, hrow, rfl, rfl⟩
    have hholds := h row hrow
    simp [Entity.holds, PairWhere.holds] at hholds
  · intro h row hrow
    by_contra hholds
    refine h ⟨row, hrow, ?_⟩
    simpa [Entity.holds, PairWhere.holds] using hholds

theorem findOne_enrollment_isSome :
    ((s.tables .enrollment).findOne
        (schema.holds .enrollment (.pair userId courseId))).isSome = true ↔
      Enrolled s userId courseId := by
  rw [← not_iff_not, ← findOne_enrollment_eq_none, Option.not_isSome_iff_eq_none]

/-- A row breaks no constraint where no other is of its user and its course. -/
theorem not_conflicts {rows : schema.Rows .enrollment} {row : schema.Row .enrollment}
    (h : ∀ other ∈ rows, other.id ≠ row.id → other.data.userId = row.data.userId →
      other.data.courseId ≠ row.data.courseId) : Schema.conflicts rows row = false := by
  refine conflicts_eq_false.mpr fun other hother hne => ?_
  have hcourse := h other hother hne
  simpa [Entity.conflict] using hcourse

theorem newEnrollment_ok {data : Enrollment} :
    (newEnrollment userId courseId adminOverride).run handle around s = (.ok data, s') ↔
      Admitted around s userId courseId adminOverride ∧ data = pinned s userId courseId ∧
        s' = s := by
  unfold newEnrollment
  rw [Process.run_bind_ok]
  constructor
  · rintro ⟨existing, s₁, h, hok⟩
    obtain ⟨hlookedUp, rfl, rfl⟩ := findOne_ok.mp h
    split at hok
    · cases hok
    · next hnone =>
      rw [Option.not_isSome_iff_eq_none, findOne_enrollment_eq_none] at hnone
      obtain ⟨⟨⟩, s₁, henforce, hrest⟩ := Process.run_bind_ok.mp hok
      obtain ⟨hvalidated, hjustified, rfl⟩ := enforcePrerequisites_ok.mp henforce
      obtain ⟨versions, s₂, hlist, hret⟩ := Process.run_bind_ok.mp hrest
      obtain ⟨rows, s₃, hfind, hversions⟩ := Process.run_bind_ok.mp hlist
      obtain ⟨hlisted, rfl, rfl⟩ := find_ok.mp hfind
      cases hversions
      cases hret
      exact ⟨⟨hlookedUp, hnone, hvalidated, hjustified, hlisted⟩, rfl, rfl⟩
  · rintro ⟨hadmitted, rfl, rfl⟩
    refine ⟨_, _, findOne_ok.mpr ⟨hadmitted.lookedUp, rfl, rfl⟩, ?_⟩
    rw [findOne_enrollment_eq_none.mpr hadmitted.notEnrolled]
    refine Process.run_bind_ok.mpr ⟨(), s', enforcePrerequisites_ok.mpr
      ⟨hadmitted.validated, hadmitted.justified, rfl⟩, ?_⟩
    refine Process.run_bind_ok.mpr ⟨_, s', ?_, rfl⟩
    exact Process.run_bind_ok.mpr ⟨_, s', find_ok.mpr ⟨hadmitted.listed, rfl, rfl⟩, rfl⟩

end Scoopdope.Enrollments
