import Scoopdope.Progress.Completion

/-!
# Progress: the overview of a course

`fetchCourseProgress` of the frontend (`lib/progressApi.ts`): what it makes of the rows of
`findByUser` and of the modules of the course. The quiz scores, which are always empty, are left
out, and `Math.round((completed / total) * 100)` is a parameter.

`shows_iff`: the overview is about the lessons that have a row of their own with 100 percent.
-/

namespace Scoopdope.Progress

open Database Learning

/-! ## The responses -/

structure ProgressResponse where
  courseId : String
  lessonId : Option String
  progressPct : Nat
  completedAt : Option Int
deriving DecidableEq

structure LessonResponse where
  id : String
  title : String
deriving DecidableEq

structure ModuleResponse where
  id : String
  title : String
  order : Int
  lessons : Option (List LessonResponse)
deriving DecidableEq

/-- `mod.lessons ?? []`. -/
def ModuleResponse.listed (mod : ModuleResponse) : List LessonResponse := mod.lessons.getD []

/-! ## The payload -/

structure LessonProgressDetail where
  lessonId : String
  title : String
  completed : Bool
  completedAt : Option Int
deriving DecidableEq

structure ModuleProgress where
  moduleId : String
  title : String
  order : Int
  lessons : List LessonProgressDetail
  progressPct : Nat
deriving DecidableEq

structure CourseProgressPayload where
  courseId : String
  courseTitle : String
  overallProgressPct : Nat
  totalLessons : Nat
  completedLessons : Nat
  modules : List ModuleProgress
  lastActivityAt : Option Int
deriving DecidableEq

section Payload

variable (percent : Nat → Nat → Nat) (courseId : String) (progressRes : List ProgressResponse)

/-- `lessonProgressMap.get(lessonId)`: the last entry of a key counts. -/
def lessonProgress (lessonId : String) : Option ProgressResponse :=
  (progressRes.filter fun p => p.courseId = courseId).reverse.find?
    fun p => p.lessonId = some lessonId

/-- `(record?.progressPct ?? 0) >= 100`. -/
def marked (lessonId : String) : Bool :=
  100 ≤ ((lessonProgress courseId progressRes lessonId).map fun p => p.progressPct).getD 0

def lessonDetail (lesson : LessonResponse) : LessonProgressDetail where
  lessonId := lesson.id
  title := lesson.title
  completed := marked courseId progressRes lesson.id
  completedAt := (lessonProgress courseId progressRes lesson.id).bind fun p => p.completedAt

/-- The percentage, 0 where there is nothing to count. -/
def percentage (completed total : Nat) : Nat := if 0 < total then percent completed total else 0

def moduleProgress (mod : ModuleResponse) : ModuleProgress :=
  let lessons := mod.listed.map (lessonDetail courseId progressRes)
  let completed := (lessons.filter fun l => l.completed).length
  { moduleId := mod.id, title := mod.title, order := mod.order, lessons
    progressPct := percentage percent completed lessons.length }

def fetchCourseProgress (modulesRes : List ModuleResponse) (courseTitle : Option String) :
    CourseProgressPayload :=
  let modules := modulesRes.map (moduleProgress percent courseId progressRes)
  let totalLessons := (modules.map fun m => m.lessons.length).sum
  let completedLessons := (modules.map fun m => (m.lessons.filter fun l => l.completed).length).sum
  let timestamps := (modules.flatMap fun m => m.lessons).filterMap fun l => l.completedAt
  { courseId
    courseTitle := courseTitle.getD courseId
    overallProgressPct := percentage percent completedLessons totalLessons
    totalLessons
    completedLessons
    modules := modules.insertionSort fun a b => a.order ≤ b.order
    lastActivityAt := timestamps.max? }

end Payload

/-! ## What it shows -/

section Shows

variable {percent : Nat → Nat → Nat} {courseId : String} {progressRes : List ProgressResponse}
  {mark : String → Bool} {modulesRes : List ModuleResponse} {courseTitle : Option String}

/-- A module of the payload: its lessons with their marks, and the percentage. -/
def ModuleProgress.view (m : ModuleProgress) : String × List (String × Bool) × Nat :=
  (m.moduleId, m.lessons.map fun l => (l.lessonId, l.completed), m.progressPct)

/-- What a module is to look like when these lessons are marked. -/
def ModuleResponse.view (percent : Nat → Nat → Nat) (mark : String → Bool) (mod : ModuleResponse) :
    String × List (String × Bool) × Nat :=
  (mod.id, mod.listed.map fun l => (l.id, mark l.id),
    percentage percent (mod.listed.countP fun l => mark l.id) mod.listed.length)

/-- The payload marks these lessons, and its numbers are those of these lessons. -/
structure Shows (percent : Nat → Nat → Nat) (mark : String → Bool)
    (modulesRes : List ModuleResponse) (payload : CourseProgressPayload) : Prop where
  modules : payload.modules.map ModuleProgress.view =
    (modulesRes.insertionSort fun a b => a.order ≤ b.order).map (ModuleResponse.view percent mark)
  completedLessons : payload.completedLessons =
    (modulesRes.flatMap ModuleResponse.listed).countP fun l => mark l.id
  overallProgressPct : payload.overallProgressPct =
    percentage percent ((modulesRes.flatMap ModuleResponse.listed).countP fun l => mark l.id)
      (modulesRes.flatMap ModuleResponse.listed).length

theorem view_moduleProgress (mod : ModuleResponse) :
    (moduleProgress percent courseId progressRes mod).view =
      mod.view percent (marked courseId progressRes) := by
  simp [moduleProgress, ModuleProgress.view, ModuleResponse.view, lessonDetail, Function.comp_def,
    List.countP_eq_length_filter, List.filter_map]

theorem length_lessons (mod : ModuleResponse) :
    (moduleProgress percent courseId progressRes mod).lessons.length = mod.listed.length :=
  List.length_map _

theorem length_completed (mod : ModuleResponse) :
    ((moduleProgress percent courseId progressRes mod).lessons.filter
        fun l => l.completed).length =
      mod.listed.countP fun l => marked courseId progressRes l.id := by
  simp [moduleProgress, lessonDetail, Function.comp_def, List.countP_eq_length_filter,
    List.filter_map]

theorem shows_marked (percent : Nat → Nat → Nat) (courseId : String)
    (progressRes : List ProgressResponse) (modulesRes : List ModuleResponse)
    (courseTitle : Option String) :
    Shows percent (marked courseId progressRes) modulesRes
      (fetchCourseProgress percent courseId progressRes modulesRes courseTitle) := by
  have hcompleted : ((modulesRes.map (moduleProgress percent courseId progressRes)).map
      fun m => (m.lessons.filter fun l => l.completed).length).sum =
        (modulesRes.flatMap ModuleResponse.listed).countP
          fun l => marked courseId progressRes l.id := by
    rw [List.countP_flatMap, List.map_map]
    exact congrArg List.sum (List.map_congr_left fun mod _ => length_completed mod)
  have htotal : ((modulesRes.map (moduleProgress percent courseId progressRes)).map
      fun m => m.lessons.length).sum = (modulesRes.flatMap ModuleResponse.listed).length := by
    rw [List.length_flatMap, List.map_map]
    exact congrArg List.sum (List.map_congr_left fun mod _ => length_lessons mod)
  refine ⟨?_, hcompleted, ?_⟩
  · unfold fetchCourseProgress
    dsimp only
    -- Modules are sorted by their order, which the payload keeps.
    rw [← List.map_insertionSort (r := fun a b : ModuleResponse => a.order ≤ b.order)
      (fun a b : ModuleProgress => a.order ≤ b.order) _ _ fun _ _ _ _ => Iff.rfl, List.map_map]
    exact List.map_congr_left fun mod _ => view_moduleProgress mod
  · unfold fetchCourseProgress
    dsimp only
    rw [hcompleted, htotal]

/-- The overview shows just the lessons that are marked. -/
theorem shows_iff :
    Shows percent mark modulesRes
        (fetchCourseProgress percent courseId progressRes modulesRes courseTitle) ↔
      ∀ mod ∈ modulesRes, ∀ lesson ∈ mod.listed,
        marked courseId progressRes lesson.id = mark lesson.id := by
  have hmarked := shows_marked percent courseId progressRes modulesRes courseTitle
  constructor
  · intro h mod hmod lesson hlesson
    have hviews := hmarked.modules.symm.trans h.modules
    have hview := List.map_inj_left.mp hviews mod ((List.mem_insertionSort _).mpr hmod)
    have hlessons := congrArg (fun view => view.2.1) hview
    exact congrArg Prod.snd (List.map_inj_left.mp hlessons lesson hlesson)
  · intro h
    have hcount (lessons : List LessonResponse) (hlessons : ∀ lesson ∈ lessons,
        marked courseId progressRes lesson.id = mark lesson.id) :
        lessons.countP (fun l => marked courseId progressRes l.id) =
          lessons.countP fun l => mark l.id :=
      List.countP_congr fun lesson hlesson => by rw [hlessons lesson hlesson]
    have hall := hcount (modulesRes.flatMap ModuleResponse.listed)
      fun lesson hlesson => by
        obtain ⟨mod, hmod, hmem⟩ := List.mem_flatMap.mp hlesson
        exact h mod hmod lesson hmem
    refine ⟨hmarked.modules.trans ?_, hmarked.completedLessons.trans hall, ?_⟩
    · refine List.map_congr_left fun mod hmod => ?_
      have hmod' := h mod ((List.mem_insertionSort _).mp hmod)
      unfold ModuleResponse.view
      rw [hcount _ hmod']
      refine congrArg (fun marks => (mod.id, marks, _)) ?_
      exact List.map_congr_left fun lesson hlesson => by rw [hmod' lesson hlesson]
    · rw [hmarked.overallProgressPct, hall]

end Shows

end Scoopdope.Progress
