import Mathlib.Data.List.Sort
import Scoopdope.Database.Insertions
import Scoopdope.Server.Values

/-!
# Import and export: the tables, the export and the JSON format

`exportCourse` of `ImportExportService` (`import-export/import-export.service.ts`) and
`JsonImportStrategy` (`import-export/strategies/json-import.strategy.ts`). The part that writes the
rows, `persist`, is the same in all strategies.

Parameters are `JSON.parse` and the driver of the database: how it stores a value of another type
than that of the column. A save that it refuses is one that fails.
-/

namespace Scoopdope.ImportExport

open Async Database Database.Statements Server

/-! ## Tables -/

/-- The columns of `courses` that are exported or looked at. -/
structure Course where
  title : String
  description : String
  level : String
  durationHours : Int
  requiresKyc : Bool
  instructorId : Option String
  isPublished : Bool := false
  isDeleted : Bool := false
deriving DecidableEq

structure CourseModule where
  courseId : String
  title : String
  order : Int
deriving DecidableEq

structure Lesson where
  moduleId : String
  title : String
  content : String
  videoUrl : Option String
  order : Int
  durationMinutes : Int
deriving DecidableEq

inductive Entity
  | course
  | courseModule
  | lesson
deriving DecidableEq

abbrev Entity.Columns : Entity → Type
  | course => Course
  | courseModule => CourseModule
  | lesson => Lesson

/-- A course is looked up by its id and `isDeleted: false`, modules and lessons by what they belong
to. -/
abbrev schema : Schema where
  Entity := Entity
  Columns := Entity.Columns
  Where := fun _ => String
  holds
    | .course => fun id row => decide (row.id = id ∧ row.data.isDeleted = false)
    | .courseModule => fun courseId row => decide (row.data.courseId = courseId)
    | .lesson => fun moduleId row => decide (row.data.moduleId = moduleId)
  conflict := fun _ _ _ => false

abbrev courseRepo : schema.Entity := Entity.course

abbrev moduleRepo : schema.Entity := Entity.courseModule

abbrev lessonRepo : schema.Entity := Entity.lesson

abbrev Method (A : Type) : Type := Statements.Method schema HttpException A

abbrev Around : Type := Surroundings schema HttpException

abbrev State : Type := Served schema

abbrev CourseRow : Type := Stored Course

abbrev ModuleRow : Type := Stored CourseModule

abbrev LessonRow : Type := Stored Lesson

/-! ## Export -/

structure CourseJsonLesson where
  title : String
  content : String
  videoUrl : Option String
  order : Int
  durationMinutes : Int
deriving DecidableEq

structure CourseJsonModule where
  title : String
  order : Int
  lessons : List CourseJsonLesson
deriving DecidableEq

structure CourseJson where
  title : String
  description : String
  level : String
  durationHours : Int
  requiresKyc : Bool
  modules : List CourseJsonModule
deriving DecidableEq

structure CourseJsonExport where
  version : String
  exportedAt : String
  course : CourseJson
deriving DecidableEq

/-- `rows.sort((a, b) => a.order - b.order)` -/
def sortByOrder {A : Type} (order : A → Int) (rows : List A) : List A :=
  rows.mergeSort fun a b => decide (order a ≤ order b)

def exportLesson (row : LessonRow) : CourseJsonLesson :=
  { title := row.data.title
    content := row.data.content
    videoUrl := row.data.videoUrl
    order := row.data.order
    durationMinutes := row.data.durationMinutes }

def exportModule (row : ModuleRow) (lessons : List LessonRow) : CourseJsonModule :=
  { title := row.data.title
    order := row.data.order
    lessons := (sortByOrder (fun row : LessonRow => row.data.order) lessons).map exportLesson }

/-- A relation, in the order in which its rows were inserted. -/
def loadRelation (t : schema.Entity) (id : String) : Method (List (schema.Row t)) := do
  let rows ← find t id
  pure rows.reverse

/-- The relation `modules.lessons`. -/
def loadLessons : List ModuleRow → Method (List (ModuleRow × List LessonRow))
  | [] => pure []
  | row :: rows => do
    let lessons ← loadRelation lessonRepo row.id
    let others ← loadLessons rows
    pure ((row, lessons) :: others)

/-- `now` is the date of the export. -/
def exportCourse (courseId now : String) : Method CourseJsonExport := do
  let course ← findOne courseRepo courseId
  match course with
  | none => .fail (.notFound "Course not found")
  | some course => do
    let modules ← loadRelation moduleRepo course.id
    let modules ← loadLessons modules
    pure
      { version := "1.0"
        exportedAt := now
        course :=
          { title := course.data.title
            description := course.data.description
            level := course.data.level
            durationHours := course.data.durationHours
            requiresKyc := course.data.requiresKyc
            modules := (sortByOrder (fun m : ModuleRow × List LessonRow => m.1.data.order)
              modules).map fun m => exportModule m.1 m.2 } }

/-- The value that `JSON.stringify` writes. A field that is undefined is left out. -/
def CourseJsonLesson.toValue (lesson : CourseJsonLesson) : Value :=
  .obj <| [("title", .str lesson.title), ("content", .str lesson.content)] ++
    (lesson.videoUrl.map fun url => ("videoUrl", Value.str url)).toList ++
    [("order", .num lesson.order), ("durationMinutes", .num lesson.durationMinutes)]

def CourseJsonModule.toValue (m : CourseJsonModule) : Value :=
  .obj
    [("title", .str m.title), ("order", .num m.order),
      ("lessons", .arr (m.lessons.map CourseJsonLesson.toValue))]

def CourseJson.toValue (course : CourseJson) : Value :=
  .obj
    [("title", .str course.title), ("description", .str course.description),
      ("level", .str course.level), ("durationHours", .num course.durationHours),
      ("requiresKyc", .bool course.requiresKyc),
      ("modules", .arr (course.modules.map CourseJsonModule.toValue))]

def CourseJsonExport.toValue (payload : CourseJsonExport) : Value :=
  .obj
    [("version", .str payload.version), ("exportedAt", .str payload.exportedAt),
      ("course", payload.course.toValue)]

/-! ## What the strategies have in common -/

/-- What the database driver stores where a value is not of the type of its column. -/
structure Driver where
  text : Value → String
  integer : Value → Int
  boolean : Value → Bool
  /-- What a save throws for a function, whose result is taken for an expression of SQL. -/
  callFails : String → HttpException := fun _ => .internal "QueryFailedError"

def Driver.toText (driver : Driver) : Value → String
  | .str s => s
  | value => driver.text value

def Driver.toInteger (driver : Driver) : Value → Int
  | .num n => if n.den = 1 then n.num else driver.integer (.num n)
  | value => driver.integer value

def Driver.toBoolean (driver : Driver) : Value → Bool
  | .bool b => b
  | value => driver.boolean value

/-- The lessons, modules and course that a strategy creates. -/
structure LessonData where
  title : Value
  content : Value
  videoUrl : Option Value
  order : Option Value
  durationMinutes : Option Value

structure ModuleData where
  title : Value
  order : Option Value
  lessons : List LessonData

structure CourseData where
  title : Value
  description : Value
  level : Option Value
  durationHours : Option Value
  requiresKyc : Option Value
  modules : List ModuleData

variable (driver : Driver)

/-- `courseRepo.create({ ... })`. A column that is undefined has its default. -/
def newCourse (data : CourseData) (userId : String) : Course :=
  { title := driver.toText data.title
    description := driver.toText data.description
    level := (data.level.map driver.toText).getD "beginner"
    durationHours := (data.durationHours.map driver.toInteger).getD 0
    requiresKyc := ((Value.present data.requiresKyc).map driver.toBoolean).getD false
    instructorId := some userId
    isPublished := false }

/-- `moduleRepo.create({ ... })` -/
def newModule (courseId : String) (m : ModuleData) : CourseModule :=
  { courseId
    title := driver.toText m.title
    order := (m.order.map driver.toInteger).getD 0 }

/-- `lessonRepo.create({ ... })` -/
def newLesson (moduleId : String) (lesson : LessonData) : Lesson :=
  { moduleId
    title := driver.toText lesson.title
    content := driver.toText lesson.content
    videoUrl := (Value.present lesson.videoUrl).map driver.toText
    order := (lesson.order.map driver.toInteger).getD 0
    durationMinutes := (lesson.durationMinutes.map driver.toInteger).getD 0 }

/-- What the save of a lesson throws before there is a statement. -/
def LessonData.throws (driver : Driver) (lesson : LessonData) : Option HttpException :=
  match lesson.content with
  | .function name => some (driver.callFails name)
  | _ => none

def saveLesson (moduleId : String) (lesson : LessonData) : Method LessonRow :=
  match lesson.throws driver with
  | some x => .fail x
  | none => saveNew lessonRepo (newLesson driver moduleId lesson)

/-- The inner loop. -/
def persistLessons (moduleId : String) : List LessonData → Method Unit
  | [] => pure ()
  | lesson :: lessons => do
    let _ ← saveLesson driver moduleId lesson
    persistLessons moduleId lessons

/-- The outer loop. -/
def persistModules (courseId : String) : List ModuleData → Method Unit
  | [] => pure ()
  | m :: modules => do
    let savedModule ← saveNew moduleRepo (newModule driver courseId m)
    persistLessons driver savedModule.id m.lessons
    persistModules courseId modules

def persist (data : CourseData) (userId : String) : Method String := do
  let course ← saveNew courseRepo (newCourse driver data userId)
  persistModules driver course.id data.modules
  pure course.id

/-! ### What is inserted

The insertions of `persist`, of which the course is number `n`. -/

def lessonInsertion (moduleId : String) (lesson : LessonData) : Insertion schema HttpException :=
  ⟨lessonRepo, newLesson driver moduleId lesson, lesson.throws driver⟩

def lessonInsertions (moduleId : String) (lessons : List LessonData) :
    List (Insertion schema HttpException) :=
  lessons.map (lessonInsertion driver moduleId)

/-- The next module comes after the lessons of this one. -/
def moduleInsertions (key : Nat → String) (courseId : String) :
    Nat → List ModuleData → List (Insertion schema HttpException)
  | _, [] => []
  | n, m :: modules =>
    { table := moduleRepo, data := newModule driver courseId m } ::
      (lessonInsertions driver (key n) m.lessons ++
        moduleInsertions key courseId (n + 1 + m.lessons.length) modules)

def insertions (key : Nat → String) (n : Nat) (data : CourseData) (userId : String) :
    List (Insertion schema HttpException) :=
  { table := courseRepo, data := newCourse driver data userId } ::
    moduleInsertions driver key (key n) (n + 1) data.modules

/-- No lesson has a function for its content. -/
def CourseData.Storable (driver : Driver) (data : CourseData) : Prop :=
  ∀ m ∈ data.modules, ∀ lesson ∈ m.lessons, lesson.throws driver = none

section Throws

variable {driver} {key : Nat → String} {n : Nat}

theorem throws_moduleInsertions {courseId : String} {modules : List ModuleData} :
    (∀ i ∈ moduleInsertions driver key courseId n modules, i.throws = none) ↔
      ∀ m ∈ modules, ∀ lesson ∈ m.lessons, lesson.throws driver = none := by
  induction modules generalizing n with
  | nil => exact iff_of_true nofun nofun
  | cons m modules ih =>
    have hlessons : (∀ i ∈ lessonInsertions driver (key n) m.lessons, i.throws = none) ↔
        ∀ lesson ∈ m.lessons, lesson.throws driver = none := List.forall_mem_map
    rw [moduleInsertions, List.forall_mem_cons, List.forall_mem_append, hlessons, ih,
      List.forall_mem_cons]
    exact and_iff_right rfl

theorem throws_insertions {data : CourseData} {userId : String} :
    (∀ i ∈ insertions driver key n data userId, i.throws = none) ↔ data.Storable driver := by
  rw [insertions, List.forall_mem_cons, throws_moduleInsertions]
  exact and_iff_right rfl

end Throws

section Run

variable {driver} {around : Around} {d : State} {B : Type}

/-- The save of a row that is followed by other insertions. -/
theorem andThen_insertAll_cons {t : schema.Entity} {data : schema.Columns t}
    {rest : List (Insertion schema HttpException)} {p : schema.Row t → Method B}
    {g : State → Except HttpException B × State}
    (h : around.refuses d t data = none →
      alone around (d.insert around t data)
          (p (Schema.inserted (S := schema) (around.generated d.count) data)) =
        andThen g (insertAll around (d.insert around t data) rest)) :
    alone around d (saveNew t data >>= p) =
      andThen g (insertAll around d ({ table := t, data := data } :: rest)) := by
  rw [run_insert (S := schema), insertAll_cons (S := schema)]
  unfold Insertion.refused
  dsimp only
  cases hrefuses : around.refuses d t data with
  | some x => rfl
  | none => exact h hrefuses

theorem run_persistLessons {moduleId : String} {lessons : List LessonData}
    (f : Unit → Method B) :
    alone around d (persistLessons driver moduleId lessons >>= f) =
      andThen (fun d => alone around d (f ()))
        (insertAll around d (lessonInsertions driver moduleId lessons)) := by
  induction lessons generalizing d with
  | nil => rfl
  | cons lesson lessons ih =>
    rw [persistLessons, Process.bind_assoc, lessonInsertions, List.map_cons, lessonInsertion,
      saveLesson]
    cases hthrows : lesson.throws driver with
    | some x => rfl
    | none => exact andThen_insertAll_cons fun _ => ih

theorem run_persistModules {courseId : String} {modules : List ModuleData} (f : Unit → Method B) :
    alone around d (persistModules driver courseId modules >>= f) =
      andThen (fun d => alone around d (f ()))
        (insertAll around d (moduleInsertions driver around.key courseId d.count modules)) := by
  induction modules generalizing d with
  | nil => rfl
  | cons m modules ih =>
    rw [persistModules, Process.bind_assoc, moduleInsertions]
    refine andThen_insertAll_cons fun _ => ?_
    let d₁ := d.insert around moduleRepo (newModule driver courseId m)
    let lessons := lessonInsertions driver (around.key d.count) m.lessons
    show alone around d₁ (persistLessons driver (around.key d.count) m.lessons >>=
      (fun _ => persistModules driver courseId modules) >>= f) = andThen _ (insertAll around d₁
        (lessons ++ _))
    rw [Process.bind_assoc, run_persistLessons, insertAll_append (S := schema)]
    cases hlessons : insertAll around d₁ lessons with
    | mk result d₂ =>
      cases result with
      | error x => rfl
      | ok u =>
        have hcount : d₂.count = d.count + 1 + m.lessons.length := by
          have hlength : lessons.length = m.lessons.length := List.length_map _
          rw [count_insertAll hlessons, hlength]
          rfl
        show alone around d₂ (persistModules driver courseId modules >>= f) = _
        rw [ih, hcount]
        rfl

theorem run_persist {data : CourseData} {userId : String} :
    alone around d (persist driver data userId) =
      andThen (fun d' => (.ok (around.key d.count), d'))
        (insertAll around d (insertions driver around.key d.count data userId)) := by
  rw [persist, insertions]
  exact andThen_insertAll_cons fun _ => run_persistModules fun _ => pure (around.key d.count)

end Run

/-! ## `JsonImportStrategy` -/

namespace JsonImportStrategy

def validateLessons : List Value → Except HttpException Unit
  | [] => .ok ()
  | lesson :: lessons => do
    if Value.isTrue (← Value.read (some lesson) "title") = false then
      .error (.badRequest "Each lesson must have a title")
    else if (lesson.field "content").isNone then
      .error (.badRequest "Each lesson must have content")
    else validateLessons lessons

def validateModules : List Value → Except HttpException Unit
  | [] => .ok ()
  | m :: modules => do
    if Value.isTrue (← Value.read (some m) "title") = false then
      .error (.badRequest "Each module must have a title")
    else
      match Value.items (m.field "lessons") with
      | none => .error (.badRequest "Each module must have a lessons array")
      | some lessons => do
        validateLessons lessons
        validateModules modules

def validateJsonPayload (p : Value) : Except HttpException Unit := do
  let course := Value.optional (some p) "course"
  if Value.isTrue (Value.optional course "title") = false then
    .error (.badRequest "Missing required field: course.title")
  else if Value.isTrue (← Value.read course "description") = false then
    .error (.badRequest "Missing required field: course.description")
  else
    match Value.items (← Value.read course "modules") with
    | none => .error (.badRequest "course.modules must be an array")
    | some modules => validateModules modules

/-! The payload, once it is validated. What is required is there. -/

def lessonData (lesson : Value) : LessonData :=
  { title := (lesson.field "title").getD .null
    content := (lesson.field "content").getD .null
    videoUrl := lesson.field "videoUrl"
    order := lesson.field "order"
    durationMinutes := lesson.field "durationMinutes" }

def moduleData (m : Value) : ModuleData :=
  { title := (m.field "title").getD .null
    order := m.field "order"
    lessons := ((Value.items (m.field "lessons")).getD []).map lessonData }

def courseData (course : Value) : CourseData :=
  { title := (course.field "title").getD .null
    description := (course.field "description").getD .null
    level := course.field "level"
    durationHours := course.field "durationHours"
    requiresKyc := course.field "requiresKyc"
    modules := ((Value.items (course.field "modules")).getD []).map moduleData }

/-- `payload.course`, validated. -/
def readPayload (parse : String → Option Value) (file : String) :
    Except HttpException CourseData := do
  match parse file with
  | none => .error (.badRequest "Invalid JSON file")
  | some payload => do
    validateJsonPayload payload
    pure (courseData ((payload.field "course").getD .null))

def persistCourse (data : CourseData) (instructorId : String) : Method String :=
  persist driver data instructorId

def importFile (parse : String → Option Value) (file userId : String) : Method String := do
  let data ← readPayload parse file
  persistCourse driver data userId

end JsonImportStrategy

end Scoopdope.ImportExport
