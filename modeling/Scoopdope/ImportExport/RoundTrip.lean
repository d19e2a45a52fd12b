import Scoopdope.ImportExport.Service
import Scoopdope.Server.Grouping

/-!
# Importing what was exported

`contents` are the modules and lessons of a course in the order of their insertion. The export
sorts them (`run_exportCourse`), and the import adds the modules of its payload to those of the new
course, as they are (`contents_persisted`). What the export has sorted is not changed by sorting it
again, so that `export_import_round_trip` follows.
-/

namespace Scoopdope.ImportExport

open Async Database Database.Statements Server

/-! ## Sorting -/

section Sorting

variable {A B : Type} {order : A → Int} {rows : List A}

theorem map_sortByOrder (f : A → B) (order : A → Int) (order' : B → Int)
    (h : ∀ a, order' (f a) = order a) :
    (sortByOrder order rows).map f = sortByOrder order' (rows.map f) :=
  List.map_mergeSort fun a _ b _ => by rw [h, h]

theorem sortByOrder_sortByOrder :
    sortByOrder order (sortByOrder order rows) = sortByOrder order rows :=
  List.mergeSort_of_pairwise
    (List.pairwise_mergeSort Grouping.le_number_trans Grouping.le_number_total rows)

theorem mem_sortByOrder {a : A} : a ∈ sortByOrder order rows ↔ a ∈ rows := List.mem_mergeSort

end Sorting

/-- The lessons by `order`. -/
def CourseJsonModule.sorted (m : CourseJsonModule) : CourseJsonModule :=
  { m with lessons := sortByOrder CourseJsonLesson.order m.lessons }

/-- The modules by `order`, and the lessons of each. -/
def sortedModules (modules : List CourseJsonModule) : List CourseJsonModule :=
  sortByOrder CourseJsonModule.order (modules.map CourseJsonModule.sorted)

theorem sorted_sorted (m : CourseJsonModule) : m.sorted.sorted = m.sorted := by
  unfold CourseJsonModule.sorted
  rw [sortByOrder_sortByOrder]

theorem sortedModules_sortedModules (modules : List CourseJsonModule) :
    sortedModules (sortedModules modules) = sortedModules modules := by
  have hsorted : (sortedModules modules).map CourseJsonModule.sorted = sortedModules modules := by
    unfold sortedModules
    rw [map_sortByOrder CourseJsonModule.sorted CourseJsonModule.order CourseJsonModule.order
      fun _ => rfl, List.map_map]
    congr 2
    exact funext sorted_sorted
  calc sortedModules (sortedModules modules)
      = sortByOrder CourseJsonModule.order (sortedModules modules) := congrArg _ hsorted
    _ = sortedModules modules := sortByOrder_sortByOrder

/-! ## The contents of a course -/

def lessonsOf (d : State) (moduleId : String) : List LessonRow :=
  (d.tables lessonRepo).inserted.filter (schema.holds lessonRepo moduleId)

def modulesOf (d : State) (courseId : String) : List ModuleRow :=
  (d.tables moduleRepo).inserted.filter (schema.holds moduleRepo courseId)

/-- A module with its lessons, unsorted. -/
def plainModule (d : State) (row : ModuleRow) : CourseJsonModule :=
  { title := row.data.title
    order := row.data.order
    lessons := (lessonsOf d row.id).map exportLesson }

def contents (d : State) (courseId : String) : List CourseJsonModule :=
  (modulesOf d courseId).map (plainModule d)

theorem exportModule_eq {d : State} {row : ModuleRow} :
    exportModule row (lessonsOf d row.id) = (plainModule d row).sorted := by
  unfold exportModule CourseJsonModule.sorted
  rw [map_sortByOrder exportLesson (fun row : LessonRow => row.data.order) CourseJsonLesson.order
    fun _ => rfl]
  rfl

/-! ## What the export answers -/

/-- The payload for a row of `courses`. -/
def payloadOf (d : State) (row : CourseRow) (now : String) : CourseJsonExport :=
  { version := "1.0"
    exportedAt := now
    course :=
      { title := row.data.title
        description := row.data.description
        level := row.data.level
        durationHours := row.data.durationHours
        requiresKyc := row.data.requiresKyc
        modules := sortedModules (contents d row.id) } }

/-- The database after `n` statements that only read. -/
def afterReads (d : State) (n : Nat) : State := { d with count := d.count + n }

section Export

variable {around : Around} {d : State} {B : Type}

theorem run_loadRelation {t : schema.Entity} {id : String}
    (f : List (schema.Row t) → Method B) :
    alone around.calm d (loadRelation t id >>= f) =
      alone around.calm d.tick (f ((d.tables t).inserted.filter (schema.holds t id))) := by
  rw [loadRelation, Process.bind_assoc, run_find (S := schema), ← Repository.reverse_find]
  rfl

theorem run_loadLessons {rows : List ModuleRow}
    (f : List (ModuleRow × List LessonRow) → Method B) :
    alone around.calm d (loadLessons rows >>= f) =
      alone around.calm (afterReads d rows.length)
        (f (rows.map fun row => (row, lessonsOf d row.id))) := by
  induction rows generalizing d f with
  | nil => rfl
  | cons row rows ih =>
    rw [loadLessons, Process.bind_assoc, run_loadRelation, Process.bind_assoc, ih]
    have hafter : afterReads d.tick rows.length = afterReads d (row :: rows).length := by
      unfold afterReads
      rw [List.length_cons, Served.tick_count, Nat.add_right_comm, Nat.add_assoc]
      rfl
    rw [hafter]
    rfl

theorem run_exportCourse {row : CourseRow} (hrow : row ∈ d.tables courseRepo)
    (hdeleted : row.data.isDeleted = false) (now : String) :
    alone around.calm d (exportCourse row.id now) =
      (.ok (payloadOf d row now), afterReads d (2 + (modulesOf d row.id).length)) := by
  have hfound : (d.tables courseRepo).findOne (schema.holds courseRepo row.id) = some row := by
    refine Repository.findOne_of_unique hrow (decide_eq_true ⟨rfl, hdeleted⟩) ?_
    exact fun other _ hother => (of_decide_eq_true hother).1
  have hmodules : sortedModules (contents d row.id) =
      (sortByOrder (fun m : ModuleRow × List LessonRow => m.1.data.order)
        ((modulesOf d row.id).map fun row => (row, lessonsOf d row.id))).map
          fun m => exportModule m.1 m.2 := by
    rw [map_sortByOrder (fun m : ModuleRow × List LessonRow => exportModule m.1 m.2)
      (fun m => m.1.data.order) CourseJsonModule.order fun _ => rfl, List.map_map]
    unfold sortedModules contents
    rw [List.map_map]
    congr 1
    exact List.map_congr_left fun row _ => exportModule_eq.symm
  rw [exportCourse, run_findOne_ok (S := schema) rfl hfound]
  dsimp only
  rw [run_loadRelation, run_loadLessons]
  unfold payloadOf
  rw [hmodules]
  unfold afterReads
  rw [← Nat.add_assoc]
  rfl

end Export

/-! ## What the import adds -/

/-- What modules and lessons belong to exists. -/
structure Referenced (d : State) : Prop where
  courses : ∀ row ∈ d.tables moduleRepo, (d.tables courseRepo).get row.data.courseId ≠ none
  modules : ∀ row ∈ d.tables lessonRepo, (d.tables moduleRepo).get row.data.moduleId ≠ none

section Insert

variable {around : Around} {d : State}

theorem Referenced.insert_course (h : Referenced d) (data : Course) :
    Referenced (d.insert around courseRepo data) :=
  ⟨fun row hrow => get_insert_ne_none (h.courses row hrow), h.modules⟩

theorem Referenced.insert_module (h : Referenced d) {data : CourseModule}
    (hcourse : (d.tables courseRepo).get data.courseId ≠ none) :
    Referenced (d.insert around moduleRepo data) := by
  refine ⟨fun row hrow => ?_, fun row hrow => get_insert_ne_none (h.modules row hrow)⟩
  rcases Repository.mem_save.mp hrow with rfl | ⟨hrow, -⟩
  · exact hcourse
  · exact h.courses row hrow

theorem Referenced.insert_lesson (h : Referenced d) {data : Lesson}
    (hmodule : (d.tables moduleRepo).get data.moduleId ≠ none) :
    Referenced (d.insert around lessonRepo data) := by
  refine ⟨h.courses, fun row hrow => ?_⟩
  rcases Repository.mem_save.mp hrow with rfl | ⟨hrow, -⟩
  · exact hmodule
  · exact h.modules row hrow

/-- The modules and the lessons after an insertion. -/
theorem modulesOf_insert (h : FreshKeys around d) (data : CourseModule) (id : String) :
    modulesOf (d.insert around moduleRepo data) id =
      modulesOf d id ++
        if data.courseId = id then
          [⟨around.key d.count, around.now d.count, around.now d.count, data⟩]
        else [] :=
  (h.filter_insert moduleRepo data _).trans
    (congrArg _ (if_congr decide_eq_true_iff rfl rfl))

theorem lessonsOf_insert (h : FreshKeys around d) (data : Lesson) (id : String) :
    lessonsOf (d.insert around lessonRepo data) id =
      lessonsOf d id ++
        if data.moduleId = id then
          [⟨around.key d.count, around.now d.count, around.now d.count, data⟩]
        else [] :=
  (h.filter_insert lessonRepo data _).trans
    (congrArg _ (if_congr decide_eq_true_iff rfl rfl))

/-- Nothing belongs to what does not exist. -/
theorem Referenced.modulesOf_eq_nil (h : Referenced d) {courseId : String}
    (hnew : (d.tables courseRepo).get courseId = none) : modulesOf d courseId = [] := by
  refine List.filter_eq_nil_iff.mpr fun row hrow hholds => ?_
  have hcourse : row.data.courseId = courseId := of_decide_eq_true hholds
  exact h.courses row (Repository.mem_inserted.mp hrow) (hcourse ▸ hnew)

theorem Referenced.lessonsOf_eq_nil (h : Referenced d) {moduleId : String}
    (hnew : (d.tables moduleRepo).get moduleId = none) : lessonsOf d moduleId = [] := by
  refine List.filter_eq_nil_iff.mpr fun row hrow hholds => ?_
  have hmodule : row.data.moduleId = moduleId := of_decide_eq_true hholds
  exact h.modules row (Repository.mem_inserted.mp hrow) (hmodule ▸ hnew)

end Insert

/-! The course that is imported, as it is read from an export. -/

def CourseJsonLesson.data (lesson : CourseJsonLesson) : LessonData :=
  { title := .str lesson.title
    content := .str lesson.content
    videoUrl := lesson.videoUrl.map .str
    order := some (.num lesson.order)
    durationMinutes := some (.num lesson.durationMinutes) }

def CourseJsonModule.data (m : CourseJsonModule) : ModuleData :=
  { title := .str m.title
    order := some (.num m.order)
    lessons := m.lessons.map CourseJsonLesson.data }

def CourseJson.data (course : CourseJson) : CourseData :=
  { title := .str course.title
    description := .str course.description
    level := some (.str course.level)
    durationHours := some (.num course.durationHours)
    requiresKyc := some (.bool course.requiresKyc)
    modules := course.modules.map CourseJsonModule.data }

/-- Contents of the database are texts. -/
theorem CourseJson.storable (driver : Driver) (course : CourseJson) :
    course.data.Storable driver := by
  intro m hm lesson hlesson
  obtain ⟨m, -, rfl⟩ := List.mem_map.mp hm
  obtain ⟨lesson, -, rfl⟩ := List.mem_map.mp hlesson
  rfl

section Added

variable {driver : Driver} {around : Around} {d d' d'' : State} {courseId moduleId : String}

@[simp] theorem toInteger_int (n : Int) : driver.toInteger (.num n) = n := by
  simp [Driver.toInteger]

theorem newCourse_data (course : CourseJson) (userId : String) :
    newCourse driver course.data userId =
      { title := course.title
        description := course.description
        level := course.level
        durationHours := course.durationHours
        requiresKyc := course.requiresKyc
        instructorId := some userId } := by
  simp [newCourse, CourseJson.data, Driver.toText, Driver.toBoolean, Value.present]

theorem exportLesson_data (id : String) (createdAt updatedAt : Int) (lesson : CourseJsonLesson) :
    exportLesson ⟨id, createdAt, updatedAt, newLesson driver moduleId lesson.data⟩ = lesson := by
  obtain ⟨title, content, videoUrl, order, durationMinutes⟩ := lesson
  cases videoUrl <;>
    simp [exportLesson, newLesson, CourseJsonLesson.data, Value.present, Driver.toText]

/-- From `d` to `d'` a module got more lessons. -/
structure LessonsAdded (d d' : State) (moduleId : String) (lessons : List CourseJsonLesson) :
    Prop where
  courses : d'.tables courseRepo = d.tables courseRepo
  modules : d'.tables moduleRepo = d.tables moduleRepo
  lessons : ∀ id, (lessonsOf d' id).map exportLesson =
    (lessonsOf d id).map exportLesson ++ if moduleId = id then lessons else []
  referenced : Referenced d'

theorem lessonsAdded {lessons : List CourseJsonLesson} (hfresh : FreshKeys around d)
    (hrefs : Referenced d) (hmodule : (d.tables moduleRepo).get moduleId ≠ none) :
    LessonsAdded d
      (d.inserts around
        (lessonInsertions driver moduleId (lessons.map CourseJsonLesson.data))) moduleId
      lessons := by
  induction lessons generalizing d with
  | nil => exact ⟨rfl, rfl, fun id => by simp [lessonInsertions, Served.inserts], hrefs⟩
  | cons lesson lessons ih =>
    let data := newLesson driver moduleId lesson.data
    let d₁ := d.insert around lessonRepo data
    obtain ⟨hcourses, hmodules, hlessons, hrefs'⟩ :=
      ih (hfresh.insert lessonRepo data) (hrefs.insert_lesson hmodule) hmodule
    have hfirst (id : String) : (lessonsOf d₁ id).map exportLesson =
        (lessonsOf d id).map exportLesson ++ if moduleId = id then [lesson] else [] := by
      rw [lessonsOf_insert hfresh data, List.map_append]
      congr 1
      show List.map exportLesson (if moduleId = id then _ else []) = _
      split
      · exact congrArg (· :: []) (exportLesson_data _ _ _ lesson)
      · rfl
    refine ⟨hcourses, hmodules, fun id => (hlessons id).trans ?_, hrefs'⟩
    rw [hfirst, List.append_assoc]
    congr 1
    split <;> rfl

/-- From `d` to `d'` a course got more modules. -/
structure ModulesAdded (d d' : State) (courseId : String) (modules : List CourseJsonModule) :
    Prop where
  courses : d'.tables courseRepo = d.tables courseRepo
  contents : ∀ id, contents d' id = contents d id ++ if courseId = id then modules else []
  referenced : Referenced d'

theorem ModulesAdded.trans {modules modules' : List CourseJsonModule}
    (h : ModulesAdded d d' courseId modules) (h' : ModulesAdded d' d'' courseId modules') :
    ModulesAdded d d'' courseId (modules ++ modules') := by
  refine ⟨h'.courses.trans h.courses, fun id => ?_, h'.referenced⟩
  rw [h'.contents, h.contents, List.append_assoc]
  congr 1
  split <;> rfl

theorem moduleAdded {m : CourseJsonModule} (hfresh : FreshKeys around d) (hrefs : Referenced d)
    (hcourse : (d.tables courseRepo).get courseId ≠ none) :
    ModulesAdded d
      ((d.insert around moduleRepo (newModule driver courseId m.data)).inserts around
        (lessonInsertions driver (around.key d.count) m.data.lessons)) courseId [m] := by
  let row : ModuleRow :=
    ⟨around.key d.count, around.now d.count, around.now d.count, newModule driver courseId m.data⟩
  let d₁ : State := d.insert around moduleRepo row.data
  have hnew : (d.tables moduleRepo).get row.id = none := hfresh.new d.count moduleRepo (le_refl _)
  have hmodule : (d₁.tables moduleRepo).get row.id ≠ none := by
    show ((d.tables moduleRepo).save row).get row.id ≠ none
    rw [Repository.get_save_self]
    exact Option.some_ne_none _
  let d₂ : State := d₁.inserts around (lessonInsertions driver row.id m.data.lessons)
  have hadded : LessonsAdded d₁ d₂ row.id m.lessons :=
    lessonsAdded (hfresh.insert moduleRepo row.data) (hrefs.insert_module hcourse) hmodule
  refine ⟨hadded.courses, fun id => ?_, hadded.referenced⟩
  have hmodulesOf : modulesOf d₂ id = modulesOf d id ++ if courseId = id then [row] else [] := by
    unfold modulesOf
    rw [hadded.modules]
    exact modulesOf_insert hfresh row.data id
  -- The modules from before have the lessons that they had.
  have hold : ∀ old ∈ modulesOf d id, plainModule d₂ old = plainModule d old := by
    intro old hold
    have hstored : (d.tables moduleRepo).get old.id = some old :=
      Repository.mem_def.mp (Repository.mem_inserted.mp (List.mem_of_mem_filter hold))
    have hid : row.id ≠ old.id := by
      intro hid
      rw [← hid, hnew] at hstored
      cases hstored
    unfold plainModule
    rw [hadded.lessons, if_neg hid, List.append_nil]
    rfl
  have hrow : plainModule d₂ row = m := by
    unfold plainModule
    rw [hadded.lessons, if_pos rfl]
    have hnone : lessonsOf d₁ row.id = [] := hrefs.lessonsOf_eq_nil hnew
    rw [hnone]
    simp [row, newModule, CourseJsonModule.data, Driver.toText]
  show (modulesOf d₂ id).map (plainModule d₂) = _
  rw [hmodulesOf, List.map_append, List.map_congr_left hold]
  unfold contents
  congr 1
  split
  · exact congrArg (· :: []) hrow
  · rfl

theorem modulesAdded {modules : List CourseJsonModule} (hfresh : FreshKeys around d)
    (hrefs : Referenced d) (hcourse : (d.tables courseRepo).get courseId ≠ none) :
    ModulesAdded d
      (d.inserts around (moduleInsertions driver around.key courseId d.count
        (modules.map CourseJsonModule.data))) courseId modules := by
  induction modules generalizing d with
  | nil => exact ⟨rfl, fun id => by simp [moduleInsertions, Served.inserts], hrefs⟩
  | cons m modules ih =>
    let d₁ : State := d.insert around moduleRepo (newModule driver courseId m.data)
    let lessons := lessonInsertions driver (around.key d.count) m.data.lessons
    let d₂ : State := d₁.inserts around lessons
    have hadded : ModulesAdded d d₂ courseId [m] := moduleAdded hfresh hrefs hcourse
    have hcount : d₂.count = d.count + 1 + m.data.lessons.length := by
      have hlength : lessons.length = m.data.lessons.length := List.length_map _
      exact (count_inserts (S := schema)).trans (congrArg (d.count + 1 + ·) hlength)
    have hinserts : d.inserts around (moduleInsertions driver around.key courseId d.count
        ((m :: modules).map CourseJsonModule.data)) =
          d₂.inserts around (moduleInsertions driver around.key courseId d₂.count
            (modules.map CourseJsonModule.data)) := by
      rw [hcount]
      exact inserts_append (S := schema)
    rw [hinserts]
    refine hadded.trans (ih (hfresh.insert moduleRepo _).inserts hadded.referenced ?_)
    rw [hadded.courses]
    exact hcourse

/-- What `persist` adds to the new course. -/
theorem modulesAdded_persisted {course : CourseJson} {userId : String}
    (hfresh : FreshKeys around d) (hrefs : Referenced d) :
    ModulesAdded (d.insert around courseRepo (newCourse driver course.data userId))
      (d.inserts around (insertions driver around.key d.count course.data userId))
      (around.key d.count) course.modules := by
  let data := newCourse driver course.data userId
  let row : CourseRow := ⟨around.key d.count, around.now d.count, around.now d.count, data⟩
  have hcourse : ((d.insert around courseRepo data).tables courseRepo).get row.id ≠ none := by
    show ((d.tables courseRepo).save row).get row.id ≠ none
    rw [Repository.get_save_self]
    exact Option.some_ne_none _
  exact modulesAdded (hfresh.insert courseRepo data) (hrefs.insert_course data) hcourse

/-- The contents of the new course are those of the payload. -/
theorem contents_persisted {course : CourseJson} {userId : String} (hfresh : FreshKeys around d)
    (hrefs : Referenced d) :
    let row : CourseRow :=
      ⟨around.key d.count, around.now d.count, around.now d.count,
        newCourse driver course.data userId⟩
    let d' := d.inserts around (insertions driver around.key d.count course.data userId)
    row ∈ d'.tables courseRepo ∧ contents d' row.id = course.modules := by
  intro row d'
  let d₁ : State := d.insert around courseRepo row.data
  have hadded : ModulesAdded d₁ d' row.id course.modules := modulesAdded_persisted hfresh hrefs
  have hnone : modulesOf d₁ row.id = [] :=
    hrefs.modulesOf_eq_nil (hfresh.new d.count courseRepo (le_refl _))
  constructor
  · rw [hadded.courses]
    exact Repository.mem_save.mpr (.inl rfl)
  · rw [hadded.contents, if_pos rfl]
    unfold contents
    rw [hnone]
    rfl

/-- The contents of the other courses are what they were. -/
theorem contents_others {course : CourseJson} {userId id : String} (hfresh : FreshKeys around d)
    (hrefs : Referenced d) (hother : id ≠ around.key d.count) :
    contents (d.inserts around (insertions driver around.key d.count course.data userId)) id =
      contents d id := by
  rw [(modulesAdded_persisted hfresh hrefs).contents, if_neg hother.symm, List.append_nil]
  rfl

end Added

/-! ## What the import reads -/

namespace JsonImportStrategy

theorem lessonData_toValue (lesson : CourseJsonLesson) :
    lessonData lesson.toValue = lesson.data := by
  obtain ⟨title, content, videoUrl, order, durationMinutes⟩ := lesson
  cases videoUrl <;>
    simp [lessonData, CourseJsonLesson.toValue, CourseJsonLesson.data, Value.field]

theorem moduleData_toValue (m : CourseJsonModule) : moduleData m.toValue = m.data := by
  simp [moduleData, CourseJsonModule.toValue, CourseJsonModule.data, Value.field, Value.items,
    Function.comp_def, lessonData_toValue]

theorem courseData_toValue (course : CourseJson) : courseData course.toValue = course.data := by
  simp [courseData, CourseJson.toValue, CourseJson.data, Value.field, Value.items,
    Function.comp_def, moduleData_toValue]

theorem validateLessons_toValue {lessons : List CourseJsonLesson}
    (h : ∀ lesson ∈ lessons, lesson.title ≠ "") :
    validateLessons (lessons.map CourseJsonLesson.toValue) = .ok () := by
  induction lessons with
  | nil => rfl
  | cons lesson lessons ih =>
    obtain ⟨htitle, hrest⟩ := List.forall_mem_cons.mp h
    have hread : Value.read (some lesson.toValue) "title" = .ok (some (.str lesson.title)) := rfl
    have hcontent : lesson.toValue.field "content" = some (.str lesson.content) := rfl
    rw [List.map_cons, validateLessons, hread, hcontent]
    simpa [htitle, bind, Except.bind] using ih hrest

theorem validateModules_toValue {modules : List CourseJsonModule}
    (h : ∀ m ∈ modules, m.title ≠ "" ∧ ∀ lesson ∈ m.lessons, lesson.title ≠ "") :
    validateModules (modules.map CourseJsonModule.toValue) = .ok () := by
  induction modules with
  | nil => rfl
  | cons m modules ih =>
    obtain ⟨⟨htitle, hlessons⟩, hrest⟩ := List.forall_mem_cons.mp h
    have hread : Value.read (some m.toValue) "title" = .ok (some (.str m.title)) := rfl
    have hitems : Value.items (m.toValue.field "lessons") =
        some (m.lessons.map CourseJsonLesson.toValue) := rfl
    rw [List.map_cons, validateModules, hread, hitems]
    simpa [htitle, validateLessons_toValue hlessons, bind, Except.bind] using ih hrest

theorem readPayload_toValue {parse : String → Option Value} {file : String}
    {payload : CourseJsonExport} (hparse : parse file = some payload.toValue)
    (htitle : payload.course.title ≠ "") (hdescription : payload.course.description ≠ "")
    (hmodules : ∀ m ∈ payload.course.modules,
      m.title ≠ "" ∧ ∀ lesson ∈ m.lessons, lesson.title ≠ "") :
    readPayload parse file = .ok payload.course.data := by
  have hcourse : payload.toValue.field "course" = some payload.course.toValue := rfl
  have hvalid : validateJsonPayload payload.toValue = .ok () := by
    have hoptional : Value.optional (some payload.toValue) "course" =
        some payload.course.toValue := rfl
    have htitle' : Value.optional (some payload.course.toValue) "title" =
        some (.str payload.course.title) := rfl
    have hdescription' : Value.read (some payload.course.toValue) "description" =
        .ok (some (.str payload.course.description)) := rfl
    have hmodules' : Value.read (some payload.course.toValue) "modules" =
        .ok (some (.arr (payload.course.modules.map CourseJsonModule.toValue))) := rfl
    rw [validateJsonPayload, hoptional, htitle', hdescription', hmodules']
    simpa [htitle, hdescription, Value.items, bind, Except.bind] using
      validateModules_toValue hmodules
  rw [readPayload, hparse]
  dsimp only
  rw [hvalid, hcourse, ← courseData_toValue]
  rfl

end JsonImportStrategy

/-! ## The round trip -/

/-- The titles and the description that an import asks for are there. -/
structure Titled (d : State) (course : CourseRow) : Prop where
  title : course.data.title ≠ ""
  description : course.data.description ≠ ""
  modules : ∀ m ∈ modulesOf d course.id, m.data.title ≠ ""
  lessons : ∀ m ∈ modulesOf d course.id, ∀ lesson ∈ lessonsOf d m.id, lesson.data.title ≠ ""

theorem Titled.sortedModules {d : State} {course : CourseRow} (h : Titled d course) :
    ∀ m ∈ sortedModules (contents d course.id),
      m.title ≠ "" ∧ ∀ lesson ∈ m.lessons, lesson.title ≠ "" := by
  intro m hm
  obtain ⟨plain, hplain, rfl⟩ := List.mem_map.mp (mem_sortByOrder.mp hm)
  obtain ⟨row, hrow, rfl⟩ := List.mem_map.mp hplain
  refine ⟨h.modules row hrow, fun lesson hlesson => ?_⟩
  obtain ⟨lessonRow, hlessonRow, rfl⟩ := List.mem_map.mp (mem_sortByOrder.mp hlesson)
  exact h.lessons row hrow lessonRow hlessonRow

/-- A course that is exported, imported and exported again has the same payload, up to the date of
the export. -/
theorem export_import_round_trip (around : Around) (d : State) (driver : Driver)
    (parse : String → Option Value) (stringify : Value → String) (course : CourseRow)
    (userId now now' : String)
    (hfresh : FreshKeys around d) (hrefs : Referenced d) (hcourse : course ∈ d.tables courseRepo)
    (hdeleted : course.data.isDeleted = false) (htitled : Titled d course)
    (hjson : ∀ payload d₁, alone around.calm d (exportCourse course.id now) = (.ok payload, d₁) →
      parse (stringify payload.toValue) = some payload.toValue) :
    ∃ payload id d₁ d₂ d₃,
      alone around.calm d (exportCourse course.id now) = (.ok payload, d₁) ∧
      alone around.calm d₁ (JsonImportStrategy.importFile driver parse
        (stringify payload.toValue) userId) = (.ok id, d₂) ∧
      alone around.calm d₂ (exportCourse id now') =
        (.ok { payload with exportedAt := now' }, d₃) := by
  let payload := payloadOf d course now
  let d₁ := afterReads d (2 + (modulesOf d course.id).length)
  have hexport : alone around.calm d (exportCourse course.id now) = (.ok payload, d₁) :=
    run_exportCourse hcourse hdeleted now
  have hfresh₁ : FreshKeys around d₁ :=
    ⟨fun n t hn => hfresh.new n t (Nat.le_of_add_right_le hn),
      fun m n hm => hfresh.distinct m n (Nat.le_of_add_right_le hm)⟩
  have hrefs₁ : Referenced d₁ := ⟨hrefs.courses, hrefs.modules⟩
  let row : CourseRow :=
    ⟨around.key d₁.count, around.now d₁.count, around.now d₁.count,
      newCourse driver payload.course.data userId⟩
  let d₂ := d₁.inserts around (insertions driver around.key d₁.count payload.course.data userId)
  obtain ⟨hrow, hcontents⟩ :
      row ∈ d₂.tables courseRepo ∧ contents d₂ row.id = payload.course.modules :=
    contents_persisted hfresh₁ hrefs₁
  have himport : alone around.calm d₁ (JsonImportStrategy.importFile driver parse
      (stringify payload.toValue) userId) = (.ok row.id, d₂) := by
    have hread := JsonImportStrategy.readPayload_toValue (hjson payload d₁ hexport) htitled.title
      htitled.description htitled.sortedModules
    have hinserts : insertAll around.calm d₁
        (insertions driver around.key d₁.count payload.course.data userId) = (.ok (), d₂) :=
      hfresh₁.insertAll_calm (fun _ _ _ => rfl)
        (throws_insertions.mpr (CourseJson.storable driver payload.course))
    unfold JsonImportStrategy.importFile
    rw [hread]
    show alone around.calm d₁ (persist driver payload.course.data userId) = _
    rw [run_persist]
    exact congrArg _ hinserts
  have hagain : payloadOf d₂ row now' = { payload with exportedAt := now' } := by
    have hsorted : sortedModules payload.course.modules = payload.course.modules :=
      sortedModules_sortedModules (contents d course.id)
    unfold payloadOf
    rw [hcontents, hsorted]
    simp only [row, newCourse_data]
    rfl
  refine ⟨payload, row.id, d₁, d₂, afterReads d₂ (2 + (modulesOf d₂ row.id).length), hexport,
    himport, ?_⟩
  rw [← hagain]
  exact run_exportCourse hrow rfl now'

def exampleAround : Around where
  now := fun _ => 0
  key := fun n => String.ofList (List.replicate (n + 1) 'k')
  fails := fun _ _ => none
  duplicate := .internal "duplicate key value violates unique constraint"

def exampleCourse : CourseRow :=
  ⟨"k", 0, 0,
    { title := "Stellar"
      description := "Basics"
      level := "beginner"
      durationHours := 1
      requiresKyc := false
      instructorId := some "u1" }⟩

/-- A course with two modules of the same order. -/
def exampleState : State :=
  Served.inserts .empty exampleAround
    [⟨courseRepo, exampleCourse.data, none⟩,
      ⟨moduleRepo, { courseId := "k", title := "Keys", order := 1 }, none⟩,
      ⟨moduleRepo, { courseId := "k", title := "Accounts", order := 1 }, none⟩,
      ⟨lessonRepo,
        { moduleId := "kk"
          title := "Seeds"
          content := ""
          videoUrl := none
          order := 0
          durationMinutes := 5 }, none⟩]

def exampleDate : String := "2025-01-01T00:00:00.000Z"

def exampleFile : String :=
  "\x7b\"version\":\"1.0\",\"exportedAt\":\"2025-01-01T00:00:00.000Z\",\"course\":\x7b" ++
  "\"title\":\"Stellar\",\"description\":\"Basics\",\"level\":\"beginner\"," ++
  "\"durationHours\":1,\"requiresKyc\":false,\"modules\":[\x7b\"title\":\"Keys\",\"order\":1," ++
  "\"lessons\":[\x7b\"title\":\"Seeds\",\"content\":\"\",\"order\":0,\"durationMinutes\":5\x7d]" ++
  "\x7d,\x7b\"title\":\"Accounts\",\"order\":1,\"lessons\":[]\x7d]\x7d\x7d"

theorem fresh_empty : FreshKeys exampleAround .empty := by
  refine ⟨fun n t _ => rfl, fun m n _ hmn heq => ?_⟩
  have hlength := congrArg String.length heq
  simp only [exampleAround, String.length_ofList, List.length_replicate] at hlength
  omega

theorem referenced_empty : Referenced .empty :=
  ⟨fun _ hrow => absurd hrow Repository.not_mem_empty,
    fun _ hrow => absurd hrow Repository.not_mem_empty⟩

theorem referenced_example : Referenced exampleState := by
  refine (((referenced_empty.insert_course _).insert_module ?_).insert_module ?_).insert_lesson ?_
  · decide
  · decide
  · decide

theorem export_import_round_trip_ties :
    ∃ payload id d₁ d₂ d₃,
      alone exampleAround.calm exampleState (exportCourse "k" exampleDate) = (.ok payload, d₁) ∧
      alone exampleAround.calm d₁ (JsonImportStrategy.importFile
        { text := fun _ => "", integer := fun _ => 0, boolean := fun _ => false }
        (fun file =>
          if file = exampleFile then
            some (payloadOf exampleState exampleCourse exampleDate).toValue
          else none)
        exampleFile "u2") = (.ok id, d₂) ∧
      alone exampleAround.calm d₂ (exportCourse id "2025-01-02T00:00:00.000Z") =
        (.ok { payload with exportedAt := "2025-01-02T00:00:00.000Z" }, d₃) := by
  have hcourse : exampleCourse ∈ exampleState.tables courseRepo := by decide
  refine export_import_round_trip exampleAround exampleState _ _ (fun _ => exampleFile)
    exampleCourse "u2" exampleDate _ fresh_empty.inserts referenced_example hcourse rfl ?_ ?_
  · constructor <;> decide
  · intro payload d₁ hexport
    rw [run_exportCourse hcourse rfl] at hexport
    cases hexport
    exact if_pos rfl

end Scoopdope.ImportExport
