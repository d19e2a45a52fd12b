import Mathlib.Data.List.Nodup
import Mathlib.Data.Rat.Defs
import Scoopdope.Database.Repository
import Scoopdope.Server.Http

/-!
# Courses: versions

`createVersion`, `getVersion`, `rollback` and `computeDiff` of `CourseVersioningService`
(`courses/course-versioning.service.ts`). A snapshot has all columns of the course and its modules
with their lessons. `rollback` writes five of the columns back, and `computeDiff` compares them all.

`rollback_restores_iff`: throughout a run of edits, versions and rollbacks, a version is restored
exactly where the other columns, the modules and the lessons are already those of the version.

A call runs to its end before the next one. Rows come in no specified order.
-/

namespace Scoopdope.Courses.CourseVersioningService

open Database Server

/-! ## Entities -/

inductive CourseStatus
  | draft
  | scheduled
  | published
deriving DecidableEq

structure Course where
  id : String
  title : String
  description : String
  level : String
  language : String
  durationHours : Int
  status : CourseStatus
  isPublished : Bool
  isDeleted : Bool
  requiresKyc : Bool
  instructorId : Option String
  thumbnailUrl : Option String
  priceUsd : Option Rat
  skills : Option (List String)
  scheduledAt : Option Int
  publishedAt : Option Int
  maxEnrollment : Option Int
  createdAt : Int
deriving DecidableEq

structure CourseModule where
  id : String
  courseId : String
  title : String
  order : Int
  releaseDate : Option Int
  createdAt : Int
deriving DecidableEq

structure Lesson where
  id : String
  moduleId : String
  title : String
  content : String
  videoUrl : Option String
  /-- As a text. -/
  transcript : Option String
  transcriptSrt : Option String
  transcriptionJobName : Option String
  order : Int
  durationMinutes : Int
  createdAt : Int
deriving DecidableEq

/-- A module with its lessons. -/
structure ModuleSnapshot where
  mod : CourseModule
  lessons : List Lesson
deriving DecidableEq

/-- A course with its modules. -/
structure Snapshot where
  course : Course
  modules : List ModuleSnapshot
deriving DecidableEq

structure CourseVersion where
  id : String
  courseId : String
  versionTag : String
  versionNumber : Nat
  snapshot : Snapshot
  changeNote : String
  createdById : Option String
  createdAt : Int

structure State where
  courses : Repository Course.id
  modules : Repository CourseModule.id
  lessons : Repository Lesson.id
  versions : Repository CourseVersion.id

/-- What a call finds: the primary key and the date of an insertion, and the order in which rows are
returned. -/
structure Around where
  key : String
  now : Int
  orderModules : List CourseModule → List CourseModule
  orderLessons : List Lesson → List Lesson
  orderModules_perm : ∀ rows, (orderModules rows).Perm rows
  orderLessons_perm : ∀ rows, (orderLessons rows).Perm rows

/-! ## The service -/

/-- `relations: ['modules', 'modules.lessons']` -/
def modulesOf (around : Around) (courseId : String) (s : State) : List ModuleSnapshot :=
  (around.orderModules (s.modules.find fun mod => mod.courseId = courseId)).map fun mod =>
    ⟨mod, around.orderLessons (s.lessons.find fun lesson => lesson.moduleId = mod.id)⟩

def createVersion (around : Around) (courseId changeNote : String) (createdById : Option String)
    (s : State) : Except HttpException CourseVersion × State :=
  match s.courses.findOne fun course => course.id = courseId && !course.isDeleted with
  | none => (.error (.notFound "Course not found"), s)
  | some course =>
    let count := (s.versions.find fun version => version.courseId = courseId).length
    let versionNumber := count + 1
    let version : CourseVersion :=
      { id := around.key
        courseId := courseId
        versionTag := "v" ++ toString versionNumber ++ ".0"
        versionNumber := versionNumber
        snapshot := ⟨course, modulesOf around courseId s⟩
        changeNote := changeNote
        createdById := createdById
        createdAt := around.now }
    (.ok version, { s with versions := s.versions.save version })

def getVersion (courseId versionId : String) (s : State) : Except HttpException CourseVersion :=
  match s.versions.findOne fun version => version.id = versionId && version.courseId = courseId with
  | none => .error (.notFound "Version not found")
  | some version => .ok version

/-- The columns that `rollback` writes. -/
def restored (fields course : Course) : Course :=
  { course with
    title := fields.title
    description := fields.description
    level := fields.level
    durationHours := fields.durationHours
    isPublished := fields.isPublished }

/-- `courseRepo.update(courseId, { ... })` -/
def updateCourse (courseId : String) (f : Course → Course) (s : State) : State :=
  match s.courses.get courseId with
  | none => s
  | some course => { s with courses := s.courses.save (f course) }

def rollback (courseId versionId : String) (s : State) : Except HttpException Course × State :=
  match getVersion courseId versionId s with
  | .error x => (.error x, s)
  | .ok version =>
    let s := updateCourse courseId (restored version.snapshot.course) s
    match s.courses.get courseId with
    | none => (.error (.notFound "Course not found after rollback"), s)
    | some updated => (.ok updated, s)

/-- What a snapshot has under a key. Two of these have the same text only if they are equal. -/
inductive Field
  | text (text : Option String)
  | status (status : CourseStatus)
  | number (n : Option Rat)
  | boolean (b : Bool)
  | texts (texts : Option (List String))
  | date (date : Option Int)
  | modules (modules : List ModuleSnapshot)
deriving DecidableEq

/-- The keys of a snapshot, with what it has under them. -/
def Snapshot.entries (snapshot : Snapshot) : List (String × Field) :=
  [("id", .text snapshot.course.id),
    ("title", .text snapshot.course.title),
    ("description", .text snapshot.course.description),
    ("level", .text snapshot.course.level),
    ("language", .text snapshot.course.language),
    ("durationHours", .number (some snapshot.course.durationHours)),
    ("status", .status snapshot.course.status),
    ("isPublished", .boolean snapshot.course.isPublished),
    ("isDeleted", .boolean snapshot.course.isDeleted),
    ("requiresKyc", .boolean snapshot.course.requiresKyc),
    ("instructorId", .text snapshot.course.instructorId),
    ("thumbnailUrl", .text snapshot.course.thumbnailUrl),
    ("priceUsd", .number snapshot.course.priceUsd),
    ("skills", .texts snapshot.course.skills),
    ("scheduledAt", .date snapshot.course.scheduledAt),
    ("publishedAt", .date snapshot.course.publishedAt),
    ("maxEnrollment", .number (snapshot.course.maxEnrollment.map Int.cast)),
    ("createdAt", .date snapshot.course.createdAt),
    ("modules", .modules snapshot.modules)]

/-- The keys under which the two differ. -/
def computeDiff (original current : List (String × Field)) :
    List (String × Option Field × Option Field) :=
  let keys := (original.map Prod.fst ++ current.map Prod.fst).eraseDups
  keys.filterMap fun key =>
    if original.lookup key ≠ current.lookup key then
      some (key, original.lookup key, current.lookup key)
    else none

/-! ## Runs -/

/-- A row is edited, or the service is called. -/
inductive Event
  | saveCourse (course : Course)
  | saveModule (mod : CourseModule)
  | removeModule (id : String)
  | saveLesson (lesson : Lesson)
  | removeLesson (id : String)
  | createVersion (around : Around) (courseId changeNote : String) (createdById : Option String)
  | rollback (courseId versionId : String)

def next (s : State) : Event → State
  | .saveCourse course => { s with courses := s.courses.save course }
  | .saveModule mod => { s with modules := s.modules.save mod }
  | .removeModule id => { s with modules := s.modules.remove id }
  | .saveLesson lesson => { s with lessons := s.lessons.save lesson }
  | .removeLesson id => { s with lessons := s.lessons.remove id }
  | .createVersion around courseId changeNote createdById =>
    (createVersion around courseId changeNote createdById s).2
  | .rollback courseId versionId => (rollback courseId versionId s).2

/-- The state after a run, newest first. -/
def reached : List Event → State
  | [] => ⟨.empty, .empty, .empty, .empty⟩
  | i :: past => next (reached past) i

/-! ## Contents apart from timestamps -/

def Course.content (course : Course) : Course := { course with createdAt := 0 }

def ModuleSnapshot.content (m : ModuleSnapshot) : ModuleSnapshot where
  mod := { m.mod with createdAt := 0 }
  lessons := m.lessons.map fun lesson => { lesson with createdAt := 0 }

def Snapshot.content (snapshot : Snapshot) : Snapshot where
  course := snapshot.course.content
  modules := snapshot.modules.map ModuleSnapshot.content

/-- The columns that edits change and `rollback` does not write, apart from timestamps. -/
def unwritten (course : Course) : Course :=
  { course with
    id := ""
    title := ""
    description := ""
    level := ""
    durationHours := 0
    isPublished := false
    isDeleted := false
    createdAt := 0 }

/-- What `rollback` does not write is that of the snapshot already. -/
structure InPlace (around : Around) (courseId : String) (s : State) (snapshot : Snapshot) :
    Prop where
  course : ∀ course, s.courses.get courseId = some course →
    unwritten course = unwritten snapshot.course
  modules : (modulesOf around courseId s).map ModuleSnapshot.content =
    snapshot.modules.map ModuleSnapshot.content

variable {s : State} {around : Around} {courseId versionId changeNote : String}
  {createdById : Option String} {version created : CourseVersion} {course updated : Course}

/-! ## What is compared -/

/-- With the same keys on both sides, entries are equal if what is looked up is. -/
theorem eq_of_lookup {original current : List (String × Field)}
    (hkeys : original.map Prod.fst = current.map Prod.fst)
    (hnodup : (original.map Prod.fst).Nodup)
    (h : ∀ key ∈ original.map Prod.fst, original.lookup key = current.lookup key) :
    original = current := by
  induction original generalizing current with
  | nil => exact (List.map_eq_nil_iff.mp hkeys.symm).symm
  | cons entry original ih =>
    obtain ⟨entry', current, rfl, hkey, hrest⟩ := List.map_eq_cons_iff.mp hkeys.symm
    obtain ⟨key, field⟩ := entry
    obtain ⟨key', field'⟩ := entry'
    cases hkey
    rw [List.map_cons, List.nodup_cons] at hnodup
    have hfield : field = field' := by
      have hlookup := h key List.mem_cons_self
      rw [List.lookup_cons_self, List.lookup_cons_self] at hlookup
      exact Option.some.inj hlookup
    have htail : original = current := by
      refine ih hrest.symm hnodup.2 fun other hother => ?_
      have hne : (other == key) = false := by
        rw [beq_eq_false_iff_ne]
        rintro rfl
        exact hnodup.1 hother
      have hlookup := h other (List.mem_cons_of_mem _ hother)
      rwa [List.lookup_cons, List.lookup_cons, hne] at hlookup
    rw [hfield, htail]

theorem computeDiff_eq_nil {original current : List (String × Field)} :
    computeDiff original current = [] ↔
      ∀ key ∈ original.map Prod.fst ++ current.map Prod.fst,
        original.lookup key = current.lookup key := by
  unfold computeDiff
  rw [List.filterMap_eq_nil_iff]
  constructor
  · intro h key hkey
    by_contra hne
    have hnone := h key (List.mem_eraseDups.mpr hkey)
    rw [if_pos hne] at hnone
    cases hnone
  · intro h key hkey
    exact if_neg (not_not_intro (h key (List.mem_eraseDups.mp hkey)))

theorem keys_entries (snapshot : Snapshot) : snapshot.entries.map Prod.fst =
    ["id", "title", "description", "level", "language", "durationHours", "status", "isPublished",
      "isDeleted", "requiresKyc", "instructorId", "thumbnailUrl", "priceUsd", "skills",
      "scheduledAt", "publishedAt", "maxEnrollment", "createdAt", "modules"] := rfl

theorem entries_injective : Function.Injective Snapshot.entries := by
  rintro ⟨course, modules⟩ ⟨course', modules'⟩ h
  have hmax : Function.Injective (Option.map (Int.cast : Int → Rat)) :=
    Option.map_injective Int.cast_injective
  cases course
  cases course'
  simp only [Snapshot.entries, List.cons.injEq, Prod.mk.injEq, Field.text.injEq,
    Field.status.injEq, Field.number.injEq, Field.boolean.injEq, Field.texts.injEq,
    Field.date.injEq, Field.modules.injEq, Option.some.injEq, Int.cast_inj, hmax.eq_iff,
    true_and, and_true] at h
  simp only [h]

/-- Two snapshots have no difference only if they are equal. -/
theorem computeDiff_entries {a b : Snapshot} : computeDiff a.entries b.entries = [] ↔ a = b := by
  constructor
  · intro h
    have hkeys := (keys_entries a).trans (keys_entries b).symm
    have hnodup : (a.entries.map Prod.fst).Nodup := by
      rw [keys_entries]
      decide
    refine entries_injective (eq_of_lookup hkeys hnodup fun key hkey => ?_)
    exact computeDiff_eq_nil.mp h key (List.mem_append_left _ hkey)
  · rintro rfl
    exact computeDiff_eq_nil.mpr fun _ _ => rfl

theorem content_restored {fields : Course} (hid : course.id = fields.id)
    (hdeleted : course.isDeleted = fields.isDeleted) :
    (restored fields course).content = fields.content ↔ unwritten course = unwritten fields := by
  cases course
  cases fields
  cases hid
  cases hdeleted
  simp [restored, Course.content, unwritten]

/-! ## The versions along a run -/

/-- Every version is of a course that was not deleted. -/
def Recorded (s : State) : Prop :=
  ∀ version ∈ s.versions,
    version.snapshot.course.id = version.courseId ∧ version.snapshot.course.isDeleted = false

/-- The course that `createVersion` finds. -/
theorem get_of_found
    (h : (s.courses.findOne fun course => course.id = courseId && !course.isDeleted) =
      some course) :
    s.courses.get courseId = some course ∧ course.isDeleted = false := by
  obtain ⟨hholds, hget⟩ := Repository.findOne_some h
  rw [Bool.and_eq_true, decide_eq_true_iff, Bool.not_eq_true'] at hholds
  rw [hholds.1] at hget
  exact ⟨hget, hholds.2⟩

theorem createVersion_ok
    (h : (createVersion around courseId changeNote createdById s).1 = .ok created) :
    s.courses.get courseId = some created.snapshot.course ∧
      created.snapshot.course.isDeleted = false ∧
      created.snapshot.modules = modulesOf around courseId s := by
  unfold createVersion at h
  split at h
  next => cases h
  next course hfound =>
    cases h
    exact ⟨(get_of_found hfound).1, (get_of_found hfound).2, rfl⟩

theorem Recorded.createVersion (h : Recorded s) :
    Recorded (createVersion around courseId changeNote createdById s).2 := by
  unfold CourseVersioningService.createVersion
  split
  next => exact h
  next course hfound =>
    obtain ⟨hget, hdeleted⟩ := get_of_found hfound
    intro version hversion
    rcases Repository.mem_save.mp hversion with rfl | ⟨hold, -⟩
    · exact ⟨Repository.key_of_get hget, hdeleted⟩
    · exact h version hold

theorem updateCourse_versions (f : Course → Course) :
    (updateCourse courseId f s).versions = s.versions := by
  unfold updateCourse
  split
  next => rfl
  next => rfl

theorem modulesOf_updateCourse (f : Course → Course) :
    modulesOf around courseId (updateCourse courseId f s) = modulesOf around courseId s := by
  unfold updateCourse
  split
  next => rfl
  next => rfl

theorem get_updateCourse {f : Course → Course} (hid : ∀ course, (f course).id = course.id) :
    (updateCourse courseId f s).courses.get courseId = (s.courses.get courseId).map f := by
  unfold updateCourse
  split
  next hnone => rw [hnone, Option.map_none]
  next course hget =>
    have hkey : courseId = (f course).id :=
      (Repository.key_of_get hget).symm.trans (hid course).symm
    rw [hget, Repository.get_save, if_pos hkey, Option.map_some]

theorem rollback_versions : (rollback courseId versionId s).2.versions = s.versions := by
  unfold rollback
  split
  next => rfl
  next version hversion =>
    dsimp only
    split
    next => exact updateCourse_versions _
    next => exact updateCourse_versions _

theorem recorded_next (h : Recorded s) (i : Event) : Recorded (next s i) := by
  cases i with
  | saveCourse course => exact h
  | saveModule mod => exact h
  | removeModule id => exact h
  | saveLesson lesson => exact h
  | removeLesson id => exact h
  | createVersion around courseId changeNote createdById => exact h.createVersion
  | rollback courseId versionId =>
    have hversions : (next s (.rollback courseId versionId)).versions = s.versions :=
      rollback_versions
    intro version hversion
    rw [hversions] at hversion
    exact h version hversion

theorem recorded_reached (run : List Event) : Recorded (reached run) := by
  induction run with
  | nil => exact fun _ h => absurd h Repository.not_mem_empty
  | cons i past ih => exact recorded_next ih i

theorem getVersion_ok (h : getVersion courseId versionId s = .ok version) :
    version ∈ s.versions ∧ version.courseId = courseId := by
  unfold getVersion at h
  split at h
  next => cases h
  next found hfound =>
    cases h
    obtain ⟨hholds, hget⟩ := Repository.findOne_some hfound
    rw [Bool.and_eq_true, decide_eq_true_iff, decide_eq_true_iff] at hholds
    exact ⟨hget, hholds.2⟩

/-- What `rollback` comes to. -/
theorem rollback_ok (hversion : getVersion courseId versionId s = .ok version)
    (h : (rollback courseId versionId s).1 = .ok updated) :
    (rollback courseId versionId s).2 =
      updateCourse courseId (restored version.snapshot.course) s := by
  unfold rollback at h ⊢
  rw [hversion] at h ⊢
  dsimp only at h ⊢
  split at h
  next => cases h
  next => rfl

/-- After any run, the version that is created directly after a rollback has the content of the
version that was rolled back to if and only if all that `rollback` does not write has it already. -/
theorem rollback_restores_iff (run : List Event) (around : Around)
    (courseId versionId changeNote : String) (createdById : Option String)
    (version created : CourseVersion) (updated : Course)
    (hversion : getVersion courseId versionId (reached run) = .ok version)
    (hrollback : (rollback courseId versionId (reached run)).1 = .ok updated)
    (hcreate : (createVersion around courseId changeNote createdById
      (rollback courseId versionId (reached run)).2).1 = .ok created) :
    computeDiff version.snapshot.content.entries created.snapshot.content.entries = [] ↔
      InPlace around courseId (reached run) version.snapshot := by
  obtain ⟨hmem, hcourse⟩ := getVersion_ok hversion
  obtain ⟨hid, hdeleted⟩ := recorded_reached run version hmem
  obtain ⟨hget, hcreated, hmodules⟩ := createVersion_ok hcreate
  have hrestores : ∀ course, (restored version.snapshot.course course).id = course.id :=
    fun _ => rfl
  rw [rollback_ok hversion hrollback] at hget hmodules
  rw [get_updateCourse hrestores] at hget
  obtain ⟨course, hbefore, hrestored⟩ := Option.map_eq_some_iff.mp hget
  rw [modulesOf_updateCourse] at hmodules
  rw [← hrestored] at hcreated
  have hsame : course.id = version.snapshot.course.id := by
    rw [hid, hcourse]
    exact Repository.key_of_get hbefore
  have hkept := content_restored hsame (hcreated.trans hdeleted.symm)
  rw [computeDiff_entries, Snapshot.content, Snapshot.content, Snapshot.mk.injEq, ← hrestored,
    hmodules, eq_comm, hkept]
  constructor
  · rintro ⟨hunwritten, hsnapshot⟩
    refine ⟨fun course' hcourse' => ?_, hsnapshot.symm⟩
    cases hbefore.symm.trans hcourse'
    exact hunwritten
  · intro h
    exact ⟨h.course course hbefore, h.modules.symm⟩

def exampleCourse (title language : String) : Course where
  id := "c1"
  title := title
  description := "Contracts on Stellar"
  level := "beginner"
  language := language
  durationHours := 4
  status := .draft
  isPublished := false
  isDeleted := false
  requiresKyc := false
  instructorId := none
  thumbnailUrl := none
  priceUsd := none
  skills := none
  scheduledAt := none
  publishedAt := none
  maxEnrollment := none
  createdAt := 1

def exampleModule : CourseModule := ⟨"m1", "c1", "Storage", 0, none, 2⟩

def exampleLesson : Lesson :=
  ⟨"l1", "m1", "Keys", "A contract has storage.", none, none, none, none, 0, 10, 3⟩

def exampleAround (key : String) : Around where
  key := key
  now := 4
  orderModules := id
  orderLessons := id
  orderModules_perm := fun _ => .refl _
  orderLessons_perm := fun _ => .refl _

/-- A course with a module and a lesson, of which there is a version. -/
def exampleRun : List Event :=
  [.createVersion (exampleAround "v1") "c1" "first" none, .saveLesson exampleLesson,
    .saveModule exampleModule, .saveCourse (exampleCourse "Soroban" "en")]

def exampleSnapshot : Snapshot :=
  ⟨exampleCourse "Soroban" "en", [⟨exampleModule, [exampleLesson]⟩]⟩

def exampleVersion (id tag : String) (number : Nat) (snapshot : Snapshot) (note : String) :
    CourseVersion :=
  ⟨id, "c1", tag, number, snapshot, note, none, 4⟩

/-- The title was changed. -/
def exampleRetitled : List Event :=
  .saveCourse (exampleCourse "Soroban on Stellar" "en") :: exampleRun

theorem rollback_restores_iff_title :
    (createVersion (exampleAround "v2") "c1" "second" none
      (rollback "c1" "v1" (reached exampleRetitled)).2).1 =
        .ok (exampleVersion "v2" "v2.0" 2 exampleSnapshot "second") ∧
    computeDiff exampleSnapshot.content.entries
      (exampleVersion "v2" "v2.0" 2 exampleSnapshot "second").snapshot.content.entries = [] := by
  have hplace : InPlace (exampleAround "v2") "c1" (reached exampleRetitled) exampleSnapshot := by
    refine ⟨fun course hcourse => ?_, rfl⟩
    cases hcourse
    rfl
  exact ⟨rfl, (rollback_restores_iff exampleRetitled (exampleAround "v2") "c1" "v1" "second" none
    (exampleVersion "v1" "v1.0" 1 exampleSnapshot "first")
    (exampleVersion "v2" "v2.0" 2 exampleSnapshot "second") (exampleCourse "Soroban" "en")
    rfl rfl rfl).mpr hplace⟩

/-- The language was changed, and the lesson was removed. -/
def exampleEdited : List Event :=
  .removeLesson "l1" :: .saveCourse (exampleCourse "Soroban" "es") :: exampleRun

theorem rollback_keeps_edits :
    (rollback "c1" "v1" (reached exampleEdited)).1 = .ok (exampleCourse "Soroban" "es") ∧
    getVersion "c1" "v1" (reached exampleEdited) =
      .ok (exampleVersion "v1" "v1.0" 1 exampleSnapshot "first") ∧
    (createVersion (exampleAround "v2") "c1" "second" none
      (rollback "c1" "v1" (reached exampleEdited)).2).1 =
        .ok (exampleVersion "v2" "v2.0" 2
          ⟨exampleCourse "Soroban" "es", [⟨exampleModule, []⟩]⟩ "second") ∧
    computeDiff exampleSnapshot.content.entries
      (Snapshot.content ⟨exampleCourse "Soroban" "es", [⟨exampleModule, []⟩]⟩).entries =
      [("language", some (.text (some "en")), some (.text (some "es"))),
        ("modules", some (.modules [⟨{ exampleModule with createdAt := 0 },
          [{ exampleLesson with createdAt := 0 }]⟩]),
          some (.modules [⟨{ exampleModule with createdAt := 0 }, []⟩]))] := by
  exact ⟨rfl, rfl, rfl, by decide +kernel⟩

end Scoopdope.Courses.CourseVersioningService
