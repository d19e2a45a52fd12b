import Scoopdope.ImportExport.Service
import Scoopdope.Reviews.Service

/-!
# Import and export: the CSV and the SCORM format

`CsvImportStrategy` (`strategies/csv-import.strategy.ts`) and `ScormImportStrategy`
(`strategies/scorm-import.strategy.ts`). Parameters are the parsers of CSV and XML, the extraction
of the archive, and the directory that it leaves.
-/

namespace Scoopdope.ImportExport

open Async Database Database.Statements Server

variable (driver : Driver)

/-! ## `CsvImportStrategy` -/

namespace CsvImportStrategy

/-- A row, by the names of the columns. -/
abbrev CsvRow : Type := String → Option String

/-- `value || other` -/
def orElse (value : Option String) (other : String) : String := (truthy value).getD other

/-- `parseInt(text, 10)` -/
def parseInt (text : String) : Value :=
  let chars := text.toList.dropWhile Reviews.isSpace
  let (sign, chars) : Int × List Char :=
    match chars with
    | '-' :: chars => (-1, chars)
    | '+' :: chars => (1, chars)
    | chars => (1, chars)
  let digits := chars.takeWhile Char.isDigit
  let n : Nat := digits.foldl (fun n c => 10 * n + (c.toNat - '0'.toNat)) 0
  if digits.isEmpty then .nan else .num (sign * n : Int)

def moduleKey (row : CsvRow) : String :=
  (row "module_order").getD "0" ++ ":" ++ (row "module_title").getD "Module"

def newEntry (row : CsvRow) : ModuleData :=
  { title := .str (orElse (row "module_title") "Module")
    order := some (parseInt (orElse (row "module_order") "0"))
    lessons := [] }

/-- The lesson of a row with a lesson title. -/
def lessonOf (row : CsvRow) : Option LessonData :=
  (truthy (row "lesson_title")).map fun title =>
    { title := .str title
      content := .str (orElse (row "lesson_content") "")
      videoUrl := (truthy (row "lesson_video_url")).map .str
      order := some (parseInt (orElse (row "lesson_order") "0"))
      durationMinutes := some (parseInt (orElse (row "lesson_duration_minutes") "0")) }

/-- What a row adds to `modulesMap`, which keeps the order of its keys. -/
def addRow (modulesMap : List (String × ModuleData)) (row : CsvRow) : List (String × ModuleData) :=
  let key := moduleKey row
  let modulesMap :=
    if modulesMap.any fun entry => entry.1 = key then modulesMap
    else modulesMap ++ [(key, newEntry row)]
  match lessonOf row with
  | none => modulesMap
  | some lesson =>
    modulesMap.map fun entry =>
      if entry.1 = key then (key, { entry.2 with lessons := entry.2.lessons ++ [lesson] })
      else entry

/-- Does the module come no later? A difference that is not a number counts as zero. -/
def notAfter (a b : ModuleData) : Bool :=
  match a.order, b.order with
  | some (.num a), some (.num b) => decide (a ≤ b)
  | _, _ => true

def readPayload (parseCsv : String → Option (List CsvRow)) (file : String) :
    Except HttpException CourseData :=
  match parseCsv file with
  | none => .error (.badRequest "Invalid CSV file")
  | some [] => .error (.badRequest "CSV file is empty")
  | some (first :: rows) =>
    if (truthy (first "course_title")).isNone then
      .error (.badRequest "Missing required CSV column: course_title")
    else if (truthy (first "course_description")).isNone then
      .error (.badRequest "Missing required CSV column: course_description")
    else
      let modulesMap := (first :: rows).foldl addRow []
      .ok
        { title := .str (orElse (first "course_title") "")
          description := .str (orElse (first "course_description") "")
          level := some (.str (orElse (first "course_level") "beginner"))
          durationHours := some (parseInt (orElse (first "course_duration_hours") "0"))
          requiresKyc := some (.bool (decide (first "requires_kyc" = some "true")))
          modules := (modulesMap.map Prod.snd).mergeSort notAfter }

def importCoursePayload (data : CourseData) (userId : String) : Method String :=
  persist driver data userId

def importFile (parseCsv : String → Option (List CsvRow)) (file userId : String) :
    Method String := do
  let data ← readPayload parseCsv file
  importCoursePayload driver data userId

end CsvImportStrategy

/-! ## `ScormImportStrategy` -/

namespace ScormImportStrategy

/-- The directory `dir` with the extracted files, and the parser of XML. -/
structure Package where
  dir : String
  /-- `fs.promises.access` -/
  accessible : String → Bool
  /-- The directories that `fs.promises.readdir` lists in `dir`. -/
  folders : List String
  readFile : String → Except HttpException String
  /-- `path.resolve(dir, name)` -/
  resolve : String → String
  /-- `parseStringPromise(xml, { explicitArray: false })` -/
  parseXml : String → Except HttpException Value

def findManifest (package : Package) : Option String :=
  let direct := package.dir ++ "/imsmanifest.xml"
  if package.accessible direct then some direct
  else
    (package.folders.map fun folder => package.dir ++ "/" ++ folder ++ "/imsmanifest.xml").find?
      package.accessible

def resolveSafe (package : Package) (entryName : String) : Option String :=
  if entryName = "" ∨ '\x00' ∈ entryName.toList then none
  else
    let resolved := package.resolve entryName
    let boundary := package.resolve "."
    if resolved ≠ boundary ∧ ¬ (boundary ++ "/").toList <+: resolved.toList then none
    else some resolved

/-- The loop of `buildResourceMap`. Attributes are strings. A later entry replaces an earlier one of
the same name. -/
def resourcesFrom (package : Package) : List Value → PlainObject →
    Except HttpException PlainObject
  | [], map => .ok map
  | res :: list, map => do
    let attrs ← Value.read (some res) "$"
    match Value.optional attrs "identifier", Value.optional attrs "href" with
    | some (.str id), some (.str href) =>
      if id = "" ∨ href = "" then resourcesFrom package list map
      else
        match (resolveSafe package href).map package.readFile with
        | some (.ok content) => resourcesFrom package list (map.assign id content)
        | _ => resourcesFrom package list map
    | _, _ => resourcesFrom package list map

def buildResourceMap (package : Package) (resources : Option Value) :
    Except HttpException PlainObject :=
  if Value.isTrue resources = false then .ok []
  else resourcesFrom package (Value.asList (Value.optional resources "resource")) []

/-- `Array.isArray(value) ? value[0] : value` -/
def firstOf : Option Value → Option Value
  | some (.arr items) => items.head?
  | value => value

def extractScormTitle (organizations : Option Value) : Option Value :=
  Value.optional (firstOf (Value.optional organizations "organization")) "title"

/-- `value ?? other` -/
def nullish (value : Option Value) (other : Value) : Value := (Value.present value).getD other

/-- `resourceMap[item['$']?.identifierref ?? ''] ?? ''` -/
def contentOf (resourceMap : PlainObject) (item : Value) :
    Except HttpException Value := do
  let attrs ← Value.read (some item) "$"
  match nullish (Value.optional attrs "identifierref") (.str "") with
  | .str ref => .ok (nullish (resourceMap.get ref) (.str ""))
  | _ => .ok (.str "")

def lessonsFrom (resourceMap : PlainObject) : Nat → List Value →
    Except HttpException (List LessonData)
  | _, [] => .ok []
  | li, sub :: subs => do
    let title ← Value.read (some sub) "title"
    let content ← contentOf resourceMap sub
    let lessons ← lessonsFrom resourceMap (li + 1) subs
    .ok
      ({ title := nullish title (.str ("Lesson " ++ toString (li + 1)))
         content
         videoUrl := none
         order := some (.num li)
         durationMinutes := some (.num 0) } :: lessons)

/-- An item without items is a module with one lesson. -/
def moduleFrom (resourceMap : PlainObject) (idx : Nat) (item : Value) :
    Except HttpException ModuleData := do
  let itemTitle := nullish (← Value.read (some item) "title")
    (.str ("Module " ++ toString (idx + 1)))
  let subList := Value.asList (← Value.read (some item) "item")
  let lessons ←
    if subList.isEmpty then do
      let content ← contentOf resourceMap item
      pure
        [{ title := itemTitle, content, videoUrl := none, order := some (.num 0)
           durationMinutes := some (.num 0) }]
    else lessonsFrom resourceMap 0 subList
  pure { title := itemTitle, order := some (.num idx), lessons }

def modulesFrom (resourceMap : PlainObject) : Nat → List Value →
    Except HttpException (List ModuleData)
  | _, [] => .ok []
  | idx, item :: items => do
    let m ← moduleFrom resourceMap idx item
    let modules ← modulesFrom resourceMap (idx + 1) items
    .ok (m :: modules)

def parseScormManifest (package : Package) (manifest : Value) :
    Except HttpException CourseData := do
  let root ← Value.read (some manifest) "manifest"
  let metadata := Value.optional root "metadata"
  let organizations := Value.optional root "organizations"
  let resources := Value.optional root "resources"
  let title := nullish (Value.optional metadata "schema")
    (nullish (extractScormTitle organizations) (.str "Imported SCORM Course"))
  let org := firstOf (Value.optional organizations "organization")
  let orgTitle := Value.optional org "title"
  let itemList := Value.asList (Value.optional org "item")
  let resourceMap ← buildResourceMap package resources
  let modules ← modulesFrom resourceMap 0 itemList
  pure
    { title := nullish orgTitle title
      description := .str "Imported from SCORM package"
      level := some (.str "beginner")
      durationHours := some (.num 0)
      requiresKyc := some (.bool false)
      modules }

/-- The payload of `processExtracted`. -/
def readPackage (package : Package) : Except HttpException CourseData := do
  match findManifest package with
  | none => .error (.badRequest "imsmanifest.xml not found in package")
  | some manifestPath => do
    let xml ← package.readFile manifestPath
    let manifest ← package.parseXml xml
    parseScormManifest package manifest

def processExtracted (package : Package) (userId : String) : Method String := do
  let data ← readPackage package
  persist driver data userId

/-- `importFromPath`, after the file is written. `streamExtract` may reject the file. -/
def importFile (streamExtract : String → Except HttpException Package) (file userId : String) :
    Method String := do
  let package ← streamExtract file
  processExtracted driver package userId

end ScormImportStrategy

/-! ## What a failed import leaves behind

The strategies save the course, its modules and their lessons one by one, outside of a transaction.
An import that throws before the first save has gone through leaves nothing. One that throws later
leaves the course, with the modules and lessons so far: `import_atomic_iff` and
`course_left_behind`. -/

/-- The strategies, with what they read a file with. -/
inductive ImportStrategy
  | json (parse : String → Option Value)
  | csv (parseCsv : String → Option (List CsvImportStrategy.CsvRow))
  | scorm (streamExtract : String → Except HttpException ScormImportStrategy.Package)

namespace ImportStrategy

/-- The course that is to be saved. -/
def readPayload : ImportStrategy → String → Except HttpException CourseData
  | json parse, file => JsonImportStrategy.readPayload parse file
  | csv parseCsv, file => CsvImportStrategy.readPayload parseCsv file
  | scorm streamExtract, file => streamExtract file >>= ScormImportStrategy.readPackage

def importFile (driver : Driver) : ImportStrategy → String → String → Method String
  | json parse => JsonImportStrategy.importFile driver parse
  | csv parseCsv => CsvImportStrategy.importFile driver parseCsv
  | scorm streamExtract => ScormImportStrategy.importFile driver streamExtract

variable {driver : Driver} {strategy : ImportStrategy} {file userId : String}

/-- All strategies read the file, and then save what they have read. -/
theorem importFile_eq : strategy.importFile driver file userId =
    Process.ofExcept (strategy.readPayload file) >>= fun data => persist driver data userId := by
  cases strategy with
  | json parse => rfl
  | csv parseCsv => rfl
  | scorm streamExtract =>
    show (Process.ofExcept (streamExtract file) >>= fun package =>
      ScormImportStrategy.processExtracted driver package userId) =
        (Process.ofExcept (streamExtract file >>= ScormImportStrategy.readPackage) >>= fun data =>
          persist driver data userId)
    cases streamExtract file with
    | error x => rfl
    | ok package => rfl

end ImportStrategy

variable {A : Type} {around : Around} {d : State}

/-- If the method throws, no row remains that it has created. -/
def Atomic (around : Around) (d : State) (p : Method A) : Prop :=
  ∀ x d', alone around d p = (.error x, d') → Keeps d d'

/-- What throws before the first statement. -/
theorem atomic_fail (x : HttpException) : Atomic around d (Process.fail x : Method A) := by
  intro y d' h
  cases h
  exact fun t row hrow => hrow

theorem atomic_persist_iff {driver : Driver} {data : CourseData} {userId : String} :
    Atomic around d (persist driver data userId) ↔
      ∀ k, firstRefused around d (insertions driver around.key d.count data userId) ≠
        some (k + 1) := by
  have hkeeps : (∀ x d', insertAll around d (insertions driver around.key d.count data userId) =
      (.error x, d') → Keeps d d') ↔ _ := keeps_rows_iff
  refine Iff.trans (forall₂_congr fun x d' => imp_congr_left ?_) hkeeps
  rw [run_persist, insertions]
  cases insertAll (S := schema) around d _ with
  | mk result d'' => cases result <;> simp [andThen]

/-- An import leaves nothing behind when it throws, exactly if the database does not refuse a save
after that of the course. -/
theorem import_atomic_iff (strategy : ImportStrategy) (driver : Driver) (file userId : String)
    (around : Around) (d : State) :
    Atomic around d (strategy.importFile driver file userId) ↔
      ∀ data, strategy.readPayload file = .ok data →
        ∀ k, firstRefused around d (insertions driver around.key d.count data userId) ≠
          some (k + 1) := by
  rw [ImportStrategy.importFile_eq]
  cases strategy.readPayload file with
  | error x => exact iff_of_true (atomic_fail x) nofun
  | ok data =>
    refine atomic_persist_iff.trans ⟨fun h data' hdata => ?_, fun h => h data rfl⟩
    cases hdata
    exact h

/-! ### A course that is left behind -/

/-- The saves after the first fail. -/
def failing : Around where
  now := fun _ => 0
  key := toString
  fails := fun n _ => if n = 0 then none else some (.internal "Connection terminated")
  duplicate := .internal "duplicate key value violates unique constraint"

/-- A course with one module and no lessons. -/
def oneModule : CourseJsonExport :=
  { version := "1.0"
    exportedAt := "2025-01-01T00:00:00.000Z"
    course :=
      { title := "Stellar"
        description := "Basics"
        level := "beginner"
        durationHours := 1
        requiresKyc := false
        modules := [{ title := "Accounts", order := 0, lessons := [] }] } }

/-- The save of the module fails, and the course remains. -/
theorem course_left_behind :
    ¬ ∀ (strategy : ImportStrategy) (driver : Driver) (file userId : String) (around : Around)
      (d : State), Atomic around d (strategy.importFile driver file userId) := by
  intro h
  let driver : Driver := { text := fun _ => "", integer := fun _ => 0, boolean := fun _ => false }
  let course : CourseRow :=
    ⟨"0", 0, 0, newCourse driver (JsonImportStrategy.courseData oneModule.course.toValue) "u1"⟩
  let left : State := (Served.empty.put courseRepo course).tick
  have hrun : alone failing .empty
      ((ImportStrategy.json fun _ => some oneModule.toValue).importFile driver "course.json"
        "u1") = (.error (.internal "Connection terminated"), left) := by
    rfl
  have hmem := h _ driver "course.json" "u1" failing .empty _ _ hrun courseRepo course
    (Repository.mem_save.mpr (.inl rfl))
  cases hmem

end Scoopdope.ImportExport
