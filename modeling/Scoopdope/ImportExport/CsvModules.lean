import Mathlib.Data.List.TakeWhile
import Mathlib.Data.Nat.Digits.Defs
import Scoopdope.ImportExport.RoundTrip
import Scoopdope.ImportExport.Strategies

/-!
# The modules of a CSV file

`CsvImportStrategy` groups the rows by the text `order:title`. Where the orders are decimal integer
literals, there is no colon in them, so that the text does not confuse two pairs of an order and a
title (`code_injective`), and `parseInt` reads their values (`parseInt_literal`). The created course
then has one module for each pair, by number and then by first appearance, with the lessons of the
rows of the pair: `csv_modules_exact`.
-/

namespace Scoopdope.ImportExport

open Async Database Database.Statements Server

/-! ## What a payload comes to in the database -/

section Stored

variable (driver : Driver)

def storedLesson (lesson : LessonData) : CourseJsonLesson :=
  { title := driver.toText lesson.title
    content := driver.toText lesson.content
    videoUrl := (Value.present lesson.videoUrl).map driver.toText
    order := (lesson.order.map driver.toInteger).getD 0
    durationMinutes := (lesson.durationMinutes.map driver.toInteger).getD 0 }

def storedModule (m : ModuleData) : CourseJsonModule :=
  { title := driver.toText m.title
    order := (m.order.map driver.toInteger).getD 0
    lessons := m.lessons.map (storedLesson driver) }

def storedCourse (data : CourseData) : CourseJson :=
  { title := driver.toText data.title
    description := driver.toText data.description
    level := (data.level.map driver.toText).getD "beginner"
    durationHours := (data.durationHours.map driver.toInteger).getD 0
    requiresKyc := ((Value.present data.requiresKyc).map driver.toBoolean).getD false
    modules := data.modules.map (storedModule driver) }

variable {driver}

theorem newCourse_stored (data : CourseData) (userId : String) :
    newCourse driver (storedCourse driver data).data userId = newCourse driver data userId :=
  newCourse_data (storedCourse driver data) userId

theorem newModule_stored (courseId : String) (m : ModuleData) :
    newModule driver courseId (storedModule driver m).data = newModule driver courseId m := by
  simp [newModule, CourseJsonModule.data, storedModule, Driver.toText]

theorem toText_present (driver : Driver) (text : Option String) :
    (Value.present (text.map Value.str)).map driver.toText = text := by
  cases text <;> rfl

theorem newLesson_stored (moduleId : String) (lesson : LessonData) :
    newLesson driver moduleId (storedLesson driver lesson).data =
      newLesson driver moduleId lesson := by
  have hurl := toText_present driver (storedLesson driver lesson).videoUrl
  simp [newLesson, CourseJsonLesson.data, hurl]
  simp [storedLesson, Driver.toText]

theorem lessonInsertions_stored (moduleId : String) {m : ModuleData}
    (h : ∀ lesson ∈ m.lessons, lesson.throws driver = none) :
    lessonInsertions driver moduleId (storedModule driver m).data.lessons =
      lessonInsertions driver moduleId m.lessons := by
  unfold lessonInsertions CourseJsonModule.data storedModule
  rw [List.map_map, List.map_map]
  refine List.map_congr_left fun lesson hlesson => ?_
  show lessonInsertion driver moduleId (storedLesson driver lesson).data = _
  unfold lessonInsertion
  rw [newLesson_stored, h lesson hlesson]
  rfl

theorem moduleInsertions_stored (key : Nat → String) (courseId : String) (n : Nat)
    {modules : List ModuleData}
    (h : ∀ m ∈ modules, ∀ lesson ∈ m.lessons, lesson.throws driver = none) :
    moduleInsertions driver key courseId n
      ((modules.map (storedModule driver)).map CourseJsonModule.data) =
        moduleInsertions driver key courseId n modules := by
  induction modules generalizing n with
  | nil => rfl
  | cons m modules ih =>
    obtain ⟨hm, hmodules⟩ := List.forall_mem_cons.mp h
    have hlength : (storedModule driver m).data.lessons.length = m.lessons.length := by
      simp [CourseJsonModule.data, storedModule]
    rw [List.map_cons, List.map_cons, moduleInsertions, newModule_stored,
      lessonInsertions_stored (key n) hm, hlength, ih _ hmodules, ← moduleInsertions]

/-- A payload inserts what its stored form would. -/
theorem insertions_stored (key : Nat → String) (n : Nat) {data : CourseData} (userId : String)
    (h : data.Storable driver) :
    insertions driver key n (storedCourse driver data).data userId =
      insertions driver key n data userId := by
  unfold insertions
  rw [newCourse_stored]
  exact congrArg _ (moduleInsertions_stored key (key n) (n + 1) h)

/-- From `d` to `d'` a course was created, and the others are as they were. -/
structure Created (d d' : State) (course : CourseRow) (modules : List CourseJsonModule) :
    Prop where
  stored : course ∈ d'.tables courseRepo
  contents : contents d' course.id = modules
  others : ∀ id, id ≠ course.id → ImportExport.contents d' id = ImportExport.contents d id
  referenced : Referenced d'

variable {around : Around} {d d' : State} {data : CourseData} {userId id : String}

/-- What was created has no function for a content. -/
theorem storable_of_persist (hok : alone around d (persist driver data userId) = (.ok id, d')) :
    data.Storable driver := by
  rw [run_persist] at hok
  cases hinserts : insertAll around d (insertions driver around.key d.count data userId) with
  | mk result d'' =>
    rw [hinserts] at hok
    cases result with
    | error x => cases hok
    | ok u => exact throws_insertions.mp (throws_of_insertAll (S := schema) hinserts)

theorem persist_creates (hfresh : FreshKeys around d) (hrefs : Referenced d)
    (hok : alone around d (persist driver data userId) = (.ok id, d')) :
    ∃ course, course.id = id ∧ course.data = newCourse driver data userId ∧
      Created d d' course (data.modules.map (storedModule driver)) := by
  have hstorable := storable_of_persist hok
  rw [run_persist] at hok
  cases hinserts : insertAll around d (insertions driver around.key d.count data userId) with
  | mk result d'' =>
    rw [hinserts] at hok
    cases result with
    | error x => cases hok
    | ok u =>
      cases hok
      have hd' := inserts_of_insertAll (S := schema) hinserts
      rw [← insertions_stored _ _ _ hstorable] at hd'
      subst hd'
      have hadded : ModulesAdded _ (d.inserts around (insertions driver around.key d.count
          (storedCourse driver data).data userId)) _ _ := modulesAdded_persisted hfresh hrefs
      obtain ⟨hstored, hcontents⟩ := contents_persisted hfresh hrefs
      exact ⟨_, rfl, newCourse_stored data userId, hstored, hcontents,
        fun id hother => contents_others hfresh hrefs hother, hadded.referenced⟩

/-- Without failures the course is created. -/
theorem persist_succeeds (hfresh : FreshKeys around d) (hstorable : data.Storable driver) :
    ∃ id d', alone around.calm d (persist driver data userId) = (.ok id, d') := by
  let rest := insertions driver around.key d.count data userId
  have hinserts : insertAll around.calm d rest = (.ok (), d.inserts around rest) :=
    hfresh.insertAll_calm (fun _ _ _ => rfl) (throws_insertions.mpr hstorable)
  exact ⟨around.key d.count, d.inserts around rest,
    run_persist.trans (congrArg (andThen _) hinserts)⟩

end Stored

namespace CsvImportStrategy

/-! ## Decimal integer literals -/

/-- The number with these digits, the first of which counts most. -/
def decimal (digits : List Char) : Nat :=
  Nat.ofDigits 10 (digits.reverse.map fun c => c.toNat - '0'.toNat)

def naturalValue (chars : List Char) : Option Int :=
  if chars ≠ [] ∧ chars.all Char.isDigit then some (decimal chars) else none

/-- The value of a decimal integer literal: digits, after a sign or after none. -/
def literalValue (text : String) : Option Int :=
  match text.toList with
  | '-' :: chars => (naturalValue chars).map fun n => -n
  | '+' :: chars => naturalValue chars
  | chars => naturalValue chars

theorem foldl_digits (digits : List Char) :
    digits.foldl (fun n c => 10 * n + (c.toNat - '0'.toNat)) 0 = decimal digits := by
  unfold decimal
  induction digits using List.reverseRecOn with
  | nil => rfl
  | append_singleton digits c ih =>
    rw [List.foldl_append, ih, List.reverse_append, List.map_append, List.reverse_singleton,
      List.map_singleton, List.singleton_append, Nat.ofDigits_cons]
    exact Nat.add_comm _ _

theorem naturalValue_eq_some {chars : List Char} {n : Int} (h : naturalValue chars = some n) :
    chars ≠ [] ∧ (∀ c ∈ chars, c.isDigit) ∧ n = decimal chars := by
  unfold naturalValue at h
  split at h
  · next hdigits =>
    exact ⟨hdigits.1, List.all_eq_true.mp hdigits.2, (Option.some.inj h).symm⟩
  · cases h

theorem isSpace_of_isDigit {c : Char} (h : c.isDigit) : Reviews.isSpace c = false := by
  have hrange : 48 ≤ c.toNat ∧ c.toNat ≤ 57 := by
    rw [Char.isDigit, Bool.and_eq_true, decide_eq_true_iff, decide_eq_true_iff] at h
    exact ⟨UInt32.le_iff_toNat_le.mp h.1, UInt32.le_iff_toNat_le.mp h.2⟩
  have hnone : ∀ n < 58, 48 ≤ n →
      ([9, 10, 11, 12, 13, 32, 160, 5760, 8232, 8233, 8239, 8287, 12288, 65279].contains n ||
        8192 ≤ n && n ≤ 8202) = false := by
    decide
  exact hnone c.toNat (Nat.lt_succ_of_le hrange.2) hrange.1

/-- What `parseInt` reads after the sign. -/
theorem number_digits {chars : List Char} {sign n : Int} (hne : chars ≠ [])
    (hdigits : ∀ c ∈ chars, c.isDigit) (hn : n = sign * decimal chars) :
    (if (chars.takeWhile Char.isDigit).isEmpty then Value.nan
      else .num ((sign * ((chars.takeWhile Char.isDigit).foldl
        (fun n c => 10 * n + (c.toNat - '0'.toNat)) 0 : Nat) : Int))) = .num n := by
  have htake : chars.takeWhile Char.isDigit = chars := List.takeWhile_eq_self_iff.mpr hdigits
  rw [htake, foldl_digits, if_neg (by rwa [List.isEmpty_iff]), hn]

theorem parseInt_literal {text : String} {n : Int} (h : literalValue text = some n) :
    parseInt text = .num n := by
  unfold literalValue at h
  split at h
  · next chars htext =>
    obtain ⟨m, hm, rfl⟩ := Option.map_eq_some_iff.mp h
    obtain ⟨hne, hdigits, rfl⟩ := naturalValue_eq_some hm
    have hspace : ('-' :: chars).dropWhile Reviews.isSpace = '-' :: chars := rfl
    unfold parseInt
    rw [htext, hspace]
    exact number_digits hne hdigits (neg_one_mul _).symm
  · next chars htext =>
    obtain ⟨hne, hdigits, rfl⟩ := naturalValue_eq_some h
    have hspace : ('+' :: chars).dropWhile Reviews.isSpace = '+' :: chars := rfl
    unfold parseInt
    rw [htext, hspace]
    exact number_digits hne hdigits (one_mul _).symm
  · next hminus hplus =>
    obtain ⟨hne, hdigits, rfl⟩ := naturalValue_eq_some h
    have hspace : text.toList.dropWhile Reviews.isSpace = text.toList := by
      cases htext : text.toList with
      | nil => rfl
      | cons c chars =>
        have hc : c ∈ text.toList := htext ▸ List.mem_cons_self
        exact List.dropWhile_cons_of_neg (Bool.eq_false_iff.mp (isSpace_of_isDigit (hdigits c hc)))
    unfold parseInt
    rw [hspace]
    dsimp only
    split
    · next chars htext => exact absurd htext (hminus chars)
    · next chars htext => exact absurd htext (hplus chars)
    · exact number_digits hne hdigits (one_mul _).symm

theorem colon_not_mem {text : String} {n : Int} (h : literalValue text = some n) :
    ':' ∉ text.toList := by
  have hdigits {chars : List Char} {n : Int} (h : naturalValue chars = some n) : ':' ∉ chars :=
    fun hmem => absurd ((naturalValue_eq_some h).2.1 ':' hmem) (by decide)
  unfold literalValue at h
  split at h
  · next chars htext =>
    obtain ⟨m, hm, -⟩ := Option.map_eq_some_iff.mp h
    rw [htext]
    exact List.not_mem_cons_of_ne_of_not_mem (by decide) (hdigits hm)
  · next chars htext =>
    rw [htext]
    exact List.not_mem_cons_of_ne_of_not_mem (by decide) (hdigits h)
  · exact hdigits h

/-! ## Pairs of an order and a title -/

/-- What a row says about its module. -/
structure ModulePair where
  order : String
  title : String
deriving DecidableEq

def pairOf (row : CsvRow) : ModulePair :=
  { order := (row "module_order").getD "0"
    title := (row "module_title").getD "Module" }

namespace ModulePair

def code (p : ModulePair) : String := p.order ++ ":" ++ p.title

/-- The number of the order. -/
def number (p : ModulePair) : Int := (literalValue p.order).getD 0

/-- An order that is a decimal integer literal and a title that is not empty. -/
structure Valid (p : ModulePair) : Prop where
  order : (literalValue p.order).isSome
  title : p.title ≠ ""

/-- By number, and pairs of the same number by their first rows. -/
def Before (rows : List CsvRow) (p q : ModulePair) : Prop :=
  p.number < q.number ∨
    p.number = q.number ∧ (rows.map pairOf).idxOf p < (rows.map pairOf).idxOf q

/-- The module of a pair, without lessons. -/
def entry (p : ModulePair) : ModuleData :=
  { title := .str (orElse (some p.title) "Module")
    order := some (parseInt (orElse (some p.order) "0"))
    lessons := [] }

variable {p q : ModulePair}

theorem Valid.literal (h : p.Valid) : literalValue p.order = some p.number := by
  obtain ⟨n, hn⟩ := Option.isSome_iff_exists.mp h.order
  unfold number
  rw [hn]
  rfl

/-- The first colon stands between the order and the title. -/
theorem Valid.takeWhile_code (h : p.Valid) :
    p.code.toList.takeWhile (fun c => c ≠ ':') = p.order.toList := by
  have hcode : p.code.toList = p.order.toList ++ ':' :: p.title.toList := by simp [code]
  have horder : ∀ c ∈ p.order.toList, decide (c ≠ ':') = true := by
    intro c hc
    refine decide_eq_true fun heq => colon_not_mem h.literal ?_
    rwa [heq] at hc
  rw [hcode, List.takeWhile_append_of_pos horder]
  exact List.append_nil _

theorem code_injective (hp : p.Valid) (hq : q.Valid) (h : p.code = q.code) : p = q := by
  have horder : p.order = q.order := by
    rw [← String.toList_inj, ← hp.takeWhile_code, h, hq.takeWhile_code]
  have htitle : p.title = q.title := by
    unfold code at h
    rw [horder] at h
    simpa using h
  cases p
  cases q
  cases horder
  cases htitle
  rfl

theorem Valid.order_ne (h : p.Valid) : p.order ≠ "" := by
  intro hempty
  have hliteral := h.literal
  rw [hempty] at hliteral
  cases hliteral

theorem Valid.entry_eq (h : p.Valid) :
    p.entry = { title := .str p.title, order := some (.num p.number), lessons := [] } := by
  unfold entry orElse
  rw [truthy_eq_some.mpr ⟨rfl, h.title⟩, truthy_eq_some.mpr ⟨rfl, h.order_ne⟩, Option.getD_some,
    Option.getD_some, parseInt_literal h.literal]

end ModulePair

open ModulePair

theorem moduleKey_eq (row : CsvRow) : moduleKey row = (pairOf row).code := rfl

theorem newEntry_eq (row : CsvRow) : newEntry row = (pairOf row).entry := by
  unfold newEntry entry pairOf
  cases row "module_title" <;> cases row "module_order" <;> rfl

/-- A lesson more. -/
def pushLesson (m : ModuleData) (row : CsvRow) : ModuleData :=
  { m with lessons := m.lessons ++ (lessonOf row).toList }

theorem addRow_eq :
    addRow = Grouping.place (fun row => (pairOf row).code) (fun row => (pairOf row).entry)
      pushLesson := by
  funext modulesMap row
  unfold addRow Grouping.place
  rw [moduleKey_eq, newEntry_eq]
  dsimp only
  cases h : lessonOf row with
  | none =>
    refine ((List.map_congr_left fun entry _ => ?_).trans (List.map_id _)).symm
    unfold pushLesson
    rw [h, Option.toList_none, List.append_nil]
    exact ite_self _
  | some lesson =>
    refine List.map_congr_left fun entry _ => ?_
    unfold pushLesson
    rw [h]
    split
    · next hkey => rw [hkey]; rfl
    · rfl

theorem foldl_pushLesson (m : ModuleData) (rows : List CsvRow) :
    rows.foldl pushLesson m = { m with lessons := m.lessons ++ rows.filterMap lessonOf } := by
  induction rows generalizing m with
  | nil => simp
  | cons row rows ih =>
    rw [List.foldl_cons, ih]
    cases h : lessonOf row <;> simp [pushLesson, h]

/-! ## The modules of the payload -/

section Payload

variable {rows : List CsvRow} {p q : ModulePair}

/-- The module of a pair, with the lessons of its rows. -/
def moduleOf (rows : List CsvRow) (p : ModulePair) : ModuleData :=
  Grouping.groupOf pairOf entry pushLesson rows p

theorem moduleOf_valid (h : p.Valid) :
    moduleOf rows p =
      { title := .str p.title
        order := some (.num p.number)
        lessons := (rows.filter fun row => pairOf row = p).filterMap lessonOf } := by
  unfold moduleOf Grouping.groupOf
  rw [foldl_pushLesson, h.entry_eq, List.nil_append]

theorem notAfter_moduleOf (hp : p.Valid) (hq : q.Valid) :
    notAfter (moduleOf rows p) (moduleOf rows q) = decide (p.number ≤ q.number) := by
  rw [moduleOf_valid hp, moduleOf_valid hq]
  exact decide_eq_decide.mpr Int.cast_le

/-- The pairs of the rows: by number, and then by first appearance. -/
def sortedPairs (rows : List CsvRow) : List ModulePair :=
  (rows.map pairOf).eraseDups.mergeSort fun p q => decide (p.number ≤ q.number)

theorem mem_sortedPairs : p ∈ sortedPairs rows ↔ ∃ row ∈ rows, pairOf row = p := by
  rw [sortedPairs, List.mem_mergeSort, List.mem_eraseDups, List.mem_map]

theorem nodup_sortedPairs : (sortedPairs rows).Nodup :=
  (List.mergeSort_perm _ _).nodup_iff.mpr (Grouping.nodup_eraseDups _)

theorem pairwise_sortedPairs : (sortedPairs rows).Pairwise (Before rows) :=
  Grouping.pairwise_mergeSort (Grouping.pairwise_eraseDups _)

theorem sort_modulesMap (hvalid : ∀ row ∈ rows, (pairOf row).Valid) :
    ((rows.foldl addRow []).map Prod.snd).mergeSort notAfter =
      (sortedPairs rows).map (moduleOf rows) := by
  have hpairs : ∀ p ∈ (rows.map pairOf).eraseDups, p.Valid := by
    intro p hp
    obtain ⟨row, hrow, rfl⟩ := List.mem_map.mp (List.mem_eraseDups.mp hp)
    exact hvalid row hrow
  have hmap : (rows.foldl addRow []).map Prod.snd =
      (rows.map pairOf).eraseDups.map (moduleOf rows) := by
    rw [addRow_eq, Grouping.foldl_place fun a ha b hb =>
      code_injective (hvalid a ha) (hvalid b hb), Grouping.groups, List.map_map]
    rfl
  rw [hmap, sortedPairs]
  exact (List.map_mergeSort fun p hp q hq =>
    (notAfter_moduleOf (hpairs p hp) (hpairs q hq)).symm).symm

end Payload

/-! ## The created course -/

section Import

variable (driver : Driver)

/-- The lesson of a row with a lesson title. -/
def importedLesson (row : CsvRow) : Option CourseJsonLesson :=
  (truthy (row "lesson_title")).map fun title =>
    { title
      content := orElse (row "lesson_content") ""
      videoUrl := truthy (row "lesson_video_url")
      order := driver.toInteger (parseInt (orElse (row "lesson_order") "0"))
      durationMinutes := driver.toInteger (parseInt (orElse (row "lesson_duration_minutes") "0")) }

/-- The module of a pair: one lesson for each of its rows with a lesson title. -/
def importedModule (rows : List CsvRow) (p : ModulePair) : CourseJsonModule :=
  { title := p.title
    order := p.number
    lessons := (rows.filter fun row => pairOf row = p).filterMap (importedLesson driver) }

variable {driver} {rows : List CsvRow} {p : ModulePair}

theorem map_lessonOf (row : CsvRow) :
    (lessonOf row).map (storedLesson driver) = importedLesson driver row := by
  have hurl := toText_present driver (truthy (row "lesson_video_url"))
  unfold lessonOf importedLesson
  rw [Option.map_map]
  congr 1
  funext title
  simp [storedLesson, Driver.toText, hurl]

theorem storedModule_moduleOf (h : p.Valid) :
    storedModule driver (moduleOf rows p) = importedModule driver rows p := by
  have hlessons : (List.map (storedLesson driver)
      ((rows.filter fun row => pairOf row = p).filterMap lessonOf)) =
        (rows.filter fun row => pairOf row = p).filterMap (importedLesson driver) := by
    rw [List.map_filterMap]
    exact congrArg (List.filterMap · _) (funext map_lessonOf)
  rw [moduleOf_valid h, storedModule, importedModule]
  simp [hlessons, Driver.toText]

/-- The content of a lesson is a text. -/
theorem throws_moduleOf (h : p.Valid) :
    ∀ lesson ∈ (moduleOf rows p).lessons, lesson.throws driver = none := by
  rw [moduleOf_valid h]
  intro lesson hlesson
  obtain ⟨row, -, hrow⟩ := List.mem_filterMap.mp hlesson
  obtain ⟨title, -, rfl⟩ := Option.map_eq_some_iff.mp hrow
  rfl

/-- The payload of a file whose first row has the title and the description of the course. -/
theorem readPayload_rows {parseCsv : String → Option (List CsvRow)}
    {file title description : String} {first : CsvRow} {rest : List CsvRow}
    (hparse : parseCsv file = some (first :: rest))
    (htitle : truthy (first "course_title") = some title)
    (hdescription : truthy (first "course_description") = some description)
    (hvalid : ∀ row ∈ first :: rest, (pairOf row).Valid) :
    ∃ data, readPayload parseCsv file = .ok data ∧ data.title = .str title ∧
      data.description = .str description ∧
      data.modules = (sortedPairs (first :: rest)).map (moduleOf (first :: rest)) := by
  rw [← sort_modulesMap hvalid]
  unfold readPayload orElse
  rw [hparse]
  dsimp only
  rw [htitle, hdescription]
  exact ⟨_, rfl, rfl, rfl, rfl⟩

/-- The import creates the modules of the pairs, with the lessons of their rows. -/
theorem csv_modules_exact (around : Around) (d : State) (driver : Driver)
    (parseCsv : String → Option (List CsvRow)) (file userId title description : String)
    (first : CsvRow) (rest : List CsvRow) (hfresh : FreshKeys around d) (hrefs : Referenced d)
    (hparse : parseCsv file = some (first :: rest))
    (htitle : truthy (first "course_title") = some title)
    (hdescription : truthy (first "course_description") = some description)
    (hvalid : ∀ row ∈ first :: rest, (pairOf row).Valid) :
    (∃ id d', alone around.calm d (importFile driver parseCsv file userId) = (.ok id, d')) ∧
    ∀ id d', alone around d (importFile driver parseCsv file userId) = (.ok id, d') →
      ∃ (course : CourseRow) (pairs : List ModulePair),
        course.id = id ∧ course.data.title = title ∧ course.data.description = description ∧
        pairs.Nodup ∧
        (∀ p, p ∈ pairs ↔ ∃ row ∈ first :: rest, pairOf row = p) ∧
        pairs.Pairwise (Before (first :: rest)) ∧
        Created d d' course (pairs.map (importedModule driver (first :: rest))) := by
  obtain ⟨data, hread, hdata, hdescribed, hmodules⟩ :=
    readPayload_rows hparse htitle hdescription hvalid
  have himport : importFile driver parseCsv file userId = persist driver data userId := by
    unfold importFile
    rw [hread]
    rfl
  rw [himport]
  have hstorable : data.Storable driver := by
    unfold CourseData.Storable
    rw [hmodules, List.forall_mem_map]
    intro p hp
    obtain ⟨row, hrow, rfl⟩ := mem_sortedPairs.mp hp
    exact throws_moduleOf (hvalid row hrow)
  refine ⟨persist_succeeds hfresh hstorable, fun id d' hok => ?_⟩
  obtain ⟨course, hid, hcourse, hcreated⟩ := persist_creates hfresh hrefs hok
  have hstored : data.modules.map (storedModule driver) =
      (sortedPairs (first :: rest)).map (importedModule driver (first :: rest)) := by
    rw [hmodules, List.map_map]
    refine List.map_congr_left fun p hp => ?_
    obtain ⟨row, hrow, rfl⟩ := mem_sortedPairs.mp hp
    exact storedModule_moduleOf (hvalid row hrow)
  rw [hstored] at hcreated
  refine ⟨course, sortedPairs (first :: rest), hid, ?_, ?_, nodup_sortedPairs,
    fun p => mem_sortedPairs, pairwise_sortedPairs, hcreated⟩
  · rw [hcourse, newCourse, hdata]
    rfl
  · rw [hcourse, newCourse, hdescribed]
    rfl

def exampleRow (order title lesson : String) : CsvRow := fun column =>
  [("course_title", "Stellar"), ("course_description", "Basics"), ("module_order", order),
    ("module_title", title), ("lesson_title", lesson)].lookup column

/-- The rows of two modules alternate, and a third module has the number of one of them. -/
def exampleRows : List CsvRow :=
  [exampleRow "1" "Accounts" "Reserves", exampleRow "2" "Keys" "Paths",
    exampleRow "1" "Accounts" "", exampleRow "02" "Ledgers" "Fees"]

theorem csv_modules_exact_interleaved :
    let first := exampleRow "2" "Keys" "Seeds"
    let driver : Driver :=
      { text := fun _ => "", integer := fun _ => 0, boolean := fun _ => false }
    ∃ (id : String) (d' : State) (course : CourseRow) (pairs : List ModulePair),
      alone exampleAround.calm .empty
        (importFile driver (fun _ => some (first :: exampleRows)) "course.csv" "u2") =
          (.ok id, d') ∧
      course.id = id ∧
      (∀ p, p ∈ pairs ↔ ∃ row ∈ first :: exampleRows, pairOf row = p) ∧
      pairs.Pairwise (Before (first :: exampleRows)) ∧
      Created .empty d' course (pairs.map (importedModule driver (first :: exampleRows))) := by
  intro first driver
  have hvalid : ∀ row ∈ first :: exampleRows, (pairOf row).Valid := by
    simp only [exampleRows, List.forall_mem_cons]
    refine ⟨?_, ?_, ?_, ?_, ?_, nofun⟩
    all_goals exact ⟨by decide, by decide⟩
  obtain ⟨⟨id, d', hok⟩, hcreates⟩ := csv_modules_exact exampleAround .empty driver
    (fun _ => some (first :: exampleRows)) "course.csv" "u2" "Stellar" "Basics" first exampleRows
    fresh_empty referenced_empty rfl rfl rfl hvalid
  obtain ⟨course, pairs, hid, -, -, -, hmem, hbefore, hcreated⟩ := hcreates id d' hok
  exact ⟨id, d', course, pairs, hok, hid, hmem, hbefore, hcreated⟩

end Import

end CsvImportStrategy

end Scoopdope.ImportExport
