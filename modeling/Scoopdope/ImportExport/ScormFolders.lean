import Scoopdope.ImportExport.ScormItems
import Scoopdope.ImportExport.ScormPaths

/-!
# A SCORM package in a folder

`findManifest` also looks into the folders of the archive, but the paths in the manifest are
resolved from the directory of the extraction and not from that of the manifest. A package in a
folder is imported without what its paths lead to: `scorm_folder_iff`.
-/

namespace Scoopdope.ImportExport.ScormImportStrategy

open Async Database Database.Statements Server PosixPath

/-! ## Archives -/

/-- The files of an archive, each with the names that lead to it. -/
structure Archive where
  files : List (Place × String)
  named : ∀ file ∈ files, file.1 ≠ []

namespace Archive

/-- The content of a file. -/
def content (archive : Archive) (p : Place) : Option String := archive.files.lookup p

/-- All files in a folder. -/
def wrap (folder : Component) (archive : Archive) : Archive where
  files := archive.files.map fun file => (folder :: file.1, file.2)
  named := by
    intro file hfile
    obtain ⟨inner, -, rfl⟩ := List.mem_map.mp hfile
    exact List.cons_ne_nil folder inner.1

/-- The content of a file, whose names have to begin with the folder. -/
def contentIn (folder : Component) (archive : Archive) : Place → Option String
  | [] => none
  | first :: rest => if first = folder then archive.content rest else none

theorem content_nil (archive : Archive) : archive.content [] = none := by
  rw [content, List.lookup_eq_none_iff]
  intro file hfile
  exact bne_iff_ne.mpr (archive.named file hfile).symm

theorem content_wrap (folder : Component) (archive : Archive) (p : Place) :
    (archive.wrap folder).content p = archive.contentIn folder p := by
  cases p with
  | nil => exact content_nil (archive.wrap folder)
  | cons first rest =>
    show (archive.files.map fun file => (folder :: file.1, file.2)).lookup (first :: rest) =
      if first = folder then archive.files.lookup rest else none
    induction archive.files with
    | nil => simp
    | cons file files ih =>
      rw [List.map_cons, List.lookup_cons, List.lookup_cons, ih]
      by_cases hfirst : first = folder
      · simp [hfirst]
      · simp [hfirst, beq_false_of_ne hfirst]

end Archive

/-- Where an archive is extracted to, and the parser of XML. -/
structure Extraction where
  cwd : String
  dir : String
  normal : Normal dir
  notRoot : dir ≠ "/"
  parseXml : String → Except HttpException Value

def notFound (path : String) : HttpException :=
  .internal ("ENOENT: no such file or directory, open '" ++ path ++ "'")

namespace Extraction

variable (e : Extraction) (archive : Archive)

def root : Place := place e.dir.toList

/-- The folder at the top that a file is in. -/
def folderOf : Place → Option String
  | folder :: _ :: _ => some (String.ofList folder.name)
  | _ => none

/-- The directory with the extracted files. -/
def package : Package where
  dir := e.dir
  accessible := fun path =>
    archive.files.any fun file => decide (place path.toList <+: e.root ++ file.1)
  folders := (archive.files.filterMap fun file => folderOf file.1).eraseDups
  readFile := fun path =>
    match (relativeTo e.root (place path.toList)).bind archive.content with
    | some content => .ok content
    | none => .error (notFound path)
  resolve := fun name => resolve e.cwd [e.dir, name]
  parseXml := e.parseXml

/-- The names that `href` leads to, if they are in the directory. -/
def target (href : String) : Option Place :=
  if href = "" ∨ '\x00' ∈ href.toList then none
  else relativeTo e.root (denote e.root href.toList)

variable {e archive}

theorem readFile_package {path : String} {p : Place} (h : place path.toList = e.root ++ p) :
    (e.package archive).readFile path =
      match archive.content p with
      | some content => .ok content
      | none => .error (notFound path) := by
  show (match (relativeTo e.root (place path.toList)).bind archive.content with
    | some content => Except.ok content
    | none => .error (notFound path)) = _
  rw [h, relativeTo_append]
  rfl

theorem fileOf_package (href : String) :
    fileOf (e.package archive) href = (e.target href).bind archive.content := by
  rw [fileOf, resolveSafe_eq ⟨e.cwd, fun _ => rfl⟩ e.normal e.notRoot, target, relativeTo]
  by_cases hname : href = "" ∨ '\x00' ∈ href.toList
  · rw [if_neg fun h => hname.elim h.1 h.2.1, if_pos hname]
    rfl
  · obtain ⟨hne, hnul⟩ := not_or.mp hname
    rw [if_neg hname]
    by_cases hbelow : e.root <+: denote e.root href.toList
    · rw [if_pos hbelow, if_pos ⟨hne, hnul, hbelow⟩]
      obtain ⟨p, hp⟩ := hbelow
      have hplace : place (String.ofList (render ((e.package archive).denoted href))).toList =
          e.root ++ p := by
        rw [String.toList_ofList, place_render]
        exact hp.symm
      rw [Option.map_some, readFile_package hplace, ← hp, List.drop_left, Option.bind_some]
      cases archive.content p <;> rfl
    · rw [if_neg hbelow, if_neg fun h => hbelow h.2.2]
      rfl

/-! ### The manifest -/

def manifestName : Component := ⟨"imsmanifest.xml".toList, by decide⟩

theorem place_direct (e : Extraction) :
    place (e.dir ++ "/imsmanifest.xml").toList = e.root ++ [manifestName] := by
  rw [String.toList_append]
  exact place_child e.dir.toList manifestName

theorem place_nested (e : Extraction) (folder : Component) :
    place (e.dir ++ "/" ++ String.ofList folder.name ++ "/imsmanifest.xml").toList =
      e.root ++ [folder, manifestName] := by
  have htext : (e.dir ++ "/" ++ String.ofList folder.name ++ "/imsmanifest.xml").toList =
      (e.dir.toList ++ '/' :: folder.name) ++ '/' :: manifestName.name := by
    simp only [String.toList_append, String.toList_ofList, List.append_assoc]
    rfl
  rw [htext, place_child, place_child, List.append_assoc]
  rfl

theorem accessible_package {path : String} {p : Place} (h : place path.toList = e.root ++ p) :
    (e.package archive).accessible path = true ↔ ∃ file ∈ archive.files, p <+: file.1 := by
  show (archive.files.any fun file => decide (place path.toList <+: e.root ++ file.1)) = true ↔ _
  simp only [h, List.any_eq_true, decide_eq_true_eq, List.prefix_append_right_inj]

theorem mem_of_content {p : Place} {content : String} (h : archive.content p = some content) :
    ∃ file ∈ archive.files, file.1 = p := by
  obtain ⟨before, after, heq, -⟩ := List.lookup_eq_some_iff.mp h
  exact ⟨(p, content), by rw [heq]; simp, rfl⟩

theorem readManifest_of_find {path : String} {p : Place}
    (hfind : findManifest (e.package archive) = some path)
    (hplace : place path.toList = e.root ++ p) :
    readManifest (e.package archive) =
      match archive.content p with
      | some xml => e.parseXml xml
      | none => .error (notFound path) := by
  rw [readManifest, hfind]
  show ((e.package archive).readFile path >>= e.parseXml) = _
  rw [readFile_package hplace]
  cases archive.content p <;> rfl

variable {xml : String}

/-- The manifest at the top is found there. -/
theorem readManifest_top (hxml : archive.content [manifestName] = some xml) :
    readManifest (e.package archive) = e.parseXml xml := by
  obtain ⟨file, hfile, hname⟩ := mem_of_content hxml
  have haccess : (e.package archive).accessible (e.dir ++ "/imsmanifest.xml") = true :=
    (accessible_package (place_direct e)).mpr ⟨file, hfile, hname ▸ List.prefix_refl _⟩
  rw [readManifest_of_find (if_pos haccess) (place_direct e), hxml]

theorem folders_wrap (folder : Component) (hfiles : archive.files ≠ []) :
    (e.package (archive.wrap folder)).folders = [String.ofList folder.name] := by
  have hall : ((archive.wrap folder).files.filterMap fun file => folderOf file.1) =
      archive.files.map fun _ => String.ofList folder.name := by
    show (archive.files.map _).filterMap _ = _
    rw [List.filterMap_map, ← List.filterMap_eq_map]
    refine List.filterMap_congr fun file hfile => ?_
    obtain ⟨first, rest, hnamed⟩ := List.exists_cons_of_ne_nil (archive.named file hfile)
    show folderOf (folder :: file.1) = some (String.ofList folder.name)
    rw [hnamed]
    rfl
  show ((archive.wrap folder).files.filterMap fun file => folderOf file.1).eraseDups = _
  obtain ⟨file, files, heq⟩ := List.exists_cons_of_ne_nil hfiles
  rw [hall, heq, List.map_cons, List.eraseDups_cons]
  have hrest : ((files.map fun _ => String.ofList folder.name).filter
      fun name => !name == String.ofList folder.name) = [] := by
    simp
  rw [hrest]
  rfl

/-- The manifest in a folder is found there. -/
theorem readManifest_wrap {folder : Component} (hfolder : folder ≠ manifestName)
    (hxml : archive.content [manifestName] = some xml) :
    readManifest (e.package (archive.wrap folder)) = e.parseXml xml := by
  obtain ⟨file, hfile, hname⟩ := mem_of_content hxml
  have hmem : (folder :: file.1, file.2) ∈ (archive.wrap folder).files :=
    List.mem_map_of_mem hfile
  have hdirect : ¬ (e.package (archive.wrap folder)).accessible (e.dir ++ "/imsmanifest.xml") := by
    rw [accessible_package (place_direct e)]
    rintro ⟨wrapped, hwrapped, hbegins⟩
    obtain ⟨inner, -, rfl⟩ := List.mem_map.mp hwrapped
    exact hfolder (List.cons_prefix_cons.mp hbegins).1.symm
  have hnested : (e.package (archive.wrap folder)).accessible
      (e.dir ++ "/" ++ String.ofList folder.name ++ "/imsmanifest.xml") := by
    rw [accessible_package (place_nested e folder)]
    exact ⟨_, hmem, hname ▸ List.prefix_refl _⟩
  have hfolders : (e.package (archive.wrap folder)).folders = [String.ofList folder.name] :=
    folders_wrap folder (List.ne_nil_of_mem hfile)
  have hfind : findManifest (e.package (archive.wrap folder)) =
      some (e.dir ++ "/" ++ String.ofList folder.name ++ "/imsmanifest.xml") := by
    refine (if_neg hdirect).trans ?_
    rw [hfolders]
    exact List.find?_cons_of_pos hnested
  rw [readManifest_of_find hfind (place_nested e folder), Archive.content_wrap]
  show (match if folder = folder then archive.content [manifestName] else none with
    | some xml => e.parseXml xml
    | none => _) = _
  rw [if_pos rfl, hxml]

/-- A folder of that name hides the manifest in it. -/
theorem readManifest_hidden (hxml : archive.content [manifestName] = some xml) :
    readManifest (e.package (archive.wrap manifestName)) =
      .error (notFound (e.dir ++ "/imsmanifest.xml")) := by
  obtain ⟨file, hfile, -⟩ := mem_of_content hxml
  have haccess : (e.package (archive.wrap manifestName)).accessible
      (e.dir ++ "/imsmanifest.xml") = true :=
    (accessible_package (place_direct e)).mpr ⟨(manifestName :: file.1, file.2),
      List.mem_map_of_mem hfile, List.prefix_append _ _⟩
  rw [readManifest_of_find (if_pos haccess) (place_direct e), Archive.content_wrap]
  show (match if manifestName = manifestName then archive.content [] else none with
    | some xml => e.parseXml xml
    | none => _) = _
  rw [if_pos rfl, Archive.content_nil]
  rfl

end Extraction

/-! ## Two maps of resources -/

section Congruence

variable {map map' : PlainObject}

theorem lessonsFrom_congr {subs : List Value} (li : Nat)
    (h : ∀ sub ∈ subs, contentOf map sub = contentOf map' sub) :
    lessonsFrom map li subs = lessonsFrom map' li subs := by
  induction subs generalizing li with
  | nil => rfl
  | cons sub subs ih =>
    obtain ⟨hsub, hsubs⟩ := List.forall_mem_cons.mp h
    rw [lessonsFrom, lessonsFrom, hsub, ih (li + 1) hsubs]

theorem moduleFrom_congr {item : Value} (idx : Nat)
    (h : ∀ sub ∈ lessonItemsOf item, contentOf map sub = contentOf map' sub) :
    moduleFrom map idx item = moduleFrom map' idx item := by
  rw [moduleFrom, moduleFrom]
  refine bind_congr fun title => ?_
  cases hitems : Value.read (some item) "item" with
  | error x => rfl
  | ok items =>
    have hsub : Value.asList items = subItems item := by
      rw [subItems, optional_of_read hitems]
    show (if (Value.asList items).isEmpty then _ else _) =
      if (Value.asList items).isEmpty then _ else _
    rw [hsub]
    by_cases hleaf : (subItems item).isEmpty = true
    · rw [lessonItemsOf, if_pos hleaf] at h
      rw [if_pos hleaf, if_pos hleaf, h item (List.mem_singleton_self item)]
    · rw [lessonItemsOf, if_neg hleaf] at h
      rw [if_neg hleaf, if_neg hleaf, lessonsFrom_congr 0 h]

theorem modulesFrom_congr {items : List Value} (idx : Nat)
    (h : ∀ sub ∈ items.flatMap lessonItemsOf, contentOf map sub = contentOf map' sub) :
    modulesFrom map idx items = modulesFrom map' idx items := by
  induction items generalizing idx with
  | nil => rfl
  | cons item items ih =>
    rw [List.flatMap_cons, List.forall_mem_append] at h
    rw [modulesFrom, modulesFrom, moduleFrom_congr idx h.1, ih (idx + 1) h.2]

theorem resourcesFrom_succeeds {package package' : Package} {list : List Value}
    (map map' : PlainObject) {result : PlainObject}
    (h : resourcesFrom package list map = .ok result) :
    ∃ result', resourcesFrom package' list map' = .ok result' := by
  induction list generalizing map map' with
  | nil => exact ⟨map', rfl⟩
  | cons res list ih =>
    rw [resourcesFrom_cons] at h ⊢
    obtain ⟨attrs, hattrs, h⟩ := ok_of_bind h
    rw [hattrs]
    exact ih _ _ h

theorem buildResourceMap_succeeds {package package' : Package} {resources : Option Value}
    {result : PlainObject} (h : buildResourceMap package resources = .ok result) :
    ∃ result', buildResourceMap package' resources = .ok result' := by
  rw [buildResourceMap] at h ⊢
  split at h
  next hfalse => exact ⟨[], if_pos hfalse⟩
  next htrue =>
    rw [if_neg htrue]
    exact resourcesFrom_succeeds [] [] h

/-- The manifest comes to the same where the lessons have the same contents. -/
theorem parseScormManifest_congr {package package' : Package} {manifest : Value}
    {data : CourseData} (h : parseScormManifest package manifest = .ok data)
    (hsame : ∀ item ∈ lessonItems manifest, lessonContent (fileOf package) manifest item =
      lessonContent (fileOf package') manifest item) :
    parseScormManifest package' manifest = .ok data := by
  obtain ⟨root, hroot, h⟩ := ok_of_bind h
  obtain ⟨map, hmap, h⟩ := ok_of_bind h
  obtain ⟨modules, hmodules, h⟩ := ok_of_bind h
  obtain ⟨map', hmap'⟩ : ∃ map', buildResourceMap package' _ = .ok map' :=
    buildResourceMap_succeeds hmap
  have hroot' : root = rootOf manifest := (optional_of_read hroot).symm
  rw [hroot'] at hmap hmap' hmodules
  have hmodules' := hmodules
  rw [modulesFrom_congr 0] at hmodules'
  · rw [parseScormManifest, hroot, hroot']
    show (buildResourceMap package' _ >>= _) = _
    rw [hmap']
    show (modulesFrom map' 0 _ >>= _) = _
    rw [hmodules', ← h, hroot']
    rfl
  · intro item hitem
    rw [← lessonItems_eq] at hitem
    rw [contentOf_eq (get_empty hmap), contentOf_eq (get_empty hmap'), lookupRef_eq hmap,
      lookupRef_eq hmap', hsame item hitem]

end Congruence

/-! ## The package and the same in a folder -/

/-- The two courses have the same columns, modules and lessons. -/
structure SameCourse (d : State) (id : String) (d' : State) (id' : String) : Prop where
  columns : ∃ course ∈ d.tables courseRepo, ∃ course' ∈ d'.tables courseRepo,
    course.id = id ∧ course'.id = id' ∧ course.data = course'.data
  contents : contents d id = ImportExport.contents d' id'

theorem lessonContent_package (e : Extraction) (archive : Archive) :
    lessonContent (fileOf (e.package archive)) =
      lessonContent fun href => (e.target href).bind archive.content :=
  congrArg lessonContent (funext Extraction.fileOf_package)

theorem lessonContent_wrap (e : Extraction) (archive : Archive) (folder : Component) :
    lessonContent (fileOf (e.package (archive.wrap folder))) =
      lessonContent fun href => (e.target href).bind (archive.contentIn folder) := by
  rw [lessonContent_package, funext (archive.content_wrap folder)]

section Same

variable {file file' : String → Option String} {manifest item : Value}

theorem lessonContent_unassigned (h : refOf item = some "__proto__") :
    lessonContent file manifest item = .obj [] := by
  rw [lessonContent, h]
  rfl

/-- A content under another identifier that is no function is a text. -/
theorem lessonContent_text (hassigned : refOf item ≠ some "__proto__")
    (h : ∀ name, lessonContent file manifest item ≠ .function name) :
    ∃ text, lessonContent file manifest item = .str text := by
  unfold lessonContent at h ⊢
  cases href : refOf item with
  | none => exact ⟨"", rfl⟩
  | some ref =>
    have hproto : ¬ ref = "__proto__" := fun heq => hassigned (href.trans (congrArg some heq))
    rw [href, Option.bind_some, mappedTo, if_neg hproto, inherited, if_neg hproto] at h
    rw [Option.bind_some, mappedTo, if_neg hproto, inherited, if_neg hproto]
    cases hunder : contentUnder file (resourceEntries manifest) ref with
    | some text => exact ⟨text, rfl⟩
    | none =>
      rw [hunder] at h
      by_cases hmem : ref ∈ inheritedFunctions
      · rw [if_pos hmem] at h
        exact absurd rfl (h ref)
      · rw [if_neg hmem]
        exact ⟨"", rfl⟩

/-- Contents that are no functions are the same if the driver stores the same for them. -/
theorem lessonContent_inj {driver : Driver}
    (h : ∀ name, lessonContent file manifest item ≠ .function name)
    (h' : ∀ name, lessonContent file' manifest item ≠ .function name)
    (hsame : driver.toText (lessonContent file manifest item) =
      driver.toText (lessonContent file' manifest item)) :
    lessonContent file manifest item = lessonContent file' manifest item := by
  by_cases href : refOf item = some "__proto__"
  · rw [lessonContent_unassigned href, lessonContent_unassigned href]
  · obtain ⟨text, htext⟩ := lessonContent_text href h
    obtain ⟨text', htext'⟩ := lessonContent_text href h'
    rw [htext, htext'] at hsame ⊢
    exact congrArg Value.str hsame

end Same

/-- The contents of a course that was created are no functions. -/
theorem lessonContent_created {package : Package} {manifest : Value} {data : CourseData}
    {driver : Driver} (hdata : parseScormManifest package manifest = .ok data)
    (hstorable : data.Storable driver) :
    ∀ item ∈ lessonItems manifest, ∀ name,
      lessonContent (fileOf package) manifest item ≠ .function name := by
  intro item hitem name hname
  have hmem : Value.function name ∈
      (data.modules.flatMap ModuleData.lessons).map LessonData.content := by
    rw [(parseScormManifest_ok hdata).1, ← hname]
    exact List.mem_map_of_mem hitem
  obtain ⟨lesson, hlesson, hcontent⟩ := List.mem_map.mp hmem
  obtain ⟨m, hm, hlesson⟩ := List.mem_flatMap.mp hlesson
  have hthrows := hstorable m hm lesson hlesson
  rw [LessonData.throws, hcontent] at hthrows
  cases hthrows

section Runs

variable {e e' : Extraction} {archive : Archive} {folder : Component} {xml : String}
  {manifest : Value} {driver : Driver} {around around' : Around} {d d₁ d₂ d' : State}
  {userId id id' : String}

theorem manifest_of_folder_run (hxml : archive.content [Extraction.manifestName] = some xml)
    (hok : alone around d (processExtracted driver (e.package (archive.wrap folder)) userId) =
      (.ok id, d')) : folder ≠ Extraction.manifestName := by
  rintro rfl
  rw [processExtracted, readPackage_eq, Extraction.readManifest_hidden hxml] at hok
  cases hok

/-- What is the same after both imports was found on both ways. -/
theorem contents_of_sameCourse (hfresh : FreshKeys around d) (hrefs : Referenced d)
    (hfresh' : FreshKeys around' d') (hrefs' : Referenced d')
    (hxml : archive.content [Extraction.manifestName] = some xml)
    (hparse : e.parseXml xml = .ok manifest) (hparse' : e'.parseXml xml = .ok manifest)
    (hok : alone around d (processExtracted driver (e.package archive) userId) = (.ok id, d₁))
    (hok' : alone around' d' (processExtracted driver (e'.package (archive.wrap folder)) userId) =
      (.ok id', d₂)) (hsame : SameCourse d₁ id d₂ id') :
    ∀ item ∈ lessonItems manifest,
      lessonContent (fileOf (e.package archive)) manifest item =
        lessonContent (fileOf (e'.package (archive.wrap folder))) manifest item := by
  have hmanifest := (Extraction.readManifest_top hxml).trans hparse
  have hmanifest' :=
    (Extraction.readManifest_wrap (manifest_of_folder_run hxml hok') hxml).trans hparse'
  have hcontents := imported_contents hfresh hrefs hmanifest hok
  rw [hsame.contents, imported_contents hfresh' hrefs' hmanifest' hok'] at hcontents
  obtain ⟨data, hdata, hpersist⟩ := persisted_of_imported hmanifest hok
  obtain ⟨data', hdata', hpersist'⟩ := persisted_of_imported hmanifest' hok'
  intro item hitem
  exact lessonContent_inj
    (lessonContent_created hdata (storable_of_persist hpersist) item hitem)
    (lessonContent_created hdata' (storable_of_persist hpersist') item hitem)
    (List.map_inj_left.mp hcontents item hitem).symm

end Runs

/-- A package that is imported with its manifest at the top is imported to the same course from a
folder of the archive, exactly if the folder does not have the name of the manifest, and each lesson
finds the same content through those paths in the manifest that begin with the folder. -/
theorem scorm_folder_iff (e e' : Extraction) (archive : Archive) (folder : Component)
    (xml : String) (manifest : Value) (driver : Driver) (around around' : Around)
    (d d₁ d' : State) (userId id : String) (hfresh : FreshKeys around d) (hrefs : Referenced d)
    (hfresh' : FreshKeys around' d') (hrefs' : Referenced d')
    (hxml : archive.content [Extraction.manifestName] = some xml)
    (hparse : e.parseXml xml = .ok manifest) (hparse' : e'.parseXml xml = .ok manifest)
    (hok : alone around d (processExtracted driver (e.package archive) userId) = (.ok id, d₁)) :
    (∃ id' d₂, alone around'.calm d' (processExtracted driver
        (e'.package (archive.wrap folder)) userId) = (.ok id', d₂) ∧ SameCourse d₁ id d₂ id') ↔
      folder ≠ Extraction.manifestName ∧
      ∀ item ∈ lessonItems manifest,
        lessonContent (fun href => (e.target href).bind archive.content) manifest item =
        lessonContent (fun href => (e'.target href).bind (archive.contentIn folder)) manifest
          item := by
  have hcalm : FreshKeys around'.calm d' := ⟨hfresh'.new, hfresh'.distinct⟩
  rw [← lessonContent_package, ← lessonContent_wrap]
  constructor
  · rintro ⟨id', d₂, hok', hsame⟩
    exact ⟨manifest_of_folder_run hxml hok', contents_of_sameCourse hfresh hrefs hcalm hrefs' hxml
      hparse hparse' hok hok' hsame⟩
  · rintro ⟨hfolder, hsame⟩
    obtain ⟨data, hdata, hpersist⟩ :=
      persisted_of_imported ((Extraction.readManifest_top hxml).trans hparse) hok
    have hread : readPackage (e'.package (archive.wrap folder)) = .ok data := by
      rw [readPackage_eq, Extraction.readManifest_wrap hfolder hxml, hparse']
      exact parseScormManifest_congr hdata hsame
    obtain ⟨id', d₂, hpersist'⟩ : ∃ id' d₂,
        alone around'.calm d' (persist driver data userId) = (.ok id', d₂) :=
      persist_succeeds hfresh' (storable_of_persist hpersist)
    obtain ⟨course, hid, hcourse, hcreated⟩ := persist_creates hfresh hrefs hpersist
    obtain ⟨course', hid', hcourse', hcreated'⟩ := persist_creates hcalm hrefs' hpersist'
    refine ⟨id', d₂, ?_, ⟨course, hcreated.stored, course', hcreated'.stored, hid, hid',
      hcourse.trans hcourse'.symm⟩, ?_⟩
    · rw [processExtracted, hread]
      exact hpersist'
    · rw [← hid, ← hid', hcreated.contents, hcreated'.contents]

/-! ### A page next to the manifest -/

def fees : Component := ⟨"fees.html".toList, by decide⟩

def courseFolder : Component := ⟨"course".toList, by decide⟩

/-- The resource of the only item is at `href`. -/
def exampleExtraction (href : String) : Extraction where
  cwd := "/srv"
  dir := "/tmp/scorm"
  normal := ⟨rfl, by decide⟩
  notRoot := by decide
  parseXml := fun _ => .ok (exampleManifest href [exampleItem "Fees" "r1" []])

/-- The page `fees.html`, next to the manifest and in a folder. -/
def exampleArchive : Archive where
  files := [([Extraction.manifestName], "<manifest/>"), ([fees], "Fees"),
    ([courseFolder, fees], "Fees")]
  named := by decide

def foundTwice : Extraction := exampleExtraction "course/fees.html"

/-- The path begins with the name of the folder, and leads there to the same page. -/
theorem scorm_folder_iff_twice :
    ∃ id d₁ id' d₂,
      alone exampleAround .empty (processExtracted exampleDriver
        (foundTwice.package exampleArchive) "u1") = (.ok id, d₁) ∧
      alone exampleAround.calm .empty (processExtracted exampleDriver
        (foundTwice.package (exampleArchive.wrap courseFolder)) "u1") = (.ok id', d₂) ∧
      SameCourse d₁ id d₂ id' := by
  obtain ⟨id, d₁, hok⟩ : ∃ id d₁, alone exampleAround .empty (processExtracted exampleDriver
      (foundTwice.package exampleArchive) "u1") = (.ok id, d₁) :=
    imports_of_readPackage rfl (List.forall_mem_singleton.mpr (List.forall_mem_singleton.mpr rfl))
  obtain ⟨id', d₂, hok', hsame⟩ := (scorm_folder_iff foundTwice foundTwice exampleArchive
    courseFolder "<manifest/>" _ exampleDriver exampleAround exampleAround .empty d₁ .empty "u1" id
    fresh_empty referenced_empty fresh_empty referenced_empty rfl rfl rfl hok).mpr
      ⟨by decide, List.forall_mem_singleton.mpr rfl⟩
  exact ⟨id, d₁, id', d₂, hok, hok', hsame⟩

/-- In the folder, the page is no longer where the path leads to. -/
theorem scorm_folder_loses_content :
    ¬ ∀ (e e' : Extraction) (archive : Archive) (folder : Component) (xml : String)
      (manifest : Value) (driver : Driver) (around around' : Around) (d d₁ d' : State)
      (userId id : String), FreshKeys around d → Referenced d → FreshKeys around' d' →
      Referenced d' → archive.content [Extraction.manifestName] = some xml →
      e.parseXml xml = .ok manifest → e'.parseXml xml = .ok manifest →
      alone around d (processExtracted driver (e.package archive) userId) = (.ok id, d₁) →
      ∃ id' d₂, alone around'.calm d' (processExtracted driver
        (e'.package (archive.wrap folder)) userId) = (.ok id', d₂) ∧
          SameCourse d₁ id d₂ id' := by
  intro h
  obtain ⟨id, d₁, hok⟩ : ∃ id d₁, alone exampleAround .empty (processExtracted exampleDriver
      ((exampleExtraction "fees.html").package exampleArchive) "u1") = (.ok id, d₁) :=
    imports_of_readPackage rfl (List.forall_mem_singleton.mpr (List.forall_mem_singleton.mpr rfl))
  have hcalm : FreshKeys exampleAround.calm .empty := ⟨fresh_empty.new, fresh_empty.distinct⟩
  obtain ⟨id', d₂, hok', hsame⟩ := h _ (exampleExtraction "fees.html") exampleArchive courseFolder
    "<manifest/>" _ exampleDriver exampleAround exampleAround .empty d₁ .empty "u1" id fresh_empty
    referenced_empty fresh_empty referenced_empty rfl rfl rfl hok
  have hcontents := contents_of_sameCourse fresh_empty referenced_empty hcalm referenced_empty rfl
    rfl rfl hok hok' hsame
  have hpage : Value.str "Fees" = .str "" :=
    hcontents (exampleItem "Fees" "r1" []) (List.mem_singleton_self _)
  exact absurd (Value.str.inj hpage) (by decide)

end Scoopdope.ImportExport.ScormImportStrategy
