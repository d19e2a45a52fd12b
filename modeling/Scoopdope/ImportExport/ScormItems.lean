import Mathlib.Data.List.Flatten
import Scoopdope.ImportExport.CsvModules
import Scoopdope.Server.PosixPath

/-!
# The items of a SCORM manifest

`parseScormManifest` makes modules of the items of the first organization, and lessons of the items
below these, or of the item itself where there are none. An item that it does not look at, or that
is no more than a module, loses the resource that it references, and so does a lesson whose
resource has the identifier `__proto__`: `scorm_items_kept_iff`.
-/

namespace Scoopdope.ImportExport

open Async Database Database.Statements Server

/-! ## Lists and what is left of them -/

section Parts

variable {A B : Type}

theorem append_eq_append_iff_of_sublist {a a' b b' : List A} (ha : a.Sublist a')
    (hb : b.Sublist b') : a ++ b = a' ++ b' ↔ a = a' ∧ b = b' := by
  constructor
  · intro h
    have hlength := congrArg List.length h
    rw [List.length_append, List.length_append] at hlength
    have ha' := ha.length_le
    have hb' := hb.length_le
    exact ⟨ha.eq_of_length (by omega), hb.eq_of_length (by omega)⟩
  · rintro ⟨rfl, rfl⟩
    rfl

theorem flatMap_eq_flatMap_iff_of_sublist {l : List A} {f g : A → List B}
    (h : ∀ a ∈ l, (f a).Sublist (g a)) : l.flatMap f = l.flatMap g ↔ ∀ a ∈ l, f a = g a := by
  induction l with
  | nil => simp
  | cons a l ih =>
    obtain ⟨ha, hl⟩ := List.forall_mem_cons.mp h
    rw [List.flatMap_cons, List.flatMap_cons, List.forall_mem_cons, ← ih hl]
    exact append_eq_append_iff_of_sublist ha (List.Sublist.flatMap_right l hl)

end Parts

namespace ScormImportStrategy

/-! ## The manifest as a document -/

/-- The items directly below an item or an organization. -/
def subItems (item : Value) : List Value := Value.asList (Value.optional (some item) "item")

theorem sizeOf_asList {value item : Value} (h : item ∈ Value.asList (some value)) :
    sizeOf item ≤ sizeOf value := by
  cases value with
  | arr items =>
    have hitem : sizeOf item < sizeOf items := List.sizeOf_lt_of_mem h
    simp only [Value.arr.sizeOf_spec]
    omega
  | _ =>
    simp only [Value.asList, List.mem_ite_nil_right, List.mem_singleton] at h
    rw [h.2]

theorem sizeOf_field {value : Value} {key : String} {found : Value}
    (h : value.field key = some found) : sizeOf found < sizeOf value := by
  cases value with
  | obj fields =>
    obtain ⟨entry, hentry, rfl⟩ := Option.map_eq_some_iff.mp h
    have hmem := List.sizeOf_lt_of_mem (List.mem_of_find?_eq_some hentry)
    have hsnd : sizeOf entry.2 < sizeOf entry := by
      cases entry
      simp
    simp only [Value.obj.sizeOf_spec]
    omega
  | _ => cases h

theorem optional_some (value : Value) (key : String) :
    Value.optional (some value) key = value.field key := by
  cases value <;> rfl

theorem sizeOf_subItems {item sub : Value} (h : sub ∈ subItems item) :
    sizeOf sub < sizeOf item := by
  rw [subItems, optional_some] at h
  cases hfield : item.field "item" with
  | none =>
    rw [hfield] at h
    cases h
  | some found =>
    rw [hfield] at h
    exact Nat.lt_of_le_of_lt (sizeOf_asList h) (sizeOf_field hfield)

/-- An item and all items below it, in document order. -/
def itemTree (item : Value) : List Value :=
  item :: (subItems item).attach.flatMap fun sub => itemTree sub.1
termination_by sizeOf item
decreasing_by exact sizeOf_subItems sub.2

theorem itemTree_eq (item : Value) :
    itemTree item = item :: (subItems item).flatMap itemTree := by
  rw [itemTree, List.flatMap_subtype (g := itemTree) fun _ _ => rfl, List.unattach_attach]

/-- `manifest.manifest` -/
def rootOf (manifest : Value) : Option Value := Value.optional (some manifest) "manifest"

def organizations (manifest : Value) : List Value :=
  Value.asList (Value.optional (Value.optional (rootOf manifest) "organizations") "organization")

/-- All items of all organizations, in document order. -/
def documentItems (manifest : Value) : List Value :=
  (organizations manifest).flatMap fun org => (subItems org).flatMap itemTree

/-- The identifier and the `href` of a resource that has both. -/
def resourceEntry (res : Value) : Option (String × String) :=
  let attrs := Value.optional (some res) "$"
  match Value.optional attrs "identifier", Value.optional attrs "href" with
  | some (.str id), some (.str href) => if id = "" ∨ href = "" then none else some (id, href)
  | _, _ => none

def resourceEntries (manifest : Value) : List (String × String) :=
  (Value.asList (Value.optional (Value.optional (rootOf manifest) "resources")
    "resource")).filterMap resourceEntry

/-- The content of the file that `href` leads to, if it can be read. -/
def fileOf (package : Package) (href : String) : Option String :=
  match (resolveSafe package href).map package.readFile with
  | some (.ok content) => some content
  | _ => none

/-- What the last of the resources with this identifier and a file contains. -/
def contentUnder (file : String → Option String) (entries : List (String × String))
    (ref : String) : Option String :=
  entries.reverse.findSome? fun entry => if entry.1 = ref then file entry.2 else none

/-- The identifier that the item references. -/
def refOf (item : Value) : Option String :=
  match Value.optional (Value.optional (some item) "$") "identifierref" with
  | some (.str ref) => some ref
  | _ => none

/-- The content of the resource that the item references, if its file is there. -/
def contentThrough (file : String → Option String) (manifest item : Value) : Option String :=
  (refOf item).bind (contentUnder file (resourceEntries manifest))

/-- The content of the resource that the item references, if it is in the package. -/
def referenced (package : Package) : Value → Value → Option String :=
  contentThrough (fileOf package)

/-- What the map of the resources has under an identifier. -/
def mappedTo (file : String → Option String) (entries : List (String × String)) (ref : String) :
    Option Value :=
  if ref = "__proto__" then inherited ref
  else ((contentUnder file entries ref).map Value.str).or (inherited ref)

/-- The content that the lesson of an item is given. -/
def lessonContent (file : String → Option String) (manifest item : Value) : Value :=
  ((refOf item).bind (mappedTo file (resourceEntries manifest))).getD (.str "")

/-! ## The items that become lessons -/

def lessonItemsOf (item : Value) : List Value :=
  if (subItems item).isEmpty then [item] else subItems item

def lessonItems (manifest : Value) : List Value :=
  ((organizations manifest).head?.elim [] subItems).flatMap lessonItemsOf

/-- No item with the property is a module only, or deeper than the items of a module, or in a later
organization. -/
structure WithinReach (p : Value → Bool) (manifest : Value) : Prop where
  modules : ∀ org ∈ (organizations manifest).head?, ∀ item ∈ subItems org,
    subItems item ≠ [] → p item = false
  deeper : ∀ org ∈ (organizations manifest).head?, ∀ item ∈ subItems org, ∀ sub ∈ subItems item,
    ∀ below ∈ subItems sub, ∀ x ∈ itemTree below, p x = false
  later : ∀ org ∈ (organizations manifest).tail, ∀ item ∈ subItems org, ∀ x ∈ itemTree item,
    p x = false

section Reach

variable {p : Value → Bool}

theorem sublist_itemTree (item : Value) : [item].Sublist (itemTree item) := by
  rw [itemTree_eq]
  exact List.Sublist.cons_cons item (List.nil_sublist _)

theorem lessonItemsOf_sublist (item : Value) :
    (lessonItemsOf item).Sublist (itemTree item) := by
  rw [lessonItemsOf]
  split
  next => exact sublist_itemTree item
  next =>
    rw [itemTree_eq]
    refine List.Sublist.cons item ?_
    have hsubs : ((subItems item).flatMap fun sub => [sub]).Sublist
        ((subItems item).flatMap itemTree) :=
      List.Sublist.flatMap_right _ fun sub _ => sublist_itemTree sub
    rwa [List.flatMap_singleton'] at hsubs

theorem filter_flatMap_eq_nil_iff {A B : Type} {l : List A} {f : A → List B} {p : B → Bool} :
    [] = (l.flatMap f).filter p ↔ ∀ a ∈ l, ∀ b ∈ f a, p b = false := by
  rw [eq_comm, List.filter_eq_nil_iff]
  simp only [List.mem_flatMap, forall_exists_index, and_imp, Bool.not_eq_true]
  exact ⟨fun h a ha b hb => h b a ha hb, fun h b a ha hb => h a ha b hb⟩

/-- A lesson of a module keeps its item. What is below it is lost. -/
theorem filter_sub_iff {sub : Value} : [sub].filter p = (itemTree sub).filter p ↔
    ∀ below ∈ subItems sub, ∀ x ∈ itemTree below, p x = false := by
  have hitem : itemTree sub = [sub] ++ (subItems sub).flatMap itemTree := itemTree_eq sub
  rw [hitem, List.filter_append, ← filter_flatMap_eq_nil_iff]
  exact List.self_eq_append_right.trans eq_comm

/-- A module keeps its own item, or else those below. -/
theorem filter_module_iff {item : Value} :
    (lessonItemsOf item).filter p = (itemTree item).filter p ↔
      (subItems item ≠ [] → p item = false) ∧
      ∀ sub ∈ subItems item, ∀ below ∈ subItems sub, ∀ x ∈ itemTree below, p x = false := by
  by_cases hsub : subItems item = []
  · simp [lessonItemsOf, itemTree_eq item, hsub]
  · have hitems : lessonItemsOf item = (subItems item).flatMap fun sub => [sub] := by
      rw [lessonItemsOf, if_neg (by simpa using hsub), List.flatMap_singleton']
    have hitem : [] = [item].filter p ↔ p item = false := by
      cases hp : p item <;> simp [hp]
    have happend := append_eq_append_iff_of_sublist (List.nil_sublist ([item].filter p))
      ((List.Sublist.flatMap_right (subItems item) fun sub _ =>
        sublist_itemTree sub).filter p)
    rw [hitems, itemTree_eq item, ← List.singleton_append, List.filter_append,
      ← List.nil_append (List.filter p (List.flatMap _ _)), happend, hitem,
      List.filter_flatMap, List.filter_flatMap, flatMap_eq_flatMap_iff_of_sublist
        fun sub _ => (sublist_itemTree sub).filter p]
    refine and_congr (by simp [hsub]) (forall₂_congr fun sub _ => filter_sub_iff)

/-- The lessons keep the items with the property exactly if all these are within reach. -/
theorem filter_lessonItems_iff {manifest : Value} :
    (lessonItems manifest).filter p = (documentItems manifest).filter p ↔
      WithinReach p manifest := by
  cases horgs : organizations manifest with
  | nil =>
    refine iff_of_true (by simp [lessonItems, documentItems, horgs]) ⟨?_, ?_, ?_⟩
    all_goals simp [horgs]
  | cons org orgs =>
    have hlessons : lessonItems manifest = (subItems org).flatMap lessonItemsOf ++ [] := by
      simp [lessonItems, horgs]
    have hdocument : documentItems manifest = (subItems org).flatMap itemTree ++
        orgs.flatMap fun org => (subItems org).flatMap itemTree := by
      rw [documentItems, horgs, List.flatMap_cons]
    have hfirst := (List.Sublist.flatMap_right (subItems org) fun item _ =>
      lessonItemsOf_sublist item).filter p
    have hlater : [] = (orgs.flatMap fun org => (subItems org).flatMap itemTree).filter p ↔
        ∀ org ∈ orgs, ∀ item ∈ subItems org, ∀ x ∈ itemTree item, p x = false := by
      simp only [filter_flatMap_eq_nil_iff, List.mem_flatMap, forall_exists_index, and_imp]
      exact ⟨fun h org horg item hitem x hx => h org horg x item hitem hx,
        fun h org horg x item hitem hx => h org horg item hitem x hx⟩
    rw [hlessons, hdocument, List.filter_append, List.filter_append, List.filter_nil,
      append_eq_append_iff_of_sublist hfirst (List.nil_sublist _), hlater,
      List.filter_flatMap, List.filter_flatMap, flatMap_eq_flatMap_iff_of_sublist
        fun item _ => (lessonItemsOf_sublist item).filter p]
    have hmodules : (∀ item ∈ subItems org, (lessonItemsOf item).filter p =
        (itemTree item).filter p) ↔ _ := forall₂_congr fun item _ => filter_module_iff
    rw [hmodules]
    constructor
    · rintro ⟨hitems, hlater⟩
      refine ⟨fun org' horg => ?_, fun org' horg => ?_, fun org' horg => ?_⟩
      · rw [horgs] at horg
        cases horg
        exact fun item hitem => (hitems item hitem).1
      · rw [horgs] at horg
        cases horg
        exact fun item hitem => (hitems item hitem).2
      · rw [horgs] at horg
        exact hlater org' horg
    · rintro ⟨hmodules, hdeeper, hlater⟩
      rw [horgs] at hmodules hdeeper hlater
      exact ⟨fun item hitem => ⟨hmodules org rfl item hitem, hdeeper org rfl item hitem⟩, hlater⟩

end Reach

/-! ## What the code makes of them -/

section Made

theorem ok_of_bind {E A B : Type} {x : Except E A} {f : A → Except E B} {b : B}
    (h : x >>= f = .ok b) : ∃ a, x = .ok a ∧ f a = .ok b := by
  cases x with
  | error e => cases h
  | ok a => exact ⟨a, rfl, h⟩

theorem optional_of_read {value result : Option Value} {key : String}
    (h : Value.read value key = .ok result) : Value.optional value key = result := by
  cases value with
  | none => cases h
  | some value => cases value <;> cases h <;> rfl

/-- What is in the map under a reference. -/
def lookupRef (map : PlainObject) (item : Value) : Value :=
  ((refOf item).bind map.get).getD (.str "")

/-- The entry that is assigned for a resource. -/
def assigned (file : String → Option String) (entry : String × String) :
    Option (String × String) :=
  if entry.1 = "__proto__" then none
  else (file entry.2).map fun content => (entry.1, content)

/-- The resource that an element adds to the map. -/
def addedResource (package : Package) (res : Value) : Option (String × String) :=
  (resourceEntry res).bind (assigned (fileOf package))

theorem resourcesFrom_cons (package : Package) (res : Value) (list : List Value)
    (map : PlainObject) :
    resourcesFrom package (res :: list) map = (do
      let _ ← Value.read (some res) "$"
      resourcesFrom package list ((addedResource package res).toList ++ map)) := by
  rw [resourcesFrom]
  cases hread : Value.read (some res) "$" with
  | error x => rfl
  | ok attrs =>
    rw [addedResource, resourceEntry, optional_of_read hread]
    show (match Value.optional attrs "identifier", Value.optional attrs "href" with
      | some (.str id), some (.str href) => _
      | _, _ => _) = resourcesFrom package list _
    split
    next =>
      split
      next => rfl
      next =>
        simp only [Option.bind_some, assigned, fileOf, PlainObject.assign]
        split <;> split <;> simp [*]
    next => rfl

theorem resourcesFrom_ok {package : Package} {list : List Value} {map map' : PlainObject}
    (h : resourcesFrom package list map = .ok map') :
    map' = (list.filterMap (addedResource package)).reverse ++ map := by
  induction list generalizing map with
  | nil =>
    cases h
    rfl
  | cons res list ih =>
    rw [resourcesFrom_cons] at h
    obtain ⟨attrs, -, hrest⟩ := ok_of_bind h
    rw [ih hrest, List.filterMap_cons]
    cases addedResource package res with
    | none => rfl
    | some resource => simp

theorem lookup_assigned (file : String → Option String) (entries : List (String × String))
    (ref : String) :
    (entries.filterMap (assigned file)).lookup ref =
      if ref = "__proto__" then none
      else entries.findSome? fun entry => if entry.1 = ref then file entry.2 else none := by
  induction entries with
  | nil => exact (ite_self none).symm
  | cons entry entries ih =>
    rw [List.filterMap_cons, List.findSome?_cons, assigned]
    by_cases hproto : entry.1 = "__proto__"
    · rw [if_pos hproto]
      refine ih.trans ?_
      by_cases href : ref = "__proto__"
      · rw [if_pos href, if_pos href]
      · have hne : ¬ entry.1 = ref := fun heq => href (heq.symm.trans hproto)
        rw [if_neg href, if_neg href, if_neg hne]
    · rw [if_neg hproto]
      cases hfile : file entry.2 with
      | none => simp [ih]
      | some content =>
        by_cases href : entry.1 = ref
        · simp [← href, hproto]
        · simp [List.lookup_cons, href, beq_false_of_ne (Ne.symm href), ih]

/-- The map of the resources, as it is looked up. -/
theorem lookup_resourceMap {package : Package} {manifest : Value} {map : PlainObject}
    (h : buildResourceMap package (Value.optional (rootOf manifest) "resources") = .ok map)
    (ref : String) :
    map.lookup ref =
      if ref = "__proto__" then none
      else contentUnder (fileOf package) (resourceEntries manifest) ref := by
  rw [buildResourceMap] at h
  split at h
  next hfalse =>
    have hnone : Value.optional (Value.optional (rootOf manifest) "resources") "resource" =
        none := by
      cases hres : Value.optional (rootOf manifest) "resources" with
      | none => rfl
      | some value =>
        rw [hres] at hfalse
        cases value <;> first | rfl | cases hfalse
    cases h
    rw [resourceEntries, hnone]
    exact (ite_self none).symm
  next =>
    rw [resourcesFrom_ok h, List.append_nil, contentUnder, ← lookup_assigned, resourceEntries,
      ← List.filterMap_reverse, ← List.filterMap_reverse, List.filterMap_filterMap]
    rfl

theorem get_resourceMap {package : Package} {manifest : Value} {map : PlainObject}
    (h : buildResourceMap package (Value.optional (rootOf manifest) "resources") = .ok map)
    (ref : String) :
    map.get ref = mappedTo (fileOf package) (resourceEntries manifest) ref := by
  rw [PlainObject.get, mappedTo, lookup_resourceMap h]
  by_cases href : ref = "__proto__"
  · rw [if_pos href, if_pos href]
  · rw [if_neg href, if_neg href]
    cases contentUnder (fileOf package) (resourceEntries manifest) ref <;> rfl

theorem lookup_empty_resource (file : String → Option String) (manifest : Value) :
    contentUnder file (resourceEntries manifest) "" = none := by
  rw [contentUnder, List.findSome?_eq_none_iff]
  intro entry hmem
  obtain ⟨res, -, hres⟩ := List.mem_filterMap.mp (List.mem_reverse.mp hmem)
  rw [resourceEntry] at hres
  split at hres
  next id href _ _ =>
    split at hres
    next => cases hres
    next hne =>
      cases hres
      exact if_neg fun h => hne (.inl h)
  next => cases hres

variable {map : PlainObject}

/-- What is found in the map is not `null`. -/
theorem nullish_get (map : PlainObject) (ref : String) :
    nullish (map.get ref) (.str "") = (map.get ref).getD (.str "") := by
  rw [nullish, PlainObject.get]
  cases map.lookup ref with
  | some text => rfl
  | none =>
    show nullish (inherited ref) _ = (inherited ref).getD _
    unfold inherited
    by_cases hproto : ref = "__proto__"
    · rw [if_pos hproto]
      rfl
    · by_cases hmem : ref ∈ inheritedFunctions
      · rw [if_neg hproto, if_pos hmem]
        rfl
      · rw [if_neg hproto, if_neg hmem]
        rfl

/-- The content of a lesson: reading it fails for `null` only. -/
theorem contentOf_eq (hmap : map.get "" = none) (item : Value) :
    contentOf map item = (do
      let _ ← Value.read (some item) "$"
      return lookupRef map item) := by
  rw [contentOf]
  cases hread : Value.read (some item) "$" with
  | error x => rfl
  | ok attrs =>
    have hempty : nullish (map.get "") (.str "") = .str "" := by
      rw [hmap]
      rfl
    rw [lookupRef, refOf, optional_of_read hread]
    dsimp only [bind, Except.bind]
    cases href : Value.optional attrs "identifierref" with
    | none => exact congrArg Except.ok hempty
    | some ref =>
      cases ref with
      | null => exact congrArg Except.ok hempty
      | str ref => exact congrArg Except.ok (nullish_get map ref)
      | _ => rfl

theorem contentOf_ok {item content : Value} (hmap : map.get "" = none)
    (h : contentOf map item = .ok content) : content = lookupRef map item := by
  rw [contentOf_eq hmap] at h
  obtain ⟨attrs, -, h⟩ := ok_of_bind h
  exact (Except.ok.inj h).symm

/-- The values of `order` count from `li` on. -/
def orders (li n : Nat) : List (Option Value) :=
  (List.range' li n).map fun i : Nat => some (.num i)

theorem lessonsFrom_ok {li : Nat} {subs : List Value} {lessons : List LessonData}
    (hmap : map.get "" = none) (h : lessonsFrom map li subs = .ok lessons) :
    lessons.map LessonData.content =
      subs.map (lookupRef map) ∧
    lessons.map LessonData.order = orders li lessons.length := by
  induction subs generalizing li lessons with
  | nil =>
    cases h
    exact ⟨rfl, rfl⟩
  | cons sub subs ih =>
    obtain ⟨title, -, h⟩ := ok_of_bind h
    obtain ⟨content, hcontent, h⟩ := ok_of_bind h
    obtain ⟨rest, hrest, h⟩ := ok_of_bind h
    obtain ⟨hcontents, horders⟩ := ih hrest
    cases h
    rw [List.map_cons, List.map_cons, hcontents, contentOf_ok hmap hcontent, List.map_cons,
      horders]
    exact ⟨rfl, rfl⟩

/-- A module keeps the contents of its items, in their order. -/
theorem moduleFrom_ok {idx : Nat} {item : Value} {m : ModuleData}
    (hmap : map.get "" = none) (h : moduleFrom map idx item = .ok m) :
    m.lessons.map LessonData.content =
      (lessonItemsOf item).map (lookupRef map) ∧
    m.lessons.map LessonData.order = orders 0 m.lessons.length ∧ m.order = some (.num idx) := by
  obtain ⟨title, -, h⟩ := ok_of_bind h
  obtain ⟨items, hitems, h⟩ := ok_of_bind h
  have hsub : Value.asList items = subItems item := by
    rw [subItems, optional_of_read hitems]
  dsimp only at h
  rw [hsub] at h
  rw [lessonItemsOf]
  split at h
  next hleaf =>
    obtain ⟨content, hcontent, h⟩ := ok_of_bind h
    cases h
    rw [if_pos hleaf]
    exact ⟨congrArg (fun content => [content]) (contentOf_ok hmap hcontent), rfl, rfl⟩
  next hsubs =>
    obtain ⟨lessons, hlessons, h⟩ := ok_of_bind h
    cases h
    rw [if_neg hsubs]
    obtain ⟨hcontents, horders⟩ := lessonsFrom_ok hmap hlessons
    exact ⟨hcontents, horders, rfl⟩

theorem modulesFrom_ok {idx : Nat} {items : List Value} {modules : List ModuleData}
    (hmap : map.get "" = none) (h : modulesFrom map idx items = .ok modules) :
    (modules.flatMap ModuleData.lessons).map LessonData.content =
      (items.flatMap lessonItemsOf).map (lookupRef map) ∧
    (∀ m ∈ modules, m.lessons.map LessonData.order = orders 0 m.lessons.length) ∧
    modules.map ModuleData.order = orders idx modules.length := by
  induction items generalizing idx modules with
  | nil =>
    cases h
    exact ⟨rfl, nofun, rfl⟩
  | cons item items ih =>
    obtain ⟨m, hm, h⟩ := ok_of_bind h
    obtain ⟨rest, hrest, h⟩ := ok_of_bind h
    obtain ⟨hcontents, hlessons, horders⟩ := ih hrest
    obtain ⟨hcontent, hlesson, horder⟩ := moduleFrom_ok hmap hm
    cases h
    refine ⟨?_, List.forall_mem_cons.mpr ⟨hlesson, hlessons⟩, ?_⟩
    · rw [List.flatMap_cons, List.flatMap_cons, List.map_append, List.map_append, hcontent,
        hcontents]
    · rw [List.map_cons, horder, horders]
      rfl

theorem items_firstOf (value : Option Value) :
    Value.asList (Value.optional (firstOf value) "item") =
      (Value.asList value).head?.elim [] subItems := by
  have hfalsy : ∀ v : Value, subItems v = [] →
      [] = (if Value.isTrue (some v) then [v] else []).head?.elim [] subItems := by
    intro v hv
    split
    next => exact hv.symm
    next => rfl
  cases value with
  | none => rfl
  | some v =>
    cases v with
    | arr items => cases items <;> rfl
    | obj fields => rfl
    | function name => rfl
    | null => rfl
    | nan => rfl
    | _ =>
      refine hfalsy _ ?_
      rfl

theorem lessonItems_eq (manifest : Value) :
    lessonItems manifest = (Value.asList (Value.optional (firstOf (Value.optional
      (Value.optional (rootOf manifest) "organizations") "organization")) "item")).flatMap
        lessonItemsOf := by
  rw [items_firstOf, lessonItems, organizations]

section Map

variable {package : Package} {manifest : Value}
  (h : buildResourceMap package (Value.optional (rootOf manifest) "resources") = .ok map)

include h

theorem get_empty : map.get "" = none := by
  rw [get_resourceMap h, mappedTo, lookup_empty_resource]
  rfl

theorem lookupRef_eq : lookupRef map = lessonContent (fileOf package) manifest := by
  funext item
  rw [lookupRef, lessonContent, funext (get_resourceMap h)]

end Map

theorem parseScormManifest_ok {package : Package} {manifest : Value} {data : CourseData}
    (h : parseScormManifest package manifest = .ok data) :
    (data.modules.flatMap ModuleData.lessons).map LessonData.content =
      (lessonItems manifest).map (lessonContent (fileOf package) manifest) ∧
    (∀ m ∈ data.modules, m.lessons.map LessonData.order = orders 0 m.lessons.length) ∧
    data.modules.map ModuleData.order = orders 0 data.modules.length := by
  obtain ⟨root, hroot, h⟩ := ok_of_bind h
  obtain ⟨map, hmap, h⟩ := ok_of_bind h
  obtain ⟨modules, hmodules, h⟩ := ok_of_bind h
  cases h
  have hroot' : root = rootOf manifest := (optional_of_read hroot).symm
  rw [hroot'] at hmap hmodules
  have hok := modulesFrom_ok (get_empty hmap) hmodules
  rw [← lessonItems_eq, lookupRef_eq hmap] at hok
  exact hok

/-- The manifest that `processExtracted` parses. -/
def readManifest (package : Package) : Except HttpException Value :=
  match findManifest package with
  | none => .error (.badRequest "imsmanifest.xml not found in package")
  | some manifestPath => package.readFile manifestPath >>= package.parseXml

theorem readPackage_eq (package : Package) :
    readPackage package = readManifest package >>= parseScormManifest package := by
  rw [readPackage, readManifest]
  cases findManifest package with
  | none => rfl
  | some manifestPath =>
    exact (bind_assoc (package.readFile manifestPath) package.parseXml
      (parseScormManifest package)).symm

end Made

/-! ## The course that is imported -/

section Stored

variable {driver : Driver}

/-- Orders that count sort nothing. -/
theorem sortByOrder_stored {A B : Type} {stored : A → B} {before : A → Option Value}
    {order : B → Int} {li : Nat} {rows : List A}
    (hstored : ∀ a, order (stored a) = ((before a).map driver.toInteger).getD 0)
    (horders : rows.map before = orders li rows.length) :
    sortByOrder order (rows.map stored) = rows.map stored := by
  have hcount : (rows.map stored).map order =
      (List.range' li rows.length).map fun i : Nat => (i : Int) :=
    calc (rows.map stored).map order
        = (rows.map before).map fun order => (order.map driver.toInteger).getD 0 := by
          rw [List.map_map, List.map_map]
          exact List.map_congr_left fun a _ => hstored a
      _ = (List.range' li rows.length).map fun i : Nat => (i : Int) := by
          rw [horders, orders, List.map_map]
          refine List.map_congr_left fun i _ => ?_
          have hi : driver.toInteger (.num (i : Int)) = i := toInteger_int i
          rw [Rat.intCast_natCast] at hi
          exact hi
  have hsorted : ((rows.map stored).map order).Pairwise (· ≤ ·) := by
    rw [hcount, List.pairwise_map]
    exact List.Pairwise.imp (fun hlt => by omega) (List.pairwise_lt_range' ..)
  exact List.mergeSort_of_pairwise
    ((List.pairwise_map.mp hsorted).imp fun hle => decide_eq_true hle)

theorem sortedModules_stored {modules : List ModuleData}
    (hlessons : ∀ m ∈ modules, m.lessons.map LessonData.order = orders 0 m.lessons.length)
    (hmodules : modules.map ModuleData.order = orders 0 modules.length) :
    sortedModules (modules.map (storedModule driver)) = modules.map (storedModule driver) := by
  have hsorted : (modules.map (storedModule driver)).map CourseJsonModule.sorted =
      modules.map (storedModule driver) := by
    rw [List.map_map]
    refine List.map_congr_left fun m hm => ?_
    have hm' : sortByOrder CourseJsonLesson.order (m.lessons.map (storedLesson driver)) =
        m.lessons.map (storedLesson driver) := sortByOrder_stored (fun _ => rfl) (hlessons m hm)
    exact congrArg (fun lessons : List CourseJsonLesson => { storedModule driver m with lessons })
      hm'
  rw [sortedModules, hsorted]
  exact sortByOrder_stored (fun _ => rfl) hmodules

/-- The contents of the lessons, in the order of the modules and of the lessons in each. -/
def lessonContents (modules : List CourseJsonModule) : List String :=
  ((sortedModules modules).flatMap CourseJsonModule.lessons).map CourseJsonLesson.content

theorem lessonContents_stored {package : Package} {manifest : Value} {data : CourseData}
    (h : parseScormManifest package manifest = .ok data) :
    lessonContents (data.modules.map (storedModule driver)) =
      (lessonItems manifest).map fun item =>
        driver.toText (lessonContent (fileOf package) manifest item) := by
  obtain ⟨hcontents, hlessons, hmodules⟩ := parseScormManifest_ok h
  have htext := congrArg (List.map driver.toText) hcontents
  rw [List.map_map, List.map_map] at htext
  rw [lessonContents, sortedModules_stored hlessons hmodules, List.flatMap_map]
  have hlist : (data.modules.flatMap fun m => (storedModule driver m).lessons) =
      (data.modules.flatMap ModuleData.lessons).map (storedLesson driver) := by
    rw [List.map_flatMap]
    rfl
  rw [hlist, List.map_map]
  exact htext

section Import

variable {package : Package} {manifest : Value} {around : Around} {d d' : State}
  {userId id : String}

theorem persisted_of_imported (hmanifest : readManifest package = .ok manifest)
    (hok : alone around d (processExtracted driver package userId) = (.ok id, d')) :
    ∃ data, parseScormManifest package manifest = .ok data ∧
      alone around d (persist driver data userId) = (.ok id, d') := by
  have hread : readPackage package = parseScormManifest package manifest := by
    rw [readPackage_eq, hmanifest]
    rfl
  rw [processExtracted, hread] at hok
  cases hdata : parseScormManifest package manifest with
  | error x =>
    rw [hdata] at hok
    cases hok
  | ok data =>
    rw [hdata] at hok
    exact ⟨data, rfl, hok⟩

theorem imported_contents (hfresh : FreshKeys around d) (hrefs : Referenced d)
    (hmanifest : readManifest package = .ok manifest)
    (hok : alone around d (processExtracted driver package userId) = (.ok id, d')) :
    lessonContents (contents d' id) =
      (lessonItems manifest).map fun item =>
        driver.toText (lessonContent (fileOf package) manifest item) := by
  obtain ⟨data, hdata, hpersist⟩ := persisted_of_imported hmanifest hok
  obtain ⟨course, hid, -, hcreated⟩ := persist_creates hfresh hrefs hpersist
  rw [← hid, hcreated.contents]
  exact lessonContents_stored hdata

end Import

end Stored

/-! ## What is kept -/

/-- Of the items of the document with the property, each is that of exactly one lesson, which has
the content of its resource, and the lessons are in the order of the document. -/
def KeptInOrder (package : Package) (manifest : Value) (p : Value → Bool)
    (contents : List String) : Prop :=
  ((lessonItems manifest).zip contents).filter (fun lesson => p lesson.1) =
    ((documentItems manifest).filter p).map fun item =>
      (item, (referenced package manifest item).getD "")

/-- No lesson with the property references the identifier that is not assigned, unless what the
driver stores for the object under it is the content of the resource. -/
def KeptUnassigned (driver : Driver) (package : Package) (manifest : Value) (p : Value → Bool) :
    Prop :=
  ∀ item ∈ lessonItems manifest, p item → refOf item = some "__proto__" →
    driver.toText (.obj []) = (referenced package manifest item).getD ""

section Kept

variable {driver : Driver} {package : Package} {manifest : Value} {p : Value → Bool}

/-- The content of a referenced resource is that of the lesson, or an object is there instead. -/
theorem toText_lessonContent {item : Value}
    (h : (referenced package manifest item).isSome) :
    driver.toText (lessonContent (fileOf package) manifest item) =
      if refOf item = some "__proto__" then driver.toText (.obj [])
      else (referenced package manifest item).getD "" := by
  obtain ⟨content, hcontent⟩ := Option.isSome_iff_exists.mp h
  obtain ⟨ref, href, hunder⟩ := Option.bind_eq_some_iff.mp hcontent
  rw [hcontent, lessonContent, href, Option.bind_some, mappedTo]
  by_cases hproto : ref = "__proto__"
  · rw [if_pos hproto, if_pos (congrArg some hproto), hproto]
    rfl
  · rw [if_neg hproto, if_neg fun heq => hproto (Option.some.inj heq), hunder]
    rfl

theorem toText_eq_referenced_iff {item : Value} (h : (referenced package manifest item).isSome) :
    driver.toText (lessonContent (fileOf package) manifest item) =
        (referenced package manifest item).getD "" ↔
      (refOf item = some "__proto__" →
        driver.toText (.obj []) = (referenced package manifest item).getD "") := by
  rw [toText_lessonContent h]
  by_cases hproto : refOf item = some "__proto__"
  · rw [if_pos hproto]
    exact ⟨fun heq _ => heq, fun himp => himp hproto⟩
  · rw [if_neg hproto]
    exact iff_of_true rfl fun heq => absurd heq hproto

theorem keptInOrder_iff (hp : ∀ item, p item → (referenced package manifest item).isSome) :
    KeptInOrder package manifest p ((lessonItems manifest).map fun item =>
        driver.toText (lessonContent (fileOf package) manifest item)) ↔
      WithinReach p manifest ∧ KeptUnassigned driver package manifest p := by
  have hzip : ((lessonItems manifest).zip ((lessonItems manifest).map fun item =>
      driver.toText (lessonContent (fileOf package) manifest item))).filter
        (fun lesson => p lesson.1) =
      ((lessonItems manifest).filter p).map fun item =>
        (item, driver.toText (lessonContent (fileOf package) manifest item)) := by
    rw [← List.map_prod_left_eq_zip, List.filter_map]
    rfl
  have hitems : KeptUnassigned driver package manifest p ↔
      ∀ item ∈ (lessonItems manifest).filter p,
        driver.toText (lessonContent (fileOf package) manifest item) =
          (referenced package manifest item).getD "" := by
    simp only [List.mem_filter, and_imp]
    exact forall₃_congr fun item _ hitem => (toText_eq_referenced_iff (hp item hitem)).symm
  rw [KeptInOrder, hzip, hitems, ← filter_lessonItems_iff]
  constructor
  · intro h
    have hsame : (lessonItems manifest).filter p = (documentItems manifest).filter p := by
      have hfst := congrArg (List.map Prod.fst) h
      rw [List.map_map, List.map_map] at hfst
      exact (List.map_id _).symm.trans (hfst.trans (List.map_id _))
    rw [← hsame] at h
    exact ⟨hsame, fun item hitem => congrArg Prod.snd (List.map_inj_left.mp h item hitem)⟩
  · rintro ⟨hsame, hcontents⟩
    rw [← hsame]
    exact List.map_congr_left fun item hitem => congrArg (Prod.mk item) (hcontents item hitem)

end Kept

/-- An imported course has the contents of the items that become lessons, in document order. It
keeps every item that references a resource of the package, as exactly one lesson with its content,
exactly if these items are within reach and none of their contents is under the identifier that is
not assigned; and likewise for the items that reference a content which is not empty. -/
theorem scorm_items_kept_iff (package : Package) (manifest : Value) (around : Around)
    (d d' : State) (driver : Driver) (userId id : String) (hfresh : FreshKeys around d)
    (hrefs : Referenced d) (hmanifest : readManifest package = .ok manifest)
    (hok : alone around d (processExtracted driver package userId) = (.ok id, d')) :
    lessonContents (contents d' id) =
      (lessonItems manifest).map (fun item =>
        driver.toText (lessonContent (fileOf package) manifest item)) ∧
    (KeptInOrder package manifest (fun item => (referenced package manifest item).isSome)
        (lessonContents (contents d' id)) ↔
      WithinReach (fun item => (referenced package manifest item).isSome) manifest ∧
      KeptUnassigned driver package manifest fun item =>
        (referenced package manifest item).isSome) ∧
    (KeptInOrder package manifest
        (fun item => decide ((referenced package manifest item).getD "" ≠ ""))
        (lessonContents (contents d' id)) ↔
      WithinReach (fun item => decide ((referenced package manifest item).getD "" ≠ ""))
        manifest ∧
      KeptUnassigned driver package manifest fun item =>
        decide ((referenced package manifest item).getD "" ≠ "")) := by
  have hlessons := imported_contents hfresh hrefs hmanifest hok
  rw [hlessons]
  refine ⟨rfl, keptInOrder_iff fun item hitem => hitem, keptInOrder_iff fun item hitem => ?_⟩
  cases hnone : referenced package manifest item with
  | some content => rfl
  | none =>
    rw [hnone] at hitem
    cases hitem

/-! ### An item at the third level -/

def exampleItem (title ref : String) (items : List Value) : Value :=
  .obj [("title", .str title), ("$", .obj [("identifierref", .str ref)]), ("item", .arr items)]

/-- A manifest whose only resource is `r1`. -/
def exampleManifest (href : String) (items : List Value) : Value :=
  .obj [("manifest", .obj
    [("organizations", .obj [("organization", .obj [("title", .str "Stellar"),
        ("item", .arr items)])]),
      ("resources", .obj [("resource", .obj [("$", .obj [("identifier", .str "r1"),
        ("href", .str href)])])])])]

/-- All files have the content `Fees`. -/
def exampleManifestPackage (items : List Value) : Package where
  dir := "/tmp/scorm"
  accessible := fun path => path = "/tmp/scorm/imsmanifest.xml"
  folders := []
  readFile := fun _ => .ok "Fees"
  resolve := fun name => PosixPath.resolve "/srv" ["/tmp/scorm", name]
  parseXml := fun _ => .ok (exampleManifest "fees.html" items)

def exampleDriver : Driver :=
  { text := fun _ => "", integer := fun _ => 0, boolean := fun _ => false }

theorem imports_of_readPackage {package : Package} {data : CourseData}
    (hread : readPackage package = .ok data) (hstorable : data.Storable exampleDriver) :
    ∃ id d', alone exampleAround .empty (processExtracted exampleDriver package "u1") =
      (.ok id, d') := by
  rw [processExtracted, hread]
  exact persist_succeeds fresh_empty hstorable

theorem scorm_items_kept_iff_flat :
    ∃ id d', alone exampleAround .empty (processExtracted exampleDriver
        (exampleManifestPackage [exampleItem "Fees" "r1" []]) "u1") = (.ok id, d') ∧
      lessonContents (contents d' id) = ["Fees"] := by
  obtain ⟨id, d', hok⟩ : ∃ id d', alone exampleAround .empty (processExtracted exampleDriver
      (exampleManifestPackage [exampleItem "Fees" "r1" []]) "u1") = (.ok id, d') :=
    imports_of_readPackage rfl (List.forall_mem_singleton.mpr (List.forall_mem_singleton.mpr rfl))
  refine ⟨id, d', hok, ?_⟩
  exact (scorm_items_kept_iff _ _ exampleAround .empty d' exampleDriver "u1" id fresh_empty
    referenced_empty rfl hok).1

def lostItem : Value := exampleItem "Fees" "r1" []

def nestedItems : List Value :=
  [exampleItem "Ledgers" "" [exampleItem "Transactions" "" [lostItem]]]

/-- The item is below an item of a module, and its lesson is missing. -/
theorem scorm_item_lost :
    ¬ ∀ (package : Package) (manifest : Value) (around : Around) (d d' : State) (driver : Driver)
      (userId id : String), FreshKeys around d → Referenced d →
      readManifest package = .ok manifest →
      alone around d (processExtracted driver package userId) = (.ok id, d') →
      KeptInOrder package manifest (fun item => (referenced package manifest item).isSome)
        (lessonContents (contents d' id)) := by
  intro h
  obtain ⟨id, d', hok⟩ : ∃ id d', alone exampleAround .empty (processExtracted exampleDriver
      (exampleManifestPackage nestedItems) "u1") = (.ok id, d') :=
    imports_of_readPackage rfl (List.forall_mem_singleton.mpr (List.forall_mem_singleton.mpr rfl))
  have hkept := h _ _ exampleAround .empty d' exampleDriver "u1" id fresh_empty referenced_empty
    rfl hok
  rw [imported_contents fresh_empty referenced_empty rfl hok,
    keptInOrder_iff fun item hitem => hitem] at hkept
  have hlost := hkept.1.deeper _ rfl _ (List.mem_singleton_self _) _ (List.mem_singleton_self _)
    lostItem (List.mem_singleton_self _) lostItem (by rw [itemTree_eq]; exact List.mem_cons_self)
  exact absurd hlost (by decide)

end ScormImportStrategy

end Scoopdope.ImportExport
