import Mathlib.Data.List.Induction

/-!
# POSIX paths

A place is the list of the names that lead to it from the root. A text names a place, `resolve` is
the text of the place that its arguments name one after the other, and whether one text is a prefix
of another says which place is below which.
-/

namespace Scoopdope.Server.PosixPath

/-- What a name in a path may be. -/
abbrev Plain (name : List Char) : Prop :=
  name ≠ [] ∧ name ≠ ['.'] ∧ name ≠ ['.', '.'] ∧ '/' ∉ name

structure Component where
  name : List Char
  plain : Plain name
deriving DecidableEq

theorem Component.ext_name {a b : Component} (h : a.name = b.name) : a = b := by
  cases a
  cases b
  cases h
  rfl

abbrev Place : Type := List Component

/-! ## The place that a text names -/

/-- From a place along one segment. An empty segment and `.` stay. The root is its own parent. -/
def walk (place : Place) (segment : List Char) : Place :=
  if segment = ['.', '.'] then place.dropLast
  else if h : Plain segment then place ++ [⟨segment, h⟩]
  else place

def isAbsolute (path : List Char) : Bool := path.head? = some '/'

/-- The place that the path names, seen from `dir`. -/
def denote (dir : Place) (path : List Char) : Place :=
  (path.splitOn '/').foldl walk (if isAbsolute path then [] else dir)

def place (path : List Char) : Place := denote [] path

/-! ## `path.resolve` -/

def text (place : Place) : List Char := place.flatMap fun component => '/' :: component.name

def render (place : Place) : List Char := if place = [] then ['/'] else text place

/-- The paths, from the last one to the first absolute one, put before `path`. -/
def joined : List (List Char) → List Char → List Char
  | [], path => path
  | arg :: args, path =>
    if arg = [] then joined args path
    else if isAbsolute arg then arg ++ '/' :: path
    else joined args (arg ++ '/' :: path)

/-- `path.resolve(...paths)`, in the working directory `cwd` -/
def resolve (cwd : String) (paths : List String) : String :=
  String.ofList (render (place (joined ((paths.map String.toList).reverse ++ [cwd.toList]) [])))

/-- An absolute path that is its own normal form. -/
structure Normal (path : String) : Prop where
  absolute : isAbsolute path.toList = true
  normal : render (place path.toList) = path.toList

/-! ## Walking along texts -/

theorem splitOn_slash (path rest : List Char) :
    (path ++ '/' :: rest).splitOn '/' = path.splitOn '/' ++ rest.splitOn '/' := by
  simp only [List.splitOn_eq_splitOnP]
  exact List.splitOnP_append_cons path rest (by simp)

theorem splitOn_name {name : List Char} (h : '/' ∉ name) : name.splitOn '/' = [name] := by
  rw [List.splitOn_eq_splitOnP]
  refine List.splitOnP_eq_singleton fun c hc => ?_
  simpa using fun hslash : c = '/' => h (hslash ▸ hc)

@[simp] theorem walk_empty (dir : Place) : walk dir [] = dir := by
  rw [walk, if_neg nofun, dif_neg fun h => h.1 rfl]

@[simp] theorem walk_name (dir : Place) (component : Component) :
    walk dir component.name = dir ++ [component] := by
  rw [walk, if_neg component.plain.2.2.1, dif_pos component.plain]

@[simp] theorem denote_nil (dir : Place) : denote dir [] = dir := walk_empty dir

theorem denote_absolute {path : List Char} (dir : Place) (h : isAbsolute path = true) :
    denote dir path = place path := by
  rw [place, denote, denote, if_pos h, if_pos h]

theorem place_eq (path : List Char) : place path = (path.splitOn '/').foldl walk [] := by
  rw [place, denote, ite_self]

/-- The joined path leads along the arguments one after the other. -/
theorem place_joined (args : List (List Char)) (path : List Char) :
    place (joined args path) =
      (path.splitOn '/').foldl walk (args.foldr (fun arg dir => denote dir arg) []) := by
  induction args generalizing path with
  | nil => exact place_eq path
  | cons arg args ih =>
    rw [joined, List.foldr_cons]
    by_cases hnil : arg = []
    · rw [if_pos hnil, ih, hnil, denote_nil]
    · rw [if_neg hnil]
      by_cases habs : isAbsolute arg = true
      · rw [if_pos habs, place_eq, splitOn_slash, List.foldl_append, denote, if_pos habs]
      · rw [if_neg habs, ih, splitOn_slash, List.foldl_append, denote, if_neg habs]

theorem resolve_eq (cwd : String) (paths : List String) :
    resolve cwd paths = String.ofList
      (render (paths.foldl (fun dir path => denote dir path.toList) (place cwd.toList))) := by
  rw [resolve, place_joined, List.foldr_append, List.foldr_reverse, List.foldl_map]
  rfl

/-- The way to `p` from the directory `dir`, if `p` is the directory or below it. -/
def relativeTo (dir p : Place) : Option Place :=
  if dir <+: p then some (p.drop dir.length) else none

@[simp] theorem relativeTo_append (dir p : Place) : relativeTo dir (dir ++ p) = some p := by
  rw [relativeTo, if_pos (List.prefix_append dir p), List.drop_left]

theorem place_child (path : List Char) (component : Component) :
    place (path ++ '/' :: component.name) = place path ++ [component] := by
  rw [place_eq, splitOn_slash, List.foldl_append, ← place_eq, splitOn_name component.plain.2.2.2]
  exact walk_name (place path) component

/-! ## The text of a place -/

theorem text_append (p q : Place) : text (p ++ q) = text p ++ text q := List.flatMap_append

theorem place_text (p : Place) : place (text p) = p := by
  induction p using List.reverseRecOn with
  | nil => rfl
  | append_singleton p component ih =>
    have htext : text (p ++ [component]) = text p ++ '/' :: component.name := by
      simp [text]
    rw [htext, place_child, ih]

@[simp] theorem place_render (p : Place) : place (render p) = p := by
  rw [render]
  split
  next h => exact h ▸ rfl
  next => exact place_text p

theorem render_injective {p q : Place} (h : render p = render q) : p = q := by
  rw [← place_render p, h, place_render]

/-- Names that a slash ends are the same, if one text begins with the other. -/
theorem name_eq_of_prefix {name name' : List Char} {rest rest' : List Char} (h : '/' ∉ name)
    (h' : '/' ∉ name') (hrest' : rest' = [] ∨ ∃ more, rest' = '/' :: more)
    (hbegins : name ++ '/' :: rest <+: name' ++ rest') :
    name = name' ∧ '/' :: rest <+: rest' := by
  induction name generalizing name' with
  | nil =>
    cases name' with
    | nil => exact ⟨rfl, hbegins⟩
    | cons c name' =>
      obtain ⟨hc, -⟩ := List.cons_prefix_cons.mp hbegins
      exact absurd (hc ▸ List.mem_cons_self) h'
  | cons c name ih =>
    cases name' with
    | nil =>
      obtain rfl | ⟨more, rfl⟩ := hrest'
      · exact absurd (List.prefix_nil.mp hbegins) nofun
      · obtain ⟨hc, -⟩ := List.cons_prefix_cons.mp hbegins
        exact absurd (hc ▸ List.mem_cons_self) h
    | cons c' name' =>
      obtain ⟨hc, hbegins⟩ := List.cons_prefix_cons.mp hbegins
      obtain ⟨hname, hrest⟩ := ih (fun hmem => h (List.mem_cons_of_mem c hmem))
        (fun hmem => h' (List.mem_cons_of_mem c' hmem)) hbegins
      exact ⟨congrArg₂ List.cons hc hname, hrest⟩

theorem text_shape (p : Place) : text p = [] ∨ ∃ more, text p = '/' :: more := by
  cases p with
  | nil => exact .inl rfl
  | cons component p => exact .inr ⟨_, rfl⟩

/-- The text of a place with a slash begins the texts of the places strictly below it. -/
theorem text_slash_prefix_iff {p q : Place} :
    text p ++ ['/'] <+: text q ↔ p <+: q ∧ p ≠ q := by
  induction p generalizing q with
  | nil => cases q <;> simp [text]
  | cons component p ih =>
    cases q with
    | nil => simp [text]
    | cons component' q =>
      have hiff : text (component :: p) ++ ['/'] <+: text (component' :: q) ↔
          component.name ++ (text p ++ ['/']) <+: component'.name ++ text q := by
        simp [text]
      rw [hiff, List.cons_prefix_cons]
      constructor
      · intro hbegins
        have hslash : ∃ rest, text p ++ ['/'] = '/' :: rest := by
          obtain h | ⟨more, h⟩ := text_shape p
          · exact ⟨[], by rw [h]; rfl⟩
          · exact ⟨more ++ ['/'], by rw [h]; rfl⟩
        obtain ⟨rest, hrest⟩ := hslash
        rw [hrest] at hbegins
        obtain ⟨hname, hbelow⟩ := name_eq_of_prefix component.plain.2.2.2 component'.plain.2.2.2
          (text_shape q) hbegins
        obtain ⟨hpq, hne⟩ := ih.mp (hrest ▸ hbelow)
        exact ⟨⟨Component.ext_name hname, hpq⟩, fun heq => hne (List.cons.inj heq).2⟩
      · rintro ⟨⟨rfl, hpq⟩, hne⟩
        refine (List.prefix_append_right_inj component.name).mpr (ih.mpr ⟨hpq, ?_⟩)
        exact fun heq => hne (heq ▸ rfl)

/-- Away from the root, texts tell whether a place is at another one or below it. -/
theorem render_prefix_iff {p q : Place} (hp : p ≠ []) :
    (render q = render p ∨ render p ++ ['/'] <+: render q) ↔ p <+: q := by
  constructor
  · rintro (heq | hbegins)
    · exact render_injective heq ▸ List.prefix_refl p
    · cases q with
      | nil =>
        obtain ⟨component, p, rfl⟩ := List.exists_cons_of_ne_nil hp
        simp [render, text] at hbegins
      | cons component q =>
        rw [render, render, if_neg hp, if_neg nofun] at hbegins
        exact (text_slash_prefix_iff.mp hbegins).1
  · intro hpq
    by_cases heq : p = q
    · exact .inl (heq ▸ rfl)
    · have hq : q ≠ [] := fun h => hp (List.prefix_nil.mp (h ▸ hpq))
      rw [render, render, if_neg hp, if_neg hq]
      exact .inr (text_slash_prefix_iff.mpr ⟨hpq, heq⟩)

/-! ## Normal paths -/

namespace Normal

variable {path : String} (h : Normal path)

include h

theorem place_ne_nil (hroot : path ≠ "/") : place path.toList ≠ [] := by
  intro hnil
  refine hroot (String.toList_injective ?_)
  rw [← h.normal, hnil]
  rfl

theorem resolve_eq (cwd name : String) :
    resolve cwd [path, name] = String.ofList (render (denote (place path.toList) name.toList)) := by
  rw [PosixPath.resolve_eq]
  simp only [List.foldl_cons, List.foldl_nil, denote_absolute _ h.absolute]

end Normal

end Scoopdope.Server.PosixPath
