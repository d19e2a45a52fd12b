import Scoopdope.ImportExport.Strategies
import Scoopdope.Server.PosixPath

/-!
# Where the files of a SCORM package are

`resolveSafe` compares texts. With POSIX paths it accepts a name exactly if it names the directory
of the extraction or something below it: `resolveSafe_exact`.
-/

namespace Scoopdope.ImportExport.ScormImportStrategy

open Async Database Database.Statements Server PosixPath

/-! ## The check of the paths -/

/-- The package resolves names as POSIX does, in some working directory. -/
def Posix (package : Package) : Prop :=
  ∃ cwd, ∀ name, package.resolve name = resolve cwd [package.dir, name]

/-- The place of the directory that the package is extracted to. -/
def Package.root (package : Package) : Place := place package.dir.toList

/-- The place that a name denotes, seen from there. -/
def Package.denoted (package : Package) (name : String) : Place :=
  denote package.root name.toList

section Check

variable {package : Package} (hposix : Posix package) (hdir : Normal package.dir)

include hposix hdir

theorem resolve_denoted (name : String) :
    package.resolve name = String.ofList (render (package.denoted name)) := by
  obtain ⟨cwd, hcwd⟩ := hposix
  rw [hcwd, hdir.resolve_eq]
  rfl

theorem resolve_dot : package.resolve "." = package.dir := by
  have hdot : package.denoted "." = package.root := rfl
  rw [resolve_denoted hposix hdir, hdot, Package.root, hdir.normal, String.ofList_toList]

/-- What `resolveSafe` computes, with places in place of texts. -/
theorem resolveSafe_eq (hroot : package.dir ≠ "/") (name : String) :
    resolveSafe package name =
      if name ≠ "" ∧ '\x00' ∉ name.toList ∧ package.root <+: package.denoted name then
        some (String.ofList (render (package.denoted name)))
      else none := by
  have hbelow : package.root <+: package.denoted name ↔
      package.resolve name = package.dir ∨
        (package.dir ++ "/").toList <+: (package.resolve name).toList := by
    have hiff : package.root <+: package.denoted name ↔ _ :=
      (render_prefix_iff (hdir.place_ne_nil hroot)).symm
    rw [hiff, resolve_denoted hposix hdir, String.toList_ofList, String.toList_append,
      ← String.toList_inj, String.toList_ofList, hdir.normal]
    rfl
  rw [resolveSafe, resolve_dot hposix hdir, ← resolve_denoted hposix hdir]
  by_cases hname : name = "" ∨ '\x00' ∈ name.toList
  · have haccepted : ¬ (name ≠ "" ∧ '\x00' ∉ name.toList ∧
        package.root <+: package.denoted name) := fun h => hname.elim h.1 h.2.1
    rw [if_pos hname, if_neg haccepted]
  · obtain ⟨hne, hnul⟩ := not_or.mp hname
    rw [if_neg hname]
    by_cases hat : package.root <+: package.denoted name
    · have hinside : ¬ (package.resolve name ≠ package.dir ∧
          ¬ (package.dir ++ "/").toList <+: (package.resolve name).toList) :=
        fun h => (hbelow.mp hat).elim h.1 h.2
      rw [if_neg hinside, if_pos ⟨hne, hnul, hat⟩]
    · rw [if_pos (not_or.mp fun h => hat (hbelow.mpr h)), if_neg fun h => hat h.2.2]

end Check

/-- `resolveSafe` accepts a name exactly if it is not empty, contains no NUL and denotes the
directory or a place below it. The result is the normal path of that place, and no sibling of the
directory whose name only begins like it. -/
theorem resolveSafe_exact (package : Package) (hposix : Posix package)
    (hdir : Normal package.dir) (hroot : package.dir ≠ "/") (name : String) :
    (resolveSafe package name ≠ none ↔
      name ≠ "" ∧ '\x00' ∉ name.toList ∧ package.root <+: package.denoted name) ∧
    (∀ path, resolveSafe package name = some path →
      path = String.ofList (render (package.denoted name))) ∧
    ∀ suffix, suffix ≠ "" → isAbsolute suffix.toList = false →
      resolveSafe package name ≠ some (package.dir ++ suffix) := by
  rw [resolveSafe_eq hposix hdir hroot]
  refine ⟨?_, fun path hpath => ?_, fun suffix hne hslash hsome => ?_⟩
  · simp only [ne_eq, ite_eq_right_iff, reduceCtorEq, imp_false, not_not]
  · split at hpath
    next => exact (Option.some.inj hpath).symm
    next => cases hpath
  · split at hsome
    next h =>
      obtain ⟨below, hbelow⟩ := h.2.2
      have hp : package.root ≠ [] := hdir.place_ne_nil hroot
      have hlist := congrArg String.toList (Option.some.inj hsome)
      rw [String.toList_ofList, String.toList_append, ← hdir.normal, ← hbelow, render,
        if_neg (List.append_ne_nil_of_left_ne_nil hp below), text_append] at hlist
      rw [render, if_neg (hdir.place_ne_nil hroot)] at hlist
      have htext : text below = suffix.toList := List.append_cancel_left hlist
      obtain hnil | ⟨more, hmore⟩ := text_shape below
      · exact hne (String.toList_injective (htext.symm.trans hnil))
      · rw [← htext, hmore] at hslash
        cases hslash
    next => cases hsome

/-- An empty package in `/tmp/scorm`. -/
def examplePackage : Package where
  dir := "/tmp/scorm"
  accessible := fun _ => false
  folders := []
  readFile := fun _ => .error (.internal "ENOENT: no such file or directory")
  resolve := fun name => PosixPath.resolve "/srv" ["/tmp/scorm", name]
  parseXml := fun _ => .ok .null

theorem resolveSafe_exact_sibling : resolveSafe examplePackage "../scormx" = none := by
  by_contra hsome
  obtain ⟨-, -, hbegins⟩ := (resolveSafe_exact examplePackage ⟨"/srv", fun _ => rfl⟩
    ⟨rfl, by decide⟩ (by decide) "../scormx").1.mp hsome
  exact absurd hbegins (by decide)

end Scoopdope.ImportExport.ScormImportStrategy
