import Scoopdope.Enrollments.Admission
import Scoopdope.Graph.Acyclic
import Scoopdope.Graph.Worklist
import Scoopdope.Soroban.History

/-!
# Courses: prerequisites

`addPrerequisite` and `removePrerequisite` of `PrerequisitesService`
(`courses/prerequisites.service.ts`); `Enrollments.Service` has the methods that enforce the
relation. An addition is checked against itself only: a course is not its own prerequisite.

`prerequisites_sound_iff`: throughout a run the relation has no cycle, and every course can be
reached by a student who completes courses in some order, exactly when no pair is added whose
prerequisite depends on the course already.
-/

namespace Scoopdope.Courses

open Async Database Server Learning Enrollments Soroban

def addPrerequisite (courseId prerequisiteId : String) :
    Method (schema.Row .coursePrerequisite) :=
  if courseId = prerequisiteId then
    .fail (.badRequest "A course cannot be its own prerequisite")
  else do
    let course ← findOne .course (.active courseId)
    let prereq ← findOne .course (.active prerequisiteId)
    match course, prereq with
    | none, _ => .fail (.notFound "Course not found")
    | some _, none => .fail (.notFound "Prerequisite course not found")
    | some _, some _ => insert .coursePrerequisite { courseId, prerequisiteId }

/-- The row with both ids is looked up among those of the course. -/
def removePrerequisite (courseId prerequisiteId : String) : Method Unit := do
  let records ← find .coursePrerequisite courseId
  match records.find? fun record => record.data.prerequisiteId = prerequisiteId with
  | none => .fail (.notFound "Prerequisite relationship not found")
  | some record => remove .coursePrerequisite record

inductive Call
  | addPrerequisite (courseId prerequisiteId : String)
  | removePrerequisite (courseId prerequisiteId : String)

/-- What is run, without what it returns. -/
def Call.method : Call → Method Unit
  | .addPrerequisite courseId prerequisiteId =>
    Courses.addPrerequisite courseId prerequisiteId >>= fun _ => pure ()
  | .removePrerequisite courseId prerequisiteId =>
    Courses.removePrerequisite courseId prerequisiteId

def exec (s : State) (i : Surroundings × Call) : Outcome State :=
  .ok (i.2.method.run handle i.1 s).2

/-- The state after a run that starts without prerequisites. -/
abbrev reached (s₀ : State) (past : List (Surroundings × Call)) : State :=
  after exec (s₀.put .coursePrerequisite .empty) past

/-- The prerequisite is recorded. -/
def Requires (s : State) (courseId prerequisiteId : String) : Prop :=
  ∃ row ∈ s.tables .coursePrerequisite,
    row.data.courseId = courseId ∧ row.data.prerequisiteId = prerequisiteId

/-- A student who has completed the courses of `past` passes the check for the course. -/
def LetIn (s : State) (past : List String) (courseId : String) : Prop :=
  ∀ around s' userId, s'.tables .coursePrerequisite = s.tables .coursePrerequisite →
    Validated around s' userId courseId false → (∀ c ∈ past, Completed s' userId c) →
    (enforcePrerequisites userId courseId false).run handle around s' = (.ok (), s')

/-- The courses can be completed one after another, the last one first in the list. -/
inductive Completable (s : State) : List String → Prop
  | nil : Completable s []
  | cons (courseId : String) (past : List String) (before : Completable s past)
      (fresh : courseId ∉ past) (admitted : LetIn s past courseId) :
      Completable s (courseId :: past)

/-- There is no cycle, and every course is among some that can be completed. -/
structure Sound (s : State) : Prop where
  acyclic : Graph.Acyclic (Requires s)
  enrollable : ∀ courseId, ∃ order, Completable s order ∧ courseId ∈ order

/-- The call adds a pair: it passes the checks, its statements are answered, and the row is
new. -/
structure Adds (around : Surroundings) (s : State) (courseId prerequisiteId : String) : Prop where
  distinct : courseId ≠ prerequisiteId
  course : ((s.tables .course).findOne (schema.holds .course (.active courseId))).isSome = true
  prereq :
    ((s.tables .course).findOne (schema.holds .course (.active prerequisiteId))).isSome = true
  courseFound : around.fails (.query (.findOne .course (.active courseId))) = none
  prereqFound : around.fails (.query (.findOne .course (.active prerequisiteId))) = none
  inserted : around.fails (.query (.insert .coursePrerequisite { courseId, prerequisiteId })) = none
  key : (s.tables .coursePrerequisite).get
    (around.key .coursePrerequisite { courseId, prerequisiteId }) = none
  absent : ¬ Requires s courseId prerequisiteId

/-- A pair that is added does not close a cycle. -/
def NoPathBack (s₀ : State) (past : List (Surroundings × Call)) (i : Surroundings × Call) : Prop :=
  ∀ around courseId prerequisiteId, i = (around, .addPrerequisite courseId prerequisiteId) →
    Adds around (reached s₀ past) courseId prerequisiteId →
    ¬ Relation.ReflTransGen (Requires (reached s₀ past)) prerequisiteId courseId

/-! ## The check of an enrollment -/

variable {around : Surroundings} {s s₀ : State} {courseId prerequisiteId : String}

theorem letIn_of_schedule {past : List String}
    (h : ∀ c, Requires s courseId c → c ∈ past) : LetIn s past courseId := by
  intro around s' userId hsame hvalidated hpast
  refine enforcePrerequisites_ok.mpr ⟨hvalidated, .inr fun row hrow hcourse => ?_, rfl⟩
  rw [hsame] at hrow
  exact hpast _ (h _ ⟨row, hrow, hcourse, rfl⟩)

theorem completable_of_schedule {order : List String} (h : Graph.Schedule (Requires s) order) :
    Completable s order := by
  induction h with
  | nil => exact .nil
  | cons courseId past _ fresh ready ih =>
    exact .cons courseId past ih fresh (letIn_of_schedule ready)

theorem sound_iff : Sound s ↔ Graph.Acyclic (Requires s) := by
  refine ⟨Sound.acyclic, fun h => ⟨h, fun courseId => ?_⟩⟩
  have hneeds (a b : String) : Requires s a b ↔
      b ∈ (prerequisites s a).map fun row => row.data.prerequisiteId := by
    simp only [List.mem_map, mem_prerequisites, Requires, and_assoc]
  let courses := ((s.tables .coursePrerequisite).find fun _ => true).map fun row =>
    row.data.courseId
  have hmem (a b : String) (hab : Requires s a b) : a ∈ {c | c ∈ courses} := by
    obtain ⟨row, hrow, rfl, -⟩ := hab
    exact List.mem_map.mpr ⟨row, Repository.mem_find.mpr ⟨hrow, rfl⟩, rfl⟩
  have hscheduled := (Graph.acyclic_iff_scheduled _ hneeds courses.finite_toSet hmem).mp h
  obtain ⟨order, horder, hcourse⟩ := hscheduled courseId
  exact ⟨order, completable_of_schedule horder, hcourse⟩

/-! ## Steps -/

theorem conflicts_iff {rows : schema.Rows .coursePrerequisite}
    {row : schema.Row .coursePrerequisite} (hkey : rows.get row.id = none) :
    Schema.conflicts rows row = false ↔ ¬ ∃ other ∈ rows,
      other.data.courseId = row.data.courseId ∧
        other.data.prerequisiteId = row.data.prerequisiteId := by
  have hother {other : schema.Row .coursePrerequisite} (h : other ∈ rows) : other.id ≠ row.id := by
    intro hid
    rw [← hid, Repository.mem_def.mp h] at hkey
    cases hkey
  rw [conflicts_eq_false]
  constructor
  · rintro h ⟨other, hmem, hcourse, hprereq⟩
    have hfree := h other hmem (hother hmem)
    simp [Entity.conflict, hcourse, hprereq] at hfree
  · intro h other hmem _
    by_contra hconflict
    refine h ⟨other, hmem, ?_⟩
    simpa [Entity.conflict] using hconflict

variable (around s courseId prerequisiteId) in
theorem run_addPrerequisite :
    Adds around s courseId prerequisiteId ∧
      ((addPrerequisite courseId prerequisiteId).run handle around s).2 =
        s.put .coursePrerequisite ((s.tables .coursePrerequisite).save
          (Schema.inserted around.toGenerated { courseId, prerequisiteId })) ∨
    ¬ Adds around s courseId prerequisiteId ∧
      ((addPrerequisite courseId prerequisiteId).run handle around s).2 = s := by
  unfold addPrerequisite
  by_cases hsame : courseId = prerequisiteId
  · rw [if_pos hsame]
    exact .inr ⟨fun h => h.distinct hsame, rfl⟩
  rw [if_neg hsame]
  rcases hcourseFound : around.fails (.query (.findOne .course (.active courseId))) with - | x
  swap
  · rw [Process.run_bind_of_error (findOne_of_some hcourseFound)]
    exact .inr ⟨(fun h => nomatch hcourseFound.symm.trans h.courseFound), rfl⟩
  rw [Process.run_bind_of_ok (findOne_of_none hcourseFound)]
  rcases hprereqFound :
    around.fails (.query (.findOne .course (.active prerequisiteId))) with - | x
  swap
  · rw [Process.run_bind_of_error (findOne_of_some hprereqFound)]
    exact .inr ⟨(fun h => nomatch hprereqFound.symm.trans h.prereqFound), rfl⟩
  rw [Process.run_bind_of_ok (findOne_of_none hprereqFound)]
  rcases hcourse : (s.tables .course).findOne (schema.holds .course (.active courseId))
    with - | course
  · refine .inr ⟨fun h => ?_, rfl⟩
    have hexists := h.course
    simp [hcourse] at hexists
  rcases hprereq : (s.tables .course).findOne (schema.holds .course (.active prerequisiteId))
    with - | prereq
  · refine .inr ⟨fun h => ?_, rfl⟩
    have hexists := h.prereq
    simp [hprereq] at hexists
  dsimp only
  rcases hinsert : (insert .coursePrerequisite ⟨courseId, prerequisiteId⟩).run handle around s
    with ⟨x | row, s'⟩ <;> rw [hinsert]
  · refine .inr ⟨fun h => ?_, insert_error hinsert⟩
    have hok := insert_ok.mpr ⟨h.inserted, rfl, h.key, (conflicts_iff h.key).mpr h.absent, rfl⟩
    cases hinsert.symm.trans hok
  · obtain ⟨hinserted, rfl, hkey, hfree, rfl⟩ := insert_ok.mp hinsert
    have habsent := (conflicts_iff hkey).mp hfree
    exact .inl ⟨⟨hsame, by rw [hcourse]; rfl, by rw [hprereq]; rfl, hcourseFound, hprereqFound,
      hinserted, hkey, habsent⟩, rfl⟩

theorem mem_removePrerequisite {row : schema.Row .coursePrerequisite}
    (h : row ∈ ((removePrerequisite courseId prerequisiteId).run handle around s).2.tables
      .coursePrerequisite) : row ∈ s.tables .coursePrerequisite := by
  unfold removePrerequisite at h
  rcases hfound : (find .coursePrerequisite courseId).run handle around s with ⟨x | records, s'⟩
  · rw [Process.run_bind_of_error hfound] at h
    obtain ⟨-, rfl⟩ := request_error.mp hfound
    exact h
  · obtain ⟨-, -, rfl⟩ := find_ok.mp hfound
    rw [Process.run_bind_of_ok hfound] at h
    rcases hrecord : records.find? fun record => record.data.prerequisiteId = prerequisiteId
      with - | record <;> rw [hrecord] at h
    · exact h
    · rcases hremove : (remove .coursePrerequisite record).run handle around s with ⟨x | u, s'⟩
      · obtain ⟨-, rfl⟩ := request_error.mp hremove
        change row ∈ ((remove .coursePrerequisite record).run handle around s').2.tables _ at h
        rw [hremove] at h
        exact h
      · obtain ⟨-, rfl⟩ := remove_ok.mp hremove
        change row ∈ ((remove .coursePrerequisite record).run handle around s).2.tables _ at h
        rw [hremove, State.put_tables_self, Repository.mem_remove] at h
        exact h.1

/-! ## Runs -/

/-- An addition makes one more dependency. -/
theorem requires_added {s' : State} (hadds : Adds around s courseId prerequisiteId)
    (h : s' = s.put .coursePrerequisite ((s.tables .coursePrerequisite).save
      (Schema.inserted around.toGenerated { courseId, prerequisiteId }))) :
    Requires s' = Graph.insert (Requires s) courseId prerequisiteId := by
  subst h
  funext a b
  refine propext ?_
  unfold Requires Graph.insert
  rw [State.put_tables_self]
  constructor
  · rintro ⟨row, hrow, rfl, rfl⟩
    rcases Repository.mem_save.mp hrow with rfl | ⟨hold, -⟩
    · exact .inr ⟨rfl, rfl⟩
    · exact .inl ⟨row, hold, rfl, rfl⟩
  · rintro (⟨row, hrow, rfl, rfl⟩ | ⟨rfl, rfl⟩)
    · refine ⟨row, Repository.mem_save.mpr (.inr ⟨hrow, fun hid => ?_⟩), rfl, rfl⟩
      have hkey := hadds.key
      change row.id = around.key .coursePrerequisite _ at hid
      rw [← hid, Repository.mem_def.mp hrow] at hkey
      cases hkey
    · exact ⟨_, Repository.mem_save.mpr (.inl rfl), rfl, rfl⟩

theorem sound_cons {past : List (Surroundings × Call)} {i : Surroundings × Call}
    (h : Sound (reached s₀ past)) :
    Sound (reached s₀ (i :: past)) ↔ NoPathBack s₀ past i := by
  obtain ⟨around, call⟩ := i
  rw [sound_iff] at h ⊢
  cases call with
  | addPrerequisite courseId prerequisiteId =>
    have hstate : reached s₀ ((around, .addPrerequisite courseId prerequisiteId) :: past) =
        ((addPrerequisite courseId prerequisiteId).run handle around (reached s₀ past)).2 :=
      congrArg Prod.snd (Process.run_map _ fun _ => ())
    rw [hstate]
    rcases run_addPrerequisite around (reached s₀ past) courseId prerequisiteId with
      ⟨hadds, hrun⟩ | ⟨hnot, hrun⟩
    · rw [requires_added hadds hrun, Graph.acyclic_insert_iff h]
      constructor
      · rintro hpath _ _ _ ⟨⟩ _
        exact hpath
      · intro hguard
        exact hguard around courseId prerequisiteId rfl hadds
    · rw [hrun]
      refine iff_of_true h ?_
      rintro _ _ _ ⟨⟩ hadds
      exact absurd hadds hnot
  | removePrerequisite courseId prerequisiteId =>
    refine iff_of_true (h.mono ?_) nofun
    rintro a b ⟨row, hrow, hpair⟩
    exact ⟨row, mem_removePrerequisite hrow, hpair⟩

/-- At every point of a run the relation has no cycle and every course can be reached by
completing courses in some order, exactly when no pair of the run is added whose prerequisite
depends on the course already. -/
theorem prerequisites_sound_iff (s₀ : State) (past : List (Surroundings × Call)) :
    (∀ earlier, earlier <:+ past → Sound (reached s₀ earlier)) ↔
      Guarded (NoPathBack s₀) past := by
  refine throughout_iff_guarded ?_ past fun earlier i _ h => sound_cons h
  refine sound_iff.mpr (Graph.acyclic_empty ?_)
  rintro a b ⟨row, hrow, -⟩
  change row ∈ (State.put _ _ _).tables .coursePrerequisite at hrow
  rw [State.put_tables_self] at hrow
  exact Repository.not_mem_empty hrow

/-! ## Two courses that require each other -/

/-- Two published courses. -/
def exampleCourses : State :=
  let course : Course := ⟨"", .published, true, false, false, none, none⟩
  State.empty.put .course ((Repository.empty.save ⟨"a", 0, 0, course⟩).save ⟨"b", 0, 0, course⟩)

def exampleAround : Surroundings where
  now := 0
  key
    | .coursePrerequisite, pair => pair.courseId ++ pair.prerequisiteId
    | _, _ => ""
  hash := fun _ => ""
  fails := fun _ => none

/-- Newest first. -/
def exampleCycle : List (Surroundings × Call) :=
  [(exampleAround, .addPrerequisite "b" "a"), (exampleAround, .addPrerequisite "a" "b")]

/-- Both additions are accepted, and each course requires the other one. -/
theorem courses_require_each_other :
    Requires (reached exampleCourses exampleCycle) "a" "b" ∧
      Requires (reached exampleCourses exampleCycle) "b" "a" ∧
      ¬ Sound (reached exampleCourses exampleCycle) := by
  have hab : Requires (reached exampleCourses exampleCycle) "a" "b" :=
    ⟨⟨"ab", 0, 0, "a", "b"⟩, by decide +kernel, rfl, rfl⟩
  have hba : Requires (reached exampleCourses exampleCycle) "b" "a" :=
    ⟨⟨"ba", 0, 0, "b", "a"⟩, by decide +kernel, rfl, rfl⟩
  refine ⟨hab, hba, fun h => ?_⟩
  exact h.acyclic "a" (.tail (.single hab) hba)

end Scoopdope.Courses

/-!
## Courses: the chain of prerequisites

`getPrerequisiteChain` of `PrerequisitesService` (`courses/prerequisites.service.ts`).

`prerequisiteChain_exact`: for any relation, with cycles or without, the loop ends after two
iterations more than there are rows, at most. The map then has the courses that can be reached, each
with its prerequisites as they are stored; or a read has failed.
-/

namespace Scoopdope.Courses

open Async Database Server Learning Enrollments Soroban Graph Relation

/-- `Record<string, string[]>`. -/
abbrev Chain : Type := Table String (List String)

/-- The loop over the queue, for so many iterations at most. -/
def extendChain (chain : Chain) (visited queue : List String) : Nat → Method (Option Chain)
  | 0 => pure none
  | iterations + 1 =>
    match queue with
    | [] => pure (some chain)
    | current :: queue =>
      if current ∈ visited then extendChain chain visited queue iterations
      else do
        let prereqs ← find .coursePrerequisite current
        let required := prereqs.map fun p => p.data.prerequisiteId
        extendChain (chain.set current required) (current :: visited)
          (queue ++ required.filter fun id => id ∉ current :: visited) iterations

def getPrerequisiteChain (courseId : String) (iterations : Nat) : Method (Option Chain) :=
  extendChain ∅ [] [courseId] iterations

/-- The pairs that are stored. -/
def pairs (s : State) : List (String × String) :=
  ((s.tables .coursePrerequisite).rows.entries.map Sigma.snd).map fun row =>
    (row.data.courseId, row.data.prerequisiteId)

/-- What a course requires, as it is stored. -/
def required (s : State) (courseId : String) : List String :=
  (prerequisites s courseId).map fun row => row.data.prerequisiteId

/-- The map has the courses that can be reached, with what they require. -/
def Chain.Exact (chain : Chain) (s : State) (courseId : String) : Prop :=
  ∀ id, (ReflTransGen (Requires s) courseId id → chain.get id = some (required s id)) ∧
    (¬ ReflTransGen (Requires s) courseId id → chain.get id = none)

/-! ## One iteration -/

variable {around : Surroundings} {s : State} {courseId current : String} {chain : Chain}
  {visited queue : List String}

theorem edge_pairs : Edge (pairs s) = Requires s := by
  funext courseId prerequisiteId
  refine propext ?_
  rw [Edge, pairs, List.mem_map]
  constructor
  · rintro ⟨row, hrow, hpair⟩
    cases hpair
    exact ⟨row, Repository.mem_entries.mp hrow, rfl, rfl⟩
  · rintro ⟨row, hrow, rfl, rfl⟩
    exact ⟨row, Repository.mem_entries.mpr hrow, rfl⟩

theorem targets_pairs : targets (pairs s) courseId = required s courseId := by
  rw [targets, pairs, List.filter_map, List.map_map]
  rfl

/-- The map has what has been visited. -/
def Recorded (s : State) (chain : Chain) (visited : List String) : Prop :=
  ∀ id, chain.get id = if id ∈ visited then some (required s id) else none

theorem Recorded.visit (h : Recorded s chain visited) :
    Recorded s (chain.set current (required s current)) (current :: visited) := by
  intro id
  rw [Table.get_set, h id]
  by_cases hcurrent : id = current
  · rw [if_pos hcurrent, if_pos (hcurrent ▸ List.mem_cons_self), hcurrent]
  · rw [if_neg hcurrent]
    simp only [List.mem_cons, hcurrent, false_or]

/-- A traversal that is done has recorded the chain. -/
theorem Recorded.exact (h : Recorded s chain visited)
    (hdone : Traversal (pairs s) courseId visited []) : chain.Exact s courseId := by
  intro id
  rw [h id, ← edge_pairs, ← hdone.done]
  exact ⟨fun hvisited => if_pos hvisited, fun hvisited => if_neg hvisited⟩

/-! ## The loop -/

/-- A read of the prerequisites of a course that can be reached fails, and the call with it. -/
def ReadFails (around : Surroundings) (s : State) (courseId : String)
    (result : Except HttpException (Option Chain) × State) : Prop :=
  ∃ id x, ReflTransGen (Requires s) courseId id ∧
    around.fails (.query (.find .coursePrerequisite id)) = some x ∧ result = (.error x, s)

theorem run_extendChain {iterations : Nat} (htraversal : Traversal (pairs s) courseId visited queue)
    (hrecorded : Recorded s chain visited)
    (henough : remaining (pairs s) visited queue < iterations) :
    let result := (extendChain chain visited queue iterations).run handle around s
    (∃ chain, result = (.ok (some chain), s) ∧ chain.Exact s courseId) ∨
      ReadFails around s courseId result := by
  induction iterations generalizing chain visited queue with
  | zero => exact absurd henough (Nat.not_lt_zero _)
  | succ iterations ih =>
    cases queue with
    | nil => exact .inl ⟨chain, rfl, hrecorded.exact htraversal⟩
    | cons current queue =>
      rw [extendChain]
      split
      · next hvisited =>
        rw [remaining_skip] at henough
        exact ih (htraversal.skip hvisited) hrecorded (Nat.lt_of_succ_lt_succ henough)
      · next hvisited =>
        cases hread : around.fails (.query (.find .coursePrerequisite current)) with
        | none =>
          have hfind : (find .coursePrerequisite current).run handle around s =
              (.ok (prerequisites s current), s) := find_ok.mpr ⟨hread, rfl, rfl⟩
          have hless : remaining (pairs s) (current :: visited)
              (enqueue (pairs s) visited queue current) <
                remaining (pairs s) visited (current :: queue) := remaining_visit hvisited
          have hrest := ih htraversal.visit hrecorded.visit
            (lt_of_lt_of_le hless (Nat.le_of_lt_succ henough))
          rw [enqueue, targets_pairs] at hrest
          rw [Process.run_bind_of_ok hfind]
          exact hrest
        | some x =>
          have hfind : (find .coursePrerequisite current).run handle around s = (.error x, s) :=
            request_error.mpr ⟨hread, rfl⟩
          have hreached := htraversal.reached current
            (List.mem_append_right _ List.mem_cons_self)
          rw [edge_pairs] at hreached
          exact .inr ⟨current, x, hreached, hread, Process.run_bind_of_error hfind _⟩

/-- With two iterations more than there are rows the call returns the chain, or it fails with a
read of the prerequisites of a course in the chain. -/
theorem prerequisiteChain_exact (around : Surroundings) (s : State) (courseId : String)
    (iterations : Nat) (henough : (pairs s).length + 2 ≤ iterations) :
    let result := (getPrerequisiteChain courseId iterations).run handle around s
    (∃ chain, result = (.ok (some chain), s) ∧ chain.Exact s courseId) ∨
      ReadFails around s courseId result := by
  refine run_extendChain .begin (fun id => Table.get_empty id) ?_
  have hedges := List.length_filter_le (fun e => decide (e.1 ∉ [])) (pairs s)
  rw [remaining, List.length_singleton]
  omega

/-- A cycle with two ways round. -/
def exampleRing : State :=
  let pair (key courseId prerequisiteId : String) : schema.Row .coursePrerequisite :=
    ⟨key, 0, 0, courseId, prerequisiteId⟩
  State.empty.put .coursePrerequisite (((((Repository.empty.save (pair "1" "a" "b")).save
    (pair "2" "a" "c")).save (pair "3" "b" "d")).save (pair "4" "c" "d")).save (pair "5" "d" "a"))

theorem prerequisiteChain_exact_ring :
    ∃ chain, (getPrerequisiteChain "a" 7).run handle exampleAround exampleRing =
      (.ok (some chain), exampleRing) ∧ chain.Exact exampleRing "a" := by
  rcases prerequisiteChain_exact exampleAround exampleRing "a" 7 (by decide +kernel) with
    hchain | ⟨id, x, -, hfails, -⟩
  · exact hchain
  · cases hfails

end Scoopdope.Courses
