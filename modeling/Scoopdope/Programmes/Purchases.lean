import Scoopdope.Enrollments.AllOrNothing

/-!
# Programmes: purchases

`BundlesService.purchase` (`bundles/bundles.service.ts`) and `LearningPathsService.enroll`
(`learning-paths/learning-paths.service.ts`). Bundles and learning paths are programmes here. A call
saves the enrollment in the programme first, then enrolls the user in one course after the other,
and a failure there undoes nothing.

`programmes_retryable_iff`: a call leaves nothing that has to be completed, or something that a
repetition completes, exactly where no enrollment in a course fails once the first `save` is
through.

A call runs to its end before the next one.
-/

namespace Scoopdope.Programmes

open Async Database Server Learning Enrollments

/-! ## Entities -/

/-- A bundle or a learning path, with the courses in it. -/
structure Programme where
  id : String
  isPublished : Bool
  courseIds : List String
deriving DecidableEq

/-- `BundleEnrollment` or `LearningPathEnrollment`. -/
structure ProgrammeEnrollment where
  id : String
  userId : String
  programmeId : String
  completedAt : Option Int
deriving DecidableEq

abbrev ProgrammeEnrollments : Type := Repository ProgrammeEnrollment.id

/-- Bundles or learning paths, who is enrolled in them, and what `EnrollmentsService` works on. -/
structure State where
  programmes : Repository Programme.id
  enrollments : ProgrammeEnrollments
  learning : Learning.State

/-- What a call meets: the exceptions with which its own statements fail, the primary key of the new
row, and what the call of `findByUser` and each enrollment in a course meet. -/
structure Around where
  findOne : Option HttpException
  findExisting : Option HttpException
  findByUser : Surroundings
  save : Option HttpException
  key : String
  enroll : Nat → Surroundings
  /-- The database and the chain do not throw a `ConflictException`. -/
  enroll_fails : ∀ n q message, (enroll n).fails q ≠ some (.conflict message)

/-! ## The services -/

/-- A method that works on states `S`. -/
abbrev Action (S A : Type) : Type := ExceptT HttpException (StateM S) A

abbrev Service (A : Type) : Type := Action State A

/-- A statement that may fail. -/
def statement {S A : Type} (failure : Option HttpException) (read : S → A) : Action S A := do
  match failure with
  | some x => throw x
  | none => return read (← get)

/-- A method on the tables that `EnrollmentsService` works on. -/
def perform {A : Type} (around : Surroundings) (m : Method A) : Action Learning.State A :=
  m.run handle around

/-- A call of `EnrollmentsService`. -/
def learn {A : Type} (around : Surroundings) (m : Method A) : Service A := fun s =>
  let (result, learning) := m.run handle around s.learning
  (result, { s with learning })

def ofUser (userId programmeId : String) (e : ProgrammeEnrollment) : Bool :=
  e.userId = userId && e.programmeId = programmeId

/-- What a service says. -/
structure Texts where
  notFound : String
  notAvailable : String
  already : String

/-- `findOne`, and the checks before the first `save`. -/
def check (texts : Texts) (around : Around) (userId programmeId : String) : Service Programme := do
  match ← statement around.findOne fun s => s.programmes.get programmeId with
  | none => throw (.notFound texts.notFound)
  | some programme =>
    if programme.isPublished = false then throw (.badRequest texts.notAvailable)
    else
      let existing ← statement around.findExisting fun s =>
        s.enrollments.findOne (ofUser userId programmeId)
      if existing.isSome then throw (.conflict texts.already)
      else pure programme

/-- `repo.save(repo.create({ userId, programmeId }))`. User and programme are unique. -/
def insert (around : Around) (userId programmeId : String) : Service ProgrammeEnrollment := do
  match around.save with
  | some x => throw x
  | none =>
    let s ← get
    let row : ProgrammeEnrollment := ⟨around.key, userId, programmeId, none⟩
    if (s.enrollments.get row.id).isSome ||
        (s.enrollments.findOne (ofUser userId programmeId)).isSome
    then throw Users.duplicateKey
    else
      set { s with enrollments := s.enrollments.save row }
      pure row

def isConflict : HttpException → Bool
  | .conflict _ => true
  | _ => false

/-- The loop over the courses, of which the next one has this number. -/
def enrollAll (around : Nat → Surroundings) (userId : String) : Nat → List String → Service Unit
  | _, [] => pure ()
  | n, courseId :: rest => do
    tryCatch (do let _ ← learn (around n) (enroll userId courseId false))
      fun err => if isConflict err then pure () else throw err
    enrollAll around userId (n + 1) rest

/-- Both methods, with what one of them does before it saves. -/
def join (texts : Texts) (prepare : Around → String → Service Unit) (around : Around)
    (userId programmeId : String) : Service ProgrammeEnrollment := do
  let programme ← check texts around userId programmeId
  prepare around userId
  let enrollment ← insert around userId programmeId
  enrollAll around.enroll userId 0 programme.courseIds
  pure enrollment

def BundlesService.purchase (around : Around) (userId bundleId : String) :
    Service ProgrammeEnrollment :=
  join
    { notFound := "Bundle not found"
      notAvailable := "Bundle is not available for purchase"
      already := "Already purchased this bundle" }
    (fun around userId => do let _ ← learn around.findByUser (findByUser userId))
    around userId bundleId

def LearningPathsService.enroll (around : Around) (userId learningPathId : String) :
    Service ProgrammeEnrollment :=
  join
    { notFound := "Learning path not found"
      notAvailable := "Learning path is not available"
      already := "Already enrolled in this learning path" }
    (fun _ _ => pure ()) around userId learningPathId

/-! ## After a call -/

/-- The user is recorded as having the programme. -/
def Owns (s : State) (userId programmeId : String) : Prop :=
  ∃ e ∈ s.enrollments, e.userId = userId ∧ e.programmeId = programmeId

/-- The user is enrolled in all its courses. -/
def EnrolledInAll (s : State) (userId programmeId : String) : Prop :=
  ∀ programme, s.programmes.get programmeId = some programme →
    ∀ courseId ∈ programme.courseIds, Enrolled s.learning userId courseId

/-- Some repetition of the call goes through. -/
def Repeatable (call : Around → String → String → Service ProgrammeEnrollment)
    (s : State) (userId programmeId : String) : Prop :=
  ∃ around enrollment s', call around userId programmeId s = (.ok enrollment, s')

/-- A call that fails leaves no row, or a state in which a repetition goes through. One that returns
leaves the row and the enrollments in all courses. -/
def Retryable (call : Around → String → String → Service ProgrammeEnrollment)
    (userId programmeId : String) : Except HttpException ProgrammeEnrollment × State → Prop
  | (.error _, s') => Owns s' userId programmeId → Repeatable call s' userId programmeId
  | (.ok _, s') => Owns s' userId programmeId ∧ EnrolledInAll s' userId programmeId

/-! ## What the calls meet -/

/-- The enrollment is found, or made. -/
def Passes (around : Surroundings) (s : Learning.State) (userId courseId : String) : Prop :=
  around.fails (.query (.findOne .enrollment (.pair userId courseId))) = none ∧
    (Enrolled s userId courseId ∨
      Begins around s userId courseId false ∧
        around.fails (.stellar (anchoring around (created around s userId courseId)).1) = none ∧
        around.fails (.query (.save .enrollment (anchored (created around s userId courseId)
          (anchoring around (created around s userId courseId)).2))) = none)

/-- So it is for one course after the other, from this number on. -/
def PassesAll (around : Nat → Surroundings) (userId : String) :
    Nat → List String → Learning.State → Prop
  | _, [], _ => True
  | n, courseId :: rest, s =>
    Passes (around n) s userId courseId ∧
      PassesAll around userId (n + 1) rest
        ((enroll userId courseId false).run handle (around n) s).2

/-- The programme is found and available, and it is found out whether the user has it. -/
structure Checked (around : Around) (programmeId : String) (s : State) (programme : Programme) :
    Prop where
  findOne : around.findOne = none
  found : s.programmes.get programmeId = some programme
  published : programme.isPublished = true
  findExisting : around.findExisting = none

/-- A call for a programme that the user does not have comes past its first `save`. -/
structure Starts (prepared : Around → String → Prop) (around : Around)
    (userId programmeId : String) (s : State) (programme : Programme) : Prop
    extends Checked around programmeId s programme where
  prepared : prepared around userId
  save : around.save = none
  fresh : s.enrollments.get around.key = none

/-- Once a call is past its first `save`, no enrollment in a course fails. -/
def Uninterrupted (prepared : Around → String → Prop) (around : Around)
    (userId programmeId : String) (s : State) : Prop :=
  ∀ programme, Starts prepared around userId programmeId s programme →
    PassesAll around.enroll userId 0 programme.courseIds s.learning

/-! ## What an enrollment in a course throws -/

section Throws

variable {A B : Type} {around : Surroundings}

/-- A method that does not throw a `ConflictException`. -/
def Unconflicting (around : Surroundings) (m : Method A) : Prop :=
  ∀ s x s', m.run handle around s = (.error x, s') → isConflict x = false

theorem unconflicting_pure (a : A) : Unconflicting around (pure a : Method A) := nofun

theorem Unconflicting.bind {m : Method A} {f : A → Method B} (hm : Unconflicting around m)
    (hf : ∀ a, Unconflicting around (f a)) : Unconflicting around (m >>= f) := by
  intro s x s' h
  rcases hrun : m.run handle around s with ⟨y | a, s₁⟩
  · rw [Process.run_bind_of_error hrun] at h
    cases h
    exact hm s x s' hrun
  · rw [Process.run_bind_of_ok hrun] at h
    exact hf a s₁ x s' h

theorem unconflicting_ofExcept {r : Except HttpException A}
    (h : ∀ x, r = .error x → isConflict x = false) :
    Unconflicting around (Process.ofExcept r : Method A) := by
  intro s x s' hrun
  rw [Process.run_ofExcept] at hrun
  exact h x (congrArg Prod.fst hrun)

theorem Unconflicting.tryCatch {m : Method A} {catches : HttpException → Method A}
    (hcatches : ∀ x, Unconflicting around (catches x)) :
    Unconflicting around (m.tryCatch catches) := by
  intro s x s' h
  rw [Process.run_tryCatch] at h
  split at h
  next => cases h
  next y s₁ hrun => exact hcatches y s₁ x s' h

theorem unconflicting_rollBack (row : schema.Row .enrollment) (x : HttpException) :
    Unconflicting around (rollBack row x : Method A) := by
  refine Unconflicting.bind (Unconflicting.tryCatch fun _ => unconflicting_pure ()) fun _ => ?_
  intro s y s' h
  cases h
  rfl

theorem unconflicting_anchor (row : schema.Row .enrollment) : Unconflicting around (anchor row) :=
  Unconflicting.bind (Unconflicting.tryCatch (unconflicting_rollBack row)) fun _ =>
    Unconflicting.tryCatch (unconflicting_rollBack _)

theorem unconflicting_announce (row : schema.Row .enrollment) :
    Unconflicting around (announce row) := by
  intro s x s' h
  rw [run_announce] at h
  cases h

variable (hfails : ∀ q message, around.fails q ≠ some (.conflict message))

include hfails

theorem unconflicting_query (q : Query schema) : Unconflicting around (request (.query q)) := by
  intro s x s' h
  obtain ⟨hx, -⟩ := request_error.mp h
  cases x with
  | conflict message => exact absurd hx (hfails _ message)
  | _ => rfl

theorem unconflicting_insert (t : Entity) (data : t.Columns) :
    Unconflicting around (Learning.insert t data) := by
  refine Unconflicting.bind (unconflicting_query hfails _) fun row => unconflicting_ofExcept ?_
  intro x hx
  cases row with
  | some row => cases hx
  | none =>
    cases hx
    rfl

theorem unconflicting_enforce (userId courseId : String) (adminOverride : Bool) :
    Unconflicting around (enforcePrerequisites userId courseId adminOverride) := by
  have hvalidate : Unconflicting around
      (validatePrerequisites userId courseId adminOverride) := by
    unfold validatePrerequisites
    split
    next => exact unconflicting_pure _
    next =>
      refine Unconflicting.bind (unconflicting_query hfails _) fun prereqs => ?_
      split
      next => exact unconflicting_pure _
      next => exact Unconflicting.bind (unconflicting_query hfails _) fun _ => unconflicting_pure _
  refine Unconflicting.bind hvalidate fun check => ?_
  split
  next => exact unconflicting_pure _
  next =>
    intro s x s' h
    cases h
    rfl

/-- Only an enrollment that is found makes `enroll` throw a `ConflictException`. -/
theorem enroll_unconflicting {s s' : Learning.State} {userId courseId : String} {x : HttpException}
    (hmissing : around.fails (.query (.findOne .enrollment (.pair userId courseId))) = none →
      ¬ Enrolled s userId courseId)
    (h : (enroll userId courseId false).run handle around s = (.error x, s')) :
    isConflict x = false := by
  unfold enroll newEnrollment at h
  rw [Process.bind_assoc] at h
  rcases hrun : (findOne .enrollment (.pair userId courseId)).run handle around s with
    ⟨y | existing, s₁⟩
  · rw [Process.run_bind_of_error hrun] at h
    cases h
    exact unconflicting_query hfails _ s x s' hrun
  · obtain ⟨hlookedUp, rfl, rfl⟩ := findOne_ok.mp hrun
    have hnone : ((s.tables .enrollment).findOne
        (schema.holds .enrollment (.pair userId courseId))).isSome ≠ true :=
      fun hsome => hmissing hlookedUp (findOne_enrollment_isSome.mp hsome)
    rw [Process.run_bind_of_ok hrun, if_neg hnone] at h
    refine Unconflicting.bind ?_ (fun data => ?_) s x s' h
    · refine Unconflicting.bind (unconflicting_enforce hfails _ _ _) fun _ => ?_
      refine Unconflicting.bind ?_ fun _ => unconflicting_pure _
      exact Unconflicting.bind (unconflicting_query hfails _) fun _ => unconflicting_pure _
    · refine Unconflicting.bind (unconflicting_insert hfails _ _) fun _ => ?_
      refine Unconflicting.bind (unconflicting_anchor _) fun row => ?_
      exact Unconflicting.bind (unconflicting_announce row) fun _ => unconflicting_pure _

end Throws

section Enroll

variable {around : Surroundings} {s : Learning.State} {userId courseId : String}

theorem enroll_of_enrolled
    (hlookedUp : around.fails (.query (.findOne .enrollment (.pair userId courseId))) = none)
    (h : Enrolled s userId courseId) :
    (enroll userId courseId false).run handle around s =
      (.error (.conflict "Already enrolled in this course"), s) := by
  have hfound := findOne_of_none (s := s) hlookedUp
  unfold enroll newEnrollment
  rw [Process.bind_assoc, Process.run_bind_of_ok hfound, if_pos (findOne_enrollment_isSome.mpr h)]
  rfl

/-- A call that returns has come past its first `save`, and nothing has failed since. -/
theorem begins_of_ok {row : schema.Row .enrollment} {s' : Learning.State}
    (h : (enroll userId courseId false).run handle around s = (.ok row, s')) :
    Begins around s userId courseId false ∧
      around.fails (.stellar (anchoring around (created around s userId courseId)).1) = none ∧
      around.fails (.query (.save .enrollment (anchored (created around s userId courseId)
        (anchoring around (created around s userId courseId)).2))) = none := by
  by_cases hbegins : Begins around s userId courseId false
  · refine ⟨hbegins, ?_⟩
    cases hcall : around.fails
        (.stellar (anchoring around (created around s userId courseId)).1) with
    | some x => cases h.symm.trans (enroll_unrecorded hbegins hcall)
    | none =>
      refine ⟨rfl, ?_⟩
      cases hsave : around.fails (.query (.save .enrollment (anchored
          (created around s userId courseId)
          (anchoring around (created around s userId courseId)).2))) with
      | some x => cases h.symm.trans (enroll_unsaved hbegins hcall hsave)
      | none => rfl
  · obtain ⟨x, hrefused⟩ := enroll_refused hbegins
    cases h.symm.trans hrefused

theorem announced_tables {row : schema.Row .enrollment} :
    (announced s row).tables = s.tables := rfl

/-- A call that returns makes an enrollment and removes none. -/
theorem enroll_keeps {row : schema.Row .enrollment} {s' : Learning.State}
    (h : (enroll userId courseId false).run handle around s = (.ok row, s')) :
    Enrolled s' userId courseId ∧ ∀ c, Enrolled s userId c → Enrolled s' userId c := by
  obtain ⟨hbegins, hcall, hsave⟩ := begins_of_ok h
  have hrows : s'.tables .enrollment =
      ((s.tables .enrollment).save (created around s userId courseId)).save
        (confirmed around (created around s userId courseId)) := by
    cases h.symm.trans (enroll_recorded hbegins hcall hsave)
    rw [announced_tables, State.put_tables_self]
  refine ⟨⟨confirmed around (created around s userId courseId), ?_, rfl, rfl⟩, ?_⟩
  · rw [hrows]
    exact Repository.mem_save.mpr (.inl rfl)
  · rintro c ⟨other, hother, huser, hcourse⟩
    have hne : other.id ≠ (created around s userId courseId).id := by
      intro hid
      rw [Repository.mem_def, hid, hbegins.fresh] at hother
      cases hother
    refine ⟨other, ?_, huser, hcourse⟩
    rw [hrows]
    exact Repository.mem_save.mpr (.inr ⟨Repository.mem_save.mpr (.inr ⟨hother, hne⟩), hne⟩)

/-- A call goes through or finds an enrollment exactly where it passes. -/
theorem passes_iff (hfails : ∀ q message, around.fails q ≠ some (.conflict message)) :
    Passes around s userId courseId ↔
      ∀ x, ((enroll userId courseId false).run handle around s).1 = .error x →
        isConflict x = true := by
  constructor
  · rintro ⟨hlookedUp, henrolled | ⟨hbegins, hcall, hsave⟩⟩ x h
    · rw [enroll_of_enrolled hlookedUp henrolled] at h
      cases h
      rfl
    · rw [enroll_recorded hbegins hcall hsave] at h
      cases h
  · intro h
    have hok : ¬ (∃ x s', (enroll userId courseId false).run handle around s = (.error x, s') ∧
        isConflict x = false) := by
      rintro ⟨x, s', hrun, hx⟩
      cases hx.symm.trans (h x (congrArg Prod.fst hrun))
    rcases hrun : (enroll userId courseId false).run handle around s with ⟨x | row, s'⟩
    · by_contra hpasses
      refine hok ⟨x, s', hrun, enroll_unconflicting hfails (fun hlookedUp henrolled => ?_) hrun⟩
      exact hpasses ⟨hlookedUp, .inl henrolled⟩
    · obtain ⟨hbegins, hcall, hsave⟩ := begins_of_ok hrun
      exact ⟨hbegins.lookedUp, .inr ⟨hbegins, hcall, hsave⟩⟩

/-- Where a call passes, the user is enrolled afterwards, and still is wherever he was before. -/
theorem Passes.enrolled (h : Passes around s userId courseId) :
    Enrolled ((enroll userId courseId false).run handle around s).2 userId courseId ∧
      ∀ c, Enrolled s userId c →
        Enrolled ((enroll userId courseId false).run handle around s).2 userId c := by
  obtain ⟨hlookedUp, henrolled | ⟨hbegins, hcall, hsave⟩⟩ := h
  · rw [enroll_of_enrolled hlookedUp henrolled]
    exact ⟨henrolled, fun _ h => h⟩
  · rcases hrun : (enroll userId courseId false).run handle around s with ⟨x | row, s'⟩
    · cases hrun.symm.trans (enroll_recorded hbegins hcall hsave)
    · rw [hrun]
      exact enroll_keeps hrun

end Enroll

/-! ## Methods one after another -/

section Actions

variable {S A B : Type} {s : S}

theorem bind_apply (x : Action S A) (f : A → Action S B) (s : S) :
    (x >>= f) s =
      match x s with
      | (.ok a, s') => f a s'
      | (.error e, s') => (.error e, s') := by
  change (match x s with | (r, s') => ExceptT.bindCont f r s') = _
  rcases x s with ⟨e | a, s'⟩
  · rfl
  · rfl

theorem bind_of_ok {x : Action S A} {a : A} {s' : S} (h : x s = (.ok a, s'))
    (f : A → Action S B) : (x >>= f) s = f a s' := by
  rw [bind_apply, h]

theorem bind_of_error {x : Action S A} {e : HttpException} {s' : S} (h : x s = (.error e, s'))
    (f : A → Action S B) : (x >>= f) s = (.error e, s') := by
  rw [bind_apply, h]

theorem tryCatch_apply (x : Action S A) (catches : HttpException → Action S A) (s : S) :
    (tryCatch x catches : Action S A) s =
      match x s with
      | (.ok a, s') => (.ok a, s')
      | (.error e, s') => catches e s' := by
  change ExceptT.tryCatch x catches s = _
  simp only [ExceptT.tryCatch, ExceptT.mk, bind, StateT.bind]
  rcases x s with ⟨e | a, s'⟩
  · rfl
  · rfl

theorem statement_apply (failure : Option HttpException) (read : S → A) (s : S) :
    statement failure read s =
      match failure with
      | some x => (.error x, s)
      | none => (.ok (read s), s) := by
  cases failure <;> rfl

/-- A statement that only reads. -/
def ReadsTo (m : Action S A) (passes : Prop) (value : S → A) : Prop :=
  ∀ s, passes ∧ m s = (.ok (value s), s) ∨ ¬ passes ∧ ∃ x, m s = (.error x, s)

theorem readsTo_statement (failure : Option HttpException) (read : S → A) :
    ReadsTo (statement failure read) (failure = none) read := by
  intro s
  rw [statement_apply]
  cases failure with
  | some x => exact .inr ⟨Option.some_ne_none x, x, rfl⟩
  | none => exact .inl ⟨rfl, rfl⟩

end Actions

/-! ## What is read -/

section Reading

variable {around : Surroundings}

/-- The courses that the user is enrolled in. -/
def enrollmentsOf (s : Learning.State) (userId : String) : List (schema.Row .enrollment) :=
  ((s.tables .enrollment).find (schema.holds .enrollment (.user userId))).insertionSort
    fun a b => b.createdAt ≤ a.createdAt

variable (around) in
theorem readsTo_request {q : Request} (h : q.Reads) :
    ReadsTo (perform around (request q)) (around.exception q = none) fun s =>
      (respond around s q).1 := by
  intro s
  have hstate : (handle around s q).2 = s := handle_reads h
  unfold handle at hstate
  unfold perform
  rw [run_request]
  cases hexception : around.exception q with
  | some x => exact .inr ⟨Option.some_ne_none x, x, rfl⟩
  | none =>
    rw [hexception] at hstate
    exact .inl ⟨rfl, Prod.ext rfl hstate⟩

theorem readsTo_findByUser (userId : String) :
    ReadsTo (perform around (Enrollments.findByUser userId))
      (around.fails (.query (.find .enrollment (.user userId))) = none) fun s =>
        enrollmentsOf s userId := by
  intro s
  unfold perform Enrollments.findByUser
  rcases readsTo_request around (q := .query (.find .enrollment (.user userId))) rfl s with
    ⟨hpasses, hrun⟩ | ⟨hnot, x, hrun⟩
  · exact .inl ⟨hpasses, Process.run_bind_of_ok hrun _⟩
  · exact .inr ⟨hnot, x, Process.run_bind_of_error hrun _⟩

end Reading

/-! ## The loop over the courses -/

section EnrollAll

variable {around : Nat → Surroundings} {userId : String} {s : State}

/-- The state after an enrollment in a course. -/
def afterEnroll (around : Surroundings) (userId courseId : String) (s : State) : State :=
  { s with learning := ((enroll userId courseId false).run handle around s.learning).2 }

theorem enrollAll_of_passes {n : Nat} {courseId : String} {rest : List String}
    (hfails : ∀ n q message, (around n).fails q ≠ some (.conflict message))
    (h : Passes (around n) s.learning userId courseId) :
    enrollAll around userId n (courseId :: rest) s =
      enrollAll around userId (n + 1) rest (afterEnroll (around n) userId courseId s) := by
  have hconflict := (passes_iff (hfails n)).mp h
  have hturn : (tryCatch (do let _ ← learn (around n) (enroll userId courseId false))
      fun err => if isConflict err then pure () else throw err : Service Unit) s =
        (.ok (), afterEnroll (around n) userId courseId s) := by
    rw [tryCatch_apply, bind_apply]
    unfold learn afterEnroll
    rcases hrun : (enroll userId courseId false).run handle (around n) s.learning with
      ⟨x | row, s'⟩
    · rw [hrun]
      dsimp only
      rw [if_pos (hconflict x (congrArg Prod.fst hrun))]
      rfl
    · rw [hrun]
      rfl
  exact bind_of_ok hturn _

theorem enrollAll_of_not_passes {n : Nat} {courseId : String} (rest : List String)
    (hfails : ∀ n q message, (around n).fails q ≠ some (.conflict message))
    (h : ¬ Passes (around n) s.learning userId courseId) :
    ∃ x, enrollAll around userId n (courseId :: rest) s =
      (.error x, afterEnroll (around n) userId courseId s) := by
  rw [passes_iff (hfails n)] at h
  push Not at h
  obtain ⟨x, hx, hconflict⟩ := h
  have hturn : (tryCatch (do let _ ← learn (around n) (enroll userId courseId false))
      fun err => if isConflict err then pure () else throw err : Service Unit) s =
        (.error x, afterEnroll (around n) userId courseId s) := by
    rw [tryCatch_apply, bind_apply]
    unfold learn afterEnroll
    rcases hrun : (enroll userId courseId false).run handle (around n) s.learning with
      ⟨y | row, s'⟩
    · rw [hrun] at hx ⊢
      cases hx
      dsimp only
      rw [if_neg hconflict]
      rfl
    · rw [hrun] at hx
      cases hx
  exact ⟨x, bind_of_error hturn _⟩

/-- The loop goes through the courses exactly where no enrollment fails, and does nothing but
enroll. -/
theorem enrollAll_spec (hfails : ∀ n q message, (around n).fails q ≠ some (.conflict message))
    (n : Nat) (courseIds : List String) (s : State) :
    ∃ learning, (enrollAll around userId n courseIds s).2 = { s with learning } ∧
      ((enrollAll around userId n courseIds s).1 = .ok () ↔
        PassesAll around userId n courseIds s.learning) ∧
      (PassesAll around userId n courseIds s.learning →
        (∀ courseId ∈ courseIds, Enrolled learning userId courseId) ∧
        ∀ courseId, Enrolled s.learning userId courseId → Enrolled learning userId courseId) := by
  induction courseIds generalizing n s with
  | nil => exact ⟨s.learning, rfl, iff_of_true rfl trivial, fun _ => ⟨nofun, fun _ h => h⟩⟩
  | cons courseId rest ih =>
    by_cases hpasses : Passes (around n) s.learning userId courseId
    · obtain ⟨learning, hstate, hok, hall⟩ := ih (n + 1) (afterEnroll (around n) userId courseId s)
      obtain ⟨henrolled, hkept⟩ := hpasses.enrolled
      rw [enrollAll_of_passes hfails hpasses]
      refine ⟨learning, hstate, hok.trans ⟨fun h => ⟨hpasses, h⟩, fun h => h.2⟩, fun h => ?_⟩
      obtain ⟨hrest, hstill⟩ := hall h.2
      refine ⟨fun c hc => ?_, fun c hc => hstill c (hkept c hc)⟩
      rcases List.mem_cons.mp hc with rfl | hc
      · exact hstill c henrolled
      · exact hrest c hc
    · obtain ⟨x, hx⟩ := enrollAll_of_not_passes rest hfails hpasses
      rw [hx]
      exact ⟨_, rfl, ⟨nofun, fun h => absurd h.1 hpasses⟩, fun h => absurd h.1 hpasses⟩

end EnrollAll

/-! ## The calls -/

section Join

variable {texts : Texts} {prepare : Around → String → Service Unit}
  {prepared : Around → String → Prop} {around : Around} {userId programmeId : String} {s : State}
  {programme : Programme}

theorem findOne_isSome : (s.enrollments.findOne (ofUser userId programmeId)).isSome = true ↔
    Owns s userId programmeId := by
  rw [Option.isSome_iff_ne_none, ne_eq, Repository.findOne_eq_none]
  unfold Owns ofUser
  push Not
  refine exists_congr fun e => and_congr_right fun _ => ?_
  rw [Bool.ne_false_iff, Bool.and_eq_true, decide_eq_true_iff, decide_eq_true_iff]

/-- What `check` comes to. It only reads. -/
theorem check_cases (texts : Texts) (around : Around) (userId programmeId : String) (s : State) :
    (∃ programme, check texts around userId programmeId s = (.ok programme, s) ∧
      Checked around programmeId s programme ∧ ¬ Owns s userId programmeId) ∨
    ∃ x, check texts around userId programmeId s = (.error x, s) ∧
      (¬ Owns s userId programmeId → ∀ programme, ¬ Checked around programmeId s programme) := by
  unfold check
  rw [bind_apply, statement_apply]
  cases hfindOne : around.findOne with
  | some x =>
    refine .inr ⟨x, rfl, fun _ programme h => ?_⟩
    cases hfindOne.symm.trans h.findOne
  | none =>
    dsimp only
    cases hfound : s.programmes.get programmeId with
    | none =>
      refine .inr ⟨_, rfl, fun _ programme h => ?_⟩
      cases hfound.symm.trans h.found
    | some programme =>
      dsimp only
      split
      next hpublished =>
        refine .inr ⟨_, rfl, fun _ programme' h => ?_⟩
        cases hfound.symm.trans h.found
        cases hpublished.symm.trans h.published
      next hpublished =>
        rw [bind_apply, statement_apply]
        cases hexisting : around.findExisting with
        | some x =>
          refine .inr ⟨x, rfl, fun _ programme' h => ?_⟩
          cases hexisting.symm.trans h.findExisting
        | none =>
          dsimp only
          split
          next howns => exact .inr ⟨_, rfl, fun hnew => absurd (findOne_isSome.mp howns) hnew⟩
          next howns =>
            refine .inl ⟨programme, rfl, ⟨hfindOne, hfound, ?_, hexisting⟩, ?_⟩
            · exact eq_true_of_ne_false hpublished
            · exact fun h => howns (findOne_isSome.mpr h)

/-- What a method does before it saves, where it does not fail. -/
def Prepares (prepare : Around → String → Service Unit) (prepared : Around → String → Prop) :
    Prop :=
  ∀ around userId s, prepare around userId s = (.ok (), s) ∧ prepared around userId ∨
    ∃ x, prepare around userId s = (.error x, s) ∧ ¬ prepared around userId

/-- The row of the first `save`. -/
def row (around : Around) (userId programmeId : String) : ProgrammeEnrollment :=
  ⟨around.key, userId, programmeId, none⟩

/-- The state after the first `save`. -/
def saved (around : Around) (userId programmeId : String) (s : State) : State :=
  { s with enrollments := s.enrollments.save (row around userId programmeId) }

theorem owns_saved : Owns (saved around userId programmeId s) userId programmeId :=
  ⟨row around userId programmeId, Repository.mem_save.mpr (.inl rfl), rfl, rfl⟩

theorem insert_apply (s : State) :
    insert around userId programmeId s =
      match around.save with
      | some x => (.error x, s)
      | none =>
        if (s.enrollments.get around.key).isSome ||
            (s.enrollments.findOne (ofUser userId programmeId)).isSome then
          (.error Users.duplicateKey, s)
        else (.ok (row around userId programmeId), saved around userId programmeId s) := by
  unfold insert
  cases around.save with
  | some x => rfl
  | none =>
    dsimp only
    rw [bind_of_ok (show (get : Service State) s = (.ok s, s) from rfl)]
    split
    next => rfl
    next => rfl

theorem insert_saves (hnew : ¬ Owns s userId programmeId) (hsave : around.save = none)
    (hfresh : s.enrollments.get around.key = none) :
    insert around userId programmeId s =
      (.ok (row around userId programmeId), saved around userId programmeId s) := by
  rw [← findOne_isSome, Bool.not_eq_true] at hnew
  rw [insert_apply, hsave, hfresh, hnew]
  rfl

variable (userId programmeId) in
theorem insert_refused (h : around.save = none → s.enrollments.get around.key ≠ none) :
    ∃ x, insert around userId programmeId s = (.error x, s) := by
  rw [insert_apply]
  cases hsave : around.save with
  | some x => exact ⟨x, rfl⟩
  | none =>
    have htaken := Option.isSome_iff_ne_none.mpr (h hsave)
    dsimp only
    rw [htaken, Bool.true_or, if_pos rfl]
    exact ⟨_, rfl⟩

variable (texts around userId) in
/-- A call that does not come past its first `save` changes nothing. -/
theorem join_refused (hprepares : Prepares prepare prepared)
    (h : ¬ Owns s userId programmeId → ∀ programme,
      ¬ Starts prepared around userId programmeId s programme) :
    ∃ x, join texts prepare around userId programmeId s = (.error x, s) := by
  rcases check_cases texts around userId programmeId s with
    ⟨programme, hcheck, hchecked, hnew⟩ | ⟨x, hcheck, -⟩
  · rcases hprepares around userId s with ⟨hprepare, hprepared⟩ | ⟨x, hprepare, -⟩
    · have hrefused : around.save = none → s.enrollments.get around.key ≠ none :=
        fun hsave hfresh => h hnew programme
          { hchecked with prepared := hprepared, save := hsave, fresh := hfresh }
      obtain ⟨x, hinsert⟩ := insert_refused userId programmeId hrefused
      refine ⟨x, ?_⟩
      unfold join
      rw [bind_of_ok hcheck, bind_of_ok hprepare, bind_of_error hinsert]
    · refine ⟨x, ?_⟩
      unfold join
      rw [bind_of_ok hcheck, bind_of_error hprepare]
  · exact ⟨x, bind_of_error hcheck _⟩

/-- A call that does goes on with the courses. -/
theorem join_starts (hprepares : Prepares prepare prepared) (hnew : ¬ Owns s userId programmeId)
    (h : Starts prepared around userId programmeId s programme) :
    join texts prepare around userId programmeId s =
      (do enrollAll around.enroll userId 0 programme.courseIds
          pure (row around userId programmeId) : Service ProgrammeEnrollment)
        (saved around userId programmeId s) := by
  rcases check_cases texts around userId programmeId s with
    ⟨programme', hcheck, hchecked, -⟩ | ⟨x, -, hunchecked⟩
  · cases h.found.symm.trans hchecked.found
    rcases hprepares around userId s with ⟨hprepare, -⟩ | ⟨x, -, hunprepared⟩
    · unfold join
      rw [bind_of_ok hcheck, bind_of_ok hprepare, bind_of_ok (insert_saves hnew h.save h.fresh)]
    · exact absurd h.prepared hunprepared
  · exact absurd h.toChecked (hunchecked hnew programme)

/-- Whoever has a programme gets no further. -/
theorem not_repeatable (hprepares : Prepares prepare prepared) (h : Owns s userId programmeId) :
    ¬ Repeatable (join texts prepare) s userId programmeId := by
  rintro ⟨around, enrollment, s', hcall⟩
  obtain ⟨x, hx⟩ := join_refused texts around userId hprepares fun hnew => absurd h hnew
  cases hcall.symm.trans hx

theorem retryable_iff (texts : Texts) (hprepares : Prepares prepare prepared)
    (hnew : ¬ Owns s userId programmeId) :
    Retryable (join texts prepare) userId programmeId
        (join texts prepare around userId programmeId s) ↔
      Uninterrupted prepared around userId programmeId s := by
  by_cases hstarts : ∃ programme, Starts prepared around userId programmeId s programme
  · obtain ⟨programme, hstarts⟩ := hstarts
    obtain ⟨learning, hstate, hok, hall⟩ := enrollAll_spec around.enroll_fails 0
      programme.courseIds (saved around userId programmeId s)
    have huninterrupted : Uninterrupted prepared around userId programmeId s ↔
        PassesAll around.enroll userId 0 programme.courseIds s.learning := by
      constructor
      · exact fun h => h programme hstarts
      · intro h programme' hstarts'
        cases hstarts.found.symm.trans hstarts'.found
        exact h
    rw [join_starts hprepares hnew hstarts, bind_apply, huninterrupted]
    rcases hrun : enrollAll around.enroll userId 0 programme.courseIds
      (saved around userId programmeId s) with ⟨x | u, s'⟩
    · rw [hrun] at hstate hok
      cases hstate
      have howns : Owns { saved around userId programmeId s with learning } userId programmeId :=
        owns_saved
      exact iff_of_false (fun h => not_repeatable hprepares howns (h howns)) fun h =>
        nomatch hok.mpr h
    · rw [hrun] at hstate hok
      cases hstate
      refine iff_of_true ⟨owns_saved, fun programme' hfound => ?_⟩ (hok.mp rfl)
      cases hstarts.found.symm.trans hfound
      exact (hall (hok.mp rfl)).1
  · obtain ⟨x, hx⟩ := join_refused texts around userId hprepares fun _ programme h =>
      hstarts ⟨programme, h⟩
    rw [hx]
    exact iff_of_true (fun howns => absurd howns hnew) fun programme h =>
      absurd ⟨programme, h⟩ hstarts

end Join

theorem prepares_nothing : Prepares (fun _ _ => pure ()) fun _ _ => True :=
  fun _ _ _ => .inl ⟨rfl, trivial⟩

/-- The look-up of `purchase` does not fail. -/
def LookedUp (around : Around) (userId : String) : Prop :=
  around.findByUser.fails (.query (.find .enrollment (.user userId))) = none

theorem prepares_findByUser :
    Prepares (fun around userId => do let _ ← learn around.findByUser (findByUser userId))
      LookedUp := by
  intro around userId s
  have hlearn : learn around.findByUser (findByUser userId) s =
      ((perform around.findByUser (findByUser userId) s.learning).1,
        { s with learning := (perform around.findByUser (findByUser userId) s.learning).2 }) := rfl
  dsimp only
  rw [bind_apply, hlearn]
  rcases readsTo_findByUser userId s.learning with ⟨hpasses, hrun⟩ | ⟨hnot, x, hrun⟩
  · rw [hrun]
    exact .inl ⟨rfl, hpasses⟩
  · rw [hrun]
    exact .inr ⟨x, rfl, hnot⟩

/-- A user who does not have a bundle or a learning path gets it with all its courses, or can call
again, exactly where no enrollment in a course fails once the first `save` is through. -/
theorem programmes_retryable_iff (around : Around) (userId programmeId : String) (s : State)
    (hnew : ¬ Owns s userId programmeId) :
    (Retryable BundlesService.purchase userId programmeId
        (BundlesService.purchase around userId programmeId s) ↔
      Uninterrupted LookedUp around userId programmeId s) ∧
    (Retryable LearningPathsService.enroll userId programmeId
        (LearningPathsService.enroll around userId programmeId s) ↔
      Uninterrupted (fun _ _ => True) around userId programmeId s) :=
  ⟨retryable_iff _ prepares_findByUser hnew, retryable_iff _ prepares_nothing hnew⟩

/-! ## Stuck -/

/-- A programme of two courses that nobody has. -/
def exampleState : State where
  programmes := Repository.empty.save ⟨"p1", true, ["c1", "c2"]⟩
  enrollments := .empty
  learning := .empty

def exampleSurroundings (fails : Request → Option HttpException) (courseId : String) :
    Surroundings where
  now := 0
  key := fun _ _ => courseId
  hash := fun _ => "tx1"
  fails := fails

/-- Nothing fails, or the chain does not answer for the second course. -/
def exampleAround (timeout : Bool) : Around where
  findOne := none
  findExisting := none
  findByUser := exampleSurroundings (fun _ => none) ""
  save := none
  key := "e1"
  enroll
    | 0 => exampleSurroundings (fun _ => none) "c1"
    | _ => exampleSurroundings (fun q =>
        match q with
        | .stellar _ => if timeout then some (.internal "Timeout") else none
        | _ => none) "c2"
  enroll_fails := by
    intro n q message
    cases n with
    | zero => exact nofun
    | succ n =>
      cases q with
      | stellar call => cases timeout <;> exact nofun
      | _ => exact nofun

theorem example_new : ¬ Owns exampleState "u1" "p1" :=
  fun ⟨_, h, _⟩ => Repository.not_mem_empty h

/-- Nothing fails. -/
theorem programmes_retryable_iff_calm :
    Retryable BundlesService.purchase "u1" "p1"
      (BundlesService.purchase (exampleAround false) "u1" "p1" exampleState) := by
  refine (programmes_retryable_iff (exampleAround false) "u1" "p1" exampleState
    example_new).1.mpr ?_
  intro programme hstarts
  cases hstarts.found
  have hfails := (exampleAround false).enroll_fails
  refine ⟨(passes_iff (hfails 0)).mpr nofun, (passes_iff (hfails 1)).mpr nofun, trivial⟩

/-- The chain does not answer for the second course. The user has the programme without it, and no
repetition goes through. -/
theorem programme_stuck :
    let outcome := BundlesService.purchase (exampleAround true) "u1" "p1" exampleState
    let outcome' := LearningPathsService.enroll (exampleAround true) "u1" "p1" exampleState
    (outcome.1 = .error recordingFailed ∧ Owns outcome.2 "u1" "p1" ∧
      ¬ EnrolledInAll outcome.2 "u1" "p1" ∧
      ¬ Repeatable BundlesService.purchase outcome.2 "u1" "p1" ∧
      ¬ Retryable BundlesService.purchase "u1" "p1" outcome) ∧
    (outcome'.1 = .error recordingFailed ∧ Owns outcome'.2 "u1" "p1" ∧
      ¬ EnrolledInAll outcome'.2 "u1" "p1" ∧
      ¬ Repeatable LearningPathsService.enroll outcome'.2 "u1" "p1" ∧
      ¬ Retryable LearningPathsService.enroll "u1" "p1" outcome') := by
  intro outcome outcome'
  have howns : Owns outcome.2 "u1" "p1" := ⟨⟨"e1", "u1", "p1", none⟩, rfl, rfl, rfl⟩
  have howns' : Owns outcome'.2 "u1" "p1" := ⟨⟨"e1", "u1", "p1", none⟩, rfl, rfl, rfl⟩
  have hstuck : ¬ Repeatable BundlesService.purchase outcome.2 "u1" "p1" :=
    not_repeatable prepares_findByUser howns
  have hstuck' : ¬ Repeatable LearningPathsService.enroll outcome'.2 "u1" "p1" :=
    not_repeatable prepares_nothing howns'
  have hmissing : ¬ Enrolled outcome.2.learning "u1" "c2" := findOne_enrollment_eq_none.mp rfl
  have hmissing' : ¬ Enrolled outcome'.2.learning "u1" "c2" := findOne_enrollment_eq_none.mp rfl
  have hcourse : "c2" ∈ ["c1", "c2"] := by decide
  exact ⟨⟨rfl, howns, fun hall => hmissing (hall _ rfl "c2" hcourse), hstuck, fun h =>
      hstuck (h howns)⟩,
    ⟨rfl, howns', fun hall => hmissing' (hall _ rfl "c2" hcourse), hstuck', fun h =>
      hstuck' (h howns')⟩⟩

end Scoopdope.Programmes
