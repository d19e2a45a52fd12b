import Scoopdope.Soroban.Env
import Scoopdope.Soroban.Listing
import Scoopdope.Soroban.Pages
import Scoopdope.Soroban.Table

/-!
# Analytics: storage and entry points

`AnalyticsContract` (`contracts/analytics/src/lib.rs`). A field of the storage is one
storage key, or a table for a family of keys. Entries do not expire here, so the calls of
`extend_ttl` have no counterpart. The keys that no function writes (`TotalStudents`,
`TotalCourses`, the daily, weekly and monthly statistics, `TopPerformers`) are left out.

The second half has, for each call that returned, the checks that passed and what it
wrote.
-/

namespace Scoopdope.Analytics

open Soroban

structure CompletionStats where
  totalCompletions : U32
  avgCompletionRate : U32

section Types

variable (Address : Type)

structure ProgressRecord where
  student : Address
  courseId : String
  progressPct : U32
  completed : Bool
  timestamp : U64
deriving DecidableEq

structure MilestoneRecord where
  student : Address
  courseId : String
  milestonePct : U32
  achievedAt : U64

structure Storage where
  /- Instance storage. -/
  admin : Option Address
  completionStats : Option CompletionStats
  /- Persistent storage. -/
  progress : Table (Address × String) (ProgressRecord Address)
  /-- The secondary index of `progress`. -/
  studentCourses : Table Address (List String)
  milestone : Table (Address × String × U32) (MilestoneRecord Address)
  studentMilestones : Table (Address × String) (List U32)
  /-- The events published so far, newest first. -/
  events : List (Event Address)

/-- The storage of a contract just deployed. -/
def Storage.fresh : Storage Address where
  admin := none
  completionStats := none
  progress := ∅
  studentCourses := ∅
  milestone := ∅
  studentMilestones := ∅
  events := []

end Types

variable {Address : Type}

/-- `env.events().publish(topics, data)`. -/
def Storage.publish (s : Storage Address) (topics data : List (Val Address)) : Storage Address :=
  { s with events := ⟨topics, data⟩ :: s.events }

variable [DecidableEq Address]

/-! ## Readers -/

/-- The courses under `StudentCourses(student)`. -/
def studentCourses (s : Storage Address) (student : Address) : List String :=
  listAt s.studentCourses student

def getProgress (s : Storage Address) (student : Address) (courseId : String) :
    Option (ProgressRecord Address) :=
  s.progress.get (student, courseId)

def getAllProgress (s : Storage Address) (student : Address) : List (ProgressRecord Address) :=
  match s.studentCourses.get student with
  | some courses => courses.filterMap fun courseId => s.progress.get (student, courseId)
  | none => []

def getCompletedCourses (s : Storage Address) (student : Address) :
    List (ProgressRecord Address) :=
  (getAllProgress s student).filter fun record => record.completed

def getInProgressCourses (s : Storage Address) (student : Address) :
    List (ProgressRecord Address) :=
  (getAllProgress s student).filter fun record => !record.completed

/-- A `usize` has 32 bits in a contract, as the length of a vector has. -/
def getProgressPaginated (s : Storage Address) (student : Address) (offset limit : U32) :
    Outcome (List (ProgressRecord Address)) := do
  let allProgress := getAllProgress s student
  let sum ← offset.add limit
  let end_ := min sum.val allProgress.length
  if offset.val < allProgress.length then
    (indices offset.val end_).mapM fun i => unwrap allProgress[i.val.toNat]?
  else pure []

def getMilestone (s : Storage Address) (student : Address) (courseId : String)
    (milestonePct : U32) : Option (MilestoneRecord Address) :=
  s.milestone.get (student, courseId, milestonePct)

def getAchievedMilestones (s : Storage Address) (student : Address) (courseId : String) :
    List U32 :=
  listAt s.studentMilestones (student, courseId)

/-! ## Entry points -/

def initializeContract (env : Env Address) (s : Storage Address) (admin : Address) :
    Outcome (Storage Address) := do
  assert (s.admin.isSome = false) "Already initialized"
  env.requireAuth admin
  pure { s with admin := some admin }

def setAdmin (env : Env Address) (s : Storage Address) (newAdmin : Address) :
    Outcome (Storage Address) := do
  let admin ← unwrap s.admin
  env.requireAuth admin
  pure { s with admin := some newAdmin }

/-- The marks of a course, in percent. -/
def milestones : List U32 := [.lit 25, .lit 50, .lit 75, .lit 100]

/-- The loop body of `check_milestones`: a mark that is reached for the first time is
recorded. -/
def checkMilestone (env : Env Address) (student : Address) (courseId : String)
    (progressPct : U32) (state : Storage Address × List U32) (milestone : U32) :
    Storage Address × List U32 :=
  let (s, achieved) := state
  if milestone ≤ progressPct ∧ achieved.contains milestone = false then
    let record : MilestoneRecord Address :=
      { student, courseId, milestonePct := milestone, achievedAt := env.timestamp }
    let s := { s with milestone := s.milestone.set (student, courseId, milestone) record }
    (s.publish [.symbol "analytics", .symbol "milestone"]
      [.address student, .symbol courseId, .u32 milestone], achieved ++ [milestone])
  else state

def checkMilestones (env : Env Address) (s : Storage Address) (student : Address)
    (courseId : String) (progressPct : U32) : Storage Address :=
  let achieved := getAchievedMilestones s student courseId
  let (s, achieved) :=
    milestones.foldl (checkMilestone env student courseId progressPct) (s, achieved)
  { s with studentMilestones := s.studentMilestones.set (student, courseId) achieved }

def recordProgress (env : Env Address) (s : Storage Address) (caller student : Address)
    (courseId : String) (progressPct : U32) : Outcome (Storage Address) := do
  env.requireAuth caller
  let admin ← unwrap s.admin
  assert (caller = student ∨ caller = admin) "Unauthorized: must be student or admin"
  assert (progressPct ≤ .lit 100) "Progress must be 0-100"
  let record : ProgressRecord Address :=
    { student, courseId, progressPct, completed := decide (progressPct = .lit 100),
      timestamp := env.timestamp }
  let s := { s with progress := s.progress.set (student, courseId) record }
  let s :=
    if (studentCourses s student).contains courseId then s
    else { s with studentCourses := pushItem s.studentCourses student courseId }
  let s := checkMilestones env s student courseId progressPct
  let s := s.publish [.symbol "analytics", .symbol "prog_upd"]
    [.address student, .symbol courseId, .u32 progressPct]
  let s :=
    if progressPct = .lit 100 then
      s.publish [.symbol "analytics", .symbol "completed"] [.address student, .symbol courseId]
    else s
  pure s

def resetProgress (env : Env Address) (s : Storage Address) (admin student : Address)
    (courseId : String) : Outcome (Storage Address) := do
  env.requireAuth admin
  let storedAdmin ← unwrap s.admin
  assert (admin = storedAdmin) "Only admin can reset progress"
  let s := { s with progress := s.progress.remove (student, courseId) }
  pure { s with studentCourses := removeItem s.studentCourses student courseId }

def updateAggregates (env : Env Address) (s : Storage Address) (admin : Address) :
    Outcome (Storage Address) := do
  env.requireAuth admin
  let storedAdmin ← unwrap s.admin
  assert (admin = storedAdmin) "Only admin can update aggregates"
  let stats : CompletionStats := { totalCompletions := 0, avgCompletionRate := 0 }
  let s := { s with completionStats := some stats }
  pure (s.publish [.symbol "analytics", .symbol "agg_upd"] [.u32 stats.totalCompletions])

/-- A call of an entry point that can write, with its arguments. -/
inductive Call (Address : Type)
  | initializeContract (admin : Address)
  | setAdmin (newAdmin : Address)
  | recordProgress (caller student : Address) (courseId : String) (progressPct : U32)
  | resetProgress (admin student : Address) (courseId : String)
  | updateAggregates (admin : Address)

/-- One call in its environment. -/
def exec (s : Storage Address) (i : Env Address × Call Address) : Outcome (Storage Address) :=
  match i.2 with
  | .initializeContract admin => initializeContract i.1 s admin
  | .setAdmin newAdmin => setAdmin i.1 s newAdmin
  | .recordProgress caller student courseId progressPct =>
    recordProgress i.1 s caller student courseId progressPct
  | .resetProgress admin student courseId => resetProgress i.1 s admin student courseId
  | .updateAggregates admin => updateAggregates i.1 s admin

/-! ## What an accepted call does -/

section Steps

variable {env : Env Address} {s s' : Storage Address} {admin student : Address}
  {courseId : String}

theorem initializeContract_ok :
    initializeContract env s admin = .ok s' ↔
      s.admin.isSome = false ∧ admin ∈ env.auths ∧ s' = { s with admin := some admin } := by
  simp only [initializeContract, bind_eq_ok, assert_eq_ok, Env.requireAuth_eq_ok, exists_const,
    pure_eq_ok, @eq_comm _ s']

theorem setAdmin_ok {newAdmin : Address} :
    setAdmin env s newAdmin = .ok s' ↔
      ∃ admin, s.admin = some admin ∧ admin ∈ env.auths ∧
        s' = { s with admin := some newAdmin } := by
  simp only [setAdmin, bind_eq_ok, Env.requireAuth_eq_ok, unwrap_eq_ok, exists_const, pure_eq_ok,
    @eq_comm _ s']

theorem updateAggregates_ok (h : updateAggregates env s admin = .ok s') :
    s'.progress = s.progress ∧ s'.studentCourses = s.studentCourses := by
  simp only [updateAggregates, bind_eq_ok, assert_eq_ok, Env.requireAuth_eq_ok, unwrap_eq_ok,
    exists_const, pure_eq_ok] at h
  obtain ⟨_, _, _, _, rfl⟩ := h
  exact ⟨rfl, rfl⟩

/-- The milestones are written beside the records of the progress and their index. -/
theorem checkMilestones_frame (env : Env Address) (s : Storage Address) (student : Address)
    (courseId : String) (progressPct : U32) :
    (checkMilestones env s student courseId progressPct).progress = s.progress ∧
      (checkMilestones env s student courseId progressPct).studentCourses = s.studentCourses := by
  have hloop : ∀ (marks : List U32) (state : Storage Address × List U32),
      (marks.foldl (checkMilestone env student courseId progressPct) state).1.progress =
          state.1.progress ∧
        (marks.foldl (checkMilestone env student courseId progressPct) state).1.studentCourses =
          state.1.studentCourses := by
    intro marks
    induction marks with
    | nil => exact fun state => ⟨rfl, rfl⟩
    | cons mark marks ih =>
      intro state
      have hbody : (checkMilestone env student courseId progressPct state mark).1.progress =
            state.1.progress ∧
          (checkMilestone env student courseId progressPct state mark).1.studentCourses =
            state.1.studentCourses := by
        unfold checkMilestone
        dsimp only
        split
        · exact ⟨rfl, rfl⟩
        · exact ⟨rfl, rfl⟩
      obtain ⟨hprogress, hcourses⟩ :=
        ih (checkMilestone env student courseId progressPct state mark)
      exact ⟨hprogress.trans hbody.1, hcourses.trans hbody.2⟩
  exact hloop milestones (s, getAchievedMilestones s student courseId)

/-- A record is written under the student and the course, and the course is appended to
the student's courses unless it is one of them. -/
theorem recordProgress_ok {caller : Address} {progressPct : U32}
    (h : recordProgress env s caller student courseId progressPct = .ok s') :
    s'.progress = s.progress.set (student, courseId)
        ⟨student, courseId, progressPct, decide (progressPct = .lit 100), env.timestamp⟩ ∧
      s'.studentCourses =
        if (studentCourses s student).contains courseId then s.studentCourses
        else pushItem s.studentCourses student courseId := by
  simp only [recordProgress, bind_eq_ok, assert_eq_ok, Env.requireAuth_eq_ok, unwrap_eq_ok,
    exists_const, pure_eq_ok] at h
  obtain ⟨_, _, _, _, _, h⟩ := h
  have hevents : ∀ t : Storage Address,
      (if progressPct = .lit 100 then
        t.publish [.symbol "analytics", .symbol "completed"] [.address student, .symbol courseId]
        else t).progress = t.progress ∧
      (if progressPct = .lit 100 then
        t.publish [.symbol "analytics", .symbol "completed"] [.address student, .symbol courseId]
        else t).studentCourses = t.studentCourses := by
    intro t
    split
    · exact ⟨rfl, rfl⟩
    · exact ⟨rfl, rfl⟩
  subst h
  rw [(hevents _).1, (hevents _).2]
  refine ⟨(checkMilestones_frame env _ student courseId progressPct).1.trans ?_,
    (checkMilestones_frame env _ student courseId progressPct).2.trans ?_⟩
  · split
    · rfl
    · rfl
  · show (if (studentCourses s student).contains courseId then _ else _ :
      Storage Address).studentCourses = _
    split
    · rfl
    · rfl

theorem resetProgress_ok (h : resetProgress env s admin student courseId = .ok s') :
    admin ∈ env.auths ∧ s.admin = some admin ∧
      s'.progress = s.progress.remove (student, courseId) ∧
      s'.studentCourses = removeItem s.studentCourses student courseId := by
  simp only [resetProgress, bind_eq_ok, assert_eq_ok, Env.requireAuth_eq_ok, unwrap_eq_ok,
    exists_const, pure_eq_ok] at h
  obtain ⟨hauth, storedAdmin, hadmin, rfl, rfl⟩ := h
  exact ⟨hauth, hadmin, rfl, rfl⟩

end Steps

/-! ## Initialised storages -/

/-- The storage after `initialize`. -/
def Initialised (admin : Address) (s : Storage Address) : Prop :=
  ∃ env, initializeContract env (Storage.fresh Address) admin = .ok s

/-- The contract with contract 1 as admin. -/
def exampleAnalytics : Storage Nat := { Storage.fresh Nat with admin := some 1 }

theorem exampleAnalytics_initialised : Initialised 1 exampleAnalytics := ⟨exampleEnv 0 [1], rfl⟩

end Scoopdope.Analytics
