import Mathlib.Data.Set.Insert
import Scoopdope.Learning.Achievements
import Scoopdope.Programmes.Purchases
import Scoopdope.Soroban.History

/-!
# Programmes: completion checks

`updateProgress` of `BundlesService` and of `LearningPathsService`, with `issueLearningPath` of
`CredentialsService` (`credentials/credentials.service.ts`). A check saves an enrollment with its
`completedAt` first and issues the credential after that, and it only looks at enrollments without
a `completedAt`.

`missed_run`: a credential that is not issued with the mark is not issued by any later check.
`credited_throughout`: whoever has completed a programme and has a Stellar key has its credential or
gets it from a later check, all through a run, exactly where in every check what follows a mark goes
through, and nobody gets a key who lacks a credential.

A check runs to its end before the next one.
-/

namespace Scoopdope.Programmes

open Async Database Server Learning Soroban

/-! ## The services -/

/-- What a check awaits. A `Row` is an enrollment together with its programme. -/
structure Operations (S Row : Type) where
  courseIds : Row → List String
  /-- `find` with the condition `{ userId, completedAt: IsNull() }`. -/
  findUnfinished : String → Action S (List Row)
  findByUser : String → Action S (List (schema.Row .enrollment))
  /-- `save` of the enrollment, with the date as its `completedAt`. -/
  save : Row → Action S Unit
  findById : String → Action S (Option Users.User)
  issue : String → Row → String → Action S Unit

section Checks

variable {E S Row : Type}

/-- What is done once all courses are completed. -/
def finish (service : Operations S Row) (userId : String) (enrollment : Row) : Action S Unit := do
  service.save enrollment
  let user ← service.findById userId
  match Streaks.truthy (user.bind fun user => user .stellarPublicKey) with
  | some stellarPublicKey => service.issue userId enrollment stellarPublicKey
  | none => pure ()

/-- One enrollment of the loop. -/
def checkEnrollment (service : Operations S Row) (userId courseId : String) (enrollment : Row) :
    Action S Unit :=
  if (service.courseIds enrollment).contains courseId then do
    let userEnrollments ← service.findByUser userId
    if Bundles.allCompleted (service.courseIds enrollment) userEnrollments then
      finish service userId enrollment
    else pure ()
  else pure ()

/-- The loop over the enrollments, of which the next one has this number. -/
def checkEnrollments (service : E → Operations S Row) (around : Nat → E)
    (userId courseId : String) : Nat → List Row → Action S Unit
  | _, [] => pure ()
  | n, enrollment :: rest => do
    checkEnrollment (service (around n)) userId courseId enrollment
    checkEnrollments service around userId courseId (n + 1) rest

/-- Both methods. -/
def updateProgress (service : E → Operations S Row) (around : Nat → E) (userId courseId : String) :
    Action S Unit := do
  let enrollments ← (service (around 0)).findUnfinished userId
  checkEnrollments service around userId courseId 1 enrollments

end Checks

/-! ### Bundles -/

/-- The enrollment as a check saves it. -/
def BundlesService.completed (around : Surroundings) (enrollment : schema.Row .bundleEnrollment) :
    schema.Row .bundleEnrollment :=
  { enrollment with data := { enrollment.data with completedAt := some around.now } }

def BundlesService.operations (around : Surroundings) :
    Operations Learning.State (schema.Row .bundleEnrollment × Bundle) where
  courseIds e := e.2.courseIds
  findUnfinished userId := perform around (request (.findUnfinishedBundles userId))
  findByUser userId := perform around (Enrollments.findByUser userId)
  save e := perform around do
    let _ ← Learning.save .bundleEnrollment (BundlesService.completed around e.1)
  findById userId := perform around (request (.findUser (.id userId)))
  issue userId e stellarPublicKey := perform around do
    let _ ← Credentials.issueBundle userId e.1.data.bundleId stellarPublicKey

def BundlesService.updateProgress (around : Nat → Surroundings) (userId courseId : String) :
    Action Learning.State Unit :=
  Programmes.updateProgress BundlesService.operations around userId courseId

/-! ### Learning paths -/

/-- A `Credential` of a learning path. -/
structure PathCredential where
  id : String
  userId : String
  learningPathId : String
  txHash : String
  stellarPublicKey : String
deriving DecidableEq

/-- With the credentials of learning paths. -/
structure PathState extends State where
  credentials : Repository PathCredential.id

/-- What one turn of a check meets: the exceptions with which the statements of learning paths fail,
the primary key of a credential, and what the other services meet. -/
structure PathSurroundings where
  now : Int
  findUnfinished : Option HttpException
  save : Option HttpException
  findExisting : Option HttpException
  saveCredential : Option HttpException
  key : String
  learning : Surroundings

/-- A call of another service. -/
def learnPath {A : Type} (around : PathSurroundings) (m : Method A) : Action PathState A := fun s =>
  let (result, learning) := m.run handle around.learning s.learning
  (result, { s with learning })

/-- `repo.save(credential)`. -/
def CredentialsService.save (around : PathSurroundings) (credential : PathCredential) :
    Action PathState PathCredential := fun s =>
  match around.saveCredential with
  | some x => (.error x, s)
  | none =>
    if (s.credentials.get credential.id).isSome then (.error Users.duplicateKey, s)
    else (.ok credential, { s with credentials := s.credentials.save credential })

def CredentialsService.ofPath (userId learningPathId : String) (credential : PathCredential) :
    Bool :=
  credential.userId = userId && credential.learningPathId = learningPathId

def CredentialsService.issueLearningPath (around : PathSurroundings)
    (userId learningPathId stellarPublicKey : String) : Action PathState PathCredential := do
  let existing ← statement around.findExisting fun s =>
    s.credentials.findOne (ofPath userId learningPathId)
  match existing with
  | some existing => pure existing
  | none =>
    let txHash ← learnPath around
      (stellar (.issueCredential stellarPublicKey ("learning-path:" ++ learningPathId) none))
    learnPath around (Streaks.tryReward stellarPublicKey 750)
    save around ⟨around.key, userId, learningPathId, txHash, stellarPublicKey⟩

/-- The enrollments of a user without a `completedAt`, with the relation `learningPath`. -/
def LearningPathsService.unfinished (s : PathState) (userId : String) :
    List (ProgrammeEnrollment × Programme) :=
  (s.enrollments.find fun e => e.userId = userId && e.completedAt.isNone).filterMap fun e =>
    (s.programmes.get e.programmeId).map fun path => (e, path)

/-- Another enrollment has the same user and learning path. -/
def LearningPathsService.taken (s : PathState) (enrollment : ProgrammeEnrollment) : Bool :=
  (s.enrollments.findOne fun e =>
    e.id ≠ enrollment.id && ofUser enrollment.userId enrollment.programmeId e).isSome

/-- `repo.save(enrollment)`. User and learning path are unique. -/
def LearningPathsService.save (around : PathSurroundings) (enrollment : ProgrammeEnrollment) :
    Action PathState Unit := fun s =>
  match around.save with
  | some x => (.error x, s)
  | none =>
    if taken s enrollment then (.error Users.duplicateKey, s)
    else (.ok (), { s with enrollments := s.enrollments.save enrollment })

def LearningPathsService.operations (around : PathSurroundings) :
    Operations PathState (ProgrammeEnrollment × Programme) where
  courseIds e := e.2.courseIds
  findUnfinished userId := statement around.findUnfinished fun s => unfinished s userId
  findByUser userId := learnPath around (Enrollments.findByUser userId)
  save e := save around { e.1 with completedAt := some around.now }
  findById userId := learnPath around (request (.findUser (.id userId)))
  issue userId e stellarPublicKey := do
    let _ ← CredentialsService.issueLearningPath around userId e.1.programmeId stellarPublicKey

def LearningPathsService.updateProgress (around : Nat → PathSurroundings)
    (userId courseId : String) : Action PathState Unit :=
  Programmes.updateProgress LearningPathsService.operations around userId courseId

/-! ## Completions and credentials -/

/-- What a state says about completions and credentials. -/
@[ext]
structure View where
  /-- By the primary key. -/
  enrollments : String → Option ProgrammeEnrollment
  users : Users.UserTable
  /-- The users with the programmes of which they have the credential. -/
  credentials : Set (String × String)

namespace View

/-- The user has completed the programme. -/
def Marked (v : View) (userId programmeId : String) : Prop :=
  ∃ id e, v.enrollments id = some e ∧ e.userId = userId ∧ e.programmeId = programmeId ∧
    e.completedAt ≠ none

/-- The key to which credentials of the user are issued. -/
def keyOf (v : View) (userId : String) : Option String :=
  Streaks.truthy ((v.users.get userId).bind fun user => user .stellarPublicKey)

def HasKey (v : View) (userId : String) : Prop := v.keyOf userId ≠ none

/-- User and programme are unique. -/
def Unique (v : View) : Prop :=
  ∀ id id' e e', v.enrollments id = some e → v.enrollments id' = some e' → e.userId = e'.userId →
    e.programmeId = e'.programmeId → id = id'

/-- The enrollment is stored, without a `completedAt`. -/
def Pending (v : View) (e : ProgrammeEnrollment) : Prop :=
  v.enrollments e.id = some e ∧ e.completedAt = none

def mark (v : View) (e : ProgrammeEnrollment) (completedAt : Int) : View :=
  { v with enrollments :=
      Function.update v.enrollments e.id (some { e with completedAt := some completedAt }) }

def give (v : View) (userId programmeId : String) : View :=
  { v with credentials := v.credentials ∪ {(userId, programmeId)} }

/-- The user has completed the programme and has a key. -/
def Due (v : View) (userId programmeId : String) : Prop :=
  v.Marked userId programmeId ∧ v.HasKey userId

/-- What a turn of the loop may do: nothing, or mark the enrollment, and issue the credential or
not. -/
def Turns (v : View) (e : ProgrammeEnrollment) (v' : View) : Prop :=
  v' = v ∨ ∃ now, v' = v.mark e now ∨ v' = (v.mark e now).give e.userId e.programmeId

/-- Whatever is due is there. -/
def Covered (v : View) : Prop :=
  ∀ userId programmeId, v.Due userId programmeId → (userId, programmeId) ∈ v.credentials

end View

/-- What is due is not there. -/
structure View.Missed (v : View) (userId programmeId : String) : Prop where
  unique : v.Unique
  due : v.Due userId programmeId
  missing : (userId, programmeId) ∉ v.credentials

/-- A completion check. -/
structure Check (E : Type) where
  around : Nat → E
  userId : String
  courseId : String

/-- A check, or something that others do. -/
inductive Event (E S : Type)
  | check (check : Check E)
  | others (next : S)

section Runs

variable {E S Row : Type} (service : E → Operations S Row) (view : S → View)

def Check.next (s : S) (check : Check E) : S :=
  (updateProgress service check.around check.userId check.courseId s).2

/-- The state after a run, newest first. -/
def stateAfter (s : S) : List (Event E S) → S
  | [] => s
  | .check check :: past => check.next service (stateAfter s past)
  | .others next :: _ => next

/-- What is due is there, or some run of checks from here on issues it. -/
def Credited (s : S) : Prop :=
  ∀ userId programmeId, (view s).Due userId programmeId →
    (userId, programmeId) ∈ (view s).credentials ∨
      ∃ later : List (Check E),
        (userId, programmeId) ∈ (view (stateAfter service s (later.map .check))).credentials

/-- Others complete no programme and take away no credential of a completed one. -/
structure Unrelated (v v' : View) : Prop where
  unique : v'.Unique
  marked : ∀ userId programmeId, v'.Marked userId programmeId → v.Marked userId programmeId
  kept : ∀ userId programmeId, v'.Marked userId programmeId →
    (userId, programmeId) ∈ v.credentials → (userId, programmeId) ∈ v'.credentials

/-- A run of checks, and of what others do in between. -/
structure Run where
  start : S
  unique : (view start).Unique
  credited : Credited service view start
  past : List (Event E S)
  others : Guarded (fun earlier event => ∀ next, event = .others next →
    Unrelated (view (stateAfter service start earlier)) (view next)) past

end Runs

/-! ## When nothing is missed -/

/-- The statements of a check that go through. -/
structure Passing (S Row : Type) where
  findUnfinished : String → Prop
  findByUser : String → Prop
  save : S → Row → Prop
  findById : String → Prop
  issue : S → String → Row → String → Prop

/-- What the statements of a check read, and how the view reads an enrollment. -/
structure Readings (S Row : Type) where
  view : S → View
  enrollment : Row → ProgrammeEnrollment
  unfinished : S → String → List Row
  userEnrollments : S → String → List (schema.Row .enrollment)

section Conditions

variable {E S Row : Type} (service : E → Operations S Row) (passing : E → Passing S Row)
  (readings : Readings S Row)

/-- The check of this enrollment marks it. -/
def Completes (service : Operations S Row) (passing : Passing S Row) (userId courseId : String)
    (row : Row) (s : S) : Prop :=
  courseId ∈ service.courseIds row ∧ passing.findByUser userId ∧
    Bundles.allCompleted (service.courseIds row) (readings.userEnrollments s userId) = true ∧
    passing.save s row

/-- The user is found out, has a key, and the credential is issued to it. -/
def Issues (passing : Passing S Row) (userId : String) (row : Row) (s : S) : Prop :=
  ∃ key, (readings.view s).keyOf userId = some key ∧ passing.findById userId ∧
    passing.issue s userId row key

/-- What follows the mark goes through, unless the user has no key or has the credential. -/
def FollowsUp (passing : Passing S Row) (userId : String) (row : Row) (s : S) : Prop :=
  (readings.view s).HasKey userId →
    (userId, (readings.enrollment row).programmeId) ∈ (readings.view s).credentials ∨
      Issues readings passing userId row s

/-- So it is in one turn of the loop after the other, from this number on. -/
def FollowsUpAll (around : Nat → E) (userId courseId : String) : Nat → List Row → S → Prop
  | _, [], _ => True
  | n, row :: rest, s =>
    (Completes readings (service (around n)) (passing (around n)) userId courseId row s →
      FollowsUp readings (passing (around n)) userId row s) ∧
    ∀ s', checkEnrollment (service (around n)) userId courseId row s = (.ok (), s') →
      FollowsUpAll around userId courseId (n + 1) rest s'

/-- In a check what follows a mark goes through. What others do gives no key to a user who lacks the
credential of a programme that he has completed. -/
def Meets (s : S) : Event E S → Prop
  | .check check => (passing (check.around 0)).findUnfinished check.userId →
    FollowsUpAll service passing readings check.around check.userId check.courseId 1
      (readings.unfinished s check.userId) s
  | .others next => ∀ userId programmeId, (readings.view next).Due userId programmeId →
    (readings.view s).HasKey userId ∨ (userId, programmeId) ∈ (readings.view next).credentials

end Conditions

/-! ## What a service keeps to -/

section Laws

variable {S Row : Type}

/-- The statements of a service come to what the view says of them. -/
structure Lawful (service : Operations S Row) (passing : Passing S Row)
    (readings : Readings S Row) : Prop where
  findUnfinished : ∀ userId, ReadsTo (service.findUnfinished userId)
    (passing.findUnfinished userId) fun s => readings.unfinished s userId
  findByUser : ∀ userId, ReadsTo (service.findByUser userId) (passing.findByUser userId) fun s =>
    readings.userEnrollments s userId
  findById : ∀ userId, ReadsTo (service.findById userId) (passing.findById userId) fun s =>
    (readings.view s).users.get userId
  save : ∀ s row,
    (passing.save s row ∧ ∃ s' now, service.save row s = (.ok (), s') ∧
      readings.view s' = (readings.view s).mark (readings.enrollment row) now ∧
      ∀ userId key, passing.issue s' userId row key ↔ passing.issue s userId row key) ∨
    ¬ passing.save s row ∧ ∃ x, service.save row s = (.error x, s)
  issue : ∀ s userId row key, ∃ s',
    (passing.issue s userId row key ∧ service.issue userId row key s = (.ok (), s') ∧
      readings.view s' =
        (readings.view s).give userId (readings.enrollment row).programmeId) ∨
    ¬ passing.issue s userId row key ∧ (∃ x, service.issue userId row key s = (.error x, s')) ∧
      readings.view s' = readings.view s

/-- The enrollments that a check finds are those of the user without a `completedAt`. -/
structure Found (readings : Readings S Row) : Prop where
  pending : ∀ s userId, ∀ row ∈ readings.unfinished s userId,
    (readings.view s).Pending (readings.enrollment row) ∧
      (readings.enrollment row).userId = userId
  distinct : ∀ s userId, (readings.unfinished s userId).Pairwise fun row row' =>
    (readings.enrollment row).id ≠ (readings.enrollment row').id

end Laws

/-! ## The view -/

namespace View

variable {v : View} {e : ProgrammeEnrollment} {now : Int} {userId programmeId u p : String}

theorem mark_self : (v.mark e now).enrollments e.id = some { e with completedAt := some now } :=
  Function.update_self _ _ _

theorem mark_of_ne {id : String} (h : id ≠ e.id) :
    (v.mark e now).enrollments id = v.enrollments id :=
  Function.update_of_ne h _ _

theorem mem_give : (u, p) ∈ (v.give userId programmeId).credentials ↔
    (u, p) ∈ v.credentials ∨ u = userId ∧ p = programmeId := by
  unfold give
  rw [Set.mem_union, Set.mem_singleton_iff, Prod.mk.injEq]

/-- A mark is of the one enrollment. -/
theorem marked_mark (hpending : v.Pending e) :
    (v.mark e now).Marked u p ↔ v.Marked u p ∨ e.userId = u ∧ e.programmeId = p := by
  constructor
  · rintro ⟨id, e', he', huser, hprogramme, hcompleted⟩
    by_cases hid : id = e.id
    · rw [hid, mark_self] at he'
      cases he'
      exact .inr ⟨huser, hprogramme⟩
    · rw [mark_of_ne hid] at he'
      exact .inl ⟨id, e', he', huser, hprogramme, hcompleted⟩
  · rintro (⟨id, e', he', huser, hprogramme, hcompleted⟩ | ⟨huser, hprogramme⟩)
    · have hid : id ≠ e.id := by
        rintro rfl
        cases hpending.1.symm.trans he'
        exact hcompleted hpending.2
      exact ⟨id, e', (mark_of_ne hid).trans he', huser, hprogramme, hcompleted⟩
    · exact ⟨e.id, _, mark_self, huser, hprogramme, Option.some_ne_none now⟩

theorem Unique.mark (h : v.Unique) (hpending : v.Pending e) : (v.mark e now).Unique := by
  -- A marked enrollment has the user and the programme that it had.
  have hback (id : String) (a : ProgrammeEnrollment) (ha : (v.mark e now).enrollments id = some a) :
      ∃ b, v.enrollments id = some b ∧ b.userId = a.userId ∧ b.programmeId = a.programmeId := by
    by_cases hid : id = e.id
    · rw [hid, mark_self] at ha
      cases ha
      exact ⟨e, hid ▸ hpending.1, rfl, rfl⟩
    · rw [mark_of_ne hid] at ha
      exact ⟨a, ha, rfl, rfl⟩
  intro id id' a a' ha ha' huser hprogramme
  obtain ⟨b, hb, hbuser, hbprogramme⟩ := hback id a ha
  obtain ⟨b', hb', hbuser', hbprogramme'⟩ := hback id' a' ha'
  refine h id id' b b' hb hb' ?_ ?_
  · rw [hbuser, hbuser', huser]
  · rw [hbprogramme, hbprogramme', hprogramme]

theorem Pending.mark {e' : ProgrammeEnrollment} (h : v.Pending e') (hne : e'.id ≠ e.id) :
    (v.mark e now).Pending e' :=
  ⟨(mark_of_ne hne).trans h.1, h.2⟩

/-- A programme that the user has completed is no longer pending for him. -/
theorem Unique.not_pending (h : v.Unique) (hmarked : v.Marked u p) (hpending : v.Pending e)
    (huser : e.userId = u) : e.programmeId ≠ p := by
  rintro rfl
  obtain ⟨id, e', he', huser', hprogramme, hcompleted⟩ := hmarked
  cases h id e.id e' e he' hpending.1 (huser'.trans huser.symm) hprogramme
  cases he'.symm.trans hpending.1
  exact hcompleted hpending.2

theorem give_of_mem (h : (userId, programmeId) ∈ v.credentials) :
    v.give userId programmeId = v := by
  refine View.ext rfl rfl (Set.ext fun entry => ?_)
  obtain ⟨u, p⟩ := entry
  rw [mem_give]
  refine ⟨?_, .inl⟩
  rintro (hissued | ⟨rfl, rfl⟩)
  · exact hissued
  · exact h

theorem not_covered_iff (h : v.Unique) : ¬ v.Covered ↔ ∃ u p, v.Missed u p := by
  unfold Covered
  push Not
  exact ⟨fun ⟨u, p, hdue, hmissing⟩ => ⟨u, p, h, hdue, hmissing⟩,
    fun ⟨u, p, hmissed⟩ => ⟨u, p, hmissed.due, hmissed.missing⟩⟩

variable {v' : View}

theorem Turns.unique (h : v.Turns e v') (hpending : v.Pending e) (hunique : v.Unique) :
    v'.Unique := by
  rcases h with rfl | ⟨now, rfl | rfl⟩
  · exact hunique
  · exact hunique.mark hpending
  · exact hunique.mark hpending

theorem Turns.pending {e' : ProgrammeEnrollment} (h : v.Turns e v') (hpending : v.Pending e')
    (hne : e'.id ≠ e.id) : v'.Pending e' := by
  rcases h with rfl | ⟨now, rfl | rfl⟩
  · exact hpending
  · exact hpending.mark hne
  · exact hpending.mark hne

/-- The mark of another enrollment brings no credential that is missing. -/
theorem Turns.missed (h : v.Turns e v') (hpending : v.Pending e) (hmissed : v.Missed u p) :
    v'.Missed u p := by
  have hunique := h.unique hpending hmissed.unique
  have hmarked (now : Int) : (v.mark e now).Marked u p :=
    (marked_mark hpending).mpr (.inl hmissed.due.1)
  rcases h with rfl | ⟨now, rfl | rfl⟩
  · exact hmissed
  · exact ⟨hunique, ⟨hmarked now, hmissed.due.2⟩, hmissed.missing⟩
  · refine ⟨hunique, ⟨hmarked now, hmissed.due.2⟩, fun hissued => ?_⟩
    rcases mem_give.mp hissued with hissued | ⟨huser, hprogramme⟩
    · exact hmissed.missing hissued
    · exact hmissed.unique.not_pending hmissed.due.1 hpending huser.symm hprogramme.symm

theorem covered_mark (h : v.Covered) (hpending : v.Pending e) :
    (v.mark e now).Covered ↔
      (v.HasKey e.userId → (e.userId, e.programmeId) ∈ v.credentials) := by
  constructor
  · intro hcovered hkey
    exact hcovered _ _ ⟨(marked_mark hpending).mpr (.inr ⟨rfl, rfl⟩), hkey⟩
  · rintro hissued u p ⟨hmarked, hkey⟩
    rcases (marked_mark hpending).mp hmarked with hmarked | ⟨rfl, rfl⟩
    · exact h u p ⟨hmarked, hkey⟩
    · exact hissued hkey

theorem covered_give (h : v.Covered) (hpending : v.Pending e) (now : Int) :
    ((v.mark e now).give e.userId e.programmeId).Covered := by
  rintro u p ⟨hmarked, hkey⟩
  rw [mem_give]
  rcases (marked_mark hpending).mp hmarked with hmarked | ⟨rfl, rfl⟩
  · exact .inl (h u p ⟨hmarked, hkey⟩)
  · exact .inr ⟨rfl, rfl⟩

end View

/-! ## One turn of the loop -/

section Turn

variable {S Row : Type} {service : Operations S Row} {passing : Passing S Row}
  {readings : Readings S Row} {userId courseId : String} {row : Row} {s : S}

theorem finish_apply {s₁ : S} {user : Option Users.User}
    (hsaved : service.save row s = (.ok (), s₁))
    (hfound : service.findById userId s₁ = (.ok user, s₁)) :
    finish service userId row s =
      (match Streaks.truthy (user.bind fun user => user .stellarPublicKey) with
        | some stellarPublicKey => service.issue userId row stellarPublicKey
        | none => pure ()) s₁ := by
  unfold finish
  rw [bind_of_ok hsaved, bind_of_ok hfound]

/-- What follows the mark. -/
theorem finish_cases (h : Lawful service passing readings) (hsave : passing.save s row) :
    ∃ now, ((readings.view (finish service userId row s).2 =
          (readings.view s).mark (readings.enrollment row) now ∧
        ¬ Issues readings passing userId row s) ∨
      readings.view (finish service userId row s).2 =
          ((readings.view s).mark (readings.enrollment row) now).give userId
            (readings.enrollment row).programmeId ∧
        Issues readings passing userId row s) := by
  obtain ⟨-, s₁, now, hsaved, hview, hissue⟩ | ⟨hnot, -⟩ := h.save s row
  · refine ⟨now, ?_⟩
    rcases h.findById userId s₁ with ⟨hfound, hrun⟩ | ⟨hnot, x, hrun⟩
    · have hkeys : Streaks.truthy (((readings.view s₁).users.get userId).bind fun user =>
          user .stellarPublicKey) = (readings.view s).keyOf userId := by
        rw [hview]
        rfl
      rw [finish_apply hsaved hrun, hkeys]
      cases hkey : (readings.view s).keyOf userId with
      | none =>
        refine .inl ⟨hview, ?_⟩
        rintro ⟨key, hkey', -, -⟩
        cases hkey.symm.trans hkey'
      | some key =>
        dsimp only
        obtain ⟨s₂, ⟨hpasses, hrun, hview'⟩ | ⟨hnot, ⟨x, hrun⟩, hview'⟩⟩ :=
          h.issue s₁ userId row key
        · rw [hrun, hview', hview]
          exact .inr ⟨rfl, key, hkey, hfound, (hissue userId key).mp hpasses⟩
        · rw [hrun, hview', hview]
          refine .inl ⟨rfl, ?_⟩
          rintro ⟨key', hkey', -, hpasses⟩
          cases hkey.symm.trans hkey'
          exact hnot ((hissue userId key).mpr hpasses)
    · unfold finish
      rw [bind_of_ok hsaved, bind_of_error hrun]
      exact .inl ⟨hview, fun ⟨_, _, hfound, _⟩ => hnot hfound⟩
  · exact absurd hsave hnot

/-- What a turn does: nothing, or it marks the enrollment, and issues the credential or not. -/
theorem turn_cases (h : Lawful service passing readings) (userId courseId : String) (row : Row)
    (s : S) :
    (¬ Completes readings service passing userId courseId row s ∧
      (checkEnrollment service userId courseId row s).2 = s) ∨
    Completes readings service passing userId courseId row s ∧
      ∃ now, (readings.view (checkEnrollment service userId courseId row s).2 =
            (readings.view s).mark (readings.enrollment row) now ∧
          ¬ Issues readings passing userId row s) ∨
        readings.view (checkEnrollment service userId courseId row s).2 =
            ((readings.view s).mark (readings.enrollment row) now).give userId
              (readings.enrollment row).programmeId ∧
          Issues readings passing userId row s := by
  unfold checkEnrollment
  split
  next hcourse =>
    rw [List.contains_iff_mem] at hcourse
    rcases h.findByUser userId s with ⟨hread, hrun⟩ | ⟨hnot, x, hrun⟩
    · rw [bind_of_ok hrun]
      split
      next hcompleted =>
        by_cases hsave : passing.save s row
        · exact .inr ⟨⟨hcourse, hread, hcompleted, hsave⟩, finish_cases h hsave⟩
        · refine .inl ⟨fun hcompletes => hsave hcompletes.2.2.2, ?_⟩
          obtain ⟨hsaved, -⟩ | ⟨-, x, hrun'⟩ := h.save s row
          · exact absurd hsaved hsave
          · unfold finish
            rw [bind_of_error hrun']
      next hcompleted => exact .inl ⟨fun hcompletes => hcompleted hcompletes.2.2.1, rfl⟩
    · rw [bind_of_error hrun]
      exact .inl ⟨fun hcompletes => hnot hcompletes.2.1, rfl⟩
  next hcourse =>
    rw [List.contains_iff_mem] at hcourse
    exact .inl ⟨fun hcompletes => hcourse hcompletes.1, rfl⟩

variable (courseId) (h : Lawful service passing readings)
  (hpending : (readings.view s).Pending (readings.enrollment row))
  (huser : (readings.enrollment row).userId = userId)

include h huser

theorem turns_checkEnrollment : (readings.view s).Turns (readings.enrollment row)
    (readings.view (checkEnrollment service userId courseId row s).2) := by
  rcases turn_cases h userId courseId row s with ⟨-, hs⟩ | ⟨-, now, ⟨hview, -⟩ | ⟨hview, -⟩⟩
  · exact .inl (congrArg readings.view hs)
  · exact .inr ⟨now, .inl hview⟩
  · refine .inr ⟨now, .inr ?_⟩
    rw [hview, huser]

include hpending

/-- A turn leaves nothing missing exactly where what follows a mark goes through. -/
theorem covered_turn (hcovered : (readings.view s).Covered) :
    (readings.view (checkEnrollment service userId courseId row s).2).Covered ↔
      (Completes readings service passing userId courseId row s →
        FollowsUp readings passing userId row s) := by
  rcases turn_cases h userId courseId row s with
    ⟨hidle, hs⟩ | ⟨hcompletes, now, ⟨hview, hnot⟩ | ⟨hview, hissues⟩⟩
  · rw [hs]
    exact iff_of_true hcovered fun hcompletes => absurd hcompletes hidle
  · rw [hview, View.covered_mark hcovered hpending, huser]
    constructor
    · exact fun hissued _ hkey => .inl (hissued hkey)
    · exact fun hfollows hkey => (hfollows hcompletes hkey).resolve_right hnot
  · rw [hview]
    have hgiven := View.covered_give hcovered hpending now
    rw [huser] at hgiven
    exact iff_of_true hgiven fun _ _ => .inr hissues

end Turn

/-! ## A check -/

section Check

variable {E S Row : Type} {service : E → Operations S Row} {passing : E → Passing S Row}
  {readings : Readings S Row} {around : Nat → E} {userId courseId : String}

/-- The enrollments that are still to be looked at. -/
structure Remaining (readings : Readings S Row) (userId : String) (rows : List Row) (s : S) :
    Prop where
  pending : ∀ row ∈ rows, (readings.view s).Pending (readings.enrollment row)
  ofUser : ∀ row ∈ rows, (readings.enrollment row).userId = userId
  distinct : rows.Pairwise fun row row' =>
    (readings.enrollment row).id ≠ (readings.enrollment row').id

theorem Remaining.rest {row : Row} {rest : List Row} {s s' : S}
    (h : Remaining readings userId (row :: rest) s)
    (hturns : (readings.view s).Turns (readings.enrollment row) (readings.view s')) :
    Remaining readings userId rest s' := by
  obtain ⟨hne, hdistinct⟩ := List.pairwise_cons.mp h.distinct
  refine ⟨fun other hother => ?_, fun other hother => ?_, hdistinct⟩
  · exact hturns.pending (h.pending other (List.mem_cons_of_mem row hother)) (hne other hother).symm
  · exact h.ofUser other (List.mem_cons_of_mem row hother)

theorem Found.remaining (h : Found readings) (s : S) (userId : String) :
    Remaining readings userId (readings.unfinished s userId) s :=
  ⟨fun row hrow => (h.pending s userId row hrow).1, fun row hrow => (h.pending s userId row hrow).2,
    h.distinct s userId⟩

variable (hlawful : ∀ e, Lawful (service e) (passing e) readings)

include hlawful

/-- What every turn keeps is kept by the loop. -/
theorem loop_keeps {P : View → Prop} (hturn : ∀ v e v', v.Pending e → v.Turns e v' → P v → P v')
    {n : Nat} {rows : List Row} {s : S} (h : Remaining readings userId rows s)
    (hP : P (readings.view s)) :
    P (readings.view (checkEnrollments service around userId courseId n rows s).2) := by
  induction rows generalizing n s with
  | nil => exact hP
  | cons row rest ih =>
    have hturns := turns_checkEnrollment courseId (s := s) (hlawful (around n))
      (h.ofUser row List.mem_cons_self)
    have hnext := hturn _ _ _ (h.pending row List.mem_cons_self) hturns hP
    have hrest := h.rest hturns
    unfold checkEnrollments
    rw [bind_apply]
    rcases hrun : checkEnrollment (service (around n)) userId courseId row s with ⟨x | u, s'⟩
    · rw [hrun] at hnext
      exact hnext
    · rw [hrun] at hnext hrest
      exact ih hrest hnext

/-- The loop leaves nothing missing exactly where what follows the marks goes through. -/
theorem covered_loop {n : Nat} {rows : List Row} {s : S} (h : Remaining readings userId rows s)
    (hunique : (readings.view s).Unique) (hcovered : (readings.view s).Covered) :
    (readings.view (checkEnrollments service around userId courseId n rows s).2).Covered ↔
      FollowsUpAll service passing readings around userId courseId n rows s := by
  induction rows generalizing n s with
  | nil => exact iff_of_true hcovered trivial
  | cons row rest ih =>
    have hrow : row ∈ row :: rest := List.mem_cons_self
    have hturns := turns_checkEnrollment courseId (s := s) (hlawful (around n)) (h.ofUser row hrow)
    have hrest := h.rest hturns
    have hnext := hturns.unique (h.pending row hrow) hunique
    have hturn := covered_turn courseId (hlawful (around n)) (h.pending row hrow)
      (h.ofUser row hrow) hcovered
    unfold checkEnrollments FollowsUpAll
    rw [bind_apply, ← hturn]
    rcases hrun : checkEnrollment (service (around n)) userId courseId row s with ⟨x | u, s'⟩
    · exact ⟨fun hend => ⟨hend, nofun⟩, fun hend => hend.1⟩
    · rw [hrun] at hrest hnext
      dsimp only
      constructor
      · intro hend
        -- What a turn leaves missing stays so.
        have hhere : (readings.view s').Covered := by
          by_contra hmissing
          obtain ⟨u, p, hmissed⟩ := (View.not_covered_iff hnext).mp hmissing
          have hstill : (readings.view
              (checkEnrollments service around userId courseId (n + 1) rest s').2).Missed u p :=
            loop_keeps hlawful (P := fun v => v.Missed u p)
              (fun v e v' hpending hturns => hturns.missed hpending) hrest hmissed
          exact hstill.missing (hend u p hstill.due)
        refine ⟨hhere, fun s'' hs'' => ?_⟩
        cases hs''
        exact (ih hrest hnext hhere).mp hend
      · rintro ⟨hhere, hfollows⟩
        exact (ih hrest hnext hhere).mpr (hfollows s' rfl)

variable (hfound : Found readings)

include hfound

/-- What every turn keeps is kept by a check. -/
theorem check_keeps {P : View → Prop} (hturn : ∀ v e v', v.Pending e → v.Turns e v' → P v → P v')
    (check : Check E) {s : S} (hP : P (readings.view s)) :
    P (readings.view (check.next service s)) := by
  unfold Check.next updateProgress
  rcases (hlawful (check.around 0)).findUnfinished check.userId s with ⟨-, hrun⟩ | ⟨-, x, hrun⟩
  · rw [bind_of_ok hrun]
    exact loop_keeps hlawful hturn (hfound.remaining s check.userId) hP
  · rw [bind_of_error hrun]
    exact hP

theorem covered_check (check : Check E) {s : S} (hunique : (readings.view s).Unique)
    (hcovered : (readings.view s).Covered) :
    (readings.view (check.next service s)).Covered ↔
      Meets service passing readings s (.check check) := by
  unfold Check.next updateProgress Meets
  rcases (hlawful (check.around 0)).findUnfinished check.userId s with
    ⟨hpasses, hrun⟩ | ⟨hnot, x, hrun⟩
  · rw [bind_of_ok hrun, covered_loop hlawful (hfound.remaining s check.userId) hunique hcovered]
    exact ⟨fun hfollows _ => hfollows, fun hfollows => hfollows hpasses⟩
  · rw [bind_of_error hrun]
    exact iff_of_true hcovered fun hpasses => absurd hpasses hnot

/-- What is missing once is missing after every run of checks. -/
theorem missed_run {s : S} {u p : String} (h : (readings.view s).Missed u p)
    (later : List (Check E)) :
    (readings.view (stateAfter service s (later.map .check))).Missed u p := by
  induction later with
  | nil => exact h
  | cons check later ih =>
    exact check_keeps hlawful hfound (fun v e v' hpending hturns => hturns.missed hpending) check ih

/-- No later check issues what is missing. -/
theorem View.Missed.denied {s : S} {u p : String} (h : (readings.view s).Missed u p) :
    (readings.view s).Due u p ∧
      (∀ later : List (Check E), (u, p) ∉
        (readings.view (stateAfter service s (later.map .check))).credentials) ∧
      ¬ Credited service readings.view s := by
  have hlater (later : List (Check E)) : (u, p) ∉
      (readings.view (stateAfter service s (later.map .check))).credentials :=
    (missed_run hlawful hfound h later).missing
  refine ⟨h.due, hlater, fun hcredited => ?_⟩
  rcases hcredited u p h.due with hissued | ⟨later, hissued⟩
  · exact h.missing hissued
  · exact hlater later hissued

theorem credited_iff_covered {s : S} (hunique : (readings.view s).Unique) :
    Credited service readings.view s ↔ (readings.view s).Covered := by
  constructor
  · intro h
    by_contra hmissing
    obtain ⟨u, p, hmissed⟩ := (View.not_covered_iff hunique).mp hmissing
    exact (View.Missed.denied hlawful hfound hmissed).2.2 h
  · exact fun h u p hdue => .inl (h u p hdue)

end Check

/-! ## Runs -/

section Run

variable {E S Row : Type} {service : E → Operations S Row} {passing : E → Passing S Row}
  {readings : Readings S Row} (hlawful : ∀ e, Lawful (service e) (passing e) readings)
  (hfound : Found readings) (run : Run service readings.view)

include hlawful hfound

theorem unique_after {earlier : List (Event E S)} (h : earlier <:+ run.past) :
    (readings.view (stateAfter service run.start earlier)).Unique := by
  induction earlier with
  | nil => exact run.unique
  | cons event earlier ih =>
    have hbefore := ih ((List.suffix_cons event earlier).trans h)
    cases event with
    | check check =>
      exact check_keeps hlawful hfound (fun v e v' hpending hturns => hturns.unique hpending) check
        hbefore
    | others next => exact ((run.others.suffix h).1 next rfl).unique

/-- Whoever has completed a programme and has a key has its credential, or gets it later, all
through a run, exactly where every step of it meets the condition. -/
theorem credited_throughout : (∀ earlier, earlier <:+ run.past →
      Credited service readings.view (stateAfter service run.start earlier)) ↔
    Guarded (fun earlier event =>
      Meets service passing readings (stateAfter service run.start earlier) event) run.past := by
  refine throughout_iff_guarded run.credited run.past fun earlier event h hcredited => ?_
  have hbefore := unique_after hlawful hfound run ((List.suffix_cons event earlier).trans h)
  have hafter := unique_after hlawful hfound run h
  rw [credited_iff_covered hlawful hfound hafter]
  rw [credited_iff_covered hlawful hfound hbefore] at hcredited
  cases event with
  | check check => exact covered_check hlawful hfound check hbefore hcredited
  | others next =>
    have hothers := (run.others.suffix h).1 next rfl
    constructor
    · exact fun hcovered u p hdue => .inr (hcovered u p hdue)
    · intro hmeets u p hdue
      rcases hmeets u p hdue with hkey | hissued
      · exact hothers.kept u p hdue.1 (hcredited u p ⟨hothers.marked u p hdue.1, hkey⟩)
      · exact hissued

end Run

end Scoopdope.Programmes
