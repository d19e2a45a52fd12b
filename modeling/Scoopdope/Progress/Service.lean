import Scoopdope.Learning.Achievements

/-!
# Progress: the service

`ProgressService` (`progress/progress.service.ts`). `store` is the part of `record` up to its
`save`, and `complete` the branch that it takes at 100 percent. The counter of completed courses is
left out.
-/

namespace Scoopdope.Progress

open Async Database Server Learning

structure RecordProgressDto where
  courseId : String
  lessonId : Option String
  progressPct : Nat
deriving DecidableEq

/-- The columns that `record` writes, before the call of the chain. -/
def updated (progress : Option (schema.Row .progress)) (userId : String) (dto : RecordProgressDto)
    (now : Int) : Learning.Progress where
  userId := userId
  courseId := dto.courseId
  lessonId := dto.lessonId.or (progress.bind fun p => p.data.lessonId)
  progressPct := dto.progressPct
  completedAt := if 100 ≤ dto.progressPct then some now
    else progress.bind fun p => p.data.completedAt
  txHash := progress.bind fun p => p.data.txHash

/-- The call of the chain, whose failure is ignored. -/
def recordOnChain (stellarPublicKey : String) (dto : RecordProgressDto)
    (progress : Learning.Progress) : Method Learning.Progress :=
  Process.tryCatch
    (stellar (.recordProgress stellarPublicKey dto.courseId dto.progressPct) >>= fun txHash =>
      pure { progress with txHash := some txHash })
    fun _ => pure progress

/-- `repo.save(progress)`, for a new row or for the one that was found. -/
def put (existing : Option (schema.Row .progress)) (progress : Learning.Progress) :
    Method (schema.Row .progress) :=
  match existing with
  | none => insert .progress progress
  | some row => save .progress { row with data := progress }

def store (userId : String) (dto : RecordProgressDto) (stellarPublicKey : String) :
    Method (schema.Row .progress) := do
  let _ ← Streaks.recordActivity userId
  let existing ← findOne .progress (.pair userId dto.courseId)
  let around ← Process.env
  let progress ← recordOnChain stellarPublicKey dto (updated existing userId dto around.now)
  put existing progress

/-- 50 BST to the referrer on the first course completion. -/
def rewardReferrer (userId : String) : Method Unit := do
  let user ← request (.findUser (.id userId))
  match Streaks.truthy (user.bind fun user => user .referredBy) with
  | none => pure ()
  | some referredBy =>
    let referrer ← request (.findUser (.id referredBy))
    match Streaks.truthy (referrer.bind fun user => user .stellarPublicKey) with
    | none => pure ()
    | some stellarPublicKey => Streaks.tryReward stellarPublicKey 50

/-- The branch at 100 percent. -/
def complete (userId courseId stellarPublicKey : String) : Method Unit := do
  Bundles.updateProgress userId courseId
  let _ ← Credentials.issue userId courseId stellarPublicKey
  emit (.progressCompleted userId courseId stellarPublicKey courseId)
  let completed ← find .progress (.completedOf userId)
  if completed.length = 1 then rewardReferrer userId else pure ()

def record (userId : String) (dto : RecordProgressDto) (stellarPublicKey : String) :
    Method (schema.Row .progress) := do
  let saved ← store userId dto stellarPublicKey
  if 100 ≤ dto.progressPct then do
    complete userId dto.courseId stellarPublicKey
    pure saved
  else pure saved

/-- `order: { updatedAt: 'DESC' }`. -/
def findByUser (userId : String) : Method (List (schema.Row .progress)) := do
  let progress ← find .progress (.user userId)
  pure (progress.insertionSort fun a b => b.updatedAt ≤ a.updatedAt)

/-! ## What a call requests

The requests that `record` may come to make, one lemma for each method that it calls: every request
of the method satisfies `φ` if those that are named do. -/

variable {φ : Request → Prop} {userId courseId stellarPublicKey : String}

theorem only_tryReward {recipientPublicKey : String} {amount : Nat}
    (h : φ (.stellar (.mintReward recipientPublicKey amount))) :
    (Streaks.tryReward recipientPublicKey amount).Only φ :=
  Process.only_tryCatch (Process.only_bind (only_request h) fun _ => trivial) fun _ => trivial

theorem only_insert {t : Entity} {data : t.Columns} (h : φ (.query (.insert t data))) :
    (insert t data).Only φ :=
  Process.only_bind (only_request h) fun _ => Process.only_ofExcept _

theorem only_save {t : Entity} {row : schema.Row t} (h : φ (.query (.save t row))) :
    (save t row).Only φ :=
  Process.only_bind (only_request h) fun _ => Process.only_ofExcept _

theorem only_recordActivity (hfind : φ (.findUser (.id userId)))
    (hsave : ∀ user, φ (.saveUser user))
    (hreward : ∀ key, ∀ m ∈ Streaks.milestones, φ (.stellar (.mintReward key m.2))) :
    (Streaks.recordActivity userId).Only φ := by
  refine Process.only_bind (only_request hfind) fun user => ?_
  split
  · trivial
  refine Process.only_bind (fun _ => trivial) fun around => ?_
  refine Process.only_bind ?_ fun savedUser => Process.only_bind ?_ fun _ => trivial
  · exact Process.only_bind (only_request (hsave _)) fun _ => Process.only_ofExcept _
  · split
    · unfold Streaks.checkMilestones
      split
      · next m reward key hfound _ =>
        exact only_tryReward (hreward key _ (List.mem_of_find?_eq_some hfound))
      · trivial
    · trivial

theorem only_store {dto : RecordProgressDto}
    (hactivity : (Streaks.recordActivity userId).Only φ)
    (hfind : φ (.query (.findOne .progress (.pair userId dto.courseId))))
    (hrecord : φ (.stellar (.recordProgress stellarPublicKey dto.courseId dto.progressPct)))
    (hinsert : ∀ data, φ (.query (.insert .progress data)))
    (hsave : ∀ row, φ (.query (.save .progress row))) :
    (store userId dto stellarPublicKey).Only φ := by
  refine Process.only_bind hactivity fun _ => ?_
  refine Process.only_bind (only_request hfind) fun existing => ?_
  refine Process.only_bind (fun _ => trivial) fun around => ?_
  refine Process.only_bind ?_ fun progress => ?_
  · refine Process.only_tryCatch ?_ fun _ => trivial
    exact Process.only_bind (only_request hrecord) fun _ => trivial
  · unfold put
    split
    · exact only_insert (hinsert _)
    · exact only_save (hsave _)

/-! ### At 100 percent -/

theorem only_issueBundle {bundleId : String}
    (hfind : φ (.query (.findOne .credential (.bundle userId bundleId))))
    (hissue : φ (.stellar (.issueCredential stellarPublicKey ("bundle:" ++ bundleId) none)))
    (hreward : φ (.stellar (.mintReward stellarPublicKey 500)))
    (hinsert : ∀ data, φ (.query (.insert .credential data))) :
    (Credentials.issueBundle userId bundleId stellarPublicKey).Only φ := by
  refine Process.only_bind (only_request hfind) fun existing => ?_
  split
  · trivial
  refine Process.only_bind (only_request hissue) fun txHash => ?_
  exact Process.only_bind (only_tryReward hreward) fun _ => only_insert (hinsert _)

/-- The loop over the bundles. -/
theorem only_updateProgress (hbundles : φ (.findUnfinishedBundles userId))
    (henrollments : φ (.query (.find .enrollment (.user userId))))
    (hsave : ∀ row, φ (.query (.save .bundleEnrollment row)))
    (huser : φ (.findUser (.id userId)))
    (hissue : ∀ bundleId key, (Credentials.issueBundle userId bundleId key).Only φ) :
    (Bundles.updateProgress userId courseId).Only φ := by
  have hfinish (enrollment : schema.Row .bundleEnrollment) :
      (Bundles.finish userId enrollment).Only φ := by
    refine Process.only_bind (fun _ => trivial) fun around => ?_
    refine Process.only_bind (only_save (hsave _)) fun _ => ?_
    refine Process.only_bind (only_request huser) fun user => ?_
    split
    · exact Process.only_bind (hissue _ _) fun _ => trivial
    · trivial
  refine Process.only_bind (only_request hbundles) fun bundleEnrollments => ?_
  induction bundleEnrollments with
  | nil => trivial
  | cons entry rest ih =>
    refine Process.only_bind ?_ fun _ => ih
    unfold Bundles.updateBundle
    split
    · refine Process.only_bind ?_ fun _ => ?_
      · exact Process.only_bind (only_request henrollments) fun _ => trivial
      split
      · exact hfinish _
      · trivial
    · trivial

theorem only_findCourse (h : φ (.query (.findOne .course (.active courseId)))) :
    (Credentials.findCourse courseId).Only φ :=
  Process.only_bind (only_request h) fun _ => Process.only_ofExcept _

theorem only_enforceKyc {course : schema.Row .course}
    (h : φ (.query (.findOne .kycCustomer stellarPublicKey))) :
    (Credentials.enforceKyc course stellarPublicKey).Only φ := by
  unfold Credentials.enforceKyc
  split
  · refine Process.only_bind (Process.only_bind (only_request h) fun _ => trivial) fun _ => ?_
    split <;> trivial
  · trivial

theorem only_rewardReferrer (hfind : ∀ condition, φ (.findUser condition))
    (hreward : ∀ key, φ (.stellar (.mintReward key 50))) : (rewardReferrer userId).Only φ := by
  refine Process.only_bind (only_request (hfind _)) fun user => ?_
  split
  · trivial
  refine Process.only_bind (only_request (hfind _)) fun referrer => ?_
  split
  · trivial
  · exact only_tryReward (hreward _)

end Scoopdope.Progress
