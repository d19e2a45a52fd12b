import Scoopdope.Learning.Runs
import Scoopdope.Progress.Service

/-!
# Credentials: the stages of a call

Two callers issue the credential of a course: `record` of `ProgressService` at 100 percent, and
`handleAnalyticsCompleted` of the indexer. `issue` looks the credential up, issues it on the chain,
mints the reward and inserts a row. `protocol` says so, and that all else a call does is
`Harmless`; `follows_start` that every call keeps to it.
-/

namespace Scoopdope.Credentials

open Async Database Server Learning

/-- `handleAnalyticsCompleted` of the indexer, for the student and the course of the event. The
notification is left out. -/
def handleAnalyticsCompleted (studentPublicKey courseId : String) : Method Unit :=
  match Streaks.truthy (some studentPublicKey), Streaks.truthy (some courseId) with
  | some studentPublicKey, some courseId => do
    let user ← request (.findUser (.stellarPublicKey studentPublicKey))
    match user with
    | none => pure ()
    | some user => do
      let _ ← issue (user .id) courseId studentPublicKey
      pure ()
  | _, _ => pure ()

inductive Call
  | record (userId : String) (dto : Progress.RecordProgressDto) (stellarPublicKey : String)
  | handleAnalyticsCompleted (studentPublicKey courseId : String)

def Call.start : Call → Method Unit
  | .record userId dto stellarPublicKey =>
    Progress.record userId dto stellarPublicKey >>= fun _ => pure ()
  | .handleAnalyticsCompleted studentPublicKey courseId =>
    Credentials.handleAnalyticsCompleted studentPublicKey courseId

/-- Neither looks up nor issues the credential of a course, nor mints the reward of one. -/
def Harmless : Request → Prop
  | .query (.findOne .credential (.course _ _)) => False
  | .stellar (.issueCredential _ _ metadata) => metadata = none
  | .stellar (.mintReward _ amount) => amount ≠ 100
  | _ => True

inductive Stage
  | beginning
  /-- No credential of the user and the course was found. -/
  | checked (userId courseId : String)
  | issued
  | rewarded
  | finished

namespace Stage

def Allows : Stage → Request → Prop
  | beginning, q =>
    Harmless q ∨ ∃ userId courseId, q = .query (.findOne .credential (.course userId courseId))
  | checked _ _, q =>
    Harmless q ∨
      ∃ key courseId metadata, q = .stellar (.issueCredential key courseId (some metadata))
  | issued, q => ∃ key, q = .stellar (.mintReward key 100)
  | rewarded, q => ∃ credential, q = .query (.insert .credential credential)
  | finished, q => Harmless q

/-- Where an answer to a lookup, an issue or a reward leads. -/
def next : Stage → (q : Request) → Except HttpException q.value → Stage
  | beginning, .query (.findOne .credential (.course userId courseId)), .ok none =>
    checked userId courseId
  | beginning, .query (.findOne .credential (.course _ _)), _ => finished
  | checked _ _, .stellar (.issueCredential _ _ (some _)), .ok _ => issued
  | checked _ _, .stellar (.issueCredential _ _ (some _)), .error _ => finished
  | issued, _, _ => rewarded
  | rewarded, _, _ => finished
  | stage, _, _ => stage

end Stage

def protocol : Protocol learningInterface Stage where
  Allows := Stage.Allows
  next := Stage.next

/-! ## Harmless methods -/

section Harmless

variable {userId courseId stellarPublicKey : String}

theorem milestones_reward : ∀ m ∈ Streaks.milestones, m.2 ≠ 100 := by decide

theorem store_harmless {dto : Progress.RecordProgressDto} :
    (Progress.store userId dto stellarPublicKey).Only Harmless :=
  Progress.only_store
    (Progress.only_recordActivity trivial (fun _ => trivial) fun _ => milestones_reward)
    trivial trivial (fun _ => trivial) fun _ => trivial

/-- A bundle has a credential of its own, and a reward of 500. -/
theorem updateProgress_harmless : (Bundles.updateProgress userId courseId).Only Harmless := by
  have hother : 500 ≠ 100 := by decide
  exact Progress.only_updateProgress trivial trivial (fun _ => trivial) trivial fun bundleId key =>
    Progress.only_issueBundle trivial rfl hother fun _ => trivial

theorem rewardReferrer_harmless : (Progress.rewardReferrer userId).Only Harmless := by
  have hother : 50 ≠ 100 := by decide
  exact Progress.only_rewardReferrer (fun _ => trivial) fun _ => hother

end Harmless

/-! ## The calls -/

section Follows

variable {userId courseId stellarPublicKey : String}

/-- Harmless requests lead to no other stage. -/
theorem next_harmless (stage : Stage) {q : Request} (hstage : stage ≠ .issued ∧ stage ≠ .rewarded)
    (h : Harmless q) : stage.Allows q ∧ ∀ answer, stage.next q answer = stage := by
  have hnext (answer : Except HttpException q.value) : stage.next q answer = stage := by
    unfold Stage.next
    split
    · exact h.elim
    · exact h.elim
    · cases h
    · cases h
    · exact absurd rfl hstage.1
    · exact absurd rfl hstage.2
    · rfl
  cases stage with
  | beginning => exact ⟨.inl h, hnext⟩
  | checked userId courseId => exact ⟨.inl h, hnext⟩
  | issued => exact absurd rfl hstage.1
  | rewarded => exact absurd rfl hstage.2
  | finished => exact ⟨h, hnext⟩

theorem follows_harmless {A : Type} {p : Method A} (stage : Stage)
    (hstage : stage ≠ .issued ∧ stage ≠ .rewarded) (hp : p.Only Harmless) :
    p.Follows protocol (fun stage' _ => stage' = stage) (fun _ _ => True) stage :=
  (Process.follows_of_only (fun _ h => next_harmless stage hstage h) hp).mono (fun _ _ h => h)
    fun _ _ _ => trivial

theorem follows_mint (course : schema.Row .course) :
    (mint userId courseId stellarPublicKey course).Follows protocol
      (fun stage _ => stage = .finished) (fun _ _ => True) (.checked userId courseId) := by
  unfold mint
  refine Process.follows_bind (fun stage _ => stage = .issued) ?_ ?_
  · exact follows_request (.inr ⟨_, _, _, rfl⟩) (fun _ => rfl) fun _ => trivial
  rintro stage txHash rfl
  refine Process.follows_bind (fun stage _ => stage = Stage.rewarded) ?_ ?_
  · refine Process.follows_tryCatch (fun stage _ => stage = Stage.rewarded) ?_ fun _ _ h => h
    refine Process.follows_bind (fun stage _ => stage = Stage.rewarded) ?_ fun _ _ h => h
    exact follows_request ⟨_, rfl⟩ (fun _ => rfl) fun _ => rfl
  rintro stage _ rfl
  exact follows_insert ⟨_, rfl⟩ (fun _ => rfl) (fun _ => trivial) trivial

theorem follows_issue :
    (issue userId courseId stellarPublicKey).Follows protocol
      (fun stage _ => stage = .finished) (fun _ _ => True) .beginning := by
  unfold issue
  refine Process.follows_bind (fun stage existing => stage =
    match existing with
    | none => .checked userId courseId
    | some _ => .finished) ?_ ?_
  · exact follows_request (.inr ⟨_, _, rfl⟩)
      (fun existing => by cases existing <;> rfl) fun _ => trivial
  rintro stage (- | existing) rfl
  · have hcourse : (findCourse courseId).Only Harmless := Progress.only_findCourse trivial
    refine Process.follows_bind _ (follows_harmless _ ⟨nofun, nofun⟩ hcourse) ?_
    rintro stage course rfl
    have hkyc : (enforceKyc course stellarPublicKey).Only Harmless :=
      Progress.only_enforceKyc trivial
    refine Process.follows_bind _ (follows_harmless _ ⟨nofun, nofun⟩ hkyc) ?_
    rintro stage _ rfl
    exact follows_mint course
  · rfl

theorem follows_record (dto : Progress.RecordProgressDto) :
    (Progress.record userId dto stellarPublicKey).Follows protocol (fun _ _ => True)
      (fun _ _ => True) .beginning := by
  unfold Progress.record
  refine Process.follows_bind _ (follows_harmless _ ⟨nofun, nofun⟩ store_harmless) ?_
  rintro stage saved rfl
  split
  · refine Process.follows_bind (fun _ _ => True) ?_ fun _ _ _ => trivial
    unfold Progress.complete
    refine Process.follows_bind _ (follows_harmless _ ⟨nofun, nofun⟩ updateProgress_harmless) ?_
    rintro stage _ rfl
    refine Process.follows_bind _ follows_issue ?_
    rintro stage _ rfl
    refine (follows_harmless .finished ⟨nofun, nofun⟩ ?_).mono (fun _ _ _ => trivial) fun _ _ h => h
    refine Process.only_bind (only_request trivial) fun _ => ?_
    refine Process.only_bind (only_request trivial) fun completed => ?_
    split
    · exact rewardReferrer_harmless
    · trivial
  · trivial

theorem follows_start (call : Call) :
    call.start.Follows protocol (fun _ _ => True) (fun _ _ => True) .beginning := by
  cases call with
  | record userId dto stellarPublicKey =>
    exact Process.follows_bind _ (follows_record dto) fun _ _ _ => trivial
  | handleAnalyticsCompleted studentPublicKey courseId =>
    change (Credentials.handleAnalyticsCompleted studentPublicKey courseId).Follows _ _ _ _
    unfold Credentials.handleAnalyticsCompleted
    split
    · refine Process.follows_bind (fun stage _ => stage = .beginning) ?_ ?_
      · exact follows_request (.inl trivial) (fun _ => rfl) fun _ => trivial
      rintro stage user rfl
      split
      · trivial
      · exact Process.follows_bind _ follows_issue fun _ _ _ => trivial
    · trivial

end Follows

end Scoopdope.Credentials
