import Scoopdope.Progress.Service
import Scoopdope.Soroban.History

/-!
# Progress: what a call records

`store_ok` and `store_error`: whether a call of `record` comes past its `save` (`Stores`), and the
row that it writes (`written`). `recorded_of_stores`: what a whole call makes of the table.
`recorded_enrollments`: it leaves the enrollments alone.
-/

namespace Scoopdope.Progress

open Async Database Server Learning Soroban

variable {around : Surroundings} {s s' : State} {userId stellarPublicKey : String}
  {dto : RecordProgressDto}

/-! ## The streak -/

section Activity

variable {user : Users.User}

theorem recordActivity_tables (around : Surroundings) (s : State) (userId : String) :
    ((Streaks.recordActivity userId).run handle around s).2.tables = s.tables :=
  run_spares_all fun _ => only_recordActivity trivial (fun _ => trivial) fun _ _ _ => trivial

theorem findUser_eq (s : State) (userId : String) :
    s.users.findOne (Users.Where.id userId).holds = s.users.get userId :=
  Repository.findOne_key fun _ => decide_eq_true_iff

theorem visited_kept (user : Users.User) (now : Int) :
    (Streaks.visited user now).1 .id = user .id ∧
      (Streaks.visited user now).1 .referredBy = user .referredBy ∧
      (Streaks.visited user now).1 .stellarPublicKey = user .stellarPublicKey := by
  have hstreak (currentStreak : Int) : (Streaks.withStreak user currentStreak now) .id = user .id ∧
      (Streaks.withStreak user currentStreak now) .referredBy = user .referredBy ∧
      (Streaks.withStreak user currentStreak now) .stellarPublicKey = user .stellarPublicKey := by
    unfold Streaks.withStreak
    split <;> exact ⟨rfl, rfl, rfl⟩
  unfold Streaks.visited
  split
  · exact hstreak 1
  · split
    · exact ⟨rfl, rfl, rfl⟩
    · split
      · exact hstreak _
      · exact hstreak 1

/-- The request writes no user. -/
def KeepsUsers (q : Request) : Prop := ∀ user, q ≠ .saveUser user

variable (around s) in
theorem run_users {A : Type} {p : Method A} (hp : p.Only KeepsUsers) :
    (p.run handle around s).2.users = s.users :=
  Process.run_preserves (fun s : State => s.users) (fun _ _ h => handle_users h) hp

/-- A reward never fails. -/
theorem tryReward_ok {recipientPublicKey : String} {amount : Nat} :
    ∃ s', (Streaks.tryReward recipientPublicKey amount).run handle around s = (.ok (), s') := by
  unfold Streaks.tryReward
  rcases h : Process.run handle around s
    (stellar (.mintReward recipientPublicKey amount) >>= fun _ => pure ()) with ⟨x | _, s'⟩
  · exact ⟨s', Process.run_tryCatch_of_error h _⟩
  · exact ⟨s', Process.run_tryCatch_of_ok h _⟩

theorem checkMilestones_ok (around : Surroundings) (s : State) (user : Users.User) :
    ∃ s', (Streaks.checkMilestones user).run handle around s = (.ok (), s') := by
  unfold Streaks.checkMilestones
  split
  · exact tryReward_ok
  · exact ⟨s, rfl⟩

theorem checkMilestones_keeps (user : Users.User) :
    (Streaks.checkMilestones user).Only KeepsUsers := by
  unfold Streaks.checkMilestones
  split
  · exact only_tryReward nofun
  · trivial

theorem respond_saveUser :
    respond around s (.saveUser user) =
      if Users.conflicts s.users user then (false, s)
      else (true, { s with users := s.users.save user }) := rfl

theorem saveUser_ok {saved : Users.User} :
    (Streaks.saveUser user).run handle around s = (.ok saved, s') ↔
      around.fails (.saveUser user) = none ∧ Users.conflicts s.users user = false ∧
        user = saved ∧ { s with users := s.users.save user } = s' := by
  unfold Streaks.saveUser
  rw [Process.run_bind_ok]
  constructor
  · rintro ⟨answer, s₁, hrequest, hrest⟩
    obtain ⟨hsaved, hanswer, hstate⟩ := request_ok.mp hrequest
    cases hunique : Users.conflicts s.users user with
    | true =>
      have hfalse : answer = false := hanswer.symm.trans (by rw [respond_saveUser, hunique]; rfl)
      rw [hfalse] at hrest
      cases hrest
    | false =>
      rw [respond_saveUser, hunique] at hanswer hstate
      rw [← hanswer] at hrest
      cases hrest
      exact ⟨hsaved, rfl, rfl, hstate⟩
  · rintro ⟨hsaved, hunique, rfl, rfl⟩
    refine ⟨true, _, request_ok.mpr ⟨hsaved, ?_, ?_⟩, rfl⟩
    · rw [respond_saveUser, hunique]
      rfl
    · rw [respond_saveUser, hunique]
      rfl

theorem saveUser_error {x : HttpException}
    (h : (Streaks.saveUser user).run handle around s = (.error x, s')) : s' = s := by
  rw [Streaks.saveUser, Process.run_bind] at h
  rcases hrequest : (request (.saveUser user)).run handle around s with ⟨x' | written, s₁⟩
  · rw [hrequest] at h
    cases h
    exact (request_error.mp hrequest).2
  · rw [hrequest] at h
    obtain ⟨-, hwritten, hstate⟩ := request_ok.mp hrequest
    rw [respond_saveUser] at hwritten hstate
    cases hunique : Users.conflicts s.users user with
    | true =>
      rw [hunique] at hstate
      cases written <;> cases h
      exact hstate.symm
    | false =>
      rw [hunique] at hwritten
      cases hwritten
      cases h

/-- The activity of the user is recorded. -/
structure Active (around : Surroundings) (s : State) (userId : String) (user : Users.User) :
    Prop where
  lookedUp : around.fails (.findUser (.id userId)) = none
  found : s.users.findOne (Users.Where.id userId).holds = some user
  saved : around.fails (.saveUser (Streaks.visited user around.now).1) = none
  unique : Users.conflicts s.users (Streaks.visited user around.now).1 = false

/-- The user is visited; milestones are checked after that. -/
theorem recordActivity_of_active (h : Active around s userId user) :
    ∃ s', (Streaks.recordActivity userId).run handle around s =
        (.ok (Streaks.visited user around.now).1, s') ∧
      s'.users = s.users.save (Streaks.visited user around.now).1 := by
  have hfind : (request (.findUser (.id userId))).run handle around s = (.ok (some user), s) :=
    request_ok.mpr ⟨h.lookedUp, h.found, rfl⟩
  have hsave := saveUser_ok.mpr ⟨h.saved, h.unique, rfl, rfl⟩
  unfold Streaks.recordActivity
  rw [Process.run_bind_of_ok hfind]
  change ∃ s', (Streaks.saveUser _ >>= _ : Method Users.User).run handle around s = _ ∧ _
  rw [Process.run_bind_of_ok hsave]
  -- On the first activity of a day milestones are checked; a failed reward is only logged.
  cases (Streaks.visited user around.now).2 with
  | true =>
    rw [if_pos rfl]
    obtain ⟨s', hcheck⟩ := checkMilestones_ok around
      { s with users := s.users.save (Streaks.visited user around.now).1 }
      (Streaks.visited user around.now).1
    refine ⟨s', Process.run_bind_of_ok hcheck _, ?_⟩
    have husers := run_users around
      { s with users := s.users.save (Streaks.visited user around.now).1 }
      (checkMilestones_keeps (Streaks.visited user around.now).1)
    rwa [hcheck] at husers
  | false => exact ⟨_, rfl, rfl⟩

/-- Otherwise the call fails and changes nothing. -/
theorem recordActivity_of_not_active (h : ¬ ∃ user, Active around s userId user) :
    ∃ x, (Streaks.recordActivity userId).run handle around s = (.error x, s) := by
  unfold Streaks.recordActivity
  rcases hfind : (request (.findUser (.id userId))).run handle around s with ⟨x | found, s₁⟩
  · rw [Process.run_bind_of_error hfind, (request_error.mp hfind).2]
    exact ⟨x, rfl⟩
  obtain ⟨hlookedUp, hfound, rfl⟩ := request_ok.mp hfind
  rw [Process.run_bind_of_ok hfind]
  cases found with
  | none => exact ⟨_, rfl⟩
  | some user =>
    change ∃ x, (Streaks.saveUser (Streaks.visited user around.now).1 >>= _ :
      Method Users.User).run handle around s = _
    rcases hsave : (Streaks.saveUser (Streaks.visited user around.now).1).run handle around s with
      ⟨x | saved, s₂⟩
    · rw [Process.run_bind_of_error hsave, saveUser_error hsave]
      exact ⟨x, rfl⟩
    · obtain ⟨hsaved, hunique, -, -⟩ := saveUser_ok.mp hsave
      exact absurd ⟨user, hlookedUp, hfound, hsaved, hunique⟩ h

theorem recordActivity_ok :
    (∃ user s', (Streaks.recordActivity userId).run handle around s = (.ok user, s')) ↔
      ∃ user, Active around s userId user := by
  constructor
  · rintro ⟨saved, s', hok⟩
    by_contra h
    obtain ⟨x, herror⟩ := recordActivity_of_not_active h
    rw [hok] at herror
    cases herror
  · rintro ⟨user, h⟩
    obtain ⟨s', hok, -⟩ := recordActivity_of_active h
    exact ⟨_, s', hok⟩

end Activity

/-! ## The row -/

/-- The row of the user and the course. -/
def current (s : State) (userId courseId : String) : Option (schema.Row .progress) :=
  (s.tables .progress).findOne (schema.holds .progress (.pair userId courseId))

/-- The columns with the hash of `recordProgress`, unless that fails. -/
def anchored (around : Surroundings) (stellarPublicKey : String) (dto : RecordProgressDto)
    (progress : Learning.Progress) : Learning.Progress :=
  let call := ChainCall.recordProgress stellarPublicKey dto.courseId dto.progressPct
  match around.fails (.stellar call) with
  | none => { progress with txHash := some (around.hash call) }
  | some _ => progress

/-- The columns that are saved. -/
def columns (around : Surroundings) (s : State) (userId : String) (dto : RecordProgressDto)
    (stellarPublicKey : String) : Learning.Progress :=
  anchored around stellarPublicKey dto
    (updated (current s userId dto.courseId) userId dto around.now)

/-- The row that is saved. -/
def written (around : Surroundings) (s : State) (userId : String) (dto : RecordProgressDto)
    (stellarPublicKey : String) : schema.Row .progress :=
  match current s userId dto.courseId with
  | none => Schema.inserted around.toGenerated (columns around s userId dto stellarPublicKey)
  | some row =>
    { row with
      updatedAt := around.now
      data := columns around s userId dto stellarPublicKey }

/-- The row that is found keeps its key. -/
theorem written_of_current {row : schema.Row .progress}
    (h : current s userId dto.courseId = some row) :
    written around s userId dto stellarPublicKey =
      { row with
        updatedAt := around.now
        data := columns around s userId dto stellarPublicKey } := by
  unfold written
  rw [h]

theorem written_data : (written around s userId dto stellarPublicKey).data =
    columns around s userId dto stellarPublicKey := by
  unfold written
  split <;> rfl

/-- What the hash does not change. -/
theorem columns_eq (around : Surroundings) (s : State) (userId stellarPublicKey : String)
    (dto : RecordProgressDto) :
    ∃ txHash, columns around s userId dto stellarPublicKey =
      { updated (current s userId dto.courseId) userId dto around.now with txHash } := by
  unfold columns anchored
  dsimp only
  split
  · exact ⟨_, rfl⟩
  · exact ⟨_, rfl⟩

/-- The row can be written: its insertion does not fail and its key is new, or its `save` does not
fail. -/
def Writable (around : Surroundings) (s : State) (userId : String) (dto : RecordProgressDto)
    (stellarPublicKey : String) : Prop :=
  let progress := columns around s userId dto stellarPublicKey
  match current s userId dto.courseId with
  | none => around.fails (.query (.insert .progress progress)) = none ∧
      (s.tables .progress).get (around.key .progress progress) = none
  | some row => around.fails (.query (.save .progress { row with data := progress })) = none

/-- The call comes past its `save`. -/
structure Stores (around : Surroundings) (s : State) (userId : String) (dto : RecordProgressDto)
    (stellarPublicKey : String) : Prop where
  active : ∃ user, Active around s userId user
  lookedUp : around.fails (.query (.findOne .progress (.pair userId dto.courseId))) = none
  writable : Writable around s userId dto stellarPublicKey

theorem recordOnChain_ok (around : Surroundings) (s : State) (stellarPublicKey : String)
    (dto : RecordProgressDto) (progress : Learning.Progress) :
    ∃ s', (recordOnChain stellarPublicKey dto progress).run handle around s =
        (.ok (anchored around stellarPublicKey dto progress), s') ∧ s'.tables = s.tables := by
  unfold recordOnChain anchored
  cases hcall : around.fails
      (.stellar (.recordProgress stellarPublicKey dto.courseId dto.progressPct)) with
  | none =>
    obtain ⟨s₁, hrun, hs₁⟩ : ∃ s₁,
        (stellar (.recordProgress stellarPublicKey dto.courseId dto.progressPct)).run handle
          around s = (.ok (around.hash _), s₁) ∧ s₁.tables = s.tables :=
      ⟨_, stellar_of_none hcall, rfl⟩
    refine ⟨s₁, Process.run_tryCatch_of_ok ((Process.run_bind_of_ok hrun _).trans ?_) _, hs₁⟩
    dsimp only
    rw [hcall]
    rfl
  -- A failure on the chain is only logged.
  | some x =>
    have hrun := stellar_of_some (s := s) hcall
    refine ⟨s, (Process.run_tryCatch_of_error (Process.run_bind_of_error hrun _) _).trans ?_, rfl⟩
    dsimp only
    rw [hcall]
    rfl

/-- Rows of progress break no constraint. -/
theorem not_conflicts {rows : schema.Rows .progress} {row : schema.Row .progress} :
    Schema.conflicts rows row = false :=
  conflicts_eq_false.mpr fun _ _ _ => rfl

theorem put_ok (hs : s'.tables = s.tables) (h : Writable around s userId dto stellarPublicKey) :
    (put (current s userId dto.courseId) (columns around s userId dto stellarPublicKey)).run handle
        around s' =
      (.ok (written around s userId dto stellarPublicKey),
        s'.put .progress ((s.tables .progress).save
          (written around s userId dto stellarPublicKey))) := by
  unfold Writable at h
  unfold put written
  rw [← hs]
  cases hcurrent : current s userId dto.courseId with
  | none =>
    rw [hcurrent] at h
    exact insert_ok.mpr ⟨h.1, rfl, by rw [hs]; exact h.2, not_conflicts, rfl⟩
  | some row =>
    rw [hcurrent] at h
    exact save_ok.mpr ⟨h, rfl, not_conflicts, rfl⟩

theorem put_error (hs : s'.tables = s.tables)
    (h : ¬ Writable around s userId dto stellarPublicKey) :
    ∃ x, (put (current s userId dto.courseId)
        (columns around s userId dto stellarPublicKey)).run handle around s' = (.error x, s') := by
  unfold Writable at h
  unfold put
  cases hcurrent : current s userId dto.courseId with
  | none =>
    rw [hcurrent] at h
    rcases hrun : (insert .progress (columns around s userId dto stellarPublicKey)).run handle
      around s' with ⟨x | row, s₁⟩
    · cases insert_error hrun
      exact ⟨x, hrun⟩
    · obtain ⟨hsaved, rfl, hnew, -, -⟩ := insert_ok.mp hrun
      rw [hs] at hnew
      exact absurd ⟨hsaved, hnew⟩ h
  | some row =>
    rw [hcurrent] at h
    let row' := { row with data := columns around s userId dto stellarPublicKey }
    rcases hrun : (save .progress row').run handle around s' with ⟨x | saved, s₁⟩
    · cases save_error hrun
      exact ⟨x, hrun⟩
    · exact absurd (save_ok.mp hrun).1 h

/-- The part before the row is written. -/
theorem run_store (hactive : ∃ user, Active around s userId user)
    (hlookedUp : around.fails (.query (.findOne .progress (.pair userId dto.courseId))) = none) :
    ∃ s', s'.tables = s.tables ∧ (store userId dto stellarPublicKey).run handle around s =
      (put (current s userId dto.courseId)
        (columns around s userId dto stellarPublicKey)).run handle around s' := by
  obtain ⟨user, s₁, hactivity⟩ := recordActivity_ok.mpr hactive
  have hs₁ : s₁.tables = s.tables := by
    have htables := recordActivity_tables around s userId
    rwa [hactivity] at htables
  have hcurrent : (s₁.tables .progress).findOne
      (schema.holds .progress (.pair userId dto.courseId)) = current s userId dto.courseId := by
    rw [hs₁]
    rfl
  obtain ⟨s₂, hrecorded, hs₂⟩ := recordOnChain_ok around s₁ stellarPublicKey dto
    (updated (current s userId dto.courseId) userId dto around.now)
  refine ⟨s₂, hs₂.trans hs₁, ?_⟩
  unfold store
  rw [Process.run_bind_of_ok hactivity, Process.run_bind_of_ok (findOne_of_none hlookedUp),
    hcurrent]
  exact Process.run_bind_of_ok hrecorded _

theorem store_ok (h : Stores around s userId dto stellarPublicKey) :
    ∃ s', (store userId dto stellarPublicKey).run handle around s =
        (.ok (written around s userId dto stellarPublicKey), s') ∧
      s'.tables = Function.update s.tables .progress
        ((s.tables .progress).save (written around s userId dto stellarPublicKey)) := by
  obtain ⟨s', hs, hrun⟩ := run_store h.active h.lookedUp
  exact ⟨_, hrun.trans (put_ok hs h.writable), congrArg (Function.update · _ _) hs⟩

theorem store_error (h : ¬ Stores around s userId dto stellarPublicKey) :
    ∃ x s', (store userId dto stellarPublicKey).run handle around s = (.error x, s') ∧
      s'.tables = s.tables := by
  by_cases hactive : ∃ user, Active around s userId user
  · cases hlookedUp : around.fails (.query (.findOne .progress (.pair userId dto.courseId))) with
    | none =>
      obtain ⟨s', hs, hrun⟩ := run_store hactive hlookedUp
      obtain ⟨x, herror⟩ := put_error hs fun hwritable => h ⟨hactive, hlookedUp, hwritable⟩
      exact ⟨x, s', hrun.trans herror, hs⟩
    | some x =>
      obtain ⟨user, s₁, hactivity⟩ := recordActivity_ok.mpr hactive
      have hs₁ := recordActivity_tables around s userId
      rw [hactivity] at hs₁
      refine ⟨x, s₁, ?_, hs₁⟩
      exact (Process.run_bind_of_ok hactivity _).trans
        (Process.run_bind_of_error (findOne_of_some hlookedUp) _)
  · rcases hactivity : (Streaks.recordActivity userId).run handle around s with ⟨x | user, s₁⟩
    · have hs₁ := recordActivity_tables around s userId
      rw [hactivity] at hs₁
      exact ⟨x, s₁, Process.run_bind_of_error hactivity _, hs₁⟩
    · exact absurd (recordActivity_ok.mp ⟨user, s₁, hactivity⟩) hactive

/-! ## The call -/

section Call

variable {t : Entity} {courseId : String}

theorem updateProgress_spares (hbundle : t ≠ .bundleEnrollment) (hcredential : t ≠ .credential) :
    (Bundles.updateProgress userId courseId).Only (Request.Spares t) := by
  have hsave (row : schema.Row .bundleEnrollment) :
      Request.Spares t (.query (.save .bundleEnrollment row)) :=
    fun hwrites => hbundle (Option.some.inj hwrites).symm
  have hinsert (data : Credential) : Request.Spares t (.query (.insert .credential data)) :=
    fun hwrites => hcredential (Option.some.inj hwrites).symm
  exact only_updateProgress trivial nofun hsave trivial fun bundleId key =>
    only_issueBundle nofun trivial trivial hinsert

theorem issue_spares (hcredential : t ≠ .credential) :
    (Credentials.issue userId courseId stellarPublicKey).Only (Request.Spares t) := by
  have hinsert (data : Credential) : Request.Spares t (.query (.insert .credential data)) :=
    fun hwrites => hcredential (Option.some.inj hwrites).symm
  refine Process.only_bind (only_request nofun) fun existing => ?_
  split
  · trivial
  refine Process.only_bind (only_findCourse nofun) fun course => ?_
  refine Process.only_bind (only_enforceKyc nofun) fun _ => ?_
  refine Process.only_bind (only_request trivial) fun txHash => ?_
  exact Process.only_bind (only_tryReward trivial) fun _ => only_insert (hinsert _)

theorem complete_spares (hbundle : t ≠ .bundleEnrollment) (hcredential : t ≠ .credential) :
    (complete userId courseId stellarPublicKey).Only (Request.Spares t) := by
  refine Process.only_bind (updateProgress_spares hbundle hcredential) fun _ => ?_
  refine Process.only_bind (issue_spares hcredential) fun _ => ?_
  refine Process.only_bind (only_request trivial) fun _ => ?_
  refine Process.only_bind (only_request nofun) fun completed => ?_
  split
  · exact only_rewardReferrer (fun _ => trivial) fun _ => trivial
  · trivial

end Call

/-- The state after a call. -/
def recorded (around : Surroundings) (s : State) (userId : String) (dto : RecordProgressDto)
    (stellarPublicKey : String) : State :=
  ((record userId dto stellarPublicKey).run handle around s).2

theorem recorded_of_stores (h : Stores around s userId dto stellarPublicKey) {t : Entity}
    (hbundle : t ≠ .bundleEnrollment) (hcredential : t ≠ .credential) :
    (recorded around s userId dto stellarPublicKey).tables t =
      Function.update s.tables .progress
        ((s.tables .progress).save (written around s userId dto stellarPublicKey)) t := by
  obtain ⟨s', hstore, htables⟩ := store_ok h
  unfold recorded record
  rw [Process.run_bind_of_ok hstore, ← htables]
  refine run_spares ?_
  split
  · exact Process.only_bind (complete_spares hbundle hcredential) fun _ => trivial
  · trivial

theorem recorded_progress (h : Stores around s userId dto stellarPublicKey) :
    (recorded around s userId dto stellarPublicKey).tables .progress =
      (s.tables .progress).save (written around s userId dto stellarPublicKey) := by
  have hrecorded := recorded_of_stores (t := .progress) h nofun nofun
  exact hrecorded.trans (Function.update_self _ _ _)

theorem recorded_of_not_stores (h : ¬ Stores around s userId dto stellarPublicKey) :
    (recorded around s userId dto stellarPublicKey).tables = s.tables := by
  obtain ⟨x, s', hstore, htables⟩ := store_error h
  unfold recorded record
  rw [Process.run_bind_of_error hstore]
  exact htables

theorem recorded_enrollments (around : Surroundings) (s : State) (userId : String)
    (dto : RecordProgressDto) (stellarPublicKey : String) :
    (recorded around s userId dto stellarPublicKey).tables .enrollment = s.tables .enrollment := by
  by_cases h : Stores around s userId dto stellarPublicKey
  · have hrecorded := recorded_of_stores (t := .enrollment) h nofun nofun
    have hne : Entity.enrollment ≠ .progress := nofun
    exact hrecorded.trans (Function.update_of_ne hne _ _)
  · rw [recorded_of_not_stores h]

/-! ## Runs -/

structure Call where
  userId : String
  dto : RecordProgressDto
  stellarPublicKey : String

def step (s : State) (i : Surroundings × Call) : State :=
  recorded i.1 s i.2.userId i.2.dto i.2.stellarPublicKey

def exec (s : State) (i : Surroundings × Call) : Outcome State := .ok (step s i)

/-- The state after a run of calls, one after another. -/
abbrev reached (s₀ : State) (past : List (Surroundings × Call)) : State := after exec s₀ past

/-- The call comes past its `save`. -/
def Recorded (s : State) (i : Surroundings × Call) : Prop :=
  Stores i.1 s i.2.userId i.2.dto i.2.stellarPublicKey

/-- The call takes the branch at 100 percent. -/
def Completes (s : State) (i : Surroundings × Call) : Prop :=
  Recorded s i ∧ 100 ≤ i.2.dto.progressPct

end Scoopdope.Progress
