import Mathlib.Data.List.Nodup
import Mathlib.Data.List.Pairwise
import Mathlib.Order.Lattice
import Scoopdope.Database.Repository

/-!
# Courses: the drip scheduler

`DripSchedulerService.checkUnlockedModules` (`courses/drip-scheduler.service.ts`), which a cron job
calls every minute, and `ModulesService.findJustUnlocked` (`courses/modules.service.ts`). What has
been announced is written down nowhere: a tick announces the modules that were released within the
minute before it, whenever the ticks before it were.

`announced_once_iff`: every module is announced exactly once if and only if exactly one tick falls
within the minute from its release.
-/

namespace Scoopdope.Courses.DripSchedulerService

open Database

/-! ## Entities -/

structure CourseModule where
  id : String
  courseId : String
  title : String
  /-- In milliseconds. -/
  releaseDate : Option Int
deriving DecidableEq

structure Enrollment where
  id : String
  userId : String
  courseId : String

structure User where
  id : String
  email : String
  username : Option String

structure Course where
  id : String
  title : String

abbrev Modules : Type := Repository fun m : CourseModule => m.id

/-- The event `module.unlocked`. -/
structure ModuleUnlocked where
  userId : String
  userEmail : String
  userName : String
  courseId : String
  courseTitle : String
  moduleTitle : String
deriving DecidableEq

/-- When the cron job runs, and what it finds in the database then. -/
structure Tick where
  now : Int
  enrollments : Repository fun e : Enrollment => e.id
  users : Repository fun user : User => user.id
  courses : Repository fun course : Course => course.id

/-! ## The service -/

/-- Between these dates, of which the first is too early. -/
def releasedBetween (oneMinuteAgo now : Int) (mod : CourseModule) : Bool :=
  mod.releaseDate.any fun releaseDate => releaseDate ≤ now && oneMinuteAgo < releaseDate

def findJustUnlocked (now : Int) (modules : Modules) : List CourseModule :=
  let oneMinuteAgo := now - 60000
  modules.find (releasedBetween oneMinuteAgo now)

/-- What is emitted for a module, to each user who is enrolled in its course. -/
def emitted (tick : Tick) (mod : CourseModule) : List ModuleUnlocked :=
  let enrollments := tick.enrollments.find fun e => e.courseId = mod.courseId
  if enrollments.isEmpty then []
  else
    let course := tick.courses.findOne fun course => course.id = mod.courseId
    let users := tick.users.find fun user => (enrollments.map Enrollment.userId).contains user.id
    users.map fun user =>
      { userId := user.id
        userEmail := user.email
        userName := user.username.getD user.email
        courseId := mod.courseId
        courseTitle := (course.map Course.title).getD mod.courseId
        moduleTitle := mod.title }

/-- A module that is announced, with the events. -/
structure Announcement where
  mod : CourseModule
  events : List ModuleUnlocked
deriving DecidableEq

def checkUnlockedModules (modules : Modules) (tick : Tick) : List Announcement :=
  (findJustUnlocked tick.now modules).map fun mod => ⟨mod, emitted tick mod⟩

/-! ## Runs -/

/-- What a run of ticks announces. -/
def announcements (modules : Modules) (ticks : List Tick) : List Announcement :=
  ticks.flatMap (checkUnlockedModules modules)

/-- Every module that was released by the last tick has been announced, and none twice. -/
structure AnnouncedOnce (modules : Modules) (ticks : List Tick) : Prop where
  announced : ∀ mod ∈ modules, ∀ releaseDate, mod.releaseDate = some releaseDate →
    ∀ last ∈ ticks.getLast?, releaseDate ≤ last.now →
      mod ∈ (announcements modules ticks).map Announcement.mod
  once : ((announcements modules ticks).map Announcement.mod).Nodup

/-- The tick is in the minute from the release. -/
def inMinute (releaseDate : Int) (tick : Tick) : Bool :=
  releaseDate ≤ tick.now && tick.now < releaseDate + 60000

/-- The user is enrolled in the course. -/
def Learns (tick : Tick) (userId courseId : String) : Prop :=
  (∃ user ∈ tick.users, user.id = userId) ∧
    ∃ e ∈ tick.enrollments, e.courseId = courseId ∧ e.userId = userId

variable {modules : Modules} {ticks : List Tick} {tick : Tick} {mod : CourseModule}

theorem mem_findJustUnlocked : mod ∈ findJustUnlocked tick.now modules ↔
    mod ∈ modules ∧ ∃ releaseDate, mod.releaseDate = some releaseDate ∧
      inMinute releaseDate tick = true := by
  unfold findJustUnlocked
  rw [Repository.mem_find, releasedBetween, Option.any_eq_true]
  refine and_congr_right fun _ => exists_congr fun releaseDate => and_congr_right fun _ => ?_
  rw [inMinute, Bool.and_eq_true, Bool.and_eq_true, decide_eq_true_iff, decide_eq_true_iff,
    decide_eq_true_iff, sub_lt_iff_lt_add]

/-- A tick announces a module once, if it does. -/
theorem count_checkUnlockedModules {releaseDate : Int} (hmod : mod ∈ modules)
    (hrelease : mod.releaseDate = some releaseDate) :
    ((checkUnlockedModules modules tick).map Announcement.mod).count mod =
      if inMinute releaseDate tick then 1 else 0 := by
  have hmods : (checkUnlockedModules modules tick).map Announcement.mod =
      findJustUnlocked tick.now modules := by
    rw [checkUnlockedModules, List.map_map]
    exact List.map_id _
  have hmem : mod ∈ findJustUnlocked tick.now modules ↔ inMinute releaseDate tick = true := by
    rw [mem_findJustUnlocked]
    constructor
    · rintro ⟨-, releaseDate', hrelease', hin⟩
      cases hrelease.symm.trans hrelease'
      exact hin
    · exact fun hin => ⟨hmod, releaseDate, hrelease, hin⟩
  have hnodup : (findJustUnlocked tick.now modules).Nodup := Repository.nodup_find
  rw [hmods, hnodup.count]
  exact if_congr hmem rfl rfl

/-- A run announces a module at the ticks in the minute from its release. -/
theorem count_announcements {releaseDate : Int} (hmod : mod ∈ modules)
    (hrelease : mod.releaseDate = some releaseDate) :
    ((announcements modules ticks).map Announcement.mod).count mod =
      ticks.countP (inMinute releaseDate) := by
  induction ticks with
  | nil => rfl
  | cons tick ticks ih =>
    change (((checkUnlockedModules modules tick) ++ announcements modules ticks).map
      Announcement.mod).count mod = _
    rw [List.map_append, List.count_append, ih, count_checkUnlockedModules hmod hrelease,
      List.countP_cons, Nat.add_comm]

theorem mem_of_announced (h : mod ∈ (announcements modules ticks).map Announcement.mod) :
    mod ∈ modules ∧ ∃ releaseDate, mod.releaseDate = some releaseDate := by
  obtain ⟨announcement, hannouncement, rfl⟩ := List.mem_map.mp h
  obtain ⟨tick, -, htick⟩ := List.mem_flatMap.mp hannouncement
  obtain ⟨mod, hfound, rfl⟩ := List.mem_map.mp htick
  obtain ⟨hmod, releaseDate, hrelease, -⟩ := mem_findJustUnlocked.mp hfound
  exact ⟨hmod, releaseDate, hrelease⟩

/-- The last of increasing ticks is the latest. -/
theorem le_last {last : Tick} (hticks : ticks.Pairwise fun t t' => t.now < t'.now)
    (hlast : last ∈ ticks.getLast?) (htick : tick ∈ ticks) : tick.now ≤ last.now := by
  obtain ⟨earlier, rfl⟩ := List.getLast?_eq_some_iff.mp hlast
  rcases List.mem_append.mp htick with hearlier | hsame
  · exact ((List.pairwise_append.mp hticks).2.2 tick hearlier last
      (List.mem_singleton_self last)).le
  · rw [List.mem_singleton.mp hsame]

/-- Each user who is enrolled gets one event, and nobody else any. -/
structure SentOnce (tick : Tick) (announcement : Announcement) : Prop where
  nodup : (announcement.events.map ModuleUnlocked.userId).Nodup
  learners : ∀ userId, userId ∈ announcement.events.map ModuleUnlocked.userId ↔
    Learns tick userId announcement.mod.courseId

theorem sentOnce_emitted (tick : Tick) (mod : CourseModule) :
    SentOnce tick ⟨mod, emitted tick mod⟩ := by
  let enrollments := tick.enrollments.find fun e => e.courseId = mod.courseId
  let users := tick.users.find fun user => (enrollments.map Enrollment.userId).contains user.id
  have hids : (emitted tick mod).map ModuleUnlocked.userId =
      if enrollments.isEmpty then [] else users.map User.id := by
    unfold emitted
    dsimp only
    split
    next => rfl
    next => rw [List.map_map]; rfl
  have henrolled {userId : String} : userId ∈ enrollments.map Enrollment.userId ↔
      ∃ e ∈ tick.enrollments, e.courseId = mod.courseId ∧ e.userId = userId := by
    simp only [enrollments, List.mem_map, Repository.mem_find, decide_eq_true_iff, and_assoc]
  have husers {userId : String} : userId ∈ users.map User.id ↔
      Learns tick userId mod.courseId := by
    simp only [users, List.mem_map, Repository.mem_find, List.contains_iff_mem, henrolled, Learns]
    constructor
    · rintro ⟨user, ⟨huser, henrolled⟩, rfl⟩
      exact ⟨⟨user, huser, rfl⟩, henrolled⟩
    · rintro ⟨⟨user, huser, rfl⟩, henrolled⟩
      exact ⟨user, ⟨huser, henrolled⟩, rfl⟩
  refine ⟨?_, fun userId => ?_⟩
  · change ((emitted tick mod).map ModuleUnlocked.userId).Nodup
    rw [hids]
    split
    next => exact List.nodup_nil
    next => exact Repository.nodup_find_keys
  · change userId ∈ (emitted tick mod).map ModuleUnlocked.userId ↔ _
    rw [hids]
    split
    next hempty =>
      refine ⟨nofun, fun hlearns => ?_⟩
      have hmem := henrolled.mpr hlearns.2
      rw [List.isEmpty_iff.mp hempty] at hmem
      cases hmem
    next => exact husers

/-- Every module that was released by the last of increasing ticks has been announced, and none
twice, if and only if exactly one tick falls within the minute from each such release; and what is
announced is sent once to each user who is enrolled then. -/
theorem announced_once_iff (modules : Modules) (ticks : List Tick)
    (hticks : ticks.Pairwise fun t t' => t.now < t'.now) :
    (AnnouncedOnce modules ticks ↔
      ∀ mod ∈ modules, ∀ releaseDate, mod.releaseDate = some releaseDate →
        ∀ last ∈ ticks.getLast?, releaseDate ≤ last.now →
          ticks.countP (inMinute releaseDate) = 1) ∧
    ∀ announcement ∈ announcements modules ticks, ∃ tick ∈ ticks, SentOnce tick announcement := by
  refine ⟨⟨?_, ?_⟩, ?_⟩
  · intro h mod hmod releaseDate hrelease last hlast hpassed
    have hannounced := h.announced mod hmod releaseDate hrelease last hlast hpassed
    rw [← count_announcements hmod hrelease]
    exact List.count_eq_one_of_mem h.once hannounced
  · intro h
    refine ⟨?_, ?_⟩
    · intro mod hmod releaseDate hrelease last hlast hpassed
      rw [← List.count_pos_iff, count_announcements hmod hrelease,
        h mod hmod releaseDate hrelease last hlast hpassed]
      exact Nat.zero_lt_one
    · rw [List.nodup_iff_count_le_one]
      intro mod
      by_cases hannounced : mod ∈ (announcements modules ticks).map Announcement.mod
      · obtain ⟨hmod, releaseDate, hrelease⟩ := mem_of_announced hannounced
        rw [← List.count_pos_iff, count_announcements hmod hrelease,
          List.countP_pos_iff] at hannounced
        obtain ⟨tick, htick, hin⟩ := hannounced
        have hpassed : releaseDate ≤ tick.now := of_decide_eq_true (Bool.and_eq_true_iff.mp hin).1
        cases hlast : ticks.getLast? with
        | none =>
          rw [List.getLast?_eq_none_iff.mp hlast] at htick
          cases htick
        | some last =>
          rw [count_announcements hmod hrelease]
          exact (h mod hmod releaseDate hrelease last hlast
            (hpassed.trans (le_last hticks hlast htick))).le
      · rw [List.count_eq_zero_of_not_mem hannounced]
        exact Nat.zero_le 1
  · intro announcement hannouncement
    obtain ⟨tick, htick, hmem⟩ := List.mem_flatMap.mp hannouncement
    obtain ⟨mod, -, rfl⟩ := List.mem_map.mp hmem
    exact ⟨tick, htick, sentOnce_emitted tick mod⟩

/-- A learner of one course. -/
def exampleTick (now : Int) : Tick where
  now := now
  enrollments := Repository.empty.save ⟨"e1", "ana", "soroban"⟩
  users := Repository.empty.save ⟨"ana", "ana@example.com", none⟩
  courses := Repository.empty.save ⟨"soroban", "Soroban"⟩

def exampleModule (id : String) (releaseDate : Int) : CourseModule :=
  ⟨id, "soroban", "Storage", some releaseDate⟩

/-- The job runs every minute on the minute, and the module is released at half past. -/
theorem announced_once_iff_punctual :
    AnnouncedOnce (Repository.empty.save (exampleModule "m1" 30000))
      [exampleTick 0, exampleTick 60000, exampleTick 120000] := by
  refine (announced_once_iff _ _ (by decide)).1.mpr ?_
  intro mod hmod releaseDate hrelease last hlast hpassed
  rcases Repository.mem_save.mp hmod with rfl | ⟨hempty, -⟩
  · cases hrelease
    decide
  · exact absurd hempty Repository.not_mem_empty

/-- The job runs every minute, but 50 ms late, 10 ms late and 50 ms late. One module is released
20 ms into the first minute, and one 15 ms into the second. -/
theorem drip_announcements_drift :
    ([exampleTick 50, exampleTick 60010, exampleTick 120050].Pairwise
      fun t t' => t.now < t'.now) ∧
    ((announcements ((Repository.empty.save (exampleModule "m1" 20)).save
      (exampleModule "m2" 60015)) [exampleTick 50, exampleTick 60010, exampleTick 120050]).map
        Announcement.mod) = [exampleModule "m1" 20, exampleModule "m1" 20] ∧
    ¬ AnnouncedOnce ((Repository.empty.save (exampleModule "m1" 20)).save
      (exampleModule "m2" 60015)) [exampleTick 50, exampleTick 60010, exampleTick 120050] := by
  have hannounced : ((announcements ((Repository.empty.save (exampleModule "m1" 20)).save
      (exampleModule "m2" 60015)) [exampleTick 50, exampleTick 60010, exampleTick 120050]).map
        Announcement.mod) = [exampleModule "m1" 20, exampleModule "m1" 20] := by
    decide +kernel
  refine ⟨by decide, hannounced, fun h => ?_⟩
  have honce := h.once
  rw [hannounced] at honce
  exact absurd honce (by decide)

end Scoopdope.Courses.DripSchedulerService
