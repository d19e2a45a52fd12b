import Scoopdope.Progress.Recording
import Scoopdope.Server.ConsecutiveRuns

/-!
# Streaks: what they count

Runs of `recordActivity`, of any users. A call that fails records nothing.

`streaks_exact`: after every run in which the times of a user do not go back, the current streak is
the longest run of days with activity that ends on the last one, and the longest streak is the
longest run of all.
-/

namespace Scoopdope.Streaks

open Async ConsecutiveRuns Database Server Learning
open Progress (Active findUser_eq recordActivity_of_active recordActivity_of_not_active
  visited_kept)
open Users (User)

/-- The user whose activity is recorded, and what the call finds. -/
abbrev Call : Type := Surroundings × String

/-- The state after a call. -/
def step (s : State) (i : Call) : State := ((recordActivity i.2).run handle i.1 s).2

/-- The call returns the user. -/
def Returns (s : State) (i : Call) : Prop :=
  ((recordActivity i.2).run handle i.1 s).1.isOk = true

instance (s : State) (i : Call) : Decidable (Returns s i) := inferInstanceAs (Decidable (_ = true))

/-- The state after a run of calls, newest first. -/
def reached (s₀ : State) : List Call → State
  | [] => s₀
  | i :: past => step (reached s₀ past) i

/-- The times of the activities of a user, newest first. -/
def activities (s₀ : State) (userId : String) : List Call → List Int
  | [] => []
  | i :: past =>
    if i.2 = userId ∧ Returns (reached s₀ past) i then i.1.now :: activities s₀ userId past
    else activities s₀ userId past

/-- The days with activity. -/
def days (times : List Int) : Set Int := {d | ∃ time ∈ times, day time = d}

/-- The longest run that ends on the day of the last activity. -/
def IsCurrent : List Int → Nat → Prop
  | [], n => n = 0
  | lastActivity :: earlier, n =>
    IsGreatest (endingOn (days (lastActivity :: earlier)) (day lastActivity)) n

/-- The streaks of a user whose activities had these times, newest first. -/
structure Streaked (times : List Int) (user : User) : Prop where
  last : user .lastActivityAt = times.head?
  current : ∃ n : Nat, user .currentStreak = n ∧ IsCurrent times n
  longest : ∃ n : Nat, user .longestStreak = n ∧ IsGreatest (runs (days times)) n

/-! ## One activity -/

variable {times : List Int} {user : User} {now : Int}

theorem day_mono {date date' : Int} (h : date ≤ date') : day date ≤ day date' :=
  Int.ediv_le_ediv (by decide) h

theorem days_cons (now : Int) (times : List Int) :
    days (now :: times) = insert (day now) (days times) := by
  ext d
  simp only [days, List.exists_mem_cons_iff, Set.mem_insert_iff, eq_comm (a := d)]
  rfl

theorem days_nil : days [] = ∅ := Set.eq_empty_of_forall_notMem fun _ ⟨_, h, _⟩ => nomatch h

theorem day_mem_days {time : Int} (h : time ∈ times) : day time ∈ days times := ⟨time, h, rfl⟩

@[simp] theorem withStreak_lastActivityAt (currentStreak : Int) :
    withStreak user currentStreak now .lastActivityAt = some now := by
  unfold withStreak
  split <;> rfl

@[simp] theorem withStreak_currentStreak (currentStreak : Int) :
    withStreak user currentStreak now .currentStreak = currentStreak := by
  unfold withStreak
  split <;> rfl

theorem withStreak_longestStreak (currentStreak : Int) :
    withStreak user currentStreak now .longestStreak = max (user .longestStreak) currentStreak := by
  unfold withStreak
  split
  · next hlonger => exact (max_eq_right (le_of_lt hlonger)).symm
  · next hlonger => exact (max_eq_left (not_lt.mp hlonger)).symm

/-- On a new day the streak goes on from the day before. -/
theorem streaked_withStreak {n : Nat} (h : Streaked times user)
    (hnew : ∀ d ∈ days times, d < day now)
    (hbefore : IsGreatest (endingOn (days times) (day now - 1)) n) :
    Streaked (now :: times) (withStreak user (n + 1 : Nat) now) := by
  obtain ⟨m, hm, hruns⟩ := h.longest
  have hcurrent := isGreatest_endingOn hbefore
  refine ⟨withStreak_lastActivityAt _, ⟨n + 1, withStreak_currentStreak _, ?_⟩,
    max m (n + 1), ?_, ?_⟩
  · rw [IsCurrent, days_cons]
    exact hcurrent
  · rw [withStreak_longestStreak, hm]
    change max (m : Int) (n + 1 : Nat) = (max m (n + 1) : Nat)
    omega
  · rw [days_cons]
    exact isGreatest_runs hnew hruns hcurrent

/-- On the day of the last activity, nothing is counted. -/
theorem streaked_sameDay {lastActivity : Int} (h : Streaked (lastActivity :: times) user)
    (hsame : day now = day lastActivity) :
    Streaked (now :: lastActivity :: times)
      (spread user (Patch.empty.set .lastActivityAt (some now))) := by
  have hdays : days (now :: lastActivity :: times) = days (lastActivity :: times) := by
    rw [days_cons, Set.insert_eq_of_mem (hsame ▸ day_mem_days List.mem_cons_self)]
  obtain ⟨n, hn, hcurrent⟩ := h.current
  refine ⟨rfl, ⟨n, hn, ?_⟩, ?_⟩
  · rw [IsCurrent, hdays, hsame]
    exact hcurrent
  · rw [hdays]
    exact h.longest

theorem streaked_visited (h : Streaked times user)
    (hordered : (now :: times).Pairwise fun later earlier => earlier ≤ later) :
    Streaked (now :: times) (visited user now).1 := by
  have hlast := h.last
  obtain ⟨hnow, hearlier⟩ := List.pairwise_cons.mp hordered
  unfold visited
  cases times with
  | nil =>
    rw [List.head?_nil] at hlast
    rw [hlast]
    refine streaked_withStreak (n := 0) h ?_ ?_
    · rw [days_nil]
      exact fun d hd => absurd hd (Set.notMem_empty d)
    · rw [days_nil]
      exact isGreatest_endingOn_zero (Set.notMem_empty _)
  | cons lastActivity times =>
    rw [List.head?_cons] at hlast
    rw [hlast]
    have hbound : ∀ d ∈ days (lastActivity :: times), d ≤ day lastActivity := by
      rintro d ⟨time, htime, rfl⟩
      rcases List.mem_cons.mp htime with rfl | htime
      · exact le_refl _
      · exact day_mono ((List.pairwise_cons.mp hearlier).1 time htime)
    have hle : day lastActivity ≤ day now := day_mono (hnow _ List.mem_cons_self)
    dsimp only
    split
    · next hsame => exact streaked_sameDay h (of_decide_eq_true hsame)
    · next hsame =>
      have hnew : ∀ d ∈ days (lastActivity :: times), d < day now := fun d hd =>
        lt_of_le_of_lt (hbound d hd) (lt_of_le_of_ne hle fun heq => hsame (decide_eq_true heq.symm))
      obtain ⟨n, hn, hcurrent⟩ := h.current
      split
      · next hyesterday =>
        have hbefore : day now - 1 = day lastActivity := of_decide_eq_true hyesterday
        rw [hn]
        refine streaked_withStreak h hnew ?_
        rw [hbefore]
        exact hcurrent
      · next hyesterday =>
        -- A day was missed: nothing ends on the day before.
        refine streaked_withStreak (n := 0) h hnew (isGreatest_endingOn_zero fun hactive => ?_)
        have hlt := hnew (day lastActivity) (day_mem_days List.mem_cons_self)
        exact hyesterday (decide_eq_true (by
          have hle := hbound _ hactive
          omega))

/-! ## Runs -/

variable {s : State} {s₀ : State} {userId : String} {past : List Call} {i : Call}

/-- What a call makes of the users. -/
theorem step_users (s : State) (i : Call) :
    (Returns s i ∧ ∃ user, s.users.get i.2 = some user ∧
        (step s i).users = s.users.save (visited user i.1.now).1) ∨
      ¬ Returns s i ∧ (step s i).users = s.users := by
  unfold Returns step
  by_cases hactive : ∃ user, Active i.1 s i.2 user
  · obtain ⟨user, hactive⟩ := hactive
    obtain ⟨s', hrun, husers⟩ := recordActivity_of_active hactive
    rw [hrun]
    exact .inl ⟨rfl, user, (findUser_eq s i.2).symm.trans hactive.found, husers⟩
  · obtain ⟨x, hrun⟩ := recordActivity_of_not_active hactive
    rw [hrun]
    exact .inr ⟨nofun, rfl⟩

/-- After every run in which the times of the user do not go back, the streaks are what they are
said to be. -/
theorem streaks_exact (s₀ : State) (userId : String) (past : List Call)
    (hstart : ∃ user, s₀.users.get userId = some user ∧ user .lastActivityAt = none ∧
      user .currentStreak = 0 ∧ user .longestStreak = 0)
    (hordered : (activities s₀ userId past).Pairwise fun later earlier => earlier ≤ later) :
    ∃ user, (reached s₀ past).users.get userId = some user ∧
      Streaked (activities s₀ userId past) user := by
  induction past with
  | nil =>
    obtain ⟨user, huser, hlast, hcurrent, hlongest⟩ := hstart
    refine ⟨user, huser, hlast, ⟨0, hcurrent, rfl⟩, 0, hlongest, ?_⟩
    rw [activities, days_nil]
    exact isGreatest_runs_empty
  | cons i past ih =>
    rcases step_users (reached s₀ past) i with ⟨hreturns, found, hfound, husers⟩ | ⟨hthrows, husers⟩
    · have hid : (visited found i.1.now).1 .id = i.2 := by
        rw [(visited_kept found i.1.now).1]
        exact Repository.key_of_get hfound
      by_cases huser : i.2 = userId
      · rw [activities, if_pos ⟨huser, hreturns⟩] at hordered ⊢
        obtain ⟨user, hget, hstreaked⟩ := ih (List.pairwise_cons.mp hordered).2
        rw [huser, hget] at hfound
        cases hfound
        refine ⟨(visited found i.1.now).1, ?_, streaked_visited hstreaked hordered⟩
        rw [reached, husers, ← huser, ← hid]
        exact Repository.get_save_self
      · rw [activities, if_neg fun h => huser h.1] at hordered ⊢
        obtain ⟨user, hget, hstreaked⟩ := ih hordered
        refine ⟨user, ?_, hstreaked⟩
        rw [reached, husers, Repository.get_save, if_neg, hget]
        exact fun heq => huser (hid.symm.trans heq.symm)
    · rw [activities, if_neg fun h => hthrows h.2] at hordered ⊢
      rw [reached, husers]
      exact ih hordered

def exampleVisitor : State :=
  { State.empty with users := Repository.empty.save (User.default "u1" 0) }

def exampleVisit (now : Int) : Call :=
  (⟨⟨now, fun _ _ => "k1"⟩, fun _ => "tx1", fun _ => none⟩, "u1")

/-- Twice on one day, on the next one, and three days later. -/
theorem streaks_exact_gap :
    ∃ user, (reached exampleVisitor
        [exampleVisit 1209600000, exampleVisit 950400000, exampleVisit 864000001,
          exampleVisit 864000000]).users.get "u1" = some user ∧
      Streaked [1209600000, 950400000, 864000001, 864000000] user := by
  have hactivities : activities exampleVisitor "u1"
      [exampleVisit 1209600000, exampleVisit 950400000, exampleVisit 864000001,
        exampleVisit 864000000] = [1209600000, 950400000, 864000001, 864000000] := by
    decide +kernel
  have hexact := streaks_exact exampleVisitor "u1"
    [exampleVisit 1209600000, exampleVisit 950400000, exampleVisit 864000001,
      exampleVisit 864000000] ⟨User.default "u1" 0, rfl, rfl, rfl, rfl⟩
  rw [hactivities] at hexact
  exact hexact (by decide)

end Scoopdope.Streaks
