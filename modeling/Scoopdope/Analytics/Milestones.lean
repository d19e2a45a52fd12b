import Scoopdope.Analytics.Contract
import Scoopdope.Soroban.History

/-!
# Analytics: the marks of a course

A recording adds the marks it reaches that were not reached before, each with a record of
its time (`MarksAdded`); a reset leaves the marks. So along a run the marks of a student
in a course are those up to the largest progress recorded, and the record of a mark has
the time of the first recording that reached it (`milestones_exact`).
-/

namespace Scoopdope.Analytics

open Soroban

variable {Address : Type} [DecidableEq Address]

/-- What checking `marks` at `progressPct` does to the storage and to the list of what is
achieved. -/
structure Checked (env : Env Address) (student : Address) (courseId : String)
    (progressPct : U32) (marks : List U32) (a b : Storage Address × List U32) : Prop where
  nodup : a.2.Nodup → b.2.Nodup
  mem_iff : ∀ m, m ∈ b.2 ↔ m ∈ a.2 ∨ m ∈ marks ∧ m ≤ progressPct
  fresh : ∀ m, m ∈ marks → m ≤ progressPct → m ∉ a.2 →
    getMilestone b.1 student courseId m = some ⟨student, courseId, m, env.timestamp⟩
  kept : ∀ student' courseId' m, ¬ (student' = student ∧ courseId' = courseId ∧
      m ∈ marks ∧ m ≤ progressPct ∧ m ∉ a.2) →
    getMilestone b.1 student' courseId' m = getMilestone a.1 student' courseId' m
  lists : b.1.studentMilestones = a.1.studentMilestones

/-- The same for the stored list. -/
structure MarksAdded (env : Env Address) (student : Address) (courseId : String)
    (progressPct : U32) (s s' : Storage Address) : Prop where
  nodup : (getAchievedMilestones s student courseId).Nodup →
    (getAchievedMilestones s' student courseId).Nodup
  mem_iff : ∀ m, m ∈ getAchievedMilestones s' student courseId ↔
    m ∈ getAchievedMilestones s student courseId ∨ m ∈ milestones ∧ m ≤ progressPct
  others : ∀ student' courseId', ¬ (student' = student ∧ courseId' = courseId) →
    getAchievedMilestones s' student' courseId' = getAchievedMilestones s student' courseId'
  fresh : ∀ m, m ∈ milestones → m ≤ progressPct →
    m ∉ getAchievedMilestones s student courseId →
    getMilestone s' student courseId m = some ⟨student, courseId, m, env.timestamp⟩
  kept : ∀ student' courseId' m, ¬ (student' = student ∧ courseId' = courseId ∧
      m ∈ milestones ∧ m ≤ progressPct ∧ m ∉ getAchievedMilestones s student courseId) →
    getMilestone s' student' courseId' m = getMilestone s student' courseId' m

/-! ## One recording -/

section Steps

variable {env : Env Address} {s s' : Storage Address} {admin student : Address}
  {courseId : String} {progressPct mark : U32} {marks : List U32}
  {a b c : Storage Address × List U32}

theorem Checked.nil : Checked env student courseId progressPct [] a a where
  nodup := id
  mem_iff := by simp
  fresh := by simp
  kept _ _ _ _ := rfl
  lists := rfl

theorem Checked.cons (hab : Checked env student courseId progressPct [mark] a b)
    (hbc : Checked env student courseId progressPct marks b c) :
    Checked env student courseId progressPct (mark :: marks) a c where
  nodup h := hbc.nodup (hab.nodup h)
  mem_iff m := by
    rw [hbc.mem_iff, hab.mem_iff, List.mem_singleton, List.mem_cons, or_assoc, ← or_and_right]
  fresh m hm hle hold := by
    by_cases hb : m ∈ b.2
    · -- The first mark has put it there.
      obtain ⟨hmark, _⟩ := ((hab.mem_iff m).mp hb).resolve_left hold
      rw [hbc.kept student courseId m fun h => h.2.2.2.2 hb]
      exact hab.fresh m hmark hle hold
    · have hne : m ≠ mark := fun heq =>
        hb ((hab.mem_iff m).mpr (.inr ⟨List.mem_singleton.mpr heq, hle⟩))
      exact hbc.fresh m (List.mem_of_ne_of_mem hne hm) hle hb
  kept student' courseId' m hnot := by
    have hbefore : m ∉ b.2 → m ∉ a.2 := fun hb ha => hb ((hab.mem_iff m).mpr (.inl ha))
    rw [hbc.kept student' courseId' m, hab.kept student' courseId' m]
    · rintro ⟨hstudent, hcourse, hm, hle, hold⟩
      rw [List.mem_singleton] at hm
      exact hnot ⟨hstudent, hcourse, hm ▸ List.mem_cons_self, hle, hold⟩
    · rintro ⟨hstudent, hcourse, hm, hle, hold⟩
      exact hnot ⟨hstudent, hcourse, List.mem_cons_of_mem mark hm, hle, hbefore hold⟩
  lists := hbc.lists.trans hab.lists

/-- The body of the loop. -/
theorem checkMilestone_checked (a : Storage Address × List U32) (mark : U32) :
    Checked env student courseId progressPct [mark] a
      (checkMilestone env student courseId progressPct a mark) := by
  obtain ⟨s, achieved⟩ := a
  unfold checkMilestone
  dsimp only
  split
  · next hnew =>
    have hfresh : mark ∉ achieved := by simpa using hnew.2
    refine ⟨fun hold => ?_, fun m => ?_, fun m hm _ _ => ?_, fun student' courseId' m hnot => ?_,
      rfl⟩
    · exact hold.append (List.nodup_singleton mark) (by simpa using hfresh)
    · rw [List.mem_append, List.mem_singleton]
      refine or_congr_right (iff_self_and.mpr ?_)
      rintro rfl
      exact hnew.1
    · rw [List.mem_singleton.mp hm]
      exact Table.get_set_self _ _ _
    · refine Table.get_set_ne fun heq => ?_
      cases heq
      exact hnot ⟨rfl, rfl, List.mem_singleton_self mark, hnew.1, hfresh⟩
  · next hold =>
    have hin : mark ≤ progressPct → mark ∈ achieved := fun hle => by
      by_contra hfresh
      exact hold ⟨hle, by simpa using hfresh⟩
    refine ⟨id, fun m => ?_, fun m hm hle hfresh => ?_, fun _ _ _ _ => rfl, rfl⟩
    · refine (or_iff_left_of_imp ?_).symm
      rintro ⟨hm, hle⟩
      rw [List.mem_singleton.mp hm] at hle ⊢
      exact hin hle
    · rw [List.mem_singleton.mp hm] at hle hfresh
      exact absurd (hin hle) hfresh

theorem checkMilestone_loop (env : Env Address) (student : Address) (courseId : String)
    (progressPct : U32) (marks : List U32) (a : Storage Address × List U32) :
    Checked env student courseId progressPct marks a
      (marks.foldl (checkMilestone env student courseId progressPct) a) := by
  induction marks generalizing a with
  | nil => exact .nil
  | cons mark marks ih => exact (checkMilestone_checked a mark).cons (ih _)

theorem checkMilestones_marks (env : Env Address) (s : Storage Address) (student : Address)
    (courseId : String) (progressPct : U32) :
    MarksAdded env student courseId progressPct s
      (checkMilestones env s student courseId progressPct) := by
  have hloop := checkMilestone_loop env student courseId progressPct milestones
    (s, getAchievedMilestones s student courseId)
  have hstored : (checkMilestones env s student courseId progressPct).studentMilestones =
      s.studentMilestones.set (student, courseId)
        (milestones.foldl (checkMilestone env student courseId progressPct)
          (s, getAchievedMilestones s student courseId)).2 :=
    congrArg (Table.set · (student, courseId) _) hloop.lists
  have hlist : ∀ student' courseId',
      getAchievedMilestones (checkMilestones env s student courseId progressPct) student'
        courseId' =
      if (student', courseId') = (student, courseId) then
        (milestones.foldl (checkMilestone env student courseId progressPct)
          (s, getAchievedMilestones s student courseId)).2
      else getAchievedMilestones s student' courseId' := by
    intro student' courseId'
    rw [getAchievedMilestones, hstored, listAt_set]
    rfl
  refine ⟨fun hold => ?_, fun m => ?_, fun student' courseId' hne => ?_, hloop.fresh, hloop.kept⟩
  · rw [hlist, if_pos rfl]
    exact hloop.nodup hold
  · rw [hlist, if_pos rfl]
    exact hloop.mem_iff m
  · rw [hlist, if_neg fun heq => hne (Prod.mk.inj heq)]

theorem MarksAdded.congr {t t' : Storage Address}
    (h : MarksAdded env student courseId progressPct t t')
    (hmilestone : t.milestone = s.milestone ∧ t.studentMilestones = s.studentMilestones)
    (hmilestone' : s'.milestone = t'.milestone ∧ s'.studentMilestones = t'.studentMilestones) :
    MarksAdded env student courseId progressPct s s' := by
  cases s
  cases t
  cases s'
  cases t'
  obtain ⟨rfl, rfl⟩ := hmilestone
  obtain ⟨rfl, rfl⟩ := hmilestone'
  exact ⟨h.nodup, h.mem_iff, h.others, h.fresh, h.kept⟩

/-- Beside the marks a recording writes the record, its index and the events. -/
theorem recordProgress_marks {caller : Address}
    (h : recordProgress env s caller student courseId progressPct = .ok s') :
    MarksAdded env student courseId progressPct s s' := by
  simp only [recordProgress, bind_eq_ok, assert_eq_ok, Env.requireAuth_eq_ok, unwrap_eq_ok,
    exists_const, pure_eq_ok] at h
  obtain ⟨_, _, _, _, _, h⟩ := h
  subst h
  split
  · refine MarksAdded.congr (checkMilestones_marks env _ student courseId progressPct) ?_ ⟨rfl, rfl⟩
    split
    · exact ⟨rfl, rfl⟩
    · exact ⟨rfl, rfl⟩
  · refine MarksAdded.congr (checkMilestones_marks env _ student courseId progressPct) ?_ ⟨rfl, rfl⟩
    split
    · exact ⟨rfl, rfl⟩
    · exact ⟨rfl, rfl⟩

theorem resetProgress_marks (h : resetProgress env s admin student courseId = .ok s') :
    s'.milestone = s.milestone ∧ s'.studentMilestones = s.studentMilestones := by
  simp only [resetProgress, bind_eq_ok, pure_eq_ok] at h
  obtain ⟨_, _, _, _, _, _, rfl⟩ := h
  exact ⟨rfl, rfl⟩

theorem updateAggregates_marks (h : updateAggregates env s admin = .ok s') :
    s'.milestone = s.milestone ∧ s'.studentMilestones = s.studentMilestones := by
  simp only [updateAggregates, bind_eq_ok, pure_eq_ok] at h
  obtain ⟨_, _, _, _, _, _, rfl⟩ := h
  exact ⟨rfl, rfl⟩

/-- A recording adds marks, and no other call changes them. -/
theorem exec_marks {i : Env Address × Call Address} (h : exec s i = .ok s') :
    (∃ caller student courseId progressPct,
      i.2 = .recordProgress caller student courseId progressPct ∧
      MarksAdded i.1 student courseId progressPct s s') ∨
    (∀ caller student courseId progressPct,
        i.2 ≠ .recordProgress caller student courseId progressPct) ∧
      s'.milestone = s.milestone ∧ s'.studentMilestones = s.studentMilestones := by
  obtain ⟨env, call⟩ := i
  cases call with
  | initializeContract admin =>
    obtain ⟨_, _, rfl⟩ := initializeContract_ok.mp h
    exact .inr ⟨nofun, rfl, rfl⟩
  | setAdmin newAdmin =>
    obtain ⟨_, _, _, rfl⟩ := setAdmin_ok.mp h
    exact .inr ⟨nofun, rfl, rfl⟩
  | recordProgress caller student courseId progressPct =>
    exact .inl ⟨caller, student, courseId, progressPct, rfl, recordProgress_marks h⟩
  | resetProgress admin student courseId => exact .inr ⟨nofun, resetProgress_marks h⟩
  | updateAggregates admin => exact .inr ⟨nofun, updateAggregates_marks h⟩

end Steps

/-! ## Runs -/

section Runs

variable {admin : Address} {s₀ : Storage Address}

/-- An accepted recording of `m` percent or more of a course. -/
def Reaches (s₀ : Storage Address) (student : Address) (courseId : String) (m : U32)
    (earlier : List (Env Address × Call Address)) (i : Env Address × Call Address) : Prop :=
  Accepted exec s₀ earlier i ∧
    ∃ caller progressPct, i.2 = .recordProgress caller student courseId progressPct ∧
      m ≤ progressPct

/-- What a call records of a course. -/
def recorded (student : Address) (courseId : String) (i : Env Address × Call Address) : Int :=
  match i.2 with
  | .recordProgress _ student' courseId' progressPct =>
    if student' = student ∧ courseId' = courseId then progressPct.val else 0
  | _ => 0

/-- The largest progress recorded in a run, 0 where there is none. -/
def largestProgress (s₀ : Storage Address) (student : Address) (courseId : String)
    (past : List (Env Address × Call Address)) : Int :=
  traced exec s₀ (fun largest _ i => max largest (recorded student courseId i)) 0 past

theorem le_recorded_iff {student : Address} {courseId : String} {m : U32} (hm : 0 < m.val)
    {i : Env Address × Call Address} :
    m.val ≤ recorded student courseId i ↔
      ∃ caller progressPct, i.2 = .recordProgress caller student courseId progressPct ∧
        m ≤ progressPct := by
  obtain ⟨env, call⟩ := i
  cases call with
  | recordProgress caller student' courseId' progressPct =>
    have hval : recorded student courseId
        (env, .recordProgress caller student' courseId' progressPct) =
        if student' = student ∧ courseId' = courseId then progressPct.val else 0 := rfl
    rw [hval]
    by_cases hsame : student' = student ∧ courseId' = courseId
    · obtain ⟨rfl, rfl⟩ := hsame
      rw [if_pos ⟨rfl, rfl⟩]
      constructor
      · intro hle
        exact ⟨caller, progressPct, rfl, hle⟩
      · rintro ⟨_, _, hcall, hle⟩
        cases hcall
        exact hle
    · rw [if_neg hsame]
      refine iff_of_false (not_le.mpr hm) ?_
      rintro ⟨_, _, hcall, _⟩
      cases hcall
      exact hsame ⟨rfl, rfl⟩
  | initializeContract _ | setAdmin _ | resetProgress _ _ _ | updateAggregates _ =>
    refine iff_of_false (not_le.mpr hm) ?_
    rintro ⟨_, _, hcall, _⟩
    cases hcall

theorem le_largestProgress_iff {student : Address} {courseId : String} {m : U32} (hm : 0 < m.val)
    (past : List (Env Address × Call Address)) :
    m.val ≤ largestProgress s₀ student courseId past ↔
      Occurs (Reaches s₀ student courseId m) past := by
  induction past with
  | nil =>
    refine iff_of_false (not_le.mpr hm) ?_
    rintro ⟨i, earlier, hs, _⟩
    cases List.suffix_nil.mp hs
  | cons i past ih =>
    rw [occurs_cons_iff, ← ih]
    cases he : exec (after exec s₀ past) i with
    | ok s' =>
      rw [largestProgress, traced_ok he, le_max_iff, le_recorded_iff hm, Reaches,
        and_iff_right ⟨s', he⟩]
      exact or_comm
    | error t =>
      rw [largestProgress, traced_error he]
      refine (or_iff_right ?_).symm
      rintro ⟨⟨s', hs'⟩, _⟩
      cases he.symm.trans hs'

/-- The marks of a run: those reached, and for each the time when it was first reached. -/
structure Marks (s₀ : Storage Address) (student : Address) (courseId : String)
    (past : List (Env Address × Call Address)) (s : Storage Address) : Prop where
  nodup : (getAchievedMilestones s student courseId).Nodup
  mem_iff : ∀ m, m ∈ getAchievedMilestones s student courseId ↔
    m ∈ milestones ∧ Occurs (Reaches s₀ student courseId m) past
  record_iff : ∀ m record, getMilestone s student courseId m = some record ↔
    m ∈ milestones ∧ ∃ i earlier, FirstOccurs (Reaches s₀ student courseId m) past i earlier ∧
      record = ⟨student, courseId, m, i.1.timestamp⟩

section Induction

variable {student : Address} {courseId : String} {past : List (Env Address × Call Address)}
  {s s' : Storage Address} {i : Env Address × Call Address}

/-- A call that leaves the marks and reaches none. -/
theorem Marks.skip (hs : Marks s₀ student courseId past s)
    (hlist : getAchievedMilestones s' student courseId = getAchievedMilestones s student courseId)
    (hget : ∀ m, getMilestone s' student courseId m = getMilestone s student courseId m)
    (hnone : ∀ m, ¬ Reaches s₀ student courseId m past i) :
    Marks s₀ student courseId (i :: past) s' := by
  refine ⟨hlist ▸ hs.nodup, fun m => ?_, fun m record => ?_⟩
  · rw [hlist, hs.mem_iff, occurs_cons_iff, or_iff_right (hnone m)]
  · rw [hget, hs.record_iff]
    refine and_congr_right fun _ => ?_
    simp only [firstOccurs_cons_iff, hnone m, false_and, and_false, or_false]

/-- A recording. What it reaches for the first time has its time. -/
theorem Marks.record (hs : Marks s₀ student courseId past s) {caller : Address}
    {progressPct : U32} (hcall : i.2 = .recordProgress caller student courseId progressPct)
    (hacc : Accepted exec s₀ past i) (hadded : MarksAdded i.1 student courseId progressPct s s') :
    Marks s₀ student courseId (i :: past) s' := by
  have hreaches : ∀ m, Reaches s₀ student courseId m past i ↔ m ≤ progressPct := by
    intro m
    constructor
    · rintro ⟨_, _, _, hcall', hle⟩
      cases hcall.symm.trans hcall'
      exact hle
    · intro hle
      exact ⟨hacc, caller, progressPct, hcall, hle⟩
  refine ⟨hadded.nodup hs.nodup, fun m => ?_, fun m record => ?_⟩
  · rw [hadded.mem_iff, hs.mem_iff, occurs_cons_iff, hreaches, ← and_or_left, or_comm]
  · by_cases hnew : m ∈ milestones ∧ m ≤ progressPct ∧
        m ∉ getAchievedMilestones s student courseId
    · obtain ⟨hm, hle, hold⟩ := hnew
      have hfirst : ¬ Occurs (Reaches s₀ student courseId m) past := fun hpast =>
        hold ((hs.mem_iff m).mpr ⟨hm, hpast⟩)
      rw [hadded.fresh m hm hle hold]
      constructor
      · rintro ⟨⟩
        exact ⟨hm, i, past, firstOccurs_cons_iff.mpr (.inr ⟨rfl, rfl, (hreaches m).mpr hle,
          hfirst⟩), rfl⟩
      · rintro ⟨_, j, earlier, hj, rfl⟩
        rcases firstOccurs_cons_iff.mp hj with hj | ⟨rfl, _⟩
        · exact absurd hj.occurs hfirst
        · rfl
    · rw [hadded.kept student courseId m fun h => hnew h.2.2, hs.record_iff]
      refine and_congr_right fun hm => ?_
      constructor
      · rintro ⟨j, earlier, hj, hrecord⟩
        exact ⟨j, earlier, firstOccurs_cons_iff.mpr (.inl hj), hrecord⟩
      · rintro ⟨j, earlier, hj, hrecord⟩
        rcases firstOccurs_cons_iff.mp hj with hj | ⟨_, _, hreach, hfirst⟩
        · exact ⟨j, earlier, hj, hrecord⟩
        · refine absurd ⟨hm, (hreaches m).mp hreach, fun hold => ?_⟩ hnew
          exact hfirst ((hs.mem_iff m).mp hold).2

end Induction

theorem Initialised.marks (h : Initialised admin s₀) (student : Address) (courseId : String) :
    Marks s₀ student courseId [] s₀ := by
  obtain ⟨env, h⟩ := h
  obtain ⟨_, _, rfl⟩ := initializeContract_ok.mp h
  refine ⟨List.nodup_nil, fun m => ?_, fun m record => ?_⟩
  · refine iff_of_false List.not_mem_nil ?_
    rintro ⟨_, i, earlier, hs, _⟩
    cases List.suffix_nil.mp hs
  · refine iff_of_false Table.get_empty_ne_some ?_
    rintro ⟨_, i, earlier, ⟨hs, _⟩, _⟩
    cases List.suffix_nil.mp hs

theorem marks_after (h : Initialised admin s₀) (student : Address) (courseId : String)
    (past : List (Env Address × Call Address)) :
    Marks s₀ student courseId past (after exec s₀ past) := by
  refine after_history (P := Marks s₀ student courseId) (h.marks student courseId) ?_ ?_ past
  · rintro past i s s' rfl hs he
    rcases exec_marks he with ⟨caller, student', courseId', progressPct, hcall, hadded⟩ |
      ⟨hother, hmilestone, hlists⟩
    · by_cases hsame : student = student' ∧ courseId = courseId'
      · obtain ⟨rfl, rfl⟩ := hsame
        exact hs.record hcall ⟨s', he⟩ hadded
      · refine hs.skip (hadded.others student courseId hsame)
          (fun m => hadded.kept student courseId m fun h => hsame ⟨h.1, h.2.1⟩) ?_
        rintro m ⟨_, _, _, hcall', _⟩
        cases hcall.symm.trans hcall'
        exact hsame ⟨rfl, rfl⟩
    · refine hs.skip ?_ (fun m => ?_) ?_
      · rw [getAchievedMilestones, hlists]
        rfl
      · rw [getMilestone, hmilestone]
        rfl
      · rintro m ⟨_, _, _, hcall, _⟩
        exact hother _ _ _ _ hcall
  · rintro past i s t rfl hs he
    refine hs.skip rfl (fun _ => rfl) ?_
    rintro m ⟨⟨s', hs'⟩, _⟩
    cases he.symm.trans hs'

theorem milestones_pos {m : U32} (hm : m ∈ milestones) : 0 < m.val := by
  have hall : ∀ m ∈ milestones, 0 < m.val := by decide
  exact hall m hm

/-- In every state of a run: the marks of a student in a course are, without repetition,
those up to the largest progress recorded; a mark has a record exactly when it is one of
them; its time is that of the first recording that reached it; and it stays as it is. -/
theorem milestones_exact (h : Initialised admin s₀) (past : List (Env Address × Call Address))
    (student : Address) (courseId : String) :
    (getAchievedMilestones (after exec s₀ past) student courseId).Nodup ∧
    (∀ m, m ∈ getAchievedMilestones (after exec s₀ past) student courseId ↔
      m ∈ milestones ∧ m.val ≤ largestProgress s₀ student courseId past) ∧
    (∀ m, (getMilestone (after exec s₀ past) student courseId m).isSome = true ↔
      m ∈ getAchievedMilestones (after exec s₀ past) student courseId) ∧
    (∀ m record, getMilestone (after exec s₀ past) student courseId m = some record →
      ∃ i earlier, FirstOccurs (Reaches s₀ student courseId m) past i earlier ∧
        record = ⟨student, courseId, m, i.1.timestamp⟩) ∧
    ∀ m record earlier, earlier <:+ past →
      getMilestone (after exec s₀ earlier) student courseId m = some record →
      getMilestone (after exec s₀ past) student courseId m = some record := by
  have hs := marks_after h student courseId past
  refine ⟨hs.nodup, fun m => ?_, fun m => ?_, fun m record hget => ?_,
    fun m record earlier hsuf hget => ?_⟩
  · rw [hs.mem_iff]
    exact and_congr_right fun hm => (le_largestProgress_iff (milestones_pos hm) past).symm
  · rw [hs.mem_iff, Option.isSome_iff_exists]
    constructor
    · rintro ⟨record, hget⟩
      obtain ⟨hm, i, earlier, hfirst, _⟩ := (hs.record_iff m record).mp hget
      exact ⟨hm, hfirst.occurs⟩
    · rintro ⟨hm, hreached⟩
      obtain ⟨i, earlier, hfirst⟩ := hreached.first
      exact ⟨_, (hs.record_iff m _).mpr ⟨hm, i, earlier, hfirst, rfl⟩⟩
  · exact ((hs.record_iff m record).mp hget).2
  · obtain ⟨hm, i, before, ⟨hi, hfirst⟩, hrecord⟩ :=
      ((marks_after h student courseId earlier).record_iff m record).mp hget
    exact (hs.record_iff m record).mpr ⟨hm, i, before, ⟨hi.trans hsuf, hfirst⟩, hrecord⟩

/-- At time 4 student 5 records 60 percent, at time 7 the admin resets the course, and at
time 9 the student records 80. -/
def exampleMilestoneRun : List (Env Nat × Call Nat) :=
  [({ exampleEnv 0 [5] with timestamp := .lit 9 }, .recordProgress 5 5 "rust" (.lit 80)),
    ({ exampleEnv 0 [1] with timestamp := .lit 7 }, .resetProgress 1 5 "rust"),
    ({ exampleEnv 0 [5] with timestamp := .lit 4 }, .recordProgress 5 5 "rust" (.lit 60))]

/-- The mark of 50 percent keeps the time 4. -/
theorem milestones_exact_reset :
    getMilestone (after exec exampleAnalytics exampleMilestoneRun) 5 "rust" (.lit 50) =
      some ⟨5, "rust", .lit 50, .lit 4⟩ :=
  (milestones_exact exampleAnalytics_initialised exampleMilestoneRun 5 "rust").2.2.2.2 (.lit 50) _
    (exampleMilestoneRun.drop 2) (List.drop_suffix 2 _) rfl

end Runs

end Scoopdope.Analytics
