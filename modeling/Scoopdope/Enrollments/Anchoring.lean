import Scoopdope.Enrollments.AllOrNothing
import Scoopdope.Soroban.History
import Scoopdope.Waitlist.Service

/-!
# Enrollments: anchored and justified

What the rows of enrollments say about how they came about, over runs of `enroll`, `unenroll`,
`join`, `leave` and `promoteNext` none of whose requests fails. A promotion from the waitlist
creates its row without the chain, the prerequisites and the version.

`enrollments_justified_iff`: every row is anchored and justified at every point of a run exactly
when no `promoteNext` of the run has anyone to promote.
-/

namespace Scoopdope.Enrollments

open Async Database Server Learning Waitlist Soroban

inductive Call
  | enroll (userId courseId : String) (adminOverride : Bool)
  | unenroll (userId courseId : String)
  | join (userId courseId : String)
  | leave (userId courseId : String)
  | promoteNext (courseId : String)

/-- What is run, without what it returns. -/
def Call.method : Call → Method Unit
  | .enroll userId courseId adminOverride =>
    Enrollments.enroll userId courseId adminOverride >>= fun _ => pure ()
  | .unenroll userId courseId => Enrollments.unenroll userId courseId
  | .join userId courseId => Waitlist.join userId courseId >>= fun _ => pure ()
  | .leave userId courseId => Waitlist.leave userId courseId
  | .promoteNext courseId => Waitlist.promoteNext courseId

/-- The state after a call no request of which fails. -/
def step (s : State) (i : Surroundings × Call) : State :=
  (i.2.method.run handle (succeeding i.1) s).2

def exec (s : State) (i : Surroundings × Call) : Outcome State := .ok (step s i)

/-- The state after a run that starts without enrollments. -/
abbrev reached (s₀ : State) (past : List (Surroundings × Call)) : State :=
  after exec (s₀.put .enrollment .empty) past

/-! ## Justified rows -/

/-- A row that the call creates is anchored and justified. -/
structure Justified (before afterwards : State) (call : Call) (row : schema.Row .enrollment) :
    Prop where
  anchored : ∃ hash, row.data.transactionHash = some hash ∧
    (.recordEnrollment row.data.userId row.data.courseId, hash) ∈ afterwards.chain
  admitted : call = .enroll row.data.userId row.data.courseId true ∨
    Satisfied before row.data.userId row.data.courseId
  pinned : IsLatest before row.data.courseId row.data.enrolledVersionNumber

/-- The row was justified when it was created. -/
def JustlyCreated (s₀ : State) (row : schema.Row .enrollment) : List (Surroundings × Call) → Prop
  | [] => False
  | i :: past =>
    row ∈ (reached s₀ past).tables .enrollment ∧ JustlyCreated s₀ row past ∨
      row ∉ (reached s₀ past).tables .enrollment ∧
        Justified (reached s₀ past) (reached s₀ (i :: past)) i.2 row

/-- Every row was justified when it was created. -/
def AllJustified (s₀ : State) (past : List (Surroundings × Call)) : Prop :=
  ∀ row ∈ (reached s₀ past).tables .enrollment, JustlyCreated s₀ row past

/-- The call promotes nobody. -/
def PromotesNobody (s : State) (i : Surroundings × Call) : Prop :=
  ∀ courseId, i.2 = .promoteNext courseId → ∀ next, ¬ Promotes i.1 s courseId next

/-! ## Steps -/

variable {s s₀ : State} {around : Surroundings} {i : Surroundings × Call}

section Steps

variable {userId courseId : String} {adminOverride : Bool} {row : schema.Row .enrollment}

theorem step_enroll :
    step s (around, .enroll userId courseId adminOverride) =
      ((enroll userId courseId adminOverride).run handle (succeeding around) s).2 :=
  congrArg Prod.snd (Process.run_map _ fun _ => ())

theorem enroll_rows
    (h : row ∈ (step s (around, .enroll userId courseId adminOverride)).tables .enrollment) :
    row ∈ s.tables .enrollment ∨ Justified s
      (step s (around, .enroll userId courseId adminOverride))
      (.enroll userId courseId adminOverride) row := by
  rw [step_enroll] at h ⊢
  by_cases hbegins : Begins (succeeding around) s userId courseId adminOverride
  · rw [enroll_recorded hbegins rfl rfl] at h ⊢
    change row ∈ (State.put _ _ _).tables .enrollment at h
    rw [State.put_tables_self, Repository.mem_save, Repository.mem_save] at h
    -- The second `save` replaces the row of the first: they have one id.
    rcases h with rfl | ⟨rfl | ⟨hrow, -⟩, hne⟩
    · refine .inr ⟨⟨_, rfl, List.mem_cons_self⟩, ?_, isLatest_latestVersion⟩
      rcases hbegins.justified with rfl | hsatisfied
      · exact .inl rfl
      · exact .inr hsatisfied
    · exact absurd rfl hne
    · exact .inl hrow
  · obtain ⟨x, hrefused⟩ := enroll_refused hbegins
    rw [hrefused] at h
    exact .inl h

theorem unenroll_rows
    (h : row ∈ (step s (around, .unenroll userId courseId)).tables .enrollment) :
    row ∈ s.tables .enrollment := by
  change row ∈ ((unenroll userId courseId).run handle (succeeding around) s).2.tables .enrollment
    at h
  unfold unenroll at h
  rw [Process.run_bind_of_ok (run_findOne_succeeding _ _)] at h
  cases hfound : (s.tables .enrollment).findOne
      (schema.holds .enrollment (.pair userId courseId)) with
  | none =>
    rw [hfound] at h
    exact h
  | some found =>
    rw [hfound] at h
    dsimp only at h
    rw [Process.run_bind_of_ok (remove_ok.mpr ⟨rfl, rfl⟩), run_emit] at h
    change row ∈ (State.put _ _ _).tables .enrollment at h
    rw [State.put_tables_self, Repository.mem_remove] at h
    exact h.1

/-- A call that promotes nobody adds justified rows only. -/
theorem step_rows (hnobody : PromotesNobody s i) (h : row ∈ (step s i).tables .enrollment) :
    row ∈ s.tables .enrollment ∨ Justified s (step s i) i.2 row := by
  obtain ⟨around, call⟩ := i
  cases call with
  | enroll userId courseId adminOverride => exact enroll_rows h
  | unenroll userId courseId => exact .inl (unenroll_rows h)
  | join userId courseId =>
    have hspares : (step s (around, .join userId courseId)).tables .enrollment =
        s.tables .enrollment := run_spares (Process.only_bind join_spares fun _ => trivial)
    rw [hspares] at h
    exact .inl h
  | leave userId courseId =>
    have hspares : (step s (around, .leave userId courseId)).tables .enrollment =
        s.tables .enrollment := run_spares leave_spares
    rw [hspares] at h
    exact .inl h
  | promoteNext courseId =>
    have hidle : (step s (around, .promoteNext courseId)).tables .enrollment =
        s.tables .enrollment := promoteNext_idle (hnobody courseId rfl)
    rw [hidle] at h
    exact .inl h

/-- A promotion adds a row that is not anchored. -/
theorem promotes_row {next : schema.Row .waitlistEntry} (h : Promotes around s courseId next) :
    ∃ row ∈ (step s (around, .promoteNext courseId)).tables .enrollment,
      row ∉ s.tables .enrollment ∧ row.data.transactionHash = none := by
  have hrows : (step s (around, .promoteNext courseId)).tables .enrollment = _ :=
    promoteNext_promotes h
  refine ⟨Schema.inserted around.toGenerated (promoted next.data.userId courseId), ?_, ?_, rfl⟩
  · rw [hrows, Repository.mem_save]
    exact .inl rfl
  · intro hrow
    exact h.notEnrolled ⟨_, hrow, rfl, rfl⟩

end Steps

/-! ## Runs -/

/-- Every row is anchored and justified at every point of a run exactly when no call of the run
promotes anybody. -/
theorem enrollments_justified_iff (s₀ : State) (past : List (Surroundings × Call)) :
    (∀ earlier, earlier <:+ past → AllJustified s₀ earlier) ↔
      Guarded (fun earlier i => PromotesNobody (reached s₀ earlier) i) past := by
  refine throughout_iff_guarded_of ?_ past fun earlier i _ _ hearlier => ⟨fun h => ?_, fun h => ?_⟩
  · intro row hrow
    change row ∈ (State.put _ _ _).tables .enrollment at hrow
    rw [State.put_tables_self] at hrow
    exact absurd hrow Repository.not_mem_empty
  · obtain ⟨around, call⟩ := i
    rintro courseId rfl next hpromotes
    obtain ⟨row, hrow, hnew, hnone⟩ := promotes_row hpromotes
    -- The row of a promotion is new and has no hash.
    rcases h row hrow with ⟨hold, -⟩ | ⟨-, hjustified⟩
    · exact hnew hold
    · obtain ⟨hash, hhash, -⟩ := hjustified.anchored
      rw [hnone] at hhash
      cases hhash
  · intro row hrow
    by_cases hold : row ∈ (reached s₀ earlier).tables .enrollment
    · exact .inl ⟨hold, hearlier row hold⟩
    · exact .inr ⟨hold, (step_rows h hrow).resolve_left hold⟩

/-! ## A promotion -/

/-- A course with one place. -/
def exampleCourses : State :=
  State.empty.put .course (Repository.empty.save ⟨"c1", 0, 0, {
    title := "Rust", status := .published, isPublished := true, isDeleted := false
    requiresKyc := false, skills := none, maxEnrollment := some 1 }⟩)

/-- The rows of a user have the user's id. -/
def exampleKeys : Surroundings where
  now := 0
  key := fun t => match t with
    | .enrollment => fun e => e.userId
    | .waitlistEntry => fun e => e.userId
    | _ => fun _ => ""
  hash := fun _ => "tx1"
  fails := fun _ => none

/-- The place is taken and freed again, newest first. -/
def examplePromotion : List (Surroundings × Call) :=
  [(exampleKeys, .promoteNext "c1"), (exampleKeys, .unenroll "u1" "c1"),
    (exampleKeys, .join "u2" "c1"), (exampleKeys, .enroll "u1" "c1" false)]

theorem promoted_not_justified :
    ((reached exampleCourses examplePromotion).tables .enrollment).find (fun _ => true) =
        [⟨"u2", 0, 0, ⟨"u2", "c1", none, none, none⟩⟩] ∧
      ¬ AllJustified exampleCourses examplePromotion := by
  refine ⟨by decide +kernel, fun h => ?_⟩
  have hrow : (⟨"u2", 0, 0, ⟨"u2", "c1", none, none, none⟩⟩ : schema.Row .enrollment) ∈
      (reached exampleCourses examplePromotion).tables .enrollment := by decide +kernel
  rcases h _ hrow with ⟨hold, -⟩ | ⟨-, hjustified⟩
  · exact absurd hold (by decide +kernel)
  · obtain ⟨hash, hhash, -⟩ := hjustified.anchored
    cases hhash

end Scoopdope.Enrollments
