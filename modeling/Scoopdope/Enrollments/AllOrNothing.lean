import Scoopdope.Enrollments.Admission

/-!
# Enrollments: all or nothing

What `enroll` leaves behind when its steps fail. The entry on the chain cannot be taken back, and
a failure of `remove` is only logged.

`enroll_all_or_nothing_iff`: the enrollment is made as a whole or not at all exactly when, once the
first `save` is through, the second one does not fail after the call of the chain, and `remove`
does not fail where the call of the chain does.
-/

namespace Scoopdope.Enrollments

open Async Database Server Learning

variable {around : Surroundings} {s s' : State} {userId courseId : String} {adminOverride : Bool}

/-- A call that fails leaves neither a row of the user and the course nor an entry on the chain;
one that returns leaves both, with one transaction hash. -/
def AllOrNothing (s : State) (userId courseId : String) :
    Except HttpException (schema.Row .enrollment) × State → Prop
  | (.error _, s') =>
    (∀ row ∈ s'.tables .enrollment, row.data.userId = userId → row.data.courseId = courseId →
      row ∈ s.tables .enrollment) ∧ s'.chain = s.chain
  | (.ok row, s') =>
    row ∈ s'.tables .enrollment ∧ row.data.userId = userId ∧ row.data.courseId = courseId ∧
      ∃ hash, row.data.transactionHash = some hash ∧
        s'.chain = (.recordEnrollment userId courseId, hash) :: s.chain

/-- The row of the first `save`. -/
def created (around : Surroundings) (s : State) (userId courseId : String) :
    schema.Row .enrollment :=
  Schema.inserted around.toGenerated (pinned s userId courseId)

/-- `enroll` comes past its first `save`. -/
structure Begins (around : Surroundings) (s : State) (userId courseId : String)
    (adminOverride : Bool) : Prop extends Admitted around s userId courseId adminOverride where
  saved : around.fails (.query (.insert .enrollment (pinned s userId courseId))) = none
  fresh : (s.tables .enrollment).get (created around s userId courseId).id = none

/-- The second `save` does not fail after `recordEnrollment`, and `remove` does not fail in its
place. -/
def Recovers (around : Surroundings) (row : schema.Row .enrollment) : Prop :=
  let call := ChainCall.recordEnrollment row.data.userId row.data.courseId
  match around.fails (.stellar call) with
  | none => around.fails (.query (.save .enrollment (anchored row (around.hash call)))) = none
  | some _ => around.fails (.query (.remove .enrollment row)) = none

/-! ## Up to the first save -/

theorem newEnrollment_only_reads :
    (newEnrollment userId courseId adminOverride).Only Request.Reads := by
  unfold newEnrollment
  refine Process.only_bind (only_request rfl) fun existing => ?_
  split
  · trivial
  refine Process.only_bind ?_ fun _ => ?_
  · unfold enforcePrerequisites validatePrerequisites
    refine Process.only_bind ?_ fun check => ?_
    · split
      · trivial
      refine Process.only_bind (only_request rfl) fun prereqs => ?_
      split
      · trivial
      · exact Process.only_bind (only_request rfl) fun _ => trivial
    · split <;> trivial
  · exact Process.only_bind (Process.only_bind (only_request rfl) fun _ => trivial) fun _ => trivial

theorem insert_pinned {row : schema.Row .enrollment} (h : ¬ Enrolled s userId courseId) :
    (insert .enrollment (pinned s userId courseId)).run handle around s = (.ok row, s') ↔
      around.fails (.query (.insert .enrollment (pinned s userId courseId))) = none ∧
        (s.tables .enrollment).get (created around s userId courseId).id = none ∧
        row = created around s userId courseId ∧
        s' = s.put .enrollment ((s.tables .enrollment).save row) := by
  rw [insert_ok]
  constructor
  · rintro ⟨hsaved, rfl, hfresh, -, rfl⟩
    exact ⟨hsaved, hfresh, rfl, rfl⟩
  · rintro ⟨hsaved, hfresh, rfl, rfl⟩
    refine ⟨hsaved, rfl, hfresh, not_conflicts fun other hother _ huser hcourse => ?_, rfl⟩
    exact h ⟨other, hother, huser, hcourse⟩

/-- A call that does not come past its first `save` changes nothing. -/
theorem enroll_refused (h : ¬ Begins around s userId courseId adminOverride) :
    ∃ x, (enroll userId courseId adminOverride).run handle around s = (.error x, s) := by
  have hreads : ((newEnrollment userId courseId adminOverride).run handle around s).2 = s :=
    run_reads newEnrollment_only_reads
  unfold enroll
  rcases hnew : (newEnrollment userId courseId adminOverride).run handle around s with
    ⟨x | data, s₁⟩
  · rw [hnew] at hreads
    subst hreads
    exact ⟨x, Process.run_bind_of_error hnew _⟩
  obtain ⟨hadmitted, rfl, rfl⟩ := newEnrollment_ok.mp hnew
  rw [Process.run_bind_of_ok hnew]
  rcases hinsert : (insert .enrollment (pinned s₁ userId courseId)).run handle around s₁
    with ⟨x | row, s₂⟩
  · cases insert_error hinsert
    exact ⟨x, Process.run_bind_of_error hinsert _⟩
  · obtain ⟨hsaved, hfresh, -, -⟩ := (insert_pinned hadmitted.notEnrolled).mp hinsert
    exact absurd { hadmitted with saved := hsaved, fresh := hfresh } h

/-! ## From the first save on -/

section Begun

variable {row : schema.Row .enrollment}

/-- The state that `rollBack` leaves. -/
def rolledBack (around : Surroundings) (s : State) (row : schema.Row .enrollment) : State :=
  match around.fails (.query (.remove .enrollment row)) with
  | none => s.put .enrollment ((s.tables .enrollment).remove row.id)
  | some _ => s

def recordingFailed : HttpException :=
  .internal "Failed to record enrollment on the Stellar network. Please try again."

theorem run_rollBack {A : Type} {x : HttpException} :
    (rollBack row x : Method A).run handle around s =
      (.error recordingFailed, rolledBack around s row) := by
  unfold rollBack rolledBack
  rw [Process.run_bind, Process.run_tryCatch]
  unfold remove
  rw [run_request, exception_query]
  cases around.fails (.query (.remove .enrollment row)) <;> rfl

/-- The entry on the chain that anchors the row. -/
def anchoring (around : Surroundings) (row : schema.Row .enrollment) : ChainCall × String :=
  let call := ChainCall.recordEnrollment row.data.userId row.data.courseId
  (call, around.hash call)

/-- The state with one more entry on the chain. -/
def recorded (around : Surroundings) (s : State) (row : schema.Row .enrollment) : State :=
  { s with chain := anchoring around row :: s.chain }

theorem run_anchor_unrecorded {x : HttpException}
    (h : around.fails (.stellar (anchoring around row).1) = some x) :
    (anchor row).run handle around s = (.error recordingFailed, rolledBack around s row) := by
  have hcall : (stellar (anchoring around row).1).run handle around s = (.error x, s) :=
    request_error.mpr ⟨h, rfl⟩
  exact Process.run_bind_of_error
    ((Process.run_tryCatch_of_error hcall _).trans run_rollBack) _

/-- What the call of the chain that goes through does. -/
theorem run_recordEnrollment (h : around.fails (.stellar (anchoring around row).1) = none) :
    (stellar (anchoring around row).1).run handle around s =
      (.ok (anchoring around row).2, recorded around s row) :=
  stellar_ok.mpr ⟨h, rfl, rfl⟩

theorem run_anchor_unsaved {x : HttpException}
    (h : around.fails (.stellar (anchoring around row).1) = none)
    (hsave : around.fails (.query (.save .enrollment
      (anchored row (anchoring around row).2))) = some x) :
    (anchor row).run handle around s = (.error recordingFailed,
      rolledBack around (recorded around s row) (anchored row (anchoring around row).2)) := by
  have hsaved : (save .enrollment (anchored row (anchoring around row).2)).run handle around
      (recorded around s row) = (.error x, recorded around s row) := by
    rw [run_save, hsave]
  refine (Process.run_bind_of_ok
    (Process.run_tryCatch_of_ok (run_recordEnrollment h) _) _).trans ?_
  exact (Process.run_tryCatch_of_error hsaved _).trans run_rollBack

/-- The row of the second `save`. -/
def confirmed (around : Surroundings) (row : schema.Row .enrollment) : schema.Row .enrollment :=
  { anchored row (anchoring around row).2 with updatedAt := around.now }

theorem run_anchor_saved (h : around.fails (.stellar (anchoring around row).1) = none)
    (hsave : around.fails (.query (.save .enrollment
      (anchored row (anchoring around row).2))) = none)
    (hothers : ∀ other ∈ s.tables .enrollment, other.id ≠ row.id →
      other.data.userId = row.data.userId → other.data.courseId ≠ row.data.courseId) :
    (anchor row).run handle around s = (.ok (confirmed around row),
      (recorded around s row).put .enrollment
        ((s.tables .enrollment).save (confirmed around row))) := by
  have hsaved : (save .enrollment (anchored row (anchoring around row).2)).run handle around
      (recorded around s row) = (.ok (confirmed around row),
        (recorded around s row).put .enrollment
          ((s.tables .enrollment).save (confirmed around row))) :=
    save_ok.mpr ⟨hsave, rfl, not_conflicts hothers, rfl⟩
  refine (Process.run_bind_of_ok
    (Process.run_tryCatch_of_ok (run_recordEnrollment h) _) _).trans ?_
  exact Process.run_tryCatch_of_ok hsaved _

/-- The state after the events of an enrollment. -/
def announced (s : State) (row : schema.Row .enrollment) : State :=
  let { userId, courseId, transactionHash, .. } := row.data
  { s with
    emitted :=
      .enrollmentConfirmed row.id userId courseId (transactionHash.getD "") row.createdAt ::
        .enrollmentCreated row.id userId courseId row.createdAt none :: s.emitted }

theorem run_announce : (announce row).run handle around s = (.ok (), announced s row) := by
  unfold announce
  rw [Process.run_bind_of_ok (run_emit _), run_emit]
  rfl

theorem rolledBack_chain : (rolledBack around s row).chain = s.chain := by
  unfold rolledBack
  split <;> rfl

end Begun

/-! ## The call -/

/-- A call that comes past its first `save` goes on from there. -/
theorem enroll_begun (h : Begins around s userId courseId adminOverride) :
    let row := created around s userId courseId
    (enroll userId courseId adminOverride).run handle around s =
      (anchor row >>= fun row => announce row >>= fun _ => pure row : Method _).run handle around
        (s.put .enrollment ((s.tables .enrollment).save row)) := by
  intro row
  have hnew := newEnrollment_ok.mpr
    ⟨h.toAdmitted, rfl, rfl⟩
  have hinsert := (insert_pinned h.notEnrolled).mpr ⟨h.saved, h.fresh, rfl, rfl⟩
  unfold enroll
  rw [Process.run_bind_of_ok hnew, Process.run_bind_of_ok hinsert]

/-- The state after the first `save`. -/
def begun (around : Surroundings) (s : State) (userId courseId : String) : State :=
  s.put .enrollment ((s.tables .enrollment).save (created around s userId courseId))

theorem enroll_unrecorded {x : HttpException} (h : Begins around s userId courseId adminOverride)
    (hcall : around.fails
      (.stellar (anchoring around (created around s userId courseId)).1) = some x) :
    (enroll userId courseId adminOverride).run handle around s = (.error recordingFailed,
      rolledBack around (begun around s userId courseId) (created around s userId courseId)) :=
  (enroll_begun h).trans (Process.run_bind_of_error (run_anchor_unrecorded hcall) _)

theorem enroll_unsaved {x : HttpException} (h : Begins around s userId courseId adminOverride)
    (hcall : around.fails
      (.stellar (anchoring around (created around s userId courseId)).1) = none)
    (hsave : around.fails (.query (.save .enrollment (anchored (created around s userId courseId)
      (anchoring around (created around s userId courseId)).2))) = some x) :
    (enroll userId courseId adminOverride).run handle around s = (.error recordingFailed,
      rolledBack around
        (recorded around (begun around s userId courseId) (created around s userId courseId))
        (anchored (created around s userId courseId)
          (anchoring around (created around s userId courseId)).2)) :=
  (enroll_begun h).trans (Process.run_bind_of_error (run_anchor_unsaved hcall hsave) _)

theorem enroll_recorded (h : Begins around s userId courseId adminOverride)
    (hcall : around.fails
      (.stellar (anchoring around (created around s userId courseId)).1) = none)
    (hsave : around.fails (.query (.save .enrollment (anchored (created around s userId courseId)
      (anchoring around (created around s userId courseId)).2))) = none) :
    let row := created around s userId courseId
    (enroll userId courseId adminOverride).run handle around s =
      (.ok (confirmed around row),
        announced ((recorded around (begun around s userId courseId) row).put .enrollment
          (((s.tables .enrollment).save row).save (confirmed around row)))
          (confirmed around row)) := by
  intro row
  have hsaved := run_anchor_saved (s := begun around s userId courseId) hcall hsave ?_
  · rw [enroll_begun h]
    refine (Process.run_bind_of_ok hsaved _).trans ?_
    unfold begun
    rw [Process.run_bind_of_ok run_announce, State.put_tables_self]
    rfl
  · intro other hother hne huser hcourse
    unfold begun at hother
    rw [State.put_tables_self, Repository.mem_save] at hother
    rcases hother with rfl | ⟨hother, -⟩
    · exact hne rfl
    · exact h.notEnrolled ⟨other, hother, huser, hcourse⟩

theorem created_not_mem (h : Begins around s userId courseId adminOverride) :
    created around s userId courseId ∉ s.tables .enrollment :=
  fun hrow => h.notEnrolled ⟨_, hrow, rfl, rfl⟩

/-- Whether a call that comes past its first `save` recovers, where the call of the chain fails. -/
theorem recovers_unrecorded {x : HttpException} {row : schema.Row .enrollment}
    (hcall : around.fails (.stellar (anchoring around row).1) = some x) :
    Recovers around row ↔ around.fails (.query (.remove .enrollment row)) = none := by
  unfold Recovers
  change (match around.fails (.stellar (anchoring around row).1) with | none => _ | some _ => _) ↔ _
  rw [hcall]

theorem recovers_recorded {row : schema.Row .enrollment}
    (hcall : around.fails (.stellar (anchoring around row).1) = none) :
    Recovers around row ↔
      around.fails (.query (.save .enrollment (anchored row (anchoring around row).2))) = none := by
  unfold Recovers
  change (match around.fails (.stellar (anchoring around row).1) with | none => _ | some _ => _) ↔ _
  rw [hcall]
  rfl

theorem allOrNothing_unrecorded {x : HttpException}
    (h : Begins around s userId courseId adminOverride)
    (hcall : around.fails
      (.stellar (anchoring around (created around s userId courseId)).1) = some x) :
    AllOrNothing s userId courseId
        ((enroll userId courseId adminOverride).run handle around s) ↔
      Recovers around (created around s userId courseId) := by
  rw [enroll_unrecorded h hcall, recovers_unrecorded hcall]
  cases hremove : around.fails
      (.query (.remove .enrollment (created around s userId courseId))) with
  | none =>
    refine iff_of_true ⟨fun other hother _ _ => ?_, rolledBack_chain⟩ rfl
    unfold rolledBack begun at hother
    rw [hremove] at hother
    simp only [State.put_tables_self, Repository.mem_remove, Repository.mem_save] at hother
    rcases hother with ⟨rfl | ⟨hother, -⟩, hne⟩
    · exact absurd rfl hne
    · exact hother
  | some y =>
    refine iff_of_false ?_ nofun
    rintro ⟨hrows, -⟩
    -- The row stays, though the call fails.
    refine created_not_mem h (hrows _ ?_ rfl rfl)
    unfold rolledBack begun
    rw [hremove]
    simp only [State.put_tables_self, Repository.mem_save, true_or]

theorem allOrNothing_recorded (h : Begins around s userId courseId adminOverride)
    (hcall : around.fails
      (.stellar (anchoring around (created around s userId courseId)).1) = none) :
    AllOrNothing s userId courseId
        ((enroll userId courseId adminOverride).run handle around s) ↔
      Recovers around (created around s userId courseId) := by
  rw [recovers_recorded hcall]
  cases hsave : around.fails (.query (.save .enrollment (anchored (created around s userId courseId)
      (anchoring around (created around s userId courseId)).2))) with
  | none =>
    rw [enroll_recorded h hcall hsave]
    refine iff_of_true ⟨?_, rfl, rfl, _, rfl, rfl⟩ rfl
    change confirmed around _ ∈ (State.put _ _ _).tables .enrollment
    rw [State.put_tables_self, Repository.mem_save]
    exact .inl rfl
  | some x =>
    rw [enroll_unsaved h hcall hsave]
    refine iff_of_false ?_ nofun
    rintro ⟨-, hchain⟩
    -- `remove` does not take the entry on the chain back.
    rw [rolledBack_chain] at hchain
    exact List.cons_ne_self _ _ hchain

/-- The enrollment is made as a whole or not at all exactly when a call that comes past its first
`save` recovers from what fails then. -/
theorem enroll_all_or_nothing_iff (around : Surroundings) (s : State) (userId courseId : String)
    (adminOverride : Bool) :
    AllOrNothing s userId courseId
        ((enroll userId courseId adminOverride).run handle around s) ↔
      (Begins around s userId courseId adminOverride →
        Recovers around (created around s userId courseId)) := by
  by_cases h : Begins around s userId courseId adminOverride
  · have hrecovers : AllOrNothing s userId courseId
          ((enroll userId courseId adminOverride).run handle around s) ↔
        Recovers around (created around s userId courseId) := by
      cases hcall : around.fails (.stellar
          (anchoring around (created around s userId courseId)).1) with
      | some x => exact allOrNothing_unrecorded h hcall
      | none => exact allOrNothing_recorded h hcall
    rw [hrecovers]
    exact ⟨fun h' _ => h', fun h' => h' h⟩
  · obtain ⟨x, hrefused⟩ := enroll_refused h
    rw [hrefused]
    exact iff_of_true ⟨fun row hrow _ _ => hrow, rfl⟩ fun hbegins => absurd hbegins h

/-! ## Left behind -/

def exampleAround (fails : Request → Option HttpException) : Surroundings where
  now := 0
  key := fun _ _ => "e1"
  hash := fun _ => "tx1"
  fails := fails

/-- The second `save` fails. -/
def exampleUnsaved : Request → Option HttpException
  | .query (.save _ _) => some (.internal "Connection terminated")
  | _ => none

/-- The chain does not answer, and the row cannot be removed. -/
def exampleUnrecorded : Request → Option HttpException
  | .stellar _ => some (.internal "Timeout")
  | .query (.remove _ _) => some (.internal "Connection terminated")
  | _ => none

/-- Once there is an entry on the chain and no row, once a row and no entry. -/
theorem enroll_left_behind :
    let outcome fails := (enroll "u1" "c1" false).run handle (exampleAround fails) .empty
    let rows fails := ((outcome fails).2.tables .enrollment).find fun _ => true
    (outcome exampleUnsaved).1 = .error recordingFailed ∧
      (outcome exampleUnsaved).2.chain = [(.recordEnrollment "u1" "c1", "tx1")] ∧
      rows exampleUnsaved = [] ∧
      ¬ AllOrNothing .empty "u1" "c1" (outcome exampleUnsaved) ∧
      (outcome exampleUnrecorded).1 = .error recordingFailed ∧
      (outcome exampleUnrecorded).2.chain = [] ∧
      rows exampleUnrecorded = [⟨"e1", 0, 0, ⟨"u1", "c1", none, none, none⟩⟩] ∧
      ¬ AllOrNothing .empty "u1" "c1" (outcome exampleUnrecorded) := by
  refine ⟨rfl, rfl, rfl, ?_, rfl, rfl, rfl, ?_⟩
  · rintro ⟨-, hchain⟩
    cases hchain
  · rintro ⟨hrows, -⟩
    exact Repository.not_mem_empty
      (hrows ⟨"e1", 0, 0, ⟨"u1", "c1", none, none, none⟩⟩ rfl rfl rfl)

end Scoopdope.Enrollments
