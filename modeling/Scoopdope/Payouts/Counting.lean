import Scoopdope.Database.Batches
import Scoopdope.Payouts.PaidOnce

/-!
# Payouts: counting the completions

`calculatePayouts` fetches the completions of a course in batches, and skips a batch that cannot be
fetched.

* `payout_loops_end_iff`: the loops end exactly when, for each course, a fetch succeeds that
  reaches past its last completion. Where none does, a loop goes on for ever.
* `paged_count_exact`: where finitely many fetches fail, each payout counts the completions outside
  of the failed batches, and each of them once.
-/

namespace Scoopdope.Payouts

open Database Server Users

namespace World

variable (w : World) (courseId : String) (startDate endDate : Int)

/-- The fetches that the completions of a course need, if all of them succeed. -/
def batches : Nat :=
  ((w.completions courseId startDate endDate).length + w.batchSize - 1) / w.batchSize

/-- A fetch of the course fails. -/
def batchFails (offset : Nat) : Bool := (w.fails (.fetchBatch courseId offset)).isSome

/-- The completions outside of the batches that fail. -/
def fetched : List EnrollmentRow :=
  outsideFailed w.batchSize (w.batchFails courseId) (w.completions courseId startDate endDate) 0

/-- The loop over the batches of a course ends, with one more fetch than the completions need, at
most, and those that fail. -/
def LoopEnds : Prop :=
  ∃ fetches, (w.countCompletions courseId startDate endDate fetches 0).isSome ∧
    fetches ≤ w.batches courseId startDate endDate + 1 +
      failedFetches w.batchSize (w.batchFails courseId) fetches

/-- A fetch succeeds that reaches past the last completion of the course. -/
def FetchedPastEnd : Prop :=
  ∃ k, w.fails (.fetchBatch courseId (k * w.batchSize)) = none ∧
    (w.completions courseId startDate endDate).length < (k + 1) * w.batchSize

/-- The payouts of the courses that have completions outside of the failed batches. -/
def countedPayouts (courses : List (CourseRow × User)) : List (Payout × List EnrollmentRow) :=
  (courses.map fun (course, instructor) =>
    let completions := w.fetched course.id startDate endDate
    (w.newPayout course instructor completions.length, completions)).filter fun payout =>
      payout.2.length ≠ 0

end World

variable {w : World} {courseId : String} {startDate endDate : Int} {fetches : Nat}

/-! ## One course -/

theorem countCompletions_eq (offset : Nat) :
    w.countCompletions courseId startDate endDate fetches offset =
      fetchBatches w.batchSize (w.batchFails courseId) (w.completions courseId startDate endDate)
        fetches offset := by
  induction fetches generalizing offset with
  | zero => rfl
  | succ fetches ih =>
    rw [World.countCompletions, fetchBatches, ih, World.batchFails]
    cases w.fails (.fetchBatch courseId offset) <;> rfl

theorem ends_iff (k : Nat) :
    Ends w.batchSize (w.batchFails courseId) (w.completions courseId startDate endDate) 0 k ↔
      w.fails (.fetchBatch courseId (k * w.batchSize)) = none ∧
        (w.completions courseId startDate endDate).length < (k + 1) * w.batchSize := by
  rw [Ends, Nat.zero_add, Nat.zero_add, World.batchFails, Option.isSome_eq_false_iff,
    Option.isNone_iff_eq_none]

theorem loopEnds_iff :
    w.LoopEnds courseId startDate endDate ↔ w.FetchedPastEnd courseId startDate endDate := by
  have hpast : w.FetchedPastEnd courseId startDate endDate ↔
      ∃ fetches, (w.countCompletions courseId startDate endDate fetches 0).isSome := by
    simp only [countCompletions_eq, fetchBatches_ends_iff w.batchSize_pos, ends_iff,
      World.FetchedPastEnd]
  rw [hpast]
  constructor
  · rintro ⟨fetches, hends, -⟩
    exact ⟨fetches, hends⟩
  · intro hends
    -- One fetch less would not have ended the loop.
    classical
    obtain ⟨fetches, hfetches⟩ : ∃ fetches, Nat.find hends = fetches + 1 := by
      refine Nat.exists_eq_succ_of_ne_zero fun hzero => ?_
      have hsome := Nat.find_spec hends
      rw [hzero] at hsome
      cases hsome
    have hnone : w.countCompletions courseId startDate endDate fetches 0 = none :=
      Option.not_isSome_iff_eq_none.mp (Nat.find_min hends (by omega))
    rw [countCompletions_eq] at hnone
    have hle := fetches_le w.batchSize_pos hnone
    have hneeded : (w.completions courseId startDate endDate).length / w.batchSize ≤
        w.batches courseId startDate endDate := Nat.div_le_div_right (by
      have hpos := w.batchSize_pos
      omega)
    have hfailed : failedFetches w.batchSize (w.batchFails courseId) fetches ≤
        failedFetches w.batchSize (w.batchFails courseId) (fetches + 1) := by
      rw [failedFetches, failedFetches, List.range_succ, List.countP_append]
      exact Nat.le_add_right _ _
    refine ⟨fetches + 1, hfetches ▸ Nat.find_spec hends, by omega⟩

/-- A loop that ends has counted the completions outside of the failed batches. -/
theorem countCompletions_eq_some {counted : List EnrollmentRow}
    (h : w.countCompletions courseId startDate endDate fetches 0 = some counted) :
    counted = w.fetched courseId startDate endDate := by
  rw [countCompletions_eq, ← Nat.zero_mul w.batchSize] at h
  have hfetched := fetchBatches_eq_some w.batchSize_pos h
  rw [Nat.zero_mul] at hfetched
  exact hfetched

/-- From some number of fetches on, the loop ends. -/
theorem countCompletions_of_past (h : w.FetchedPastEnd courseId startDate endDate) :
    ∃ n, ∀ fetches, n ≤ fetches →
      w.countCompletions courseId startDate endDate fetches 0 =
        some (w.fetched courseId startDate endDate) := by
  obtain ⟨k, hk⟩ := h
  refine ⟨k + 1, fun fetches hfetches => ?_⟩
  have hsome : (w.countCompletions courseId startDate endDate fetches 0).isSome := by
    rw [countCompletions_eq]
    exact (fetchBatches_isSome_iff w.batchSize_pos).mpr ⟨k, hfetches, (ends_iff k).mpr hk⟩
  obtain ⟨counted, hcounted⟩ := Option.isSome_iff_exists.mp hsome
  rw [hcounted, countCompletions_eq_some hcounted]

/-! ## All courses -/

variable {courses : List (CourseRow × User)}

theorem newPayouts_eq
    (h : ∀ entry ∈ courses, w.countCompletions entry.1.id startDate endDate fetches 0 =
      some (w.fetched entry.1.id startDate endDate)) :
    w.newPayouts startDate endDate fetches courses =
      some (w.countedPayouts startDate endDate courses) := by
  induction courses with
  | nil => rfl
  | cons entry courses ih =>
    obtain ⟨course, instructor⟩ := entry
    have hrest := ih fun entry hentry => h entry (List.mem_cons_of_mem _ hentry)
    rw [World.newPayouts, h (course, instructor) List.mem_cons_self, hrest]
    show (if _ then _ else _) = some (List.filter _ (_ :: _))
    by_cases hnone : (w.fetched course.id startDate endDate).length = 0
    · rw [if_pos hnone, List.filter_cons_of_neg (by simpa using hnone)]
      rfl
    · rw [if_neg hnone, List.filter_cons_of_pos (by simpa using hnone)]
      rfl

/-- From some number of fetches on, all loops end. -/
theorem newPayouts_of_past
    (h : ∀ entry ∈ courses, w.FetchedPastEnd entry.1.id startDate endDate) :
    ∃ n, ∀ fetches, n ≤ fetches → w.newPayouts startDate endDate fetches courses =
      some (w.countedPayouts startDate endDate courses) := by
  have hloops : ∃ n, ∀ fetches, n ≤ fetches → ∀ entry ∈ courses,
      w.countCompletions entry.1.id startDate endDate fetches 0 =
        some (w.fetched entry.1.id startDate endDate) := by
    induction courses with
    | nil => exact ⟨0, fun _ _ _ hentry => absurd hentry List.not_mem_nil⟩
    | cons entry courses ih =>
      obtain ⟨n, hn⟩ := countCompletions_of_past (h entry List.mem_cons_self)
      obtain ⟨m, hm⟩ := ih fun entry hentry => h entry (List.mem_cons_of_mem _ hentry)
      refine ⟨max n m, fun fetches hfetches => List.forall_mem_cons.mpr ⟨?_, ?_⟩⟩
      · exact hn fetches ((le_max_left n m).trans hfetches)
      · exact hm fetches ((le_max_right n m).trans hfetches)
  obtain ⟨n, hn⟩ := hloops
  exact ⟨n, fun fetches hfetches => newPayouts_eq (hn fetches hfetches)⟩

/-- The loops over the batches of the courses end in time, and the loop over the courses with them,
exactly when for each course a fetch succeeds that reaches past its last completion. -/
theorem payout_loops_end_iff (w : World) (startDate endDate : Int) :
    (∀ entry ∈ w.taught, w.LoopEnds entry.1.id startDate endDate) ∧
        (∃ fetches, (w.newPayouts startDate endDate fetches w.taught).isSome) ↔
      ∀ entry ∈ w.taught, w.FetchedPastEnd entry.1.id startDate endDate := by
  constructor
  · rintro ⟨hends, -⟩ entry hentry
    exact loopEnds_iff.mp (hends entry hentry)
  · intro hpast
    refine ⟨fun entry hentry => loopEnds_iff.mpr (hpast entry hentry), ?_⟩
    obtain ⟨n, hn⟩ := newPayouts_of_past hpast
    exact ⟨n, by rw [hn n (le_refl n)]; rfl⟩

/-- The completed course, with a database that answers no fetch of a batch. -/
def unreachable : World :=
  { taughtCourse 1 "p" with
    fails
      | .fetchBatch _ _ => some (.internal "DB connection timeout")
      | _ => none }

theorem payout_loop_goes_on :
    (∀ fetches, unreachable.countCompletions "c" 0 10 fetches 0 = none) ∧
      ¬ ((∀ entry ∈ unreachable.taught, unreachable.LoopEnds entry.1.id 0 10) ∧
        ∃ fetches, (unreachable.newPayouts 0 10 fetches unreachable.taught).isSome) := by
  have hloop (fetches : Nat) : unreachable.countCompletions "c" 0 10 fetches 0 = none := by
    rw [countCompletions_eq, ← Option.not_isSome_iff_eq_none,
      fetchBatches_isSome_iff unreachable.batchSize_pos]
    rintro ⟨k, -, hends⟩
    cases ((ends_iff k).mp hends).1
  refine ⟨hloop, ?_⟩
  rintro ⟨hends, -⟩
  have hmem : ∃ instructor, (⟨"c", some "i"⟩, instructor) ∈ unreachable.taught := ⟨_, .head _⟩
  obtain ⟨instructor, hmem⟩ := hmem
  obtain ⟨fetches, hsome, -⟩ := hends _ hmem
  rw [hloop] at hsome
  cases hsome

/-! ## What is counted -/

theorem pastEnd_of_finite
    (h : {k | (w.fails (.fetchBatch courseId (k * w.batchSize))).isSome}.Finite) :
    w.FetchedPastEnd courseId startDate endDate := by
  obtain ⟨last, hlast⟩ := h.bddAbove
  let k := max (last + 1) (w.completions courseId startDate endDate).length
  refine ⟨k, ?_, ?_⟩
  · by_contra hfails
    have hle : k ≤ last := hlast (Option.isSome_iff_ne_none.mpr hfails)
    have hlt : last + 1 ≤ k := le_max_left _ _
    omega
  · calc (w.completions courseId startDate endDate).length ≤ k := le_max_right _ _
      _ < k + 1 := Nat.lt_succ_self k
      _ ≤ (k + 1) * w.batchSize := Nat.le_mul_of_pos_right _ w.batchSize_pos

theorem nodup_fetched :
    ((w.fetched courseId startDate endDate).map fun row => row.id).Nodup := by
  have hids : ((w.completions courseId startDate endDate).map fun row => row.id).Nodup :=
    ((List.perm_insertionSort _ _).map _).nodup_iff.mpr Repository.nodup_find_keys
  exact hids.sublist ((outsideFailed_sublist _ 0).map _)

theorem length_fetched (h : ∀ offset, w.fails (.fetchBatch courseId offset) = none) :
    (w.fetched courseId startDate endDate).length =
      (w.enrollments.find (World.isCompletion courseId startDate endDate)).length := by
  have hnone (k : Nat) : w.batchFails courseId (k * w.batchSize) = false := by
    rw [World.batchFails, h]
    rfl
  rw [World.fetched, outsideFailed_of_none hnone, World.completions,
    (List.perm_insertionSort _ _).length_eq]

/-- Where finitely many fetches fail, the loops end, and for each course the payout counts the
completions outside of the failed batches, each of them once; if none fails, these are all. The fee
and the share of the instructor make up the revenue. -/
theorem paged_count_exact (w : World) (startDate endDate : Int)
    (hfinite : ∀ entry ∈ w.taught,
      {k | (w.fails (.fetchBatch entry.1.id (k * w.batchSize))).isSome}.Finite) :
    (∃ n, ∀ fetches, n ≤ fetches → w.newPayouts startDate endDate fetches w.taught =
      some (w.countedPayouts startDate endDate w.taught)) ∧
    ∀ entry ∈ w.taught,
      let completions := w.fetched entry.1.id startDate endDate
      let payout := w.newPayout entry.1 entry.2 completions.length
      (completions.map fun row => row.id).Nodup ∧
      ((∀ offset, w.fails (.fetchBatch entry.1.id offset) = none) → completions.length =
        (w.enrollments.find (World.isCompletion entry.1.id startDate endDate)).length) ∧
      payout.totalRevenue = completions.length * w.coursePrice entry.1.id ∧
      payout.platformFee + payout.instructorShare = payout.totalRevenue := by
  refine ⟨newPayouts_of_past fun entry hentry => pastEnd_of_finite (hfinite entry hentry),
    fun entry _ => ⟨nodup_fetched, length_fetched, rfl, ?_⟩⟩
  exact add_sub_cancel _ _

/-- Five completions of the course in batches of two, of which the second cannot be fetched. -/
def secondBatchFails : World :=
  { taughtCourse 1 "p" with
    batchSize := 2
    batchSize_pos := by decide
    enrollments := ["a", "b", "c", "d", "e"].foldl
      (fun rows id => rows.save ⟨id, 0, 0, ⟨"u", "c", some 5, none, none⟩⟩) Repository.empty
    fails
      | .fetchBatch _ offset =>
        if offset = 2 then some (.internal "DB connection timeout") else none
      | _ => none }

theorem paged_count_exact_second :
    ∃ n, ∀ fetches, n ≤ fetches →
      (secondBatchFails.newPayouts 0 10 fetches secondBatchFails.taught).map (fun payouts =>
        payouts.map fun payout => (payout.2.map (fun row => row.id), payout.1.totalRevenue)) =
        some [(["a", "b", "e"], 300)] := by
  have hfinite : ∀ entry ∈ secondBatchFails.taught,
      {k | (secondBatchFails.fails
        (.fetchBatch entry.1.id (k * secondBatchFails.batchSize))).isSome}.Finite := by
    refine fun entry _ => (Set.finite_singleton 1).subset fun k hk => ?_
    by_contra hne
    have hoffset : k * 2 ≠ 2 := fun h => hne (by rw [Set.mem_singleton_iff]; omega)
    have hnone : secondBatchFails.fails (.fetchBatch entry.1.id (k * 2)) = none := if_neg hoffset
    change (secondBatchFails.fails (.fetchBatch entry.1.id (k * 2))).isSome = true at hk
    rw [hnone] at hk
    cases hk
  obtain ⟨n, hn⟩ := (paged_count_exact secondBatchFails 0 10 hfinite).1
  refine ⟨n, fun fetches hfetches => ?_⟩
  rw [hn fetches hfetches]
  decide +kernel

end Scoopdope.Payouts
