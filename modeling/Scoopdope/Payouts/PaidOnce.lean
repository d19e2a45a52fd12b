import Scoopdope.Payouts.Service
import Scoopdope.Soroban.History

/-!
# Payouts: paid once

Runs of `calculatePayouts` and `processPayout`. The first counts the completions between two dates,
whether they have been counted before or not; the second does not look at the status of the payout.

`paid_once_iff`: processed payouts keep their status and transaction, are transferred once, and
share no completion, throughout a run that starts without payouts, exactly when no call counts a
completion again and no call comes to save a payout that is processed already.
-/

namespace Scoopdope.Payouts

open Database Server Soroban

inductive Call
  | calculatePayouts (startDate endDate : Int) (fetches : Nat)
  | processPayout (payoutId : String)

def next (table : PayoutTable) : World × Call → PayoutTable
  | (w, .calculatePayouts startDate endDate fetches) =>
    (w.calculatePayouts startDate endDate fetches table).2
  | (w, .processPayout payoutId) => (w.processPayout payoutId table).2

def exec (table : PayoutTable) (i : World × Call) : Outcome PayoutTable := .ok (next table i)

/-- The payouts after a run that starts without any. -/
abbrev reached (past : List (World × Call)) : PayoutTable := after exec Repository.empty past

/-- Which payout counts which completion, by their ids. -/
def contributions (rows : List (PayoutRow × List EnrollmentRow)) : List (String × String) :=
  rows.flatMap fun (row, completions) => completions.map fun completion => (row.id, completion.id)

/-- The completions that the payouts of a run count. -/
def counted : List (World × Call) → List (String × String)
  | [] => []
  | (w, .calculatePayouts startDate endDate fetches) :: past =>
    contributions ((w.inserts startDate endDate fetches (reached past)).getD []) ++ counted past
  | (_, .processPayout _) :: past => counted past

/-- The payouts that the calls of a run transfer, newest first. -/
def transfers : List (World × Call) → List String
  | [] => []
  | (_, .calculatePayouts _ _ _) :: past => transfers past
  | (w, .processPayout payoutId) :: past =>
    if (w.processPayout payoutId (reached past)).1.isOk then payoutId :: transfers past
    else transfers past

structure PaidOnce (past : List (World × Call)) : Prop where
  /-- A processed payout keeps its status and its transaction. -/
  kept : ∀ earlier, earlier <:+ past → ∀ payoutId row,
    (reached earlier).get payoutId = some row → row.data.status = .processed →
    ∃ row', (reached past).get payoutId = some row' ∧ row'.data.status = .processed ∧
      row'.data.transactionId = row.data.transactionId
  /-- It is transferred once. -/
  transferred : (transfers past).Nodup
  /-- No completion is counted by two payouts. -/
  distinct : ∀ p q completion, (p, completion) ∈ counted past → (q, completion) ∈ counted past →
    p = q

/-- The call comes to save the payout, and the save succeeds. -/
structure World.Saves (w : World) (row : PayoutRow) : Prop where
  found : w.fails .findPayout = none
  key : (w.stellarPublicKey row.data).isSome = true
  answered : w.fails .isApproved = none
  saved : w.fails .savePayout = none

/-- The call counts no completion again, and saves no payout that is processed. -/
def Fair (past : List (World × Call)) : World × Call → Prop
  | (w, .calculatePayouts startDate endDate fetches) =>
    ∀ rows, w.inserts startDate endDate fetches (reached past) = some rows →
      ∀ row ∈ rows, ∀ completion ∈ row.2, ∀ p, (p, completion.id) ∉ counted past
  | (w, .processPayout payoutId) =>
    ∀ row, (reached past).get payoutId = some row → row.data.status = .processed → ¬ w.Saves row

/-! ## What a calculation inserts -/

variable {w : World} {startDate endDate : Int} {fetches : Nat} {table : PayoutTable}

theorem mem_completions {courseId : String} {row : EnrollmentRow}
    (h : row ∈ w.completions courseId startDate endDate) :
    row ∈ w.enrollments ∧ row.data.courseId = courseId := by
  unfold World.completions at h
  rw [List.mem_insertionSort, Repository.mem_find] at h
  obtain ⟨hrow, hholds⟩ := h
  simp only [World.isCompletion, Bool.and_eq_true, decide_eq_true_eq] at hholds
  exact ⟨hrow, hholds.1⟩

/-- The loop counts completions of the course. -/
theorem mem_countCompletions {courseId : String} {counted : List EnrollmentRow} {offset : Nat}
    (h : w.countCompletions courseId startDate endDate fetches offset = some counted)
    {row : EnrollmentRow} (hrow : row ∈ counted) :
    row ∈ w.enrollments ∧ row.data.courseId = courseId := by
  have hbatch {offset : Nat} (h : row ∈ w.batch courseId startDate endDate offset) :
      row ∈ w.enrollments ∧ row.data.courseId = courseId :=
    mem_completions (List.mem_of_mem_drop (List.mem_of_mem_take h))
  induction fetches generalizing offset counted with
  | zero => cases h
  | succ fetches ih =>
    rw [World.countCompletions] at h
    split at h
    · exact ih h hrow
    · dsimp only at h
      split at h
      · cases h
        cases hrow
      · split at h
        · cases h
          exact hbatch hrow
        · obtain ⟨rest, hrest, rfl⟩ := Option.map_eq_some_iff.mp h
          rcases List.mem_append.mp hrow with hrow | hrow
          · exact hbatch hrow
          · exact ih hrest hrow

/-- New payouts are pending and count completions of their course, of which each has one. -/
theorem newPayouts_spec {courses : List (CourseRow × Users.User)}
    {payouts : List (Payout × List EnrollmentRow)}
    (h : w.newPayouts startDate endDate fetches courses = some payouts) :
    (payouts.map fun payout => payout.1.courseId).Sublist (courses.map fun course => course.1.id) ∧
      ∀ payout ∈ payouts, payout.1.status = .pending ∧
        ∀ completion ∈ payout.2,
          completion ∈ w.enrollments ∧ completion.data.courseId = payout.1.courseId := by
  induction courses generalizing payouts with
  | nil =>
    cases h
    exact ⟨.slnil, fun _ hmem => absurd hmem List.not_mem_nil⟩
  | cons entry courses ih =>
    obtain ⟨course, instructor⟩ := entry
    obtain ⟨completions, hcompletions, h⟩ := Option.bind_eq_some_iff.mp h
    obtain ⟨rest, hrest, h⟩ := Option.bind_eq_some_iff.mp h
    obtain ⟨hcourses, hrows⟩ := ih hrest
    split at h
    · cases h
      exact ⟨hcourses.cons _, hrows⟩
    · cases h
      refine ⟨hcourses.cons_cons _, fun payout hmem => ?_⟩
      rcases List.mem_cons.mp hmem with rfl | hmem
      · exact ⟨rfl, fun completion hrow => mem_countCompletions hcompletions hrow⟩
      · exact hrows payout hmem

theorem taught_nodup : (w.taught.map fun course => course.1.id).Nodup := by
  have hsublist (courses : List CourseRow) :
      ((courses.filterMap fun course =>
        (course.instructorId.bind w.users.get).map fun instructor => (course, instructor)).map
          fun course => course.1.id).Sublist (courses.map CourseRow.id) := by
    induction courses with
    | nil => exact .slnil
    | cons course courses ih =>
      rcases hinstructor : course.instructorId.bind w.users.get with - | instructor
      · rw [List.filterMap_cons_none (by rw [hinstructor]; rfl)]
        exact ih.cons _
      · rw [List.filterMap_cons_some (b := (course, instructor)) (by rw [hinstructor]; rfl)]
        exact ih.cons_cons _
  exact Repository.nodup_find_keys.sublist (hsublist _)

/-- What is said of the rows that a call inserts. -/
structure Inserted (table : PayoutTable) (rows : List (PayoutRow × List EnrollmentRow)) :
    Prop where
  ids : (rows.map fun row => row.1.id).Nodup
  fresh : ∀ row ∈ rows, table.get row.1.id = none
  pending : ∀ row ∈ rows, row.1.data.status = .pending
  separate : ∀ x ∈ rows, ∀ y ∈ rows, ∀ a ∈ x.2, ∀ b ∈ y.2, a.id = b.id → x = y

theorem inserts_spec {rows : List (PayoutRow × List EnrollmentRow)}
    (h : w.inserts startDate endDate fetches table = some rows) : Inserted table rows := by
  obtain ⟨payouts, hpayouts, h⟩ := Option.bind_eq_some_iff.mp h
  split at h
  · next hinsertable =>
    cases h
    obtain ⟨-, -, hids, hfresh⟩ := hinsertable
    obtain ⟨hcourses, hspec⟩ := newPayouts_spec hpayouts
    have hcourse : ((w.rows payouts).map fun row => row.1.data.courseId).Nodup := by
      have heq : (w.rows payouts).map (fun row => row.1.data.courseId) =
          payouts.map fun payout => payout.1.courseId := by
        refine List.ext_getElem (by simp [World.rows]) fun i _ _ => ?_
        simp [World.rows]
      rw [heq]
      exact taught_nodup.sublist hcourses
    have hrow {row : PayoutRow × List EnrollmentRow} (hrow : row ∈ w.rows payouts) :
        ∃ payout ∈ payouts, row.1.data = payout.1 ∧ row.2 = payout.2 := by
      obtain ⟨i, hi, rfl⟩ := List.mem_mapIdx.mp hrow
      exact ⟨payouts[i], List.getElem_mem hi, rfl, rfl⟩
    refine ⟨hids, hfresh, fun row hmem => ?_, fun x hx y hy a ha b hb hab => ?_⟩
    · obtain ⟨payout, hpayout, hdata, -⟩ := hrow hmem
      rw [hdata]
      exact (hspec payout hpayout).1
    · obtain ⟨p, hp, hpdata, hpcounted⟩ := hrow hx
      obtain ⟨q, hq, hqdata, hqcounted⟩ := hrow hy
      rw [hpcounted] at ha
      rw [hqcounted] at hb
      obtain ⟨harow, hacourse⟩ := (hspec p hp).2 a ha
      obtain ⟨hbrow, hbcourse⟩ := (hspec q hq).2 b hb
      have hsame : a = b := by
        rw [Repository.mem_def, hab] at harow
        exact Option.some.inj (harow.symm.trans hbrow)
      refine List.inj_on_of_nodup_map hcourse hx hy ?_
      rw [hpdata, hqdata, ← hacourse, ← hbcourse, hsame]
  · cases h

/-- The payouts after rows with distinct ids are inserted. -/
theorem get_inserted {rows : List (PayoutRow × List EnrollmentRow)}
    (hids : (rows.map fun row => row.1.id).Nodup) (payoutId : String) :
    (rows.foldl (fun table row => table.save row.1) table).get payoutId =
      ((rows.find? fun row => row.1.id = payoutId).map Prod.fst).or (table.get payoutId) := by
  induction rows generalizing table with
  | nil => rfl
  | cons row rows ih =>
    obtain ⟨hrow, hrest⟩ := List.nodup_cons.mp hids
    rw [List.foldl_cons, ih hrest, Repository.get_save]
    by_cases hid : row.1.id = payoutId
    · have hnone : rows.find? (fun row => row.1.id = payoutId) = none := by
        refine List.find?_eq_none.mpr fun other hmem hother => hrow ?_
        exact List.mem_map.mpr ⟨other, hmem, (of_decide_eq_true hother).trans hid.symm⟩
      rw [hnone, List.find?_cons, decide_eq_true hid, if_pos hid.symm]
      rfl
    · rw [List.find?_cons, decide_eq_false hid, if_neg fun h => hid h.symm]

/-- A payout after a calculation is new, and pending, or there before. -/
theorem get_next {rows : List (PayoutRow × List EnrollmentRow)} (hrows : Inserted table rows)
    {payoutId : String} {row : PayoutRow}
    (h : (rows.foldl (fun table row => table.save row.1) table).get payoutId = some row) :
    row.data.status = .pending ∨ table.get payoutId = some row := by
  rw [get_inserted hrows.ids] at h
  cases hfound : rows.find? fun row => row.1.id = payoutId with
  | none =>
    rw [hfound] at h
    exact .inr h
  | some inserted =>
    rw [hfound] at h
    cases h
    exact .inl (hrows.pending inserted (List.mem_of_find?_eq_some hfound))

/-- A calculation keeps the payouts that are there. -/
theorem get_kept {rows : List (PayoutRow × List EnrollmentRow)} (hrows : Inserted table rows)
    {payoutId : String} {row : PayoutRow} (h : table.get payoutId = some row) :
    (rows.foldl (fun table row => table.save row.1) table).get payoutId = some row := by
  have hnone : rows.find? (fun row => row.1.id = payoutId) = none := by
    refine List.find?_eq_none.mpr fun inserted hmem hid => ?_
    have hfresh := hrows.fresh inserted hmem
    rw [of_decide_eq_true hid, h] at hfresh
    cases hfresh
  rw [get_inserted hrows.ids, hnone]
  exact h

/-- The payouts that are inserted are there. -/
theorem get_new {rows : List (PayoutRow × List EnrollmentRow)} (hrows : Inserted table rows)
    {row : PayoutRow × List EnrollmentRow} (hrow : row ∈ rows) :
    ((rows.foldl (fun table row => table.save row.1) table).get row.1.id).isSome := by
  rw [get_inserted hrows.ids]
  cases hfound : rows.find? fun other => other.1.id = row.1.id with
  | none => exact absurd (decide_eq_true rfl) (List.find?_eq_none.mp hfound row hrow)
  | some _ => rfl

/-! ## What a call of processPayout does -/

/-- What it answers and the payouts that it leaves: it does not come to a save that succeeds, or it
saves the payout as failed, or as processed. -/
inductive Processing (w : World) (payoutId : String) (table : PayoutTable) :
    Except HttpException PayoutRow × PayoutTable → Prop
  | unsaved {x : HttpException} (h : ∀ row, table.get payoutId = some row → ¬ w.Saves row) :
    Processing w payoutId table (.error x, table)
  | failed {x : HttpException} {row : PayoutRow} (h : table.get payoutId = some row)
    (hsaves : w.Saves row) :
    Processing w payoutId table (.error x, table.save (World.markFailed row))
  | processed {row : PayoutRow} (h : table.get payoutId = some row) (hsaves : w.Saves row) :
    Processing w payoutId table (.ok (w.markProcessed row), table.save (w.markProcessed row))

theorem processPayout_spec (w : World) (payoutId : String) (table : PayoutTable) :
    Processing w payoutId table (w.processPayout payoutId table) := by
  unfold World.processPayout
  cases hfind : w.fails .findPayout with
  | some x =>
    refine .unsaved fun row _ hsaves => ?_
    rw [hsaves.found] at hfind
    cases hfind
  | none =>
    cases hrow : table.get payoutId with
    | none =>
      refine .unsaved fun row h _ => ?_
      rw [hrow] at h
      cases h
    | some row =>
      have hunsaved {x : HttpException} (h : ¬ w.Saves row) :
          Processing w payoutId table (.error x, table) :=
        .unsaved fun row' hrow' hsaves => h (Option.some.inj (hrow.symm.trans hrow') ▸ hsaves)
      dsimp only
      cases hkey : w.stellarPublicKey row.data with
      | none =>
        refine hunsaved fun hsaves => ?_
        have := hsaves.key
        rw [hkey] at this
        cases this
      | some stellarPublicKey =>
        dsimp only
        cases hanswered : w.fails .isApproved with
        | some x =>
          refine hunsaved fun hsaves => ?_
          rw [hsaves.answered] at hanswered
          cases hanswered
        | none =>
          dsimp only [World.savePayout]
          cases hsaved : w.fails .savePayout with
          | some x =>
            have hnot : ¬ w.Saves row := by
              intro hsaves
              rw [hsaves.saved] at hsaved
              cases hsaved
            split
            · exact hunsaved hnot
            · exact hunsaved hnot
          | none =>
            have hsaves : w.Saves row := ⟨hfind, by rw [hkey]; rfl, hanswered, hsaved⟩
            split
            · exact .failed hrow hsaves
            · exact .processed hrow hsaves

section Processing

variable {payoutId payoutId' : String} {result : Except HttpException PayoutRow × PayoutTable}

/-- No payout is removed. -/
theorem Processing.isSome (h : Processing w payoutId table result) :
    (result.2.get payoutId').isSome = (table.get payoutId').isSome := by
  cases h with
  | unsaved => rfl
  | @failed x row h =>
    have hfound : table.get (World.markFailed row).id = some row := by
      rw [World.id_markFailed, Repository.key_of_get h]
      exact h
    exact Repository.isSome_get_save (World.markFailed row) hfound payoutId'
  | @processed row h =>
    have hfound : table.get (w.markProcessed row).id = some row := by
      rw [World.id_markProcessed, Repository.key_of_get h]
      exact h
    exact Repository.isSome_get_save (w.markProcessed row) hfound payoutId'

/-- A payout changes if it is the one that is saved. -/
theorem Processing.get (h : Processing w payoutId table result) {row : PayoutRow}
    (hrow : table.get payoutId' = some row) (hkept : payoutId' = payoutId → ¬ w.Saves row) :
    result.2.get payoutId' = some row := by
  have hother {saved : PayoutRow} (hget : table.get payoutId = some saved)
      (hsaves : w.Saves saved) : payoutId' ≠ saved.id := by
    intro hid
    have hsame : payoutId' = payoutId := hid.trans (Repository.key_of_get hget)
    rw [hsame, hget] at hrow
    cases hrow
    exact hkept hsame hsaves
  cases h with
  | unsaved => exact hrow
  | failed hget hsaves =>
    rw [Repository.get_save, World.id_markFailed, if_neg (hother hget hsaves)]
    exact hrow
  | processed hget hsaves =>
    rw [Repository.get_save, World.id_markProcessed, if_neg (hother hget hsaves)]
    exact hrow

end Processing

/-! ## Runs -/

variable {past : List (World × Call)} {payoutId : String}

theorem reached_cons (i : World × Call) : reached (i :: past) = next (reached past) i := rfl

theorem inserted_nil {table : PayoutTable} : Inserted table [] where
  ids := .nil
  fresh _ h := absurd h List.not_mem_nil
  pending _ h := absurd h List.not_mem_nil
  separate _ h := absurd h List.not_mem_nil

theorem inserted (past : List (World × Call)) (w : World) (startDate endDate : Int)
    (fetches : Nat) : Inserted (reached past)
      ((w.inserts startDate endDate fetches (reached past)).getD []) := by
  cases h : w.inserts startDate endDate fetches (reached past) with
  | some rows => exact inserts_spec h
  | none => exact inserted_nil

/-- What a calculation leaves, in a run. -/
theorem reached_calculatePayouts :
    reached ((w, .calculatePayouts startDate endDate fetches) :: past) =
      ((w.inserts startDate endDate fetches (reached past)).getD []).foldl
        (fun table row => table.save row.1) (reached past) := by
  rw [reached_cons, next, World.calculatePayouts]
  cases w.inserts startDate endDate fetches (reached past) <;> rfl

theorem mem_contributions {rows : List (PayoutRow × List EnrollmentRow)}
    {completionId : String} :
    (payoutId, completionId) ∈ contributions rows ↔
      ∃ row ∈ rows, row.1.id = payoutId ∧ ∃ completion ∈ row.2, completion.id = completionId := by
  simp [contributions, and_left_comm]

/-- No call removes a payout. -/
theorem isSome_next (i : World × Call) (h : ((reached past).get payoutId).isSome) :
    ((reached (i :: past)).get payoutId).isSome := by
  obtain ⟨row, hrow⟩ := Option.isSome_iff_exists.mp h
  obtain ⟨w, ⟨startDate, endDate, fetches⟩ | payoutId'⟩ := i
  · rw [reached_calculatePayouts, get_kept (inserted past w startDate endDate fetches) hrow]
    rfl
  · rw [reached_cons, next, (processPayout_spec w payoutId' (reached past)).isSome]
    exact h

/-- The payouts that count completions are there. -/
theorem isSome_of_mem_counted {completionId : String}
    (h : (payoutId, completionId) ∈ counted past) : ((reached past).get payoutId).isSome := by
  induction past with
  | nil => cases h
  | cons i past ih =>
    obtain ⟨w, ⟨startDate, endDate, fetches⟩ | payoutId'⟩ := i
    · rcases List.mem_append.mp h with h | h
      · obtain ⟨row, hrow, rfl, -⟩ := mem_contributions.mp h
        rw [reached_calculatePayouts]
        exact get_new (inserted past w startDate endDate fetches) hrow
      · exact isSome_next _ (ih h)
    · exact isSome_next _ (ih h)

/-- What is processed has been transferred. -/
theorem mem_transfers {row : PayoutRow} (h : (reached past).get payoutId = some row)
    (hstatus : row.data.status = .processed) : payoutId ∈ transfers past := by
  induction past generalizing row with
  | nil => cases h
  | cons i past ih =>
    obtain ⟨w, ⟨startDate, endDate, fetches⟩ | payoutId'⟩ := i
    · rw [reached_calculatePayouts] at h
      rcases get_next (inserted past w startDate endDate fetches) h with hpending | h
      · rw [hpending] at hstatus
        cases hstatus
      · exact ih h hstatus
    · rw [reached_cons, next] at h
      have hspec := processPayout_spec w payoutId' (reached past)
      rw [transfers]
      generalize w.processPayout payoutId' (reached past) = result at h hspec ⊢
      cases hspec with
      | unsaved => exact ih h hstatus
      | failed =>
        rw [Repository.get_save] at h
        split at h
        · cases h
          cases hstatus
        · exact ih h hstatus
      | processed hget =>
        rw [Repository.get_save] at h
        split at h
        · next hid =>
          rw [hid, ← Repository.key_of_get hget]
          exact List.mem_cons_self
        · exact List.mem_cons_of_mem _ (ih h hstatus)

/-- A call keeps the payouts that are processed. -/
def Keeps (past : List (World × Call)) (i : World × Call) : Prop :=
  ∀ payoutId row, (reached past).get payoutId = some row → row.data.status = .processed →
    (reached (i :: past)).get payoutId = some row

theorem keeps_calculatePayouts : Keeps past (w, .calculatePayouts startDate endDate fetches) := by
  intro payoutId row hrow _
  rw [reached_calculatePayouts]
  exact get_kept (inserted past w startDate endDate fetches) hrow

theorem keeps_processPayout (h : Fair past (w, .processPayout payoutId)) :
    Keeps past (w, .processPayout payoutId) := by
  intro payoutId' row hrow hstatus
  rw [reached_cons, next]
  refine (processPayout_spec w payoutId (reached past)).get hrow fun hid => h row ?_ hstatus
  rw [← hid]
  exact hrow

theorem Fair.keeps {i : World × Call} (h : Fair past i) : Keeps past i := by
  obtain ⟨w, ⟨startDate, endDate, fetches⟩ | payoutId⟩ := i
  · exact keeps_calculatePayouts
  · exact keeps_processPayout h

/-- In a run of calls that are fair, what has been transferred is processed. -/
theorem processed_of_mem_transfers (hguarded : Guarded Fair past)
    (h : payoutId ∈ transfers past) :
    ∃ row, (reached past).get payoutId = some row ∧ row.data.status = .processed := by
  induction past with
  | nil => cases h
  | cons i past ih =>
    have hkept (h : payoutId ∈ transfers past) :
        ∃ row, (reached (i :: past)).get payoutId = some row ∧ row.data.status = .processed := by
      obtain ⟨row, hrow, hstatus⟩ := ih hguarded.2 h
      exact ⟨row, hguarded.1.keeps payoutId row hrow hstatus, hstatus⟩
    obtain ⟨w, ⟨startDate, endDate, fetches⟩ | payoutId'⟩ := i
    · exact hkept h
    · rw [transfers] at h
      have hspec := processPayout_spec w payoutId' (reached past)
      rw [reached_cons, next] at hkept ⊢
      generalize w.processPayout payoutId' (reached past) = result at h hspec hkept ⊢
      cases hspec with
      | unsaved => exact hkept h
      | failed => exact hkept h
      | @processed row hget =>
        rcases List.mem_cons.mp h with rfl | h
        · refine ⟨w.markProcessed row, ?_, rfl⟩
          rw [Repository.get_save, World.id_markProcessed,
            if_pos (Repository.key_of_get hget).symm]
        · exact hkept h

/-- The payouts stay paid once over a call that keeps those that are processed. -/
theorem PaidOnce.cons {i : World × Call} (h : PaidOnce past) (hkeeps : Keeps past i)
    (htransferred : (transfers (i :: past)).Nodup)
    (hdistinct : ∀ p q completion, (p, completion) ∈ counted (i :: past) →
      (q, completion) ∈ counted (i :: past) → p = q) : PaidOnce (i :: past) := by
  refine ⟨fun earlier hearlier payoutId row hrow hstatus => ?_, htransferred, hdistinct⟩
  rcases List.suffix_cons_iff.mp hearlier with rfl | hearlier
  · exact ⟨row, hrow, hstatus, rfl⟩
  · obtain ⟨row', hrow', hstatus', htransaction⟩ :=
      h.kept earlier hearlier payoutId row hrow hstatus
    exact ⟨row', hkeeps payoutId row' hrow' hstatus', hstatus', htransaction⟩

theorem paidOnce_nil : PaidOnce [] where
  kept earlier hearlier payoutId row hrow := by
    rw [List.suffix_nil.mp hearlier] at hrow
    cases hrow
  transferred := .nil
  distinct _ _ _ h := absurd h List.not_mem_nil

theorem paidOnce_calculatePayouts (hpast : PaidOnce past) :
    PaidOnce ((w, .calculatePayouts startDate endDate fetches) :: past) ↔
      Fair past (w, .calculatePayouts startDate endDate fetches) := by
  have hinserted := inserted past w startDate endDate fetches
  constructor
  · intro h rows hrows row hrow completion hcompletion p hp
    rw [hrows] at hinserted
    have hnew : (row.1.id, completion.id) ∈
        counted ((w, .calculatePayouts startDate endDate fetches) :: past) := by
      rw [counted, hrows]
      exact List.mem_append_left _
        (mem_contributions.mpr ⟨row, hrow, rfl, completion, hcompletion, rfl⟩)
    have hsame := h.distinct p row.1.id completion.id (List.mem_append_right _ hp) hnew
    have hsome := isSome_of_mem_counted hp
    rw [hsame, hinserted.fresh row hrow] at hsome
    cases hsome
  · intro hfair
    have hold {row : PayoutRow × List EnrollmentRow} {p : String} {completion : EnrollmentRow}
        (hrow : row ∈ (w.inserts startDate endDate fetches (reached past)).getD [])
        (hcompletion : completion ∈ row.2) : (p, completion.id) ∉ counted past := by
      cases hrows : w.inserts startDate endDate fetches (reached past) with
      | none =>
        rw [hrows] at hrow
        cases hrow
      | some rows =>
        rw [hrows] at hrow
        exact hfair rows hrows row hrow completion hcompletion p
    refine hpast.cons keeps_calculatePayouts hpast.transferred fun p q completionId hp hq => ?_
    rcases List.mem_append.mp hp with hp | hp <;> rcases List.mem_append.mp hq with hq | hq
    · obtain ⟨x, hx, rfl, a, ha, rfl⟩ := mem_contributions.mp hp
      obtain ⟨y, hy, rfl, b, hb, hba⟩ := mem_contributions.mp hq
      rw [hinserted.separate x hx y hy a ha b hb hba.symm]
    · obtain ⟨x, hx, rfl, a, ha, rfl⟩ := mem_contributions.mp hp
      exact absurd hq (hold hx ha)
    · obtain ⟨y, hy, rfl, b, hb, rfl⟩ := mem_contributions.mp hq
      exact absurd hp (hold hy hb)
    · exact hpast.distinct p q completionId hp hq

theorem paidOnce_processPayout (hguarded : Guarded Fair past) (hpast : PaidOnce past) :
    PaidOnce ((w, .processPayout payoutId) :: past) ↔
      Fair past (w, .processPayout payoutId) := by
  constructor
  · intro h row hrow hstatus hsaves
    have hkept := h.kept past (List.suffix_cons _ _) payoutId row hrow hstatus
    have htransferred := h.transferred
    rw [reached_cons, next] at hkept
    rw [transfers] at htransferred
    have hspec := processPayout_spec w payoutId (reached past)
    generalize w.processPayout payoutId (reached past) = result at hkept htransferred hspec
    cases hspec with
    | unsaved hunsaved => exact hunsaved row hrow hsaves
    | failed hget =>
      obtain ⟨row', hrow', hstatus', -⟩ := hkept
      rw [Repository.get_save, World.id_markFailed,
        if_pos (Repository.key_of_get hget).symm] at hrow'
      cases hrow'
      cases hstatus'
    | processed => exact (List.nodup_cons.mp htransferred).1 (mem_transfers hrow hstatus)
  · intro hfair
    refine hpast.cons (keeps_processPayout hfair) ?_ hpast.distinct
    rw [transfers]
    have hspec := processPayout_spec w payoutId (reached past)
    generalize w.processPayout payoutId (reached past) = result at hspec ⊢
    cases hspec with
    | unsaved => exact hpast.transferred
    | failed => exact hpast.transferred
    | processed hget hsaves =>
      refine List.nodup_cons.mpr ⟨fun hmem => ?_, hpast.transferred⟩
      obtain ⟨row, hrow, hstatus⟩ := processed_of_mem_transfers hguarded hmem
      rw [hget] at hrow
      cases hrow
      exact hfair _ hget hstatus hsaves

/-- Processed payouts keep their status and transaction, each is transferred once and no two count
one completion, throughout a run, exactly when each call of the run counts no completion again and
saves no payout that is processed. -/
theorem paid_once_iff (past : List (World × Call)) :
    (∀ earlier, earlier <:+ past → PaidOnce earlier) ↔ Guarded Fair past := by
  refine throughout_iff_guarded_of paidOnce_nil past fun earlier i _ hguarded hpast => ?_
  obtain ⟨w, ⟨startDate, endDate, fetches⟩ | payoutId⟩ := i
  · exact paidOnce_calculatePayouts hpast
  · exact paidOnce_processPayout hguarded hpast

/-! ## A completion that is counted twice, and a payout that is transferred twice -/

/-- An instructor of one course, who may be paid. A student has completed the course. -/
def taughtCourse (now : Int) (key : String) : World where
  now
  platformFeePercent := 20
  batchSize := 500
  batchSize_pos := by decide
  coursePrice _ := 100
  courses := Repository.empty.save ⟨"c", some "i"⟩
  enrollments := Repository.empty.save ⟨"e", 0, 0, ⟨"u", "c", some 5, none, none⟩⟩
  users := Repository.empty.save
    (spread (Users.User.default "i" 0) (Patch.empty.set .stellarPublicKey (some "G")))
  kycEnv := ⟨0, "row", "key", fun _ => .accepted none, id, some⟩
  kyc := ⟨Repository.empty.save ⟨"k", 0, 0, ⟨"G", .approved, none, none, none, none, none⟩⟩, []⟩
  key _ := key
  fails _ := none

/-- The first day's payouts are calculated again with those of the first month. -/
def overlapping : List (World × Call) :=
  [ (taughtCourse 31 "q", .calculatePayouts 0 30 10),
    (taughtCourse 1 "p", .calculatePayouts 0 10 10) ]

/-- A payout is processed, and processed again later. -/
def reprocessed : List (World × Call) :=
  [ (taughtCourse 3 "q", .processPayout "p"), (taughtCourse 2 "q", .processPayout "p"),
    (taughtCourse 1 "p", .calculatePayouts 0 10 10) ]

theorem paid_twice : ¬ PaidOnce overlapping ∧ ¬ PaidOnce reprocessed := by
  constructor
  · intro h
    have hcounted : counted overlapping = [("q", "e"), ("p", "e")] := by decide +kernel
    have hsame := h.distinct "p" "q" "e" (by rw [hcounted]; decide) (by rw [hcounted]; decide)
    exact absurd hsame (by decide)
  · intro h
    have htransfers : transfers reprocessed = ["p", "p"] := by decide +kernel
    have htransferred := h.transferred
    rw [htransfers] at htransferred
    exact absurd htransferred (by decide)

end Scoopdope.Payouts
