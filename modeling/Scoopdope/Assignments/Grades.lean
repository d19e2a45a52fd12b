import Mathlib.Algebra.Field.Rat
import Mathlib.Algebra.BigOperators.Group.List.Basic
import Scoopdope.Assignments.Service

/-!
# Assignments: grades

Runs of `submitPeerReview` and `instructorOverride`. Of such a run, a grade depends on the last
override, and on the last scores of each reviewer who is assigned to the submission.

`final_grade_exact`: the final grade after every run is the last grade of the instructor, and
without one the mean of the sums of the last scores.
-/

namespace Scoopdope.Assignments

open Database Server

/-- The state after a run of gradings, newest first. -/
def graded (s₀ : State) : List Grading → State
  | [] => s₀
  | i :: past => i.run (graded s₀ past)

/-- The last grade that the instructor has set. -/
def lastOverride (submissionId : String) : List Grading → Option ℚ
  | [] => none
  | .instructorOverride id grade _ :: past =>
    if id = submissionId then some grade else lastOverride submissionId past
  | .submitPeerReview .. :: past => lastOverride submissionId past

/-- The last scores that a reviewer has submitted. -/
def lastScores (submissionId reviewerId : String) : List Grading → Option (List RubricScore)
  | [] => none
  | .submitPeerReview reviewer id scores _ :: past =>
    if id = submissionId ∧ reviewer = reviewerId then some scores
    else lastScores submissionId reviewerId past
  | .instructorOverride .. :: past => lastScores submissionId reviewerId past

def rubricSum (scores : List RubricScore) : ℚ := (scores.map RubricScore.score).sum

/-- None of nothing. -/
def mean : List ℚ → Option ℚ
  | [] => none
  | points => some (points.sum / points.length)

/-- The grade of the instructor, or the mean over the reviewers that submitted. -/
def gradeAfter (submissionId : String) (reviewers : List String) (past : List Grading) : Option ℚ :=
  match lastOverride submissionId past with
  | some grade => some grade
  | none => mean (reviewers.filterMap fun reviewerId =>
      (lastScores submissionId reviewerId past).map rubricSum)

/-- The reviewers that are assigned to a submission. -/
def assigned (s : State) (submissionId : String) : List String :=
  (s.peerReviews.find fun review => review.submissionId = submissionId).map PeerReview.reviewerId

/-- The final grade that is stored for a submission. -/
def finalGrade (s : State) (submissionId : String) : Option (Option ℚ) :=
  (s.submissions.get submissionId).map AssignmentSubmission.finalGrade

/-! ## The mean -/

variable {s s' s₀ : State} {submissionId reviewerId : String} {past : List Grading}

theorem mean_perm {points points' : List ℚ} (h : points.Perm points') :
    mean points = mean points' := by
  cases points with
  | nil => rw [List.nil_perm.mp h]
  | cons point points =>
    cases points' with
    | nil => exact absurd h.length_eq (Nat.succ_ne_zero _)
    | cons point' points' =>
      rw [mean, mean, h.sum_eq, h.length_eq]
      exact nofun
      exact nofun

theorem mean_of_length_ne {points : List ℚ} (h : points.length ≠ 0) :
    mean points = some (points.sum / points.length) := by
  cases points with
  | nil => exact absurd rfl h
  | cons point points => rfl

theorem foldl_add_eq {A : Type} (f : A → ℚ) (items : List A) :
    items.foldl (fun total item => total + f item) 0 = (items.map f).sum := by
  rw [List.sum_eq_foldl, List.foldl_map]

theorem reviewScore_eq (review : PeerReview) : reviewScore review = rubricSum review.scores :=
  foldl_add_eq RubricScore.score review.scores

/-- What the reviewer has submitted; none if they are not assigned. -/
def submitted (s : State) (submissionId reviewerId : String) :
    Option (Option (List RubricScore)) :=
  (s.peerReviews.get (submissionId, reviewerId)).map fun review =>
    if review.isSubmitted then some review.scores else none

/-- The sums of the submitted scores. -/
def completed (s : State) (submissionId : String) : List ℚ :=
  ((s.peerReviews.find fun review => review.submissionId = submissionId).filter
    fun r => r.isSubmitted).map reviewScore

theorem mem_assigned : reviewerId ∈ assigned s submissionId ↔
    (s.peerReviews.get (submissionId, reviewerId)).isSome := by
  rw [Repository.isSome_get_iff, assigned, List.mem_map]
  constructor
  · rintro ⟨review, hfound, rfl⟩
    obtain ⟨hmem, hid⟩ := Repository.mem_find.mp hfound
    exact ⟨review, hmem, Prod.ext (of_decide_eq_true hid) rfl⟩
  · rintro ⟨review, hmem, hpair⟩
    obtain ⟨hid, hreviewer⟩ := Prod.mk.inj hpair
    exact ⟨review, Repository.mem_find.mpr ⟨hmem, decide_eq_true hid⟩, hreviewer⟩

theorem nodup_assigned : (assigned s submissionId).Nodup := by
  refine List.Nodup.map_on (fun review hreview other hother heq => ?_) Repository.nodup_find
  obtain ⟨hmem, hid⟩ := Repository.mem_find.mp hreview
  obtain ⟨hmem', hid'⟩ := Repository.mem_find.mp hother
  have hpair : review.pair = other.pair :=
    Prod.ext ((of_decide_eq_true hid).trans (of_decide_eq_true hid').symm) heq
  rw [Repository.mem_def] at hmem hmem'
  rw [hpair, hmem'] at hmem
  exact (Option.some.inj hmem).symm

/-- The reviewers are those at the start, and have submitted their last scores. -/
def Recorded (s₀ s : State) (submissionId : String) (past : List Grading) : Prop :=
  ∀ reviewerId, submitted s submissionId reviewerId =
    (s₀.peerReviews.get (submissionId, reviewerId)).map fun _ =>
      lastScores submissionId reviewerId past

/-- The completed reviews are then what the last scores add up to. -/
theorem Recorded.completed_perm (h : Recorded s₀ s submissionId past) :
    (completed s submissionId).Perm ((assigned s₀ submissionId).filterMap fun reviewerId =>
      (lastScores submissionId reviewerId past).map rubricSum) := by
  have hreviewers : (assigned s submissionId).Perm (assigned s₀ submissionId) := by
    rw [List.perm_ext_iff_of_nodup nodup_assigned nodup_assigned]
    intro reviewerId
    have hsame := congrArg Option.isSome (h reviewerId)
    rw [submitted, Option.isSome_map, Option.isSome_map] at hsame
    rw [mem_assigned, mem_assigned, hsame]
  refine List.Perm.trans ?_ (hreviewers.filterMap _)
  rw [completed, assigned, List.filterMap_map]
  have hscore : ∀ review ∈ s.peerReviews.find fun review => review.submissionId = submissionId,
      (lastScores submissionId review.reviewerId past).map rubricSum =
        if review.isSubmitted then some (reviewScore review) else none := by
    intro review hfound
    obtain ⟨hmem, hid⟩ := Repository.mem_find.mp hfound
    have hget : s.peerReviews.get (submissionId, review.reviewerId) = some review := by
      rw [← of_decide_eq_true hid]
      exact hmem
    have hreview := h review.reviewerId
    rw [submitted, hget, Option.map_some] at hreview
    cases hstart : s₀.peerReviews.get (submissionId, review.reviewerId) with
    | none =>
      rw [hstart] at hreview
      cases hreview
    | some first =>
      rw [hstart, Option.map_some, Option.some.injEq] at hreview
      rw [← hreview, reviewScore_eq]
      split <;> rfl
  rw [← List.filterMap_eq_map, List.filterMap_filter]
  exact .of_eq (List.filterMap_congr fun review hfound => (hscore review hfound).symm)

/-! ## One call -/

/-- The grade that `calculateFinalGrade` sets. -/
def calculated (submission : AssignmentSubmission) (points : List ℚ) : Option ℚ :=
  match submission.instructorGrade with
  | some grade => some grade
  | none => (mean points).or submission.finalGrade

theorem calculated_of_some {submission : AssignmentSubmission} {grade : ℚ} {points : List ℚ}
    (h : submission.instructorGrade = some grade) : calculated submission points = some grade := by
  rw [calculated, h]

theorem calculated_of_none {submission : AssignmentSubmission} {points : List ℚ}
    (h : submission.instructorGrade = none) :
    calculated submission points = (mean points).or submission.finalGrade := by
  rw [calculated, h]

theorem calculateFinalGrade_peerReviews :
    (calculateFinalGrade submissionId s).peerReviews = s.peerReviews := by
  unfold calculateFinalGrade
  split
  · rfl
  · split
    · rfl
    · dsimp only
      split <;> rfl

theorem get_calculateFinalGrade {submission : AssignmentSubmission}
    (h : s.submissions.get submissionId = some submission) :
    (calculateFinalGrade submissionId s).submissions.get submissionId =
      some { submission with finalGrade := calculated submission (completed s submissionId) } := by
  have hid : submission.id = submissionId := Repository.key_of_get h
  have hsave (grade : Option ℚ) :
      (s.submissions.save { submission with finalGrade := grade }).get submissionId =
        some { submission with finalGrade := grade } := by
    rw [← hid]
    exact Repository.get_save_self
  unfold calculateFinalGrade
  rw [h]
  dsimp only
  split
  · next grade hgrade =>
    rw [calculated_of_some hgrade]
    exact hsave _
  · next hgrade =>
    rw [calculated_of_none hgrade, foldl_add_eq, completed]
    split
    · next hnone =>
      rw [List.length_eq_zero_iff.mp hnone]
      exact h
    · next hsome =>
      rw [← List.length_map (f := reviewScore)] at hsome
      rw [mean_of_length_ne hsome, List.length_map]
      exact hsave _

/-- The other submissions keep their grades. -/
theorem get_calculateFinalGrade_ne {other : String} (h : submissionId ≠ other) :
    (calculateFinalGrade other s).submissions.get submissionId =
      s.submissions.get submissionId := by
  unfold calculateFinalGrade
  cases hget : s.submissions.get other with
  | none => rfl
  | some submission =>
    have hid : submission.id = other := Repository.key_of_get hget
    have hsave (grade : Option ℚ) :
        (s.submissions.save { submission with finalGrade := grade }).get submissionId =
          s.submissions.get submissionId := by
      rw [Repository.get_save, if_neg]
      exact fun heq => h (heq.trans hid)
    dsimp only
    split
    · exact hsave _
    · split
      · rfl
      · exact hsave _

/-! ## Runs -/

/-- A submission that has been graded by a run. -/
structure Tracked (s₀ s : State) (submissionId : String) (past : List Grading) : Prop where
  recorded : Recorded s₀ s submissionId past
  graded : ∃ submission, s.submissions.get submissionId = some submission ∧
    submission.instructorGrade = lastOverride submissionId past ∧
    submission.finalGrade = gradeAfter submissionId (assigned s₀ submissionId) past

theorem gradeAfter_congr {reviewers : List String} {past past' : List Grading}
    (hoverride : lastOverride submissionId past = lastOverride submissionId past')
    (hscores : ∀ reviewerId ∈ reviewers,
      lastScores submissionId reviewerId past = lastScores submissionId reviewerId past') :
    gradeAfter submissionId reviewers past = gradeAfter submissionId reviewers past' := by
  rw [gradeAfter, gradeAfter, hoverride]
  have hsums := List.filterMap_congr fun reviewerId hreviewer =>
    congrArg (Option.map rubricSum) (hscores reviewerId hreviewer)
  rw [hsums]

theorem Recorded.isSome_get (h : Recorded s₀ s submissionId past) (reviewerId : String) :
    (s₀.peerReviews.get (submissionId, reviewerId)).isSome =
      (s.peerReviews.get (submissionId, reviewerId)).isSome := by
  have hsame := congrArg Option.isSome (h reviewerId)
  rw [submitted, Option.isSome_map, Option.isSome_map] at hsame
  exact hsame.symm

/-- A call that leaves the submission alone, and does not count for it. -/
theorem Tracked.skip {past' : List Grading} (h : Tracked s₀ s submissionId past)
    (hreviews : ∀ reviewerId, s'.peerReviews.get (submissionId, reviewerId) =
      s.peerReviews.get (submissionId, reviewerId))
    (hsubmission : s'.submissions.get submissionId = s.submissions.get submissionId)
    (hoverride : lastOverride submissionId past' = lastOverride submissionId past)
    (hscores : ∀ reviewerId, (s₀.peerReviews.get (submissionId, reviewerId)).isSome →
      lastScores submissionId reviewerId past' = lastScores submissionId reviewerId past) :
    Tracked s₀ s' submissionId past' := by
  constructor
  · intro reviewerId
    have hrecorded := h.recorded reviewerId
    rw [submitted, hreviews, ← submitted, hrecorded]
    cases hassigned : s₀.peerReviews.get (submissionId, reviewerId) with
    | none => rfl
    | some review =>
      rw [Option.map_some, Option.map_some, hscores reviewerId (by rw [hassigned]; rfl)]
  · obtain ⟨submission, hget, hinstructor, hfinal⟩ := h.graded
    refine ⟨submission, hsubmission.trans hget, hinstructor.trans hoverride.symm, ?_⟩
    rw [hfinal]
    exact gradeAfter_congr hoverride.symm fun reviewerId hreviewer =>
      (hscores reviewerId (mem_assigned.mp hreviewer)).symm

/-- A review is written. -/
theorem Recorded.review {reviewer : String} {review : PeerReview} {scores : List RubricScore}
    {overallFeedback : String} (h : Recorded s₀ s submissionId past)
    (hreview : s.peerReviews.get (submissionId, reviewer) = some review) :
    Recorded s₀
      { s with peerReviews := s.peerReviews.save { review with
          scores := scores, overallFeedback := some overallFeedback, isSubmitted := true } }
      submissionId (.submitPeerReview reviewer submissionId scores overallFeedback :: past) := by
  intro reviewerId
  have hpair : review.pair = (submissionId, reviewer) := Repository.key_of_get hreview
  have hlast : lastScores submissionId reviewerId
      (.submitPeerReview reviewer submissionId scores overallFeedback :: past) =
        if submissionId = submissionId ∧ reviewer = reviewerId then some scores
        else lastScores submissionId reviewerId past := rfl
  have hassigned := h.isSome_get reviewerId
  rw [hlast, submitted, Repository.get_save]
  change ((if (submissionId, reviewerId) = review.pair then _ else _ : Option PeerReview).map
    _) = _
  rw [hpair]
  by_cases hsame : reviewerId = reviewer
  · rw [hsame, hreview] at hassigned
    obtain ⟨first, hfirst⟩ := Option.isSome_iff_exists.mp hassigned
    rw [hsame, if_pos rfl, hfirst, if_pos ⟨rfl, rfl⟩]
    rfl
  · rw [if_neg fun heq => hsame (Prod.mk.inj heq).2, if_neg fun heq => hsame heq.2.symm]
    exact h reviewerId

/-- A review is written, and the grade calculated from the reviews. -/
theorem Tracked.review {reviewer : String} {review : PeerReview} {scores : List RubricScore}
    {overallFeedback : String} (h : Tracked s₀ s submissionId past)
    (hreview : s.peerReviews.get (submissionId, reviewer) = some review) :
    Tracked s₀ (calculateFinalGrade submissionId
        { s with peerReviews := s.peerReviews.save { review with
            scores := scores, overallFeedback := some overallFeedback, isSubmitted := true } })
      submissionId (.submitPeerReview reviewer submissionId scores overallFeedback :: past) := by
  let s₁ : State := { s with peerReviews := s.peerReviews.save { review with
    scores := scores, overallFeedback := some overallFeedback, isSubmitted := true } }
  let past' : List Grading :=
    .submitPeerReview reviewer submissionId scores overallFeedback :: past
  have hrecorded : Recorded s₀ s₁ submissionId past' := h.recorded.review hreview
  obtain ⟨submission, hget, hinstructor, -⟩ := h.graded
  refine ⟨fun reviewerId => ?_, _, get_calculateFinalGrade (s := s₁) hget, hinstructor, ?_⟩
  · rw [submitted, calculateFinalGrade_peerReviews]
    exact hrecorded reviewerId
  change calculated submission (completed s₁ submissionId) = gradeAfter submissionId _ past'
  rw [gradeAfter]
  cases hoverride : lastOverride submissionId past' with
  | some grade => exact calculated_of_some (hinstructor.trans hoverride)
  | none =>
    rw [calculated_of_none (hinstructor.trans hoverride), mean_perm hrecorded.completed_perm]
    -- The reviewer is one of those that submitted.
    have hmem : rubricSum scores ∈ (assigned s₀ submissionId).filterMap fun reviewerId =>
        (lastScores submissionId reviewerId past').map rubricSum := by
      refine List.mem_filterMap.mpr ⟨reviewer, mem_assigned.mpr ?_, ?_⟩
      · rw [h.recorded.isSome_get, hreview]
        rfl
      · rw [lastScores, if_pos ⟨rfl, rfl⟩]
        rfl
    rw [mean_of_length_ne fun hzero => List.ne_nil_of_mem hmem (List.length_eq_zero_iff.mp hzero)]
    rfl

theorem tracked_submitPeerReview {reviewer id : String} {scores : List RubricScore}
    {overallFeedback : String} (h : Tracked s₀ s submissionId past) :
    Tracked s₀ (submitPeerReview reviewer id scores overallFeedback s).2 submissionId
      (.submitPeerReview reviewer id scores overallFeedback :: past) := by
  unfold submitPeerReview
  cases hreview : s.peerReviews.get (id, reviewer) with
  | none =>
    -- The reviewer is not assigned.
    refine h.skip (fun _ => rfl) rfl rfl fun reviewerId hassigned => ?_
    rw [lastScores, if_neg]
    rintro ⟨rfl, rfl⟩
    rw [h.recorded.isSome_get, hreview] at hassigned
    cases hassigned
  | some review =>
    by_cases hid : id = submissionId
    · subst hid
      exact h.review hreview
    · have hpair : review.pair = (id, reviewer) := Repository.key_of_get hreview
      refine h.skip (fun reviewerId => ?_) (get_calculateFinalGrade_ne (Ne.symm hid)) rfl
        fun reviewerId _ => ?_
      · dsimp only
        rw [calculateFinalGrade_peerReviews]
        refine (Repository.get_save _ _ _).trans (if_neg fun heq => ?_)
        exact hid (Prod.mk.inj (heq.trans hpair)).1.symm
      · rw [lastScores, if_neg fun heq => hid heq.1]

theorem tracked_instructorOverride {id : String} {grade : ℚ} {feedback : String}
    (h : Tracked s₀ s submissionId past) :
    Tracked s₀ (instructorOverride id grade feedback s).2 submissionId
      (.instructorOverride id grade feedback :: past) := by
  unfold instructorOverride
  by_cases hid : id = submissionId
  · subst hid
    obtain ⟨submission, hget, -, -⟩ := h.graded
    have hkey : submission.id = id := Repository.key_of_get hget
    have hlast : lastOverride id (.instructorOverride id grade feedback :: past) = some grade :=
      if_pos rfl
    rw [hget]
    refine ⟨h.recorded, { submission with
      instructorGrade := some grade
      instructorFeedback := some feedback
      finalGrade := some grade }, ?_, hlast.symm, ?_⟩
    · exact (Repository.get_save _ _ _).trans (if_pos hkey.symm)
    · rw [gradeAfter, hlast]
  · have hlast : lastOverride submissionId (.instructorOverride id grade feedback :: past) =
        lastOverride submissionId past := if_neg hid
    cases hget : s.submissions.get id with
    | none => exact h.skip (fun _ => rfl) rfl hlast fun _ _ => rfl
    | some submission =>
      have hkey : submission.id = id := Repository.key_of_get hget
      refine h.skip (fun _ => rfl) ?_ hlast fun _ _ => rfl
      refine (Repository.get_save _ _ _).trans (if_neg fun heq => ?_)
      exact hid (heq.trans hkey).symm

/-- Where the reviewers have not submitted yet and there is no grade, the final grade after any run
of gradings is that of the last override or else the mean of the last scores. So it is the same
after all runs that agree on these. -/
theorem final_grade_exact (s₀ : State) (submissionId : String)
    (hstart : ∃ submission, s₀.submissions.get submissionId = some submission ∧
      submission.instructorGrade = none ∧ submission.finalGrade = none)
    (hunsubmitted : ∀ review ∈ s₀.peerReviews, review.submissionId = submissionId →
      review.isSubmitted = false) :
    (∀ past, finalGrade (graded s₀ past) submissionId =
      some (gradeAfter submissionId (assigned s₀ submissionId) past)) ∧
    ∀ past past', lastOverride submissionId past = lastOverride submissionId past' →
      (∀ reviewerId ∈ assigned s₀ submissionId,
        lastScores submissionId reviewerId past = lastScores submissionId reviewerId past') →
      finalGrade (graded s₀ past) submissionId = finalGrade (graded s₀ past') submissionId := by
  have hrun (past : List Grading) : Tracked s₀ (graded s₀ past) submissionId past := by
    induction past with
    | nil =>
      obtain ⟨submission, hget, hinstructor, hfinal⟩ := hstart
      refine ⟨fun reviewerId => ?_, submission, hget, hinstructor, ?_⟩
      · refine Option.map_congr fun review hreview => ?_
        have hpair := Repository.key_of_get hreview
        have hmem : review ∈ s₀.peerReviews := by
          rw [Repository.mem_def, hpair]
          exact hreview
        rw [hunsubmitted review hmem (Prod.mk.inj hpair).1]
        rfl
      · have hnone : ((assigned s₀ submissionId).filterMap fun reviewerId =>
            (lastScores submissionId reviewerId []).map rubricSum) = [] :=
          List.filterMap_eq_nil_iff.mpr fun _ _ => rfl
        rw [hfinal, gradeAfter, hnone]
        rfl
    | cons i past ih =>
      cases i with
      | submitPeerReview => exact tracked_submitPeerReview ih
      | instructorOverride => exact tracked_instructorOverride ih
  have hgrade (past : List Grading) :
      finalGrade (graded s₀ past) submissionId =
        some (gradeAfter submissionId (assigned s₀ submissionId) past) := by
    obtain ⟨submission, hget, -, hfinal⟩ := (hrun past).graded
    rw [finalGrade, hget, Option.map_some, hfinal]
  refine ⟨hgrade, fun past past' hoverride hscores => ?_⟩
  rw [hgrade, hgrade, gradeAfter_congr hoverride hscores]

/-- A submission with three reviewers. -/
def exampleAssigned : State where
  submissions := Repository.empty.save
    { id := "s", assignmentId := "a", userId := "u", submittedAt := 0, instructorGrade := none,
      instructorFeedback := none, finalGrade := none }
  peerReviews := ["u1", "u2", "u3"].foldl
    (fun reviews reviewerId => reviews.save (newReview reviewerId "s")) Repository.empty

/-- A review by one of them. -/
def exampleReview (reviewerId : String) (scores : List ℚ) : Grading :=
  .submitPeerReview reviewerId "s" (scores.map fun score => ⟨"c", score, ""⟩) ""

/-- Two reviewers submit, one of them twice. -/
theorem final_grade_exact_twice :
    finalGrade (graded exampleAssigned
      [exampleReview "u1" [2, 4], exampleReview "u3" [1], exampleReview "u1" [9]]) "s" =
        some (some (7 / 2)) := by
  have hunsubmitted : ∀ review ∈ exampleAssigned.peerReviews.rows.entries.map Sigma.snd,
      review.isSubmitted = false := by decide +kernel
  have hexact := (final_grade_exact exampleAssigned "s" ⟨_, rfl, rfl, rfl⟩
    fun review hreview _ => hunsubmitted review (Repository.mem_entries.mpr hreview)).1
  rw [hexact]
  decide +kernel

end Scoopdope.Assignments
