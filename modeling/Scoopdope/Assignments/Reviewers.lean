import Scoopdope.Assignments.Service

/-!
# Assignments: reviewers

* `reviewers_fair`: the reviews of one assignment. Every submission has three reviewers, none of
  them its author, and every user reviews three submissions.
* `quota_kept_iff`: throughout a run, the submissions have three reviews each after every
  assignment, exactly when at each of them no review has been submitted, or three of each submission
  have been and one of them is assigned once more.
-/

namespace Scoopdope.Assignments

open Database Server Graph

/-- Who reviews a submission. -/
def reviewersOf (reviews : List PeerReview) (submissionId : String) : List String :=
  (reviews.filter fun review => review.submissionId = submissionId).map PeerReview.reviewerId

/-- What a user reviews. -/
def reviewedBy (reviews : List PeerReview) (userId : String) : List String :=
  (reviews.filter fun review => review.reviewerId = userId).map PeerReview.submissionId

/-- Three reviews for each submission and for each user. -/
structure Fair (submissions : List AssignmentSubmission) (reviews : List PeerReview) : Prop where
  total : reviews.length = 3 * submissions.length
  reviewers : ∀ submission ∈ submissions, (reviewersOf reviews submission.id).length = 3 ∧
    (reviewersOf reviews submission.id).Nodup ∧
    submission.userId ∉ reviewersOf reviews submission.id
  reviewed : ∀ submission ∈ submissions, (reviewedBy reviews submission.userId).length = 3 ∧
    (reviewedBy reviews submission.userId).Nodup

/-- The submission is one of the three that follow the reviewer's own in the circle. -/
def InCircle (submissions : List AssignmentSubmission) (review : PeerReview) : Prop :=
  ∃ e ∈ circulant submissions.length 3,
    (submissions.get e.2).id = review.submissionId ∧
      (submissions.get e.1).userId = review.reviewerId

/-- The review of someone who would be assigned to it has been submitted. -/
def Clashes (s : State) (submissions : List AssignmentSubmission) : Prop :=
  ∃ review ∈ s.peerReviews, review.isSubmitted = true ∧ InCircle submissions review

/-- The reviews without the unsubmitted ones of the submissions. -/
def cleared (s : State) (submissions : List AssignmentSubmission) : Repository PeerReview.pair :=
  s.peerReviews.delete (isUnsubmitted (submissions.map AssignmentSubmission.id))

/-! ## The circle -/

variable {submissions : List AssignmentSubmission} {place : String → Nat} {s : State}
  {assignmentId : String}

/-- The review along an edge of the circle. -/
def reviewAlong (submissions : List AssignmentSubmission)
    (e : Fin submissions.length × Fin submissions.length) : PeerReview :=
  newReview (submissions.get e.1).userId (submissions.get e.2).id

theorem assignments_eq : assignments submissions =
    (circulant submissions.length 3).map (reviewAlong submissions) := by
  rw [assignments, circulant, List.map_flatMap]
  rfl

theorem get_inj {f : AssignmentSubmission → String} (h : (submissions.map f).Nodup)
    {i j : Fin submissions.length} : f (submissions.get i) = f (submissions.get j) ↔ i = j := by
  refine ⟨fun heq => ?_, fun heq => by rw [heq]⟩
  have hi : (i : Nat) < (submissions.map f).length := (List.length_map f).symm ▸ i.isLt
  have hj : (j : Nat) < (submissions.map f).length := (List.length_map f).symm ▸ j.isLt
  have hget : (submissions.map f)[(i : Nat)] = (submissions.map f)[(j : Nat)] := by
    rw [List.getElem_map, List.getElem_map]
    exact heq
  exact Fin.ext (h.getElem_inj_iff.mp hget)

/-- The reviews of a submission are those along the edges to it. -/
theorem reviewersOf_assignments (hids : (submissions.map AssignmentSubmission.id).Nodup)
    (j : Fin submissions.length) : reviewersOf (assignments submissions) (submissions.get j).id =
      (((circulant submissions.length 3).filter fun e => e.2 = j).map Prod.fst).map
        fun i => (submissions.get i).userId := by
  rw [reviewersOf, assignments_eq, List.filter_map, List.map_map, List.map_map]
  refine congrArg _ (List.filter_congr fun e _ => ?_)
  exact decide_eq_decide.mpr (get_inj hids)

/-- The reviews by a user are those along the edges from their own submission. -/
theorem reviewedBy_assignments (husers : (submissions.map AssignmentSubmission.userId).Nodup)
    (i : Fin submissions.length) :
    reviewedBy (assignments submissions) (submissions.get i).userId =
      (((circulant submissions.length 3).filter fun e => e.1 = i).map Prod.snd).map
        fun j => (submissions.get j).id := by
  rw [reviewedBy, assignments_eq, List.filter_map, List.map_map, List.map_map]
  refine congrArg _ (List.filter_congr fun e _ => ?_)
  exact decide_eq_decide.mpr (get_inj husers)

theorem fair_assignments (hfour : 4 ≤ submissions.length)
    (husers : (submissions.map AssignmentSubmission.userId).Nodup)
    (hids : (submissions.map AssignmentSubmission.id).Nodup) :
    Fair submissions (assignments submissions) := by
  refine ⟨?_, fun submission hmem => ?_, fun submission hmem => ?_⟩
  · rw [assignments_eq, List.length_map, length_circulant, Nat.mul_comm]
  · obtain ⟨j, rfl⟩ := List.get_of_mem hmem
    rw [reviewersOf_assignments hids]
    refine ⟨?_, ?_, ?_⟩
    · rw [List.length_map, List.length_map, length_sources hfour]
    · exact (nodup_sources hfour).map fun i i' heq => (get_inj husers).mp heq
    · intro hauthor
      obtain ⟨i, hi, heq⟩ := List.mem_map.mp hauthor
      obtain ⟨e, he, rfl⟩ := List.mem_map.mp hi
      obtain ⟨hedge, hj⟩ := List.mem_filter.mp he
      exact ne_of_mem_circulant hfour hedge
        (((get_inj husers).mp heq).trans (of_decide_eq_true hj).symm)
  · obtain ⟨i, rfl⟩ := List.get_of_mem hmem
    rw [reviewedBy_assignments husers]
    refine ⟨?_, ?_⟩
    · rw [List.length_map, List.length_map, length_targets hfour]
    · exact (nodup_targets hfour).map fun j j' heq => (get_inj hids).mp heq

/-! ## One call -/

/-- Every new review is an unsubmitted one of the submissions. -/
theorem mem_assignments {review : PeerReview} (h : review ∈ assignments submissions) :
    review.submissionId ∈ submissions.map AssignmentSubmission.id ∧ review.isSubmitted = false := by
  rw [assignments_eq] at h
  obtain ⟨e, -, rfl⟩ := List.mem_map.mp h
  exact ⟨List.mem_map_of_mem (List.get_mem _ _), rfl⟩

theorem nodup_pairs (hfour : 4 ≤ submissions.length)
    (husers : (submissions.map AssignmentSubmission.userId).Nodup)
    (hids : (submissions.map AssignmentSubmission.id).Nodup) :
    ((assignments submissions).map PeerReview.pair).Nodup := by
  rw [assignments_eq, List.map_map]
  refine (nodup_circulant hfour).map fun e e' heq => ?_
  obtain ⟨hid, huser⟩ := Prod.mk.inj heq
  exact Prod.ext ((get_inj husers).mp huser) ((get_inj hids).mp hid)

theorem mem_cleared {review : PeerReview} : review ∈ cleared s submissions ↔
    review ∈ s.peerReviews ∧ (review.submissionId ∈ submissions.map AssignmentSubmission.id →
      review.isSubmitted = true) := by
  rw [cleared, Repository.mem_delete]
  refine and_congr_right fun _ => ?_
  rw [isUnsubmitted, Bool.and_eq_false_iff, Bool.not_eq_false', ← Bool.not_eq_true,
    List.contains_iff_mem, imp_iff_not_or]

theorem inCircle_iff {review : PeerReview} :
    InCircle submissions review ↔
      ∃ created ∈ assignments submissions, created.pair = review.pair := by
  rw [assignments_eq, InCircle]
  constructor
  · rintro ⟨e, he, hid, huser⟩
    exact ⟨_, List.mem_map_of_mem he, Prod.ext hid huser⟩
  · rintro ⟨created, hcreated, hpair⟩
    obtain ⟨e, he, rfl⟩ := List.mem_map.mp hcreated
    exact ⟨e, he, Prod.mk.inj hpair⟩

/-- A new pair is taken by a submitted review, if at all. -/
theorem free_iff : (∀ review ∈ assignments submissions,
    (cleared s submissions).get review.pair = none) ↔ ¬ Clashes s submissions := by
  constructor
  · rintro hfree ⟨submitted, hmem, hsubmitted, hcircle⟩
    obtain ⟨review, hreview, heq⟩ := inCircle_iff.mp hcircle
    have hcleared : submitted ∈ cleared s submissions := mem_cleared.mpr ⟨hmem, fun _ => hsubmitted⟩
    rw [Repository.mem_def, ← heq, hfree review hreview] at hcleared
    cases hcleared
  · intro hclash review hreview
    by_contra htaken
    obtain ⟨other, hother, hpair⟩ :=
      Repository.isSome_get_iff.mp (Option.isSome_iff_ne_none.mpr htaken)
    obtain ⟨hmem, hsubmitted⟩ := mem_cleared.mp hother
    refine hclash ⟨other, hmem, hsubmitted ?_, ?_⟩
    · rw [show other.submissionId = review.submissionId from (Prod.mk.inj hpair).1]
      exact (mem_assignments hreview).1
    · exact inCircle_iff.mpr ⟨review, hreview, hpair.symm⟩

/-- The submissions of an assignment with enough of them, and no user twice. -/
structure Ready (assignmentId : String) (s : State) : Prop where
  four : 4 ≤ (s.submissions.find fun x => x.assignmentId = assignmentId).length
  users : ((s.submissions.find fun x => x.assignmentId = assignmentId).map
    AssignmentSubmission.userId).Nodup

theorem submissionsOf_perm : (submissionsOf place s assignmentId).Perm
    (s.submissions.find fun x => x.assignmentId = assignmentId) := List.perm_insertionSort _ _

theorem nodup_ids : ((submissionsOf place s assignmentId).map AssignmentSubmission.id).Nodup :=
  (submissionsOf_perm.map _).nodup_iff.mpr Repository.nodup_find_keys

theorem mem_submissionsOf {submission : AssignmentSubmission} :
    submission ∈ submissionsOf place s assignmentId ↔
      submission ∈ s.submissions ∧ submission.assignmentId = assignmentId := by
  rw [submissionsOf_perm.mem_iff, Repository.mem_find, decide_eq_true_iff]

theorem Ready.length (h : Ready assignmentId s) :
    4 ≤ (submissionsOf place s assignmentId).length := submissionsOf_perm.length_eq ▸ h.four

theorem Ready.nodup_users (h : Ready assignmentId s) :
    ((submissionsOf place s assignmentId).map AssignmentSubmission.userId).Nodup :=
  (submissionsOf_perm.map _).nodup_iff.mpr h.users

/-- What a call makes of the reviews. -/
theorem assignReviewers_cases (hfour : 4 ≤ submissions.length)
    (husers : (submissions.map AssignmentSubmission.userId).Nodup)
    (hfound : submissionsOf place s assignmentId = submissions) :
    (Clashes s submissions ∧ assignReviewers place assignmentId s =
      (.error duplicateKey, { s with peerReviews := cleared s submissions })) ∨
    (¬ Clashes s submissions ∧ ∃ peerReviews,
      (cleared s submissions).insertRows (assignments submissions) = some peerReviews ∧
      assignReviewers place assignmentId s =
        (.ok (assignments submissions), { s with peerReviews })) := by
  have hids : (submissions.map AssignmentSubmission.id).Nodup := hfound ▸ nodup_ids
  have hfree := (Repository.insertRows_isSome (t := cleared s submissions)
    (nodup_pairs hfour husers hids)).trans free_iff
  rw [assignReviewers, hfound]
  dsimp only
  rw [if_neg (by omega), ← cleared]
  cases hrows : (cleared s submissions).insertRows (assignments submissions) with
  | none =>
    rw [hrows] at hfree
    exact .inl ⟨not_not.mp fun h => (nomatch hfree.mpr h), rfl⟩
  | some peerReviews =>
    rw [hrows] at hfree
    exact .inr ⟨hfree.mp rfl, peerReviews, rfl, rfl⟩

/-- The reviews that are created are fair. They are stored beside those that are not deleted, unless
a submitted review has one of their pairs. -/
theorem reviewers_fair (submissions : List AssignmentSubmission) (hfour : 4 ≤ submissions.length)
    (husers : (submissions.map AssignmentSubmission.userId).Nodup)
    (hids : (submissions.map AssignmentSubmission.id).Nodup) :
    Fair submissions (assignments submissions) ∧
      ∀ place s assignmentId, submissionsOf place s assignmentId = submissions →
        (Clashes s submissions ∧ (assignReviewers place assignmentId s).1 = .error duplicateKey) ∨
        ∃ s', assignReviewers place assignmentId s = (.ok (assignments submissions), s') ∧
          ∀ review, review ∈ s'.peerReviews ↔
            review ∈ assignments submissions ∨ review ∈ cleared s submissions := by
  refine ⟨fair_assignments hfour husers hids, fun place s assignmentId hfound => ?_⟩
  rcases assignReviewers_cases hfour husers hfound with
    ⟨hclash, hrun⟩ | ⟨-, peerReviews, hrows, hrun⟩
  · exact .inl ⟨hclash, by rw [hrun]⟩
  · exact .inr ⟨_, hrun, fun review => Repository.mem_insertRows hrows⟩

/-- Submissions of four users. -/
def fourSubmissions : List AssignmentSubmission :=
  [1, 2, 3, 4].map fun i =>
    { id := "s" ++ toString i, assignmentId := "a", userId := "u" ++ toString i, submittedAt := i
      instructorGrade := none, instructorFeedback := none, finalGrade := none }

theorem reviewers_fair_four : Fair fourSubmissions (assignments fourSubmissions) :=
  (reviewers_fair fourSubmissions (by decide) (by decide) (by decide)).1

/-! ## Assigned again -/

/-- The submitted reviews of a submission. -/
def submittedOf (s : State) (submissionId : String) : List PeerReview :=
  (s.peerReviews.find fun review => review.submissionId = submissionId).filter
    fun review => review.isSubmitted

/-- After an assignment every submission has three reviews, no pair occurs twice, and the submitted
reviews have been kept. -/
structure QuotaKept (assignmentId : String) (before after : State) : Prop where
  quota : ∀ submission ∈ after.submissions, submission.assignmentId = assignmentId →
    (after.peerReviews.find fun review => review.submissionId = submission.id).length = 3
  pairs : ((after.peerReviews.find fun _ => true).map PeerReview.pair).Nodup
  kept : ∀ review ∈ before.peerReviews, review.isSubmitted = true → review ∈ after.peerReviews

/-- No review of the assignment has been submitted; or three of each submission have been, one of
them by someone who would be assigned to it again. -/
def NoneOrAllSubmitted (place : String → Nat) (assignmentId : String) (s : State) : Prop :=
  (∀ submission ∈ s.submissions, submission.assignmentId = assignmentId →
    (submittedOf s submission.id).length = 0) ∨
  (∀ submission ∈ s.submissions, submission.assignmentId = assignmentId →
    (submittedOf s submission.id).length = 3) ∧ Clashes s (submissionsOf place s assignmentId)

theorem find_cleared {submissionId : String}
    (h : submissionId ∈ submissions.map AssignmentSubmission.id) :
    ((cleared s submissions).find fun review => review.submissionId = submissionId) =
      submittedOf s submissionId := by
  rw [cleared, Repository.find_delete, submittedOf]
  refine List.filter_congr fun review hreview => ?_
  have hid : review.submissionId = submissionId :=
    of_decide_eq_true (Repository.mem_find.mp hreview).2
  rw [isUnsubmitted, hid, List.contains_iff_mem.mpr h, Bool.true_and, Bool.not_not]

/-- Reviews that clash are not unsubmitted all. -/
theorem exists_submitted_of_clash (h : Clashes s (submissionsOf place s assignmentId)) :
    ∃ submission ∈ s.submissions, submission.assignmentId = assignmentId ∧
      (submittedOf s submission.id).length ≠ 0 := by
  obtain ⟨review, hmem, hsubmitted, hcircle⟩ := h
  obtain ⟨created, hcreated, heq⟩ := inCircle_iff.mp hcircle
  obtain ⟨submission, hsubmission, hid⟩ := List.mem_map.mp (mem_assignments hcreated).1
  obtain ⟨hstored, hassignment⟩ := mem_submissionsOf.mp hsubmission
  refine ⟨submission, hstored, hassignment, fun hzero => ?_⟩
  have hfound : review ∈ submittedOf s submission.id := by
    refine List.mem_filter.mpr ⟨Repository.mem_find.mpr ⟨hmem, decide_eq_true ?_⟩, hsubmitted⟩
    rw [hid]
    exact (Prod.mk.inj heq).1.symm
  rw [List.length_eq_zero_iff.mp hzero] at hfound
  cases hfound

/-- The unsubmitted reviews of a submission are deleted. -/
theorem length_find_cleared (place : String → Nat) {submission : AssignmentSubmission}
    (hstored : submission ∈ s.submissions) (hassignment : submission.assignmentId = assignmentId) :
    ((cleared s (submissionsOf place s assignmentId)).find fun review =>
      review.submissionId = submission.id).length = (submittedOf s submission.id).length := by
  have hid : submission.id ∈ (submissionsOf place s assignmentId).map AssignmentSubmission.id :=
    List.mem_map_of_mem (mem_submissionsOf.mpr ⟨hstored, hassignment⟩)
  rw [find_cleared hid]

theorem kept_cleared {review : PeerReview} (hreview : review ∈ s.peerReviews)
    (hsubmitted : review.isSubmitted = true) :
    review ∈ cleared s (submissionsOf place s assignmentId) :=
  mem_cleared.mpr ⟨hreview, fun _ => hsubmitted⟩

/-- Three reviews are added to the submitted ones. -/
theorem length_find_inserted {peerReviews : Repository PeerReview.pair}
    {submission : AssignmentSubmission} (h : Ready assignmentId s)
    (hrows : (cleared s (submissionsOf place s assignmentId)).insertRows
      (assignments (submissionsOf place s assignmentId)) = some peerReviews)
    (hstored : submission ∈ s.submissions) (hassignment : submission.assignmentId = assignmentId) :
    (peerReviews.find fun review => review.submissionId = submission.id).length =
      3 + (submittedOf s submission.id).length := by
  have hfair : Fair (submissionsOf place s assignmentId)
      (assignments (submissionsOf place s assignmentId)) :=
    fair_assignments h.length h.nodup_users nodup_ids
  have hthree := (hfair.reviewers submission
    (mem_submissionsOf.mpr ⟨hstored, hassignment⟩)).1
  rw [reviewersOf, List.length_map] at hthree
  rw [(Repository.find_insertRows hrows).length_eq, List.length_append, hthree,
    length_find_cleared place hstored hassignment]

/-- The submitted reviews are all that is left. -/
theorem quotaKept_cleared_iff (hclash : Clashes s (submissionsOf place s assignmentId)) :
    QuotaKept assignmentId s
        { s with peerReviews := cleared s (submissionsOf place s assignmentId) } ↔
      NoneOrAllSubmitted place assignmentId s := by
  constructor
  · intro hquota
    refine .inr ⟨fun submission hstored hassignment => ?_, hclash⟩
    exact (length_find_cleared place hstored hassignment).symm.trans
      (hquota.quota submission hstored hassignment)
  · rintro (hnone | ⟨hall, -⟩)
    · obtain ⟨submission, hstored, hassignment, hne⟩ := exists_submitted_of_clash hclash
      exact absurd (hnone submission hstored hassignment) hne
    · refine ⟨fun submission hstored hassignment => ?_, Repository.nodup_find_keys,
        fun review => kept_cleared⟩
      exact (length_find_cleared (s := s) place hstored hassignment).trans
        (hall submission hstored hassignment)

theorem quotaKept_inserted_iff {peerReviews : Repository PeerReview.pair}
    (h : Ready assignmentId s) (hclash : ¬ Clashes s (submissionsOf place s assignmentId))
    (hrows : (cleared s (submissionsOf place s assignmentId)).insertRows
      (assignments (submissionsOf place s assignmentId)) = some peerReviews) :
    QuotaKept assignmentId s { s with peerReviews := peerReviews } ↔
      NoneOrAllSubmitted place assignmentId s := by
  constructor
  · intro hquota
    refine .inl fun submission hstored hassignment => ?_
    have hthree := hquota.quota submission hstored hassignment
    rw [length_find_inserted h hrows hstored hassignment] at hthree
    exact Nat.add_eq_left.mp hthree
  · rintro (hnone | ⟨-, hclash'⟩)
    · refine ⟨fun submission hstored hassignment => ?_, Repository.nodup_find_keys,
        fun review hreview hsubmitted => ?_⟩
      · exact (length_find_inserted h hrows hstored hassignment).trans
          (congrArg (3 + ·) (hnone submission hstored hassignment))
      · exact (Repository.mem_insertRows hrows).mpr (.inr (kept_cleared hreview hsubmitted))
    · exact absurd hclash' hclash

/-- One assignment keeps the quota exactly under the condition. -/
theorem quotaKept_iff (h : Ready assignmentId s) :
    QuotaKept assignmentId s (assignReviewers place assignmentId s).2 ↔
      NoneOrAllSubmitted place assignmentId s := by
  rcases assignReviewers_cases h.length h.nodup_users rfl with
    ⟨hclash, hrun⟩ | ⟨hclash, peerReviews, hrows, hrun⟩
  · rw [hrun]
    exact quotaKept_cleared_iff hclash
  · rw [hrun]
    exact quotaKept_inserted_iff h hclash hrows

/-! ## Runs -/

/-- The state after a run of calls for one assignment, newest first. -/
def reached (assignmentId : String) (s₀ : State) : List Call → State
  | [] => s₀
  | i :: past => i.run assignmentId (reached assignmentId s₀ past)

/-- The submissions stay, or one of them is graded. -/
def Graded (s s' : State) : Prop :=
  s'.submissions = s.submissions ∨ ∃ old new, s.submissions.get new.id = some old ∧
    new.assignmentId = old.assignmentId ∧ new.userId = old.userId ∧
    s'.submissions = s.submissions.save new

theorem graded_calculateFinalGrade (submissionId : String) (s : State) :
    Graded s (calculateFinalGrade submissionId s) := by
  unfold calculateFinalGrade
  cases hget : s.submissions.get submissionId with
  | none => exact .inl rfl
  | some submission =>
    have hid : submission.id = submissionId := Repository.key_of_get hget
    have hstored : s.submissions.get submission.id = some submission := hid.symm ▸ hget
    dsimp only
    split
    · next grade _ =>
      let graded := { submission with finalGrade := some grade }
      exact .inr ⟨submission, graded, hstored, rfl, rfl, rfl⟩
    · split
      · exact .inl rfl
      · exact .inr ⟨submission, { submission with finalGrade := some _ }, hstored, rfl, rfl, rfl⟩

theorem graded_run (s : State) (i : Call) : Graded s (i.run assignmentId s) := by
  cases i with
  | assignReviewers place =>
    refine .inl ?_
    change (assignReviewers place assignmentId s).2.submissions = _
    unfold assignReviewers
    dsimp only
    split
    · rfl
    · split <;> rfl
  | grade call =>
    cases call with
    | submitPeerReview reviewerId submissionId scores overallFeedback =>
      change Graded s (submitPeerReview reviewerId submissionId scores overallFeedback s).2
      unfold submitPeerReview
      split
      · exact .inl rfl
      · exact graded_calculateFinalGrade submissionId _
    | instructorOverride submissionId grade feedback =>
      change Graded s (instructorOverride submissionId grade feedback s).2
      unfold instructorOverride
      split
      · exact .inl rfl
      · next submission hget =>
        have hid : submission.id = submissionId := Repository.key_of_get hget
        let graded : AssignmentSubmission :=
          { submission with
            instructorGrade := some grade
            instructorFeedback := some feedback
            finalGrade := some grade }
        exact .inr ⟨submission, graded, hid.symm ▸ hget, rfl, rfl, rfl⟩

theorem Ready.graded {s' : State} (h : Ready assignmentId s) (hgraded : Graded s s') :
    Ready assignmentId s' := by
  rcases hgraded with hsame | ⟨old, new, hold, hassignment, huser, hsaved⟩
  · exact ⟨hsame ▸ h.four, hsame ▸ h.users⟩
  · have hperm := Repository.map_find_save (f := AssignmentSubmission.userId)
      (p := fun x => x.assignmentId = assignmentId) hold (by rw [hassignment]) huser
    refine ⟨?_, ?_⟩
    · have hlength := hperm.length_eq
      rw [List.length_map, List.length_map] at hlength
      rw [hsaved, hlength]
      exact h.four
    · rw [hsaved]
      exact hperm.nodup_iff.mpr h.users

theorem ready_reached {s₀ : State} (h : Ready assignmentId s₀) (past : List Call) :
    Ready assignmentId (reached assignmentId s₀ past) := by
  induction past with
  | nil => exact h
  | cons i past ih => exact ih.graded (graded_run _ i)

/-- After every assignment of a run the quota is kept, exactly when every assignment of the run
finds no submitted reviews, or three of each submission one of which it assigns again. -/
theorem quota_kept_iff (assignmentId : String) (s₀ : State) (hready : Ready assignmentId s₀)
    (run : List Call) :
    (∀ place past, .assignReviewers place :: past <:+ run →
      QuotaKept assignmentId (reached assignmentId s₀ past)
        (reached assignmentId s₀ (.assignReviewers place :: past))) ↔
    ∀ place past, .assignReviewers place :: past <:+ run →
      NoneOrAllSubmitted place assignmentId (reached assignmentId s₀ past) :=
  forall₃_congr fun _ past _ => quotaKept_iff (ready_reached hready past)

def fourSubmitted : State where
  submissions := fourSubmissions.foldl Repository.save Repository.empty
  peerReviews := Repository.empty

theorem submittedOf_of_none (h : (s.peerReviews.find fun review => review.isSubmitted) = [])
    (submissionId : String) : submittedOf s submissionId = [] := by
  refine List.filter_eq_nil_iff.mpr fun review hreview hsubmitted => ?_
  have hstored := (Repository.mem_find.mp hreview).1
  exact List.not_mem_nil (h ▸ Repository.mem_find.mpr ⟨hstored, hsubmitted⟩)

/-- Reviewers are assigned, a submission is graded, and they are assigned again. -/
def reassigned : List Call :=
  [.assignReviewers fun _ => 0, .grade (.instructorOverride "s1" 90 ""),
    .assignReviewers fun _ => 0]

theorem quota_kept_iff_twice :
    Ready "a" fourSubmitted ∧
      ∀ place past, .assignReviewers place :: past <:+ reassigned →
        QuotaKept "a" (reached "a" fourSubmitted past)
          (reached "a" fourSubmitted (.assignReviewers place :: past)) := by
  have hready : Ready "a" fourSubmitted := ⟨by decide +kernel, by decide +kernel⟩
  refine ⟨hready, (quota_kept_iff "a" fourSubmitted hready reassigned).mpr ?_⟩
  intro place past hpast
  refine .inl fun submission _ _ => List.length_eq_zero_iff.mpr (submittedOf_of_none ?_ _)
  rcases List.suffix_cons_iff.mp hpast with heq | hpast
  · cases heq
    decide +kernel
  rcases List.suffix_cons_iff.mp hpast with heq | hpast
  · cases heq
  rcases List.suffix_cons_iff.mp hpast with heq | hpast
  · cases heq
    decide +kernel
  · cases List.suffix_nil.mp hpast

/-- Reviewers are assigned, one of them submits a review, and they are assigned again. -/
def assignedAgain : List Call :=
  [.assignReviewers fun _ => 0, .grade (.submitPeerReview "u1" "s2" [] ""),
    .assignReviewers fun _ => 0]

theorem reviews_lost :
    ((reached "a" fourSubmitted assignedAgain).peerReviews.find fun _ => true).length = 1 ∧
    ¬ ∀ place past, .assignReviewers place :: past <:+ assignedAgain →
      QuotaKept "a" (reached "a" fourSubmitted past)
        (reached "a" fourSubmitted (.assignReviewers place :: past)) := by
  refine ⟨by decide +kernel, fun hkept => ?_⟩
  have hquota := (hkept (fun _ => 0) _ (List.suffix_refl _)).quota
    ⟨"s1", "a", "u1", 1, none, none, none⟩ (by decide +kernel) rfl
  revert hquota
  decide +kernel

end Scoopdope.Assignments
