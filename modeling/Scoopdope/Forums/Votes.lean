import Scoopdope.Database.Bulk
import Scoopdope.Database.Repository
import Scoopdope.Server.Http

/-!
# Forums: votes

`votePost` and `voteReply` of `ForumsService` (`forums/forums.service.ts`), with the columns of
posts, replies and votes that they read. A call runs to its end before the next one.

`applyVote` takes the place of `Math.max(0, ...)` as a parameter, so that it can be left out.
-/

namespace Scoopdope.Forums

open Database Server

inductive VoteDirection
  | up
  | down
deriving DecidableEq

inductive VoteTarget
  | post
  | reply
deriving DecidableEq

structure ForumVote where
  id : String
  userId : String
  targetType : VoteTarget
  targetId : String
  direction : VoteDirection
deriving DecidableEq

/-- `T extends { upvotes: number; downvotes: number }`: a post or a reply. -/
structure Target where
  id : String
  upvotes : Int
  downvotes : Int
deriving DecidableEq

abbrev Votes : Type := Repository ForumVote.id

structure State where
  posts : Repository Target.id
  replies : Repository Target.id
  votes : Votes

def State.targets (s : State) : VoteTarget → Repository Target.id
  | .post => s.posts
  | .reply => s.replies

/-- `target.upvotes = ...` or `target.downvotes = ...` -/
def Target.change (target : Target) (direction : VoteDirection) (f : Int → Int) : Target :=
  match direction with
  | .up => { target with upvotes := f target.upvotes }
  | .down => { target with downvotes := f target.downvotes }

def votesOf (userId : String) (targetType : VoteTarget) (targetId : String) (vote : ForumVote) :
    Bool :=
  vote.userId = userId && vote.targetType = targetType && vote.targetId = targetId

def duplicateKey : HttpException := .internal "duplicate key value violates unique constraint"

/-- An insertion is refused if the key is taken or there is a row with the same user and target
(`@Index(['userId', 'targetType', 'targetId'], { unique: true })`). -/
def insertVote (vote : ForumVote) (votes : Votes) : Except HttpException Votes :=
  if (votes.get vote.id).isSome ||
      (votes.findOne (votesOf vote.userId vote.targetType vote.targetId)).isSome then
    .error duplicateKey
  else .ok (votes.save vote)

/-- The direction is none for `'remove'`; `key` is the primary key of a vote that is inserted. -/
def applyVote (clamp : Int → Int) (key : String) (targetType : VoteTarget)
    (targetId userId : String) (direction : Option VoteDirection) (target : Target)
    (votes : Votes) : Except HttpException (Target × Votes) :=
  match direction, votes.findOne (votesOf userId targetType targetId) with
  | none, some existing =>
    .ok (target.change existing.direction fun n => clamp (n - 1), votes.remove existing.id)
  | none, none => .ok (target, votes)
  | some direction, some existing =>
    if existing.direction ≠ direction then
      -- The other counter gets the vote.
      .ok ((target.change existing.direction fun n => clamp (n - 1)).change direction
        fun n => n + 1, votes.save { existing with direction })
    else .ok (target, votes)
  | some direction, none =>
    match insertVote { id := key, userId, targetType, targetId, direction } votes with
    | .error x => .error x
    | .ok votes => .ok (target.change direction fun n => n + 1, votes)

def votePostWith (clamp : Int → Int) (key postId userId : String)
    (direction : Option VoteDirection) (s : State) : Except HttpException Target × State :=
  match s.posts.get postId with
  | none => (.error (.notFound "Post not found"), s)
  | some post =>
    match applyVote clamp key .post postId userId direction post s.votes with
    | .error x => (.error x, s)
    | .ok (post, votes) => (.ok post, { s with posts := s.posts.save post, votes })

def voteReplyWith (clamp : Int → Int) (key replyId userId : String)
    (direction : Option VoteDirection) (s : State) : Except HttpException Target × State :=
  match s.replies.get replyId with
  | none => (.error (.notFound "Reply not found"), s)
  | some reply =>
    match applyVote clamp key .reply replyId userId direction reply s.votes with
    | .error x => (.error x, s)
    | .ok (reply, votes) => (.ok reply, { s with replies := s.replies.save reply, votes })

/-- `Math.max(0, ...)` -/
def votePost : String → String → String → Option VoteDirection → State →
    Except HttpException Target × State := votePostWith (max 0)

def voteReply : String → String → String → Option VoteDirection → State →
    Except HttpException Target × State := voteReplyWith (max 0)

/-! ## Runs -/

structure Call where
  key : String
  targetType : VoteTarget
  targetId : String
  userId : String
  direction : Option VoteDirection

def Call.runWith (clamp : Int → Int) (i : Call) (s : State) : Except HttpException Target × State :=
  match i.targetType with
  | .post => votePostWith clamp i.key i.targetId i.userId i.direction s
  | .reply => voteReplyWith clamp i.key i.targetId i.userId i.direction s

def Call.run (i : Call) (s : State) : Except HttpException Target × State :=
  match i.targetType with
  | .post => votePost i.key i.targetId i.userId i.direction s
  | .reply => voteReply i.key i.targetId i.userId i.direction s

/-- The state after a run of calls, newest first. -/
def reached (s₀ : State) : List Call → State
  | [] => s₀
  | i :: past => (i.run (reached s₀ past)).2

end Scoopdope.Forums

/-!
## Forums: what the counters count

`vote_counters_exact`: throughout every run of votes, each counter of a post or reply is the number
of its rows with that direction, nobody has two rows for one target, and the bounds at zero change
no call.
-/

namespace Scoopdope.Forums

open Database Server

/-- The row is a vote for the target in this direction. -/
def isVote (targetType : VoteTarget) (targetId : String) (direction : VoteDirection)
    (vote : ForumVote) : Bool :=
  vote.targetType = targetType && vote.targetId = targetId && vote.direction = direction

/-- How many rows there are for a target. -/
def count (votes : Votes) (targetType : VoteTarget) (targetId : String)
    (direction : VoteDirection) : Int :=
  (votes.find (isVote targetType targetId direction)).length

def Target.counter (target : Target) : VoteDirection → Int
  | .up => target.upvotes
  | .down => target.downvotes

/-- Nobody has two rows for one target. -/
def Once (votes : Votes) : Prop :=
  ∀ vote ∈ votes, ∀ other ∈ votes, vote.userId = other.userId →
    vote.targetType = other.targetType → vote.targetId = other.targetId → vote = other

/-- Every counter is the number of rows, and nobody has two rows for one target. -/
structure Tallied (s : State) : Prop where
  counted : ∀ targetType, ∀ target ∈ s.targets targetType, ∀ direction,
    target.counter direction = count s.votes targetType target.id direction
  once : Once s.votes

/-! ## One vote -/

variable {clamp : Int → Int} {key targetId userId : String} {targetType : VoteTarget}
  {direction : Option VoteDirection} {target target' : Target} {votes votes' : Votes} {s : State}

@[simp] theorem change_id (direction : VoteDirection) (f : Int → Int) :
    (target.change direction f).id = target.id := by
  cases direction <;> rfl

theorem change_counter (direction other : VoteDirection) (f : Int → Int) :
    (target.change direction f).counter other =
      if other = direction then f (target.counter other) else target.counter other := by
  cases direction <;> cases other <;> rfl

theorem votesOf_eq_true {vote : ForumVote} : votesOf userId targetType targetId vote = true ↔
    vote.userId = userId ∧ vote.targetType = targetType ∧ vote.targetId = targetId := by
  simp only [votesOf, Bool.and_eq_true, decide_eq_true_eq, and_assoc]

theorem isVote_eq_true {d : VoteDirection} {vote : ForumVote} :
    isVote targetType targetId d vote = true ↔
      vote.targetType = targetType ∧ vote.targetId = targetId ∧ vote.direction = d := by
  simp only [isVote, Bool.and_eq_true, decide_eq_true_eq, and_assoc]

/-- A vote for the target counts in its direction. -/
theorem isVote_of_votesOf {vote : ForumVote} (h : votesOf userId targetType targetId vote = true)
    (d : VoteDirection) : isVote targetType targetId d vote = decide (vote.direction = d) := by
  obtain ⟨-, htype, hid⟩ := votesOf_eq_true.mp h
  rw [isVote, decide_eq_true htype, decide_eq_true hid, Bool.true_and, Bool.true_and]

/-- It does not count for another one. -/
theorem isVote_of_ne {vote : ForumVote} (h : votesOf userId targetType targetId vote = true)
    {type' : VoteTarget} {id' : String} (hne : ¬ (type' = targetType ∧ id' = targetId))
    (d : VoteDirection) : isVote type' id' d vote = false := by
  obtain ⟨-, htype, hid⟩ := votesOf_eq_true.mp h
  refine Bool.eq_false_iff.mpr fun hvote => hne ?_
  obtain ⟨htype', hid', -⟩ := isVote_eq_true.mp hvote
  exact ⟨htype'.symm.trans htype, hid'.symm.trans hid⟩

section Rows

variable {old : ForumVote} (vote : ForumVote) (type' : VoteTarget) (id' : String)
  (d : VoteDirection)

theorem count_remove (h : old ∈ votes) : count (votes.remove old.id) type' id' d =
    count votes type' id' d - if isVote type' id' d old then 1 else 0 := by
  have hlength := Repository.length_find_remove (p := isVote type' id' d) h
  unfold count
  grind

theorem count_replace (h : old ∈ votes) (hid : vote.id = old.id) :
    count (votes.save vote) type' id' d = count votes type' id' d -
      (if isVote type' id' d old then 1 else 0) + if isVote type' id' d vote then 1 else 0 := by
  have hlength := Repository.length_find_replace (p := isVote type' id' d) h hid
  unfold count
  grind

theorem count_insert (h : votes.get vote.id = none) : count (votes.save vote) type' id' d =
    count votes type' id' d + if isVote type' id' d vote then 1 else 0 := by
  unfold count
  rw [Repository.find_save_new h]
  split
  · exact Nat.cast_succ _
  · exact (Int.add_zero _).symm

end Rows

/-- What a vote does: the counters of its target change as the rows do, and nobody has two rows for
one target. -/
structure Counts (targetType : VoteTarget) (target target' : Target) (votes votes' : Votes) :
    Prop where
  id : target'.id = target.id
  counter : ∀ d, target'.counter d - target.counter d =
    count votes' targetType target.id d - count votes targetType target.id d
  others : ∀ type' id' d, ¬ (type' = targetType ∧ id' = target.id) →
    count votes' type' id' d = count votes type' id' d
  once : Once votes'

/-- The vote that is found. -/
theorem existing_spec {existing : ForumVote}
    (h : votes.findOne (votesOf userId targetType targetId) = some existing) :
    existing ∈ votes ∧ votesOf userId targetType targetId existing = true :=
  ⟨(Repository.findOne_some h).2, (Repository.findOne_some h).1⟩

theorem counts_remove {existing : ForumVote} (honce : Once votes) (hexisting : existing ∈ votes)
    (hfor : votesOf userId targetType target.id existing = true) :
    Counts targetType target (target.change existing.direction fun n => n - 1) votes
      (votes.remove existing.id) := by
  refine ⟨change_id _ _, fun d => ?_, fun type' id' d hne => ?_, ?_⟩
  · rw [count_remove _ _ _ hexisting, isVote_of_votesOf hfor, change_counter]
    simp only [decide_eq_true_iff, eq_comm (a := d)]
    split <;> omega
  · rw [count_remove _ _ _ hexisting, isVote_of_ne hfor hne]
    exact Int.sub_zero _
  · intro vote hvote other hother
    exact honce vote (Repository.mem_remove.mp hvote).1 other (Repository.mem_remove.mp hother).1

theorem counts_switch {existing : ForumVote} {d : VoteDirection} (honce : Once votes)
    (hexisting : existing ∈ votes)
    (hfor : votesOf userId targetType target.id existing = true) :
    Counts targetType target
      ((target.change existing.direction fun n => n - 1).change d fun n => n + 1) votes
      (votes.save { existing with direction := d }) := by
  let switched : ForumVote := { existing with direction := d }
  have hfor' : votesOf userId targetType target.id switched = true := hfor
  have hcount (type' : VoteTarget) (id' : String) (d' : VoteDirection) :=
    count_replace switched type' id' d' hexisting rfl
  refine ⟨(change_id _ _).trans (change_id _ _), fun d' => ?_, fun type' id' d' hne => ?_, ?_⟩
  · rw [hcount, isVote_of_votesOf hfor, isVote_of_votesOf hfor', change_counter, change_counter]
    grind
  · rw [hcount, isVote_of_ne hfor hne, isVote_of_ne hfor' hne]
    exact (Int.add_zero _).trans (Int.sub_zero _)
  · -- Whoever has the row that is written had the one it replaces.
    intro vote hvote other hother huser htype hid
    have hsame {row : ForumVote} (hrow : row ∈ votes) (hrowUser : row.userId = existing.userId)
        (hrowType : row.targetType = existing.targetType)
        (hrowId : row.targetId = existing.targetId) : row.id = existing.id :=
      congrArg ForumVote.id (honce row hrow existing hexisting hrowUser hrowType hrowId)
    rcases Repository.mem_save.mp hvote with rfl | ⟨hvote, hne⟩
    · rcases Repository.mem_save.mp hother with rfl | ⟨hother, hne⟩
      · rfl
      · exact absurd (hsame hother huser.symm htype.symm hid.symm) hne
    · rcases Repository.mem_save.mp hother with rfl | ⟨hother, hne'⟩
      · exact absurd (hsame hvote huser htype hid) hne
      · exact honce vote hvote other hother huser htype hid

theorem counts_insert (vote : ForumVote) (honce : Once votes) (hnew : votes.get vote.id = none)
    (hnone : votes.findOne (votesOf vote.userId targetType target.id) = none)
    (hfor : votesOf vote.userId targetType target.id vote = true) :
    Counts targetType target (target.change vote.direction fun n => n + 1) votes
      (votes.save vote) := by
  refine ⟨change_id _ _, fun d => ?_, fun type' id' d hne => ?_, ?_⟩
  · rw [count_insert _ _ _ _ hnew, isVote_of_votesOf hfor, change_counter]
    grind
  · rw [count_insert _ _ _ _ hnew, isVote_of_ne hfor hne]
    exact Int.add_zero _
  · -- There was no row of this user for the target.
    obtain ⟨-, hvoteType, hvoteId⟩ := votesOf_eq_true.mp hfor
    have hother {row : ForumVote} (hrow : row ∈ votes) (hrowUser : row.userId = vote.userId)
        (hrowType : row.targetType = vote.targetType) (hrowId : row.targetId = vote.targetId) :
        False := by
      have hnot := Repository.findOne_eq_none.mp hnone row hrow
      rw [votesOf_eq_true.mpr ⟨hrowUser, hrowType.trans hvoteType, hrowId.trans hvoteId⟩] at hnot
      cases hnot
    intro first hfirst second hsecond huser htype hid
    rcases Repository.mem_save.mp hfirst with rfl | ⟨hold, -⟩
    · rcases Repository.mem_save.mp hsecond with rfl | ⟨hold, -⟩
      · rfl
      · exact (hother hold huser.symm htype.symm hid.symm).elim
    · rcases Repository.mem_save.mp hsecond with rfl | ⟨hold', -⟩
      · exact (hother hold huser htype hid).elim
      · exact honce first hold second hold' huser htype hid

theorem counts_refl (honce : Once votes) : Counts targetType target target votes votes :=
  ⟨rfl, fun _ => (Int.sub_self _).trans (Int.sub_self _).symm, fun _ _ _ _ => rfl, honce⟩

theorem insertVote_ok {vote : ForumVote} (h : insertVote vote votes = .ok votes') :
    votes.get vote.id = none ∧ votes' = votes.save vote := by
  unfold insertVote at h
  split at h
  · cases h
  · next hfree =>
    cases h
    rw [Bool.not_eq_true, Bool.or_eq_false_iff, Option.isSome_eq_false_iff,
      Option.isNone_iff_eq_none] at hfree
    exact ⟨hfree.1, rfl⟩

/-- A vote without bounds at zero counts. -/
theorem counts_applyVote (honce : Once votes)
    (h : applyVote id key targetType target.id userId direction target votes =
      .ok (target', votes')) : Counts targetType target target' votes votes' := by
  unfold applyVote at h
  cases hfound : votes.findOne (votesOf userId targetType target.id) with
  | some existing =>
    obtain ⟨hexisting, hfor⟩ := existing_spec hfound
    rw [hfound] at h
    cases direction with
    | none =>
      cases h
      exact counts_remove honce hexisting hfor
    | some d =>
      dsimp only at h
      split at h
      · cases h
        exact counts_switch honce hexisting hfor
      · cases h
        exact counts_refl honce
  | none =>
    rw [hfound] at h
    cases direction with
    | none =>
      cases h
      exact counts_refl honce
    | some d =>
      dsimp only at h
      split at h
      · cases h
      · next votes'' hinsert =>
        cases h
        obtain ⟨hnew, rfl⟩ := insertVote_ok hinsert
        exact counts_insert ⟨key, userId, targetType, target.id, d⟩ honce hnew hfound
          (votesOf_eq_true.mpr ⟨rfl, rfl, rfl⟩)

/-- Where the counter is the number of rows, the bound at zero does not matter. -/
theorem applyVote_max (hcounted : ∀ d, target.counter d = count votes targetType target.id d) :
    applyVote (max 0) key targetType target.id userId direction target votes =
      applyVote id key targetType target.id userId direction target votes := by
  unfold applyVote
  cases hfound : votes.findOne (votesOf userId targetType target.id) with
  | none => cases direction <;> rfl
  | some existing =>
    obtain ⟨hexisting, hfor⟩ := existing_spec hfound
    have hpos : 1 ≤ target.counter existing.direction := by
      have hmem : existing ∈ votes.find (isVote targetType target.id existing.direction) :=
        Repository.mem_find.mpr
          ⟨hexisting, (isVote_of_votesOf hfor _).trans (decide_eq_true rfl)⟩
      have hlength := List.length_pos_of_mem hmem
      rw [hcounted, count]
      omega
    have hchange : (target.change existing.direction fun n => max 0 (n - 1)) =
        target.change existing.direction fun n => id (n - 1) := by
      cases hdirection : existing.direction with
      | up =>
        rw [hdirection] at hpos
        exact congrArg (Target.mk target.id · target.downvotes)
          (max_eq_right (Int.sub_nonneg_of_le hpos))
      | down =>
        rw [hdirection] at hpos
        exact congrArg (Target.mk target.id target.upvotes)
          (max_eq_right (Int.sub_nonneg_of_le hpos))
    cases direction with
    | none =>
      dsimp only
      rw [hchange]
    | some d =>
      dsimp only
      rw [hchange]

/-! ## Runs -/

/-- The target of a vote is written, and with it its rows. -/
theorem Tallied.vote {s' : State} (h : Tallied s) (htarget : target ∈ s.targets targetType)
    (hcounts : Counts targetType target target' s.votes s'.votes)
    (hsaved : s'.targets targetType = (s.targets targetType).save target')
    (hothers : ∀ type', type' ≠ targetType → s'.targets type' = s.targets type') : Tallied s' := by
  refine ⟨fun type' other hother d => ?_, hcounts.once⟩
  by_cases htype : type' = targetType
  · subst htype
    rw [hsaved] at hother
    rcases Repository.mem_save.mp hother with rfl | ⟨hother, hne⟩
    · have hcounter := hcounts.counter d
      have hbefore := h.counted type' target htarget d
      rw [hcounts.id]
      omega
    · rw [h.counted type' other hother d, hcounts.others]
      rintro ⟨-, hid⟩
      exact hne (hid.trans hcounts.id.symm)
  · rw [hothers type' htype] at hother
    rw [h.counted type' other hother d, hcounts.others type' other.id d fun heq => htype heq.1]

/-- A call keeps the tallies, and is the call without the bounds. -/
theorem tallied_run (h : Tallied s) (i : Call) :
    Tallied (i.run s).2 ∧ i.run s = i.runWith id s := by
  obtain ⟨key, targetType, targetId, userId, direction⟩ := i
  cases targetType with
  | post =>
    change Tallied (votePostWith (max 0) key targetId userId direction s).2 ∧
      votePostWith (max 0) key targetId userId direction s =
        votePostWith id key targetId userId direction s
    unfold votePostWith
    cases hget : s.posts.get targetId with
    | none => exact ⟨h, rfl⟩
    | some post =>
      obtain rfl : post.id = targetId := Repository.key_of_get hget
      dsimp only
      rw [applyVote_max (h.counted .post post hget)]
      cases hvote : applyVote id key .post post.id userId direction post s.votes with
      | error x => exact ⟨h, rfl⟩
      | ok result =>
        refine ⟨h.vote hget (counts_applyVote h.once hvote) rfl fun type' hne => ?_, rfl⟩
        cases type' with
        | post => exact absurd rfl hne
        | reply => exact rfl
  | reply =>
    change Tallied (voteReplyWith (max 0) key targetId userId direction s).2 ∧
      voteReplyWith (max 0) key targetId userId direction s =
        voteReplyWith id key targetId userId direction s
    unfold voteReplyWith
    cases hget : s.replies.get targetId with
    | none => exact ⟨h, rfl⟩
    | some reply =>
      obtain rfl : reply.id = targetId := Repository.key_of_get hget
      dsimp only
      rw [applyVote_max (h.counted .reply reply hget)]
      cases hvote : applyVote id key .reply reply.id userId direction reply s.votes with
      | error x => exact ⟨h, rfl⟩
      | ok result =>
        refine ⟨h.vote hget (counts_applyVote h.once hvote) rfl fun type' hne => ?_, rfl⟩
        cases type' with
        | post => exact rfl
        | reply => exact absurd rfl hne

/-- Throughout every run of votes that starts without votes and with all counters at zero, each
counter is the number of rows, nobody has two rows for one target, and without the bounds at zero
every call does the same. -/
theorem vote_counters_exact (s₀ : State)
    (hzero : ∀ targetType, ∀ target ∈ s₀.targets targetType,
      target.upvotes = 0 ∧ target.downvotes = 0)
    (hnone : ∀ vote, vote ∉ s₀.votes) (past : List Call) :
    Tallied (reached s₀ past) ∧
      ∀ i : Call, i.run (reached s₀ past) = i.runWith id (reached s₀ past) := by
  have htallied : Tallied (reached s₀ past) := by
    induction past with
    | nil =>
      refine ⟨fun targetType target htarget d => ?_, fun vote hvote => absurd hvote (hnone vote)⟩
      have hempty : s₀.votes.find (isVote targetType target.id d) = [] :=
        List.eq_nil_iff_forall_not_mem.mpr fun vote hvote =>
          hnone vote (Repository.mem_find.mp hvote).1
      obtain ⟨hup, hdown⟩ := hzero targetType target htarget
      rw [reached, count, hempty]
      cases d with
      | up => exact hup
      | down => exact hdown
    | cons i past ih => exact (tallied_run ih i).1
  exact ⟨htallied, fun i => (tallied_run htallied i).2⟩

/-- A post and a reply under one id. -/
def exampleForum : State where
  posts := Repository.empty.save ⟨"t1", 0, 0⟩
  replies := Repository.empty.save ⟨"t1", 0, 0⟩
  votes := Repository.empty

/-- Two users vote for the post, one of them changes sides, and one for the reply. -/
def exampleVotes : List Call :=
  [⟨"v4", .post, "t1", "u2", some .down⟩, ⟨"v3", .reply, "t1", "u1", some .down⟩,
    ⟨"v2", .post, "t1", "u2", some .up⟩, ⟨"v1", .post, "t1", "u1", some .up⟩]

theorem vote_counters_exact_switch :
    Tallied (reached exampleForum exampleVotes) ∧
      (reached exampleForum exampleVotes).posts.get "t1" = some ⟨"t1", 1, 1⟩ := by
  have hzero : ∀ targetType, ∀ target ∈ exampleForum.targets targetType,
      target.upvotes = 0 ∧ target.downvotes = 0 := by
    intro targetType target htarget
    have hsaved : target ∈ exampleForum.posts := by
      cases targetType <;> exact htarget
    rcases Repository.mem_save.mp hsaved with rfl | ⟨hempty, -⟩
    · exact ⟨rfl, rfl⟩
    · exact absurd hempty Repository.not_mem_empty
  exact ⟨(vote_counters_exact exampleForum hzero (fun _ => Repository.not_mem_empty)
    exampleVotes).1, by decide +kernel⟩

end Scoopdope.Forums
